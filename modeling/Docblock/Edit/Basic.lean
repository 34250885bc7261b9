import Docblock.Document.Position

/-!
# Edits

An edit puts text at a position, and may take away the text up to a second
position. All positions of a batch refer to the same unedited document.
-/

namespace Docblock

/-- One edit of a document. -/
structure Edit where
  /-- Where the text goes. -/
  position : Position
  /-- The end of the text that is taken away, if any is. -/
  replacesUntil : Option Position
  /-- The new text. -/
  text : Text
  deriving DecidableEq, Repr

namespace Edit

/-- Insert text without taking any away. -/
def insert (position : Position) (text : Text) : Edit := ⟨position, none, text⟩

/-- Replace the text between two positions. -/
def replace (start finish : Position) (text : Text) : Edit := ⟨start, some finish, text⟩

end Edit

/-- Why a batch of edits cannot be applied. -/
inductive EditError where
  /-- A position is not in the document. -/
  | outOfBounds (position : Position)
  /-- A replacement ends before it starts. -/
  | inverted (start finish : Position)
  /-- An edit starts inside the text that an earlier one takes away. -/
  | overlap (position : Position)
  deriving DecidableEq, Repr

/-- The message for a refused batch. -/
def EditError.message : EditError → Text
  | outOfBounds position =>
    "Edit position ".toList ++ position.render ++ " is outside the document".toList
  | inverted start finish =>
    "Replacement ending at ".toList ++ finish.render ++ " starts after it ends (start ".toList ++
    start.render ++ ")".toList
  | overlap position =>
    "Edit at ".toList ++ position.render ++
    " overlaps a text span already replaced by this batch".toList

end Docblock
