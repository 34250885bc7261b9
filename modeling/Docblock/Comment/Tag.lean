import Docblock.Text.Blank
import Docblock.Text.Word

/-!
# Tags of a comment

A tag is an at sign with one of a few words behind it; its value is the text up
to the next at sign. The value loses the blanks around it and any comment
closers at its end.
-/

namespace Docblock

open Text

/-- The kinds of tags that are read. -/
inductive TagKind where
  /-- The tag that names a method. -/
  | method
  /-- The tag of one parameter. -/
  | param
  /-- The tag of the returned value, in either spelling. -/
  | returns
  deriving DecidableEq, Repr

/-- The name of a kind of tag in the log. -/
def TagKind.label : TagKind → Text
  | .method => "Method".toList
  | .param => "Param".toList
  | .returns => "Return".toList

/-- A tag of a comment. -/
structure Tag where
  /-- Which word stands behind the at sign. -/
  kind : TagKind
  /-- The text that belongs to the tag. -/
  value : Text
  deriving DecidableEq, Repr

namespace Tag

/-- The words that make a tag, longer ones in front of their beginnings. -/
def keywords : List (Text × TagKind) :=
  [("method".toList, .method), ("param".toList, .param), ("returns".toList, .returns),
    ("return".toList, .returns)]

/-- Drop comment closers from the front of a text written backwards. -/
def dropClosersBackwards : Text → Text
  | '/' :: '*' :: r => dropClosersBackwards r
  | t => t

/-- Drop all comment closers at the end of a text. -/
def dropClosers (t : Text) : Text := (dropClosersBackwards t.reverse).reverse

/-- The value of a tag in the text behind its word. -/
def valueOf (t : Text) : Text := trim (dropClosers (trim (t.takeWhile (· ≠ '@'))))

/-- The tag in the text behind an at sign. -/
def behindAt? (t : Text) : Option Tag :=
  keywords.findSome? fun (word, kind) => (keyword? word t).map fun rest => ⟨kind, valueOf rest⟩

/-- All tags of a line, from the left. A value never reaches over an at sign,
so every at sign is looked at. -/
def all : Text → List Tag
  | [] => []
  | c :: r => if c = '@' then (behindAt? r).toList ++ all r else all r

end Tag

end Docblock
