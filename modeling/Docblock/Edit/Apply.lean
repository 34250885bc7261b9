import Docblock.Document.Basic
import Docblock.Edit.Basic

/-!
# Applying a batch of edits

A batch is applied as a whole or not at all. The positions are turned into
offsets in the text, the edits are put in the order of their offsets, edits at
one offset keeping the order of the batch, and one walk over the text then
copies what lies between them.
-/

namespace Docblock

/-- The offset of a character of a line in the text of some rows; the place
behind the last character of a line counts as in the line. -/
def Row.offset? : List Row → (line character : Nat) → Option Nat
  | [], _, _ => none
  | row :: _, 0, character => if character ≤ row.text.length then some character else none
  | row :: rest, line + 1, character =>
    (offset? rest line character).map (row.content.length + ·)

namespace Document

/-- The offset of a position in the text of a document. -/
def offset (document : Document) (position : Position) : Except EditError Nat :=
  match Row.offset? document.rows position.line position.character with
  | some offset => .ok offset
  | none => .error (.outOfBounds position)

end Document

/-- An edit with its place in the text: it takes away the characters from
`start` up to `stop`. -/
structure Span where
  /-- The offset of the first character taken away. -/
  start : Nat
  /-- The offset behind the last character taken away. -/
  stop : Nat
  /-- The edit itself. -/
  edit : Edit
  deriving DecidableEq, Repr

namespace Span

/-- Find the place of an edit: first its position, then the order of its two
positions, then the second position. -/
def ofEdit (document : Document) (edit : Edit) : Except EditError Span :=
  match document.offset edit.position with
  | .error e => .error e
  | .ok start =>
    match edit.replacesUntil with
    | none => .ok ⟨start, start, edit⟩
    | some finish =>
      if finish.isBefore edit.position then .error (.inverted edit.position finish)
      else
        match document.offset finish with
        | .error e => .error e
        | .ok stop => .ok ⟨start, stop, edit⟩

/-- The places of all edits of a batch, or the error of the first edit that has
none. -/
def ofEdits (document : Document) : List Edit → Except EditError (List Span)
  | [] => .ok []
  | edit :: rest =>
    match ofEdit document edit with
    | .error e => .error e
    | .ok span =>
      match ofEdits document rest with
      | .error e => .error e
      | .ok spans => .ok (span :: spans)

/-- Put a span in front of those that start at its offset or later. -/
def insertSorted (span : Span) : List Span → List Span
  | [] => [span]
  | next :: rest =>
    if span.start ≤ next.start then span :: next :: rest else next :: insertSorted span rest

/-- Sort by start; spans with one start keep their order. -/
def sort (spans : List Span) : List Span := spans.foldr insertSorted []

/-- Walk over the text from an offset on, given the text behind that offset,
and put in the new texts with the given line ending. -/
def weave (ending : Text) : (cursor : Nat) → (rest : Text) → List Span → Except EditError Text
  | _, rest, [] => .ok rest
  | cursor, rest, span :: spans =>
    if span.start < cursor then .error (.overlap span.edit.position)
    else
      match weave ending span.stop (rest.drop (span.stop - cursor)) spans with
      | .error e => .error e
      | .ok tail =>
        .ok (rest.take (span.start - cursor) ++ Text.replaceChar '\n' ending span.edit.text ++ tail)

end Span

/-- The text of a document after a batch of edits. -/
def Document.apply (document : Document) (batch : List Edit) : Except EditError Text :=
  match Span.ofEdits document batch with
  | .error e => .error e
  | .ok spans => Span.weave document.lineEnding.text 0 document.content (Span.sort spans)

end Docblock
