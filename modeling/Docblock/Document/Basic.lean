import Docblock.Document.Source

/-!
# Documents

A document is a text cut into rows. Each row keeps the break that ended it, so
a text with mixed line breaks is written back as it was. New text takes the
break that ends most rows.
-/

namespace Docblock

/-- How a row ends. -/
inductive Break where
  /-- The row is the last one. -/
  | none
  /-- A line feed. -/
  | lf
  /-- A carriage return and a line feed. -/
  | crlf
  deriving DecidableEq, Repr

/-- The characters of a break. -/
def Break.text : Break → Text
  | .none => []
  | .lf => ['\n']
  | .crlf => ['\r', '\n']

/-- A line of a document with the break behind it. -/
structure Row where
  /-- The text of the line. -/
  text : Text
  /-- The break behind it. -/
  ending : Break
  deriving DecidableEq, Repr

namespace Row

/-- The characters of a row, its break included. -/
def content (row : Row) : Text := row.text ++ row.ending.text

/-- Put a character in front of the first of some rows. -/
def consFirst (c : Char) : List Row → List Row
  | [] => [⟨[c], .none⟩]
  | row :: rest => ⟨c :: row.text, row.ending⟩ :: rest

/-- Cut a text into rows. A carriage return belongs to the break only when the
line feed follows it at once. -/
def ofText : Text → List Row
  | [] => [⟨[], .none⟩]
  | '\n' :: r => ⟨[], .lf⟩ :: ofText r
  | '\r' :: '\n' :: r => ⟨[], .crlf⟩ :: ofText r
  | c :: r => consFirst c (ofText r)

end Row

/-- A text in rows, and its language. -/
structure Document where
  /-- The rows in order. -/
  rows : List Row
  /-- The identifier of the language. -/
  language : Text
  deriving DecidableEq, Repr

namespace Document

/-- Cut a text into a document. -/
def ofText (language content : Text) : Document := ⟨Row.ofText content, language⟩

/-- The whole text of a document. -/
def content (document : Document) : Text := document.rows.flatMap Row.content

/-- The lines without their breaks. -/
def lines (document : Document) : List Text := document.rows.map Row.text

/-- The break behind a line; there is none past the last line. -/
def breakAfter (document : Document) (number : Nat) : Break :=
  (document.rows[number]?.map Row.ending).getD .none

/-- The break for new text: the one that ends most rows, and the line feed when
both end equally many. -/
def lineEnding (document : Document) : Break :=
  let count (ending : Break) := document.rows.countP (·.ending = ending)
  if count .lf < count .crlf then .crlf else .lf

/-- Read access to a document. -/
def toSource (document : Document) : Source :=
  ⟨document.rows.length, fun number => document.rows[number]?.map Row.text, document.language⟩

end Document

end Docblock
