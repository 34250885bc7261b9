import Docblock.Document.Position
import Docblock.Text.Blank

/-!
# Lines

One physical line of a source together with its number. The text does not
hold the line break.
-/

namespace Docblock

/-- A numbered line without its line break. -/
structure Line where
  /-- The zero-based number of the line. -/
  number : Nat
  /-- The text of the line. -/
  text : Text
  deriving DecidableEq, Repr

namespace Line

/-- The text without the blanks around it. -/
def trimmed (line : Line) : Text := Text.trim line.text

/-- The blanks the line starts with. -/
def indent (line : Line) : Text := Text.indent line.text

/-- The column of the first character that is not blank, or the length of a
blank line. -/
def firstColumn (line : Line) : Nat := line.indent.length

/-- The place in front of the line. -/
def start (line : Line) : Position := ⟨line.number, 0⟩

/-- The place behind the last character of the line. -/
def finish (line : Line) : Position := ⟨line.number, line.text.length⟩

/-- Whether the line has no characters at all. -/
def isEmpty (line : Line) : Bool := line.text.isEmpty

end Line

end Docblock
