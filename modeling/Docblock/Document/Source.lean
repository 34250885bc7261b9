import Docblock.Document.Line
import Docblock.Document.LineRange

/-!
# Sources

What a scan reads: a number of lines, the text of each, and the language they
are written in. A source may announce more lines than it can hand out; reading
stops at the first missing one.
-/

namespace Docblock

/-- Read access to the lines of a text. -/
structure Source where
  /-- The announced number of lines. -/
  lineCount : Nat
  /-- The text of a line, counted from zero. -/
  text? : Nat → Option Text
  /-- The identifier of the language. -/
  language : Text

namespace Source

/-- The line with a number. -/
def line? (source : Source) (number : Nat) : Option Line :=
  (source.text? number).map (Line.mk number)

/-- At most `count` lines from a number on, up to the first missing one. -/
def linesFrom (source : Source) : (start count : Nat) → List Line
  | _, 0 => []
  | start, count + 1 =>
    match source.line? start with
    | none => []
    | some line => line :: linesFrom source (start + 1) count

/-- The lines of a range. -/
def linesIn (source : Source) (range : LineRange) : List Line :=
  source.linesFrom range.start range.size

/-- The range of all announced lines. -/
def fullRange? (source : Source) : Option LineRange := LineRange.full? source.lineCount

/-- A source made of given lines that announces `lineCount` of them. -/
def ofLines (lines : List Text) (lineCount : Nat) (language : Text) : Source :=
  ⟨lineCount, fun number => lines[number]?, language⟩

end Source

end Docblock
