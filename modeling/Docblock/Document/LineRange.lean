import Docblock.Text.Blank

/-!
# Ranges of lines

The part of a source that a scan looks at, and the way a person writes it: two
line numbers counted from one, with a colon between them.
-/

namespace Docblock

/-- A range of lines, counted from zero, with both ends included. -/
structure LineRange where
  /-- The first line. -/
  start : Nat
  /-- The last line. -/
  stop : Nat
  /-- A range has at least one line. -/
  ordered : start ≤ stop
  deriving DecidableEq, Repr

/-- Why a selection of lines is refused. -/
inductive SelectionError where
  /-- There is not exactly one colon. -/
  | shape
  /-- The part in front of the colon is no line number. -/
  | badStart (part : Text)
  /-- The part behind the colon is no line number. -/
  | badStop (part : Text)
  /-- A line number is zero. -/
  | zero
  /-- The first line is behind the last one; both are counted from zero. -/
  | inverted (start stop : Nat)
  deriving DecidableEq, Repr

/-- The message for a refused selection. -/
def SelectionError.message : SelectionError → Text
  | shape => "Line selection must be in format 'start:end'".toList
  | badStart part => "Invalid start line: ".toList ++ part
  | badStop part => "Invalid end line: ".toList ++ part
  | zero => "Line numbers start from 1, not 0".toList
  | inverted start stop =>
    "Invalid line range: start line ".toList ++ Text.ofNat (start + 1) ++
    " is after end line ".toList ++ Text.ofNat (stop + 1)

namespace LineRange

/-- The range between two lines counted from zero. -/
def between (start stop : Nat) : Except SelectionError LineRange :=
  if h : start ≤ stop then .ok ⟨start, stop, h⟩ else .error (.inverted start stop)

/-- The largest number a line can have. -/
def maxNumber : Nat := Nat.pow 2 64 - 1

/-- Skip a plus sign. -/
def skipPlus : Text → Text
  | '+' :: r => r
  | t => t

/-- A line number: digits, with blanks around them and a plus sign in front
allowed, and within the largest number. -/
def number? (part : Text) : Option Nat :=
  match Text.toNat? (skipPlus (Text.trim part)) with
  | some n => if n ≤ maxNumber then some n else none
  | none => none

/-- Read a selection. The start is judged before the end, and both before the
rule that line numbers count from one. -/
def ofSelection (selection : Text) : Except SelectionError LineRange :=
  match Text.splitOn ':' selection with
  | [left, right] =>
    match number? left, number? right with
    | none, _ => .error (.badStart left)
    | some _, none => .error (.badStop right)
    | some 0, some _ => .error .zero
    | some (_ + 1), some 0 => .error .zero
    | some (start + 1), some (stop + 1) => between start stop
  | _ => .error .shape

/-- The part of a range that lies within a number of lines; `none` when it
lies past them. -/
def clamp? (range : LineRange) (lineCount : Nat) : Option LineRange :=
  if h : range.start < lineCount then
    some ⟨range.start, min range.stop (lineCount - 1), by
      have := range.ordered
      omega⟩
  else none

/-- All lines of a source with that many lines. -/
def full? : (lineCount : Nat) → Option LineRange
  | 0 => none
  | count + 1 => some ⟨0, count, Nat.zero_le count⟩

/-- The number of lines in a range. -/
def size (range : LineRange) : Nat := range.stop - range.start + 1

end LineRange

end Docblock
