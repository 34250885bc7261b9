import Docblock.Text.Basic

/-!
# Positions

A place in a document, counted in lines and characters from zero. People read
lines and columns counted from one.
-/

namespace Docblock

/-- A zero-based place in a document. -/
structure Position where
  /-- The line. -/
  line : Nat
  /-- The number of characters of the line in front of the place. -/
  character : Nat
  deriving DecidableEq, Repr

namespace Position

/-- Compare by line, and on one line by character. -/
def compare (a b : Position) : Ordering :=
  if a.line < b.line then .lt
  else if b.line < a.line then .gt
  else if a.character < b.character then .lt
  else if b.character < a.character then .gt
  else .eq

/-- Whether one position stands in front of another. -/
def isBefore (a b : Position) : Bool := a.compare b = .lt

/-- Line and column counted from one. -/
def render (p : Position) : Text :=
  Text.ofNat (p.line + 1) ++ [':'] ++ Text.ofNat (p.character + 1)

end Position

end Docblock
