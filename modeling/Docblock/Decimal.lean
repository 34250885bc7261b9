import Docblock.Text.Basic

/-!
# Decimal numbers

A decimal number is a row of digits and a power of ten. All that is asked of
one is whether the nearest binary64 number is finite.
-/

namespace Docblock

/-- A decimal number without its sign: the digits and the power of ten behind
them. -/
structure Decimal where
  /-- The digits, the most significant one first. -/
  digits : Text
  /-- The power of ten. -/
  exponent : Int
  deriving DecidableEq, Repr

namespace Decimal

/-- The least real number that rounds to infinity: the point half way between
the largest binary64 number and the next power of two, which goes to the even
neighbour. -/
def overflow : Nat := Nat.pow 2 1024 - Nat.pow 2 970

/-- Whether the nearest binary64 number is finite. The number of digits decides
unless the number is close to the largest one, so that no large power of ten is
ever computed. -/
def isFinite (number : Decimal) : Bool :=
  let digits := number.digits.dropWhile (· = '0')
  let magnitude : Int := digits.length + number.exponent
  if digits.isEmpty || magnitude < 300 then true
  else if 310 < magnitude then false
  else
    match Text.toNat? digits, number.exponent with
    | none, _ => true
    | some value, .ofNat power => value * Nat.pow 10 power < overflow
    | some value, .negSucc power => value < overflow * Nat.pow 10 (power + 1)

end Decimal

end Docblock
