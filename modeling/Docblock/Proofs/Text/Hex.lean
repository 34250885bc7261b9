import Mathlib.Algebra.Group.Nat.Defs
import Docblock.Text.Hex

/-!
# Hexadecimal digits

A number is read back from its hexadecimal digits, in either case, as long as they
are wide enough for it. So an escape names the character it was made for.
-/

namespace Docblock.Text

variable {width n : Nat}

/-- Digits are read from left to right, so a number can be read in two parts. -/
theorem hexFrom?_append (value : Nat) (a b : Text) :
    hexFrom? value (a ++ b) = (hexFrom? value a).bind (hexFrom? · b) := by
  induction a generalizing value with
  | nil => rfl
  | cons c r ih =>
    rw [List.cons_append, hexFrom?, hexFrom?]
    cases hexDigit? c with
    | none => rfl
    | some d => exact ih _

/-- A number has as many digits as are asked for. -/
theorem length_lowerHex (width n : Nat) : (lowerHex width n).length = width := by
  induction width generalizing n with
  | zero => rfl
  | succ width ih => rw [lowerHex, List.length_append, ih, List.length_singleton]

/-- Capitals do not change the number of digits. -/
theorem length_upperHex (width n : Nat) : (upperHex width n).length = width := by
  rw [upperHex, List.length_map, length_lowerHex]

/-- The last digits of a number have its value modulo a power of the base. -/
theorem hexFrom?_upperHex (value width n : Nat) :
    hexFrom? value (upperHex width n) = some (16 ^ width * value + n % 16 ^ width) := by
  have hdigit : ∀ d < 16, hexDigit? (hexDigits.getD d '0').toUpper = some d := by decide
  induction width generalizing n with
  | zero => simp [upperHex, lowerHex, hexFrom?, Nat.mod_one]
  | succ width ih =>
    have hsplit : upperHex (width + 1) n =
        upperHex width (n / 16) ++ [(hexDigits.getD (n % 16) '0').toUpper] := by
      rw [upperHex, lowerHex, List.map_append]
      rfl
    have hmod : n % (16 * 16 ^ width) = n % 16 + 16 * (n / 16 % 16 ^ width) := Nat.mod_mul
    rw [hsplit, hexFrom?_append, ih, Option.bind_some, hexFrom?,
      hdigit _ (Nat.mod_lt n (by decide)), Nat.pow_succ', hmod, Nat.mul_assoc]
    show some _ = some _
    congr 1
    omega

/-- Every character is found by its code point. -/
theorem charOf?_toNat (c : Char) : charOf? c.toNat = some c := by
  have hvalid : c.toNat.isValidChar := c.valid
  rw [charOf?, dif_pos hvalid]
  rfl

/-- A character is named by the digits of its code point, whatever follows them. -/
theorem hexChar?_upperHex {c : Char} (h : c.toNat < 16 ^ width) (rest : Text) :
    hexChar? width (upperHex width c.toNat ++ rest) = some (c, rest) := by
  have htake : (upperHex width c.toNat ++ rest).take width = upperHex width c.toNat :=
    List.take_left' (length_upperHex width c.toNat)
  have hdrop : (upperHex width c.toNat ++ rest).drop width = rest :=
    List.drop_left' (length_upperHex width c.toNat)
  rw [hexChar?, htake, hdrop, if_pos (length_upperHex width c.toNat), hexFrom?_upperHex,
    Nat.mul_zero, Nat.zero_add, Nat.mod_eq_of_lt h, Option.bind_some, charOf?_toNat]

end Docblock.Text
