import Docblock.Text.Basic

/-!
# Hexadecimal numbers

Escapes in settings files and exports name characters by the digits of their
code points.
-/

namespace Docblock.Text

/-- The value of a hexadecimal digit. -/
def hexDigit? (c : Char) : Option Nat :=
  if c.isDigit then some (c.toNat - '0'.toNat)
  else if 'a' ≤ c && c ≤ 'f' then some (c.toNat - 'a'.toNat + 10)
  else if 'A' ≤ c && c ≤ 'F' then some (c.toNat - 'A'.toNat + 10)
  else none

/-- The digits of a hexadecimal number in small letters. -/
def hexDigits : Text := "0123456789abcdef".toList

/-- The last `width` hexadecimal digits of a number, in small letters. -/
def lowerHex : (width n : Nat) → Text
  | 0, _ => []
  | width + 1, n => lowerHex width (n / 16) ++ [hexDigits.getD (n % 16) '0']

/-- The last `width` hexadecimal digits of a number, in capitals. -/
def upperHex (width n : Nat) : Text := (lowerHex width n).map Char.toUpper

/-- Continue a hexadecimal number with more digits. -/
def hexFrom? : (value : Nat) → Text → Option Nat
  | value, [] => some value
  | value, c :: r =>
    match hexDigit? c with
    | some d => hexFrom? (16 * value + d) r
    | none => none

/-- The character with a code point; surrogates and numbers past the last code
point name no character. -/
def charOf? (n : Nat) : Option Char :=
  if h : n.isValidChar then some (Char.ofNatAux n h) else none

/-- The character named by the first `width` hexadecimal digits of a text, and
the rest. -/
def hexChar? (width : Nat) (t : Text) : Option (Char × Text) :=
  if (t.take width).length = width then
    match (hexFrom? 0 (t.take width)).bind charOf? with
    | some c => some (c, t.drop width)
    | none => none
  else none

end Docblock.Text
