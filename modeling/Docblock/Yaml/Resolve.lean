import Docblock.Decimal
import Docblock.Text.Hex

/-!
# Plain words that are no strings

Without quotes, a YAML reader takes some words for nothing, for a truth value
or for a number. A string that spells such a word has to be quoted.
-/

namespace Docblock.Yaml

open Text

/-- Words for nothing. -/
def nullWords : List Text := ["null".toList, "Null".toList, "NULL".toList, "~".toList]

/-- Words for truth values. -/
def boolWords : List Text :=
  ["true".toList, "True".toList, "TRUE".toList, "false".toList, "False".toList, "FALSE".toList]

/-- Drop one sign. -/
def dropSign : Text → Text
  | '+' :: r => r
  | '-' :: r => r
  | t => t

/-- Digits with a zero in front of them, which do not make a number. -/
def isPaddedDigits (t : Text) : Bool :=
  match dropSign t with
  | '0' :: c :: r => (c :: r).all Char.isDigit
  | _ => false

/-- The value of one or more digits of a base. -/
def digitsIn? (base : Nat) (t : Text) : Option Nat :=
  if t.isEmpty then none
  else t.foldl (fun value c =>
    match value, hexDigit? c with
    | some value, some d => if d < base then some (base * value + d) else none
    | _, _ => none) (some 0)

/-- The value of digits behind the mark of their base. -/
def based? : Text → Option Nat
  | '0' :: 'x' :: r => digitsIn? 16 r
  | '0' :: 'o' :: r => digitsIn? 8 r
  | '0' :: 'b' :: r => digitsIn? 2 r
  | _ => none

/-- Whether a text is an integer of up to 128 bits. -/
def isInteger (t : Text) : Bool :=
  match t with
  | '-' :: r =>
    (based? r).any (· ≤ Nat.pow 2 127) ||
    (!isPaddedDigits t && (digitsIn? 10 r).any (· ≤ Nat.pow 2 127))
  | _ =>
    let unsigned := match t with | '+' :: r => r | t => t
    (based? unsigned).any (· < Nat.pow 2 128) ||
      (!isPaddedDigits t && (digitsIn? 10 unsigned).any (· < Nat.pow 2 128))

/-- A decimal number: digits on at least one side of an optional point, and an
optional exponent. -/
def decimal? (t : Text) : Option Decimal :=
  let whole := t.takeWhile Char.isDigit
  let behindWhole := t.dropWhile Char.isDigit
  let (fraction, behind) : Text × Text :=
    match behindWhole with
    | '.' :: r => (r.takeWhile Char.isDigit, r.dropWhile Char.isDigit)
    | t => ([], t)
  if whole.isEmpty && fraction.isEmpty then none
  else
    match behind with
    | [] => some ⟨whole ++ fraction, -fraction.length⟩
    | mark :: r =>
      if mark = 'e' || mark = 'E' then
        (toNat? (dropSign r)).map fun power =>
          let exponent : Int := if r.head? = some '-' then -power else power
          ⟨whole ++ fraction, exponent - fraction.length⟩
      else none

/-- Words for infinity and for what is no number. -/
def specialFloats : List Text :=
  [".inf".toList, ".Inf".toList, ".INF".toList, "+.inf".toList, "+.Inf".toList, "+.INF".toList,
    "-.inf".toList, "-.Inf".toList, "-.INF".toList, ".nan".toList, ".NaN".toList, ".NAN".toList]

/-- Whether a text is a floating point number, finite unless it is spelt as
infinity. -/
def isFloat (t : Text) : Bool :=
  specialFloats.contains t || (decimal? (dropSign t)).any Decimal.isFinite

/-- Whether a string has to be quoted because of what it spells. -/
def isAmbiguous (t : Text) : Bool :=
  t.isEmpty || nullWords.contains t || boolWords.contains t || isInteger t ||
  isPaddedDigits t || isFloat t

end Docblock.Yaml
