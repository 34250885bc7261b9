import Docblock.Decimal
import Docblock.Text.Hex
import Docblock.Toml.String

/-!
# Reading numbers, truth values and dates

These values are written without quotes. The characters up to the next
separator are taken together and must then be one of the forms below as a
whole.
-/

namespace Docblock.Toml

open Text

/-- Digits with single underscores between them: the digits alone. -/
def grouped? (isDigit : Char → Bool) : Text → Option Text
  | [] => none
  | [c] => if isDigit c then some [c] else none
  | c :: '_' :: r => if isDigit c then (grouped? isDigit r).map (c :: ·) else none
  | c :: r => if isDigit c then (grouped? isDigit r).map (c :: ·) else none

/-- A sign and the rest; `true` stands for minus. -/
def splitSign : Text → Bool × Text
  | '+' :: r => (false, r)
  | '-' :: r => (true, r)
  | t => (false, t)

/-- The digits of a decimal integer: no zero in front of other digits. -/
def decimalDigits? (t : Text) : Option Text :=
  match grouped? Char.isDigit t with
  | some ('0' :: _ :: _) => none
  | found => found

/-- The value of digits in a base. -/
def valueIn (base : Nat) (digits : Text) : Nat :=
  digits.foldl (fun value c => base * value + (hexDigit? c).getD 0) 0

/-- The integers that can be held. -/
def fitsInteger (value : Int) : Bool := -(Nat.pow 2 127 : Int) ≤ value && value < Nat.pow 2 128

/-- An integer without a sign in base 16, 8 or 2. -/
def basedInteger? : Text → Option Int
  | '0' :: 'x' :: r => (grouped? (fun c => (hexDigit? c).isSome) r).map (valueIn 16 ·)
  | '0' :: 'o' :: r => (grouped? (fun c => '0' ≤ c && c ≤ '7') r).map (valueIn 8 ·)
  | '0' :: 'b' :: r => (grouped? (fun c => c = '0' || c = '1') r).map (valueIn 2 ·)
  | _ => none

/-- A decimal integer. -/
def decimalInteger? (t : Text) : Option Int :=
  let (negative, unsigned) := splitSign t
  (decimalDigits? unsigned).map fun digits =>
    let value : Int := valueIn 10 digits
    if negative then -value else value

/-- An integer that can be held. -/
def integer? (t : Text) : Option Int :=
  match basedInteger? t <|> decimalInteger? t with
  | some value => if fitsInteger value then some value else none
  | none => none

/-- An exponent behind its letter. -/
def exponent? (t : Text) : Option Int :=
  let (negative, unsigned) := splitSign t
  (grouped? Char.isDigit unsigned).map fun digits =>
    let value : Int := valueIn 10 digits
    if negative then -value else value

/-- A decimal number with a fraction, an exponent or both. -/
def decimal? (t : Text) : Option Decimal :=
  let isMark (c : Char) := c = 'e' || c = 'E'
  let mantissa := t.takeWhile (!isMark ·)
  let exponent : Option (Option Int) :=
    match t.dropWhile (!isMark ·) with
    | [] => some none
    | _ :: r => (exponent? r).map some
  let whole := mantissa.takeWhile (· ≠ '.')
  let fraction : Option (Option Text) :=
    match mantissa.dropWhile (· ≠ '.') with
    | [] => some none
    | _ :: r => (grouped? Char.isDigit r).map some
  match decimalDigits? whole, fraction, exponent with
  | none, _, _ | _, none, _ | _, _, none | _, some none, some none => none
  | some digits, some fraction, some exponent =>
    let behind := fraction.getD []
    some ⟨digits ++ behind, exponent.getD 0 - behind.length⟩

/-- Whether a text is a floating point number that is finite when finite
digits are written. -/
def isFloat (t : Text) : Bool :=
  let (_, unsigned) := splitSign t
  unsigned = "inf".toList || unsigned = "nan".toList || (decimal? unsigned).any Decimal.isFinite

/-- Two digits as a number, and the rest. -/
def twoDigits? : Text → Option (Nat × Text)
  | a :: b :: r => (toNat? [a, b]).map (·, r)
  | _ => none

/-- The number of days of a month. -/
def daysIn (year month : Nat) : Nat :=
  if month = 2 then
    if (year % 4 = 0 && year % 100 ≠ 0) || year % 400 = 0 then 29 else 28
  else if month = 4 || month = 6 || month = 9 || month = 11 then 30
  else 31

/-- The rest behind a date of the calendar. -/
def date? : Text → Option Text
  | a :: b :: c :: d :: '-' :: m :: n :: '-' :: x :: y :: r =>
    match toNat? [a, b, c, d], toNat? [m, n], toNat? [x, y] with
    | some year, some month, some day =>
      if 1 ≤ month && month ≤ 12 && 1 ≤ day && day ≤ daysIn year month then some r else none
    | _, _, _ => none
  | _ => none

/-- The rest behind an optional fraction of a second. -/
def secondFraction? : Text → Option Text
  | '.' :: r =>
    match r.takeWhile Char.isDigit with
    | [] => none
    | _ :: _ => some (r.dropWhile Char.isDigit)
  | t => some t

/-- The rest behind a time of day; the seconds may be left out. -/
def time? (t : Text) : Option Text :=
  match twoDigits? t with
  | some (hour, ':' :: r) =>
    match twoDigits? r with
    | some (minute, rest) =>
      if hour ≤ 23 && minute ≤ 59 then
        match rest with
        | ':' :: s =>
          match twoDigits? s with
          | some (second, behind) => if second ≤ 60 then secondFraction? behind else none
          | none => none
        | behind => some behind
      else none
    | none => none
  | _ => none

/-- Whether a text is an optional offset from universal time. -/
def isOffset : Text → Bool
  | [] => true
  | ['Z'] => true
  | ['z'] => true
  | sign :: r =>
    (sign = '+' || sign = '-') &&
    match twoDigits? r with
    | some (hour, ':' :: s) =>
      match twoDigits? s with
      | some (minute, []) => hour ≤ 23 && minute ≤ 59
      | _ => false
    | _ => false

/-- Whether a text is a date, a time, or a date with a time behind it. -/
def isMoment (t : Text) : Bool :=
  match date? t with
  | some [] => true
  | some (mark :: r) =>
    (mark = 'T' || mark = 't' || mark = ' ') && (time? r).any isOffset
  | none => time? t = some []

/-- Characters that end a value without quotes. -/
def endsBare (c : Char) : Bool :=
  isGap c || c = '\n' || c = '\r' || c = ',' || c = ']' || c = '}' || c = '#'

/-- The characters of a value without quotes, and the rest. A date goes on
behind a single blank when a digit follows. -/
def bareLexeme (t : Text) : Text × Text :=
  let first := t.takeWhile (!endsBare ·)
  let rest := t.dropWhile (!endsBare ·)
  match date? first, rest with
  | some [], ' ' :: c :: r =>
    if c.isDigit then
      (first ++ ' ' :: (c :: r).takeWhile (!endsBare ·), (c :: r).dropWhile (!endsBare ·))
    else (first, rest)
  | _, _ => (first, rest)

/-- The value of a text without quotes. -/
def bareValue? (t : Text) : Option Value :=
  if t = "true".toList then some (.boolean true)
  else if t = "false".toList then some (.boolean false)
  else
    match integer? t with
    | some value => some (.integer value)
    | none =>
      if isFloat t then some (.float t)
      else if isMoment t then some (.moment t)
      else none

/-- A value without quotes, and the rest. -/
def bare? (t : Text) : Option (Value × Text) :=
  let (lexeme, rest) := bareLexeme t
  (bareValue? lexeme).map (·, rest)

end Docblock.Toml
