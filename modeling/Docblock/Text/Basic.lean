/-!
# Text and the operations on it

Text is a list of characters, so that every function below recurses on the
text itself and a proof can follow it. The operations are those the library
reads lines with: cutting at a separator, stripping a known beginning,
finding the first place where a reader succeeds, and decimal numbers.
-/

namespace Docblock

/-- Text as the list of its characters. -/
abbrev Text := List Char

namespace Text

/-- The rest of a text that starts with `start`. -/
def stripStart? : (start : Text) → Text → Option Text
  | [], t => some t
  | _ :: _, [] => none
  | p :: ps, c :: r => if p = c then stripStart? ps r else none

/-- Whether a text starts with `start`. -/
def startsWith (start t : Text) : Bool := (stripStart? start t).isSome

/-- Whether a text ends with `tail`. -/
def endsWith (tail t : Text) : Bool := startsWith tail.reverse t.reverse

/-- What follows the first occurrence of `needle`. -/
def afterFirst? (needle : Text) : Text → Option Text
  | [] => stripStart? needle []
  | c :: r =>
    match stripStart? needle (c :: r) with
    | some rest => some rest
    | none => afterFirst? needle r

/-- Put a character in front of the first piece of a list of pieces. -/
def consFirst (c : Char) : List Text → List Text
  | [] => [[c]]
  | piece :: rest => (c :: piece) :: rest

/-- The pieces between the occurrences of a separator; a text without the
separator is its own single piece, and the empty text is one empty piece. -/
def splitOn (separator : Char) : Text → List Text
  | [] => [[]]
  | c :: r =>
    if c = separator then [] :: splitOn separator r
    else consFirst c (splitOn separator r)

/-- The lines of a text: a line feed ends a line, so there is no empty line
after the last one. -/
def lines : Text → List Text
  | [] => []
  | c :: r =>
    if c = '\n' then [] :: lines r
    else consFirst c (lines r)

/-- Join pieces with a separator between neighbours. -/
def joinWith (separator : Text) : List Text → Text
  | [] => []
  | [piece] => piece
  | piece :: rest => piece ++ separator ++ joinWith separator rest

/-- Try a reader at every place of a text from the left, telling it the
character in front of that place. The first success is the answer. -/
def search {α : Type} (read : Option Char → Text → Option α) : Option Char → Text → Option α
  | before, [] => read before []
  | before, c :: r =>
    match read before (c :: r) with
    | some found => some found
    | none => search read (some c) r

/-- Replace every occurrence of a character by a text. -/
def replaceChar (old : Char) (new : Text) (t : Text) : Text :=
  t.flatMap fun c => if c = old then new else [c]

/-- The decimal digits of a number. -/
def ofNat (n : Nat) : Text := Nat.toDigits 10 n

/-- The value of a digit. -/
def digit? (c : Char) : Option Nat :=
  if c.isDigit then some (c.toNat - '0'.toNat) else none

/-- Continue a decimal number with more digits; `none` at a character that is
no ASCII digit. -/
def digitsFrom? : (value : Nat) → Text → Option Nat
  | value, [] => some value
  | value, c :: r =>
    match digit? c with
    | some d => digitsFrom? (10 * value + d) r
    | none => none

/-- The value of a text made of one or more ASCII digits. -/
def toNat? : Text → Option Nat
  | [] => none
  | c :: r => digitsFrom? 0 (c :: r)

/-- Lower the ASCII capitals and leave every other character. -/
def asciiLower (t : Text) : Text := t.map Char.toLower

/-- Order by code points, the shorter of two texts first when one continues
the other. -/
def precedes : Text → Text → Bool
  | _, [] => false
  | [], _ :: _ => true
  | a :: r, b :: s => a.val < b.val || (a = b && precedes r s)

end Text

end Docblock
