import Docblock.Text.Basic

/-!
# Blank characters

A character is blank when it has the property White_Space of the Unicode
standard. Lines are trimmed, indented and cut into words by this class, and
the declaration patterns skip it.
-/

namespace Docblock.Text

/-- The white space characters outside the ranges U+0009 to U+000D and U+2000
to U+200A. -/
def scatteredBlanks : List Char :=
  [' ', '\u0085', '\u00a0', '\u1680', '\u2028', '\u2029', '\u202f', '\u205f', '\u3000']

/-- Whether a character is white space. -/
def isBlank (c : Char) : Bool :=
  ('\t' ≤ c && c ≤ '\r') || ('\u2000' ≤ c && c ≤ '\u200a') || scatteredBlanks.contains c

/-- Drop the blanks in front. -/
def trimStart (t : Text) : Text := t.dropWhile isBlank

/-- Drop the blanks at the end. -/
def trimEnd : Text → Text
  | [] => []
  | c :: r =>
    match trimEnd r with
    | [] => if isBlank c then [] else [c]
    | d :: s => c :: d :: s

/-- Drop the blanks on both sides. -/
def trim (t : Text) : Text := trimEnd (trimStart t)

/-- Whether a text has nothing but blanks. -/
def allBlank (t : Text) : Bool := t.all isBlank

/-- The maximal runs of characters that are not blank. -/
def words : Text → List Text
  | [] => []
  | c :: r =>
    if isBlank c then words r
    else
      match r with
      | [] => [[c]]
      | d :: _ => if isBlank d then [c] :: words r else consFirst c (words r)

/-- The blanks a text starts with. -/
def indent (t : Text) : Text := t.takeWhile isBlank

end Docblock.Text
