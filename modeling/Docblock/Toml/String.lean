import Docblock.Text.Hex
import Docblock.Toml.Value

/-!
# Reading strings

Four ways to write a string: in double quotes, where a backslash starts an
escape; in single quotes, where nothing is special; and both with tripled
quotes, where line breaks may stand in the string. A reader takes the text
behind the opening quotes and gives the string and the text behind the closing
ones.
-/

namespace Docblock.Toml

open Text

/-- Whether a character may stand in a string on one line: a tab or any
character that is no control character. -/
def isStringChar (c : Char) : Bool := c = '\t' || (' ' ≤ c && c ≠ '\x7f')

/-- Put characters in front of what a reader found. -/
def prepend (made : Text) : Option (Text × Text) → Option (Text × Text) :=
  Option.map fun (found, rest) => (made ++ found, rest)

/-- The character of an escape, given the text behind the backslash. -/
def escape? : Text → Option (Char × Text)
  | 'b' :: r => some ('\x08', r)
  | 't' :: r => some ('\t', r)
  | 'n' :: r => some ('\n', r)
  | 'f' :: r => some ('\x0c', r)
  | 'r' :: r => some ('\r', r)
  | 'e' :: r => some ('\x1b', r)
  | '"' :: r => some ('"', r)
  | '\\' :: r => some ('\\', r)
  | 'x' :: r => hexChar? 2 r
  | 'u' :: r => hexChar? 4 r
  | 'U' :: r => hexChar? 8 r
  | _ => none

/-- The rest of a string in double quotes. Every step takes a character, so
the length of the text is fuel enough. -/
def basicBody : (fuel : Nat) → Text → Option (Text × Text)
  | 0, _ => none
  | _ + 1, [] => none
  | _ + 1, '"' :: r => some ([], r)
  | fuel + 1, '\\' :: r =>
    match escape? r with
    | some (c, rest) => prepend [c] (basicBody fuel rest)
    | none => none
  | fuel + 1, c :: r => if isStringChar c then prepend [c] (basicBody fuel r) else none

/-- The rest of a string in single quotes. -/
def literalBody : Text → Option (Text × Text)
  | [] => none
  | '\'' :: r => some ([], r)
  | c :: r => if isStringChar c then prepend [c] (literalBody r) else none

/-- Whether a character may separate words within a line. -/
def isGap (c : Char) : Bool := c = ' ' || c = '\t'

/-- The text behind a line break. -/
def lineBreak? : Text → Option Text
  | '\n' :: r => some r
  | '\r' :: '\n' :: r => some r
  | _ => none

/-- Drop blanks, tabs and line breaks in front. -/
def skipFold : Text → Text
  | ' ' :: r => skipFold r
  | '\t' :: r => skipFold r
  | '\n' :: r => skipFold r
  | '\r' :: '\n' :: r => skipFold r
  | t => t

/-- The text behind a folded line: a backslash at the end of a line drops all
blanks and breaks up to the next other character. -/
def fold? (t : Text) : Option Text := (lineBreak? (t.dropWhile isGap)).map skipFold

/-- The rest of a string in tripled double quotes. One or two quotes directly
in front of the closing ones belong to the string. -/
def multiBasicBody : (fuel : Nat) → Text → Option (Text × Text)
  | 0, _ => none
  | _ + 1, '"' :: '"' :: '"' :: '"' :: '"' :: r => some (['"', '"'], r)
  | _ + 1, '"' :: '"' :: '"' :: '"' :: r => some (['"'], r)
  | _ + 1, '"' :: '"' :: '"' :: r => some ([], r)
  | fuel + 1, '\\' :: r =>
    match fold? r with
    | some rest => multiBasicBody fuel rest
    | none =>
      match escape? r with
      | some (c, rest) => prepend [c] (multiBasicBody fuel rest)
      | none => none
  | fuel + 1, '\n' :: r => prepend ['\n'] (multiBasicBody fuel r)
  | fuel + 1, '\r' :: '\n' :: r => prepend ['\r', '\n'] (multiBasicBody fuel r)
  | fuel + 1, c :: r => if isStringChar c then prepend [c] (multiBasicBody fuel r) else none
  | _ + 1, [] => none

/-- The rest of a string in tripled single quotes. -/
def multiLiteralBody : Text → Option (Text × Text)
  | '\'' :: '\'' :: '\'' :: '\'' :: '\'' :: r => some (['\'', '\''], r)
  | '\'' :: '\'' :: '\'' :: '\'' :: r => some (['\''], r)
  | '\'' :: '\'' :: '\'' :: r => some ([], r)
  | '\n' :: r => prepend ['\n'] (multiLiteralBody r)
  | '\r' :: '\n' :: r => prepend ['\r', '\n'] (multiLiteralBody r)
  | c :: r => if isStringChar c then prepend [c] (multiLiteralBody r) else none
  | [] => none

/-- Drop the line break right behind tripled opening quotes. -/
def dropFirstBreak (t : Text) : Text := (lineBreak? t).getD t

/-- A string on one line, as keys may be written too. -/
def lineString? : Text → Option (Text × Text)
  | '"' :: r => basicBody r.length r
  | '\'' :: r => literalBody r
  | _ => none

/-- A string in any of its four forms. -/
def string? : Text → Option (Text × Text)
  | '"' :: '"' :: '"' :: r => multiBasicBody (r.length + 1) (dropFirstBreak r)
  | '\'' :: '\'' :: '\'' :: r => multiLiteralBody (dropFirstBreak r)
  | t => lineString? t

end Docblock.Toml
