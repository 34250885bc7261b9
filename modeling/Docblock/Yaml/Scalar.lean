import Docblock.Yaml.Resolve

/-!
# Writing strings in YAML

A string is written plain where that is safe, in single quotes where only its
spelling is in the way, in double quotes where characters must be escaped, and
as a literal block where it has a line feed.
-/

namespace Docblock.Yaml

open Text

/-- Whether a character breaks a line. -/
def isBreak (c : Char) : Bool :=
  c = '\n' || c = '\r' || c = '\u0085' || c = '\u2028' || c = '\u2029'

/-- Whether a character can be written as it is. -/
def isPrintable (c : Char) : Bool :=
  c = '\n' || (' ' ≤ c && c ≤ '~') ||
  ('\u00a0' ≤ c && c ≠ '\ufeff' && c ≠ '\ufffe' && c ≠ '\uffff')

/-- Whether a character ends a word: a blank, a tab, a break or NUL. -/
def endsWord (c : Char) : Bool := c = ' ' || c = '\t' || c = '\x00' || isBreak c

/-- Whether nothing or the end of a word follows. -/
def atWordEnd : Text → Bool
  | [] => true
  | c :: _ => endsWord c

/-- Characters that mean something at the start of a value. -/
def indicators : Text := "#,[]\x7b\x7d&*!|>'\"%@`".toList

/-- Whether the first character of a text means something there. -/
def startsWithIndicator : Text → Bool
  | [] => false
  | c :: r =>
    indicators.contains c || ((c = '?' || c = ':' || c = '-') && atWordEnd r)

/-- Whether a character behind the first one means something: a colon at the
end of a word, or a number sign at the start of one. -/
def hasInnerIndicator : (before : Char) → Text → Bool
  | _, [] => false
  | before, c :: r =>
    (c = ':' && atWordEnd r) || (c = '#' && endsWord before) || hasInnerIndicator c r

/-- Whether a text reads as the mark of a document. -/
def startsWithMark (t : Text) : Bool := startsWith "---".toList t || startsWith "...".toList t

/-- Whether a text has characters that mean something outside quotes. -/
def hasIndicator (t : Text) : Bool :=
  startsWithMark t || startsWithIndicator t ||
  match t with
  | [] => false
  | c :: r => hasInnerIndicator c r

/-- Whether a neighbouring pair of characters is such that the first fits `p`
and the second `q`. -/
def hasPair (p q : Char → Bool) : Text → Bool
  | [] => false
  | [_] => false
  | c :: d :: r => (p c && q d) || hasPair p q (d :: r)

/-- Whether a character is the blank. -/
def isSpace (c : Char) : Bool := c = ' '

/-- Whether a text cannot be written without escapes. -/
def needsEscapes (t : Text) : Bool := t.any (!isPrintable ·) || hasPair isSpace isBreak t

/-- The ways to write a string. -/
inductive Style where
  /-- Without quotes. -/
  | plain
  /-- In single quotes. -/
  | single
  /-- In double quotes, with escapes. -/
  | double
  /-- As a literal block. -/
  | literal
  deriving DecidableEq, Repr

/-- Whether a text may be written plain: no blanks or breaks at its ends, no
breaks at all and no indicators. -/
def plainAllowed (t : Text) : Bool :=
  !(t.head?.any isSpace || t.getLast?.any isSpace || t.any isBreak || needsEscapes t ||
    hasIndicator t)

/-- The way a string is written. -/
def styleOf (t : Text) : Style :=
  if t.contains '\n' then
    if needsEscapes t || t.getLast?.any isSpace then .double else .literal
  else if !isAmbiguous t && plainAllowed t then .plain
  else if needsEscapes t || hasPair isBreak isSpace t then .double
  else .single

/-- A character between double quotes. -/
def escapeChar (c : Char) : Text :=
  if c = '\x00' then ['\\', '0']
  else if c = '\x07' then ['\\', 'a']
  else if c = '\x08' then ['\\', 'b']
  else if c = '\t' then ['\\', 't']
  else if c = '\n' then ['\\', 'n']
  else if c = '\x0b' then ['\\', 'v']
  else if c = '\x0c' then ['\\', 'f']
  else if c = '\r' then ['\\', 'r']
  else if c = '\x1b' then ['\\', 'e']
  else if c = '"' then ['\\', '"']
  else if c = '\\' then ['\\', '\\']
  else if c = '\u0085' then ['\\', 'N']
  else if c = '\u2028' then ['\\', 'L']
  else if c = '\u2029' then ['\\', 'P']
  else if isPrintable c then [c]
  else if c.toNat ≤ 0xff then ['\\', 'x'] ++ upperHex 2 c.toNat
  else if c.toNat ≤ 0xffff then ['\\', 'u'] ++ upperHex 4 c.toNat
  else ['\\', 'U'] ++ upperHex 8 c.toNat

/-- The characters of a block whose lines are indented; empty lines are not.
`fresh` tells that a line starts here, and `write` how a character is written. -/
def indented (indent : Nat) (write : Char → Text) : (fresh : Bool) → Text → Text
  | _, [] => []
  | fresh, c :: r =>
    if isBreak c then c :: indented indent write true r
    else
      (if fresh then List.replicate indent ' ' else []) ++ write c ++
      indented indent write false r

/-- A character between single quotes. -/
def doubleQuote (c : Char) : Text := if c = '\'' then ['\'', '\''] else [c]

/-- A string in single quotes; a break inside it is followed by the indent. -/
def writeSingle (indent : Nat) (t : Text) : Text :=
  ['\''] ++ indented indent doubleQuote false t ++
  (if t.getLast?.any isBreak then List.replicate indent ' ' else []) ++ ['\'']

/-- The mark behind the opening of a literal block that tells what happens to
the breaks at its end. -/
def chompMark (t : Text) : Text :=
  match t.reverse with
  | [] => ['-']
  | [c] => if isBreak c then ['+'] else ['-']
  | c :: d :: _ => if isBreak c then (if isBreak d then ['+'] else []) else ['-']

/-- The mark behind the opening of a literal block that starts with a blank or
a break. -/
def indentMark (t : Text) : Text :=
  if t.head?.any (fun c => isSpace c || isBreak c) then ['2'] else []

/-- A string with the break behind it, at an indent for continued lines. -/
def writeString (indent : Nat) (t : Text) : Text :=
  match styleOf t with
  | .plain => t ++ ['\n']
  | .single => writeSingle indent t ++ ['\n']
  | .double => ['"'] ++ t.flatMap escapeChar ++ ['"', '\n']
  | .literal =>
    ['|'] ++ indentMark t ++ chompMark t ++ ['\n'] ++ indented indent ([·]) true t ++
    if t.getLast?.any isBreak then [] else ['\n']

end Docblock.Yaml
