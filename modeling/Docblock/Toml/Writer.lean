import Docblock.Text.Hex

/-!
# Writing strings

A string is written in the plainest form that can hold it: double quotes when
nothing has to be escaped, single quotes when only backslashes or double quotes
are in the way, then the tripled forms, and escapes as the last resort. Tripled
forms of strings with a line feed start on a line of their own.
-/

namespace Docblock.Toml

open Text

/-- The four forms of a string. -/
inductive Form where
  /-- In double quotes. -/
  | basic
  /-- In single quotes. -/
  | literal
  /-- In tripled double quotes. -/
  | multiBasic
  /-- In tripled single quotes. -/
  | multiLiteral
  deriving DecidableEq, Repr

/-- Whether a character can only be written by an escape. -/
def needsEscape (c : Char) : Bool := (c < ' ' && c ≠ '\t' && c ≠ '\n') || c = '\x7f'

/-- The length of the longest run of a character, where `current` of them stand
in front. -/
def longestRun (mark : Char) : (current : Nat) → Text → Nat
  | current, [] => current
  | current, c :: r =>
    if c = mark then longestRun mark (current + 1) r
    else max current (longestRun mark 0 r)

/-- The form in which a string is written. -/
def formOf (t : Text) : Form :=
  let escapes := t.any needsEscape
  let backslash := t.contains '\\'
  let feed := t.contains '\n'
  if !escapes && !backslash && !t.contains '"' && !feed then .basic
  else if !escapes && !t.contains '\'' && !feed then .literal
  else if !escapes && !backslash && longestRun '"' 0 t ≤ 2 then .multiBasic
  else if !escapes && longestRun '\'' 0 t ≤ 2 then .multiLiteral
  else if feed then .multiBasic
  else .basic

/-- A character that needs no look at its neighbours. -/
def escapeChar (keepFeeds : Bool) (c : Char) : Text :=
  if c = '\\' then ['\\', '\\']
  else if c = '\x08' then ['\\', 'b']
  else if c = '\t' then ['\\', 't']
  else if c = '\n' then if keepFeeds then ['\n'] else ['\\', 'n']
  else if c = '\x0c' then ['\\', 'f']
  else if c = '\r' then ['\\', 'r']
  else if c < ' ' || c = '\x7f' then ['\\', 'u'] ++ upperHex 4 c.toNat
  else [c]

/-- The characters of a string between double quotes. A double quote is escaped
when more than `allowed` of them would follow each other; `run` of them stand
directly in front. -/
def escapeBody (keepFeeds : Bool) (allowed : Nat) : (run : Nat) → Text → Text
  | _, [] => []
  | run, c :: r =>
    if c = '"' then
      if run < allowed then '"' :: escapeBody keepFeeds allowed (run + 1) r
      else '\\' :: '"' :: escapeBody keepFeeds allowed 0 r
    else escapeChar keepFeeds c ++ escapeBody keepFeeds allowed 0 r

/-- The line feed behind tripled opening quotes. -/
def openingFeed (t : Text) : Text := if t.contains '\n' then ['\n'] else []

/-- A string in its form. -/
def writeString (t : Text) : Text :=
  match formOf t with
  | .basic => ['"'] ++ escapeBody false 0 0 t ++ ['"']
  | .literal => ['\''] ++ t ++ ['\'']
  | .multiBasic =>
    ['"', '"', '"'] ++ openingFeed t ++ escapeBody true 2 0 t ++ ['"', '"', '"']
  | .multiLiteral =>
    ['\'', '\'', '\''] ++ openingFeed t ++ t ++ ['\'', '\'', '\'']

/-- A list of strings: up to one on the line of its key, more on a line each. -/
def writeStrings : List Text → Text
  | [] => "[]".toList
  | [item] => ['['] ++ writeString item ++ [']']
  | items => "[\n".toList ++
    items.flatMap (fun item => "    ".toList ++ writeString item ++ ",\n".toList) ++ [']']

/-- A truth value. -/
def writeBool : Bool → Text
  | true => "true".toList
  | false => "false".toList

/-- A line that sets a key. -/
def writeEntry (key : Text) (value : Text) : Text := key ++ " = ".toList ++ value ++ ['\n']

end Docblock.Toml
