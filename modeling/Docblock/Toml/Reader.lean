import Docblock.Toml.Scalar
import Docblock.Toml.Table

/-!
# Reading a settings file

A file is a row of lines: headers that open tables, assignments of values to
dotted keys, comments and empty lines. Any fault anywhere refuses the whole
file. Arrays and inline tables nest at most eighty deep.
-/

namespace Docblock.Toml

open Text

/-- Drop the gaps in front. -/
def skipGaps (t : Text) : Text := t.dropWhile isGap

/-- The rest behind a comment, which starts with the line break. -/
def afterComment? (t : Text) : Option Text :=
  match t.dropWhile isStringChar with
  | [] => some []
  | '\n' :: r => some ('\n' :: r)
  | '\r' :: '\n' :: r => some ('\n' :: r)
  | _ => none

/-- The text of the next line: only gaps and a comment may stand before its
end. -/
def nextLine? (t : Text) : Option Text :=
  match skipGaps t with
  | [] => some []
  | '#' :: r => (afterComment? r).map (·.drop 1)
  | rest => lineBreak? rest

/-- Drop gaps, line breaks and comments in front. Every step takes a
character. -/
def skipTrivia : (fuel : Nat) → Text → Option Text
  | 0, t => some t
  | fuel + 1, t =>
    match skipGaps t with
    | '\n' :: r => skipTrivia fuel r
    | '\r' :: '\n' :: r => skipTrivia fuel r
    | '#' :: r =>
      match afterComment? r with
      | some rest => skipTrivia fuel rest
      | none => none
    | rest => some rest

/-- Drop all gaps, line breaks and comments in front. -/
def trivia? (t : Text) : Option Text := skipTrivia (t.length + 1) t

/-- Whether a character may stand in a key without quotes. -/
def isBareKey (c : Char) : Bool := c.isAlphanum || c = '_' || c = '-'

/-- One part of a key. -/
def keyPart? (t : Text) : Option (Text × Text) :=
  match t.takeWhile isBareKey with
  | [] => lineString? t
  | name => some (name, t.dropWhile isBareKey)

/-- The parts of a dotted key, with gaps around the dots allowed; the rest has
no gap in front. Every part takes a character. -/
def keyParts? : (fuel : Nat) → Text → Option (List Text × Text)
  | 0, _ => none
  | fuel + 1, t =>
    match keyPart? t with
    | none => none
    | some (part, r) =>
      match skipGaps r with
      | '.' :: s => (keyParts? fuel (skipGaps s)).map fun (parts, rest) => (part :: parts, rest)
      | rest => some ([part], rest)

/-- A dotted key: the path in front of its last part, and that part. -/
def key? (t : Text) : Option ((List Text × Text) × Text) :=
  match keyParts? (t.length + 1) t with
  | none => none
  | some (parts, rest) =>
    match parts.getLast? with
    | none => none
    | some last => some ((parts.dropLast, last), rest)

/-- The elements of an array up to its closing bracket, given how to read one.
Every element takes a character. -/
def items? (value? : Text → Option (Value × Text)) : (fuel : Nat) → Text →
    Option (List Value × Text)
  | 0, _ => none
  | fuel + 1, t =>
    match trivia? t with
    | none => none
    | some (']' :: r) => some ([], r)
    | some t =>
      match value? t with
      | none => none
      | some (item, r) =>
        match trivia? r with
        | some (']' :: s) => some ([item], s)
        | some (',' :: s) => (items? value? fuel s).map fun (rest, behind) => (item :: rest, behind)
        | _ => none

/-- An assignment: a dotted key, an equals sign and a value. -/
def assignment? (value? : Text → Option (Value × Text)) (t : Text) :
    Option ((List Text × Text × Value) × Text) :=
  match key? t with
  | some ((path, key), '=' :: r) =>
    (value? (skipGaps r)).map fun (value, rest) => ((path, key, value), rest)
  | _ => none

/-- The entries of an inline table up to its closing brace, added to those
already read. Every entry takes a character. -/
def members? (value? : Text → Option (Value × Text)) : (fuel : Nat) → Entries → Text →
    Option (Entries × Text)
  | 0, _, _ => none
  | fuel + 1, entries, t =>
    match trivia? t with
    | none => none
    | some ('}' :: r) => some (entries, r)
    | some t =>
      match assignment? value? t with
      | none => none
      | some ((path, key, value), r) =>
        match entries.assign path key value, trivia? r with
        | some entries, some ('}' :: s) => some (entries, s)
        | some entries, some (',' :: s) => members? value? fuel entries s
        | _, _ => none

/-- A value and the rest. Arrays and inline tables may be nested `depth` deep. -/
def value? : (depth : Nat) → Text → Option (Value × Text)
  | depth, '[' :: r =>
    match depth with
    | 0 => none
    | depth + 1 =>
      (items? (value? depth) (r.length + 1) r).map fun (items, rest) => (.array items, rest)
  | depth, '{' :: r =>
    match depth with
    | 0 => none
    | depth + 1 =>
      (members? (value? depth) (r.length + 1) [] r).map fun (entries, rest) =>
        (.table .inline entries, rest)
  | _, '"' :: r => (string? ('"' :: r)).map fun (found, rest) => (.string found, rest)
  | _, '\'' :: r => (string? ('\'' :: r)).map fun (found, rest) => (.string found, rest)
  | _, t => bare? t

/-- How deep arrays and inline tables may be nested. -/
def maxDepth : Nat := 80

/-- The tables read so far, and the table that assignments go to. -/
structure State where
  /-- The outermost table. -/
  root : Entries := []
  /-- The path of the last header. -/
  header : List Text := []

/-- The part of a header between its brackets, and the text of the next line. -/
def headerPath? (closing : Text) (t : Text) : Option ((List Text × Text) × Text) :=
  match key? (skipGaps t) with
  | none => none
  | some (path, rest) => ((stripStart? closing rest).bind nextLine?).map (path, ·)

/-- One line that is neither empty nor a comment, and the text of the next
line. -/
def statement? (state : State) (t : Text) : Option (State × Text) :=
  match t with
  | '[' :: '[' :: r =>
    match headerPath? [']', ']'] r with
    | none => none
    | some ((path, key), rest) =>
      (state.root.openElement path key).map fun root => (⟨root, path ++ [key]⟩, rest)
  | '[' :: r =>
    match headerPath? [']'] r with
    | none => none
    | some ((path, key), rest) =>
      (state.root.openTable path key).map fun root => (⟨root, path ++ [key]⟩, rest)
  | t =>
    match assignment? (value? maxDepth) t with
    | none => none
    | some ((path, key, value), r) =>
      match nextLine? r, state.root.assignBelow state.header path key value with
      | some rest, some root => some (⟨root, state.header⟩, rest)
      | _, _ => none

/-- All remaining lines. Every statement takes a character. -/
def statements? : (fuel : Nat) → State → Text → Option Entries
  | 0, _, _ => none
  | fuel + 1, state, t =>
    match trivia? t with
    | none => none
    | some [] => some state.root
    | some t =>
      match statement? state t with
      | none => none
      | some (state, rest) => statements? fuel state rest

/-- Drop a byte order mark. -/
def skipMark : Text → Text
  | '\ufeff' :: r => r
  | t => t

/-- The outermost table of a settings file. -/
def parse? (t : Text) : Option Entries := statements? (t.length + 1) {} (skipMark t)

end Docblock.Toml
