import Docblock.Text.Hex

/-!
# JSON

Values and their text, one member or element to a line with two blanks of
indent for each level. Members keep their order.
-/

namespace Docblock

/-- A JSON value as far as exports need it. -/
inductive Json where
  /-- A truth value. -/
  | bool (value : Bool)
  /-- A natural number. -/
  | number (value : Nat)
  /-- A string. -/
  | string (value : Text)
  /-- An array. -/
  | array (items : List Json)
  /-- An object with its members in order. -/
  | object (members : List (Text × Json))

namespace Json

/-- A character inside a string. Control characters are escaped, by a letter
where there is one. -/
def escapeChar (c : Char) : Text :=
  if c = '"' then ['\\', '"']
  else if c = '\\' then ['\\', '\\']
  else if c = '\x08' then ['\\', 'b']
  else if c = '\x0c' then ['\\', 'f']
  else if c = '\n' then ['\\', 'n']
  else if c = '\r' then ['\\', 'r']
  else if c = '\t' then ['\\', 't']
  else if c < ' ' then ['\\', 'u'] ++ Text.lowerHex 4 c.toNat
  else [c]

/-- A string in quotes. -/
def quote (t : Text) : Text := ['"'] ++ t.flatMap escapeChar ++ ['"']

/-- A line feed and the indent of a level. -/
def newline (level : Nat) : Text := '\n' :: List.replicate (2 * level) ' '

/-- Entries between brackets, each on its own line one level further in. -/
def enclose (opening closing : Char) (level : Nat) : List Text → Text
  | [] => [opening, closing]
  | entry :: rest =>
    [opening] ++ newline (level + 1) ++
    Text.joinWith (',' :: newline (level + 1)) (entry :: rest) ++ newline level ++ [closing]

mutual

/-- The text of a value at a level of indent. -/
def renderAt (level : Nat) : Json → Text
  | bool true => "true".toList
  | bool false => "false".toList
  | number value => Text.ofNat value
  | string value => quote value
  | array items => enclose '[' ']' level (renderItems (level + 1) items)
  | object members => enclose '{' '}' level (renderMembers (level + 1) members)

/-- The texts of the elements of an array. -/
def renderItems (level : Nat) : List Json → List Text
  | [] => []
  | item :: rest => renderAt level item :: renderItems level rest

/-- The texts of the members of an object. -/
def renderMembers (level : Nat) : List (Text × Json) → List Text
  | [] => []
  | (key, value) :: rest =>
    (quote key ++ ": ".toList ++ renderAt level value) :: renderMembers level rest

end

/-- The text of a value. -/
def render (value : Json) : Text := renderAt 0 value

end Json

end Docblock
