import Docblock.Text.Basic

/-!
# Values of a settings file

The value a settings file denotes. Tables remember how they came to be,
because that decides whether a later line may still add to them.
-/

namespace Docblock.Toml

/-- How a table came to be. -/
inductive Origin where
  /-- Written between braces; it is complete. -/
  | inline
  /-- Opened by a header of its own. -/
  | header
  /-- Only named on the way to a longer header. -/
  | implied
  /-- Named by a dotted key. -/
  | dotted
  deriving DecidableEq, Repr

/-- A value. -/
inductive Value where
  /-- A string. -/
  | string (value : Text)
  /-- An integer. -/
  | integer (value : Int)
  /-- A floating point number as it is written. -/
  | float (literal : Text)
  /-- A truth value. -/
  | boolean (value : Bool)
  /-- A date, a time or both, as written. -/
  | moment (literal : Text)
  /-- An array written between brackets. -/
  | array (items : List Value)
  /-- An array made by repeated headers, one table for each. -/
  | tables (items : List (List (Text × Value)))
  /-- A table. -/
  | table (origin : Origin) (entries : List (Text × Value))

/-- The entries of a table, in the order of their lines. -/
abbrev Entries := List (Text × Value)

/-- Read a value that must be a string. -/
def Value.text? : Value → Option Text
  | .string value => some value
  | _ => none

/-- Read a value that must be a truth value. -/
def Value.flag? : Value → Option Bool
  | .boolean value => some value
  | _ => none

/-- Read a value that must be an array of strings. -/
def Value.texts? : Value → Option (List Text)
  | .array items => items.mapM Value.text?
  | _ => none

/-- The values of a section by the order of its keys: those of a table by name,
those of an array by place. A value that is missing is `none`. -/
def Value.section? (keys : List Text) : Value → Option (List (Option Value))
  | .table _ entries => some (keys.map fun key => entries.lookup key)
  | .array items => some ((List.range keys.length).map fun place => items[place]?)
  | .tables items =>
    some ((List.range keys.length).map fun place => items[place]?.map (Value.table .header))
  | _ => none

end Docblock.Toml
