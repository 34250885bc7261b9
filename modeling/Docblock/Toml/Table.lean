import Docblock.Toml.Value

/-!
# Building tables

A settings file adds to its tables line by line. A key is set once; a header
opens a table once; a dotted key may only pass through tables that no header
and no braces have made.
-/

namespace Docblock.Toml.Entries

/-- Replace the value of a key, or make one, by what `change` gives for the
present value. -/
def alter (key : Text) (change : Option Value → Option Value) : Entries → Option Entries
  | [] => (change none).map fun value => [(key, value)]
  | (name, value) :: rest =>
    if name = key then (change (some value)).map fun changed => (name, changed) :: rest
    else (alter key change rest).map ((name, value) :: ·)

/-- Change the last element of a list. -/
def changeLast {α : Type} (change : α → Option α) : List α → Option (List α)
  | [] => none
  | [last] => (change last).map ([·])
  | first :: next :: rest => (changeLast change (next :: rest)).map (first :: ·)

/-- Follow a path of keys and change the table at its end. Missing tables are
made on the way; `dotted` tells a dotted key from a header, and `origin` is
that of the table at hand. Arrays of tables stand for their last table. -/
def descend (dotted : Bool) (change : Origin → Entries → Option Entries) :
    List Text → (origin : Origin) → Entries → Option Entries
  | [], origin, entries => change origin entries
  | key :: path, _, entries =>
    entries.alter key fun
      | none =>
        let made : Origin := if dotted then .dotted else .implied
        (descend dotted change path made []).map (.table made)
      | some (.table origin inner) =>
        if origin = .inline || (dotted && origin = .header) then none
        else (descend dotted change path origin inner).map (.table origin)
      | some (.tables items) =>
        (changeLast (descend dotted change path .header) items).map .tables
      | some _ => none

/-- Set a key that has no value yet. -/
def setNew (key : Text) (value : Value) : Entries → Option Entries :=
  alter key fun
    | none => some value
    | some _ => none

/-- Set the key at the end of a dotted path. The table it goes to must be the
one at hand or one that no header has opened. -/
def assign (path : List Text) (key : Text) (value : Value) (entries : Entries) : Option Entries :=
  descend true
    (fun origin inner =>
      if !path.isEmpty && origin = .header then none else inner.setNew key value)
    path .header entries

/-- Open the table of a header. A table that longer headers have named may be
opened once; no other may be opened again. -/
def openTable (path : List Text) (key : Text) (entries : Entries) : Option Entries :=
  descend false
    (fun _ inner => inner.alter key fun
      | none => some (.table .header [])
      | some (.table .implied present) => some (.table .header present)
      | some _ => none)
    path .header entries

/-- Open a new last table of an array of tables. -/
def openElement (path : List Text) (key : Text) (entries : Entries) : Option Entries :=
  descend false
    (fun _ inner => inner.alter key fun
      | none => some (.tables [[]])
      | some (.tables items) => some (.tables (items ++ [[]]))
      | some _ => none)
    path .header entries

/-- Set a key below the table of a header. -/
def assignBelow (header path : List Text) (key : Text) (value : Value) (entries : Entries) :
    Option Entries :=
  descend false (fun _ inner => inner.assign path key value) header .header entries

end Docblock.Toml.Entries
