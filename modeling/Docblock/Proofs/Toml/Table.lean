import Docblock.Toml.Table

/-!
# Tables grow at their end

A key that is not there yet is put behind the others. So the entries that follow a
header make up its table in the order of their lines, and no other table changes.
-/

namespace Docblock.Toml.Entries

open Text

section Keys

variable {entries before : Entries} {key name : Text}

/-- Whether a key has no value yet. -/
def Fresh (key : Text) (entries : Entries) : Prop := key ∉ entries.map Prod.fst

/-- A key that is not there is added at the end. -/
theorem alter_of_fresh (h : Fresh key entries) (change : Option Value → Option Value) :
    entries.alter key change = (change none).map fun value => entries ++ [(key, value)] := by
  induction entries with
  | nil => rfl
  | cons entry entries ih =>
    obtain ⟨name, present⟩ := entry
    obtain ⟨hne, hrest⟩ := not_or.mp (mt List.mem_cons.mpr h)
    rw [alter, if_neg fun heq => hne heq.symm, ih hrest]
    cases change none <;> rfl

/-- What comes after other keys is changed in its place. -/
theorem alter_last (h : Fresh name before) (present : Value)
    (change : Option Value → Option Value) :
    alter name change (before ++ [(name, present)]) =
      (change (some present)).map fun value => before ++ [(name, value)] := by
  induction before with
  | nil =>
    rw [List.nil_append, alter, if_pos rfl]
    rfl
  | cons entry before ih =>
    obtain ⟨other, value⟩ := entry
    obtain ⟨hne, hrest⟩ := not_or.mp (mt List.mem_cons.mpr h)
    rw [List.cons_append, alter, if_neg fun heq => hne heq.symm, ih hrest]
    cases change (some present) <;> rfl

/-- A new entry goes to the end of a table. -/
theorem setNew_of_fresh (h : Fresh key entries) (value : Value) :
    entries.setNew key value = some (entries ++ [(key, value)]) :=
  alter_of_fresh h _

/-- A header with a new name opens an empty table behind everything else. -/
theorem openTable_of_fresh (h : Fresh name entries) :
    entries.openTable [] name = some (entries ++ [(name, .table .header [])]) :=
  alter_of_fresh h _

end Keys

/-! ## The table of the last header -/

/-- Entries below a header end up in one table, and `outer` is everything with that
table in its place. -/
def Hosts (header : List Text) (outer : Entries → Entries) : Prop :=
  ∀ inner key value, Fresh key inner →
    (outer inner).assignBelow header [] key value = some (outer (inner ++ [(key, value)]))

/-- The outermost table takes new entries itself. -/
theorem hosts_root : Hosts [] id := fun _ _ value h => setNew_of_fresh h value

/-- The table that was opened last grows, and what is in front of it stays. -/
theorem hosts_section {before : Entries} {name : Text} (h : Fresh name before) :
    Hosts [name] fun inner => before ++ [(name, .table .header inner)] := by
  intro inner key value hkey
  have hassign : inner.assign [] key value = some (inner ++ [(key, value)]) :=
    setNew_of_fresh hkey value
  rw [assignBelow, descend, alter_last h]
  dsimp only
  rw [if_neg (by decide), descend, hassign]
  rfl

end Docblock.Toml.Entries
