import Mathlib.Data.List.Basic
import Docblock.Workspace

/-!
# Changes of a workspace

A write puts a file at one place and leaves every other place alone. It neither
makes nor removes a directory, so every path still leads where it led before.
Changes follow each other: what one and then another may touch, both may touch.
-/

namespace Docblock.Workspace

variable {before middle after workspace written : Workspace} {may : List Text → Prop}
variable {path content : Text} {place other : List Text} {node : Node}

/-- Whether a workspace is what it was before except at some places, and every
path still leads to the same place. -/
structure ChangesOnly (may : List Text → Prop) (before after : Workspace) : Prop where
  /-- Paths lead to the same places. -/
  place : ∀ path, after.place? path = before.place? path
  /-- The other places hold what they held. -/
  node : ∀ place, ¬may place → after.node? place = before.node? place

namespace ChangesOnly

/-- A workspace differs nowhere from itself. -/
theorem refl (may : List Text → Prop) (workspace : Workspace) :
    ChangesOnly may workspace workspace :=
  ⟨fun _ => rfl, fun _ _ => rfl⟩

/-- Two changes in a row stay where each of them may be. -/
theorem trans (h₁ : ChangesOnly may before middle) (h₂ : ChangesOnly may middle after) :
    ChangesOnly may before after :=
  ⟨fun path => (h₂.place path).trans (h₁.place path),
    fun place hplace => (h₂.node place hplace).trans (h₁.node place hplace)⟩

/-- A change stays within more places too. -/
theorem mono {might : List Text → Prop} (h : ChangesOnly may before after)
    (hmay : ∀ place, may place → might place) : ChangesOnly might before after :=
  ⟨h.place, fun place hplace => h.node place fun hm => hplace (hmay place hm)⟩

/-- A path that leads to none of the places shows what it showed. -/
theorem look (h : ChangesOnly may before after)
    (hpath : ∀ place, before.place? path = some place → ¬may place) :
    after.look path = before.look path := by
  rw [Workspace.look, Workspace.look, h.place]
  cases hp : before.place? path with
  | none => rfl
  | some place => rw [Option.bind_some, Option.bind_some, h.node place (hpath place hp)]

end ChangesOnly

/-! ## Putting something at a place -/

/-- Below the root a node is looked up by its place. -/
theorem node?_of_ne_nil (workspace : Workspace) (h : place ≠ []) :
    workspace.node? place = workspace.nodes.lookup place := by
  cases place with
  | nil => exact absurd rfl h
  | cons part rest => rfl

/-- Leaving out one place does not change what is found at another. -/
theorem lookup_filter_ne (h : other ≠ place) (nodes : List (List Text × Node)) :
    (nodes.filter (·.1 ≠ place)).lookup other = nodes.lookup other := by
  induction nodes with
  | nil => rfl
  | cons entry nodes ih =>
    obtain ⟨key, node⟩ := entry
    rw [List.filter_cons, List.lookup_cons]
    by_cases hkey : key = place
    · have hother : (other == key) = false := by
        rw [hkey]
        exact beq_false_of_ne h
      rw [if_neg (by simpa using hkey), hother]
      exact ih
    · rw [if_pos (by simpa using hkey), List.lookup_cons, ih]

/-- What is put at a place is found there. -/
theorem node?_set_self (workspace : Workspace) (h : place ≠ []) (node : Node) :
    (workspace.set place node).node? place = some node := by
  rw [node?_of_ne_nil _ h]
  exact List.lookup_cons_self

/-- It changes no other place. -/
theorem node?_set_of_ne (workspace : Workspace) (h : other ≠ place) (node : Node) :
    (workspace.set place node).node? other = workspace.node? other := by
  cases other with
  | nil => rfl
  | cons part rest =>
    have hother : (part :: rest == place) = false := beq_false_of_ne h
    rw [node?_of_ne_nil _ (List.cons_ne_nil part rest),
      node?_of_ne_nil _ (List.cons_ne_nil part rest), Workspace.set, List.lookup_cons, hother]
    exact lookup_filter_ne h workspace.nodes

/-! ## Following paths -/

/-- Following a path only asks where directories are. -/
theorem follow_congr (h : ∀ place, after.node? place = some .directory ↔
      before.node? place = some .directory) (place parts : List Text) :
    after.follow place parts = before.follow place parts := by
  induction parts generalizing place with
  | nil => rfl
  | cons part rest ih => simp only [follow, h, ih]

/-- Where a path leads to depends on the directories only. -/
theorem place?_congr (hroot : after.root = before.root)
    (h : ∀ place, after.node? place = some .directory ↔
      before.node? place = some .directory) (path : Text) :
    after.place? path = before.place? path := by
  rw [place?, place?, parts?, parts?, hroot]
  exact congrArg _ (funext (follow_congr h []))

/-! ## Writes -/

/-- A write puts a file at the place the path leads to, which is no directory. -/
theorem write?_eq_some (h : workspace.write? path content = some written) :
    ∃ place, workspace.place? path = some place ∧ workspace.node? place ≠ some .directory ∧
      written = workspace.set place (.file (some content)) := by
  rw [write?] at h
  cases hp : workspace.place? path with
  | none =>
    rw [hp] at h
    cases h
  | some place =>
    rw [hp] at h
    dsimp only at h
    split at h
    · cases h
    · rename_i hdirectory
      exact ⟨place, rfl, hdirectory, (Option.some.inj h).symm⟩

/-- A file in place of what is no directory leaves the directories as they are. -/
theorem directory_set_iff (hdirectory : workspace.node? place ≠ some .directory)
    (content : Option Text) (other : List Text) :
    (workspace.set place (.file content)).node? other = some .directory ↔
      workspace.node? other = some .directory := by
  by_cases hother : other = place
  · have hne : place ≠ [] := by
      rintro rfl
      exact hdirectory rfl
    rw [hother, node?_set_self workspace hne]
    exact iff_of_false (by simp) hdirectory
  · rw [node?_set_of_ne workspace hother]

/-- A write changes only the place its path leads to. -/
theorem changesOnly_of_write? (h : workspace.write? path content = some written) :
    ChangesOnly (fun place => workspace.place? path = some place) workspace written := by
  obtain ⟨place, hplace, hdirectory, hwritten⟩ := write?_eq_some h
  have hroot : written.root = workspace.root := by
    rw [hwritten]
    rfl
  refine ⟨place?_congr hroot fun other => ?_, fun other hother => ?_⟩
  · rw [hwritten]
    exact directory_set_iff hdirectory _ other
  · rw [hwritten]
    apply node?_set_of_ne
    rintro rfl
    exact hother hplace

/-- What was written is found at its path. -/
theorem look_of_write? (h : workspace.write? path content = some written) :
    written.look path = .file (some content) := by
  have hplaces := (changesOnly_of_write? h).place path
  obtain ⟨place, hplace, hdirectory, rfl⟩ := write?_eq_some h
  have hne : place ≠ [] := by
    rintro rfl
    exact hdirectory rfl
  rw [look, hplaces, hplace, Option.bind_some, node?_set_self workspace hne]

end Docblock.Workspace
