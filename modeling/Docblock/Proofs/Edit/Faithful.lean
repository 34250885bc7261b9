import Docblock.Proofs.Edit.Patch
import Docblock.Proofs.Text.Trim

/-!
# Patches that keep every line

A patch is faithful when what it puts above a row are whole lines, and what it
puts in place of rows has a line for each of them that differs only in the
blanks around it. The rows that faithful patches leave can be cut out of their
text again, and the break of most rows stays the break of most rows.
-/

namespace Docblock.Patch

open Text

/-- Whether a patch keeps every line it covers, up to blanks around it. -/
def Faithful (patch : Patch) : Prop :=
  match patch.change with
  | .keep => True
  | .above text => ∃ ls, (∀ l ∈ ls, Breakable l) ∧ text = unlines ls
  | .instead text =>
    ∃ ls, (∀ l ∈ ls, Breakable l) ∧ text = joinWith ['\n'] ls ∧
      ls.map trim = patch.rows.map fun row => trim row.text

/-- The rows that a patch adds, with the break for new text. -/
def added (ending : Break) (patch : Patch) : List Row :=
  match patch.change with
  | .above text => (lines text).map (⟨·, ending⟩)
  | _ => []

/-- The rows that a patch leaves of those it covers. -/
def kept (ending : Break) (patch : Patch) : List Row :=
  match patch.change with
  | .instead text => Row.behind ending text ⟨[], patch.last.ending⟩
  | _ => patch.rows

variable {ending : Break} {patch : Patch}

/-- What a faithful patch leaves is what it adds, and then what it keeps. -/
theorem renewed_eq_added_append_kept (hf : patch.Faithful) :
    patch.renewed ending = patch.added ending ++ patch.kept ending := by
  rw [Faithful] at hf
  rw [renewed, added, kept]
  cases hc : patch.change with
  | keep => rfl
  | above text =>
    rw [hc] at hf
    obtain ⟨ls, hls, rfl⟩ := hf
    have hmem : ∀ l ∈ ls, '\n' ∉ l := fun l hl => (hls l hl).oneLine
    dsimp only
    rw [lines_unlines hmem, Row.behind_unlines ending hmem, List.append_assoc]
    rfl
  | instead text => rfl

variable (ending) in
/-- A text in place of rows keeps one row for each of them, and the last break. -/
theorem kept_of_instead (hf : patch.Faithful) {text : Text} (hc : patch.change = .instead text) :
    ∃ ls l, (∀ k ∈ ls, Breakable k) ∧ Breakable l ∧
      (ls ++ [l]).map trim = patch.rows.map (fun row => trim row.text) ∧
      patch.kept ending = ls.map (⟨·, ending⟩) ++ [⟨l, patch.last.ending⟩] := by
  rw [Faithful, hc] at hf
  obtain ⟨all, hall, rfl, htrim⟩ := hf
  rcases List.eq_nil_or_concat' all with rfl | ⟨ls, l, rfl⟩
  · simp [rows] at htrim
  · have hls : ∀ k ∈ ls, Breakable k := fun k hk => hall k (List.mem_append_left _ hk)
    have hl : Breakable l := hall l (List.mem_append_right _ List.mem_cons_self)
    refine ⟨ls, l, hls, hl, htrim, ?_⟩
    rw [kept, hc]
    dsimp only
    exact Row.behind_joinWith ending (fun k hk => (hls k hk).oneLine) hl.oneLine patch.last.ending

variable (ending) in
/-- The rows a faithful patch keeps have the trimmed texts of those it covers. -/
theorem trim_kept (hf : patch.Faithful) :
    (patch.kept ending).map (fun row => trim row.text) =
      patch.rows.map fun row => trim row.text := by
  cases hc : patch.change with
  | keep => rw [kept, hc]
  | above text => rw [kept, hc]
  | instead text =>
    obtain ⟨ls, l, _, _, htrim, hk⟩ := kept_of_instead ending hf hc
    rw [hk, ← htrim]
    simp [Function.comp_def]

variable (ending) in
/-- A faithful patch keeps the number of its rows. -/
theorem length_kept (hf : patch.Faithful) : (patch.kept ending).length = patch.rows.length := by
  have h := congrArg List.length (trim_kept ending hf)
  rwa [List.length_map, List.length_map] at h

variable (ending) in
/-- The last row that a faithful patch keeps ends as the last one it covers. -/
theorem getLast?_kept (hf : patch.Faithful) :
    (patch.kept ending).getLast?.map Row.ending = some patch.last.ending := by
  have hrows : patch.rows.getLast? = some patch.last := by
    rw [rows_eq_init_append_last, List.getLast?_concat]
  cases hc : patch.change with
  | keep => rw [kept, hc, hrows, Option.map_some]
  | above text => rw [kept, hc, hrows, Option.map_some]
  | instead text =>
    obtain ⟨ls, l, _, _, _, hk⟩ := kept_of_instead ending hf hc
    rw [hk, List.getLast?_concat, Option.map_some]

/-- Rows that are added have breaks. -/
theorem ended_added (he : ending ≠ .none) (hf : patch.Faithful) :
    ∀ row ∈ patch.added ending, row.Ended := by
  rw [Faithful] at hf
  rw [added]
  cases hc : patch.change with
  | keep => exact fun _ hr => absurd hr List.not_mem_nil
  | above text =>
    rw [hc] at hf
    obtain ⟨ls, hls, rfl⟩ := hf
    intro row hr
    dsimp only at hr
    rw [lines_unlines fun l hl => (hls l hl).oneLine] at hr
    obtain ⟨l, hl, rfl⟩ := List.mem_map.mp hr
    exact Row.ended_of_breakable (hls l hl) he
  | instead text => exact fun _ hr => absurd hr List.not_mem_nil

/-- Rows that have breaks are kept as rows that have breaks. -/
theorem ended_kept (he : ending ≠ .none) (hf : patch.Faithful)
    (h : ∀ row ∈ patch.rows, row.Ended) : ∀ row ∈ patch.kept ending, row.Ended := by
  cases hc : patch.change with
  | keep => rwa [kept, hc]
  | above text => rwa [kept, hc]
  | instead text =>
    obtain ⟨ls, l, hls, hl, _, hk⟩ := kept_of_instead ending hf hc
    have hlast : patch.last.Ended := by
      apply h
      rw [rows_eq_init_append_last]
      exact List.mem_append_right _ List.mem_cons_self
    rw [hk]
    intro row hr
    rcases List.mem_append.mp hr with hr | hr
    · obtain ⟨k, hkm, rfl⟩ := List.mem_map.mp hr
      exact Row.ended_of_breakable (hls k hkm) he
    · rw [List.mem_singleton.mp hr]
      exact Row.ended_of_breakable hl hlast.broken

/-- Canonical rows are kept as canonical rows. -/
theorem canonical_kept (he : ending ≠ .none) (hf : patch.Faithful)
    (h : Row.Canonical patch.rows) : Row.Canonical (patch.kept ending) := by
  cases hc : patch.change with
  | keep => rwa [kept, hc]
  | above text => rwa [kept, hc]
  | instead text =>
    obtain ⟨ls, l, hls, hl, _, hk⟩ := kept_of_instead ending hf hc
    rw [rows_eq_init_append_last] at h
    obtain ⟨before, last, heq, _, hfinal⟩ := h
    obtain ⟨_, hlast⟩ := List.append_inj' heq rfl
    cases hlast
    rw [hk]
    refine ⟨ls.map (⟨·, ending⟩), ⟨l, patch.last.ending⟩, rfl, ?_, hl.oneLine, hfinal.unbroken⟩
    intro row hr
    obtain ⟨k, hkm, rfl⟩ := List.mem_map.mp hr
    exact Row.ended_of_breakable (hls k hkm) he

/-- Faithful patches leave rows that are found again in their text. -/
theorem canonical_renewed (he : ending ≠ .none) {patches : List Patch}
    (hf : ∀ patch ∈ patches, patch.Faithful) (h : Row.Canonical (patches.flatMap rows)) :
    Row.Canonical (patches.flatMap (renewed ending)) := by
  induction patches with
  | nil => exact h
  | cons patch rest ih =>
    rw [List.forall_mem_cons] at hf
    rw [List.flatMap_cons] at h ⊢
    rw [renewed_eq_added_append_kept hf.1, List.append_assoc]
    apply Row.canonical_append (ended_added he hf.1)
    cases rest with
    | nil =>
      rw [List.flatMap_nil, List.append_nil] at h ⊢
      exact canonical_kept he hf.1 h
    | cons next rest =>
      have hne : (next :: rest).flatMap rows ≠ [] := by
        rw [List.flatMap_cons]
        exact List.append_ne_nil_of_left_ne_nil next.rows_ne_nil _
      obtain ⟨hended, hcanonical⟩ := Row.ended_of_canonical_append h hne
      exact Row.canonical_append (ended_kept he hf.1 hended) (ih hf.2 hcanonical)

end Docblock.Patch
