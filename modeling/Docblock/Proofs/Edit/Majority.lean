import Docblock.Proofs.Edit.Faithful

/-!
# The majority of the breaks

New text is given the break that ends most rows, so the rows that faithful
patches leave have no fewer breaks of this kind and no more of the other. A
second look at the text finds the same majority.
-/

namespace Docblock

open Text

namespace Document

/-- New text always has a break to use. -/
theorem lineEnding_ne_none (document : Document) : document.lineEnding ≠ .none := by
  rw [lineEnding]
  dsimp only
  split <;> decide

/-- More breaks of the majority and fewer of the other kind leave the majority
as it is. -/
theorem lineEnding_eq_of_countP {before after : Document} {ending : Break}
    (hb : before.lineEnding = ending)
    (hmore : before.rows.countP (·.ending = ending) ≤ after.rows.countP (·.ending = ending))
    (hless : ∀ other, other ≠ ending →
      after.rows.countP (·.ending = other) ≤ before.rows.countP (·.ending = other)) :
    after.lineEnding = ending := by
  rw [lineEnding] at hb ⊢
  dsimp only at hb ⊢
  split at hb
  · subst hb
    have := hless .lf (by decide)
    rw [if_pos (by omega)]
  · subst hb
    have := hless .crlf (by decide)
    rw [if_neg (by omega)]

end Document

namespace Patch

variable {ending : Break} {patch : Patch}

/-- Rows with one break have none of another. -/
theorem countP_map_of_ne {other : Break} (h : other ≠ ending) (ls : List Text) :
    (ls.map fun l => (⟨l, ending⟩ : Row)).countP (·.ending = other) = 0 := by
  rw [List.countP_map, List.countP_eq_zero]
  intro l _
  simpa using h.symm

/-- Rows with one break all have it. -/
theorem countP_map_self (ls : List Text) :
    (ls.map fun l => (⟨l, ending⟩ : Row)).countP (·.ending = ending) = ls.length := by
  rw [List.countP_map, List.countP_eq_length]
  intro l _
  simp

/-- A faithful patch takes no break of the kind that new text gets away. -/
theorem countP_le_countP_renewed (hf : patch.Faithful) :
    patch.rows.countP (·.ending = ending) ≤ (patch.renewed ending).countP (·.ending = ending) := by
  rw [renewed_eq_added_append_kept hf, List.countP_append]
  cases hc : patch.change with
  | keep => simp [kept, hc]
  | above text => simp [kept, hc]
  | instead text =>
    obtain ⟨ls, l, _, _, htrim, hk⟩ := kept_of_instead ending hf hc
    have hlen : ls.length = patch.init.length := by
      have h := congrArg List.length htrim
      rw [rows_eq_init_append_last] at h
      simpa using h
    have hinit : patch.init.countP (·.ending = ending) ≤ patch.init.length := List.countP_le_length
    rw [hk, rows_eq_init_append_last, List.countP_append, List.countP_append, countP_map_self,
      List.countP_singleton, List.countP_singleton]
    dsimp only
    omega

/-- A faithful patch adds no break of another kind. -/
theorem countP_renewed_le_countP (hf : patch.Faithful) {other : Break} (ho : other ≠ ending) :
    (patch.renewed ending).countP (·.ending = other) ≤ patch.rows.countP (·.ending = other) := by
  rw [renewed_eq_added_append_kept hf, List.countP_append]
  cases hc : patch.change with
  | keep => simp [added, kept, hc]
  | above text => simp [added, kept, hc, countP_map_of_ne ho]
  | instead text =>
    obtain ⟨ls, l, _, _, _, hk⟩ := kept_of_instead ending hf hc
    rw [hk, rows_eq_init_append_last, List.countP_append, List.countP_append,
      countP_map_of_ne ho, List.countP_singleton, List.countP_singleton]
    simp only [added, hc, List.countP_nil]
    omega

/-- What holds of each patch holds of all of them together. -/
theorem countP_flatMap_le {patches : List Patch} {f g : Patch → List Row} {p : Row → Bool}
    (h : ∀ patch ∈ patches, (f patch).countP p ≤ (g patch).countP p) :
    (patches.flatMap f).countP p ≤ (patches.flatMap g).countP p := by
  induction patches with
  | nil => exact Nat.le_refl _
  | cons patch rest ih =>
    rw [List.forall_mem_cons] at h
    rw [List.flatMap_cons, List.flatMap_cons, List.countP_append, List.countP_append]
    exact Nat.add_le_add h.1 (ih h.2)

/-- Faithful patches leave a document with the same break for new text. -/
theorem lineEnding_renewed {patches : List Patch} (hf : ∀ patch ∈ patches, patch.Faithful)
    {language : Text} (he : Document.lineEnding ⟨patches.flatMap rows, language⟩ = ending) :
    Document.lineEnding ⟨patches.flatMap (renewed ending), language⟩ = ending := by
  apply Document.lineEnding_eq_of_countP he
  · exact countP_flatMap_le fun patch hp => countP_le_countP_renewed (hf patch hp)
  · intro other ho
    exact countP_flatMap_le fun patch hp => countP_renewed_le_countP (hf patch hp) ho

end Patch

end Docblock
