import Docblock.Proofs.Text.Pieces

/-!
# Finding a text in another

The tests of a beginning, of an end and of an occurrence decide the prefix, the
suffix and the infix relation. What follows the first occurrence is the end of
the text.
-/

namespace Docblock.Text

/-- A beginning is stripped off. -/
@[simp] theorem stripStart?_append (start rest : Text) :
    stripStart? start (start ++ rest) = some rest := by
  induction start with
  | nil => rw [List.nil_append, stripStart?]
  | cons p ps ih => rw [List.cons_append, stripStart?, if_pos rfl, ih]

/-- A text starts with its prefixes. -/
theorem startsWith_iff_isPrefix {start t : Text} : startsWith start t = true ↔ start <+: t := by
  rw [startsWith, Option.isSome_iff_exists]
  constructor
  · rintro ⟨rest, hrest⟩
    exact ⟨rest, (eq_append_of_stripStart?_eq_some hrest).symm⟩
  · rintro ⟨rest, rfl⟩
    exact ⟨rest, stripStart?_append start rest⟩

/-- A text ends with its suffixes. -/
theorem endsWith_iff_isSuffix {tail t : Text} : endsWith tail t = true ↔ tail <:+ t := by
  rw [endsWith, startsWith_iff_isPrefix, List.reverse_prefix]

/-- What follows the first occurrence stands at the end, right behind the needle. -/
theorem eq_append_of_afterFirst?_eq_some {needle t rest : Text}
    (h : afterFirst? needle t = some rest) : ∃ before, t = before ++ needle ++ rest := by
  induction t with
  | nil => exact ⟨[], eq_append_of_stripStart?_eq_some h⟩
  | cons c r ih =>
    rw [afterFirst?] at h
    cases hs : stripStart? needle (c :: r) with
    | some here =>
      rw [hs] at h
      cases h
      exact ⟨[], eq_append_of_stripStart?_eq_some hs⟩
    | none =>
      rw [hs] at h
      obtain ⟨before, hbefore⟩ := ih h
      exact ⟨c :: before, by rw [hbefore]; rfl⟩

/-- The search for a text fails exactly when it does not occur. -/
theorem afterFirst?_eq_none_iff {needle t : Text} :
    afterFirst? needle t = none ↔ ¬needle <:+: t := by
  induction t with
  | nil =>
    rw [afterFirst?, List.infix_nil]
    cases needle with
    | nil => simp [stripStart?]
    | cons p ps => simp [stripStart?]
  | cons c r ih =>
    rw [afterFirst?, List.infix_cons_iff, ← startsWith_iff_isPrefix, startsWith]
    cases stripStart? needle (c :: r) with
    | some rest => simp
    | none => simpa using ih

end Docblock.Text
