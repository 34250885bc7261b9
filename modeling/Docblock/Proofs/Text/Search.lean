import Docblock.Proofs.Text.Find

/-!
# Searching, skipping and cutting

A search finds the first place of a text where its reader succeeds, told by the
text in front of that place. What is skipped while a test holds ends where the
test fails, and a piece ends at the next separator.
-/

namespace Docblock.Text

/-- The character in front of a place, given the text up to there. -/
theorem getLast?_cons_or (c : Char) (front : Text) (before : Option Char) :
    (c :: front).getLast?.or before = front.getLast?.or (some c) := by
  rw [List.getLast?_cons]
  cases front.getLast? <;> rfl

/-- A search succeeds where its reader does and does not at any place in front
of it. -/
theorem search_eq_some_iff {α : Type} {read : Option Char → Text → Option α}
    {before : Option Char} {t : Text} {found : α} :
    search read before t = some found ↔
      ∃ front back, t = front ++ back ∧ read (front.getLast?.or before) back = some found ∧
        ∀ front' back', t = front' ++ back' → front'.length < front.length →
          read (front'.getLast?.or before) back' = none := by
  induction t generalizing before with
  | nil =>
    rw [search]
    constructor
    · intro h
      exact ⟨[], [], rfl, h, fun _ _ _ hlt => absurd hlt (Nat.not_lt_zero _)⟩
    · rintro ⟨front, back, heq, hread, _⟩
      obtain ⟨rfl, rfl⟩ := List.append_eq_nil_iff.mp heq.symm
      exact hread
  | cons c r ih =>
    rw [search]
    cases hhere : read before (c :: r) with
    | some here =>
      constructor
      · intro h
        exact ⟨[], c :: r, rfl, hhere.trans h, fun _ _ _ hlt => absurd hlt (Nat.not_lt_zero _)⟩
      · rintro ⟨front, back, heq, hread, hnone⟩
        cases front with
        | nil =>
          rw [List.nil_append] at heq
          rw [← heq, List.getLast?_nil, Option.none_or, hhere] at hread
          exact hread
        | cons d s =>
          have hfirst := hnone [] (c :: r) rfl (Nat.succ_pos _)
          rw [List.getLast?_nil, Option.none_or, hhere] at hfirst
          cases hfirst
    | none =>
      dsimp only
      rw [ih]
      constructor
      · rintro ⟨front, back, rfl, hread, hnone⟩
        refine ⟨c :: front, back, rfl, by rwa [getLast?_cons_or], fun front' back' heq hlt => ?_⟩
        cases front' with
        | nil =>
          rw [List.nil_append] at heq
          rw [← heq, List.getLast?_nil, Option.none_or, hhere]
        | cons d s =>
          obtain ⟨rfl, hrest⟩ := List.cons.inj heq
          rw [getLast?_cons_or]
          exact hnone s back' hrest (Nat.lt_of_succ_lt_succ hlt)
      · rintro ⟨front, back, heq, hread, hnone⟩
        cases front with
        | nil =>
          rw [List.nil_append] at heq
          rw [← heq, List.getLast?_nil, Option.none_or, hhere] at hread
          cases hread
        | cons d s =>
          obtain ⟨rfl, hrest⟩ := List.cons.inj heq
          rw [getLast?_cons_or] at hread
          refine ⟨s, back, hrest, hread, fun front' back' heq' hlt => ?_⟩
          rw [← getLast?_cons_or c front' before]
          exact hnone (c :: front') back' (by rw [heq']; rfl) (Nat.succ_lt_succ hlt)

/-- A word ends where no word character follows. -/
theorem startsWithWord_eq_false_iff {t : Text} :
    startsWithWord t = false ↔ ∀ c ∈ t.head?, isWord c = false := by
  cases t with
  | nil => simp [startsWithWord]
  | cons c r => simp [startsWithWord]

/-- A keyword takes its own characters, and no word character may follow. -/
theorem keyword?_eq_some_iff {word t rest : Text} :
    keyword? word t = some rest ↔ t = word ++ rest ∧ startsWithWord rest = false := by
  rw [keyword?]
  constructor
  · intro h
    cases hs : stripStart? word t with
    | none => rw [hs] at h; cases h
    | some found =>
      rw [hs] at h
      dsimp only at h
      split at h
      · cases h
      · rename_i hword
        cases h
        exact ⟨eq_append_of_stripStart?_eq_some hs, Bool.eq_false_iff.mpr hword⟩
  · rintro ⟨rfl, hword⟩
    rw [stripStart?_append]
    dsimp only
    rw [hword]
    rfl

/-- Characters that pass no test one by one pass none together. -/
theorem forall_eq_false_of_any {p : Char → Bool} {t : Text} (h : t.any p = false) :
    ∀ c ∈ t, p c = false :=
  fun c hm => Bool.eq_false_iff.mpr (List.any_eq_false.mp h c hm)

section Skip

variable {p : Char → Bool} {a b : Text}

/-- Taking while a test holds stops at the first character that fails it. -/
theorem takeWhile_append_of_stop (ha : ∀ c ∈ a, p c = true) (hb : ∀ c ∈ b.head?, p c = false) :
    (a ++ b).takeWhile p = a := by
  rw [List.takeWhile_append_of_pos ha]
  cases b with
  | nil => rw [List.takeWhile_nil, List.append_nil]
  | cons c r => rw [List.takeWhile_cons_of_neg (by simp [hb c rfl]), List.append_nil]

/-- Skipping while a test holds stops at the first character that fails it. -/
theorem dropWhile_append_of_stop (ha : ∀ c ∈ a, p c = true) (hb : ∀ c ∈ b.head?, p c = false) :
    (a ++ b).dropWhile p = b := by
  rw [List.dropWhile_append_of_pos ha]
  cases b with
  | nil => rfl
  | cons c r => rw [List.dropWhile_cons_of_neg (by simp [hb c rfl])]

/-- What follows a text is neither taken nor skipped with it when it starts with a
character that fails the test. -/
theorem takeWhile_append_of_head (hb : ∀ c ∈ b.head?, p c = false) :
    (a ++ b).takeWhile p = a.takeWhile p := by
  induction a with
  | nil => exact takeWhile_append_of_stop (fun _ hm => absurd hm List.not_mem_nil) hb
  | cons c r ih =>
    rw [List.cons_append]
    by_cases hc : p c = true
    · rw [List.takeWhile_cons_of_pos hc, List.takeWhile_cons_of_pos hc, ih]
    · rw [List.takeWhile_cons_of_neg hc, List.takeWhile_cons_of_neg hc]

/-- The text behind stays whole when it starts with a character that fails the test. -/
theorem dropWhile_append_of_head (hb : ∀ c ∈ b.head?, p c = false) :
    (a ++ b).dropWhile p = a.dropWhile p ++ b := by
  induction a with
  | nil => exact dropWhile_append_of_stop (fun _ hm => absurd hm List.not_mem_nil) hb
  | cons c r ih =>
    rw [List.cons_append]
    by_cases hc : p c = true
    · rw [List.dropWhile_cons_of_pos hc, List.dropWhile_cons_of_pos hc, ih]
    · rw [List.dropWhile_cons_of_neg hc, List.dropWhile_cons_of_neg hc, List.cons_append]

/-- Skipping stops at a character that fails the test. -/
theorem head_dropWhile (p : Char → Bool) (t : Text) : ∀ c ∈ (t.dropWhile p).head?, p c = false := by
  intro c hc
  have hnot := List.head?_dropWhile_not p t
  rw [Option.mem_def.mp hc] at hnot
  simpa using hnot

section Find

variable {c : Char} {r : Text}

/-- Up to the first place of a character a text goes on without it. -/
theorem takeWhile_ne_append (h : c ∉ a) : (a ++ c :: r).takeWhile (· ≠ c) = a := by
  apply takeWhile_append_of_stop
  · intro d hm
    rw [decide_eq_true_iff]
    rintro rfl
    exact h hm
  · rintro d ⟨⟩
    exact decide_eq_false (not_not_intro rfl)

/-- What is taken up to a character does not have it. -/
theorem not_mem_takeWhile_ne (c : Char) (t : Text) : c ∉ t.takeWhile (· ≠ c) :=
  fun hm => by simpa using List.mem_takeWhile_imp hm

/-- What is left starts with the character. -/
theorem head_dropWhile_ne (c : Char) (t : Text) : ∀ d ∈ (t.dropWhile (· ≠ c)).head?, d = c :=
  fun d hd => by simpa using head_dropWhile (· ≠ c) t d hd

/-- Behind a text without a character the first place of it is found. -/
theorem dropWhile_ne_append (h : c ∉ a) : (a ++ c :: r).dropWhile (· ≠ c) = c :: r := by
  have hsplit : (a ++ c :: r).takeWhile (· ≠ c) ++ (a ++ c :: r).dropWhile (· ≠ c) = a ++ c :: r :=
    List.takeWhile_append_dropWhile
  rw [takeWhile_ne_append h] at hsplit
  exact List.append_cancel_left hsplit

/-- A text is cut at the first place of a character in one way. -/
theorem append_cons_inj_of_not_mem {a' r' : Text} (ha : c ∉ a) (ha' : c ∉ a')
    (h : a ++ c :: r = a' ++ c :: r') : a = a' ∧ r = r' := by
  have hsame : a = a' := by
    have htake : (a ++ c :: r).takeWhile (· ≠ c) = a := takeWhile_ne_append ha
    rw [← htake, h, takeWhile_ne_append ha']
  subst hsame
  exact ⟨rfl, (List.cons.inj (List.append_cancel_left h)).2⟩

/-- Blanks are nothing else. -/
theorem not_mem_of_allBlank (ha : allBlank a = true) (hc : isBlank c = false) : c ∉ a := by
  intro hm
  rw [List.all_eq_true.mp ha c hm] at hc
  cases hc

end Find

/-- Blanks are skipped. -/
theorem trimStart_append_of_allBlank (ha : allBlank a = true) (t : Text) :
    trimStart (a ++ t) = trimStart t := by
  rw [trimStart, trimStart, List.dropWhile_append_of_pos (List.all_eq_true.mp ha)]

/-- An indent is blank. -/
theorem allBlank_indent (t : Text) : allBlank (indent t) = true :=
  List.all_eq_true.mpr fun _ hm => isBlank_of_mem_indent hm

/-- A text is its indent and the rest. -/
theorem indent_append_trimStart (t : Text) : indent t ++ trimStart t = t :=
  List.takeWhile_append_dropWhile

end Skip

section Cut

variable {separator : Char} {piece : Text}

/-- A separator ends the piece in front of it. -/
theorem splitOn_append_cons (h : separator ∉ piece) (t : Text) :
    splitOn separator (piece ++ separator :: t) = piece :: splitOn separator t := by
  induction piece with
  | nil => rw [List.nil_append, splitOn, if_pos rfl]
  | cons c r ih =>
    rw [List.mem_cons, not_or] at h
    rw [List.cons_append, splitOn, if_neg (Ne.symm h.1), ih h.2]
    rfl

/-- The first piece goes up to the first separator. -/
theorem splitOn_eq_cons (separator : Char) (t : Text) :
    splitOn separator t = t.takeWhile (· ≠ separator) :: (splitOn separator t).tail := by
  induction t with
  | nil => rfl
  | cons c r ih =>
    rw [splitOn]
    by_cases hc : c = separator
    · rw [if_pos hc, List.takeWhile_cons_of_neg (by simp [hc]), List.tail_cons]
    · rw [if_neg hc, List.takeWhile_cons_of_pos (by simp [hc]), ih]
      rfl

/-- A text without separators is one piece. -/
theorem splitOn_of_not_mem (h : separator ∉ piece) :
    splitOn separator piece = [piece] := by
  induction piece with
  | nil => rfl
  | cons c r ih =>
    rw [List.mem_cons, not_or] at h
    rw [splitOn, if_neg (Ne.symm h.1), ih h.2]
    rfl

/-- Only a text without separators is one piece. -/
theorem splitOn_eq_singleton_iff {t : Text} :
    splitOn separator t = [piece] ↔ t = piece ∧ separator ∉ t := by
  constructor
  · intro h
    have hnone : separator ∉ t := by
      intro hm
      obtain ⟨a, b, rfl, ha⟩ := List.eq_append_cons_of_mem hm
      rw [splitOn_append_cons ha, splitOn_eq_cons] at h
      cases h
    rw [splitOn_of_not_mem hnone] at h
    exact ⟨List.singleton_injective h, hnone⟩
  · rintro ⟨rfl, h⟩
    exact splitOn_of_not_mem h

/-- A text is cut into two pieces at its only separator. -/
theorem splitOn_eq_pair_iff {t left right : Text} :
    splitOn separator t = [left, right] ↔
      t = left ++ separator :: right ∧ separator ∉ left ∧ separator ∉ right := by
  constructor
  · intro h
    have hm : separator ∈ t := by
      by_contra hnone
      rw [splitOn_of_not_mem hnone] at h
      cases h
    obtain ⟨a, b, rfl, ha⟩ := List.eq_append_cons_of_mem hm
    rw [splitOn_append_cons ha, List.cons.injEq, splitOn_eq_singleton_iff] at h
    obtain ⟨rfl, rfl, hb⟩ := h
    exact ⟨rfl, ha, hb⟩
  · rintro ⟨rfl, hleft, hright⟩
    rw [splitOn_append_cons hleft, splitOn_of_not_mem hright]

end Cut

end Docblock.Text
