import Mathlib.Data.List.DropRight
import Docblock.Text.Blank

/-!
# Trimming and indents

Trimming keeps everything between the outermost characters that are not blank.
So it does not notice blanks put in front of a text, and the indent of a text
is what stands in front of its trimmed part.
-/

namespace Docblock.Text

/-- The blanks, one by one. -/
def blanks : List Char :=
  (List.range' 9 5 ++ List.range' 0x2000 11).map Char.ofNat ++ scatteredBlanks

/-- The list has all blanks. -/
theorem mem_blanks_of_isBlank {c : Char} (h : isBlank c = true) : c ∈ blanks := by
  rw [blanks, List.mem_append, List.mem_map]
  rw [isBlank, Bool.or_eq_true, Bool.or_eq_true, Bool.and_eq_true, Bool.and_eq_true,
    decide_eq_true_iff, decide_eq_true_iff, decide_eq_true_iff, decide_eq_true_iff] at h
  have hle : ∀ {a b : Char}, a ≤ b ↔ a.toNat ≤ b.toNat := fun {a b} => UInt32.le_iff_toNat_le
  rcases h with (h | h) | h
  · rw [hle, hle] at h
    refine .inl ⟨c.toNat, List.mem_append_left _ (List.mem_range'_1.mpr ?_), Char.ofNat_toNat c⟩
    exact ⟨h.1, Nat.lt_succ_of_le h.2⟩
  · rw [hle, hle] at h
    refine .inl ⟨c.toNat, List.mem_append_right _ (List.mem_range'_1.mpr ?_), Char.ofNat_toNat c⟩
    exact ⟨h.1, Nat.lt_succ_of_le h.2⟩
  · exact .inr (List.contains_iff_mem.mp h)

/-- A character that passes a test no blank passes is not blank. -/
theorem isBlank_eq_false_of_test {p : Char → Bool} (hnone : blanks.any p = false) {c : Char}
    (h : p c = true) : isBlank c = false := by
  rw [← Bool.not_eq_true]
  intro hblank
  exact List.any_eq_false.mp hnone c (mem_blanks_of_isBlank hblank) h

/-- Dropping blanks at the end is dropping from the right while blank. -/
theorem trimEnd_eq_rdropWhile (t : Text) : trimEnd t = t.rdropWhile isBlank := by
  induction t with
  | nil => rfl
  | cons c r ih =>
    rw [trimEnd, ih, List.rdropWhile, List.rdropWhile, List.reverse_cons, List.dropWhile_append]
    cases hr : r.reverse.dropWhile isBlank with
    | nil => by_cases hc : isBlank c = true <;> simp [hc]
    | cons d s =>
      cases hs : (d :: s).reverse with
      | nil => simp at hs
      | cons e u => simp [← hs]

/-- Blanks in front of a text do not change what trimming leaves. -/
theorem trim_append_of_blank {b : Text} (hb : ∀ c ∈ b, isBlank c = true) (t : Text) :
    trim (b ++ t) = trim t := by
  rw [trim, trim, trimStart, trimStart, List.dropWhile_append_of_pos hb]

/-- Blanks behind a text do not change what trimming leaves. -/
theorem trim_append_blank {b : Text} (hb : ∀ c ∈ b, isBlank c = true) (t : Text) :
    trim (t ++ b) = trim t := by
  induction b using List.reverseRecOn with
  | nil => rw [List.append_nil]
  | append_singleton b c ih =>
    rw [List.forall_mem_append, List.forall_mem_singleton] at hb
    rw [← ih hb.1, ← List.append_assoc, trim, trim, trimStart, trimStart, List.dropWhile_append]
    cases hs : (t ++ b).dropWhile isBlank with
    | nil => simp [hb.2]
    | cons d s =>
      rw [List.isEmpty_cons, if_neg Bool.false_ne_true, trimEnd_eq_rdropWhile,
        List.rdropWhile_concat_pos isBlank _ _ hb.2, ← trimEnd_eq_rdropWhile]

/-- No blanks are dropped in front of a text that starts with none. -/
theorem trimStart_eq_self_of_head {c : Char} {r : Text} (hc : isBlank c = false) :
    trimStart (c :: r) = c :: r := by
  rw [trimStart, List.dropWhile_cons_of_neg (by simp [hc])]

/-- The end of a text does not matter to its first character: dropping blanks
there leaves a part of the text that starts in the same way. -/
theorem trimEnd_cons_of_not_blank {c : Char} {r : Text} (hc : isBlank c = false) :
    trimEnd (c :: r) = c :: trimEnd r := by
  rw [trimEnd]
  cases h : trimEnd r with
  | nil => simp [hc]
  | cons d s => rfl

/-- A trimmed text that is not empty starts with a character that is not blank. -/
theorem isBlank_head_trim {t r : Text} {c : Char} (h : trim t = c :: r) : isBlank c = false := by
  cases hs : trimStart t with
  | nil => rw [trim, hs, trimEnd] at h; cases h
  | cons d s =>
    have hd : isBlank d = false := by
      have := List.head?_dropWhile_not isBlank t
      rw [← trimStart, hs] at this
      simpa using this
    rw [trim, hs, trimEnd_cons_of_not_blank hd] at h
    cases h
    exact hd

/-- A trimmed text does not end in a blank. -/
theorem isBlank_last_trim {t : Text} {c : Char} (h : (trim t).getLast? = some c) :
    isBlank c = false := by
  rw [trim, trimEnd_eq_rdropWhile] at h
  have hne : (trimStart t).rdropWhile isBlank ≠ [] := by
    intro he
    rw [he] at h
    cases h
  have hl := List.rdropWhile_last_not isBlank (trimStart t) hne
  rw [List.getLast?_eq_getLast_of_ne_nil hne] at h
  cases h
  simpa using hl

/-- No blanks are dropped behind a text that ends in none. -/
theorem trimEnd_eq_self_of_last {t : Text} (h : ∀ c, t.getLast? = some c → isBlank c = false) :
    trimEnd t = t := by
  rw [trimEnd_eq_rdropWhile, List.rdropWhile_eq_self_iff]
  intro hne
  simp [h _ (List.getLast?_eq_getLast_of_ne_nil hne)]

/-- Only the blanks at the start of a text that does not end in a blank are
trimmed away. -/
theorem trim_append_singleton {c : Char} (hc : isBlank c = false) (t : Text) :
    trim (t ++ [c]) = trimStart t ++ [c] := by
  have hstart : trimStart (t ++ [c]) = trimStart t ++ [c] := by
    rw [trimStart, trimStart, List.dropWhile_append]
    cases t.dropWhile isBlank with
    | nil => simp [hc]
    | cons d s => rfl
  rw [trim, hstart, trimEnd_eq_self_of_last]
  intro d hd
  rw [List.getLast?_concat] at hd
  cases hd
  exact hc

/-- A text with no blank at either end is its own trimmed part. -/
theorem trim_eq_self {c : Char} {r : Text} (hc : isBlank c = false)
    (hl : ∀ d, (c :: r).getLast? = some d → isBlank d = false) : trim (c :: r) = c :: r := by
  rw [trim, trimStart_eq_self_of_head hc, trimEnd_eq_self_of_last hl]

@[simp] theorem trim_nil : trim [] = [] := rfl

/-- A text without blanks is its own trimmed part. -/
theorem trim_of_solid {t : Text} (h : ∀ c ∈ t, isBlank c = false) : trim t = t := by
  cases t with
  | nil => rfl
  | cons c r =>
    exact trim_eq_self (h c List.mem_cons_self) fun d hd => h d (List.mem_of_getLast? hd)

/-- Trimming twice is trimming once. -/
@[simp] theorem trim_trim (t : Text) : trim (trim t) = trim t := by
  cases h : trim t with
  | nil => rfl
  | cons c r =>
    apply trim_eq_self (isBlank_head_trim h)
    intro d hd
    rw [← h] at hd
    exact isBlank_last_trim hd

/-- Trimming leaves nothing exactly of blanks. -/
theorem isEmpty_trim (t : Text) : (trim t).isEmpty = allBlank t := by
  rw [Bool.eq_iff_iff, List.isEmpty_iff, allBlank, List.all_eq_true, trim, trimEnd_eq_rdropWhile,
    List.rdropWhile_eq_nil_iff, trimStart]
  constructor
  · intro h c hc
    rw [← List.takeWhile_append_dropWhile (p := isBlank) (l := t)] at hc
    rcases List.mem_append.mp hc with hc | hc
    · exact List.mem_takeWhile_imp hc
    · exact h c hc
  · intro h c hc
    exact h c ((List.dropWhile_sublist isBlank).subset hc)

/-- Only blanks are dropped at the end. -/
theorem exists_eq_trimEnd_append (t : Text) :
    ∃ b, (∀ c ∈ b, isBlank c = true) ∧ t = trimEnd t ++ b := by
  refine ⟨(t.reverse.takeWhile isBlank).reverse, fun c hc => ?_, ?_⟩
  · exact List.mem_takeWhile_imp (List.mem_reverse.mp hc)
  · rw [trimEnd_eq_rdropWhile, List.rdropWhile, ← List.reverse_append,
      List.takeWhile_append_dropWhile, List.reverse_reverse]

/-- A text has nothing but blanks around its trimmed part. -/
theorem exists_eq_append_trim_append (t : Text) :
    ∃ a b, (∀ c ∈ a, isBlank c = true) ∧ (∀ c ∈ b, isBlank c = true) ∧
      t = a ++ (trim t ++ b) := by
  obtain ⟨b, hb, hend⟩ := exists_eq_trimEnd_append (trimStart t)
  refine ⟨t.takeWhile isBlank, b, fun _ hc => List.mem_takeWhile_imp hc, hb, ?_⟩
  rw [trim, ← hend, trimStart, List.takeWhile_append_dropWhile]

/-- What is left of a text without the blanks around it: it starts and ends with no blank. -/
inductive TrimsTo : Text → (core : Text) → Prop
  | intro {front core back : Text} (hfront : ∀ c ∈ front, isBlank c = true)
      (hback : ∀ c ∈ back, isBlank c = true) (hhead : ∀ c ∈ core.head?, isBlank c = false)
      (hlast : ∀ c ∈ core.getLast?, isBlank c = false) : TrimsTo (front ++ (core ++ back)) core

/-- A text that starts and ends with no blank is its own trimmed part. -/
theorem trim_eq_self_of_ends {t : Text} (hhead : ∀ c ∈ t.head?, isBlank c = false)
    (hlast : ∀ c ∈ t.getLast?, isBlank c = false) : trim t = t := by
  cases t with
  | nil => rfl
  | cons c r => exact trim_eq_self (hhead c rfl) hlast

/-- Trimming takes the blanks around a text away and leaves none at its ends. -/
theorem trimsTo_trim (t : Text) : TrimsTo t (trim t) := by
  obtain ⟨front, back, hfront, hback, heq⟩ := exists_eq_append_trim_append t
  have h : TrimsTo (front ++ (trim t ++ back)) (trim t) := by
    refine .intro hfront hback (fun c hc => ?_) fun c hc => isBlank_last_trim hc
    obtain ⟨r, hr⟩ := List.head?_eq_some_iff.mp hc
    exact isBlank_head_trim hr
  rwa [← heq] at h

/-- There is one way to take the blanks around a text away. -/
theorem trimsTo_iff {t core : Text} : TrimsTo t core ↔ trim t = core := by
  constructor
  · rintro ⟨hfront, hback, hhead, hlast⟩
    rw [trim_append_of_blank hfront, trim_append_blank hback, trim_eq_self_of_ends hhead hlast]
  · rintro rfl
    exact trimsTo_trim t

/-- Trimming only takes characters away. -/
theorem mem_of_mem_trim {t : Text} {c : Char} (h : c ∈ trim t) : c ∈ t := by
  rw [trim, trimEnd_eq_rdropWhile] at h
  have hm : c ∈ trimStart t := (List.rdropWhile_prefix isBlank (trimStart t)).subset h
  exact (List.dropWhile_sublist isBlank).subset hm

/-- An indent has nothing but blanks. -/
theorem isBlank_of_mem_indent {t : Text} {c : Char} (h : c ∈ indent t) : isBlank c = true :=
  List.mem_takeWhile_imp h

theorem mem_of_mem_indent {t : Text} {c : Char} (h : c ∈ indent t) : c ∈ t :=
  (List.takeWhile_sublist isBlank).subset h

/-- Blanks followed by something that is not blank are an indent. -/
theorem indent_append_of_blank {b : Text} (hb : ∀ c ∈ b, isBlank c = true) {d : Char}
    (hd : isBlank d = false) (r : Text) : indent (b ++ d :: r) = b := by
  rw [indent, List.takeWhile_append_of_pos hb, List.takeWhile_cons_of_neg (by simp [hd]),
    List.append_nil]

end Docblock.Text
