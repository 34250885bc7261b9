import Docblock.Proofs.Text.Lines
import Docblock.Text.Blank

/-!
# Words of a text

A word stands between blanks, or at an end of the text, and holds none. The
words in front of it and behind it are those of the rest of the text on either
side, so the words of a text can be found and taken apart one by one.
-/

namespace Docblock.Text

/-- Whether a text has a word with certain texts in front of it and behind it. -/
structure IsWord (t front word back : Text) : Prop where
  /-- The three parts make up the text. -/
  split : t = front ++ (word ++ back)
  /-- A word has characters. -/
  nonempty : word ≠ []
  /-- None of them is blank. -/
  solid : ∀ c ∈ word, isBlank c = false
  /-- The word starts the text or stands behind a blank. -/
  blankBefore : ∀ c ∈ front.getLast?, isBlank c = true
  /-- The word ends the text or stands in front of a blank. -/
  blankBehind : ∀ c ∈ back.head?, isBlank c = true

@[simp] theorem words_nil : words [] = [] := by rw [words]

/-- A blank in front of a text is no part of a word. -/
theorem words_cons_of_blank {c : Char} (hc : isBlank c = true) (r : Text) :
    words (c :: r) = words r := by
  rw [words.eq_def]
  exact if_pos hc

/-- A blank ends a word. -/
theorem words_cons_cons_of_blank {c d : Char} (hc : isBlank c = false) (hd : isBlank d = true)
    (r : Text) : words (c :: d :: r) = [c] :: words (d :: r) := by
  rw [words, if_neg (Bool.eq_false_iff.mp hc), if_pos hd]

/-- Any other character goes on with it. -/
theorem words_cons_cons {c d : Char} (hc : isBlank c = false) (hd : isBlank d = false)
    (r : Text) : words (c :: d :: r) = consFirst c (words (d :: r)) := by
  rw [words, if_neg (Bool.eq_false_iff.mp hc), if_neg (Bool.eq_false_iff.mp hd)]

theorem words_singleton {c : Char} (hc : isBlank c = false) : words [c] = [[c]] := by
  rw [words, if_neg (Bool.eq_false_iff.mp hc)]

/-- A text that does not start with a blank starts with a word. -/
theorem words_ne_nil {c : Char} (hc : isBlank c = false) (r : Text) : words (c :: r) ≠ [] := by
  cases r with
  | nil =>
    rw [words_singleton hc]
    exact List.cons_ne_nil _ _
  | cons d s =>
    cases hd : isBlank d with
    | true =>
      rw [words_cons_cons_of_blank hc hd]
      exact List.cons_ne_nil _ _
    | false =>
      rw [words_cons_cons hc hd]
      cases words (d :: s) <;> exact List.cons_ne_nil _ _

/-- A blank parts the words on its two sides. -/
theorem words_append_cons_of_blank {c : Char} (hc : isBlank c = true) (a b : Text) :
    words (a ++ c :: b) = words a ++ words b := by
  induction a with
  | nil => rw [List.nil_append, words_cons_of_blank hc, words_nil, List.nil_append]
  | cons d r ih =>
    rw [List.cons_append]
    cases hd : isBlank d with
    | true => rw [words_cons_of_blank hd, words_cons_of_blank hd, ih]
    | false =>
      cases r with
      | nil =>
        rw [List.nil_append, words_cons_cons_of_blank hd hc, words_cons_of_blank hc,
          words_singleton hd]
        rfl
      | cons e s =>
        rw [List.cons_append] at ih ⊢
        cases he : isBlank e with
        | true =>
          rw [words_cons_cons_of_blank hd he, words_cons_cons_of_blank hd he, ih]
          rfl
        | false =>
          rw [words_cons_cons hd he, words_cons_cons hd he, ih,
            consFirst_append (words_ne_nil he s)]

/-- Blanks hold no words. -/
theorem words_of_allBlank {t : Text} (h : allBlank t = true) : words t = [] := by
  induction t with
  | nil => exact words_nil
  | cons c r ih =>
    rw [allBlank, List.all_cons, Bool.and_eq_true] at h
    rw [words_cons_of_blank h.1, ih h.2]

/-- Blanks at the end add no words. -/
theorem words_append_of_allBlank (t : Text) {gap : Text} (h : allBlank gap = true) :
    words (t ++ gap) = words t := by
  cases gap with
  | nil => rw [List.append_nil]
  | cons c r =>
    have hwords := words_of_allBlank h
    rw [allBlank, List.all_cons, Bool.and_eq_true] at h
    rw [words_cons_of_blank h.1] at hwords
    rw [words_append_cons_of_blank h.1, hwords, List.append_nil]

/-- Characters that are not blank make up one word. -/
theorem words_of_solid {word : Text} (hne : word ≠ []) (h : ∀ c ∈ word, isBlank c = false) :
    words word = [word] := by
  induction word with
  | nil => exact absurd rfl hne
  | cons c r ih =>
    rw [List.forall_mem_cons] at h
    cases r with
    | nil => exact words_singleton h.1
    | cons d s =>
      have hd : isBlank d = false := h.2 d List.mem_cons_self
      rw [words_cons_cons h.1 hd, ih (List.cons_ne_nil d s) h.2]
      rfl

/-- The words in front of a word and behind it are those of the texts there. -/
theorem IsWord.words_eq {t front word back : Text} (h : IsWord t front word back) :
    words t = words front ++ word :: words back := by
  have hbehind : words (word ++ back) = word :: words back := by
    cases back with
    | nil => rw [List.append_nil, words_of_solid h.nonempty h.solid, words_nil]
    | cons c r =>
      have hc : isBlank c = true := h.blankBehind c rfl
      rw [words_append_cons_of_blank hc, words_of_solid h.nonempty h.solid,
        words_cons_of_blank hc]
      rfl
  rw [h.split]
  rcases List.eq_nil_or_concat front with rfl | ⟨r, c, rfl⟩
  · rw [List.nil_append, hbehind, words_nil, List.nil_append]
  · have hc : isBlank c = true := h.blankBefore c (by simp)
    rw [List.concat_eq_append, List.append_assoc, List.singleton_append,
      words_append_cons_of_blank hc, words_append_cons_of_blank hc, words_nil, List.append_nil,
      hbehind]

/-- Blanks are not words. -/
theorem eq_nil_of_words_eq_nil {c : Char} {r : Text} {front behind : Text}
    (hc : isBlank c = false) (h : c :: r = front ++ behind) (hfront : words front = []) :
    front = [] := by
  cases front with
  | nil => rfl
  | cons d s =>
    cases h
    exact absurd hfront (words_ne_nil hc s)

/-- Every word of a text stands somewhere in it, with the words before it in
front and the others behind. The induction follows the cutting into words. -/
theorem exists_isWord {t word : Text} {before behind : List Text}
    (h : words t = before ++ word :: behind) :
    ∃ front back, IsWord t front word back ∧ words front = before ∧ words back = behind := by
  fun_induction words t generalizing before word with
  | case1 => cases before <;> cases h
  | case2 c r hc ih =>
    obtain ⟨front, back, hw, hfront, hback⟩ := ih h
    refine ⟨c :: front, back, ⟨by rw [hw.split]; rfl, hw.nonempty, hw.solid, ?_, hw.blankBehind⟩,
      by rw [words_cons_of_blank hc, hfront], hback⟩
    intro d hd
    cases front with
    | nil =>
      cases hd
      exact hc
    | cons e s => exact hw.blankBefore d (by rwa [List.getLast?_cons_cons] at hd)
  | case3 c hc =>
    have hc : isBlank c = false := Bool.eq_false_iff.mpr hc
    cases before with
    | nil =>
      cases h
      exact ⟨[], [], ⟨rfl, List.cons_ne_nil c [], by simpa using hc, by simp, by simp⟩, words_nil,
        words_nil⟩
    | cons _ before => cases before <;> cases h
  | case4 c hc d s hd ih =>
    have hc : isBlank c = false := Bool.eq_false_iff.mpr hc
    cases before with
    | nil =>
      cases h
      refine ⟨[], d :: s, ⟨rfl, List.cons_ne_nil c [], by simpa using hc, by simp, ?_⟩, words_nil,
        rfl⟩
      intro e he
      cases he
      exact hd
    | cons first before =>
      obtain ⟨rfl, hrest⟩ := List.cons.inj h
      obtain ⟨front, back, hw, hfront, hback⟩ := ih hrest
      cases front with
      | nil =>
        -- The word would start with a blank.
        obtain ⟨e, u, rfl⟩ := List.exists_cons_of_ne_nil hw.nonempty
        have he := hw.split
        cases he
        rw [hw.solid d List.mem_cons_self] at hd
        cases hd
      | cons e u =>
        have he := hw.split
        cases he
        refine ⟨c :: d :: u, back, ⟨rfl, hw.nonempty, hw.solid, ?_, hw.blankBehind⟩, ?_, hback⟩
        · rw [List.getLast?_cons_cons]
          exact hw.blankBefore
        · rw [words_cons_cons_of_blank hc hd, hfront]
  | case5 c hc d s hd ih =>
    have hc : isBlank c = false := Bool.eq_false_iff.mpr hc
    have hd : isBlank d = false := Bool.eq_false_iff.mpr hd
    obtain ⟨first, rest, hwords⟩ := List.exists_cons_of_ne_nil (words_ne_nil hd s)
    rw [hwords, consFirst] at h
    cases before with
    | nil =>
      cases h
      have hparts : words (d :: s) = [] ++ first :: behind := hwords
      obtain ⟨front, back, hw, hfront, hback⟩ := ih hparts
      have hnil := eq_nil_of_words_eq_nil hd hw.split hfront
      subst hnil
      refine ⟨[], back, ⟨?_, List.cons_ne_nil c first, ?_, by simp, hw.blankBehind⟩, words_nil,
        hback⟩
      · rw [hw.split]
        rfl
      · rw [List.forall_mem_cons]
        exact ⟨hc, hw.solid⟩
    | cons second before =>
      obtain ⟨rfl, rfl⟩ := List.cons.inj h
      have hparts : words (d :: s) = (first :: before) ++ word :: behind := hwords
      obtain ⟨front, back, hw, hfront, hback⟩ := ih hparts
      cases front with
      | nil => cases hfront
      | cons e u =>
        have he := hw.split
        cases he
        refine ⟨c :: d :: u, back, ⟨rfl, hw.nonempty, hw.solid, ?_, hw.blankBehind⟩, ?_, hback⟩
        · rw [List.getLast?_cons_cons]
          exact hw.blankBefore
        · rw [words_cons_cons hc hd, hfront]
          rfl

/-- The words of a text are those that stand in it. -/
theorem mem_words_iff {t word : Text} :
    word ∈ words t ↔ ∃ front back, IsWord t front word back := by
  constructor
  · intro hm
    obtain ⟨before, behind, h⟩ := List.append_of_mem hm
    obtain ⟨front, back, hw, _⟩ := exists_isWord h
    exact ⟨front, back, hw⟩
  · rintro ⟨front, back, hw⟩
    rw [hw.words_eq]
    exact List.mem_append_right _ List.mem_cons_self

end Docblock.Text
