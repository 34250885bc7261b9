import Docblock.Proofs.Text.Trim
import Docblock.Text.Word

/-!
# Pieces of a text

What is stripped, trimmed, cut or searched out of a text is a piece of it: its
characters stand in the text next to each other.
-/

namespace Docblock.Text

/-- A stripped text is what was stripped and the rest. -/
theorem eq_append_of_stripStart?_eq_some {start t rest : Text}
    (h : stripStart? start t = some rest) : t = start ++ rest := by
  induction start generalizing t with
  | nil =>
    rw [stripStart?] at h
    exact Option.some.inj h
  | cons p ps ih =>
    cases t with
    | nil => cases h
    | cons c r =>
      rw [stripStart?] at h
      split at h
      · rename_i hp
        rw [hp, ih h]
        rfl
      · cases h

/-- Reading a keyword leaves the end of a text. -/
theorem suffix_of_keyword?_eq_some {word t rest : Text} (h : keyword? word t = some rest) :
    rest <:+ t := by
  rw [keyword?] at h
  cases hs : stripStart? word t with
  | none => rw [hs] at h; cases h
  | some r =>
    rw [hs] at h
    dsimp only at h
    split at h
    · cases h
    · cases h
      rw [eq_append_of_stripStart?_eq_some hs]
      exact List.suffix_append word rest

/-- Dropping the blanks in front leaves the end of a text. -/
theorem trimStart_suffix (t : Text) : trimStart t <:+ t := List.dropWhile_suffix isBlank

/-- Dropping the blanks at the end leaves its beginning. -/
theorem trimEnd_isPrefix (t : Text) : trimEnd t <+: t := by
  rw [trimEnd_eq_rdropWhile]
  exact List.rdropWhile_prefix isBlank t

/-- Trimming leaves a piece. -/
theorem trim_isInfix (t : Text) : trim t <:+: t :=
  (trimEnd_isPrefix (trimStart t)).isInfix.trans (trimStart_suffix t).isInfix

/-- A success of a search is a success at one of the places. -/
theorem exists_suffix_of_search_eq_some {α : Type} {read : Option Char → Text → Option α}
    {before : Option Char} {t : Text} {found : α} (h : search read before t = some found) :
    ∃ before' t', t' <:+ t ∧ read before' t' = some found := by
  induction t generalizing before with
  | nil => exact ⟨before, [], List.suffix_refl [], h⟩
  | cons c r ih =>
    rw [search] at h
    cases hr : read before (c :: r) with
    | some here =>
      rw [hr] at h
      cases h
      exact ⟨before, c :: r, List.suffix_refl _, hr⟩
    | none =>
      rw [hr] at h
      obtain ⟨before', t', hsuffix, hread⟩ := ih h
      exact ⟨before', t', hsuffix.trans (List.suffix_cons c r), hread⟩

/-- The pieces of a text of which the first one starts with the text. -/
def Pieces (t : Text) (pieces : List Text) : Prop :=
  (∀ first ∈ pieces.head?, first <+: t) ∧ ∀ piece ∈ pieces, piece <:+: t

/-- A character in front of a text goes into its first piece. -/
theorem Pieces.cons {t : Text} {pieces : List Text} (h : Pieces t pieces) (c : Char) :
    Pieces (c :: t) (consFirst c pieces) := by
  cases pieces with
  | nil => simp [Pieces, consFirst, List.infix_cons_iff]
  | cons first rest =>
    have hfirst : c :: first <+: c :: t := (List.prefix_cons_inj c).mpr (h.1 first rfl)
    refine ⟨fun _ hm => by cases hm; exact hfirst, ?_⟩
    rw [consFirst, List.forall_mem_cons]
    refine ⟨hfirst.isInfix, fun piece hm => List.infix_cons ?_⟩
    exact h.2 piece (List.mem_cons_of_mem first hm)

/-- Cutting at a separator gives pieces. -/
theorem pieces_splitOn (separator : Char) (t : Text) : Pieces t (splitOn separator t) := by
  induction t with
  | nil => simp [Pieces, splitOn]
  | cons c r ih =>
    rw [splitOn]
    split
    · refine ⟨fun _ hm => by cases hm; exact List.nil_prefix, ?_⟩
      rw [List.forall_mem_cons]
      exact ⟨List.nil_infix, fun piece hm => List.infix_cons (ih.2 piece hm)⟩
    · exact ih.cons c

/-- The words of a text are pieces of it; it starts with the first one unless
it starts with a blank. -/
theorem infix_of_mem_words (t : Text) :
    (∀ word ∈ words t, word <:+: t) ∧
      ∀ c r, t = c :: r → isBlank c = false → ∀ first ∈ (words t).head?, first <+: t := by
  fun_induction words t with
  | case1 => simp
  | case2 c r hblank ih =>
    refine ⟨fun word hm => List.infix_cons (ih.1 word hm), ?_⟩
    rintro c' r' ⟨⟩ hc
    rw [hblank] at hc
    cases hc
  | case3 c hblank => simp
  | case4 c hblank d s hd ih =>
    refine ⟨?_, fun _ _ _ _ first hm => ?_⟩
    · rw [List.forall_mem_cons]
      exact ⟨⟨[], d :: s, rfl⟩, fun word hm => List.infix_cons (ih.1 word hm)⟩
    · cases hm
      exact ⟨d :: s, rfl⟩
  | case5 c hblank d s hd ih =>
    have hpieces : Pieces (d :: s) (words (d :: s)) :=
      ⟨ih.2 d s rfl (by simpa using hd), ih.1⟩
    exact ⟨(hpieces.cons c).2, fun _ _ _ _ => (hpieces.cons c).1⟩

end Docblock.Text
