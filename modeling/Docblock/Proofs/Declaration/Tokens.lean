import Docblock.Proofs.Declaration.Grammar
import Docblock.Proofs.Declaration.Taken
import Docblock.Proofs.Text.Trim

/-!
# Names, lists and signatures

The parts that declarations are put together from are read exactly where they
stand. Nothing that may follow blanks, a name or a parameter list can continue
them, so what is taken is all that could be taken.
-/

namespace Docblock.Declaration

open Text

section Blanks

variable {gap : Text} {c : Char}

/-- Blanks are skipped up to the first other character. -/
theorem trimStart_append_cons (hgap : allBlank gap = true) (hc : isBlank c = false) (r : Text) :
    trimStart (gap ++ c :: r) = c :: r := by
  rw [trimStart_append_of_allBlank hgap, trimStart_eq_self_of_head hc]

theorem isBlank_eq_false_of_isIdentStart (h : isIdentStart c = true) : isBlank c = false :=
  isBlank_eq_false_of_isIdentPart (isIdentPart_of_isIdentStart h)

/-- Blanks do not continue an identifier. -/
theorem isIdentPart_eq_false_of_mem_gap (hgap : allBlank gap = true) (hm : c ∈ gap) :
    isIdentPart c = false :=
  isIdentPart_eq_false_of_isBlank (List.all_eq_true.mp hgap c hm)

/-- Neither blanks nor the sign behind them go on with an identifier. -/
theorem isIdentPart_head_append (hgap : allBlank gap = true) (hc : isIdentPart c = false)
    (r : Text) : ∀ d ∈ (gap ++ c :: r).head?, isIdentPart d = false := by
  cases gap with
  | nil =>
    rintro d ⟨⟩
    exact hc
  | cons e s =>
    rintro d ⟨⟩
    exact isIdentPart_eq_false_of_mem_gap hgap List.mem_cons_self

end Blanks

/-- Every character of an identifier may stand inside one. -/
theorem IsIdentifier.parts {name : Text} (h : IsIdentifier name) :
    ∀ c ∈ name, isIdentPart c = true := by
  obtain ⟨c, r, rfl, hstart, hpart⟩ := h
  rw [List.forall_mem_cons]
  exact ⟨isIdentPart_of_isIdentStart hstart, hpart⟩

/-- There are no blanks in an identifier. -/
theorem IsIdentifier.solid {name : Text} (h : IsIdentifier name) : ∀ c ∈ name, isBlank c = false :=
  fun c hm => isBlank_eq_false_of_isIdentPart (h.parts c hm)

/-- An identifier has a first character. -/
theorem IsIdentifier.ne_nil {name : Text} (h : IsIdentifier name) : name ≠ [] := by
  obtain ⟨c, r, rfl, _⟩ := h
  exact List.cons_ne_nil c r

/-- Punctuation is no part of an identifier. -/
theorem IsIdentifier.not_mem {name : Text} {c : Char} (h : IsIdentifier name)
    (hc : isIdentPart c = false) : c ∉ name := by
  intro hm
  rw [h.parts c hm] at hc
  cases hc

section Tokens

variable {t name args rest : Text} {inside : Char → Bool}

/-- A name is read exactly where an identifier stands that goes no further. -/
theorem identifier?_eq_some_iff :
    identifier? t = some (name, rest) ↔
      t = name ++ rest ∧ IsIdentifier name ∧ ∀ c ∈ rest.head?, isIdentPart c = false := by
  constructor
  · intro h
    cases t with
    | nil => cases h
    | cons c r =>
      rw [identifier?] at h
      split at h
      · rename_i hstart
        cases h
        refine ⟨by rw [List.cons_append, List.takeWhile_append_dropWhile],
          ⟨c, _, rfl, hstart, fun _ hm => List.mem_takeWhile_imp hm⟩, fun d hd => ?_⟩
        have hstop := List.head?_dropWhile_not isIdentPart r
        rw [Option.mem_def.mp hd] at hstop
        simpa using hstop
      · cases h
  · rintro ⟨rfl, ⟨c, r, rfl, hstart, hpart⟩, hstop⟩
    rw [List.cons_append, identifier?, if_pos hstart, takeWhile_append_of_stop hpart hstop,
      dropWhile_append_of_stop hpart hstop]

/-- A parameter list is read exactly where it is closed. -/
theorem parenthesised?_eq_some_iff (hclose : inside ')' = false) :
    parenthesised? inside t = some (args, rest) ↔
      t = '(' :: (args ++ ')' :: rest) ∧ ∀ c ∈ args, inside c = true := by
  constructor
  · intro h
    refine ⟨parenthesised?_eq_some h, ?_⟩
    rw [parenthesised?.eq_def] at h
    split at h
    · split at h
      · cases h
        exact fun _ hm => List.mem_takeWhile_imp hm
      · cases h
    · cases h
  · rintro ⟨rfl, hargs⟩
    have hstop : ∀ c ∈ (')' :: rest).head?, inside c = false := by
      intro c hc
      cases hc
      exact hclose
    rw [parenthesised?, takeWhile_append_of_stop hargs hstop, dropWhile_append_of_stop hargs hstop]
    rfl

/-- A body opens with a brace behind blanks. -/
theorem opensBody_iff :
    opensBody t = true ↔ ∃ gap rest, t = gap ++ '{' :: rest ∧ allBlank gap = true := by
  rw [opensBody]
  constructor
  · intro h
    cases ht : trimStart t with
    | nil => rw [ht] at h; cases h
    | cons c r =>
      rw [ht] at h
      split at h
      · rename_i s hs
        refine ⟨indent t, s, ?_, allBlank_indent t⟩
        rw [← hs, ← ht, indent_append_trimStart]
      · cases h
  · rintro ⟨gap, rest, rfl, hgap⟩
    rw [trimStart_append_cons hgap (by decide)]
    rfl

/-- A signature is read exactly where one stands, with its name and its list. -/
theorem signature?_eq_some_iff (hclose : inside ')' = false) :
    signature? inside t = some (name, args) ↔ IsSignature inside t name args := by
  constructor
  · intro h
    rw [signature?] at h
    cases hi : identifier? (trimStart t) with
    | none => rw [hi] at h; cases h
    | some found =>
      obtain ⟨found, afterName⟩ := found
      rw [hi] at h
      dsimp only at h
      cases hp : parenthesised? inside (trimStart afterName) with
      | none => rw [hp] at h; cases h
      | some inner =>
        obtain ⟨inner, rest⟩ := inner
        rw [hp] at h
        dsimp only at h
        split at h
        · rename_i hbody
          cases h
          obtain ⟨hname, hident, _⟩ := identifier?_eq_some_iff.mp hi
          obtain ⟨hlist, hargs⟩ := (parenthesised?_eq_some_iff hclose).mp hp
          obtain ⟨behind, body, rfl, hbehind⟩ := opensBody_iff.mp hbody
          rw [← indent_append_trimStart t, hname, ← indent_append_trimStart afterName, hlist]
          exact .intro (allBlank_indent t) hident (allBlank_indent afterName) hargs hbehind
        · cases h
  · rintro ⟨hfront, ⟨c, r, rfl, hstart, hpart⟩, hbetween, hargs, hbehind⟩
    rename_i front between behind body
    have hname : identifier?
        (c :: r ++ (between ++ '(' :: (args ++ ')' :: (behind ++ '{' :: body)))) =
        some (c :: r, between ++ '(' :: (args ++ ')' :: (behind ++ '{' :: body))) :=
      identifier?_eq_some_iff.mpr
        ⟨rfl, ⟨c, r, rfl, hstart, hpart⟩, isIdentPart_head_append hbetween (by decide) _⟩
    have hlist : parenthesised? inside ('(' :: (args ++ ')' :: (behind ++ '{' :: body))) =
        some (args, behind ++ '{' :: body) :=
      (parenthesised?_eq_some_iff hclose).mpr ⟨rfl, hargs⟩
    have hopen : opensBody (behind ++ '{' :: body) = true :=
      opensBody_iff.mpr ⟨behind, body, rfl, hbehind⟩
    rw [signature?, List.cons_append,
      trimStart_append_cons hfront (isBlank_eq_false_of_isIdentStart hstart), ← List.cons_append,
      hname]
    dsimp only
    rw [trimStart_append_cons hbetween (by decide), hlist]
    dsimp only
    rw [hopen]
    rfl

end Tokens

section Stars

variable {inside : Char → Bool} {t star signature name args : Text}

/-- Blanks in front of a signature do not matter. -/
theorem IsSignature.trimStart (h : IsSignature inside t name args) :
    IsSignature inside (trimStart t) name args := by
  obtain ⟨hfront, hname, hbetween, hargs, hbehind⟩ := h
  obtain ⟨c, r, rfl, hstart, _⟩ := id hname
  rw [List.cons_append, trimStart_append_cons hfront (isBlank_eq_false_of_isIdentStart hstart),
    ← List.cons_append]
  exact .intro (rfl : allBlank [] = true) hname hbetween hargs hbehind

/-- A signature starts with a blank or with its name. -/
theorem IsSignature.head (h : IsSignature inside t name args) :
    ∀ c ∈ t.head?, isBlank c = true ∨ isIdentStart c = true := by
  obtain ⟨hfront, hname, -, -, -⟩ := h
  rename_i front _ _ _
  obtain ⟨c, r, rfl, hstart, -⟩ := hname
  cases front with
  | nil =>
    rintro d ⟨⟩
    exact .inr hstart
  | cons e s =>
    rintro d ⟨⟩
    exact .inl (List.all_eq_true.mp hfront e List.mem_cons_self)

/-- A star or nothing is skipped. -/
theorem exists_isStar (t : Text) : ∃ star, IsStar star ∧ t = star ++ skipStar t := by
  rw [skipStar.eq_def]
  split
  · exact ⟨['*'], .inr rfl, rfl⟩
  · exact ⟨[], .inl rfl, rfl⟩

/-- At most one star is skipped, since a signature does not start with one. -/
theorem skipStar_append (hstar : IsStar star) (h : IsSignature inside signature name args) :
    skipStar (star ++ signature) = signature := by
  rcases hstar with rfl | rfl
  · rw [List.nil_append, skipStar.eq_def]
    split
    · exact absurd (h.head '*' rfl) (by decide)
    · rfl
  · rfl

/-- A signature is read behind blanks and a star. -/
theorem signature?_skipStar {gap : Text} (hclose : inside ')' = false)
    (hgap : allBlank gap = true) (hstar : IsStar star)
    (h : IsSignature inside signature name args) :
    signature? inside (skipStar (Text.trimStart (gap ++ (star ++ signature)))) =
      some (name, args) := by
  rw [trimStart_append_of_allBlank hgap, signature?_eq_some_iff hclose]
  rcases hstar with rfl | rfl
  · have hskip := skipStar_append (.inl rfl) h.trimStart
    rw [List.nil_append] at hskip ⊢
    rw [hskip]
    exact h.trimStart
  · exact h

end Stars

end Docblock.Declaration
