import Docblock.Proofs.Declaration.Tokens

/-!
# Methods

Any number of modifiers may stand in front of a method, and a word that is a
modifier can be its name too. What tells them apart is the parameter list: the
name is the identifier in front of the first parenthesis, so a text is a method in
one way at most, and whatever is read is right as soon as something is.
-/

namespace Docblock.Declaration

open Text

section Methods

variable {t rest word gap name args : Text}

/-- Modifiers are words: they are not empty and have no blanks. -/
theorem solid_of_mem_modifiers (h : word ∈ modifiers) :
    word ≠ [] ∧ ∀ c ∈ word, isBlank c = false := by
  have hall : ∀ word ∈ modifiers, word ≠ [] ∧ word.any isBlank = false := by decide
  exact ⟨(hall word h).1, forall_eq_false_of_any (hall word h).2⟩

/-- What follows a modifier is what is left behind it and the blanks there. -/
theorem exists_modifier (h : afterModifier? t = some rest) :
    ∃ word ∈ modifiers, ∃ gap, gap ≠ [] ∧ allBlank gap = true ∧ trimStart rest = rest ∧
      t = word ++ (gap ++ rest) := by
  obtain ⟨word, hword, hrest⟩ := List.exists_of_findSome?_eq_some h
  refine ⟨word, hword, ?_⟩
  cases hs : stripStart? word t with
  | none => rw [hs] at hrest; cases hrest
  | some r =>
    rw [hs] at hrest
    dsimp only at hrest
    split at hrest
    · rename_i hstarts
      cases hrest
      refine ⟨indent r, ?_, allBlank_indent r, List.dropWhile_idempotent isBlank r, ?_⟩
      · cases r with
        | nil => cases hstarts
        | cons c s =>
          have hc : isBlank c = true := hstarts
          rw [indent, List.takeWhile_cons_of_pos hc]
          exact List.cons_ne_nil _ _
      · rw [indent_append_trimStart]
        exact eq_append_of_stripStart?_eq_some hs
    · cases hrest

/-- Only one modifier can start a text, because the blanks behind it end it. -/
theorem afterModifier?_append (hword : word ∈ modifiers) (hgap : gap ≠ [])
    (hblank : allBlank gap = true) :
    afterModifier? (word ++ (gap ++ rest)) = some (trimStart rest) := by
  have hstarts : startsBlank (gap ++ rest) = true := by
    obtain ⟨c, s, rfl⟩ := List.exists_cons_of_ne_nil hgap
    exact List.all_eq_true.mp hblank c List.mem_cons_self
  cases hm : afterModifier? (word ++ (gap ++ rest)) with
  | none =>
    have hnone := List.findSome?_eq_none_iff.mp hm word hword
    rw [stripStart?_append] at hnone
    dsimp only at hnone
    rw [if_pos hstarts] at hnone
    cases hnone
  | some rest' =>
    obtain ⟨word', hword', gap', hgap', hblank', htrim, hsplit⟩ := exists_modifier hm
    have hfirst {word gap rest : Text} (hword : word ∈ modifiers) (hgap : gap ≠ [])
        (hblank : allBlank gap = true) :
        (word ++ (gap ++ rest)).takeWhile (fun c => !isBlank c) = word := by
      apply takeWhile_append_of_stop
      · intro c hm
        rw [(solid_of_mem_modifiers hword).2 c hm]
        rfl
      · obtain ⟨c, s, rfl⟩ := List.exists_cons_of_ne_nil hgap
        rintro d ⟨⟩
        rw [List.all_eq_true.mp hblank c List.mem_cons_self]
        rfl
    have hsame : word = word' := by
      rw [← hfirst hword hgap hblank, hsplit, hfirst hword' hgap' hblank']
    subst hsame
    rw [← htrim, ← trimStart_append_of_allBlank hblank', ← trimStart_append_of_allBlank hblank rest,
      List.append_cancel_left hsplit]

/-- Blanks in front of a method do not matter. -/
theorem IsMethod.trimStart (h : IsMethod t name args) : IsMethod (trimStart t) name args := by
  cases h with
  | plain hstar hsignature =>
    rcases hstar with rfl | rfl
    · exact .plain (.inl rfl) hsignature.trimStart
    · exact .plain (.inr rfl) hsignature
  | modified hword hgap hblank hrest =>
    rename_i word gap rest
    have hsolid := solid_of_mem_modifiers hword
    obtain ⟨c, r, rfl⟩ := List.exists_cons_of_ne_nil hsolid.1
    have htrim := trimStart_eq_self_of_head (r := r ++ (gap ++ rest))
      (hsolid.2 c List.mem_cons_self)
    rw [List.cons_append, htrim, ← List.cons_append]
    exact .modified hword hgap hblank hrest

/-- What is read as a method is one. The induction is on the number of modifiers
that may still be read. -/
theorem isMethod_of_modifiedSignature? {fuel : Nat}
    (h : modifiedSignature? fuel t = some (name, args)) : IsMethod t name args := by
  have hplain {t : Text} (h : methodSignature? t = some (name, args)) : IsMethod t name args := by
    obtain ⟨star, hstar, hsplit⟩ := exists_isStar t
    rw [hsplit]
    exact .plain hstar ((signature?_eq_some_iff (by decide)).mp h)
  induction fuel generalizing t with
  | zero => exact hplain h
  | succ fuel ih =>
    rw [modifiedSignature?] at h
    cases hm : (afterModifier? t).bind (modifiedSignature? fuel) with
    | none =>
      rw [hm] at h
      exact hplain h
    | some found =>
      rw [hm] at h
      cases h
      obtain ⟨rest, hafter, hrest⟩ := Option.bind_eq_some_iff.mp hm
      obtain ⟨word, hword, gap, hgap, hblank, _, rfl⟩ := exists_modifier hafter
      exact .modified hword hgap hblank (ih hrest)

/-- A star in front of a signature does not hide it. -/
theorem exists_methodSignature? {star signature : Text} (hstar : IsStar star)
    (h : IsSignature (fun c => c ≠ '(' && c ≠ ')') signature name args) :
    ∃ found, methodSignature? (star ++ signature) = some found := by
  refine ⟨(name, args), ?_⟩
  rw [methodSignature?, skipStar_append hstar h]
  exact (signature?_eq_some_iff (by decide)).mpr h

/-- A method is not refused while a modifier may be read for each of its
characters. -/
theorem exists_modifiedSignature? {fuel : Nat} (h : IsMethod t name args)
    (hfuel : t.length ≤ fuel) : ∃ found, modifiedSignature? fuel t = some found := by
  induction fuel generalizing t with
  | zero =>
    rw [modifiedSignature?]
    cases h with
    | plain hstar hsignature => exact exists_methodSignature? hstar hsignature
    | modified hword =>
      obtain ⟨c, r, rfl⟩ := List.exists_cons_of_ne_nil (solid_of_mem_modifiers hword).1
      exact absurd hfuel (Nat.not_succ_le_zero _)
  | succ fuel ih =>
    rw [modifiedSignature?]
    cases hm : (afterModifier? t).bind (modifiedSignature? fuel) with
    | some found => exact ⟨found, rfl⟩
    | none =>
      dsimp only
      cases h with
      | plain hstar hsignature => exact exists_methodSignature? hstar hsignature
      | modified hword hgap hblank hrest =>
        rename_i word gap rest
        rw [afterModifier?_append hword hgap hblank, Option.bind_some] at hm
        have hlength : (trimStart rest).length ≤ fuel := by
          have hrest := (trimStart_suffix rest).length_le
          have hword := List.length_pos_iff.mpr (solid_of_mem_modifiers hword).1
          rw [List.length_append, List.length_append] at hfuel
          omega
        obtain ⟨found, hfound⟩ := ih hrest.trimStart hlength
        rw [hm] at hfound
        cases hfound

/-- The identifier in front of the blanks a text ends with. -/
def lastIdentifier (t : Text) : Text :=
  ((t.reverse.dropWhile isBlank).takeWhile isIdentPart).reverse

/-- The last identifier reaches back as far as it can. -/
theorem lastIdentifier_append {front : Text} (hfront : ∀ c ∈ front.getLast?, isIdentPart c = false)
    (hname : IsIdentifier name) (hgap : allBlank gap = true) :
    lastIdentifier (front ++ (name ++ gap)) = name := by
  have hne : name.reverse ≠ [] := List.reverse_ne_nil_iff.mpr hname.ne_nil
  have hblank : ∀ c ∈ gap.reverse, isBlank c = true :=
    fun c hm => List.all_eq_true.mp hgap c (List.mem_reverse.mp hm)
  have hpart : ∀ c ∈ name.reverse, isIdentPart c = true :=
    fun c hm => hname.parts c (List.mem_reverse.mp hm)
  have hsolid : ∀ c ∈ (name.reverse ++ front.reverse).head?, isBlank c = false := by
    intro c hm
    rw [List.head?_append_of_ne_nil _ hne] at hm
    exact isBlank_eq_false_of_isIdentPart (hpart c (List.mem_of_mem_head? hm))
  have hstop : ∀ c ∈ front.reverse.head?, isIdentPart c = false := by
    rwa [List.head?_reverse]
  rw [lastIdentifier, List.reverse_append, List.reverse_append, List.append_assoc,
    dropWhile_append_of_stop hblank hsolid, takeWhile_append_of_stop hpart hstop,
    List.reverse_reverse]

/-- The parameter list of a method opens at the first parenthesis of the text, and
its name is the identifier in front of that. The induction is on the modifiers. -/
theorem IsMethod.exists_split (h : IsMethod t name args) :
    ∃ front gap rest, t = front ++ (name ++ (gap ++ '(' :: (args ++ ')' :: rest))) ∧
      '(' ∉ front ∧ (∀ c ∈ front.getLast?, isIdentPart c = false) ∧ IsIdentifier name ∧
      allBlank gap = true ∧ ')' ∉ args := by
  induction h with
  | plain hstar hsignature =>
    obtain ⟨hfront, hname, hgap, hargs, -⟩ := hsignature
    rename_i star name args front gap behind rest
    have hblank : ∀ c ∈ front.getLast?, isIdentPart c = false := fun _ hm =>
      isIdentPart_eq_false_of_mem_gap hfront (List.mem_of_getLast? hm)
    refine ⟨star ++ front, gap, behind ++ '{' :: rest, by rw [List.append_assoc], ?_, ?_, hname,
      hgap, fun hm => by simpa using hargs _ hm⟩
    · apply List.not_mem_append _ (not_mem_of_allBlank hfront (by decide))
      rcases hstar with rfl | rfl <;> decide
    · rw [List.getLast?_append]
      rcases hstar with rfl | rfl
      · rwa [List.getLast?_nil, Option.or_none]
      · cases hlast : front.getLast? with
        | none =>
          rintro c ⟨⟩
          decide
        | some c => rwa [hlast] at hblank
  | modified hword hgap hblank _ ih =>
    obtain ⟨front, between, rest, rfl, hopen, hlast, hname, hbetween, hclose⟩ := ih
    rename_i word gap _ _ _
    refine ⟨word ++ (gap ++ front), between, rest, by simp only [List.append_assoc], ?_, ?_, hname,
      hbetween, hclose⟩
    · have hparen : ∀ word ∈ modifiers, '(' ∉ word := by decide
      exact List.not_mem_append (hparen word hword)
        (List.not_mem_append (not_mem_of_allBlank hblank (by decide)) hopen)
    · have hne : gap ++ front ≠ [] := List.append_ne_nil_of_left_ne_nil hgap front
      rw [List.getLast?_append_of_ne_nil _ hne, List.getLast?_append]
      cases hc : front.getLast? with
      | none =>
        intro c hm
        exact isIdentPart_eq_false_of_mem_gap hblank (List.mem_of_getLast? hm)
      | some c => rwa [hc] at hlast

/-- A text is a method in one way at most. -/
theorem IsMethod.unique {name' args' : Text} (h : IsMethod t name args)
    (h' : IsMethod t name' args') : name = name' ∧ args = args' := by
  obtain ⟨front, gap, rest, rfl, hopen, hlast, hname, hgap, hclose⟩ := h.exists_split
  obtain ⟨front', gap', rest', hsplit, hopen', hlast', hname', hgap', hclose'⟩ := h'.exists_split
  have hhead {front gap name : Text} (hopen : '(' ∉ front) (hname : IsIdentifier name)
      (hgap : allBlank gap = true) : '(' ∉ front ++ (name ++ gap) :=
    List.not_mem_append hopen
      (List.not_mem_append (hname.not_mem (by decide)) (not_mem_of_allBlank hgap (by decide)))
  rw [← List.append_assoc name, ← List.append_assoc front, ← List.append_assoc name',
    ← List.append_assoc front'] at hsplit
  obtain ⟨hheads, hrests⟩ := append_cons_inj_of_not_mem (hhead hopen hname hgap)
    (hhead hopen' hname' hgap') hsplit
  obtain ⟨hargs, _⟩ := append_cons_inj_of_not_mem hclose hclose' hrests
  refine ⟨?_, hargs⟩
  rw [← lastIdentifier_append hlast hname hgap, hheads, lastIdentifier_append hlast' hname' hgap']

/-- A method is read exactly where one starts the line. -/
theorem method?_eq_some_iff {line : Text} {declaration : Declaration} :
    method? line = some declaration ↔ Fits .method [] line declaration := by
  constructor
  · intro h
    rw [method?] at h
    cases hs : modifiedSignature? line.length line with
    | none => rw [hs] at h; cases h
    | some found =>
      obtain ⟨name, args⟩ := found
      rw [hs] at h
      dsimp only at h
      split at h
      · cases h
      · rename_i hword
        cases h
        exact .method (isMethod_of_modifiedSignature? hs) (by simpa using hword)
          (isParams_iff.mpr rfl)
  · intro h
    cases h with
    | method hline hname hparams =>
      obtain rfl := isParams_iff.mp hparams
      obtain ⟨⟨name, args⟩, hfound⟩ := exists_modifiedSignature? hline le_rfl
      obtain ⟨rfl, rfl⟩ := (isMethod_of_modifiedSignature? hfound).unique hline
      rw [method?, hfound]
      dsimp only
      rw [if_neg (by simpa using hname)]

end Methods

end Docblock.Declaration
