import Docblock.Declaration.Pattern
import Docblock.Proofs.Text.Pieces

/-!
# What declarations take from their line

The name and the parameters of a declaration are pieces of the line it was read
from, whichever of the shapes was recognised. Only the name of an arrow function
can be anything but an identifier.
-/

namespace Docblock.Declaration

open Text

/-- What is known of a declaration that was read from a text. -/
structure TakenFrom (declaration : Declaration) (t : Text) : Prop where
  /-- The name is a piece of the text. -/
  name : ∀ name ∈ declaration.name, name <:+: t
  /-- Every parameter is a piece of the text. -/
  params : ∀ param ∈ declaration.params, param <:+: t
  /-- The name is an identifier unless an equals sign binds it. -/
  identifier : declaration.kind ≠ .arrow →
    ∀ name ∈ declaration.name, ∀ c ∈ name, isIdentPart c = true
  /-- A class has no parameters. -/
  classParams : declaration.kind = .classBody → declaration.params = []

/-- What is taken from a part of a text is taken from the text. -/
theorem TakenFrom.trans {declaration : Declaration} {part t : Text}
    (h : declaration.TakenFrom part) (hpart : part <:+: t) : declaration.TakenFrom t where
  name := fun name hm => (h.name name hm).trans hpart
  params := fun param hm => (h.params param hm).trans hpart
  identifier := h.identifier
  classParams := h.classParams

/-- An identifier may go on with whatever it may start with. -/
theorem isIdentPart_of_isIdentStart {c : Char} (h : isIdentStart c = true) :
    isIdentPart c = true := by
  rw [isIdentStart, Bool.or_eq_true, Bool.or_eq_true] at h
  rw [isIdentPart, isWord, Char.isAlphanum]
  rcases h with (h | h) | h
  · rw [h]
    rfl
  · rw [h]
    simp
  · rw [h, Bool.or_true]

/-- An identifier and the rest make up the text. -/
theorem identifier?_eq_some {t name rest : Text} (h : identifier? t = some (name, rest)) :
    t = name ++ rest ∧ ∀ c ∈ name, isIdentPart c = true := by
  cases t with
  | nil => cases h
  | cons c r =>
    rw [identifier?] at h
    split at h
    · rename_i hstart
      cases h
      constructor
      · rw [List.cons_append, List.takeWhile_append_dropWhile]
      · rw [List.forall_mem_cons]
        exact ⟨isIdentPart_of_isIdentStart hstart, fun _ hm => List.mem_takeWhile_imp hm⟩
    · cases h

/-- The parentheses, their contents and the rest make up the text. -/
theorem parenthesised?_eq_some {inside : Char → Bool} {t contents rest : Text}
    (h : parenthesised? inside t = some (contents, rest)) :
    t = '(' :: (contents ++ ')' :: rest) := by
  rw [parenthesised?.eq_def] at h
  split at h
  · rename_i r
    split at h
    · rename_i s hs
      cases h
      rw [← hs, List.takeWhile_append_dropWhile]
    · cases h
  · cases h

/-- Both parts of a signature are pieces of the text, and the name is an identifier. -/
theorem signature?_eq_some {inside : Char → Bool} {t name params : Text}
    (h : signature? inside t = some (name, params)) :
    name <:+: t ∧ params <:+: t ∧ ∀ c ∈ name, isIdentPart c = true := by
  rw [signature?] at h
  cases hi : identifier? (trimStart t) with
  | none => rw [hi] at h; cases h
  | some found =>
    obtain ⟨found, afterName⟩ := found
    obtain ⟨hname, hident⟩ := identifier?_eq_some hi
    have hafter : afterName <:+: t := by
      apply List.IsInfix.trans _ (trimStart_suffix t).isInfix
      rw [hname]
      exact List.infix_append_right
    rw [hi] at h
    dsimp only at h
    cases hp : parenthesised? inside (trimStart afterName) with
    | none => rw [hp] at h; cases h
    | some inner =>
      obtain ⟨inner, rest⟩ := inner
      have hparams := parenthesised?_eq_some hp
      rw [hp] at h
      dsimp only at h
      split at h
      · cases h
        refine ⟨?_, ?_, hident⟩
        · apply List.IsInfix.trans _ (trimStart_suffix t).isInfix
          rw [hname]
          exact List.infix_append_left
        · apply List.IsInfix.trans _ hafter
          apply List.IsInfix.trans _ (trimStart_suffix afterName).isInfix
          rw [hparams]
          exact List.infix_cons List.infix_append_left
      · cases h

/-- Parameters are parts of their list. -/
theorem infix_of_mem_splitParams {raw param : Text} (h : param ∈ splitParams raw) :
    param <:+: raw := by
  rw [splitParams] at h
  split at h
  · cases h
  · obtain ⟨piece, hpiece, rfl⟩ := List.mem_map.mp h
    exact (trim_isInfix piece).trans ((pieces_splitOn ',' raw).2 piece hpiece)

/-- Skipping a star leaves the end of a text. -/
theorem skipStar_suffix (t : Text) : skipStar t <:+ t := by
  rw [skipStar.eq_def]
  split
  · exact List.suffix_cons _ _
  · exact List.suffix_refl _

/-- The name of a class is an identifier. -/
theorem className?_eq_some {t name : Text} (h : className? t = some name) :
    name <:+: t ∧ ∀ c ∈ name, isIdentPart c = true := by
  rw [className?] at h
  split at h
  · cases h
  · cases hi : identifier? (trimStart t) with
    | none => rw [hi] at h; cases h
    | some found =>
      obtain ⟨found, after⟩ := found
      obtain ⟨hname, hident⟩ := identifier?_eq_some hi
      rw [hi] at h
      dsimp only at h
      split at h
      · cases h
      · cases h
        refine ⟨?_, hident⟩
        apply List.IsInfix.trans _ (trimStart_suffix t).isInfix
        rw [hname]
        exact List.infix_append_left

/-- A class is taken from the place where it is found. -/
theorem takenFrom_of_classAt? {before : Option Char} {t : Text} {declaration : Declaration}
    (h : classAt? before t = some declaration) : declaration.TakenFrom t := by
  rw [classAt?] at h
  split at h
  · cases hk : keyword? "class".toList t with
    | none => rw [hk] at h; cases h
    | some rest =>
      rw [hk] at h
      dsimp only at h
      split at h
      · cases h
        refine ⟨?_, fun _ hm => absurd hm List.not_mem_nil, ?_, fun _ => rfl⟩
        · intro name hm
          exact (className?_eq_some hm).1.trans (suffix_of_keyword?_eq_some hk).isInfix
        · intro _ name hm
          exact (className?_eq_some hm).2
      · cases h
  · cases h

/-- A function is taken from the place where it is found. -/
theorem takenFrom_of_functionAt? {before : Option Char} {t : Text} {declaration : Declaration}
    (h : functionAt? before t = some declaration) : declaration.TakenFrom t := by
  rw [functionAt?] at h
  split at h
  · cases h
  · cases hk : keyword? "function".toList t with
    | none => rw [hk] at h; cases h
    | some rest =>
      rw [hk] at h
      dsimp only at h
      cases hs : signature? (· ≠ ')') (skipStar (trimStart rest)) with
      | none => rw [hs] at h; cases h
      | some found =>
        obtain ⟨name, params⟩ := found
        rw [hs] at h
        cases h
        have hrest : skipStar (trimStart rest) <:+: t :=
          ((skipStar_suffix _).trans
            ((trimStart_suffix rest).trans (suffix_of_keyword?_eq_some hk))).isInfix
        obtain ⟨hname, hparams, hident⟩ := signature?_eq_some hs
        refine ⟨?_, ?_, ?_, ?_⟩
        · intro found hm
          cases hm
          exact hname.trans hrest
        · intro param hm
          exact (infix_of_mem_splitParams hm).trans (hparams.trans hrest)
        · intro _ found hm
          cases hm
          exact hident
        · intro hkind
          cases hkind

/-- So does skipping the word of an asynchronous function. -/
theorem skipAsync_suffix (t : Text) : skipAsync t <:+ t := by
  rw [skipAsync]
  cases hs : stripStart? "async".toList t with
  | none => exact List.suffix_refl t
  | some rest =>
    dsimp only
    apply (trimStart_suffix rest).trans
    rw [eq_append_of_stripStart?_eq_some hs]
    exact List.suffix_append _ rest

/-- A bound name is a word of the left side. -/
theorem infix_of_boundName?_eq_some {left name : Text} (h : boundName? left = some name) :
    name <:+: left := by
  have hmem := List.mem_of_mem_filter (List.mem_of_getLast? h)
  exact ((infix_of_mem_words _).1 name hmem).trans (List.takeWhile_prefix _).isInfix

/-- An arrow function is taken from its line. -/
theorem takenFrom_of_arrow? {line : Text} {declaration : Declaration}
    (h : arrow? line = some declaration) : declaration.TakenFrom line := by
  rw [arrow?] at h
  cases hd : line.dropWhile (· ≠ '=') with
  | nil => rw [hd] at h; cases h
  | cons c right =>
    rw [hd] at h
    dsimp only at h
    cases hp : parenthesised? (· ≠ ')') (skipAsync (trimStart right)) with
    | none => rw [hp] at h; cases h
    | some found =>
      obtain ⟨params, rest⟩ := found
      rw [hp] at h
      dsimp only at h
      split at h
      · cases h
      · split at h
        · cases h
          have hright : right <:+: line := by
            apply List.IsInfix.trans (List.suffix_cons c right).isInfix
            rw [← hd]
            exact (List.dropWhile_suffix _).isInfix
          have hlist : params <:+: skipAsync (trimStart right) := by
            rw [parenthesised?_eq_some hp]
            exact List.infix_cons List.infix_append_left
          have hparams : params <:+: line :=
            hlist.trans (((skipAsync_suffix _).trans (trimStart_suffix right)).isInfix.trans hright)
          refine ⟨?_, fun param hm => (infix_of_mem_splitParams hm).trans hparams,
            fun hkind => absurd rfl hkind, ?_⟩
          · intro name hm
            exact (infix_of_boundName?_eq_some hm).trans (List.takeWhile_prefix _).isInfix
          · intro hkind
            cases hkind
        · cases h

/-- What follows a modifier ends the text. -/
theorem suffix_of_afterModifier?_eq_some {t rest : Text} (h : afterModifier? t = some rest) :
    rest <:+ t := by
  obtain ⟨word, _, hword⟩ := List.exists_of_findSome?_eq_some h
  cases hs : stripStart? word t with
  | none => rw [hs] at hword; cases hword
  | some r =>
    rw [hs] at hword
    dsimp only at hword
    split at hword
    · cases hword
      apply (trimStart_suffix r).trans
      rw [eq_append_of_stripStart?_eq_some hs]
      exact List.suffix_append word r
    · cases hword

/-- Both parts of the signature of a method are pieces of the text. -/
theorem modifiedSignature?_eq_some {fuel : Nat} {t name params : Text}
    (h : modifiedSignature? fuel t = some (name, params)) :
    name <:+: t ∧ params <:+: t ∧ ∀ c ∈ name, isIdentPart c = true := by
  have hplain {t : Text} (h : methodSignature? t = some (name, params)) :
      name <:+: t ∧ params <:+: t ∧ ∀ c ∈ name, isIdentPart c = true := by
    obtain ⟨hname, hparams, hident⟩ := signature?_eq_some h
    have hsuffix := (skipStar_suffix t).isInfix
    exact ⟨hname.trans hsuffix, hparams.trans hsuffix, hident⟩
  induction fuel generalizing t with
  | zero => exact hplain h
  | succ fuel ih =>
    rw [modifiedSignature?] at h
    cases hm : (afterModifier? t).bind (modifiedSignature? fuel) with
    | none =>
      rw [hm] at h
      exact hplain h
    | some found =>
      rw [hm] at h
      cases h
      obtain ⟨rest, hafter, hrest⟩ := Option.bind_eq_some_iff.mp hm
      have hsuffix := (suffix_of_afterModifier?_eq_some hafter).isInfix
      obtain ⟨hname, hparams, hident⟩ := ih hrest
      exact ⟨hname.trans hsuffix, hparams.trans hsuffix, hident⟩

/-- A method is taken from its line. -/
theorem takenFrom_of_method? {line : Text} {declaration : Declaration}
    (h : method? line = some declaration) : declaration.TakenFrom line := by
  rw [method?] at h
  cases hs : modifiedSignature? line.length line with
  | none => rw [hs] at h; cases h
  | some found =>
    obtain ⟨name, params⟩ := found
    rw [hs] at h
    dsimp only at h
    split at h
    · cases h
    · cases h
      obtain ⟨hname, hparams, hident⟩ := modifiedSignature?_eq_some hs
      refine ⟨?_, fun param hm => (infix_of_mem_splitParams hm).trans hparams, ?_, ?_⟩
      · intro found hm
        cases hm
        exact hname
      · intro _ found hm
        cases hm
        exact hident
      · intro hkind
        cases hkind

/-- A declaration is taken from the line it is read from. -/
theorem takenFrom_of_classify {line : Text} {declaration : Declaration}
    (h : classify line = some declaration) : declaration.TakenFrom line := by
  rw [classify] at h
  split at h
  · obtain ⟨kind, _, hkind⟩ := List.exists_of_findSome?_eq_some h
    cases kind with
    | classBody =>
      obtain ⟨_, t, hsuffix, ht⟩ := exists_suffix_of_search_eq_some hkind
      exact (takenFrom_of_classAt? ht).trans hsuffix.isInfix
    | function =>
      obtain ⟨_, t, hsuffix, ht⟩ := exists_suffix_of_search_eq_some hkind
      exact (takenFrom_of_functionAt? ht).trans hsuffix.isInfix
    | method => exact takenFrom_of_method? hkind
    | arrow => exact takenFrom_of_arrow? hkind
  · cases h

end Docblock.Declaration
