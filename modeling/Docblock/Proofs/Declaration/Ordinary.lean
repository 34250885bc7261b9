import Mathlib.Data.List.Nodup
import Docblock.Proofs.Comment.Skeleton
import Docblock.Proofs.Declaration.Lines

/-!
# Ordinary declarations

The plainest line of each kind is recognised for what it is, except where a name
in it starts with the keyword of a class or a function, or is a word that is taken
to stand in front of a name.
-/

namespace Docblock.Declaration

open Text

section Functions

variable {line before name : Text} {params : List Text} {declaration : Declaration}

/-- The parameter list of a function is opened behind its keyword and something
without an equals sign. -/
theorem exists_split_of_fits_function (h : Fits .function before line declaration) :
    ∃ head rest, line = (before ++ ("function".toList ++ head)) ++ '(' :: rest ∧ '=' ∉ head ∧
      startsWithWord (head ++ '(' :: rest) = false ∧
      ∀ c ∈ before.getLast?, isIdentPart c = false := by
  cases h with
  | function hbefore hend hgap hstar hsignature hparams =>
    obtain ⟨hfront, hname, hbetween, -, -⟩ := hsignature
    rename_i gap star name args params front between behind rest
    have hequals : '=' ∉ gap ++ (star ++ (front ++ (name ++ between))) := by
      have hstarred : '=' ∉ star := by rcases hstar with rfl | rfl <;> decide
      exact List.not_mem_append (not_mem_of_allBlank hgap (by decide))
        (List.not_mem_append hstarred
          (List.not_mem_append (not_mem_of_allBlank hfront (by decide))
            (List.not_mem_append (hname.not_mem (by decide))
              (not_mem_of_allBlank hbetween (by decide)))))
    have hsplit : gap ++ (star ++ (front ++ (name ++ (between ++ '(' :: (args ++ ')' ::
        (behind ++ '{' :: rest)))))) =
        (gap ++ (star ++ (front ++ (name ++ between)))) ++ '(' :: (args ++ ')' ::
          (behind ++ '{' :: rest)) := by
      simp only [List.append_assoc]
    rw [hsplit] at hend ⊢
    refine ⟨_, _, by simp only [List.append_assoc], hequals, hend, fun c hc => ?_⟩
    obtain ⟨hword, hdollar, _⟩ := hbefore c hc
    rw [isIdentPart, hword, decide_eq_false hdollar]
    rfl

/-- The only list of an arrow function stands behind an equals sign. -/
theorem not_function_arrowLine (hname : IsName name) (h : ∀ param ∈ params, IsIdentifier param) :
    ¬∃ declaration, ofLine? .function (arrowLine name params) = some declaration := by
  rw [exists_ofLine?_iff]
  rintro ⟨before, declaration, hfits⟩
  obtain ⟨head, rest, hsplit, hhead, -, -⟩ := exists_split_of_fits_function hfits
  have hline : arrowLine name params = ("const ".toList ++ (name ++ [' ']) ++ '=' :: [' ']) ++
      '(' :: (nameList params ++ ") => \x7b".toList) := by
    unfold arrowLine
    simp only [String.reduceToList, List.append_assoc, List.cons_append, List.nil_append]
  have hequals : '=' ∉ "const ".toList ++ (name ++ [' ']) :=
    List.not_mem_append (by decide)
      (List.not_mem_append (hname.identifier.not_mem (by decide)) (by decide))
  have hfront : '(' ∉ "const ".toList ++ (name ++ [' ']) ++ '=' :: [' '] :=
    List.not_mem_append (List.not_mem_append (by decide)
      (List.not_mem_append (hname.identifier.not_mem (by decide)) (by decide))) (by decide)
  have hback : '(' ∉ nameList params ++ ") => \x7b".toList :=
    List.not_mem_append (not_mem_nameList h (by decide) (by decide)) (by decide)
  rw [hline, List.append_cons_inj_of_notMem hfront hback] at hsplit
  obtain ⟨hsplit, -, -⟩ := hsplit
  have hmem : '=' ∈ before := by
    have hm : '=' ∈ before ++ ("function".toList ++ head) := by
      rw [← hsplit]
      exact List.mem_append_right _ List.mem_cons_self
    refine (List.mem_append.mp hm).resolve_right fun hm => ?_
    exact List.not_mem_append (by decide) hhead hm
  obtain ⟨left, right, rfl, hleft⟩ := List.eq_append_cons_of_mem hmem
  -- One blank would have to hold the keyword.
  rw [List.append_assoc left, List.cons_append] at hsplit
  obtain ⟨-, hblank⟩ := append_cons_inj_of_not_mem hequals hleft hsplit
  have hlength := congrArg List.length hblank
  rw [List.length_append, List.length_append] at hlength
  have hkeyword : "function".toList.length = 8 := rfl
  rw [List.length_singleton, hkeyword] at hlength
  omega

/-- A name with a list is the signature of that name. -/
theorem isSignature_methodLine {inside : Char → Bool} (hname : IsIdentifier name)
    (h : ∀ param ∈ params, IsIdentifier param)
    (hinside : ∀ c, c ≠ '(' → c ≠ ')' → inside c = true) :
    IsSignature inside (methodLine name params) name (nameList params) := by
  have hsplit : methodLine name params = [] ++ (name ++ ([] ++ '(' :: (nameList params ++ ')' ::
      ([' '] ++ '{' :: [])))) := rfl
  have hopen : '(' ∉ nameList params := not_mem_nameList h (by decide) (by decide)
  have hclose : ')' ∉ nameList params := not_mem_nameList h (by decide) (by decide)
  rw [hsplit]
  exact .intro rfl hname rfl
    (fun c hm => hinside c (ne_of_mem_of_not_mem hm hopen) (ne_of_mem_of_not_mem hm hclose))
    (by decide)

/-- In front of the list of a method nothing but its name can start with the
keyword of a function. -/
theorem exists_function_methodLine_iff (hname : IsName name)
    (h : ∀ param ∈ params, IsIdentifier param) :
    (∃ declaration, ofLine? .function (methodLine name params) = some declaration) ↔
      "function$".toList <+: name := by
  have hfunction : name ≠ "function".toList := by
    rintro rfl
    exact hname.unreserved (by decide)
  have hopens : opensWith "function".toList (methodLine name params) = true ↔
      "function$".toList <+: name := by
    apply opensWith_append_iff (by decide) hname.identifier hfunction
    rintro c ⟨⟩
    decide
  rw [exists_ofLine?_iff]
  constructor
  · rintro ⟨before, declaration, hfits⟩
    obtain ⟨head, rest, hsplit, -, hend, hbefore⟩ := exists_split_of_fits_function hfits
    have hfront : '(' ∉ name := hname.identifier.not_mem (by decide)
    have hback : '(' ∉ nameList params ++ ") \x7b".toList :=
      List.not_mem_append (not_mem_nameList h (by decide) (by decide)) (by decide)
    have hheads := ((List.append_cons_inj_of_notMem hfront hback).mp hsplit).1
    have hnil : before = [] := by
      cases hlast : before.getLast? with
      | none => exact List.getLast?_eq_none_iff.mp hlast
      | some c =>
        have hm : c ∈ name := by
          rw [hheads]
          exact List.mem_append_left _ (List.mem_of_getLast? hlast)
        have hpart := hbefore c hlast
        rw [hname.identifier.parts c hm] at hpart
        cases hpart
    subst hnil
    refine hopens.mp (opensWith_iff.mpr ⟨head ++ '(' :: rest, ?_, hend⟩)
    rw [← List.append_assoc]
    exact hsplit
  · rintro ⟨r, rfl⟩
    have hrest : IsIdentifier ('$' :: r) :=
      ⟨'$', r, rfl, by decide, fun c hm => hname.identifier.parts c (List.mem_append_right _ hm)⟩
    have hdollar : startsWithWord ([] ++ ([] ++ methodLine ('$' :: r) params)) = false := by
      have hword : isWord '$' = false := by decide
      exact hword
    exact ⟨[], _, @Fits.function [] [] [] _ _ _ _ (by simp) hdollar rfl (.inl rfl)
      (isSignature_methodLine hrest h fun c _ hc => decide_eq_true hc) (isParams_iff.mpr rfl)⟩

end Functions

section Kinds

variable {line name : Text} {params : List Text} {kind : DeclarationKind}
  {declaration : Declaration}

/-- What fits a kind is of that kind. -/
theorem kind_of_ofLine?_eq_some (h : ofLine? kind line = some declaration) :
    declaration.kind = kind := by
  obtain ⟨before, hfits, _⟩ := ofLine?_eq_some_iff.mp h
  cases hfits <;> rfl

/-- What fits from the start of a line is read. -/
theorem ofLine?_of_fits_nil (h : Fits kind [] line declaration) :
    ofLine? kind line = some declaration :=
  ofLine?_eq_some_iff.mpr ⟨[], h, fun _ _ _ => Nat.zero_le _⟩

/-- The kinds that are tried before a kind. -/
def earlierKinds (kind : DeclarationKind) : List DeclarationKind :=
  DeclarationKind.priority.takeWhile (· ≠ kind)

/-- The kinds that are tried first are those earlier in the order. -/
theorem exists_priority_eq (kind : DeclarationKind) :
    ∃ later, DeclarationKind.priority = earlierKinds kind ++ kind :: later := by
  cases kind <;> exact ⟨_, rfl⟩

/-- A line is a declaration of a kind exactly when it can be read as one and not
as one of a kind that is tried before. -/
theorem classify_eq_some_iff (hbrace : '{' ∈ line) :
    classify line = some declaration ↔
      (∀ kind ∈ earlierKinds declaration.kind, ¬∃ other, ofLine? kind line = some other) ∧
        ofLine? declaration.kind line = some declaration := by
  obtain ⟨later, hpriority⟩ := exists_priority_eq declaration.kind
  generalize earlierKinds declaration.kind = earlier at hpriority ⊢
  have hnodup : DeclarationKind.priority.Nodup := by decide
  rw [hpriority, List.nodup_middle, List.nodup_cons, List.mem_append, not_or] at hnodup
  obtain ⟨⟨hearlier, hlater⟩, -⟩ := hnodup
  have hmissed {kinds : List DeclarationKind} (hm : declaration.kind ∉ kinds) :
      kinds.findSome? (ofLine? · line) ≠ some declaration := by
    intro hfound
    obtain ⟨kind, hkind, hread⟩ := List.exists_of_findSome?_eq_some hfound
    rw [kind_of_ofLine?_eq_some hread] at hm
    exact hm hkind
  rw [classify, if_pos (List.contains_iff_mem.mpr hbrace), hpriority, List.findSome?_append]
  cases hfound : earlier.findSome? (ofLine? · line) with
  | none =>
    have hnone : ∀ kind ∈ earlier, ¬∃ other, ofLine? kind line = some other := by
      rintro kind hm ⟨other, hother⟩
      rw [List.findSome?_eq_none_iff.mp hfound kind hm] at hother
      cases hother
    rw [Option.none_or, List.findSome?_cons]
    cases hread : ofLine? declaration.kind line with
    | none =>
      constructor
      · exact fun h => absurd h (hmissed hlater)
      · rintro ⟨_, ⟨⟩⟩
    | some other =>
      exact ⟨fun h => ⟨hnone, h⟩, fun h => h.2⟩
  | some other =>
    rw [Option.some_or, ← hfound]
    constructor
    · exact fun h => absurd h (hmissed hearlier)
    · rintro ⟨hnone, -⟩
      obtain ⟨kind, hm, hread⟩ := List.exists_of_findSome?_eq_some hfound
      exact absurd ⟨other, hread⟩ (hnone kind hm)

/-- The line of a class is read as a class of that name. -/
theorem ofLine?_classLine (hname : IsName name) :
    ofLine? .classBody (classLine name) = some ⟨.classBody, some name, []⟩ := by
  have hheritage : ∀ word ∈ heritageWords, word ∈ reservedWords := by decide
  have hblank : isWord ' ' = false := by decide
  have hend : ∀ c ∈ (" \x7b".toList).head?, isIdentPart c = false := by
    rintro c ⟨⟩
    decide
  have hbody : IsClassBody ([' '] ++ (name ++ " \x7b".toList)) (some name) :=
    .named (List.cons_ne_nil _ _) (by decide) hname.identifier hend (by decide)
      fun hm => hname.unreserved (hheritage name hm)
  apply ofLine?_of_fits_nil
  exact @Fits.classBody [] _ _ (fun _ h => nomatch h) hblank hbody

/-- The line of a function is read with its name and all its parameters. -/
theorem ofLine?_functionLine (hname : IsName name) (h : ∀ param ∈ params, IsIdentifier param) :
    ofLine? .function (functionLine name params) = some ⟨.function, some name, params⟩ := by
  have hblank : isWord ' ' = false := by decide
  have hsignature := isSignature_methodLine hname.identifier h fun c _ hc => decide_eq_true hc
  have hparams : IsParams (nameList params) params := isParams_iff.mpr (splitParams_nameList h)
  apply ofLine?_of_fits_nil
  exact @Fits.function [] [' '] [] _ name (nameList params) params (fun _ h => nomatch h) hblank
    (by decide) (.inl rfl) hsignature hparams

/-- The only name that is taken for a word in front of a name is one that is not
reserved. -/
theorem boundName?_const (hname : IsName name) :
    boundName? ("const ".toList ++ name) =
      if name = "readonly".toList then none else some name := by
  have hcolon : ("const ".toList ++ name).takeWhile (· ≠ ':') = "const".toList ++ ' ' :: name := by
    rw [List.takeWhile_eq_self_iff.mpr]
    · rfl
    · intro c hm
      rw [decide_eq_true_iff]
      rintro rfl
      exact List.not_mem_append (by decide) (hname.identifier.not_mem (by decide)) hm
  have hconst : words "const".toList = ["const".toList] := by decide
  rw [boundName?, hcolon, words_append_cons_of_blank (by decide), hconst,
    words_of_solid hname.identifier.ne_nil hname.identifier.solid]
  split
  · rename_i hreadonly
    rw [hreadonly]
    decide
  · rename_i hreadonly
    have hbinding : ∀ word ∈ bindingWords, word = "readonly".toList ∨ word ∈ reservedWords := by
      decide
    have hkept : bindingWords.contains name = false := by
      rw [← Bool.not_eq_true, List.contains_iff_mem]
      exact fun hm => (hbinding name hm).elim hreadonly hname.unreserved
    have hdropped : bindingWords.contains "const".toList = true := by decide
    rw [List.cons_append, List.nil_append, List.filter_cons_of_neg (by rw [hdropped]; decide),
      List.filter_cons_of_pos (by rw [hkept]; rfl), List.filter_nil]
    rfl

/-- So is the line of an arrow function, unless its name is taken for a word
of the binding. -/
theorem ofLine?_arrowLine (hname : IsName name) (h : ∀ param ∈ params, IsIdentifier param) :
    ofLine? .arrow (arrowLine name params) =
      some ⟨.arrow, if name = "readonly".toList then none else some name, params⟩ := by
  have hline : arrowLine name params = ("const ".toList ++ name) ++ ([' '] ++ '=' :: ([' '] ++
      ([] ++ '(' :: (nameList params ++ ')' ::
        ([' '] ++ ("=>".toList ++ ([' '] ++ '{' :: []))))))) := by
    unfold arrowLine
    simp only [String.reduceToList, List.cons_append, List.nil_append]
  have hequals : '=' ∉ "const ".toList ++ name :=
    List.not_mem_append (by decide) (hname.identifier.not_mem (by decide))
  have hclose : ')' ∉ nameList params := not_mem_nameList h (by decide) (by decide)
  have hparams : IsParams (nameList params) params := isParams_iff.mpr (splitParams_nameList h)
  have hfits := @Fits.arrow _ [' '] [' '] [] (nameList params) [' '] [' '] [] _ params hequals
    (by decide) (by decide) (.inl rfl) hclose (by decide) (by decide) (boundName?_eq_iff.mp rfl)
    hparams
  rw [← hline, boundName?_const hname] at hfits
  exact ofLine?_of_fits_nil hfits

/-- So is the line of a method. -/
theorem ofLine?_methodLine (hname : IsName name) (h : ∀ param ∈ params, IsIdentifier param) :
    ofLine? .method (methodLine name params) = some ⟨.method, some name, params⟩ := by
  have hcontrol : ∀ word ∈ controlWords, word ∈ reservedWords := by decide
  have hsignature : IsSignature (fun c => c ≠ '(' && c ≠ ')') (methodLine name params) name
      (nameList params) := isSignature_methodLine hname.identifier h fun c ho hc => by simp [ho, hc]
  have hmethod : IsMethod ([] ++ methodLine name params) name (nameList params) :=
    .plain (.inl rfl) hsignature
  have hparams : IsParams (nameList params) params := isParams_iff.mpr (splitParams_nameList h)
  exact ofLine?_of_fits_nil
    (.method hmethod (fun hm => hname.unreserved (hcontrol name hm)) hparams)

/-- Without an equals sign there is no arrow function. -/
theorem not_arrow_methodLine (hname : IsName name) (h : ∀ param ∈ params, IsIdentifier param) :
    ¬∃ declaration, ofLine? .arrow (methodLine name params) = some declaration := by
  rw [exists_ofLine?_iff]
  rintro ⟨before, declaration, hfits⟩
  have hequals : '=' ∉ methodLine name params :=
    not_mem_methodLine hname.identifier h (by decide) (by decide)
  generalize methodLine name params = line at hequals hfits
  cases hfits with
  | arrow =>
    exact hequals (List.mem_append_right _ (List.mem_append_right _ List.mem_cons_self))

end Kinds

section Recognised

variable {name : Text} {params : List Text}

/-- Classes are tried first, so nothing hides one. -/
theorem classify_classLine (hname : IsName name) :
    classify (classLine name) = some ⟨.classBody, some name, []⟩ := by
  have hbrace : '{' ∈ classLine name :=
    List.mem_append_right _ (List.mem_append_right _ (by decide))
  rw [classify_eq_some_iff hbrace]
  exact ⟨fun kind hm => absurd hm List.not_mem_nil, ofLine?_classLine hname⟩

/-- A function is hidden exactly by a name that goes on behind the keyword of a class. -/
theorem classify_functionLine_iff (hname : IsName name) (h : ∀ param ∈ params, IsName param) :
    classify (functionLine name params) = some ⟨.function, some name, params⟩ ↔
      ¬∃ word ∈ name :: params.tail, "class$".toList <+: word := by
  have hlast := getLast?_functionLine name params
  have hread := ofLine?_functionLine hname fun param hm => (h param hm).identifier
  have hearlier : earlierKinds .function = [.classBody] := rfl
  rw [classify_eq_some_iff (List.mem_of_getLast? hlast), hearlier, List.forall_mem_singleton,
    exists_classBody_iff hlast, any_words_functionLine, any_words_methodLine hname h]
  exact and_iff_left hread

/-- An arrow function is hidden in the same way, or loses its name to a word
of the binding. -/
theorem classify_arrowLine_iff (hname : IsName name) (h : ∀ param ∈ params, IsName param) :
    classify (arrowLine name params) = some ⟨.arrow, some name, params⟩ ↔
      name ≠ "readonly".toList ∧ ¬∃ word ∈ name :: params.tail, "class$".toList <+: word := by
  have hlast := getLast?_arrowLine name params
  have hidents : ∀ param ∈ params, IsIdentifier param := fun param hm => (h param hm).identifier
  have hread := ofLine?_arrowLine hname hidents
  have hearlier : earlierKinds .arrow = [.classBody, .function] := rfl
  rw [classify_eq_some_iff (List.mem_of_getLast? hlast), hearlier, List.forall_mem_cons,
    List.forall_mem_singleton, exists_classBody_iff hlast, any_words_arrowLine hname h,
    and_iff_left (not_function_arrowLine hname hidents), hread, and_comm]
  refine and_congr_left fun _ => ?_
  split
  · rename_i hreadonly
    exact ⟨fun h => (nomatch h), fun h => absurd hreadonly h⟩
  · rename_i hreadonly
    exact iff_of_true rfl hreadonly

/-- A method is hidden by a name that goes on behind the keyword of a class or, as its own
name, behind that of a function. -/
theorem classify_methodLine_iff (hname : IsName name) (h : ∀ param ∈ params, IsName param) :
    classify (methodLine name params) = some ⟨.method, some name, params⟩ ↔
      ¬"function$".toList <+: name ∧ ¬∃ word ∈ name :: params.tail, "class$".toList <+: word := by
  have hlast := getLast?_methodLine name params
  have hidents : ∀ param ∈ params, IsIdentifier param := fun param hm => (h param hm).identifier
  have hearlier : earlierKinds .method = [.classBody, .function, .arrow] := rfl
  rw [classify_eq_some_iff (List.mem_of_getLast? hlast), hearlier, List.forall_mem_cons,
    List.forall_mem_cons, List.forall_mem_singleton, exists_classBody_iff hlast,
    any_words_methodLine hname h, exists_function_methodLine_iff hname hidents]
  have harrow := not_arrow_methodLine hname hidents
  have hread := ofLine?_methodLine hname hidents
  constructor
  · rintro ⟨⟨hclass, hfunction, -⟩, -⟩
    exact ⟨hfunction, hclass⟩
  · rintro ⟨hfunction, hclass⟩
    exact ⟨⟨hclass, hfunction, harrow⟩, hread⟩

end Recognised

section Comments

variable {template : Template} {name : Text} {params : List Text} {kind : DeclarationKind}

/-- Names are written into a comment as they are. -/
theorem shown_names (h : ∀ param ∈ params, IsIdentifier param) :
    (params.map trim).filter (!·.isEmpty) = params := by
  have htrim : params.map trim = params := by
    rw [List.map_congr_left fun param hm => (h param hm).trim_eq, List.map_id']
  rw [htrim, List.filter_eq_self]
  intro param hm
  rw [Bool.not_eq_true', List.isEmpty_eq_false_iff]
  exact (h param hm).ne_nil

/-- The tags of a comment are one for the name and one for each parameter, in their
order. -/
theorem filter_lines_skeleton (hname : IsName name) (h : ∀ param ∈ params, IsIdentifier param)
    (htemplate : template.OneLine) (hdescription : template.description.head? ≠ some '@')
    (hkind : kind ≠ .classBody) :
    (lines (Comment.skeleton template ⟨kind, some name, params⟩)).filter
        (startsWith "* @".toList) =
      ("* @method ".toList ++ name) :: params.map (Comment.paramText template) := by
  have hsame : Comment.skeleton template ⟨kind, some name, params⟩ =
      Comment.skeleton template ⟨.method, some name, params⟩ := by
    cases kind with
    | classBody => exact absurd rfl hkind
    | function => rfl
    | method => rfl
    | arrow => rfl
  have htaken := takenFrom_of_method? (ofLine?_methodLine hname h)
  have hline : '\n' ∉ methodLine name params :=
    not_mem_methodLine hname.identifier h (by decide) (by decide)
  have hsummary : startsWith "* @".toList ("* ".toList ++ template.description) = false := by
    cases hd : template.description with
    | nil => rfl
    | cons c r =>
      have hc : '@' ≠ c := by
        rintro rfl
        exact hdescription (by rw [hd]; rfl)
      simp [startsWith, stripStart?, hc]
  have hempty : startsWith "* @".toList ['*'] = false := rfl
  have hopener : startsWith "* @".toList Comment.opener = false := rfl
  have hcloser : startsWith "* @".toList Scan.closer = false := rfl
  have htag : startsWith "* @".toList ("* @method ".toList ++ name) = true := rfl
  have hparams : (params.map (Comment.paramText template)).filter (startsWith "* @".toList) =
      params.map (Comment.paramText template) := by
    rw [List.filter_eq_self, List.forall_mem_map]
    exact fun param _ => rfl
  rw [hsame, Comment.lines_skeleton htemplate htaken hline, Comment.skeletonLines,
    Comment.skeletonInner, shown_names h]
  simp only [List.filter_cons, List.filter_append, List.filter_nil, hopener, hsummary, hempty, htag,
    hparams, hcloser, Option.getD_some, Bool.false_eq_true, if_false, if_true, List.append_nil]
  rfl

end Comments

/-- An ordinary class is always recognised. The other declarations are, unless a
keyword is found at the start of a longer name, or the name of an arrow function is
taken for a word in front of it. What is recognised gets a comment with one tag for
its name and one for each parameter. -/
theorem classify_ordinary_iff {name : Text} {params : List Text} {template : Template}
    (hname : IsName name) (hparams : ∀ param ∈ params, IsName param)
    (htemplate : template.OneLine) (hdescription : template.description.head? ≠ some '@') :
    classify (classLine name) = some ⟨.classBody, some name, []⟩ ∧
    (classify (functionLine name params) = some ⟨.function, some name, params⟩ ↔
      ¬∃ word ∈ name :: params.tail, "class$".toList <+: word) ∧
    (classify (arrowLine name params) = some ⟨.arrow, some name, params⟩ ↔
      name ≠ "readonly".toList ∧ ¬∃ word ∈ name :: params.tail, "class$".toList <+: word) ∧
    (classify (methodLine name params) = some ⟨.method, some name, params⟩ ↔
      ¬"function$".toList <+: name ∧ ¬∃ word ∈ name :: params.tail, "class$".toList <+: word) ∧
    ∀ kind ≠ .classBody, (lines (Comment.skeleton template ⟨kind, some name, params⟩)).filter
        (startsWith "* @".toList) =
      ("* @method ".toList ++ name) :: params.map (Comment.paramText template) :=
  ⟨classify_classLine hname, classify_functionLine_iff hname hparams,
    classify_arrowLine_iff hname hparams, classify_methodLine_iff hname hparams, fun _ hkind =>
      filter_lines_skeleton hname (fun param hm => (hparams param hm).identifier) htemplate
        hdescription hkind⟩

/-- A plain name and two plain parameters are read in all four shapes. -/
theorem classify_ordinary_iff_add :
    IsName "add".toList ∧ (∀ param ∈ ["a".toList, "b".toList], IsName param) ∧
    Template.OneLine {} ∧ ({} : Template).description.head? ≠ some '@' ∧
    classify (classLine "add".toList) = some ⟨.classBody, some "add".toList, []⟩ ∧
    classify (functionLine "add".toList ["a".toList, "b".toList]) =
      some ⟨.function, some "add".toList, ["a".toList, "b".toList]⟩ ∧
    classify (arrowLine "add".toList ["a".toList, "b".toList]) =
      some ⟨.arrow, some "add".toList, ["a".toList, "b".toList]⟩ ∧
    classify (methodLine "add".toList ["a".toList, "b".toList]) =
      some ⟨.method, some "add".toList, ["a".toList, "b".toList]⟩ := by
  have hname : IsName "add".toList := by decide
  have hparams : ∀ param ∈ ["a".toList, "b".toList], IsName param := by decide
  have htemplate : Template.OneLine {} := ⟨by decide, by decide, by decide⟩
  have hdescription : ({} : Template).description.head? ≠ some '@' := by decide
  obtain ⟨hclass, hfunction, harrow, hmethod, -⟩ :=
    classify_ordinary_iff hname hparams htemplate hdescription
  exact ⟨hname, hparams, htemplate, hdescription, hclass, hfunction.mpr (by decide),
    harrow.mpr (by decide), hmethod.mpr (by decide)⟩

/-- A dollar sign ends a keyword inside a name, and a name that is no reserved word
is dropped: the function becomes a class and the method a function, and neither the
class nor the arrow function has a name. -/
theorem exists_misread_ordinary :
    IsName "a".toList ∧
    (IsName "class$".toList ∧ classify (functionLine "class$".toList ["a".toList]) =
      some ⟨.classBody, none, []⟩) ∧
    (IsName "readonly".toList ∧ classify (arrowLine "readonly".toList ["a".toList]) =
      some ⟨.arrow, none, ["a".toList]⟩) ∧
    IsName "function$x".toList ∧ classify (methodLine "function$x".toList ["a".toList]) =
      some ⟨.function, some "$x".toList, ["a".toList]⟩ := by
  refine ⟨by decide, ⟨by decide, ?_⟩, ⟨by decide, ?_⟩, by decide, ?_⟩
  · decide +kernel
  · decide +kernel
  · decide +kernel

end Docblock.Declaration
