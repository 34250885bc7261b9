import Mathlib.Order.WellFounded
import Docblock.Proofs.Declaration.Methods

/-!
# The readers accept their grammar

Each reader succeeds exactly on the texts of its shape. A class or a function may
stand anywhere in its line, and then the first place where the whole shape fits is
the one that is read.
-/

namespace Docblock.Declaration

open Text

section Classes

variable {t gap rest : Text} {name : Option Text}

/-- Behind blanks the name of a class is read, and a word of its heritage is not. -/
theorem className?_append {word : Text} (hgap : gap ≠ []) (hblank : allBlank gap = true)
    (hword : IsIdentifier word) (hend : ∀ c ∈ rest.head?, isIdentPart c = false) :
    className? (gap ++ (word ++ rest)) =
      if heritageWords.contains word then none else some word := by
  have hread : identifier? (word ++ rest) = some (word, rest) :=
    identifier?_eq_some_iff.mpr ⟨rfl, hword, hend⟩
  obtain ⟨c, r, rfl, hstart, _⟩ := hword
  have hc := isBlank_eq_false_of_isIdentStart hstart
  have hindent : (indent (gap ++ (c :: r ++ rest))).isEmpty = false := by
    rw [List.cons_append, indent_append_of_blank (List.all_eq_true.mp hblank) hc,
      List.isEmpty_eq_false_iff]
    exact hgap
  rw [className?, hindent, List.cons_append, trimStart_append_cons hblank hc, ← List.cons_append,
    hread]
  rfl

/-- The name of a class is found where one can start behind blanks. -/
theorem className?_cases (t : Text) :
    (∃ gap word rest, gap ≠ [] ∧ allBlank gap = true ∧ IsIdentifier word ∧
      (∀ c ∈ rest.head?, isIdentPart c = false) ∧ t = gap ++ (word ++ rest)) ∨
    (className? t = none ∧ ∀ gap c r, gap ≠ [] → allBlank gap = true → t = gap ++ c :: r →
      isIdentStart c = false) := by
  rw [className?]
  by_cases hempty : indent t = []
  · refine .inr ⟨by rw [hempty]; rfl, ?_⟩
    rintro gap c r hgap hblank rfl
    -- The blanks would be an indent.
    obtain ⟨d, s, rfl⟩ := List.exists_cons_of_ne_nil hgap
    have hd : isBlank d = true := List.all_eq_true.mp hblank d List.mem_cons_self
    rw [List.cons_append, indent, List.takeWhile_cons_of_pos hd] at hempty
    cases hempty
  · rw [if_neg (by rwa [List.isEmpty_iff])]
    cases hi : identifier? (trimStart t) with
    | none =>
      refine .inr ⟨rfl, ?_⟩
      rintro gap c r _ hblank rfl
      rw [← Bool.not_eq_true]
      intro hstart
      rw [trimStart_append_cons hblank (isBlank_eq_false_of_isIdentStart hstart), identifier?,
        if_pos hstart] at hi
      cases hi
    | some found =>
      obtain ⟨word, rest⟩ := found
      obtain ⟨hsplit, hname, hend⟩ := identifier?_eq_some_iff.mp hi
      refine .inl ⟨indent t, word, rest, hempty, allBlank_indent t, hname, hend, ?_⟩
      rw [← hsplit, indent_append_trimStart]

/-- What may follow the keyword of a class has a brace, and its name is the one that is
read. -/
theorem isClassBody_iff : IsClassBody t name ↔ '{' ∈ t ∧ className? t = name := by
  constructor
  · intro h
    cases h with
    | named hgap hblank hname hend hbrace hword =>
      refine ⟨List.mem_append_right _ (List.mem_append_right _ hbrace), ?_⟩
      rw [className?_append hgap hblank hname hend, if_neg (by simpa using hword)]
    | heritage hgap hblank hend hbrace hword =>
      have hall : ∀ word ∈ heritageWords, (identifier? word) = some (word, []) := by decide
      have hname := (identifier?_eq_some_iff.mp (hall _ hword)).2.1
      refine ⟨List.mem_append_right _ (List.mem_append_right _ hbrace), ?_⟩
      rw [className?_append hgap hblank hname hend, if_pos (by simpa using hword)]
    | anonymous hbrace hname =>
      refine ⟨hbrace, ?_⟩
      rcases className?_cases t with ⟨gap, _, rest, hgap, hblank, hword, _, rfl⟩ | h
      · obtain ⟨c, r, rfl, hstart, _⟩ := hword
        rw [hname gap c (r ++ rest) hgap hblank rfl] at hstart
        cases hstart
      · exact h.1
  · rintro ⟨hbrace, rfl⟩
    rcases className?_cases t with ⟨gap, word, rest, hgap, hblank, hname, hend, rfl⟩ | ⟨h, hname⟩
    · have hrest : '{' ∈ rest := by
        rcases List.mem_append.mp hbrace with hm | hm
        · exact absurd hm (not_mem_of_allBlank hblank (by decide))
        · exact (List.mem_append.mp hm).resolve_left (hname.not_mem (by decide))
      rw [className?_append hgap hblank hname hend]
      split
      · rename_i hword
        exact .heritage hgap hblank hend hrest (by simpa using hword)
      · rename_i hword
        exact .named hgap hblank hname hend hrest (by simpa using hword)
    · rw [h]
      exact .anonymous hbrace hname

end Classes

section Arrows

variable {left gap async : Text} {name : Option Text}

/-- The last member of a list that passes a test is followed by none that does. -/
theorem getLast?_filter_eq_some_iff {α : Type} {p : α → Bool} {l : List α} {a : α} :
    (l.filter p).getLast? = some a ↔
      ∃ before behind, l = before ++ a :: behind ∧ p a = true ∧ ∀ b ∈ behind, p b = false := by
  rw [List.getLast?_eq_some_iff]
  constructor
  · rintro ⟨kept, hkept⟩
    obtain ⟨before, rest, rfl, _, hrest⟩ := List.filter_eq_append_iff.mp hkept
    obtain ⟨skipped, behind, rfl, _, ha, hbehind⟩ := List.filter_eq_cons_iff.mp hrest
    refine ⟨before ++ skipped, behind, by rw [List.append_assoc], ha, fun b hb => ?_⟩
    exact Bool.eq_false_iff.mpr (List.filter_eq_nil_iff.mp hbehind b hb)
  · rintro ⟨before, behind, rfl, ha, hbehind⟩
    have hnone : behind.filter p = [] :=
      List.filter_eq_nil_iff.mpr fun b hb => Bool.eq_false_iff.mp (hbehind b hb)
    exact ⟨before.filter p, by rw [List.filter_append, List.filter_cons_of_pos ha, hnone]⟩

/-- The bound name is the last word that is no binding word. -/
theorem boundName?_eq_iff : boundName? left = name ↔ IsBoundName left name := by
  rw [boundName?]
  cases name with
  | none =>
    rw [List.getLast?_eq_none_iff, List.filter_eq_nil_iff, IsBoundName]
    constructor
    · intro h front word back hword
      simpa using h word (mem_words_iff.mpr ⟨front, back, hword⟩)
    · intro h word hm
      obtain ⟨front, back, hword⟩ := mem_words_iff.mp hm
      simpa using h front word back hword
  | some name =>
    rw [getLast?_filter_eq_some_iff, IsBoundName]
    constructor
    · rintro ⟨before, behind, hwords, hname, hbehind⟩
      obtain ⟨front, back, hword, _, rfl⟩ := exists_isWord hwords
      refine ⟨front, back, hword, by simpa using hname, fun front' word back' hlater => ?_⟩
      simpa using hbehind word (mem_words_iff.mpr ⟨front', back', hlater⟩)
    · rintro ⟨front, back, hword, hname, hbehind⟩
      refine ⟨words front, words back, hword.words_eq, by simpa using hname, fun word hm => ?_⟩
      obtain ⟨front', back', hlater⟩ := mem_words_iff.mp hm
      simpa using hbehind front' word back' hlater

/-- Blanks in front of the equals sign are no part of the name. -/
theorem boundName?_append (left : Text) (hgap : allBlank gap = true) :
    boundName? (left ++ gap) = boundName? left := by
  have hcolon : gap.takeWhile (· ≠ ':') = gap := by
    rw [List.takeWhile_eq_self_iff]
    intro c hm
    rw [decide_eq_true_iff]
    rintro rfl
    exact not_mem_of_allBlank hgap (by decide) hm
  rw [boundName?, boundName?, List.takeWhile_append, hcolon]
  split
  · rename_i hlength
    rw [words_append_of_allBlank left hgap,
      (List.takeWhile_prefix (· ≠ ':')).eq_of_length hlength]
  · rfl

/-- What is skipped at the start of a text makes an arrow function asynchronous. -/
theorem exists_isAsync (t : Text) : ∃ async, IsAsync async ∧ t = async ++ skipAsync t := by
  rw [skipAsync]
  cases hs : stripStart? "async".toList t with
  | none => exact ⟨[], .inl rfl, rfl⟩
  | some rest =>
    refine ⟨"async".toList ++ indent rest, .inr ⟨_, rfl, allBlank_indent rest⟩, ?_⟩
    rw [List.append_assoc, indent_append_trimStart]
    exact eq_append_of_stripStart?_eq_some hs

/-- The word that makes an arrow function asynchronous is skipped up to the list. -/
theorem skipAsync_append (hgap : allBlank gap = true) (hasync : IsAsync async) (r : Text) :
    skipAsync (trimStart (gap ++ (async ++ '(' :: r))) = '(' :: r := by
  rw [trimStart_append_of_allBlank hgap]
  rcases hasync with rfl | ⟨behind, rfl, hbehind⟩
  · rfl
  · have hword : trimStart ("async".toList ++ behind ++ '(' :: r) =
        "async".toList ++ (behind ++ '(' :: r) := by
      rw [List.append_assoc]
      rfl
    rw [hword, skipAsync, stripStart?_append]
    exact trimStart_append_cons hbehind (by decide) r

/-- The left side of a line reaches to its first equals sign. -/
theorem exists_left_of_dropWhile {line right : Text} {c : Char}
    (h : line.dropWhile (· ≠ '=') = c :: right) :
    ∃ left, '=' ∉ left ∧ line.takeWhile (· ≠ '=') = left ∧ left ++ '=' :: right = line := by
  have hc : c = '=' := by
    have hstop := List.head?_dropWhile_not (· ≠ '=') line
    rw [h] at hstop
    simpa using hstop
  subst hc
  refine ⟨_, fun hm => ?_, rfl, by rw [← h, List.takeWhile_append_dropWhile]⟩
  simpa using List.mem_takeWhile_imp hm

/-- An arrow function is read exactly where one stands, with its name and its list. -/
theorem arrow?_eq_some_iff {line : Text} {declaration : Declaration} :
    arrow? line = some declaration ↔ Fits .arrow [] line declaration := by
  constructor
  · intro h
    rw [arrow?] at h
    cases hd : line.dropWhile (· ≠ '=') with
    | nil => rw [hd] at h; cases h
    | cons c right =>
      obtain ⟨left, hleft, htake, rfl⟩ := exists_left_of_dropWhile hd
      rw [hd, htake] at h
      dsimp only at h
      cases hp : parenthesised? (· ≠ ')') (skipAsync (trimStart right)) with
      | none => rw [hp] at h; cases h
      | some found =>
        obtain ⟨args, rest⟩ := found
        rw [hp] at h
        dsimp only at h
        cases hs : stripStart? "=>".toList (trimStart rest) with
        | none => rw [hs] at h; cases h
        | some body =>
          rw [hs] at h
          dsimp only at h
          split at h
          · rename_i hbody
            cases h
            obtain ⟨hlist, hargs⟩ := (parenthesised?_eq_some_iff (by decide)).mp hp
            obtain ⟨async, hasync, hright⟩ := exists_isAsync (trimStart right)
            obtain ⟨gap, after, rfl, hgap⟩ := opensBody_iff.mp hbody
            have hrest := eq_append_of_stripStart?_eq_some hs
            rw [← indent_append_trimStart right, hright, hlist, ← indent_append_trimStart rest,
              hrest]
            exact @Fits.arrow _ [] (indent right) async args (indent rest) gap after _ _ hleft rfl
              (allBlank_indent right) hasync (fun hm => by simpa using hargs _ hm)
              (allBlank_indent rest) hgap (boundName?_eq_iff.mp rfl) (isParams_iff.mpr rfl)
          · cases h
  · intro h
    cases h with
    | @arrow left gap front async args behind body rest name params hleft hgap hfront hasync hargs
        hbehind hbody hname hparams =>
      obtain rfl := isParams_iff.mp hparams
      have hequals : '=' ∉ left ++ gap :=
        List.not_mem_append hleft (not_mem_of_allBlank hgap (by decide))
      have hlist : parenthesised? (· ≠ ')') ('(' :: (args ++ ')' :: (behind ++ ("=>".toList ++
          (body ++ '{' :: rest))))) =
          some (args, behind ++ ("=>".toList ++ (body ++ '{' :: rest))) := by
        refine (parenthesised?_eq_some_iff (by decide)).mpr ⟨rfl, fun c hm => ?_⟩
        rw [decide_eq_true_iff]
        rintro rfl
        exact hargs hm
      have hopen : opensBody (body ++ '{' :: rest) = true :=
        opensBody_iff.mpr ⟨body, rest, rfl, hbody⟩
      rw [arrow?, ← List.append_assoc, dropWhile_ne_append hequals, takeWhile_ne_append hequals,
        boundName?_append left hgap, boundName?_eq_iff.mpr hname]
      dsimp only
      rw [skipAsync_append hfront hasync, hlist]
      dsimp only
      rw [trimStart_append_of_allBlank hbehind]
      have harrow (r : Text) :
          stripStart? "=>".toList (trimStart ("=>".toList ++ r)) = some r := rfl
      rw [harrow]
      dsimp only
      rw [hopen]
      rfl

end Arrows

section Keywords

variable {before t : Text} {declaration : Declaration}

/-- A class is read at a place exactly where one stands there. -/
theorem classAt?_eq_some_iff :
    classAt? before.getLast? t = some declaration ↔
      Fits .classBody before (before ++ t) declaration := by
  constructor
  · intro h
    rw [classAt?] at h
    split at h
    · rename_i hbefore
      cases hk : keyword? "class".toList t with
      | none => rw [hk] at h; cases h
      | some rest =>
        rw [hk] at h
        dsimp only at h
        split at h
        · rename_i hbrace
          cases h
          obtain ⟨rfl, hend⟩ := keyword?_eq_some_iff.mp hk
          exact .classBody (Option.all_eq_true _ _ |>.mp hbefore) hend
            (isClassBody_iff.mpr ⟨List.contains_iff_mem.mp hbrace, rfl⟩)
        · cases h
    · cases h
  · intro h
    generalize hline : before ++ t = line at h
    cases h with
    | classBody hbefore hend hrest =>
      cases List.append_cancel_left hline
      obtain ⟨hbrace, rfl⟩ := isClassBody_iff.mp hrest
      rw [classAt?, if_pos ((Option.all_eq_true _ _).mpr hbefore),
        keyword?_eq_some_iff.mpr ⟨rfl, hend⟩]
      dsimp only
      rw [if_pos (List.contains_iff_mem.mpr hbrace)]

/-- A keyword may stand behind anything but a word, a dollar sign and a dot. -/
theorem joinsFunction_eq_false_iff {c : Char} :
    joinsFunction c = false ↔ isWord c = false ∧ c ≠ '$' ∧ c ≠ '.' := by
  simp [joinsFunction, and_assoc]

/-- A function is read at a place exactly where one stands there. -/
theorem functionAt?_eq_some_iff :
    functionAt? before.getLast? t = some declaration ↔
      Fits .function before (before ++ t) declaration := by
  constructor
  · intro h
    rw [functionAt?] at h
    split at h
    · cases h
    · rename_i hbefore
      cases hk : keyword? "function".toList t with
      | none => rw [hk] at h; cases h
      | some rest =>
        rw [hk] at h
        dsimp only at h
        cases hs : signature? (· ≠ ')') (skipStar (trimStart rest)) with
        | none => rw [hs] at h; cases h
        | some found =>
          obtain ⟨name, args⟩ := found
          rw [hs] at h
          cases h
          obtain ⟨rfl, hend⟩ := keyword?_eq_some_iff.mp hk
          obtain ⟨star, hstar, hsplit⟩ := exists_isStar (trimStart rest)
          rw [← indent_append_trimStart rest, hsplit] at hend ⊢
          have hjoins := (Option.any_eq_false _ _).mp (Bool.eq_false_iff.mpr hbefore)
          exact .function (fun c hc => joinsFunction_eq_false_iff.mp (hjoins c hc)) hend
            (allBlank_indent rest) hstar ((signature?_eq_some_iff (by decide)).mp hs)
            (isParams_iff.mpr rfl)
  · intro h
    generalize hline : before ++ t = line at h
    cases h with
    | function hbefore hend hgap hstar hsignature hparams =>
      cases List.append_cancel_left hline
      obtain rfl := isParams_iff.mp hparams
      have hjoins := (Option.any_eq_false joinsFunction before.getLast?).mpr
        fun c hc => joinsFunction_eq_false_iff.mpr (hbefore c hc)
      rw [functionAt?, if_neg (Bool.eq_false_iff.mp hjoins), keyword?_eq_some_iff.mpr ⟨rfl, hend⟩]
      dsimp only
      rw [signature?_skipStar (by decide) hgap hstar hsignature]

/-- What fits a kind stands behind a beginning of its line. -/
theorem Fits.exists_eq_append {kind : DeclarationKind} {line : Text}
    (h : Fits kind before line declaration) : ∃ t, line = before ++ t := by
  cases h with
  | classBody => exact ⟨_, rfl⟩
  | function => exact ⟨_, rfl⟩
  | method => exact ⟨_, rfl⟩
  | arrow => exact ⟨_, rfl⟩

/-- A search takes the first place where its kind fits. -/
theorem search_eq_some_iff_fits {kind : DeclarationKind} {line : Text}
    {read : Option Char → Text → Option Declaration}
    (hread : ∀ {before t : Text} {declaration : Declaration},
      read before.getLast? t = some declaration ↔ Fits kind before (before ++ t) declaration) :
    search read none line = some declaration ↔
      ∃ before, Fits kind before line declaration ∧
        ∀ before' declaration', Fits kind before' line declaration' →
          before.length ≤ before'.length := by
  rw [search_eq_some_iff]
  constructor
  · rintro ⟨front, back, rfl, hfound, hnone⟩
    rw [Option.or_none] at hfound
    refine ⟨front, hread.mp hfound, fun before' declaration' hfits => ?_⟩
    refine Nat.le_of_not_lt fun hlt => ?_
    obtain ⟨back', hsplit⟩ := hfits.exists_eq_append
    have hmissed := hnone before' back' hsplit hlt
    rw [hsplit] at hfits
    rw [Option.or_none, hread.mpr hfits] at hmissed
    cases hmissed
  · rintro ⟨before, hfits, hfirst⟩
    obtain ⟨t, rfl⟩ := hfits.exists_eq_append
    refine ⟨before, t, rfl, ?_, fun front' back' hsplit hlt => ?_⟩
    · rw [Option.or_none]
      exact hread.mpr hfits
    · rw [Option.or_none]
      cases hfound : read front'.getLast? back' with
      | none => rfl
      | some earlier =>
        have hfits' := hread.mp hfound
        rw [← hsplit] at hfits'
        exact absurd hlt (Nat.not_lt_of_le (hfirst front' earlier hfits'))

end Keywords

/-- What is read is what fits first. -/
theorem ofLine?_eq_some_iff {kind : DeclarationKind} {line : Text} {declaration : Declaration} :
    ofLine? kind line = some declaration ↔
      ∃ before, Fits kind before line declaration ∧
        ∀ before' declaration', Fits kind before' line declaration' →
          before.length ≤ before'.length := by
  cases kind with
  | classBody => exact search_eq_some_iff_fits classAt?_eq_some_iff
  | function => exact search_eq_some_iff_fits functionAt?_eq_some_iff
  | method =>
    rw [ofLine?, method?_eq_some_iff]
    constructor
    · exact fun h => ⟨[], h, fun _ _ _ => Nat.zero_le _⟩
    · rintro ⟨before, hfits, _⟩
      cases hfits with
      | method hline hname hparams => exact .method hline hname hparams
  | arrow =>
    rw [ofLine?, arrow?_eq_some_iff]
    constructor
    · exact fun h => ⟨[], h, fun _ _ _ => Nat.zero_le _⟩
    · rintro ⟨before, hfits, _⟩
      obtain rfl : before = [] := by cases hfits; rfl
      exact hfits

/-- Something is read as soon as something fits. -/
theorem exists_ofLine?_iff {kind : DeclarationKind} {line : Text} :
    (∃ declaration, ofLine? kind line = some declaration) ↔
      ∃ before declaration, Fits kind before line declaration := by
  constructor
  · rintro ⟨declaration, h⟩
    obtain ⟨before, hfits, _⟩ := ofLine?_eq_some_iff.mp h
    exact ⟨before, declaration, hfits⟩
  · rintro ⟨before, hfits⟩
    -- Of the beginnings of the line behind which it fits, take a shortest.
    obtain ⟨first, ⟨declaration, hfirst⟩, hshortest⟩ := (measure List.length).wf.has_min
      {front : Text | ∃ declaration, Fits kind front line declaration} ⟨before, hfits⟩
    refine ⟨declaration, ofLine?_eq_some_iff.mpr ⟨first, hfirst, fun before' declaration' h => ?_⟩⟩
    exact Nat.le_of_not_lt (hshortest before' ⟨declaration', h⟩)

/-- A line is read as a declaration of a kind exactly when it fits the kind, and
what is read, with its name and parameters, is what fits first. -/
theorem ofLine?_eq_some_iff_fits (kind : DeclarationKind) (line : Text) :
    ((∃ declaration, ofLine? kind line = some declaration) ↔
      ∃ before declaration, Fits kind before line declaration) ∧
    ∀ declaration, ofLine? kind line = some declaration ↔
      ∃ before, Fits kind before line declaration ∧
        ∀ before' declaration', Fits kind before' line declaration' →
          before.length ≤ before'.length :=
  ⟨exists_ofLine?_iff, fun _ => ofLine?_eq_some_iff⟩

end Docblock.Declaration
