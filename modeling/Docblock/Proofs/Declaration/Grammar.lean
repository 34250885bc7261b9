import Docblock.Declaration.Pattern
import Docblock.Proofs.Text.Search
import Docblock.Proofs.Text.Words

/-!
# A grammar of declarations

What a line must look like to be read as a declaration of each kind, written as
the texts it is put together from. A declaration may stand behind a beginning of
the line that says nothing; the name and the parameter list are parts of the
line, and blanks around them are not.
-/

namespace Docblock.Declaration

open Text

/-- Whether a text is an identifier. -/
def IsIdentifier (t : Text) : Prop :=
  ∃ c r, t = c :: r ∧ isIdentStart c = true ∧ ∀ d ∈ r, isIdentPart d = true

instance : DecidablePred IsIdentifier
  | [] => isFalse fun ⟨_, _, h, _⟩ => nomatch h
  | c :: r => decidable_of_iff (isIdentStart c = true ∧ r.all isIdentPart = true)
      ⟨fun h => ⟨c, r, rfl, h.1, List.all_eq_true.mp h.2⟩,
        fun ⟨_, _, h, hc⟩ => by cases h; exact ⟨hc.1, List.all_eq_true.mpr hc.2⟩⟩

/-- Whether a text is a star or nothing. -/
def IsStar (t : Text) : Prop := t = [] ∨ t = ['*']

/-- A text that starts with a name, a parameter list and the opening of a body,
with blanks around them: the name and the contents of the list. -/
inductive IsSignature (inside : Char → Bool) : Text → (name args : Text) → Prop
  | intro {front name between args behind rest : Text} (hfront : allBlank front = true)
      (hname : IsIdentifier name) (hbetween : allBlank between = true)
      (hargs : ∀ c ∈ args, inside c = true) (hbehind : allBlank behind = true) :
      IsSignature inside
        (front ++ (name ++ (between ++ '(' :: (args ++ ')' :: (behind ++ '{' :: rest))))) name args

/-- A text that starts with modifiers, a star or neither and a signature without
parentheses in its list: the name and the contents of the list. -/
inductive IsMethod : Text → (name args : Text) → Prop
  /-- A star may stand in front of the name. -/
  | plain {star signature name args : Text} (hstar : IsStar star)
      (hsignature : IsSignature (fun c => c ≠ '(' && c ≠ ')') signature name args) :
      IsMethod (star ++ signature) name args
  /-- Blanks follow a modifier. -/
  | modified {word gap rest name args : Text} (hword : word ∈ modifiers) (hgap : gap ≠ [])
      (hblank : allBlank gap = true) (hrest : IsMethod rest name args) :
      IsMethod (word ++ (gap ++ rest)) name args

/-- What follows the keyword of a class, and the name it gives. A brace opens the
body somewhere. A name has blanks in front of it and is as long as can be; a word
of its heritage is no name, and there is none where no name can start. -/
inductive IsClassBody : Text → Option Text → Prop
  | named {gap name rest : Text} (hgap : gap ≠ []) (hblank : allBlank gap = true)
      (hname : IsIdentifier name) (hend : ∀ c ∈ rest.head?, isIdentPart c = false)
      (hbrace : '{' ∈ rest) (hword : name ∉ heritageWords) :
      IsClassBody (gap ++ (name ++ rest)) (some name)
  | heritage {gap word rest : Text} (hgap : gap ≠ []) (hblank : allBlank gap = true)
      (hend : ∀ c ∈ rest.head?, isIdentPart c = false) (hbrace : '{' ∈ rest)
      (hword : word ∈ heritageWords) :
      IsClassBody (gap ++ (word ++ rest)) none
  | anonymous {rest : Text} (hbrace : '{' ∈ rest)
      (hname : ∀ gap c r, gap ≠ [] → allBlank gap = true → rest = gap ++ c :: r →
        isIdentStart c = false) :
      IsClassBody rest none

/-- The name bound by the left side of an equals sign: the last word in front of
the first colon that is no binding word, if there is one. -/
def IsBoundName (left : Text) : Option Text → Prop
  | some name => ∃ front back, IsWord (left.takeWhile (· ≠ ':')) front name back ∧
      name ∉ bindingWords ∧
      ∀ front' word back', IsWord back front' word back' → word ∈ bindingWords
  | none => ∀ front word back, IsWord (left.takeWhile (· ≠ ':')) front word back →
      word ∈ bindingWords

/-- The word that makes an arrow function asynchronous, with blanks behind it, or
nothing. -/
def IsAsync (t : Text) : Prop :=
  t = [] ∨ ∃ gap, t = "async".toList ++ gap ∧ allBlank gap = true

/-- The texts between the commas of a list, without the blanks around them. -/
inductive IsSeparated : Text → (parts : List Text) → Prop
  /-- There is no comma behind the last part. -/
  | last {piece part : Text} (hcomma : ',' ∉ piece) (hpart : TrimsTo piece part) :
      IsSeparated piece [part]
  /-- A part ends at the first comma. -/
  | more {piece part rest : Text} {parts : List Text} (hcomma : ',' ∉ piece)
      (hpart : TrimsTo piece part) (hrest : IsSeparated rest parts) :
      IsSeparated (piece ++ ',' :: rest) (part :: parts)

/-- The parameters in the contents of a list: a blank list has none, and any other
has one for each part between commas, a blank part included. -/
inductive IsParams : (args : Text) → (params : List Text) → Prop
  | blank {args : Text} (hblank : allBlank args = true) : IsParams args []
  | parts {args : Text} {params : List Text} (hsolid : ∃ c ∈ args, isBlank c = false)
      (hparts : IsSeparated args params) : IsParams args params

/-- The ways to read a line as a declaration of each kind, behind a text that it
starts with. -/
inductive Fits : DeclarationKind → (before line : Text) → Declaration → Prop
  /-- The keyword starts the line or stands behind a blank. -/
  | classBody {before rest : Text} {name : Option Text}
      (hbefore : ∀ c ∈ before.getLast?, isBlank c = true) (hend : startsWithWord rest = false)
      (hrest : IsClassBody rest name) :
      Fits .classBody before (before ++ ("class".toList ++ rest)) ⟨.classBody, name, []⟩
  /-- The keyword is not part of a word or a name and is followed by a signature,
  with a star in front of it or not. -/
  | function {before gap star signature name args : Text} {params : List Text}
      (hbefore : ∀ c ∈ before.getLast?, isWord c = false ∧ c ≠ '$' ∧ c ≠ '.')
      (hend : startsWithWord (gap ++ (star ++ signature)) = false)
      (hgap : allBlank gap = true) (hstar : IsStar star)
      (hsignature : IsSignature (· ≠ ')') signature name args) (hparams : IsParams args params) :
      Fits .function before (before ++ ("function".toList ++ (gap ++ (star ++ signature))))
        ⟨.function, some name, params⟩
  /-- The line starts with a method whose name opens no statement. -/
  | method {line name args : Text} {params : List Text} (hline : IsMethod line name args)
      (hname : name ∉ controlWords) (hparams : IsParams args params) :
      Fits .method [] line ⟨.method, some name, params⟩
  /-- The line is a left side, the first equals sign, a parameter list, an arrow
  and a body. -/
  | arrow {left gap front async args behind body rest : Text} {name : Option Text}
      {params : List Text} (hleft : '=' ∉ left) (hgap : allBlank gap = true)
      (hfront : allBlank front = true) (hasync : IsAsync async) (hargs : ')' ∉ args)
      (hbehind : allBlank behind = true) (hbody : allBlank body = true)
      (hname : IsBoundName left name) (hparams : IsParams args params) :
      Fits .arrow []
        (left ++ (gap ++ '=' :: (front ++ (async ++ '(' :: (args ++ ')' ::
          (behind ++ ("=>".toList ++ (body ++ '{' :: rest))))))))
        ⟨.arrow, name, params⟩

section Params

variable {args : Text} {params : List Text}

/-- The parts of a list are the trimmed pieces that its commas cut it into. -/
theorem IsSeparated.eq_map_trim (h : IsSeparated args params) :
    params = (splitOn ',' args).map trim := by
  induction h with
  | last hcomma hpart => rw [splitOn_of_not_mem hcomma, List.map_singleton, trimsTo_iff.mp hpart]
  | more hcomma hpart _ ih =>
    rw [splitOn_append_cons hcomma, List.map_cons, trimsTo_iff.mp hpart, ih]

/-- Every list has parts. The induction is on the length of the list, which
shrinks behind its first comma. -/
theorem exists_isSeparated (args : Text) : ∃ params, IsSeparated args params := by
  induction hlength : args.length using Nat.strong_induction_on generalizing args with
  | h n ih =>
    by_cases hcomma : ',' ∈ args
    · obtain ⟨piece, rest, rfl, hpiece⟩ := List.eq_append_cons_of_mem hcomma
      have hshort : rest.length < n := by
        rw [← hlength, List.length_append, List.length_cons]
        omega
      obtain ⟨params, hparams⟩ := ih rest.length hshort rest rfl
      exact ⟨_, .more hpiece (trimsTo_trim piece) hparams⟩
    · exact ⟨_, .last hcomma (trimsTo_trim args)⟩

/-- Cutting a list finds its parameters. -/
theorem isParams_iff : IsParams args params ↔ splitParams args = params := by
  rw [splitParams]
  constructor
  · rintro (hblank | ⟨⟨c, hm, hc⟩, hparts⟩)
    · rw [if_pos hblank]
    · have hsolid : ¬allBlank args = true := by
        intro hblank
        rw [List.all_eq_true.mp hblank c hm] at hc
        cases hc
      rw [if_neg hsolid, hparts.eq_map_trim]
  · rintro rfl
    split
    · rename_i hblank
      exact .blank hblank
    · rename_i hsolid
      obtain ⟨params, hparts⟩ := exists_isSeparated args
      rw [← hparts.eq_map_trim]
      refine .parts ?_ hparts
      simpa [allBlank] using hsolid

end Params

section Characters

variable {c : Char}

/-- A blank is no part of an identifier. -/
theorem isIdentPart_eq_false_of_isBlank (h : isBlank c = true) : isIdentPart c = false := by
  have hnone : blanks.any isIdentPart = false := by decide +kernel
  exact forall_eq_false_of_any hnone c (mem_blanks_of_isBlank h)

theorem isBlank_eq_false_of_isIdentPart (h : isIdentPart c = true) : isBlank c = false :=
  isBlank_eq_false_of_test (by decide +kernel) h

end Characters

end Docblock.Declaration
