import Docblock.Proofs.Declaration.Matches

/-!
# Keywords inside names

A keyword ends where no word character follows, and a dollar sign is none, though
it continues a name. So a keyword can be found at the start of a longer name, and
only there: a line opens a class exactly when one of its words starts in this way.
-/

namespace Docblock.Declaration

open Text

/-- The words that no binding can have as its name, in strict code either. -/
def reservedWords : List Text :=
  ["await".toList, "break".toList, "case".toList, "catch".toList, "class".toList, "const".toList,
    "continue".toList, "debugger".toList, "default".toList, "delete".toList, "do".toList,
    "else".toList, "enum".toList, "export".toList, "extends".toList, "false".toList,
    "finally".toList, "for".toList, "function".toList, "if".toList, "implements".toList,
    "import".toList, "in".toList, "instanceof".toList, "interface".toList, "let".toList,
    "new".toList, "null".toList, "package".toList, "private".toList, "protected".toList,
    "public".toList, "return".toList, "static".toList, "super".toList, "switch".toList,
    "this".toList, "throw".toList, "true".toList, "try".toList, "typeof".toList, "var".toList,
    "void".toList, "while".toList, "with".toList, "yield".toList]

/-- An identifier that can be the name of a binding. Every identifier of ASCII
characters is one unless it is reserved. -/
structure IsName (t : Text) : Prop where
  /-- It is an identifier. -/
  identifier : IsIdentifier t
  /-- It is not reserved. -/
  unreserved : t ∉ reservedWords

instance : DecidablePred IsName := fun t =>
  decidable_of_iff (IsIdentifier t ∧ t ∉ reservedWords)
    ⟨fun h => ⟨h.1, h.2⟩, fun h => ⟨h.identifier, h.unreserved⟩⟩

/-- Whether a text starts with a keyword. -/
def opensWith (word t : Text) : Bool := (keyword? word t).isSome

/-- A text opens with a word when the word stands there and ends there. -/
theorem opensWith_iff {word t : Text} :
    opensWith word t = true ↔ ∃ rest, t = word ++ rest ∧ startsWithWord rest = false := by
  rw [opensWith, Option.isSome_iff_exists]
  exact exists_congr fun _ => keyword?_eq_some_iff

/-- Of a name and what follows it, only the name can start with a keyword, and
then a dollar sign ends the keyword. -/
theorem opensWith_append_iff {word name rest : Text} (hword : word.all isIdentPart = true)
    (hname : IsIdentifier name) (hne : name ≠ word)
    (hrest : ∀ c ∈ rest.head?, isIdentPart c = false) :
    opensWith word (name ++ rest) = true ↔ word ++ ['$'] <+: name := by
  rw [opensWith_iff]
  constructor
  · rintro ⟨behind, hsplit, hend⟩
    have hcut : name = word ++ behind.takeWhile isIdentPart := by
      rw [← takeWhile_append_of_stop hname.parts hrest, hsplit,
        List.takeWhile_append_of_pos (List.all_eq_true.mp hword)]
    cases behind with
    | nil =>
      rw [List.takeWhile_nil, List.append_nil] at hcut
      exact absurd hcut hne
    | cons c r =>
      cases hc : isIdentPart c with
      | false =>
        rw [List.takeWhile_cons_of_neg (by simp [hc]), List.append_nil] at hcut
        exact absurd hcut hne
      | true =>
        have hdollar : c = '$' := by
          rw [startsWithWord] at hend
          rw [isIdentPart, hend, Bool.false_or, decide_eq_true_iff] at hc
          exact hc
        rw [List.takeWhile_cons_of_pos hc, hdollar] at hcut
        exact ⟨r.takeWhile isIdentPart, by rw [hcut, List.append_assoc]; rfl⟩
  · rintro ⟨r, rfl⟩
    have hdollar : isWord '$' = false := by decide
    exact ⟨'$' :: (r ++ rest), by simp only [List.append_assoc, List.cons_append, List.nil_append],
      hdollar⟩

section Classes

variable {line rest back : Text}

/-- A blank goes on as little as the end of the text. -/
theorem startsWithWord_append (hrest : startsWithWord rest = false)
    (hback : ∀ c ∈ back.head?, isBlank c = true) : startsWithWord (rest ++ back) = false := by
  cases rest with
  | cons c r => exact hrest
  | nil =>
    cases back with
    | nil => rfl
    | cons c r =>
      have hpart := isIdentPart_eq_false_of_isBlank (hback c rfl)
      rw [isIdentPart, Bool.or_eq_false_iff] at hpart
      exact hpart.1

/-- A line that ends with the brace of a body opens a class exactly when one of
its words starts with the keyword. -/
theorem exists_classBody_iff (hlast : line.getLast? = some '{') :
    (∃ declaration, ofLine? .classBody line = some declaration) ↔
      (words line).any (opensWith "class".toList) = true := by
  rw [exists_ofLine?_iff, List.any_eq_true]
  constructor
  · rintro ⟨before, declaration, hfits⟩
    cases hfits with
    | classBody hbefore hend hrest =>
      rename_i rest name
      have hword : IsWord (before ++ ("class".toList ++ rest)) before
          ("class".toList ++ rest.takeWhile (!isBlank ·)) (rest.dropWhile (!isBlank ·)) := by
        refine ⟨?_, List.cons_ne_nil _ _, ?_, hbefore, ?_⟩
        · rw [List.append_assoc, List.takeWhile_append_dropWhile]
        · intro c hm
          rcases List.mem_append.mp hm with hm | hm
          · exact forall_eq_false_of_any (by decide : "class".toList.any isBlank = false) c hm
          · simpa using List.mem_takeWhile_imp hm
        · intro c hc
          have hstop := List.head?_dropWhile_not (!isBlank ·) rest
          rw [Option.mem_def.mp hc] at hstop
          simpa using hstop
      refine ⟨_, mem_words_iff.mpr ⟨_, _, hword⟩, opensWith_iff.mpr ⟨_, rfl, ?_⟩⟩
      cases rest with
      | nil => rfl
      | cons c r =>
        rw [List.takeWhile_cons]
        split
        · exact hend
        · rfl
  · rintro ⟨word, hm, hopens⟩
    obtain ⟨front, back, hword⟩ := mem_words_iff.mp hm
    obtain ⟨rest, rfl, hend⟩ := opensWith_iff.mp hopens
    have hsplit := hword.split
    rw [List.append_assoc] at hsplit
    have hbrace : '{' ∈ rest ++ back := by
      rw [hsplit, List.getLast?_append, List.getLast?_append] at hlast
      cases hc : (rest ++ back).getLast? with
      | some c =>
        rw [hc] at hlast
        cases hlast
        exact List.mem_of_getLast? hc
      | none =>
        rw [hc] at hlast
        cases hlast
    rw [hsplit]
    exact ⟨front, _, .classBody hword.blankBefore (startsWithWord_append hend hword.blankBehind)
      (isClassBody_iff.mpr ⟨hbrace, rfl⟩)⟩

end Classes

end Docblock.Declaration
