import Docblock.Proofs.Declaration.Keywords

/-!
# Ordinary lines

The plainest line of each kind, with a name and a list of names for parameters. The
parameters are read back from the list, and the words of the line are the names
with what stands right next to them.
-/

namespace Docblock.Declaration

open Text

/-- Names between commas. -/
def nameList (names : List Text) : Text := joinWith ", ".toList names

/-- A class with a name and nothing else. -/
def classLine (name : Text) : Text := "class ".toList ++ (name ++ " \x7b".toList)

/-- A method with a name and parameters. -/
def methodLine (name : Text) (params : List Text) : Text :=
  name ++ '(' :: (nameList params ++ ") \x7b".toList)

/-- A function with a name and parameters. -/
def functionLine (name : Text) (params : List Text) : Text :=
  "function ".toList ++ methodLine name params

/-- An arrow function bound to a name. -/
def arrowLine (name : Text) (params : List Text) : Text :=
  "const ".toList ++ (name ++ (" = ".toList ++ '(' :: (nameList params ++ ") => \x7b".toList)))

section Ends

theorem getLast?_methodLine (name : Text) (params : List Text) :
    (methodLine name params).getLast? = some '{' := by
  have hsplit : methodLine name params =
      name ++ '(' :: (nameList params ++ [')', ' ']) ++ ['{'] := by
    unfold methodLine
    simp only [String.reduceToList, List.append_assoc, List.cons_append, List.nil_append]
  rw [hsplit, List.getLast?_concat]

theorem getLast?_functionLine (name : Text) (params : List Text) :
    (functionLine name params).getLast? = some '{' := by
  have hne : methodLine name params ≠ [] :=
    List.append_ne_nil_of_right_ne_nil _ (List.cons_ne_nil _ _)
  unfold functionLine
  rw [List.getLast?_append_of_ne_nil _ hne, getLast?_methodLine]

theorem getLast?_arrowLine (name : Text) (params : List Text) :
    (arrowLine name params).getLast? = some '{' := by
  have hsplit : arrowLine name params = "const ".toList ++ (name ++ (" = (".toList ++
      (nameList params ++ ") => ".toList))) ++ ['{'] := by
    unfold arrowLine
    simp only [String.reduceToList, List.append_assoc, List.cons_append, List.nil_append]
  rw [hsplit, List.getLast?_concat]

end Ends

section Lists

variable {name : Text} {names : List Text} {c : Char}

/-- Nothing is trimmed off an identifier. -/
theorem IsIdentifier.trim_eq (h : IsIdentifier name) : trim name = name :=
  trim_of_solid h.solid

/-- A comma and a blank stand between two names. -/
theorem nameList_cons_cons (first second : Text) (rest : List Text) :
    nameList (first :: second :: rest) = first ++ ',' :: ' ' :: nameList (second :: rest) := by
  rw [nameList, joinWith_cons_cons, List.append_assoc]
  rfl

/-- A list of names holds only their characters, commas and blanks. -/
theorem not_mem_nameList (h : ∀ name ∈ names, IsIdentifier name) (hc : isIdentPart c = false)
    (hseparator : c ∉ [',', ' ']) : c ∉ nameList names := by
  induction names with
  | nil => exact List.not_mem_nil
  | cons first rest ih =>
    rw [List.forall_mem_cons] at h
    cases rest with
    | nil => exact h.1.not_mem hc
    | cons second rest =>
      have hsplit : nameList (first :: second :: rest) =
          first ++ ([',', ' '] ++ nameList (second :: rest)) := nameList_cons_cons first second rest
      rw [hsplit]
      exact List.not_mem_append (h.1.not_mem hc) (List.not_mem_append hseparator (ih h.2))

/-- A method holds only the characters of its names and a few others. -/
theorem not_mem_methodLine (hname : IsIdentifier name) (h : ∀ param ∈ names, IsIdentifier param)
    (hc : isIdentPart c = false) (hother : c ∉ [',', ' ', '(', ')', '{']) :
    c ∉ methodLine name names := by
  simp only [List.mem_cons, List.not_mem_nil, or_false, not_or] at hother
  obtain ⟨hcomma, hblank, hopen, hclose, hbrace⟩ := hother
  have hlist : c ∉ nameList names := not_mem_nameList h hc (by simp [hcomma, hblank])
  have hend : c ∉ ") \x7b".toList := by simp [hclose, hblank, hbrace]
  exact List.not_mem_append (hname.not_mem hc)
    (List.not_mem_cons_of_ne_of_not_mem hopen (List.not_mem_append hlist hend))

/-- A list of names is cut into the names, whatever blanks stand in front of it. -/
theorem map_trim_splitOn {gap : Text} (hgap : allBlank gap = true) (hne : names ≠ [])
    (h : ∀ name ∈ names, IsIdentifier name) :
    (splitOn ',' (gap ++ nameList names)).map trim = names := by
  induction names generalizing gap with
  | nil => exact absurd rfl hne
  | cons first rest ih =>
    rw [List.forall_mem_cons] at h
    have hcomma : ',' ∉ gap ++ first :=
      List.not_mem_append (not_mem_of_allBlank hgap (by decide)) (h.1.not_mem (by decide))
    have htrim : trim (gap ++ first) = first := by
      rw [trim_append_of_blank (List.all_eq_true.mp hgap), h.1.trim_eq]
    cases rest with
    | nil =>
      have hlist : nameList [first] = first := rfl
      rw [hlist, splitOn_of_not_mem hcomma, List.map_singleton, htrim]
    | cons second rest =>
      have hspace : allBlank [' '] = true := by decide
      have hrest := ih hspace (List.cons_ne_nil second rest) h.2
      rw [nameList_cons_cons, ← List.append_assoc, splitOn_append_cons hcomma, List.map_cons, htrim]
      exact congrArg _ hrest

/-- A list of names is read as these names. -/
theorem splitParams_nameList (h : ∀ name ∈ names, IsIdentifier name) :
    splitParams (nameList names) = names := by
  cases names with
  | nil => rfl
  | cons first rest =>
    have hfirst : ∃ r, nameList (first :: rest) = first ++ r := by
      cases rest with
      | nil => exact ⟨[], (List.append_nil first).symm⟩
      | cons second rest => exact ⟨_, nameList_cons_cons first second rest⟩
    have hsolid : allBlank (nameList (first :: rest)) = false := by
      obtain ⟨r, hr⟩ := hfirst
      obtain ⟨c, s, hc⟩ := List.exists_cons_of_ne_nil (h first List.mem_cons_self).ne_nil
      rw [hr, hc, List.cons_append, allBlank, List.all_cons,
        (h first List.mem_cons_self).solid c (hc ▸ List.mem_cons_self), Bool.false_and]
    rw [splitParams, hsolid]
    exact map_trim_splitOn (rfl : allBlank [] = true) (List.cons_ne_nil first rest) h

end Lists

section Words

variable {name front : Text} {names params : List Text}

/-- What stands between a name and the blanks behind it in a list that is closed. -/
def behindName : (later : List Text) → Text
  | [] => [')']
  | _ :: _ => [',']

/-- The words of a list of names with the parenthesis that closes it. -/
def listWords : List Text → List Text
  | [] => []
  | first :: rest => (first ++ behindName rest) :: listWords rest

/-- What stands in front of a list without blanks is part of its first word. -/
theorem words_nameList {first : Text} (hfront : ∀ c ∈ front, isBlank c = false)
    (h : ∀ name ∈ first :: names, IsIdentifier name) :
    words (front ++ (nameList (first :: names) ++ [')'])) =
      (front ++ (first ++ behindName names)) :: listWords names := by
  induction names generalizing front first with
  | nil =>
    rw [List.forall_mem_cons] at h
    have hlist : nameList [first] = first := rfl
    rw [hlist]
    apply words_of_solid
    · exact List.append_ne_nil_of_right_ne_nil _ (List.append_ne_nil_of_left_ne_nil h.1.ne_nil _)
    · exact List.forall_mem_append.mpr ⟨hfront, List.forall_mem_append.mpr
        ⟨h.1.solid, List.forall_mem_singleton.mpr (by decide)⟩⟩
  | cons second rest ih =>
    rw [List.forall_mem_cons] at h
    have hsolid : ∀ c ∈ front ++ (first ++ [',']), isBlank c = false :=
      List.forall_mem_append.mpr ⟨hfront, List.forall_mem_append.mpr
        ⟨h.1.solid, List.forall_mem_singleton.mpr (by decide)⟩⟩
    have hsplit : front ++ (nameList (first :: second :: rest) ++ [')']) =
        (front ++ (first ++ [','])) ++ ' ' :: ([] ++ (nameList (second :: rest) ++ [')'])) := by
      rw [nameList_cons_cons]
      simp only [List.append_assoc, List.cons_append, List.nil_append]
    have hne : front ++ (first ++ [',']) ≠ [] :=
      List.append_ne_nil_of_right_ne_nil _ (List.append_ne_nil_of_left_ne_nil h.1.ne_nil _)
    rw [hsplit, words_append_cons_of_blank (by decide), words_of_solid hne hsolid,
      ih (fun _ hm => absurd hm List.not_mem_nil) h.2]
    rfl

/-- The parenthesis that opens a list is part of a word with what stands around it. -/
theorem exists_words_call (hfront : ∀ c ∈ front, isBlank c = false)
    (h : ∀ name ∈ names, IsIdentifier name) :
    ∃ r, words (front ++ '(' :: (nameList names ++ [')'])) =
      (front ++ '(' :: r) :: listWords names.tail := by
  cases names with
  | nil =>
    refine ⟨[')'], words_of_solid (List.append_ne_nil_of_right_ne_nil _ (List.cons_ne_nil _ _)) ?_⟩
    exact List.forall_mem_append.mpr ⟨hfront, forall_eq_false_of_any (by decide)⟩
  | cons first rest =>
    have hopen : ∀ c ∈ front ++ ['('], isBlank c = false :=
      List.forall_mem_append.mpr ⟨hfront, List.forall_mem_singleton.mpr (by decide)⟩
    have hwords := words_nameList hopen h
    rw [List.append_assoc, List.append_assoc] at hwords
    exact ⟨_, hwords⟩

/-- A name that starts with the keyword of a class is not that keyword. -/
theorem opensWith_class_iff {rest : Text} (h : IsName name)
    (hrest : ∀ c ∈ rest.head?, isIdentPart c = false) :
    opensWith "class".toList (name ++ rest) = true ↔ "class$".toList <+: name := by
  apply opensWith_append_iff (by decide) h.identifier _ hrest
  rintro rfl
  exact h.unreserved (by decide)

/-- Of the words of a list those start with the keyword of a class that are longer
names. -/
theorem any_listWords (h : ∀ name ∈ names, IsName name) :
    (listWords names).any (opensWith "class".toList) = true ↔
      ∃ name ∈ names, "class$".toList <+: name := by
  induction names with
  | nil => simp [listWords]
  | cons first rest ih =>
    rw [List.forall_mem_cons] at h
    have hrest : ∀ c ∈ (behindName rest).head?, isIdentPart c = false := by
      cases rest with
      | nil =>
        rintro c ⟨⟩
        decide
      | cons second rest =>
        rintro c ⟨⟩
        decide
    rw [listWords, List.any_cons, Bool.or_eq_true, opensWith_class_iff h.1 hrest, ih h.2,
      List.exists_mem_cons_iff]

/-- The words of a line with a list of names open a class exactly when the name in
front of the list does, or one behind the first comma. -/
theorem any_words_methodLine (hname : IsName name) (h : ∀ param ∈ params, IsName param) :
    (words (methodLine name params)).any (opensWith "class".toList) = true ↔
      ∃ word ∈ name :: params.tail, "class$".toList <+: word := by
  have hsplit : methodLine name params =
      name ++ '(' :: (nameList params ++ [')']) ++ ' ' :: ['{'] := by
    unfold methodLine
    simp only [String.reduceToList, List.append_assoc, List.cons_append, List.nil_append]
  obtain ⟨r, hr⟩ := exists_words_call hname.identifier.solid fun param hm => (h param hm).identifier
  have hbrace : (words ['{']).any (opensWith "class".toList) = false := by decide
  have hparen : ∀ c ∈ ('(' :: r).head?, isIdentPart c = false := by
    rintro c ⟨⟩
    decide
  rw [hsplit, words_append_cons_of_blank (by decide), hr, List.any_append, hbrace, Bool.or_false,
    List.any_cons, Bool.or_eq_true, opensWith_class_iff hname hparen,
    any_listWords fun param hm => h param (List.mem_of_mem_tail hm), List.exists_mem_cons_iff]

/-- The keyword of a function is no word that opens with the keyword of a class. -/
theorem any_words_functionLine (name : Text) (params : List Text) :
    (words (functionLine name params)).any (opensWith "class".toList) =
      (words (methodLine name params)).any (opensWith "class".toList) := by
  have hsplit : functionLine name params = "function".toList ++ ' ' :: methodLine name params := rfl
  have hfunction : (words "function".toList).any (opensWith "class".toList) = false := by decide
  rw [hsplit, words_append_cons_of_blank (by decide), List.any_append, hfunction, Bool.false_or]

/-- A word of the line of an arrow function opens with the keyword of a class exactly when a
name does that stands at the start of a word and goes on with a dollar sign. -/
theorem any_words_arrowLine (hname : IsName name) (h : ∀ param ∈ params, IsName param) :
    (words (arrowLine name params)).any (opensWith "class".toList) = true ↔
      ∃ word ∈ name :: params.tail, "class$".toList <+: word := by
  have hsplit : arrowLine name params = "const".toList ++ ' ' :: (name ++ ' ' :: (['='] ++ ' ' ::
      ([] ++ '(' :: (nameList params ++ [')']) ++ ' ' :: "=> \x7b".toList))) := by
    unfold arrowLine
    simp only [String.reduceToList, List.append_assoc, List.cons_append, List.nil_append]
  obtain ⟨r, hr⟩ := @exists_words_call [] params (fun _ hm => absurd hm List.not_mem_nil)
    fun param hm => (h param hm).identifier
  have hconst : (words "const".toList).any (opensWith "class".toList) = false := by decide
  have hequals : (words ['=']).any (opensWith "class".toList) = false := by decide
  have harrow : (words "=> \x7b".toList).any (opensWith "class".toList) = false := by decide
  have hparen : opensWith "class".toList ([] ++ '(' :: r) = false := rfl
  have hself : opensWith "class".toList name = true ↔ "class$".toList <+: name := by
    rw [← List.append_nil name, opensWith_class_iff hname (by simp), List.append_nil]
  rw [hsplit, words_append_cons_of_blank (by decide), words_append_cons_of_blank (by decide),
    words_append_cons_of_blank (by decide), words_append_cons_of_blank (by decide), hr,
    words_of_solid hname.identifier.ne_nil hname.identifier.solid]
  simp only [List.any_append, List.any_cons, List.any_nil, hconst, hequals, harrow, hparen,
    Bool.or_false, Bool.false_or]
  rw [Bool.or_eq_true, hself, any_listWords fun param hm => h param (List.mem_of_mem_tail hm),
    List.exists_mem_cons_iff]

end Words

end Docblock.Declaration
