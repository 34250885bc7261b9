import Docblock.Comment.Tag
import Docblock.Proofs.Declaration.Grammar
import Docblock.Scan.Basic

/-!
# Where the tags of a line are

The tags of a line are those of the pieces behind its at signs, one for each piece
that starts with the word of a tag. They are also what a search for the pattern of
a tag finds from the left, when it goes on behind each match: the value of a match
ends in front of the next at sign, so no match hides another.
-/

namespace Docblock.Tag

open Text
open Scan (closer)

/-! ## Values -/

/-- A text with some closers behind it. -/
def withClosers (t : Text) (count : Nat) : Text := t ++ (List.replicate count closer).flatten

/-- Closers can be added one at a time at the end. -/
theorem withClosers_succ (t : Text) (count : Nat) :
    withClosers t (count + 1) = withClosers t count ++ closer := by
  simp [withClosers, List.replicate_succ']

/-- A closer at the end is dropped. -/
theorem dropClosers_append_closer (t : Text) : dropClosers (t ++ closer) = dropClosers t := by
  rw [dropClosers, List.reverse_append]
  rfl

/-- A text that does not end in a closer keeps its end. -/
theorem dropClosers_of_not_suffix {t : Text} (h : ¬closer <:+ t) : dropClosers t = t := by
  rw [dropClosers, dropClosersBackwards.eq_def]
  split
  · rename_i r hr
    rw [List.reverse_eq_iff] at hr
    exact absurd ⟨r.reverse, by rw [hr]; simp [closer]⟩ h
  · rw [List.reverse_reverse]

/-- All closers at the end are dropped, and nothing else. -/
theorem dropClosers_withClosers {body : Text} (h : ¬closer <:+ body) (count : Nat) :
    dropClosers (withClosers body count) = body := by
  induction count with
  | zero =>
    rw [withClosers, List.replicate_zero, List.flatten_nil, List.append_nil,
      dropClosers_of_not_suffix h]
  | succ count ih => rw [withClosers_succ, dropClosers_append_closer, ih]

/-- Every text is one that does not end in a closer, with some closers behind it. -/
theorem exists_withClosers (t : Text) :
    ∃ body count, t = withClosers body count ∧ ¬closer <:+ body := by
  by_cases h : closer <:+ t
  · obtain ⟨s, hs⟩ := h
    have hshorter : s.length < t.length := by
      rw [← hs, List.length_append]
      exact Nat.lt_add_of_pos_right (by decide)
    obtain ⟨body, count, hbody, hend⟩ := exists_withClosers s
    exact ⟨body, count + 1, by rw [withClosers_succ, ← hbody, hs], hend⟩
  · exact ⟨t, 0, by simp [withClosers], h⟩
termination_by t.length

/-- Whether a tag has this value when this text stands behind its word: the text is
trimmed, loses the closers at its end and is trimmed again. -/
def IsValue (rest value : Text) : Prop :=
  ∃ body count, trim rest = withClosers body count ∧ ¬closer <:+ body ∧ value = trim body

/-- The value of a tag is what is left of the text behind it, without closers at the end and
blanks. -/
theorem isValue_iff {rest value : Text} :
    IsValue rest value ↔ value = trim (dropClosers (trim rest)) := by
  constructor
  · rintro ⟨body, count, hrest, hbody, rfl⟩
    rw [hrest, dropClosers_withClosers hbody]
  · rintro rfl
    obtain ⟨body, count, hrest, hbody⟩ := exists_withClosers (trim rest)
    exact ⟨body, count, hrest, hbody, by rw [hrest, dropClosers_withClosers hbody]⟩

/-! ## Words -/

/-- The kind of tag that a word makes. -/
def kindOf? (word : Text) : Option TagKind :=
  if word = "method".toList then some .method
  else if word = "param".toList then some .param
  else if word = "returns".toList ∨ word = "return".toList then some .returns
  else none

/-- The kind of a tag is looked up by its word. -/
theorem kindOf?_eq_some_iff {word : Text} {kind : TagKind} :
    kindOf? word = some kind ↔ (word, kind) ∈ keywords := by
  rw [kindOf?]
  constructor
  · intro h
    split at h
    · cases h
      subst word
      decide
    · split at h
      · cases h
        subst word
        decide
      · split at h
        · rename_i hword
          cases h
          rcases hword with rfl | rfl <;> decide
        · cases h
  · intro h
    simp only [keywords, List.mem_cons, List.not_mem_nil, or_false, Prod.mk.injEq] at h
    rcases h with ⟨rfl, rfl⟩ | ⟨rfl, rfl⟩ | ⟨rfl, rfl⟩ | ⟨rfl, rfl⟩ <;> decide

/-- The words of tags have only word characters. -/
theorem isWord_of_mem_keywords {word : Text} {kind : TagKind} (h : (word, kind) ∈ keywords) :
    ∀ c ∈ word, isWord c = true := by
  have hall : ∀ entry ∈ keywords, entry.1.all isWord = true := by decide
  exact List.all_eq_true.mp (hall (word, kind) h)

/-- A keyword of word characters is the whole word that a text starts with. -/
theorem keyword?_eq_ite {word : Text} (hw : ∀ c ∈ word, isWord c = true) (t : Text) :
    keyword? word t =
      if t.takeWhile isWord = word then some (t.dropWhile isWord) else none := by
  by_cases h : t.takeWhile isWord = word
  · rw [if_pos h, keyword?_eq_some_iff, ← h]
    exact ⟨List.takeWhile_append_dropWhile.symm,
      startsWithWord_eq_false_iff.mpr (head_dropWhile isWord t)⟩
  · rw [if_neg h, Option.eq_none_iff_forall_ne_some]
    intro rest hrest
    obtain ⟨rfl, hend⟩ := keyword?_eq_some_iff.mp hrest
    exact h (takeWhile_append_of_stop hw (startsWithWord_eq_false_iff.mp hend))

/-- What stands behind an at sign is read by the word it starts with. -/
theorem behindAt?_eq (t : Text) :
    behindAt? t =
      (kindOf? (t.takeWhile isWord)).map fun kind => ⟨kind, valueOf (t.dropWhile isWord)⟩ := by
  have hread {word : Text} {kind : TagKind} (hm : (word, kind) ∈ keywords) :
      ((keyword? word t).map fun rest => (⟨kind, valueOf rest⟩ : Tag)) =
        if t.takeWhile isWord = word then some ⟨kind, valueOf (t.dropWhile isWord)⟩ else none := by
    rw [keyword?_eq_ite (isWord_of_mem_keywords hm)]
    split <;> rfl
  have hmethod : ("method".toList, TagKind.method) ∈ keywords := by decide
  have hparam : ("param".toList, TagKind.param) ∈ keywords := by decide
  have hreturns : ("returns".toList, TagKind.returns) ∈ keywords := by decide
  have hreturn : ("return".toList, TagKind.returns) ∈ keywords := by decide
  rw [behindAt?, keywords, List.findSome?_cons, List.findSome?_cons, List.findSome?_cons,
    List.findSome?_cons, List.findSome?_nil, kindOf?]
  dsimp only
  rw [hread hmethod, hread hparam, hread hreturns, hread hreturn]
  generalize t.takeWhile isWord = word
  by_cases hm : word = "method".toList
  · rw [if_pos hm, if_pos hm]
    rfl
  · rw [if_neg hm, if_neg hm]
    by_cases hp : word = "param".toList
    · rw [if_pos hp, if_pos hp]
      rfl
    · rw [if_neg hp, if_neg hp]
      by_cases hr : word = "returns".toList <;> by_cases hr' : word = "return".toList <;>
        simp only [hr, hr', if_true, if_false, true_or, or_true, or_self] <;> rfl

/-! ## Pieces -/

/-- The tag of a piece that stands behind an at sign: the word that the piece starts
with makes it a tag, and the value is what is left of the rest. -/
def ofPiece? (piece : Text) : Option Tag :=
  (kindOf? (piece.takeWhile isWord)).map fun kind =>
    ⟨kind, trim (dropClosers (trim (piece.dropWhile isWord)))⟩

/-- The tags of the pieces behind the at signs of a line. -/
def ofPieces (line : Text) : List Tag := (splitOn '@' line).tail.filterMap ofPiece?

/-- A piece is a tag exactly when it starts with one of the words, which ends there,
and the tag has the value of the rest. -/
theorem ofPiece?_eq_some_iff {piece : Text} {tag : Tag} :
    ofPiece? piece = some tag ↔
      ∃ word rest, (word, tag.kind) ∈ keywords ∧ piece = word ++ rest ∧
        (∀ c ∈ rest.head?, isWord c = false) ∧ IsValue rest tag.value := by
  rw [ofPiece?, Option.map_eq_some_iff]
  constructor
  · rintro ⟨kind, hkind, rfl⟩
    exact ⟨piece.takeWhile isWord, piece.dropWhile isWord, kindOf?_eq_some_iff.mp hkind,
      List.takeWhile_append_dropWhile.symm, head_dropWhile isWord piece, isValue_iff.mpr rfl⟩
  · rintro ⟨word, rest, hword, rfl, hend, hvalue⟩
    have hsolid := isWord_of_mem_keywords hword
    refine ⟨tag.kind, ?_, ?_⟩
    · rw [takeWhile_append_of_stop hsolid hend]
      exact kindOf?_eq_some_iff.mpr hword
    · rw [dropWhile_append_of_stop hsolid hend, ← isValue_iff.mp hvalue]

/-- An at sign ends a word. -/
theorem isWord_at : isWord '@' = false := by decide

/-- Only what stands in front of the next at sign matters to a tag. -/
theorem behindAt?_append {t next : Text} (hnext : ∀ c ∈ next.head?, c = '@') (ht : '@' ∉ t) :
    behindAt? (t ++ next) = ofPiece? t := by
  have hword : ∀ c ∈ next.head?, isWord c = false := by
    intro c hc
    rw [hnext c hc]
    exact isWord_at
  have hvalue : valueOf (t.dropWhile isWord ++ next) =
      trim (dropClosers (trim (t.dropWhile isWord))) := by
    have htake : (t.dropWhile isWord ++ next).takeWhile (· ≠ '@') = t.dropWhile isWord := by
      apply takeWhile_append_of_stop
      · intro c hc
        rw [decide_eq_true_iff]
        rintro rfl
        exact ht ((List.dropWhile_sublist isWord).subset hc)
      · intro c hc
        rw [hnext c hc]
        rfl
    rw [valueOf, htake]
  rw [behindAt?_eq, ofPiece?, takeWhile_append_of_head hword, dropWhile_append_of_head hword,
    hvalue]

/-- A tag reaches at most to the next at sign. -/
theorem behindAt?_eq_ofPiece? (t : Text) : behindAt? t = ofPiece? (t.takeWhile (· ≠ '@')) := by
  have h := behindAt?_append (head_dropWhile_ne '@' t) (not_mem_takeWhile_ne '@' t)
  rwa [List.takeWhile_append_dropWhile] at h

/-- The tags of a line are those of its pieces. -/
theorem all_eq_ofPieces (line : Text) : all line = ofPieces line := by
  induction line with
  | nil => rfl
  | cons c r ih =>
    rw [all, ofPieces, splitOn]
    by_cases hc : c = '@'
    · rw [if_pos hc, if_pos hc, List.tail_cons, splitOn_eq_cons, List.filterMap_cons, ← ofPieces,
        ← ih, ← behindAt?_eq_ofPiece?]
      cases behindAt? r with
      | none => rfl
      | some tag => rfl
    · rw [if_neg hc, if_neg hc, ih, ofPieces, splitOn_eq_cons]
      rfl

/-! ## Tags of parts of a line -/

/-- A line has no tags in front of its first at sign. -/
theorem all_append_of_not_mem {t : Text} (ht : '@' ∉ t) (next : Text) :
    all (t ++ next) = all next := by
  induction t with
  | nil => rfl
  | cons c r ih =>
    rw [List.mem_cons, not_or] at ht
    rw [List.cons_append, all, if_neg (Ne.symm ht.1), ih ht.2]

/-- Every tag starts with an at sign. -/
theorem all_of_not_mem {t : Text} (ht : '@' ∉ t) : all t = [] := by
  have h := all_append_of_not_mem ht []
  rwa [List.append_nil] at h

/-- There is no at sign in a word. -/
theorem not_mem_of_isWord {word : Text} (h : ∀ c ∈ word, isWord c = true) : '@' ∉ word := by
  intro hm
  have hword := h '@' hm
  rw [isWord_at] at hword
  cases hword

/-- The word of a tag behind an at sign makes one tag of the text up to the next one. -/
theorem all_at_append {word rest next : Text} {kind : TagKind} (hword : (word, kind) ∈ keywords)
    (hend : ∀ c ∈ rest.head?, isWord c = false) (hrest : '@' ∉ rest)
    (hnext : ∀ c ∈ next.head?, c = '@') :
    all ('@' :: (word ++ rest ++ next)) = ⟨kind, trim (dropClosers (trim rest))⟩ :: all next := by
  have hpiece : '@' ∉ word ++ rest := by
    rw [List.mem_append, not_or]
    exact ⟨not_mem_of_isWord (isWord_of_mem_keywords hword), hrest⟩
  have htag : ofPiece? (word ++ rest) = some ⟨kind, trim (dropClosers (trim rest))⟩ :=
    ofPiece?_eq_some_iff.mpr ⟨word, rest, hword, rfl, hend, isValue_iff.mpr rfl⟩
  rw [all, if_pos rfl, behindAt?_append hnext hpiece, htag, all_append_of_not_mem hpiece]
  rfl

/-- A word that makes no tag is passed over. -/
theorem all_at_of_kindOf?_eq_none {word rest : Text} (hword : ∀ c ∈ word, isWord c = true)
    (hend : ∀ c ∈ rest.head?, isWord c = false) (hkind : kindOf? word = none) :
    all ('@' :: (word ++ rest)) = all rest := by
  rw [all, if_pos rfl, behindAt?_eq, takeWhile_append_of_stop hword hend, hkind,
    all_append_of_not_mem (not_mem_of_isWord hword)]
  rfl

section Blank

variable {b : Text} (hb : ∀ c ∈ b, isBlank c = true)

include hb

/-- There is no at sign among blanks. -/
theorem not_mem_of_blank : '@' ∉ b := by
  intro hm
  have hblank := hb '@' hm
  have hnot : isBlank '@' = false := by decide
  rw [hnot] at hblank
  cases hblank

/-- Blanks behind a line do not change the value of its last tag. -/
theorem valueOf_append_blank (t : Text) : valueOf (t ++ b) = valueOf t := by
  rw [valueOf, valueOf, List.takeWhile_append]
  split
  · rename_i hall
    have htake : t.takeWhile (· ≠ '@') = t :=
      (List.takeWhile_prefix (· ≠ '@')).eq_of_length hall
    have hblank : ∀ c ∈ b.takeWhile (· ≠ '@'), isBlank c = true :=
      fun c hc => hb c ((List.takeWhile_sublist _).subset hc)
    rw [trim_append_blank hblank, htake]
  · rfl

/-- Nor do they change whether a tag is read there. -/
theorem behindAt?_append_blank (t : Text) : behindAt? (t ++ b) = behindAt? t := by
  have hword : ∀ c ∈ b.head?, isWord c = false := by
    intro c hc
    have hpart := Declaration.isIdentPart_eq_false_of_isBlank (hb c (List.mem_of_mem_head? hc))
    exact (Bool.or_eq_false_iff.mp hpart).1
  rw [behindAt?_eq, behindAt?_eq, takeWhile_append_of_head hword, dropWhile_append_of_head hword]
  exact congrArg (Option.map · _) (funext fun kind => by rw [valueOf_append_blank hb])

/-- Blanks behind a line change none of its tags. -/
theorem all_append_blank (t : Text) : all (t ++ b) = all t := by
  induction t with
  | nil => exact all_of_not_mem (not_mem_of_blank hb)
  | cons c r ih => rw [List.cons_append, all, all, ih, behindAt?_append_blank hb]

end Blank

/-- The tags of a line are those of its trimmed text. -/
theorem all_trim (t : Text) : all (trim t) = all t := by
  obtain ⟨a, b, ha, hb, ht⟩ := exists_eq_append_trim_append t
  nth_rewrite 2 [ht]
  rw [all_append_of_not_mem (not_mem_of_blank ha), all_append_blank hb]

/-! ## Searching from the left -/

/-- A text that starts with a match of the pattern of a tag, with the kind of the tag,
the value and the text behind the match. An at sign and a word that ends there come
first; the blanks and then the value go on as long as they can. -/
inductive IsMatch : Text → TagKind → (value rest : Text) → Prop
  | intro {word gap value rest : Text} {kind : TagKind} (hword : (word, kind) ∈ keywords)
      (hend : ∀ c ∈ (gap ++ (value ++ rest)).head?, isWord c = false)
      (hgap : allBlank gap = true) (hsolid : ∀ c ∈ value.head?, isBlank c = false)
      (hvalue : '@' ∉ value) (hrest : ∀ c ∈ rest.head?, c = '@') :
      IsMatch ('@' :: (word ++ (gap ++ (value ++ rest)))) kind value rest

/-- Whether a text starts with a match. -/
def Matches (t : Text) : Prop := ∃ kind value rest, IsMatch t kind value rest

/-- The tags that a search finds from the left: those of the first match and of the
text behind it, or none where no match starts at any place. -/
inductive Finds : Text → List Tag → Prop
  | none {t : Text} (hnone : ∀ front back, t = front ++ back → ¬Matches back) : Finds t []
  | some {front t value rest : Text} {kind : TagKind} {tags : List Tag}
      (hfirst : ∀ front' back, front ++ t = front' ++ back → front'.length < front.length →
        ¬Matches back)
      (hmatch : IsMatch t kind value rest) (hrest : Finds rest tags) :
      Finds (front ++ t) (⟨kind, trim (dropClosers (trim value))⟩ :: tags)

theorem not_matches_nil : ¬Matches [] := fun ⟨_, _, _, h⟩ => nomatch h

section IsMatch

variable {t value rest : Text} {kind : TagKind}

/-- A tag takes text away, so that the search for the next one ends. -/
theorem IsMatch.length_lt (h : IsMatch t kind value rest) : rest.length < t.length := by
  cases h
  simp only [List.length_cons, List.length_append]
  omega

/-- The tags of a text that starts with a match are the tag of the match and those of
the text behind it. -/
theorem IsMatch.all_eq (h : IsMatch t kind value rest) :
    all t = ⟨kind, trim (dropClosers (trim value))⟩ :: all rest := by
  cases h with
  | @intro word gap _ _ _ hword hend hgap hsolid hvalue hrest =>
    have hpiece : '@' ∉ gap ++ value := by
      rw [List.mem_append, not_or]
      exact ⟨not_mem_of_blank (List.all_eq_true.mp hgap), hvalue⟩
    have hboundary : ∀ c ∈ (gap ++ value).head?, isWord c = false := by
      intro c hc
      refine hend c ?_
      rw [← List.append_assoc, List.head?_append, Option.mem_def.mp hc]
      rfl
    have hsplit : word ++ (gap ++ (value ++ rest)) = word ++ (gap ++ value) ++ rest := by
      simp only [List.append_assoc]
    rw [hsplit, all_at_append hword hboundary hpiece hrest,
      trim_append_of_blank (List.all_eq_true.mp hgap)]

end IsMatch

/-- A tag behind an at sign makes a match. -/
theorem matches_of_behindAt? {r : Text} {tag : Tag} (h : behindAt? r = some tag) :
    Matches ('@' :: r) := by
  have hat : '@' ∉ r.takeWhile (· ≠ '@') := not_mem_takeWhile_ne '@' r
  have hnext := head_dropWhile_ne '@' r
  have hr : r = r.takeWhile (· ≠ '@') ++ r.dropWhile (· ≠ '@') :=
    List.takeWhile_append_dropWhile.symm
  rw [behindAt?_eq_ofPiece?] at h
  obtain ⟨word, rest, hword, hpiece, hend, _⟩ := ofPiece?_eq_some_iff.mp h
  generalize r.dropWhile (· ≠ '@') = next at hnext hr
  rw [hpiece, List.mem_append, not_or] at hat
  have hvalue : '@' ∉ trimStart rest := fun hm => hat.2 ((trimStart_suffix rest).subset hm)
  have hsplit : word ++ rest ++ next = word ++ (indent rest ++ (trimStart rest ++ next)) := by
    rw [← List.append_assoc (indent rest), indent_append_trimStart, List.append_assoc]
  have hboundary : ∀ c ∈ (indent rest ++ (trimStart rest ++ next)).head?, isWord c = false := by
    rw [← List.append_assoc, indent_append_trimStart]
    intro c hc
    cases rest with
    | nil =>
      rw [hnext c hc]
      exact isWord_at
    | cons d s => exact hend c hc
  rw [hr, hpiece, hsplit]
  exact ⟨tag.kind, trimStart rest, next,
    .intro hword hboundary (allBlank_indent rest) (head_dropWhile isBlank rest) hvalue hnext⟩

/-- Where no tag starts the search goes on. -/
theorem all_cons_of_not_matches {c : Char} {r : Text} (h : ¬Matches (c :: r)) :
    all (c :: r) = all r := by
  rw [all]
  split
  · rename_i hc
    cases hr : behindAt? r with
    | none => rfl
    | some tag =>
      rw [hc] at h
      exact absurd (matches_of_behindAt? hr) h
  · rfl

/-- Places without a match hold no tags. -/
theorem all_append_of_not_matches {front t : Text}
    (h : ∀ front' back, front ++ t = front' ++ back → front'.length < front.length →
      ¬Matches back) : all (front ++ t) = all t := by
  induction front with
  | nil => rfl
  | cons c r ih =>
    have hhere : ¬Matches (c :: (r ++ t)) := h [] _ rfl (Nat.succ_pos _)
    rw [List.cons_append, all_cons_of_not_matches hhere]
    refine ih fun front' back heq hlt => h (c :: front') back ?_ (Nat.succ_lt_succ hlt)
    rw [List.cons_append, heq, List.cons_append]

/-- Whatever a search from the left finds is what is read. -/
theorem Finds.all_eq {t : Text} {tags : List Tag} (h : Finds t tags) : all t = tags := by
  induction h with
  | @none t hnone =>
    have hall := @all_append_of_not_matches t []
      fun front' back heq _ => hnone front' back (by rw [← heq, List.append_nil])
    rwa [List.append_nil] at hall
  | some hfirst hmatch _ ih => rw [all_append_of_not_matches hfirst, hmatch.all_eq, ih]

/-- A search passes over a place where no match starts. -/
theorem Finds.cons {c : Char} {r : Text} {tags : List Tag} (hc : ¬Matches (c :: r))
    (h : Finds r tags) : Finds (c :: r) tags := by
  cases h with
  | none hnone =>
    refine .none fun front back heq => ?_
    cases front with
    | nil =>
      rw [List.nil_append] at heq
      rwa [← heq]
    | cons d s => exact hnone s back (List.cons.inj heq).2
  | @some front t value rest kind tags hfirst hmatch hrest =>
    refine @Finds.some (c :: front) t value rest kind tags (fun front' back heq hlt => ?_) hmatch
      hrest
    cases front' with
    | nil =>
      rw [List.nil_append] at heq
      rwa [← heq]
    | cons d s => exact hfirst s back (List.cons.inj heq).2 (Nat.lt_of_succ_lt_succ hlt)

/-- The tags of a line are found. -/
theorem finds_all (t : Text) : Finds t (all t) := by
  cases t with
  | nil =>
    refine .none fun front back heq => ?_
    rw [(List.append_eq_nil_iff.mp heq.symm).2]
    exact not_matches_nil
  | cons c r =>
    by_cases h : Matches (c :: r)
    · obtain ⟨kind, value, rest, hmatch⟩ := h
      have hlt := hmatch.length_lt
      rw [hmatch.all_eq]
      exact @Finds.some [] _ _ _ _ _ (fun _ _ _ hlt => absurd hlt (Nat.not_lt_zero _)) hmatch
        (finds_all rest)
    · rw [all_cons_of_not_matches h]
      exact .cons h (finds_all r)
termination_by t.length
decreasing_by
  · exact hlt
  · exact Nat.lt_succ_self r.length

/-- The tags of a line are those of the pieces behind its at signs, and they are what
a search finds that goes on behind each match. -/
theorem all_eq_ofPieces_and_finds_iff (line : Text) :
    all line = ofPieces line ∧ ∀ tags, Finds line tags ↔ tags = ofPieces line := by
  refine ⟨all_eq_ofPieces line, fun tags => ?_⟩
  rw [← all_eq_ofPieces]
  constructor
  · exact fun h => h.all_eq.symm
  · rintro rfl
    exact finds_all line

/-- A longer word makes no tag, and an at sign without a word ends the value in front of it. -/
example : all "@methods @return */ @param x@ y".toList =
    [⟨.returns, []⟩, ⟨.param, "x".toList⟩] := by decide

end Docblock.Tag
