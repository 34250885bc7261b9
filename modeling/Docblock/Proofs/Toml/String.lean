import Mathlib.Data.List.Basic
import Docblock.Proofs.Text.Hex
import Docblock.Toml.String
import Docblock.Toml.Writer

/-!
# Strings are read back

A string is read back from whichever form it is written in. Both double quoted
forms can hold every string, because their escapes can; the single quoted ones are
only taken for strings that need no escape. In tripled quotes up to two quotes may
stand next to each other, and also in front of the closing ones.
-/

namespace Docblock.Toml

open Text

theorem prepend_some (made found rest : Text) :
    prepend made (some (found, rest)) = some (made ++ found, rest) := rfl

theorem prepend_nil (found : Option (Text × Text)) : prepend [] found = found := by
  cases found <;> rfl

/-- What is put in front of a string twice is put there at once. -/
theorem prepend_prepend (a b : Text) (found : Option (Text × Text)) :
    prepend a (prepend b found) = prepend (a ++ b) found := by
  cases found with
  | none => rfl
  | some found => rw [prepend_some, prepend_some, prepend_some, List.append_assoc]

/-- Whether a text cannot go on a run of quotes in front of it. -/
def Unquoted (rest : Text) : Prop := ∀ c ∈ rest.head?, c ≠ '"' ∧ c ≠ '\''

/-- A text that starts with no quote goes on behind a string. -/
theorem unquoted_cons {c : Char} (hc : c ≠ '"' ∧ c ≠ '\'') (r : Text) : Unquoted (c :: r) := by
  rintro d ⟨⟩
  exact hc

/-- A text that does not start with a character is not that character and more. -/
theorem ne_cons_of_head {mark : Char} {s : Text} (hs : ∀ d ∈ s.head?, d ≠ mark) (r : Text) :
    s ≠ mark :: r := by
  rintro rfl
  exact hs mark rfl rfl

/-- There are no breaks among the characters of a string on one line. -/
theorem ne_break_of_isStringChar {c : Char} (hc : isStringChar c = true) : c ≠ '\n' ∧ c ≠ '\r' := by
  constructor <;> rintro rfl <;> cases hc

/-! ## Escapes -/

section Escapes

variable {c : Char} {keepFeeds : Bool} {fuel : Nat}

/-- A character is written as itself, or as an escape that stands for it. No
escape looks like a folded line. -/
theorem escapeChar_cases (keepFeeds : Bool) (c : Char) :
    (∃ e, escapeChar keepFeeds c = '\\' :: e ∧
      ∀ s, fold? (e ++ s) = none ∧ escape? (e ++ s) = some (c, s)) ∨
    (escapeChar keepFeeds c = [c] ∧ c ≠ '\\' ∧
      (isStringChar c = true ∨ keepFeeds = true ∧ c = '\n')) := by
  rw [escapeChar]
  split_ifs with hback hb ht hn hkeep hf hr hcontrol
  · exact .inl ⟨_, rfl, fun s => ⟨rfl, by rw [hback]; rfl⟩⟩
  · exact .inl ⟨_, rfl, fun s => ⟨rfl, by rw [hb]; rfl⟩⟩
  · exact .inl ⟨_, rfl, fun s => ⟨rfl, by rw [ht]; rfl⟩⟩
  · exact .inr ⟨by rw [hn], hback, .inr ⟨hkeep, hn⟩⟩
  · exact .inl ⟨_, rfl, fun s => ⟨rfl, by rw [hn]; rfl⟩⟩
  · exact .inl ⟨_, rfl, fun s => ⟨rfl, by rw [hf]; rfl⟩⟩
  · exact .inl ⟨_, rfl, fun s => ⟨rfl, by rw [hr]; rfl⟩⟩
  · -- The control characters have small code points.
    have hsmall : c.toNat < 16 ^ 4 := by
      rw [Bool.or_eq_true, decide_eq_true_eq, decide_eq_true_eq] at hcontrol
      rcases hcontrol with hlt | rfl
      · have hlt : c.toNat < ' '.toNat := UInt32.lt_iff_toNat_lt.mp hlt
        have hspace : ' '.toNat = 32 := rfl
        omega
      · decide
    refine .inl ⟨'u' :: upperHex 4 c.toNat, rfl, fun s => ⟨rfl, ?_⟩⟩
    exact hexChar?_upperHex hsmall s
  · rw [Bool.or_eq_true, decide_eq_true_eq, decide_eq_true_eq, not_or, Char.not_lt] at hcontrol
    refine .inr ⟨rfl, hback, .inl ?_⟩
    rw [isStringChar, Bool.or_eq_true, Bool.and_eq_true, decide_eq_true_eq, decide_eq_true_eq,
      decide_eq_true_eq]
    exact .inr hcontrol

/-- Every character is written. -/
theorem escapeChar_ne_nil (keepFeeds : Bool) (c : Char) : escapeChar keepFeeds c ≠ [] := by
  rcases escapeChar_cases keepFeeds c with ⟨e, he, _⟩ | ⟨he, _⟩
  · rw [he]
    exact List.cons_ne_nil _ _
  · rw [he]
    exact List.cons_ne_nil _ _

/-- Only a quote is written as something that starts with one. -/
theorem head_escapeChar (hc : c ≠ '"') (s : Text) :
    ∀ d ∈ (escapeChar keepFeeds c ++ s).head?, d ≠ '"' := by
  rcases escapeChar_cases keepFeeds c with ⟨e, he, _⟩ | ⟨he, _⟩
  · rw [he]
    rintro d ⟨⟩
    decide
  · rw [he]
    rintro d ⟨⟩
    exact hc

/-- No character makes a string shorter. -/
theorem length_le_escapeBody (keepFeeds : Bool) (allowed run : Nat) (t : Text) :
    t.length ≤ (escapeBody keepFeeds allowed run t).length := by
  induction t generalizing run with
  | nil => exact Nat.zero_le _
  | cons c r ih =>
    rw [escapeBody]
    have hpos := List.length_pos_of_ne_nil (escapeChar_ne_nil keepFeeds c)
    have hnext := ih (run + 1)
    have hfirst := ih 0
    split_ifs <;> simp only [List.length_cons, List.length_append] <;> omega

end Escapes

/-! ## Double quotes -/

section Basic

variable {c : Char} {fuel : Nat}

/-- A character is read from how it is written. -/
theorem basicBody_escapeChar (hc : c ≠ '"') (fuel : Nat) (s : Text) :
    basicBody (fuel + 1) (escapeChar false c ++ s) = prepend [c] (basicBody fuel s) := by
  rcases escapeChar_cases false c with ⟨e, he, hread⟩ | ⟨he, hback, hchar | ⟨hkeep, _⟩⟩
  · rw [he, List.cons_append, basicBody, (hread s).2]
  · rw [he, List.singleton_append, basicBody, if_pos hchar]
    · exact hc
    · exact hback
  · cases hkeep

/-- Between double quotes every string is read back. -/
theorem basicBody_escapeBody (run : Nat) (t rest : Text) (hfuel : t.length < fuel) :
    basicBody fuel (escapeBody false 0 run t ++ '"' :: rest) = some (t, rest) := by
  induction t generalizing run fuel with
  | nil =>
    cases fuel with
    | zero => exact absurd hfuel (Nat.not_lt_zero _)
    | succ fuel => rfl
  | cons c r ih =>
    cases fuel with
    | zero => exact absurd hfuel (Nat.not_lt_zero _)
    | succ fuel =>
      have hread := ih 0 (Nat.lt_of_succ_lt_succ hfuel)
      rw [escapeBody]
      split
      · rename_i hquote
        rw [if_neg (Nat.not_lt_zero run), hquote]
        show prepend ['"'] (basicBody fuel (escapeBody false 0 0 r ++ '"' :: rest)) = _
        rw [hread]
        rfl
      · rename_i hquote
        rw [List.append_assoc, basicBody_escapeChar hquote, hread]
        rfl

end Basic

/-! ## Tripled double quotes -/

section MultiBasic

variable {c : Char} {k fuel : Nat} {rest : Text}

/-- A character is part of the string unless it starts an escape or the closing quotes. -/
theorem multiBasicBody_cons (hc : isStringChar c = true) (hback : c ≠ '\\') {s : Text}
    (hclose : ∀ r, c :: s ≠ '"' :: '"' :: '"' :: r) (fuel : Nat) :
    multiBasicBody (fuel + 1) (c :: s) = prepend [c] (multiBasicBody fuel s) := by
  obtain ⟨hfeed, hreturn⟩ := ne_break_of_isStringChar hc
  rw [multiBasicBody, if_pos hc]
  · exact fun r h heq => hclose _ (by rw [h, heq])
  · exact fun r h heq => hclose _ (by rw [h, heq])
  · exact fun r h heq => hclose _ (by rw [h, heq])
  · exact hback
  · exact hfeed
  · exact fun r h => absurd h hreturn

/-- So it is in a string on several lines. -/
theorem multiBasicBody_escapeChar (hc : c ≠ '"') (fuel : Nat) (s : Text) :
    multiBasicBody (fuel + 1) (escapeChar true c ++ s) = prepend [c] (multiBasicBody fuel s) := by
  rcases escapeChar_cases true c with ⟨e, he, hread⟩ | ⟨he, hback, hchar | ⟨_, hfeed⟩⟩
  · obtain ⟨hfold, hescape⟩ := hread s
    rw [he, List.cons_append, multiBasicBody, hfold]
    dsimp only
    rw [hescape]
  · rw [he]
    exact multiBasicBody_cons hchar hback (fun r heq => hc (List.cons.inj heq).1) fuel
  · rw [he, hfeed]
    rfl

/-- Up to two quotes in front of something else are part of the string. -/
theorem multiBasicBody_quotes (hk : k ≤ 2) (fuel : Nat) {s : Text}
    (hs : ∀ d ∈ s.head?, d ≠ '"') :
    multiBasicBody (fuel + k) (List.replicate k '"' ++ s) =
      prepend (List.replicate k '"') (multiBasicBody fuel s) := by
  have hone (fuel : Nat) : multiBasicBody (fuel + 1) ('"' :: s) =
      prepend ['"'] (multiBasicBody fuel s) :=
    multiBasicBody_cons rfl (by decide) (fun r heq => ne_cons_of_head hs _ (List.cons.inj heq).2)
      fuel
  match k, hk with
  | 0, _ => exact (prepend_nil _).symm
  | 1, _ => exact hone fuel
  | 2, _ =>
    have htwo : multiBasicBody (fuel + 2) ('"' :: '"' :: s) =
        prepend ['"'] (multiBasicBody (fuel + 1) ('"' :: s)) :=
      multiBasicBody_cons rfl (by decide)
        (fun r heq => ne_cons_of_head hs r (List.cons.inj (List.cons.inj heq).2).2) (fuel + 1)
    rw [hone, prepend_prepend] at htwo
    exact htwo

/-- Up to two quotes in front of the closing ones are part of the string. -/
theorem multiBasicBody_close (hk : k ≤ 2) (fuel : Nat) (hrest : Unquoted rest) :
    multiBasicBody (fuel + 1) (List.replicate k '"' ++ ['"', '"', '"'] ++ rest) =
      some (List.replicate k '"', rest) := by
  have hend := ne_cons_of_head fun c hc => (hrest c hc).1
  match k, hk with
  | 2, _ => rfl
  | 1, _ =>
    show multiBasicBody (fuel + 1) ('"' :: '"' :: '"' :: '"' :: rest) = _
    rw [multiBasicBody]
    · rfl
    · exact hend
  | 0, _ =>
    show multiBasicBody (fuel + 1) ('"' :: '"' :: '"' :: rest) = _
    rw [multiBasicBody]
    · rfl
    · exact fun r => hend _
    · exact hend

/-- Between tripled double quotes every string is read back. The induction is on
what is left to read behind `k` quotes. -/
theorem multiBasicBody_escapeBody (t : Text) (hrest : Unquoted rest) (hk : k ≤ 2)
    (hfuel : k + t.length < fuel) :
    multiBasicBody fuel
        (List.replicate k '"' ++ (escapeBody true 2 k t ++ ['"', '"', '"'] ++ rest)) =
      some (List.replicate k '"' ++ t, rest) := by
  induction t generalizing k fuel with
  | nil =>
    obtain ⟨fuel, rfl⟩ : ∃ m, fuel = m + 1 := ⟨fuel - 1, by omega⟩
    rw [escapeBody, List.nil_append, List.append_nil, ← List.append_assoc]
    exact multiBasicBody_close hk fuel hrest
  | cons c r ih =>
    rw [List.length_cons] at hfuel
    obtain ⟨fuel, rfl⟩ : ∃ m, fuel = m + 1 + k := ⟨fuel - k - 1, by omega⟩
    have hnext : multiBasicBody fuel (escapeBody true 2 0 r ++ ['"', '"', '"'] ++ rest) =
        some (r, rest) := ih (Nat.zero_le 2) (by omega)
    rw [escapeBody]
    split_ifs with hquote hrun
    · -- One more quote may stand here.
      have hmore : multiBasicBody (fuel + 1 + k) (List.replicate (k + 1) '"' ++
          (escapeBody true 2 (k + 1) r ++ ['"', '"', '"'] ++ rest)) =
            some (List.replicate (k + 1) '"' ++ r, rest) := ih hrun (by omega)
      rw [List.replicate_succ', List.append_assoc, List.append_assoc _ _ r] at hmore
      rw [hquote]
      exact hmore
    · rw [hquote, multiBasicBody_quotes hk _ (by rintro d ⟨⟩; decide)]
      show prepend (List.replicate k '"') (prepend ['"'] (multiBasicBody fuel
        (escapeBody true 2 0 r ++ ['"', '"', '"'] ++ rest))) = _
      rw [hnext]
      rfl
    · rw [List.append_assoc (escapeChar _ _), List.append_assoc (escapeChar _ _),
        multiBasicBody_quotes hk _ (head_escapeChar hquote _), multiBasicBody_escapeChar hquote,
        hnext]
      rfl

end MultiBasic

/-! ## Single quotes -/

section Literal

variable {t rest : Text} {k : Nat}

/-- Between single quotes a string without control characters and single quotes is
read back. -/
theorem literalBody_append (ht : ∀ c ∈ t, isStringChar c = true) (hquote : '\'' ∉ t)
    (rest : Text) : literalBody (t ++ '\'' :: rest) = some (t, rest) := by
  induction t with
  | nil => rfl
  | cons c r ih =>
    obtain ⟨hc, hr⟩ := List.forall_mem_cons.mp ht
    obtain ⟨hne, hnot⟩ := not_or.mp (mt List.mem_cons.mpr hquote)
    rw [List.cons_append, literalBody, if_pos hc, ih hr hnot]
    · rfl
    · exact fun h => hne h.symm

/-- A character is part of the string unless it starts the closing quotes. -/
theorem multiLiteralBody_cons {c : Char} (hc : isStringChar c = true ∨ c = '\n') {s : Text}
    (hclose : ∀ r, c :: s ≠ '\'' :: '\'' :: '\'' :: r) :
    multiLiteralBody (c :: s) = prepend [c] (multiLiteralBody s) := by
  rcases hc with hc | rfl
  · obtain ⟨hfeed, hreturn⟩ := ne_break_of_isStringChar hc
    rw [multiLiteralBody, if_pos hc]
    · exact fun r h heq => hclose _ (by rw [h, heq])
    · exact fun r h heq => hclose _ (by rw [h, heq])
    · exact fun r h heq => hclose _ (by rw [h, heq])
    · exact hfeed
    · exact fun r h => absurd h hreturn
  · rfl

/-- Up to two quotes in front of something else are part of the string. -/
theorem multiLiteralBody_quotes (hk : k ≤ 2) {s : Text} (hs : ∀ d ∈ s.head?, d ≠ '\'') :
    multiLiteralBody (List.replicate k '\'' ++ s) =
      prepend (List.replicate k '\'') (multiLiteralBody s) := by
  have hone : multiLiteralBody ('\'' :: s) = prepend ['\''] (multiLiteralBody s) :=
    multiLiteralBody_cons (.inl rfl) fun r heq => ne_cons_of_head hs _ (List.cons.inj heq).2
  match k, hk with
  | 0, _ => exact (prepend_nil _).symm
  | 1, _ => exact hone
  | 2, _ =>
    have htwo : multiLiteralBody ('\'' :: '\'' :: s) =
        prepend ['\''] (multiLiteralBody ('\'' :: s)) :=
      multiLiteralBody_cons (.inl rfl) fun r heq =>
        ne_cons_of_head hs r (List.cons.inj (List.cons.inj heq).2).2
    rw [hone, prepend_prepend] at htwo
    exact htwo

/-- Up to two quotes in front of the closing ones are part of the string. -/
theorem multiLiteralBody_close (hk : k ≤ 2) (hrest : Unquoted rest) :
    multiLiteralBody (List.replicate k '\'' ++ ['\'', '\'', '\''] ++ rest) =
      some (List.replicate k '\'', rest) := by
  have hend := ne_cons_of_head fun c hc => (hrest c hc).2
  match k, hk with
  | 2, _ => rfl
  | 1, _ =>
    show multiLiteralBody ('\'' :: '\'' :: '\'' :: '\'' :: rest) = _
    rw [multiLiteralBody]
    · rfl
    · exact hend
  | 0, _ =>
    show multiLiteralBody ('\'' :: '\'' :: '\'' :: rest) = _
    rw [multiLiteralBody]
    · rfl
    · exact fun r => hend _
    · exact hend

/-- Between tripled single quotes a string with no other control characters than
tabs and line feeds is read back, when no more than two quotes follow each other. -/
theorem multiLiteralBody_append (t : Text) (ht : ∀ c ∈ t, isStringChar c = true ∨ c = '\n')
    (hrun : longestRun '\'' k t ≤ 2) (hrest : Unquoted rest) :
    multiLiteralBody (List.replicate k '\'' ++ (t ++ ['\'', '\'', '\''] ++ rest)) =
      some (List.replicate k '\'' ++ t, rest) := by
  induction t generalizing k with
  | nil =>
    rw [List.nil_append, List.append_nil, ← List.append_assoc]
    exact multiLiteralBody_close hrun hrest
  | cons c r ih =>
    obtain ⟨hc, hr⟩ := List.forall_mem_cons.mp ht
    rw [longestRun] at hrun
    split at hrun
    · rename_i hquote
      have hmore := ih hr hrun
      rw [List.replicate_succ', List.append_assoc, List.append_assoc _ _ r] at hmore
      rw [hquote]
      exact hmore
    · rename_i hquote
      obtain ⟨hk, hnext⟩ := Nat.max_le.mp hrun
      have hread : multiLiteralBody (r ++ ['\'', '\'', '\''] ++ rest) = some (r, rest) :=
        ih hr hnext
      rw [List.cons_append, List.cons_append,
        multiLiteralBody_quotes hk (by rintro d ⟨⟩; exact hquote),
        multiLiteralBody_cons hc fun r' heq => hquote (List.cons.inj heq).1, hread]
      rfl

end Literal

/-! ## The form of a string -/

section Form

variable {t rest : Text}

/-- A character that needs no escape is one of a string, or a line feed. -/
theorem isStringChar_or_feed {c : Char} (hc : needsEscape c = false) :
    isStringChar c = true ∨ c = '\n' := by
  rw [needsEscape, Bool.or_eq_false_iff, decide_eq_false_iff_not] at hc
  obtain ⟨hcontrol, hdelete⟩ := hc
  by_cases hfeed : c = '\n'
  · exact .inr hfeed
  · refine .inl ?_
    rw [isStringChar, Bool.or_eq_true, decide_eq_true_eq]
    by_cases htab : c = '\t'
    · exact .inl htab
    · refine .inr ?_
      simp only [htab, hfeed, ne_eq, not_false_eq_true, decide_true, Bool.and_true,
        decide_eq_false_iff_not, Char.not_lt] at hcontrol
      simp only [hcontrol, hdelete, ne_eq, not_false_eq_true, decide_true, Bool.and_true]

/-- Single quotes are only taken for strings they can hold. -/
theorem formOf_eq_literal (h : formOf t = .literal) :
    (∀ c ∈ t, isStringChar c = true) ∧ '\'' ∉ t := by
  rw [formOf] at h
  split_ifs at h with hbasic hliteral
  simp only [Bool.and_eq_true, Bool.not_eq_true', List.any_eq_false, List.contains_eq_mem,
    decide_eq_false_iff_not] at hliteral
  obtain ⟨⟨hescapes, hquote⟩, hfeed⟩ := hliteral
  refine ⟨fun c hc => ?_, hquote⟩
  rcases isStringChar_or_feed (eq_false_of_ne_true (hescapes c hc)) with hchar | rfl
  · exact hchar
  · exact absurd hc hfeed

/-- So are tripled single quotes. -/
theorem formOf_eq_multiLiteral (h : formOf t = .multiLiteral) :
    (∀ c ∈ t, isStringChar c = true ∨ c = '\n') ∧ longestRun '\'' 0 t ≤ 2 := by
  rw [formOf] at h
  split_ifs at h with hbasic hliteral hmultiBasic hmultiLiteral
  simp only [Bool.and_eq_true, Bool.not_eq_true', List.any_eq_false,
    decide_eq_true_eq] at hmultiLiteral
  obtain ⟨hescapes, hrun⟩ := hmultiLiteral
  exact ⟨fun c hc => isStringChar_or_feed (eq_false_of_ne_true (hescapes c hc)), hrun⟩

/-- Only a break is dropped behind the quotes that open a string on several lines. -/
theorem dropFirstBreak_of_head {s : Text} (hs : ∀ c ∈ s.head?, c ≠ '\n' ∧ c ≠ '\r') :
    dropFirstBreak s = s := by
  cases s with
  | nil => rfl
  | cons c r =>
    obtain ⟨hfeed, hreturn⟩ := hs c rfl
    rw [dropFirstBreak, lineBreak?]
    · rfl
    · rintro r' heq
      cases heq
      exact hfeed rfl
    · rintro r' heq
      cases heq
      exact hreturn rfl

/-- The line feed behind the opening quotes is the break that is dropped there. -/
theorem dropFirstBreak_openingFeed {s : Text}
    (hs : '\n' ∉ t → ∀ c ∈ s.head?, c ≠ '\n' ∧ c ≠ '\r') :
    dropFirstBreak (openingFeed t ++ s) = s := by
  rw [openingFeed]
  split
  · rfl
  · rename_i hfeed
    exact dropFirstBreak_of_head (hs (fun h => hfeed (List.contains_iff_mem.mpr h)))

/-- What stands in front of the closing quotes of a string without a line feed
does not start with a line break. -/
theorem head_escapeBody (hfeed : '\n' ∉ t) (s : Text) :
    ∀ c ∈ (escapeBody true 2 0 t ++ ['"', '"', '"'] ++ s).head?, c ≠ '\n' ∧ c ≠ '\r' := by
  cases t with
  | nil =>
    rintro c ⟨⟩
    decide
  | cons d r =>
    rw [escapeBody]
    split
    · rw [if_pos (by decide)]
      rintro c ⟨⟩
      decide
    · rcases escapeChar_cases true d with ⟨e, he, _⟩ | ⟨he, _, hchar | ⟨_, rfl⟩⟩
      · rw [he]
        rintro c ⟨⟩
        decide
      · rw [he]
        rintro c ⟨⟩
        constructor <;> rintro rfl <;> cases hchar
      · exact absurd List.mem_cons_self hfeed

/-- A string that does not start like tripled quotes is one on a line. -/
theorem string?_of_not_tripled {mark : Char} {s : Text} (h : ¬[mark, mark] <+: s) :
    string? (mark :: s) = lineString? (mark :: s) := by
  rw [string?]
  · rintro r heq
    cases heq
    exact h ⟨r, rfl⟩
  · rintro r heq
    cases heq
    exact h ⟨r, rfl⟩

/-- A string on a line only looks tripled when it is empty and a quote follows. -/
theorem not_tripled {mark : Char} {s : Text} (hs : ∀ c ∈ s.head?, c ≠ mark)
    (hrest : ∀ c ∈ rest.head?, c ≠ mark) : ¬[mark, mark] <+: s ++ [mark] ++ rest := by
  rintro ⟨r, heq⟩
  cases s with
  | nil =>
    cases rest with
    | nil => cases heq
    | cons d rest =>
      cases heq
      exact hrest mark rfl rfl
  | cons c s =>
    obtain ⟨rfl, _⟩ := List.cons.inj heq
    exact hs mark rfl rfl

/-- A string with escapes is read as its text. -/
theorem string?_basic (t : Text) (hrest : Unquoted rest) :
    string? (['"'] ++ escapeBody false 0 0 t ++ ['"'] ++ rest) = some (t, rest) := by
  have hhead : ∀ c ∈ (escapeBody false 0 0 t).head?, c ≠ '"' := by
    cases t with
    | nil => exact fun c hc => nomatch hc
    | cons c r =>
      rw [escapeBody]
      split
      · rintro d ⟨⟩
        decide
      · rename_i hquote
        exact head_escapeChar hquote _
  have hlen := length_le_escapeBody false 0 0 t
  show string? ('"' :: (escapeBody false 0 0 t ++ ['"'] ++ rest)) = _
  rw [string?_of_not_tripled (not_tripled hhead fun c hc => (hrest c hc).1), lineString?,
    List.append_assoc]
  refine basicBody_escapeBody 0 t rest ?_
  simp only [List.length_append, List.length_singleton]
  omega

/-- A string without escapes is read as its text. -/
theorem string?_literal (ht : ∀ c ∈ t, isStringChar c = true) (hquote : '\'' ∉ t)
    (hrest : Unquoted rest) : string? (['\''] ++ t ++ ['\''] ++ rest) = some (t, rest) := by
  have hhead : ∀ c ∈ t.head?, c ≠ '\'' := by
    rintro c hc rfl
    exact hquote (List.mem_of_mem_head? hc)
  show string? ('\'' :: (t ++ ['\''] ++ rest)) = _
  rw [string?_of_not_tripled (not_tripled hhead fun c hc => (hrest c hc).2), lineString?,
    List.append_assoc]
  exact literalBody_append ht hquote rest

/-- A string with escapes on several lines is read as its text. -/
theorem string?_multiBasic (t : Text) (hrest : Unquoted rest) :
    string? (['"', '"', '"'] ++ openingFeed t ++ escapeBody true 2 0 t ++ ['"', '"', '"'] ++ rest) =
      some (t, rest) := by
  have hlen := length_le_escapeBody true 2 0 t
  show multiBasicBody
    ((openingFeed t ++ escapeBody true 2 0 t ++ ['"', '"', '"'] ++ rest).length + 1)
    (dropFirstBreak (openingFeed t ++ escapeBody true 2 0 t ++ ['"', '"', '"'] ++ rest)) = _
  rw [List.append_assoc (openingFeed t), List.append_assoc (openingFeed t),
    dropFirstBreak_openingFeed fun hfeed => head_escapeBody hfeed rest]
  refine multiBasicBody_escapeBody (k := 0) t hrest (Nat.zero_le 2) ?_
  simp only [List.length_append]
  omega

/-- A string without escapes on several lines is read as its text. -/
theorem string?_multiLiteral (ht : ∀ c ∈ t, isStringChar c = true ∨ c = '\n')
    (hrun : longestRun '\'' 0 t ≤ 2) (hrest : Unquoted rest) :
    string? (['\'', '\'', '\''] ++ openingFeed t ++ t ++ ['\'', '\'', '\''] ++ rest) =
      some (t, rest) := by
  have hhead (hfeed : '\n' ∉ t) :
      ∀ c ∈ (t ++ ['\'', '\'', '\''] ++ rest).head?, c ≠ '\n' ∧ c ≠ '\r' := by
    cases t with
    | nil =>
      rintro c ⟨⟩
      decide
    | cons d r =>
      rintro c ⟨⟩
      rcases ht d List.mem_cons_self with hchar | rfl
      · constructor <;> rintro rfl <;> cases hchar
      · exact absurd List.mem_cons_self hfeed
  show multiLiteralBody
    (dropFirstBreak (openingFeed t ++ t ++ ['\'', '\'', '\''] ++ rest)) = _
  rw [List.append_assoc (openingFeed t), List.append_assoc (openingFeed t),
    dropFirstBreak_openingFeed hhead]
  exact multiLiteralBody_append t ht hrun hrest

/-- Whatever form a string is written in, it is read back, unless a quote follows. -/
theorem string?_writeString (t : Text) (hrest : Unquoted rest) :
    string? (writeString t ++ rest) = some (t, rest) := by
  rw [writeString]
  split
  · exact string?_basic t hrest
  · rename_i hform
    obtain ⟨hchars, hquote⟩ := formOf_eq_literal hform
    exact string?_literal hchars hquote hrest
  · exact string?_multiBasic t hrest
  · rename_i hform
    obtain ⟨hchars, hrun⟩ := formOf_eq_multiLiteral hform
    exact string?_multiLiteral hchars hrun hrest

end Form

end Docblock.Toml
