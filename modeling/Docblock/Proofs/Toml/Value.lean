import Docblock.Proofs.Toml.String
import Docblock.Toml.Reader

/-!
# Values are read back

Strings, lists of strings and truth values are read back from what is written for
them, with whatever stands behind them left over. Between the items of a list only
blanks and line feeds are written, and the reader skips them.
-/

namespace Docblock.Toml

open Text

/-! ## Skipping -/

section Skipping

variable {pad t : Text} {fuel : Nat}

/-- Whether nothing is skipped in front of a text. -/
def Solid (t : Text) : Prop := ∀ c ∈ t.head?, isGap c = false ∧ c ≠ '\n' ∧ c ≠ '\r' ∧ c ≠ '#'

/-- A text that is only skipped. -/
def IsPad (pad : Text) : Prop := ∀ c ∈ pad, c = ' ' ∨ c = '\n'

/-- A text is solid when its first character is no gap, break or comment sign. -/
theorem solid_cons {c : Char} (hc : isGap c = false ∧ c ≠ '\n' ∧ c ≠ '\r' ∧ c ≠ '#') (r : Text) :
    Solid (c :: r) := by
  rintro d ⟨⟩
  exact hc

/-- No gaps are skipped in front of a text that starts with none. -/
theorem skipGaps_of_head (h : ∀ c ∈ t.head?, isGap c = false) : skipGaps t = t := by
  cases t with
  | nil => rfl
  | cons c r => rw [skipGaps, List.dropWhile_cons_of_neg (Bool.eq_false_iff.mp (h c rfl))]

theorem skipTrivia_of_solid (h : Solid t) (fuel : Nat) : skipTrivia fuel t = some t := by
  cases fuel with
  | zero => rfl
  | succ fuel =>
    rw [skipTrivia, skipGaps_of_head fun c hc => (h c hc).1]
    cases t with
    | nil => rfl
    | cons c r =>
      obtain ⟨-, hfeed, hreturn, hcomment⟩ := h c rfl
      split
      · rename_i heq
        cases heq
        exact absurd rfl hfeed
      · rename_i heq
        cases heq
        exact absurd rfl hreturn
      · rename_i heq
        cases heq
        exact absurd rfl hcomment
      · rfl

/-- A padding takes no more steps than it has characters. -/
theorem skipTrivia_pad (hpad : IsPad pad) (h : Solid t) (hfuel : pad.length < fuel) :
    skipTrivia fuel (pad ++ t) = some t := by
  induction pad generalizing fuel with
  | nil => exact skipTrivia_of_solid h fuel
  | cons c r ih =>
    obtain ⟨hc, hr⟩ := List.forall_mem_cons.mp hpad
    rw [List.length_cons] at hfuel
    cases fuel with
    | zero => exact absurd hfuel (Nat.not_lt_zero _)
    | succ fuel =>
      rcases hc with rfl | rfl
      · exact ih hr (Nat.lt_of_succ_lt hfuel)
      · exact ih hr (Nat.lt_of_succ_lt_succ hfuel)

/-- Gaps and breaks in front of a value are skipped. -/
theorem trivia?_pad (hpad : IsPad pad) (h : Solid t) : trivia? (pad ++ t) = some t := by
  refine skipTrivia_pad hpad h ?_
  rw [List.length_append]
  omega

/-- Nothing is skipped in front of a value. -/
theorem trivia?_of_solid (h : Solid t) : trivia? t = some t := skipTrivia_of_solid h _

end Skipping

/-! ## Strings -/

section Strings

variable {rest : Text} {depth fuel : Nat}

/-- Every form of a string starts with a quote. -/
theorem writeString_eq_cons (t : Text) :
    ∃ mark body, writeString t = mark :: body ∧ (mark = '"' ∨ mark = '\'') := by
  rw [writeString]
  split
  · exact ⟨_, _, rfl, .inl rfl⟩
  · exact ⟨_, _, rfl, .inr rfl⟩
  · exact ⟨_, _, rfl, .inl rfl⟩
  · exact ⟨_, _, rfl, .inr rfl⟩

/-- A string starts with a quote. -/
theorem solid_writeString (t rest : Text) : Solid (writeString t ++ rest) := by
  obtain ⟨mark, body, hwritten, rfl | rfl⟩ := writeString_eq_cons t
  · rw [hwritten]
    exact solid_cons (by decide) _
  · rw [hwritten]
    exact solid_cons (by decide) _

/-- A string that is written is read again. -/
theorem value?_writeString (depth : Nat) (t : Text) (hrest : Unquoted rest) :
    value? depth (writeString t ++ rest) = some (.string t, rest) := by
  have hread := string?_writeString t hrest
  obtain ⟨mark, body, hwritten, rfl | rfl⟩ := writeString_eq_cons t
  · rw [hwritten, List.cons_append] at hread ⊢
    rw [value?, hread]
    rfl
  · rw [hwritten, List.cons_append] at hread ⊢
    rw [value?, hread]
    rfl

end Strings

/-! ## Lists of strings -/

section Lists

variable {pad rest : Text} {depth fuel : Nat}

/-- A bracket ends an array. -/
theorem items?_close (hpad : IsPad pad) :
    items? (value? depth) (fuel + 1) (pad ++ ']' :: rest) = some ([], rest) := by
  rw [items?, trivia?_pad hpad (solid_cons (by decide) rest)]
  rfl

/-- How a list goes on behind an item. -/
def behindItem (depth fuel : Nat) (item : Value) : Option Text → Option (List Value × Text)
  | some (']' :: s) => some ([item], s)
  | some (',' :: s) =>
    (items? (value? depth) fuel s).map fun (found, behind) => (item :: found, behind)
  | _ => none

/-- An item is read, and then what stands behind it. -/
theorem items?_item (hpad : IsPad pad) (item : Text) (hrest : Unquoted rest) :
    items? (value? depth) (fuel + 1) (pad ++ (writeString item ++ rest)) =
      behindItem depth fuel (.string item) (trivia? rest) := by
  have hvalue := value?_writeString depth item hrest
  rw [items?, trivia?_pad hpad (solid_writeString item rest)]
  obtain ⟨mark, body, hwritten, hmark⟩ := writeString_eq_cons item
  rw [hwritten, List.cons_append] at hvalue ⊢
  dsimp only
  split
  · rename_i heq
    cases heq
  · rename_i heq
    cases heq
    rcases hmark with h | h <;> cases h
  · rename_i heq
    cases heq
    rw [hvalue]
    rfl

/-- Behind a comma the rest of the list is read. -/
theorem items?_comma (hpad : IsPad pad) (item : Text) :
    items? (value? depth) (fuel + 1) (pad ++ (writeString item ++ ',' :: rest)) =
      (items? (value? depth) fuel rest).map fun (found, behind) =>
        (.string item :: found, behind) := by
  rw [items?_item hpad item (unquoted_cons (by decide) rest),
    trivia?_of_solid (solid_cons (by decide) rest)]
  rfl

/-- An item in front of the bracket is the last one. -/
theorem items?_bracket (item : Text) :
    items? (value? depth) (fuel + 1) (writeString item ++ ']' :: rest) =
      some ([.string item], rest) := by
  have hpad : IsPad [] := fun _ hc => nomatch hc
  rw [← List.nil_append (writeString item ++ _),
    items?_item hpad item (unquoted_cons (by decide) rest),
    trivia?_of_solid (solid_cons (by decide) rest)]
  rfl

/-- An item on a line of its own. -/
def itemLine (item : Text) : Text := "    ".toList ++ writeString item ++ ",\n".toList

/-- Items on a line each are read in order. -/
theorem items?_flatMap (items : List Text) (rest : Text)
    (hfuel : (items.flatMap itemLine).length < fuel) :
    items? (value? depth) fuel ('\n' :: (items.flatMap itemLine ++ ']' :: rest)) =
      some (items.map .string, rest) := by
  induction items generalizing fuel with
  | nil =>
    obtain ⟨fuel, rfl⟩ : ∃ m, fuel = m + 1 := ⟨fuel - 1, by omega⟩
    have hpad : IsPad ['\n'] := by simp [IsPad]
    exact items?_close hpad
  | cons item items ih =>
    obtain ⟨fuel, rfl⟩ : ∃ m, fuel = m + 1 := ⟨fuel - 1, by omega⟩
    have hpad : IsPad "\n    ".toList := by simp [IsPad]
    have htext : '\n' :: ((item :: items).flatMap itemLine ++ ']' :: rest) = "\n    ".toList ++
        (writeString item ++ ',' :: '\n' :: (items.flatMap itemLine ++ ']' :: rest)) := by
      rw [List.flatMap_cons, itemLine]
      simp only [List.append_assoc]
      rfl
    have hline : 0 < (itemLine item).length := Nat.zero_lt_succ _
    rw [List.flatMap_cons, List.length_append] at hfuel
    rw [htext, items?_comma hpad, ih (by omega)]
    rfl

/-- An array of strings that is written is read again. -/
theorem value?_writeStrings (depth : Nat) (items : List Text) (rest : Text) :
    value? (depth + 1) (writeStrings items ++ rest) = some (.array (items.map .string), rest) := by
  match items with
  | [] => rfl
  | [item] =>
    rw [writeStrings]
    simp only [List.append_assoc, List.cons_append, List.nil_append]
    rw [value?, items?_bracket]
    rfl
  | first :: second :: items =>
    have hwritten : writeStrings (first :: second :: items) ++ rest =
        '[' :: '\n' :: ((first :: second :: items).flatMap itemLine ++ ']' :: rest) := by
      show "[\n".toList ++ (first :: second :: items).flatMap itemLine ++ [']'] ++ rest = _
      rw [List.append_assoc, List.append_assoc]
      rfl
    rw [hwritten, value?, items?_flatMap]
    · rfl
    · simp only [List.length_cons, List.length_append]
      omega

end Lists

/-- A truth value ends with its line. -/
theorem value?_writeBool (depth : Nat) (b : Bool) (rest : Text) :
    value? depth (writeBool b ++ '\n' :: rest) = some (.boolean b, '\n' :: rest) := by
  cases depth <;> cases b <;> rfl

end Docblock.Toml
