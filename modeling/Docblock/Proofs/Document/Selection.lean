import Mathlib.Algebra.Group.Nat.Defs
import Docblock.Document.LineRange
import Docblock.Proofs.Text.Digits
import Docblock.Proofs.Text.Search

/-!
# Selections of lines

A selection is two line numbers, counted from one, with a colon between them. It is
read exactly when it is of that form, and the range counts the same lines from zero.
Read with words of 64 bits instead of numbers without a bound, a selection gives the
same range or the same message, and no sum, product or difference leaves the words.
-/

namespace Docblock.LineRange

open Text

/-- A part writes a number: behind an optional plus sign and between blanks it has
one or more digits, and they have the value of the number. -/
def Writes (part : Text) (n : Nat) : Prop :=
  ∃ sign digits : Text, trim part = sign ++ digits ∧ (sign = [] ∨ sign = ['+']) ∧
    digits ≠ [] ∧ (∀ c ∈ digits, c.isDigit = true) ∧ Nat.ofDigitChars 10 digits 0 = n

/-- A part is the number of a line, counted from one. -/
def IsNumber (part : Text) (n : Nat) : Prop := Writes part n ∧ 1 ≤ n ∧ n ≤ 2 ^ 64 - 1

/-- A text selects the lines between two numbers: they stand on both sides of its only
colon, and the first is not behind the last. -/
def Selects (selection : Text) (first last : Nat) : Prop :=
  ∃ left right : Text, selection = left ++ ':' :: right ∧ ':' ∉ left ∧ ':' ∉ right ∧
    IsNumber left first ∧ IsNumber right last ∧ first ≤ last

section Grammar

variable {part left right selection : Text} {n : Nat} {range : LineRange}

/-- The plus sign is skipped only where there is one. -/
theorem exists_eq_sign_append_skipPlus (t : Text) :
    ∃ sign, t = sign ++ skipPlus t ∧ (sign = [] ∨ sign = ['+']) := by
  rw [skipPlus.eq_def]
  split
  · exact ⟨['+'], rfl, .inr rfl⟩
  · exact ⟨[], rfl, .inl rfl⟩

/-- Digits have no plus sign to skip. -/
theorem skipPlus_of_isDigit {digits : Text} (h : ∀ c ∈ digits, c.isDigit = true) :
    skipPlus digits = digits := by
  rw [skipPlus.eq_def]
  split
  · exact absurd (h '+' List.mem_cons_self) (by decide)
  · rfl

/-- A number is read behind the plus sign exactly where one is written. -/
theorem toNat?_skipPlus_eq_some_iff :
    toNat? (skipPlus (trim part)) = some n ↔ Writes part n := by
  rw [toNat?_eq_some_iff]
  constructor
  · intro h
    obtain ⟨sign, hpart, hsign⟩ := exists_eq_sign_append_skipPlus (trim part)
    exact ⟨sign, skipPlus (trim part), hpart, hsign, h⟩
  · rintro ⟨sign, digits, hpart, hsign, hdigits⟩
    have hskip : skipPlus (trim part) = digits := by
      rw [hpart]
      rcases hsign with rfl | rfl
      · exact skipPlus_of_isDigit hdigits.2.1
      · rfl
    rw [hskip]
    exact hdigits

/-- A line number is read exactly where one is written that is not too large. -/
theorem number?_eq_some_iff : number? part = some n ↔ Writes part n ∧ n ≤ maxNumber := by
  rw [number?, ← toNat?_skipPlus_eq_some_iff]
  cases toNat? (skipPlus (trim part)) with
  | none => simp
  | some m =>
    dsimp only
    rw [Option.some.injEq]
    constructor
    · intro h
      split at h
      · rename_i hm
        cases h
        exact ⟨rfl, hm⟩
      · cases h
    · rintro ⟨rfl, hm⟩
      exact if_pos hm

/-- Two lines in order make a range, and no others do. -/
theorem between_eq_ok_iff {start stop : Nat} :
    between start stop = .ok range ↔ range.start = start ∧ range.stop = stop := by
  rw [between]
  split
  · rw [Except.ok.injEq]
    constructor
    · rintro rfl
      exact ⟨rfl, rfl⟩
    · obtain ⟨_, _, _⟩ := range
      rintro ⟨rfl, rfl⟩
      rfl
  · rename_i hn
    refine iff_of_false (by simp) ?_
    rintro ⟨rfl, rfl⟩
    exact hn range.ordered

/-- A selection is read as a range exactly when its two parts are read as the numbers
of the first and the last line, counted from one. -/
theorem ofSelection_eq_ok_iff :
    ofSelection selection = .ok range ↔
      ∃ left right, splitOn ':' selection = [left, right] ∧
        number? left = some (range.start + 1) ∧ number? right = some (range.stop + 1) := by
  rw [ofSelection.eq_def]
  split
  · rename_i left right hsplit
    have hparts : (∃ left' right', splitOn ':' selection = [left', right'] ∧
        number? left' = some (range.start + 1) ∧ number? right' = some (range.stop + 1)) ↔
        number? left = some (range.start + 1) ∧ number? right = some (range.stop + 1) := by
      constructor
      · rintro ⟨left', right', heq, h⟩
        rw [hsplit] at heq
        cases heq
        exact h
      · exact fun h => ⟨left, right, hsplit, h⟩
    rw [hparts]
    -- Only two numbers that are not zero get as far as the range between them.
    match number? left, number? right with
    | none, _ => simp
    | some _, none => simp
    | some 0, some _ => simp
    | some (_ + 1), some 0 => simp
    | some (start + 1), some (stop + 1) =>
      dsimp only
      rw [between_eq_ok_iff, Option.some.injEq, Option.some.injEq, Nat.add_left_inj,
        Nat.add_left_inj, eq_comm, eq_comm (a := stop)]
  · rename_i hn
    refine iff_of_false (by simp) ?_
    rintro ⟨left, right, hsplit, -, -⟩
    exact hn left right hsplit

/-- A text is the number of a line when it is read as that number. -/
theorem isNumber_succ_iff : IsNumber part (n + 1) ↔ number? part = some (n + 1) := by
  rw [number?_eq_some_iff, IsNumber]
  exact and_congr_right fun _ => and_iff_right (Nat.le_add_left 1 n)

/-- A selection is read exactly when it is of the form, and as the same lines counted
from zero. -/
theorem ofSelection_eq_ok_iff_selects :
    ofSelection selection = .ok range ↔
      ∃ first last, Selects selection first last ∧ range.start = first - 1 ∧
        range.stop = last - 1 := by
  rw [ofSelection_eq_ok_iff]
  constructor
  · rintro ⟨left, right, hsplit, hstart, hstop⟩
    obtain ⟨hselection, hleft, hright⟩ := splitOn_eq_pair_iff.mp hsplit
    have hordered : range.start + 1 ≤ range.stop + 1 := Nat.succ_le_succ range.ordered
    exact ⟨range.start + 1, range.stop + 1, ⟨left, right, hselection, hleft, hright,
      isNumber_succ_iff.mpr hstart, isNumber_succ_iff.mpr hstop, hordered⟩, rfl, rfl⟩
  · rintro ⟨first, last, ⟨left, right, hselection, hleft, hright, hfirst, hlast, -⟩, hstart, hstop⟩
    have hstart : first = range.start + 1 := by have := hfirst.2.1; omega
    have hstop : last = range.stop + 1 := by have := hlast.2.1; omega
    rw [hstart] at hfirst
    rw [hstop] at hlast
    exact ⟨left, right, splitOn_eq_pair_iff.mpr ⟨hselection, hleft, hright⟩,
      isNumber_succ_iff.mp hfirst, isNumber_succ_iff.mp hlast⟩

/-- A number is read from its decimal digits. -/
theorem toNat?_skipPlus_trim_ofNat (n : Nat) : toNat? (skipPlus (trim (ofNat n))) = some n := by
  have hdigits : ∀ c ∈ ofNat n, c.isDigit = true := fun _ => isDigit_of_mem_ofNat
  rw [trim_of_solid fun c hc => isBlank_eq_false_of_isDigit (hdigits c hc),
    skipPlus_of_isDigit hdigits, toNat?_ofNat]

/-- The digits of a number write that number and no other one. -/
theorem isNumber_ofNat_iff {m : Nat} : IsNumber (ofNat m) n ↔ m = n ∧ 1 ≤ n ∧ n ≤ 2 ^ 64 - 1 := by
  rw [IsNumber, ← toNat?_skipPlus_eq_some_iff, toNat?_skipPlus_trim_ofNat, Option.some_inj]

/-- Two numbers in digits select the lines between them. -/
theorem selects_ofNat_iff {a b first last : Nat} :
    Selects (ofNat a ++ ':' :: ofNat b) first last ↔
      a = first ∧ b = last ∧ 1 ≤ a ∧ a ≤ b ∧ b ≤ 2 ^ 64 - 1 := by
  have hcolon : ∀ n, ':' ∉ ofNat n := fun n hm => absurd (isDigit_of_mem_ofNat hm) (by decide)
  constructor
  · rintro ⟨left, right, hselection, hleft, hright, hfirst, hlast, hordered⟩
    have hsplit := splitOn_eq_pair_iff.mpr ⟨hselection, hleft, hright⟩
    rw [splitOn_eq_pair_iff.mpr ⟨rfl, hcolon a, hcolon b⟩, List.cons.injEq,
      List.singleton_inj] at hsplit
    obtain ⟨rfl, rfl⟩ := hsplit
    obtain ⟨rfl, hone, -⟩ := isNumber_ofNat_iff.mp hfirst
    obtain ⟨rfl, -, hlarge⟩ := isNumber_ofNat_iff.mp hlast
    exact ⟨rfl, rfl, hone, hordered, hlarge⟩
  · rintro ⟨rfl, rfl, hone, hordered, hlarge⟩
    exact ⟨ofNat a, ofNat b, rfl, hcolon a, hcolon b,
      isNumber_ofNat_iff.mpr ⟨rfl, hone, hordered.trans hlarge⟩,
      isNumber_ofNat_iff.mpr ⟨rfl, hone.trans hordered, hlarge⟩, hordered⟩

/-- Two numbers in digits are read exactly as the lines between them. -/
theorem ofSelection_ofNat_iff {a b : Nat} :
    (∃ range, ofSelection (ofNat a ++ ':' :: ofNat b) = .ok range ∧ range.start = a - 1 ∧
      range.stop = b - 1) ↔ 1 ≤ a ∧ a ≤ b ∧ b ≤ 2 ^ 64 - 1 := by
  constructor
  · rintro ⟨range, hrange, -, -⟩
    obtain ⟨first, last, hselects, -, -⟩ := ofSelection_eq_ok_iff_selects.mp hrange
    exact (selects_ofNat_iff.mp hselects).2.2
  · rintro ⟨hone, hordered, hlarge⟩
    have hselects := selects_ofNat_iff.mpr ⟨rfl, rfl, hone, hordered, hlarge⟩
    refine ⟨⟨a - 1, b - 1, Nat.sub_le_sub_right hordered 1⟩, ?_, rfl, rfl⟩
    exact ofSelection_eq_ok_iff_selects.mpr ⟨a, b, hselects, rfl, rfl⟩

end Grammar

section Words

/-- A word of 64 bits without a sign. -/
abbrev Word := BitVec 64

/-- A sum of words; `none` when it is no word. -/
def add? (x y : Word) : Option Word := if x.uaddOverflow y then none else some (x + y)

/-- A product of words; `none` when it is no word. -/
def mul? (x y : Word) : Option Word := if x.umulOverflow y then none else some (x * y)

/-- A difference of words; `none` when it is no word. -/
def sub? (x y : Word) : Option Word := if x.usubOverflow y then none else some (x - y)

/-- Put a digit behind a number; `none` when the longer number is no word. -/
def pushDigit? (value : Word) (d : Nat) : Option Word :=
  (mul? value 10#64).bind fun tenfold => add? tenfold (BitVec.ofNat 64 d)

/-- Continue a number with more digits; `none` at a character that is no digit and
where the number is no word any longer. -/
def wordFrom? : Word → Text → Option Word
  | value, [] => some value
  | value, c :: r =>
    match digit? c with
    | some d => (pushDigit? value d).bind fun next => wordFrom? next r
    | none => none

/-- A line number as a word. -/
def word? (part : Text) : Option Word :=
  match skipPlus (trim part) with
  | [] => none
  | c :: r => wordFrom? 0#64 (c :: r)

/-- The range between two words that count from zero, or the message that they are the
wrong way round. The answer is missing where a sum leaves the words. -/
def wordsBetween (start stop : Word) : Option (Except Text (Word × Word)) :=
  if stop < start then
    (add? start 1#64).bind fun first => (add? stop 1#64).bind fun last =>
      some (.error ("Invalid line range: start line ".toList ++ ofNat first.toNat ++
        " is after end line ".toList ++ ofNat last.toNat))
  else some (.ok (start, stop))

/-- Read a selection with words in place of numbers. The answer is missing where a sum
or a difference leaves the words. -/
def wordsOfSelection (selection : Text) : Option (Except Text (Word × Word)) :=
  match splitOn ':' selection with
  | [left, right] =>
    match word? left, word? right with
    | none, _ => some (.error (SelectionError.badStart left).message)
    | some _, none => some (.error (SelectionError.badStop right).message)
    | some first, some last =>
      if first = 0#64 ∨ last = 0#64 then some (.error SelectionError.zero.message)
      else
        (sub? first 1#64).bind fun start => (sub? last 1#64).bind fun stop =>
          wordsBetween start stop
  | _ => some (.error SelectionError.shape.message)

variable {x y z value w : Word} {t part : Text} {d n : Nat}

/-- Small numbers fit in a word. -/
theorem exists_toNat_eq (h : n < 2 ^ 64) : ∃ w : Word, w.toNat = n :=
  ⟨BitVec.ofNatLT n h, BitVec.toNat_ofNatLT n h⟩

/-- A checked sum is the exact one. -/
theorem add?_eq_some_iff : add? x y = some z ↔ x.toNat + y.toNat = z.toNat := by
  rw [add?]
  split
  · rename_i h
    have hlarge : 2 ^ 64 ≤ x.toNat + y.toNat := of_decide_eq_true h
    have hz := z.isLt
    exact iff_of_false (Option.some_ne_none z).symm (by omega)
  · rename_i h
    rw [Option.some_inj, ← BitVec.toNat_inj, BitVec.toNat_add_of_not_uaddOverflow h]

/-- A checked product is the exact one. -/
theorem mul?_eq_some_iff : mul? x y = some z ↔ x.toNat * y.toNat = z.toNat := by
  rw [mul?]
  split
  · rename_i h
    have hlarge : 2 ^ 64 ≤ x.toNat * y.toNat := of_decide_eq_true h
    have hz := z.isLt
    exact iff_of_false (Option.some_ne_none z).symm (by omega)
  · rename_i h
    rw [Option.some_inj, ← BitVec.toNat_inj, BitVec.toNat_mul_of_not_umulOverflow h]

/-- A checked difference is the exact one. -/
theorem sub?_eq_some_iff : sub? x y = some z ↔ x.toNat = z.toNat + y.toNat := by
  rw [sub?]
  split
  · rename_i h
    have hsmall : x.toNat < y.toNat := of_decide_eq_true h
    exact iff_of_false (Option.some_ne_none z).symm (by omega)
  · rename_i h
    have hle : ¬x.toNat < y.toNat := fun hlt => h (decide_eq_true hlt)
    rw [Option.some_inj, ← BitVec.toNat_inj, BitVec.toNat_sub_of_not_usubOverflow h]
    omega

/-- A digit is pushed without overflow exactly when the new number fits. -/
theorem pushDigit?_eq_some_iff (hd : d < 10) :
    pushDigit? value d = some w ↔ 10 * value.toNat + d = w.toNat := by
  have hdigit : (BitVec.ofNat 64 d).toNat = d := Nat.mod_eq_of_lt (by omega)
  have hten : (10#64).toNat = 10 := rfl
  rw [pushDigit?, Option.bind_eq_some_iff]
  constructor
  · rintro ⟨tenfold, hmul, hadd⟩
    rw [mul?_eq_some_iff, hten] at hmul
    rw [add?_eq_some_iff, hdigit] at hadd
    omega
  · intro h
    have hw := w.isLt
    have hlarge : value.toNat * 10 < 2 ^ 64 := by omega
    obtain ⟨tenfold, htenfold⟩ := exists_toNat_eq hlarge
    refine ⟨tenfold, mul?_eq_some_iff.mpr htenfold.symm, add?_eq_some_iff.mpr ?_⟩
    omega

/-- Digits are read as a word exactly when their value is one: a number that is too
large does not become smaller with more digits. -/
theorem wordFrom?_eq_some_iff :
    wordFrom? value t = some w ↔ digitsFrom? value.toNat t = some w.toNat := by
  induction t generalizing value with
  | nil => rw [wordFrom?, digitsFrom?, Option.some_inj, Option.some_inj, BitVec.toNat_inj]
  | cons c r ih =>
    rw [wordFrom?, digitsFrom?]
    cases hc : digit? c with
    | none => exact iff_of_false (Option.some_ne_none _).symm (Option.some_ne_none _).symm
    | some d =>
      have hpush : ∀ next, pushDigit? value d = some next ↔ 10 * value.toNat + d = next.toNat :=
        fun _ => pushDigit?_eq_some_iff (digit?_lt hc)
      dsimp only
      rw [Option.bind_eq_some_iff]
      constructor
      · rintro ⟨next, hnext, h⟩
        rw [(hpush next).mp hnext]
        exact ih.mp h
      · intro h
        have hle := le_of_digitsFrom?_eq_some h
        obtain ⟨next, hnext⟩ := exists_toNat_eq (hle.trans_lt w.isLt)
        rw [← hnext] at h
        exact ⟨next, (hpush next).mpr hnext.symm, ih.mpr h⟩

/-- The words that are read as line numbers are the line numbers. -/
theorem map_toNat_word? (part : Text) : (word? part).map BitVec.toNat = number? part := by
  have hword : ∀ w, word? part = some w ↔ toNat? (skipPlus (trim part)) = some w.toNat := by
    intro w
    rw [word?]
    cases skipPlus (trim part) with
    | nil => exact iff_of_false (Option.some_ne_none w).symm (Option.some_ne_none _).symm
    | cons c r => exact wordFrom?_eq_some_iff
  ext n
  rw [Option.map_eq_some_iff, number?_eq_some_iff, ← toNat?_skipPlus_eq_some_iff]
  constructor
  · rintro ⟨w, hw, rfl⟩
    exact ⟨(hword w).mp hw, Nat.le_sub_one_of_lt w.isLt⟩
  · rintro ⟨hn, hlarge⟩
    obtain ⟨w, rfl⟩ := exists_toNat_eq (Nat.lt_of_le_sub_one (by decide) hlarge)
    exact ⟨w, (hword w).mpr hn, rfl⟩

/-- The ends of a range. -/
def ends (range : LineRange) : Nat × Nat := (range.start, range.stop)

/-- The numbers that a pair of words stands for. -/
def wordEnds (words : Word × Word) : Nat × Nat := (words.1.toNat, words.2.toNat)

/-- Two words that count from zero, with words for the numbers behind them, give the
range between them or its message. -/
theorem exists_wordsBetween_eq {start stop first last : Word}
    (hfirst : first.toNat = start.toNat + 1) (hlast : last.toNat = stop.toNat + 1) :
    ∃ words, wordsBetween start stop = some words ∧
      words.map wordEnds =
        ((between start.toNat stop.toNat).mapError SelectionError.message).map ends := by
  have hone : (1#64).toNat = 1 := rfl
  rw [wordsBetween, between]
  by_cases hordered : start.toNat ≤ stop.toNat
  · rw [if_neg (by rw [BitVec.lt_def]; omega), dif_pos hordered]
    exact ⟨_, rfl, rfl⟩
  · rw [if_pos (by rw [BitVec.lt_def]; omega), dif_neg hordered,
      add?_eq_some_iff.mpr (by rw [hfirst, hone]), add?_eq_some_iff.mpr (by rw [hlast, hone])]
    refine ⟨_, rfl, ?_⟩
    rw [hfirst, hlast]
    rfl

/-- With words in place of numbers a selection is read in the same way, and nothing
leaves the words. -/
theorem exists_wordsOfSelection_eq (selection : Text) :
    ∃ words, wordsOfSelection selection = some words ∧
      words.map wordEnds =
        ((ofSelection selection).mapError SelectionError.message).map ends := by
  rw [wordsOfSelection, ofSelection]
  generalize splitOn ':' selection = parts
  match parts with
  | [left, right] =>
    dsimp only
    rw [← map_toNat_word? left, ← map_toNat_word? right]
    match word? left, word? right with
    | none, _ => exact ⟨_, rfl, rfl⟩
    | some _, none => exact ⟨_, rfl, rfl⟩
    | some first, some last =>
      rw [Option.map_some, Option.map_some]
      dsimp only
      -- A word is zero or one more than another word, as a number is.
      cases hfirst : first.toNat with
      | zero =>
        rw [if_pos (.inl (BitVec.eq_of_toNat_eq hfirst))]
        exact ⟨_, rfl, rfl⟩
      | succ a =>
        cases hlast : last.toNat with
        | zero =>
          rw [if_pos (.inr (BitVec.eq_of_toNat_eq hlast))]
          exact ⟨_, rfl, rfl⟩
        | succ b =>
          have hzero : ¬(first = 0#64 ∨ last = 0#64) := by
            rintro (rfl | rfl)
            · cases hfirst
            · cases hlast
          obtain ⟨start, rfl⟩ := exists_toNat_eq (n := a) (by have := first.isLt; omega)
          obtain ⟨stop, rfl⟩ := exists_toNat_eq (n := b) (by have := last.isLt; omega)
          rw [if_neg hzero, sub?_eq_some_iff.mpr hfirst, sub?_eq_some_iff.mpr hlast]
          exact exists_wordsBetween_eq hfirst hlast
  | [] | [_] | _ :: _ :: _ :: _ => exact ⟨_, rfl, rfl⟩

end Words

/-- A selection is read exactly when it is of the form, as the same lines counted from
zero; the digits of two numbers are one exactly when the numbers are line numbers in
order. Nothing is out of the range of words on the way. -/
theorem ofSelection_grammar_and_words :
    (∀ selection range, ofSelection selection = .ok range ↔
      ∃ first last, Selects selection first last ∧ range.start = first - 1 ∧
        range.stop = last - 1) ∧
    (∀ a b, (∃ range, ofSelection (ofNat a ++ ':' :: ofNat b) = .ok range ∧
      range.start = a - 1 ∧ range.stop = b - 1) ↔ 1 ≤ a ∧ a ≤ b ∧ b ≤ 2 ^ 64 - 1) ∧
    ∀ selection, ∃ words, wordsOfSelection selection = some words ∧
      words.map wordEnds =
        ((ofSelection selection).mapError SelectionError.message).map ends :=
  ⟨fun _ _ => ofSelection_eq_ok_iff_selects, fun _ _ => ofSelection_ofNat_iff,
    exists_wordsOfSelection_eq⟩

/-- A plus sign, zeros in front and blanks around a number do not count. -/
example : ofSelection " +007:12\u00a0".toList = .ok ⟨6, 11, by decide⟩ := by decide

end Docblock.LineRange
