import Docblock.Proofs.Text.Trim

/-!
# Decimal digits

A text of one or more ASCII digits is read as its decimal value, and no other text
is read. A number is read back from its digits.
-/

namespace Docblock.Text

variable {t : Text} {value n : Nat}

/-- The value of a digit is its distance from zero. -/
theorem digit?_eq_some_iff {c : Char} {d : Nat} :
    digit? c = some d ↔ c.isDigit = true ∧ c.toNat - '0'.toNat = d := by
  rw [digit?]
  split
  · rename_i hc
    rw [Option.some.injEq, and_iff_right hc]
  · rename_i hc
    exact iff_of_false (Option.some_ne_none d).symm fun h => hc h.1

/-- Digits are below ten. -/
theorem digit?_lt {c : Char} {d : Nat} (h : digit? c = some d) : d < 10 := by
  obtain ⟨hc, hvalue⟩ := digit?_eq_some_iff.mp h
  rw [Char.isDigit, Bool.and_eq_true, decide_eq_true_eq, decide_eq_true_eq] at hc
  have hle : c.toNat ≤ '9'.toNat := UInt32.le_iff_toNat_le.mp hc.2
  have hzero : '0'.toNat = 48 := rfl
  have hnine : '9'.toNat = 57 := rfl
  omega

/-- Digits are read one behind the other, and nothing but digits is read. -/
theorem digitsFrom?_eq_some_iff :
    digitsFrom? value t = some n ↔
      (∀ c ∈ t, c.isDigit = true) ∧ Nat.ofDigitChars 10 t value = n := by
  induction t generalizing value with
  | nil => simp [digitsFrom?]
  | cons c r ih =>
    rw [digitsFrom?, List.forall_mem_cons, Nat.ofDigitChars_cons]
    cases hd : digit? c with
    | none =>
      dsimp only
      have hc : ¬c.isDigit = true := by
        intro hc
        rw [digit?_eq_some_iff.mpr ⟨hc, rfl⟩] at hd
        cases hd
      exact iff_of_false (Option.some_ne_none n).symm fun h => hc h.1.1
    | some d =>
      obtain ⟨hc, hvalue⟩ := digit?_eq_some_iff.mp hd
      dsimp only
      rw [ih, and_iff_right hc, hvalue]

/-- A number is read from one or more digits. -/
theorem toNat?_eq_some_iff :
    toNat? t = some n ↔
      t ≠ [] ∧ (∀ c ∈ t, c.isDigit = true) ∧ Nat.ofDigitChars 10 t 0 = n := by
  cases t with
  | nil => simp [toNat?]
  | cons c r =>
    rw [toNat?, digitsFrom?_eq_some_iff]
    exact (and_iff_right (List.cons_ne_nil c r)).symm

/-- More digits make no smaller number. -/
theorem le_of_digitsFrom?_eq_some (h : digitsFrom? value t = some n) : value ≤ n := by
  induction t generalizing value with
  | nil => exact Nat.le_of_eq (Option.some.inj h)
  | cons c r ih =>
    rw [digitsFrom?] at h
    cases hd : digit? c with
    | none => rw [hd] at h; cases h
    | some d =>
      rw [hd] at h
      have hle := ih h
      omega

/-- Numbers are written in digits. -/
theorem isDigit_of_mem_ofNat {c : Char} (h : c ∈ ofNat n) : c.isDigit = true :=
  Nat.isDigit_of_mem_toDigits (by decide) (by decide) h

/-- No digit is blank. -/
theorem isBlank_eq_false_of_isDigit {c : Char} (h : c.isDigit = true) : isBlank c = false :=
  isBlank_eq_false_of_test (by decide +kernel) h

/-- A number is read back from its digits. -/
theorem toNat?_ofNat (n : Nat) : toNat? (ofNat n) = some n :=
  toNat?_eq_some_iff.mpr
    ⟨Nat.toDigits_ne_nil, fun _ => isDigit_of_mem_ofNat, Nat.ofDigitChars_ten_toDigits⟩

end Docblock.Text
