import Mathlib.Data.List.Basic
import Docblock.Text.Basic

/-!
# Lines and the texts made of them

A text without line feeds is one line, and lines that end in line feeds are
the lines of the text they make. Joining lines with line feeds between them
loses nothing but an empty last line.
-/

namespace Docblock.Text

/-- A line that any break can end: it holds no line feed, and no carriage
return at its end could be taken for a part of the break. -/
structure Breakable (l : Text) : Prop where
  /-- The text is one line. -/
  oneLine : '\n' ∉ l
  /-- The last character is no carriage return. -/
  noReturn : l.getLast? ≠ some '\r'

/-- The text in which each of some lines is ended by a line feed. -/
def unlines (ls : List Text) : Text := ls.flatMap (· ++ ['\n'])

@[simp] theorem unlines_nil : unlines [] = [] := rfl

@[simp] theorem unlines_cons (l : Text) (ls : List Text) :
    unlines (l :: ls) = l ++ '\n' :: unlines ls := by
  simp [unlines]

/-- Lines are written one after the other. -/
@[simp] theorem unlines_append (ls ms : List Text) :
    unlines (ls ++ ms) = unlines ls ++ unlines ms := by
  simp [unlines]

/-- A line without a line feed in front of one is the first line. -/
theorem lines_line {l : Text} (hl : '\n' ∉ l) (t : Text) :
    lines (l ++ '\n' :: t) = l :: lines t := by
  induction l with
  | nil => rfl
  | cons c r ih =>
    rw [List.mem_cons, not_or] at hl
    rw [List.cons_append, lines, if_neg (Ne.symm hl.1), ih hl.2, consFirst]

/-- A text without a line feed is its own only line, unless it is empty. -/
theorem lines_of_not_mem {l : Text} (hl : '\n' ∉ l) (hne : l ≠ []) : lines l = [l] := by
  induction l with
  | nil => exact absurd rfl hne
  | cons c r ih =>
    rw [List.mem_cons, not_or] at hl
    rw [lines, if_neg (Ne.symm hl.1)]
    cases r with
    | nil => rfl
    | cons d s => rw [ih hl.2 (List.cons_ne_nil d s), consFirst]

/-- Lines that are ended by line feeds come apart again. -/
theorem lines_unlines_append {ls : List Text} (hls : ∀ l ∈ ls, '\n' ∉ l) (t : Text) :
    lines (unlines ls ++ t) = ls ++ lines t := by
  induction ls with
  | nil => rfl
  | cons l ls ih =>
    rw [List.forall_mem_cons] at hls
    rw [unlines_cons, List.append_assoc, List.cons_append, lines_line hls.1, ih hls.2,
      List.cons_append]

/-- Lines that are written are read again. -/
theorem lines_unlines {ls : List Text} (hls : ∀ l ∈ ls, '\n' ∉ l) : lines (unlines ls) = ls := by
  have h := lines_unlines_append hls []
  rwa [List.append_nil, lines, List.append_nil] at h

/-- A character that is no line feed brings none into the first line. -/
theorem not_mem_of_mem_consFirst {c : Char} (hc : c ≠ '\n') {ls : List Text}
    (hls : ∀ l ∈ ls, '\n' ∉ l) : ∀ l ∈ consFirst c ls, '\n' ∉ l := by
  cases ls with
  | nil => simpa [consFirst] using hc.symm
  | cons l ls =>
    rw [List.forall_mem_cons] at hls
    rw [consFirst, List.forall_mem_cons]
    refine ⟨?_, hls.2⟩
    rw [List.mem_cons, not_or]
    exact ⟨hc.symm, hls.1⟩

/-- No line holds a line feed. -/
theorem not_mem_of_mem_lines (t : Text) : ∀ l ∈ lines t, '\n' ∉ l := by
  induction t with
  | nil => simp [lines]
  | cons c r ih =>
    rw [lines]
    split
    · rw [List.forall_mem_cons]
      exact ⟨List.not_mem_nil, ih⟩
    · exact not_mem_of_mem_consFirst (by assumption) ih

/-- A character in front of lines needs a line to stand in. -/
theorem length_consFirst (c : Char) (ls : List Text) :
    (consFirst c ls).length = max 1 ls.length := by
  cases ls with
  | nil => rfl
  | cons l ls => simp [consFirst]

/-- A character goes into the first line, whatever lines follow. -/
theorem consFirst_append {ls : List Text} (hls : ls ≠ []) (c : Char) (ms : List Text) :
    consFirst c (ls ++ ms) = consFirst c ls ++ ms := by
  cases ls with
  | nil => exact absurd rfl hls
  | cons l ls => rfl

/-- Only the empty text has no lines. -/
theorem lines_ne_nil {t : Text} (ht : t ≠ []) : lines t ≠ [] := by
  cases t with
  | nil => exact absurd rfl ht
  | cons c r =>
    rw [lines]
    split
    · exact List.cons_ne_nil _ _
    · cases lines r with
      | nil => exact List.cons_ne_nil _ _
      | cons l ls => exact List.cons_ne_nil _ _

/-- What stands behind a line feed does not change the lines in front of it. -/
theorem lines_append_cons_lineFeed (t u : Text) :
    lines (t ++ '\n' :: u) = lines (t ++ ['\n']) ++ lines u := by
  induction t with
  | nil => rfl
  | cons c r ih =>
    have hne : lines (r ++ ['\n']) ≠ [] :=
      lines_ne_nil (List.append_ne_nil_of_right_ne_nil r (List.cons_ne_nil _ _))
    rw [List.cons_append, List.cons_append, lines, lines, ih]
    split
    · rfl
    · exact consFirst_append hne c _

/-- Lines ended by line feeds come in front of the lines of what follows, also
where one of them is several lines. -/
theorem lines_unlines_append_text (ls : List Text) (t : Text) :
    lines (unlines ls ++ t) = lines (unlines ls) ++ lines t := by
  rcases List.eq_nil_or_concat ls with rfl | ⟨ks, l, rfl⟩
  · rfl
  · have hlast : unlines (ks.concat l) = unlines ks ++ l ++ ['\n'] := by
      simp
    rw [hlast, List.append_assoc _ ['\n'], List.singleton_append, lines_append_cons_lineFeed]

/-- Ending the lines of a text gives the text back, up to a line feed at its end. -/
theorem unlines_lines (t : Text) : unlines (lines t) = t ∨ unlines (lines t) = t ++ ['\n'] := by
  induction t with
  | nil => exact .inl rfl
  | cons c r ih =>
    rw [lines]
    split
    · rename_i hc
      rw [unlines_cons, hc]
      exact ih.imp (congrArg ('\n' :: ·)) (congrArg ('\n' :: ·))
    · cases hr : lines r with
      | nil =>
        have hnil : r = [] := by
          by_contra hne
          exact lines_ne_nil hne hr
        rw [hnil]
        exact .inr rfl
      | cons l ls =>
        rw [hr] at ih
        rw [consFirst, unlines_cons, List.cons_append, ← unlines_cons]
        exact ih.imp (congrArg (c :: ·)) (congrArg (c :: ·))

/-- The lines in front of a last one are as many as the line feeds. -/
theorem length_lines_append (t : Text) {l : Text} (hl : '\n' ∉ l) (hne : l ≠ []) :
    (lines (t ++ l)).length = t.count '\n' + 1 := by
  induction t with
  | nil => rw [List.nil_append, lines_of_not_mem hl hne]; rfl
  | cons c r ih =>
    rw [List.cons_append, lines, List.count_cons]
    split
    · rename_i hc
      rw [List.length_cons, ih, hc]
      simp
    · rename_i hc
      rw [length_consFirst, ih]
      simp [hc]

/-- Every line that is written has a line feed. -/
theorem length_le_count_unlines (ls : List Text) : ls.length ≤ (unlines ls).count '\n' := by
  induction ls with
  | nil => exact Nat.le_refl 0
  | cons l ls ih =>
    rw [unlines_cons, List.count_append, List.count_cons_self, List.length_cons]
    omega

/-- Ended lines have one line feed each exactly when none of them is several lines. -/
theorem count_unlines_eq_length_iff (ls : List Text) :
    (unlines ls).count '\n' = ls.length ↔ ∀ l ∈ ls, '\n' ∉ l := by
  induction ls with
  | nil => simp
  | cons l ls ih =>
    have hle := length_le_count_unlines ls
    have hsplit : (unlines (l :: ls)).count '\n' = (l :: ls).length ↔
        l.count '\n' = 0 ∧ (unlines ls).count '\n' = ls.length := by
      rw [unlines_cons, List.count_append, List.count_cons_self, List.length_cons]
      omega
    rw [hsplit, ih, List.forall_mem_cons, List.count_eq_zero]

/-- The separator stands between neighbours. -/
theorem joinWith_cons_cons (separator l m : Text) (ls : List Text) :
    joinWith separator (l :: m :: ls) = l ++ separator ++ joinWith separator (m :: ls) := rfl

/-- Joining puts the last piece behind the lines in front of it. -/
theorem joinWith_append_singleton (ls : List Text) (l : Text) :
    joinWith ['\n'] (ls ++ [l]) = unlines ls ++ l := by
  induction ls with
  | nil => rfl
  | cons k ks ih =>
    cases ks with
    | nil => simp [joinWith]
    | cons m ms =>
      rw [List.cons_append, List.cons_append, joinWith_cons_cons, ← List.cons_append, ih,
        unlines_cons]
      simp

/-- Joined lines come apart again when the last one is not empty. -/
theorem lines_joinWith {ls : List Text} (hls : ∀ l ∈ ls, '\n' ∉ l) {l : Text} (hl : '\n' ∉ l)
    (hne : l ≠ []) : lines (joinWith ['\n'] (ls ++ [l])) = ls ++ [l] := by
  rw [joinWith_append_singleton, lines_unlines_append hls, lines_of_not_mem hl hne]

/-- An occurrence is replaced. -/
@[simp] theorem replaceChar_cons_self (old : Char) (new t : Text) :
    replaceChar old new (old :: t) = new ++ replaceChar old new t := by
  simp [replaceChar]

/-- Any other character stays. -/
theorem replaceChar_cons_of_ne {old c : Char} (hc : c ≠ old) (new t : Text) :
    replaceChar old new (c :: t) = c :: replaceChar old new t := by
  simp [replaceChar, hc]

end Docblock.Text
