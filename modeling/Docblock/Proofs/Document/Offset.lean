import Mathlib.Data.List.Basic
import Docblock.Edit.Apply
import Docblock.Proofs.Document.Rows

/-!
# Positions and offsets

A position is in a document when its line is there and its character is not
behind the end of the line. It then has an offset in the text of the document,
and in a text that is cut into rows the order of the positions is the order of
their offsets.
-/

namespace Docblock

namespace Position

/-- Positions are compared by line first and by character then. -/
theorem isBefore_iff (a b : Position) :
    a.isBefore b = true ↔ a.line < b.line ∨ (a.line = b.line ∧ a.character < b.character) := by
  rw [isBefore, decide_eq_true_iff, compare]
  split
  · rename_i hlt
    exact ⟨fun _ => .inl hlt, fun _ => rfl⟩
  · split
    · exact ⟨fun h => (by cases h), fun h => by omega⟩
    · split
      · exact ⟨fun _ => .inr ⟨by omega, by assumption⟩, fun _ => rfl⟩
      · split
        · exact ⟨fun h => (by cases h), fun h => by omega⟩
        · exact ⟨fun h => (by cases h), fun h => by omega⟩

/-- A position is not in front of another one when it is behind it or the same. -/
theorem isBefore_eq_false_iff (a b : Position) :
    a.isBefore b = false ↔ b.line < a.line ∨ (a.line = b.line ∧ b.character ≤ a.character) := by
  rw [← Bool.not_eq_true, isBefore_iff]
  omega

@[simp] theorem isBefore_self (a : Position) : a.isBefore a = false :=
  (isBefore_eq_false_iff a a).mpr (.inr ⟨rfl, Nat.le_refl _⟩)

/-- Of two positions one stands in front of the other, or they are the same. -/
theorem isBefore_or_eq_or_isBefore (a b : Position) :
    a.isBefore b = true ∨ a = b ∨ b.isBefore a = true := by
  obtain ⟨line, character⟩ := a
  obtain ⟨line', character'⟩ := b
  rw [isBefore_iff, isBefore_iff, mk.injEq]
  dsimp only
  omega

/-- A place on a later row is never in front of the start of an earlier one. -/
theorem isBefore_add_line (line more character : Nat) :
    isBefore ⟨line + more, character⟩ ⟨line, 0⟩ = false := by
  rw [isBefore_eq_false_iff]
  dsimp only
  omega

/-- What stands in front of a position stands in front of all behind it. -/
theorem isBefore_trans {a b c : Position} (hab : a.isBefore b = true) (hbc : b.isBefore c = true) :
    a.isBefore c = true := by
  rw [isBefore_iff] at hab hbc ⊢
  omega

end Position

namespace Row

/-- The number of characters of some rows, their breaks included. -/
def width (rows : List Row) : Nat := (rows.flatMap content).length

/-- The widths of rows add up. -/
theorem width_append (a b : List Row) : width (a ++ b) = width a + width b := by
  simp [width]

/-- Longer runs of rows are no narrower. -/
theorem width_take_le_width_take (rows : List Row) {m n : Nat} (h : m ≤ n) :
    width (rows.take m) ≤ width (rows.take n) := by
  obtain ⟨more, hmore⟩ := List.take_prefix_take_left (l := rows) h
  rw [← hmore, width_append]
  exact Nat.le_add_right _ _

/-- One row more adds its content. -/
theorem width_take_succ {rows : List Row} {number : Nat} {row : Row}
    (h : rows[number]? = some row) :
    width (rows.take (number + 1)) = width (rows.take number) + row.content.length := by
  rw [List.take_add_one, h, width_append]
  simp [width]

/-- A row lies in front of the rows behind it. -/
theorem width_take_add_length_le {rows : List Row} {number stop : Nat} {row : Row}
    (h : rows[number]? = some row) (hstop : number < stop) :
    width (rows.take number) + row.text.length + row.ending.text.length ≤
      width (rows.take stop) := by
  have hcontent : row.content.length = row.text.length + row.ending.text.length :=
    List.length_append
  have hle := width_take_le_width_take rows (Nat.succ_le_of_lt hstop)
  rw [Nat.succ_eq_add_one, width_take_succ h, hcontent] at hle
  omega

/-- A character of a row lies behind the rows in front of that row. -/
theorem offset?_append (before : List Row) (row : Row) (behind : List Row) {character : Nat}
    (hc : character ≤ row.text.length) :
    offset? (before ++ row :: behind) before.length character =
      some (width before + character) := by
  induction before with
  | nil => simp [offset?, hc, width]
  | cons r before ih =>
    rw [List.cons_append, List.length_cons, offset?, ih, Option.map_some]
    simp [width, Nat.add_assoc]

/-- A line that is too short has no such character. -/
theorem offset?_eq_none {rows : List Row} {line character : Nat}
    (h : ∀ row, rows[line]? = some row → row.text.length < character) :
    offset? rows line character = none := by
  induction rows generalizing line with
  | nil => rfl
  | cons row rest ih =>
    cases line with
    | zero => exact if_neg (Nat.not_le.mpr (h row rfl))
    | succ line => rw [offset?, ih fun other hother => h other hother, Option.map_none]

end Row

namespace Document

/-- Whether a position is in a document; the place behind the last character of
a line is. -/
def holds (document : Document) (position : Position) : Bool :=
  document.rows[position.line]?.any fun row => decide (position.character ≤ row.text.length)

/-- The number of characters of a document in front of a position. -/
def index (document : Document) (position : Position) : Nat :=
  Row.width (document.rows.take position.line) + position.character

/-- A document holds the positions on its rows, the place behind the last character
included. -/
theorem holds_iff {document : Document} {position : Position} :
    document.holds position = true ↔
      ∃ row, document.rows[position.line]? = some row ∧ position.character ≤ row.text.length := by
  rw [holds]
  cases document.rows[position.line]? with
  | none => simp
  | some row => simp

/-- A position in the document has the characters in front of it as its offset,
and another one has none. -/
theorem offset_eq (document : Document) (position : Position) :
    document.offset position =
      if document.holds position then .ok (document.index position)
      else .error (.outOfBounds position) := by
  by_cases h : document.holds position = true
  · obtain ⟨row, hrow, hcharacter⟩ := holds_iff.mp h
    obtain ⟨hlt, hget⟩ := List.getElem?_eq_some_iff.mp hrow
    have hrows : document.rows = document.rows.take position.line ++
        row :: document.rows.drop (position.line + 1) := by
      rw [← hget, ← List.drop_eq_getElem_cons hlt, List.take_append_drop]
    have hlength : (document.rows.take position.line).length = position.line :=
      List.length_take_of_le (Nat.le_of_lt hlt)
    have hoffset := Row.offset?_append (document.rows.take position.line) row
      (document.rows.drop (position.line + 1)) hcharacter
    rw [← hrows, hlength] at hoffset
    rw [if_pos h, offset, hoffset, index]
  · have hnone : Row.offset? document.rows position.line position.character = none := by
      apply Row.offset?_eq_none
      intro row hrow
      by_contra hle
      exact h (holds_iff.mpr ⟨row, hrow, Nat.not_lt.mp hle⟩)
    rw [if_neg h, offset, hnone]

/-- No position in a document lies behind its text. -/
theorem index_le_length {document : Document} {position : Position}
    (h : document.holds position = true) :
    document.index position ≤ document.content.length := by
  obtain ⟨row, hrow, hcharacter⟩ := holds_iff.mp h
  obtain ⟨hlt, _⟩ := List.getElem?_eq_some_iff.mp hrow
  have hle := Row.width_take_add_length_le hrow hlt
  have hwidth : Row.width document.rows = document.content.length := rfl
  rw [List.take_length] at hle
  rw [index]
  omega

/-- The offset of a position is the width of the rows above and its character. -/
theorem offset_append (before : List Row) (row : Row) (behind : List Row) (language : Text)
    {character : Nat} (hc : character ≤ row.text.length) :
    offset ⟨before ++ row :: behind, language⟩ ⟨before.length, character⟩ =
      .ok (Row.width before + character) := by
  rw [offset, Row.offset?_append before row behind hc]

variable {document : Document}

/-- Positions in order have offsets in order, because the place at the end of a row is in
front of its break. -/
theorem index_lt_index_of_isBefore (hc : Row.Canonical document.rows) {a b : Position}
    (ha : document.holds a = true) (hb : document.holds b = true) (h : a.isBefore b = true) :
    document.index a < document.index b := by
  rw [index, index]
  rcases (Position.isBefore_iff a b).mp h with hline | ⟨hline, hcharacter⟩
  · obtain ⟨row, hrow, hcharacter⟩ := holds_iff.mp ha
    obtain ⟨before, last, hrows, hbefore, _⟩ := hc
    obtain ⟨other, hother, _⟩ := holds_iff.mp hb
    -- A line with another one behind it has a break.
    have hlength : b.line < (before ++ [last]).length := by
      rw [← hrows]
      exact (List.getElem?_eq_some_iff.mp hother).1
    have hmem : row ∈ before := by
      rw [List.length_append, List.length_singleton] at hlength
      rw [hrows, List.getElem?_append_left (by omega)] at hrow
      exact List.mem_of_getElem? hrow
    have hbreak : 0 < row.ending.text.length := by
      cases hending : row.ending with
      | none => exact absurd hending (hbefore row hmem).broken
      | lf => exact Nat.zero_lt_succ _
      | crlf => exact Nat.zero_lt_succ _
    have hle := Row.width_take_add_length_le hrow hline
    omega
  · rw [hline]
    omega

/-- In rows cut out of a text positions are ordered as their offsets. -/
theorem isBefore_iff_index_lt (hc : Row.Canonical document.rows) {a b : Position}
    (ha : document.holds a = true) (hb : document.holds b = true) :
    a.isBefore b = true ↔ document.index a < document.index b := by
  constructor
  · exact index_lt_index_of_isBefore hc ha hb
  · intro h
    rcases a.isBefore_or_eq_or_isBefore b with hab | rfl | hba
    · exact hab
    · exact absurd h (Nat.lt_irrefl _)
    · exact absurd (index_lt_index_of_isBefore hc hb ha hba) (Nat.lt_asymm h)

/-- Positions that are not in order have offsets that are not. -/
theorem isBefore_eq_false_iff_index_le (hc : Row.Canonical document.rows) {a b : Position}
    (ha : document.holds a = true) (hb : document.holds b = true) :
    a.isBefore b = false ↔ document.index b ≤ document.index a := by
  rw [← Bool.not_eq_true, isBefore_iff_index_lt hc ha hb, Nat.not_lt]

/-- Two positions at one offset are the same. -/
theorem eq_of_index_eq (hc : Row.Canonical document.rows) {a b : Position}
    (ha : document.holds a = true) (hb : document.holds b = true)
    (h : document.index a = document.index b) : a = b := by
  rcases a.isBefore_or_eq_or_isBefore b with hab | heq | hba
  · exact absurd h (Nat.ne_of_lt (index_lt_index_of_isBefore hc ha hb hab))
  · exact heq
  · exact absurd h (Nat.ne_of_gt (index_lt_index_of_isBefore hc hb ha hba))

end Document

end Docblock
