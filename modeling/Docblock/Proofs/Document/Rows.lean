import Mathlib.Data.List.Basic
import Docblock.Document.Basic
import Docblock.Proofs.Text.Lines

/-!
# Rows and the texts they come from

Cutting a text into rows loses nothing, and rows that could come from a text
are found again in the text they make. Text put in front of a row becomes rows
of its own, one for each line feed in it.
-/

namespace Docblock.Row

open Text

/-- A row that another row follows: it has a break, and a carriage return in
front of a line feed belongs to that break. -/
structure Ended (row : Row) : Prop where
  /-- The text is one line. -/
  oneLine : '\n' ∉ row.text
  /-- There is a break. -/
  broken : row.ending ≠ .none
  /-- No carriage return is left in front of a line feed. -/
  noReturn : row.ending = .lf → row.text.getLast? ≠ some '\r'

/-- A line that can be broken is a row with its break. -/
theorem ended_of_breakable {l : Text} (h : Breakable l) {ending : Break} (he : ending ≠ .none) :
    Ended ⟨l, ending⟩ :=
  ⟨h.oneLine, he, fun _ => h.noReturn⟩

/-- A row that ends the text. -/
structure Final (row : Row) : Prop where
  /-- The text is one line. -/
  oneLine : '\n' ∉ row.text
  /-- There is no break. -/
  unbroken : row.ending = .none

/-- Rows that a text can be cut into: only the last one has no break. -/
def Canonical (rows : List Row) : Prop :=
  ∃ before last, rows = before ++ [last] ∧ (∀ row ∈ before, Ended row) ∧ Final last

/-- One row without a break is canonical. -/
theorem canonical_singleton {row : Row} (h : Final row) : Canonical [row] :=
  ⟨[], row, rfl, fun _ hr => absurd hr List.not_mem_nil, h⟩

/-- Rows with breaks may stand in front of canonical ones. -/
theorem canonical_append {a b : List Row} (ha : ∀ row ∈ a, Ended row) (hb : Canonical b) :
    Canonical (a ++ b) := by
  obtain ⟨before, last, rfl, hbefore, hlast⟩ := hb
  refine ⟨a ++ before, last, by rw [List.append_assoc], ?_, hlast⟩
  intro row hr
  rcases List.mem_append.mp hr with hr | hr
  · exact ha row hr
  · exact hbefore row hr

/-- A row with a break goes in front of canonical rows. -/
theorem canonical_cons {row : Row} {rows : List Row} (hr : Ended row) (h : Canonical rows) :
    Canonical (row :: rows) := by
  have hs : ∀ r ∈ [row], Ended r := by simpa using hr
  exact canonical_append hs h

/-- Of canonical rows only the last can be without a break. -/
theorem ended_of_canonical_append {a b : List Row} (h : Canonical (a ++ b)) (hb : b ≠ []) :
    (∀ row ∈ a, Ended row) ∧ Canonical b := by
  obtain ⟨before, last, he, hbefore, hlast⟩ := h
  obtain ⟨init, final, rfl⟩ := (List.eq_nil_or_concat' b).resolve_left hb
  rw [← List.append_assoc] at he
  obtain ⟨hinit, hfinal⟩ := List.append_inj' he rfl
  cases hfinal
  constructor
  · intro row hr
    exact hbefore row (hinit ▸ List.mem_append_left init hr)
  · refine ⟨init, last, rfl, ?_, hlast⟩
    intro row hr
    exact hbefore row (hinit ▸ List.mem_append_right a hr)

/-- Canonical rows have no line feeds in their texts. -/
theorem oneLine_of_canonical {rows : List Row} (h : Canonical rows) :
    ∀ row ∈ rows, '\n' ∉ row.text := by
  obtain ⟨before, last, rfl, hbefore, hlast⟩ := h
  intro row hr
  rcases List.mem_append.mp hr with hr | hr
  · exact (hbefore row hr).oneLine
  · rw [List.mem_singleton.mp hr]
    exact hlast.oneLine

/-- A character more in the first row is a character more in the content. -/
@[simp] theorem content_consFirst (c : Char) (rows : List Row) :
    (consFirst c rows).flatMap content = c :: rows.flatMap content := by
  cases rows <;> simp [consFirst, content, Break.text]

/-- Cutting a text into rows loses nothing. -/
@[simp] theorem content_ofText (t : Text) : (ofText t).flatMap content = t := by
  fun_induction ofText t with
  | case1 => rfl
  | case2 r ih => simp [content, Break.text, ih]
  | case3 r ih => simp [content, Break.text, ih]
  | case4 c r _ _ ih => rw [content_consFirst, ih]

/-- A character that belongs to no break goes to the first row. -/
theorem ofText_cons {c : Char} {t : Text} (hc : c ≠ '\n') (ht : c = '\r' → t.head? ≠ some '\n') :
    ofText (c :: t) = consFirst c (ofText t) := by
  rw [ofText]
  · exact hc
  · rintro r rfl rfl
    exact ht rfl rfl

/-- The text of a row that has a break is cut off as that row. -/
theorem ofText_content_append {row : Row} (h : Ended row) (t : Text) :
    ofText (row.content ++ t) = row :: ofText t := by
  obtain ⟨text, ending⟩ := row
  induction text with
  | nil =>
    cases ending with
    | none => exact absurd rfl h.broken
    | lf => rfl
    | crlf => rfl
  | cons c r ih =>
    have hmem := h.oneLine
    rw [List.mem_cons, not_or] at hmem
    have hr : Ended ⟨r, ending⟩ := by
      refine ⟨hmem.2, h.broken, ?_⟩
      intro he hl
      apply h.noReturn he
      cases r with
      | nil => cases hl
      | cons d s => rwa [List.getLast?_cons_cons]
    have hcut : ofText (c :: ((⟨r, ending⟩ : Row).content ++ t)) =
        consFirst c (ofText ((⟨r, ending⟩ : Row).content ++ t)) := by
      apply ofText_cons (Ne.symm hmem.1)
      rintro rfl hh
      cases r with
      | cons d s =>
        have hd : d = '\n' := by simpa [content] using hh
        exact hmem.2 (hd ▸ List.mem_cons_self)
      | nil =>
        cases ending with
        | none => exact h.broken rfl
        | lf => exact h.noReturn rfl rfl
        | crlf => simp [content, Break.text] at hh
    have hcons : (⟨c :: r, ending⟩ : Row).content ++ t = c :: ((⟨r, ending⟩ : Row).content ++ t) :=
      rfl
    rw [hcons, hcut, ih hr, consFirst]

/-- A text without line feeds is one row. -/
theorem ofText_of_not_mem {l : Text} (hl : '\n' ∉ l) : ofText l = [⟨l, .none⟩] := by
  induction l with
  | nil => rfl
  | cons c r ih =>
    rw [List.mem_cons, not_or] at hl
    have hr : c = '\r' → r.head? ≠ some '\n' := by
      intro _ hh
      exact hl.2 (List.mem_of_mem_head? hh)
    rw [ofText_cons (Ne.symm hl.1) hr, ih hl.2, consFirst]

/-- Canonical rows are found again in the text they make. -/
theorem ofText_content {rows : List Row} (h : Canonical rows) :
    ofText (rows.flatMap content) = rows := by
  obtain ⟨before, last, rfl, hbefore, hlast⟩ := h
  induction before with
  | nil =>
    obtain ⟨text, ending⟩ := last
    have he : ending = .none := hlast.unbroken
    subst he
    simpa [content, Break.text] using ofText_of_not_mem hlast.oneLine
  | cons row before ih =>
    rw [List.forall_mem_cons] at hbefore
    rw [List.cons_append, List.flatMap_cons, ofText_content_append hbefore.1, ih hbefore.2]

/-- A text is cut into canonical rows. -/
theorem canonical_ofText (t : Text) : Canonical (ofText t) := by
  fun_induction ofText t with
  | case1 => exact canonical_singleton ⟨List.not_mem_nil, rfl⟩
  | case2 r ih => exact canonical_cons ⟨List.not_mem_nil, by decide, by simp⟩ ih
  | case3 r ih => exact canonical_cons ⟨List.not_mem_nil, by decide, by simp⟩ ih
  | case4 c r hn hr ih =>
    have hc : '\n' ≠ c := fun h => hn h.symm
    obtain ⟨before, last, he, hbefore, hlast⟩ := ih
    cases before with
    | nil =>
      rw [he, List.nil_append, consFirst]
      exact canonical_singleton ⟨by simpa [hc] using hlast.oneLine, hlast.unbroken⟩
    | cons row before =>
      rw [List.forall_mem_cons] at hbefore
      have hrow : Ended ⟨c :: row.text, row.ending⟩ := by
        refine ⟨by simpa [hc] using hbefore.1.oneLine, hbefore.1.broken, ?_⟩
        intro hlf hl
        cases ht : row.text with
        | cons d s =>
          rw [ht, List.getLast?_cons_cons, ← ht] at hl
          exact hbefore.1.noReturn hlf hl
        | nil =>
          -- An empty row that a line feed ends is one that a line feed begins.
          rw [ht] at hl
          have hstart := content_ofText r
          rw [he, List.cons_append, List.flatMap_cons, content, ht, hlf] at hstart
          exact hr _ (by simpa using hl) hstart.symm
      rw [he, List.cons_append, consFirst]
      exact canonical_cons hrow ⟨before, last, rfl, hbefore.2, hlast⟩

/-- Every text has a row. -/
theorem ofText_ne_nil (t : Text) : ofText t ≠ [] := by
  obtain ⟨before, last, hrows, _⟩ := canonical_ofText t
  rw [hrows]
  exact List.append_ne_nil_of_right_ne_nil before (List.cons_ne_nil last [])

/-- The rows of a text that stands in front of a row, with a given break for
each line feed of the text. -/
def behind (ending : Break) : Text → Row → List Row
  | [], row => [row]
  | c :: t, row =>
    if c = '\n' then ⟨[], ending⟩ :: behind ending t row else consFirst c (behind ending t row)

/-- The text of these rows is the given text with its line feeds turned into
breaks, and the text of the row. -/
theorem content_behind (ending : Break) (t : Text) (row : Row) :
    (behind ending t row).flatMap content = replaceChar '\n' ending.text t ++ row.content := by
  induction t with
  | nil => simp [behind, replaceChar]
  | cons c t ih =>
    rw [behind]
    split
    · rename_i hc
      rw [List.flatMap_cons, ih, hc, replaceChar_cons_self, List.append_assoc]
      rfl
    · rename_i hc
      rw [content_consFirst, ih, replaceChar_cons_of_ne hc, List.cons_append]

/-- A line in front of others becomes a row of its own. -/
theorem behind_line (ending : Break) {l : Text} (hl : '\n' ∉ l) (t : Text) (row : Row) :
    behind ending (l ++ '\n' :: t) row = ⟨l, ending⟩ :: behind ending t row := by
  induction l with
  | nil => rfl
  | cons c r ih =>
    rw [List.mem_cons, not_or] at hl
    rw [List.cons_append, behind, if_neg (Ne.symm hl.1), ih hl.2, consFirst]

/-- Lines with line feeds in front of a row are rows of their own. -/
theorem behind_unlines_append (ending : Break) {ls : List Text} (hls : ∀ l ∈ ls, '\n' ∉ l)
    (t : Text) (row : Row) :
    behind ending (unlines ls ++ t) row = ls.map (⟨·, ending⟩) ++ behind ending t row := by
  induction ls with
  | nil => rfl
  | cons l ls ih =>
    rw [List.forall_mem_cons] at hls
    rw [unlines_cons, List.append_assoc, List.cons_append, behind_line ending hls.1, ih hls.2,
      List.map_cons, List.cons_append]

/-- Lines in front of a row become rows above it. -/
theorem behind_unlines (ending : Break) {ls : List Text} (hls : ∀ l ∈ ls, '\n' ∉ l) (row : Row) :
    behind ending (unlines ls) row = ls.map (⟨·, ending⟩) ++ [row] := by
  have h := behind_unlines_append ending hls [] row
  rwa [List.append_nil] at h

/-- A text without a line feed becomes the beginning of the row. -/
theorem behind_of_not_mem (ending : Break) {l : Text} (hl : '\n' ∉ l) (row : Row) :
    behind ending l row = [⟨l ++ row.text, row.ending⟩] := by
  induction l with
  | nil => rfl
  | cons c r ih =>
    rw [List.mem_cons, not_or] at hl
    rw [behind, if_neg (Ne.symm hl.1), ih hl.2, consFirst, List.cons_append]

/-- Joined lines in front of a break are rows of which the last one has that
break. -/
theorem behind_joinWith (ending : Break) {ls : List Text} (hls : ∀ l ∈ ls, '\n' ∉ l) {l : Text}
    (hl : '\n' ∉ l) (final : Break) :
    behind ending (joinWith ['\n'] (ls ++ [l])) ⟨[], final⟩ =
      ls.map (⟨·, ending⟩) ++ [⟨l, final⟩] := by
  rw [joinWith_append_singleton, behind_unlines_append ending hls, behind_of_not_mem ending hl,
    List.append_nil]

end Docblock.Row
