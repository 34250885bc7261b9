import Docblock.Proofs.Scan.Relaid
import Docblock.Proofs.Scan.State

/-!
# Where a scan inserts

Only a line that a scan reaches outside any block gets an insertion: it must
declare something, and no comment that documents it may stand above it.
-/

namespace Docblock

open Text

/-- Whether a report plans an insertion in front of a line. -/
def Report.InsertsAt (report : Report) (number : Nat) : Prop :=
  ∃ edit ∈ report.edits, edit.replacesUntil = none ∧ edit.position.line = number

instance (report : Report) (number : Nat) : Decidable (report.InsertsAt number) :=
  inferInstanceAs (Decidable (∃ edit ∈ report.edits, _))

/-- Parts of a report insert where one of them does. -/
theorem Report.insertsAt_append {a b : Report} {number : Nat} :
    (a ++ b).InsertsAt number ↔ a.InsertsAt number ∨ b.InsertsAt number := by
  have hedits : (a ++ b).edits = a.edits ++ b.edits := rfl
  simp only [InsertsAt, hedits, List.mem_append, or_and_right, exists_or]

/-- Without edits there is no insertion. -/
theorem Report.not_insertsAt_of_edits {report : Report} (h : report.edits = []) (number : Nat) :
    ¬report.InsertsAt number := by
  rintro ⟨edit, hm, _⟩
  rw [h] at hm
  exact absurd hm List.not_mem_nil

/-- Whether a row is no comment text and reads as a declaration. -/
def Row.declares (row : Row) : Bool := (Segment.single row).declares

/-- What declares something opens no block. -/
theorem Row.opensBlock_eq_false_of_declares {row : Row} (h : row.declares = true) :
    Scan.opensBlock (trim row.text) = false := by
  rw [← Bool.not_eq_true]
  intro hopen
  obtain ⟨rest, hrest⟩ := startsWith_iff_isPrefix.mp hopen
  have hcomment : Scan.isCommentLine (trim row.text) = true := by
    rw [← hrest]
    rfl
  rw [declares, Segment.declares, hcomment] at h
  cases h

namespace Scan

variable {settings : Settings} {first number : Nat} {state : State} {line : Line}

/-- A comment goes above a declaration unless one documents it already. -/
theorem isSome_added?_iff {above : Bool} {row : Row} :
    (added? settings first above ⟨number, row.text⟩).isSome = true ↔
      row.declares = true ∧
        ¬(above = true ∧ (number = first ∨ settings.scan.skipDocumented = true)) := by
  rw [added?, Row.declares, Segment.declares, Line.trimmed]
  dsimp only
  cases isCommentLine (trim row.text) with
  | true => simp
  | false =>
    cases Declaration.classify (trim row.text) with
    | none => simp
    | some declaration => simp

/-- A block is only ever replaced. -/
theorem not_insertsAt_closeBlock (policy : ScanPolicy) (block : OpenBlock) (line : Line)
    (number : Nat) : ¬(closeBlock policy block line).InsertsAt number := by
  rintro ⟨edit, hm, hinsert, _⟩
  rw [edits_closeBlock] at hm
  split at hm
  · rw [List.mem_singleton.mp hm] at hinsert
    cases hinsert
  · exact absurd hm List.not_mem_nil

/-- Nothing is inserted at a line of a block. -/
theorem not_insertsAt_step {block : OpenBlock} (h : state.blockWith? line = some block)
    (number : Nat) : ¬(step settings first state line).2.InsertsAt number := by
  cases state with
  | inside before =>
    rw [step, stepInside]
    cases afterCloser? line.trimmed with
    | none => exact Report.not_insertsAt_of_edits rfl number
    | some after =>
      cases after with
      | nil => exact not_insertsAt_closeBlock settings.scan _ line number
      | cons c r => exact Report.not_insertsAt_of_edits rfl number
  | outside flag =>
    have hopen : opensBlock line.trimmed = true := by
      by_contra hopen
      rw [State.blockWith?, if_neg hopen] at h
      cases h
    rw [step_outside, if_pos hopen, stepOpener]
    cases afterCloser? (line.trimmed.drop 2) with
    | none => exact Report.not_insertsAt_of_edits rfl number
    | some after =>
      cases after with
      | nil => exact not_insertsAt_closeBlock settings.scan _ line number
      | cons c r => exact Report.not_insertsAt_of_edits rfl number

/-- A step inserts at its own line only, and only outside any block. -/
theorem insertsAt_step_iff :
    (step settings first state line).2.InsertsAt number ↔
      line.number = number ∧ state.blockWith? line = none ∧
        (added? settings first state.afterComment line).isSome = true := by
  cases hb : state.blockWith? line with
  | some block => simp [not_insertsAt_step hb]
  | none =>
    rw [snd_step_of_eq_none hb, Report.InsertsAt, edits_stepPlain]
    cases added? settings first state.afterComment line with
    | none => simp
    | some comment => simp [Edit.insert, Line.start]

/-- A scan inserts at the lines that it reaches outside any block and that get
a comment there. -/
theorem insertsAt_run_iff {lines : List Line} :
    (run settings first state lines).InsertsAt number ↔
      ∃ k line, lines[k]? = some line ∧ line.number = number ∧
        (state.after (lines.take k)).blockWith? line = none ∧
        (added? settings first (state.after (lines.take k)).afterComment line).isSome = true := by
  induction lines generalizing state with
  | nil =>
    have hnone : ¬(finish state).InsertsAt number := by
      cases state <;> exact Report.not_insertsAt_of_edits rfl number
    simp [run, hnone]
  | cons head rest ih =>
    rw [run]
    dsimp only
    rw [Report.insertsAt_append, insertsAt_step_iff, fst_step, ih]
    constructor
    · rintro (h | ⟨k, line, hline, h⟩)
      · exact ⟨0, head, rfl, h⟩
      · exact ⟨k + 1, line, hline, h⟩
    · rintro ⟨k, line, hline, h⟩
      cases k with
      | zero =>
        cases hline
        exact .inl h
      | succ k => exact .inr ⟨k, line, hline, h⟩

variable {document : Document} {selected : Option LineRange} {found : Report} {row : Row}

/-- A scan reaches the line at place `k` of its range behind `k` lines. -/
theorem after_take_linesIn (settings : Settings) (document : Document) {range : LineRange} {k : Nat}
    (hk : k < range.size) :
    (State.outside (above document range.start)).after
        ((document.toSource.linesIn range).take k) =
      stateAt settings document range.start (range.start + k) := by
  rw [stateAt_eq_after, Nat.add_sub_cancel_left, Source.linesIn,
    document.take_linesFrom range.start hk.le]

/-- A scan of a range inserts at those of its lines that it reaches outside any
block and that declare something which no comment documents. -/
theorem insertsAt_linesIn_iff {range : LineRange} (hr : document.rows[number]? = some row) :
    (run settings range.start (.outside (above document range.start))
        (document.toSource.linesIn range)).InsertsAt number ↔
      range.start ≤ number ∧ number ≤ range.stop ∧
        ∃ flag, stateAt settings document range.start number = .outside flag ∧
          row.declares = true ∧
          ¬(flag = true ∧ (number = range.start ∨ settings.scan.skipDocumented = true)) := by
  have hordered := range.ordered
  have hsize : range.size = range.stop - range.start + 1 := rfl
  rw [insertsAt_run_iff]
  constructor
  · rintro ⟨k, line, hline, hnumber, hplain, hadded⟩
    rw [Source.linesIn, document.getElem?_linesFrom, Option.ite_none_right_eq_some] at hline
    obtain ⟨hk, hline⟩ := hline
    obtain ⟨other, hother, rfl⟩ := Option.map_eq_some_iff.mp hline
    obtain rfl : range.start + k = number := hnumber
    obtain rfl : row = other := Option.some.inj (hr.symm.trans hother)
    rw [after_take_linesIn settings document hk] at hplain hadded
    obtain ⟨⟨flag, hflag⟩, _⟩ := State.blockWith?_eq_none_iff.mp hplain
    rw [hflag] at hadded
    exact ⟨Nat.le_add_right _ _, by omega, flag, hflag, isSome_added?_iff.mp hadded⟩
  · rintro ⟨hstart, hstop, flag, hflag, hadded⟩
    obtain ⟨k, rfl⟩ := Nat.exists_eq_add_of_le hstart
    have hk : k < range.size := by omega
    refine ⟨k, ⟨range.start + k, row.text⟩, ?_, rfl, ?_, ?_⟩
    · rw [Source.linesIn, document.getElem?_linesFrom, if_pos hk, hr]
      rfl
    · rw [after_take_linesIn settings document hk, State.blockWith?_eq_none_iff]
      exact ⟨⟨flag, hflag⟩, Row.opensBlock_eq_false_of_declares hadded.1⟩
    · rw [after_take_linesIn settings document hk, hflag]
      exact isSome_added?_iff.mpr hadded

/-- A scan of a document inserts where the scan of its range does. -/
theorem insertsAt_report_iff (h : report settings document.toSource selected = .ok found)
    (hr : document.rows[number]? = some row) :
    found.InsertsAt number ↔
      ∃ range, target? document selected = some range ∧
        range.start ≤ number ∧ number ≤ range.stop ∧
        ∃ flag, stateAt settings document range.start number = .outside flag ∧
          row.declares = true ∧
          ¬(flag = true ∧ (number = range.start ∨ settings.scan.skipDocumented = true)) := by
  have haccepts := exists_report_eq_ok_iff.mp ⟨found, h⟩
  cases ht : target? document selected with
  | none =>
    obtain ⟨events, hreport⟩ := report_toSource settings document selected haccepts
    rw [h, ht] at hreport
    rw [Except.ok.inj hreport]
    simp [Report.not_insertsAt_of_edits]
  | some range =>
    obtain ⟨events, hreport⟩ := exists_report_eq_run ht haccepts
    have hevents : ¬({ events := events } : Report).InsertsAt number :=
      Report.not_insertsAt_of_edits rfl number
    rw [h] at hreport
    rw [Except.ok.inj hreport, Report.insertsAt_append, or_iff_right hevents,
      insertsAt_linesIn_iff hr]
    simp only [Option.some.injEq, exists_eq_left']

/-- A scan of a selection inserts at the lines of the selection only. -/
theorem insertsAt_selection_iff {range : LineRange}
    (h : selection settings document.toSource range = .ok found)
    (hr : document.rows[number]? = some row) :
    found.InsertsAt number ↔
      range.start ≤ number ∧ number ≤ range.stop ∧
        ∃ flag, stateAt settings document range.start number = .outside flag ∧
          row.declares = true ∧
          ¬(flag = true ∧ (number = range.start ∨ settings.scan.skipDocumented = true)) := by
  have hreport : report settings document.toSource (some range) = .ok found := h
  obtain ⟨hlt, _⟩ := List.getElem?_eq_some_iff.mp hr
  rw [insertsAt_report_iff hreport hr]
  constructor
  · rintro ⟨clamped, ht, hstart, hstop, hinserts⟩
    rw [target?, LineRange.clamp?] at ht
    split at ht
    · cases ht
      exact ⟨hstart, hstop.trans (min_le_left _ _), hinserts⟩
    · cases ht
  · rintro ⟨hstart, hstop, hinserts⟩
    have hclamp : range.start < document.rows.length := hstart.trans_lt hlt
    refine ⟨_, dif_pos hclamp, hstart, ?_, hinserts⟩
    exact le_min hstop (by omega)

/-- A scan of a whole document may insert at any line. -/
theorem insertsAt_whole_iff (h : whole settings document.toSource = .ok found)
    (hr : document.rows[number]? = some row) :
    found.InsertsAt number ↔
      ∃ flag, stateAt settings document 0 number = .outside flag ∧ row.declares = true ∧
        ¬(flag = true ∧ settings.scan.skipDocumented = true) := by
  have hreport : report settings document.toSource none = .ok found := h
  obtain ⟨hlt, _⟩ := List.getElem?_eq_some_iff.mp hr
  obtain ⟨last, hlast⟩ := Nat.exists_eq_succ_of_ne_zero (Nat.ne_zero_of_lt hlt)
  have htarget : target? document none = some ⟨0, last, Nat.zero_le last⟩ := by
    rw [target?, hlast]
    rfl
  rw [insertsAt_report_iff hreport hr]
  constructor
  · rintro ⟨range, ht, _, _, flag, hflag, hdeclares, hdocumented⟩
    rw [htarget] at ht
    cases ht
    exact ⟨flag, hflag, hdeclares, fun hskip => hdocumented ⟨hskip.1, .inr hskip.2⟩⟩
  · rintro ⟨flag, hflag, hdeclares, hdocumented⟩
    refine ⟨_, htarget, Nat.zero_le number, by dsimp only; omega, flag, hflag, hdeclares, ?_⟩
    rintro ⟨rfl, hzero | hskip⟩
    · have hnumber : number = 0 := hzero
      rw [hnumber, stateAt_self] at hflag
      cases hflag
    · exact hdocumented ⟨rfl, hskip⟩

end Scan

end Docblock
