import Docblock.Proofs.Scan.Place
import Docblock.Proofs.Scan.Verdict

/-!
# Counted insertions

A scan counts a new comment on exactly the lines that it inserts one above, and
it comes to these lines from top to bottom. So its count is the number of its
insertions, and no line gets two of them.
-/

namespace Docblock

/-- The lines that a report plans insertions in front of, in the order of its edits. -/
def Report.insertedLines (report : Report) : List Nat :=
  report.edits.filterMap fun edit =>
    if edit.replacesUntil.isNone then some edit.position.line else none

/-- The lines with an insertion are those that are inserted at. -/
theorem Report.mem_insertedLines_iff {report : Report} {number : Nat} :
    number ∈ report.insertedLines ↔ report.InsertsAt number := by
  simp only [insertedLines, InsertsAt, List.mem_filterMap, Option.ite_none_right_eq_some,
    Option.some.injEq, Option.isNone_iff_eq_none]

theorem Report.insertedLines_append (a b : Report) :
    (a ++ b).insertedLines = a.insertedLines ++ b.insertedLines :=
  List.filterMap_append

/-- Whether a report counts its insertions and has them in front of some lines,
in their order. -/
structure Report.Counts (report : Report) (numbers : List Nat) : Prop where
  /-- The insertions are counted. -/
  generated : report.tally.generated = report.insertedLines.length
  /-- They are in front of some of the lines. -/
  sublist : report.insertedLines.Sublist numbers

namespace Report.Counts

variable {a b : Report} {m n : List Nat}

/-- Reports that count their lines do so together. -/
theorem append (ha : a.Counts m) (hb : b.Counts n) : (a ++ b).Counts (m ++ n) := by
  constructor
  · rw [insertedLines_append, List.length_append, ← ha.generated, ← hb.generated]
    rfl
  · rw [insertedLines_append]
    exact ha.sublist.append hb.sublist

/-- A report without edits and new comments counts at any lines. -/
theorem of_edits_eq_nil {report : Report} (hedits : report.edits = [])
    (hgenerated : report.tally.generated = 0) (numbers : List Nat) : report.Counts numbers := by
  have hnone : report.insertedLines = [] := by
    rw [insertedLines, hedits]
    rfl
  constructor
  · rw [hnone, hgenerated]
    rfl
  · rw [hnone]
    exact List.nil_sublist numbers

end Report.Counts

namespace Scan

variable {settings : Settings} {first : Nat}

/-- Closing a block inserts nothing. -/
theorem counts_closeBlock (policy : ScanPolicy) (block : OpenBlock) (line : Line) :
    (closeBlock policy block line).Counts [line.number] := by
  rw [closeBlock]
  split
  · exact ⟨rfl, List.nil_sublist _⟩
  · exact .of_edits_eq_nil rfl rfl _

/-- No line inside a block is inserted at. -/
theorem counts_stepInside (policy : ScanPolicy) (block : OpenBlock) (line : Line) :
    (stepInside policy block line).2.Counts [line.number] := by
  rw [stepInside]
  cases afterCloser? line.trimmed with
  | none => exact .of_edits_eq_nil rfl rfl _
  | some after =>
    cases after with
    | nil => exact counts_closeBlock policy _ line
    | cons c r => exact .of_edits_eq_nil rfl rfl _

/-- Nor is the line that opens one. -/
theorem counts_stepOpener (policy : ScanPolicy) (line : Line) :
    (stepOpener policy line).2.Counts [line.number] := by
  rw [stepOpener]
  cases afterCloser? (line.trimmed.drop 2) with
  | none => exact .of_edits_eq_nil rfl rfl _
  | some after =>
    cases after with
    | nil => exact counts_closeBlock policy _ line
    | cons c r => exact .of_edits_eq_nil rfl rfl _

/-- A line outside any block is inserted at when a comment is generated for it. -/
theorem counts_stepPlain (settings : Settings) (first : Nat) (above : Bool) (line : Line) :
    (stepPlain settings first above line).Counts [line.number] := by
  rw [stepPlain]
  split
  · exact .of_edits_eq_nil rfl rfl _
  · cases Declaration.classify line.trimmed with
    | none => exact .of_edits_eq_nil rfl rfl _
    | some declaration =>
      dsimp only
      rw [declare]
      split
      · exact .of_edits_eq_nil rfl rfl _
      · exact ⟨rfl, List.Sublist.refl _⟩

/-- A step counts an insertion in front of its line, if it plans one. -/
theorem counts_step (settings : Settings) (first : Nat) (state : State) (line : Line) :
    (step settings first state line).2.Counts [line.number] := by
  cases state with
  | inside block => exact counts_stepInside settings.scan block line
  | outside flag =>
    rw [step_outside]
    split
    · exact counts_stepOpener settings.scan line
    · exact counts_stepPlain settings first flag line

/-- A scan counts its insertions in the order of its lines. -/
theorem counts_run (settings : Settings) (first : Nat) (state : State) (lines : List Line) :
    (run settings first state lines).Counts (lines.map Line.number) := by
  induction lines generalizing state with
  | nil =>
    cases state with
    | outside flag => exact .of_edits_eq_nil rfl rfl _
    | inside block => exact .of_edits_eq_nil rfl rfl _
  | cons line rest ih =>
    rw [run]
    exact (counts_step settings first state line).append (ih _)

end Scan

/-- Consecutive lines are numbered in ascending order. -/
theorem Line.Consecutive.pairwise_lt {n : Nat} {lines : List Line}
    (h : Line.Consecutive n lines) : (lines.map Line.number).Pairwise (· < ·) := by
  have hnumbers : lines.map Line.number = List.range' n lines.length := by
    induction lines generalizing n with
    | nil => rfl
    | cons line rest ih =>
      obtain ⟨rfl, hrest⟩ := h
      rw [List.map_cons, List.length_cons, List.range'_succ, ih hrest]
  rw [hnumbers]
  exact List.pairwise_lt_range'

namespace Scan

variable {settings : Settings} {source : Source} {selected : Option LineRange} {found : Report}

/-- What a scan of a range counts, and that it goes from top to bottom. -/
theorem counts_inRange (settings : Settings) (source : Source) (range : LineRange) :
    ∃ numbers, numbers.Pairwise (· < ·) ∧ (inRange settings source range).Counts numbers := by
  rw [inRange]
  cases range.clamp? source.lineCount with
  | none => exact ⟨[], List.Pairwise.nil, .of_edits_eq_nil rfl rfl _⟩
  | some range =>
    refine ⟨(source.linesIn range).map Line.number, ?_, ?_⟩
    · exact (source.consecutive_linesFrom range.start range.size).pairwise_lt
    · exact (Report.Counts.of_edits_eq_nil rfl rfl []).append (counts_run settings range.start _ _)

/-- A scan counts its insertions and plans them from top to bottom, at most one
in front of each line. -/
theorem counts_report (h : report settings source selected = .ok found) :
    found.tally.generated = found.insertedLines.length ∧
      found.insertedLines.Pairwise (· < ·) := by
  obtain ⟨numbers, hpairwise, hcounts⟩ :
      ∃ numbers : List Nat, numbers.Pairwise (· < ·) ∧ found.Counts numbers := by
    cases selected with
    | some range =>
      rw [report, selection] at h
      cases hl : checkLanguage settings source with
      | error refusal => rw [hl] at h; cases h
      | ok _ =>
        rw [hl] at h
        cases h
        exact counts_inRange settings source range
    | none =>
      rw [report, whole] at h
      cases hl : checkLanguage settings source with
      | error refusal => rw [hl] at h; cases h
      | ok _ =>
        rw [hl] at h
        cases hf : source.fullRange? with
        | none =>
          rw [hf] at h
          cases h
          exact ⟨[], List.Pairwise.nil, .of_edits_eq_nil rfl rfl _⟩
        | some range =>
          rw [hf] at h
          cases h
          exact counts_inRange settings source range
  exact ⟨hcounts.generated, hpairwise.sublist hcounts.sublist⟩

end Scan

end Docblock
