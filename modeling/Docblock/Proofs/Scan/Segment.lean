import Mathlib.Data.List.Basic
import Docblock.Scan.Basic

/-!
# Segments of a scan

The lines of a range fall into segments: comment blocks, each up to its first
closer or to the end of the range, and the lines between them. A scan reports
on one segment after the other, and hands on only whether the segment closed a
comment.
-/

namespace Docblock

open Text

/-- Lines that a scan deals with together. -/
inductive Segment (α : Type) where
  /-- A line outside any block. -/
  | single (line : α)
  /-- A line that opens a block and closes it, and what follows the closer. -/
  | inline (line : α) (after : Text)
  /-- The lines of a block from its opener to its closer, and what follows the closer. -/
  | block (opener : α) (inner : List α) (closer : α) (after : Text)
  /-- A block that is never closed. -/
  | unclosed (opener : α) (more : List α)
  deriving DecidableEq, Repr

/-- The place where a block ends. -/
structure BlockEnd (α : Type) where
  /-- The lines of the block between its opener and the closing line. -/
  inner : List α
  /-- The closing line. -/
  closer : α
  /-- What follows the closer on its line. -/
  after : Text
  /-- The lines behind the block. -/
  rest : List α

namespace Segment

variable {α : Type} (text : α → Text)

/-- Find the first line with a closer. -/
def blockEnd? : List α → Option (BlockEnd α)
  | [] => none
  | line :: rest =>
    match Scan.afterCloser? (trim (text line)) with
    | some after => some ⟨[], line, after, rest⟩
    | none => (blockEnd? rest).map fun found => { found with inner := line :: found.inner }

variable {text} in
/-- A block takes lines away from the front and ends at its first closer. -/
theorem eq_of_blockEnd?_eq_some {lines : List α} {found : BlockEnd α}
    (h : blockEnd? text lines = some found) :
    lines = found.inner ++ found.closer :: found.rest ∧
      (∀ line ∈ found.inner, Scan.afterCloser? (trim (text line)) = none) ∧
      Scan.afterCloser? (trim (text found.closer)) = some found.after := by
  induction lines generalizing found with
  | nil => cases h
  | cons line rest ih =>
    rw [blockEnd?] at h
    cases ha : Scan.afterCloser? (trim (text line)) with
    | some after =>
      rw [ha] at h
      cases h
      exact ⟨rfl, fun _ hm => absurd hm List.not_mem_nil, ha⟩
    | none =>
      rw [ha] at h
      obtain ⟨inside, hi, rfl⟩ := Option.map_eq_some_iff.mp h
      obtain ⟨hrest, hinner, hcloser⟩ := ih hi
      refine ⟨by rw [hrest]; rfl, ?_, hcloser⟩
      rw [List.forall_mem_cons]
      exact ⟨ha, hinner⟩

/-- Cut lines into segments. The closer of an opening line is looked for behind
its first two characters. -/
def cut : List α → List (Segment α)
  | [] => []
  | line :: rest =>
    if Scan.opensBlock (trim (text line)) then
      match Scan.afterCloser? ((trim (text line)).drop 2) with
      | some after => .inline line after :: cut rest
      | none =>
        match _h : blockEnd? text rest with
        | some found => .block line found.inner found.closer found.after :: cut found.rest
        | none => [.unclosed line rest]
    else .single line :: cut rest
termination_by lines => lines.length
decreasing_by
  · simp
  · have := congrArg List.length (eq_of_blockEnd?_eq_some _h).1
    simp only [List.length_append, List.length_cons] at this ⊢
    omega
  · simp

/-- The lines of a segment. -/
def lines : Segment α → List α
  | .single line => [line]
  | .inline line _ => [line]
  | .block opener inner closer _ => opener :: inner ++ [closer]
  | .unclosed opener more => opener :: more

/-- What the lines of a segment look like: only the first line of a block opens
it, and only the last one of a closed block closes it. -/
def Valid : Segment α → Prop
  | .single line => Scan.opensBlock (trim (text line)) = false
  | .inline line after =>
    Scan.opensBlock (trim (text line)) = true ∧
      Scan.afterCloser? ((trim (text line)).drop 2) = some after
  | .block opener inner closer after =>
    Scan.opensBlock (trim (text opener)) = true ∧
      Scan.afterCloser? ((trim (text opener)).drop 2) = none ∧
      (∀ line ∈ inner, Scan.afterCloser? (trim (text line)) = none) ∧
      Scan.afterCloser? (trim (text closer)) = some after
  | .unclosed opener more =>
    Scan.opensBlock (trim (text opener)) = true ∧
      Scan.afterCloser? ((trim (text opener)).drop 2) = none ∧
      ∀ line ∈ more, Scan.afterCloser? (trim (text line)) = none

/-- Whether a segment is a block that is never closed. -/
def isUnclosed : Segment α → Bool
  | .unclosed _ _ => true
  | _ => false

/-- Segments that lines can be cut into: an unclosed block is the last one. -/
def WellCut : List (Segment α) → Prop
  | [] => True
  | segment :: rest =>
    segment.Valid text ∧ (segment.isUnclosed = true → rest = []) ∧ WellCut rest

/-- Whether a segment counts as a comment right above the line that follows. -/
def closes : Segment α → Bool
  | .single line => Scan.closesComment (trim (text line))
  | .inline _ after => after.isEmpty
  | .block _ _ _ after => after.isEmpty
  | .unclosed _ _ => false

/-- The report on a closed block, or the event that tells why it stays. -/
def closed (policy : ScanPolicy) (block : Scan.OpenBlock) (last : Line) (after : Text)
    (left : Event) : Report :=
  if after.isEmpty then Scan.closeBlock policy block last else { events := [left] }

/-- The report on a segment that starts at line `n`. -/
def report (settings : Settings) (first : Nat) (above : Bool) (n : Nat) : Segment α → Report
  | .single line => Scan.stepPlain settings first above ⟨n, text line⟩
  | .inline line after =>
    closed settings.scan ⟨⟨n, 0⟩, indent (text line), [trim (text line)]⟩ ⟨n, text line⟩ after
      (.inlineComment (n + 1))
  | .block opener inner closer after =>
    closed settings.scan
      ⟨⟨n, 0⟩, indent (text opener), (opener :: inner ++ [closer]).map fun l => trim (text l)⟩
      ⟨n + inner.length + 1, text closer⟩ after
      (.codeAfterCloser ⟨n, 0⟩ (n + inner.length + 2))
  | .unclosed opener more =>
    Scan.finish (.inside
      ⟨⟨n, 0⟩, indent (text opener), (opener :: more).map fun l => trim (text l)⟩)

/-- The reports on segments that follow each other from line `n` on. -/
def reports (settings : Settings) (first : Nat) : (above : Bool) → (n : Nat) →
    List (Segment α) → Report
  | _, _, [] => {}
  | above, n, segment :: rest =>
    segment.report text settings first above n ++
    reports settings first (segment.closes text) (n + segment.lines.length) rest

/-- The segments have all the lines, in order. -/
theorem lines_cut (ls : List α) : (cut text ls).flatMap lines = ls := by
  fun_induction cut text ls with
  | case1 => rfl
  | case2 line rest _ after _ ih => rw [List.flatMap_cons, ih, lines, List.singleton_append]
  | case3 line rest _ _ found h ih =>
    rw [List.flatMap_cons, ih, lines, (eq_of_blockEnd?_eq_some h).1]
    simp
  | case4 line rest => simp [lines]
  | case5 line rest _ ih => rw [List.flatMap_cons, ih, lines, List.singleton_append]

variable {text}

/-- A block without an end has no line with a closer. -/
theorem forall_of_blockEnd?_eq_none {ls : List α} (h : blockEnd? text ls = none) :
    ∀ line ∈ ls, Scan.afterCloser? (trim (text line)) = none := by
  induction ls with
  | nil => exact fun _ hm => absurd hm List.not_mem_nil
  | cons line rest ih =>
    rw [blockEnd?] at h
    cases ha : Scan.afterCloser? (trim (text line)) with
    | some after => rw [ha] at h; cases h
    | none =>
      rw [ha] at h
      rw [List.forall_mem_cons]
      exact ⟨ha, ih (Option.map_eq_none_iff.mp h)⟩

/-- Lines without closers do not end a block. -/
theorem blockEnd?_eq_none {ls : List α}
    (h : ∀ line ∈ ls, Scan.afterCloser? (trim (text line)) = none) : blockEnd? text ls = none := by
  induction ls with
  | nil => rfl
  | cons line rest ih =>
    rw [List.forall_mem_cons] at h
    rw [blockEnd?, h.1]
    dsimp only
    rw [ih h.2, Option.map_none]

/-- The first line with a closer ends a block, whatever follows. -/
theorem blockEnd?_append {inner : List α}
    (h : ∀ line ∈ inner, Scan.afterCloser? (trim (text line)) = none) {closer : α} {after : Text}
    (hc : Scan.afterCloser? (trim (text closer)) = some after) (rest : List α) :
    blockEnd? text (inner ++ closer :: rest) = some ⟨inner, closer, after, rest⟩ := by
  induction inner with
  | nil => rw [List.nil_append, blockEnd?, hc]
  | cons line inner ih =>
    rw [List.forall_mem_cons] at h
    rw [List.cons_append, blockEnd?, h.1]
    dsimp only
    rw [ih h.2, Option.map_some]

/-- Cutting gives segments in which every line has its role. -/
theorem wellCut_cut (ls : List α) : WellCut text (cut text ls) := by
  fun_induction cut text ls with
  | case1 => trivial
  | case2 line rest hopen after ha ih =>
    exact ⟨⟨hopen, ha⟩, fun h => absurd h Bool.false_ne_true, ih⟩
  | case3 line rest hopen ha found h ih =>
    have hf := eq_of_blockEnd?_eq_some h
    exact ⟨⟨hopen, ha, hf.2⟩, fun h => absurd h Bool.false_ne_true, ih⟩
  | case4 line rest hopen ha h =>
    exact ⟨⟨hopen, ha, forall_of_blockEnd?_eq_none h⟩, fun _ => rfl, trivial⟩
  | case5 line rest hopen ih =>
    exact ⟨by simpa [Valid] using hopen, fun h => absurd h Bool.false_ne_true, ih⟩

/-- The lines of a segment that ends by itself are cut off as that segment. -/
theorem cut_lines_append {segment : Segment α} (hv : segment.Valid text)
    (hu : segment.isUnclosed = false) (rest : List α) :
    cut text (segment.lines ++ rest) = segment :: cut text rest := by
  cases segment with
  | single line =>
    have hopen : ¬Scan.opensBlock (trim (text line)) = true := by simpa [Valid] using hv
    rw [lines, List.singleton_append, cut, if_neg hopen]
  | inline line after =>
    rw [lines, List.singleton_append, cut, if_pos hv.1, hv.2]
  | block opener inner closer after =>
    have hend := blockEnd?_append hv.2.2.1 hv.2.2.2 rest
    rw [lines, List.append_assoc, List.cons_append, List.singleton_append, cut, if_pos hv.1, hv.2.1]
    dsimp only
    split
    · rename_i found hfound
      rw [hend] at hfound
      cases hfound
      rfl
    · rename_i hfound
      rw [hend] at hfound
      cases hfound
  | unclosed opener more => cases hu

/-- A block that is never closed takes all the lines behind its opener. -/
theorem cut_lines_unclosed {opener : α} {more : List α}
    (hv : (Segment.unclosed opener more).Valid text) :
    cut text (opener :: more) = [.unclosed opener more] := by
  have hend := blockEnd?_eq_none hv.2.2
  rw [cut, if_pos hv.1, hv.2.1]
  dsimp only
  split
  · rename_i found hfound
    rw [hend] at hfound
    cases hfound
  · rfl

/-- Segments are found again in their lines. -/
theorem cut_flatMap_lines {segments : List (Segment α)} (h : WellCut text segments) :
    cut text (segments.flatMap lines) = segments := by
  induction segments with
  | nil => rw [List.flatMap_nil, cut]
  | cons segment rest ih =>
    obtain ⟨hv, hlast, hrest⟩ := h
    rw [List.flatMap_cons]
    cases hu : segment.isUnclosed with
    | false => rw [cut_lines_append hv hu, ih hrest]
    | true =>
      cases segment with
      | unclosed opener more =>
        rw [hlast hu, List.flatMap_nil, List.append_nil, lines, cut_lines_unclosed hv]
      | _ => cases hu

end Segment

/-- Texts as lines that are numbered from `n` on. -/
def Line.numbered : (n : Nat) → List Text → List Line
  | _, [] => []
  | n, text :: rest => ⟨n, text⟩ :: numbered (n + 1) rest

/-- An empty report adds nothing. -/
theorem Report.append_empty (r : Report) : r ++ ({} : Report) = r := by
  obtain ⟨edits, ⟨g, n, u, s⟩, events⟩ := r
  show Report.mk (edits ++ []) (Tally.mk (g + 0) (n + 0) (u + 0) (s + 0)) (events ++ []) = _
  simp

theorem Report.empty_append (r : Report) : ({} : Report) ++ r = r := by
  obtain ⟨edits, ⟨g, n, u, s⟩, events⟩ := r
  show Report.mk ([] ++ edits) (Tally.mk (0 + g) (0 + n) (0 + u) (0 + s)) ([] ++ events) = _
  simp

theorem Tally.zero_add (t : Tally) : ({} : Tally) + t = t := by
  show Tally.mk (0 + t.generated) (0 + t.normalized) (0 + t.unterminated) (0 + t.skipped) = t
  simp only [Nat.zero_add]

theorem Tally.add_zero (t : Tally) : t + ({} : Tally) = t := rfl

/-- Counts add up in any order. -/
theorem Tally.add_assoc (a b c : Tally) : a + b + c = a + (b + c) := by
  show Tally.mk (a.generated + b.generated + c.generated)
    (a.normalized + b.normalized + c.normalized)
    (a.unterminated + b.unterminated + c.unterminated) (a.skipped + b.skipped + c.skipped) = _
  simp only [Nat.add_assoc]
  rfl

/-- It does not matter in which order parts of a report are put together. -/
theorem Report.append_assoc (a b c : Report) : a ++ b ++ c = a ++ (b ++ c) := by
  show Report.mk (a.edits ++ b.edits ++ c.edits) (a.tally + b.tally + c.tally)
    (a.events ++ b.events ++ c.events) = _
  rw [List.append_assoc, List.append_assoc, Tally.add_assoc]
  rfl

namespace Scan

open Segment

variable {α : Type} {text : α → Text}

/-- A line without characters needs no path of its own. It opens no block, declares
nothing and closes no comment, like any line of blanks. -/
theorem step_outside (settings : Settings) (first : Nat) (above : Bool) (line : Line) :
    step settings first (.outside above) line =
      if opensBlock line.trimmed then stepOpener settings.scan line
      else (.outside (closesComment line.trimmed), stepPlain settings first above line) := by
  rw [step]
  split
  · rename_i hempty
    have htrim : line.trimmed = [] := by
      rw [Line.trimmed, List.isEmpty_iff.mp hempty]
      rfl
    rw [stepPlain, htrim]
    rfl
  · rfl

/-- Inside a block without another closer a scan collects all lines. -/
theorem run_inside_of_unclosed (settings : Settings) (first : Nat) (block : OpenBlock) (n : Nat)
    {ls : List α} (h : blockEnd? text ls = none) :
    run settings first (.inside block) (Line.numbered n (ls.map text)) =
      finish (.inside { block with lines := block.lines ++ ls.map fun l => trim (text l) }) := by
  induction ls generalizing block n with
  | nil => simp [Line.numbered, run]
  | cons line rest ih =>
    rw [blockEnd?] at h
    cases ha : afterCloser? (trim (text line)) with
    | some after => rw [ha] at h; cases h
    | none =>
      rw [ha] at h
      rw [List.map_cons, Line.numbered, run, step, stepInside, Line.trimmed]
      dsimp only
      rw [ha]
      dsimp only
      rw [ih _ _ (Option.map_eq_none_iff.mp h), Report.empty_append]
      simp

/-- Inside a block a scan collects lines up to the closer and goes on behind it. -/
theorem run_inside_of_closed (settings : Settings) (first : Nat) (block : OpenBlock) (n : Nat)
    {ls : List α} {found : BlockEnd α} (h : blockEnd? text ls = some found) :
    run settings first (.inside block) (Line.numbered n (ls.map text)) =
      closed settings.scan
        { block with
          lines := block.lines ++ (found.inner ++ [found.closer]).map fun l => trim (text l) }
        ⟨n + found.inner.length, text found.closer⟩ found.after
        (.codeAfterCloser block.start (n + found.inner.length + 1)) ++
      run settings first (.outside found.after.isEmpty)
        (Line.numbered (n + found.inner.length + 1) (found.rest.map text)) := by
  induction ls generalizing block n found with
  | nil => cases h
  | cons line rest ih =>
    rw [blockEnd?] at h
    rw [List.map_cons, Line.numbered, run, step, stepInside, Line.trimmed]
    dsimp only
    cases ha : afterCloser? (trim (text line)) with
    | some after =>
      rw [ha] at h
      cases h
      cases after with
      | nil => simp [closed]
      | cons c r => simp [closed]
    | none =>
      rw [ha] at h
      obtain ⟨inside, hi, rfl⟩ := Option.map_eq_some_iff.mp h
      dsimp only
      rw [ih _ _ hi, Report.empty_append]
      simp [Nat.add_assoc, Nat.add_comm 1]

/-- A scan reports on its segments one after the other. -/
theorem run_eq_reports (settings : Settings) (first : Nat) (above : Bool) (n : Nat) (ls : List α) :
    run settings first (.outside above) (Line.numbered n (ls.map text)) =
      reports text settings first above n (cut text ls) := by
  fun_induction cut text ls generalizing above n with
  | case1 => rfl
  | case2 line rest hopen after ha ih =>
    rw [List.map_cons, Line.numbered, run, step_outside, Line.trimmed]
    dsimp only
    rw [if_pos hopen, stepOpener, Line.trimmed]
    dsimp only
    rw [ha, reports, Segment.report, Segment.lines, closes, ← ih]
    cases after with
    | nil => rfl
    | cons c r => rfl
  | case3 line rest hopen ha found h ih =>
    rw [List.map_cons, Line.numbered, run, step_outside, Line.trimmed]
    dsimp only
    rw [if_pos hopen, stepOpener, Line.trimmed]
    dsimp only
    rw [ha]
    dsimp only
    have hcloser : n + 1 + found.inner.length = n + found.inner.length + 1 := by omega
    have hnext : n + (Segment.block line found.inner found.closer found.after).lines.length =
        n + found.inner.length + 1 + 1 := by
      simp only [Segment.lines, List.length_append, List.length_cons, List.length_nil]
      omega
    rw [Report.empty_append, run_inside_of_closed settings first _ _ h, reports,
      Segment.report, closes, ih, hcloser, hnext]
    rfl
  | case4 line rest hopen ha h =>
    rw [List.map_cons, Line.numbered, run, step_outside, Line.trimmed]
    dsimp only
    rw [if_pos hopen, stepOpener, Line.trimmed]
    dsimp only
    rw [ha]
    dsimp only
    rw [Report.empty_append, run_inside_of_unclosed settings first _ _ h, reports, reports,
      Segment.report, Report.append_empty]
    rfl
  | case5 line rest hopen ih =>
    rw [List.map_cons, Line.numbered, run, step_outside, Line.trimmed]
    dsimp only
    rw [if_neg hopen, reports, Segment.report, closes, ih]
    rfl

end Scan

end Docblock
