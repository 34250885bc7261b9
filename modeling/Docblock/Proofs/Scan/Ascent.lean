import Docblock.Proofs.Edit.Order
import Docblock.Proofs.Scan.Count

/-!
# Edits from top to bottom

Each edit of a scan is on one segment of the lines it reads: a comment goes in
front of a line outside any block, and a block is replaced from its opener to
its closer. Segments follow each other, so the edits go from top to bottom and
share no line, and a block that stays open is behind all of them.
-/

namespace Docblock

/-- A source hands out no more lines than it is asked for. -/
theorem Source.length_linesFrom_le (source : Source) (start count : Nat) :
    (source.linesFrom start count).length ≤ count := by
  induction count generalizing start with
  | zero => exact Nat.le_refl 0
  | succ count ih =>
    rw [linesFrom]
    cases source.line? start with
    | none => exact Nat.zero_le _
    | some line => exact Nat.succ_le_succ (ih (start + 1))

/-- Whether an edit is on a segment: in front of a line outside any block, or in
the place of a closed block from the start of its opener to the end of its
closing line. -/
def Edit.IsOn (edit : Edit) : Segment Line → Prop
  | .single line => edit.position = line.start ∧ edit.replacesUntil = none
  | .inline line _ => edit.position = line.start ∧ edit.replacesUntil = some line.finish
  | .block opener _ closer _ =>
    edit.position = opener.start ∧ edit.replacesUntil = some closer.finish
  | .unclosed _ _ => False

/-- What the edits and counts of a report on some lines keep to. -/
structure Report.Orderly (report : Report) (lines : List Line) : Prop where
  /-- Every edit is on a segment of the lines. -/
  onSegment : ∀ edit ∈ report.edits, ∃ segment ∈ Segment.cut Line.text lines, edit.IsOn segment
  /-- Every edit is on lines behind those of the edits before it. -/
  ascending : report.edits.Pairwise fun earlier later =>
    earlier.finish.line < later.position.line
  /-- The insertions are counted. -/
  generated : report.tally.generated = report.edits.countP (·.replacesUntil.isNone)
  /-- The replacements are counted. -/
  normalized : report.tally.normalized = report.edits.countP (·.replacesUntil.isSome)
  /-- At most one block stays open. -/
  unterminated : report.tally.unterminated ≤ 1
  /-- If a block stays open, it is the last segment, and all edits are in front
  of its opener. -/
  behind : report.tally.unterminated = 1 → ∃ front opener more,
    Segment.cut Line.text lines = front ++ [.unclosed opener more] ∧
      ∀ edit ∈ report.edits, edit.finish.line < opener.number

/-- The lines with an insertion are as many as the insertions. -/
theorem Report.length_insertedLines (report : Report) :
    report.insertedLines.length = report.edits.countP (·.replacesUntil.isNone) := by
  rw [insertedLines, List.length_filterMap_eq_countP]
  refine List.countP_congr fun edit _ => ?_
  cases edit.replacesUntil <;> simp

namespace Edit.IsOn

variable {edit : Edit} {segment : Segment Line}

/-- An edit on a segment starts at the start of one of its lines and ends on one
of them. -/
theorem exists_lines (h : edit.IsOn segment) :
    (∃ line ∈ segment.lines, edit.position = line.start) ∧
      ∃ line ∈ segment.lines, edit.finish.line = line.number := by
  cases segment with
  | single line =>
    obtain ⟨hposition, hinsert⟩ := h
    refine ⟨⟨line, List.mem_cons_self, hposition⟩, line, List.mem_cons_self, ?_⟩
    rw [Edit.finish, hinsert, Option.getD_none, hposition]
    rfl
  | inline line after =>
    obtain ⟨hposition, hreplace⟩ := h
    refine ⟨⟨line, List.mem_cons_self, hposition⟩, line, List.mem_cons_self, ?_⟩
    rw [Edit.finish, hreplace]
    rfl
  | block opener inner closer after =>
    obtain ⟨hposition, hreplace⟩ := h
    refine ⟨⟨opener, List.mem_cons_self, hposition⟩, closer,
      List.mem_append_right _ List.mem_cons_self, ?_⟩
    rw [Edit.finish, hreplace]
    rfl
  | unclosed opener more => exact h.elim

/-- An edit on a segment does not end in front of its line. -/
theorem line_le {n : Nat} (h : edit.IsOn segment) (hlines : Line.Consecutive n segment.lines) :
    edit.position.line ≤ edit.finish.line := by
  have hstart : edit.position.line = n := by
    cases segment with
    | single line => exact (congrArg Position.line h.1).trans hlines.1
    | inline line after => exact (congrArg Position.line h.1).trans hlines.1
    | block opener inner closer after => exact (congrArg Position.line h.1).trans hlines.1
    | unclosed opener more => exact h.elim
  obtain ⟨_, line, hm, hfinish⟩ := h.exists_lines
  rw [hstart, hfinish]
  exact (hlines.bounds_of_mem hm).1

end Edit.IsOn

namespace Verdict

/-- The laid out blocks are the replacements. -/
theorem normalized_total (template : Template) (verdicts : List Verdict) :
    (total verdicts).normalized =
      (verdicts.filterMap (edit? template)).countP (·.replacesUntil.isSome) := by
  induction verdicts with
  | nil => rfl
  | cons verdict rest ih =>
    have hsum : (total (verdict :: rest)).normalized =
        verdict.tally.normalized + (total rest).normalized := rfl
    rw [hsum, ih]
    cases verdict with
    | laidOut opener closer lines =>
      have hedit : edit? template (laidOut opener closer lines) = some _ := rfl
      rw [List.filterMap_cons_some hedit, List.countP_cons_of_pos rfl, Nat.add_comm]
      rfl
    | commented line declaration =>
      have hedit : edit? template (commented line declaration) = some _ := rfl
      rw [List.filterMap_cons_some hedit, List.countP_cons_of_neg Bool.false_ne_true]
      exact Nat.zero_add _
    | documented => exact Nat.zero_add _
    | unclosed => exact Nat.zero_add _
    | left => exact Nat.zero_add _

end Verdict

namespace Segment

variable {policy : ScanPolicy} {template : Template} {above : Bool} {edit : Edit}
  {segments : List (Segment Line)}

/-- The edit that carries out the verdict on a closed block replaces it. -/
theorem of_edit?_ofClosed {opener closer : Line} {lines : List Line} {after : Text}
    (h : (Verdict.ofClosed policy opener closer lines after).edit? template = some edit) :
    policy.normalizeExisting = true ∧ edit.position = opener.start ∧
      edit.replacesUntil = some closer.finish := by
  rw [Verdict.ofClosed] at h
  split at h
  · rename_i hboth
    cases h
    exact ⟨(Bool.and_eq_true _ _ ▸ hboth).2, rfl, rfl⟩
  · cases h

/-- The edit that carries out the verdict on a segment is on the segment, and a
replacement only if blocks are laid out again. -/
theorem isOn_of_edit?_verdict {documented : Bool} {segment : Segment Line}
    (h : (segment.verdict policy documented).edit? template = some edit) :
    edit.IsOn segment ∧ (policy.normalizeExisting = false → edit.replacesUntil = none) := by
  cases segment with
  | single line =>
    dsimp only [verdict] at h
    split at h
    · cases h
    · split at h
      · cases h
      · split at h
        · cases h
        · cases h
          exact ⟨⟨rfl, rfl⟩, fun _ => rfl⟩
  | inline line after =>
    obtain ⟨hnormalize, hplace⟩ := of_edit?_ofClosed h
    exact ⟨hplace, fun hnot => absurd (hnormalize.symm.trans hnot) Bool.true_eq_false.mp⟩
  | block opener inner closer after =>
    obtain ⟨hnormalize, hplace⟩ := of_edit?_ofClosed h
    exact ⟨hplace, fun hnot => absurd (hnormalize.symm.trans hnot) Bool.true_eq_false.mp⟩
  | unclosed opener more => cases h

/-- The edits for some segments are the one for the first, if any, and those for
the rest. -/
theorem edits_cons (policy : ScanPolicy) (template : Template) (above : Bool)
    (before : Option (Segment Line)) (segment : Segment Line) (rest : List (Segment Line)) :
    (verdictsBehind policy above before (segment :: rest)).filterMap (Verdict.edit? template) =
      ((segment.verdict policy (documentedBy policy above before)).edit? template).toList ++
        (verdictsBehind policy above (some segment) rest).filterMap (Verdict.edit? template) := by
  rw [verdictsBehind_cons, List.filterMap_eq_flatMap_toList, List.filterMap_eq_flatMap_toList,
    List.flatMap_cons]

/-- Every edit is on one of the segments. -/
theorem exists_of_mem_edits {before : Option (Segment Line)}
    (h : edit ∈ (verdictsBehind policy above before segments).filterMap
      (Verdict.edit? template)) :
    ∃ segment ∈ segments, edit.IsOn segment ∧
      (policy.normalizeExisting = false → edit.replacesUntil = none) := by
  induction segments generalizing before with
  | nil => exact absurd h List.not_mem_nil
  | cons segment rest ih =>
    rw [edits_cons, List.mem_append] at h
    rcases h with h | h
    · exact ⟨segment, List.mem_cons_self, isOn_of_edit?_verdict (Option.mem_toList.mp h)⟩
    · obtain ⟨found, hm, hfound⟩ := ih h
      exact ⟨found, List.mem_cons_of_mem segment hm, hfound⟩

/-- The lines of each segment are consecutive. -/
theorem exists_consecutive_lines {n : Nat} (h : Line.Consecutive n (segments.flatMap lines))
    {segment : Segment Line} (hs : segment ∈ segments) :
    ∃ m, Line.Consecutive m segment.lines := by
  obtain ⟨front, back, rfl⟩ := List.append_of_mem hs
  rw [List.flatMap_append, Line.Consecutive.append_iff, List.flatMap_cons,
    Line.Consecutive.append_iff] at h
  exact ⟨_, h.2.1⟩

/-- The lines of a segment are among those of all segments. -/
theorem bounds_of_mem_lines {n : Nat} (h : Line.Consecutive n (segments.flatMap lines))
    {segment : Segment Line} (hs : segment ∈ segments) {line : Line} (hm : line ∈ segment.lines) :
    n ≤ line.number ∧ line.number < n + (segments.flatMap lines).length :=
  h.bounds_of_mem (List.mem_flatMap.mpr ⟨segment, hs, hm⟩)

/-- The edits on segments that follow each other follow each other. -/
theorem pairwise_edits {n : Nat} {before : Option (Segment Line)}
    (h : Line.Consecutive n (segments.flatMap lines)) :
    ((verdictsBehind policy above before segments).filterMap (Verdict.edit? template)).Pairwise
      fun earlier later => earlier.finish.line < later.position.line := by
  induction segments generalizing n before with
  | nil => exact List.Pairwise.nil
  | cons segment rest ih =>
    obtain ⟨hfirst, hrest⟩ := Line.Consecutive.append_iff.mp h
    rw [edits_cons]
    cases hedit : (segment.verdict policy (documentedBy policy above before)).edit? template with
    | none => exact ih hrest
    | some edit =>
      refine List.pairwise_cons.mpr ⟨fun later hlater => ?_, ih hrest⟩
      obtain ⟨_, line, hline, hfinish⟩ := (isOn_of_edit?_verdict hedit).1.exists_lines
      obtain ⟨found, hfound, hon, _⟩ := exists_of_mem_edits hlater
      obtain ⟨⟨start, hstart, hposition⟩, _⟩ := hon.exists_lines
      have hend := (hfirst.bounds_of_mem hline).2
      have hbegin := (bounds_of_mem_lines hrest hfound hstart).1
      have hline : later.position.line = start.number := by rw [hposition]; rfl
      omega

/-- A closed block is not counted as open. -/
theorem unterminated_ofClosed (opener closer : Line) (lines : List Line) (after : Text) :
    (Verdict.ofClosed policy opener closer lines after).tally.unterminated = 0 := by
  rw [Verdict.ofClosed]
  split <;> rfl

/-- A segment that ends by itself is not counted as open. -/
theorem unterminated_verdict {segment : Segment Line} (h : segment.isUnclosed = false)
    (documented : Bool) : (segment.verdict policy documented).tally.unterminated = 0 := by
  cases segment with
  | single line =>
    dsimp only [verdict]
    split
    · rfl
    · split
      · rfl
      · split <;> rfl
  | inline line after => exact unterminated_ofClosed line line [line] after
  | block opener inner closer after => exact unterminated_ofClosed opener closer _ after
  | unclosed opener more => cases h

/-- An open block is counted once, and nothing comes behind it. -/
theorem unterminated_total {before : Option (Segment Line)} (h : WellCut Line.text segments) :
    (Verdict.total (verdictsBehind policy above before segments)).unterminated = 0 ∨
      (Verdict.total (verdictsBehind policy above before segments)).unterminated = 1 ∧
        ∃ front opener more, segments = front ++ [.unclosed opener more] := by
  induction segments generalizing before with
  | nil => exact .inl rfl
  | cons segment rest ih =>
    obtain ⟨_, hlast, hrest⟩ := h
    have hsum : (Verdict.total (verdictsBehind policy above before (segment :: rest))).unterminated
        = (segment.verdict policy (documentedBy policy above before)).tally.unterminated +
          (Verdict.total (verdictsBehind policy above (some segment) rest)).unterminated := rfl
    cases hopen : segment.isUnclosed with
    | true =>
      obtain ⟨opener, more, rfl⟩ : ∃ opener more, segment = .unclosed opener more := by
        cases segment with
        | unclosed opener more => exact ⟨opener, more, rfl⟩
        | _ => cases hopen
      rw [hsum, hlast hopen]
      exact .inr ⟨rfl, [], opener, more, rfl⟩
    | false =>
      rw [hsum, unterminated_verdict hopen, Nat.zero_add]
      rcases ih hrest with hnone | ⟨hone, front, opener, more, rfl⟩
      · exact .inl hnone
      · exact .inr ⟨hone, segment :: front, opener, more, rfl⟩

end Segment

namespace Scan

variable {settings : Settings} {source : Source} {range : LineRange} {found : Report}

/-- Edits on segments in front of an open block end in front of its opener. -/
theorem finish_lt_of_isOn {n : Nat} {front : List (Segment Line)} {opener : Line}
    {more : List Line} {edit : Edit}
    (h : Line.Consecutive n ((front ++ [Segment.unclosed opener more]).flatMap Segment.lines))
    {segment : Segment Line} (hm : segment ∈ front ++ [.unclosed opener more])
    (hon : edit.IsOn segment) : edit.finish.line < opener.number := by
  rw [List.flatMap_append] at h
  obtain ⟨hfront, hopener, _⟩ := Line.Consecutive.append_iff.mp h
  rcases List.mem_append.mp hm with hm | hm
  · obtain ⟨_, line, hline, hfinish⟩ := hon.exists_lines
    rw [hopener, hfinish]
    exact (Segment.bounds_of_mem_lines hfront hm hline).2
  · rw [List.mem_singleton.mp hm] at hon
    exact hon.elim

/-- A scan of a range keeps to the order of its segments. -/
theorem orderly_inRange (settings : Settings) (source : Source) (range : LineRange) :
    (inRange settings source range).Orderly (source.scanned range) := by
  obtain ⟨hedits, htally⟩ := inRange_eq_verdicts settings source range
  rw [Source.verdicts] at hedits htally
  have hsegments := source.consecutive_scanned range
  rw [← Segment.lines_cut Line.text (source.scanned range)] at hsegments
  have hcut : Segment.WellCut Line.text (Segment.cut Line.text (source.scanned range)) :=
    Segment.wellCut_cut (source.scanned range)
  have hon : ∀ edit ∈ (inRange settings source range).edits,
      ∃ segment ∈ Segment.cut Line.text (source.scanned range), edit.IsOn segment := by
    intro edit hm
    rw [hedits] at hm
    obtain ⟨segment, hsegment, hedit, _⟩ := Segment.exists_of_mem_edits hm
    exact ⟨segment, hsegment, hedit⟩
  obtain ⟨_, _, hcounts⟩ := counts_inRange settings source range
  refine ⟨hon, ?_, ?_, ?_, ?_, fun hone => ?_⟩
  · rw [hedits]
    exact Segment.pairwise_edits hsegments
  · rw [hcounts.generated, Report.length_insertedLines]
  · rw [htally, hedits]
    exact Verdict.normalized_total settings.template _
  · rw [htally]
    rcases Segment.unterminated_total hcut with hzero | ⟨hone, _⟩
    · rw [hzero]
      exact Nat.zero_le 1
    · exact hone.le
  · rw [htally] at hone
    rcases Segment.unterminated_total hcut with hzero | ⟨_, front, opener, more, hlast⟩
    · rw [hzero] at hone
      cases hone
    · refine ⟨front, opener, more, hlast, fun edit hm => ?_⟩
      obtain ⟨segment, hsegment, hedit⟩ := hon edit hm
      rw [hlast] at hsegments hsegment
      exact finish_lt_of_isOn hsegments hsegment hedit

/-- The edits of a scan are on lines of the clamped range. -/
theorem bounds_of_isOn {segment : Segment Line} {edit : Edit}
    (hm : segment ∈ Segment.cut Line.text (source.scanned range)) (hon : edit.IsOn segment) :
    ∃ clamped, range.clamp? source.lineCount = some clamped ∧
      clamped.start ≤ edit.position.line ∧ edit.position.line ≤ edit.finish.line ∧
      edit.finish.line ≤ clamped.stop ∧ edit.position.character = 0 := by
  rw [Source.scanned] at hm
  cases hclamp : range.clamp? source.lineCount with
  | none =>
    rw [hclamp] at hm
    dsimp only at hm
    rw [Segment.cut] at hm
    exact absurd hm List.not_mem_nil
  | some clamped =>
    rw [hclamp] at hm
    have hlines : Line.Consecutive clamped.start (source.linesIn clamped) :=
      source.consecutive_linesFrom clamped.start clamped.size
    have hlength : (source.linesIn clamped).length ≤ clamped.size :=
      source.length_linesFrom_le clamped.start clamped.size
    have hsize : clamped.size = clamped.stop - clamped.start + 1 := rfl
    have hordered := clamped.ordered
    rw [← Segment.lines_cut Line.text (source.linesIn clamped)] at hlines hlength
    obtain ⟨_, hsegment⟩ := Segment.exists_consecutive_lines hlines hm
    obtain ⟨⟨start, hstart, hposition⟩, last, hlast, hfinish⟩ := hon.exists_lines
    have hle := hon.line_le hsegment
    have hbegin := (Segment.bounds_of_mem_lines hlines hm hstart).1
    have hend := (Segment.bounds_of_mem_lines hlines hm hlast).2
    have hline : edit.position.line = start.number := by rw [hposition]; rfl
    refine ⟨clamped, rfl, ?_, hle, ?_, ?_⟩
    · omega
    · omega
    · rw [hposition]
      rfl

/-- The edits of a scan of a range, whatever lines the source can hand out: they
are on segments of the lines read, inside the clamped range, from top to bottom
and without a common line, start at the beginning of a line, and are counted;
at most one block stays open, and no edit is at its opener or behind. Without
laying out blocks again nothing is replaced. -/
theorem selection_orderly (h : selection settings source range = .ok found) :
    found.Orderly (source.scanned range) ∧
      (∀ edit ∈ found.edits, ∃ clamped, range.clamp? source.lineCount = some clamped ∧
        clamped.start ≤ edit.position.line ∧ edit.position.line ≤ edit.finish.line ∧
        edit.finish.line ≤ clamped.stop ∧ edit.position.character = 0) ∧
      (settings.scan.normalizeExisting = false →
        ∀ edit ∈ found.edits, edit.replacesUntil = none) := by
  have hfound : inRange settings source range = found := by
    rw [selection] at h
    cases hl : checkLanguage settings source with
    | error refusal => rw [hl] at h; cases h
    | ok _ =>
      rw [hl] at h
      exact Except.ok.inj h
  obtain ⟨hedits, _⟩ := inRange_eq_verdicts settings source range
  rw [Source.verdicts] at hedits
  have horderly := orderly_inRange settings source range
  rw [hfound] at hedits horderly
  refine ⟨horderly, fun edit hm => ?_, fun hnot edit hm => ?_⟩
  · obtain ⟨segment, hsegment, hon⟩ := horderly.onSegment edit hm
    exact bounds_of_isOn hsegment hon
  · rw [hedits] at hm
    obtain ⟨_, _, _, hinsert⟩ := Segment.exists_of_mem_edits hm
    exact hinsert hnot

/-- A source with fewer lines than it announces, with a block that stays open. -/
theorem selection_orderly_short_source :
    ∃ source range found,
      source = Source.ofLines ["/** a".toList, " */".toList, "f(x) \x7b".toList, "/**".toList,
        "g(y) \x7b".toList] 9 "javascript".toList ∧
      range = ⟨0, 7, by decide⟩ ∧ selection {} source range = .ok found ∧
      found.tally.unterminated = 1 ∧ found.Orderly (source.scanned range) := by
  obtain ⟨source, hsource⟩ : ∃ source, source = Source.ofLines ["/** a".toList, " */".toList,
    "f(x) \x7b".toList, "/**".toList, "g(y) \x7b".toList] 9 "javascript".toList := ⟨_, rfl⟩
  have hok : selection {} source ⟨0, 7, by decide⟩ =
      .ok (inRange {} source ⟨0, 7, by decide⟩) := by
    rw [hsource]
    rfl
  refine ⟨source, _, _, hsource, rfl, hok, ?_, (selection_orderly hok).1⟩
  rw [hsource]
  decide +kernel

end Scan

end Docblock
