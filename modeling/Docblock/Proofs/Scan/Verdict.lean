import Docblock.Proofs.Scan.Relaid

/-!
# Verdicts on segments

A scan reads its lines once. The same edits and counts come from two phases:
first the lines are cut into segments, and then each segment is judged by
itself, with a look at the segment in front of it and no state. The line above
the range stands in for a segment in front of the first one.
-/

namespace Docblock

open Text

/-- What becomes of a segment. -/
inductive Verdict where
  /-- A line with a declaration that gets a comment. -/
  | commented (line : Line) (declaration : Declaration)
  /-- A line with a declaration that has a comment already. -/
  | documented
  /-- A closed block, from its opener to its closer, that is laid out again. -/
  | laidOut (opener closer : Line) (lines : List Line)
  /-- A block that is never closed. -/
  | unclosed
  /-- Anything that is left alone and not counted. -/
  | left
  deriving DecidableEq, Repr

namespace Verdict

/-- The edit that carries out a verdict: a comment goes in front of the line of
a declaration, and a laid out block takes the place of its lines. -/
def edit? (template : Template) : Verdict → Option Edit
  | commented line declaration =>
    some (.insert ⟨line.number, 0⟩
      (Comment.layout (indent line.text) (Comment.skeleton template declaration)))
  | laidOut opener closer lines =>
    some (.replace ⟨opener.number, 0⟩ ⟨closer.number, closer.text.length⟩
      (Scan.blockText (indent opener.text) (lines.map fun line => trim line.text)))
  | _ => none

/-- What a verdict counts for. -/
def tally : Verdict → Tally
  | commented _ _ => { generated := 1 }
  | documented => { skipped := 1 }
  | laidOut _ _ _ => { normalized := 1 }
  | unclosed => { unterminated := 1 }
  | left => {}

/-- The counts of all verdicts. -/
def total (verdicts : List Verdict) : Tally :=
  verdicts.foldr (fun verdict sum => verdict.tally + sum) {}

/-- The verdict on the lines of a closed block. Code behind the closer keeps the
block as it is. -/
def ofClosed (policy : ScanPolicy) (opener closer : Line) (lines : List Line)
    (after : Text) : Verdict :=
  if after.isEmpty && policy.normalizeExisting then laidOut opener closer lines else left

end Verdict

namespace Segment

/-- The verdict on a segment, given whether a declaration in it is documented. -/
def verdict (policy : ScanPolicy) (documented : Bool) : Segment Line → Verdict
  | .single line =>
    if Scan.isCommentLine line.trimmed then .left
    else
      match Declaration.classify line.trimmed with
      | none => .left
      | some declaration => if documented then .documented else .commented line declaration
  | .inline line after => .ofClosed policy line line [line] after
  | .block opener inner closer after =>
    .ofClosed policy opener closer (opener :: inner ++ [closer]) after
  | .unclosed _ _ => .unclosed

/-- Whether a declaration is documented by what stands in front of it: on the
first line of the range by the line above, and on a later line by the segment
in front of it, if the settings say so. -/
def documentedBy (policy : ScanPolicy) (above : Bool) : (before : Option (Segment Line)) → Bool
  | none => above
  | some before => policy.skipDocumented && before.closes Line.text

/-- The verdicts on segments that stand behind another one. -/
def verdictsBehind (policy : ScanPolicy) (above : Bool) (before : Option (Segment Line))
    (segments : List (Segment Line)) : List Verdict :=
  List.zipWith (fun before segment => segment.verdict policy (documentedBy policy above before))
    (before :: segments.map some) segments

end Segment

namespace Source

/-- Whether there is a line above a line, and it closes a comment. -/
def closesAbove (source : Source) (number : Nat) : Bool :=
  0 < number && (source.line? (number - 1)).any fun line => Scan.closesComment line.trimmed

/-- The lines that a scan of a range reads. -/
def scanned (source : Source) (range : LineRange) : List Line :=
  match range.clamp? source.lineCount with
  | none => []
  | some range => source.linesIn range

/-- The verdicts on the segments of a range. -/
def verdicts (policy : ScanPolicy) (source : Source) (range : LineRange) : List Verdict :=
  Segment.verdictsBehind policy (source.closesAbove range.start) none
    (Segment.cut Line.text (source.scanned range))

end Source

/-- Lines whose numbers count up from `n`. -/
def Line.Consecutive : (n : Nat) → List Line → Prop
  | _, [] => True
  | n, line :: rest => line.number = n ∧ Consecutive (n + 1) rest

namespace Line.Consecutive

/-- Consecutive lines can be taken apart, and the second part is numbered
behind the first. -/
theorem append_iff {n : Nat} {front back : List Line} :
    Line.Consecutive n (front ++ back) ↔
      Line.Consecutive n front ∧ Line.Consecutive (n + front.length) back := by
  induction front generalizing n with
  | nil => exact ⟨fun h => ⟨trivial, h⟩, And.right⟩
  | cons line rest ih =>
    have hlength : n + 1 + rest.length = n + (line :: rest).length := by
      rw [List.length_cons]
      omega
    rw [List.cons_append, Line.Consecutive, Line.Consecutive, ih, hlength, and_assoc]

/-- Consecutive lines are their texts, numbered. -/
theorem numbered_eq {n : Nat} {lines : List Line} (h : Line.Consecutive n lines) :
    Line.numbered n (lines.map Line.text) = lines := by
  induction lines generalizing n with
  | nil => rfl
  | cons line rest ih =>
    obtain ⟨rfl, hrest⟩ := h
    rw [List.map_cons, Line.numbered, ih hrest]

/-- The numbers of consecutive lines stay below the first number behind them. -/
theorem bounds_of_mem {n : Nat} {lines : List Line} (h : Line.Consecutive n lines) {line : Line}
    (hm : line ∈ lines) : n ≤ line.number ∧ line.number < n + lines.length := by
  induction lines generalizing n with
  | nil => exact absurd hm List.not_mem_nil
  | cons first rest ih =>
    obtain ⟨hfirst, hrest⟩ := h
    rw [List.length_cons]
    rcases List.mem_cons.mp hm with rfl | hm
    · omega
    · have hbounds := ih hrest hm
      omega

/-- Consecutive lines end in front of a bound when each of them does. -/
theorem add_length_le_iff {n bound : Nat} {lines : List Line} (h : Line.Consecutive n lines)
    (hn : n ≤ bound) : n + lines.length ≤ bound ↔ ∀ line ∈ lines, line.number < bound := by
  constructor
  · intro hlength line hm
    exact Nat.lt_of_lt_of_le (h.bounds_of_mem hm).2 hlength
  · intro hall
    rcases List.eq_nil_or_concat' lines with rfl | ⟨front, last, rfl⟩
    · exact hn
    · obtain ⟨_, hlast, _⟩ := append_iff.mp h
      have hbound := hall last (List.mem_append_right _ List.mem_cons_self)
      rw [List.length_append, List.length_singleton]
      omega

end Line.Consecutive

/-- A source hands out consecutive lines. -/
theorem Source.consecutive_linesFrom (source : Source) (start count : Nat) :
    Line.Consecutive start (source.linesFrom start count) := by
  induction count generalizing start with
  | zero => trivial
  | succ count ih =>
    rw [linesFrom]
    cases hl : source.line? start with
    | none => trivial
    | some line =>
      obtain ⟨text, _, rfl⟩ := Option.map_eq_some_iff.mp hl
      exact ⟨rfl, ih (start + 1)⟩

/-- Clamping keeps the start of a range and cuts it off at the last line. -/
theorem LineRange.eq_of_clamp?_eq_some {range clamped : LineRange} {count : Nat}
    (h : range.clamp? count = some clamped) :
    range.start < count ∧ clamped.start = range.start ∧
      clamped.stop = min range.stop (count - 1) := by
  rw [clamp?] at h
  split at h
  · rename_i hlt
    cases h
    exact ⟨hlt, rfl, rfl⟩
  · cases h

/-- The lines that a scan reads are numbered from the start of its range on. -/
theorem Source.consecutive_scanned (source : Source) (range : LineRange) :
    Line.Consecutive range.start (source.scanned range) := by
  rw [scanned]
  cases hclamp : range.clamp? source.lineCount with
  | none => trivial
  | some clamped =>
    rw [← (LineRange.eq_of_clamp?_eq_some hclamp).2.1]
    exact source.consecutive_linesFrom clamped.start clamped.size

/-- A scan starts out with the flag for the line above its range. -/
theorem Scan.initial_eq_closesAbove (source : Source) (start : Nat) :
    initial source start = .outside (source.closesAbove start) := by
  cases start with
  | zero => rfl
  | succ above =>
    rw [initial, Source.closesAbove, decide_eq_true (Nat.succ_pos above), Bool.true_and]
    rfl

namespace Segment

/-- The verdict on a segment depends on the rest only by the segment in front of it. -/
theorem verdictsBehind_cons (policy : ScanPolicy) (above : Bool)
    (before : Option (Segment Line)) (segment : Segment Line) (rest : List (Segment Line)) :
    verdictsBehind policy above before (segment :: rest) =
      segment.verdict policy (documentedBy policy above before) ::
        verdictsBehind policy above (some segment) rest := rfl

/-- The report on a closed block carries out the verdict on it. -/
theorem edits_ofClosed (settings : Settings) (opener closer : Line) (lines : List Line)
    (after : Text) (left : Event) :
    (closed settings.scan ⟨opener.start, opener.indent, lines.map Line.trimmed⟩ closer after
      left).edits =
        ((Verdict.ofClosed settings.scan opener closer lines after).edit?
          settings.template).toList := by
  rw [edits_closed, Verdict.ofClosed]
  split <;> rfl

/-- The report on a closed block counts what its verdict does. -/
theorem tally_ofClosed (policy : ScanPolicy) (opener closer : Line) (lines : List Line)
    (block : Scan.OpenBlock) (after : Text) (left : Event) :
    (closed policy block closer after left).tally =
      (Verdict.ofClosed policy opener closer lines after).tally := by
  rw [tally_closed, Verdict.ofClosed]
  cases after.isEmpty && policy.normalizeExisting <;> rfl

/-- The report on a segment carries out the verdict on it. -/
theorem report_eq_verdict (settings : Settings) (first n : Nat) (above : Bool)
    {segment : Segment Line} (h : Line.Consecutive n segment.lines) :
    let verdict := segment.verdict settings.scan
      (above && (n = first || settings.scan.skipDocumented))
    (segment.report Line.text settings first above n).edits =
        (verdict.edit? settings.template).toList ∧
      (segment.report Line.text settings first above n).tally = verdict.tally := by
  cases segment with
  | single line =>
    obtain ⟨rfl, _⟩ := h
    dsimp only [report, verdict]
    rw [Scan.stepPlain]
    cases Scan.isCommentLine line.trimmed with
    | true => exact ⟨rfl, rfl⟩
    | false =>
      cases Declaration.classify line.trimmed with
      | none => exact ⟨rfl, rfl⟩
      | some declaration =>
        dsimp only [Scan.declare]
        cases above && (line.number = first || settings.scan.skipDocumented) with
        | true => exact ⟨rfl, rfl⟩
        | false => exact ⟨rfl, rfl⟩
  | inline line after =>
    obtain ⟨rfl, _⟩ := h
    exact ⟨edits_ofClosed settings line line [line] after _, tally_ofClosed _ _ _ _ _ _ _⟩
  | block opener inner closer after =>
    obtain ⟨hlines, hcloser, _⟩ := Line.Consecutive.append_iff.mp h
    obtain ⟨rfl, _⟩ := hlines
    have hlast : closer = ⟨opener.number + inner.length + 1, closer.text⟩ := by
      rw [Nat.add_assoc, ← List.length_cons, ← hcloser]
    dsimp only [report, verdict]
    rw [← hlast]
    exact ⟨edits_ofClosed settings opener closer (opener :: inner ++ [closer]) after _,
      tally_ofClosed _ _ _ _ _ _ _⟩
  | unclosed opener more => exact ⟨rfl, rfl⟩

/-- A segment has at least one line. -/
theorem length_lines_pos {α : Type} (segment : Segment α) : 0 < segment.lines.length := by
  cases segment <;> exact Nat.succ_pos _

/-- The reports on segments carry out the verdicts on them. The induction
follows the segments; past the first one the line number is not the first of
the range, so that only the segment in front can document a declaration. -/
theorem reports_eq_verdicts (settings : Settings) (first : Nat) (above flag : Bool) {n : Nat}
    (hn : first ≤ n) {before : Option (Segment Line)}
    (hflag : (flag && (n = first || settings.scan.skipDocumented)) =
      documentedBy settings.scan above before) {segments : List (Segment Line)}
    (h : Line.Consecutive n (segments.flatMap lines)) :
    let verdicts := verdictsBehind settings.scan above before segments
    (reports Line.text settings first flag n segments).edits =
        verdicts.filterMap (Verdict.edit? settings.template) ∧
      (reports Line.text settings first flag n segments).tally = Verdict.total verdicts := by
  induction segments generalizing flag n before with
  | nil => exact ⟨rfl, rfl⟩
  | cons segment rest ih =>
    obtain ⟨hlines, hrest⟩ := Line.Consecutive.append_iff.mp h
    have hpos := segment.length_lines_pos
    have hnext : (segment.closes Line.text &&
        (n + segment.lines.length = first || settings.scan.skipDocumented)) =
          documentedBy settings.scan above (some segment) := by
      rw [decide_eq_false (by omega), Bool.false_or, Bool.and_comm]
      rfl
    obtain ⟨hedits, htally⟩ := report_eq_verdict settings first n flag hlines
    obtain ⟨hedits', htally'⟩ := ih (segment.closes Line.text) (by omega) hnext hrest
    rw [hflag] at hedits htally
    constructor
    · show _ ++ _ = _
      rw [hedits, hedits', verdictsBehind_cons, List.filterMap_eq_flatMap_toList,
        List.filterMap_eq_flatMap_toList, List.flatMap_cons]
    · show _ + _ = _
      rw [htally, htally', verdictsBehind_cons]
      rfl

end Segment

namespace Scan

/-- What a scan of a range plans and counts is told by the verdicts on the
segments of its lines. -/
theorem run_eq_verdicts (settings : Settings) (source : Source) (range : LineRange) :
    let found := run settings range.start (initial source range.start) (source.linesIn range)
    let verdicts := Segment.verdictsBehind settings.scan (source.closesAbove range.start) none
      (Segment.cut Line.text (source.linesIn range))
    found.edits = verdicts.filterMap (Verdict.edit? settings.template) ∧
      found.tally = Verdict.total verdicts := by
  have hlines : Line.Consecutive range.start (source.linesIn range) :=
    source.consecutive_linesFrom range.start range.size
  have hrun : run settings range.start (.outside (source.closesAbove range.start))
      (Line.numbered range.start ((source.linesIn range).map Line.text)) = _ :=
    run_eq_reports settings range.start _ range.start (source.linesIn range)
  rw [hlines.numbered_eq, ← initial_eq_closesAbove] at hrun
  -- On the first line of the range the scan does not ask whether documented
  -- declarations are skipped.
  have hfirst : (source.closesAbove range.start &&
      (range.start = range.start || settings.scan.skipDocumented)) =
        Segment.documentedBy settings.scan (source.closesAbove range.start) none := by
    rw [decide_eq_true rfl, Bool.true_or, Bool.and_true]
    rfl
  rw [← Segment.lines_cut Line.text (source.linesIn range)] at hlines
  rw [hrun]
  exact Segment.reports_eq_verdicts settings range.start _ _ le_rfl hfirst hlines

/-- The edits and counts of a scan are those of the verdicts on the segments of
its range. -/
theorem inRange_eq_verdicts (settings : Settings) (source : Source) (range : LineRange) :
    (inRange settings source range).edits =
        (source.verdicts settings.scan range).filterMap (Verdict.edit? settings.template) ∧
      (inRange settings source range).tally =
        Verdict.total (source.verdicts settings.scan range) := by
  rw [inRange, Source.verdicts, Source.scanned]
  cases hclamp : range.clamp? source.lineCount with
  | none =>
    dsimp only
    rw [Segment.cut]
    exact ⟨rfl, rfl⟩
  | some clamped =>
    obtain ⟨hedits, htally⟩ := run_eq_verdicts settings source clamped
    rw [← (LineRange.eq_of_clamp?_eq_some hclamp).2.1]
    refine ⟨hedits, ?_⟩
    rw [← htally]
    exact Tally.zero_add _

end Scan

end Docblock
