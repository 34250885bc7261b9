import Docblock.Proofs.Edit.Majority
import Docblock.Proofs.Scan.Patch

/-!
# The patches of a document

The segments of the scanned range, with the rows in front of it and behind it
left alone, cover the document with patches. The report of a scan plans exactly
the edits of this cover, and every patch of it keeps the lines it covers.
-/

namespace Docblock

open Text

/-- The lines that a document hands out are its rows, numbered. -/
theorem Document.linesFrom_toSource (document : Document) (start count : Nat) :
    document.toSource.linesFrom start count =
      Line.numbered start (((document.rows.drop start).take count).map Row.text) := by
  induction count generalizing start with
  | zero => simp [Source.linesFrom, Line.numbered]
  | succ count ih =>
    rw [Source.linesFrom, Source.line?, toSource]
    dsimp only
    cases hr : document.rows[start]? with
    | none =>
      have hdrop : document.rows.drop start = [] :=
        List.drop_eq_nil_of_le (List.getElem?_eq_none_iff.mp hr)
      simp [hdrop, Line.numbered]
    | some row =>
      obtain ⟨hlt, hrow⟩ := List.getElem?_eq_some_iff.mp hr
      have hdrop : document.rows.drop start = row :: document.rows.drop (start + 1) := by
        rw [List.drop_eq_getElem_cons hlt, hrow]
      rw [hdrop, List.take_succ_cons, List.map_cons, Line.numbered]
      dsimp only [Option.map_some]
      exact congrArg _ (ih (start + 1))

namespace Patch

/-- The patch that leaves a row alone. -/
def alone (row : Row) : Patch := ⟨row, [], .keep⟩

/-- Rows by themselves are patches that have these rows. -/
@[simp] theorem flatMap_rows_alone (rows : List Row) :
    (rows.map alone).flatMap Patch.rows = rows := by
  induction rows with
  | nil => rfl
  | cons row rest ih => rw [List.map_cons, List.flatMap_cons, ih]; rfl

/-- Rows that are left alone have no edits. -/
theorem editsFrom_alone (line : Nat) (rows : List Row) : editsFrom line (rows.map alone) = [] := by
  induction rows generalizing line with
  | nil => rfl
  | cons row rest ih => rw [List.map_cons, editsFrom, ih]; rfl

/-- Patches have their edits one after the other, at the lines behind those in front. -/
theorem editsFrom_append (line : Nat) (a b : List Patch) :
    editsFrom line (a ++ b) =
      editsFrom line a ++ editsFrom (line + (a.flatMap rows).length) b := by
  induction a generalizing line with
  | nil => rfl
  | cons patch rest ih =>
    rw [List.cons_append, editsFrom, editsFrom, ih, List.append_assoc, List.flatMap_cons,
      List.length_append, Nat.add_assoc]

end Patch

namespace Segment

variable {settings : Settings}

/-- A line with a closer is not blank. -/
theorem trim_ne_nil_of_afterCloser? {t after : Text} (h : Scan.afterCloser? (trim t) = some after) :
    trim t ≠ [] := by
  intro he
  rw [he] at h
  cases h

/-- The text in place of the rows of a block has their laid out lines. -/
theorem blockText_rows (indent : Text) {patch : Patch}
    (hl : ∀ row ∈ patch.rows, '\n' ∉ row.text) (hlast : trim patch.last.text ≠ []) :
    Scan.blockText indent (patch.rows.map fun row => trim row.text) =
      joinWith ['\n'] (patch.rows.map fun row => Comment.laid indent row.text) := by
  rw [Patch.rows_eq_init_append_last] at hl ⊢
  have hinit : ∀ l ∈ patch.init.map fun row => trim row.text, '\n' ∉ l := by
    intro l hm
    obtain ⟨row, hr, rfl⟩ := List.mem_map.mp hm
    exact fun h => hl row (List.mem_append_left _ hr) (mem_of_mem_trim h)
  have hend : '\n' ∉ trim patch.last.text := fun h =>
    hl patch.last (List.mem_append_right _ List.mem_cons_self) (mem_of_mem_trim h)
  rw [List.map_append, List.map_singleton, Scan.blockText_eq_joinWith indent hinit hend hlast]
  simp only [List.map_append, List.map_map, List.map_singleton, Function.comp_def,
    Comment.laid_trim]

/-- A block that is laid out again keeps its lines. -/
theorem faithful_of_blockChange (policy : ScanPolicy) {patch : Patch} {owner after : Text}
    (ho : '\n' ∉ owner) (hl : ∀ row ∈ patch.rows, '\n' ∉ row.text)
    (hlast : trim patch.last.text ≠ [])
    (hc : patch.change = blockChange policy patch.rows (indent owner) after) : patch.Faithful := by
  rw [blockChange] at hc
  split at hc
  · rw [Patch.Faithful, hc]
    refine ⟨patch.rows.map fun row => Comment.laid (indent owner) row.text, ?_,
      blockText_rows (indent owner) hl hlast, ?_⟩
    · intro l hm
      obtain ⟨row, hr, rfl⟩ := List.mem_map.mp hm
      exact Comment.breakable_laid (fun h => ho (mem_of_mem_indent h)) (hl row hr)
    · rw [List.map_map]
      exact List.map_congr_left fun row _ =>
        Comment.trim_laid (fun c hm => isBlank_of_mem_indent hm) row.text
  · rw [Patch.Faithful, hc]
    trivial

/-- A comment for a declaration is made of whole lines. -/
theorem exists_unlines_of_added? {first : Nat} {above : Bool} {line : Line} {comment : Text}
    (hl : '\n' ∉ line.text) (h : Scan.added? settings first above line = some comment) :
    ∃ ls, (∀ l ∈ ls, Breakable l) ∧ comment = unlines ls := by
  obtain ⟨declaration, _, rfl⟩ := Scan.added?_eq_some h
  refine ⟨_, ?_, Comment.layout_eq_unlines _ _⟩
  intro l hm
  obtain ⟨k, hk, rfl⟩ := List.mem_map.mp hm
  exact Comment.breakable_laid (fun hi => hl (mem_of_mem_indent hi)) (not_mem_of_mem_lines _ k hk)

/-- The patch of a segment keeps the lines of the segment. -/
theorem faithful_patch {first n : Nat} {above : Bool} {segment : Segment Row}
    (hv : segment.Valid Row.text) (hl : ∀ row ∈ segment.lines, '\n' ∉ row.text) :
    (segment.patch settings first above n).Faithful := by
  have hrows : ∀ row ∈ (segment.patch settings first above n).rows, '\n' ∉ row.text := by
    rwa [rows_patch]
  cases segment with
  | single row =>
    rw [patch, Patch.Faithful]
    dsimp only
    cases ha : Scan.added? settings first above ⟨n, row.text⟩ with
    | none => trivial
    | some comment => exact exists_unlines_of_added? (hl row List.mem_cons_self) ha
  | inline row after =>
    apply faithful_of_blockChange settings.scan (hl row List.mem_cons_self) hrows _ rfl
    intro he
    have hafter := hv.2
    rw [show trim row.text = [] from he] at hafter
    cases hafter
  | block opener inner closer after =>
    have hlast : (patch settings first above n (.block opener inner closer after)).last = closer :=
      List.getLastD_concat
    apply faithful_of_blockChange settings.scan (hl opener List.mem_cons_self) hrows _ rfl
    rw [hlast]
    exact trim_ne_nil_of_afterCloser? hv.2.2.2
  | unclosed opener more => trivial

/-- The patches of the segments of some rows keep the rows. -/
theorem faithful_of_mem_patches {first n : Nat} {above : Bool} {segments : List (Segment Row)}
    (hw : WellCut Row.text segments) (hl : ∀ row ∈ segments.flatMap lines, '\n' ∉ row.text) :
    ∀ patch ∈ patches settings first above n segments, patch.Faithful := by
  induction segments generalizing above n with
  | nil => exact fun _ hp => absurd hp List.not_mem_nil
  | cons segment rest ih =>
    rw [List.flatMap_cons, List.forall_mem_append] at hl
    rw [patches, List.forall_mem_cons]
    exact ⟨faithful_patch hw.1 hl.1, ih hw.2.2 hl.2⟩

end Segment

namespace Scan

/-- Whether the line above a line closes a comment. -/
def above (document : Document) : (start : Nat) → Bool
  | 0 => false
  | before + 1 => document.rows[before]?.any fun row => closesComment (trim row.text)

/-- A scan of a document starts out with the row above the range. -/
theorem initial_toSource (document : Document) (start : Nat) :
    initial document.toSource start = .outside (above document start) := by
  cases start with
  | zero => rfl
  | succ before =>
    rw [initial, above, Source.line?, Document.toSource]
    dsimp only
    cases document.rows[before]? with
    | none => rfl
    | some row => rfl

/-- The segments of a range of rows. -/
def segmentsIn (document : Document) (range : LineRange) : List (Segment Row) :=
  Segment.cut Row.text ((document.rows.drop range.start).take range.size)

/-- The lines that a scan looks at. -/
def target? (document : Document) : (selected : Option LineRange) → Option LineRange
  | none => LineRange.full? document.rows.length
  | some range => range.clamp? document.rows.length

/-- The target of a selection starts inside the document. -/
theorem start_le_of_target? {document : Document} {selected : Option LineRange}
    {lines : LineRange} (h : target? document selected = some lines) :
    lines.start ≤ document.rows.length := by
  cases selected with
  | none =>
    rw [target?] at h
    cases hn : document.rows.length with
    | zero => rw [hn] at h; cases h
    | succ count => rw [hn] at h; cases h; exact Nat.zero_le _
  | some range =>
    rw [target?, LineRange.clamp?] at h
    split at h
    · cases h
      dsimp only
      omega
    · cases h

/-- The patches of a scan of a range. -/
def patchesIn (settings : Settings) (document : Document) (range : LineRange) : List Patch :=
  Segment.patches settings range.start (above document range.start) range.start
    (segmentsIn document range)

/-- The patches of a scan: rows outside the range are left alone. -/
def patches (settings : Settings) (document : Document) (selected : Option LineRange) :
    List Patch :=
  match target? document selected with
  | none => document.rows.map Patch.alone
  | some range =>
    (document.rows.take range.start).map Patch.alone ++
    (patchesIn settings document range ++
      ((document.rows.drop range.start).drop range.size).map Patch.alone)

/-- The patches of a scan cover the document. -/
theorem rows_patches (settings : Settings) (document : Document) (selected : Option LineRange) :
    (patches settings document selected).flatMap Patch.rows = document.rows := by
  rw [patches]
  cases target? document selected with
  | none => exact Patch.flatMap_rows_alone document.rows
  | some range =>
    dsimp only
    rw [List.flatMap_append, List.flatMap_append, Patch.flatMap_rows_alone,
      Patch.flatMap_rows_alone, patchesIn, Segment.rows_patches, segmentsIn, Segment.lines_cut,
      List.take_append_drop, List.take_append_drop]

/-- The patches of a scan of a text keep its lines. -/
theorem faithful_of_mem_patches (settings : Settings) {document : Document}
    (h : ∀ row ∈ document.rows, '\n' ∉ row.text) (selected : Option LineRange) :
    ∀ patch ∈ patches settings document selected, patch.Faithful := by
  have halone : ∀ rows : List Row, ∀ patch ∈ rows.map Patch.alone, patch.Faithful := by
    intro rows patch hp
    obtain ⟨row, _, rfl⟩ := List.mem_map.mp hp
    trivial
  rw [patches]
  cases target? document selected with
  | none => exact halone document.rows
  | some range =>
    dsimp only
    rw [List.forall_mem_append, List.forall_mem_append]
    refine ⟨halone _, ?_, halone _⟩
    apply Segment.faithful_of_mem_patches (Segment.wellCut_cut _)
    rw [Segment.lines_cut]
    exact fun row hr => h row (List.mem_of_mem_drop (List.mem_of_mem_take hr))

/-- Within a document a scan of a range reports on its segments. -/
theorem inRange_toSource (settings : Settings) (document : Document) {range lines : LineRange}
    (h : range.clamp? document.rows.length = some lines) :
    inRange settings document.toSource range =
      { events := [.scanning lines.start lines.stop document.language] } ++
      Segment.reports Row.text settings lines.start (above document lines.start) lines.start
        (segmentsIn document lines) := by
  have hc : range.clamp? document.toSource.lineCount = some lines := h
  rw [inRange, hc]
  dsimp only
  rw [initial_toSource, Source.linesIn, Document.linesFrom_toSource, run_eq_reports]
  rfl

/-- A range that lies in the document is not cut off. -/
theorem clamp?_full {count : Nat} {range : LineRange} (h : LineRange.full? count = some range) :
    range.clamp? count = some range := by
  cases count with
  | zero => cases h
  | succ count =>
    cases h
    simp [LineRange.clamp?]

/-- A scan in an enabled language reports on the segments of the lines it looks
at, and plans nothing when there are none. -/
theorem report_toSource (settings : Settings) (document : Document)
    (selected : Option LineRange) (h : settings.scan.accepts document.language = true) :
    ∃ events, report settings document.toSource selected =
      .ok (match target? document selected with
        | none => { events := events }
        | some lines =>
          { events := events } ++
          Segment.reports Row.text settings lines.start (above document lines.start) lines.start
            (segmentsIn document lines)) := by
  have hl : checkLanguage settings document.toSource = .ok () := by
    rw [checkLanguage]
    exact if_pos h
  cases selected with
  | none =>
    rw [report, whole, hl, target?]
    have hfull : document.toSource.fullRange? = LineRange.full? document.rows.length := rfl
    rw [hfull]
    cases hr : LineRange.full? document.rows.length with
    | none => exact ⟨[], rfl⟩
    | some lines => exact ⟨_, congrArg _ (inRange_toSource settings document (clamp?_full hr))⟩
  | some range =>
    rw [report, selection, hl, target?]
    cases hr : range.clamp? document.rows.length with
    | none =>
      have hc : range.clamp? document.toSource.lineCount = none := hr
      refine ⟨[.pastEnd range document.rows.length], ?_⟩
      rw [inRange, hc]
      rfl
    | some lines => exact ⟨_, congrArg _ (inRange_toSource settings document hr)⟩

/-- A source in a language that is not enabled is refused, whatever is selected. -/
theorem report_of_not_accepts {settings : Settings} {source : Source}
    (selected : Option LineRange) (h : settings.scan.accepts source.language = false) :
    report settings source selected = .error ⟨source.language, settings.scan.languages⟩ := by
  have hl : checkLanguage settings source = .error ⟨source.language, settings.scan.languages⟩ := by
    rw [checkLanguage, h]
    rfl
  cases selected with
  | none => rw [report, whole, hl]; rfl
  | some range => rw [report, selection, hl]; rfl

/-- A scan plans the edits of its patches. -/
theorem edits_eq_editsFrom_patches (settings : Settings) (document : Document)
    (selected : Option LineRange) (h : settings.scan.accepts document.language = true) :
    ∃ found, report settings document.toSource selected = .ok found ∧
      found.edits = Patch.editsFrom 0 (patches settings document selected) := by
  obtain ⟨events, hr⟩ := report_toSource settings document selected h
  refine ⟨_, hr, ?_⟩
  rw [patches]
  cases ht : target? document selected with
  | none => exact (Patch.editsFrom_alone 0 document.rows).symm
  | some lines =>
    have hstart : lines.start ≤ document.rows.length := start_le_of_target? ht
    dsimp only
    rw [Patch.editsFrom_append, Patch.editsFrom_append, Patch.editsFrom_alone,
      Patch.editsFrom_alone, Patch.flatMap_rows_alone, List.length_take_of_le hstart, Nat.zero_add,
      patchesIn, ← Segment.edits_reports, List.append_nil]
    rfl

end Scan

end Docblock
