import Docblock.Proofs.Comment.Complete
import Docblock.Proofs.Scan.Cover

/-!
# Comments that a scan inserts

Every edit that only inserts is a comment above a line that declares something.
With the default placeholders the comment is complete unless a closer was
captured from that line.
-/

namespace Docblock

open Text

/-- Whether an edit inserts the comment for the declaration on a row. -/
structure Edit.Documents (template : Template) (row : Row) (declaration : Declaration)
    (edit : Edit) : Prop where
  /-- The declaration is read from the row. -/
  classify : Declaration.classify (trim row.text) = some declaration
  /-- The comment goes in front of the whole line. -/
  start : edit.position.character = 0
  /-- The comment stands behind the indent of the row. -/
  text : edit.text =
    Comment.layout (indent row.text) (Comment.skeleton template declaration)

namespace Segment

variable {settings : Settings} {first n : Nat} {above : Bool}

/-- An insertion on one segment documents its only row. -/
theorem documents_of_mem_edits {segment : Segment Row} {edit : Edit}
    (h : edit ∈ (segment.patch settings first above n).edits n)
    (hinsert : edit.replacesUntil = none) :
    ∃ row declaration, segment = .single row ∧ edit.position.line = n ∧
      edit.Documents settings.template row declaration := by
  -- A block is only ever replaced.
  have hblock {rows : List Row} {owner after : Text} {patch : Patch}
      (hc : patch.change = blockChange settings.scan rows owner after)
      (h : edit ∈ patch.edits n) : False := by
    rw [Patch.edits, hc, blockChange] at h
    cases hb : after.isEmpty && settings.scan.normalizeExisting with
    | false =>
      rw [hb, if_neg Bool.false_ne_true] at h
      cases h
    | true =>
      rw [hb, if_pos rfl] at h
      rw [List.mem_singleton.mp h] at hinsert
      cases hinsert
  cases segment with
  | single row =>
    rw [patch, Patch.edits] at h
    cases ha : Scan.added? settings first above ⟨n, row.text⟩ with
    | none => rw [ha] at h; cases h
    | some comment =>
      rw [ha] at h
      obtain ⟨declaration, hd, rfl⟩ := Scan.added?_eq_some ha
      rw [List.mem_singleton.mp h]
      exact ⟨row, declaration, rfl, rfl, hd, rfl, rfl⟩
  | inline row after => exact (hblock rfl h).elim
  | block opener inner closer after => exact (hblock rfl h).elim
  | unclosed opener more => cases h

/-- An insertion on segments that follow each other documents one of their rows. -/
theorem documents_of_mem_editsFrom {segments : List (Segment Row)} {edit : Edit}
    (h : edit ∈ Patch.editsFrom n (patches settings first above n segments))
    (hinsert : edit.replacesUntil = none) :
    ∃ number row declaration, edit.position.line = n + number ∧
      (segments.flatMap lines)[number]? = some row ∧
      edit.Documents settings.template row declaration := by
  induction segments generalizing above n with
  | nil => cases h
  | cons segment rest ih =>
    rw [patches, Patch.editsFrom, rows_patch] at h
    rw [List.flatMap_cons]
    rcases List.mem_append.mp h with h | h
    · obtain ⟨row, declaration, rfl, hline, hdocuments⟩ := documents_of_mem_edits h hinsert
      exact ⟨0, row, declaration, hline, rfl, hdocuments⟩
    · obtain ⟨number, row, declaration, hline, hrow, hdocuments⟩ := ih h
      refine ⟨segment.lines.length + number, row, declaration, by omega, ?_, hdocuments⟩
      rw [List.getElem?_append_right (Nat.le_add_right _ _), Nat.add_sub_cancel_left]
      exact hrow

end Segment

/-- Every insertion of a scan documents the row it stands in front of. -/
theorem Scan.documents_of_mem_report {settings : Settings} {document : Document}
    {selected : Option LineRange} {found : Report}
    (h : report settings document.toSource selected = .ok found) {edit : Edit}
    (hedit : edit ∈ found.edits) (hinsert : edit.replacesUntil = none) :
    ∃ row declaration, document.rows[edit.position.line]? = some row ∧
      edit.Documents settings.template row declaration := by
  cases haccepts : settings.scan.accepts document.language with
  | false =>
    rw [report_of_not_accepts selected haccepts] at h
    cases h
  | true =>
    obtain ⟨events, hreport⟩ := report_toSource settings document selected haccepts
    rw [h] at hreport
    rw [Except.ok.inj hreport] at hedit
    cases ht : target? document selected with
    | none =>
      rw [ht] at hedit
      cases hedit
    | some lines =>
      rw [ht] at hedit
      have hmem : edit ∈ (Segment.reports Row.text settings lines.start (above document lines.start)
          lines.start (segmentsIn document lines)).edits := hedit
      rw [Segment.edits_reports] at hmem
      obtain ⟨number, row, declaration, hline, hrow, hdocuments⟩ :=
        Segment.documents_of_mem_editsFrom hmem hinsert
      refine ⟨row, declaration, ?_, hdocuments⟩
      rw [segmentsIn, Segment.lines_cut, List.getElem?_take] at hrow
      split at hrow
      · rw [hline, ← List.getElem?_drop]
        exact hrow
      · cases hrow

/-- With the default placeholders an inserted comment is complete exactly when
nothing that was captured from the line below it has a closer. -/
theorem inserted_isComplete_iff (settings : Settings) (language content : Text)
    (selected : Option LineRange) (ht : settings.template = {}) {found : Report}
    (h : Scan.report settings (Document.ofText language content).toSource selected = .ok found)
    {edit : Edit} (hedit : edit ∈ found.edits) (hinsert : edit.replacesUntil = none) :
    ∃ row declaration, (Document.ofText language content).rows[edit.position.line]? = some row ∧
      edit.Documents {} row declaration ∧
      (Comment.IsComplete edit.text ↔ declaration.IsCloserFree) := by
  obtain ⟨row, declaration, hrow, hdocuments⟩ :=
    Scan.documents_of_mem_report h hedit hinsert
  rw [ht] at hdocuments
  refine ⟨row, declaration, hrow, hdocuments, ?_⟩
  have hl : '\n' ∉ row.text :=
    Row.oneLine_of_canonical (Row.canonical_ofText content) row (List.mem_of_getElem? hrow)
  have hdefault : Template.OneLine {} := ⟨by decide, by decide, by decide⟩
  have htaken := Declaration.takenFrom_of_classify hdocuments.classify
  rw [hdocuments.text, ← Declaration.isCloserFree_iff htaken]
  exact Comment.isComplete_layout_iff hdefault htaken (fun hm => hl (mem_of_mem_trim hm))
    fun _ hm => isBlank_of_mem_indent hm

/-- The comment for a method with one parameter. -/
theorem inserted_isComplete_iff_function :
    ∃ found edit row declaration,
      Scan.report {} (Document.ofText "javascript".toList "f(a) \x7b\n".toList).toSource none =
        .ok found ∧
      edit ∈ found.edits ∧ edit.replacesUntil = none ∧ edit.Documents {} row declaration ∧
      (Comment.IsComplete edit.text ↔ declaration.IsCloserFree) := by
  have hedits : (Scan.report {} (Document.ofText "javascript".toList
      "f(a) \x7b\n".toList).toSource none).map Report.edits =
        .ok [.insert ⟨0, 0⟩ ("/**\n * Description\n *\n * @method f\n".toList ++
          " * @param \x7btype\x7d a - description\n */\n".toList)] := by decide +kernel
  cases hreport : Scan.report {} (Document.ofText "javascript".toList
      "f(a) \x7b\n".toList).toSource none with
  | error refusal => rw [hreport] at hedits; cases hedits
  | ok found =>
    rw [hreport] at hedits
    have hmem := List.mem_of_mem_head? (congrArg List.head? (Except.ok.inj hedits))
    obtain ⟨row, declaration, _, hdocuments, hiff⟩ :=
      inserted_isComplete_iff {} _ _ none rfl hreport hmem rfl
    exact ⟨found, _, row, declaration, rfl, hmem, rfl, hdocuments, hiff⟩

/-- A comment inside a parameter list ends the inserted comment early. -/
theorem exists_incomplete_insertion :
    ∃ comment,
      (Scan.report {} (Document.ofText "javascript".toList
        "foo(a /* x */) \x7b\n\x7d\n".toList).toSource none).map Report.edits =
          .ok [.insert ⟨0, 0⟩ comment] ∧
      ¬Comment.IsComplete comment := by
  have hcloser : Scan.closer <:+: "/**\n * Description\n *\n * @method foo\n".toList ++
      " * @param \x7btype\x7d a /* x */ - description\n ".toList := by decide +kernel
  refine ⟨"/**\n * Description\n *\n * @method foo\n".toList ++
    " * @param \x7btype\x7d a /* x */ - description\n ".toList ++ Scan.closer ++ ['\n'],
    by decide +kernel, ?_⟩
  exact fun hcomplete => (Comment.isComplete_iff _).mp hcomplete hcloser

end Docblock
