import Docblock.Proofs.Scan.Cover
import Docblock.Proofs.Text.Pieces

/-!
# Segments that are laid out again

A scan lays out closed blocks again, and puts comments above declarations. What
it leaves of a segment is the comment, if there is one, and the segment, laid
out again if it is a closed block and the settings say so. When every
declaration below a comment counts as documented, neither this nor the counts
depend on where the segment stands.
-/

namespace Docblock

open Text

/-- A row laid out again behind an indent, with the given break. -/
def Row.relaid (indent : Text) (ending : Break) (row : Row) : Row :=
  ⟨Comment.laid indent row.text, ending⟩

/-- Laying out keeps the trimmed text of a row. -/
theorem Row.trim_relaid {indent : Text} (hi : ∀ c ∈ indent, isBlank c = true) (ending : Break)
    (row : Row) : trim (row.relaid indent ending).text = trim row.text :=
  Comment.trim_laid hi row.text

/-- Laying out again undoes what was laid out before. -/
theorem Row.relaid_relaid {indent : Text} (hi : ∀ c ∈ indent, isBlank c = true)
    (ending other : Break) (row : Row) :
    (row.relaid indent other).relaid indent ending = row.relaid indent ending := by
  rw [relaid, relaid, relaid, Comment.laid_laid hi]

/-- A line that opens a block does not start with a star. -/
theorem Scan.eq_cons_of_opensBlock {trimmed : Text} (h : Scan.opensBlock trimmed = true) :
    ∃ r, trimmed = '/' :: r := by
  obtain ⟨rest, hrest⟩ := Option.isSome_iff_exists.mp h
  exact ⟨_, eq_append_of_stripStart?_eq_some hrest⟩

/-- An opener keeps its indent when it is laid out behind it. -/
theorem Row.indent_relaid {row : Row} (h : Scan.opensBlock (trim row.text) = true)
    (ending : Break) : indent (row.relaid (indent row.text) ending).text = indent row.text := by
  obtain ⟨r, hr⟩ := Scan.eq_cons_of_opensBlock h
  exact Comment.indent_laid (fun _ hm => isBlank_of_mem_indent hm) hr (by decide)

namespace Segment

/-- Whether a segment is a block with nothing behind its closer. -/
def isBlock {α : Type} : Segment α → Bool
  | .inline _ after => after.isEmpty
  | .block _ _ _ after => after.isEmpty
  | _ => false

/-- A block laid out again behind the indent of its opener: the break of its
last row stays, and the others become the break for new text. -/
def relaid (ending : Break) : Segment Row → Segment Row
  | .single row => .single row
  | .inline row after => .inline (row.relaid (indent row.text) row.ending) after
  | .block opener inner closer after =>
    .block (opener.relaid (indent opener.text) ending)
      (inner.map (Row.relaid (indent opener.text) ending))
      (closer.relaid (indent opener.text) closer.ending) after
  | .unclosed opener more => .unclosed opener more

variable {segment : Segment Row}

/-- A segment is a block whether it is laid out again or not. -/
@[simp] theorem isBlock_relaid (ending : Break) (segment : Segment Row) :
    (segment.relaid ending).isBlock = segment.isBlock := by
  cases segment <;> rfl

@[simp] theorem isUnclosed_relaid (ending : Break) (segment : Segment Row) :
    (segment.relaid ending).isUnclosed = segment.isUnclosed := by
  cases segment <;> rfl

/-- Laying out does not change whether a segment closes a comment. -/
@[simp] theorem closes_relaid (ending : Break) (segment : Segment Row) :
    (segment.relaid ending).closes Row.text = segment.closes Row.text := by
  cases segment <;> rfl

/-- A block that is laid out again is cut in the same way. -/
theorem valid_relaid (ending : Break) (h : segment.Valid Row.text) :
    (segment.relaid ending).Valid Row.text := by
  have hindent (t : Text) : ∀ c ∈ indent t, isBlank c = true := fun _ hm => isBlank_of_mem_indent hm
  cases segment with
  | single row => exact h
  | inline row after =>
    rw [relaid, Valid, Row.trim_relaid (hindent _)]
    exact h
  | block opener inner closer after =>
    obtain ⟨hopen, hstart, hinner, hcloser⟩ := h
    rw [relaid, Valid, Row.trim_relaid (hindent _), Row.trim_relaid (hindent _)]
    refine ⟨hopen, hstart, ?_, hcloser⟩
    intro line hm
    obtain ⟨row, hrow, rfl⟩ := List.mem_map.mp hm
    rw [Row.trim_relaid (hindent _)]
    exact hinner row hrow
  | unclosed opener more => exact h

/-- A second layout finds nothing to do. -/
theorem relaid_relaid (ending : Break) (h : segment.Valid Row.text) :
    (segment.relaid ending).relaid ending = segment.relaid ending := by
  have hindent (t : Text) : ∀ c ∈ indent t, isBlank c = true := fun _ hm => isBlank_of_mem_indent hm
  cases segment with
  | single row => rfl
  | inline row after =>
    rw [relaid, relaid, Row.indent_relaid h.1, Row.relaid_relaid (hindent _)]
    rfl
  | block opener inner closer after =>
    rw [relaid, relaid, Row.indent_relaid h.1, Row.relaid_relaid (hindent _),
      Row.relaid_relaid (hindent _), List.map_map]
    congr 1
    exact List.map_congr_left fun row _ => Row.relaid_relaid (hindent _) ending ending row
  | unclosed opener more => rfl

end Segment

namespace Patch

/-- The rows that the patch of a block leaves. -/
theorem renewed_of_blockChange (ending : Break) (policy : ScanPolicy) {patch : Patch}
    {owner after : Text} (ho : '\n' ∉ owner) (hl : ∀ row ∈ patch.rows, '\n' ∉ row.text)
    (hlast : trim patch.last.text ≠ [])
    (hc : patch.change = Segment.blockChange policy patch.rows (indent owner) after) :
    patch.renewed ending =
      if after.isEmpty && policy.normalizeExisting then
        patch.init.map (Row.relaid (indent owner) ending) ++
          [patch.last.relaid (indent owner) patch.last.ending]
      else patch.rows := by
  rw [renewed, hc, Segment.blockChange]
  cases after.isEmpty && policy.normalizeExisting with
  | false => rfl
  | true =>
    have hlaid : ∀ row ∈ patch.init ++ [patch.last],
        '\n' ∉ Comment.laid (indent owner) row.text := by
      rw [← rows_eq_init_append_last]
      intro row hm
      exact (Comment.breakable_laid (fun hi => ho (mem_of_mem_indent hi)) (hl row hm)).oneLine
    rw [List.forall_mem_append, List.forall_mem_singleton] at hlaid
    have hinit : ∀ l ∈ patch.init.map fun row => Comment.laid (indent owner) row.text,
        '\n' ∉ l := by
      intro l hm
      obtain ⟨row, hrow, rfl⟩ := List.mem_map.mp hm
      exact hlaid.1 row hrow
    rw [if_pos rfl, if_pos rfl]
    dsimp only
    rw [Segment.blockText_rows (indent owner) hl hlast, rows_eq_init_append_last, List.map_append,
      List.map_singleton, Row.behind_joinWith ending hinit hlaid.2, List.map_map]
    rfl

end Patch

namespace Segment

/-- The comment that goes above a segment when every declaration below a comment
counts as documented. -/
def comment? (template : Template) (above : Bool) : Segment Row → Option Text
  | .single row =>
    if Scan.isCommentLine (trim row.text) then none
    else
      match Declaration.classify (trim row.text) with
      | none => none
      | some declaration =>
        if above then none
        else some (Comment.layout (indent row.text) (Comment.skeleton template declaration))
  | _ => none

/-- The rows of a comment, with the break for new text. -/
def commentRows (ending : Break) : Option Text → List Row
  | none => []
  | some comment => (Text.lines comment).map (⟨·, ending⟩)

/-- What is left of a segment itself when blocks are laid out again or not. -/
def settled (normalize : Bool) (ending : Break) (segment : Segment Row) : Segment Row :=
  if segment.isBlock && normalize then segment.relaid ending else segment

variable {settings : Settings} {first : Nat} {above : Bool} {n : Nat} {segment : Segment Row}

/-- When all documented declarations are skipped, only the segment in front decides whether
a comment is added. -/
theorem added?_of_skipDocumented (settings : Settings)
    (h : settings.scan.skipDocumented = true) (first : Nat) (above : Bool) (n : Nat) (row : Row) :
    Scan.added? settings first above ⟨n, row.text⟩ =
      comment? settings.template above (.single row) := by
  rw [Scan.added?, comment?, h, Bool.or_true, Bool.and_true]
  rfl

/-- The rows that the patch of a segment leaves. -/
theorem renewed_patch (h : settings.scan.skipDocumented = true) (ending : Break)
    (hv : segment.Valid Row.text) (hl : ∀ row ∈ segment.lines, '\n' ∉ row.text) :
    (segment.patch settings first above n).renewed ending =
      commentRows ending (segment.comment? settings.template above) ++
        (segment.settled settings.scan.normalizeExisting ending).lines := by
  have hrows : ∀ row ∈ (segment.patch settings first above n).rows, '\n' ∉ row.text := by
    rwa [rows_patch]
  cases segment with
  | single row =>
    rw [patch, ← added?_of_skipDocumented settings h first above n row, Patch.renewed]
    cases ha : Scan.added? settings first above ⟨n, row.text⟩ with
    | none => rfl
    | some comment =>
      obtain ⟨ls, hls, rfl⟩ := exists_unlines_of_added? (hl row List.mem_cons_self) ha
      have hmem : ∀ l ∈ ls, '\n' ∉ l := fun l hm => (hls l hm).oneLine
      dsimp only
      rw [Row.behind_unlines ending hmem, commentRows, lines_unlines hmem, List.append_nil]
      rfl
  | inline row after =>
    have hlast : trim row.text ≠ [] := by
      intro he
      have hafter := hv.2
      rw [he] at hafter
      cases hafter
    rw [Patch.renewed_of_blockChange ending settings.scan (hl row List.mem_cons_self) hrows hlast
      rfl, settled, isBlock]
    split
    · rfl
    · rfl
  | block opener inner closer after =>
    have hlast : (patch settings first above n (.block opener inner closer after)).last = closer :=
      List.getLastD_concat
    have hinit : (patch settings first above n (.block opener inner closer after)).init =
        opener :: inner := by
      have hrows : (patch settings first above n (.block opener inner closer after)).rows =
        (opener :: inner) ++ [closer] := rfl
      rw [Patch.init, hrows, List.dropLast_concat]
    have hne := trim_ne_nil_of_afterCloser? hv.2.2.2
    rw [← hlast] at hne
    rw [Patch.renewed_of_blockChange ending settings.scan (hl opener List.mem_cons_self) hrows hne
      rfl, hinit, hlast, settled, isBlock]
    split
    · rfl
    · rfl
  | unclosed opener more => rfl

/-- Whether a segment is a line that declares something. -/
def declares : Segment Row → Bool
  | .single row =>
    !Scan.isCommentLine (trim row.text) && (Declaration.classify (trim row.text)).isSome
  | _ => false

/-- What a segment counts for, given whether a comment stands above it. -/
def tally (normalize above : Bool) (segment : Segment Row) : Tally :=
  ⟨(segment.declares && !above).toNat, (segment.isBlock && normalize).toNat,
    segment.isUnclosed.toNat, (segment.declares && above).toNat⟩

/-- A closed block counts once if it is laid out again. -/
theorem tally_closed (policy : ScanPolicy) (block : Scan.OpenBlock) (last : Line) (after : Text)
    (left : Event) :
    (closed policy block last after left).tally =
      ⟨0, (after.isEmpty && policy.normalizeExisting).toNat, 0, 0⟩ := by
  rw [closed]
  cases after.isEmpty with
  | false => rfl
  | true =>
    rw [if_pos rfl, Scan.closeBlock]
    split <;> simp_all

/-- The counts of the report on a segment. -/
theorem tally_report (h : settings.scan.skipDocumented = true) (first : Nat) (above : Bool)
    (n : Nat) (segment : Segment Row) :
    (segment.report Row.text settings first above n).tally =
      segment.tally settings.scan.normalizeExisting above := by
  cases segment with
  | single row =>
    rw [report, Scan.stepPlain, tally, declares, Line.trimmed]
    dsimp only
    cases Scan.isCommentLine (trim row.text) with
    | true => rfl
    | false =>
      cases Declaration.classify (trim row.text) with
      | none => rfl
      | some declaration =>
        rw [h, Bool.or_true, Bool.and_true]
        cases above <;> rfl
  | inline row after => exact tally_closed _ _ _ _ _
  | block opener inner closer after => exact tally_closed _ _ _ _ _
  | unclosed opener more => rfl

/-- A declaration gets a comment exactly when it counts as a new one. -/
theorem isSome_comment? (template : Template) (above : Bool) (segment : Segment Row) :
    (segment.comment? template above).isSome = (segment.declares && !above) := by
  cases segment with
  | single row =>
    rw [comment?, declares]
    cases Scan.isCommentLine (trim row.text) with
    | true => rfl
    | false =>
      cases Declaration.classify (trim row.text) with
      | none => rfl
      | some declaration => cases above <;> rfl
  | _ => rfl

end Segment

end Docblock
