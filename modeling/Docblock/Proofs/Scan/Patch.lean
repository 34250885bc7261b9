import Docblock.Proofs.Comment.Layout
import Docblock.Proofs.Edit.Patch
import Docblock.Proofs.Scan.Segment
import Docblock.Scan.Document

/-!
# Patches of a scan

Each segment of a scan is one patch of the rows of the document: a comment goes
above a declaration, a laid out block takes the place of a closed one, and all
else stays. The edits a scan plans are those of its patches.
-/

namespace Docblock

open Text

namespace Scan

/-- The line feed at the end is dropped. -/
theorem dropFinalFeed_append (t : Text) : dropFinalFeed (t ++ ['\n']) = t := by
  induction t with
  | nil => rfl
  | cons c r ih =>
    rw [List.cons_append, dropFinalFeed, ih]
    intro _ h
    simp at h

/-- The text that takes the place of a block with the given trimmed lines. -/
def blockText (indent : Text) (trimmed : List Text) : Text :=
  dropFinalFeed (Comment.check indent trimmed).text

/-- The text in place of a block has one line for each line of the block. -/
theorem blockText_eq_joinWith (indent : Text) {ls : List Text} (hls : ∀ l ∈ ls, '\n' ∉ l)
    {l : Text} (hl : '\n' ∉ l) (hne : l ≠ []) :
    blockText indent (ls ++ [l]) = joinWith ['\n'] ((ls ++ [l]).map (Comment.laid indent)) := by
  have hlast : unlines [Comment.laid indent l] = Comment.laid indent l ++ ['\n'] := by simp
  rw [blockText, Comment.check, Comment.layout_eq_unlines, lines_joinWith hls hl hne,
    List.map_append, List.map_singleton, unlines_append, hlast, ← List.append_assoc,
    dropFinalFeed_append, joinWith_append_singleton]

/-- The comment that goes above a line outside any block, if one does. -/
def added? (settings : Settings) (first : Nat) (above : Bool) (line : Line) : Option Text :=
  if isCommentLine line.trimmed then none
  else
    match Declaration.classify line.trimmed with
    | none => none
    | some declaration =>
      if above && (line.number = first || settings.scan.skipDocumented) then none
      else some (Comment.layout line.indent (Comment.skeleton settings.template declaration))

/-- A comment that is added is the laid out skeleton of the declaration on the line. -/
theorem added?_eq_some {settings : Settings} {first : Nat} {above : Bool} {line : Line}
    {comment : Text} (h : added? settings first above line = some comment) :
    ∃ declaration, Declaration.classify line.trimmed = some declaration ∧
      comment = Comment.layout line.indent (Comment.skeleton settings.template declaration) := by
  rw [added?] at h
  split at h
  · cases h
  · cases hd : Declaration.classify line.trimmed with
    | none => rw [hd] at h; cases h
    | some declaration =>
      rw [hd] at h
      dsimp only at h
      split at h
      · cases h
      · exact ⟨declaration, rfl, (Option.some.inj h).symm⟩

/-- Outside any block the only edit is the comment that is added. -/
theorem edits_stepPlain (settings : Settings) (first : Nat) (above : Bool) (line : Line) :
    (stepPlain settings first above line).edits =
      (added? settings first above line).toList.map (Edit.insert line.start) := by
  rw [stepPlain, added?]
  split
  · rfl
  · cases Declaration.classify line.trimmed with
    | none => rfl
    | some declaration =>
      dsimp only
      rw [declare]
      split <;> rfl

/-- Closing a block replaces it, if the settings say so. -/
theorem edits_closeBlock (policy : ScanPolicy) (block : OpenBlock) (line : Line) :
    (closeBlock policy block line).edits =
      if policy.normalizeExisting then
        [.replace block.start line.finish (blockText block.indent block.lines)]
      else [] := by
  rw [closeBlock]
  split <;> rfl

end Scan

namespace Segment

/-- What happens to the rows of a block. -/
def blockChange (policy : ScanPolicy) (rows : List Row) (indent after : Text) : Change :=
  if after.isEmpty && policy.normalizeExisting then
    .instead (Scan.blockText indent (rows.map fun row => trim row.text))
  else .keep

/-- The patch of a segment that starts at line `n`. -/
def patch (settings : Settings) (first : Nat) (above : Bool) (n : Nat) : Segment Row → Patch
  | .single row =>
    ⟨row, [], match Scan.added? settings first above ⟨n, row.text⟩ with
      | none => .keep
      | some text => .above text⟩
  | .inline row after => ⟨row, [], blockChange settings.scan [row] (indent row.text) after⟩
  | .block opener inner closer after =>
    ⟨opener, inner ++ [closer],
      blockChange settings.scan (opener :: inner ++ [closer]) (indent opener.text) after⟩
  | .unclosed opener more => ⟨opener, more, .keep⟩

/-- The patches of segments that follow each other from line `n` on. -/
def patches (settings : Settings) (first : Nat) : (above : Bool) → (n : Nat) →
    List (Segment Row) → List Patch
  | _, _, [] => []
  | above, n, segment :: rest =>
    segment.patch settings first above n ::
    patches settings first (segment.closes Row.text) (n + segment.lines.length) rest

/-- The patch for a segment has its rows. -/
@[simp] theorem rows_patch (settings : Settings) (first : Nat) (above : Bool) (n : Nat)
    (segment : Segment Row) : (segment.patch settings first above n).rows = segment.lines := by
  cases segment <;> rfl

/-- The patches of segments have the lines of the segments. -/
theorem rows_patches (settings : Settings) (first : Nat) (above : Bool) (n : Nat)
    (segments : List (Segment Row)) :
    (patches settings first above n segments).flatMap Patch.rows = segments.flatMap lines := by
  induction segments generalizing above n with
  | nil => rfl
  | cons segment rest ih => rw [patches, List.flatMap_cons, List.flatMap_cons, rows_patch, ih]

/-- A block is replaced if nothing follows its closer and the settings say so. -/
theorem edits_closed (policy : ScanPolicy) (block : Scan.OpenBlock) (last : Line) (after : Text)
    (left : Event) :
    (closed policy block last after left).edits =
      if after.isEmpty && policy.normalizeExisting then
        [.replace block.start last.finish (Scan.blockText block.indent block.lines)]
      else [] := by
  rw [closed]
  cases after.isEmpty with
  | false => rfl
  | true =>
    rw [if_pos rfl, Scan.edits_closeBlock]
    rfl

/-- The report on a segment plans the edits of its patch. -/
theorem edits_report (settings : Settings) (first : Nat) (above : Bool) (n : Nat)
    (segment : Segment Row) :
    (segment.report Row.text settings first above n).edits =
      (segment.patch settings first above n).edits n := by
  cases segment with
  | single row =>
    rw [report, Scan.edits_stepPlain, patch, Patch.edits]
    cases Scan.added? settings first above ⟨n, row.text⟩ with
    | none => rfl
    | some text => rfl
  | inline row after =>
    rw [report, edits_closed, patch, Patch.edits, blockChange]
    cases after.isEmpty && settings.scan.normalizeExisting with
    | false => rfl
    | true => rfl
  | block opener inner closer after =>
    have hlast : (inner ++ [closer]).getLastD opener = closer := by
      rw [List.getLastD_concat]
    rw [report, edits_closed, patch, Patch.edits, blockChange]
    cases after.isEmpty && settings.scan.normalizeExisting with
    | false => rfl
    | true =>
      dsimp only [Patch.last]
      rw [hlast, List.length_append, if_pos rfl, if_pos rfl]
      rfl
  | unclosed opener more => rfl

/-- The reports on segments plan the edits of their patches. -/
theorem edits_reports (settings : Settings) (first : Nat) (above : Bool) (n : Nat)
    (segments : List (Segment Row)) :
    (reports Row.text settings first above n segments).edits =
      Patch.editsFrom n (patches settings first above n segments) := by
  induction segments generalizing above n with
  | nil => rfl
  | cons segment rest ih =>
    rw [reports, patches, Patch.editsFrom, rows_patch, ← edits_report, ← ih]
    rfl

end Segment

end Docblock
