import Docblock.Proofs.Comment.Skeleton
import Docblock.Proofs.Scan.Relaid

/-!
# Segments that no scan changes

A new comment is cut into segments that are laid out already and declare
nothing, whatever its placeholders and the declaration put into it. A line
right below it stands below a comment.
-/

namespace Docblock

open Text

namespace Segment

/-- Whether a comment stands right behind some segments. -/
def closesAfter {α : Type} (text : α → Text) (above : Bool) (segments : List (Segment α)) : Bool :=
  segments.foldl (fun _ segment => segment.closes text) above

/-- Whether a comment ends behind segments is handed on from part to part. -/
theorem closesAfter_append {α : Type} (text : α → Text) (above : Bool)
    (a b : List (Segment α)) :
    closesAfter text above (a ++ b) = closesAfter text (closesAfter text above a) b :=
  List.foldl_append

/-- A segment that no scan changes or counts. -/
structure Inert (ending : Break) (segment : Segment Row) : Prop where
  /-- It is cut off as it is. -/
  valid : segment.Valid Row.text
  /-- It ends by itself. -/
  ended : segment.isUnclosed = false
  /-- It is laid out already. -/
  relaid : segment.relaid ending = segment
  /-- It declares nothing. -/
  silent : segment.declares = false

/-- The rows of a comment with the given lines. -/
def laidRows (indent : Text) (ending : Break) (ls : List Text) : List Row :=
  ls.map fun l => ⟨Comment.laid indent l, ending⟩

/-- The rows of a new comment are those of the lines of its skeleton. -/
theorem commentRows_layout {template : Template} {declaration : Declaration} {line : Text}
    (ht : template.OneLine) (hd : declaration.TakenFrom line) (hl : '\n' ∉ line) {indent : Text}
    (hi : '\n' ∉ indent) (ending : Break) :
    commentRows ending (some (Comment.layout indent (Comment.skeleton template declaration))) =
      laidRows indent ending (Comment.skeletonLines template declaration) := by
  have hlines := Comment.lines_skeleton ht hd hl
  have hlaid : ∀ l ∈ (Comment.skeletonLines template declaration).map (Comment.laid indent),
      '\n' ∉ l := by
    intro l hm
    obtain ⟨k, hk, rfl⟩ := List.mem_map.mp hm
    rw [← hlines] at hk
    exact (Comment.breakable_laid hi (not_mem_of_mem_lines _ k hk)).oneLine
  rw [commentRows, Comment.layout_eq_unlines, hlines, lines_unlines hlaid, List.map_map, laidRows]
  rfl

section Comment

variable {indent : Text} {ending : Break} {inner : List Text}

/-- A row of a comment behind its opener. -/
structure StarRow (indent : Text) (ending : Break) (row : Row) : Prop where
  /-- Its trimmed text starts with a star. -/
  star : ∃ r, trim row.text = '*' :: r
  /-- It has the break for new text. -/
  broken : row.ending = ending
  /-- It is laid out behind the indent. -/
  laid : row.relaid indent ending = row

/-- A row that starts with a star opens no block. -/
theorem StarRow.opensBlock {row : Row} (h : StarRow indent ending row) :
    Scan.opensBlock (trim row.text) = false := by
  obtain ⟨r, hr⟩ := h.star
  rw [hr]
  rfl

/-- A row that starts with a star is comment text. -/
theorem StarRow.isCommentLine {row : Row} (h : StarRow indent ending row) :
    Scan.isCommentLine (trim row.text) = true := by
  obtain ⟨r, hr⟩ := h.star
  rw [hr]
  simp [Scan.isCommentLine, startsWith, stripStart?]

/-- A row that starts with a star changes nothing by itself. -/
theorem StarRow.inert_single {row : Row} (h : StarRow indent ending row) :
    Inert ending (.single row) where
  valid := h.opensBlock
  ended := rfl
  relaid := rfl
  silent := by rw [declares, h.isCommentLine]; rfl

/-- Rows that start with stars are single lines. -/
theorem cut_of_forall_starRow {rows : List Row} (h : ∀ row ∈ rows, StarRow indent ending row) :
    cut Row.text rows = rows.map .single := by
  induction rows with
  | nil => rw [cut]; rfl
  | cons row rest ih =>
    rw [List.forall_mem_cons] at h
    have hopen : ¬Scan.opensBlock (trim row.text) = true := by simp [h.1.opensBlock]
    rw [cut, if_neg hopen, ih h.2, List.map_cons]

/-- Lines with stars are laid out as rows with stars. -/
theorem starRow_of_mem_laidRows (ending : Break) (hi : ∀ c ∈ indent, isBlank c = true)
    {ls : List Text} (hls : ∀ l ∈ ls, ∃ r, l = '*' :: r) :
    ∀ row ∈ laidRows indent ending ls, StarRow indent ending row := by
  intro row hm
  obtain ⟨l, hl, rfl⟩ := List.mem_map.mp hm
  obtain ⟨r, rfl⟩ := hls l hl
  refine ⟨⟨trimEnd r, ?_⟩, rfl, ?_⟩
  · rw [Comment.trim_laid hi, trim, trimStart_eq_self_of_head (by decide),
      trimEnd_cons_of_not_blank (by decide)]
  · rw [Row.relaid, Comment.laid_laid hi]

/-- The block that a comment opens, up to its first closer. -/
def commentBlock (indent : Text) (ending : Break) (found : BlockEnd Row) : Segment Row :=
  .block ⟨Comment.laid indent Comment.opener, ending⟩ found.inner found.closer found.after

/-- The rows of a comment are cut into its block and, when a placeholder closes
it early, the rows behind the block. -/
theorem exists_cut_comment (ending : Break) (hi : ∀ c ∈ indent, isBlank c = true)
    (hinner : ∀ l ∈ inner, ∃ r, l = '*' :: r) :
    ∃ found : BlockEnd Row,
      laidRows indent ending (inner ++ [Scan.closer]) =
        found.inner ++ found.closer :: found.rest ∧
      (∀ row ∈ found.inner ++ found.closer :: found.rest, StarRow indent ending row) ∧
      (commentBlock indent ending found).Valid Row.text ∧
      cut Row.text (laidRows indent ending (Comment.opener :: (inner ++ [Scan.closer]))) =
        commentBlock indent ending found :: found.rest.map .single := by
  have hstars : ∀ l ∈ inner ++ [Scan.closer], ∃ r, l = '*' :: r := by
    rw [List.forall_mem_append, List.forall_mem_singleton]
    exact ⟨hinner, _, rfl⟩
  have hrows := starRow_of_mem_laidRows ending hi hstars
  have hopener : trim (Comment.laid indent Comment.opener) = Comment.opener :=
    Comment.trim_laid hi Comment.opener
  have hcloser : trim (Comment.laid indent Scan.closer) = Scan.closer :=
    Comment.trim_laid hi Scan.closer
  -- The last row closes the comment at the latest.
  cases hend : blockEnd? Row.text (laidRows indent ending (inner ++ [Scan.closer])) with
  | none =>
    have hmem : (⟨Comment.laid indent Scan.closer, ending⟩ : Row) ∈
        laidRows indent ending (inner ++ [Scan.closer]) :=
      List.mem_map_of_mem (List.mem_append_right _ List.mem_cons_self)
    have hnone := forall_of_blockEnd?_eq_none hend _ hmem
    rw [hcloser] at hnone
    cases hnone
  | some found =>
    obtain ⟨heq, hopen, hclose⟩ := eq_of_blockEnd?_eq_some hend
    have hvalid : (commentBlock indent ending found).Valid Row.text := by
      rw [commentBlock, Valid, hopener]
      exact ⟨rfl, rfl, hopen, hclose⟩
    rw [heq] at hrows
    refine ⟨found, heq, hrows, hvalid, ?_⟩
    have hcut := cut_lines_append hvalid rfl found.rest
    rw [List.forall_mem_append, List.forall_mem_cons] at hrows
    rw [cut_of_forall_starRow hrows.2.2] at hcut
    rw [← hcut, laidRows, List.map_cons, ← laidRows, heq]
    simp [commentBlock, lines]

/-- No scan finds anything to do in a comment that is laid out. -/
theorem inert_of_mem_cut_comment (hi : ∀ c ∈ indent, isBlank c = true)
    (hinner : ∀ l ∈ inner, ∃ r, l = '*' :: r) :
    ∀ segment ∈ cut Row.text (laidRows indent ending (Comment.opener :: (inner ++ [Scan.closer]))),
      Inert ending segment := by
  obtain ⟨found, _, hrows, hvalid, hcut⟩ := exists_cut_comment ending hi hinner
  rw [List.forall_mem_append, List.forall_mem_cons] at hrows
  obtain ⟨hfound, hcloser, hrest⟩ := hrows
  rw [hcut, List.forall_mem_cons]
  constructor
  · refine ⟨hvalid, rfl, ?_, rfl⟩
    have hindent : Text.indent (Comment.laid indent Comment.opener) = indent :=
      Comment.indent_laid hi rfl (by decide)
    have hmap : found.inner.map (Row.relaid indent ending) = found.inner :=
      (List.map_congr_left fun row hm => (hfound row hm).laid).trans (List.map_id' _)
    rw [commentBlock, relaid, hindent, hmap, hcloser.broken, hcloser.laid, Row.relaid,
      Comment.laid_laid hi]
  · intro segment hm
    obtain ⟨row, hrow, rfl⟩ := List.mem_map.mp hm
    exact (hrest row hrow).inert_single

/-- What follows a comment that is laid out stands below a comment. -/
theorem closesAfter_cut_comment (hi : ∀ c ∈ indent, isBlank c = true)
    (hinner : ∀ l ∈ inner, ∃ r, l = '*' :: r) (above : Bool) :
    closesAfter Row.text above
      (cut Row.text (laidRows indent ending (Comment.opener :: (inner ++ [Scan.closer])))) =
      true := by
  obtain ⟨found, heq, _, hvalid, hcut⟩ := exists_cut_comment ending hi hinner
  have hlast : laidRows indent ending (inner ++ [Scan.closer]) =
      laidRows indent ending inner ++ [⟨Comment.laid indent Scan.closer, ending⟩] :=
    List.map_append
  have hcloser : trim (Comment.laid indent Scan.closer) = Scan.closer :=
    Comment.trim_laid hi Scan.closer
  rw [hlast] at heq
  rw [hcut]
  rcases List.eq_nil_or_concat' found.rest with hnil | ⟨init, last, hinit⟩
  · rw [hnil] at heq
    have hsame := List.singleton_inj.mp (List.append_inj' heq rfl).2
    have hclose := hvalid.2.2.2
    rw [← hsame, hcloser] at hclose
    have hafter : found.after = [] := (Option.some.inj hclose).symm
    rw [hnil]
    show found.after.isEmpty = true
    rw [hafter]
    rfl
  · rw [hinit, ← List.cons_append, ← List.append_assoc] at heq
    have hsame := List.singleton_inj.mp (List.append_inj' heq rfl).2
    rw [hinit, List.map_append, ← List.cons_append, closesAfter_append, ← hsame]
    show Scan.closesComment (trim (Comment.laid indent Scan.closer)) = true
    rw [hcloser]
    rfl

end Comment

end Segment

end Docblock
