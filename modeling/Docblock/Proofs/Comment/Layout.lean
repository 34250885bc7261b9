import Docblock.Comment.Layout
import Docblock.Proofs.Text.Lines
import Docblock.Proofs.Text.Trim

/-!
# Lines of laid out comments

Laying out works on one line after the other and looks only at what is left of
a line when it is trimmed. So it keeps the trimmed text of every line, and a
second layout undoes the first.
-/

namespace Docblock.Comment

open Text

/-- One line of a comment behind its indent. -/
def laid (indent line : Text) : Text :=
  match trim line with
  | [] => []
  | c :: r => indent ++ starSpacer (c :: r) ++ c :: r

/-- A blank line is laid out as an empty one, without the indent. -/
theorem laid_of_trim_eq_nil {line : Text} (h : trim line = []) (indent : Text) :
    laid indent line = [] := by
  rw [laid, h]

/-- Any other line is laid out behind the indent, and a blank more if it starts
with a star. -/
theorem laid_of_trim_eq_cons {line r : Text} {c : Char} (h : trim line = c :: r) (indent : Text) :
    laid indent line = indent ++ starSpacer (c :: r) ++ c :: r := by
  rw [laid, h]

/-- A line is laid out with a line feed behind it. -/
theorem layoutLine_eq (indent line : Text) :
    layoutLine indent line = laid indent line ++ ['\n'] := by
  rw [layoutLine, laid]
  cases trim line with
  | nil => rfl
  | cons c r => rfl

/-- A layout has the laid out lines of the comment, each with a line feed. -/
theorem layout_eq_unlines (indent comment : Text) :
    layout indent comment = unlines ((lines comment).map (laid indent)) := by
  rw [layout, unlines, List.flatMap_map]
  exact congrArg (fun f => (lines comment).flatMap f) (funext (layoutLine_eq indent))

/-- What goes in front of a star is blank. -/
theorem isBlank_of_mem_starSpacer {t : Text} {c : Char} (h : c ∈ starSpacer t) :
    isBlank c = true := by
  rw [starSpacer.eq_def] at h
  split at h
  · rw [List.mem_singleton.mp h]
    decide
  · cases h

/-- Laying out a line keeps its trimmed text. -/
theorem trim_laid {indent : Text} (hi : ∀ c ∈ indent, isBlank c = true) (line : Text) :
    trim (laid indent line) = trim line := by
  cases h : trim line with
  | nil => rw [laid_of_trim_eq_nil h, trim_nil]
  | cons c r =>
    have hblank : ∀ d ∈ indent ++ starSpacer (c :: r), isBlank d = true := by
      intro d hd
      rcases List.mem_append.mp hd with hd | hd
      · exact hi d hd
      · exact isBlank_of_mem_starSpacer hd
    rw [laid_of_trim_eq_cons h, trim_append_of_blank hblank, ← h, trim_trim]

/-- Only the trimmed text of a line matters to its layout. -/
theorem laid_congr {a b : Text} (h : trim a = trim b) (indent : Text) :
    laid indent a = laid indent b := by
  rw [laid, laid, h]

/-- The blanks around a line do not matter to its layout. -/
theorem laid_trim (indent line : Text) : laid indent (trim line) = laid indent line :=
  laid_congr (trim_trim line) indent

/-- A second layout undoes the first. -/
theorem laid_laid {inner : Text} (hi : ∀ c ∈ inner, isBlank c = true) (indent line : Text) :
    laid indent (laid inner line) = laid indent line :=
  laid_congr (trim_laid hi line) indent

/-- A laid out line can be ended by any break. -/
theorem breakable_laid {indent line : Text} (hi : '\n' ∉ indent) (hl : '\n' ∉ line) :
    Breakable (laid indent line) := by
  cases h : trim line with
  | nil =>
    rw [laid_of_trim_eq_nil h]
    exact ⟨List.not_mem_nil, by simp⟩
  | cons c r =>
    have hr : '\n' ∉ c :: r := fun hm => hl (mem_of_mem_trim (h ▸ hm))
    have hs : '\n' ∉ starSpacer (c :: r) := by
      rw [starSpacer.eq_def]
      split <;> decide
    rw [laid_of_trim_eq_cons h]
    refine ⟨by simp only [List.mem_append, not_or]; exact ⟨⟨hi, hs⟩, hr⟩, ?_⟩
    rw [List.getLast?_append_of_ne_nil _ (List.cons_ne_nil c r)]
    intro hlast
    rw [← h] at hlast
    exact absurd (isBlank_last_trim hlast) (by decide)

/-- The lines of a layout are the laid out lines of the comment. -/
theorem lines_layout {indent : Text} (hi : '\n' ∉ indent) (comment : Text) :
    lines (layout indent comment) = (lines comment).map (laid indent) := by
  have hlaid : ∀ l ∈ (lines comment).map (laid indent), '\n' ∉ l := by
    rw [List.forall_mem_map]
    exact fun l hm => (breakable_laid hi (not_mem_of_mem_lines comment l hm)).oneLine
  rw [layout_eq_unlines, lines_unlines hlaid]

/-- A layout behind blanks does not show in the next layout. -/
theorem layout_layout {inner : Text} (hi : ∀ c ∈ inner, isBlank c = true) (hone : '\n' ∉ inner)
    (outer comment : Text) : layout outer (layout inner comment) = layout outer comment := by
  rw [layout_eq_unlines, lines_layout hone, List.map_map, layout_eq_unlines]
  exact congrArg unlines (List.map_congr_left fun l _ => laid_laid hi outer l)

/-- A line that starts with neither a blank nor a star stands right behind its
indent. -/
theorem indent_laid {indent line r : Text} {c : Char} (hi : ∀ d ∈ indent, isBlank d = true)
    (h : trim line = c :: r) (hc : c ≠ '*') : Text.indent (laid indent line) = indent := by
  have hs : starSpacer (c :: r) = [] := by
    rw [starSpacer.eq_def]
    split
    · rename_i he
      cases he
      exact absurd rfl hc
    · rfl
  rw [laid_of_trim_eq_cons h, hs, List.append_nil, indent_append_of_blank hi (isBlank_head_trim h)]

end Docblock.Comment
