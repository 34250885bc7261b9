import Docblock.Proofs.Comment.Layout

/-!
# Laying out again

A comment that is laid out behind blanks can be laid out again as if it had not
been: the second layout finds the lines of the first one, each with the trimmed
text it had before. Nothing but blanks without a line feed can be put in front of
the lines in this way.
-/

namespace Docblock

open Text

namespace Comment

/-- One line is laid out as one line. -/
theorem layout_line {l : Text} (hl : '\n' ∉ l) (indent : Text) :
    layout indent (l ++ ['\n']) = laid indent l ++ ['\n'] := by
  rw [layout, lines_line hl, lines, List.flatMap_singleton, layoutLine_eq]

/-- A comment is laid out line by line. -/
theorem layout_append_cons_lineFeed (indent a b : Text) :
    layout indent (a ++ '\n' :: b) = layout indent (a ++ ['\n']) ++ layout indent b := by
  rw [layout, lines_append_cons_lineFeed, List.flatMap_append]
  rfl

/-- Only the empty comment is laid out as nothing. -/
theorem layout_ne_nil (indent : Text) {comment : Text} (h : comment ≠ []) :
    layout indent comment ≠ [] := by
  obtain ⟨l, ls, hlines⟩ := List.exists_cons_of_ne_nil (lines_ne_nil h)
  rw [layout_eq_unlines, hlines, List.map_cons, unlines_cons]
  simp

section Solid

variable {c : Char} (hc : isBlank c = false)

include hc

/-- A text that does not end in a blank is laid out behind its whole indent. -/
theorem exists_laid_append_singleton (indent t : Text) :
    ∃ front, laid indent (t ++ [c]) = indent ++ (front ++ [c]) ∧
      (front = [] → ∀ d ∈ t, isBlank d = true) := by
  obtain ⟨d, r, hcons⟩ := List.exists_cons_of_ne_nil
    (List.append_ne_nil_of_right_ne_nil (trimStart t) (List.cons_ne_nil c []))
  refine ⟨starSpacer (d :: r) ++ trimStart t, ?_, fun hnil => ?_⟩
  · rw [laid_of_trim_eq_cons ((trim_append_singleton hc t).trans hcons), ← hcons]
    simp
  · exact List.dropWhile_eq_nil_iff.mp (List.append_eq_nil_iff.mp hnil).2

end Solid

theorem layout_letter (indent : Text) : layout indent ['a'] = indent ++ ['a'] ++ ['\n'] := by
  have htrim : trim ['a'] = ['a'] := by decide
  rw [layout, lines_of_not_mem (by decide) (List.cons_ne_nil _ _), List.flatMap_singleton,
    layoutLine_eq, laid_of_trim_eq_cons htrim]
  simp [starSpacer]

/-- One letter shows whether a layout absorbs the one before it: an indent with
more than blanks would stay on its line, and one with a line feed would leave
another line above it. -/
theorem blank_of_layout_letter {outer inner : Text}
    (h : layout outer (layout inner ['a']) = layout outer ['a']) :
    (∀ c ∈ inner, isBlank c = true) ∧ '\n' ∉ inner := by
  have hletter : isBlank 'a' = false := by decide
  rw [layout_letter, layout_letter] at h
  have hone : '\n' ∉ inner := by
    intro hm
    obtain ⟨last, front, hsplit, hlast⟩ := List.eq_append_cons_of_mem (List.mem_reverse.mpr hm)
    rw [List.reverse_eq_iff, List.reverse_append, List.reverse_cons] at hsplit
    obtain ⟨shown, hlaid, _⟩ := exists_laid_append_singleton hletter outer last.reverse
    have hline : '\n' ∉ last.reverse ++ ['a'] := by simpa using hlast
    have habove := List.length_pos_of_ne_nil
      (layout_ne_nil outer (List.append_ne_nil_of_right_ne_nil front.reverse
        (List.cons_ne_nil '\n' [])))
    rw [hsplit, List.append_assoc, List.append_assoc, List.append_assoc, List.singleton_append,
      layout_append_cons_lineFeed, ← List.append_assoc, layout_line hline, hlaid] at h
    have hlength := congrArg List.length h
    simp only [List.length_append, List.length_singleton] at hlength
    omega
  obtain ⟨shown, hlaid, hblank⟩ := exists_laid_append_singleton hletter outer inner
  have hline : '\n' ∉ inner ++ ['a'] := by simpa using hone
  rw [layout_line hline, hlaid] at h
  have hshown : shown ++ ['a'] = ['a'] :=
    List.append_cancel_left (List.append_cancel_right h)
  exact ⟨hblank (List.append_left_eq_self.mp hshown), hone⟩

/-- A layout absorbs the one before it, whatever the comment, exactly when the
indent of the first layout has nothing but blanks and no line feed. -/
theorem layout_layout_iff (outer inner : Text) :
    (∀ comment, layout outer (layout inner comment) = layout outer comment) ↔
      (∀ c ∈ inner, isBlank c = true) ∧ '\n' ∉ inner := by
  constructor
  · exact fun h => blank_of_layout_letter (h ['a'])
  · rintro ⟨hi, hinner⟩ comment
    exact layout_layout hi hinner outer comment

end Comment

end Docblock
