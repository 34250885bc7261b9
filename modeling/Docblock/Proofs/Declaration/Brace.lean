import Docblock.Proofs.Declaration.Matches

/-!
# Every shape needs a brace

Whatever can be read as a declaration opens a body, so its line has a brace. A
line without one need not be tried at all: no reader finds anything on it.
-/

namespace Docblock.Declaration

section Braces

variable {inside : Char → Bool} {kind : DeclarationKind} {before line t name args : Text}
variable {declaration : Declaration}

/-- A signature ends with the brace that opens its body. -/
theorem IsSignature.brace_mem (h : IsSignature inside t name args) : '{' ∈ t := by
  cases h with
  | intro => simp

/-- Modifiers in front of a signature do not hide its brace. -/
theorem IsMethod.brace_mem (h : IsMethod t name args) : '{' ∈ t := by
  induction h with
  | plain _ hsignature => exact List.mem_append_right _ hsignature.brace_mem
  | modified _ _ _ _ ih => exact List.mem_append_right _ (List.mem_append_right _ ih)

/-- What fits a kind has a brace, whichever kind it is and wherever in its line it stands. -/
theorem Fits.brace_mem (h : Fits kind before line declaration) : '{' ∈ line := by
  cases h with
  | classBody _ _ hrest =>
    have hbrace := (isClassBody_iff.mp hrest).1
    exact List.mem_append_right _ (List.mem_append_right _ hbrace)
  | function _ _ _ _ hsignature =>
    have hbrace := hsignature.brace_mem
    simp only [List.mem_append, hbrace, or_true]
  | method hline _ => exact hline.brace_mem
  | arrow => simp

/-- Without a brace nothing is read, whatever the kind. -/
theorem ofLine?_eq_none_of_not_mem (h : '{' ∉ line) (kind : DeclarationKind) :
    ofLine? kind line = none := by
  rw [Option.eq_none_iff_forall_ne_some]
  intro declaration hread
  obtain ⟨before, hfits, _⟩ := ofLine?_eq_some_iff.mp hread
  exact h hfits.brace_mem

end Braces

/-- A line is classified as if every kind were tried in order of priority,
because no kind can be read off a line without a brace. -/
theorem classify_eq_findSome? (line : Text) :
    classify line = DeclarationKind.priority.findSome? (ofLine? · line) ∧
      ('{' ∉ line → ∀ kind, ofLine? kind line = none) := by
  refine ⟨?_, ofLine?_eq_none_of_not_mem⟩
  rw [classify]
  split
  · rfl
  · rename_i hbrace
    rw [List.contains_iff_mem] at hbrace
    rw [eq_comm, List.findSome?_eq_none_iff]
    exact fun kind _ => ofLine?_eq_none_of_not_mem hbrace kind

/-- The head of a function whose body opens on the next line. -/
theorem classify_eq_findSome?_body_below :
    '{' ∉ "export default async function add(a, b)".toList ∧
      ∀ kind, ofLine? kind "export default async function add(a, b)".toList = none :=
  ⟨by decide, (classify_eq_findSome? _).2 (by decide)⟩

end Docblock.Declaration
