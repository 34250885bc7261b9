import Docblock.Comment.Skeleton
import Docblock.Proofs.Declaration.Taken
import Docblock.Proofs.Text.Lines
import Docblock.Scan.Basic

/-!
# Lines of skeletons

As long as neither the placeholders nor the declaration hold a line feed, a
skeleton has an opener, a closer, and between them lines that start with a star.
-/

namespace Docblock

open Text

/-- Whether the placeholder texts are one line each. -/
structure Template.OneLine (template : Template) : Prop where
  /-- The summary line has no line feed. -/
  description : '\n' ∉ template.description
  /-- The type has no line feed. -/
  paramType : '\n' ∉ template.paramType
  /-- The end of a parameter line has no line feed. -/
  paramDescription : '\n' ∉ template.paramDescription

namespace Comment

/-- The opener of a skeleton. -/
def opener : Text := ['/', '*', '*']

/-- The line of one parameter without its line feed. -/
def paramText (template : Template) (param : Text) : Text :=
  "* @param \x7b".toList ++ template.paramType ++ "\x7d ".toList ++ param ++ " - ".toList ++
  template.paramDescription

/-- The lines of a skeleton between its opener and its closer. -/
def skeletonInner (template : Template) (declaration : Declaration) : List Text :=
  let name := declaration.name.getD []
  match declaration.kind with
  | .classBody =>
    ["* ".toList ++ trim (name ++ [' '] ++ template.paramDescription), ['*'],
      "* @class ".toList ++ name, "* @constructor".toList]
  | .function | .method | .arrow =>
    ["* ".toList ++ template.description, ['*'], "* @method ".toList ++ name] ++
    ((declaration.params.map trim).filter (!·.isEmpty)).map (paramText template)

/-- All lines of a skeleton. -/
def skeletonLines (template : Template) (declaration : Declaration) : List Text :=
  opener :: (skeletonInner template declaration ++ [Scan.closer])

/-- The lines of the parameters are their texts, each with a line feed. -/
theorem flatMap_paramLine (template : Template) (params : List Text) :
    params.flatMap (paramLine template) = unlines (params.map (paramText template)) := by
  rw [unlines, List.flatMap_map]
  rfl

/-- A skeleton has these lines, with no line feed behind the last one. -/
theorem skeleton_eq_unlines_append (template : Template) (declaration : Declaration) :
    skeleton template declaration =
      unlines (opener :: skeletonInner template declaration) ++ Scan.closer := by
  unfold skeleton skeletonInner
  cases declaration.kind with
  | classBody =>
    unfold classSkeleton opener Scan.closer
    simp only [String.reduceToList, unlines_cons, unlines_nil, List.append_assoc, List.cons_append,
      List.nil_append]
  | function | method | arrow =>
    unfold functionSkeleton opener Scan.closer
    rw [flatMap_paramLine]
    simp only [String.reduceToList, unlines_cons, List.append_assoc,
      List.cons_append, List.nil_append]

/-- Every line inside a skeleton starts with a star. -/
theorem star_of_mem_skeletonInner {template : Template} {declaration : Declaration} {l : Text}
    (h : l ∈ skeletonInner template declaration) : ∃ r, l = '*' :: r := by
  rw [skeletonInner] at h
  cases hk : declaration.kind with
  | classBody =>
    rw [hk] at h
    simp only [List.mem_cons, List.not_mem_nil, or_false] at h
    rcases h with rfl | rfl | rfl | rfl <;> exact ⟨_, rfl⟩
  | function | method | arrow =>
    rw [hk] at h
    simp only [List.mem_append, List.mem_cons, List.not_mem_nil, or_false, List.mem_map] at h
    rcases h with (rfl | rfl | rfl) | ⟨param, _, rfl⟩ <;> exact ⟨_, rfl⟩

/-- Nothing in a skeleton makes a line feed but the placeholders and the declaration. -/
theorem oneLine_of_mem_skeletonInner {template : Template} {declaration : Declaration}
    {l line : Text} (ht : template.OneLine) (hd : declaration.TakenFrom line)
    (hl : '\n' ∉ line) (h : l ∈ skeletonInner template declaration) : '\n' ∉ l := by
  have hname : '\n' ∉ declaration.name.getD [] := by
    cases hn : declaration.name with
    | none => exact List.not_mem_nil
    | some name => exact fun hm => hl ((hd.name name hn).subset hm)
  rw [skeletonInner] at h
  cases hk : declaration.kind with
  | classBody =>
    have htrim : '\n' ∉ trim (declaration.name.getD [] ++ [' '] ++ template.paramDescription) := by
      intro hm
      have := mem_of_mem_trim hm
      simp [hname, ht.paramDescription] at this
    rw [hk] at h
    simp only [List.mem_cons, List.not_mem_nil, or_false] at h
    rcases h with rfl | rfl | rfl | rfl
    · simpa using htrim
    · decide
    · simpa using hname
    · decide
  | function | method | arrow =>
    rw [hk] at h
    simp only [List.mem_append, List.mem_cons, List.not_mem_nil, or_false, List.mem_map] at h
    rcases h with (rfl | rfl | rfl) | ⟨param, hparam, rfl⟩
    · simpa using ht.description
    · decide
    · simpa using hname
    · obtain ⟨raw, hraw, rfl⟩ := List.mem_map.mp (List.mem_of_mem_filter hparam)
      have hparam : '\n' ∉ trim raw := fun hm =>
        hl ((hd.params raw hraw).subset (mem_of_mem_trim hm))
      unfold paramText
      simpa [ht.paramType, ht.paramDescription] using hparam

/-- A skeleton is read back as its lines. -/
theorem lines_skeleton {template : Template} {declaration : Declaration} {line : Text}
    (ht : template.OneLine) (hd : declaration.TakenFrom line) (hl : '\n' ∉ line) :
    lines (skeleton template declaration) = skeletonLines template declaration := by
  have hlines : ∀ l ∈ opener :: skeletonInner template declaration, '\n' ∉ l := by
    rw [List.forall_mem_cons]
    exact ⟨by decide, fun l hm => oneLine_of_mem_skeletonInner ht hd hl hm⟩
  rw [skeleton_eq_unlines_append, lines_unlines_append hlines]
  rfl

end Comment

end Docblock
