import Docblock.Proofs.Comment.Complete
import Docblock.Settings.Issue

/-!
# Placeholders that break comments

The comment for a declaration has a fixed number of lines and one closer at its
end, unless something that is written into it holds a line feed or a closer. The
problems of settings ask for line feeds in the two descriptions; a line feed in
the parameter type and a closer in any placeholder are no problem to them.
-/

namespace Docblock

open Text
open Scan (closer)

/-- Whether neither the name nor a parameter has a line feed or a closer. -/
structure Declaration.IsPlain (declaration : Declaration) : Prop where
  /-- The name is one line. -/
  nameOneLine : ∀ name ∈ declaration.name, '\n' ∉ name
  /-- Every parameter is one line. -/
  paramsOneLine : ∀ param ∈ declaration.params, '\n' ∉ param
  /-- The name has no closer. -/
  nameCloserFree : ∀ name ∈ declaration.name, ¬closer <:+: name
  /-- No parameter has a closer. -/
  paramsCloserFree : ∀ param ∈ declaration.params, ¬closer <:+: param

/-- A name and parameters without line feeds and stars are plain. -/
theorem Declaration.isPlain_of_not_mem {declaration : Declaration}
    (hname : ∀ name ∈ declaration.name, '\n' ∉ name)
    (hparams : ∀ param ∈ declaration.params, '\n' ∉ param)
    (hnameStar : ∀ name ∈ declaration.name, '*' ∉ name)
    (hparamsStar : ∀ param ∈ declaration.params, '*' ∉ param) : declaration.IsPlain where
  nameOneLine := hname
  paramsOneLine := hparams
  nameCloserFree := fun name hm => Comment.not_closer_infix_of_not_mem (hnameStar name hm)
  paramsCloserFree := fun param hm => Comment.not_closer_infix_of_not_mem (hparamsStar param hm)

/-- A missing name is on one line as well. -/
theorem Declaration.IsPlain.getD_oneLine {declaration : Declaration} (h : declaration.IsPlain) :
    '\n' ∉ declaration.name.getD [] := by
  cases hn : declaration.name with
  | none => exact List.not_mem_nil
  | some name => exact h.nameOneLine name hn

/-- A missing name holds no closer either. -/
theorem Declaration.IsPlain.getD_closerFree {declaration : Declaration} (h : declaration.IsPlain) :
    ¬closer <:+: declaration.name.getD [] := by
  cases hn : declaration.name with
  | none => exact Comment.closer_infix_nil
  | some name => exact h.nameCloserFree name hn

/-- How many lines the comment for a declaration should have: a parameter that
is not blank has a line of its own. -/
def Declaration.commentHeight (declaration : Declaration) : Nat :=
  match declaration.kind with
  | .classBody => 6
  | .function | .method | .arrow => 5 + declaration.params.countP (!allBlank ·)

/-- The placeholders that are written into the comment for a declaration. -/
def Template.written (template : Template) (declaration : Declaration) : List Text :=
  match declaration.kind with
  | .classBody => [template.paramDescription]
  | .function | .method | .arrow =>
    template.description ::
      if declaration.params.all allBlank then []
      else [template.paramType, template.paramDescription]

/-- The descriptions of settings without problems are one line each. -/
theorem Settings.oneLine_of_issues_eq_nil {settings : Settings} (h : settings.issues = []) :
    '\n' ∉ settings.template.description ∧ '\n' ∉ settings.template.paramDescription := by
  rw [Settings.issues, Template.issues] at h
  simp only [List.append_eq_nil_iff, ite_eq_right_iff, List.cons_ne_nil] at h
  have hbreak := h.1.2.2
  simpa using hbreak

namespace Comment

/-- A shown parameter is a parameter without the blanks around it. -/
theorem exists_of_mem_shown {params : List Text} {shown : Text}
    (h : shown ∈ (params.map trim).filter (!·.isEmpty)) :
    ∃ param ∈ params, trim param = shown :=
  List.mem_map.mp (List.mem_of_mem_filter h)

/-- Exactly the parameters that are not blank are shown. -/
theorem length_shown (params : List Text) :
    ((params.map trim).filter (!·.isEmpty)).length = params.countP (!allBlank ·) := by
  rw [← List.countP_eq_length_filter, List.countP_map]
  exact congrArg (params.countP ·) (funext fun param => congrArg (!·) (isEmpty_trim param))

/-- No parameter is shown exactly when all of them are blank. -/
theorem shown_eq_nil_iff (params : List Text) :
    (params.map trim).filter (!·.isEmpty) = [] ↔ params.all allBlank = true := by
  rw [← List.length_eq_zero_iff, length_shown, List.countP_eq_zero, List.all_eq_true]
  simp

/-- The lines of a comment between its opener and its closer. -/
theorem length_skeletonInner (template : Template) (declaration : Declaration) :
    (skeletonInner template declaration).length + 2 = declaration.commentHeight := by
  rw [skeletonInner, Declaration.commentHeight]
  cases declaration.kind with
  | classBody => rfl
  | function | method | arrow =>
    dsimp only
    rw [List.length_append, List.length_map, length_shown]
    simp only [List.length_cons, List.length_nil]
    omega

/-- A property that the lines of a comment have as soon as the placeholders on
them have it. -/
structure Carries (template : Template) (declaration : Declaration) (free : Text → Prop) :
    Prop where
  /-- The empty line has it. -/
  empty : free ['*']
  /-- The line with the name of a class has it. -/
  className : free ("* @class ".toList ++ declaration.name.getD [])
  /-- The line that says that a class has a constructor has it. -/
  constructorLine : free "* @constructor".toList
  /-- The line with the name of a function has it. -/
  methodName : free ("* @method ".toList ++ declaration.name.getD [])
  /-- The summary of a class has it with its placeholder. -/
  classSummary : free ("* ".toList ++
    trim (declaration.name.getD [] ++ [' '] ++ template.paramDescription)) ↔
      free template.paramDescription
  /-- The summary of a function has it with its placeholder. -/
  summary : free ("* ".toList ++ template.description) ↔ free template.description
  /-- The line of a parameter has it with its two placeholders. -/
  param : ∀ param ∈ declaration.params, free (paramText template (trim param)) ↔
    free template.paramType ∧ free template.paramDescription

section Carries

variable {template : Template} {declaration : Declaration} {free : Text → Prop}

/-- The lines of the parameters have such a property exactly when there are none
or their two placeholders have it. -/
theorem Carries.forall_paramText_iff (h : Carries template declaration free) :
    (∀ l ∈ ((declaration.params.map trim).filter (!·.isEmpty)).map (paramText template), free l) ↔
      ∀ placeholder ∈ (if declaration.params.all allBlank then []
        else [template.paramType, template.paramDescription]), free placeholder := by
  cases hshown : (declaration.params.map trim).filter (!·.isEmpty) with
  | nil =>
    rw [if_pos ((shown_eq_nil_iff declaration.params).mp hshown)]
    simp
  | cons first rest =>
    have hsome : ¬declaration.params.all allBlank = true := by
      rw [← shown_eq_nil_iff, hshown]
      exact List.cons_ne_nil first rest
    have hline : ∀ shown ∈ first :: rest, free (paramText template shown) ↔
        free template.paramType ∧ free template.paramDescription := by
      intro shown hm
      rw [← hshown] at hm
      obtain ⟨param, hparam, rfl⟩ := exists_of_mem_shown hm
      exact h.param param hparam
    rw [if_neg hsome, List.forall_mem_cons, List.forall_mem_singleton]
    constructor
    · intro hall
      exact (hline first List.mem_cons_self).mp
        (hall _ (List.mem_map_of_mem List.mem_cons_self))
    · intro hfree l hm
      obtain ⟨shown, hshown, rfl⟩ := List.mem_map.mp hm
      exact (hline shown hshown).mpr hfree

/-- All lines of a comment have such a property exactly when all placeholders
that are written have it. -/
theorem Carries.forall_skeletonInner_iff (h : Carries template declaration free) :
    (∀ l ∈ skeletonInner template declaration, free l) ↔
      ∀ placeholder ∈ template.written declaration, free placeholder := by
  rw [skeletonInner, Template.written]
  cases declaration.kind with
  | classBody =>
    dsimp only
    rw [List.forall_mem_cons, List.forall_mem_cons, List.forall_mem_cons,
      List.forall_mem_singleton, List.forall_mem_singleton, h.classSummary]
    exact and_iff_left ⟨h.empty, h.className, h.constructorLine⟩
  | function | method | arrow =>
    have hfixed : free template.description ∧ free ['*'] ∧
        free ("* @method ".toList ++ declaration.name.getD []) ↔ free template.description :=
      and_iff_left ⟨h.empty, h.methodName⟩
    dsimp only
    rw [List.forall_mem_append, h.forall_paramText_iff, List.forall_mem_cons,
      List.forall_mem_cons, List.forall_mem_singleton, h.summary, hfixed, List.forall_mem_cons]

end Carries

/-- A line feed is on a line of a plain comment only if a placeholder has it. -/
theorem carries_oneLine {template : Template} {declaration : Declaration}
    (hd : declaration.IsPlain) (hdescription : '\n' ∉ template.paramDescription) :
    Carries template declaration ('\n' ∉ ·) where
  empty := by decide
  className := by simpa using hd.getD_oneLine
  constructorLine := by decide
  methodName := by simpa using hd.getD_oneLine
  classSummary := by
    apply iff_of_true _ hdescription
    have htrim : '\n' ∉ trim (declaration.name.getD [] ++ [' '] ++ template.paramDescription) := by
      intro hm
      have hm := mem_of_mem_trim hm
      simp [hd.getD_oneLine, hdescription] at hm
    simpa using htrim
  summary := by simp
  param := by
    intro param hm
    have htrim : '\n' ∉ trim param := fun h => hd.paramsOneLine param hm (mem_of_mem_trim h)
    unfold paramText
    simp [htrim]

/-- A closer is on a line of a plain comment only if a placeholder has it. -/
theorem carries_closerFree {template : Template} {declaration : Declaration}
    (hd : declaration.IsPlain) : Carries template declaration (¬closer <:+: ·) where
  empty := by decide
  className := by rw [closer_infix_classLine]; exact hd.getD_closerFree
  constructorLine := by simp [closer_infix_cons_iff]
  methodName := by rw [closer_infix_methodLine]; exact hd.getD_closerFree
  classSummary := by
    rw [closer_infix_classSummary, or_iff_right hd.getD_closerFree]
  summary := by rw [closer_infix_summary]
  param := by
    intro param hm
    have htrim : ¬closer <:+: trim param := by
      rw [closer_infix_trim]
      exact hd.paramsCloserFree param hm
    rw [closer_infix_paramText, or_iff_right htrim, not_or]

/-- Laying out keeps the number of lines. -/
theorem length_lines_layout {indent : Text} (hindent : '\n' ∉ indent) (comment : Text) :
    (lines (layout indent comment)).length = (lines comment).length := by
  rw [lines_layout hindent, List.length_map]

/-- A text has the closers of its lines. -/
theorem closer_infix_lines (t : Text) : closer <:+: t ↔ ∃ l ∈ lines t, closer <:+: l := by
  rw [← closer_infix_unlines]
  rcases unlines_lines t with h | h
  · rw [h]
  · rw [h, closer_infix_append_blank (List.forall_mem_singleton.mpr (by decide))]

/-- Closers are found line by line: no text that is written as lines has one across a line
feed. -/
theorem forall_lines_unlines_closerFree (ls : List Text) :
    (∀ l ∈ lines (unlines ls), ¬closer <:+: l) ↔ ∀ l ∈ ls, ¬closer <:+: l := by
  have h := (closer_infix_lines (unlines ls)).symm.trans (closer_infix_unlines ls)
  simpa using not_congr h

/-- A laid out skeleton has as many lines as it should exactly when no line
inside it is broken by a line feed. -/
theorem length_lines_layout_skeleton_iff (template : Template) (declaration : Declaration)
    {indent : Text} (hindent : '\n' ∉ indent) :
    (lines (layout indent (skeleton template declaration))).length = declaration.commentHeight ↔
      ∀ l ∈ skeletonInner template declaration, '\n' ∉ l := by
  have hopener : '\n' ∉ opener := by decide
  have hcount := count_unlines_eq_length_iff (opener :: skeletonInner template declaration)
  rw [List.forall_mem_cons, and_iff_right hopener, List.length_cons] at hcount
  rw [length_lines_layout hindent, skeleton_eq_unlines_append,
    length_lines_append _ (by decide) closer_ne_nil, ← length_skeletonInner template declaration,
    ← hcount]
  omega

/-- A laid out skeleton is complete exactly when no line inside it has a closer,
also where a line is broken by a line feed. -/
theorem isComplete_layout_skeleton_iff (template : Template) (declaration : Declaration)
    {indent : Text} (hi : ∀ c ∈ indent, isBlank c = true) :
    IsComplete (layout indent (skeleton template declaration)) ↔
      ∀ l ∈ skeletonInner template declaration, ¬closer <:+: l := by
  have hlines : lines (skeleton template declaration) =
      lines (unlines (opener :: skeletonInner template declaration)) ++ [closer] := by
    rw [skeleton_eq_unlines_append, lines_unlines_append_text]
    rfl
  rw [isComplete_layout_of_lines hlines hi, forall_lines_unlines_closerFree, List.forall_mem_cons]
  exact and_iff_right not_closer_infix_opener

end Comment

/-- What settings without problems make of a plain declaration: its comment has
the right number of lines exactly when no placeholder that is written has a line
feed, and ends at its only closer exactly when none of them has a closer. -/
theorem comment_intact_iff {settings : Settings} {declaration : Declaration} {indent : Text}
    (hsettings : settings.issues = []) (hd : declaration.IsPlain)
    (hi : ∀ c ∈ indent, isBlank c = true) (hindent : '\n' ∉ indent) :
    ((lines (Comment.layout indent (Comment.skeleton settings.template declaration))).length =
        declaration.commentHeight ↔
      ∀ placeholder ∈ settings.template.written declaration, '\n' ∉ placeholder) ∧
    (Comment.IsComplete (Comment.layout indent (Comment.skeleton settings.template declaration)) ↔
      ∀ placeholder ∈ settings.template.written declaration, ¬closer <:+: placeholder) := by
  have hdescription := (Settings.oneLine_of_issues_eq_nil hsettings).2
  constructor
  · rw [Comment.length_lines_layout_skeleton_iff _ _ hindent,
      (Comment.carries_oneLine hd hdescription).forall_skeletonInner_iff]
  · rw [Comment.isComplete_layout_skeleton_iff _ _ hi,
      (Comment.carries_closerFree hd).forall_skeletonInner_iff]

/-- The comment for a function with a blank parameter between two others. -/
theorem comment_intact_iff_function :
    ∃ (template : Template) (declaration : Declaration) (comment : Text),
      template = ⟨"Summary.".toList, "any".toList, "...".toList⟩ ∧
      declaration = ⟨.function, some "add".toList, ["a".toList, " ".toList, "b".toList]⟩ ∧
      comment = Comment.layout "  ".toList (Comment.skeleton template declaration) ∧
      ({ template := template } : Settings).issues = [] ∧ declaration.IsPlain ∧
      (lines comment).length = 7 ∧ Comment.IsComplete comment := by
  obtain ⟨template, htemplate⟩ : ∃ template : Template,
      template = ⟨"Summary.".toList, "any".toList, "...".toList⟩ := ⟨_, rfl⟩
  obtain ⟨declaration, hdeclaration⟩ : ∃ declaration : Declaration, declaration =
      ⟨.function, some "add".toList, ["a".toList, " ".toList, "b".toList]⟩ := ⟨_, rfl⟩
  have hissues : ({ template := template } : Settings).issues = [] := by
    rw [htemplate]
    decide +kernel
  have hplain : declaration.IsPlain := by
    apply Declaration.isPlain_of_not_mem <;> rw [hdeclaration] <;> decide
  have hheight : declaration.commentHeight = 7 := by rw [hdeclaration]; decide +kernel
  have hwritten : ∀ placeholder ∈ template.written declaration,
      '\n' ∉ placeholder ∧ '*' ∉ placeholder := by
    rw [htemplate, hdeclaration]
    decide +kernel
  have hblank : ∀ c ∈ "  ".toList, isBlank c = true :=
    List.all_eq_true.mp (by decide)
  obtain ⟨hlines, hcomplete⟩ := comment_intact_iff hissues hplain hblank (by decide)
  refine ⟨template, declaration, _, htemplate, hdeclaration, rfl, hissues, hplain, ?_, ?_⟩
  · rw [← hheight]
    exact hlines.mpr fun placeholder hm => (hwritten placeholder hm).1
  · exact hcomplete.mpr fun placeholder hm =>
      Comment.not_closer_infix_of_not_mem (hwritten placeholder hm).2

/-- A type that goes over two lines and a description with a closer are no
problems, and either of them breaks the comment of a function. -/
theorem exists_broken_comment :
    ∃ declaration : Declaration, declaration = ⟨.function, some "add".toList, ["a".toList]⟩ ∧
      declaration.IsPlain ∧
      (∃ settings : Settings, settings = { template := { paramType := "a\nb".toList } } ∧
        settings.issues = [] ∧
        (lines (Comment.layout [] (Comment.skeleton settings.template declaration))).length ≠
          declaration.commentHeight) ∧
      ∃ settings : Settings, settings = { template := { description := "a */ b".toList } } ∧
        settings.issues = [] ∧
        ¬Comment.IsComplete
          (Comment.layout [] (Comment.skeleton settings.template declaration)) := by
  refine ⟨_, rfl, Declaration.isPlain_of_not_mem (by decide) (by decide) (by decide) (by decide),
    ⟨_, rfl, by decide +kernel, by decide +kernel⟩, _, rfl, by decide +kernel, ?_⟩
  rw [Comment.isComplete_layout_skeleton_iff _ _ (List.forall_mem_nil _)]
  intro hall
  refine hall ("* ".toList ++ "a */ b".toList) List.mem_cons_self ?_
  exact ⟨"* a ".toList, " b".toList, rfl⟩

end Docblock
