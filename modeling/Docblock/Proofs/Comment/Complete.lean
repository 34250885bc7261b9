import Docblock.Proofs.Comment.Layout
import Docblock.Proofs.Comment.Skeleton

/-!
# Complete comments

A comment is complete when its only closer stands at its very end. A skeleton
with the default placeholders is complete once laid out unless the declaration
puts a closer into it.
-/

namespace Docblock.Comment

open Text
open Scan (closer)

/-- Whether a text ends in a closer and a line feed, and has no other closer. -/
def IsComplete (t : Text) : Prop :=
  ∃ body, t = body ++ closer ++ ['\n'] ∧
    ∀ before behind, t = before ++ closer ++ behind → before = body

/-- A closer stands at the start of a text or behind its first character. -/
theorem closer_infix_cons_iff {c : Char} {t : Text} :
    closer <:+: c :: t ↔ (c = '*' ∧ ∃ r, t = '/' :: r) ∨ closer <:+: t := by
  rw [List.infix_cons_iff]
  apply or_congr_left
  constructor
  · rintro ⟨r, hr⟩
    cases hr
    exact ⟨rfl, r, rfl⟩
  · rintro ⟨rfl, r, rfl⟩
    exact ⟨r, rfl⟩

/-- Only a star starts a closer. -/
theorem closer_infix_cons_of_ne {c : Char} (hc : c ≠ '*') (t : Text) :
    closer <:+: c :: t ↔ closer <:+: t := by
  rw [closer_infix_cons_iff]
  constructor
  · rintro (⟨h, _⟩ | h)
    · exact absurd h hc
    · exact h
  · exact Or.inr

@[simp] theorem closer_ne_nil : closer ≠ [] := List.cons_ne_nil _ _

/-- There is no closer in the empty text. -/
theorem closer_infix_nil : ¬closer <:+: [] := by decide

/-- A text without stars has no closer. -/
theorem not_closer_infix_of_not_mem {t : Text} (h : '*' ∉ t) : ¬closer <:+: t :=
  fun hcloser => h (hcloser.subset List.mem_cons_self)

/-- No closer goes over a character that is no slash. -/
theorem closer_infix_append_cons {c : Char} (hc : c ≠ '/') (a b : Text) :
    closer <:+: a ++ c :: b ↔ closer <:+: a ∨ closer <:+: c :: b := by
  induction a with
  | nil => exact (or_iff_right closer_infix_nil).symm
  | cons d a ih =>
    have hslash : (∃ r, a ++ c :: b = '/' :: r) ↔ ∃ r, a = '/' :: r := by
      cases a with
      | nil => simp [hc]
      | cons e a => simp
    rw [List.cons_append, closer_infix_cons_iff, ih, hslash,
      closer_infix_cons_iff (c := d) (t := a), or_assoc]

/-- A closer at the end that no slash follows is the only one unless there is
one in front of it. -/
theorem isComplete_iff (body : Text) :
    IsComplete (body ++ closer ++ ['\n']) ↔ ¬closer <:+: body := by
  constructor
  · rintro ⟨body', heq, hall⟩ ⟨before, behind, hbody⟩
    have hsame : body = body' := by
      rw [List.append_assoc, List.append_assoc] at heq
      exact List.append_cancel_right heq
    have hbefore : before = body' := by
      apply hall before (behind ++ (closer ++ ['\n']))
      rw [← hbody]
      simp
    have hlength := congrArg List.length hbody
    rw [hbefore, hsame] at hlength
    simp [closer] at hlength
  · intro hnone
    refine ⟨body, rfl, ?_⟩
    intro before behind heq
    rw [List.append_assoc, List.append_assoc, List.append_eq_append_iff] at heq
    rcases heq with ⟨more, hbefore, hmore⟩ | ⟨more, hbody, hmore⟩
    · -- Only the line feed is left behind the closer.
      cases more with
      | nil => rw [hbefore, List.append_nil]
      | cons c more =>
        cases more with
        | nil => simp [closer] at hmore
        | cons d more =>
          cases more with
          | nil => simp [closer] at hmore
          | cons e more => simp [closer] at hmore
    · cases more with
      | nil => rw [hbody, List.append_nil]
      | cons c more =>
        cases more with
        | nil => simp [closer] at hmore
        | cons d more =>
          have hcd : c = '*' ∧ d = '/' := by
            simp only [closer, List.cons_append, List.cons.injEq] at hmore
            exact ⟨hmore.1.symm, hmore.2.1.symm⟩
          obtain ⟨rfl, rfl⟩ := hcd
          exact absurd ⟨before, more, by rw [hbody]; simp [closer]⟩ hnone

/-- Blanks in front of a text hold no part of a closer. -/
theorem closer_infix_append_of_blank {b : Text} (hb : ∀ c ∈ b, isBlank c = true) (t : Text) :
    closer <:+: b ++ t ↔ closer <:+: t := by
  induction b with
  | nil => rfl
  | cons c b ih =>
    rw [List.forall_mem_cons] at hb
    have hc : c ≠ '*' := by
      rintro rfl
      exact absurd hb.1 (by decide)
    rw [List.cons_append, closer_infix_cons_of_ne hc, ih hb.2]

/-- Dropping the blanks at the end takes no closer away. -/
theorem closer_infix_trimEnd (t : Text) : closer <:+: trimEnd t ↔ closer <:+: t := by
  constructor
  · exact fun h => h.trans (trimEnd_isPrefix t).isInfix
  · intro h
    induction t with
    | nil => exact h
    | cons c r ih =>
      rw [closer_infix_cons_iff] at h
      rcases h with ⟨rfl, s, rfl⟩ | h
      · rw [trimEnd_cons_of_not_blank (by decide), trimEnd_cons_of_not_blank (by decide)]
        exact ⟨[], trimEnd s, rfl⟩
      · have hr := ih h
        rw [trimEnd]
        cases ht : trimEnd r with
        | nil =>
          rw [ht] at hr
          exact absurd hr closer_infix_nil
        | cons d s =>
          rw [ht] at hr
          exact List.infix_cons hr

/-- Trimming takes no closer away. -/
theorem closer_infix_trim (t : Text) : closer <:+: trim t ↔ closer <:+: t := by
  have hsplit : t = indent t ++ trimStart t := List.takeWhile_append_dropWhile.symm
  have hblank : ∀ c ∈ indent t, isBlank c = true := fun _ hm => isBlank_of_mem_indent hm
  have hstart := closer_infix_append_of_blank hblank (trimStart t)
  rw [← hsplit] at hstart
  rw [trim, closer_infix_trimEnd, hstart]

/-- Laying out a line adds no closer and takes none away. -/
theorem closer_infix_laid {indent : Text} (hi : ∀ c ∈ indent, isBlank c = true) (line : Text) :
    closer <:+: laid indent line ↔ closer <:+: line := by
  rw [← closer_infix_trim, trim_laid hi, closer_infix_trim]

/-- A closer in lines is a closer in one of them. -/
theorem closer_infix_unlines (ls : List Text) :
    closer <:+: unlines ls ↔ ∃ l ∈ ls, closer <:+: l := by
  induction ls with
  | nil =>
    rw [unlines_nil]
    exact iff_of_false closer_infix_nil (fun ⟨_, hm, _⟩ => absurd hm List.not_mem_nil)
  | cons l ls ih =>
    rw [unlines_cons, closer_infix_append_cons (by decide), closer_infix_cons_of_ne (by decide), ih,
      List.exists_mem_cons_iff]

/-- Blanks behind a text hold no part of a closer. -/
theorem closer_infix_append_blank {b : Text} (hb : ∀ c ∈ b, isBlank c = true) (t : Text) :
    closer <:+: t ++ b ↔ closer <:+: t := by
  cases b with
  | nil => rw [List.append_nil]
  | cons c b =>
    have hc : c ≠ '/' := by
      rintro rfl
      exact absurd (hb '/' List.mem_cons_self) (by decide)
    have hnone := closer_infix_append_of_blank hb []
    rw [List.append_nil] at hnone
    rw [closer_infix_append_cons hc, hnone]
    exact or_iff_left closer_infix_nil

/-- A closer is laid out below the star of the opener. -/
theorem laid_closer (indent : Text) : laid indent closer = indent ++ [' '] ++ closer := rfl

/-- A comment that ends in a line with nothing but a closer is complete once laid
out exactly when no line above that one has a closer. -/
theorem isComplete_layout_of_lines {comment : Text} {ls : List Text}
    (h : lines comment = ls ++ [closer]) {indent : Text} (hi : ∀ c ∈ indent, isBlank c = true) :
    IsComplete (layout indent comment) ↔ ∀ l ∈ ls, ¬closer <:+: l := by
  have hbody : layout indent comment =
      unlines (ls.map (laid indent)) ++ (indent ++ [' ']) ++ closer ++ ['\n'] := by
    rw [layout_eq_unlines, h, List.map_append, unlines_append]
    simp [laid_closer]
  have hblank : ∀ c ∈ indent ++ [' '], isBlank c = true := by
    rw [List.forall_mem_append, List.forall_mem_singleton]
    exact ⟨hi, by decide⟩
  rw [hbody, isComplete_iff, closer_infix_append_blank hblank, closer_infix_unlines]
  constructor
  · intro h l hm hcloser
    exact h ⟨laid indent l, List.mem_map_of_mem hm, (closer_infix_laid hi l).mpr hcloser⟩
  · rintro h ⟨_, hm, hcloser⟩
    obtain ⟨l, hl, rfl⟩ := List.mem_map.mp hm
    exact h l hl ((closer_infix_laid hi l).mp hcloser)

/-- The line that opens a skeleton does not close it. -/
theorem not_closer_infix_opener : ¬closer <:+: opener := by decide

/-- A laid out skeleton is complete exactly when no line inside it has a closer. -/
theorem isComplete_layout_iff {template : Template} {declaration : Declaration} {line : Text}
    (ht : template.OneLine) (hd : declaration.TakenFrom line) (hl : '\n' ∉ line) {indent : Text}
    (hi : ∀ c ∈ indent, isBlank c = true) :
    IsComplete (layout indent (skeleton template declaration)) ↔
      ∀ l ∈ skeletonInner template declaration, ¬closer <:+: l := by
  have hlines : lines (skeleton template declaration) =
      (opener :: skeletonInner template declaration) ++ [closer] := lines_skeleton ht hd hl
  rw [isComplete_layout_of_lines hlines hi, List.forall_mem_cons]
  exact and_iff_right not_closer_infix_opener

/-! ## Closers on the lines of a skeleton -/

/-- The line of a parameter has the closers of what is written on it. -/
theorem closer_infix_paramText (template : Template) (param : Text) :
    closer <:+: paramText template param ↔
      closer <:+: template.paramType ∨ closer <:+: param ∨
        closer <:+: template.paramDescription := by
  unfold paramText
  simp only [String.reduceToList, List.append_assoc, List.cons_append, List.nil_append]
  simp [closer_infix_cons_iff, closer_infix_append_cons]

/-- The summary of a class has the closers of the name and of its placeholder. -/
theorem closer_infix_classSummary (name description : Text) :
    closer <:+: "* ".toList ++ trim (name ++ [' '] ++ description) ↔
      closer <:+: name ∨ closer <:+: description := by
  simp only [String.reduceToList, List.cons_append, List.nil_append, List.append_assoc]
  simp [closer_infix_cons_iff, closer_infix_trim, closer_infix_append_cons]

/-- The star of a summary line makes no closer with the summary. -/
theorem closer_infix_summary (description : Text) :
    closer <:+: "* ".toList ++ description ↔ closer <:+: description := by
  simp [closer_infix_cons_iff]

/-- Only the name can put a closer into the line of a class. -/
theorem closer_infix_classLine (name : Text) :
    closer <:+: "* @class ".toList ++ name ↔ closer <:+: name := by
  simp [closer_infix_cons_iff]

/-- Only the name can put a closer into the line of a function. -/
theorem closer_infix_methodLine (name : Text) :
    closer <:+: "* @method ".toList ++ name ↔ closer <:+: name := by
  simp [closer_infix_cons_iff]

/-! ## Skeletons with the default placeholders -/

/-- The placeholder texts of the default settings hold no closer. -/
theorem not_closer_infix_default :
    ¬closer <:+: ({} : Template).paramType ∧ ¬closer <:+: ({} : Template).paramDescription :=
  ⟨not_closer_infix_of_not_mem (by decide), not_closer_infix_of_not_mem (by decide)⟩

/-- With the default settings only the parameter can put a closer into its line. -/
theorem closer_infix_paramText_default (param : Text) :
    closer <:+: paramText {} param ↔ closer <:+: param := by
  rw [closer_infix_paramText, or_iff_right not_closer_infix_default.1,
    or_iff_left not_closer_infix_default.2]

/-- The lines for parameters have a closer exactly when a parameter has one. -/
theorem closer_infix_paramLines (params : List Text) :
    (∀ l ∈ ((params.map trim).filter (!·.isEmpty)).map (paramText {}), ¬closer <:+: l) ↔
      ∀ param ∈ params, ¬closer <:+: param := by
  constructor
  · intro h param hm hcloser
    have hne : trim param ≠ [] := by
      intro he
      rw [← closer_infix_trim, he] at hcloser
      exact closer_infix_nil hcloser
    have hshown : trim param ∈ (params.map trim).filter (!·.isEmpty) :=
      List.mem_filter.mpr ⟨List.mem_map_of_mem hm, by simpa using hne⟩
    apply h (paramText {} (trim param)) (List.mem_map_of_mem hshown)
    rw [closer_infix_paramText_default, closer_infix_trim]
    exact hcloser
  · intro h l hm hcloser
    obtain ⟨shown, hshown, rfl⟩ := List.mem_map.mp hm
    obtain ⟨param, hparam, rfl⟩ := List.mem_map.mp (List.mem_of_mem_filter hshown)
    rw [closer_infix_paramText_default, closer_infix_trim] at hcloser
    exact h param hparam hcloser

/-- An identifier has no closer. -/
theorem not_closer_infix_of_identifier {name : Text}
    (h : ∀ c ∈ name, Declaration.isIdentPart c = true) : ¬closer <:+: name := by
  apply not_closer_infix_of_not_mem
  intro hstar
  exact absurd (h '*' hstar) (by decide)

end Docblock.Comment

namespace Docblock

open Text
open Scan (closer)

/-- Whether nothing that is captured from the line of a declaration has a
closer: only parameters and the name of an arrow function can have one. -/
structure Declaration.IsCloserFree (declaration : Declaration) : Prop where
  /-- The name of an arrow function has no closer. -/
  name : declaration.kind = .arrow → ∀ name ∈ declaration.name, ¬closer <:+: name
  /-- No parameter has a closer. -/
  params : ∀ param ∈ declaration.params, ¬closer <:+: param

/-- The lines inside a skeleton have no closer exactly when nothing that was
captured has one. -/
theorem Declaration.isCloserFree_iff {declaration : Declaration} {line : Text}
    (hd : declaration.TakenFrom line) :
    (∀ l ∈ Comment.skeletonInner {} declaration, ¬closer <:+: l) ↔ declaration.IsCloserFree := by
  have hname : ¬closer <:+: declaration.name.getD [] ↔
      (declaration.kind = .arrow → ∀ name ∈ declaration.name, ¬closer <:+: name) := by
    cases hn : declaration.name with
    | none => simp
    | some name =>
      by_cases hk : declaration.kind = .arrow
      · simp [hk]
      · have hident := Comment.not_closer_infix_of_identifier (hd.identifier hk name hn)
        simp [hk, hident]
  have hfree : declaration.IsCloserFree ↔ ¬closer <:+: declaration.name.getD [] ∧
      ∀ param ∈ declaration.params, ¬closer <:+: param := by
    rw [hname]
    exact ⟨fun h => ⟨h.name, h.params⟩, fun h => ⟨h.1, h.2⟩⟩
  have hstar : ¬closer <:+: ['*'] := by decide
  rw [hfree, Comment.skeletonInner]
  cases hk : declaration.kind with
  | classBody =>
    have hconstructor : ¬closer <:+: "* @constructor".toList := by
      simp [Comment.closer_infix_cons_iff]
    have hsummary := Comment.closer_infix_classSummary (declaration.name.getD [])
      ({} : Template).paramDescription
    rw [or_iff_left Comment.not_closer_infix_default.2] at hsummary
    have hline := Comment.closer_infix_classLine (declaration.name.getD [])
    have hparams : ∀ param ∈ declaration.params, ¬closer <:+: param := by
      rw [hd.classParams hk]
      exact fun _ hm => absurd hm List.not_mem_nil
    dsimp only
    rw [List.forall_mem_cons, List.forall_mem_cons, List.forall_mem_cons,
      List.forall_mem_singleton, hsummary, hline]
    exact ⟨fun h => ⟨h.1, hparams⟩, fun h => ⟨h.1, hstar, h.1, hconstructor⟩⟩
  | function | method | arrow =>
    have hdescription : ¬closer <:+: "* Description".toList := by
      simp [Comment.closer_infix_cons_iff]
    have hline := Comment.closer_infix_methodLine (declaration.name.getD [])
    dsimp only
    rw [List.forall_mem_append, Comment.closer_infix_paramLines, List.forall_mem_cons,
      List.forall_mem_cons, List.forall_mem_singleton, hline]
    exact ⟨fun h => ⟨h.1.2.2, h.2⟩, fun h => ⟨⟨hdescription, hstar, h.1⟩, h.2⟩⟩

end Docblock
