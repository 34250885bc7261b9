import Docblock.Comment.Block
import Docblock.Proofs.Comment.Complete
import Docblock.Proofs.Comment.Tag
import Docblock.Proofs.Declaration.Matches

/-!
# Reading new comments back

The tags that are written into the comment for a declaration are read off the lines
of that comment again, in order and with their values, as long as nothing that is
written holds an at sign, a closer or a line feed of its own.
-/

namespace Docblock

open Text
open Scan (closer)

namespace Declaration

section Fits

variable {kind : DeclarationKind} {before line : Text} {declaration : Declaration}

/-- The name of a method has no blanks, whatever modifiers stand in front of it. -/
theorem IsMethod.solid_name {name args : Text} (h : IsMethod line name args) :
    ∀ c ∈ name, isBlank c = false := by
  induction h with
  | plain _ hsignature =>
    cases hsignature with
    | intro _ hname => exact hname.solid
  | modified _ _ _ _ ih => exact ih

/-- There are no blanks in the name of a declaration. -/
theorem Fits.solid_name (h : Fits kind before line declaration) :
    ∀ name ∈ declaration.name, ∀ c ∈ name, isBlank c = false := by
  cases h with
  | classBody _ _ hrest =>
    cases hrest with
    | named _ _ hname =>
      rintro _ ⟨⟩
      exact hname.solid
    | heritage | anonymous =>
      rintro _ ⟨⟩
  | function _ _ _ _ hsignature =>
    cases hsignature with
    | intro _ hname =>
      rintro _ ⟨⟩
      exact hname.solid
  | method hline =>
    rintro _ ⟨⟩
    exact hline.solid_name
  | arrow _ _ _ _ _ _ _ hname _ =>
    rintro name ⟨⟩
    obtain ⟨_, _, hword, _⟩ := hname
    exact hword.solid

/-- Parameters have no blanks around them. -/
theorem IsParams.trim_param {args : Text} {params : List Text} (h : IsParams args params) :
    ∀ param ∈ params, trim param = param := by
  intro param hm
  cases h with
  | blank => cases hm
  | parts _ hparts =>
    rw [hparts.eq_map_trim] at hm
    obtain ⟨piece, _, rfl⟩ := List.mem_map.mp hm
    exact trim_trim piece

/-- There are no blanks around the parameters of a declaration. -/
theorem Fits.trim_param (h : Fits kind before line declaration) :
    ∀ param ∈ declaration.params, trim param = param := by
  cases h with
  | classBody => exact fun _ hm => absurd hm List.not_mem_nil
  | function _ _ _ _ _ hparams => exact hparams.trim_param
  | method _ _ hparams => exact hparams.trim_param
  | arrow _ _ _ _ _ _ _ _ hparams => exact hparams.trim_param

/-- What a line is classified as fits it. -/
theorem exists_fits_of_classify (h : classify line = some declaration) :
    ∃ kind before, Fits kind before line declaration := by
  rw [classify] at h
  split at h
  · obtain ⟨kind, _, hkind⟩ := List.exists_of_findSome?_eq_some h
    obtain ⟨before, hfits, _⟩ := ofLine?_eq_some_iff.mp hkind
    exact ⟨kind, before, hfits⟩
  · cases h

end Fits

end Declaration

/-- A text that is neither read as a tag in a comment nor ends it. -/
structure Comment.Quiet (t : Text) : Prop where
  /-- No tag starts in the text. -/
  atFree : '@' ∉ t
  /-- No comment ends in the text. -/
  closerFree : ¬closer <:+: t

/-- Without an at sign and a star a text is quiet. -/
theorem Comment.quiet_of_not_mem {t : Text} (hat : '@' ∉ t) (hstar : '*' ∉ t) : Comment.Quiet t :=
  ⟨hat, Comment.not_closer_infix_of_not_mem hstar⟩

/-- Whether all placeholder texts are quiet. -/
structure Template.Quiet (template : Template) : Prop where
  /-- The summary of a function is quiet. -/
  description : Comment.Quiet template.description
  /-- The type is quiet. -/
  paramType : Comment.Quiet template.paramType
  /-- The end of a parameter line is quiet. -/
  paramDescription : Comment.Quiet template.paramDescription

/-- Whether the name and all parameters are quiet. -/
structure Declaration.Quiet (declaration : Declaration) : Prop where
  /-- The name is quiet. -/
  name : ∀ name ∈ declaration.name, Comment.Quiet name
  /-- Every parameter is quiet. -/
  params : ∀ param ∈ declaration.params, Comment.Quiet param

/-- A missing name is quiet as well. -/
theorem Declaration.Quiet.getD {declaration : Declaration} (h : declaration.Quiet) :
    Comment.Quiet (declaration.name.getD []) := by
  cases hn : declaration.name with
  | none => exact ⟨List.not_mem_nil, Comment.closer_infix_nil⟩
  | some name => exact h.name name hn

namespace Comment

/-- What is written for a parameter behind the word of its tag. -/
def paramBody (template : Template) (param : Text) : Text :=
  "\x7b".toList ++ template.paramType ++ "\x7d ".toList ++ param ++ " - ".toList ++
  template.paramDescription

/-- The tag that is written for a parameter. -/
def paramTag (template : Template) (param : Text) : Tag := ⟨.param, trim (paramBody template param)⟩

/-- The tags that are written into the comment for a declaration: one for the name of
a function and one for each parameter that is not blank. A class has none. -/
def writtenTags (template : Template) (declaration : Declaration) : List Tag :=
  match declaration.kind with
  | .classBody => []
  | .function | .method | .arrow =>
    ⟨.method, declaration.name.getD []⟩ ::
      (declaration.params.filter (!allBlank ·)).map (paramTag template)

/-- Closers are dropped only at the end of a value. -/
theorem value_of_closerFree {rest : Text} (h : ¬closer <:+: rest) :
    trim (Tag.dropClosers (trim rest)) = trim rest := by
  have hend : ¬closer <:+ trim rest := fun hs => h ((closer_infix_trim rest).mp hs.isInfix)
  rw [Tag.dropClosers_of_not_suffix hend, trim_trim]

/-- Laying out keeps the tags of a comment. -/
theorem flatMap_all_layout {indent : Text} (hi : ∀ c ∈ indent, isBlank c = true)
    (hindent : '\n' ∉ indent) (comment : Text) :
    ((lines (layout indent comment)).map trim).flatMap Tag.all =
      (lines comment).flatMap Tag.all := by
  rw [lines_layout hindent, List.map_map, List.flatMap_map]
  refine List.flatMap_congr fun l _ => ?_
  rw [Function.comp_apply, trim_laid hi, Tag.all_trim]

/-! ## Tags on the lines of a skeleton -/

theorem blank_space : ∀ c ∈ [' '], isBlank c = true := List.forall_mem_singleton.mpr (by decide)

/-- The star in front of a line is no part of a tag. -/
theorem all_star {t : Text} : Tag.all ("* ".toList ++ t) = Tag.all t :=
  Tag.all_append_of_not_mem (by decide) t

/-- Behind a blank the word of a tag gets the rest of its line as its value. -/
theorem all_starAt {word rest : Text} {kind : TagKind} (hword : (word, kind) ∈ Tag.keywords)
    (hat : '@' ∉ rest) (hcloser : ¬closer <:+: rest) :
    Tag.all ("* ".toList ++ '@' :: (word ++ ' ' :: rest)) = [⟨kind, trim rest⟩] := by
  have hgap : '@' ∉ [' '] ++ rest := by simpa using hat
  have hend : ∀ c ∈ ([' '] ++ rest).head?, isWord c = false := by
    rintro c ⟨⟩
    decide
  have hnext : ∀ c ∈ ([] : Text).head?, c = '@' := by simp
  have htag := Tag.all_at_append hword hend hgap hnext
  have hvalue : ¬closer <:+: [' '] ++ rest := by
    rwa [closer_infix_append_of_blank blank_space]
  rw [List.append_nil, value_of_closerFree hvalue, trim_append_of_blank blank_space] at htag
  rw [all_star]
  exact htag

/-- A word that is no tag keyword is not read as a tag. -/
theorem all_starOther {word rest : Text} (hword : ∀ c ∈ word, isWord c = true)
    (hkind : Tag.kindOf? word = none) (hend : ∀ c ∈ rest.head?, isWord c = false)
    (hat : '@' ∉ rest) : Tag.all ("* ".toList ++ '@' :: (word ++ rest)) = [] := by
  rw [all_star, Tag.all_at_of_kindOf?_eq_none hword hend hkind, Tag.all_of_not_mem hat]

/-- The name of a function is read off the line that it is written on. -/
theorem all_methodLine {name : Text} (h : Quiet name) (hsolid : ∀ c ∈ name, isBlank c = false) :
    Tag.all ("* @method ".toList ++ name) = [⟨.method, name⟩] := by
  have hword : ("method".toList, TagKind.method) ∈ Tag.keywords := by decide
  have hsplit : "* @method ".toList ++ name =
      "* ".toList ++ '@' :: ("method".toList ++ ' ' :: name) := by
    simp only [String.reduceToList, List.cons_append, List.nil_append]
  rw [hsplit, all_starAt hword h.atFree h.closerFree, trim_of_solid hsolid]

/-- What is written for a parameter is quiet when its parts are. -/
theorem quiet_paramBody {template : Template} (ht : template.Quiet) {param : Text}
    (h : Quiet param) : Quiet (paramBody template param) := by
  have htype := ht.paramType
  have hdescription := ht.paramDescription
  unfold paramBody
  simp only [String.reduceToList, List.append_assoc, List.cons_append, List.nil_append]
  constructor
  · simp [htype.atFree, h.atFree, hdescription.atFree]
  · simp [closer_infix_cons_iff, closer_infix_append_cons, htype.closerFree, h.closerFree,
      hdescription.closerFree]

/-- The line of a parameter is its tag word and what is written behind it. -/
theorem paramText_eq (template : Template) (param : Text) :
    paramText template param =
      "* ".toList ++ '@' :: ("param".toList ++ ' ' :: paramBody template param) := by
  unfold paramText paramBody
  simp only [String.reduceToList, List.append_assoc, List.cons_append, List.nil_append]

/-- A parameter is read off the line that it is written on. -/
theorem all_paramText {template : Template} (ht : template.Quiet) {param : Text} (h : Quiet param) :
    Tag.all (paramText template param) = [paramTag template param] := by
  have hword : ("param".toList, TagKind.param) ∈ Tag.keywords := by decide
  have hbody := quiet_paramBody ht h
  rw [paramText_eq, all_starAt hword hbody.atFree hbody.closerFree]
  rfl

/-- The line of a class has no tag that is read. -/
theorem all_classLine {name : Text} (h : '@' ∉ name) :
    Tag.all ("* @class ".toList ++ name) = [] := by
  have hword : ∀ c ∈ "class".toList, isWord c = true :=
    List.all_eq_true.mp (by decide : "class".toList.all isWord = true)
  have hkind : Tag.kindOf? "class".toList = none := by decide
  have hrest : '@' ∉ ' ' :: name := by simpa using h
  have hend : ∀ c ∈ (' ' :: name).head?, isWord c = false := by
    rintro c ⟨⟩
    decide
  have hsplit : "* @class ".toList ++ name =
      "* ".toList ++ '@' :: ("class".toList ++ ' ' :: name) := by
    simp only [String.reduceToList, List.cons_append, List.nil_append]
  rw [hsplit, all_starOther hword hkind hend hrest]

theorem all_constructorLine : Tag.all "* @constructor".toList = [] := by decide

/-- Every parameter that is not blank has a line with its tag. -/
theorem flatMap_all_paramLines {template : Template} {params : List Text} (ht : template.Quiet)
    (hquiet : ∀ param ∈ params, Quiet param) (htrim : ∀ param ∈ params, trim param = param) :
    (((params.map trim).filter (!·.isEmpty)).map (paramText template)).flatMap Tag.all =
      (params.filter (!allBlank ·)).map (paramTag template) := by
  have hsame : params.map trim = params :=
    (List.map_congr_left (g := id) htrim).trans (List.map_id params)
  have hshown : params.filter (!·.isEmpty) = params.filter (!allBlank ·) := by
    refine List.filter_congr fun param hm => ?_
    rw [← isEmpty_trim, htrim param hm]
  rw [hsame, hshown, List.flatMap_map, List.map_eq_flatMap]
  exact List.flatMap_congr fun param hm =>
    all_paramText ht (hquiet param (List.mem_of_mem_filter hm))

/-- The tags on the lines of a skeleton are those that are written there. -/
theorem flatMap_all_skeletonLines {template : Template} {declaration : Declaration}
    (ht : template.Quiet) (hd : declaration.Quiet)
    (hname : ∀ c ∈ declaration.name.getD [], isBlank c = false)
    (hparams : ∀ param ∈ declaration.params, trim param = param) :
    (skeletonLines template declaration).flatMap Tag.all = writtenTags template declaration := by
  have hopener : Tag.all opener = [] := by decide
  have hcloser : Tag.all closer = [] := by decide
  have hempty : Tag.all ['*'] = [] := by decide
  rw [skeletonLines, List.flatMap_cons, hopener, List.nil_append, List.flatMap_append,
    List.flatMap_singleton, hcloser, List.append_nil, skeletonInner, writtenTags]
  cases declaration.kind with
  | classBody =>
    have hsummary :
        '@' ∉ trim (declaration.name.getD [] ++ [' '] ++ template.paramDescription) := by
      intro hm
      have hm := mem_of_mem_trim hm
      simp [hd.getD.atFree, ht.paramDescription.atFree] at hm
    dsimp only
    rw [List.flatMap_cons, List.flatMap_cons, List.flatMap_cons, List.flatMap_singleton,
      all_star, Tag.all_of_not_mem hsummary, hempty, all_classLine hd.getD.atFree,
      all_constructorLine]
    rfl
  | function | method | arrow =>
    dsimp only
    rw [List.flatMap_append, List.flatMap_cons, List.flatMap_cons, List.flatMap_singleton,
      all_star, Tag.all_of_not_mem ht.description.atFree, hempty, all_methodLine hd.getD hname,
      flatMap_all_paramLines ht hd.params hparams]
    rfl

/-- The tags of the comment for a declaration are read off its trimmed lines: one with
the name, and one for each parameter that is not blank, with the text that is written
for it. -/
theorem tags_check_skeleton {template : Template} {declaration : Declaration} {line inner : Text}
    (hone : template.OneLine) (ht : template.Quiet)
    (hread : Declaration.classify line = some declaration) (hline : '\n' ∉ line)
    (hd : declaration.Quiet) (hi : ∀ c ∈ inner, isBlank c = true) (hinner : '\n' ∉ inner)
    (outer : Text) :
    (check outer ((lines (layout inner (skeleton template declaration))).map trim)).tags =
      writtenTags template declaration := by
  have hlines := lines_skeleton hone (Declaration.takenFrom_of_classify hread) hline
  obtain ⟨kind, before, hfits⟩ := Declaration.exists_fits_of_classify hread
  have hname : ∀ c ∈ declaration.name.getD [], isBlank c = false := by
    cases hn : declaration.name with
    | none => exact fun _ hm => absurd hm List.not_mem_nil
    | some name => exact hfits.solid_name name hn
  rw [check]
  dsimp only
  rw [flatMap_all_layout hi hinner, hlines]
  exact flatMap_all_skeletonLines ht hd hname hfits.trim_param

/-- An arrow function with a default value in braces and a blank parameter. -/
theorem tags_check_skeleton_arrow :
    ∃ (template : Template) (declaration : Declaration) (line : Text),
      template = ⟨"Summary.".toList, "any".toList, "what it is ".toList⟩ ∧
      declaration = ⟨.arrow, some "sum".toList, ["x".toList, "\x7by = 1\x7d".toList, []]⟩ ∧
      line = "export const sum = async (x, \x7by = 1\x7d, ) => \x7b".toList ∧
      template.OneLine ∧ template.Quiet ∧ Declaration.classify line = some declaration ∧
      '\n' ∉ line ∧ declaration.Quiet ∧
      (check [] ((lines (layout ['\t'] (skeleton template declaration))).map trim)).tags =
        [⟨.method, "sum".toList⟩, ⟨.param, "\x7bany\x7d x - what it is".toList⟩,
          ⟨.param, "\x7bany\x7d \x7by = 1\x7d - what it is".toList⟩] := by
  obtain ⟨template, htemplate⟩ : ∃ template : Template,
      template = ⟨"Summary.".toList, "any".toList, "what it is ".toList⟩ := ⟨_, rfl⟩
  obtain ⟨declaration, hdeclaration⟩ : ∃ declaration : Declaration, declaration =
      ⟨.arrow, some "sum".toList, ["x".toList, "\x7by = 1\x7d".toList, []]⟩ := ⟨_, rfl⟩
  obtain ⟨line, hline⟩ : ∃ line : Text,
      line = "export const sum = async (x, \x7by = 1\x7d, ) => \x7b".toList := ⟨_, rfl⟩
  have hone : template.OneLine := by
    rw [htemplate]
    exact ⟨by decide, by decide, by decide⟩
  have hquiet : template.Quiet := by
    rw [htemplate]
    exact ⟨quiet_of_not_mem (by decide) (by decide), quiet_of_not_mem (by decide) (by decide),
      quiet_of_not_mem (by decide) (by decide)⟩
  have hread : Declaration.classify line = some declaration := by
    rw [hline, hdeclaration]
    decide +kernel
  have hfeed : '\n' ∉ line := by
    rw [hline]
    decide
  have hplain : ∀ t ∈ declaration.name.toList ++ declaration.params, '@' ∉ t ∧ '*' ∉ t := by
    rw [hdeclaration]
    decide
  have hd : declaration.Quiet := by
    constructor
    · intro name hm
      have hin := hplain name (List.mem_append_left _ (Option.mem_toList.mpr hm))
      exact quiet_of_not_mem hin.1 hin.2
    · intro param hm
      have hin := hplain param (List.mem_append_right _ hm)
      exact quiet_of_not_mem hin.1 hin.2
  have htab : ∀ c ∈ ['\t'], isBlank c = true := List.forall_mem_singleton.mpr (by decide)
  have htags := tags_check_skeleton hone hquiet hread hfeed hd htab (by decide) []
  refine ⟨template, declaration, line, htemplate, hdeclaration, hline, hone, hquiet, hread, hfeed,
    hd, htags.trans ?_⟩
  rw [htemplate, hdeclaration]
  decide +kernel

end Comment

end Docblock
