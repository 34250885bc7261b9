import Docblock.Proofs.Toml.Reader
import Docblock.Settings.File

/-!
# Settings are read back

What is written for settings is read as the same settings. The version stands in
front of both sections, every key is written, and the reader finds each of them
under its name.
-/

namespace Docblock

open Toml

/-! ## Lines -/

/-- The lines of the section. -/
def Template.lines (template : Template) : List Assignment :=
  [.ofString "description".toList template.description,
    .ofString "param_type".toList template.paramType,
    .ofString "param_description".toList template.paramDescription]

/-- The lines of the section. -/
def ScanPolicy.lines (policy : ScanPolicy) : List Assignment :=
  [.ofStrings "languages".toList policy.languages,
    .ofBool "normalize_existing".toList policy.normalizeExisting,
    .ofBool "skip_documented".toList policy.skipDocumented]

/-- The lines in front of the sections. -/
def Settings.lines (settings : Settings) : List Assignment :=
  [.ofString "version".toList settings.version]

/-- Every key of the section has its line. -/
theorem Template.map_lines (template : Template) :
    (template.lines.map Assignment.entry).map Prod.fst = Template.keys := rfl

theorem ScanPolicy.map_lines (policy : ScanPolicy) :
    (policy.lines.map Assignment.entry).map Prod.fst = ScanPolicy.keys := rfl

/-- The lines of a template can be read. -/
theorem Template.legible (template : Template) : ∀ line ∈ template.lines, line.Legible := by
  simp only [lines, List.forall_mem_cons]
  exact ⟨Assignment.legible_ofString (by decide) _,
    Assignment.legible_ofString (by decide) _,
    Assignment.legible_ofString (by decide) _, fun _ h => nomatch h⟩

/-- The lines of a scan policy can be read. -/
theorem ScanPolicy.legible (policy : ScanPolicy) : ∀ line ∈ policy.lines, line.Legible := by
  simp only [lines, List.forall_mem_cons]
  exact ⟨Assignment.legible_ofStrings (by decide) _,
    Assignment.legible_ofBool (by decide) _,
    Assignment.legible_ofBool (by decide) _, fun _ h => nomatch h⟩

/-- The lines above the sections can be read. -/
theorem Settings.legible (settings : Settings) : ∀ line ∈ settings.lines, line.Legible := by
  simp only [lines, List.forall_mem_cons]
  exact ⟨Assignment.legible_ofString (by decide) _, fun _ h => nomatch h⟩

/-! ## Tables -/

/-- A section is read from the entries of its lines. -/
theorem Template.ofValue?_lines (template : Template) :
    Template.ofValue? (.table .header (template.lines.map Assignment.entry)) = some template := rfl

/-- An array of strings is read as their texts. -/
theorem texts?_array (items : List Text) :
    Value.texts? (.array (items.map .string)) = some items := by
  rw [Value.texts?]
  induction items with
  | nil => rfl
  | cons item items ih =>
    rw [List.map_cons, List.mapM_cons, ih]
    rfl

/-- So is the section for the scan. -/
theorem ScanPolicy.ofValue?_lines (policy : ScanPolicy) :
    ScanPolicy.ofValue? (.table .header (policy.lines.map Assignment.entry)) = some policy := by
  show (Value.texts? (.array (policy.languages.map .string))).bind
    (fun languages => some { policy with languages }) = _
  rw [texts?_array]
  rfl

namespace Settings

/-- The outermost table of a settings file. -/
def entries (settings : Settings) : Entries :=
  settings.lines.map Assignment.entry ++
    [("template".toList, .table .header (settings.template.lines.map Assignment.entry))] ++
    [("scan".toList, .table .header (settings.scan.lines.map Assignment.entry))]

/-- A settings file is its lines, then two headers with the lines of each section. -/
theorem toToml_eq (settings : Settings) :
    settings.toToml = settings.lines.flatMap Assignment.text ++
      (headerText "template".toList ++ (settings.template.lines.flatMap Assignment.text ++
      (headerText "scan".toList ++ (settings.scan.lines.flatMap Assignment.text ++ [])))) := by
  simp only [toToml, lines, Template.lines, ScanPolicy.lines, List.flatMap_cons, List.flatMap_nil,
    List.append_nil, List.append_assoc]
  rfl

/-- The file denotes its lines in front of both sections, and each section as a table
of its own lines. -/
theorem parse?_toToml (settings : Settings) : parse? settings.toToml = some settings.entries := by
  have hfreshScan : Entries.Fresh "scan".toList (settings.lines.map Assignment.entry ++
      [("template".toList, .table .header (settings.template.lines.map Assignment.entry))]) := by
    show "scan".toList ∉ ["version".toList, "template".toList]
    decide
  have hfreshTemplate : Entries.Fresh "template".toList (settings.lines.map Assignment.entry) := by
    show "template".toList ∉ ["version".toList]
    decide
  have hend : Reads ⟨settings.entries, ["scan".toList]⟩ [] settings.entries := reads_nil _
  have hscan : Reads ⟨_, ["template".toList]⟩ _ settings.entries :=
    hend.section (by decide) hfreshScan settings.scan.legible
      (settings.scan.map_lines ▸ by decide)
  have htemplate : Reads ⟨_, []⟩ _ settings.entries :=
    hscan.section (by decide) hfreshTemplate
      settings.template.legible (settings.template.map_lines ▸ by decide)
  have hlines : Reads {} _ settings.entries :=
    htemplate.lines Entries.hosts_root [] settings.legible (List.pairwise_singleton _ _)
  rw [toToml_eq]
  exact hlines.parse? rfl

/-- Settings are read back from the file that is written for them. -/
theorem ofToml?_toToml (settings : Settings) : ofToml? settings.toToml = some settings := by
  have hversion : settings.entries.lookup "version".toList = some (.string settings.version) := rfl
  have htemplate : settings.entries.lookup "template".toList =
      some (.table .header (settings.template.lines.map Assignment.entry)) := rfl
  have hscan : settings.entries.lookup "scan".toList =
      some (.table .header (settings.scan.lines.map Assignment.entry)) := rfl
  rw [ofToml?, parse?_toToml, Option.bind_some, ofEntries?, hversion, htemplate, hscan]
  simp only [readOr, Template.ofValue?_lines, ScanPolicy.ofValue?_lines]
  rfl

end Settings

end Docblock
