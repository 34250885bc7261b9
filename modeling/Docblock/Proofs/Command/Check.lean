import Docblock.Proofs.Command.Confined
import Docblock.Proofs.Scan.Count
import Docblock.Proofs.Scan.Whole
import Docblock.Proofs.Text.Digits

/-!
# The check of a file

The check fails exactly where `generate` would insert something, and its output
has one line for each of the insertions. After `generate` has written a file there
is nothing left to insert, so the check is content with it. Only a settings file
that is documented itself may say something else afterwards, or nothing readable.
-/

namespace Docblock

open Text

/-- What the check prints for a line that misses a comment. -/
def missingText (file : Text) (number : Nat) : Text :=
  "  - ".toList ++ file ++ [':'] ++ Text.ofNat (number + 1) ++ " is missing a comment".toList

/-- A report on a missing comment stays on one line when the name of the file does. -/
theorem missingText_oneLine {file : Text} (h : '\n' ∉ file) (number : Nat) :
    '\n' ∉ missingText file number := by
  have hdigits : '\n' ∉ Text.ofNat (number + 1) := fun hm =>
    absurd (isDigit_of_mem_ofNat hm) (by decide)
  unfold missingText
  simp only [List.mem_append, not_or]
  exact ⟨⟨⟨⟨by decide, h⟩, by decide⟩, hdigits⟩, by decide⟩

/-- For an insertion the number of its line is reported. -/
theorem missingLine_of_insert {edit : Edit} (h : edit.replacesUntil = none) (file : Text) :
    missingLine file edit = missingText file edit.position.line ++ ['\n'] := by
  have hend : " is missing a comment\n".toList = " is missing a comment".toList ++ ['\n'] := rfl
  unfold missingText
  rw [missingLine, h, hend, List.append_assoc _ _ ['\n']]
  rfl

/-- The check prints a line for each insertion. -/
theorem flatMap_missingLine (file : Text) (report : Report) :
    report.edits.flatMap (missingLine file) =
      unlines (report.insertedLines.map (missingText file)) := by
  rw [Report.insertedLines]
  induction report.edits with
  | nil => rfl
  | cons edit rest ih =>
    rw [List.flatMap_cons, ih, List.filterMap_cons]
    cases h : edit.replacesUntil with
    | none =>
      rw [missingLine_of_insert h, List.append_assoc, List.singleton_append, ← unlines_cons]
      rfl
    | some stop =>
      rw [missingLine, h]
      rfl

/-- No failure to document a file says that declarations miss comments. -/
theorem documentAt_ne_undocumented {look : Text → Entry} {config file path : Text}
    {lines : Option Text} {count : Nat} :
    documentAt look config file lines ≠ .error (.undocumented count path) := by
  intro h
  rcases documentAt_eq_error h with hload | hselect | hread | ⟨error, herror⟩
  · rw [loadSettings] at hload
    split at hload
    · cases hload
    · split at hload
      · cases hload
      · split at hload <;> cases hload
  · rw [selectLines.eq_def] at hselect
    split at hselect
    · cases hselect
    · split at hselect <;> cases hselect
  · rw [readFile] at hread
    split at hread <;> cases hread
  · cases error <;> cases herror

/-- Only files in an enabled language are documented. -/
theorem accepts_of_documentFile {settings : Settings} {path content : Text}
    {selected : Option LineRange} {documented : Documented}
    (h : documentFile settings path content selected = .ok documented) :
    settings.scan.accepts (languageOfPath path) = true := by
  by_contra haccepts
  rw [Bool.not_eq_true] at haccepts
  have herror : (Document.ofFile path content).documented settings selected = _ :=
    Document.documented_of_not_accepts selected haccepts
  rw [documentFile, herror] at h
  cases h

namespace Workspace

variable {workspace : Workspace} {config file : Text} {display : Display}
variable {options : GenerateOptions} {documented : Documented}

/-- A check writes nothing, so it shows and answers what it planned. -/
theorem run_check (workspace : Workspace) (config : Text) (display : Display) (file : Text) :
    workspace.run config display (.check file) =
      ⟨workspace, (Plan.check workspace.look config file).before ++
        (Plan.check workspace.look config file).after,
        (Plan.check workspace.look config file).result⟩ :=
  perform_of_write_eq_none (Plan.write_check workspace.look config file)

/-- A check of a file that can be documented fails when something is to be inserted. -/
theorem run_check_of_generated (h : documentAt workspace.look config file none = .ok documented)
    (hsome : 0 < documented.report.tally.generated) :
    (workspace.run config display (.check file)).result =
        .error (.undocumented documented.report.tally.generated file) ∧
      (workspace.run config display (.check file)).trace.output =
        documented.report.edits.flatMap (missingLine file) := by
  rw [run_check, Plan.check, h]
  dsimp only
  rw [if_pos hsome]
  exact ⟨rfl, List.append_nil _⟩

/-- A check passes when nothing would be generated. -/
theorem run_check_of_not_generated
    (h : documentAt workspace.look config file none = .ok documented)
    (hnone : documented.report.tally.generated = 0) :
    (workspace.run config display (.check file)).result = .ok () := by
  rw [run_check, Plan.check, h]
  dsimp only
  rw [if_neg (by rw [hnone]; exact Nat.lt_irrefl 0)]

/-- A check misses comments exactly where the file can be documented and something
is to be inserted. -/
theorem run_check_eq_undocumented_iff {count : Nat} :
    (workspace.run config display (.check file)).result = .error (.undocumented count file) ↔
      ∃ documented, documentAt workspace.look config file none = .ok documented ∧
        documented.report.tally.generated = count ∧ 0 < count := by
  constructor
  · intro h
    cases hd : documentAt workspace.look config file none with
    | error failure =>
      rw [run_check, Plan.check, hd] at h
      have hfailure : failure = .undocumented count file := Except.error.inj h
      rw [hfailure] at hd
      exact absurd hd documentAt_ne_undocumented
    | ok documented =>
      rcases Nat.eq_zero_or_pos documented.report.tally.generated with hnone | hsome
      · rw [run_check_of_not_generated hd hnone] at h
        cases h
      · rw [(run_check_of_generated hd hsome).1] at h
        cases h
        exact ⟨documented, rfl, rfl, hsome⟩
  · rintro ⟨documented, hd, rfl, hsome⟩
    exact (run_check_of_generated hd hsome).1

/-- A dry run answers with the counts of the documented file. -/
theorem result_generate_of_dryRun_iff (hdry : options.dryRun = true) {tally : Tally} :
    (workspace.generate config display file options).result = .ok tally ↔
      ∃ documented, documentAt workspace.look config file options.lines = .ok documented ∧
        documented.report.tally = tally := by
  rw [generate, perform_of_write_eq_none (Plan.write_generate_of_dryRun workspace.look hdry)]
  exact Plan.result_generate_eq_ok_iff

/-- A second run over a documented file generates nothing, also with other
settings as long as they skip documented declarations. -/
theorem generated_eq_zero_of_documented {settings later : Settings} {content : Text}
    {documented again : Documented} (hskip : settings.scan.skipDocumented = true)
    (ht : settings.template.OneLine)
    (h : documentFile settings file content none = .ok documented)
    (hskip' : later.scan.skipDocumented = true)
    (h' : documentFile later file documented.content none = .ok again) :
    again.report.tally.generated = 0 := by
  have haccepts := accepts_of_documentFile h
  have haccepts' := accepts_of_documentFile h'
  obtain ⟨one, hone, hcontent, _⟩ :=
    Document.documented_whole settings (languageOfPath file) content hskip haccepts
  obtain ⟨two, htwo, _, htally⟩ :=
    Document.documented_whole later (languageOfPath file) documented.content hskip' haccepts'
  obtain rfl : documented = one := Except.ok.inj (h.symm.trans hone)
  obtain rfl : again = two := Except.ok.inj (h'.symm.trans htwo)
  obtain ⟨hsegments, _⟩ :=
    Document.segments_documented hskip ht (languageOfPath file) content hcontent
  rw [htally, hsegments]
  exact (Segment.repeats_documentedAll ht
    (Document.oneLine_of_mem_segments (languageOfPath file) content)).generated

/-- After a successful run of `generate` the settings are what they were, unless
the documented file is their own. -/
theorem look_config_generate
    (h : workspace.place? config ≠ workspace.place? file) :
    (workspace.run config display (.generate file options)).workspace.look config =
      workspace.look config := by
  apply (workspace.changesOnly_run config display (.generate file options)).look
  rintro place hplace ⟨output, houtput, hreached⟩
  rw [Command.output?] at houtput
  split at houtput
  · cases houtput
  · cases houtput
    exact h (hplace.trans hreached.symm)

/-- How the check of a file and the runs of `generate` on it agree. -/
structure Agrees (workspace : Workspace) (config : Text) (display : Display) (file : Text) :
    Prop where
  /-- The check counts what a dry run of the whole file generates. -/
  undocumented : ∀ (options : GenerateOptions) (count : Nat), options.lines = none →
    options.dryRun = true →
    ((workspace.run config display (.check file)).result = .error (.undocumented count file) ↔
      ∃ tally, (workspace.generate config display file options).result = .ok tally ∧
        tally.generated = count ∧ 0 < count)
  /-- It prints one line for each line that something is to be inserted above,
  from top to bottom. -/
  printed : ∀ count : Nat,
    (workspace.run config display (.check file)).result = .error (.undocumented count file) →
    ∃ (documented : Documented) (numbers : List Nat),
      documentAt workspace.look config file none = .ok documented ∧
      numbers.length = count ∧ numbers.Pairwise (· < ·) ∧
      (∀ number, number ∈ numbers ↔ documented.report.InsertsAt number) ∧
      (workspace.run config display (.check file)).trace.output =
        unlines (numbers.map (missingText file)) ∧
      ('\n' ∉ file →
        (lines (workspace.run config display (.check file)).trace.output).length = count)
  /-- It succeeds after a run of `generate` on the whole file. Only if the file is
  the settings file, the run may leave settings that say otherwise. -/
  checked : ∀ (settings : Settings) (options : GenerateOptions) (tally : Tally),
    loadSettings workspace.look config = .ok settings →
    settings.scan.skipDocumented = true → settings.template.OneLine →
    options.lines = none → options.dryRun = false →
    (workspace.generate config display file options).result = .ok tally →
    (workspace.place? config = workspace.place? file →
      ∃ later, loadSettings
          (workspace.run config display (.generate file options)).workspace.look config =
            .ok later ∧
        later.scan.skipDocumented = true ∧
        later.scan.accepts (languageOfPath file) = true) →
    ((workspace.run config display (.generate file options)).workspace.run config display
      (.check file)).result = .ok ()

/-- The check of a file and the runs of `generate` on it agree in every workspace. -/
theorem agrees (workspace : Workspace) (config : Text) (display : Display) (file : Text) :
    workspace.Agrees config display file where
  undocumented := by
    intro options count hlines hdry
    rw [run_check_eq_undocumented_iff]
    simp only [result_generate_of_dryRun_iff hdry, hlines]
    constructor
    · rintro ⟨documented, hd, hcount, hsome⟩
      exact ⟨documented.report.tally, ⟨documented, hd, rfl⟩, hcount, hsome⟩
    · rintro ⟨_, ⟨documented, hd, rfl⟩, hcount, hsome⟩
      exact ⟨documented, hd, hcount, hsome⟩
  printed := by
    intro count h
    obtain ⟨documented, hd, rfl, hsome⟩ := run_check_eq_undocumented_iff.mp h
    obtain ⟨settings, selected, content, _, _, _, hfile⟩ := documentAt_eq_ok_iff.mp hd
    obtain ⟨hcount, hpairwise⟩ := Scan.counts_report (documentFile_eq_ok hfile).1
    have houtput : (workspace.run config display (.check file)).trace.output = _ :=
      (run_check_of_generated hd hsome).2
    rw [flatMap_missingLine] at houtput
    refine ⟨documented, documented.report.insertedLines, hd, hcount.symm, hpairwise,
      fun number => Report.mem_insertedLines_iff, houtput, fun hname => ?_⟩
    have hlines : ∀ l ∈ documented.report.insertedLines.map (missingText file), '\n' ∉ l := by
      rw [List.forall_mem_map]
      exact fun number _ => missingText_oneLine hname number
    rw [houtput, lines_unlines hlines, List.length_map, hcount]
  checked := by
    intro settings options tally hsettings hskip ht hlines hdry hok hconfig
    obtain ⟨documented, hd, _, hlook⟩ := look_generate hdry hok
    rw [hlines] at hd
    obtain ⟨loaded, selected, content, hload, hselected, _, hfile⟩ := documentAt_eq_ok_iff.mp hd
    obtain rfl : settings = loaded := Except.ok.inj (hsettings.symm.trans hload)
    obtain rfl : none = selected := Except.ok.inj hselected
    obtain ⟨later, hload', hskip', haccepts'⟩ : ∃ later, loadSettings
        (workspace.run config display (.generate file options)).workspace.look config =
          .ok later ∧
        later.scan.skipDocumented = true ∧ later.scan.accepts (languageOfPath file) = true := by
      by_cases hplace : workspace.place? config = workspace.place? file
      · exact hconfig hplace
      · refine ⟨settings, ?_, hskip, accepts_of_documentFile hfile⟩
        rw [loadSettings, look_config_generate hplace]
        exact hsettings
    have hlook' : (workspace.run config display (.generate file options)).workspace.look file =
        .file (some documented.content) := by
      rw [run_generate]
      exact hlook
    obtain ⟨again, hagain, _⟩ := Document.documented_whole later (languageOfPath file)
      documented.content hskip' haccepts'
    have hd' : documentAt (workspace.run config display (.generate file options)).workspace.look
        config file none = .ok again :=
      documentAt_eq_ok_iff.mpr ⟨later, none, documented.content, hload', rfl, hlook', hagain⟩
    exact run_check_of_not_generated hd'
      (generated_eq_zero_of_documented hskip ht hfile hskip' hagain)

/-- A check that fails for two declarations, and passes once they are documented. It skips
those below a comment, as the default settings do. -/
theorem agrees_generate :
    ∃ workspace : Workspace,
      workspace = ⟨"/w".toList,
        [(["a.js".toList], .file (some "f(a) \x7b\n\x7d\ng() \x7b\n".toList))]⟩ ∧
      (workspace.run "c.toml".toList {} (.check "a.js".toList)).result =
        .error (.undocumented 2 "a.js".toList) ∧
      (lines (workspace.run "c.toml".toList {} (.check "a.js".toList)).trace.output).length = 2 ∧
      ((workspace.run "c.toml".toList {} (.generate "a.js".toList {})).workspace.run
        "c.toml".toList {} (.check "a.js".toList)).result = .ok () := by
  obtain ⟨workspace, hworkspace⟩ : ∃ workspace : Workspace, workspace = ⟨"/w".toList,
      [(["a.js".toList], .file (some "f(a) \x7b\n\x7d\ng() \x7b\n".toList))]⟩ := ⟨_, rfl⟩
  have hagrees := workspace.agrees "c.toml".toList {} "a.js".toList
  have hok (dry : Bool) : (workspace.generate "c.toml".toList {} "a.js".toList
      { dryRun := dry }).result = .ok { generated := 2 } := by
    rw [hworkspace]
    cases dry <;> decide +kernel
  have hload : loadSettings workspace.look "c.toml".toList = .ok {} := by
    rw [hworkspace]
    decide +kernel
  have hplace : workspace.place? "c.toml".toList ≠ workspace.place? "a.js".toList := by
    rw [hworkspace]
    decide +kernel
  have hcheck := (hagrees.undocumented { dryRun := true } 2 rfl rfl).mpr
    ⟨_, hok true, rfl, by decide⟩
  obtain ⟨_, _, _, _, _, _, _, hlines⟩ := hagrees.printed 2 hcheck
  refine ⟨workspace, hworkspace, hcheck, hlines (by decide), ?_⟩
  exact hagrees.checked {} { dryRun := false } _ hload rfl ⟨by decide, by decide, by decide⟩ rfl rfl
    (hok false) fun heq => absurd heq hplace

/-- A settings file that is documented itself can no longer be read. -/
theorem exists_check_fails_after_generate :
    ∃ workspace : Workspace,
      workspace =
        ⟨"/w".toList, [(["c.js".toList], .file (some "# function f(a) \x7b\n".toList))]⟩ ∧
      loadSettings workspace.look "c.js".toList = .ok {} ∧
      (workspace.generate "c.js".toList {} "c.js".toList {}).result = .ok { generated := 1 } ∧
      ((workspace.run "c.js".toList {} (.generate "c.js".toList {})).workspace.run
        "c.js".toList {} (.check "c.js".toList)).result = .error .configMalformed := by
  obtain ⟨workspace, hworkspace⟩ : ∃ workspace : Workspace, workspace =
      ⟨"/w".toList, [(["c.js".toList], .file (some "# function f(a) \x7b\n".toList))]⟩ := ⟨_, rfl⟩
  refine ⟨workspace, hworkspace, ?_, ?_, ?_⟩ <;> rw [hworkspace] <;> decide +kernel

end Workspace

end Docblock
