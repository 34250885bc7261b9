import Docblock.Proofs.Document.Rows
import Docblock.Proofs.Workspace.Change

/-!
# What plans write

A command has at most one file to write, and once that is written it cannot
fail any more. So carrying out its plan either changes nothing or changes the
place of that file, and a failure always leaves everything as it was.
-/

namespace Docblock

/-! ## Documenting the file at a path -/

/-- Only a file with text can be read. -/
theorem readFile_eq_ok_iff {look : Text → Entry} {path content : Text} :
    readFile look path = .ok content ↔ look path = .file (some content) := by
  rw [readFile]
  cases look path with
  | missing => simp [Entry.text?]
  | directory => simp [Entry.text?]
  | file found => cases found <;> simp [Entry.text?]

/-- A file is documented with the settings, the selection and the content that are read. -/
theorem documentAt_eq_ok_iff {look : Text → Entry} {config file : Text} {lines : Option Text}
    {documented : Documented} :
    documentAt look config file lines = .ok documented ↔
      ∃ settings selected content, loadSettings look config = .ok settings ∧
        selectLines lines = .ok selected ∧ look file = .file (some content) ∧
        documentFile settings file content selected = .ok documented := by
  simp only [← readFile_eq_ok_iff]
  rw [documentAt]
  cases loadSettings look config with
  | error failure => simp [bind, Except.bind]
  | ok settings =>
    cases selectLines lines with
    | error failure => simp [bind, Except.bind]
    | ok selected =>
      cases readFile look file with
      | error failure => simp [bind, Except.bind]
      | ok content =>
        cases hd : documentFile settings file content selected with
        | error error => simp [bind, Except.bind, Except.mapError, hd]
        | ok found => simp [bind, Except.bind, Except.mapError, hd]

/-- A failure to document a file is the failure of one of its steps. -/
theorem documentAt_eq_error {look : Text → Entry} {config file : Text} {lines : Option Text}
    {failure : Failure} (h : documentAt look config file lines = .error failure) :
    loadSettings look config = .error failure ∨ selectLines lines = .error failure ∨
      readFile look file = .error failure ∨
      ∃ error, Failure.ofDocumentError file error = failure := by
  rw [documentAt] at h
  cases hs : loadSettings look config with
  | error found =>
    rw [hs] at h
    cases h
    exact .inl rfl
  | ok settings =>
    rw [hs] at h
    cases hl : selectLines lines with
    | error found =>
      rw [hl] at h
      cases h
      exact .inr (.inl rfl)
    | ok selected =>
      rw [hl] at h
      cases hr : readFile look file with
      | error found =>
        rw [hr] at h
        cases h
        exact .inr (.inr (.inl rfl))
      | ok content =>
        rw [hr] at h
        simp only [bind, Except.bind] at h
        cases hd : documentFile settings file content selected with
        | error error =>
          rw [hd] at h
          exact .inr (.inr (.inr ⟨error, Except.error.inj h⟩))
        | ok documented =>
          rw [hd] at h
          cases h

/-- A documented file has the reported edits. -/
theorem documentFile_eq_ok {settings : Settings} {path content : Text}
    {selected : Option LineRange} {documented : Documented}
    (h : documentFile settings path content selected = .ok documented) :
    Scan.report settings (Document.ofFile path content).toSource selected =
        .ok documented.report ∧
      (Document.ofFile path content).apply documented.report.edits = .ok documented.content := by
  rw [documentFile, Document.documented] at h
  cases hr : Scan.report settings (Document.ofFile path content).toSource selected with
  | error refusal =>
    rw [hr] at h
    cases h
  | ok report =>
    rw [hr] at h
    dsimp only at h
    cases ha : (Document.ofFile path content).apply report.edits with
    | error error =>
      rw [ha] at h
      cases h
    | ok out =>
      rw [ha] at h
      cases h
      exact ⟨rfl, ha⟩

/-- Without edits a file keeps its content. -/
theorem content_of_edits_eq_nil {settings : Settings} {path content : Text}
    {selected : Option LineRange} {documented : Documented}
    (h : documentFile settings path content selected = .ok documented)
    (hedits : documented.report.edits = []) : documented.content = content := by
  have happly := (documentFile_eq_ok h).2
  have hnone : (Document.ofFile path content).apply [] =
      .ok (Document.ofFile path content).content := rfl
  rw [hedits, hnone] at happly
  rw [← Except.ok.inj happly]
  exact Row.content_ofText content

/-! ## Carrying out a plan -/

namespace Plan

variable {α : Type} {plan : Plan α} {workspace written : Workspace}

/-- Whether a plan cannot fail once its write is done. -/
def Atomic (plan : Plan α) : Prop := ∀ write ∈ plan.write, ∃ answer, plan.result = .ok answer

/-- A plan without a write has nothing to undo. -/
theorem atomic_of_write_eq_none (h : plan.write = none) : plan.Atomic := by
  intro write hwrite
  rw [h] at hwrite
  cases hwrite

/-- A plan that succeeds need not undo anything. -/
theorem atomic_of_result_eq_ok {answer : α} (h : plan.result = .ok answer) : plan.Atomic :=
  fun _ _ => ⟨answer, h⟩

/-- Leaving the answer out keeps a plan atomic. -/
theorem Atomic.done (h : plan.Atomic) : plan.done.Atomic := by
  intro write hwrite
  obtain ⟨answer, hanswer⟩ := h write hwrite
  exact ⟨(), by rw [Plan.done, hanswer]; rfl⟩

end Plan

namespace Workspace

variable {α : Type} {plan : Plan α} {workspace : Workspace} {write : Write} {failure : Failure}

/-- A plan without a write leaves the workspace alone. -/
theorem perform_of_write_eq_none (h : plan.write = none) :
    workspace.perform plan = ⟨workspace, plan.before ++ plan.after, plan.result⟩ := by
  rw [perform, h]

/-- Carrying out a plan is nothing but showing, or a write that is done, or a
write that is refused. -/
theorem perform_cases (workspace : Workspace) (plan : Plan α) :
    (plan.write = none ∧
      workspace.perform plan = ⟨workspace, plan.before ++ plan.after, plan.result⟩) ∨
    (∃ write written, plan.write = some write ∧
      workspace.write? write.path write.content = some written ∧
      workspace.perform plan = ⟨written, plan.before ++ plan.after, plan.result⟩) ∨
    (∃ write, plan.write = some write ∧
      workspace.perform plan = ⟨workspace, plan.before, .error write.refused⟩) := by
  cases hw : plan.write with
  | none => exact .inl ⟨rfl, perform_of_write_eq_none hw⟩
  | some write =>
    rw [perform, hw]
    dsimp only
    cases hwritten : workspace.write? write.path write.content with
    | some written => exact .inr (.inl ⟨write, written, rfl, hwritten, rfl⟩)
    | none => exact .inr (.inr ⟨write, rfl, rfl⟩)

/-- Leaving out the answer changes nothing else. -/
theorem perform_done (workspace : Workspace) (plan : Plan α) :
    workspace.perform plan.done = ⟨(workspace.perform plan).workspace,
      (workspace.perform plan).trace, (workspace.perform plan).result.map fun _ => ()⟩ := by
  rw [perform, perform, Plan.done]
  cases plan.write with
  | none => rfl
  | some write =>
    dsimp only
    cases workspace.write? write.path write.content with
    | none => rfl
    | some written => rfl

/-- Carrying out a plan changes only the place of the file it writes. -/
theorem changesOnly_perform (workspace : Workspace) (plan : Plan α) :
    ChangesOnly (fun place => ∃ write ∈ plan.write, workspace.place? write.path = some place)
      workspace (workspace.perform plan).workspace := by
  obtain ⟨_, heq⟩ | ⟨write, written, hw, hwritten, heq⟩ | ⟨write, _, heq⟩ :=
    workspace.perform_cases plan
  · rw [heq]
    exact ChangesOnly.refl _ workspace
  · rw [heq]
    exact (changesOnly_of_write? hwritten).mono fun place hplace => ⟨write, hw, hplace⟩
  · rw [heq]
    exact ChangesOnly.refl _ workspace

/-- A failure of a plan that cannot fail after its write leaves everything as it was. -/
theorem perform_of_result_eq_error (h : plan.Atomic)
    (hfail : (workspace.perform plan).result = .error failure) :
    (workspace.perform plan).workspace = workspace := by
  obtain ⟨_, heq⟩ | ⟨write, written, hw, _, heq⟩ | ⟨write, _, heq⟩ := workspace.perform_cases plan
  · rw [heq]
  · obtain ⟨answer, hanswer⟩ := h write hw
    rw [heq, hanswer] at hfail
    cases hfail
  · rw [heq]

/-- A plan whose write is not refused shows all it has to show and ends as planned. -/
theorem perform_of_not_refused
    (h : ∀ write ∈ plan.write, (workspace.perform plan).result ≠ .error write.refused) :
    (workspace.perform plan).trace = plan.before ++ plan.after ∧
      (workspace.perform plan).result = plan.result := by
  obtain ⟨_, heq⟩ | ⟨write, written, _, _, heq⟩ | ⟨write, hw, heq⟩ := workspace.perform_cases plan
  · rw [heq]
    exact ⟨rfl, rfl⟩
  · rw [heq]
    exact ⟨rfl, rfl⟩
  · exact absurd (congrArg Outcome.result heq) (h write hw)

end Workspace

/-! ## What the commands plan -/

namespace Plan

variable {look : Text → Entry} {config file : Text} {display : Display}
variable {options : GenerateOptions}

/-- Settings that are there stay as they are. -/
theorem write_init_of_ne_missing (h : look config ≠ .missing) :
    (Plan.init look config).write = none := by
  cases hc : look config with
  | missing => exact absurd hc h
  | directory | file content =>
    rw [Plan.init, Plan.ensureSettings, hc]
    rfl

/-- Only the settings file is written when settings are set up. -/
theorem write_init (look : Text → Entry) (config : Text) {write : Write}
    (h : write ∈ (Plan.init look config).write) : write.path ∈ some config := by
  by_cases hc : look config = .missing
  · rw [Plan.init, Plan.ensureSettings, hc] at h
    cases h
    rfl
  · rw [write_init_of_ne_missing hc] at h
    cases h

/-- Setting up settings always succeeds, whether the file is there or not. -/
theorem result_init (look : Text → Entry) (config : Text) :
    (Plan.init look config).result = .ok () := by
  cases hc : look config with
  | missing | directory | file content =>
    rw [Plan.init, Plan.ensureSettings, hc]
    rfl

/-- What `generate` writes is the documented content, and only in a run that is not dry. -/
theorem write_generate {write : Write}
    (h : write ∈ (Plan.generate look config display file options).write) :
    ∃ documented, documentAt look config file options.lines = .ok documented ∧
      write = ⟨file, documented.content, .unwritable file⟩ ∧ options.dryRun = false := by
  rw [Plan.generate] at h
  cases hd : documentAt look config file options.lines with
  | error failure =>
    rw [hd] at h
    cases h
  | ok documented =>
    rw [hd] at h
    dsimp only at h
    split at h
    · cases h
    · rename_i hwrites
      cases h
      rw [Bool.or_eq_true, not_or, Bool.not_eq_true] at hwrites
      exact ⟨documented, rfl, rfl, hwrites.1⟩

/-- A check writes nothing. -/
theorem write_check (look : Text → Entry) (config file : Text) :
    (Plan.check look config file).write = none := by
  rw [Plan.check]
  cases documentAt look config file none with
  | error failure => rfl
  | ok documented =>
    dsimp only
    split <;> rfl

/-- Looking at settings writes nothing. -/
theorem write_validateConfig (look : Text → Entry) (config : Text) :
    (Plan.validateConfig look config).write = none := by
  rw [Plan.validateConfig]
  split <;> rfl

/-- A dry run writes nothing. -/
theorem write_generate_of_dryRun (look : Text → Entry) (hdry : options.dryRun = true) :
    (Plan.generate look config display file options).write = none := by
  rw [Option.eq_none_iff_forall_not_mem]
  intro write hwrite
  obtain ⟨documented, _, _, hreal⟩ := write_generate hwrite
  rw [hdry] at hreal
  cases hreal

/-- A run of `generate` that is not dry and has nothing to write has no edits. -/
theorem edits_eq_nil_of_write_generate {documented : Documented}
    (hdocumented : documentAt look config file options.lines = .ok documented)
    (hdry : options.dryRun = false)
    (h : (Plan.generate look config display file options).write = none) :
    documented.report.edits = [] := by
  rw [Plan.generate, hdocumented] at h
  dsimp only at h
  rw [hdry, Bool.false_or] at h
  split at h
  · rename_i hempty
    exact List.isEmpty_iff.mp hempty
  · cases h

/-- What `generate` answers, whether or not the run is dry. -/
theorem result_generate_eq_ok_iff {tally : Tally} :
    (Plan.generate look config display file options).result = .ok tally ↔
      ∃ documented, documentAt look config file options.lines = .ok documented ∧
        documented.report.tally = tally := by
  rw [Plan.generate]
  cases documentAt look config file options.lines with
  | error failure => simp [Plan.fail]
  | ok documented => simp

/-- What `generate` answers and prints does not tell whether the run is dry. -/
theorem generate_congr (look : Text → Entry) {other : GenerateOptions}
    (hlines : other.lines = options.lines) (hjson : other.json = options.json) :
    (Plan.generate look config display file other).result =
        (Plan.generate look config display file options).result ∧
      ((Plan.generate look config display file other).before ++
          (Plan.generate look config display file other).after).output =
        ((Plan.generate look config display file options).before ++
          (Plan.generate look config display file options).after).output := by
  rw [Plan.generate, Plan.generate, hlines, hjson]
  cases documentAt look config file options.lines with
  | error failure => exact ⟨rfl, rfl⟩
  | ok documented => exact ⟨rfl, rfl⟩

end Plan

/-! ## What a command may write -/

namespace Command

variable {look : Text → Entry} {config : Text} {display : Display}

/-- The file a command may write. -/
def output? (config : Text) : Command → Option Text
  | init => some config
  | generate file options => if options.dryRun then none else some file
  | exportConfig file _ => some file
  | check _ => none
  | validateConfig => none

/-- A command writes no other file than the one it may write. -/
theorem mem_output?_of_write (command : Command) {write : Write}
    (h : write ∈ (command.plan look config display).write) :
    write.path ∈ command.output? config := by
  cases command with
  | init => exact Plan.write_init look config h
  | generate file options =>
    obtain ⟨documented, _, rfl, hdry⟩ := Plan.write_generate h
    rw [output?, hdry]
    rfl
  | check file =>
    rw [plan, Plan.write_check] at h
    cases h
  | validateConfig =>
    rw [plan, Plan.write_validateConfig] at h
    cases h
  | exportConfig file format =>
    rw [plan, Plan.exportConfig] at h
    cases hs : loadSettings look config with
    | error failure =>
      rw [hs] at h
      cases h
    | ok settings =>
      rw [hs] at h
      cases h
      rfl

/-- No command fails once its write is done. -/
theorem atomic_plan (look : Text → Entry) (config : Text) (display : Display)
    (command : Command) : (command.plan look config display).Atomic := by
  cases command with
  | init => exact Plan.atomic_of_result_eq_ok (Plan.result_init look config)
  | generate file options =>
    apply Plan.Atomic.done
    rw [Plan.generate]
    cases documentAt look config file options.lines with
    | error failure => exact Plan.atomic_of_write_eq_none rfl
    | ok documented => exact Plan.atomic_of_result_eq_ok rfl
  | check file => exact Plan.atomic_of_write_eq_none (Plan.write_check look config file)
  | validateConfig => exact Plan.atomic_of_write_eq_none (Plan.write_validateConfig look config)
  | exportConfig file format =>
    rw [plan, Plan.exportConfig]
    cases loadSettings look config with
    | error failure => exact Plan.atomic_of_write_eq_none rfl
    | ok settings => exact Plan.atomic_of_result_eq_ok rfl

end Command

end Docblock
