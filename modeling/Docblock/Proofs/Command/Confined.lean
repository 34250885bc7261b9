import Docblock.Proofs.Command.Plan

/-!
# Commands are confined

A command changes at most the one file it may write, and nothing at all when it
fails. The file that `generate` wrote then holds its documented text, also when
there was nothing to write, and a dry run answers what the real run answers. Many
commands after each other change at most the files they may write.
-/

namespace Docblock

namespace Workspace

variable {workspace : Workspace} {config file : Text} {display : Display}
variable {options : GenerateOptions} {tally : Tally}

/-- The places a command may change in a workspace. -/
def Reaches (workspace : Workspace) (config : Text) (command : Command) (place : List Text) :
    Prop :=
  ∃ output ∈ command.output? config, workspace.place? output = some place

/-- Run `generate` and keep what it counted. -/
def generate (workspace : Workspace) (config : Text) (display : Display) (file : Text)
    (options : GenerateOptions) : Outcome Tally :=
  workspace.perform (Plan.generate workspace.look config display file options)

/-- A run of the command is what generating does, with its counts left out. -/
theorem run_generate (workspace : Workspace) (config : Text) (display : Display) (file : Text)
    (options : GenerateOptions) :
    workspace.run config display (.generate file options) =
      ⟨(workspace.generate config display file options).workspace,
        (workspace.generate config display file options).trace,
        (workspace.generate config display file options).result.map fun _ => ()⟩ :=
  perform_done workspace _

/-- A command changes at most the place of the file it may write. -/
theorem changesOnly_run (workspace : Workspace) (config : Text) (display : Display)
    (command : Command) :
    ChangesOnly (workspace.Reaches config command) workspace
      (workspace.run config display command).workspace := by
  apply (workspace.changesOnly_perform _).mono
  rintro place ⟨write, hwrite, hplace⟩
  exact ⟨write.path, command.mem_output?_of_write hwrite, hplace⟩

/-- A command with no file to write changes nothing. -/
theorem run_of_output?_eq_none {command : Command} (h : command.output? config = none) :
    (workspace.run config display command).workspace = workspace := by
  have hnone : (command.plan workspace.look config display).write = none := by
    rw [Option.eq_none_iff_forall_not_mem]
    intro write hwrite
    have hpath := command.mem_output?_of_write hwrite
    rw [h] at hpath
    cases hpath
  rw [run, perform_of_write_eq_none hnone]

/-- A successful `generate` leaves the documented text in the file. -/
theorem look_generate (hdry : options.dryRun = false)
    (h : (workspace.generate config display file options).result = .ok tally) :
    ∃ documented, documentAt workspace.look config file options.lines = .ok documented ∧
      documented.report.tally = tally ∧
      (workspace.generate config display file options).workspace.look file =
        .file (some documented.content) := by
  rw [generate] at h ⊢
  obtain ⟨hw, heq⟩ | ⟨write, written, hw, hwritten, heq⟩ | ⟨write, _, heq⟩ :=
    workspace.perform_cases (Plan.generate workspace.look config display file options)
  · -- Nothing is written, so there are no edits and the file already holds its documented text.
    rw [heq, Plan.result_generate_eq_ok_iff] at h
    obtain ⟨documented, hdocumented, htally⟩ := h
    have hedits := Plan.edits_eq_nil_of_write_generate hdocumented hdry hw
    obtain ⟨settings, selected, content, _, _, hlook, hfile⟩ := documentAt_eq_ok_iff.mp hdocumented
    refine ⟨documented, hdocumented, htally, ?_⟩
    rw [heq, content_of_edits_eq_nil hfile hedits]
    exact hlook
  · rw [heq, Plan.result_generate_eq_ok_iff] at h
    obtain ⟨documented, hdocumented, htally⟩ := h
    obtain ⟨found, hfound, rfl, _⟩ := Plan.write_generate hw
    rw [hdocumented] at hfound
    cases hfound
    refine ⟨documented, hdocumented, htally, ?_⟩
    rw [heq]
    exact look_of_write? hwritten
  · rw [heq] at h
    cases h

/-- A run of `generate` whose write is not refused shows and answers what it planned. -/
theorem generate_of_not_refused
    (h : (workspace.generate config display file options).result ≠ .error (.unwritable file)) :
    (workspace.generate config display file options).trace =
        (Plan.generate workspace.look config display file options).before ++
          (Plan.generate workspace.look config display file options).after ∧
      (workspace.generate config display file options).result =
        (Plan.generate workspace.look config display file options).result := by
  apply perform_of_not_refused
  intro write hwrite
  obtain ⟨documented, _, rfl, _⟩ := Plan.write_generate hwrite
  exact h

/-- A dry run answers and prints what the real run does, unless its write is refused. -/
theorem generate_dryRun
    (h : (workspace.generate config display file { options with dryRun := false }).result ≠
      .error (.unwritable file)) :
    (workspace.generate config display file { options with dryRun := true }).result =
        (workspace.generate config display file { options with dryRun := false }).result ∧
      (workspace.generate config display file { options with dryRun := true }).trace.output =
        (workspace.generate config display file { options with dryRun := false }).trace.output := by
  obtain ⟨htrace, hresult⟩ := generate_of_not_refused h
  have hdry : workspace.generate config display file { options with dryRun := true } = _ :=
    perform_of_write_eq_none (Plan.write_generate_of_dryRun workspace.look rfl)
  rw [htrace, hresult, hdry]
  exact Plan.generate_congr workspace.look rfl rfl

/-! ## Runs of many commands -/

/-- A command with its settings file and the way things are shown. -/
structure Step where
  /-- The path of the settings file. -/
  config : Text
  /-- How things are shown. -/
  display : Display
  /-- The command. -/
  command : Command

/-- Run commands after each other, each in the workspace the one before it left. -/
def runAll (workspace : Workspace) (steps : List Step) : Workspace :=
  steps.foldl (fun before step => (before.run step.config step.display step.command).workspace)
    workspace

/-- Many commands change at most the places that one of them may change. -/
theorem changesOnly_runAll (workspace : Workspace) (steps : List Step) :
    ChangesOnly (fun place => ∃ step ∈ steps, workspace.Reaches step.config step.command place)
      workspace (workspace.runAll steps) := by
  induction steps generalizing workspace with
  | nil => exact ChangesOnly.refl _ workspace
  | cons step steps ih =>
    have hfirst := workspace.changesOnly_run step.config step.display step.command
    have hrest := ih (workspace.run step.config step.display step.command).workspace
    refine (hfirst.mono ?_).trans (hrest.mono ?_)
    · exact fun place hplace => ⟨step, List.mem_cons_self, hplace⟩
    · -- The places a later command may change are those it may change at the start.
      rintro place ⟨later, hlater, output, houtput, hplace⟩
      rw [hfirst.place] at hplace
      exact ⟨later, List.mem_cons_of_mem step hlater, output, houtput, hplace⟩

/-! ## The whole of it -/

/-- What commands may do to a workspace. -/
structure Confined (workspace : Workspace) (config : Text) (display : Display) : Prop where
  /-- A command that fails changes nothing. -/
  failed : ∀ command failure, (workspace.run config display command).result = .error failure →
    (workspace.run config display command).workspace = workspace
  /-- A command with no file to write changes nothing. -/
  silent : ∀ command, command.output? config = none →
    (workspace.run config display command).workspace = workspace
  /-- A command changes at most the place of the file it may write. -/
  changes : ∀ command, ChangesOnly (workspace.Reaches config command) workspace
    (workspace.run config display command).workspace
  /-- Commands after each other change at most the places that one of them may change. -/
  runs : ∀ steps : List Step, ChangesOnly
    (fun place => ∃ step ∈ steps, workspace.Reaches step.config step.command place) workspace
    (workspace.runAll steps)
  /-- Settings that are there are not written again. -/
  kept : workspace.look config ≠ .missing →
    (workspace.run config display .init).workspace = workspace
  /-- A successful run that is not dry leaves the documented text in the file. -/
  documented : ∀ file options tally, options.dryRun = false →
    (workspace.generate config display file options).result = .ok tally →
    ∃ settings selected content documented,
      loadSettings workspace.look config = .ok settings ∧
      selectLines options.lines = .ok selected ∧
      workspace.look file = .file (some content) ∧
      documentFile settings file content selected = .ok documented ∧
      documented.report.tally = tally ∧
      (workspace.run config display (.generate file options)).workspace.look file =
        .file (some documented.content)
  /-- A dry run answers and prints what the real run does, unless its write is refused. -/
  dryRun : ∀ (file : Text) (options : GenerateOptions),
    (workspace.generate config display file { options with dryRun := false }).result ≠
      .error (.unwritable file) →
    (workspace.generate config display file { options with dryRun := true }).result =
        (workspace.generate config display file { options with dryRun := false }).result ∧
      (workspace.generate config display file { options with dryRun := true }).trace.output =
        (workspace.generate config display file { options with dryRun := false }).trace.output

/-- Commands are confined in every workspace. -/
theorem confined (workspace : Workspace) (config : Text) (display : Display) :
    workspace.Confined config display where
  failed := fun command _ hfail =>
    perform_of_result_eq_error (command.atomic_plan workspace.look config display) hfail
  silent := fun _ hnone => run_of_output?_eq_none hnone
  changes := workspace.changesOnly_run config display
  runs := workspace.changesOnly_runAll
  kept := by
    intro hfound
    have hwrite : (Command.plan workspace.look config display .init).write = none :=
      Plan.write_init_of_ne_missing hfound
    rw [run, perform_of_write_eq_none hwrite]
  documented := by
    intro file options tally hdry hok
    obtain ⟨documented, hdocumented, htally, hlook⟩ := look_generate hdry hok
    obtain ⟨settings, selected, content, hsettings, hselected, hcontent, hfile⟩ :=
      documentAt_eq_ok_iff.mp hdocumented
    rw [run_generate]
    exact ⟨settings, selected, content, documented, hsettings, hselected, hcontent, hfile, htally,
      hlook⟩
  dryRun := fun _ _ h => generate_dryRun h

/-- A file is documented in a workspace that has no settings file. -/
theorem confined_generate :
    ∃ workspace : Workspace,
      workspace = ⟨"/w".toList, [(["a.js".toList], .file (some "f(a) \x7b\n".toList))]⟩ ∧
      (workspace.generate "c.toml".toList {} "a.js".toList {}).result = .ok { generated := 1 } ∧
      (workspace.run "c.toml".toList {} (.generate "a.js".toList {})).workspace.look
          "a.js".toList =
        .file (some ("/**\n * Description\n *\n * @method f\n".toList ++
          " * @param \x7btype\x7d a - description\n */\nf(a) \x7b\n".toList)) ∧
      (workspace.run "c.toml".toList {} (.generate "a.js".toList {})).workspace.look
          "c.toml".toList = .missing := by
  obtain ⟨workspace, hworkspace⟩ : ∃ workspace : Workspace, workspace =
      ⟨"/w".toList, [(["a.js".toList], .file (some "f(a) \x7b\n".toList))]⟩ := ⟨_, rfl⟩
  have hok : (workspace.generate "c.toml".toList {} "a.js".toList {}).result =
      .ok { generated := 1 } := by
    rw [hworkspace]
    decide +kernel
  have hconfined := workspace.confined "c.toml".toList {}
  refine ⟨workspace, hworkspace, hok, ?_, ?_⟩
  · obtain ⟨settings, selected, content, documented, hsettings, hselected, hcontent, hfile, _,
      hlook⟩ := hconfined.documented _ _ _ rfl hok
    rw [hworkspace] at hsettings hcontent
    cases hsettings
    cases hselected
    cases hcontent
    have hdocumented : (documentFile {} "a.js".toList "f(a) \x7b\n".toList none).map
        Documented.content = .ok ("/**\n * Description\n *\n * @method f\n".toList ++
          " * @param \x7btype\x7d a - description\n */\nf(a) \x7b\n".toList) := by
      decide +kernel
    rw [hfile] at hdocumented
    rw [hlook, Except.ok.inj hdocumented]
  · have hplaces : workspace.place? "a.js".toList = some ["a.js".toList] ∧
        workspace.place? "c.toml".toList = some ["c.toml".toList] ∧
        workspace.look "c.toml".toList = .missing := by
      rw [hworkspace]
      decide +kernel
    rw [(hconfined.changes _).look, hplaces.2.2]
    rintro place hplace ⟨output, houtput, hreached⟩
    cases houtput
    rw [hplaces.2.1] at hplace
    rw [hplaces.1, ← hplace] at hreached
    exact absurd hreached (by decide)

end Workspace

end Docblock
