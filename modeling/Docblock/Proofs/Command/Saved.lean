import Docblock.Proofs.Command.Plan
import Docblock.Proofs.Settings.ReadBack

/-!
# Saved settings are loaded again

Settings that were saved are loaded from their file as they are, whatever their
texts hold, and an export in the format of the settings file is loaded as the same
settings. Either needs nothing but a path that can be written to.
-/

namespace Docblock.Workspace

variable {workspace written : Workspace} {path other content config : Text} {settings : Settings}

/-! ## Paths that can be written to -/

/-- Whether a path leads to a place, through directories that are there, and to no
directory. -/
def Writable (workspace : Workspace) (path : Text) : Prop :=
  ∃ place, workspace.place? path = some place ∧ workspace.node? place ≠ some .directory

/-- Nothing else is asked of a path when a file is written. -/
theorem exists_write?_iff (content : Text) :
    (∃ written, workspace.write? path content = some written) ↔ workspace.Writable path := by
  constructor
  · rintro ⟨written, hwritten⟩
    obtain ⟨place, hplace, hdirectory, -⟩ := write?_eq_some hwritten
    exact ⟨place, hplace, hdirectory⟩
  · rintro ⟨place, hplace, hdirectory⟩
    refine ⟨workspace.set place (.file (some content)), ?_⟩
    rw [write?, hplace]
    exact if_neg hdirectory

/-- Writing one file takes no other path its place. -/
theorem Writable.of_write? (h : workspace.Writable other)
    (hwritten : workspace.write? path content = some written) : written.Writable other := by
  obtain ⟨place, hplace, hdirectory⟩ := h
  refine ⟨place, ((changesOnly_of_write? hwritten).place other).trans hplace, ?_⟩
  obtain ⟨target, -, htarget, rfl⟩ := write?_eq_some hwritten
  rwa [ne_eq, directory_set_iff htarget]

/-! ## Saving and loading -/

/-- Write settings to the file at a path. -/
def save (workspace : Workspace) (config : Text) (settings : Settings) : Outcome Unit :=
  workspace.perform (Plan.saveSettings config settings)

/-- The settings that a file was written for are loaded from it. -/
theorem loadSettings_of_write? (h : workspace.write? path settings.toToml = some written) :
    loadSettings written.look path = .ok settings := by
  rw [loadSettings, look_of_write? h]
  dsimp only [Entry.text?]
  rw [Settings.ofToml?_toToml]

/-- A plan with a file that can be written ends as planned, and leaves the file. -/
theorem perform_of_writable {α : Type} {plan : Plan α} {write : Write}
    (hwrite : plan.write = some write) (h : workspace.Writable write.path) :
    (workspace.perform plan).result = plan.result ∧
      workspace.write? write.path write.content = some (workspace.perform plan).workspace := by
  obtain ⟨written, hwritten⟩ := (exists_write?_iff write.content).mpr h
  rw [perform, hwrite]
  dsimp only
  rw [hwritten]
  exact ⟨rfl, rfl⟩

/-- Settings that are loaded are exported as they are. -/
theorem loadSettings_exported {file format : Text} (display : Display)
    (hload : loadSettings workspace.look config = .ok settings) (hfile : workspace.Writable file)
    (hformat : ExportFormat.ofName format = .toml) :
    (workspace.run config display (.exportConfig file format)).result = .ok () ∧
      loadSettings (workspace.run config display (.exportConfig file format)).workspace.look file =
        .ok settings := by
  have hwrite : ((Command.exportConfig file format).plan workspace.look config display).write =
      some ⟨file, settings.toToml, .exportUnwritable⟩ := by
    rw [Command.plan, Plan.exportConfig, hload]
    dsimp only
    rw [hformat]
    rfl
  have hresult : ((Command.exportConfig file format).plan workspace.look config display).result =
      .ok () := by
    rw [Command.plan, Plan.exportConfig, hload]
  obtain ⟨hend, hwritten⟩ := perform_of_writable hwrite hfile
  exact ⟨hend.trans hresult, loadSettings_of_write? hwritten⟩

/-- Any settings are loaded from where they were saved, and again from where they
were exported to, in the format of the settings file. -/
theorem loadSettings_saved (workspace : Workspace) (settings : Settings)
    (hconfig : workspace.Writable config) :
    (workspace.save config settings).result = .ok () ∧
      loadSettings (workspace.save config settings).workspace.look config = .ok settings ∧
      ∀ (display : Display) (file format : Text), workspace.Writable file →
        ExportFormat.ofName format = .toml →
        ((workspace.save config settings).workspace.run config display
          (.exportConfig file format)).result = .ok () ∧
        loadSettings ((workspace.save config settings).workspace.run config display
          (.exportConfig file format)).workspace.look file = .ok settings := by
  have hwrite : (Plan.saveSettings config settings).write =
      some ⟨config, settings.toToml, .configUnwritable⟩ := rfl
  obtain ⟨hend, hwritten⟩ := perform_of_writable hwrite hconfig
  have hload := loadSettings_of_write? hwritten
  refine ⟨hend, hload, fun display file format hfile hformat => ?_⟩
  exact loadSettings_exported display hload (hfile.of_write? hwritten) hformat

/-- Quotes of both kinds, backslashes, control characters and line breaks are kept. -/
theorem loadSettings_saved_quoted :
    ∃ (workspace : Workspace) (settings : Settings), workspace = ⟨"/w".toList, []⟩ ∧
      settings = ⟨"it's \"1.0\"".toList,
        ⟨"a\\b\n\x01".toList, "\"\"\"'''".toList, "\r\n".toList⟩,
        ⟨["'".toList, "\\\"".toList, []], false, true⟩⟩ ∧
      workspace.Writable "c.toml".toList ∧ workspace.Writable "d.toml".toList ∧
      loadSettings (workspace.save "c.toml".toList settings).workspace.look "c.toml".toList =
        .ok settings ∧
      loadSettings ((workspace.save "c.toml".toList settings).workspace.run "c.toml".toList {}
        (.exportConfig "d.toml".toList "TOML".toList)).workspace.look "d.toml".toList =
          .ok settings := by
  obtain ⟨settings, hsettings⟩ : ∃ settings : Settings, settings = ⟨"it's \"1.0\"".toList,
      ⟨"a\\b\n\x01".toList, "\"\"\"'''".toList, "\r\n".toList⟩,
      ⟨["'".toList, "\\\"".toList, []], false, true⟩⟩ := ⟨_, rfl⟩
  have hconfig : (Workspace.mk "/w".toList []).Writable "c.toml".toList :=
    ⟨["c.toml".toList], by decide, by decide⟩
  have hfile : (Workspace.mk "/w".toList []).Writable "d.toml".toList :=
    ⟨["d.toml".toList], by decide, by decide⟩
  obtain ⟨-, hload, hexport⟩ := loadSettings_saved ⟨"/w".toList, []⟩ settings hconfig
  exact ⟨_, settings, rfl, hsettings, hconfig, hfile, hload,
    (hexport {} "d.toml".toList "TOML".toList hfile (by decide)).2⟩

end Docblock.Workspace
