import Docblock.Command.Plan
import Docblock.Console
import Docblock.Settings.Export
import Docblock.Settings.Issue

/-!
# Commands

Five commands over the settings file and one other file. Each is a function
from what is found at the paths it looks at to its plan, and each reads in a
fixed order, so the first thing that is wrong decides how it ends.
-/

namespace Docblock

/-- The name of the settings file. -/
def configFileName : Text := ".yuidoc-gen.toml".toList

/-- The path of the settings file in a directory. -/
def configIn (directory : Text) : Text :=
  if directory.isEmpty || directory.getLast? = some '/' then directory ++ configFileName
  else directory ++ ['/'] ++ configFileName

/-- The settings in the file at a path; the defaults when there is no file. -/
def loadSettings (look : Text → Entry) (config : Text) : Except Failure Settings :=
  match look config with
  | .missing => .ok {}
  | entry =>
    match entry.text? with
    | none => .error .configUnreadable
    | some content =>
      match Settings.ofToml? content with
      | some settings => .ok settings
      | none => .error .configMalformed

/-- Write settings to the file at a path. -/
def Plan.saveSettings (config : Text) (settings : Settings) : Plan Unit :=
  { write := some ⟨config, settings.toToml, .configUnwritable⟩, result := .ok () }

/-- Write the default settings unless there is a file already; the answer tells
whether one is written. -/
def Plan.ensureSettings (look : Text → Entry) (config : Text) : Plan Bool :=
  match look config with
  | .missing => { Plan.saveSettings config {} with result := .ok true }
  | _ => .answer (.ok false)

/-- Write the default settings and tell about it. -/
def Plan.init (look : Text → Entry) (config : Text) : Plan Unit :=
  match look config with
  | .missing =>
    { (Plan.ensureSettings look config).done with
      after := { output := "✓ Wrote default configuration to ".toList ++ config ++ ['\n'] } }
  | _ =>
    { (Plan.ensureSettings look config).done with
      after := { output := "Configuration already exists at ".toList ++ config ++ ['\n'] } }

/-- What `generate` can be told. -/
structure GenerateOptions where
  /-- The selected lines as written by the user. -/
  lines : Option Text := none
  /-- Whether the file stays as it is. -/
  dryRun : Bool := false
  /-- Whether the planned edits are printed. -/
  json : Bool := false
  deriving DecidableEq, Repr

/-- How things are shown. -/
structure Display where
  /-- Whether colours are used. -/
  coloured : Bool := false
  /-- Whether more is told than the summary. -/
  verbose : Bool := false
  deriving DecidableEq, Repr

/-- Read the selected lines, if any are. -/
def selectLines : Option Text → Except Failure (Option LineRange)
  | none => .ok none
  | some lines =>
    match LineRange.ofSelection lines with
    | .ok range => .ok (some range)
    | .error error => .error (.selection error)

/-- The text of the file at a path. -/
def readFile (look : Text → Entry) (path : Text) : Except Failure Text :=
  match (look path).text? with
  | some content => .ok content
  | none => .error (.unreadable path)

/-- Read the settings, the selection and the file, in this order, and document
the file. -/
def documentAt (look : Text → Entry) (config file : Text) (lines : Option Text) :
    Except Failure Documented := do
  let settings ← loadSettings look config
  let selected ← selectLines lines
  let content ← readFile look file
  (documentFile settings file content selected).mapError (Failure.ofDocumentError file)

/-- Document a file and write it back unless the run is dry or there is nothing
to change. -/
def Plan.generate (look : Text → Entry) (config : Text) (display : Display) (file : Text)
    (options : GenerateOptions) : Plan Tally :=
  match documentAt look config file options.lines with
  | .error failure => .fail failure
  | .ok ⟨report, content⟩ =>
    { before := {
        output := if options.json then Console.plan report.edits else []
        events := report.events ++
          if options.dryRun then [.dryRun report.edits.length] else [] }
      write :=
        if options.dryRun || report.edits.isEmpty then none
        else some ⟨file, content, .unwritable file⟩
      after := {
        output := Console.notice display.coloured display.verbose report.tally
        events := [.finished report.tally] }
      result := .ok report.tally }

/-- The line that `check` prints for an edit that would add a comment. -/
def missingLine (file : Text) (edit : Edit) : Text :=
  if edit.replacesUntil.isNone then
    "  - ".toList ++ file ++ [':'] ++ Text.ofNat (edit.position.line + 1) ++
    " is missing a comment\n".toList
  else []

/-- Fail when declarations of a file have no comment. -/
def Plan.check (look : Text → Entry) (config file : Text) : Plan Unit :=
  match documentAt look config file none with
  | .error failure => .fail failure
  | .ok ⟨report, _⟩ =>
    if 0 < report.tally.generated then
      { before := ⟨report.edits.flatMap (missingLine file), report.events⟩
        result := .error (.undocumented report.tally.generated file) }
    else
      { before := ⟨"✓ ".toList ++ file ++ " is fully documented.\n".toList, report.events⟩
        result := .ok () }

/-- The problems of the settings at a path. -/
def settingsIssues (look : Text → Entry) (config : Text) : Except Failure (List SettingsIssue) :=
  (loadSettings look config).map Settings.issues

/-- Fail when the settings have problems. -/
def Plan.validateConfig (look : Text → Entry) (config : Text) : Plan Unit :=
  match settingsIssues look config with
  | .error failure => .fail failure
  | .ok [] => { before := { output := "✓ Configuration is valid.\n".toList }, result := .ok () }
  | .ok issues =>
    { before := { output := "⚠️  Found issues in configuration:\n".toList ++
        issues.flatMap fun issue => "  - ".toList ++ issue.message ++ ['\n'] }
      result := .error .configInvalid }

/-- Write the settings to a file in a format. -/
def Plan.exportConfig (look : Text → Entry) (config file format : Text) : Plan Unit :=
  match loadSettings look config with
  | .error failure => .fail failure
  | .ok settings =>
    { write := some ⟨file, settings.renderIn (.ofName format), .exportUnwritable⟩
      after := { output := "✓ Exported configuration to ".toList ++ file ++ ['\n'] }
      result := .ok () }

/-- The commands. -/
inductive Command where
  /-- Write the default settings. -/
  | init
  /-- Document a file. -/
  | generate (file : Text) (options : GenerateOptions)
  /-- Fail when declarations of a file have no comment. -/
  | check (file : Text)
  /-- Fail when the settings have problems. -/
  | validateConfig
  /-- Write the settings to a file in a format. -/
  | exportConfig (file format : Text)
  deriving DecidableEq, Repr

namespace Command

/-- The plan of a command. -/
def plan (look : Text → Entry) (config : Text) (display : Display) : Command → Plan Unit
  | init => Plan.init look config
  | generate file options => (Plan.generate look config display file options).done
  | check file => Plan.check look config file
  | validateConfig => Plan.validateConfig look config
  | exportConfig file format => Plan.exportConfig look config file format

/-- The files a command looks at, the settings file among them. -/
def inputs (config : Text) : Command → List Text
  | generate file _ => [config, file]
  | check file => [config, file]
  | _ => [config]

end Command

end Docblock
