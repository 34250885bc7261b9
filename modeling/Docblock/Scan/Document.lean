import Docblock.Document.Language
import Docblock.Edit.Apply
import Docblock.Scan.Basic

/-!
# Documenting a file

Scan the text of a file and apply the planned edits to it, all in memory.
-/

namespace Docblock

/-- Why the text of a file cannot be documented. -/
inductive DocumentError where
  /-- The language of the file is not enabled. -/
  | language (refusal : LanguageRefusal)
  /-- The planned edits do not fit the text. -/
  | edits (error : EditError)
  deriving DecidableEq, Repr

/-- A documented file: what the scan reported and the new text. -/
structure Documented where
  /-- The report of the scan. -/
  report : Report
  /-- The text with all edits applied. -/
  content : Text
  deriving DecidableEq, Repr

/-- Scan a document, or a selection of it, and apply the edits. -/
def Document.documented (document : Document) (settings : Settings)
    (selected : Option LineRange) : Except DocumentError Documented :=
  match Scan.report settings document.toSource selected with
  | .error refusal => .error (.language refusal)
  | .ok report =>
    match document.apply report.edits with
    | .error error => .error (.edits error)
    | .ok content => .ok ⟨report, content⟩

/-- Document the text of the file at a path. -/
def documentFile (settings : Settings) (path content : Text) (selected : Option LineRange) :
    Except DocumentError Documented :=
  (Document.ofFile path content).documented settings selected

end Docblock
