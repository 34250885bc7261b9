import Docblock.Text.Blank

/-!
# Settings

The placeholder texts of new comments, what a scan may touch, and the defaults
that hold for everything a settings file leaves out.
-/

namespace Docblock

/-- The placeholder texts of new comments. -/
structure Template where
  /-- The summary line of function comments. -/
  description : Text := "Description".toList
  /-- The type between the braces of a parameter line. -/
  paramType : Text := "type".toList
  /-- The end of a parameter line, and of the summary of a class. -/
  paramDescription : Text := "description".toList
  deriving DecidableEq, Repr

/-- Identifiers of the languages the declaration shapes are made for. -/
def knownLanguages : List Text :=
  ["javascript".toList, "javascriptreact".toList, "typescript".toList, "typescriptreact".toList]

/-- What a scan accepts and which edits it may plan. -/
structure ScanPolicy where
  /-- The enabled languages; an empty list enables every language. -/
  languages : List Text := knownLanguages
  /-- Whether existing comment blocks are laid out again. -/
  normalizeExisting : Bool := true
  /-- Whether every declaration below a comment counts as documented, and not
  only the one on the first line of a selection. -/
  skipDocumented : Bool := true
  deriving DecidableEq, Repr

/-- Whether a language is enabled. -/
def ScanPolicy.accepts (policy : ScanPolicy) (language : Text) : Bool :=
  policy.languages.isEmpty || policy.languages.contains language

/-- The version of the settings file that is understood. -/
def currentVersion : Text := "1.0".toList

/-- Everything a settings file says. -/
structure Settings where
  /-- The version of the file. -/
  version : Text := currentVersion
  /-- The placeholder texts. -/
  template : Template := {}
  /-- What a scan may touch. -/
  scan : ScanPolicy := {}
  deriving DecidableEq, Repr

end Docblock
