import Docblock.Settings.Basic

/-!
# Problems of settings

A settings file that can be read may still say things the comments cannot
carry. Each problem is a value with its own message; they are listed in the
order of the fields they are about.
-/

namespace Docblock

/-- A problem found in settings. -/
inductive SettingsIssue where
  /-- The version is not the one that is understood. -/
  | unsupportedVersion (version : Text)
  /-- The description of function comments is blank. -/
  | emptyDescription
  /-- The parameter type is blank. -/
  | emptyParamType
  /-- The parameter description is blank. -/
  | emptyParamDescription
  /-- The parameter type has a brace, which would end its own braces. -/
  | bracesInParamType (paramType : Text)
  /-- A description has a line break. -/
  | brokenLine
  /-- A language is not among the known ones. -/
  | unknownLanguage (language : Text)
  deriving DecidableEq, Repr

namespace SettingsIssue

/-- The message shown for a problem. -/
def message : SettingsIssue → Text
  | unsupportedVersion version => "Unsupported config version: ".toList ++ version
  | emptyDescription => "Template description cannot be empty".toList
  | emptyParamType => "Template param_type cannot be empty".toList
  | emptyParamDescription => "Template param_description cannot be empty".toList
  | bracesInParamType paramType =>
    "Template param_type must not contain braces: ".toList ++ paramType
  | brokenLine => "Template text must fit on one line".toList
  | unknownLanguage language => "Unknown language id: ".toList ++ language

end SettingsIssue

/-- The problems of a template. -/
def Template.issues (template : Template) : List SettingsIssue :=
  (if Text.allBlank template.description then [.emptyDescription] else []) ++
  (if Text.allBlank template.paramType then [.emptyParamType] else []) ++
  (if Text.allBlank template.paramDescription then [.emptyParamDescription] else []) ++
  (if template.paramType.any (fun c => c = '{' || c = '}') then
    [.bracesInParamType template.paramType] else []) ++
  (if template.description.contains '\n' || template.paramDescription.contains '\n' then
    [.brokenLine] else [])

/-- The problems of settings: version, template, then languages. -/
def Settings.issues (settings : Settings) : List SettingsIssue :=
  (if settings.version = currentVersion then [] else [.unsupportedVersion settings.version]) ++
  settings.template.issues ++
  (settings.scan.languages.filter (!knownLanguages.contains ·)).map .unknownLanguage

end Docblock
