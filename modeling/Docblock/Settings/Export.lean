import Docblock.Json
import Docblock.Settings.File
import Docblock.Yaml.Scalar

/-!
# Exporting settings

Settings can be written in three formats. The keys and their order are the
same in each.
-/

namespace Docblock

/-- The formats of an export. -/
inductive ExportFormat where
  /-- The format of the settings file. -/
  | toml
  /-- JSON with one value to a line. -/
  | json
  /-- YAML in block style. -/
  | yaml
  deriving DecidableEq, Repr

/-- The format with a name in any case; an unknown name stands for the format
of the settings file. -/
def ExportFormat.ofName (name : Text) : ExportFormat :=
  let name := Text.asciiLower name
  if name = "json".toList then .json
  else if name = "yaml".toList || name = "yml".toList then .yaml
  else .toml

namespace Settings

/-- Settings as a JSON value. -/
def toJson (settings : Settings) : Json :=
  .object [
    ("version".toList, .string settings.version),
    ("template".toList, .object [
      ("description".toList, .string settings.template.description),
      ("param_type".toList, .string settings.template.paramType),
      ("param_description".toList, .string settings.template.paramDescription)]),
    ("scan".toList, .object [
      ("languages".toList, .array (settings.scan.languages.map .string)),
      ("normalize_existing".toList, .bool settings.scan.normalizeExisting),
      ("skip_documented".toList, .bool settings.scan.skipDocumented)])]

/-- A list of languages in YAML behind its key. -/
def yamlLanguages : List Text → Text
  | [] => " []\n".toList
  | languages =>
    ['\n'] ++ languages.flatMap fun language => "  - ".toList ++ Yaml.writeString 4 language

/-- Settings in YAML. -/
def toYaml (settings : Settings) : Text :=
  "version: ".toList ++ Yaml.writeString 2 settings.version ++
  "template:\n".toList ++
  "  description: ".toList ++ Yaml.writeString 4 settings.template.description ++
  "  param_type: ".toList ++ Yaml.writeString 4 settings.template.paramType ++
  "  param_description: ".toList ++ Yaml.writeString 4 settings.template.paramDescription ++
  "scan:\n".toList ++
  "  languages:".toList ++ yamlLanguages settings.scan.languages ++
  "  normalize_existing: ".toList ++ Toml.writeBool settings.scan.normalizeExisting ++ ['\n'] ++
  "  skip_documented: ".toList ++ Toml.writeBool settings.scan.skipDocumented ++ ['\n']

/-- Settings in a format. -/
def renderIn (settings : Settings) : ExportFormat → Text
  | .toml => settings.toToml
  | .json => settings.toJson.render
  | .yaml => settings.toYaml

end Settings

end Docblock
