import Docblock.Settings.Basic
import Docblock.Toml.Reader
import Docblock.Toml.Writer

/-!
# Settings files

Settings are kept in a file of two sections below a version. Every key may be
missing and unknown keys are ignored. A section may also be an array that gives
the values of its keys in their order.
-/

namespace Docblock

open Toml (Value Entries)

/-- Read an optional value, with a default for a missing one. -/
def readOr {α : Type} (default : α) (read : Value → Option α) : Option Value → Option α
  | none => some default
  | some value => read value

namespace Template

/-- The keys of the section in order. -/
def keys : List Text :=
  ["description".toList, "param_type".toList, "param_description".toList]

/-- Read the section. -/
def ofValue? (value : Value) : Option Template :=
  let defaults : Template := {}
  match value.section? keys with
  | some [description, paramType, paramDescription] => do
    let description ← readOr defaults.description Value.text? description
    let paramType ← readOr defaults.paramType Value.text? paramType
    let paramDescription ← readOr defaults.paramDescription Value.text? paramDescription
    return ⟨description, paramType, paramDescription⟩
  | _ => none

end Template

namespace ScanPolicy

/-- The keys of the section in order. -/
def keys : List Text :=
  ["languages".toList, "normalize_existing".toList, "skip_documented".toList]

/-- Read the section. -/
def ofValue? (value : Value) : Option ScanPolicy :=
  let defaults : ScanPolicy := {}
  match value.section? keys with
  | some [languages, normalizeExisting, skipDocumented] => do
    let languages ← readOr defaults.languages Value.texts? languages
    let normalizeExisting ← readOr defaults.normalizeExisting Value.flag? normalizeExisting
    let skipDocumented ← readOr defaults.skipDocumented Value.flag? skipDocumented
    return ⟨languages, normalizeExisting, skipDocumented⟩
  | _ => none

end ScanPolicy

namespace Settings

/-- Read the outermost table of a settings file. -/
def ofEntries? (entries : Entries) : Option Settings := do
  let defaults : Settings := {}
  let version ← readOr defaults.version Value.text? (entries.lookup "version".toList)
  let template ← readOr defaults.template Template.ofValue? (entries.lookup "template".toList)
  let scan ← readOr defaults.scan ScanPolicy.ofValue? (entries.lookup "scan".toList)
  return ⟨version, template, scan⟩

/-- Read a settings file. -/
def ofToml? (content : Text) : Option Settings := (Toml.parse? content).bind ofEntries?

/-- Write a settings file. -/
def toToml (settings : Settings) : Text :=
  Toml.writeEntry "version".toList (Toml.writeString settings.version) ++
  "\n[template]\n".toList ++
  Toml.writeEntry "description".toList (Toml.writeString settings.template.description) ++
  Toml.writeEntry "param_type".toList (Toml.writeString settings.template.paramType) ++
  Toml.writeEntry "param_description".toList
    (Toml.writeString settings.template.paramDescription) ++
  "\n[scan]\n".toList ++
  Toml.writeEntry "languages".toList (Toml.writeStrings settings.scan.languages) ++
  Toml.writeEntry "normalize_existing".toList (Toml.writeBool settings.scan.normalizeExisting) ++
  Toml.writeEntry "skip_documented".toList (Toml.writeBool settings.scan.skipDocumented)

end Settings

end Docblock
