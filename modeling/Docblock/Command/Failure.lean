import Docblock.Scan.Document

/-!
# Failures of commands

A command ends with the first thing that goes wrong. The message of a failure
does not tell what the system had to say about it.
-/

namespace Docblock

/-- Why a command fails. -/
inductive Failure where
  /-- The settings file is there but cannot be read. -/
  | configUnreadable
  /-- The settings file cannot be understood. -/
  | configMalformed
  /-- The settings file cannot be written. -/
  | configUnwritable
  /-- The selected lines cannot be understood. -/
  | selection (error : SelectionError)
  /-- The file cannot be read. -/
  | unreadable (path : Text)
  /-- The file cannot be written. -/
  | unwritable (path : Text)
  /-- The language of the file is not enabled. -/
  | language (refusal : LanguageRefusal)
  /-- The planned edits do not fit the file. -/
  | unapplied (path : Text)
  /-- Declarations of the file have no comment. -/
  | undocumented (count : Nat) (path : Text)
  /-- The settings have problems. -/
  | configInvalid
  /-- The export cannot be written. -/
  | exportUnwritable
  deriving DecidableEq, Repr

namespace Failure

/-- The message of a failure. -/
def message : Failure → Text
  | configUnreadable => "Failed to read config file".toList
  | configMalformed => "Failed to parse config file".toList
  | configUnwritable => "Failed to write config file".toList
  | selection error => error.message
  | unreadable path => "Failed to read ".toList ++ path
  | unwritable path => "Failed to write ".toList ++ path
  | language refusal => refusal.message
  | unapplied path => "Failed to apply edits to ".toList ++ path
  | undocumented count path =>
    Text.ofNat count ++ " declaration(s) in ".toList ++ path ++ " have no YUIDoc comment".toList
  | configInvalid => "Configuration validation failed.".toList
  | exportUnwritable => "Failed to write export file".toList

/-- The first line of the message. -/
def headline (failure : Failure) : Text := failure.message.takeWhile (· ≠ '\n')

/-- The failure of a file that cannot be documented. -/
def ofDocumentError (path : Text) : DocumentError → Failure
  | .language refusal => .language refusal
  | .edits _ => .unapplied path

end Failure

end Docblock
