import Docblock.Comment.Tag
import Docblock.Declaration.Basic
import Docblock.Document.LineRange
import Docblock.Document.Position

/-!
# What a run counts and logs

A run counts four things and leaves a trail of events. An event is a value;
its level, message and fields are read off it when the log is written. Line
numbers in events count from one.
-/

namespace Docblock

/-- The counts of a scan. -/
structure Tally where
  /-- New comments above declarations. -/
  generated : Nat := 0
  /-- Existing blocks that were laid out again. -/
  normalized : Nat := 0
  /-- Blocks that were still open at the end of the range. -/
  unterminated : Nat := 0
  /-- Declarations that have a comment already. -/
  skipped : Nat := 0
  deriving DecidableEq, Repr

/-- Counts add up field by field. -/
instance : Add Tally where
  add a b := ⟨a.generated + b.generated, a.normalized + b.normalized,
    a.unterminated + b.unterminated, a.skipped + b.skipped⟩

/-- How serious an event is. -/
inductive Level where
  /-- Only of interest when looking closely. -/
  | debug
  /-- Something was left alone that should be looked at. -/
  | warn
  deriving DecidableEq, Repr

/-- The name of a level in the log. -/
def Level.label : Level → Text
  | .debug => "DEBUG".toList
  | .warn => "WARN".toList

/-- The value of a field of an event. -/
inductive FieldValue where
  /-- A number. -/
  | number (value : Nat)
  /-- A text. -/
  | text (value : Text)
  deriving DecidableEq, Repr

/-- A step of a run that the log shows. -/
inductive Event where
  /-- The range lies behind the last line. -/
  | pastEnd (range : LineRange) (lineCount : Nat)
  /-- A scan of lines counted from zero begins. -/
  | scanning (start stop : Nat) (language : Text)
  /-- A block stays as it is because code follows its closer. -/
  | codeAfterCloser (start : Position) (line : Nat)
  /-- A line stays as it is because code follows its comment. -/
  | inlineComment (line : Nat)
  /-- A declaration has a comment already. -/
  | alreadyDocumented (line : Nat) (kind : DeclarationKind)
  /-- A declaration gets a comment. -/
  | generating (line : Nat) (kind : DeclarationKind) (name : Text)
  /-- A tag of an existing block was read. -/
  | existingTag (tag : Tag)
  /-- A block is laid out again. -/
  | normalizing (start finish : Position) (tags : Nat)
  /-- A block is not closed before the end of the range. -/
  | unclosed (start : Position) (lines : Nat)
  /-- The edits are not written because the run is dry. -/
  | dryRun (edits : Nat)
  /-- A scan is over. -/
  | finished (tally : Tally)
  deriving DecidableEq, Repr

namespace Event

/-- The level of an event. -/
def level : Event → Level
  | unclosed .. => .warn
  | _ => .debug

/-- The message of an event. -/
def message : Event → Text
  | pastEnd .. => "range is past the end of the source".toList
  | scanning .. => "scanning".toList
  | codeAfterCloser .. => "code follows the comment closer, leaving block untouched".toList
  | inlineComment .. => "inline comment before code, leaving line untouched".toList
  | alreadyDocumented .. => "already documented".toList
  | generating .. => "generating comment".toList
  | existingTag .. => "existing comment tag".toList
  | normalizing .. => "normalizing existing comment".toList
  | unclosed .. =>
    "comment block is not closed before the end of the range, leaving it untouched".toList
  | dryRun .. => "dry run, not writing".toList
  | finished .. => "scan finished".toList

/-- A range as the log shows it. -/
def rangeText (range : LineRange) : Text :=
  "LineRange \x7b start: ".toList ++ Text.ofNat range.start ++ ", end: ".toList ++
  Text.ofNat range.stop ++ " \x7d".toList

/-- The named fields of an event. -/
def fields : Event → List (Text × FieldValue)
  | pastEnd range lineCount =>
    [("range".toList, .text (rangeText range)), ("lines".toList, .number lineCount)]
  | scanning start stop language =>
    [("start".toList, .number start), ("end".toList, .number stop),
      ("language".toList, .text language)]
  | codeAfterCloser start line =>
    [("start".toList, .text start.render), ("line".toList, .number line)]
  | inlineComment line => [("line".toList, .number line)]
  | alreadyDocumented line kind =>
    [("line".toList, .number line), ("kind".toList, .text kind.word)]
  | generating line kind name =>
    [("line".toList, .number line), ("kind".toList, .text kind.word), ("name".toList, .text name)]
  | existingTag tag =>
    [("kind".toList, .text tag.kind.label), ("value".toList, .text tag.value)]
  | normalizing start finish tags =>
    [("start".toList, .text start.render), ("end".toList, .text finish.render),
      ("tags".toList, .number tags)]
  | unclosed start lines =>
    [("start".toList, .text start.render), ("lines".toList, .number lines)]
  | dryRun edits => [("edits".toList, .number edits)]
  | finished tally =>
    [("generated".toList, .number tally.generated), ("normalized".toList, .number tally.normalized),
      ("unterminated".toList, .number tally.unterminated),
      ("skipped".toList, .number tally.skipped)]

end Event

end Docblock
