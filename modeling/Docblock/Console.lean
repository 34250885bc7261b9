import Docblock.Edit.Basic
import Docblock.Json
import Docblock.Scan.Event

/-!
# What is shown on the console

The summary of a scan with its notes, and the list of planned edits. Colours
are terminal codes around a text and can be left out.
-/

namespace Docblock.Console

open Text

/-- The colours that are used. -/
inductive Colour where
  /-- Something was done. -/
  | boldGreen
  /-- Nothing had to be done. -/
  | brightBlue
  /-- Something was left alone. -/
  | yellow
  deriving DecidableEq, Repr

/-- The terminal code that switches a colour on. -/
def Colour.code : Colour → Text
  | .boldGreen => "\x1b[1;32m".toList
  | .brightBlue => "\x1b[94m".toList
  | .yellow => "\x1b[33m".toList

/-- A text in a colour, if colours are shown. -/
def paint (coloured : Bool) (colour : Colour) (t : Text) : Text :=
  if coloured then colour.code ++ t ++ "\x1b[0m".toList else t

/-- One sentence on what a scan did. -/
def summary (tally : Tally) : Text :=
  ofNat tally.generated ++ " YUIDoc comments generated".toList ++
  if 0 < tally.normalized then
    ", ".toList ++ ofNat tally.normalized ++ " existing comments normalized".toList
  else []

/-- What is printed when a scan is over. -/
def notice (coloured verbose : Bool) (tally : Tally) : Text :=
  "✓ ".toList ++
  paint coloured (if 0 < tally.generated then .boldGreen else .brightBlue) (summary tally) ++
  ['\n'] ++
  (if 0 < tally.unterminated then
    paint coloured .yellow ("⚠️  ".toList ++ ofNat tally.unterminated ++
      " comment block(s) were not closed inside the range and were left untouched".toList) ++
    ['\n']
  else []) ++
  if verbose && 0 < tally.skipped then
    "  └─ ".toList ++ ofNat tally.skipped ++ " declaration(s) already documented\n".toList
  else []

/-- A position in a list of planned edits. -/
def positionJson (position : Position) : Json :=
  .object [("line".toList, .number position.line), ("character".toList, .number position.character)]

/-- An edit in a list of planned edits. -/
def editJson (edit : Edit) : Json :=
  .object ([("position".toList, positionJson edit.position)] ++
    (edit.replacesUntil.map fun finish => ("replaces_until".toList, positionJson finish)).toList ++
    [("text".toList, .string edit.text)])

/-- What is printed for a list of planned edits. -/
def plan (edits : List Edit) : Text := (Json.array (edits.map editJson)).render ++ ['\n']

end Docblock.Console
