import Docblock.Comment.Layout
import Docblock.Comment.Tag

/-!
# Existing comment blocks

A block that is already in the source keeps its text. It is laid out behind
its own indent, and its tags are read for the log.
-/

namespace Docblock.Comment

/-- A block after a second look: its text laid out again, and its tags. -/
structure CheckedBlock where
  /-- The laid out text, ending in a line feed unless it is empty. -/
  text : Text
  /-- The tags of all lines in order. -/
  tags : List Tag
  deriving DecidableEq, Repr

/-- Lay out the lines of a block and read their tags. -/
def check (indent : Text) (lines : List Text) : CheckedBlock :=
  ⟨layout indent (Text.joinWith ['\n'] lines), lines.flatMap Tag.all⟩

end Docblock.Comment
