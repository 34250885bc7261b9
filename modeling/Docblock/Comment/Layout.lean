import Docblock.Text.Blank

/-!
# Layout of comment text

A comment is laid out line by line: each line is trimmed and put behind the
indent, and a line that starts with a star gets one more blank so that the
stars stand in one column. Blank lines become empty ones.
-/

namespace Docblock.Comment

open Text

/-- The blank in front of a line that starts with a star. -/
def starSpacer : Text → Text
  | '*' :: _ => [' ']
  | _ => []

/-- One line of a comment behind its indent, with its line feed. -/
def layoutLine (indent line : Text) : Text :=
  match trim line with
  | [] => ['\n']
  | c :: r => indent ++ starSpacer (c :: r) ++ (c :: r) ++ ['\n']

/-- Comment text laid out behind an indent. -/
def layout (indent comment : Text) : Text := (lines comment).flatMap (layoutLine indent)

end Docblock.Comment
