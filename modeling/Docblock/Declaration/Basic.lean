import Docblock.Text.Blank
import Docblock.Text.Word

/-!
# Declarations

What one line of script text declares: its kind, the name it binds and the
parameters it lists. Four kinds are told apart by their shape alone; a line is
never parsed as a whole.
-/

namespace Docblock

/-- The four shapes of declaration. -/
inductive DeclarationKind where
  /-- A class with a body. -/
  | classBody
  /-- A function introduced by its keyword. -/
  | function
  /-- A method: a name, a parameter list and a body. -/
  | method
  /-- An arrow function bound to a name by an equals sign. -/
  | arrow
  deriving DecidableEq, Repr

namespace DeclarationKind

/-- The order in which the shapes are tried. -/
def priority : List DeclarationKind := [classBody, function, arrow, method]

/-- The word for a kind in reports. -/
def word : DeclarationKind → Text
  | classBody => "class".toList
  | function => "function".toList
  | method => "method".toList
  | arrow => "arrow".toList

end DeclarationKind

/-- A declaration read off one line. -/
structure Declaration where
  /-- The shape that was recognised. -/
  kind : DeclarationKind
  /-- The bound name; anonymous declarations have none. -/
  name : Option Text
  /-- The parameters in order, trimmed; a class has none. -/
  params : List Text
  deriving DecidableEq, Repr

namespace Declaration

/-- Cut a parameter list at its commas and trim the parts. A blank list has no
parameters, while an empty part between commas counts as one. -/
def splitParams (raw : Text) : List Text :=
  if Text.allBlank raw then [] else (Text.splitOn ',' raw).map Text.trim

end Declaration

end Docblock
