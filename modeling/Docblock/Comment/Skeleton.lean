import Docblock.Declaration.Basic
import Docblock.Settings.Basic

/-!
# Skeletons of new comments

The comment written for a declaration that has none. It has no indent yet;
the layout gives it one.
-/

namespace Docblock.Comment

open Text

/-- The skeleton for a class. -/
def classSkeleton (template : Template) (name : Text) : Text :=
  "/**\n* ".toList ++ trim (name ++ [' '] ++ template.paramDescription) ++
  "\n*\n* @class ".toList ++ name ++ "\n* @constructor\n*/".toList

/-- The line for one parameter. -/
def paramLine (template : Template) (param : Text) : Text :=
  "* @param \x7b".toList ++ template.paramType ++ "\x7d ".toList ++ param ++ " - ".toList ++
  template.paramDescription ++ ['\n']

/-- The skeleton for a function, method or arrow function: one line for each
parameter that is not blank. -/
def functionSkeleton (template : Template) (name : Text) (params : List Text) : Text :=
  "/**\n* ".toList ++ template.description ++ "\n*\n* @method ".toList ++ name ++ ['\n'] ++
  ((params.map trim).filter (!·.isEmpty)).flatMap (paramLine template) ++ "*/".toList

/-- The skeleton for a declaration; a missing name is written as nothing. -/
def skeleton (template : Template) (declaration : Declaration) : Text :=
  let name := declaration.name.getD []
  match declaration.kind with
  | .classBody => classSkeleton template name
  | .function | .method | .arrow => functionSkeleton template name declaration.params

end Docblock.Comment
