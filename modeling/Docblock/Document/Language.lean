import Docblock.Document.Basic

/-!
# The language of a file

The language is inferred from the extension of the file name. The file name is
the last component of the path; a path that ends in two dots names no file.
-/

namespace Docblock

open Text

/-- The last component of a path. Empty components and single dots behind the
first component do not count. -/
def fileName? (path : Text) : Option Text :=
  match ((splitOn '/' path).filter fun part => part ≠ [] && part ≠ ['.']).getLast? with
  | none => none
  | some name => if name = ['.', '.'] then none else some name

/-- The part of a file name behind its last dot. A dot at the very start does
not begin an extension. -/
def extensionOf? (name : Text) : Option Text :=
  match (splitOn '.' name).reverse with
  | extension :: before :: rest =>
    if before = [] && rest = [] then none else some extension
  | _ => none

/-- The languages by extension. -/
def languageByExtension : List (Text × Text) :=
  [("js".toList, "javascript".toList), ("mjs".toList, "javascript".toList),
    ("cjs".toList, "javascript".toList), ("jsx".toList, "javascriptreact".toList),
    ("ts".toList, "typescript".toList), ("mts".toList, "typescript".toList),
    ("cts".toList, "typescript".toList), ("tsx".toList, "typescriptreact".toList)]

/-- The language of the file at a path. -/
def languageOfPath (path : Text) : Text :=
  (((fileName? path).bind extensionOf?).bind fun extension =>
    languageByExtension.lookup extension).getD "plaintext".toList

/-- Cut the text of a file into a document in the language of its path. -/
def Document.ofFile (path content : Text) : Document :=
  Document.ofText (languageOfPath path) content

end Docblock
