import Docblock.Command.Basic

/-!
# Workspaces

A workspace is a directory in memory: a map from paths to files and
directories. A path is followed part by part and must lead through directories
that are there. A write of a file either happens or changes nothing.
-/

namespace Docblock

open Text

/-- Something in a workspace. -/
inductive Node where
  /-- A directory. -/
  | directory
  /-- A file; its content is known when it is text. -/
  | file (content : Option Text)
  deriving DecidableEq, Repr

/-- A directory with everything below it. -/
structure Workspace where
  /-- The absolute path of the directory. -/
  root : Text
  /-- What is below it, by the parts of the path. -/
  nodes : List (List Text × Node) := []
  deriving DecidableEq, Repr

namespace Workspace

/-- What is at a place; the workspace itself is a directory. -/
def node? (workspace : Workspace) : List Text → Option Node
  | [] => some .directory
  | place => workspace.nodes.lookup place

/-- The parts of a path below the workspace. An absolute path must lead into
it, and no part can hold NUL. -/
def parts? (workspace : Workspace) (path : Text) : Option (List Text) :=
  if path.isEmpty || path.contains '\x00' then none
  else
    match stripStart? workspace.root path with
    | some [] => some []
    | some ('/' :: r) => some (splitOn '/' r)
    | _ => if path.head? = some '/' then none else some (splitOn '/' path)

/-- Follow the parts of a path. Whatever has a part behind it must be a
directory; two dots do not lead out of the workspace. -/
def follow (workspace : Workspace) : (place : List Text) → List Text → Option (List Text)
  | place, [] => some place
  | place, part :: rest =>
    if workspace.node? place = some .directory then
      if part.isEmpty || part = ['.'] then follow workspace place rest
      else if part = ['.', '.'] then
        if place.isEmpty then none else follow workspace place.dropLast rest
      else follow workspace (place ++ [part]) rest
    else none

/-- The place a path leads to, whether or not something is there. -/
def place? (workspace : Workspace) (path : Text) : Option (List Text) :=
  (workspace.parts? path).bind (workspace.follow [])

/-- What is found at a path. -/
def look (workspace : Workspace) (path : Text) : Entry :=
  match (workspace.place? path).bind workspace.node? with
  | none => .missing
  | some .directory => .directory
  | some (.file content) => .file content

/-- Put something at a place. -/
def set (workspace : Workspace) (place : List Text) (node : Node) : Workspace :=
  { workspace with nodes := (place, node) :: workspace.nodes.filter (·.1 ≠ place) }

/-- Write a file. The directory it is in must be there, and no directory may be
at its place. -/
def write? (workspace : Workspace) (path content : Text) : Option Workspace :=
  match workspace.place? path with
  | none => none
  | some place =>
    if workspace.node? place = some .directory then none
    else some (workspace.set place (.file (some content)))

/-- The parts of a path taken by name alone. -/
def namedParts (path : Text) : List Text :=
  (splitOn '/' path).filter fun part => !part.isEmpty && part ≠ ['.']

/-- Make a directory and those it is in. -/
def makeDirectories (workspace : Workspace) : (place parts : List Text) → Workspace
  | _, [] => workspace
  | place, part :: rest =>
    let place := place ++ [part]
    let workspace :=
      if (workspace.node? place).isSome then workspace else workspace.set place .directory
    makeDirectories workspace place rest

/-- Make the directory at a path. -/
def makeDirectory (workspace : Workspace) (path : Text) : Workspace :=
  workspace.makeDirectories [] (namedParts path)

/-- Put a file at a path, and make the directories it is in. -/
def putFile (workspace : Workspace) (path : Text) (content : Option Text) : Workspace :=
  let parts := namedParts path
  (workspace.makeDirectories [] parts.dropLast).set parts (.file content)

/-- Remove what is at a path, with everything below it. -/
def remove (workspace : Workspace) (path : Text) : Workspace :=
  match workspace.place? path with
  | none => workspace
  | some place =>
    { workspace with nodes := workspace.nodes.filter fun (other, _) => !place.isPrefixOf other }

/-- The path of a node as it is listed: a directory ends in a slash. -/
def listedPath : List Text × Node → Text
  | (place, .directory) => joinWith ['/'] place ++ ['/']
  | (place, .file _) => joinWith ['/'] place

/-- Everything in the workspace, in the order of the code points. -/
def listing (workspace : Workspace) : List Text :=
  (workspace.nodes.map listedPath).mergeSort fun a b => !precedes b a

/-- What is left when a plan has been carried out. -/
structure Outcome (α : Type) where
  /-- The workspace afterwards. -/
  workspace : Workspace
  /-- What was shown. -/
  trace : Trace
  /-- How the command ended. -/
  result : Except Failure α

/-- Carry out a plan. When the write is refused, nothing changes and nothing
that follows it is shown. -/
def perform {α : Type} (workspace : Workspace) (plan : Plan α) : Outcome α :=
  match plan.write with
  | none => ⟨workspace, plan.before ++ plan.after, plan.result⟩
  | some write =>
    match workspace.write? write.path write.content with
    | some written => ⟨written, plan.before ++ plan.after, plan.result⟩
    | none => ⟨workspace, plan.before, .error write.refused⟩

/-- The path of the settings file when none is given. -/
def defaultConfig (workspace : Workspace) : Text := configIn workspace.root

/-- Run a command. -/
def run (workspace : Workspace) (config : Text) (display : Display) (command : Command) :
    Outcome Unit :=
  workspace.perform (command.plan workspace.look config display)

end Workspace

end Docblock
