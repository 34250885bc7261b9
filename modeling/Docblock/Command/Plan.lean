import Docblock.Command.Failure

/-!
# Plans of commands

A command looks at files and then writes at most one. What it finds decides on
a plan: what is shown before the write, the write itself, what is shown after
it, and how the command ends. Whoever carries the plan out, a workspace in
memory or the file system, only has to do the write.
-/

namespace Docblock

/-- What is found at a path. -/
inductive Entry where
  /-- Nothing. -/
  | missing
  /-- A directory. -/
  | directory
  /-- A file; its content is known when it is text. -/
  | file (content : Option Text)
  deriving DecidableEq, Repr

/-- The text of a file that can be read. -/
def Entry.text? : Entry → Option Text
  | .file content => content
  | _ => none

/-- What a command shows: its output, and the events of its log. -/
structure Trace where
  /-- The printed text. -/
  output : Text := []
  /-- The events in order. -/
  events : List Event := []
  deriving DecidableEq, Repr

/-- Traces follow each other. -/
instance : Append Trace where
  append a b := ⟨a.output ++ b.output, a.events ++ b.events⟩

/-- A write of a whole file. -/
structure Write where
  /-- The path of the file. -/
  path : Text
  /-- Its new content. -/
  content : Text
  /-- The failure of the command when the write is not possible. -/
  refused : Failure
  deriving DecidableEq, Repr

/-- The plan of a command. -/
structure Plan (α : Type) where
  /-- What is shown before the write. -/
  before : Trace := {}
  /-- The write, if there is one. -/
  write : Option Write := none
  /-- What is shown once the write is done. -/
  after : Trace := {}
  /-- How the command ends once the write is done. -/
  result : Except Failure α

namespace Plan

/-- A plan that fails at once. -/
def fail {α : Type} (failure : Failure) : Plan α := { result := .error failure }

/-- A plan that only gives an answer. -/
def answer {α : Type} (result : Except Failure α) : Plan α := { result }

/-- Leave out the answer. -/
def done {α : Type} (plan : Plan α) : Plan Unit :=
  { plan with result := plan.result.map fun _ => () }

end Plan

end Docblock
