import Docblock.Command.Arguments

/-!
# The program

Reads the command line and the files a command looks at, and carries out its
plan: it prints, writes at most one file and logs to the error stream. All
decisions are in the plan.
-/

namespace Docblock.Program

/-- What is found at a path of the file system. A path that is there but cannot
be read as text counts as a file without text. -/
def lookAt (path : String) : IO Entry := do
  try
    return .file (some (← IO.FS.readFile path).toList)
  catch
    | .noFileOrDirectory .. => return .missing
    | _ => return .file none

/-- The value of a field in a log line. -/
def fieldText : FieldValue → Text
  | .number value => Text.ofNat value
  | .text value => value

/-- A line of the log. -/
def logLine (event : Event) : Text :=
  event.level.label ++ [' '] ++ event.message ++
  event.fields.flatMap fun (key, value) => [' '] ++ key ++ ['='] ++ fieldText value

/-- Show a trace. Only a verbose run logs what is not a warning. -/
def emit (verbose : Bool) (trace : Trace) : IO Unit := do
  for event in trace.events do
    if verbose || event.level = .warn then IO.eprintln (String.ofList (logLine event))
  IO.print (String.ofList trace.output)

/-- Write a file, and tell whether that was possible. -/
def writeAt (write : Write) : IO Bool := do
  try
    IO.FS.writeFile (String.ofList write.path) (String.ofList write.content)
    return true
  catch _ => return false

/-- Carry out a plan; the exit code is one when the command fails. -/
def perform (verbose : Bool) (plan : Plan Unit) : IO UInt32 := do
  emit verbose plan.before
  let written ← match plan.write with
    | none => pure none
    | some write => do
      if ← writeAt write then pure none else pure (some write.refused)
  let result ← match written with
    | some refused => pure (.error refused)
    | none => do
      emit verbose plan.after
      pure plan.result
  match result with
  | .ok () => return 0
  | .error failure =>
    IO.eprintln (String.ofList ("Error: ".toList ++ failure.message))
    return 1

/-- Run the command of an invocation. -/
def run (invocation : Invocation) : IO UInt32 := do
  let config ← match invocation.config with
    | some path => pure path
    | none => do pure (configIn (toString (← IO.currentDir)).toList)
  let entries ← (invocation.command.inputs config).mapM fun path => do
    return (path, ← lookAt (String.ofList path))
  let coloured ← (← IO.getStdout).isTty
  perform invocation.verbose
    (invocation.command.plan (fun path => (entries.lookup path).getD .missing) config
      ⟨coloured, invocation.verbose⟩)

end Docblock.Program

/-- Run the program. A command line that does not fit ends with exit code two. -/
def main (arguments : List String) : IO UInt32 := do
  match Docblock.Invocation.ofArguments? (arguments.map String.toList) with
  | some invocation => Docblock.Program.run invocation
  | none =>
    IO.eprintln ("usage: yuidoc-gen [-v] [--config PATH] (init | " ++
      "generate FILE [--lines START:END] [--dry-run] [--json] | check FILE | " ++
      "validate-config | export-config FILE [--format FORMAT])")
    return 2
