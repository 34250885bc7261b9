import Docblock.Command.Basic

/-!
# The command line

The words behind the name of the program are options, the name of a command and
the words that belong to it. Two options may stand on both sides of the
command; the one behind the command wins. On one side an option may be given
once. Words that do not fit refuse the whole line.
-/

namespace Docblock

open Text

/-- The options that can be given, on either side of the command. -/
inductive Flag where
  /-- Tell more. -/
  | verbose
  /-- The path of the settings file. -/
  | config
  /-- The selected lines. -/
  | lines
  /-- Leave the file as it is. -/
  | dryRun
  /-- Print the planned edits. -/
  | json
  /-- The format of an export. -/
  | format
  deriving DecidableEq, Repr

namespace Flag

/-- The name of an option behind its two hyphens. -/
def name : Flag → Text
  | verbose => "verbose".toList
  | config => "config".toList
  | lines => "lines".toList
  | dryRun => "dry-run".toList
  | json => "json".toList
  | format => "format".toList

/-- Whether an option has a value. -/
def hasValue : Flag → Bool
  | config | lines | format => true
  | verbose | dryRun | json => false

/-- Whether a value suits an option: a path is not empty. -/
def accepts (flag : Flag) (value : Text) : Bool := flag ≠ config || !value.isEmpty

end Flag

/-- The words on one side of the command: options with their values, and the
other words in order. -/
structure Words where
  /-- The options; the value of one that has none is empty. -/
  flags : List (Flag × Text) := []
  /-- The other words. -/
  operands : List Text := []
  deriving DecidableEq, Repr

namespace Words

/-- The value of an option. -/
def value? (words : Words) (flag : Flag) : Option Text := words.flags.lookup flag

/-- Whether an option is given. -/
def has (words : Words) (flag : Flag) : Bool := (words.value? flag).isSome

/-- Put an option in front, unless it is among the words already. -/
def withFlag (flag : Flag) (value : Text) (words : Words) : Option Words :=
  if words.has flag || !flag.accepts value then none
  else some { words with flags := (flag, value) :: words.flags }

/-- Put another word in front. -/
def withOperand (word : Text) (words : Words) : Words :=
  { words with operands := word :: words.operands }

end Words

/-- Whether a word has the look of an option; a single hyphen has not. -/
def looksLikeFlag : Text → Bool
  | '-' :: _ :: _ => true
  | _ => false

/-- The option a word names, with the value behind an equals sign. -/
def flagOf? (allowed : List Flag) : Text → Option (Flag × Option Text)
  | ['-', 'v'] => if allowed.contains .verbose then some (.verbose, none) else none
  | '-' :: '-' :: r =>
    let value :=
      match r.dropWhile (· ≠ '=') with
      | [] => none
      | _ :: value => some value
    (allowed.find? fun flag => flag.name = r.takeWhile (· ≠ '=')).map (·, value)
  | _ => none

/-- Sort the words behind the command. Two hyphens on their own make everything
behind them an operand. -/
def sortWords (allowed : List Flag) : List Text → Option Words
  | [] => some {}
  | word :: rest =>
    if word = ['-', '-'] then some { operands := rest }
    else if looksLikeFlag word then
      match flagOf? allowed word with
      | none => none
      | some (flag, some value) =>
        if flag.hasValue then (sortWords allowed rest).bind (·.withFlag flag value) else none
      | some (flag, none) =>
        if flag.hasValue then
          match rest with
          | [] => none
          | value :: rest =>
            if looksLikeFlag value then none
            else (sortWords allowed rest).bind (·.withFlag flag value)
        else (sortWords allowed rest).bind (·.withFlag flag [])
    else (sortWords allowed rest).map (·.withOperand word)

/-- The options that may stand on both sides of the command. -/
def sharedFlags : List Flag := [.verbose, .config]

/-- Take the options in front of the command: those options, the command and
the words behind it. -/
def splitLine : List Text → Option (Words × Text × List Text)
  | [] => none
  | word :: rest =>
    if looksLikeFlag word then
      match flagOf? sharedFlags word with
      | none => none
      | some (flag, some value) =>
        if flag.hasValue then
          (splitLine rest).bind fun (words, behind) => (words.withFlag flag value).map (·, behind)
        else none
      | some (flag, none) =>
        if flag.hasValue then
          match rest with
          | [] => none
          | value :: rest =>
            if looksLikeFlag value then none
            else
              (splitLine rest).bind fun (words, behind) =>
                (words.withFlag flag value).map (·, behind)
        else
          (splitLine rest).bind fun (words, behind) => (words.withFlag flag []).map (·, behind)
    else some ({}, word, rest)

/-- What a command line asks for. -/
structure Invocation where
  /-- The command. -/
  command : Command
  /-- The path of the settings file, if one is given. -/
  config : Option Text
  /-- Whether more is told than the summary. -/
  verbose : Bool
  deriving DecidableEq, Repr

namespace Invocation

/-- The only operand, which is a path and not empty. -/
def path? : List Text → Option Text
  | [path] => if path.isEmpty then none else some path
  | _ => none

/-- The options of its own that a command has. -/
def ownFlags (command : Text) : List Flag :=
  if command = "generate".toList then [.lines, .dryRun, .json]
  else if command = "export-config".toList then [.format]
  else []

/-- The command with a name and the words behind it. -/
def command? (name : Text) (words : Words) : Option Command :=
  if name = "init".toList then
    if words.operands.isEmpty then some .init else none
  else if name = "validate-config".toList then
    if words.operands.isEmpty then some .validateConfig else none
  else if name = "check".toList then (path? words.operands).map .check
  else if name = "generate".toList then
    (path? words.operands).map fun file =>
      .generate file ⟨words.value? .lines, words.has .dryRun, words.has .json⟩
  else if name = "export-config".toList then
    (path? words.operands).map fun file =>
      .exportConfig file ((words.value? .format).getD "toml".toList)
  else none

/-- Read a command line. -/
def ofArguments? (arguments : List Text) : Option Invocation := do
  let (front, name, rest) ← splitLine arguments
  let words ← sortWords (sharedFlags ++ ownFlags name) rest
  let command ← command? name words
  return ⟨command, words.value? .config <|> front.value? .config,
    front.has .verbose || words.has .verbose⟩

end Invocation

end Docblock
