import Docblock.Comment.Block
import Docblock.Comment.Skeleton
import Docblock.Declaration.Pattern
import Docblock.Document.Source
import Docblock.Edit.Basic
import Docblock.Scan.Event

/-!
# Scanning a range of lines

The scan walks over the lines of a range once. It is either outside any
comment block, knowing whether the line above closed a comment, or inside a
block that it has been collecting since the opener. Each line yields a report
of its own, and the report of the scan is their concatenation.
-/

namespace Docblock

open Text

/-- What a part of a scan plans, counts and logs. -/
structure Report where
  /-- The planned edits in the order of the lines. -/
  edits : List Edit := []
  /-- The counts. -/
  tally : Tally := {}
  /-- The events in order. -/
  events : List Event := []
  deriving DecidableEq, Repr

/-- Reports of neighbouring parts follow each other. -/
instance : Append Report where
  append a b := ⟨a.edits ++ b.edits, a.tally + b.tally, a.events ++ b.events⟩

/-- A scan refused because the language of the source is not enabled. -/
structure LanguageRefusal where
  /-- The language of the source. -/
  language : Text
  /-- The enabled languages. -/
  enabled : List Text
  deriving DecidableEq, Repr

/-- The message for a refused language. -/
def LanguageRefusal.message (refusal : LanguageRefusal) : Text :=
  "Language '".toList ++ refusal.language ++ "' is not enabled (enabled: ".toList ++
  joinWith ", ".toList refusal.enabled ++ ")".toList

namespace Scan

/-- The text that ends a comment. -/
def closer : Text := ['*', '/']

/-- Whether a trimmed line opens a comment block. -/
def opensBlock (trimmed : Text) : Bool := startsWith ['/', '*', '*'] trimmed

/-- Whether a trimmed line closes a comment, judged by its two ends. -/
def closesComment (trimmed : Text) : Bool := startsWith closer trimmed || endsWith closer trimmed

/-- The text behind the first closer, without leading blanks; `none` when the
comment stays open. -/
def afterCloser? (t : Text) : Option Text := (afterFirst? closer t).map trimStart

/-- Whether a trimmed line is comment text and no declaration. -/
def isCommentLine (trimmed : Text) : Bool :=
  startsWith ['/', '/'] trimmed || startsWith ['*'] trimmed || startsWith ['/', '*'] trimmed

/-- A comment block that is being collected. -/
structure OpenBlock where
  /-- The place in front of the opener's line. -/
  start : Position
  /-- The blanks in front of the opener. -/
  indent : Text
  /-- The trimmed lines so far. -/
  lines : List Text
  deriving DecidableEq, Repr

/-- Where a scan is. -/
inductive State where
  /-- Outside any block; the flag tells whether the line above closed a comment. -/
  | outside (afterComment : Bool)
  /-- Inside a block. -/
  | inside (block : OpenBlock)
  deriving DecidableEq, Repr

/-- Drop one line feed at the end. -/
def dropFinalFeed : Text → Text
  | [] => []
  | ['\n'] => []
  | c :: r => c :: dropFinalFeed r

/-- The report on a block that ends with this line and has nothing behind its
closer. -/
def closeBlock (policy : ScanPolicy) (block : OpenBlock) (line : Line) : Report :=
  if policy.normalizeExisting then
    let checked := Comment.check block.indent block.lines
    { edits := [.replace block.start line.finish (dropFinalFeed checked.text)]
      tally := { normalized := 1 }
      events := checked.tags.map .existingTag ++
        [.normalizing block.start line.finish checked.tags.length] }
  else {}

/-- The report on a declaration outside any block. -/
def declare (template : Template) (documented : Bool) (line : Line)
    (declaration : Declaration) : Report :=
  if documented then
    { tally := { skipped := 1 }
      events := [.alreadyDocumented (line.number + 1) declaration.kind] }
  else
    { edits := [.insert line.start
        (Comment.layout line.indent (Comment.skeleton template declaration))]
      tally := { generated := 1 }
      events := [.generating (line.number + 1) declaration.kind (declaration.name.getD [])] }

/-- A line inside a block: the block goes on, ends, or ends in front of code
and is left alone. -/
def stepInside (policy : ScanPolicy) (block : OpenBlock) (line : Line) : State × Report :=
  let block := { block with lines := block.lines ++ [line.trimmed] }
  match afterCloser? line.trimmed with
  | none => (.inside block, {})
  | some [] => (.outside true, closeBlock policy block line)
  | some _ =>
    (.outside false, { events := [.codeAfterCloser block.start (line.number + 1)] })

/-- A line that opens a block. The closer is looked for behind the first two
characters, so the shortest block closes itself. -/
def stepOpener (policy : ScanPolicy) (line : Line) : State × Report :=
  let block : OpenBlock := ⟨line.start, line.indent, [line.trimmed]⟩
  match afterCloser? (line.trimmed.drop 2) with
  | none => (.inside block, {})
  | some [] => (.outside true, closeBlock policy block line)
  | some _ => (.outside false, { events := [.inlineComment (line.number + 1)] })

/-- Any other line outside a block. A declaration right below a comment is
documented, everywhere or only on the first line of the range. -/
def stepPlain (settings : Settings) (first : Nat) (afterComment : Bool) (line : Line) : Report :=
  if isCommentLine line.trimmed then {}
  else
    match Declaration.classify line.trimmed with
    | none => {}
    | some declaration =>
      let documented := afterComment && (line.number = first || settings.scan.skipDocumented)
      declare settings.template documented line declaration

/-- One line of a scan whose range starts at line `first`. Outside a block a line
without characters is passed over, and nothing stands above the line behind it. -/
def step (settings : Settings) (first : Nat) : State → Line → State × Report
  | .inside block, line => stepInside settings.scan block line
  | .outside afterComment, line =>
    if line.isEmpty then (.outside false, {})
    else if opensBlock line.trimmed then stepOpener settings.scan line
    else
      (.outside (closesComment line.trimmed), stepPlain settings first afterComment line)

/-- The report on the state in which the range ends. -/
def finish : State → Report
  | .outside _ => {}
  | .inside block =>
    { tally := { unterminated := 1 }
      events := [.unclosed block.start block.lines.length] }

/-- Scan the remaining lines of a range. -/
def run (settings : Settings) (first : Nat) : State → List Line → Report
  | state, [] => finish state
  | state, line :: rest =>
    let (next, report) := step settings first state line
    report ++ run settings first next rest

/-- The state at the start of a range: whether the line above closes a
comment. -/
def initial (source : Source) : (start : Nat) → State
  | 0 => .outside false
  | above + 1 => .outside ((source.line? above).any fun line => closesComment line.trimmed)

/-- Refuse a source in a language that is not enabled. -/
def checkLanguage (settings : Settings) (source : Source) : Except LanguageRefusal Unit :=
  if settings.scan.accepts source.language then .ok ()
  else .error ⟨source.language, settings.scan.languages⟩

/-- Scan the lines of a source that lie in a range. -/
def inRange (settings : Settings) (source : Source) (range : LineRange) : Report :=
  match range.clamp? source.lineCount with
  | none => { events := [.pastEnd range source.lineCount] }
  | some range =>
    { events := [.scanning range.start range.stop source.language] } ++
    run settings range.start (initial source range.start) (source.linesIn range)

/-- Scan a selection of a source. -/
def selection (settings : Settings) (source : Source) (range : LineRange) :
    Except LanguageRefusal Report :=
  (checkLanguage settings source).map fun _ => inRange settings source range

/-- Scan a whole source. -/
def whole (settings : Settings) (source : Source) : Except LanguageRefusal Report :=
  (checkLanguage settings source).map fun _ =>
    match source.fullRange? with
    | none => {}
    | some range => inRange settings source range

/-- Scan a selection if there is one, and else the whole source. -/
def report (settings : Settings) (source : Source) :
    (selected : Option LineRange) → Except LanguageRefusal Report
  | none => whole settings source
  | some range => selection settings source range

end Scan

end Docblock
