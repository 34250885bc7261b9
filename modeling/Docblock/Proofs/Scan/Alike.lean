import Mathlib.Data.List.Forall2
import Docblock.Proofs.Scan.Cover

/-!
# Scans of documents that differ in layout

A scan decides on trimmed lines alone. So documents whose lines are trimmed alike
are scanned alike: the counts are the same, and the edits come one by one at the
same lines. Only the blanks of a line find their way into the text of an edit, as
its indent, and a second layout takes them away again.
-/

namespace Docblock

open Text

/-! ## Texts behind indents -/

namespace Comment

/-- Whether a text is what a line can be indented by: blanks without a line feed. -/
structure IsMargin (indent : Text) : Prop where
  /-- Every character is a blank. -/
  blank : ∀ c ∈ indent, isBlank c = true
  /-- The text is one line. -/
  oneLine : '\n' ∉ indent

/-- The blanks that a line starts with are a margin. -/
theorem isMargin_indent {line : Text} (h : '\n' ∉ line) : IsMargin (indent line) :=
  ⟨fun _ hc => isBlank_of_mem_indent hc, fun hm => h (mem_of_mem_indent hm)⟩

end Comment

namespace Scan

/-- A second layout of the text in place of a block finds the lines of the block,
the last of which is not blank. -/
theorem layout_blockText (outer : Text) {indent : Text} (hindent : Comment.IsMargin indent)
    {ls : List Text} (hls : ∀ l ∈ ls, '\n' ∉ l) {l : Text} (hl : '\n' ∉ l) (hne : trim l ≠ []) :
    Comment.layout outer (blockText indent (ls ++ [l])) =
      unlines ((ls ++ [l]).map (Comment.laid outer)) := by
  have hone : ∀ k ∈ ls.map (Comment.laid indent), '\n' ∉ k := by
    rw [List.forall_mem_map]
    exact fun k hk => (Comment.breakable_laid hindent.oneLine (hls k hk)).oneLine
  have hlast : Comment.laid indent l ≠ [] := by
    intro he
    have htrim := Comment.trim_laid hindent.blank l
    rw [he] at htrim
    exact hne htrim.symm
  have hraw : l ≠ [] := by
    rintro rfl
    exact hne trim_nil
  rw [blockText_eq_joinWith indent hls hl hraw, List.map_append, List.map_singleton,
    Comment.layout_eq_unlines,
    lines_joinWith hone (Comment.breakable_laid hindent.oneLine hl).oneLine hlast,
    ← List.map_singleton, ← List.map_append, List.map_map]
  exact congrArg unlines (List.map_congr_left fun k _ => Comment.laid_laid hindent.blank outer k)

end Scan

/-! ## What is alike -/

/-- Whether two lines differ in nothing but the blanks around their texts. -/
structure Line.Alike (a b : Line) : Prop where
  /-- They have the same number. -/
  number : a.number = b.number
  /-- They are trimmed to the same text. -/
  trimmed : a.trimmed = b.trimmed
  /-- Each is one line. -/
  oneLine : '\n' ∉ a.text ∧ '\n' ∉ b.text

/-- Whether two edits do the same at the same lines, with texts that are the same
when they are laid out without an indent. -/
structure Edit.Alike (a b : Edit) : Prop where
  /-- They start at the same place. -/
  start : a.position = b.position
  /-- Both only insert, or both replace what stands there up to the same line. -/
  stop : a.replacesUntil.map Position.line = b.replacesUntil.map Position.line
  /-- Without an indent their texts are laid out alike. -/
  text : Comment.layout [] a.text = Comment.layout [] b.text

/-- Whether two reports have the same counts, and edits that are alike one by one. -/
structure Report.Alike (a b : Report) : Prop where
  /-- The counts are the same. -/
  tally : a.tally = b.tally
  /-- The edits are alike, each with the one at its place. -/
  edits : List.Forall₂ Edit.Alike a.edits b.edits

/-- Reports that are alike part by part are alike. -/
theorem Report.Alike.append {a b c d : Report} (h : a.Alike b) (h' : c.Alike d) :
    (a ++ c).Alike (b ++ d) :=
  ⟨congrArg₂ (· + ·) h.tally h'.tally, List.rel_append h.edits h'.edits⟩

/-- Reports that plan nothing are alike when they count the same. -/
theorem Report.alike_of_edits_eq_nil {a b : Report} (h : a.tally = b.tally) (ha : a.edits = [])
    (hb : b.edits = []) : a.Alike b := by
  refine ⟨h, ?_⟩
  rw [ha, hb]
  exact .nil

namespace Scan

/-- Whether two blocks have the same lines so far. -/
structure OpenBlock.Alike (a b : OpenBlock) : Prop where
  /-- They start at the same place. -/
  start : a.start = b.start
  /-- The trimmed lines are the same. -/
  lines : a.lines = b.lines
  /-- Each of them is one line. -/
  oneLine : ∀ l ∈ a.lines, '\n' ∉ l
  /-- Both are indented by blanks. -/
  margin : Comment.IsMargin a.indent ∧ Comment.IsMargin b.indent

/-- Whether two scans are at the same point. -/
inductive State.Alike : State → State → Prop
  /-- Outside any block, with the same flag. -/
  | outside (flag : Bool) : Alike (.outside flag) (.outside flag)
  /-- Inside blocks that are alike. -/
  | inside {a b : OpenBlock} (h : a.Alike b) : Alike (.inside a) (.inside b)

/-! ## One step -/

section Steps

variable {a b : OpenBlock} {l m : Line}

/-- Lines that are alike have no line feed when trimmed. -/
theorem oneLine_trimmed (h : l.Alike m) : '\n' ∉ l.trimmed :=
  fun hm => h.oneLine.1 (mem_of_mem_trim hm)

/-- Lines that are alike start at the same place. -/
theorem start_eq_of_alike (h : l.Alike m) : l.start = m.start := by
  rw [Line.start, Line.start, h.number]

/-- Blocks with a new line are alike if they were before. -/
theorem OpenBlock.Alike.append_line (h : a.Alike b) (hl : l.Alike m) :
    OpenBlock.Alike { a with lines := a.lines ++ [l.trimmed] }
      { b with lines := b.lines ++ [m.trimmed] } where
  start := h.start
  lines := by rw [h.lines, hl.trimmed]
  oneLine := by
    rw [List.forall_mem_append, List.forall_mem_singleton]
    exact ⟨h.oneLine, oneLine_trimmed hl⟩
  margin := h.margin

/-- Blocks that are opened by lines that are alike are alike. -/
theorem alike_open (hl : l.Alike m) :
    OpenBlock.Alike ⟨l.start, l.indent, [l.trimmed]⟩ ⟨m.start, m.indent, [m.trimmed]⟩ where
  start := start_eq_of_alike hl
  lines := by rw [hl.trimmed]
  oneLine := List.forall_mem_singleton.mpr (oneLine_trimmed hl)
  margin := ⟨Comment.isMargin_indent hl.oneLine.1, Comment.isMargin_indent hl.oneLine.2⟩

/-- The report on a block whose last line is not blank does not tell how the
lines were laid out. -/
theorem closeBlock_alike (policy : ScanPolicy) (h : a.Alike b) (hl : l.Alike m)
    (init : List Text) (hlines : a.lines = init ++ [l.trimmed]) (hne : l.trimmed ≠ []) :
    (closeBlock policy a l).Alike (closeBlock policy b m) := by
  rw [closeBlock, closeBlock]
  split
  · refine ⟨rfl, .cons ⟨h.start, congrArg some hl.number, ?_⟩ .nil⟩
    have hone := h.oneLine
    rw [hlines, List.forall_mem_append, List.forall_mem_singleton] at hone
    have htrim : trim l.trimmed ≠ [] := by
      rw [Line.trimmed, trim_trim]
      exact hne
    have htext {indent : Text} (hindent : Comment.IsMargin indent) :
        Comment.layout [] (blockText indent a.lines) =
          unlines (a.lines.map (Comment.laid [])) := by
      rw [hlines]
      exact layout_blockText [] hindent hone.1 hone.2 htrim
    show Comment.layout [] (blockText a.indent a.lines) =
      Comment.layout [] (blockText b.indent b.lines)
    rw [← h.lines, htext h.margin.1, htext h.margin.2]
  · exact Report.alike_of_edits_eq_nil rfl rfl rfl

/-- Inside a block, lines that are alike lead to states and reports that are. -/
theorem stepInside_alike (policy : ScanPolicy) (h : a.Alike b) (hl : l.Alike m) :
    State.Alike (stepInside policy a l).1 (stepInside policy b m).1 ∧
      (stepInside policy a l).2.Alike (stepInside policy b m).2 := by
  have hblock := h.append_line hl
  rw [stepInside, stepInside, ← hl.trimmed]
  cases hc : afterCloser? l.trimmed with
  | none => exact ⟨.inside (hl.trimmed ▸ hblock), Report.alike_of_edits_eq_nil rfl rfl rfl⟩
  | some after =>
    cases after with
    | nil =>
      have hne : l.trimmed ≠ [] := Segment.trim_ne_nil_of_afterCloser? hc
      exact ⟨.outside true, closeBlock_alike policy (hl.trimmed ▸ hblock) hl _ rfl hne⟩
    | cons c r => exact ⟨.outside false, Report.alike_of_edits_eq_nil rfl rfl rfl⟩

/-- So do openers. -/
theorem stepOpener_alike (policy : ScanPolicy) (hl : l.Alike m)
    (hopen : opensBlock l.trimmed = true) :
    State.Alike (stepOpener policy l).1 (stepOpener policy m).1 ∧
      (stepOpener policy l).2.Alike (stepOpener policy m).2 := by
  have hblock := alike_open hl
  have hne : l.trimmed ≠ [] := by
    intro he
    rw [he] at hopen
    cases hopen
  rw [stepOpener, stepOpener, ← hl.trimmed]
  cases afterCloser? (l.trimmed.drop 2) with
  | none => exact ⟨.inside (hl.trimmed ▸ hblock), Report.alike_of_edits_eq_nil rfl rfl rfl⟩
  | some after =>
    cases after with
    | nil =>
      exact ⟨.outside true,
        closeBlock_alike policy (hl.trimmed ▸ hblock) hl [] rfl hne⟩
    | cons c r => exact ⟨.outside false, Report.alike_of_edits_eq_nil rfl rfl rfl⟩

/-- A declaration is documented or not whatever the layout of its line. -/
theorem declare_alike (template : Template) (documented : Bool) (hl : l.Alike m)
    (declaration : Declaration) :
    (declare template documented l declaration).Alike
      (declare template documented m declaration) := by
  cases documented with
  | true => exact Report.alike_of_edits_eq_nil rfl rfl rfl
  | false =>
    refine ⟨rfl, .cons ⟨start_eq_of_alike hl, rfl, ?_⟩ .nil⟩
    have hleft := Comment.isMargin_indent hl.oneLine.1
    have hright := Comment.isMargin_indent hl.oneLine.2
    exact (Comment.layout_layout hleft.blank hleft.oneLine [] _).trans
      (Comment.layout_layout hright.blank hright.oneLine [] _).symm

/-- So do lines outside any block. -/
theorem stepPlain_alike (settings : Settings) (first : Nat) (flag : Bool) (hl : l.Alike m) :
    (stepPlain settings first flag l).Alike (stepPlain settings first flag m) := by
  rw [stepPlain, stepPlain, ← hl.trimmed, ← hl.number]
  split
  · exact Report.alike_of_edits_eq_nil rfl rfl rfl
  · cases Declaration.classify l.trimmed with
    | none => exact Report.alike_of_edits_eq_nil rfl rfl rfl
    | some declaration => exact declare_alike settings.template _ hl declaration

/-- Scans that are at the same point stay so behind lines that are alike, and
report alike on them. -/
theorem step_alike (settings : Settings) (first : Nat) {s t : State} (h : s.Alike t)
    (hl : l.Alike m) :
    State.Alike (step settings first s l).1 (step settings first t m).1 ∧
      (step settings first s l).2.Alike (step settings first t m).2 := by
  cases h with
  | inside h => exact stepInside_alike settings.scan h hl
  | outside flag =>
    rw [step_outside, step_outside, ← hl.trimmed]
    split
    · rename_i hopen
      exact stepOpener_alike settings.scan hl hopen
    · exact ⟨.outside _, stepPlain_alike settings first flag hl⟩

end Steps

/-! ## Whole runs -/

/-- A range ends alike in states that are alike. -/
theorem finish_alike {s t : State} (h : s.Alike t) : (finish s).Alike (finish t) := by
  cases h with
  | outside flag => exact Report.alike_of_edits_eq_nil rfl rfl rfl
  | inside h => exact Report.alike_of_edits_eq_nil rfl rfl rfl

/-- Runs over lines that are alike one by one report alike. The induction carries
along that the two scans are at the same point. -/
theorem run_alike (settings : Settings) (first : Nat) {s t : State} (h : s.Alike t)
    {a b : List Line} (hlines : List.Forall₂ Line.Alike a b) :
    (run settings first s a).Alike (run settings first t b) := by
  induction hlines generalizing s t with
  | nil => exact finish_alike h
  | cons hl _ ih =>
    obtain ⟨hnext, hreport⟩ := step_alike settings first h hl
    exact hreport.append (ih hnext)

end Scan

/-- Whether two sources have the same number of lines, alike one by one, in the
same language. -/
structure Source.Alike (a b : Source) : Prop where
  /-- They announce the same number of lines. -/
  lineCount : a.lineCount = b.lineCount
  /-- They are in the same language. -/
  language : a.language = b.language
  /-- The lines with one number are alike, or missing in both. -/
  line : ∀ number, Option.Rel Line.Alike (a.line? number) (b.line? number)

namespace Source.Alike

variable {a b : Source}

/-- Sources that are alike hand out lines that are. -/
theorem linesFrom (h : a.Alike b) (start count : Nat) :
    List.Forall₂ Line.Alike (a.linesFrom start count) (b.linesFrom start count) := by
  induction count generalizing start with
  | zero => exact .nil
  | succ count ih =>
    rw [Source.linesFrom, Source.linesFrom]
    have hline := h.line start
    generalize a.line? start = left at hline
    generalize b.line? start = right at hline
    cases hline with
    | none => exact .nil
    | some hl => exact .cons hl (ih (start + 1))

/-- Scans of sources that are alike start in states that are. -/
theorem initial (h : a.Alike b) (start : Nat) :
    Scan.State.Alike (Scan.initial a start) (Scan.initial b start) := by
  cases start with
  | zero => exact .outside false
  | succ above =>
    rw [Scan.initial, Scan.initial]
    have hline := h.line above
    generalize a.line? above = left at hline
    generalize b.line? above = right at hline
    cases hline with
    | none => exact .outside false
    | some hl =>
      rw [Option.any_some, Option.any_some, hl.trimmed]
      exact .outside _

/-- Scans of sources that are alike have reports that are. -/
theorem inRange (h : a.Alike b) (settings : Settings) (range : LineRange) :
    (Scan.inRange settings a range).Alike (Scan.inRange settings b range) := by
  rw [Scan.inRange, Scan.inRange, h.lineCount]
  cases range.clamp? b.lineCount with
  | none => exact Report.alike_of_edits_eq_nil rfl rfl rfl
  | some range =>
    refine Report.Alike.append (Report.alike_of_edits_eq_nil rfl rfl rfl) ?_
    exact Scan.run_alike settings range.start (h.initial range.start)
      (h.linesFrom range.start range.size)

end Source.Alike

/-- Documents with the same trimmed lines are alike as sources. -/
theorem Document.alike_toSource {language a b : Text}
    (h : (ofText language a).lines.map trim = (ofText language b).lines.map trim) :
    (ofText language a).toSource.Alike (ofText language b).toSource where
  lineCount := by simpa [lines, toSource] using congrArg List.length h
  language := rfl
  line number := by
    have hone (content : Text) := Row.oneLine_of_canonical (Row.canonical_ofText content)
    have hnumber := congrArg (·[number]?) h
    simp only [lines, List.getElem?_map, ofText, Option.map_map] at hnumber
    simp only [Source.line?, toSource, ofText]
    cases hr : (Row.ofText a)[number]? with
    | none =>
      rw [hr, Option.map_none, eq_comm, Option.map_eq_none_iff] at hnumber
      rw [hnumber]
      exact .none
    | some row =>
      rw [hr, Option.map_some, eq_comm, Option.map_eq_some_iff] at hnumber
      obtain ⟨other, hother, htrim⟩ := hnumber
      rw [hother]
      exact .some ⟨rfl, htrim.symm, hone a row (List.mem_of_getElem? hr),
        hone b other (List.mem_of_getElem? hother)⟩

namespace Scan

/-- Whether two scans come out alike. -/
inductive Agree : (left right : Except LanguageRefusal Report) → Prop
  /-- Both are refused for the same reason. -/
  | refused (refusal : LanguageRefusal) : Agree (.error refusal) (.error refusal)
  /-- Both report, and alike. -/
  | scanned {a b : Report} (h : a.Alike b) : Agree (.ok a) (.ok b)

/-- The layout of a document decides nothing: a document with the same trimmed
lines is scanned alike, as a whole and in every selection. -/
theorem report_alike (settings : Settings) {language a b : Text}
    (h : (Document.ofText language a).lines.map trim =
      (Document.ofText language b).lines.map trim)
    (selected : Option LineRange) :
    Agree (report settings (Document.ofText language a).toSource selected)
      (report settings (Document.ofText language b).toSource selected) := by
  have halike := Document.alike_toSource h
  have hlanguage : checkLanguage settings (Document.ofText language a).toSource =
      checkLanguage settings (Document.ofText language b).toSource := rfl
  cases selected with
  | some range =>
    rw [report, report, selection, selection, hlanguage]
    cases checkLanguage settings (Document.ofText language b).toSource with
    | error refusal => exact .refused refusal
    | ok _ => exact .scanned (halike.inRange settings range)
  | none =>
    rw [report, report, whole, whole, hlanguage, Source.fullRange?, Source.fullRange?,
      halike.lineCount]
    cases checkLanguage settings (Document.ofText language b).toSource with
    | error refusal => exact .refused refusal
    | ok _ =>
      cases LineRange.full? (Document.ofText language b).toSource.lineCount with
      | none => exact .scanned (Report.alike_of_edits_eq_nil rfl rfl rfl)
      | some range => exact .scanned (halike.inRange settings range)

/-- Two layouts of a documented function, an empty line and a method. -/
theorem report_alike_indented :
    ∃ a b : Text,
      a = "/**\n* Adds.\n*/\nfunction add(a) \x7b\n\nget(b) \x7b".toList ∧
      b = "  /**\r\n\t* Adds.  \n */\r\n    function add(a) \x7b\n \t\r\n\tget(b) \x7b ".toList ∧
      (Document.ofText "javascript".toList a).lines.map trim =
        (Document.ofText "javascript".toList b).lines.map trim ∧
      (report {} (Document.ofText "javascript".toList a).toSource none).map Report.tally =
        .ok { generated := 1, normalized := 1, skipped := 1 } ∧
      Agree (report {} (Document.ofText "javascript".toList a).toSource none)
        (report {} (Document.ofText "javascript".toList b).toSource none) := by
  obtain ⟨a, ha⟩ : ∃ a : Text,
      a = "/**\n* Adds.\n*/\nfunction add(a) \x7b\n\nget(b) \x7b".toList := ⟨_, rfl⟩
  obtain ⟨b, hb⟩ : ∃ b : Text, b =
      "  /**\r\n\t* Adds.  \n */\r\n    function add(a) \x7b\n \t\r\n\tget(b) \x7b ".toList :=
    ⟨_, rfl⟩
  have hlines : (Document.ofText "javascript".toList a).lines.map trim =
      (Document.ofText "javascript".toList b).lines.map trim := by
    rw [ha, hb]
    decide +kernel
  refine ⟨a, b, ha, hb, hlines, ?_, report_alike {} hlines none⟩
  rw [ha]
  decide +kernel

end Scan

end Docblock
