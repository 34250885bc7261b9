import Docblock.Proofs.Comment.Complete
import Docblock.Proofs.Scan.Cover
import Docblock.Proofs.Text.Find

/-!
# The state of a scan

A line takes a scan from one state to the next whatever the settings say. A
line belongs to a block when the scan is inside one or the line opens one. The
block goes on up to its first closer, and the start of the block tells which
line opened it.
-/

namespace Docblock

open Text

namespace Scan

section Closer

variable {t : Text}

/-- The search for a closer fails exactly when there is none. -/
theorem afterCloser?_eq_none_iff : afterCloser? t = none ↔ ¬closer <:+: t := by
  rw [afterCloser?, Option.map_eq_none_iff, afterFirst?_eq_none_iff]

/-- No closer starts at the first two characters of an opener. -/
theorem afterCloser?_drop_of_opensBlock (h : opensBlock t = true) :
    afterCloser? (t.drop 2) = afterCloser? t := by
  obtain ⟨rest, rfl⟩ := startsWith_iff_isPrefix.mp h
  rfl

/-- A line that looks like the end of a comment has a closer. -/
theorem closer_infix_of_closesComment (h : closesComment t = true) : closer <:+: t := by
  rw [closesComment, Bool.or_eq_true] at h
  rcases h with h | h
  · exact (startsWith_iff_isPrefix.mp h).isInfix
  · exact (endsWith_iff_isSuffix.mp h).isInfix

/-- A line without a closer does not look like the end of a comment. -/
theorem closesComment_of_afterCloser?_eq_none (h : afterCloser? t = none) :
    closesComment t = false := by
  rw [← Bool.not_eq_true]
  exact fun hc => afterCloser?_eq_none_iff.mp h (closer_infix_of_closesComment hc)

/-- A trimmed line with nothing behind its first closer ends in the closer. -/
theorem closesComment_of_afterCloser?_eq_nil (h : afterCloser? (trim t) = some []) :
    closesComment (trim t) = true := by
  obtain ⟨rest, hrest, hblank⟩ := Option.map_eq_some_iff.mp h
  obtain ⟨before, hbefore⟩ := eq_append_of_afterFirst?_eq_some hrest
  have hnil : rest = [] := by
    by_contra hne
    have hlast : (trim t).getLast? = some (rest.getLast hne) := by
      rw [hbefore, List.getLast?_append_of_ne_nil _ hne, List.getLast?_eq_getLast_of_ne_nil hne]
    have hall := List.dropWhile_eq_nil_iff.mp hblank _ (List.getLast_mem hne)
    rw [isBlank_last_trim hlast] at hall
    cases hall
  rw [closesComment, Bool.or_eq_true]
  right
  rw [endsWith_iff_isSuffix]
  exact ⟨before, by rw [hbefore, hnil, List.append_nil]⟩

/-- The shortest line that opens a comment and looks like a closer as well. -/
def shortComment : Text := ['/', '*', '/']

/-- Only one opener of a comment that stays open looks like a closer. -/
theorem closesComment_iff_of_stays_open (h : startsWith ['/', '*'] t = true)
    (hopen : ¬closer <:+: t.drop 2) : closesComment t = true ↔ t = shortComment := by
  obtain ⟨rest, rfl⟩ := startsWith_iff_isPrefix.mp h
  have hstart : startsWith closer (['/', '*'] ++ rest) = false := rfl
  rw [closesComment, hstart, Bool.false_or, endsWith_iff_isSuffix]
  constructor
  · intro hsuffix
    rcases List.suffix_cons_iff.mp hsuffix with heq | hsuffix
    · cases heq
    · rcases List.suffix_cons_iff.mp hsuffix with heq | hsuffix
      · cases heq
        rfl
      · exact absurd hsuffix.isInfix hopen
  · intro heq
    rw [heq]
    exact ⟨['/'], rfl⟩

end Closer

namespace State

/-- The block that a line belongs to, up to that line; `none` for a line
outside any block. -/
def blockWith? : State → Line → Option OpenBlock
  | .inside block, line => some { block with lines := block.lines ++ [line.trimmed] }
  | .outside _, line =>
    if opensBlock line.trimmed then some ⟨line.start, line.indent, [line.trimmed]⟩ else none

/-- What follows the closer on a line of a block. -/
def behindCloser? : State → Line → Option Text
  | .inside _, line => afterCloser? line.trimmed
  | .outside _, line => afterCloser? (line.trimmed.drop 2)

/-- Whether a line ends a block in front of code. -/
def codeFollows (state : State) (line : Line) : Bool :=
  (state.blockWith? line).isSome && (state.behindCloser? line).any fun after => !after.isEmpty

/-- Whether a line outside any block stands below a comment. -/
def afterComment : State → Bool
  | .inside _ => false
  | .outside flag => flag

/-- Where a line takes a scan. -/
def next (state : State) (line : Line) : State :=
  match state.blockWith? line with
  | none => .outside (closesComment line.trimmed)
  | some block =>
    match state.behindCloser? line with
    | none => .inside block
    | some after => .outside after.isEmpty

/-- Where some lines take a scan. -/
def after (state : State) (lines : List Line) : State := lines.foldl next state

variable {state : State} {line : Line}

/-- A scan goes over lines part by part. -/
theorem after_append (state : State) (front back : List Line) :
    state.after (front ++ back) = (state.after front).after back := List.foldl_append

/-- A line outside any block neither continues a block nor opens one. -/
theorem blockWith?_eq_none_iff :
    state.blockWith? line = none ↔
      (∃ flag, state = .outside flag) ∧ opensBlock line.trimmed = false := by
  cases state with
  | inside block => simp [blockWith?]
  | outside flag => simp [blockWith?]

/-- Outside any block a scan remembers whether the line closes a comment. -/
theorem next_outside_of_not_opensBlock (flag : Bool) (h : opensBlock line.trimmed = false) :
    (outside flag).next line = .outside (closesComment line.trimmed) := by
  rw [next, blockWith?, h]
  rfl

/-- An opener without a closer takes a scan inside a block. -/
theorem next_outside_of_opensBlock (flag : Bool) (h : opensBlock line.trimmed = true)
    (hc : afterCloser? line.trimmed = none) :
    (outside flag).next line = .inside ⟨line.start, line.indent, [line.trimmed]⟩ := by
  rw [next, blockWith?, behindCloser?, if_pos h, afterCloser?_drop_of_opensBlock h, hc]

/-- Inside a block a line without a closer is collected. -/
theorem next_inside_of_eq_none (block : OpenBlock) (hc : afterCloser? line.trimmed = none) :
    (inside block).next line =
      .inside { block with lines := block.lines ++ [line.trimmed] } := by
  rw [next, blockWith?, behindCloser?, hc]

/-- A line of a block continues the block that the scan is inside of, or opens it. -/
theorem of_blockWith?_eq_some {block : OpenBlock} (h : state.blockWith? line = some block) :
    (∃ before, state = .inside before ∧ block.start = before.start) ∨
      (∃ flag, state = .outside flag) ∧ opensBlock line.trimmed = true ∧
        block.start = line.start := by
  cases state with
  | inside before =>
    cases h
    exact .inl ⟨before, rfl, rfl⟩
  | outside flag =>
    rw [blockWith?] at h
    split at h
    · rename_i hopen
      cases h
      exact .inr ⟨⟨flag, rfl⟩, hopen, rfl⟩
    · cases h

/-- What follows the first closer on a line of a block. -/
theorem behindCloser?_of_blockWith?_eq_some {block : OpenBlock}
    (h : state.blockWith? line = some block) :
    state.behindCloser? line = afterCloser? line.trimmed := by
  rcases of_blockWith?_eq_some h with ⟨before, rfl, _⟩ | ⟨⟨flag, rfl⟩, hopen, _⟩
  · rfl
  · exact afterCloser?_drop_of_opensBlock hopen

/-- A scan that is inside a block behind a line was inside it before, or the
line opened it; either way the line has no closer. -/
theorem of_next_eq_inside {block : OpenBlock} (h : state.next line = .inside block) :
    state.blockWith? line = some block ∧ afterCloser? line.trimmed = none := by
  rw [next] at h
  cases hb : state.blockWith? line with
  | none => rw [hb] at h; cases h
  | some started =>
    rw [hb, behindCloser?_of_blockWith?_eq_some hb] at h
    cases hc : afterCloser? line.trimmed with
    | none =>
      rw [hc] at h
      cases h
      exact ⟨rfl, rfl⟩
    | some after => rw [hc] at h; cases h

/-- A scan that is outside any block wherever another one is stays so. -/
theorem exists_next_eq_outside {other : State}
    (h : (∃ flag, state = .outside flag) → ∃ flag, other = .outside flag)
    (hnext : ∃ flag, state.next line = .outside flag) :
    ∃ flag, other.next line = .outside flag := by
  cases hother : other.next line with
  | outside flag => exact ⟨flag, rfl⟩
  | inside block =>
    obtain ⟨hb, hc⟩ := of_next_eq_inside hother
    obtain ⟨after, hafter⟩ := hnext
    cases state with
    | inside before =>
      rw [next_inside_of_eq_none before hc] at hafter
      cases hafter
    | outside flag =>
      obtain ⟨flag', rfl⟩ := h ⟨flag, rfl⟩
      rcases of_blockWith?_eq_some hb with ⟨before, hbefore, _⟩ | ⟨_, hopen, _⟩
      · cases hbefore
      · rw [next_outside_of_opensBlock flag hopen hc] at hafter
        cases hafter

/-- Unless code follows a closer, a line that leaves a scan outside any block
is judged by its two ends. -/
theorem eq_closesComment_of_next_eq {flag : Bool} (h : state.next line = .outside flag)
    (hcode : state.codeFollows line = false) : flag = closesComment line.trimmed := by
  rw [next] at h
  cases hb : state.blockWith? line with
  | none =>
    rw [hb] at h
    cases h
    rfl
  | some block =>
    rw [hb] at h
    cases ha : state.behindCloser? line with
    | none => rw [ha] at h; cases h
    | some after =>
      rw [codeFollows, hb, ha] at hcode
      have hnil : after = [] := by simpa using hcode
      rw [ha, hnil] at h
      cases h
      rw [behindCloser?_of_blockWith?_eq_some hb, hnil] at ha
      exact (closesComment_of_afterCloser?_eq_nil ha).symm

end State

variable {settings : Settings} {first : Nat} {state : State} {line : Line}

/-- A step of a scan goes to the next state. -/
@[simp] theorem fst_step (settings : Settings) (first : Nat) (state : State) (line : Line) :
    (step settings first state line).1 = state.next line := by
  cases state with
  | inside block =>
    rw [step, stepInside, State.next, State.blockWith?, State.behindCloser?]
    cases afterCloser? line.trimmed with
    | none => rfl
    | some after => cases after <;> rfl
  | outside flag =>
    rw [step_outside, State.next, State.blockWith?]
    split
    · rw [stepOpener, State.behindCloser?]
      cases afterCloser? (line.trimmed.drop 2) with
      | none => rfl
      | some after => cases after <;> rfl
    · rfl

/-- Outside any block a step reports on the line alone. -/
theorem snd_step_of_eq_none (h : state.blockWith? line = none) :
    (step settings first state line).2 = stepPlain settings first state.afterComment line := by
  obtain ⟨⟨flag, rfl⟩, hopen⟩ := State.blockWith?_eq_none_iff.mp h
  rw [step_outside, if_neg (by rw [hopen]; exact Bool.false_ne_true)]
  rfl

/-- What a scan reports on some lines, whatever comes behind them. -/
def walk (settings : Settings) (first : Nat) : State → List Line → Report
  | _, [] => {}
  | state, line :: rest =>
    (step settings first state line).2 ++ walk settings first (state.next line) rest

/-- A scan goes on behind some lines in the state in which they leave it. -/
theorem run_append (settings : Settings) (first : Nat) (state : State)
    (front back : List Line) :
    run settings first state (front ++ back) =
      walk settings first state front ++ run settings first (state.after front) back := by
  induction front generalizing state with
  | nil => exact (Report.empty_append _).symm
  | cons line rest ih =>
    rw [List.cons_append, run, walk, Report.append_assoc]
    dsimp only
    rw [fst_step, ih]
    rfl

/-- A scan reports on its lines and on the state in which they leave it. -/
theorem run_eq_walk (settings : Settings) (first : Nat) (state : State) (lines : List Line) :
    run settings first state lines =
      walk settings first state lines ++ finish (state.after lines) := by
  have h := run_append settings first state lines []
  rwa [List.append_nil, run] at h

end Scan

/-- Numbered texts are looked up by their places. -/
theorem Line.getElem?_numbered (n : Nat) (texts : List Text) (k : Nat) :
    (Line.numbered n texts)[k]? = texts[k]?.map (Line.mk (n + k)) := by
  induction texts generalizing n k with
  | nil => rfl
  | cons text rest ih =>
    cases k with
    | zero => rfl
    | succ k =>
      rw [Line.numbered, List.getElem?_cons_succ, List.getElem?_cons_succ, ih, Nat.add_assoc,
        Nat.add_comm 1]

/-- Lines are numbered part by part. -/
theorem Line.numbered_append (n : Nat) (front back : List Text) :
    Line.numbered n (front ++ back) =
      Line.numbered n front ++ Line.numbered (n + front.length) back := by
  induction front generalizing n with
  | nil => rfl
  | cons text rest ih =>
    rw [List.cons_append, Line.numbered, ih, Line.numbered, List.cons_append, List.length_cons,
      Nat.add_assoc, Nat.add_comm 1]

namespace Document

variable {document : Document}

/-- The lines of a stretch of rows follow those of the stretch in front of it. -/
theorem linesFrom_add (document : Document) (start front back : Nat)
    (h : start + front ≤ document.rows.length) :
    document.toSource.linesFrom start (front + back) =
      document.toSource.linesFrom start front ++
        document.toSource.linesFrom (start + front) back := by
  have hlength : (((document.rows.drop start).take front).map Row.text).length = front := by
    rw [List.length_map, List.length_take_of_le]
    rw [List.length_drop]
    omega
  rw [linesFrom_toSource, linesFrom_toSource, linesFrom_toSource, List.take_add, List.map_append,
    Line.numbered_append, hlength, List.drop_drop]

/-- A document hands out its rows with their numbers, as many as are asked for. -/
theorem getElem?_linesFrom (document : Document) (start count k : Nat) :
    (document.toSource.linesFrom start count)[k]? =
      if k < count then (document.rows[start + k]?).map fun row => ⟨start + k, row.text⟩
      else none := by
  rw [linesFrom_toSource, Line.getElem?_numbered, List.getElem?_map, List.getElem?_take,
    List.getElem?_drop]
  split
  · rw [Option.map_map]
    rfl
  · rfl

/-- Fewer lines of a document are the first ones of more. -/
theorem take_linesFrom (document : Document) (start : Nat) {k count : Nat} (h : k ≤ count) :
    (document.toSource.linesFrom start count).take k = document.toSource.linesFrom start k := by
  apply List.ext_getElem?
  intro i
  rw [List.getElem?_take, getElem?_linesFrom, getElem?_linesFrom]
  by_cases hi : i < k
  · rw [if_pos hi, if_pos hi, if_pos (by omega)]
  · rw [if_neg hi, if_neg hi]

end Document

namespace Scan

/-- The state in which a scan of a document reaches a line, when its range
starts at line `start`. -/
def stateAt (settings : Settings) (document : Document) (start number : Nat) : State :=
  (document.toSource.linesFrom start (number - start)).foldl
    (fun state line => (step settings start state line).1) (initial document.toSource start)

variable {settings : Settings} {document : Document} {start number : Nat}

/-- The state at a line is what the lines above it lead to. -/
theorem stateAt_eq_after (settings : Settings) (document : Document) (start number : Nat) :
    stateAt settings document start number =
      (State.outside (above document start)).after
        (document.toSource.linesFrom start (number - start)) := by
  rw [stateAt, initial_toSource, State.after]
  simp only [fst_step]

/-- At the start of a range only the row above it matters. -/
theorem stateAt_self (settings : Settings) (document : Document) (start : Nat) :
    stateAt settings document start start = .outside (above document start) := by
  rw [stateAt_eq_after, Nat.sub_self]
  rfl

/-- The rows of a range take its scan on one by one. -/
theorem stateAt_succ (settings : Settings) {row : Row} (hs : start ≤ number)
    (hr : document.rows[number]? = some row) :
    stateAt settings document start (number + 1) =
      (stateAt settings document start number).next ⟨number, row.text⟩ := by
  obtain ⟨hlt, _⟩ := List.getElem?_eq_some_iff.mp hr
  have hsub : number + 1 - start = (number - start) + 1 := by omega
  have hadd : start + (number - start) = number := by omega
  have hline : document.toSource.line? number = some ⟨number, row.text⟩ := by
    show (document.rows[number]?.map Row.text).map (Line.mk number) = _
    rw [hr]
    rfl
  rw [stateAt_eq_after, stateAt_eq_after, hsub, document.linesFrom_add start _ 1 (by omega), hadd,
    State.after_append, Source.linesFrom, hline]
  rfl

/-- A scan of a range reports on its lines from the first to the last one. -/
theorem exists_report_eq_run {selected : Option LineRange} {range : LineRange}
    (ht : target? document selected = some range)
    (h : settings.scan.accepts document.language = true) :
    ∃ events, report settings document.toSource selected =
      .ok ({ events := events } ++
        run settings range.start (.outside (above document range.start))
          (document.toSource.linesIn range)) := by
  obtain ⟨events, hr⟩ := report_toSource settings document selected h
  refine ⟨events, ?_⟩
  rw [hr, ht, Source.linesIn, Document.linesFrom_toSource, run_eq_reports]
  rfl

/-- A scan is refused exactly when the language of the source is not enabled. -/
theorem exists_report_eq_ok_iff {source : Source} {selected : Option LineRange} :
    (∃ found, report settings source selected = .ok found) ↔
      settings.scan.accepts source.language = true := by
  constructor
  · rintro ⟨found, h⟩
    by_contra hrefused
    rw [Bool.not_eq_true] at hrefused
    rw [report_of_not_accepts selected hrefused] at h
    cases h
  · intro haccepts
    have hl : checkLanguage settings source = .ok () := if_pos haccepts
    cases selected with
    | none => exact ⟨_, by rw [report, whole, hl]; rfl⟩
    | some range => exact ⟨_, by rw [report, selection, hl]; rfl⟩

end Scan

end Docblock
