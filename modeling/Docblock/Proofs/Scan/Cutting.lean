import Docblock.Proofs.Scan.State
import Docblock.Proofs.Scan.Verdict
import Docblock.Proofs.Text.Search

/-!
# Cutting by the texts of the lines

Which lines a range has, and which segments they are cut into, is told by texts
alone, without the tests and the state of a scan. A range has the texts that follow
each other in the source, and they are cut where a block is opened and at its first
closer. There is one way to do so, and the scan reports on the same segments.
-/

namespace Docblock

open Text

/-- What follows the first closer of a text, without the blanks in front of it. -/
inductive Text.ClosedBefore : Text → (after : Text) → Prop
  | intro {before blanks after : Text} (hfirst : ¬['*', '/'] <:+: before ++ ['*'])
      (hblanks : ∀ c ∈ blanks, isBlank c = true) (hafter : ∀ c ∈ after.head?, isBlank c = false) :
      ClosedBefore (before ++ '*' :: '/' :: (blanks ++ after)) after

/-- The lines of a range of a source: the texts from the first line of the range on,
up to its last line, the announced end or the first text that is missing. -/
structure Source.Has (source : Source) (range : LineRange) (lines : List Line) : Prop where
  /-- The lines are numbered from the start of the range on. -/
  numbers : Line.Consecutive range.start lines
  /-- They have the texts of the source. -/
  texts : ∀ line ∈ lines, source.text? line.number = some line.text
  /-- No line is behind the range or the announced end. -/
  within : ∀ line ∈ lines, line.number ≤ range.stop ∧ line.number < source.lineCount
  /-- A line of the range is left out only if its text is missing. -/
  stops : range.start + lines.length ≤ range.stop →
    range.start + lines.length < source.lineCount →
      source.text? (range.start + lines.length) = none

namespace Segment

/-- The first phase: lines from top to bottom and the segments they are cut into. -/
inductive Cuts : List Line → List (Segment Line) → Prop
  | nil : Cuts [] []
  /-- A line that opens no block stands alone. -/
  | single {line : Line} {t : Text} {rest : List Line} {segments : List (Segment Line)}
      (ht : TrimsTo line.text t) (hopen : ¬['/', '*', '*'] <+: t) (hrest : Cuts rest segments) :
      Cuts (line :: rest) (.single line :: segments)
  /-- An opener may close its block, but not with its own star. -/
  | inline {line : Line} {t after : Text} {rest : List Line} {segments : List (Segment Line)}
      (ht : TrimsTo line.text t) (hopen : ['/', '*', '*'] <+: t)
      (hclose : ClosedBefore (t.drop 2) after) (hrest : Cuts rest segments) :
      Cuts (line :: rest) (.inline line after :: segments)
  /-- Otherwise the block goes on to the first line with a closer. -/
  | block {opener closer : Line} {t last after : Text} {inner rest : List Line}
      {segments : List (Segment Line)} (ht : TrimsTo opener.text t)
      (hopen : ['/', '*', '*'] <+: t) (hstays : ¬['*', '/'] <:+: t.drop 2)
      (hinner : ∀ line ∈ inner, ∀ t, TrimsTo line.text t → ¬['*', '/'] <:+: t)
      (hlast : TrimsTo closer.text last) (hclose : ClosedBefore last after)
      (hrest : Cuts rest segments) :
      Cuts (opener :: (inner ++ closer :: rest)) (.block opener inner closer after :: segments)
  /-- Without one the block has all lines that are left. -/
  | unclosed {opener : Line} {t : Text} {more : List Line} (ht : TrimsTo opener.text t)
      (hopen : ['/', '*', '*'] <+: t) (hstays : ¬['*', '/'] <:+: t.drop 2)
      (hmore : ∀ line ∈ more, ∀ t, TrimsTo line.text t → ¬['*', '/'] <:+: t) :
      Cuts (opener :: more) [.unclosed opener more]

end Segment

/-! ## Closers -/

section Closers

variable {t after : Text}

/-- The search for a closer passes over a text that no closer starts in. -/
theorem Scan.afterFirst?_closer_append {before : Text} (h : ¬closer <:+: before ++ ['*'])
    (rest : Text) : afterFirst? closer (before ++ '*' :: '/' :: rest) = some rest := by
  induction before with
  | nil => rfl
  | cons c b ih =>
    rw [List.cons_append, Comment.closer_infix_cons_iff, not_or] at h
    have hmiss : stripStart? closer (c :: (b ++ '*' :: '/' :: rest)) = none := by
      by_contra hfound
      obtain ⟨r, hr⟩ := Option.ne_none_iff_exists'.mp hfound
      obtain ⟨rfl, hslash⟩ := List.cons.inj (eq_append_of_stripStart?_eq_some hr)
      cases b with
      | nil => cases hslash
      | cons d b =>
        cases hslash
        exact h.1 ⟨rfl, b ++ ['*'], rfl⟩
    rw [List.cons_append, afterFirst?, hmiss]
    exact ih h.2

/-- A text with a closer has a first one. -/
theorem Scan.exists_first_closer (h : closer <:+: t) :
    ∃ before rest, t = before ++ '*' :: '/' :: rest ∧ ¬closer <:+: before ++ ['*'] := by
  induction t with
  | nil => exact absurd h Comment.closer_infix_nil
  | cons c r ih =>
    by_cases hhere : c = '*' ∧ ∃ rest, r = '/' :: rest
    · obtain ⟨rfl, rest, rfl⟩ := hhere
      exact ⟨[], rest, rfl, by decide⟩
    · obtain ⟨before, rest, rfl, hfirst⟩ :=
        ih ((Comment.closer_infix_cons_iff.mp h).resolve_left hhere)
      refine ⟨c :: before, rest, rfl, ?_⟩
      rw [List.cons_append, Comment.closer_infix_cons_iff, not_or]
      refine ⟨?_, hfirst⟩
      rintro ⟨rfl, r, hr⟩
      cases before with
      | nil => cases hr
      | cons d b =>
        cases hr
        exact hhere ⟨rfl, _, rfl⟩

/-- What the scan finds behind a closer is what follows the first one. -/
theorem Text.closedBefore_iff : ClosedBefore t after ↔ Scan.afterCloser? t = some after := by
  constructor
  · rintro ⟨hfirst, hblanks, hafter⟩
    rw [Scan.afterCloser?, Scan.afterFirst?_closer_append hfirst, Option.map_some, trimStart,
      dropWhile_append_of_stop hblanks hafter]
  · intro h
    have hinfix : Scan.closer <:+: t := by
      by_contra hnone
      rw [Scan.afterCloser?_eq_none_iff.mpr hnone] at h
      cases h
    obtain ⟨before, rest, rfl, hfirst⟩ := Scan.exists_first_closer hinfix
    rw [Scan.afterCloser?, Scan.afterFirst?_closer_append hfirst, Option.map_some] at h
    cases h
    have hintro : ClosedBefore (before ++ '*' :: '/' :: (indent rest ++ trimStart rest))
        (trimStart rest) :=
      .intro hfirst (fun _ hm => isBlank_of_mem_indent hm) (head_dropWhile isBlank rest)
    rwa [indent_append_trimStart] at hintro

/-- The scan sees where blocks open. -/
theorem Scan.opensBlock_iff : opensBlock t = true ↔ ['/', '*', '*'] <+: t :=
  startsWith_iff_isPrefix

end Closers

/-! ## The lines of a range -/

namespace Source

variable {source : Source} {range : LineRange} {lines : List Line}

/-- Lines are handed out as long as there is a text, and no further. -/
theorem linesFrom_eq_iff {start count : Nat} :
    source.linesFrom start count = lines ↔
      Line.Consecutive start lines ∧ (∀ line ∈ lines, source.text? line.number = some line.text) ∧
        lines.length ≤ count ∧
        (lines.length < count → source.text? (start + lines.length) = none) := by
  induction count generalizing start lines with
  | zero =>
    rw [linesFrom]
    constructor
    · rintro rfl
      simp [Line.Consecutive]
    · rintro ⟨-, -, hlength, -⟩
      exact (List.eq_nil_of_length_eq_zero (Nat.le_zero.mp hlength)).symm
  | succ count ih =>
    rw [linesFrom, line?]
    cases lines with
    | nil => cases source.text? start <;> simp [Line.Consecutive]
    | cons line rest =>
      obtain ⟨number, text⟩ := line
      rw [Line.Consecutive, List.forall_mem_cons, List.length_cons, Nat.add_le_add_iff_right,
        Nat.add_lt_add_iff_right]
      dsimp only
      cases htext : source.text? start with
      | none =>
        constructor
        · intro h
          cases h
        · rintro ⟨⟨rfl, -⟩, ⟨h, -⟩, -⟩
          rw [htext] at h
          cases h
      | some found =>
        have hnext : start + (rest.length + 1) = start + 1 + rest.length := by omega
        rw [Option.map_some]
        dsimp only
        rw [List.cons.injEq, ih, Line.mk.injEq, hnext]
        constructor
        · rintro ⟨⟨rfl, rfl⟩, hnumbers, htexts, hcount⟩
          exact ⟨⟨rfl, hnumbers⟩, ⟨htext, htexts⟩, hcount⟩
        · rintro ⟨⟨rfl, hnumbers⟩, ⟨h, htexts⟩, hcount⟩
          rw [htext] at h
          cases h
          exact ⟨⟨rfl, rfl⟩, hnumbers, htexts, hcount⟩

/-- The lines that a range has are those that a scan reads. -/
theorem has_iff : source.Has range lines ↔ source.scanned range = lines := by
  rw [scanned]
  cases hclamp : range.clamp? source.lineCount with
  | none =>
    have hpast : source.lineCount ≤ range.start := by
      by_contra hlt
      rw [LineRange.clamp?, dif_pos (Nat.not_le.mp hlt)] at hclamp
      cases hclamp
    constructor
    · rintro ⟨hnumbers, -, hwithin, -⟩
      cases lines with
      | nil => rfl
      | cons line rest =>
        have hfirst := (hwithin line List.mem_cons_self).2
        rw [hnumbers.1] at hfirst
        exact absurd hpast (Nat.not_le.mpr hfirst)
    · rintro rfl
      exact ⟨trivial, fun _ hm => absurd hm List.not_mem_nil,
        fun _ hm => absurd hm List.not_mem_nil, fun _ hlt => absurd hpast (Nat.not_le.mpr hlt)⟩
  | some clamped =>
    obtain ⟨hlt, hstart, hstop⟩ := LineRange.eq_of_clamp?_eq_some hclamp
    have hsize : clamped.size = clamped.stop - clamped.start + 1 := rfl
    have hordered := range.ordered
    have hend : ∀ n, n < range.start + clamped.size ↔ n ≤ range.stop ∧ n < source.lineCount := by
      intro n
      omega
    dsimp only
    rw [linesIn, linesFrom_eq_iff, hstart]
    constructor
    · rintro ⟨hnumbers, htexts, hwithin, hstops⟩
      have hlength : range.start + lines.length ≤ range.start + clamped.size := by
        rw [hnumbers.add_length_le_iff (Nat.le_add_right _ _)]
        exact fun line hm => (hend line.number).mpr (hwithin line hm)
      refine ⟨hnumbers, htexts, Nat.le_of_add_le_add_left hlength, fun hshort => ?_⟩
      obtain ⟨hstop, hcount⟩ := (hend _).mp (Nat.add_lt_add_left hshort range.start)
      exact hstops hstop hcount
    · rintro ⟨hnumbers, htexts, hlength, hstops⟩
      refine ⟨hnumbers, htexts, fun line hm => ?_, fun hstop hcount => ?_⟩
      · rw [← hend]
        exact (hnumbers.add_length_le_iff (Nat.le_add_right _ _)).mp
          (Nat.add_le_add_left hlength _) line hm
      · exact hstops (Nat.lt_of_add_lt_add_left ((hend _).mpr ⟨hstop, hcount⟩))

end Source

/-! ## Segments -/

namespace Segment

variable {lines : List Line} {segments : List (Segment Line)}

/-- On a trimmed line the scan finds no closer when there is none. -/
theorem forall_stays_open_iff :
    (∀ line ∈ lines, Scan.afterCloser? (trim line.text) = none) ↔
      ∀ line ∈ lines, ∀ t, TrimsTo line.text t → ¬['*', '/'] <:+: t := by
  refine forall₂_congr fun line _ => ?_
  rw [Scan.afterCloser?_eq_none_iff]
  constructor
  · intro h t ht
    rwa [← trimsTo_iff.mp ht]
  · exact fun h => h _ (trimsTo_trim line.text)

/-- Segments in which every line has its role are a way to cut their lines. -/
theorem cuts_of_wellCut (h : WellCut Line.text segments) :
    Cuts (segments.flatMap Segment.lines) segments := by
  induction segments with
  | nil => exact .nil
  | cons segment rest ih =>
    obtain ⟨hvalid, hlast, hrest⟩ := h
    rw [List.flatMap_cons]
    cases segment with
    | single line =>
      exact .single (trimsTo_trim line.text)
        (fun hopen => Bool.false_ne_true (hvalid.symm.trans (Scan.opensBlock_iff.mpr hopen)))
        (ih hrest)
    | inline line after =>
      exact .inline (trimsTo_trim line.text) (Scan.opensBlock_iff.mp hvalid.1)
        (closedBefore_iff.mpr hvalid.2) (ih hrest)
    | block opener inner closer after =>
      obtain ⟨hopen, hstays, hinner, hclose⟩ := hvalid
      rw [Segment.lines, List.append_assoc, List.cons_append, List.singleton_append]
      exact .block (trimsTo_trim opener.text) (Scan.opensBlock_iff.mp hopen)
        (Scan.afterCloser?_eq_none_iff.mp hstays) (forall_stays_open_iff.mp hinner)
        (trimsTo_trim closer.text) (closedBefore_iff.mpr hclose) (ih hrest)
    | unclosed opener more =>
      obtain ⟨hopen, hstays, hmore⟩ := hvalid
      obtain rfl := hlast rfl
      rw [List.flatMap_nil, List.append_nil]
      exact .unclosed (trimsTo_trim opener.text) (Scan.opensBlock_iff.mp hopen)
        (Scan.afterCloser?_eq_none_iff.mp hstays) (forall_stays_open_iff.mp hmore)

/-- Whatever lines are cut into has them all, each in its role. -/
theorem Cuts.wellCut (h : Cuts lines segments) :
    WellCut Line.text segments ∧ segments.flatMap Segment.lines = lines := by
  induction h with
  | nil => exact ⟨trivial, rfl⟩
  | single ht hopen hrest ih =>
    obtain ⟨hwell, rfl⟩ := ih
    refine ⟨⟨?_, fun h => absurd h Bool.false_ne_true, hwell⟩, rfl⟩
    rw [Valid, trimsTo_iff.mp ht, ← Bool.not_eq_true, Scan.opensBlock_iff]
    exact hopen
  | inline ht hopen hclose hrest ih =>
    obtain ⟨hwell, rfl⟩ := ih
    refine ⟨⟨?_, fun h => absurd h Bool.false_ne_true, hwell⟩, rfl⟩
    rw [Valid, trimsTo_iff.mp ht]
    exact ⟨Scan.opensBlock_iff.mpr hopen, closedBefore_iff.mp hclose⟩
  | block ht hopen hstays hinner hlast hclose hrest ih =>
    obtain ⟨hwell, rfl⟩ := ih
    refine ⟨⟨?_, fun h => absurd h Bool.false_ne_true, hwell⟩, ?_⟩
    · rw [Valid, trimsTo_iff.mp ht, trimsTo_iff.mp hlast]
      exact ⟨Scan.opensBlock_iff.mpr hopen, Scan.afterCloser?_eq_none_iff.mpr hstays,
        forall_stays_open_iff.mpr hinner, closedBefore_iff.mp hclose⟩
    · rw [List.flatMap_cons, Segment.lines, List.append_assoc]
      rfl
  | unclosed ht hopen hstays hmore =>
    refine ⟨⟨?_, fun _ => rfl, trivial⟩, List.append_nil _⟩
    rw [Valid, trimsTo_iff.mp ht]
    exact ⟨Scan.opensBlock_iff.mpr hopen, Scan.afterCloser?_eq_none_iff.mpr hstays,
      forall_stays_open_iff.mpr hmore⟩

/-- The first phase has one outcome, the segments that the scan reports on. -/
theorem cuts_iff : Cuts lines segments ↔ cut Line.text lines = segments := by
  constructor
  · intro h
    obtain ⟨hwell, rfl⟩ := h.wellCut
    exact cut_flatMap_lines hwell
  · rintro rfl
    have hwell : WellCut Line.text (cut Line.text lines) := wellCut_cut lines
    have hcuts := cuts_of_wellCut hwell
    rwa [lines_cut] at hcuts

end Segment

end Docblock
