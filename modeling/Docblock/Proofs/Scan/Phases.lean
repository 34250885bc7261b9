import Docblock.Proofs.Scan.Cutting

/-!
# The two phases of a scan

What a scan does in one pass is done in two phases that keep no state. The lines of
the range are cut into segments, and then each segment is judged by its own texts
and by what stands right in front of it: a comment on the line above the range, or a
segment that ends one. There is one way through both phases, and the scan finds the
edits and counts that it leads to.
-/

namespace Docblock

open Text

/-- Whether a trimmed line looks like the end of a comment. -/
def Text.EndsComment (t : Text) : Prop := ['*', '/'] <+: t ∨ ['*', '/'] <:+ t

instance : DecidablePred Text.EndsComment := fun _ => inferInstanceAs (Decidable (_ ∨ _))

/-- Whether a trimmed line is comment text. -/
def Text.IsCommentText (t : Text) : Prop := ['/', '/'] <+: t ∨ ['*'] <+: t ∨ ['/', '*'] <+: t

instance : DecidablePred Text.IsCommentText := fun _ => inferInstanceAs (Decidable (_ ∨ _ ∨ _))

namespace Segment

/-- Whether a segment ends a comment right above the line behind it. -/
def EndsComment : Segment Line → Prop
  | .single line => ∃ t, TrimsTo line.text t ∧ Text.EndsComment t
  | .inline _ after => after = []
  | .block _ _ _ after => after = []
  | .unclosed _ _ => False

/-- Whether a declaration on a line is documented: the line is the first one of the
range and the line above it ends a comment, or the settings ask for it and the
segment in front of it ends one. -/
def Documents (policy : ScanPolicy) (source : Source) (start : Nat)
    (before : Option (Segment Line)) (line : Line) : Prop :=
  (line.number = start ∧ ∃ above text t, start = above + 1 ∧ source.text? above = some text ∧
      TrimsTo text t ∧ Text.EndsComment t) ∨
    (policy.skipDocumented = true ∧ ∃ segment ∈ before, segment.EndsComment)

/-- The second phase for one segment: what becomes of it in a range that starts at
line `start`, given the segment in front of it. -/
inductive Judged (policy : ScanPolicy) (source : Source) (start : Nat)
    (before : Option (Segment Line)) : Segment Line → Verdict → Prop
  /-- Comment text declares nothing. -/
  | comment {line : Line} {t : Text} (ht : TrimsTo line.text t) (hcomment : IsCommentText t) :
      Judged policy source start before (.single line) .left
  /-- Most lines declare nothing. -/
  | plain {line : Line} {t : Text} (ht : TrimsTo line.text t) (hcode : ¬IsCommentText t)
      (hnone : Declaration.classify t = none) :
      Judged policy source start before (.single line) .left
  /-- A declaration may have a comment already. -/
  | documented {line : Line} {t : Text} {declaration : Declaration} (ht : TrimsTo line.text t)
      (hcode : ¬IsCommentText t) (hsome : Declaration.classify t = some declaration)
      (hdocuments : Documents policy source start before line) :
      Judged policy source start before (.single line) .documented
  /-- Any other declaration gets one. -/
  | commented {line : Line} {t : Text} {declaration : Declaration} (ht : TrimsTo line.text t)
      (hcode : ¬IsCommentText t) (hsome : Declaration.classify t = some declaration)
      (hbare : ¬Documents policy source start before line) :
      Judged policy source start before (.single line) (.commented line declaration)
  /-- A block on one line is laid out again if nothing follows it. -/
  | inlineLaidOut {line : Line} (hlay : policy.normalizeExisting = true) :
      Judged policy source start before (.inline line []) (.laidOut line line [line])
  | inlineLeft {line : Line} {after : Text}
      (hkeep : after ≠ [] ∨ policy.normalizeExisting = false) :
      Judged policy source start before (.inline line after) .left
  /-- So is a block on several lines. -/
  | blockLaidOut {opener closer : Line} {inner : List Line}
      (hlay : policy.normalizeExisting = true) :
      Judged policy source start before (.block opener inner closer [])
        (.laidOut opener closer (opener :: inner ++ [closer]))
  | blockLeft {opener closer : Line} {inner : List Line} {after : Text}
      (hkeep : after ≠ [] ∨ policy.normalizeExisting = false) :
      Judged policy source start before (.block opener inner closer after) .left
  /-- A block that stays open is only counted. -/
  | unclosed {opener : Line} {more : List Line} :
      Judged policy source start before (.unclosed opener more) .unclosed

/-- The second phase for segments that stand behind another one. -/
inductive AllJudged (policy : ScanPolicy) (source : Source) (start : Nat) :
    (before : Option (Segment Line)) → List (Segment Line) → List Verdict → Prop
  | nil {before : Option (Segment Line)} : AllJudged policy source start before [] []
  | cons {before : Option (Segment Line)} {segment : Segment Line} {verdict : Verdict}
      {rest : List (Segment Line)} {verdicts : List Verdict}
      (hfirst : Judged policy source start before segment verdict)
      (hrest : AllJudged policy source start (some segment) rest verdicts) :
      AllJudged policy source start before (segment :: rest) (verdict :: verdicts)

end Segment

/-- The verdicts that both phases lead to on a range of a source. -/
def Source.Leads (policy : ScanPolicy) (source : Source) (range : LineRange)
    (verdicts : List Verdict) : Prop :=
  ∃ lines segments, source.Has range lines ∧ Segment.Cuts lines segments ∧
    Segment.AllJudged policy source range.start none segments verdicts

/-- How many verdicts there are of each kind that is counted. -/
def Verdict.counts (verdicts : List Verdict) : Tally where
  generated := verdicts.countP fun | .commented _ _ => true | _ => false
  normalized := verdicts.countP fun | .laidOut _ _ _ => true | _ => false
  unterminated := verdicts.countP fun | .unclosed => true | _ => false
  skipped := verdicts.countP fun | .documented => true | _ => false

/-! ## Verdicts -/

/-- The scan sees the ends of comments. -/
theorem Text.endsComment_iff {t : Text} : EndsComment t ↔ Scan.closesComment t = true := by
  rw [EndsComment, Scan.closesComment, Bool.or_eq_true, startsWith_iff_isPrefix,
    endsWith_iff_isSuffix]
  rfl

/-- The scan sees what is comment text. -/
theorem Text.isCommentText_iff {t : Text} : IsCommentText t ↔ Scan.isCommentLine t = true := by
  rw [IsCommentText, Scan.isCommentLine, Bool.or_eq_true, Bool.or_eq_true, startsWith_iff_isPrefix,
    startsWith_iff_isPrefix, startsWith_iff_isPrefix, or_assoc]

namespace Segment

variable {segments : List (Segment Line)}

variable {policy : ScanPolicy} {source : Source} {start n : Nat} {before : Option (Segment Line)}

/-- The flag behind a segment tells whether it ends a comment. -/
theorem endsComment_iff {segment : Segment Line} :
    segment.EndsComment ↔ segment.closes Line.text = true := by
  cases segment with
  | single line =>
    rw [closes, ← Text.endsComment_iff]
    constructor
    · rintro ⟨t, ht, hends⟩
      rwa [trimsTo_iff.mp ht]
    · exact fun h => ⟨_, trimsTo_trim line.text, h⟩
  | inline line after => exact List.isEmpty_iff.symm
  | block opener inner closer after => exact List.isEmpty_iff.symm
  | unclosed opener more => exact ⟨False.elim, fun h => absurd h Bool.false_ne_true⟩

/-- The flag for the line above a range tells whether it ends a comment. -/
theorem closesAbove_iff :
    source.closesAbove start = true ↔ ∃ above text t, start = above + 1 ∧
      source.text? above = some text ∧ TrimsTo text t ∧ Text.EndsComment t := by
  cases start with
  | zero =>
    constructor
    · intro h
      cases h
    · rintro ⟨_, _, _, h, -⟩
      cases h
  | succ above =>
    rw [Source.closesAbove, decide_eq_true (Nat.succ_pos above), Bool.true_and,
      Nat.add_sub_cancel, Source.line?]
    cases htext : source.text? above with
    | none =>
      constructor
      · intro h
        cases h
      · rintro ⟨_, _, _, ⟨⟩, h, -⟩
        rw [htext] at h
        cases h
    | some text =>
      rw [Option.map_some, Option.any_some, ← Text.endsComment_iff]
      constructor
      · exact fun h => ⟨above, text, _, rfl, htext, trimsTo_trim text, h⟩
      · rintro ⟨_, _, t, ⟨⟩, h, ht, hends⟩
        rw [htext] at h
        cases h
        rwa [← trimsTo_iff.mp ht] at hends

/-- Whether a segment is the first one of a range, told by the number of its first line. -/
def Placed (start n : Nat) : (before : Option (Segment Line)) → Prop
  | none => n = start
  | some _ => start < n

/-- On the first line of a range only the line above counts, and behind it only the
segment in front. -/
theorem documents_iff {line : Line} (hline : line.number = n) (hplaced : Placed start n before) :
    Documents policy source start before line ↔
      documentedBy policy (source.closesAbove start) before = true := by
  rw [Documents, ← closesAbove_iff, hline]
  cases before with
  | none =>
    have hfirst : n = start := hplaced
    simp [documentedBy, hfirst]
  | some segment =>
    have hbehind : n ≠ start := Nat.ne_of_gt hplaced
    simp [documentedBy, hbehind, endsComment_iff]

/-- The verdict on a line of code depends on the declaration that its trimmed text is. -/
theorem verdict_single_of_code {line : Line} {t : Text} {documented : Bool}
    (ht : TrimsTo line.text t) (hcode : ¬IsCommentText t) :
    (Segment.single line).verdict policy documented =
      match Declaration.classify t with
      | none => .left
      | some declaration => if documented then .documented else .commented line declaration := by
  rw [Segment.verdict, Line.trimmed, trimsTo_iff.mp ht]
  exact if_neg (mt isCommentText_iff.mpr hcode)

/-- Code behind a closer and the settings keep a block as it is. -/
theorem ofClosed_eq_left {opener closer : Line} {lines : List Line} {after : Text}
    (h : after ≠ [] ∨ policy.normalizeExisting = false) :
    Verdict.ofClosed policy opener closer lines after = .left := by
  rw [Verdict.ofClosed, if_neg]
  rw [Bool.and_eq_true, List.isEmpty_iff, not_and_or, Bool.not_eq_true]
  exact h

/-- Otherwise a closed block is laid out again. -/
theorem ofClosed_eq_laidOut {opener closer : Line} {lines : List Line}
    (h : policy.normalizeExisting = true) :
    Verdict.ofClosed policy opener closer lines [] = .laidOut opener closer lines := by
  rw [Verdict.ofClosed, h]
  rfl

section Judged

variable {segment : Segment Line} {verdict : Verdict}

/-- Whatever a segment is judged to be is the verdict on it. -/
theorem Judged.verdict_eq (h : Judged policy source start before segment verdict)
    (hlines : Line.Consecutive n segment.lines) (hplaced : Placed start n before) :
    segment.verdict policy (documentedBy policy (source.closesAbove start) before) = verdict := by
  cases h with
  | comment ht hcomment =>
    rw [Segment.verdict, Line.trimmed, trimsTo_iff.mp ht, if_pos (isCommentText_iff.mp hcomment)]
  | plain ht hcode hnone => rw [verdict_single_of_code ht hcode, hnone]
  | documented ht hcode hsome hdocuments =>
    rw [verdict_single_of_code ht hcode, hsome]
    exact if_pos ((documents_iff hlines.1 hplaced).mp hdocuments)
  | commented ht hcode hsome hbare =>
    rw [verdict_single_of_code ht hcode, hsome]
    exact if_neg (mt (documents_iff hlines.1 hplaced).mpr hbare)
  | inlineLaidOut hlay => exact ofClosed_eq_laidOut hlay
  | inlineLeft hkeep => exact ofClosed_eq_left hkeep
  | blockLaidOut hlay => exact ofClosed_eq_laidOut hlay
  | blockLeft hkeep => exact ofClosed_eq_left hkeep
  | unclosed => rfl

/-- Every segment is judged. -/
theorem exists_judged (policy : ScanPolicy) (source : Source) (start : Nat)
    (before : Option (Segment Line)) (segment : Segment Line) :
    ∃ verdict, Judged policy source start before segment verdict := by
  cases segment with
  | single line =>
    have ht := trimsTo_trim line.text
    by_cases hcomment : IsCommentText (trim line.text)
    · exact ⟨_, .comment ht hcomment⟩
    · cases hdeclaration : Declaration.classify (trim line.text) with
      | none => exact ⟨_, .plain ht hcomment hdeclaration⟩
      | some declaration =>
        by_cases hdocuments : Documents policy source start before line
        · exact ⟨_, .documented ht hcomment hdeclaration hdocuments⟩
        · exact ⟨_, .commented ht hcomment hdeclaration hdocuments⟩
  | inline line after =>
    by_cases hkeep : after ≠ [] ∨ policy.normalizeExisting = false
    · exact ⟨_, .inlineLeft hkeep⟩
    · rw [not_or, not_not, Bool.not_eq_false] at hkeep
      obtain ⟨rfl, hlay⟩ := hkeep
      exact ⟨_, .inlineLaidOut hlay⟩
  | block opener inner closer after =>
    by_cases hkeep : after ≠ [] ∨ policy.normalizeExisting = false
    · exact ⟨_, .blockLeft hkeep⟩
    · rw [not_or, not_not, Bool.not_eq_false] at hkeep
      obtain ⟨rfl, hlay⟩ := hkeep
      exact ⟨_, .blockLaidOut hlay⟩
  | unclosed opener more => exact ⟨_, .unclosed⟩

end Judged

/-- The second phase has one outcome, the verdicts on the segments. The induction
follows the segments; the first one starts the range and the others do not. -/
theorem allJudged_iff {verdicts : List Verdict}
    (hlines : Line.Consecutive n (segments.flatMap Segment.lines)) (hplaced : Placed start n before)
    (hstart : start ≤ n) :
    AllJudged policy source start before segments verdicts ↔
      verdictsBehind policy (source.closesAbove start) before segments = verdicts := by
  induction segments generalizing n before verdicts with
  | nil =>
    constructor
    · rintro ⟨⟩
      rfl
    · rintro rfl
      exact .nil
  | cons segment rest ih =>
    obtain ⟨hfirst, hrest⟩ := Line.Consecutive.append_iff.mp hlines
    have hpos := segment.length_lines_pos
    have hnext : Placed start (n + segment.lines.length) (some segment) := by
      show start < n + segment.lines.length
      omega
    have hle := Nat.le_of_lt hnext
    rw [verdictsBehind_cons]
    constructor
    · rintro (_ | ⟨hjudged, hall⟩)
      rw [hjudged.verdict_eq hfirst hplaced, (ih hrest hnext hle).mp hall]
    · rintro rfl
      obtain ⟨verdict, hjudged⟩ := exists_judged policy source start before segment
      rw [hjudged.verdict_eq hfirst hplaced]
      exact .cons hjudged ((ih hrest hnext hle).mpr rfl)

end Segment

/-- Counting verdicts kind by kind adds up what each of them counts for. -/
theorem Verdict.counts_eq_total (verdicts : List Verdict) : counts verdicts = total verdicts := by
  induction verdicts with
  | nil => rfl
  | cons verdict rest ih =>
    have hsum : total (verdict :: rest) = verdict.tally + counts rest := congrArg _ ih.symm
    rw [hsum]
    show Tally.mk _ _ _ _ = Tally.mk (_ + _) (_ + _) (_ + _) (_ + _)
    rw [Tally.mk.injEq, List.countP_cons, List.countP_cons, List.countP_cons, List.countP_cons]
    cases verdict <;> simp [counts, tally, Nat.add_comm]

/-- The phases lead to the verdicts that tell the report of a scan, and to no others. -/
theorem Source.leads_iff {policy : ScanPolicy} {source : Source} {range : LineRange}
    {verdicts : List Verdict} :
    source.Leads policy range verdicts ↔ source.verdicts policy range = verdicts := by
  have hlines := source.consecutive_scanned range
  rw [← Segment.lines_cut Line.text (source.scanned range)] at hlines
  have hjudged : ∀ verdicts,
      Segment.AllJudged policy source range.start none
          (Segment.cut Line.text (source.scanned range)) verdicts ↔
        source.verdicts policy range = verdicts :=
    fun _ => Segment.allJudged_iff hlines rfl le_rfl
  constructor
  · rintro ⟨lines, segments, hhas, hcuts, hall⟩
    obtain rfl := Source.has_iff.mp hhas
    obtain rfl := Segment.cuts_iff.mp hcuts
    exact (hjudged verdicts).mp hall
  · intro h
    exact ⟨_, _, Source.has_iff.mpr rfl, Segment.cuts_iff.mpr rfl, (hjudged verdicts).mpr h⟩

namespace Scan

/-- A scan in one pass finds what the two phases lead to: there is one list of
verdicts, and its edits and counts are those of the scan. A source in a language
that is not enabled is refused. -/
theorem selection_two_phases (settings : Settings) (source : Source) (range : LineRange) :
    ∃ verdicts, source.Leads settings.scan range verdicts ∧
      (∀ other, source.Leads settings.scan range other → other = verdicts) ∧
      (settings.scan.languages = [] ∨ source.language ∈ settings.scan.languages →
        ∃ found, selection settings source range = .ok found ∧
          found.edits = verdicts.filterMap (Verdict.edit? settings.template) ∧
          found.tally = Verdict.counts verdicts) ∧
      (¬(settings.scan.languages = [] ∨ source.language ∈ settings.scan.languages) →
        selection settings source range =
          .error ⟨source.language, settings.scan.languages⟩) := by
  obtain ⟨hedits, htally⟩ := inRange_eq_verdicts settings source range
  have haccepts : settings.scan.accepts source.language = true ↔
      settings.scan.languages = [] ∨ source.language ∈ settings.scan.languages := by
    rw [ScanPolicy.accepts, Bool.or_eq_true, List.isEmpty_iff, List.contains_iff_mem]
  refine ⟨source.verdicts settings.scan range, Source.leads_iff.mpr rfl,
    fun other hother => (Source.leads_iff.mp hother).symm, fun hin => ?_, fun hout => ?_⟩
  · refine ⟨inRange settings source range, ?_, hedits, ?_⟩
    · rw [selection, checkLanguage, if_pos (haccepts.mpr hin)]
      rfl
    · rw [htally, Verdict.counts_eq_total]
  · rw [selection, checkLanguage, if_neg (mt haccepts.mp hout)]
    rfl

/-- A source that announces more lines than it has, with a declaration below a closer
on the first line of the range, one below a block, a bare one and a block that stays
open. -/
theorem selection_two_phases_short_source :
    ∃ source range verdicts found,
      source = Source.ofLines ["*/".toList, "f(a) \x7b".toList, "/** x".toList, "*/".toList,
        "g(b) \x7b".toList, "h() \x7b".toList, "/**".toList] 9 "javascript".toList ∧
      range = ⟨1, 7, by decide⟩ ∧
      verdicts = [.documented,
        .laidOut ⟨2, "/** x".toList⟩ ⟨3, "*/".toList⟩ [⟨2, "/** x".toList⟩, ⟨3, "*/".toList⟩],
        .documented, .commented ⟨5, "h() \x7b".toList⟩ ⟨.method, some ['h'], []⟩, .unclosed] ∧
      source.Leads {} range verdicts ∧ selection {} source range = .ok found ∧
      found.edits = verdicts.filterMap (Verdict.edit? {}) ∧ found.tally = ⟨1, 1, 1, 2⟩ := by
  obtain ⟨source, hsource⟩ : ∃ source, source = Source.ofLines ["*/".toList, "f(a) \x7b".toList,
    "/** x".toList, "*/".toList, "g(b) \x7b".toList, "h() \x7b".toList, "/**".toList] 9
      "javascript".toList := ⟨_, rfl⟩
  have hhas : source.Has ⟨1, 7, by decide⟩ [⟨1, "f(a) \x7b".toList⟩, ⟨2, "/** x".toList⟩,
      ⟨3, "*/".toList⟩, ⟨4, "g(b) \x7b".toList⟩, ⟨5, "h() \x7b".toList⟩, ⟨6, "/**".toList⟩] := by
    subst hsource
    exact Source.has_iff.mpr rfl
  have hcuts : Segment.Cuts [⟨1, "f(a) \x7b".toList⟩, ⟨2, "/** x".toList⟩, ⟨3, "*/".toList⟩,
      ⟨4, "g(b) \x7b".toList⟩, ⟨5, "h() \x7b".toList⟩, ⟨6, "/**".toList⟩]
      [.single ⟨1, "f(a) \x7b".toList⟩, .block ⟨2, "/** x".toList⟩ [] ⟨3, "*/".toList⟩ [],
        .single ⟨4, "g(b) \x7b".toList⟩, .single ⟨5, "h() \x7b".toList⟩,
        .unclosed ⟨6, "/**".toList⟩ []] := by
    refine .single (trimsTo_trim _) (by decide) ?_
    refine @Segment.Cuts.block _ _ _ _ _ [] _ _ (trimsTo_trim _) (by decide) (by decide)
      (fun _ hm => absurd hm List.not_mem_nil) (trimsTo_trim _) (closedBefore_iff.mpr rfl) ?_
    refine .single (trimsTo_trim _) (by decide) (.single (trimsTo_trim _) (by decide) ?_)
    exact .unclosed (trimsTo_trim _) (by decide) (by decide)
      fun _ hm => absurd hm List.not_mem_nil
  have hjudged : Segment.AllJudged {} source 1 none
      [.single ⟨1, "f(a) \x7b".toList⟩, .block ⟨2, "/** x".toList⟩ [] ⟨3, "*/".toList⟩ [],
        .single ⟨4, "g(b) \x7b".toList⟩, .single ⟨5, "h() \x7b".toList⟩,
        .unclosed ⟨6, "/**".toList⟩ []]
      [.documented,
        .laidOut ⟨2, "/** x".toList⟩ ⟨3, "*/".toList⟩ [⟨2, "/** x".toList⟩, ⟨3, "*/".toList⟩],
        .documented, .commented ⟨5, "h() \x7b".toList⟩ ⟨.method, some ['h'], []⟩, .unclosed] := by
    have habove : source.text? 0 = some "*/".toList := by
      rw [hsource]
      rfl
    refine .cons (.documented (trimsTo_trim _) (by decide) (by rfl) (.inl ⟨rfl, 0, _, _, rfl,
      habove, trimsTo_trim _, by decide⟩)) (.cons (.blockLaidOut rfl) ?_)
    refine .cons (.documented (trimsTo_trim _) (by decide) (by rfl) (.inr ⟨rfl, _, rfl, rfl⟩)) ?_
    refine .cons (.commented (trimsTo_trim _) (by decide) (by rfl) ?_) (.cons .unclosed .nil)
    rintro (⟨hfirst, -⟩ | ⟨-, _, ⟨⟩, _, ht, hends⟩)
    · cases hfirst
    · rw [← trimsTo_iff.mp ht] at hends
      exact absurd hends (by decide)
  have hleads : source.Leads {} ⟨1, 7, by decide⟩ _ := ⟨_, _, hhas, hcuts, hjudged⟩
  obtain ⟨verdicts, _, hunique, haccepted, _⟩ := selection_two_phases {} source ⟨1, 7, by decide⟩
  have haccepts : source.language ∈ ({} : Settings).scan.languages := by
    rw [hsource]
    decide
  obtain ⟨found, hfound, hedits, htally⟩ := haccepted (.inr haccepts)
  obtain rfl := hunique _ hleads
  exact ⟨source, _, _, found, hsource, rfl, rfl, hleads, hfound, hedits, htally⟩

end Scan

end Docblock
