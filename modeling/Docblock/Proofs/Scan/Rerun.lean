import Docblock.Proofs.Scan.Documented
import Docblock.Proofs.Scan.Inert

/-!
# Documenting a text twice

The segments of a documented text are those of the old text with the segments
of the new comments between them. A second scan finds nothing to do in a new
comment, and takes a declaration below one for documented, so two scans that
differ only in whether they lay out blocks do what one scan does that lays them
out if one of the two does.
-/

namespace Docblock

open Text

namespace Segment

/-- The segments that a scan leaves of one segment. -/
def documented (template : Template) (normalize : Bool) (ending : Break) (above : Bool)
    (segment : Segment Row) : List (Segment Row) :=
  cut Row.text (commentRows ending (segment.comment? template above)) ++
    [segment.settled normalize ending]

/-- The segments that a scan leaves of segments that follow each other. -/
def documentedAll (template : Template) (normalize : Bool) (ending : Break) :
    (above : Bool) → List (Segment Row) → List (Segment Row)
  | _, [] => []
  | above, segment :: rest =>
    segment.documented template normalize ending above ++
    documentedAll template normalize ending (segment.closes Row.text) rest

/-- What segments that follow each other count for. -/
def tallies (normalize : Bool) : (above : Bool) → List (Segment Row) → Tally
  | _, [] => {}
  | above, segment :: rest =>
    segment.tally normalize above + tallies normalize (segment.closes Row.text) rest

variable {template : Template} {normalize : Bool} {ending : Break} {above : Bool}
variable {segment : Segment Row}

/-- Settling a segment does not change whether it closes a comment. -/
@[simp] theorem closes_settled :
    (segment.settled normalize ending).closes Row.text = segment.closes Row.text := by
  rw [settled]
  split
  · exact closes_relaid ending segment
  · rfl

@[simp] theorem isUnclosed_settled :
    (segment.settled normalize ending).isUnclosed = segment.isUnclosed := by
  rw [settled]
  split
  · exact isUnclosed_relaid ending segment
  · rfl

@[simp] theorem isBlock_settled :
    (segment.settled normalize ending).isBlock = segment.isBlock := by
  rw [settled]
  split
  · exact isBlock_relaid ending segment
  · rfl

/-- A segment that is settled declares what it did. -/
@[simp] theorem declares_settled :
    (segment.settled normalize ending).declares = segment.declares := by
  rw [settled]
  split
  · cases segment <;> rfl
  · rfl

/-- It gets the comment that it would have got. -/
@[simp] theorem comment?_settled :
    (segment.settled normalize ending).comment? template above =
      segment.comment? template above := by
  rw [settled]
  split
  · cases segment <;> rfl
  · rfl

/-- The lines of a settled segment keep their roles. -/
theorem valid_settled (h : segment.Valid Row.text) :
    (segment.settled normalize ending).Valid Row.text := by
  rw [settled]
  split
  · exact valid_relaid ending h
  · exact h

/-- A block is laid out when the first scan or the second one lays it out. -/
theorem settled_settled (h : segment.Valid Row.text) (again : Bool) :
    (segment.settled normalize ending).settled again ending =
      segment.settled (normalize || again) ending := by
  rw [settled, isBlock_settled, settled, settled]
  cases segment.isBlock with
  | false => rfl
  | true =>
    cases normalize with
    | false => rfl
    | true =>
      cases again with
      | false => rfl
      | true => exact relaid_relaid ending h

/-- What a comment that goes above a segment is made of. -/
theorem comment?_eq_some {comment : Text} (h : segment.comment? template above = some comment) :
    ∃ row declaration, segment = .single row ∧
      Declaration.classify (trim row.text) = some declaration ∧
      comment = Comment.layout (indent row.text) (Comment.skeleton template declaration) := by
  cases segment with
  | single row =>
    rw [← added?_of_skipDocumented { template := template } rfl 0 above 0 row] at h
    obtain ⟨declaration, hd, rfl⟩ := Scan.added?_eq_some h
    exact ⟨row, declaration, rfl, hd, rfl⟩
  | inline row after => cases h
  | block opener inner closer after => cases h
  | unclosed opener more => cases h

/-- The rows of the comment above a segment, if there is one. -/
theorem exists_laidRows_of_comment? (ending : Break) (ht : template.OneLine)
    (hl : ∀ row ∈ segment.lines, '\n' ∉ row.text) {comment : Text}
    (h : segment.comment? template above = some comment) :
    ∃ indent inner, (∀ c ∈ indent, isBlank c = true) ∧ (∀ l ∈ inner, ∃ r, l = '*' :: r) ∧
      commentRows ending (some comment) =
        laidRows indent ending (Comment.opener :: (inner ++ [Scan.closer])) := by
  obtain ⟨row, declaration, rfl, hd, rfl⟩ := comment?_eq_some h
  have hrow : '\n' ∉ row.text := hl row List.mem_cons_self
  have htrim : '\n' ∉ trim row.text := fun hm => hrow (mem_of_mem_trim hm)
  have hindent : '\n' ∉ indent row.text := fun hm => hrow (mem_of_mem_indent hm)
  refine ⟨indent row.text, Comment.skeletonInner template declaration,
    fun _ hm => isBlank_of_mem_indent hm, fun _ hm => Comment.star_of_mem_skeletonInner hm, ?_⟩
  exact commentRows_layout ht (Declaration.takenFrom_of_classify hd) htrim hindent ending

/-- Nothing in a new comment is changed or counted. -/
theorem inert_of_mem_cut_commentRows (ending : Break) (above : Bool) (ht : template.OneLine)
    (hl : ∀ row ∈ segment.lines, '\n' ∉ row.text) :
    ∀ part ∈ cut Row.text (commentRows ending (segment.comment? template above)),
      Inert ending part := by
  cases hc : segment.comment? template above with
  | none =>
    rw [commentRows, cut]
    exact fun _ hm => absurd hm List.not_mem_nil
  | some comment =>
    obtain ⟨indent, inner, hi, hinner, hrows⟩ :=
      exists_laidRows_of_comment? ending ht hl hc
    rw [hrows]
    exact inert_of_mem_cut_comment hi hinner

/-- A segment stands below a comment if it did so before or has got one. -/
theorem closesAfter_cut_commentRows (ht : template.OneLine)
    (hl : ∀ row ∈ segment.lines, '\n' ∉ row.text) :
    closesAfter Row.text above
        (cut Row.text (commentRows ending (segment.comment? template above))) =
      (above || (segment.comment? template above).isSome) := by
  cases hc : segment.comment? template above with
  | none =>
    rw [commentRows, cut, Option.isSome_none, Bool.or_false]
    rfl
  | some comment =>
    obtain ⟨indent, inner, hi, hinner, hrows⟩ :=
      exists_laidRows_of_comment? ending ht hl hc
    rw [hrows, closesAfter_cut_comment hi hinner, Option.isSome_some, Bool.or_true]

/-- Segments are documented part by part, each with what stands in front of it. -/
theorem documentedAll_append (a b : List (Segment Row)) :
    documentedAll template normalize ending above (a ++ b) =
      documentedAll template normalize ending above a ++
        documentedAll template normalize ending (closesAfter Row.text above a) b := by
  induction a generalizing above with
  | nil => rfl
  | cons segment rest ih =>
    rw [List.cons_append, documentedAll, documentedAll, ih, List.append_assoc]
    rfl

/-- A scan leaves inert segments as they are. -/
theorem documentedAll_of_inert {segments : List (Segment Row)}
    (h : ∀ segment ∈ segments, Inert ending segment) :
    documentedAll template normalize ending above segments = segments := by
  induction segments generalizing above with
  | nil => rfl
  | cons segment rest ih =>
    rw [List.forall_mem_cons] at h
    have hnone : segment.comment? template above = none := by
      rw [← Option.not_isSome_iff_eq_none, isSome_comment?, h.1.silent]
      exact Bool.false_ne_true
    have hsettled : segment.settled normalize ending = segment := by
      rw [settled, h.1.relaid, ite_self]
    rw [documentedAll, documented, hnone, hsettled, ih h.2, commentRows, cut]
    rfl

/-- A second scan of what a scan leaves of a segment. -/
theorem documentedAll_documented (ht : template.OneLine) (hv : segment.Valid Row.text)
    (hl : ∀ row ∈ segment.lines, '\n' ∉ row.text) (again : Bool) :
    documentedAll template again ending above (segment.documented template normalize ending above) =
      segment.documented template (normalize || again) ending above := by
  have hinert := inert_of_mem_cut_commentRows ending above ht hl
  -- A segment that has got a comment stands below one, and gets no other.
  have hnone : (segment.settled normalize ending).comment? template
      (above || (segment.comment? template above).isSome) =
        if (segment.comment? template above).isSome then none
        else segment.comment? template above := by
    rw [comment?_settled]
    cases hc : segment.comment? template above with
    | none => rw [Option.isSome_none, Bool.or_false, hc]; rfl
    | some comment =>
      rw [Option.isSome_some, Bool.or_true, if_pos rfl, ← Option.not_isSome_iff_eq_none,
        isSome_comment?, Bool.not_true, Bool.and_false]
      exact Bool.false_ne_true
  rw [documented, documentedAll_append, documentedAll_of_inert hinert,
    closesAfter_cut_commentRows ht hl, documentedAll, documentedAll, documented, hnone,
    settled_settled hv, List.append_nil, documented]
  cases segment.comment? template above with
  | none =>
    rw [Option.isSome_none, if_neg Bool.false_ne_true, commentRows, cut]
    rfl
  | some comment =>
    rw [Option.isSome_some, if_pos rfl]
    congr 1
    rw [commentRows, cut]
    rfl

/-- Whatever is put above a segment, the segment itself decides whether a comment ends
behind it. -/
theorem closesAfter_documented :
    closesAfter Row.text above (segment.documented template normalize ending above) =
      segment.closes Row.text := by
  rw [documented, closesAfter_append]
  exact closes_settled

/-- Two scans do what one scan does that lays out blocks if one of the two does. -/
theorem documentedAll_documentedAll (ht : template.OneLine) {segments : List (Segment Row)}
    (hw : WellCut Row.text segments) (hl : ∀ row ∈ segments.flatMap lines, '\n' ∉ row.text)
    (again : Bool) :
    documentedAll template again ending above
        (documentedAll template normalize ending above segments) =
      documentedAll template (normalize || again) ending above segments := by
  induction segments generalizing above with
  | nil => rfl
  | cons segment rest ih =>
    obtain ⟨hv, _, hrest⟩ := hw
    rw [List.flatMap_cons, List.forall_mem_append] at hl
    rw [documentedAll, documentedAll_append, documentedAll_documented ht hv hl.1,
      closesAfter_documented, ih hrest hl.2, documentedAll]

/-- Segments that change nothing can stand in front of others. -/
theorem wellCut_append_of_inert {a b : List (Segment Row)}
    (ha : ∀ segment ∈ a, Inert ending segment) (hb : WellCut Row.text b) :
    WellCut Row.text (a ++ b) := by
  induction a with
  | nil => exact hb
  | cons segment rest ih =>
    rw [List.forall_mem_cons] at ha
    refine ⟨ha.1.valid, ?_, ih ha.2⟩
    intro hu
    rw [ha.1.ended] at hu
    cases hu

/-- The segments of a documented text are found again in its rows. -/
theorem wellCut_documentedAll (ht : template.OneLine) {segments : List (Segment Row)}
    (hw : WellCut Row.text segments) (hl : ∀ row ∈ segments.flatMap lines, '\n' ∉ row.text) :
    WellCut Row.text (documentedAll template normalize ending above segments) := by
  induction segments generalizing above with
  | nil => trivial
  | cons segment rest ih =>
    obtain ⟨hv, hlast, hrest⟩ := hw
    rw [List.flatMap_cons, List.forall_mem_append] at hl
    rw [documentedAll, documented, List.append_assoc]
    apply wellCut_append_of_inert (inert_of_mem_cut_commentRows ending above ht hl.1)
    refine ⟨valid_settled hv, ?_, ih hrest hl.2⟩
    intro hu
    rw [isUnclosed_settled] at hu
    rw [hlast hu]
    rfl

end Segment

/-- How the counts of a second scan follow from those of the first one. -/
structure Tally.Repeats (first second : Tally) : Prop where
  /-- Nothing new is generated. -/
  generated : second.generated = 0
  /-- What was generated or skipped is skipped. -/
  skipped : second.skipped = first.generated + first.skipped
  /-- The same blocks are left open. -/
  unterminated : second.unterminated = first.unterminated

/-- Counts that repeat part by part repeat together. -/
theorem Tally.Repeats.add {a b c d : Tally} (h : a.Repeats b) (h' : c.Repeats d) :
    (a + c).Repeats (b + d) where
  generated := by
    show b.generated + d.generated = 0
    rw [h.generated, h'.generated]
  skipped := by
    show b.skipped + d.skipped = a.generated + c.generated + (a.skipped + c.skipped)
    rw [h.skipped, h'.skipped]
    omega
  unterminated := by
    show b.unterminated + d.unterminated = a.unterminated + c.unterminated
    rw [h.unterminated, h'.unterminated]

namespace Segment

variable {template : Template} {normalize again : Bool} {ending : Break} {above : Bool}
variable {segment : Segment Row}

/-- Segments are counted part by part. -/
theorem tallies_append (a b : List (Segment Row)) :
    tallies normalize above (a ++ b) =
      tallies normalize above a + tallies normalize (closesAfter Row.text above a) b := by
  induction a generalizing above with
  | nil => exact (Tally.zero_add _).symm
  | cons segment rest ih =>
    rw [List.cons_append, tallies, tallies, ih, Tally.add_assoc]
    rfl

/-- Inert segments count for nothing but blocks that are laid out. -/
theorem repeats_of_inert {segments : List (Segment Row)}
    (h : ∀ segment ∈ segments, Inert ending segment) :
    ({} : Tally).Repeats (tallies again above segments) := by
  induction segments generalizing above with
  | nil => exact ⟨rfl, rfl, rfl⟩
  | cons segment rest ih =>
    rw [List.forall_mem_cons] at h
    have hfirst : ({} : Tally).Repeats (segment.tally again above) := by
      rw [tally, h.1.silent, h.1.ended]
      exact ⟨rfl, rfl, rfl⟩
    exact hfirst.add (ih h.2)

/-- What a second scan counts in what a scan leaves of a segment. -/
theorem repeats_documented (ht : template.OneLine)
    (hl : ∀ row ∈ segment.lines, '\n' ∉ row.text) :
    (segment.tally normalize above).Repeats
      (tallies again above (segment.documented template normalize ending above)) := by
  have hinert := inert_of_mem_cut_commentRows ending above ht hl
  have hself : (segment.tally normalize above).Repeats
      ((segment.settled normalize ending).tally again
        (above || (segment.declares && !above))) := by
    rw [tally, tally, declares_settled, isUnclosed_settled]
    refine ⟨?_, ?_, rfl⟩
    · cases segment.declares <;> cases above <;> rfl
    · cases segment.declares <;> cases above <;> rfl
  rw [documented, tallies_append, closesAfter_cut_commentRows ht hl, isSome_comment?, tallies,
    tallies, Tally.add_zero, ← Tally.zero_add (segment.tally normalize above)]
  exact (repeats_of_inert hinert).add hself

/-- What a second scan counts. -/
theorem repeats_documentedAll (ht : template.OneLine) {segments : List (Segment Row)}
    (hl : ∀ row ∈ segments.flatMap lines, '\n' ∉ row.text) :
    (tallies normalize above segments).Repeats
      (tallies again above (documentedAll template normalize ending above segments)) := by
  induction segments generalizing above with
  | nil => exact ⟨rfl, rfl, rfl⟩
  | cons segment rest ih =>
    rw [List.flatMap_cons, List.forall_mem_append] at hl
    rw [tallies, documentedAll, tallies_append, closesAfter_documented]
    exact (repeats_documented ht hl.1).add (ih hl.2)

variable {settings : Settings} {first n : Nat}

/-- The counts of the reports on segments. -/
theorem tally_reports (h : settings.scan.skipDocumented = true) (first : Nat) (above : Bool)
    (n : Nat) (segments : List (Segment Row)) :
    (reports Row.text settings first above n segments).tally =
      tallies settings.scan.normalizeExisting above segments := by
  induction segments generalizing above n with
  | nil => rfl
  | cons segment rest ih =>
    rw [reports, tallies, ← tally_report h first above n, ← ih]
    rfl

/-- The rows that the patches of segments leave are those of the segments that
a scan leaves. -/
theorem renewed_patches (h : settings.scan.skipDocumented = true) (ending : Break) (first : Nat)
    (above : Bool) (n : Nat) {segments : List (Segment Row)} (hw : WellCut Row.text segments)
    (hl : ∀ row ∈ segments.flatMap lines, '\n' ∉ row.text) :
    (patches settings first above n segments).flatMap (Patch.renewed ending) =
      (documentedAll settings.template settings.scan.normalizeExisting ending above
        segments).flatMap lines := by
  induction segments generalizing above n with
  | nil => rfl
  | cons segment rest ih =>
    obtain ⟨hv, _, hrest⟩ := hw
    rw [List.flatMap_cons, List.forall_mem_append] at hl
    rw [patches, documentedAll, documented, List.flatMap_cons, renewed_patch h ending hv hl.1,
      ih _ _ hrest hl.2, List.flatMap_append, List.flatMap_append, lines_cut]
    simp

end Segment

end Docblock
