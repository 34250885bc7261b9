import Docblock.Proofs.Edit.Order

/-!
# Splicing

Applying a batch is splicing its edits into the text one after the other, the
last one first. A batch is refused for the first edit with a fault, and without
faults for the first edit in order that starts in front of the end of an edit
before it.
-/

namespace Docblock

open Text

/-- Put a text in the place of the characters from `start` up to `stop`. -/
def Text.splice (start stop : Nat) (new t : Text) : Text := t.take start ++ new ++ t.drop stop

/-- The text in front of a splice stays. -/
theorem Text.take_splice {cursor start stop : Nat} {new t : Text} (h : cursor ≤ start)
    (hlength : cursor ≤ t.length) : (splice start stop new t).take cursor = t.take cursor := by
  have hle : cursor ≤ (t.take start).length := by
    rw [List.length_take]
    exact le_min h hlength
  rw [splice, List.append_assoc, List.take_append_of_le_length hle, List.take_take,
    Nat.min_eq_left h]

/-- Behind a place in front of a splice stand the rest, the new text and what follows. -/
theorem Text.drop_splice {cursor start stop : Nat} {new t : Text}
    (h : cursor ≤ (t.take start).length) :
    (splice start stop new t).drop cursor =
      (t.take start).drop cursor ++ new ++ t.drop stop := by
  rw [splice, List.append_assoc, List.drop_append_of_le_length h, List.append_assoc]

/-- The first of some edits that starts in front of the end of an edit before it;
`before` are edits in front of all of them. -/
def Edit.overlapping? : (before : List Edit) → List Edit → Option Edit
  | _, [] => none
  | before, edit :: rest =>
    if before.any fun earlier => edit.position.isBefore earlier.finish then some edit
    else overlapping? (edit :: before) rest

namespace Document

/-- Put the text of an edit in the place of what it takes away. -/
def splice (document : Document) (edit : Edit) (t : Text) : Text :=
  Text.splice (document.index edit.position) (document.index edit.finish)
    (replaceChar '\n' document.lineEnding.text edit.text) t

/-- The text of a document after all edits of a batch are spliced into it, the
last one in order first. -/
def spliced (document : Document) (batch : List Edit) : Text :=
  (Edit.ordered batch).foldr document.splice document.content

/-- Why a batch cannot be applied: the fault of the first edit that has one, or
else the first overlap in order. -/
def refusal? (document : Document) (batch : List Edit) : Option EditError :=
  match batch.findSome? document.fault? with
  | some error => some error
  | none => (Edit.overlapping? [] (Edit.ordered batch)).map fun edit => .overlap edit.position

variable {document : Document}

/-- Edits that do not start in front of a place leave the text in front of it. -/
theorem take_foldr_splice {cursor : Nat} {edits : List Edit}
    (hcursor : cursor ≤ document.content.length)
    (h : ∀ edit ∈ edits, cursor ≤ document.index edit.position) :
    (edits.foldr document.splice document.content).take cursor =
      document.content.take cursor := by
  induction edits with
  | nil => rfl
  | cons edit rest ih =>
    rw [List.forall_mem_cons] at h
    have hrest := ih h.2
    have hlength : cursor ≤ (rest.foldr document.splice document.content).length := by
      have hsame := congrArg List.length hrest
      rw [List.length_take, List.length_take, Nat.min_eq_left hcursor] at hsame
      rw [← hsame]
      exact Nat.min_le_right _ _
    rw [List.foldr_cons, splice, Text.take_splice h.1 hlength, hrest]

end Document

namespace Edit

/-- There is no overlap when no edit starts in front of the end of an earlier one. -/
theorem overlapping?_eq_none_iff {before edits : List Edit} :
    overlapping? before edits = none ↔
      (∀ edit ∈ edits, ∀ earlier ∈ before, edit.position.isBefore earlier.finish = false) ∧
        edits.Pairwise fun earlier later => later.position.isBefore earlier.finish = false := by
  induction edits generalizing before with
  | nil => simp [overlapping?]
  | cons first rest ih =>
    rw [overlapping?, List.forall_mem_cons, List.pairwise_cons]
    split
    · rename_i hany
      obtain ⟨earlier, hm, hbefore⟩ := List.any_eq_true.mp hany
      have hnot : ¬∀ earlier ∈ before, first.position.isBefore earlier.finish = false := by
        intro h
        rw [h earlier hm] at hbefore
        cases hbefore
      simp [hnot]
    · rename_i hnone
      have hfirst : ∀ earlier ∈ before, first.position.isBefore earlier.finish = false := by
        simpa using hnone
      rw [ih]
      simp only [List.forall_mem_cons, forall_and]
      constructor
      · rintro ⟨⟨hrest, hbefore⟩, hpairs⟩
        exact ⟨⟨hfirst, hbefore⟩, hrest, hpairs⟩
      · rintro ⟨⟨_, hbefore⟩, hrest, hpairs⟩
        exact ⟨⟨hrest, hbefore⟩, hpairs⟩

end Edit

namespace Span

variable {document : Document}

/-- How far the walk has come: no edit it has passed ends behind the cursor, and
one of them ends at it unless the walk has just begun. -/
structure Reached (document : Document) (before : List Edit) (cursor : Nat) : Prop where
  /-- The passed edits are in the document. -/
  fits : ∀ edit ∈ before, document.Fits edit
  /-- None of them ends behind the cursor. -/
  le : ∀ edit ∈ before, document.index edit.finish ≤ cursor
  /-- The cursor is where one of them ends. -/
  attained : cursor = 0 ∨ ∃ edit ∈ before, document.index edit.finish = cursor

/-- An edit starts in front of the cursor when it starts in front of the end of
an edit that was passed. -/
theorem Reached.lt_iff (hc : Row.Canonical document.rows) {before : List Edit} {cursor : Nat}
    (h : Reached document before cursor) {edit : Edit} (hedit : document.Fits edit) :
    document.index edit.position < cursor ↔
      (before.any fun earlier => edit.position.isBefore earlier.finish) = true := by
  rw [List.any_eq_true]
  constructor
  · intro hlt
    rcases h.attained with hzero | ⟨earlier, hm, hfinish⟩
    · rw [hzero] at hlt
      exact absurd hlt (Nat.not_lt_zero _)
    · rw [← hfinish] at hlt
      exact ⟨earlier, hm,
        (Document.isBefore_iff_index_lt hc hedit.starts (h.fits earlier hm).stops).mpr hlt⟩
  · rintro ⟨earlier, hm, hbefore⟩
    have hlt :=
      (Document.isBefore_iff_index_lt hc hedit.starts (h.fits earlier hm).stops).mp hbefore
    exact Nat.lt_of_lt_of_le hlt (h.le earlier hm)

/-- Behind an edit that the walk has passed the cursor is at its end. -/
theorem Reached.cons (hc : Row.Canonical document.rows) {before : List Edit} {cursor : Nat}
    (h : Reached document before cursor) {edit : Edit} (hedit : document.Fits edit)
    (hle : cursor ≤ document.index edit.position) :
    Reached document (edit :: before) (document.index edit.finish) := by
  have horder := hedit.index_le hc
  refine ⟨List.forall_mem_cons.mpr ⟨hedit, h.fits⟩, ?_, .inr ⟨edit, List.mem_cons_self, rfl⟩⟩
  rw [List.forall_mem_cons]
  refine ⟨Nat.le_refl _, fun earlier hm => ?_⟩
  exact (h.le earlier hm).trans (hle.trans horder)

/-- The walk over the places of edits stops at the first overlap, and otherwise
leaves the spliced text behind the cursor. -/
theorem weave_map_place (hc : Row.Canonical document.rows) {before edits : List Edit} {cursor : Nat}
    (hreached : Reached document before cursor) (hfits : ∀ edit ∈ edits, document.Fits edit) :
    weave document.lineEnding.text cursor (document.content.drop cursor)
        (edits.map document.place) =
      match Edit.overlapping? before edits with
      | some edit => .error (.overlap edit.position)
      | none => .ok ((edits.foldr document.splice document.content).drop cursor) := by
  induction edits generalizing before cursor with
  | nil => rfl
  | cons edit rest ih =>
    rw [List.forall_mem_cons] at hfits
    rw [List.map_cons, weave, Edit.overlapping?]
    by_cases hlt : document.index edit.position < cursor
    · have hany := (hreached.lt_iff hc hfits.1).mp hlt
      rw [if_pos hany]
      exact if_pos hlt
    · have hany := fun h => hlt ((hreached.lt_iff hc hfits.1).mpr h)
      have hle := Nat.not_lt.mp hlt
      have horder := hfits.1.index_le hc
      have hnext := hreached.cons hc hfits.1 hle
      have hdrop : (document.content.drop cursor).drop (document.index edit.finish - cursor) =
          document.content.drop (document.index edit.finish) := by
        rw [List.drop_drop, Nat.add_sub_cancel' (hle.trans horder)]
      rw [if_neg hany, Document.place]
      dsimp only
      rw [if_neg hlt, hdrop, ih hnext hfits.2]
      cases hover : Edit.overlapping? (edit :: before) rest with
      | some later => rfl
      | none =>
        dsimp only
        -- The later edits leave the text in front of this one, so what the walk
        -- copies is what the splices keep.
        have hbehind : ∀ later ∈ rest,
            document.index edit.position ≤ document.index later.position := by
          intro later hm
          have hfree := (Edit.overlapping?_eq_none_iff.mp hover).1 later hm edit
            List.mem_cons_self
          exact horder.trans ((Document.isBefore_eq_false_iff_index_le hc
            (hfits.2 later hm).starts hfits.1.stops).mp hfree)
        have hlength := Document.index_le_length hfits.1.starts
        have hfront : cursor ≤ (document.content.take (document.index edit.position)).length := by
          rw [List.length_take]
          exact le_min hle (hle.trans hlength)
        rw [← Document.take_foldr_splice hlength hbehind] at hfront
        rw [List.foldr_cons, Document.splice, Text.drop_splice hfront,
          Document.take_foldr_splice hlength hbehind, List.drop_take]

end Span

namespace Document

/-- A batch is applied by splicing unless there is a reason to refuse it. -/
theorem apply_eq (document : Document) (hc : Row.Canonical document.rows) (batch : List Edit) :
    document.apply batch =
      match document.refusal? batch with
      | some error => .error error
      | none => .ok (document.spliced batch) := by
  rw [apply, Span.ofEdits_eq, refusal?]
  cases hfault : batch.findSome? document.fault? with
  | some error => rfl
  | none =>
    dsimp only
    have hfits : ∀ edit ∈ batch, document.Fits edit := fun edit hm =>
      fault?_eq_none_iff.mp (List.findSome?_eq_none_iff.mp hfault edit hm)
    have hordered : ∀ edit ∈ Edit.ordered batch, document.Fits edit := fun edit hm =>
      hfits edit ((Edit.ordered_perm batch).mem_iff.mp hm)
    have hbegun : Span.Reached document [] 0 :=
      ⟨fun _ hm => absurd hm List.not_mem_nil, fun _ hm => absurd hm List.not_mem_nil, .inl rfl⟩
    have hweave := Span.weave_map_place hc hbegun hordered
    rw [List.drop_zero, List.drop_zero] at hweave
    rw [Span.sort_map_place hc hfits, hweave, spliced]
    cases Edit.overlapping? [] (Edit.ordered batch) with
    | some edit => rfl
    | none => rfl

/-- There is no reason to refuse a batch without faults and overlaps. -/
theorem refusal?_eq_none_iff (document : Document) (batch : List Edit) :
    document.refusal? batch = none ↔
      batch.findSome? document.fault? = none ∧
        (Edit.ordered batch).Pairwise fun earlier later =>
          later.position.isBefore earlier.finish = false := by
  rw [refusal?]
  cases batch.findSome? document.fault? with
  | some error => simp
  | none =>
    dsimp only
    rw [Option.map_eq_none_iff, Edit.overlapping?_eq_none_iff]
    simp

/-- A batch without faults is applied exactly when each edit leaves room for those
behind it. -/
theorem refusal?_eq_none_iff_leavesRoom (document : Document) (batch : List Edit) :
    document.refusal? batch = none ↔
      batch.findSome? document.fault? = none ∧ batch.Pairwise Edit.LeavesRoom := by
  rw [refusal?_eq_none_iff]
  refine and_congr_right fun hfault => Edit.pairwise_ordered_iff fun edit hm => ?_
  exact (fault?_eq_none_iff.mp (List.findSome?_eq_none_iff.mp hfault edit hm)).inOrder

/-- A batch is refused for its first fault, or else for its first overlap in order,
and is applied when it has neither. Which edits overlap is told by the batch alone:
they reach into each other, or they start at one position and the one that the batch
has first takes text away. Edits that touch do not overlap otherwise. -/
theorem apply_eq_error_iff (language content : Text) (batch : List Edit) :
    (∀ error, (ofText language content).apply batch = .error error ↔
        (ofText language content).refusal? batch = some error) ∧
      ((∃ text, (ofText language content).apply batch = .ok text) ↔
        batch.findSome? (ofText language content).fault? = none ∧
          (Edit.ordered batch).Pairwise fun earlier later =>
            later.position.isBefore earlier.finish = false) ∧
      ((∃ text, (ofText language content).apply batch = .ok text) ↔
        batch.findSome? (ofText language content).fault? = none ∧
          batch.Pairwise fun a b =>
            a.Apart b ∧ (a.position = b.position → a.finish = a.position)) := by
  have hc : Row.Canonical (ofText language content).rows := Row.canonical_ofText content
  have happly := apply_eq _ hc batch
  have herror : ∀ error, (ofText language content).apply batch = .error error ↔
      (ofText language content).refusal? batch = some error := by
    intro error
    rw [happly]
    cases (ofText language content).refusal? batch with
    | some found => simp
    | none => simp
  have hok : (∃ text, (ofText language content).apply batch = .ok text) ↔
      (ofText language content).refusal? batch = none := by
    rw [happly]
    cases (ofText language content).refusal? batch with
    | some found => simp
    | none => simp
  refine ⟨herror, ?_, ?_⟩
  · rw [hok, refusal?_eq_none_iff]
  · rw [hok, refusal?_eq_none_iff_leavesRoom]
    rfl

/-- An insertion touches a replacement that starts where it does. Behind the
replacement in the batch it is refused, and in front of it it is not. -/
theorem apply_touching_refused :
    (Edit.insert ⟨0, 0⟩ "x".toList).finish =
        (Edit.replace ⟨0, 0⟩ ⟨0, 1⟩ "b".toList).position ∧
      (ofText [] "a".toList).apply
          [.replace ⟨0, 0⟩ ⟨0, 1⟩ "b".toList, .insert ⟨0, 0⟩ "x".toList] =
        .error (.overlap ⟨0, 0⟩) ∧
      (ofText [] "a".toList).apply
          [.insert ⟨0, 0⟩ "x".toList, .replace ⟨0, 0⟩ ⟨0, 1⟩ "b".toList] = .ok "xb".toList := by
  decide

end Document

end Docblock
