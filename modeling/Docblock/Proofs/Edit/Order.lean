import Mathlib.Data.List.Sort
import Docblock.Proofs.Edit.Apply

/-!
# The order of a batch

The edits of a batch are put in the order of their positions, and edits at one
position keep the order of the batch. An edit has a place in the text when its
positions are in the document and in order; the places of a batch without
faults are sorted as the edits are.
-/

namespace Docblock

namespace Edit

/-- Where the text that an edit takes away ends. -/
def finish (edit : Edit) : Position := edit.replacesUntil.getD edit.position

/-- Whether an edit comes before another one or is the same, given their numbers
in the batch. -/
def comesBefore (a b : Edit × Nat) : Bool :=
  a.1.position.isBefore b.1.position ||
    (decide (a.1.position = b.1.position) && decide (a.2 ≤ b.2))

/-- The edits of a batch in the order of their positions, those at one position
in the order of the batch. -/
def ordered (batch : List Edit) : List Edit :=
  (batch.zipIdx.mergeSort comesBefore).map Prod.fst

/-- The position decides, and at one position the number. -/
theorem comesBefore_iff (a b : Edit × Nat) :
    comesBefore a b = true ↔
      a.1.position.isBefore b.1.position = true ∨ (a.1.position = b.1.position ∧ a.2 ≤ b.2) := by
  simp [comesBefore]

/-- Edits can be sorted: what comes before an edit comes before all behind it. -/
theorem comesBefore_trans (a b c : Edit × Nat) (hab : comesBefore a b = true)
    (hbc : comesBefore b c = true) : comesBefore a c = true := by
  rw [comesBefore_iff] at hab hbc ⊢
  rcases hab with hab | ⟨hab, hle⟩
  · rcases hbc with hbc | ⟨hbc, _⟩
    · exact .inl (Position.isBefore_trans hab hbc)
    · exact .inl (hbc ▸ hab)
  · rcases hbc with hbc | ⟨hbc, hle'⟩
    · exact .inl (hab ▸ hbc)
    · exact .inr ⟨hab.trans hbc, hle.trans hle'⟩

/-- Of two edits one comes before the other. -/
theorem comesBefore_total (a b : Edit × Nat) : (comesBefore a b || comesBefore b a) = true := by
  rw [Bool.or_eq_true, comesBefore_iff, comesBefore_iff]
  rcases a.1.position.isBefore_or_eq_or_isBefore b.1.position with hab | heq | hba
  · exact .inl (.inl hab)
  · exact (Nat.le_total a.2 b.2).imp (.inr ⟨heq, ·⟩) (.inr ⟨heq.symm, ·⟩)
  · exact .inr (.inl hba)

/-- Numbered edits that come before each other have the same number. -/
theorem number_eq_of_comesBefore {a b : Edit × Nat} (hab : comesBefore a b = true)
    (hba : comesBefore b a = true) : a.2 = b.2 := by
  rw [comesBefore_iff] at hab hba
  rcases hab with hab | ⟨hab, hle⟩
  · rcases hba with hba | ⟨hba, _⟩
    · have hself := Position.isBefore_trans hab hba
      rw [Position.isBefore_self] at hself
      cases hself
    · rw [hba, Position.isBefore_self] at hab
      cases hab
  · rcases hba with hba | ⟨_, hle'⟩
    · rw [hab, Position.isBefore_self] at hba
      cases hba
    · exact Nat.le_antisymm hle hle'

/-- Two edits of a batch that come before each other are the same one. -/
theorem eq_of_comesBefore {batch : List Edit} {a b : Edit × Nat} (ha : a ∈ batch.zipIdx)
    (hb : b ∈ batch.zipIdx) (hab : comesBefore a b = true) (hba : comesBefore b a = true) :
    a = b := by
  have hnumber := number_eq_of_comesBefore hab hba
  obtain ⟨edit, number⟩ := a
  obtain ⟨other, number'⟩ := b
  dsimp only at hnumber
  subst hnumber
  obtain ⟨_, hedit⟩ := List.mem_zipIdx' ha
  obtain ⟨_, hother⟩ := List.mem_zipIdx' hb
  rw [hedit, hother]

/-- The numbered edits of a batch in order are the only sorted ones. -/
theorem mergeSort_eq_of_perm {batch : List Edit} {sorted : List (Edit × Nat)}
    (hperm : sorted.Perm batch.zipIdx) (hsorted : sorted.Pairwise (comesBefore · ·)) :
    batch.zipIdx.mergeSort comesBefore = sorted := by
  have hperm' := List.mergeSort_perm batch.zipIdx comesBefore
  have hsorted' := List.pairwise_mergeSort comesBefore_trans comesBefore_total batch.zipIdx
  refine List.Perm.eq_of_pairwise ?_ hsorted' hsorted (hperm'.trans hperm.symm)
  intro a b ha hb
  exact eq_of_comesBefore (hperm'.mem_iff.mp ha) (hperm.mem_iff.mp hb)

/-- Ordering a batch moves its edits only. -/
theorem ordered_perm (batch : List Edit) : (ordered batch).Perm batch := by
  have h := (List.mergeSort_perm batch.zipIdx comesBefore).map Prod.fst
  rwa [List.zipIdx_map_fst] at h

/-- Whether an edit ends where another one starts, or in front of it. -/
def EndsBefore (a b : Edit) : Prop := b.position.isBefore a.finish = false

/-- Whether neither of two edits reaches into the other one. Edits that only touch,
because one starts where the other one ends, are apart. -/
def Apart (a b : Edit) : Prop := a.EndsBefore b ∨ b.EndsBefore a

/-- Whether an edit leaves room for one that the batch has behind it: the two are
apart, and text is taken away at a common position by the later one only. -/
def LeavesRoom (a b : Edit) : Prop :=
  a.Apart b ∧ (a.position = b.position → a.finish = a.position)

/-- The edit that is in front ends before the other one, whichever it is, when the
edit that the batch has first leaves room for the other one. -/
theorem leavesRoom_iff {a b : Edit} (ha : a.finish.isBefore a.position = false)
    (hb : b.finish.isBefore b.position = false) :
    a.LeavesRoom b ↔
      (b.position.isBefore a.position = false → a.EndsBefore b) ∧
        (b.position.isBefore a.position = true → b.EndsBefore a) := by
  rw [LeavesRoom, Apart, EndsBefore, EndsBefore]
  generalize a.position = start, a.finish = stop, b.position = start', b.finish = stop' at *
  obtain ⟨line, character⟩ := start
  obtain ⟨line', character'⟩ := start'
  obtain ⟨last, column⟩ := stop
  obtain ⟨last', column'⟩ := stop'
  simp only [Position.isBefore_eq_false_iff, Position.isBefore_iff, Position.mk.injEq] at ha hb ⊢
  omega

/-- Whether, of two numbered edits, the one that comes before the other ends before it. -/
def InTurn (a b : Edit × Nat) : Prop :=
  (comesBefore a b = true → a.1.EndsBefore b.1) ∧ (comesBefore b a = true → b.1.EndsBefore a.1)

/-- It does not matter which of two edits is named first. -/
theorem InTurn.symm {a b : Edit × Nat} (h : InTurn a b) : InTurn b a := ⟨h.2, h.1⟩

/-- Of two edits the one with the smaller number comes before the other unless its
position is behind. -/
theorem comesBefore_iff_of_lt {a b : Edit × Nat} (h : a.2 < b.2) :
    (comesBefore a b = true ↔ b.1.position.isBefore a.1.position = false) ∧
      (comesBefore b a = true ↔ b.1.position.isBefore a.1.position = true) := by
  have hle := Nat.le_of_lt h
  have hnot := Nat.not_le_of_lt h
  rw [comesBefore_iff, comesBefore_iff]
  obtain ⟨⟨⟨line, character⟩, _, _⟩, _⟩ := a
  obtain ⟨⟨⟨line', character'⟩, _, _⟩, _⟩ := b
  simp only [Position.isBefore_eq_false_iff, Position.isBefore_iff, Position.mk.injEq]
  omega

/-- A batch numbers its edits upwards. -/
theorem pairwise_numbers (batch : List Edit) : batch.zipIdx.Pairwise fun a b => a.2 < b.2 := by
  have hrange : (batch.zipIdx.map Prod.snd).Pairwise (· < ·) := by
    rw [List.zipIdx_map_snd]
    exact List.pairwise_lt_range'
  exact List.pairwise_map.mp hrange

/-- In order, an edit comes before those behind it and so ends before them. -/
theorem pairwise_endsBefore_iff (batch : List Edit) :
    (ordered batch).Pairwise EndsBefore ↔
      (batch.zipIdx.mergeSort comesBefore).Pairwise InTurn := by
  have hsorted := List.pairwise_mergeSort comesBefore_trans comesBefore_total batch.zipIdx
  have hdistinct : (batch.zipIdx.mergeSort comesBefore).Pairwise fun a b => a.2 ≠ b.2 :=
    ((List.mergeSort_perm batch.zipIdx comesBefore).pairwise_iff fun hne => hne.symm).mpr
      ((pairwise_numbers batch).imp Nat.ne_of_lt)
  rw [ordered, List.pairwise_map]
  constructor
  · intro hends
    refine ((hends.and hsorted).and hdistinct).imp fun {a b} hab => ?_
    obtain ⟨⟨hend, hbefore⟩, hne⟩ := hab
    exact ⟨fun _ => hend, fun hback => absurd (number_eq_of_comesBefore hbefore hback) hne⟩
  · intro hturn
    exact (hturn.and hsorted).imp fun hab => hab.1.1 hab.2

/-- Behind an edit of a batch come those with greater numbers. -/
theorem pairwise_leavesRoom_iff {batch : List Edit}
    (h : ∀ edit ∈ batch, edit.finish.isBefore edit.position = false) :
    batch.Pairwise LeavesRoom ↔ batch.zipIdx.Pairwise InTurn := by
  have hnumbers := pairwise_numbers batch
  have hiff {a b : Edit × Nat} (ha : a ∈ batch.zipIdx) (hb : b ∈ batch.zipIdx)
      (hlt : a.2 < b.2) : a.1.LeavesRoom b.1 ↔ InTurn a b := by
    obtain ⟨hbefore, hbehind⟩ := comesBefore_iff_of_lt hlt
    rw [InTurn, hbefore, hbehind]
    exact leavesRoom_iff (h _ (List.fst_mem_of_mem_zipIdx ha)) (h _ (List.fst_mem_of_mem_zipIdx hb))
  have hroom : (batch.zipIdx.map Prod.fst).Pairwise LeavesRoom ↔
      batch.zipIdx.Pairwise InTurn := by
    rw [List.pairwise_map]
    constructor
    · intro hall
      exact (hall.and hnumbers).imp_of_mem fun ha hb hab => (hiff ha hb hab.2).mp hab.1
    · intro hall
      exact (hall.and hnumbers).imp_of_mem fun ha hb hab => (hiff ha hb hab.2).mpr hab.1
  rwa [List.zipIdx_map_fst] at hroom

/-- In order every edit ends before those behind it exactly when every edit leaves
room for those that the batch has behind it: both say of any two edits that the one
in front ends before the other, and that does not depend on how they are listed. -/
theorem pairwise_ordered_iff {batch : List Edit}
    (h : ∀ edit ∈ batch, edit.finish.isBefore edit.position = false) :
    (ordered batch).Pairwise EndsBefore ↔ batch.Pairwise LeavesRoom := by
  rw [pairwise_endsBefore_iff, pairwise_leavesRoom_iff h,
    (List.mergeSort_perm batch.zipIdx comesBefore).pairwise_iff InTurn.symm]

end Edit

namespace Document

/-- What is wrong with an edit: its position is not in the document, or it ends
before it starts, or the end is not in the document. -/
def fault? (document : Document) (edit : Edit) : Option EditError :=
  if document.holds edit.position = false then some (.outOfBounds edit.position)
  else if edit.finish.isBefore edit.position then some (.inverted edit.position edit.finish)
  else if document.holds edit.finish = false then some (.outOfBounds edit.finish)
  else none

/-- The place of an edit in the text. -/
def place (document : Document) (edit : Edit) : Span :=
  ⟨document.index edit.position, document.index edit.finish, edit⟩

variable {document : Document}

/-- An edit without a fault has its positions in the document and in order. -/
structure Fits (document : Document) (edit : Edit) : Prop where
  /-- The position is in the document. -/
  starts : document.holds edit.position = true
  /-- So is the end. -/
  stops : document.holds edit.finish = true
  /-- The end is not in front of the position. -/
  inOrder : edit.finish.isBefore edit.position = false

/-- An edit without a fault fits in the document. -/
theorem fault?_eq_none_iff {edit : Edit} : document.fault? edit = none ↔ document.Fits edit := by
  rw [fault?]
  constructor
  · intro h
    split at h
    · cases h
    · split at h
      · cases h
      · split at h
        · cases h
        · rename_i hstart horder hstop
          exact ⟨Bool.not_eq_false _ ▸ hstart, Bool.not_eq_false _ ▸ hstop,
            Bool.not_eq_true _ ▸ horder⟩
  · intro h
    rw [h.starts, h.stops, h.inOrder]
    rfl

/-- What a fitting edit takes away ends behind its start. -/
theorem Fits.index_le (hc : Row.Canonical document.rows) {edit : Edit} (h : document.Fits edit) :
    document.index edit.position ≤ document.index edit.finish :=
  (isBefore_eq_false_iff_index_le hc h.stops h.starts).mp h.inOrder

end Document

namespace Span

/-- An edit is placed unless it has a fault. -/
theorem ofEdit_eq (document : Document) (edit : Edit) :
    ofEdit document edit =
      match document.fault? edit with
      | some error => .error error
      | none => .ok (document.place edit) := by
  obtain ⟨position, replacesUntil, text⟩ := edit
  rw [ofEdit, Document.fault?, Document.place, Edit.finish]
  dsimp only
  rw [Document.offset_eq]
  cases hstart : document.holds position with
  | false => rfl
  | true =>
    cases replacesUntil with
    | none => simp [hstart]
    | some finish =>
      simp only [if_true, Bool.true_eq_false, if_false, Option.getD_some, Document.offset_eq]
      cases finish.isBefore position with
      | true => rfl
      | false =>
        cases hstop : document.holds finish with
        | true => rfl
        | false => rfl

/-- A batch is placed unless an edit has a fault; the first one counts. -/
theorem ofEdits_eq (document : Document) (batch : List Edit) :
    ofEdits document batch =
      match batch.findSome? document.fault? with
      | some error => .error error
      | none => .ok (batch.map document.place) := by
  induction batch with
  | nil => rfl
  | cons edit rest ih =>
    rw [ofEdits, ofEdit_eq, ih, List.findSome?_cons]
    cases document.fault? edit with
    | some error => rfl
    | none =>
      dsimp only
      cases rest.findSome? document.fault? with
      | some error => rfl
      | none => rfl

/-- Putting the place of an edit among those of edits with greater numbers is
putting the edit among them. -/
theorem exists_insertSorted {document : Document} (hc : Row.Canonical document.rows) {edit : Edit}
    {number : Nat} {sorted : List (Edit × Nat)} (hedit : document.Fits edit)
    (hfits : ∀ next ∈ sorted, document.Fits next.1) (hnumbers : ∀ next ∈ sorted, number < next.2)
    (hsorted : sorted.Pairwise (Edit.comesBefore · ·)) :
    ∃ all : List (Edit × Nat), all.Perm ((edit, number) :: sorted) ∧
      all.Pairwise (Edit.comesBefore · ·) ∧
      insertSorted (document.place edit) (sorted.map fun next => document.place next.1) =
        all.map fun next => document.place next.1 := by
  induction sorted with
  | nil => exact ⟨[(edit, number)], List.Perm.refl _, List.pairwise_singleton _ _, rfl⟩
  | cons next rest ih =>
    have hnext : document.Fits next.1 := hfits next List.mem_cons_self
    obtain ⟨hfirst, hrest⟩ := List.pairwise_cons.mp hsorted
    rw [List.map_cons, insertSorted]
    split
    · rename_i hle
      have hbefore : Edit.comesBefore (edit, number) next = true := by
        rw [Edit.comesBefore_iff]
        -- At one position the numbers decide, and the new edit has the smallest.
        rcases Nat.lt_or_eq_of_le hle with hlt | heq
        · exact .inl ((Document.isBefore_iff_index_lt hc hedit.starts hnext.starts).mpr hlt)
        · exact .inr ⟨Document.eq_of_index_eq hc hedit.starts hnext.starts heq,
            Nat.le_of_lt (hnumbers next List.mem_cons_self)⟩
      refine ⟨(edit, number) :: next :: rest, List.Perm.refl _, ?_, rfl⟩
      refine List.pairwise_cons.mpr ⟨?_, hsorted⟩
      intro other hother
      rcases List.mem_cons.mp hother with rfl | hother
      · exact hbefore
      · exact Edit.comesBefore_trans _ _ _ hbefore (hfirst other hother)
    · rename_i hle
      have hbefore : Edit.comesBefore next (edit, number) = true := by
        rw [Edit.comesBefore_iff]
        exact .inl ((Document.isBefore_iff_index_lt hc hnext.starts hedit.starts).mpr
          (Nat.not_le.mp hle))
      obtain ⟨all, hperm, hall, heq⟩ := ih (fun other hother => hfits other (.tail _ hother))
        (fun other hother => hnumbers other (.tail _ hother)) hrest
      refine ⟨next :: all, (hperm.cons next).trans (List.Perm.swap _ _ _), ?_, ?_⟩
      · refine List.pairwise_cons.mpr ⟨?_, hall⟩
        intro other hother
        rcases List.mem_cons.mp (hperm.mem_iff.mp hother) with rfl | hother
        · exact hbefore
        · exact hfirst other hother
      · rw [heq, List.map_cons]

/-- The places of numbered edits are sorted as the edits are. -/
theorem exists_sort {document : Document} (hc : Row.Canonical document.rows) (batch : List Edit)
    (first : Nat) (hfits : ∀ edit ∈ batch, document.Fits edit) :
    ∃ sorted : List (Edit × Nat), sorted.Perm (batch.zipIdx first) ∧
      sorted.Pairwise (Edit.comesBefore · ·) ∧
      sort (batch.map document.place) = sorted.map fun next => document.place next.1 := by
  induction batch generalizing first with
  | nil => exact ⟨[], List.Perm.refl _, List.Pairwise.nil, rfl⟩
  | cons edit rest ih =>
    rw [List.forall_mem_cons] at hfits
    obtain ⟨sorted, hperm, hsorted, heq⟩ := ih (first + 1) hfits.2
    have hmem : ∀ next ∈ sorted, next.1 ∈ rest ∧ first < next.2 := by
      intro next hnext
      have hzip : (next.1, next.2) ∈ rest.zipIdx (first + 1) := hperm.mem_iff.mp hnext
      obtain ⟨hle, _, hget⟩ := List.mem_zipIdx hzip
      exact ⟨hget ▸ List.getElem_mem _, hle⟩
    have hrest : ∀ next ∈ sorted, document.Fits next.1 := fun next hnext =>
      hfits.2 next.1 (hmem next hnext).1
    have hnumbers : ∀ next ∈ sorted, first < next.2 := fun next hnext => (hmem next hnext).2
    obtain ⟨all, hall, hpairwise, hinsert⟩ :=
      exists_insertSorted hc hfits.1 hrest hnumbers hsorted
    refine ⟨all, hall.trans (hperm.cons _), hpairwise, ?_⟩
    rw [← hinsert, ← heq]
    rfl

/-- The places of a batch without faults are sorted as its edits are ordered. -/
theorem sort_map_place {document : Document} (hc : Row.Canonical document.rows)
    {batch : List Edit} (hfits : ∀ edit ∈ batch, document.Fits edit) :
    sort (batch.map document.place) = (Edit.ordered batch).map document.place := by
  obtain ⟨sorted, hperm, hsorted, heq⟩ := exists_sort hc batch 0 hfits
  rw [heq, Edit.ordered, Edit.mergeSort_eq_of_perm hperm hsorted, List.map_map]
  rfl

end Span

end Docblock
