import Docblock.Proofs.Edit.Splice

/-!
# Reordered batches

The edits of a batch may be emitted in another order as long as those at one
position keep theirs. Both batches are put in the same order before they are
applied, so they leave the same text or are both refused. They may be refused
for different reasons, since the first fault counts.
-/

namespace Docblock

namespace Edit

/-- Whether an edit is at a position. -/
def isAt (position : Position) (edit : Edit) : Bool := edit.position = position

/-- Batches of the same edits in which the edits at each position come in the
same order. -/
structure Reordered (batch other : List Edit) : Prop where
  /-- The batches have the same edits, each as often. -/
  perm : batch.Perm other
  /-- The edits at one position keep their order. -/
  sameOrder : ∀ position, batch.filter (isAt position) = other.filter (isAt position)

theorem isAt_iff {position : Position} {edit : Edit} :
    isAt position edit = true ↔ edit.position = position := decide_eq_true_iff

/-- The numbered edits at one position stand in order as they are. -/
theorem pairwise_filter_zipIdx (batch : List Edit) (position : Position) :
    (batch.zipIdx.filter fun next => isAt position next.1).Pairwise (comesBefore · ·) := by
  have hfiltered := (pairwise_numbers batch).filter fun next => isAt position next.1
  refine hfiltered.imp_of_mem fun {a b} ha hb hlt => ?_
  have hposition : a.1.position = b.1.position :=
    (isAt_iff.mp (List.mem_filter.mp ha).2).trans (isAt_iff.mp (List.mem_filter.mp hb).2).symm
  rw [comesBefore_iff]
  exact .inr ⟨hposition, Nat.le_of_lt hlt⟩

/-- Ordering a batch keeps the order of the edits at one position. -/
theorem filter_ordered (batch : List Edit) (position : Position) :
    (ordered batch).filter (isAt position) = batch.filter (isAt position) := by
  have hperm := List.mergeSort_perm batch.zipIdx comesBefore
  have hsorted := List.pairwise_mergeSort comesBefore_trans comesBefore_total batch.zipIdx
  have hsame : (batch.zipIdx.mergeSort comesBefore).filter (fun next => isAt position next.1) =
      batch.zipIdx.filter fun next => isAt position next.1 := by
    refine List.Perm.eq_of_pairwise ?_ (hsorted.filter _) (pairwise_filter_zipIdx batch position)
      (hperm.filter _)
    intro a b ha hb
    exact eq_of_comesBefore (hperm.mem_iff.mp (List.mem_of_mem_filter ha))
      (List.mem_of_mem_filter hb)
  have hmap := congrArg (List.map Prod.fst) hsame
  have hbatch : batch.filter (isAt position) =
      (batch.zipIdx.map Prod.fst).filter (isAt position) := by rw [List.zipIdx_map_fst]
  rw [ordered, hbatch, List.filter_map, List.filter_map]
  exact hmap

/-- No edit of an ordered batch stands behind one at a later position. -/
theorem pairwise_ordered (batch : List Edit) :
    (ordered batch).Pairwise fun a b => b.position.isBefore a.position = false := by
  have hsorted := List.pairwise_mergeSort comesBefore_trans comesBefore_total batch.zipIdx
  rw [ordered, List.pairwise_map]
  refine hsorted.imp fun {a b} hab => ?_
  rw [← Bool.not_eq_true]
  intro hba
  have hself : a.1.position.isBefore a.1.position = true := by
    rcases (comesBefore_iff a b).mp hab with hab | ⟨heq, _⟩
    · exact Position.isBefore_trans hab hba
    · rwa [← heq] at hba
  rw [Position.isBefore_self] at hself
  cases hself

/-- An edit that comes first is at no later position than the others. -/
theorem isBefore_head_eq_false {first edit : Edit} {rest : List Edit}
    (h : (first :: rest).Pairwise fun a b => b.position.isBefore a.position = false)
    (hm : edit ∈ first :: rest) : edit.position.isBefore first.position = false := by
  rcases List.mem_cons.mp hm with rfl | hm
  · exact Position.isBefore_self _
  · exact (List.pairwise_cons.mp h).1 edit hm

/-- Batches that agree at each position have the same edits. -/
theorem mem_of_filter_eq {batch other : List Edit}
    (h : ∀ position, batch.filter (isAt position) = other.filter (isAt position)) {edit : Edit}
    (hm : edit ∈ batch) : edit ∈ other := by
  have hat : edit ∈ batch.filter (isAt edit.position) :=
    List.mem_filter.mpr ⟨hm, isAt_iff.mpr rfl⟩
  rw [h] at hat
  exact List.mem_of_mem_filter hat

/-- Edits in the order of their positions are determined by those at each
position. The induction takes the first edits away, which are at one position
because each list has the first edit of the other. -/
theorem eq_of_filter_eq {batch other : List Edit}
    (hbatch : batch.Pairwise fun a b => b.position.isBefore a.position = false)
    (hother : other.Pairwise fun a b => b.position.isBefore a.position = false)
    (h : ∀ position, batch.filter (isAt position) = other.filter (isAt position)) :
    batch = other := by
  induction batch generalizing other with
  | nil =>
    cases other with
    | nil => rfl
    | cons b s =>
      exact absurd (mem_of_filter_eq (fun position => (h position).symm) List.mem_cons_self)
        List.not_mem_nil
  | cons a r ih =>
    cases other with
    | nil => exact absurd (mem_of_filter_eq h List.mem_cons_self) List.not_mem_nil
    | cons b s =>
      have hba : a.position.isBefore b.position = false :=
        isBefore_head_eq_false hother (mem_of_filter_eq h List.mem_cons_self)
      have hab : b.position.isBefore a.position = false :=
        isBefore_head_eq_false hbatch
          (mem_of_filter_eq (fun position => (h position).symm) List.mem_cons_self)
      have hposition : a.position = b.position := by
        rcases a.position.isBefore_or_eq_or_isBefore b.position with hlt | heq | hlt
        · rw [hlt] at hba
          cases hba
        · exact heq
        · rw [hlt] at hab
          cases hab
      have hheads := h b.position
      rw [List.filter_cons_of_pos (isAt_iff.mpr hposition),
        List.filter_cons_of_pos (isAt_iff.mpr rfl)] at hheads
      obtain ⟨rfl, hrest⟩ := List.cons.inj hheads
      have hrests : ∀ position, r.filter (isAt position) = s.filter (isAt position) := by
        intro position
        by_cases hat : isAt position a = true
        · rwa [isAt_iff.mp hat] at hrest
        · have hboth := h position
          rwa [List.filter_cons_of_neg hat, List.filter_cons_of_neg hat] at hboth
      rw [ih (List.pairwise_cons.mp hbatch).2 (List.pairwise_cons.mp hother).2 hrests]

/-- Reordered batches are put in the same order. -/
theorem Reordered.ordered_eq {batch other : List Edit} (h : Reordered batch other) :
    ordered batch = ordered other := by
  refine eq_of_filter_eq (pairwise_ordered batch) (pairwise_ordered other) fun position => ?_
  rw [filter_ordered, filter_ordered, h.sameOrder]

end Edit

namespace Document

/-- Reordered batches are refused together. -/
theorem refusal?_eq_none_of_reordered {document : Document} {batch other : List Edit}
    (h : Edit.Reordered batch other) (hnone : document.refusal? batch = none) :
    document.refusal? other = none := by
  rw [refusal?_eq_none_iff, List.findSome?_eq_none_iff] at hnone ⊢
  refine ⟨fun edit hm => hnone.1 edit (h.perm.mem_iff.mpr hm), ?_⟩
  rw [← h.ordered_eq]
  exact hnone.2

/-- Batches that differ only in the order of edits at different positions leave
the same text, or are both refused. -/
theorem apply_reordered (language content : Text) {batch other : List Edit}
    (h : Edit.Reordered batch other) :
    (∃ text, (ofText language content).apply batch = .ok text ∧
        (ofText language content).apply other = .ok text) ∨
      ∃ error error', (ofText language content).apply batch = .error error ∧
        (ofText language content).apply other = .error error' := by
  have hc : Row.Canonical (ofText language content).rows := Row.canonical_ofText content
  have hback : Edit.Reordered other batch :=
    ⟨h.perm.symm, fun position => (h.sameOrder position).symm⟩
  rw [apply_eq _ hc batch, apply_eq _ hc other]
  cases hbatch : (ofText language content).refusal? batch with
  | none =>
    rw [refusal?_eq_none_of_reordered h hbatch]
    refine .inl ⟨_, rfl, ?_⟩
    dsimp only
    rw [spliced, spliced, h.ordered_eq]
  | some error =>
    cases hother : (ofText language content).refusal? other with
    | none =>
      rw [refusal?_eq_none_of_reordered hback hother] at hbatch
      cases hbatch
    | some error' => exact .inr ⟨error, error', rfl, rfl⟩

/-- Two insertions at one position stay in order while a replacement in front of them moves
between them. -/
theorem apply_reordered_insertions :
    Edit.Reordered
        [.insert ⟨1, 0⟩ "first\n".toList, .insert ⟨1, 0⟩ "second\n".toList,
          .replace ⟨0, 0⟩ ⟨0, 1⟩ "é".toList]
        [.insert ⟨1, 0⟩ "first\n".toList, .replace ⟨0, 0⟩ ⟨0, 1⟩ "é".toList,
          .insert ⟨1, 0⟩ "second\n".toList] ∧
      ∃ text, (ofText [] "a\r\nb".toList).apply
          [.insert ⟨1, 0⟩ "first\n".toList, .insert ⟨1, 0⟩ "second\n".toList,
            .replace ⟨0, 0⟩ ⟨0, 1⟩ "é".toList] = .ok text ∧
        (ofText [] "a\r\nb".toList).apply
          [.insert ⟨1, 0⟩ "first\n".toList, .replace ⟨0, 0⟩ ⟨0, 1⟩ "é".toList,
            .insert ⟨1, 0⟩ "second\n".toList] = .ok text := by
  have hreordered : Edit.Reordered
      [.insert ⟨1, 0⟩ "first\n".toList, .insert ⟨1, 0⟩ "second\n".toList,
        .replace ⟨0, 0⟩ ⟨0, 1⟩ "é".toList]
      [.insert ⟨1, 0⟩ "first\n".toList, .replace ⟨0, 0⟩ ⟨0, 1⟩ "é".toList,
        .insert ⟨1, 0⟩ "second\n".toList] := by
    refine ⟨by decide, fun position => ?_⟩
    by_cases hrow : Position.mk 1 0 = position
    · subst hrow
      decide
    · simp [List.filter_cons, Edit.isAt, Edit.insert, hrow]
  refine ⟨hreordered, ?_⟩
  rcases apply_reordered [] "a\r\nb".toList hreordered with h | ⟨error, _, herror, _⟩
  · exact h
  · have hok : ∃ text, (ofText [] "a\r\nb".toList).apply
        [.insert ⟨1, 0⟩ "first\n".toList, .insert ⟨1, 0⟩ "second\n".toList,
          .replace ⟨0, 0⟩ ⟨0, 1⟩ "é".toList] = .ok text := ⟨_, rfl⟩
    obtain ⟨text, htext⟩ := hok
    rw [htext] at herror
    cases herror

end Document

end Docblock
