import Docblock.Proofs.Document.Offset

/-!
# One edit at a time

What each step of applying a batch does: an edit whose positions are in the
document has a place, a place in front of sorted ones stays there, and the walk
over the text copies what lies in front of the next place.
-/

namespace Docblock

open Text

namespace Span

/-- An insertion has its place when its position is in the document. -/
theorem ofEdit_insert {document : Document} {position : Position} {start : Nat}
    (h : document.offset position = .ok start) (text : Text) :
    ofEdit document (.insert position text) = .ok ⟨start, start, .insert position text⟩ := by
  simp only [ofEdit, Edit.insert, h]

/-- A replacement has its place when its positions are in the document and in
order. -/
theorem ofEdit_replace {document : Document} {position finish : Position} {start stop : Nat}
    (hs : document.offset position = .ok start) (ho : finish.isBefore position = false)
    (hf : document.offset finish = .ok stop) (text : Text) :
    ofEdit document (.replace position finish text) =
      .ok ⟨start, stop, .replace position finish text⟩ := by
  simp only [ofEdit, Edit.replace, hs, ho, hf, Bool.false_eq_true, if_false]

/-- Edits are placed one after the other. -/
theorem ofEdits_cons {document : Document} {edit : Edit} {span : Span} {rest : List Edit}
    {spans : List Span} (h : ofEdit document edit = .ok span)
    (hrest : ofEdits document rest = .ok spans) :
    ofEdits document (edit :: rest) = .ok (span :: spans) := by
  simp only [ofEdits, h, hrest]

/-- A span that starts first goes in front. -/
theorem insertSorted_of_forall_le {span : Span} {spans : List Span}
    (h : ∀ next ∈ spans, span.start ≤ next.start) : insertSorted span spans = span :: spans := by
  cases spans with
  | nil => rfl
  | cons next rest => rw [insertSorted, if_pos (h next List.mem_cons_self)]

/-- A span that starts in front of sorted ones stays in front. -/
theorem sort_cons {span : Span} {spans : List Span} (hsort : sort spans = spans)
    (h : ∀ next ∈ spans, span.start ≤ next.start) : sort (span :: spans) = span :: spans := by
  rw [sort, List.foldr_cons, ← sort, hsort, insertSorted_of_forall_le h]

/-- Putting a span among others keeps them all. -/
theorem insertSorted_perm (span : Span) (spans : List Span) :
    (insertSorted span spans).Perm (span :: spans) := by
  induction spans with
  | nil => exact List.Perm.refl _
  | cons next rest ih =>
    rw [insertSorted]
    split
    · exact List.Perm.refl _
    · exact (ih.cons next).trans (List.Perm.swap span next rest)

/-- Sorting moves spans only. -/
theorem sort_perm (spans : List Span) : (sort spans).Perm spans := by
  induction spans with
  | nil => exact List.Perm.refl _
  | cons span rest ih => exact (insertSorted_perm span (sort rest)).trans (ih.cons span)

variable {f : Span → Span}

/-- Only the order of the starts matters to where a span is put. -/
theorem insertSorted_map {span : Span} {spans : List Span}
    (h : ∀ next ∈ spans, (f span).start ≤ (f next).start ↔ span.start ≤ next.start) :
    insertSorted (f span) (spans.map f) = (insertSorted span spans).map f := by
  induction spans with
  | nil => rfl
  | cons next rest ih =>
    rw [List.forall_mem_cons] at h
    rw [List.map_cons, insertSorted, insertSorted, ih h.2]
    by_cases hle : span.start ≤ next.start
    · rw [if_pos hle, if_pos (h.1.mpr hle)]
      rfl
    · rw [if_neg hle, if_neg fun hf => hle (h.1.mp hf)]
      rfl

/-- Sorting does not depend on how the starts are counted. -/
theorem sort_map {spans : List Span}
    (h : ∀ a ∈ spans, ∀ b ∈ spans, (f a).start ≤ (f b).start ↔ a.start ≤ b.start) :
    sort (spans.map f) = (sort spans).map f := by
  induction spans with
  | nil => rfl
  | cons span rest ih =>
    have hrest : sort (rest.map f) = (sort rest).map f :=
      ih fun a ha b hb => h a (List.mem_cons_of_mem _ ha) b (List.mem_cons_of_mem _ hb)
    have hspan : ∀ next ∈ sort rest, (f span).start ≤ (f next).start ↔ span.start ≤ next.start :=
      fun next hm => h span List.mem_cons_self next
        (List.mem_cons_of_mem _ ((sort_perm rest).mem_iff.mp hm))
    have hcons : sort ((span :: rest).map f) = insertSorted (f span) (sort (rest.map f)) := rfl
    rw [hcons, hrest, insertSorted_map hspan]
    rfl

/-- The walk copies the text in front of the next span, leaves out what the span
takes away and puts in the new text. -/
theorem weave_cons {ending tail : Text} {cursor : Nat} (lag taken rest : Text) (edit : Edit)
    {spans : List Span}
    (h : weave ending (cursor + lag.length + taken.length) rest spans = .ok tail) :
    weave ending cursor (lag ++ (taken ++ rest))
        (⟨cursor + lag.length, cursor + lag.length + taken.length, edit⟩ :: spans) =
      .ok (lag ++ replaceChar '\n' ending edit.text ++ tail) := by
  have hlag : cursor + lag.length - cursor = lag.length := by omega
  have htaken : cursor + lag.length + taken.length - cursor = (lag ++ taken).length := by
    rw [List.length_append]
    omega
  rw [weave]
  dsimp only
  rw [if_neg (by omega), hlag, htaken, List.take_left, ← List.append_assoc, List.drop_left, h]

end Span

end Docblock
