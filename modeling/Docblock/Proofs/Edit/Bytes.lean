import Docblock.Proofs.Edit.Splice
import Docblock.Proofs.Text.Bytes

/-!
# Applying a batch in bytes

Places are counted in characters here, but a program that holds its text in
UTF-8 counts them in bytes and cuts the text at them. Every slice that such a
program takes while it applies a batch exists, and it comes to the same end: the
text with the edits spliced in, or the same refusal.
-/

namespace Docblock

open Text

/-- The number of bytes in front of a character of a line in the text of some
rows: those of the rows in front and those of the characters in front. -/
def Row.byteOffset? : List Row → (line character : Nat) → Option Nat
  | [], _, _ => none
  | row :: _, 0, character =>
    if character ≤ row.text.length then some (byteLength (row.text.take character)) else none
  | row :: rest, line + 1, character =>
    (byteOffset? rest line character).map (byteLength row.content + ·)

/-- The number of bytes of a document in front of a position. -/
def Document.byteOffset (document : Document) (position : Position) : Except EditError Nat :=
  match Row.byteOffset? document.rows position.line position.character with
  | some offset => .ok offset
  | none => .error (.outOfBounds position)

namespace Span

/-- Find the place of an edit when the places of positions are given. -/
def locate (offset : Position → Except EditError Nat) (edit : Edit) : Except EditError Span :=
  match offset edit.position with
  | .error e => .error e
  | .ok start =>
    match edit.replacesUntil with
    | none => .ok ⟨start, start, edit⟩
    | some finish =>
      if finish.isBefore edit.position then .error (.inverted edit.position finish)
      else
        match offset finish with
        | .error e => .error e
        | .ok stop => .ok ⟨start, stop, edit⟩

/-- The places of all edits of a batch, or the error of the first one without. -/
def locateAll (offset : Position → Except EditError Nat) :
    List Edit → Except EditError (List Span)
  | [] => .ok []
  | edit :: rest =>
    match locate offset edit with
    | .error e => .error e
    | .ok span =>
      match locateAll offset rest with
      | .error e => .error e
      | .ok spans => .ok (span :: spans)

/-- Walk over the bytes of a text from a cursor on and put in the new texts. A
slice that cannot be taken ends the walk without a result. -/
def weaveBytes? (ending source : Text) :
    (cursor : Nat) → List Span → Option (Except EditError Text)
  | cursor, [] => (fromByte? cursor source).map .ok
  | cursor, span :: spans =>
    if span.start < cursor then some (.error (.overlap span.edit.position))
    else
      match slice? cursor span.start source with
      | none => none
      | some copied =>
        match weaveBytes? ending source span.stop spans with
        | none => none
        | some (.error e) => some (.error e)
        | some (.ok tail) =>
          some (.ok (copied ++ replaceChar '\n' ending span.edit.text ++ tail))

end Span

/-- Apply a batch with all places counted in bytes; there is no result when a
slice cannot be taken. -/
def Document.applyBytes? (document : Document) (batch : List Edit) :
    Option (Except EditError Text) :=
  match Span.locateAll document.byteOffset batch with
  | .error e => some (.error e)
  | .ok spans =>
    Span.weaveBytes? document.lineEnding.text document.content 0 (Span.sort spans)

/-- The bytes in front of a position are those of the characters in front of it. -/
theorem Row.byteOffset?_eq (rows : List Row) (line character : Nat) :
    byteOffset? rows line character =
      (offset? rows line character).map fun offset =>
        byteLength ((rows.flatMap content).take offset) := by
  induction rows generalizing line with
  | nil => rfl
  | cons row rest ih =>
    cases line with
    | zero =>
      rw [byteOffset?, offset?]
      split
      · rename_i hle
        rw [Option.map_some, List.flatMap_cons, content, List.append_assoc,
          List.take_append_of_le_length hle]
      · rfl
    | succ line =>
      rw [byteOffset?, offset?, ih, Option.map_map, Option.map_map]
      congr 1
      funext offset
      simp only [Function.comp_apply]
      rw [List.flatMap_cons, List.take_length_add_append, byteLength_append]

/-- The offset in bytes is the length in bytes of the text in front of the offset. -/
theorem Document.byteOffset_eq (document : Document) (position : Position) :
    document.byteOffset position =
      (document.offset position).map fun offset =>
        byteLength (document.content.take offset) := by
  rw [byteOffset, offset, Row.byteOffset?_eq]
  cases Row.offset? document.rows position.line position.character with
  | none => rfl
  | some offset => rfl

namespace Span

/-- A place counted in the bytes of a text. -/
def inBytes (t : Text) (span : Span) : Span :=
  ⟨byteLength (t.take span.start), byteLength (t.take span.stop), span.edit⟩

/-- The places of edits are those that offsets in characters give. -/
theorem ofEdits_eq_locateAll (document : Document) (batch : List Edit) :
    ofEdits document batch = locateAll document.offset batch := by
  induction batch with
  | nil => rfl
  | cons edit rest ih => rw [ofEdits, locateAll, ih]; rfl

/-- With offsets in bytes an edit has the same place, measured in bytes. -/
theorem locate_byteOffset (document : Document) (edit : Edit) :
    locate document.byteOffset edit =
      (locate document.offset edit).map (inBytes document.content) := by
  rw [locate, locate, Document.byteOffset_eq]
  cases document.offset edit.position with
  | error e => rfl
  | ok start =>
    cases edit.replacesUntil with
    | none => rfl
    | some finish =>
      dsimp only [Except.map]
      cases finish.isBefore edit.position with
      | true => rfl
      | false =>
        simp only [Bool.false_eq_true, if_false, Document.byteOffset_eq]
        cases document.offset finish with
        | error e => rfl
        | ok stop => rfl

/-- So have all edits of a batch, and they are refused for the same fault. -/
theorem locateAll_byteOffset (document : Document) (batch : List Edit) :
    locateAll document.byteOffset batch =
      (ofEdits document batch).map (List.map (inBytes document.content)) := by
  rw [ofEdits_eq_locateAll]
  induction batch with
  | nil => rfl
  | cons edit rest ih =>
    rw [locateAll, locateAll, locate_byteOffset, ih]
    cases locate document.offset edit with
    | error e => rfl
    | ok span =>
      cases locateAll document.offset rest with
      | error e => rfl
      | ok spans => rfl

/-- The walk over the bytes takes only slices that exist, and ends as the walk
over the characters. -/
theorem weaveBytes?_map_inBytes (ending t : Text) {cursor : Nat} (hcursor : cursor ≤ t.length)
    {spans : List Span} (h : ∀ span ∈ spans, span.start ≤ span.stop ∧ span.stop ≤ t.length) :
    weaveBytes? ending t (byteLength (t.take cursor)) (spans.map (inBytes t)) =
      some (weave ending cursor (t.drop cursor) spans) := by
  induction spans generalizing cursor with
  | nil =>
    rw [List.map_nil, weaveBytes?, fromByte?_take, weave]
    rfl
  | cons span rest ih =>
    rw [List.forall_mem_cons] at h
    have hcompare : (inBytes t span).start < byteLength (t.take cursor) ↔ span.start < cursor := by
      rw [← Nat.not_le, ← Nat.not_le]
      exact not_congr (byteLength_take_le_iff t hcursor)
    rw [List.map_cons, weaveBytes?, weave]
    by_cases hlt : span.start < cursor
    · rw [if_pos hlt, if_pos (hcompare.mpr hlt)]
      rfl
    · have hle := Nat.not_lt.mp hlt
      have hdrop : (t.drop cursor).drop (span.stop - cursor) = t.drop span.stop := by
        rw [List.drop_drop, Nat.add_sub_cancel' (hle.trans h.1.1)]
      -- The overlap test comes first, so the ends of the slice are in order.
      have hslice : slice? (byteLength (t.take cursor)) (inBytes t span).start t =
          some ((t.drop cursor).take (span.start - cursor)) := slice?_take t hle
      have hrest : weaveBytes? ending t (inBytes t span).stop (rest.map (inBytes t)) =
          some (weave ending span.stop (t.drop span.stop) rest) := ih h.1.2 h.2
      rw [if_neg hlt, if_neg fun hb => hlt (hcompare.mp hb), hslice, hrest, hdrop]
      cases weave ending span.stop (t.drop span.stop) rest with
      | error e => rfl
      | ok tail => rfl

end Span

namespace Document

/-- Counted in bytes a batch is applied as it is counted in characters. -/
theorem applyBytes?_eq {document : Document} (hc : Row.Canonical document.rows)
    (batch : List Edit) : document.applyBytes? batch = some (document.apply batch) := by
  rw [applyBytes?, apply, Span.locateAll_byteOffset, Span.ofEdits_eq]
  cases hfault : batch.findSome? document.fault? with
  | some error => rfl
  | none =>
    have hspans : ∀ span ∈ batch.map document.place,
        span.start ≤ span.stop ∧ span.stop ≤ document.content.length := by
      intro span hm
      obtain ⟨edit, hedit, rfl⟩ := List.mem_map.mp hm
      have hfits := fault?_eq_none_iff.mp (List.findSome?_eq_none_iff.mp hfault edit hedit)
      exact ⟨hfits.index_le hc, index_le_length hfits.stops⟩
    have hsort : Span.sort ((batch.map document.place).map (Span.inBytes document.content)) =
        (Span.sort (batch.map document.place)).map (Span.inBytes document.content) := by
      apply Span.sort_map
      intro a ha b _
      exact byteLength_take_le_iff document.content ((hspans a ha).1.trans (hspans a ha).2)
    have hwalk := Span.weaveBytes?_map_inBytes document.lineEnding.text document.content
      (Nat.zero_le _) fun span hm =>
        hspans span ((Span.sort_perm (batch.map document.place)).mem_iff.mp hm)
    dsimp only [Except.map]
    rw [hsort]
    exact hwalk

/-- Applying a batch to a text is splicing its edits into it, the last one
first, and counted in bytes every slice on the way exists, whether the batch is
applied or refused. -/
theorem apply_eq_spliced (language content : Text) (batch : List Edit) :
    (ofText language content).applyBytes? batch =
        some ((ofText language content).apply batch) ∧
      ∀ text, (ofText language content).apply batch = .ok text →
        text = (ofText language content).spliced batch := by
  have hc : Row.Canonical (ofText language content).rows := Row.canonical_ofText content
  refine ⟨applyBytes?_eq hc batch, fun text htext => ?_⟩
  rw [apply_eq _ hc] at htext
  cases hrefusal : (ofText language content).refusal? batch with
  | some error => rw [hrefusal] at htext; cases htext
  | none => rw [hrefusal] at htext; exact (Except.ok.inj htext).symm

/-- Edits behind characters of two and four bytes, in a document with longer breaks. -/
theorem apply_eq_spliced_multibyte :
    (ofText [] "é😀\r\nb\r\n".toList).apply
        [.insert ⟨0, 2⟩ "x\n".toList, .replace ⟨0, 1⟩ ⟨0, 2⟩ "ü".toList,
          .replace ⟨0, 2⟩ ⟨1, 0⟩ "\ny".toList] = .ok "éüx\r\n\r\nyb\r\n".toList ∧
      "éüx\r\n\r\nyb\r\n".toList =
        (ofText [] "é😀\r\nb\r\n".toList).spliced
          [.insert ⟨0, 2⟩ "x\n".toList, .replace ⟨0, 1⟩ ⟨0, 2⟩ "ü".toList,
            .replace ⟨0, 2⟩ ⟨1, 0⟩ "\ny".toList] := by
  have happly : (ofText [] "é😀\r\nb\r\n".toList).apply
      [.insert ⟨0, 2⟩ "x\n".toList, .replace ⟨0, 1⟩ ⟨0, 2⟩ "ü".toList,
        .replace ⟨0, 2⟩ ⟨1, 0⟩ "\ny".toList] = .ok "éüx\r\n\r\nyb\r\n".toList := by decide
  exact ⟨happly, (apply_eq_spliced [] "é😀\r\nb\r\n".toList _).2 _ happly⟩

end Document

end Docblock
