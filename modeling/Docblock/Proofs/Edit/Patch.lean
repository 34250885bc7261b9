import Mathlib.Data.List.Basic
import Docblock.Proofs.Edit.Apply

/-!
# Patches of whole rows

A patch says what happens to a run of neighbouring rows: they stay, a text is
put above them, or a text takes their place up to the last break. When the rows
of a document are covered by patches, the edits of the patches always apply, and
the new text is that of the rows the patches leave.
-/

namespace Docblock

open Text

/-- What happens to a run of rows. -/
inductive Change where
  /-- The rows stay as they are. -/
  | keep
  /-- A text is put above the first row. -/
  | above (text : Text)
  /-- A text takes the place of the rows; the break of the last one stays. -/
  | instead (text : Text)
  deriving DecidableEq, Repr

/-- A run of rows, at least one, and what happens to it. -/
structure Patch where
  /-- The first row of the run. -/
  first : Row
  /-- The other rows of the run. -/
  more : List Row
  /-- What happens to them. -/
  change : Change
  deriving DecidableEq, Repr

namespace Patch

/-- All rows of the run. -/
def rows (patch : Patch) : List Row := patch.first :: patch.more

/-- The last row of the run. -/
def last (patch : Patch) : Row := patch.more.getLastD patch.first

/-- The rows of the run in front of the last one. -/
def init (patch : Patch) : List Row := patch.rows.dropLast

theorem rows_ne_nil (patch : Patch) : patch.rows ≠ [] := List.cons_ne_nil _ _

/-- The last row of a patch stands behind the others. -/
theorem rows_eq_init_append_last (patch : Patch) : patch.rows = patch.init ++ [patch.last] := by
  have hl : patch.last = patch.rows.getLast patch.rows_ne_nil := by
    rw [last, ← List.getLast_eq_getLastD]
    rfl
  rw [hl, init, List.dropLast_append_getLast]

theorem length_init (patch : Patch) : patch.init.length = patch.more.length := by
  simp [init, rows]

/-- The edits of a patch whose first row has the given number. -/
def edits (line : Nat) (patch : Patch) : List Edit :=
  match patch.change with
  | .keep => []
  | .above text => [.insert ⟨line, 0⟩ text]
  | .instead text =>
    [.replace ⟨line, 0⟩ ⟨line + patch.more.length, patch.last.text.length⟩ text]

/-- The edits of neighbouring patches, the first of which starts at a row with
the given number. -/
def editsFrom : (line : Nat) → List Patch → List Edit
  | _, [] => []
  | line, patch :: rest => patch.edits line ++ editsFrom (line + patch.rows.length) rest

/-- The rows a patch leaves, with the break for new text. -/
def renewed (ending : Break) (patch : Patch) : List Row :=
  match patch.change with
  | .keep => patch.rows
  | .above text => Row.behind ending text patch.first ++ patch.more
  | .instead text => Row.behind ending text ⟨[], patch.last.ending⟩

/-- The places of the edits of a patch that starts at an offset. -/
def spans (line offset : Nat) (patch : Patch) : List Span :=
  match patch.change with
  | .keep => []
  | .above text => [⟨offset, offset, .insert ⟨line, 0⟩ text⟩]
  | .instead text =>
    [⟨offset, offset + Row.width patch.init + patch.last.text.length,
      .replace ⟨line, 0⟩ ⟨line + patch.more.length, patch.last.text.length⟩ text⟩]

/-- The places of the edits of neighbouring patches. -/
def spansFrom : (line offset : Nat) → List Patch → List Span
  | _, _, [] => []
  | line, offset, patch :: rest =>
    patch.spans line offset ++
    spansFrom (line + patch.rows.length) (offset + Row.width patch.rows) rest

/-- The places of the edits of patches are found in a document that has these
patches behind some other rows. -/
theorem ofEdits_editsFrom (before : List Row) (patches : List Patch) (language : Text) :
    Span.ofEdits ⟨before ++ patches.flatMap rows, language⟩ (editsFrom before.length patches) =
      .ok (spansFrom before.length (Row.width before) patches) := by
  induction patches generalizing before with
  | nil => rfl
  | cons patch rest ih =>
    have htail := ih (before ++ patch.rows)
    rw [List.append_assoc, ← List.flatMap_cons, List.length_append, Row.width_append] at htail
    have hstart : Document.offset ⟨before ++ (patch :: rest).flatMap rows, language⟩
        ⟨before.length, 0⟩ = .ok (Row.width before + 0) :=
      Document.offset_append before patch.first (patch.more ++ rest.flatMap rows) language
        (Nat.zero_le _)
    have hstop : Document.offset ⟨before ++ (patch :: rest).flatMap rows, language⟩
        ⟨before.length + patch.more.length, patch.last.text.length⟩ =
          .ok (Row.width before + Row.width patch.init + patch.last.text.length) := by
      have h := Document.offset_append (before ++ patch.init) patch.last (rest.flatMap rows)
        language (Nat.le_refl patch.last.text.length)
      rwa [List.length_append, length_init, Row.width_append, List.append_assoc,
        ← List.singleton_append, ← List.append_assoc patch.init,
        ← rows_eq_init_append_last, ← List.flatMap_cons] at h
    rw [editsFrom, spansFrom, edits, spans]
    cases patch.change with
    | keep => exact htail
    | above text => exact Span.ofEdits_cons (Span.ofEdit_insert hstart text) htail
    | instead text =>
      exact Span.ofEdits_cons
        (Span.ofEdit_replace hstart (Position.isBefore_add_line _ _ _) hstop text) htail

/-- No edit of a patch lies in front of the patch. -/
theorem le_start_of_mem_spansFrom {line offset : Nat} {patches : List Patch} {span : Span}
    (h : span ∈ spansFrom line offset patches) : offset ≤ span.start := by
  induction patches generalizing line offset with
  | nil => cases h
  | cons patch rest ih =>
    rw [spansFrom, List.mem_append] at h
    rcases h with h | h
    · rw [spans] at h
      cases hc : patch.change with
      | keep => simp [hc] at h
      | above text => simp [hc] at h; simp [h]
      | instead text => simp [hc] at h; simp [h]
    · have := ih h
      omega

/-- The edits of patches are in order already. -/
theorem sort_spansFrom (line offset : Nat) (patches : List Patch) :
    Span.sort (spansFrom line offset patches) = spansFrom line offset patches := by
  induction patches generalizing line offset with
  | nil => rfl
  | cons patch rest ih =>
    have htail := ih (line + patch.rows.length) (offset + Row.width patch.rows)
    have hle : ∀ next ∈ spansFrom (line + patch.rows.length) (offset + Row.width patch.rows) rest,
        offset ≤ next.start := by
      intro next hn
      have := le_start_of_mem_spansFrom hn
      omega
    rw [spansFrom, spans]
    cases patch.change with
    | keep => exact htail
    | above text => exact Span.sort_cons htail hle
    | instead text => exact Span.sort_cons htail hle

/-- The text of the rows a patch leaves. -/
theorem content_renewed (ending : Break) (patch : Patch) :
    (patch.renewed ending).flatMap Row.content =
      match patch.change with
      | .keep => patch.rows.flatMap Row.content
      | .above text => replaceChar '\n' ending.text text ++ patch.rows.flatMap Row.content
      | .instead text => replaceChar '\n' ending.text text ++ patch.last.ending.text := by
  rw [renewed]
  cases patch.change with
  | keep => rfl
  | above text =>
    dsimp only
    rw [List.flatMap_append, Row.content_behind, rows, List.flatMap_cons, List.append_assoc]
  | instead text =>
    dsimp only
    rw [Row.content_behind, Row.content, List.nil_append]

/-- The walk over the text of patches puts in what the patches say. The text in
front of the first patch that the walk has not copied yet is `lag`. -/
theorem weave_spansFrom (ending : Break) (lag : Text) (line cursor : Nat) (patches : List Patch) :
    Span.weave ending.text cursor (lag ++ (patches.flatMap rows).flatMap Row.content)
        (spansFrom line (cursor + lag.length) patches) =
      .ok (lag ++ (patches.flatMap (renewed ending)).flatMap Row.content) := by
  induction patches generalizing lag line cursor with
  | nil => rfl
  | cons patch rest ih =>
    rw [spansFrom, spans, List.flatMap_cons, List.flatMap_append, List.flatMap_cons,
      List.flatMap_append, content_renewed]
    cases patch.change with
    | keep =>
      dsimp only
      have h := ih (lag ++ patch.rows.flatMap Row.content) (line + patch.rows.length) cursor
      rw [List.length_append, List.append_assoc, List.append_assoc, ← Nat.add_assoc] at h
      exact h
    | above text =>
      have h := ih (patch.rows.flatMap Row.content) (line + patch.rows.length)
        (cursor + lag.length)
      have hw := Span.weave_cons lag [] _ (.insert ⟨line, 0⟩ text) h
      simpa [Edit.insert, Row.width] using hw
    | instead text =>
      -- What the replacement leaves of the patch is its last break.
      have hrows : patch.rows.flatMap Row.content =
          (patch.init.flatMap Row.content ++ patch.last.text) ++ patch.last.ending.text := by
        rw [rows_eq_init_append_last]
        simp [Row.content]
      have hstop : cursor + lag.length + Row.width patch.init + patch.last.text.length =
          cursor + lag.length + (patch.init.flatMap Row.content ++ patch.last.text).length := by
        rw [List.length_append, Row.width, Nat.add_assoc (cursor + lag.length)]
      have hnext : cursor + lag.length + Row.width patch.rows =
          cursor + lag.length + (patch.init.flatMap Row.content ++ patch.last.text).length +
            patch.last.ending.text.length := by
        rw [Row.width, hrows, List.length_append, ← Nat.add_assoc]
      have h := ih patch.last.ending.text (line + patch.rows.length)
        (cursor + lag.length + (patch.init.flatMap Row.content ++ patch.last.text).length)
      rw [← hnext] at h
      have hw := Span.weave_cons lag (patch.init.flatMap Row.content ++ patch.last.text) _
        (.replace ⟨line, 0⟩ ⟨line + patch.more.length, patch.last.text.length⟩ text) h
      rw [hrows, hstop, List.singleton_append, List.append_assoc _ patch.last.ending.text, hw]
      simp [Edit.replace]

/-- The edits of patches that cover a document always apply, and give the text
of the rows the patches leave. -/
theorem apply_editsFrom {document : Document} {patches : List Patch}
    (h : patches.flatMap rows = document.rows) :
    document.apply (editsFrom 0 patches) =
      .ok ((patches.flatMap (renewed document.lineEnding)).flatMap Row.content) := by
  have hspans := ofEdits_editsFrom [] patches document.language
  rw [List.nil_append, List.length_nil, h] at hspans
  have hweave := weave_spansFrom document.lineEnding [] 0 0 patches
  rw [h] at hweave
  rw [Document.apply, hspans]
  dsimp only
  rw [sort_spansFrom]
  exact hweave

end Patch

end Docblock
