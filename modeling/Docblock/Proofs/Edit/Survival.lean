import Docblock.Proofs.Edit.Faithful

/-!
# What edits leave of every row

Faithful patches put new rows between the old ones and keep each old row up to
the blanks around it. Here this is said of the edits alone: which lines they put
in front of a line, which lines they cover, and what a row has in common with
the row it comes from.
-/

namespace Docblock

open Text

namespace Edit

/-- The rows that edits insert in front of a line, one for each line of their
texts, with the break for new text. -/
def insertedRows (ending : Break) (edits : List Edit) (line : Nat) : List Row :=
  (edits.filter fun edit => edit.replacesUntil = none ∧ edit.position = ⟨line, 0⟩).flatMap
    fun edit => (lines edit.text).map (⟨·, ending⟩)

/-- Rows numbered from `line` on, each behind the rows inserted in front of it. -/
def interleave (ending : Break) (edits : List Edit) : (line : Nat) → List Row → List Row
  | _, [] => []
  | line, row :: rest =>
    insertedRows ending edits line ++ row :: interleave ending edits (line + 1) rest

/-- Whether an edit replaces a text that reaches into a line. -/
def Covers (edit : Edit) (line : Nat) : Prop :=
  ∃ finish, edit.replacesUntil = some finish ∧ edit.position.line ≤ line ∧ line ≤ finish.line

/-- Whether the text that an edit replaces ends in a line. -/
def EndsIn (edit : Edit) (line : Nat) : Prop :=
  ∃ finish, edit.replacesUntil = some finish ∧ finish.line = line

/-- Whether an edit takes place on the lines from `start` up to `stop`. -/
structure Within (start stop : Nat) (edit : Edit) : Prop where
  /-- It does not start in front of these lines. -/
  start_le : start ≤ edit.position.line
  /-- It does not start behind them. -/
  start_lt : edit.position.line < stop
  /-- It does not end in front of them. -/
  le_finish : ∀ finish, edit.replacesUntil = some finish → start ≤ finish.line
  /-- It does not end behind them. -/
  finish_lt : ∀ finish, edit.replacesUntil = some finish → finish.line < stop

/-- An edit does not replace a text that ends on a line it does not take place on. -/
theorem Within.not_endsIn {start stop line : Nat} {edit : Edit} (h : edit.Within start stop)
    (hline : line < start ∨ stop ≤ line) : ¬edit.EndsIn line := by
  rintro ⟨finish, hreplaces, hfinish⟩
  have hle := h.le_finish finish hreplaces
  have hlt := h.finish_lt finish hreplaces
  omega

/-- An insertion takes place on its line. -/
theorem within_insert {start stop line : Nat} (hstart : start ≤ line) (hstop : line < stop)
    (character : Nat) (text : Text) : Within start stop (.insert ⟨line, character⟩ text) := by
  refine ⟨hstart, hstop, ?_, ?_⟩
  · intro finish hreplaces
    cases hreplaces
  · intro finish hreplaces
    cases hreplaces

variable {ending : Break}

theorem insertedRows_nil (line : Nat) : insertedRows ending [] line = [] := rfl

/-- Insertions of two batches on one line follow each other. -/
theorem insertedRows_append (a b : List Edit) (line : Nat) :
    insertedRows ending (a ++ b) line =
      insertedRows ending a line ++ insertedRows ending b line := by
  rw [insertedRows, List.filter_append, List.flatMap_append]
  rfl

/-- An insertion at the start of a line adds its lines there. -/
theorem insertedRows_insert_self (line : Nat) (text : Text) :
    insertedRows ending [.insert ⟨line, 0⟩ text] line = (lines text).map (⟨·, ending⟩) := by
  simp [insertedRows, insert]

/-- A replacement inserts no rows. -/
theorem insertedRows_replace (start finish : Position) (text : Text) (line : Nat) :
    insertedRows ending [.replace start finish text] line = [] := by
  simp [insertedRows, replace]

/-- Edits on other lines insert nothing in front of a line. -/
theorem insertedRows_of_within {start stop line : Nat} {edits : List Edit}
    (h : ∀ edit ∈ edits, edit.Within start stop) (hline : line < start ∨ stop ≤ line) :
    insertedRows ending edits line = [] := by
  have hnone : edits.filter (fun edit => edit.replacesUntil = none ∧ edit.position = ⟨line, 0⟩) =
      [] := by
    rw [List.filter_eq_nil_iff]
    intro edit hmem hinsert
    have hposition := (of_decide_eq_true hinsert).2
    have hstart := (h edit hmem).start_le
    have hstop := (h edit hmem).start_lt
    rw [hposition] at hstart hstop
    dsimp only at hstart hstop
    omega
  rw [insertedRows, hnone, List.flatMap_nil]

/-- Rows are interleaved part by part. -/
theorem interleave_append (edits : List Edit) (line : Nat) (a b : List Row) :
    interleave ending edits line (a ++ b) =
      interleave ending edits line a ++ interleave ending edits (line + a.length) b := by
  induction a generalizing line with
  | nil => rfl
  | cons row rest ih =>
    rw [List.cons_append, interleave, interleave, ih, List.append_assoc, List.cons_append,
      List.length_cons, Nat.add_assoc, Nat.add_comm 1]

/-- Only what is inserted in front of the rows matters. -/
theorem interleave_congr {edits others : List Edit} {line : Nat} {rows : List Row}
    (h : ∀ number, line ≤ number → number < line + rows.length →
      insertedRows ending edits number = insertedRows ending others number) :
    interleave ending edits line rows = interleave ending others line rows := by
  induction rows generalizing line with
  | nil => rfl
  | cons row rest ih =>
    have hrest : interleave ending edits (line + 1) rest =
        interleave ending others (line + 1) rest := by
      apply ih
      intro number hle hlt
      apply h number (by omega)
      rw [List.length_cons]
      omega
    rw [interleave, interleave, hrest, h line (Nat.le_refl line) (by simp)]

/-- Edits on neighbouring lines insert their rows independently. -/
theorem interleave_append_of_within {a b : List Edit} {line middle stop : Nat}
    {rows others : List Row} (ha : ∀ edit ∈ a, edit.Within line middle)
    (hb : ∀ edit ∈ b, edit.Within middle stop) (hrows : line + rows.length = middle) :
    interleave ending (a ++ b) line (rows ++ others) =
      interleave ending a line rows ++ interleave ending b middle others := by
  have hfirst : interleave ending (a ++ b) line rows = interleave ending a line rows := by
    apply interleave_congr
    intro number _ hlt
    rw [insertedRows_append, insertedRows_of_within hb (Or.inl (by omega)), List.append_nil]
  have hsecond : interleave ending (a ++ b) middle others = interleave ending b middle others := by
    apply interleave_congr
    intro number hle _
    rw [insertedRows_append, insertedRows_of_within ha (Or.inr hle), List.nil_append]
  rw [interleave_append, hrows, hfirst, hsecond]

/-- Rows without insertions among them stay as they are. -/
theorem interleave_of_insertedRows_eq_nil {edits : List Edit} {line : Nat} {rows : List Row}
    (h : ∀ number, line ≤ number → number < line + rows.length →
      insertedRows ending edits number = []) :
    interleave ending edits line rows = rows := by
  induction rows generalizing line with
  | nil => rfl
  | cons row rest ih =>
    have hrest : interleave ending edits (line + 1) rest = rest := by
      apply ih
      intro number hle hlt
      apply h number (by omega)
      rw [List.length_cons]
      omega
    rw [interleave, hrest, h line (Nat.le_refl line) (by simp), List.nil_append]

end Edit

/-- What a row keeps of the row with a given number that it comes from. -/
structure Row.Survives (edits : List Edit) (line : Nat) (old new : Row) : Prop where
  /-- The trimmed text is the same. -/
  trimmed : trim new.text = trim old.text
  /-- A row that no replaced text reaches into stays as it is, its break included. -/
  untouched : (∀ edit ∈ edits, ¬edit.Covers line) → new = old
  /-- The break behind a replaced text stays as it is. -/
  ending : (∃ edit ∈ edits, edit.EndsIn line) → new.ending = old.ending

/-- Edits that replace no text ending in the line of a row do not matter to it. -/
theorem Row.Survives.append_right {edits more : List Edit} {line : Nat} {old new : Row}
    (h : Survives edits line old new) (hmore : ∀ edit ∈ more, ¬edit.EndsIn line) :
    Survives (edits ++ more) line old new where
  trimmed := h.trimmed
  untouched := by
    intro hcovers
    exact h.untouched fun edit hmem => hcovers edit (List.mem_append_left _ hmem)
  ending := by
    rintro ⟨edit, hmem, hin⟩
    rcases List.mem_append.mp hmem with hmem | hmem
    · exact h.ending ⟨edit, hmem, hin⟩
    · exact absurd hin (hmore edit hmem)

/-- Edits on other rows do not matter to a row. -/
theorem Row.Survives.append_left {edits more : List Edit} {line : Nat} {old new : Row}
    (h : Survives edits line old new) (hmore : ∀ edit ∈ more, ¬edit.EndsIn line) :
    Survives (more ++ edits) line old new where
  trimmed := h.trimmed
  untouched := by
    intro hcovers
    exact h.untouched fun edit hmem => hcovers edit (List.mem_append_right _ hmem)
  ending := by
    rintro ⟨edit, hmem, hin⟩
    rcases List.mem_append.mp hmem with hmem | hmem
    · exact absurd hin (hmore edit hmem)
    · exact h.ending ⟨edit, hmem, hin⟩

namespace Patch

variable {ending : Break}

/-- A patch edits its own lines only. -/
theorem within_of_mem_edits (line : Nat) (patch : Patch) :
    ∀ edit ∈ patch.edits line, edit.Within line (line + patch.rows.length) := by
  intro edit hmem
  have hlength : patch.rows.length = patch.more.length + 1 := List.length_cons
  rw [edits] at hmem
  cases hc : patch.change with
  | keep =>
    rw [hc] at hmem
    cases hmem
  | above text =>
    rw [hc] at hmem
    rw [List.mem_singleton.mp hmem]
    exact Edit.within_insert (Nat.le_refl line) (by omega) 0 text
  | instead text =>
    rw [hc] at hmem
    rw [List.mem_singleton.mp hmem]
    refine ⟨Nat.le_refl _, by simp only [Edit.replace]; omega, ?_, ?_⟩
    · rintro finish ⟨⟩
      exact Nat.le_add_right _ _
    · rintro finish ⟨⟩
      dsimp only
      omega

/-- The edits of patches are on the rows of the patches. -/
theorem within_of_mem_editsFrom (line : Nat) (patches : List Patch) :
    ∀ edit ∈ editsFrom line patches,
      edit.Within line (line + (patches.flatMap rows).length) := by
  induction patches generalizing line with
  | nil => exact fun _ hmem => absurd hmem List.not_mem_nil
  | cons patch rest ih =>
    intro edit hmem
    rw [editsFrom] at hmem
    rw [List.flatMap_cons, List.length_append]
    rcases List.mem_append.mp hmem with hmem | hmem
    · obtain ⟨hstart, hlt, hle, hfinish⟩ := within_of_mem_edits line patch edit hmem
      refine ⟨hstart, by omega, hle, ?_⟩
      intro finish hreplaces
      have := hfinish finish hreplaces
      omega
    · obtain ⟨hstart, hlt, hle, hfinish⟩ := ih (line + patch.rows.length) edit hmem
      refine ⟨by omega, by omega, ?_, ?_⟩
      · intro finish hreplaces
        have := hle finish hreplaces
        omega
      · intro finish hreplaces
        have := hfinish finish hreplaces
        omega

/-- What a patch leaves are the rows it keeps with what its edits insert. -/
theorem renewed_eq_interleave (line : Nat) {patch : Patch} (hf : patch.Faithful) :
    patch.renewed ending = Edit.interleave ending (patch.edits line) line (patch.kept ending) := by
  rw [renewed_eq_added_append_kept hf, added, edits]
  cases hc : patch.change with
  | keep =>
    dsimp only
    rw [Edit.interleave_of_insertedRows_eq_nil fun _ _ _ => Edit.insertedRows_nil _,
      List.nil_append]
  | above text =>
    have hkept : patch.kept ending = patch.first :: patch.more := by
      rw [kept, hc, rows]
    have hmore : Edit.interleave ending [.insert ⟨line, 0⟩ text] (line + 1) patch.more =
        patch.more := by
      apply Edit.interleave_of_insertedRows_eq_nil
      intro number hle _
      have hwithin : ∀ edit ∈ [Edit.insert ⟨line, 0⟩ text], edit.Within line (line + 1) := by
        intro edit hmem
        rw [List.mem_singleton.mp hmem]
        exact Edit.within_insert (Nat.le_refl line) (Nat.lt_succ_self line) 0 text
      exact Edit.insertedRows_of_within hwithin (Or.inr hle)
    dsimp only
    rw [hkept, Edit.interleave, hmore, Edit.insertedRows_insert_self]
  | instead text =>
    dsimp only
    rw [Edit.interleave_of_insertedRows_eq_nil fun _ _ _ => Edit.insertedRows_replace _ _ _ _,
      List.nil_append]

/-- The rows of a faithful patch survive its edits. -/
theorem survives_kept (line : Nat) {patch : Patch} (hf : patch.Faithful) {number : Nat}
    {old new : Row} (hold : patch.rows[number]? = some old)
    (hnew : (patch.kept ending)[number]? = some new) :
    Row.Survives (patch.edits line) (line + number) old new := by
  have hlt : number < patch.rows.length := (List.getElem?_eq_some_iff.mp hold).1
  have hlength : patch.rows.length = patch.more.length + 1 := List.length_cons
  have htrim : trim new.text = trim old.text := by
    have hmap := congrArg (·[number]?) (trim_kept ending hf)
    simpa [hold, hnew] using hmap
  -- Without a replacement the rows are the same.
  have hsame (hk : patch.kept ending = patch.rows) : new = old := by
    rw [hk, hold] at hnew
    exact (Option.some.inj hnew).symm
  cases hc : patch.change with
  | keep =>
    have heq : new = old := hsame (by rw [kept, hc])
    exact ⟨htrim, fun _ => heq, fun _ => congrArg Row.ending heq⟩
  | above text =>
    have heq : new = old := hsame (by rw [kept, hc])
    exact ⟨htrim, fun _ => heq, fun _ => congrArg Row.ending heq⟩
  | instead text =>
    refine ⟨htrim, ?_, ?_⟩
    · intro hcovers
      have hedit : Edit.replace ⟨line, 0⟩ ⟨line + patch.more.length, patch.last.text.length⟩ text ∈
          patch.edits line := by
        rw [edits, hc]
        exact List.mem_singleton_self _
      exact absurd ⟨_, rfl, Nat.le_add_right _ _, by dsimp only; omega⟩ (hcovers _ hedit)
    · rintro ⟨edit, hmem, finish, hreplaces, hfinish⟩
      rw [edits, hc, List.mem_singleton] at hmem
      subst hmem
      cases hreplaces
      have hnumber : number = patch.more.length := by
        dsimp only at hfinish
        omega
      subst hnumber
      have hlast := getLast?_kept ending hf
      rw [List.getLast?_eq_getElem?, length_kept ending hf, hlength, Nat.add_sub_cancel,
        hnew] at hlast
      have hrow : patch.rows.getLast? = some patch.last := by
        rw [rows_eq_init_append_last, List.getLast?_concat]
      rw [List.getLast?_eq_getElem?, hlength, Nat.add_sub_cancel, hold] at hrow
      cases hrow
      simpa using hlast

variable (ending) in
/-- Faithful patches leave every row they cover, with the rows that their edits
insert between them. -/
theorem exists_interleave (line : Nat) {patches : List Patch}
    (hf : ∀ patch ∈ patches, patch.Faithful) :
    ∃ kept : List Row, kept.length = (patches.flatMap rows).length ∧
      patches.flatMap (renewed ending) =
        Edit.interleave ending (editsFrom line patches) line kept ∧
      ∀ (number : Nat) (old new : Row), (patches.flatMap rows)[number]? = some old →
        kept[number]? = some new →
        Row.Survives (editsFrom line patches) (line + number) old new := by
  induction patches generalizing line with
  | nil => exact ⟨[], rfl, rfl, fun _ _ _ hold => by cases hold⟩
  | cons patch rest ih =>
    rw [List.forall_mem_cons] at hf
    obtain ⟨tail, hlength, hrenewed, hsurvive⟩ := ih (line + patch.rows.length) hf.2
    have hhead := length_kept ending hf.1
    have hhere := within_of_mem_edits line patch
    have hthere := within_of_mem_editsFrom (line + patch.rows.length) rest
    refine ⟨patch.kept ending ++ tail, ?_, ?_, ?_⟩
    · rw [List.length_append, hhead, hlength, List.flatMap_cons, List.length_append]
    · rw [List.flatMap_cons, hrenewed, renewed_eq_interleave line hf.1, editsFrom,
        Edit.interleave_append_of_within hhere hthere (by rw [hhead])]
    · intro number old new hold hnew
      rw [List.flatMap_cons] at hold
      rw [editsFrom]
      by_cases hnumber : number < patch.rows.length
      · rw [List.getElem?_append_left hnumber] at hold
        rw [List.getElem?_append_left (by omega)] at hnew
        apply (survives_kept line hf.1 hold hnew).append_right
        exact fun edit hmem => (hthere edit hmem).not_endsIn (Or.inl (by omega))
      · rw [List.getElem?_append_right (by omega)] at hold
        rw [List.getElem?_append_right (by omega), hhead] at hnew
        have hline : line + patch.rows.length + (number - patch.rows.length) = line + number := by
          omega
        have hrow := hsurvive _ old new hold hnew
        rw [hline] at hrow
        apply hrow.append_left
        exact fun edit hmem => (hhere edit hmem).not_endsIn (Or.inr (by omega))

end Patch

end Docblock
