import Docblock.Proofs.Scan.Place

/-!
# Lines inside comments

Between the opener of a comment and its closer no line has a closer. A scan
that meets the opener of a block there stays inside the block, so nothing is
inserted up to the closer. A comment that opens no block is not noticed: its
lines are scanned like code, and so are those of a block when the range of the
scan starts inside it.
-/

namespace Docblock

open Text

/-- Whether a row has a closer. -/
def Row.HasCloser (row : Row) : Prop := Scan.closer <:+: row.text

instance (row : Row) : Decidable row.HasCloser :=
  inferInstanceAs (Decidable (Scan.closer <:+: row.text))

/-- Whether a row starts like the opener of a block. -/
def Row.OpensBlock (row : Row) : Prop := Scan.opensBlock (trim row.text) = true

instance (row : Row) : Decidable row.OpensBlock :=
  inferInstanceAs (Decidable (Scan.opensBlock (trim row.text) = true))

/-- The scan finds no closer on a row exactly when the row has none. -/
theorem Row.afterCloser?_eq_none_iff {row : Row} :
    Scan.afterCloser? (trim row.text) = none ↔ ¬row.HasCloser := by
  rw [Scan.afterCloser?_eq_none_iff, Comment.closer_infix_trim, HasCloser]

namespace Document

/-- Whether one of the rows from `start` on and before `stop` has a property. -/
def HasRow (document : Document) (p : Row → Prop) (start stop : Nat) : Prop :=
  ∃ number row, start ≤ number ∧ number < stop ∧ document.rows[number]? = some row ∧ p row

variable {document : Document} {p : Row → Prop} {start stop number : Nat} {row : Row}

/-- A row among some lines is a row among more of them. -/
theorem HasRow.mono {start' stop' : Nat} (h : document.HasRow p start stop)
    (hstart : start' ≤ start) (hstop : stop ≤ stop') : document.HasRow p start' stop' := by
  obtain ⟨number, row, hs, ht, hr⟩ := h
  exact ⟨number, row, hstart.trans hs, ht.trans_le hstop, hr⟩

theorem not_hasRow_self : ¬document.HasRow p start start :=
  fun ⟨_, _, hs, ht, _⟩ => absurd (hs.trans_lt ht) (lt_irrefl _)

/-- A stretch of rows that goes one row further. -/
theorem hasRow_succ_iff (hs : start ≤ number) (hr : document.rows[number]? = some row) :
    document.HasRow p start (number + 1) ↔ document.HasRow p start number ∨ p row := by
  constructor
  · rintro ⟨other, row', hs', hlt, hr', hp⟩
    rcases Nat.lt_succ_iff_lt_or_eq.mp hlt with hlt | rfl
    · exact .inl ⟨other, row', hs', hlt, hr', hp⟩
    · rw [hr] at hr'
      cases hr'
      exact .inr hp
  · rintro (h | hp)
    · exact h.mono le_rfl (Nat.le_succ _)
    · exact ⟨number, row, hs, Nat.lt_succ_self _, hr, hp⟩

/-- A stretch of rows that starts one row earlier. -/
theorem hasRow_iff_head (hlt : start < stop) (hr : document.rows[start]? = some row) :
    document.HasRow p start stop ↔ p row ∨ document.HasRow p (start + 1) stop := by
  constructor
  · rintro ⟨other, row', hs, ht, hr', hp⟩
    rcases Nat.eq_or_lt_of_le hs with rfl | hs
    · rw [hr] at hr'
      cases hr'
      exact .inl hp
    · exact .inr ⟨other, row', hs, ht, hr', hp⟩
  · rintro (hp | h)
    · exact ⟨start, row, le_rfl, hlt, hr, hp⟩
    · exact h.mono (Nat.le_succ _) le_rfl

/-- Below a row without a closer no scan starts right below a comment. -/
theorem above_of_not_hasRow (h : ¬document.HasRow Row.HasCloser start (number + 1))
    (hs : start ≤ number) : Scan.above document (number + 1) = false := by
  rw [Scan.above]
  cases hr : document.rows[number]? with
  | none => rfl
  | some row =>
    have hrow : ¬row.HasCloser := fun hc => h ⟨number, row, hs, Nat.lt_succ_self _, hr, hc⟩
    exact Scan.closesComment_of_afterCloser?_eq_none (Row.afterCloser?_eq_none_iff.mpr hrow)

end Document

namespace Scan

variable {settings : Settings} {document : Document} {start middle number : Nat}

/-- As long as there is no closer, a scan that was outside any block is inside
one exactly when it has met an opener. -/
theorem stateAt_of_closerFree {flag : Bool} (hs : start ≤ middle) (hm : middle ≤ number)
    (hn : number ≤ document.rows.length)
    (h : stateAt settings document start middle = .outside flag)
    (hfree : ¬document.HasRow Row.HasCloser middle number) :
    (document.HasRow Row.OpensBlock middle number ∧
        ∃ block, stateAt settings document start number = .inside block) ∨
      (¬document.HasRow Row.OpensBlock middle number ∧
        stateAt settings document start number =
          .outside (if number = middle then flag else false)) := by
  induction number, hm using Nat.le_induction with
  | base => exact .inr ⟨Document.not_hasRow_self, by rw [if_pos rfl, h]⟩
  | succ number hm ih =>
    obtain ⟨row, hr⟩ : ∃ row, document.rows[number]? = some row :=
      ⟨_, List.getElem?_eq_getElem hn⟩
    rw [Document.hasRow_succ_iff hm hr, not_or] at hfree
    have hc : afterCloser? (Line.trimmed ⟨number, row.text⟩) = none :=
      Row.afterCloser?_eq_none_iff.mpr hfree.2
    rw [stateAt_succ settings (hs.trans hm) hr, Document.hasRow_succ_iff hm hr]
    rcases ih (Nat.le_of_succ_le hn) hfree.1 with ⟨hopener, block, hstate⟩ | ⟨hnone, hstate⟩
    · rw [hstate]
      exact .inl ⟨.inl hopener, _, State.next_inside_of_eq_none block hc⟩
    · rw [hstate]
      cases hopen : opensBlock (Line.trimmed ⟨number, row.text⟩) with
      | true => exact .inl ⟨.inr hopen, _, State.next_outside_of_opensBlock _ hopen hc⟩
      | false =>
        rw [State.next_outside_of_not_opensBlock _ hopen,
          closesComment_of_afterCloser?_eq_none hc, if_neg (by omega)]
        exact .inr ⟨not_or.mpr ⟨hnone, Bool.eq_false_iff.mp hopen⟩, rfl⟩

/-- Without closers in between, the scan stays outside exactly when no block is opened, and
a comment above matters to the first line only. -/
theorem stateAt_eq_outside_iff {flag behind : Bool} (hs : start ≤ middle) (hm : middle ≤ number)
    (hn : number ≤ document.rows.length)
    (h : stateAt settings document start middle = .outside flag)
    (hfree : ¬document.HasRow Row.HasCloser middle number) :
    stateAt settings document start number = .outside behind ↔
      ¬document.HasRow Row.OpensBlock middle number ∧
        behind = if number = middle then flag else false := by
  rcases stateAt_of_closerFree hs hm hn h hfree with ⟨hopener, block, hstate⟩ | ⟨hnone, hstate⟩
  · rw [hstate]
    constructor
    · rintro ⟨⟩
    · rintro ⟨hnone, _⟩
      exact absurd hopener hnone
  · rw [hstate]
    constructor
    · rintro ⟨⟩
      exact ⟨hnone, rfl⟩
    · rintro ⟨_, rfl⟩
      rfl

/-- Up to the closer of a comment, a scan that met the comment outside any
block is still there exactly when it has met no opener of a block. -/
theorem stateAt_eq_outside_iff_of_comment {flag behind : Bool} {opening : Row}
    (hs : start ≤ middle) (hopening : document.rows[middle]? = some opening)
    (h : stateAt settings document start middle = .outside flag)
    (hopens : startsWith ['/', '*'] (trim opening.text) = true)
    (hopen : ¬closer <:+: (trim opening.text).drop 2) (hm : middle < number)
    (hn : number ≤ document.rows.length)
    (hfree : ¬document.HasRow Row.HasCloser (middle + 1) number) :
    stateAt settings document start number = .outside behind ↔
      ¬document.HasRow Row.OpensBlock middle number ∧
        behind = decide (number = middle + 1 ∧ trim opening.text = shortComment) := by
  cases hblock : opensBlock (trim opening.text) with
  | true =>
    -- The opener of a block has no closer at all.
    have hnone : ¬opening.HasCloser := by
      rw [← Row.afterCloser?_eq_none_iff, ← afterCloser?_drop_of_opensBlock hblock,
        afterCloser?_eq_none_iff]
      exact hopen
    have hall : ¬document.HasRow Row.HasCloser middle number := by
      rw [Document.hasRow_iff_head hm hopening, not_or]
      exact ⟨hnone, hfree⟩
    have hopener : document.HasRow Row.OpensBlock middle number :=
      (Document.hasRow_iff_head hm hopening).mpr (.inl hblock)
    rw [stateAt_eq_outside_iff hs hm.le hn h hall]
    simp only [hopener, not_true_eq_false, false_and]
  | false =>
    have hnext : stateAt settings document start (middle + 1) =
        .outside (closesComment (trim opening.text)) := by
      rw [stateAt_succ settings hs hopening, h]
      exact State.next_outside_of_not_opensBlock flag hblock
    have hflag : (if number = middle + 1 then closesComment (trim opening.text) else false) =
        decide (number = middle + 1 ∧ trim opening.text = shortComment) := by
      rw [Bool.eq_iff_iff, decide_eq_true_iff, ← closesComment_iff_of_stays_open hopens hopen]
      split
      · simp [*]
      · simp [*]
    rw [stateAt_eq_outside_iff (Nat.le_succ_of_le hs) hm hn hnext hfree, hflag,
      Document.hasRow_iff_head hm hopening, Row.OpensBlock, hblock]
    simp only [Bool.false_eq_true, false_or]

/-- A scan inside a block has met its opener outside any block, and no closer
since. -/
theorem of_stateAt_eq_inside {block : OpenBlock} (hs : start ≤ number)
    (hn : number ≤ document.rows.length)
    (h : stateAt settings document start number = .inside block) :
    start ≤ block.start.line ∧ block.start.line < number ∧
      (∃ flag, stateAt settings document start block.start.line = .outside flag) ∧
      document.HasRow Row.OpensBlock block.start.line (block.start.line + 1) ∧
      ¬document.HasRow Row.HasCloser block.start.line number := by
  induction number, hs using Nat.le_induction generalizing block with
  | base =>
    rw [stateAt_self] at h
    cases h
  | succ number hs ih =>
    obtain ⟨row, hr⟩ : ∃ row, document.rows[number]? = some row :=
      ⟨_, List.getElem?_eq_getElem hn⟩
    rw [stateAt_succ settings hs hr] at h
    obtain ⟨hb, hc⟩ := State.of_next_eq_inside h
    have hrow : ¬row.HasCloser := Row.afterCloser?_eq_none_iff.mp hc
    rcases State.of_blockWith?_eq_some hb with
      ⟨before, hbefore, hstart⟩ | ⟨⟨flag, hflag⟩, hopen, hstart⟩
    · obtain ⟨hle, hlt, houtside, hopener, hfree⟩ := ih (Nat.le_of_succ_le hn) hbefore
      rw [hstart, Document.hasRow_succ_iff hlt.le hr, not_or]
      exact ⟨hle, Nat.lt_succ_of_lt hlt, houtside, hopener, hfree, hrow⟩
    · have hline : block.start.line = number := by
        rw [hstart]
        rfl
      rw [hline, Document.hasRow_succ_iff le_rfl hr, Document.hasRow_succ_iff le_rfl hr, not_or]
      exact ⟨hs, Nat.lt_succ_self _, ⟨flag, hflag⟩, .inr hopen, Document.not_hasRow_self, hrow⟩

/-- A scan that starts later is outside any block wherever the earlier one is. -/
theorem exists_stateAt_eq_outside (hs : start ≤ middle) (hm : middle ≤ number)
    (hn : number ≤ document.rows.length)
    (h : ∃ flag, stateAt settings document start number = .outside flag) :
    ∃ flag, stateAt settings document middle number = .outside flag := by
  induction number, hm using Nat.le_induction with
  | base => exact ⟨_, stateAt_self settings document middle⟩
  | succ number hm ih =>
    obtain ⟨row, hr⟩ : ∃ row, document.rows[number]? = some row :=
      ⟨_, List.getElem?_eq_getElem hn⟩
    rw [stateAt_succ settings (hs.trans hm) hr] at h
    rw [stateAt_succ settings hm hr]
    exact State.exists_next_eq_outside (ih (Nat.le_of_succ_le hn)) h

/-- Where the scan of the whole document is inside a block, one that starts
later is outside any block exactly when it starts below the opener and meets no
other opener. -/
theorem stateAt_eq_outside_iff_of_inside {block : OpenBlock} {flag : Bool} (hm : middle ≤ number)
    (hn : number ≤ document.rows.length)
    (h : stateAt settings document 0 number = .inside block) :
    stateAt settings document middle number = .outside flag ↔
      block.start.line < middle ∧ ¬document.HasRow Row.OpensBlock middle number ∧
        flag = false := by
  obtain ⟨_, hlt, houtside, hopener, hfree⟩ := of_stateAt_eq_inside (Nat.zero_le number) hn h
  by_cases hbelow : block.start.line < middle
  · have hrest : ¬document.HasRow Row.HasCloser middle number :=
      fun hcloser => hfree (hcloser.mono hbelow.le le_rfl)
    have habove : above document middle = false := by
      obtain ⟨last, rfl⟩ := Nat.exists_eq_succ_of_ne_zero (Nat.ne_zero_of_lt hbelow)
      exact Document.above_of_not_hasRow (fun hcloser => hfree (hcloser.mono le_rfl hm))
        (Nat.le_of_lt_succ hbelow)
    rw [stateAt_eq_outside_iff le_rfl hm hn (stateAt_self settings document middle) hrest,
      habove, ite_self]
    simp only [hbelow, true_and]
  · -- A scan that has the opener is inside the block, too.
    rw [not_lt] at hbelow
    obtain ⟨start, hmet⟩ := exists_stateAt_eq_outside (Nat.zero_le middle) hbelow
      (hlt.le.trans hn) houtside
    rw [stateAt_eq_outside_iff hbelow hlt.le hn hmet hfree]
    constructor
    · rintro ⟨hnone, _⟩
      exact absurd (hopener.mono le_rfl hlt) hnone
    · rintro ⟨hlt', _⟩
      exact absurd hlt' hbelow.not_gt

end Scan

section Inserted

variable {settings : Settings} {document : Document} {found : Report} {number : Nat} {row : Row}

/-- What a scan of a whole document inserts at a line of a comment, its opener
apart and its closing line included: nothing if the comment or another one that
was opened in it is a block, and else what it would insert outside comments. -/
theorem insertsAt_commented_iff (h : Scan.whole settings document.toSource = .ok found)
    {start : Nat} {opening : Row} (hopening : document.rows[start]? = some opening)
    (houtside : ∃ flag, Scan.stateAt settings document 0 start = .outside flag)
    (hopens : startsWith ['/', '*'] (trim opening.text) = true)
    (hopen : ¬Scan.closer <:+: (trim opening.text).drop 2)
    (hr : document.rows[number]? = some row) (hlt : start < number)
    (hfree : ¬document.HasRow Row.HasCloser (start + 1) number) :
    found.InsertsAt number ↔
      row.declares = true ∧ ¬document.HasRow Row.OpensBlock start number ∧
        ¬(number = start + 1 ∧ trim opening.text = Scan.shortComment ∧
          settings.scan.skipDocumented = true) := by
  obtain ⟨flag, hflag⟩ := houtside
  obtain ⟨hin, _⟩ := List.getElem?_eq_some_iff.mp hr
  have hstate (behind : Bool) :=
    @Scan.stateAt_eq_outside_iff_of_comment settings document 0 start number flag behind opening
      (Nat.zero_le start) hopening hflag hopens hopen hlt hin.le hfree
  rw [Scan.insertsAt_whole_iff h hr]
  simp only [hstate]
  constructor
  · rintro ⟨_, ⟨hnone, rfl⟩, hdeclares, hdocumented⟩
    refine ⟨hdeclares, hnone, ?_⟩
    rintro ⟨hnumber, hshort, hskip⟩
    exact hdocumented ⟨decide_eq_true ⟨hnumber, hshort⟩, hskip⟩
  · rintro ⟨hdeclares, hnone, hdocumented⟩
    refine ⟨_, ⟨hnone, rfl⟩, hdeclares, ?_⟩
    rintro ⟨hbehind, hskip⟩
    obtain ⟨hnumber, hshort⟩ := of_decide_eq_true hbehind
    exact hdocumented ⟨hnumber, hshort, hskip⟩

/-- A declaration inside a block that is closed below it. -/
theorem insertsAt_commented_iff_block :
    ∃ document found opening row,
      document = Document.ofText "javascript".toList "/** a\n * b\nf(x) \x7b\n*/\n".toList ∧
      Scan.whole {} document.toSource = .ok found ∧
      Scan.stateAt {} document 0 0 = .outside false ∧
      document.rows[0]? = some opening ∧ startsWith ['/', '*'] (trim opening.text) = true ∧
      ¬Scan.closer <:+: (trim opening.text).drop 2 ∧ ¬document.HasRow Row.HasCloser 1 2 ∧
      document.rows[2]? = some row ∧ row.declares = true ∧ ¬found.InsertsAt 2 := by
  obtain ⟨document, hdocument⟩ : ∃ document, document = Document.ofText "javascript".toList
      "/** a\n * b\nf(x) \x7b\n*/\n".toList := ⟨_, rfl⟩
  have haccepts : ({} : Settings).scan.accepts document.toSource.language = true := by
    rw [hdocument]
    decide +kernel
  have hopening : document.rows[0]? = some ⟨"/** a".toList, .lf⟩ := by rw [hdocument]; rfl
  have hinner : document.rows[1]? = some ⟨" * b".toList, .lf⟩ := by rw [hdocument]; rfl
  have hr : document.rows[2]? = some ⟨"f(x) \x7b".toList, .lf⟩ := by rw [hdocument]; rfl
  have hopens : startsWith ['/', '*'] (trim "/** a".toList) = true := by decide +kernel
  have hopen : ¬Scan.closer <:+: (trim "/** a".toList).drop 2 := by decide +kernel
  have hfree : ¬document.HasRow Row.HasCloser 1 2 := by
    rw [Document.hasRow_succ_iff le_rfl hinner, not_or]
    exact ⟨Document.not_hasRow_self, by decide +kernel⟩
  have hopener : document.HasRow Row.OpensBlock 0 2 :=
    (Document.hasRow_iff_head Nat.two_pos hopening).mpr (.inl (by decide +kernel))
  have houtside := Scan.stateAt_self {} document 0
  obtain ⟨found, h⟩ := (@Scan.exists_report_eq_ok_iff {} document.toSource none).mpr haccepts
  have hiff := insertsAt_commented_iff h hopening ⟨_, houtside⟩ hopens hopen hr Nat.two_pos hfree
  refine ⟨document, found, _, _, hdocument, h, houtside, hopening, hopens, hopen, hfree, hr,
    by decide +kernel, ?_⟩
  exact fun hinserted => (hiff.mp hinserted).2.1 hopener

/-- Code in a comment that is no block is documented like any other. -/
theorem exists_insertion_in_comment :
    ∃ document found opening closing,
      document = Document.ofText "javascript".toList "/*\nf(x) \x7b\n*/\n".toList ∧
      Scan.whole {} document.toSource = .ok found ∧
      Scan.stateAt {} document 0 0 = .outside false ∧
      document.rows[0]? = some opening ∧ startsWith ['/', '*'] (trim opening.text) = true ∧
      ¬Scan.closer <:+: (trim opening.text).drop 2 ∧ ¬document.HasRow Row.HasCloser 1 2 ∧
      document.rows[2]? = some closing ∧ closing.HasCloser ∧ found.InsertsAt 1 := by
  obtain ⟨document, hdocument⟩ : ∃ document, document = Document.ofText "javascript".toList
      "/*\nf(x) \x7b\n*/\n".toList := ⟨_, rfl⟩
  have hopening : document.rows[0]? = some ⟨"/*".toList, .lf⟩ := by rw [hdocument]; rfl
  have hinner : document.rows[1]? = some ⟨"f(x) \x7b".toList, .lf⟩ := by rw [hdocument]; rfl
  have hclosing : document.rows[2]? = some ⟨"*/".toList, .lf⟩ := by rw [hdocument]; rfl
  have hopens : startsWith ['/', '*'] (trim "/*".toList) = true := by decide +kernel
  have hopen : ¬Scan.closer <:+: (trim "/*".toList).drop 2 := by decide +kernel
  have hfree : ¬document.HasRow Row.HasCloser 1 2 := by
    rw [Document.hasRow_succ_iff le_rfl hinner, not_or]
    exact ⟨Document.not_hasRow_self, by decide +kernel⟩
  have hinserted : (Scan.whole {} document.toSource).map
      (fun found => decide (found.InsertsAt 1)) = .ok true := by
    rw [hdocument]
    decide +kernel
  cases h : Scan.whole {} document.toSource with
  | error refusal => rw [h] at hinserted; cases hinserted
  | ok found =>
    rw [h] at hinserted
    exact ⟨document, found, _, _, hdocument, h, Scan.stateAt_self {} document 0, hopening,
      hopens, hopen, hfree, hclosing, by decide, of_decide_eq_true (Except.ok.inj hinserted)⟩

/-- What a scan of a selection inserts at a line of a block: nothing unless the
selection starts in the block, below its opener. -/
theorem insertsAt_block_iff {range : LineRange}
    (h : Scan.selection settings document.toSource range = .ok found)
    (hr : document.rows[number]? = some row) {block : Scan.OpenBlock}
    (hblock : (Scan.stateAt settings document 0 number).blockWith? ⟨number, row.text⟩ =
      some block) :
    found.InsertsAt number ↔
      block.start.line < range.start ∧ range.start ≤ number ∧ number ≤ range.stop ∧
        row.declares = true ∧ ¬document.HasRow Row.OpensBlock range.start number := by
  obtain ⟨hin, _⟩ := List.getElem?_eq_some_iff.mp hr
  rw [Scan.insertsAt_selection_iff h hr]
  rcases Scan.State.of_blockWith?_eq_some hblock with
    ⟨before, hbefore, hstart⟩ | ⟨_, hopen, hstart⟩
  · rw [hstart]
    constructor
    · rintro ⟨hs, he, flag, hflag, hdeclares, _⟩
      obtain ⟨hbelow, hnone, _⟩ :=
        (Scan.stateAt_eq_outside_iff_of_inside hs hin.le hbefore).mp hflag
      exact ⟨hbelow, hs, he, hdeclares, hnone⟩
    · rintro ⟨hbelow, hs, he, hdeclares, hnone⟩
      have hflag := (Scan.stateAt_eq_outside_iff_of_inside hs hin.le hbefore).mpr
        ⟨hbelow, hnone, rfl⟩
      exact ⟨hs, he, false, hflag, hdeclares, fun hskip => Bool.false_ne_true hskip.1⟩
  · have hline : block.start.line = number := by
      rw [hstart]
      rfl
    constructor
    · rintro ⟨_, _, _, _, hdeclares, _⟩
      have hnone := Row.opensBlock_eq_false_of_declares hdeclares
      exact absurd (hnone.symm.trans hopen) Bool.false_ne_true
    · rintro ⟨hbelow, hs, _⟩
      omega

/-- A range that starts above the block and ends inside it. -/
theorem insertsAt_block_iff_above :
    ∃ document found row block,
      document = Document.ofText "javascript".toList "x\n/**\nf(x) \x7b\n*/\n".toList ∧
      Scan.selection {} document.toSource ⟨0, 2, by decide⟩ = .ok found ∧
      document.rows[2]? = some row ∧ row.declares = true ∧
      (Scan.stateAt {} document 0 2).blockWith? ⟨2, row.text⟩ = some block ∧
      ¬found.InsertsAt 2 := by
  obtain ⟨document, hdocument⟩ : ∃ document, document = Document.ofText "javascript".toList
      "x\n/**\nf(x) \x7b\n*/\n".toList := ⟨_, rfl⟩
  have haccepts : ({} : Settings).scan.accepts document.toSource.language = true := by
    rw [hdocument]
    decide +kernel
  have hr : document.rows[2]? = some ⟨"f(x) \x7b".toList, .lf⟩ := by rw [hdocument]; rfl
  have hblock : (Scan.stateAt {} document 0 2).blockWith? ⟨2, "f(x) \x7b".toList⟩ =
      some ⟨⟨1, 0⟩, [], ["/**".toList, "f(x) \x7b".toList]⟩ := by
    rw [hdocument]
    decide +kernel
  obtain ⟨found, h⟩ :=
    (@Scan.exists_report_eq_ok_iff {} document.toSource (some ⟨0, 2, by decide⟩)).mpr haccepts
  have hiff := insertsAt_block_iff h hr hblock
  refine ⟨document, found, _, _, hdocument, h, hr, by decide +kernel, hblock, ?_⟩
  exact fun hinserted => absurd (hiff.mp hinserted).1 (Nat.not_lt_zero 1)

/-- A selection that starts inside a block documents the code in it. -/
theorem exists_insertion_in_block :
    ∃ document found row block,
      document = Document.ofText "javascript".toList "/**\nf(x) \x7b\n*/\n".toList ∧
      Scan.selection {} document.toSource ⟨1, 1, by decide⟩ = .ok found ∧
      document.rows[1]? = some row ∧
      (Scan.stateAt {} document 0 1).blockWith? ⟨1, row.text⟩ = some block ∧
      found.InsertsAt 1 := by
  obtain ⟨document, hdocument⟩ : ∃ document, document = Document.ofText "javascript".toList
      "/**\nf(x) \x7b\n*/\n".toList := ⟨_, rfl⟩
  have hr : document.rows[1]? = some ⟨"f(x) \x7b".toList, .lf⟩ := by rw [hdocument]; rfl
  have hblock : (Scan.stateAt {} document 0 1).blockWith? ⟨1, "f(x) \x7b".toList⟩ =
      some ⟨⟨0, 0⟩, [], ["/**".toList, "f(x) \x7b".toList]⟩ := by
    rw [hdocument]
    decide +kernel
  have hinserted : (Scan.selection {} document.toSource ⟨1, 1, by decide⟩).map
      (fun found => decide (found.InsertsAt 1)) = .ok true := by
    rw [hdocument]
    decide +kernel
  cases h : Scan.selection {} document.toSource ⟨1, 1, by decide⟩ with
  | error refusal => rw [h] at hinserted; cases hinserted
  | ok found =>
    rw [h] at hinserted
    exact ⟨document, found, _, _, hdocument, h, hr, hblock,
      of_decide_eq_true (Except.ok.inj hinserted)⟩

end Inserted

end Docblock
