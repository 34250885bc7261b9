import Docblock.Proofs.Scan.State

/-!
# Adjacent selections

A selection that takes up where another one ends finds the scan in the same
state as a scan of both, provided no block is open between them and no code
follows a closer on the line in front of it. So the scans of the two selections
together report what one scan reports.
-/

namespace Docblock

open Text

namespace Scan

variable {settings : Settings}

/-- When documented declarations are skipped everywhere, the first line of the
range is a line like any other. -/
theorem step_of_skipDocumented (h : settings.scan.skipDocumented = true) (first other : Nat)
    (state : State) (line : Line) :
    step settings first state line = step settings other state line := by
  have hplain (above : Bool) :
      stepPlain settings first above line = stepPlain settings other above line := by
    rw [stepPlain, stepPlain, h]
    simp only [Bool.or_true]
  cases state with
  | inside block => rfl
  | outside above => rw [step_outside, step_outside, hplain]

/-- When all documented declarations are skipped, the first line of a range is like any
other. -/
theorem run_of_skipDocumented (h : settings.scan.skipDocumented = true) (first other : Nat)
    (state : State) (lines : List Line) :
    run settings first state lines = run settings other state lines := by
  induction lines generalizing state with
  | nil => rfl
  | cons line rest ih =>
    rw [run, run, step_of_skipDocumented h first other]
    dsimp only
    rw [ih]

/-- A scan that reports no open block goes on behind its lines outside any block. -/
theorem run_append_of_ended {first : Nat} {state : State} {front : List Line}
    (h : (run settings first state front).tally.unterminated = 0) (back : List Line) :
    ∃ flag, state.after front = .outside flag ∧
      run settings first state (front ++ back) =
        run settings first state front ++ run settings first (.outside flag) back := by
  rw [run_eq_walk settings first state front] at h ⊢
  rw [run_append]
  cases ha : state.after front with
  | outside flag =>
    have hfinish : finish (.outside flag) = {} := rfl
    exact ⟨flag, rfl, by rw [hfinish, Report.append_empty]⟩
  | inside block =>
    rw [ha] at h
    have hone : (walk settings first state front).tally.unterminated + 1 = 0 := h
    omega

/-- A range inside a document need not be clamped. -/
theorem target?_of_lt {document : Document} {range : LineRange}
    (hin : range.stop < document.rows.length) : target? document (some range) = some range := by
  have hordered := range.ordered
  have hmin : min range.stop (document.rows.length - 1) = range.stop := by omega
  rw [target?, LineRange.clamp?, dif_pos (by omega)]
  simp only [hmin]

/-- Behind a range whose last line ends no block in front of code, a scan that
starts anew is in the state of the scan of the range. -/
theorem eq_above_of_after_eq {document : Document} {range : LineRange}
    (hin : range.stop < document.rows.length)
    (hcode : ∀ row, document.rows[range.stop]? = some row →
      (stateAt settings document range.start range.stop).codeFollows
        ⟨range.stop, row.text⟩ = false) {flag : Bool}
    (h : (State.outside (above document range.start)).after (document.toSource.linesIn range) =
      .outside flag) :
    flag = above document (range.stop + 1) := by
  obtain ⟨row, hrow⟩ : ∃ row, document.rows[range.stop]? = some row :=
    ⟨_, List.getElem?_eq_getElem hin⟩
  have hordered := range.ordered
  have hsize : range.stop + 1 - range.start = range.size := by
    rw [LineRange.size]
    omega
  have hstate := stateAt_succ settings hordered hrow
  rw [stateAt_eq_after, hsize, ← Source.linesIn, h] at hstate
  rw [State.eq_closesComment_of_next_eq hstate.symm (hcode row hrow), above, hrow]
  rfl

end Scan

/-- The rows of a range are those of its two parts. -/
theorem Document.linesIn_append {document : Document} {whole front back : LineRange}
    (hstart : front.start = whole.start) (hmeet : back.start = front.stop + 1)
    (hstop : back.stop = whole.stop) (hin : whole.stop < document.rows.length) :
    document.toSource.linesIn whole =
      document.toSource.linesIn front ++ document.toSource.linesIn back := by
  have hfront := front.ordered
  have hback := back.ordered
  have hsize : whole.size = front.size + back.size := by
    simp only [LineRange.size]
    omega
  have hnext : back.start = front.start + front.size := by
    rw [LineRange.size]
    omega
  have hrows : whole.start + front.size ≤ document.rows.length := by
    rw [← hstart, ← hnext]
    omega
  rw [Source.linesIn, Source.linesIn, Source.linesIn, hsize, document.linesFrom_add _ _ _ hrows,
    hnext, hstart]

/-- The scan of a selection reports what the scans of its two parts report, one
after the other, unless a block is open at the end of the first part or code
follows a closer on its last line. -/
theorem selection_append {settings : Settings} {document : Document}
    {whole front back : LineRange} (hstart : front.start = whole.start)
    (hmeet : back.start = front.stop + 1) (hstop : back.stop = whole.stop)
    (hin : whole.stop < document.rows.length) (hskip : settings.scan.skipDocumented = true)
    {first : Report} (hfirst : Scan.selection settings document.toSource front = .ok first)
    (hended : first.tally.unterminated = 0)
    (hcode : ∀ row, document.rows[front.stop]? = some row →
      (Scan.stateAt settings document front.start front.stop).codeFollows
        ⟨front.stop, row.text⟩ = false) :
    ∃ all second, Scan.selection settings document.toSource whole = .ok all ∧
      Scan.selection settings document.toSource back = .ok second ∧
      all.edits = first.edits ++ second.edits ∧ all.tally = first.tally + second.tally := by
  have hreport : Scan.report settings document.toSource (some front) = .ok first := hfirst
  have haccepts := Scan.exists_report_eq_ok_iff.mp ⟨first, hreport⟩
  have hback := back.ordered
  have hlast : front.stop < document.rows.length := by omega
  have hrest : back.stop < document.rows.length := by omega
  obtain ⟨_, hall⟩ := Scan.exists_report_eq_run (Scan.target?_of_lt hin) haccepts
  obtain ⟨_, hfront⟩ := Scan.exists_report_eq_run (Scan.target?_of_lt hlast) haccepts
  obtain ⟨_, hsecond⟩ := Scan.exists_report_eq_run (Scan.target?_of_lt hrest) haccepts
  have hsame := Except.ok.inj (hreport.symm.trans hfront)
  subst hsame
  refine ⟨_, _, hall, hsecond, ?_⟩
  have hopen : (Scan.run settings front.start (.outside (Scan.above document front.start))
      (document.toSource.linesIn front)).tally.unterminated = 0 := by
    rw [← hended]
    exact (Nat.zero_add _).symm
  obtain ⟨flag, hafter, hrun⟩ :=
    Scan.run_append_of_ended hopen (document.toSource.linesIn back)
  rw [Scan.eq_above_of_after_eq hlast hcode hafter, ← hmeet,
    Scan.run_of_skipDocumented hskip front.start back.start (.outside _)
      (document.toSource.linesIn back)] at hrun
  rw [Document.linesIn_append hstart hmeet hstop hin, ← hstart, hrun]
  constructor
  · rfl
  · show ({} : Tally) + (_ + _) = ({} : Tally) + _ + (({} : Tally) + _)
    rw [Tally.zero_add, Tally.zero_add, Tally.zero_add]

/-- The second range starts with a declaration right below the closer of a block. -/
theorem selection_append_below_closer :
    ∃ document first all second,
      document = Document.ofText "javascript".toList
        "/**\n * a\n */\nf(x) \x7b\n\x7d\ng(y) \x7b\n".toList ∧
      Scan.selection {} document.toSource ⟨0, 2, by decide⟩ = .ok first ∧
      first.tally.unterminated = 0 ∧
      Scan.selection {} document.toSource ⟨0, 5, by decide⟩ = .ok all ∧
      Scan.selection {} document.toSource ⟨3, 5, by decide⟩ = .ok second ∧
      all.edits = first.edits ++ second.edits ∧ all.tally = first.tally + second.tally := by
  obtain ⟨document, hdocument⟩ : ∃ document, document = Document.ofText "javascript".toList
      "/**\n * a\n */\nf(x) \x7b\n\x7d\ng(y) \x7b\n".toList := ⟨_, rfl⟩
  have hin : 5 < document.rows.length := by
    rw [hdocument]
    decide
  have hcode : ∀ row, document.rows[2]? = some row →
      (Scan.stateAt {} document 0 2).codeFollows ⟨2, row.text⟩ = false := by
    intro row hrow
    rw [hdocument] at hrow ⊢
    cases hrow
    decide +kernel
  have hended : (Scan.selection {} document.toSource ⟨0, 2, by decide⟩).map
      (fun first => first.tally.unterminated) = .ok 0 := by
    rw [hdocument]
    decide +kernel
  cases hfirst : Scan.selection {} document.toSource ⟨0, 2, by decide⟩ with
  | error refusal => rw [hfirst] at hended; cases hended
  | ok first =>
    rw [hfirst] at hended
    have hzero := Except.ok.inj hended
    obtain ⟨all, second, hall, hsecond, hedits, htally⟩ :=
      @selection_append {} document ⟨0, 5, by decide⟩ ⟨0, 2, by decide⟩ ⟨3, 5, by decide⟩
        rfl rfl rfl hin rfl first hfirst hzero hcode
    exact ⟨document, first, all, second, hdocument, hfirst, hzero, hall, hsecond, hedits, htally⟩

end Docblock
