import Docblock.Proofs.Scan.Place

/-!
# Lines below a closer

A line that starts or ends with a closer counts as a comment for the line
below it, and so do a line above the range and the last line of a block. Only a
block with code behind its first closer is judged by that closer alone: what
stands behind the code is not looked at, and a scan that has read such a line
documents the line below it.
-/

namespace Docblock

open Text

namespace Scan.State

variable {state : State} {line : Line}

/-- A line that ends a block in front of code leaves a scan below no comment. -/
theorem next_of_codeFollows (h : state.codeFollows line = true) :
    state.next line = .outside false := by
  rw [codeFollows, Bool.and_eq_true] at h
  obtain ⟨hblock, hcode⟩ := h
  obtain ⟨block, hb⟩ := Option.isSome_iff_exists.mp hblock
  cases ha : state.behindCloser? line with
  | none =>
    rw [ha] at hcode
    cases hcode
  | some after =>
    rw [ha] at hcode
    have hempty : after.isEmpty = false := by simpa using hcode
    rw [next, hb, ha]
    dsimp only
    rw [hempty]

/-- Below a line that starts or ends with a closer a scan stands below no
comment exactly when code follows the closer of a block on that line. -/
theorem next_eq_outside_false_iff (h : closesComment line.trimmed = true) :
    state.next line = .outside false ↔ state.codeFollows line = true := by
  constructor
  · intro hnext
    by_contra hcode
    have hflag := eq_closesComment_of_next_eq hnext (Bool.eq_false_iff.mpr hcode)
    rw [h] at hflag
    cases hflag
  · exact next_of_codeFollows

end Scan.State

section Below

variable {settings : Settings} {document : Document} {selected : Option LineRange}
variable {range : LineRange} {found : Report} {number : Nat} {closing row : Row}

/-- What a scan that skips documented declarations inserts below a line that
starts or ends with a closer: nothing, unless the scan has read that line itself
and found code behind the closer of a block on it. -/
theorem insertsAt_below_closer_iff (hskip : settings.scan.skipDocumented = true)
    (h : Scan.report settings document.toSource selected = .ok found)
    (htarget : Scan.target? document selected = some range)
    (hstart : range.start ≤ number + 1) (hstop : number + 1 ≤ range.stop)
    (hclosing : document.rows[number]? = some closing)
    (hcloses : Scan.closesComment (trim closing.text) = true)
    (hr : document.rows[number + 1]? = some row) :
    found.InsertsAt (number + 1) ↔
      range.start ≤ number ∧ row.declares = true ∧
        (Scan.stateAt settings document range.start number).codeFollows
          ⟨number, closing.text⟩ = true := by
  have hinserts : found.InsertsAt (number + 1) ↔
      Scan.stateAt settings document range.start (number + 1) = .outside false ∧
        row.declares = true := by
    rw [Scan.insertsAt_report_iff h hr, htarget]
    constructor
    · rintro ⟨_, hrange, _, _, flag, hflag, hdeclares, hdocumented⟩
      cases hrange
      have hoff : flag = false := by
        rw [← Bool.not_eq_true]
        exact fun hon => hdocumented ⟨hon, .inr hskip⟩
      rw [hoff] at hflag
      exact ⟨hflag, hdeclares⟩
    · rintro ⟨hflag, hdeclares⟩
      exact ⟨range, rfl, hstart, hstop, false, hflag, hdeclares,
        fun hdocumented => Bool.false_ne_true hdocumented.1⟩
  rw [hinserts]
  rcases Nat.lt_or_ge number range.start with hlt | hle
  · -- The range starts below the closer, so only the text of its line is looked at.
    have heq : range.start = number + 1 := by omega
    have habove : Scan.above document (number + 1) = true := by
      rw [Scan.above, hclosing]
      exact hcloses
    have hstate : Scan.stateAt settings document range.start (number + 1) = .outside true := by
      rw [heq, Scan.stateAt_self, habove]
    rw [hstate]
    constructor
    · rintro ⟨hoff, _⟩
      cases hoff
    · rintro ⟨hle, _⟩
      exact absurd hle (Nat.not_le.mpr hlt)
  · have htrimmed : Scan.closesComment (Line.trimmed ⟨number, closing.text⟩) = true := hcloses
    rw [Scan.stateAt_succ settings hle hclosing, Scan.State.next_eq_outside_false_iff htrimmed]
    simp only [hle, true_and]
    exact and_comm

/-- A declaration below a block that closes behind its text. -/
theorem insertsAt_below_closer_iff_block :
    ∃ document found closing row,
      document = Document.ofText "javascript".toList
        "x /** a */\n/**\n * b */\nf(x) \x7b\n".toList ∧
      Scan.report {} document.toSource none = .ok found ∧
      Scan.target? document none = some ⟨0, 4, by decide⟩ ∧
      document.rows[2]? = some closing ∧ Scan.closesComment (trim closing.text) = true ∧
      document.rows[3]? = some row ∧ row.declares = true ∧ ¬found.InsertsAt 3 := by
  obtain ⟨document, hdocument⟩ : ∃ document, document = Document.ofText "javascript".toList
      "x /** a */\n/**\n * b */\nf(x) \x7b\n".toList := ⟨_, rfl⟩
  have haccepts : ({} : Settings).scan.accepts document.toSource.language = true := by
    rw [hdocument]
    decide +kernel
  have htarget : Scan.target? document none = some ⟨0, 4, by decide⟩ := by
    rw [hdocument]
    decide +kernel
  have hclosing : document.rows[2]? = some ⟨" * b */".toList, .lf⟩ := by rw [hdocument]; rfl
  have hr : document.rows[3]? = some ⟨"f(x) \x7b".toList, .lf⟩ := by rw [hdocument]; rfl
  have hcloses : Scan.closesComment (trim " * b */".toList) = true := by decide +kernel
  have hcode : (Scan.stateAt {} document 0 2).codeFollows ⟨2, " * b */".toList⟩ = false := by
    rw [hdocument]
    decide +kernel
  obtain ⟨found, h⟩ := (@Scan.exists_report_eq_ok_iff {} document.toSource none).mpr haccepts
  have hiff := insertsAt_below_closer_iff rfl h htarget (Nat.zero_le 3) (Nat.le_succ 3) hclosing
    hcloses hr
  refine ⟨document, found, _, _, hdocument, h, htarget, hclosing, hcloses, hr, by decide +kernel,
    fun hinserted => ?_⟩
  rw [hcode] at hiff
  exact absurd (hiff.mp hinserted).2.2 Bool.false_ne_true

/-- A declaration gets a second comment when the line above it has another block
in front of its code. -/
theorem exists_insertion_below_closer :
    ∃ document found closing,
      document = Document.ofText "javascript".toList
        "/** A. */ let n = 0; /** Adds. */\nfunction add(a) \x7b\n\x7d\n".toList ∧
      Scan.whole {} document.toSource = .ok found ∧
      document.rows[0]? = some closing ∧ endsWith Scan.closer (trim closing.text) = true ∧
      found.InsertsAt 1 := by
  obtain ⟨document, hdocument⟩ : ∃ document, document = Document.ofText "javascript".toList
      "/** A. */ let n = 0; /** Adds. */\nfunction add(a) \x7b\n\x7d\n".toList := ⟨_, rfl⟩
  have hclosing : document.rows[0]? = some ⟨"/** A. */ let n = 0; /** Adds. */".toList, .lf⟩ := by
    rw [hdocument]
    rfl
  have hinserted : (Scan.whole {} document.toSource).map
      (fun found => decide (found.InsertsAt 1)) = .ok true := by
    rw [hdocument]
    decide +kernel
  cases h : Scan.whole {} document.toSource with
  | error refusal => rw [h] at hinserted; cases hinserted
  | ok found =>
    rw [h] at hinserted
    exact ⟨document, found, _, hdocument, h, hclosing, by decide +kernel,
      of_decide_eq_true (Except.ok.inj hinserted)⟩

end Below

end Docblock
