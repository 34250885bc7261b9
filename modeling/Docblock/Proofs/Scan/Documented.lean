import Docblock.Proofs.Edit.Survival
import Docblock.Proofs.Scan.Cover

/-!
# Documented texts

In an enabled language a text can always be documented. The new text is that
of the rows the patches of the scan leave, it is cut into these rows again, and
new text in it would get the same break as before. So every row of the old text
is still there, with the inserted rows between them.
-/

namespace Docblock

namespace Scan

/-- The rows that the patches of a scan leave. -/
def rewritten (settings : Settings) (document : Document) (selected : Option LineRange) :
    List Row :=
  (patches settings document selected).flatMap (Patch.renewed document.lineEnding)

/-- The patches of a text keep its lines. -/
theorem faithful_ofText (settings : Settings) (language content : Text)
    (selected : Option LineRange) :
    ∀ patch ∈ patches settings (Document.ofText language content) selected, patch.Faithful :=
  faithful_of_mem_patches settings
    (Row.oneLine_of_canonical (Row.canonical_ofText content)) selected

/-- The new text is cut into the rows that the patches leave. -/
theorem ofText_rewritten (settings : Settings) (language content : Text)
    (selected : Option LineRange) :
    Row.ofText
        ((rewritten settings (Document.ofText language content) selected).flatMap Row.content) =
      rewritten settings (Document.ofText language content) selected := by
  apply Row.ofText_content
  apply Patch.canonical_renewed (Document.lineEnding_ne_none _)
    (faithful_ofText settings language content selected)
  rw [rows_patches]
  exact Row.canonical_ofText content

/-- The new text has the same majority of breaks. -/
theorem lineEnding_rewritten (settings : Settings) (language content : Text)
    (selected : Option LineRange) :
    Document.lineEnding
        ⟨rewritten settings (Document.ofText language content) selected, language⟩ =
      (Document.ofText language content).lineEnding := by
  apply Patch.lineEnding_renewed (faithful_ofText settings language content selected)
  rw [rows_patches]
  rfl

end Scan

/-- The edits of a scan apply, and give the text of the rows its patches leave. -/
theorem Document.apply_report (settings : Settings) (document : Document)
    (selected : Option LineRange) (h : settings.scan.accepts document.language = true) :
    ∃ found, Scan.report settings document.toSource selected = .ok found ∧
      found.edits = Patch.editsFrom 0 (Scan.patches settings document selected) ∧
      document.apply found.edits =
        .ok ((Scan.rewritten settings document selected).flatMap Row.content) := by
  obtain ⟨found, hreport, hedits⟩ := Scan.edits_eq_editsFrom_patches settings document selected h
  refine ⟨found, hreport, hedits, ?_⟩
  rw [hedits]
  exact Patch.apply_editsFrom (Scan.rows_patches settings document selected)

/-- In an enabled language a document is documented with the rows its patches
leave. -/
theorem Document.documented_of_accepts (settings : Settings) (document : Document)
    (selected : Option LineRange) (h : settings.scan.accepts document.language = true) :
    ∃ found, Scan.report settings document.toSource selected = .ok found ∧
      found.edits = Patch.editsFrom 0 (Scan.patches settings document selected) ∧
      document.documented settings selected =
        .ok ⟨found, (Scan.rewritten settings document selected).flatMap Row.content⟩ := by
  obtain ⟨found, hreport, hedits, happly⟩ := document.apply_report settings selected h
  refine ⟨found, hreport, hedits, ?_⟩
  rw [documented, hreport]
  dsimp only
  rw [happly]

/-- A document in a language that is not enabled is refused. -/
theorem Document.documented_of_not_accepts {settings : Settings} {document : Document}
    (selected : Option LineRange) (h : settings.scan.accepts document.language = false) :
    document.documented settings selected =
      .error (.language ⟨document.language, settings.scan.languages⟩) := by
  rw [documented, Scan.report_of_not_accepts selected h]
  rfl

/-- Documenting a file fails exactly when its language is not enabled: in an
enabled language the planned edits of any text and any selection apply. -/
theorem documentFile_fails_iff (settings : Settings) (path content : Text)
    (selected : Option LineRange) :
    ((∃ error, documentFile settings path content selected = .error error) ↔
        settings.scan.accepts (languageOfPath path) = false) ∧
      ∀ language, settings.scan.accepts language = true →
        ∃ found out,
          Scan.report settings (Document.ofText language content).toSource selected = .ok found ∧
          (Document.ofText language content).apply found.edits = .ok out := by
  constructor
  · constructor
    · rintro ⟨error, herror⟩
      by_contra haccepts
      rw [Bool.not_eq_false] at haccepts
      obtain ⟨found, _, _, hok⟩ :=
        (Document.ofFile path content).documented_of_accepts settings selected haccepts
      rw [documentFile, hok] at herror
      cases herror
    · intro h
      have hlanguage : settings.scan.accepts (Document.ofFile path content).language = false := h
      exact ⟨_, Document.documented_of_not_accepts selected hlanguage⟩
  · intro language haccepts
    obtain ⟨found, hreport, _, happly⟩ :=
      (Document.ofText language content).apply_report settings selected haccepts
    exact ⟨found, _, hreport, happly⟩

/-- A script in the default settings is documented and not refused. -/
theorem documentFile_fails_iff_javascript :
    (¬∃ error, documentFile {} "a.js".toList "f(x) \x7b\r\n".toList none = .error error) ∧
      ∃ found out,
        Scan.report {} (Document.ofText "javascript".toList "f(x) \x7b\r\n".toList).toSource none =
          .ok found ∧
        (Document.ofText "javascript".toList "f(x) \x7b\r\n".toList).apply found.edits =
          .ok out := by
  have h := documentFile_fails_iff {} "a.js".toList "f(x) \x7b\r\n".toList none
  exact ⟨fun herror => absurd (h.1.mp herror) (by decide), h.2 "javascript".toList (by decide)⟩

/-- Documenting a file loses, moves and rewrites no row: the new text has the
inserted rows and one row for each old one, in the old order. -/
theorem documentFile_keeps_rows (settings : Settings) (path content : Text)
    (selected : Option LineRange) (h : settings.scan.accepts (languageOfPath path) = true) :
    ∃ documented kept, documentFile settings path content selected = .ok documented ∧
      kept.length = (Document.ofFile path content).rows.length ∧
      (Document.ofFile path documented.content).rows =
        Edit.interleave (Document.ofFile path content).lineEnding documented.report.edits 0 kept ∧
      ∀ (number : Nat) (old new : Row), (Document.ofFile path content).rows[number]? = some old →
        kept[number]? = some new → Row.Survives documented.report.edits number old new := by
  have hfaithful := Scan.faithful_ofText settings (languageOfPath path) content selected
  obtain ⟨found, _, hedits, hok⟩ :=
    (Document.ofFile path content).documented_of_accepts settings selected h
  obtain ⟨kept, hlength, hrenewed, hsurvive⟩ :=
    Patch.exists_interleave (Document.ofFile path content).lineEnding 0 hfaithful
  rw [Scan.rows_patches] at hlength hsurvive
  refine ⟨_, kept, hok, hlength, ?_, ?_⟩
  · dsimp only
    rw [hedits]
    exact (Scan.ofText_rewritten settings (languageOfPath path) content selected).trans hrenewed
  · intro number old new hold hnew
    have hrow := hsurvive number old new hold hnew
    rw [Nat.zero_add] at hrow
    dsimp only
    rw [hedits]
    exact hrow

/-- A block and a function in a file whose breaks differ. -/
theorem documentFile_keeps_rows_javascript :
    ({} : Settings).scan.accepts (languageOfPath "a.js".toList) = true ∧
      ∃ documented kept,
        documentFile {} "a.js".toList "/** a\r\n*/\r\nf(x) \x7b\n\x7d\n".toList none =
          .ok documented ∧
        kept.length = 5 ∧
        Row.ofText documented.content =
          Edit.interleave .lf documented.report.edits 0 kept ∧
        ∀ new, kept[2]? = some new →
          Row.Survives documented.report.edits 2 ⟨"f(x) \x7b".toList, .lf⟩ new := by
  refine ⟨by decide, ?_⟩
  obtain ⟨documented, kept, hok, hlength, hrows, hsurvive⟩ :=
    documentFile_keeps_rows {} "a.js".toList "/** a\r\n*/\r\nf(x) \x7b\n\x7d\n".toList none
      (by decide)
  exact ⟨documented, kept, hok, hlength, hrows, fun new hnew => hsurvive 2 _ new rfl hnew⟩

end Docblock
