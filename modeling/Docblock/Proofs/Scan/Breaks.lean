import Docblock.Proofs.Document.Cut
import Docblock.Proofs.Scan.Documented

/-!
# Breaks of documented texts

New text takes the break that ends most rows, and a documented text has the
same majority as before. A text whose line breaks are all of one kind is
documented with breaks of this kind only.
-/

namespace Docblock

namespace Document

/-- The line breaks of a document; the end of the last line is none. -/
def lineBreaks (document : Document) : List Break := document.breaks.filter (· ≠ .none)

/-- Whether there are line breaks and all of them are of one kind. -/
structure Uniform (document : Document) (ending : Break) : Prop where
  /-- There is a line break. -/
  broken : document.lineBreaks ≠ []
  /-- Each of them is of the given kind. -/
  same : ∀ found ∈ document.lineBreaks, found = ending

/-- A document has a break when some row ends in it. -/
theorem mem_lineBreaks_iff {document : Document} {found : Break} :
    found ∈ document.lineBreaks ↔
      found ≠ .none ∧ 0 < document.rows.countP (·.ending = found) := by
  rw [lineBreaks, List.mem_filter, ← count_breaks, List.count_pos_iff, decide_eq_true_iff,
    and_comm]

/-- A document has one kind of line breaks when there are some of this kind and
none of another. -/
theorem uniform_iff {document : Document} {ending : Break} :
    document.Uniform ending ↔
      ending ≠ .none ∧ 0 < document.rows.countP (·.ending = ending) ∧
        ∀ other, other ≠ .none → other ≠ ending →
          document.rows.countP (·.ending = other) = 0 := by
  constructor
  · intro h
    obtain ⟨found, hfound⟩ := List.exists_mem_of_ne_nil _ h.broken
    have hmem : ending ∈ document.lineBreaks := h.same found hfound ▸ hfound
    obtain ⟨hne, hpos⟩ := mem_lineBreaks_iff.mp hmem
    refine ⟨hne, hpos, fun other hother hdiffers => ?_⟩
    by_contra hcount
    exact hdiffers (h.same other
      (mem_lineBreaks_iff.mpr ⟨hother, Nat.pos_of_ne_zero hcount⟩))
  · rintro ⟨hne, hpos, hzero⟩
    refine ⟨List.ne_nil_of_mem (mem_lineBreaks_iff.mpr ⟨hne, hpos⟩), fun found hfound => ?_⟩
    obtain ⟨hother, hcount⟩ := mem_lineBreaks_iff.mp hfound
    by_contra hdiffers
    exact Nat.ne_of_gt hcount (hzero found hother hdiffers)

/-- The only kind of line breaks is the one for new text. -/
theorem Uniform.lineEnding_eq {document : Document} {ending : Break}
    (h : document.Uniform ending) : document.lineEnding = ending := by
  obtain ⟨hne, hpos, hzero⟩ := uniform_iff.mp h
  rw [lineEnding]
  dsimp only
  cases ending with
  | none => exact absurd rfl hne
  | lf =>
    have hcrlf := hzero .crlf (by decide) (by decide)
    exact if_neg (by omega)
  | crlf =>
    have hlf := hzero .lf (by decide) (by decide)
    exact if_pos (by omega)

end Document

/-- Faithful patches bring no second kind of line breaks into a document. -/
theorem Patch.uniform_renewed {patches : List Patch} (hf : ∀ patch ∈ patches, patch.Faithful)
    {ending : Break} {language : Text}
    (h : Document.Uniform ⟨patches.flatMap rows, language⟩ ending) :
    Document.Uniform ⟨patches.flatMap (renewed ending), language⟩ ending := by
  obtain ⟨hne, hpos, hzero⟩ := Document.uniform_iff.mp h
  refine Document.uniform_iff.mpr ⟨hne, ?_, fun other hother hdiffers => ?_⟩
  · exact hpos.trans_le
      (countP_flatMap_le fun patch hp => countP_le_countP_renewed (hf patch hp))
  · have hle : (patches.flatMap (renewed ending)).countP (·.ending = other) ≤
        (patches.flatMap rows).countP (·.ending = other) :=
      countP_flatMap_le fun patch hp => countP_renewed_le_countP (hf patch hp) hdiffers
    exact Nat.le_zero.mp (hle.trans_eq (hzero other hother hdiffers))

/-- A scan leaves the kind of line breaks of a text that has only one. -/
theorem Scan.uniform_rewritten (settings : Settings) (language content : Text)
    (selected : Option LineRange) {ending : Break}
    (h : (Document.ofText language content).Uniform ending) :
    Document.Uniform
      ⟨rewritten settings (Document.ofText language content) selected, language⟩ ending := by
  have hfaithful := faithful_ofText settings language content selected
  have hcover := rows_patches settings (Document.ofText language content) selected
  rw [rewritten, h.lineEnding_eq]
  apply Patch.uniform_renewed hfaithful
  rw [hcover]
  exact h

/-- Documenting a file keeps the break for new text, and a file with one kind of
line breaks gets no other. -/
theorem documentFile_keeps_breaks (settings : Settings) (path content : Text)
    (selected : Option LineRange) (h : settings.scan.accepts (languageOfPath path) = true) :
    ∃ documented, documentFile settings path content selected = .ok documented ∧
      (Document.ofFile path documented.content).lineEnding =
        (Document.ofFile path content).lineEnding ∧
      ∀ ending, (Document.ofFile path content).Uniform ending →
        (Document.ofFile path documented.content).Uniform ending := by
  obtain ⟨found, _, _, hok⟩ :=
    (Document.ofFile path content).documented_of_accepts settings selected h
  have hnew : Document.ofFile path
      ((Scan.rewritten settings (Document.ofFile path content) selected).flatMap Row.content) =
        ⟨Scan.rewritten settings (Document.ofFile path content) selected, languageOfPath path⟩ :=
    congrArg (Document.mk · (languageOfPath path))
      (Scan.ofText_rewritten settings (languageOfPath path) content selected)
  refine ⟨_, hok, ?_, fun ending huniform => ?_⟩
  · dsimp only
    rw [hnew]
    exact Scan.lineEnding_rewritten settings (languageOfPath path) content selected
  · dsimp only
    rw [hnew]
    exact Scan.uniform_rewritten settings (languageOfPath path) content selected huniform

/-- A file with the longer break throughout, and a lone carriage return inside a line. -/
theorem documentFile_keeps_breaks_crlf :
    (({} : Settings).scan.accepts (languageOfPath "a.js".toList) = true ∧
      (Document.ofFile "a.js".toList "/** a\r\n*/\r\nf(x\r) \x7b\r\n\x7d".toList).Uniform .crlf) ∧
      ∃ documented,
        documentFile {} "a.js".toList "/** a\r\n*/\r\nf(x\r) \x7b\r\n\x7d".toList none =
          .ok documented ∧
        (Document.ofFile "a.js".toList documented.content).Uniform .crlf := by
  have huniform : (Document.ofFile "a.js".toList
      "/** a\r\n*/\r\nf(x\r) \x7b\r\n\x7d".toList).Uniform .crlf := ⟨by decide, by decide⟩
  refine ⟨⟨by decide, huniform⟩, ?_⟩
  obtain ⟨documented, hok, _, hkeeps⟩ :=
    documentFile_keeps_breaks {} "a.js".toList
      "/** a\r\n*/\r\nf(x\r) \x7b\r\n\x7d".toList none (by decide)
  exact ⟨documented, hok, hkeeps .crlf huniform⟩

end Docblock
