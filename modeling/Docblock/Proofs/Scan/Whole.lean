import Docblock.Proofs.Scan.Rerun

/-!
# Whole texts, documented again

A scan of a whole text looks at all its rows, so the rows of a documented text
are those of the segments a scan leaves. Documenting a text a second time
therefore generates nothing, and lays out only blocks that the first run was
told to leave alone.
-/

namespace Docblock

open Text

/-- The same settings, but existing blocks are laid out again or not. -/
def Settings.normalizing (settings : Settings) (normalize : Bool) : Settings :=
  { settings with scan := { settings.scan with normalizeExisting := normalize } }

namespace Document

/-- The segments of a whole document. -/
def segments (document : Document) : List (Segment Row) := Segment.cut Row.text document.rows

/-- The segments that a scan of a whole document leaves. -/
def documentedSegments (document : Document) (settings : Settings) : List (Segment Row) :=
  Segment.documentedAll settings.template settings.scan.normalizeExisting document.lineEnding false
    document.segments

variable {settings : Settings} {document : Document}

/-- A scan of a whole document looks at all its rows. -/
theorem exists_target_whole (hne : document.rows ≠ []) :
    ∃ range, Scan.target? document none = some range ∧ range.start = 0 ∧
      range.size = document.rows.length := by
  obtain ⟨row, rest, hrows⟩ := List.exists_cons_of_ne_nil hne
  refine ⟨⟨0, rest.length, Nat.zero_le rest.length⟩, ?_, rfl, ?_⟩
  · rw [Scan.target?, hrows]
    rfl
  · rw [hrows]
    rfl

/-- The whole document is cut into its segments. -/
theorem segmentsIn_whole {range : LineRange} (hstart : range.start = 0)
    (hsize : range.size = document.rows.length) :
    Scan.segmentsIn document range = document.segments := by
  rw [Scan.segmentsIn, hstart, hsize, List.drop_zero, List.take_length, segments]

/-- A scan of a whole document covers it with the patches of its segments. -/
theorem patches_whole (settings : Settings) (hne : document.rows ≠ []) :
    Scan.patches settings document none =
      Segment.patches settings 0 false 0 document.segments := by
  obtain ⟨range, htarget, hstart, hsize⟩ := exists_target_whole hne
  rw [Scan.patches, htarget]
  dsimp only
  rw [Scan.patchesIn, segmentsIn_whole hstart hsize, hstart, hsize, List.take_zero, List.drop_zero,
    List.drop_length, List.map_nil, List.append_nil]
  rfl

/-- The counts of a scan of a whole document. -/
theorem tally_whole (hs : settings.scan.skipDocumented = true) (hne : document.rows ≠ [])
    (h : settings.scan.accepts document.language = true) {found : Report}
    (hf : Scan.report settings document.toSource none = .ok found) :
    found.tally =
      Segment.tallies settings.scan.normalizeExisting false document.segments := by
  obtain ⟨range, htarget, hstart, hsize⟩ := exists_target_whole hne
  obtain ⟨events, hreport⟩ := Scan.report_toSource settings document none h
  rw [hf, htarget] at hreport
  rw [Except.ok.inj hreport]
  dsimp only
  rw [segmentsIn_whole hstart hsize, hstart, ← Segment.tally_reports hs 0 false 0]
  exact Tally.zero_add _

variable {language content : Text}

/-- A text has rows, and each of them is one line. -/
theorem rows_ofText_ne_nil (language content : Text) : (ofText language content).rows ≠ [] :=
  Row.ofText_ne_nil content

/-- The rows of the segments of a document have no line feeds. -/
theorem oneLine_of_mem_segments (language content : Text) :
    ∀ row ∈ (ofText language content).segments.flatMap Segment.lines, '\n' ∉ row.text := by
  rw [segments, Segment.lines_cut]
  exact Row.oneLine_of_canonical (Row.canonical_ofText content)

/-- A scan of the whole document leaves its segments documented. -/
theorem rewritten_whole (hs : settings.scan.skipDocumented = true) (language content : Text) :
    Scan.rewritten settings (ofText language content) none =
      ((ofText language content).documentedSegments settings).flatMap Segment.lines := by
  rw [Scan.rewritten, patches_whole settings (rows_ofText_ne_nil language content)]
  exact Segment.renewed_patches hs _ 0 false 0 (Segment.wellCut_cut _)
    (oneLine_of_mem_segments language content)

/-- Documenting a whole text leaves the rows of the segments that a scan leaves. -/
theorem documented_whole (settings : Settings) (language content : Text)
    (hs : settings.scan.skipDocumented = true) (h : settings.scan.accepts language = true) :
    ∃ result, (ofText language content).documented settings none = .ok result ∧
      result.content =
        (((ofText language content).documentedSegments settings).flatMap Segment.lines).flatMap
          Row.content ∧
      result.report.tally =
        Segment.tallies settings.scan.normalizeExisting false
          (ofText language content).segments := by
  obtain ⟨found, hreport, _, hok⟩ :=
    (ofText language content).documented_of_accepts settings none h
  rw [rewritten_whole hs] at hok
  exact ⟨_, hok, rfl, tally_whole hs (rows_ofText_ne_nil language content) h hreport⟩

/-- A documented text has the segments that the scan left, and it gives the same
break to new text. -/
theorem segments_documented (hs : settings.scan.skipDocumented = true)
    (ht : settings.template.OneLine) (language content : Text) {result : Text}
    (h : result =
      (((ofText language content).documentedSegments settings).flatMap Segment.lines).flatMap
        Row.content) :
    (ofText language result).segments =
        (ofText language content).documentedSegments settings ∧
      (ofText language result).lineEnding = (ofText language content).lineEnding := by
  have hrows := Scan.ofText_rewritten settings language content none
  have hending := Scan.lineEnding_rewritten settings language content none
  rw [rewritten_whole hs, ← h] at hrows
  rw [rewritten_whole hs, ← hrows] at hending
  refine ⟨?_, hending⟩
  rw [segments, ofText, hrows]
  exact Segment.cut_flatMap_lines
    (Segment.wellCut_documentedAll ht (Segment.wellCut_cut _)
      (oneLine_of_mem_segments language content))

end Document

/-- Documenting a whole text a second time is safe: with settings that differ
only in whether existing blocks are laid out again, the second run generates
nothing, skips what the first one generated or skipped, finds the same open
blocks, and leaves the text that one run leaves which lays out blocks if one of
the two does. -/
theorem documented_twice (settings : Settings) (first second : Bool) (language content : Text)
    (hs : settings.scan.skipDocumented = true) (ht : settings.template.OneLine)
    (h : settings.scan.accepts language = true) :
    ∃ one two once,
      (Document.ofText language content).documented (settings.normalizing first) none = .ok one ∧
      (Document.ofText language one.content).documented (settings.normalizing second) none =
        .ok two ∧
      (Document.ofText language content).documented (settings.normalizing (first || second)) none =
        .ok once ∧
      two.report.tally.generated = 0 ∧
      two.report.tally.skipped = one.report.tally.generated + one.report.tally.skipped ∧
      two.report.tally.unterminated = one.report.tally.unterminated ∧
      two.content = once.content ∧
      (first = second → two.content = one.content) := by
  obtain ⟨one, hone, hcontent, htally⟩ :=
    Document.documented_whole (settings.normalizing first) language content hs h
  obtain ⟨two, htwo, hcontent', htally'⟩ :=
    Document.documented_whole (settings.normalizing second) language one.content hs h
  obtain ⟨once, honce, hcontent'', _⟩ :=
    Document.documented_whole (settings.normalizing (first || second)) language content hs h
  have hthis : (settings.normalizing first).scan.skipDocumented = true := hs
  obtain ⟨hsegments, hending⟩ := Document.segments_documented hthis ht language content hcontent
  have hl := Document.oneLine_of_mem_segments language content
  have hrepeats : one.report.tally.Repeats two.report.tally := by
    rw [htally, htally', hsegments]
    exact Segment.repeats_documentedAll ht hl
  have htwice : two.content = once.content := by
    have hsame : (Document.ofText language one.content).documentedSegments
        (settings.normalizing second) =
          (Document.ofText language content).documentedSegments
            (settings.normalizing (first || second)) := by
      rw [Document.documentedSegments, hsegments, hending]
      exact Segment.documentedAll_documentedAll ht (Segment.wellCut_cut _) hl second
    rw [hcontent', hcontent'', hsame]
  refine ⟨one, two, once, hone, htwo, honce, hrepeats.generated, hrepeats.skipped,
    hrepeats.unterminated, htwice, ?_⟩
  rintro rfl
  rw [Bool.or_self, hone] at honce
  rw [htwice, ← Except.ok.inj honce]

/-- A file with the longer break, a closer inside a parameter and one inside the summary of
the settings. -/
theorem documented_twice_javascript :
    ∃ one two once,
      (Document.ofText "javascript".toList "/** a\r\n*/\r\nf(x /* y */) \x7b\n".toList).documented
          (Settings.normalizing { template := { description := "D */ d".toList } } false) none =
        .ok one ∧
      (Document.ofText "javascript".toList one.content).documented
          (Settings.normalizing { template := { description := "D */ d".toList } } true) none =
        .ok two ∧
      (Document.ofText "javascript".toList "/** a\r\n*/\r\nf(x /* y */) \x7b\n".toList).documented
          (Settings.normalizing { template := { description := "D */ d".toList } } true) none =
        .ok once ∧
      two.report.tally.generated = 0 ∧ two.content = once.content := by
  have hdefault : Template.OneLine { description := "D */ d".toList } :=
    ⟨by decide, by decide, by decide⟩
  obtain ⟨one, two, once, hone, htwo, honce, hgenerated, _, _, hcontent, _⟩ :=
    documented_twice { template := { description := "D */ d".toList } } false true
      "javascript".toList "/** a\r\n*/\r\nf(x /* y */) \x7b\n".toList rfl hdefault (by decide)
  exact ⟨one, two, once, hone, htwo, honce, hgenerated, hcontent⟩

end Docblock
