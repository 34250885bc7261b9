import Docblock.Edit.Apply
import Docblock.Proofs.Document.Rows

/-!
# The cut of a text

A text is cut into lines and the breaks behind them in one way only: the lines
and breaks of a document are a cut that makes the text, and every cut is found
again in the text it makes. There is one line more than there are line feeds.
-/

namespace Docblock

open Text

/-- Lines and the breaks behind them that a text can be cut into. -/
structure IsCut (lines : List Text) (breaks : List Break) : Prop where
  /-- Every line has its break. -/
  length_eq : breaks.length = lines.length
  /-- No line holds a line feed. -/
  oneLine : ∀ line ∈ lines, '\n' ∉ line
  /-- All lines but the last one are ended. -/
  ended : ∀ ending ∈ breaks.dropLast, ending = .lf ∨ ending = .crlf
  /-- The last line is not. -/
  unended : breaks.getLast? = some .none
  /-- A carriage return in front of a line feed belongs to the break. -/
  noReturn : ∀ pair ∈ lines.zip breaks, pair.2 = .lf → pair.1.getLast? ≠ some '\r'

/-- The text of lines and the breaks behind them. -/
def joinBreaks (lines : List Text) (breaks : List Break) : Text :=
  (List.zipWith (fun line ending => line ++ ending.text) lines breaks).flatten

/-- The breaks behind the lines of a document, in order. -/
def Document.breaks (document : Document) : List Break := document.rows.map Row.ending

namespace Row

/-- Lines and breaks of rows make up their contents. -/
theorem joinBreaks_map (rows : List Row) :
    joinBreaks (rows.map text) (rows.map ending) = rows.flatMap content := by
  induction rows with
  | nil => rfl
  | cons row rest ih =>
    rw [joinBreaks] at ih ⊢
    rw [List.map_cons, List.map_cons, List.zipWith_cons_cons, List.flatten_cons, ih,
      List.flatMap_cons, content]

/-- Lines that all have their break are the lines of some rows. -/
theorem exists_of_length_eq {lines : List Text} {breaks : List Break}
    (h : breaks.length = lines.length) :
    ∃ rows : List Row, rows.map text = lines ∧ rows.map ending = breaks := by
  induction lines generalizing breaks with
  | nil => exact ⟨[], rfl, (List.length_eq_zero_iff.mp h).symm⟩
  | cons line lines ih =>
    cases breaks with
    | nil => cases h
    | cons ending breaks =>
      obtain ⟨rows, hlines, hbreaks⟩ := ih (Nat.succ.inj h)
      exact ⟨⟨line, ending⟩ :: rows, congrArg _ hlines, congrArg _ hbreaks⟩

/-- The lines and breaks of rows are a cut exactly when the rows are canonical. -/
theorem isCut_iff_canonical (rows : List Row) :
    IsCut (rows.map text) (rows.map ending) ↔ Canonical rows := by
  constructor
  · intro h
    rcases List.eq_nil_or_concat' rows with rfl | ⟨before, last, rfl⟩
    · cases h.unended
    · have hone : ∀ row ∈ before ++ [last], '\n' ∉ row.text := fun row hr =>
        h.oneLine row.text (List.mem_map_of_mem hr)
      have hunended := h.unended
      have hended := h.ended
      have hreturn := h.noReturn
      rw [List.map_append, List.map_singleton, List.getLast?_concat, Option.some_inj] at hunended
      rw [List.map_append, List.map_singleton, List.dropLast_concat] at hended
      rw [List.zip_map'] at hreturn
      refine ⟨before, last, rfl, ?_, hone last (by simp), hunended⟩
      intro row hr
      have hmem : row ∈ before ++ [last] := List.mem_append_left _ hr
      refine ⟨hone row hmem, ?_, hreturn _ (List.mem_map_of_mem hmem)⟩
      rcases hended row.ending (List.mem_map_of_mem hr) with he | he
      · rw [he]; decide
      · rw [he]; decide
  · intro h
    have hone := oneLine_of_canonical h
    obtain ⟨before, last, rfl, hbefore, hlast⟩ := h
    refine ⟨by rw [List.length_map, List.length_map], ?_, ?_, ?_, ?_⟩
    · intro line hl
      obtain ⟨row, hr, rfl⟩ := List.mem_map.mp hl
      exact hone row hr
    · rw [List.map_append, List.map_singleton, List.dropLast_concat]
      intro ending he
      obtain ⟨row, hr, rfl⟩ := List.mem_map.mp he
      have hbroken := (hbefore row hr).broken
      cases hending : row.ending with
      | none => exact absurd hending hbroken
      | lf => exact .inl rfl
      | crlf => exact .inr rfl
    · rw [List.map_append, List.map_singleton, List.getLast?_concat, hlast.unbroken]
    · rw [List.zip_map']
      intro pair hp hlf
      obtain ⟨row, hr, rfl⟩ := List.mem_map.mp hp
      rcases List.mem_append.mp hr with hr | hr
      · exact (hbefore row hr).noReturn hlf
      · rw [List.mem_singleton.mp hr] at hlf
        rw [hlast.unbroken] at hlf
        cases hlf

/-- A character more in the first row does not change the number of rows. -/
theorem length_consFirst {rows : List Row} (h : rows ≠ []) (c : Char) :
    (consFirst c rows).length = rows.length := by
  cases rows with
  | nil => exact absurd rfl h
  | cons row rest => rfl

/-- There is one row more than there are line feeds. -/
theorem length_ofText (t : Text) : (ofText t).length = t.count '\n' + 1 := by
  fun_induction ofText t with
  | case1 => rfl
  | case2 r ih => rw [List.length_cons, ih, List.count_cons_self]
  | case3 r ih =>
    rw [List.length_cons, ih, List.count_cons_of_ne (by decide), List.count_cons_self]
  | case4 c r hn _ ih =>
    have hc : c ≠ '\n' := fun h => hn h
    rw [length_consFirst (ofText_ne_nil r), ih, List.count_cons_of_ne hc]

end Row

namespace Document

/-- Breaks are counted on rows. -/
theorem count_breaks (document : Document) (ending : Break) :
    document.breaks.count ending = document.rows.countP (·.ending = ending) := by
  rw [breaks, List.count, List.countP_map]
  rfl

/-- The longer break is used for new text only if there are more of them. -/
theorem lineEnding_eq_crlf_iff (document : Document) :
    document.lineEnding = .crlf ↔ document.breaks.count .lf < document.breaks.count .crlf := by
  rw [lineEnding, count_breaks, count_breaks]
  dsimp only
  split
  · rename_i h
    exact ⟨fun _ => h, fun _ => rfl⟩
  · rename_i h
    exact ⟨fun he => absurd he (by decide), fun hlt => absurd hlt h⟩

/-- Without edits a document has its own text. -/
theorem apply_nil (language content : Text) : (ofText language content).apply [] = .ok content := by
  have h : (ofText language content).content = content := Row.content_ofText content
  rw [apply, Span.ofEdits]
  dsimp only
  rw [h]
  rfl

/-- A document has the one cut of its text: its lines and breaks make the text,
and a text made of a cut is cut into it again. -/
theorem ofText_cuts (language content : Text) :
    IsCut (ofText language content).lines (ofText language content).breaks ∧
      (ofText language content).lines.length = content.count '\n' + 1 ∧
      joinBreaks (ofText language content).lines (ofText language content).breaks = content ∧
      (ofText language content).apply [] = .ok content ∧
      (∀ lines breaks, IsCut lines breaks →
        (ofText language (joinBreaks lines breaks)).lines = lines ∧
        (ofText language (joinBreaks lines breaks)).breaks = breaks) ∧
      ((ofText language content).lineEnding = .crlf ↔
        (ofText language content).breaks.count .lf <
          (ofText language content).breaks.count .crlf) := by
  refine ⟨?_, ?_, ?_, apply_nil language content, ?_, lineEnding_eq_crlf_iff _⟩
  · exact (Row.isCut_iff_canonical _).mpr (Row.canonical_ofText content)
  · rw [lines, List.length_map]
    exact Row.length_ofText content
  · exact (Row.joinBreaks_map _).trans (Row.content_ofText content)
  · intro lines breaks h
    obtain ⟨rows, rfl, rfl⟩ := Row.exists_of_length_eq h.length_eq
    have hrows : Row.ofText (rows.flatMap Row.content) = rows :=
      Row.ofText_content ((Row.isCut_iff_canonical rows).mp h)
    rw [Row.joinBreaks_map]
    exact ⟨congrArg (List.map Row.text) hrows, congrArg (List.map Row.ending) hrows⟩

/-- A carriage return belongs to a break only right in front of the line feed. -/
theorem ofText_cuts_returns :
    IsCut ["a\r".toList, "\r b".toList, []] [.crlf, .lf, .none] ∧
      (ofText "javascript".toList "a\r\r\n\r b\n".toList).lines =
        ["a\r".toList, "\r b".toList, []] ∧
      (ofText "javascript".toList "a\r\r\n\r b\n".toList).breaks = [.crlf, .lf, .none] := by
  have hcut : IsCut ["a\r".toList, "\r b".toList, []] [.crlf, .lf, .none] :=
    ⟨rfl, by decide, by decide, rfl, by decide⟩
  exact ⟨hcut, (ofText_cuts "javascript".toList "a\r\r\n\r b\n".toList).2.2.2.2.1 _ _ hcut⟩

end Document

end Docblock
