import Docblock.Proofs.Text.Search
import Docblock.Proofs.Toml.Table
import Docblock.Proofs.Toml.Value

/-!
# Sections are read back

A file is read from its end: when what stands behind a line is read in the state the
line leads to, the line is read with it. Lines that set new keys lead to their
entries behind those of the table at hand, and a header with a new name leads to an
empty table.
-/

namespace Docblock.Toml

open Text

/-! ## Keys -/

section Keys

variable {key rest : Text}

/-- A key that is written without quotes. -/
structure IsBare (key : Text) : Prop where
  /-- The key has a character. -/
  ne_nil : key ≠ []
  /-- None of its characters needs quotes. -/
  bare : ∀ c ∈ key, isBareKey c = true

/-- A key is bare when it is made of the characters of bare keys. -/
theorem isBare_iff : IsBare key ↔ (!key.isEmpty && key.all isBareKey) = true := by
  rw [Bool.and_eq_true, Bool.not_eq_true', List.isEmpty_eq_false_iff, List.all_eq_true]
  exact ⟨fun h => ⟨h.ne_nil, h.bare⟩, fun h => ⟨h.1, h.2⟩⟩

instance (key : Text) : Decidable (IsBare key) := decidable_of_iff _ isBare_iff.symm

/-- A key without quotes ends where another character stands. -/
theorem key?_bare (hkey : IsBare key) (hstop : ∀ c ∈ rest.head?, isBareKey c = false)
    (hdot : ∀ r, skipGaps rest ≠ '.' :: r) :
    key? (key ++ rest) = some (([], key), skipGaps rest) := by
  have hpart : keyPart? (key ++ rest) = some (key, rest) := by
    rw [keyPart?, takeWhile_append_of_stop hkey.bare hstop,
      dropWhile_append_of_stop hkey.bare hstop]
    cases key with
    | nil => exact absurd rfl hkey.ne_nil
    | cons c r => rfl
  have hparts (fuel : Nat) : keyParts? (fuel + 1) (key ++ rest) =
      some ([key], skipGaps rest) := by
    rw [keyParts?, hpart]
    dsimp only
    split
    · rename_i heq
      exact (hdot _ heq).elim
    · rfl
  rw [key?, hparts]
  rfl

/-- The characters of bare keys differ from all others. -/
theorem ne_of_isBareKey {c d : Char} (hc : isBareKey c = true) (hd : isBareKey d = false) :
    c ≠ d := by
  rintro rfl
  rw [hc] at hd
  cases hd

/-- A line that starts with a bare key starts with one of its characters. -/
theorem IsBare.head (hkey : IsBare key) (rest : Text) :
    ∃ c r, key ++ rest = c :: r ∧ isBareKey c = true := by
  cases key with
  | nil => exact absurd rfl hkey.ne_nil
  | cons c r => exact ⟨c, r ++ rest, rfl, hkey.bare c List.mem_cons_self⟩

/-- Nothing is skipped in front of a key. -/
theorem IsBare.solid (hkey : IsBare key) (rest : Text) : Solid (key ++ rest) := by
  obtain ⟨c, r, hfirst, hc⟩ := hkey.head rest
  have hgap : isGap c = false := by
    rw [isGap, Bool.or_eq_false_iff, decide_eq_false_iff_not, decide_eq_false_iff_not]
    exact ⟨ne_of_isBareKey hc rfl, ne_of_isBareKey hc rfl⟩
  rw [hfirst]
  exact solid_cons ⟨hgap, ne_of_isBareKey hc rfl, ne_of_isBareKey hc rfl, ne_of_isBareKey hc rfl⟩ r

end Keys

/-! ## Lines -/

/-- A line that sets a key. -/
structure Assignment where
  /-- The key. -/
  key : Text
  /-- What is written for the value. -/
  written : Text
  /-- The value. -/
  value : Value

namespace Assignment

/-- The line with its end. -/
def text (line : Assignment) : Text := writeEntry line.key line.written

/-- The entry the line makes. -/
def entry (line : Assignment) : Text × Value := (line.key, line.value)

/-- Whether a line can be read back. -/
structure Legible (line : Assignment) : Prop where
  /-- The key needs no quotes. -/
  key : IsBare line.key
  /-- What is written starts with no gap. -/
  first : ∀ c ∈ line.written.head?, isGap c = false
  /-- What is written is read as the value. -/
  reads : ∀ rest, value? maxDepth (line.written ++ '\n' :: rest) = some (line.value, '\n' :: rest)

variable {line : Assignment}

/-- A line is its key, its value and a line feed. -/
theorem text_append (line : Assignment) (rest : Text) :
    line.text ++ rest = line.key ++ (' ' :: '=' :: ' ' :: (line.written ++ '\n' :: rest)) := by
  rw [text, writeEntry, List.append_assoc, List.append_assoc, List.append_assoc]
  rfl

/-- A legible line is read as its key and its value. -/
theorem Legible.assignment? (h : line.Legible) (rest : Text) :
    Toml.assignment? (value? maxDepth) (line.text ++ rest) =
      some (([], line.key, line.value), '\n' :: rest) := by
  have hgap : skipGaps (' ' :: (line.written ++ '\n' :: rest)) = line.written ++ '\n' :: rest := by
    show skipGaps (line.written ++ '\n' :: rest) = _
    refine skipGaps_of_head fun c hc => ?_
    cases hwritten : line.written with
    | nil =>
      rw [hwritten] at hc
      cases hc
      rfl
    | cons d r =>
      rw [hwritten] at hc
      exact h.first c (by rw [hwritten]; exact hc)
  rw [Toml.assignment?, text_append, key?_bare h.key (by rintro c ⟨⟩; rfl) (by rintro r ⟨⟩)]
  show Option.map _ (value? maxDepth (skipGaps (' ' :: (line.written ++ '\n' :: rest)))) = _
  rw [hgap, h.reads]
  rfl

/-- A line puts its entry below the last header. -/
theorem Legible.statement? (h : line.Legible) {state : State} {root : Entries}
    (hroot : state.root.assignBelow state.header [] line.key line.value = some root)
    (rest : Text) :
    Toml.statement? state (line.text ++ rest) = some (⟨root, state.header⟩, rest) := by
  have hread := h.assignment? rest
  obtain ⟨c, r, hfirst, hc⟩ := h.key.head (' ' :: '=' :: ' ' :: (line.written ++ '\n' :: rest))
  rw [← text_append] at hfirst
  have hopen : c ≠ '[' := ne_of_isBareKey hc rfl
  rw [hfirst] at hread ⊢
  rw [Toml.statement?, hread]
  · dsimp only
    rw [hroot]
    rfl
  all_goals
    intro r' heq
    exact hopen (List.cons.inj heq).1

/-- A line with a string. -/
def ofString (key t : Text) : Assignment := ⟨key, writeString t, .string t⟩

/-- A line with a list of strings; its value may take more lines. -/
def ofStrings (key : Text) (items : List Text) : Assignment :=
  ⟨key, writeStrings items, .array (items.map .string)⟩

/-- A line with a truth value. -/
def ofBool (key : Text) (b : Bool) : Assignment := ⟨key, writeBool b, .boolean b⟩

section Written

variable {key : Text}

/-- A line with a string can be read. -/
theorem legible_ofString (hkey : IsBare key) (t : Text) : (ofString key t).Legible where
  key := hkey
  first := by
    obtain ⟨mark, body, hwritten, rfl | rfl⟩ := writeString_eq_cons t
    · rw [ofString, hwritten]
      rintro c ⟨⟩
      rfl
    · rw [ofString, hwritten]
      rintro c ⟨⟩
      rfl
  reads rest := value?_writeString maxDepth t (unquoted_cons (by decide) rest)

/-- A line with an array of strings can be read. -/
theorem legible_ofStrings (hkey : IsBare key) (items : List Text) :
    (ofStrings key items).Legible where
  key := hkey
  first := by
    rw [ofStrings]
    match items with
    | [] | [_] | _ :: _ :: _ =>
      rintro c ⟨⟩
      rfl
  reads rest := value?_writeStrings (maxDepth - 1) items ('\n' :: rest)

/-- A line with a truth value can be read. -/
theorem legible_ofBool (hkey : IsBare key) (b : Bool) : (ofBool key b).Legible where
  key := hkey
  first := by
    cases b <;>
      · rintro c ⟨⟩
        rfl
  reads rest := value?_writeBool maxDepth b rest

end Written

end Assignment

/-! ## Sections -/

section Sections

variable {state next : State} {t s rest : Text} {entries : Entries}

/-- Whether a text is read as the rest of a file. -/
def Reads (state : State) (t : Text) (entries : Entries) : Prop :=
  ∀ fuel, t.length < fuel → statements? fuel state t = some entries

/-- At the end of a text the entries read so far are the table. -/
theorem reads_nil (state : State) : Reads state [] state.root := by
  intro fuel hfuel
  cases fuel with
  | zero => exact absurd hfuel (Nat.not_lt_zero _)
  | succ fuel => rfl

/-- A file is read line by line. -/
theorem Reads.step (h : Reads next rest entries) (htrivia : trivia? t = some s) (hs : s ≠ [])
    (hstep : statement? state s = some (next, rest)) (hlen : rest.length < t.length) :
    Reads state t entries := by
  intro fuel hfuel
  cases fuel with
  | zero => exact absurd hfuel (Nat.not_lt_zero _)
  | succ fuel =>
    rw [statements?, htrivia]
    split
    · rename_i heq
      cases heq
    · rename_i heq
      cases heq
      exact absurd rfl hs
    · rename_i heq
      cases heq
      rw [hstep]
      exact h fuel (by omega)

/-- A line starts with no gap, comment or break. -/
theorem solid_text {line : Assignment} (h : line.Legible) (rest : Text) :
    Solid (line.text ++ rest) := by
  rw [Assignment.text_append]
  exact h.key.solid _

/-- Lines with new keys put their entries behind those of the table at hand. -/
theorem Reads.lines {header : List Text} {outer : Entries → Entries}
    (hosts : Entries.Hosts header outer) {lines : List Assignment} (inner : Entries)
    (hlegible : ∀ line ∈ lines, line.Legible)
    (hfresh : ((inner ++ lines.map Assignment.entry).map Prod.fst).Nodup)
    (h : Reads ⟨outer (inner ++ lines.map Assignment.entry), header⟩ rest entries) :
    Reads ⟨outer inner, header⟩ (lines.flatMap Assignment.text ++ rest) entries := by
  induction lines generalizing inner with
  | nil =>
    rw [List.map_nil, List.append_nil] at h
    exact h
  | cons line lines ih =>
    obtain ⟨hline, hlines⟩ := List.forall_mem_cons.mp hlegible
    have hkey : Entries.Fresh line.key inner := by
      rw [List.map_append, List.nodup_append] at hfresh
      exact fun hmem => hfresh.2.2 _ hmem _ List.mem_cons_self rfl
    have hrest := ih (inner ++ [line.entry]) hlines
      (by rw [List.append_assoc]; exact hfresh) (by rw [List.append_assoc]; exact h)
    rw [List.flatMap_cons, List.append_assoc]
    refine hrest.step (trivia?_of_solid (solid_text hline _)) ?_
      (hline.statement? (hosts inner line.key line.value hkey) _) ?_
    · rw [Assignment.text_append]
      exact List.append_ne_nil_of_right_ne_nil _ (List.cons_ne_nil _ _)
    · rw [Assignment.text_append]
      simp only [List.length_append, List.length_cons]
      omega

/-- A line with the name of a section, and an empty one in front of it. -/
def headerText (name : Text) : Text := ['\n', '['] ++ name ++ [']', '\n']

/-- A header with a bare name is read as that name. -/
theorem headerPath?_bare {name : Text} (hname : IsBare name) (rest : Text) :
    headerPath? [']'] (name ++ ']' :: '\n' :: rest) = some (([], name), rest) := by
  have hkey : key? (name ++ ']' :: '\n' :: rest) = some (([], name), ']' :: '\n' :: rest) :=
    key?_bare hname (by rintro c ⟨⟩; rfl) (by rintro r ⟨⟩)
  rw [headerPath?, skipGaps_of_head fun c hc => (hname.solid _ c hc).1, hkey]
  rfl

/-- A header with a new name opens an empty table for the lines below it. -/
theorem statement?_header {name : Text} (hname : IsBare name)
    (hfresh : Entries.Fresh name state.root) (rest : Text) :
    statement? state ('[' :: (name ++ ']' :: '\n' :: rest)) =
      some (⟨state.root ++ [(name, .table .header [])], [name]⟩, rest) := by
  have hpath := headerPath?_bare hname rest
  obtain ⟨c, r, hfirst, hc⟩ := hname.head (']' :: '\n' :: rest)
  rw [hfirst] at hpath ⊢
  rw [statement?, hpath]
  · dsimp only
    rw [Entries.openTable_of_fresh hfresh]
    rfl
  · intro r' heq
    exact ne_of_isBareKey hc rfl (List.cons.inj heq).1

/-- A header with a new name opens an empty table. -/
theorem Reads.header {header : List Text} {name : Text} {before : Entries} (hname : IsBare name)
    (hfresh : Entries.Fresh name before)
    (h : Reads ⟨before ++ [(name, .table .header [])], [name]⟩ rest entries) :
    Reads ⟨before, header⟩ (headerText name ++ rest) entries := by
  have htext : headerText name ++ rest = ['\n'] ++ '[' :: (name ++ ']' :: '\n' :: rest) := by
    rw [headerText, List.append_assoc, List.append_assoc]
    rfl
  rw [htext]
  refine h.step (trivia?_pad (by simp [IsPad]) (solid_cons (by decide) _)) (List.cons_ne_nil _ _)
    (statement?_header hname hfresh rest) ?_
  simp only [List.length_append, List.length_cons]
  omega

/-- A section with a new name is read as a table of its lines. -/
theorem Reads.section {header : List Text} {name : Text} {before : Entries}
    {lines : List Assignment} (hname : IsBare name) (hfresh : Entries.Fresh name before)
    (hlegible : ∀ line ∈ lines, line.Legible)
    (hkeys : ((lines.map Assignment.entry).map Prod.fst).Nodup)
    (h : Reads ⟨before ++ [(name, .table .header (lines.map Assignment.entry))], [name]⟩ rest
      entries) :
    Reads ⟨before, header⟩ (headerText name ++ (lines.flatMap Assignment.text ++ rest)) entries :=
  .header hname hfresh (.lines (Entries.hosts_section hfresh) [] hlegible hkeys h)

/-- A file without a mark in front is read as a whole. -/
theorem Reads.parse? (h : Reads {} t entries) (hmark : skipMark t = t) :
    Toml.parse? t = some entries := by
  rw [Toml.parse?, hmark]
  exact h _ (Nat.lt_succ_self _)

end Sections

end Docblock.Toml
