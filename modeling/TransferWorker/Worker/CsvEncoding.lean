import TransferWorker.Worker.ScanErrors

/-! # Encoded tables

A table of cells is written as RFC 4180 says: a cell in quotation marks, with its own ones doubled, or as
it is; commas between the cells of a row; a line break after each row, which the last row may lack. The
scan finds the dangerous cells of the table in each of its encodings.

* **`EncodesTable`** — the encodings of a table; **`formulaCells`** — its dangerous cells.
* **`read_encoding`** — the reader returns the rows of the table, up to rows that consist of one empty cell. -/

namespace TransferWorker

/-! ## Encodings -/

/-- `cell.replace('"', '""')` -/
def doubled (cell : List Char) : List Char :=
  cell.flatMap fun c => if c = '\x22' then ['\x22', '\x22'] else [c]

/-- **An encoding of a cell**: bare or quoted. -/
inductive EncodesCell (cell : List Char) : List Char → Prop
  | bare (h : ∀ c ∈ cell, c ≠ ',' ∧ c ≠ '\x22' ∧ c ≠ '\r' ∧ c ≠ '\n') : EncodesCell cell cell
  | quoted : EncodesCell cell ('\x22' :: (doubled cell ++ ['\x22']))

/-- **An encoding of a row**: its cells with commas between them. -/
inductive EncodesRow : List (List Char) → List Char → Prop
  | nil : EncodesRow [] []
  | last {cell text : List Char} (hcell : EncodesCell cell text) : EncodesRow [cell] text
  | cons {cell next text rest : List Char} {cells : List (List Char)} (hcell : EncodesCell cell text)
      (hrow : EncodesRow (next :: cells) rest) : EncodesRow (cell :: next :: cells) (text ++ ',' :: rest)

/-- **An encoding of a table**: the line break after the last row may be missing. -/
inductive EncodesTable : List (List (List Char)) → List Char → Prop
  | nil : EncodesTable [] []
  | last {row : List (List Char)} {text : List Char} (hrow : EncodesRow row text) : EncodesTable [row] text
  | cons {row : List (List Char)} {rows : List (List (List Char))} {text lineBreak rest : List Char}
      (hrow : EncodesRow row text) (hbreak : lineBreak = ['\n'] ∨ lineBreak = ['\r', '\n'])
      (hrows : EncodesTable rows rest) : EncodesTable (row :: rows) (text ++ (lineBreak ++ rest))

/-- A cell that a spreadsheet program takes for a formula. -/
def StartsFormula (cell : List Char) : Prop :=
  ∃ c ∈ ['=', '+', '-', '@', '\t', '\r'], [c] <+: cell

/-- Whether a cell starts a formula is a matter of its first character. -/
instance (cell : List Char) : Decidable (StartsFormula cell) :=
  List.decidableBEx (fun c => [c] <+: cell) ['=', '+', '-', '@', '\t', '\r']

/-- The issue that a dangerous cell is reported as, from its row and column. -/
def issueAt (place : Nat × Nat) : String :=
  "formula_injection:row=" ++ toString place.1 ++ ",col=" ++ toString place.2

/-- **The dangerous cells of a table**, row by row, rows and columns counted from 1. -/
def formulaCells (table : List (List (List Char))) : List String :=
  (table.zipIdx 1).flatMap fun row => (row.1.zipIdx 1).filterMap fun cell =>
    if StartsFormula cell.1 then some (issueAt (row.2, cell.2)) else none

/-! ## The issues of a table -/

/-- The check of a cell is that it starts a formula. -/
theorem isFormula_iff (cell : List Char) : isFormula cell = true ↔ StartsFormula cell := by
  cases cell with
  | nil => simp [isFormula, StartsFormula]
  | cons c cs =>
      rw [isFormula, List.contains_iff_mem]
      constructor
      · intro h
        exact ⟨c, h, cs, rfl⟩
      · rintro ⟨d, hd, hstart⟩
        obtain rfl := (List.cons_prefix_cons.1 hstart).1
        exact hd

/-- The text of an issue names the place. -/
theorem issueAt_mk (row col : Nat) :
    "formula_injection:row=" ++ toString row ++ ",col=" ++ toString col = issueAt (row, col) := by
  unfold issueAt
  with_reducible rfl

/-- The issues of a row, cell by cell. -/
theorem rowIssues_cons (row col : Nat) (cell : List Char) (cells : List (List Char)) :
    rowIssues row col (cell :: cells) =
      if isFormula cell then issueAt (row, col) :: rowIssues row (col + 1) cells
      else rowIssues row (col + 1) cells := by
  rw [rowIssues, issueAt_mk]

/-- The issues of a row are those of its formulas, with the numbers of their columns. -/
theorem rowIssues_eq (row col : Nat) (cells : List (List Char)) : rowIssues row col cells =
    (cells.zipIdx col).filterMap fun cell =>
      if StartsFormula cell.1 then some (issueAt (row, cell.2)) else none := by
  induction cells generalizing col with
  | nil => rw [rowIssues, List.zipIdx_nil, List.filterMap_nil]
  | cons cell cells ih =>
      rw [rowIssues_cons, ih, List.zipIdx_cons, List.filterMap_cons]
      by_cases h : StartsFormula cell
      · rw [if_pos ((isFormula_iff cell).2 h)]
        simp only [if_pos h]
      · rw [if_neg fun hf => h ((isFormula_iff cell).1 hf)]
        simp only [if_neg h]

/-- The issues that the scan reports are the dangerous cells. -/
theorem tableIssues_eq (table : List (List (List Char))) : tableIssues 1 table = formulaCells table := by
  have hfrom : ∀ n, tableIssues n table = (table.zipIdx n).flatMap fun row => rowIssues row.2 1 row.1 := by
    induction table with
    | nil => intro n; rfl
    | cons row rows ih =>
        intro n
        rw [tableIssues, ih, List.zipIdx_cons, List.flatMap_cons]
  rw [hfrom, formulaCells]
  simp only [rowIssues_eq]

/-! ## Reading a cell -/

namespace CsvReader

variable {r r' r'' : CsvReader}

/-- There is room for so many more characters in the field. -/
def HasRoom (r : CsvReader) (n : Nat) : Prop := r.fieldLen + n ≤ fieldLimit

/-- Nothing is pushed. -/
theorem push_nil (r : CsvReader) : r.push [] = r := by simp [push]

/-- Characters are pushed one after the other. -/
theorem push_push (r : CsvReader) (cs ds : List Char) : (r.push cs).push ds = r.push (cs ++ ds) := by
  simp [push, Nat.add_assoc]

/-- A character is added where there is room. -/
theorem addChar_of_room {n : Nat} (h : r.HasRoom (n + 1)) (c : Char) : r.addChar c = .ok (r.push [c]) := by
  have hlt : r.fieldLen < fieldLimit := by
    unfold HasRoom at h
    omega
  rw [addChar, if_neg (not_le.2 hlt)]
  rfl

/-- A character takes room for one. -/
theorem HasRoom.push {n : Nat} (h : r.HasRoom (n + 1)) (c : Char) : (r.push [c]).HasRoom n := by
  have hlen : (r.push [c]).fieldLen = r.fieldLen + 1 := rfl
  unfold HasRoom at h ⊢
  omega

/-- A character that does not end the record. -/
theorem read_of_processChar {c : Char} (h : r.processChar (some c) = .ok r')
    (hc : c ≠ '\n' ∨ r'.state = .inQuotedField) (cs : List Char) : r.read (c :: cs) = r'.read cs := by
  have hcont : ¬(c = '\n' ∧ r'.state ≠ .inQuotedField) := by
    rintro ⟨hn, hs⟩
    exact hc.elim (fun hne => hne hn) hs
  rw [read, h]
  exact if_neg hcont

/-- Characters of a bare cell, after the first one. -/
theorem read_bare {cell : List Char} (hbare : ∀ c ∈ cell, c ≠ ',' ∧ c ≠ '\x22' ∧ c ≠ '\r' ∧ c ≠ '\n')
    (hs : r.state = .inField) (hroom : r.HasRoom cell.length) (rest : List Char) :
    r.read (cell ++ rest) = (r.push cell).read rest := by
  induction cell generalizing r with
  | nil => rw [push_nil, List.nil_append]
  | cons c cs ih =>
      obtain ⟨hcomma, hq, hr, hn⟩ := hbare c List.mem_cons_self
      have hstep : r.processChar (some c) = .ok (r.push [c]) := by
        rw [processChar_other (by simp [hn, hr]) hq hcomma (by simp [hs]) (by simp [hs]),
          addChar_of_room hroom]
        simp [Except.map, push, hs]
      rw [List.cons_append, read_of_processChar hstep (.inl hn),
        ih (r := r.push [c]) (fun d hd => hbare d (List.mem_cons_of_mem c hd)) hs (hroom.push c), push_push]
      rfl

/-- **A quoted cell up to its closing quotation mark**, by induction on the cell: a doubled quotation mark
takes two steps, any other character one. -/
theorem read_doubled {cell : List Char} (hs : r.state = .inQuotedField) (hroom : r.HasRoom cell.length)
    (rest : List Char) : r.read (doubled cell ++ rest) = (r.push cell).read rest := by
  induction cell generalizing r with
  | nil => rw [push_nil]; rfl
  | cons c cs ih =>
      have hnext := ih (r := r.push [c]) hs (hroom.push c)
      rw [push_push, List.singleton_append] at hnext
      rw [← hnext]
      by_cases hq : c = '\x22'
      · subst hq
        have hdoubled : doubled ('\x22' :: cs) ++ rest = '\x22' :: '\x22' :: (doubled cs ++ rest) := rfl
        have htwice : ({ r with state := .quoteInQuotedField } : CsvReader).processChar (some '\x22') =
            .ok (r.push ['\x22']) := by
          rw [processChar_quote_twice rfl, addChar_of_room (r := { r with state := .quoteInQuotedField }) hroom]
          simp [Except.map, push, hs]
        rw [hdoubled, read_of_processChar (processChar_quote_end hs) (.inl (by decide)),
          read_of_processChar htwice (.inl (by decide))]
      · have hdoubled : doubled (c :: cs) ++ rest = c :: (doubled cs ++ rest) := by simp [doubled, hq]
        have hstep : r.processChar (some c) = .ok (r.push [c]) := by
          rw [processChar_quoted hq hs, addChar_of_room hroom]
        rw [hdoubled, read_of_processChar hstep (.inr hs)]

/-- The reader is at the start of a field. -/
structure AtField (r : CsvReader) : Prop where
  state_eq : r.state = .startRecord ∨ r.state = .startField
  field_eq : r.field = []
  length_eq : r.fieldLen = 0

/-- From a reader at the start of a field these cells have been read, the last one being unfinished. -/
structure HasRead (r : CsvReader) (cells : List (List Char)) (r' : CsvReader) : Prop where
  not_quoted : r'.state ≠ .inQuotedField
  not_over : r'.state ≠ .eatCrnl
  fields_eq : r'.saveField.fields = cells.reverse ++ r.fields
  of_start : r'.state = .startRecord → r' = r ∧ cells = [[]]

/-- The reader goes over this text to another state, whatever follows. -/
def Reads (r : CsvReader) (text : List Char) (r' : CsvReader) : Prop :=
  ∀ rest, r.read (text ++ rest) = r'.read rest

/-- Two texts are read one after the other. -/
theorem Reads.append {text text' : List Char} (h : r.Reads text r') (h' : r'.Reads text' r'') :
    r.Reads (text ++ text') r'' := by
  intro rest
  rw [List.append_assoc, h, h']

/-- **Reading an encoding of a cell.** -/
theorem reads_cell {cell text : List Char} (hr : r.AtField) (h : EncodesCell cell text)
    (hlen : cell.length ≤ fieldLimit) : ∃ r', r.Reads text r' ∧ r.HasRead [cell] r' := by
  have hne : r.state ≠ .inQuotedField ∧ r.state ≠ .eatCrnl := by
    rcases hr.state_eq with hs | hs <;> simp [hs]
  have hroom : r.HasRoom cell.length := by
    rw [HasRoom, hr.length_eq, Nat.zero_add]
    exact hlen
  cases h with
  | bare hbare =>
      cases cell with
      | nil =>
          refine ⟨r, fun rest => rfl, hne.1, hne.2, ?_, fun _ => ⟨rfl, rfl⟩⟩
          simp [saveField, hr.field_eq]
      | cons c cs =>
          obtain ⟨hcomma, hq, hcr, hn⟩ := hbare c List.mem_cons_self
          have hstep : r.processChar (some c) = .ok { r.push [c] with state := .inField } := by
            rw [processChar_other (by simp [hn, hcr]) hq hcomma hne.1 hne.2, addChar_of_room hroom]
            rfl
          refine ⟨({ r.push [c] with state := .inField } : CsvReader).push cs, ?_, by simp [push],
            by simp [push], ?_, by simp [push]⟩
          · intro rest
            rw [List.cons_append, read_of_processChar hstep (.inl hn)]
            exact read_bare (r := { r.push [c] with state := .inField })
              (fun d hd => hbare d (List.mem_cons_of_mem c hd)) rfl (hroom.push c) rest
          · simp [saveField, push, hr.field_eq]
  -- between the quotes every quote is doubled
  | quoted =>
      have hfirst := processChar_quote_start hr.state_eq
      have hlast := processChar_quote_end (r := ({ r with state := .inQuotedField } : CsvReader).push cell) rfl
      refine ⟨{ ({ r with state := .inQuotedField } : CsvReader).push cell with state := .quoteInQuotedField },
        ?_, by simp, by simp, ?_, by simp⟩
      · intro rest
        have hinside := read_doubled (r := { r with state := .inQuotedField }) rfl hroom ('\x22' :: rest)
        rw [List.cons_append, read_of_processChar hfirst (.inl (by decide)), List.append_assoc,
          List.singleton_append, hinside, read_of_processChar hlast (.inl (by decide))]
      · simp [saveField, push, hr.field_eq]

/-! ## Reading a row -/

/-- **Reading an encoding of a row**, by induction on the row. -/
theorem reads_row {row : List (List Char)} {text : List Char} (h : EncodesRow row text) (hne : row ≠ [])
    (hlen : ∀ cell ∈ row, cell.length ≤ fieldLimit) (hr : r.AtField) :
    ∃ r', r.Reads text r' ∧ r.HasRead row r' := by
  induction h generalizing r with
  | nil => exact absurd rfl hne
  | last hcell => exact reads_cell hr hcell (hlen _ List.mem_cons_self)
  | @cons cell next text rest cells hcell hrow ih =>
      obtain ⟨r₁, hreads, hread⟩ := reads_cell hr hcell (hlen cell List.mem_cons_self)
      -- the comma ends the cell
      have hcomma : r₁.Reads [','] { r₁.saveField with state := .startField } := fun rest =>
        read_of_processChar (processChar_comma hread.not_quoted hread.not_over) (.inl (by decide)) rest
      have hfield : ({ r₁.saveField with state := .startField } : CsvReader).AtField :=
        ⟨.inr rfl, rfl, rfl⟩
      obtain ⟨r₂, hreads', hread'⟩ :=
        ih (List.cons_ne_nil _ _) (fun c hc => hlen c (List.mem_cons_of_mem _ hc)) hfield
      refine ⟨r₂, hreads.append (hcomma.append hreads'), hread'.not_quoted, hread'.not_over, ?_, ?_⟩
      · rw [hread'.fields_eq]
        show _ ++ r₁.saveField.fields = _
        rw [hread.fields_eq]
        simp
      · intro hstart
        have hstate := congrArg CsvReader.state (hread'.of_start hstart).1
        rw [hstart] at hstate
        cases hstate

/-- **The row that a reader returns** where an encoding of a row ends. -/
def rowAt (r : CsvReader) : List (List Char) :=
  if r.state = .startRecord then [] else r.saveField.fields.reverse

/-- A fresh reader reads an encoding of a row: it returns the row, or no cells for one empty cell. -/
theorem reads_row_fresh {row : List (List Char)} {text : List Char} (h : EncodesRow row text)
    (hlen : ∀ cell ∈ row, cell.length ≤ fieldLimit) : ∃ r', ({} : CsvReader).Reads text r' ∧
      r'.state ≠ .inQuotedField ∧ r'.state ≠ .eatCrnl ∧ (r'.state = .startRecord → r' = {}) ∧
        (r'.rowAt = row ∨ r'.rowAt = [] ∧ row = [[]]) := by
  by_cases hne : row = []
  · subst hne
    cases h
    exact ⟨{}, fun rest => rfl, by simp, by simp, fun _ => rfl, .inl rfl⟩
  · obtain ⟨r', hreads, hread⟩ := reads_row (r := {}) h hne hlen ⟨.inl rfl, rfl, rfl⟩
    refine ⟨r', hreads, hread.not_quoted, hread.not_over, fun hs => (hread.of_start hs).1, ?_⟩
    rw [rowAt]
    by_cases hs : r'.state = .startRecord
    · exact .inr ⟨if_pos hs, (hread.of_start hs).2⟩
    · rw [if_neg hs, hread.fields_eq]
      exact .inl (by simp)

/-! ## Reading a table -/

/-- A line break ends the row. -/
theorem read_lineBreak {lineBreak : List Char} (hbreak : lineBreak = ['\n'] ∨ lineBreak = ['\r', '\n'])
    (hq : r.state ≠ .inQuotedField) (ho : r.state ≠ .eatCrnl) (hs : r.state = .startRecord → r = {})
    (rest : List Char) :
    r.read (lineBreak ++ rest) = (read {} rest).map (r.rowAt :: ·) := by
  have hend : ∀ c, c = '\n' ∨ c = '\r' → ∃ r', r.processChar (some c) = .ok r' ∧ r'.state = .eatCrnl ∧
      r'.fields.reverse = r.rowAt := by
    intro c hc
    refine ⟨_, processChar_break hc hq, ?_⟩
    rw [rowAt]
    by_cases hstart : r.state = .startRecord
    · rw [if_pos (.inl hstart), if_pos hstart, hs hstart]
      exact ⟨rfl, rfl⟩
    · rw [if_neg (by simp [hstart, ho]), if_neg hstart]
      exact ⟨rfl, rfl⟩
  rcases hbreak with rfl | rfl
  · obtain ⟨r', hr, hstate, hrow⟩ := hend '\n' (.inl rfl)
    rw [List.singleton_append, read, hr, ← hrow]
    exact if_pos ⟨rfl, by simp [hstate]⟩
  · obtain ⟨r', hr, hstate, hrow⟩ := hend '\r' (.inr rfl)
    have hnewline : r'.processChar (some '\n') = .ok r' := by
      rw [processChar_break (.inl rfl) (by simp [hstate]), if_pos (.inr hstate), ← hstate]
    rw [List.cons_append, List.singleton_append, read_of_processChar hr (.inl (by decide)), read, hnewline,
      ← hrow]
    exact if_pos ⟨rfl, by simp [hstate]⟩

end CsvReader

/-- A row of one empty cell has no issues, like a row of none. -/
theorem rowIssues_of_same {read row : List (List Char)} (h : read = row ∨ read = [] ∧ row = [[]]) (n : Nat) :
    rowIssues n 1 read = rowIssues n 1 row := by
  rcases h with rfl | ⟨rfl, rfl⟩ <;> rfl

/-- **Reading an encoding of a table**: whatever its line breaks and quotation marks, the rows that the
reader returns have the issues of the table. -/
theorem read_encoding {table : List (List (List Char))} {text : List Char} (h : EncodesTable table text)
    (hlen : ∀ row ∈ table, ∀ cell ∈ row, cell.length ≤ CsvReader.fieldLimit) :
    ∃ rows, csvRows text = .ok rows ∧ ∀ n, tableIssues n rows = tableIssues n table := by
  rw [csvRows_eq_read]
  induction h with
  | nil => exact ⟨[], rfl, fun n => rfl⟩
  | @last row text hrow =>
      obtain ⟨r, hreads, hq, ho, -, hsame⟩ :=
        CsvReader.reads_row_fresh hrow (hlen row List.mem_cons_self)
      have hread := hreads []
      rw [List.append_nil, CsvReader.read_nil] at hread
      refine ⟨r.lastRows, hread, fun n => ?_⟩
      have hissues : tableIssues n r.lastRows = rowIssues n 1 r.rowAt := by
        rw [CsvReader.lastRows, CsvReader.rowAt]
        cases hstate : r.state <;> simp [tableIssues, rowIssues, hstate] at ho ⊢
      rw [hissues, rowIssues_of_same hsame, tableIssues, tableIssues, List.append_nil]
  | @cons row rows text lineBreak rest hrow hbreak hrows ih =>
      obtain ⟨r, hreads, hq, ho, hs, hsame⟩ :=
        CsvReader.reads_row_fresh hrow (hlen row List.mem_cons_self)
      obtain ⟨read, hread, hissues⟩ := ih fun row hrow => hlen row (List.mem_cons_of_mem _ hrow)
      refine ⟨r.rowAt :: read, ?_, fun n => ?_⟩
      · rw [hreads, CsvReader.read_lineBreak hbreak hq ho hs, hread]
        rfl
      · rw [tableIssues, tableIssues, rowIssues_of_same hsame, hissues]

/-! ## NUL bytes -/

/-- Doubling quotation marks makes no NUL. -/
theorem nul_notMem_doubled {cell : List Char} (h : '\x00' ∉ cell) : '\x00' ∉ doubled cell := by
  intro hmem
  obtain ⟨c, hc, hin⟩ := List.mem_flatMap.1 hmem
  by_cases hq : c = '\x22'
  · rw [if_pos hq] at hin
    exact absurd hin (by decide)
  · rw [if_neg hq] at hin
    rw [List.mem_singleton.1 hin] at h
    exact h hc

/-- A cell without NUL is encoded without NUL. -/
theorem EncodesCell.nul_notMem {cell text : List Char} (h : EncodesCell cell text) (hnul : '\x00' ∉ cell) :
    '\x00' ∉ text := by
  cases h with
  | bare => exact hnul
  | quoted => simpa using nul_notMem_doubled hnul

/-- So is a row. -/
theorem EncodesRow.nul_notMem {row : List (List Char)} {text : List Char} (h : EncodesRow row text)
    (hnul : ∀ cell ∈ row, '\x00' ∉ cell) : '\x00' ∉ text := by
  induction h with
  | nil => exact List.not_mem_nil
  | last hcell => exact hcell.nul_notMem (hnul _ List.mem_cons_self)
  | cons hcell hrow ih =>
      have htext := hcell.nul_notMem (hnul _ List.mem_cons_self)
      have hrest := ih fun cell hc => hnul cell (List.mem_cons_of_mem _ hc)
      simp [htext, hrest]

/-- So is a table. -/
theorem EncodesTable.nul_notMem {table : List (List (List Char))} {text : List Char}
    (h : EncodesTable table text) (hnul : ∀ row ∈ table, ∀ cell ∈ row, '\x00' ∉ cell) : '\x00' ∉ text := by
  induction h with
  | nil => exact List.not_mem_nil
  | last hrow => exact hrow.nul_notMem (hnul _ List.mem_cons_self)
  | cons hrow hbreak hrows ih =>
      have htext := hrow.nul_notMem (hnul _ List.mem_cons_self)
      have hrest := ih fun row hr => hnul row (List.mem_cons_of_mem _ hr)
      rcases hbreak with rfl | rfl <;> simp [htext, hrest]

/-- Only the NUL character is written with a zero byte. -/
theorem zero_notMem_utf8EncodeChar {c : Char} (hc : c ≠ '\x00') : (0 : UInt8) ∉ String.utf8EncodeChar c := by
  have hpos : c.val.toNat ≠ 0 := by
    intro h
    exact hc (Char.ext (UInt32.toNat_inj.1 h))
  unfold String.utf8EncodeChar
  intro h
  -- one case for each number of bytes
  simp only at h
  split_ifs at h <;>
    simp only [List.mem_cons, List.not_mem_nil, or_false, ← UInt8.toNat_inj, UInt8.toNat_ofNat',
      UInt8.toNat_ofNat] at h <;>
    omega

/-- The encoding of a text without NUL has no byte zero. -/
theorem zero_notMem_toUTF8 {text : String} (h : '\x00' ∉ text.toList) :
    (0 : UInt8) ∉ text.toUTF8.data.toList := by
  have hbytes : text.toUTF8.data.toList = text.toList.flatMap String.utf8EncodeChar := by
    show text.toByteArray.data.toList = _
    rw [← String.utf8Encode_toList, List.utf8Encode]
    simp
  rw [hbytes]
  intro hmem
  obtain ⟨c, hc, hzero⟩ := List.mem_flatMap.1 hmem
  refine zero_notMem_utf8EncodeChar ?_ hzero
  rintro rfl
  exact h hc

/-- The pure part of the scan on a text. -/
theorem scanBytes_text {text : String} (h : '\x00' ∉ text.toList) :
    scanBytes text.toUTF8 = (csvRows text.toList).map (tableIssues 1) := by
  have hcontains : ¬text.toUTF8.data.contains 0 = true := by simpa using zero_notMem_toUTF8 h
  rw [scanBytes, if_neg hcontains, Json.fromUTF8?_toUTF8]

/-! ## The scan -/

/-- **The scan returns these issues** on a content: it can run over a file that has it, and all its runs over
such a file end so. -/
def ScanReturns (settings : Settings) (path : Path) (raw : ByteArray) (issues : List String) : Prop :=
  (∃ tr, (scanCsvFile path settings).Makes tr (.ok issues) ∧ ReadsFile path raw tr) ∧
    ∀ tr r, (scanCsvFile path settings).Makes tr r → ReadsFile path raw tr → r = .ok issues

/-- Within the size limit, the scan returns what its pure part does. -/
theorem scanReturns_of_scanBytes {settings : Settings} {path : Path} {raw : ByteArray} {issues : List String}
    (hsize : (raw.size : Int) ≤ settings.maxCsvFileSizeBytes) (h : scanBytes raw = .ok issues) :
    ScanReturns settings path raw issues := by
  constructor
  · refine ⟨_, h ▸ makes_scan hsize, ?_⟩
    simp [ReadsFile]
  · intro tr r hmakes htr
    rcases result_of_makes_scan hmakes htr with ⟨hlarge, -⟩ | ⟨-, rfl⟩
    · exact absurd hsize (not_le.2 hlarge)
    · exact h

/-- **The scan locates exactly the dangerous cells** of a table, in each of its encodings. -/
theorem scan_locates_formulas (settings : Settings) (path : Path) {table : List (List (List Char))}
    {text : String} (hcells : ∀ row ∈ table, ∀ cell ∈ row, '\x00' ∉ cell ∧ cell.length ≤ 131072)
    (htext : EncodesTable table text.toList)
    (hsize : (text.toUTF8.size : Int) ≤ settings.maxCsvFileSizeBytes) :
    ScanReturns settings path text.toUTF8 (formulaCells table) := by
  have hnul : '\x00' ∉ text.toList :=
    htext.nul_notMem fun row hrow cell hcell => (hcells row hrow cell hcell).1
  obtain ⟨rows, hrows, hissues⟩ :=
    read_encoding htext fun row hrow cell hcell => (hcells row hrow cell hcell).2
  refine scanReturns_of_scanBytes hsize ?_
  rw [scanBytes_text hnul, hrows, ← tableIssues_eq, ← hissues]
  rfl

/-- A blank row, then a cell that spans two lines, with a formula after it and one in the next row: the
second row is written in quotation marks and ended by CRLF. -/
theorem scan_locates_formulas_multiline :
    ScanReturns {} "/watch/a.csv".toUTF8 "\n\x22a,\r\nb\x22,\x22=1\x22\r\n-2\n".toUTF8
      (formulaCells [[], [['a', ',', '\r', '\n', 'b'], ['=', '1']], [['-', '2']]]) := by
  have hspan : EncodesCell ['a', ',', '\r', '\n', 'b'] ['\x22', 'a', ',', '\r', '\n', 'b', '\x22'] := .quoted
  have hformula : EncodesCell ['=', '1'] ['\x22', '=', '1', '\x22'] := .quoted
  have hbare : EncodesCell ['-', '2'] ['-', '2'] := .bare (by simp)
  have htable := EncodesTable.cons .nil (.inl rfl) (.cons (.cons hspan (.last hformula)) (.inr rfl)
    (.cons (.last hbare) (.inl rfl) .nil))
  have htext : "\n\x22a,\r\nb\x22,\x22=1\x22\r\n-2\n" = String.ofList ['\n', '\x22', 'a', ',', '\r', '\n', 'b',
      '\x22', ',', '\x22', '=', '1', '\x22', '\r', '\n', '-', '2', '\n'] := rfl
  rw [htext]
  refine scan_locates_formulas {} "/watch/a.csv".toUTF8 (by decide) ?_ (by decide +kernel)
  rw [String.toList_ofList]
  exact htable

end TransferWorker
