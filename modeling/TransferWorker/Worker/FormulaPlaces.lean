import TransferWorker.Worker.CsvEncoding
import TransferWorker.Worker.Keys

/-! # Where the formulas of a text are

The lexer finds the dangerous cells of a text in one pass, without building its cells: a cell is dangerous
if its first character is, and the row and the column are counted on the way.

* **`formulaPlaces`** — the rows and columns of the dangerous cells.
* **`tableIssues_read`** — they are those that the scan reports. -/

namespace TransferWorker

/-! ## The lexer -/

/-- The next character is the first one of a cell and makes it a formula. A carriage return is part of a cell
between quotation marks only. -/
def CellCursor.Formula (k : CellCursor) (c : Char) : Prop :=
  k.length = 0 ∧ c ∈ ['=', '+', '-', '@', '\t', '\r'] ∧ (c = '\r' → k.mode = .quoted)

/-- Whether a character starts a formula is decided by the cursor. -/
instance (k : CellCursor) (c : Char) : Decidable (k.Formula c) :=
  inferInstanceAs (Decidable (k.length = 0 ∧ c ∈ ['=', '+', '-', '@', '\t', '\r'] ∧ (c = '\r' → k.mode = .quoted)))

/-- The row and the column after the next character. -/
def CellCursor.move (k : CellCursor) (c : Char) (place : Nat × Nat) : Nat × Nat :=
  if k.mode = .quoted then place
  else if c = '\n' then (place.1 + 1, 1)
  else if c = ',' ∨ c = '\r' then (place.1, place.2 + 1)
  else place

/-- **The places of the formulas** of a text, from a lexer and its place on. -/
def formulaPlaces : CellCursor → Nat × Nat → List Char → List (Nat × Nat)
  | _, _, [] => []
  | k, place, c :: cs => (if k.Formula c then [place] else []) ++ formulaPlaces (k.next c) (k.move c place) cs

/-- The issue says the place. -/
theorem issueAt_injective : Function.Injective issueAt := by
  rintro ⟨row, col⟩ ⟨row', col'⟩ h
  have hcol : ∀ n : Nat, ',' ∉ ['c', 'o', 'l', '='] ++ (toString n).toList := by
    intro n hmem
    rcases List.mem_append.1 hmem with hmem | hmem
    · exact absurd hmem (by decide)
    · exact notMem_toString rfl n hmem
  have hissue : ∀ row col : Nat, ("formula_injection:row=" ++ toString row ++ ",col=" ++ toString col).toList =
      "formula_injection:row=".toList ++
        ((toString row).toList ++ ',' :: (['c', 'o', 'l', '='] ++ (toString col).toList)) := by
    intro row col
    have hcomma : ",col=".toList = [',', 'c', 'o', 'l', '='] := rfl
    rw [String.toList_append, String.toList_append, String.toList_append, hcomma, List.append_assoc,
      List.append_assoc]
    rfl
  have htexts := (hissue row col).symm.trans ((congrArg String.toList h).trans (hissue row' col'))
  obtain ⟨hrow, hlast⟩ := append_cons_inj (hcol col) (hcol col') (List.append_cancel_left htexts)
  have hrow : row = row' := toString_nat_injective (String.toList_inj.1 hrow)
  have hcol : col = col' := toString_nat_injective (String.toList_inj.1 (List.append_cancel_left hlast))
  rw [hrow, hcol]

/-! ## The reader -/

/-- The issues of the first cells and of the others. -/
theorem rowIssues_append (row col : Nat) (cells cells' : List (List Char)) :
    rowIssues row col (cells ++ cells') =
      rowIssues row col cells ++ rowIssues row (col + cells.length) cells' := by
  induction cells generalizing col with
  | nil => rfl
  | cons cell cells ih =>
      rw [List.cons_append, rowIssues_cons, rowIssues_cons, ih, List.length_cons, Nat.add_right_comm col 1,
        Nat.add_assoc col]
      split <;> rfl

/-- The issues of a row without its last cell, and that of the last cell. -/
theorem rowIssues_concat (row : Nat) (cells : List (List Char)) (cell : List Char) :
    rowIssues row 1 (cells ++ [cell]) =
      rowIssues row 1 cells ++ if isFormula cell then [issueAt (row, cells.length + 1)] else [] := by
  rw [rowIssues_append, Nat.add_comm 1, rowIssues_cons]
  rfl

namespace CsvReader

variable {r r' : CsvReader} {c : Char}

/-- A reader on its way through a text. -/
structure OnTheWay (r : CsvReader) : Prop where
  length_eq : r.fieldLen = r.field.length
  field_eq : r.state = .startRecord ∨ r.state = .startField ∨ r.state = .eatCrnl → r.field = []
  fields_eq : r.state = .startRecord → r.fields = []

/-- The reader is on the way at the start. -/
theorem onTheWay_empty : ({} : CsvReader).OnTheWay := ⟨rfl, fun _ => rfl, fun _ => rfl⟩

/-- The issues of the record so far. -/
def issuesSoFar (r : CsvReader) (n : Nat) : List String := rowIssues n 1 r.saveField.fields.reverse

/-- The issues so far are those of the finished cells and of the one being read. -/
theorem issuesSoFar_eq (r : CsvReader) (n : Nat) : r.issuesSoFar n = rowIssues n 1 r.fields.reverse ++
    if isFormula r.field.reverse then [issueAt (n, r.fields.length + 1)] else [] := by
  rw [issuesSoFar, saveField, List.reverse_cons, rowIssues_concat, List.length_reverse]

/-- An empty field has no issue. -/
theorem issuesSoFar_of_field (h : r.field = []) (n : Nat) : r.issuesSoFar n = rowIssues n 1 r.fields.reverse := by
  rw [issuesSoFar_eq, h]
  exact List.append_nil _

/-- Only the first character of a cell counts. -/
theorem issuesSoFar_push (r : CsvReader) (c : Char) (n : Nat) : (r.push [c]).issuesSoFar n =
    r.issuesSoFar n ++ if r.field = [] ∧ c ∈ formulaPrefixes then [issueAt (n, r.fields.length + 1)] else [] := by
  rw [issuesSoFar_eq, issuesSoFar_eq, List.append_assoc]
  congr 1
  have hfield : (r.push [c]).field.reverse = r.field.reverse ++ [c] := by simp [push]
  rw [hfield]
  by_cases h : r.field = []
  · simp [h, isFormula, push]
  · obtain ⟨d, ds, hds⟩ := List.exists_cons_of_ne_nil (mt List.reverse_eq_nil_iff.1 h)
    simp [h, hds, isFormula, push]

/-- **One character inside a row**: the reader stays on its way, and the issues grow as the lexer says. -/
structure Extends (r : CsvReader) (c : Char) (n : Nat) (r' : CsvReader) : Prop where
  onTheWay : r'.OnTheWay
  issues : r'.issuesSoFar n =
    r.issuesSoFar n ++ if r.cursor.Formula c then [issueAt (n, r.fields.length + 1)] else []
  place : r'.state ≠ .eatCrnl → (n, r'.fields.length + 1) = r.cursor.move c (n, r.fields.length + 1)

/-- A character that is added to a field. -/
theorem extends_push (h : r.OnTheWay) {s : CsvState} (hs : s = .inField ∨ s = .inQuotedField)
    (hc : r.state = .inQuotedField ∨ c ≠ '\n' ∧ c ≠ '\r' ∧ c ≠ ',') (n : Nat) :
    r.Extends c n { r.push [c] with state := s } where
  onTheWay := by
    refine ⟨?_, ?_, ?_⟩
    · simp [push, h.length_eq]
    · rcases hs with rfl | rfl <;> simp
    · rcases hs with rfl | rfl <;> simp
  issues := by
    have hformula : r.cursor.Formula c ↔ r.field = [] ∧ c ∈ formulaPrefixes := by
      have hreturn : c = '\r' → r.cursor.mode = .quoted := by
        rintro rfl
        exact mode_eq_quoted.2 (hc.resolve_right fun hne => hne.2.1 rfl)
      rw [CellCursor.Formula, ← List.length_eq_zero_iff, ← h.length_eq]
      exact ⟨fun hf => ⟨hf.1, hf.2.1⟩, fun hf => ⟨hf.1, hf.2, hreturn⟩⟩
    have hpush := issuesSoFar_push r c n
    simp only [hformula]
    exact hpush
  place := by
    intro _
    rw [CellCursor.move]
    by_cases hquoted : r.cursor.mode = .quoted
    · rw [if_pos hquoted]
      rfl
    · obtain ⟨hn, hr, hcomma⟩ := hc.resolve_left (mt mode_eq_quoted.2 hquoted)
      rw [if_neg hquoted, if_neg hn, if_neg (by simp [hcomma, hr])]
      rfl

/-- A character that is no formula of its own. -/
theorem not_formula (hc : c = '\x22' ∨ c = ',' ∨ c = '\n' ∨ c = '\r' ∧ r.state ≠ .inQuotedField) :
    ¬r.cursor.Formula c := by
  rintro ⟨-, hmem, hreturn⟩
  rcases hc with rfl | rfl | rfl | ⟨rfl, hs⟩
  · exact absurd hmem (by decide)
  · exact absurd hmem (by decide)
  · exact absurd hmem (by decide)
  · exact hs (mode_eq_quoted.1 (hreturn rfl))

/-- **What a character adds to the issues.** -/
theorem Steps.extends (hstep : r.Steps c r') (h : r.OnTheWay) (n : Nat) : r.Extends c n r' := by
  cases hstep with
  | add hs ho hc s hstate => exact extends_push h hstate (.inr hc) n
  | addQuoted hs hc =>
      have hpush := extends_push h (.inr rfl) (.inl hs) n (c := c)
      rwa [← hs] at hpush
  | opens hs hc =>
      subst hc
      refine ⟨⟨h.length_eq, by simp, by simp⟩, ?_, fun _ => ?_⟩
      · rw [if_neg (not_formula (.inl rfl)), List.append_nil]
        rfl
      · rcases hs with hs | hs <;> simp [CellCursor.move, cursor, mode, hs]
  | closes hs hc =>
      subst hc
      refine ⟨⟨h.length_eq, by simp, by simp⟩, ?_, fun _ => ?_⟩
      · rw [if_neg (not_formula (.inl rfl)), List.append_nil]
        rfl
      · simp [CellCursor.move, cursor, mode, hs]
  | comma hs ho hc =>
      subst hc
      refine ⟨⟨rfl, fun _ => rfl, by simp⟩, ?_, fun _ => ?_⟩
      · rw [if_neg (not_formula (.inr (.inl rfl))), List.append_nil, issuesSoFar_of_field rfl]
        rfl
      · -- outside of quotes a comma begins the next cell
        have hquoted : r.cursor.mode ≠ .quoted := mt mode_eq_quoted.1 hs
        rw [CellCursor.move, if_neg hquoted, if_neg (by decide), if_pos (.inl rfl)]
        rfl
  | lineBreak hs hc =>
      have hformula : ¬r.cursor.Formula c := not_formula (by rcases hc with rfl | rfl <;> simp [hs])
      by_cases hstart : r.state = .startRecord ∨ r.state = .eatCrnl
      · rw [if_pos hstart]
        -- an empty line has no cells
        have hfield : r.field = [] := h.field_eq (hstart.imp_right .inr)
        refine ⟨⟨h.length_eq, fun _ => hfield, by simp⟩, ?_, by simp⟩
        rw [if_neg hformula, List.append_nil]
        rfl
      · rw [if_neg hstart]
        refine ⟨⟨rfl, fun _ => rfl, by simp⟩, ?_, by simp⟩
        rw [if_neg hformula, List.append_nil]
        exact issuesSoFar_of_field rfl n

/-! ## Runs -/

/-- The issues at the end of a text. -/
theorem OnTheWay.tableIssues_lastRows (h : r.OnTheWay) (n : Nat) :
    tableIssues n r.lastRows = r.issuesSoFar n := by
  cases hs : r.state with
  | startRecord =>
      rw [issuesSoFar_of_field (h.field_eq (.inl hs)), h.fields_eq hs]
      simp [lastRows, hs, tableIssues, rowIssues]
  | eatCrnl =>
      rw [issuesSoFar_of_field (h.field_eq (.inr (.inr hs)))]
      simp [lastRows, hs, tableIssues]
  | _ => simp [lastRows, hs, tableIssues, issuesSoFar]

/-- After the end of a row the column does not matter: only line breaks can follow. -/
theorem Steps.extends_at {n col : Nat} (hstep : r.Steps c r') (h : r.OnTheWay)
    (hcol : r.state ≠ .eatCrnl → col = r.fields.length + 1) :
    r'.issuesSoFar n = r.issuesSoFar n ++ (if r.cursor.Formula c then [issueAt (n, col)] else []) ∧
      (r'.state ≠ .eatCrnl → r.cursor.move c (n, col) = (n, r'.fields.length + 1)) := by
  have hext := hstep.extends h n
  by_cases ho : r.state = .eatCrnl
  · have hover : r'.state = .eatCrnl ∧ ¬r.cursor.Formula c := by
      cases hstep with
      | add _ ho' => exact absurd ho ho'
      | addQuoted hs => simp [ho] at hs
      | opens hs => simp [ho] at hs
      | closes hs => simp [ho] at hs
      | comma _ ho' => exact absurd ho ho'
      | lineBreak hs hc =>
          refine ⟨?_, not_formula (by rcases hc with rfl | rfl <;> simp [hs])⟩
          rw [if_pos (.inr ho)]
    refine ⟨?_, fun hne => absurd hover.1 hne⟩
    rw [hext.issues, if_neg hover.2, if_neg hover.2]
  · rw [hcol ho]
    exact ⟨hext.issues, fun hne => (hext.place hne).symm⟩

/-- No character inside a row changes the row. -/
theorem move_fst {k : CellCursor} (hc : c = '\n' → k.mode = .quoted) (place : Nat × Nat) :
    (k.move c place).1 = place.1 := by
  unfold CellCursor.move
  by_cases hquoted : k.mode = .quoted
  · rw [if_pos hquoted]
  · rw [if_neg hquoted, if_neg (mt hc hquoted)]
    split <;> rfl

/-- **The issues of a text** from a reader on: those so far, and those at the places that the lexer finds. -/
theorem tableIssues_read {text : List Char} {rows : List (List (List Char))} {n col : Nat} (h : r.OnTheWay)
    (hsound : r.Sound) (hcol : r.state ≠ .eatCrnl → col = r.fields.length + 1)
    (hread : r.read text = .ok rows) : tableIssues n rows =
      r.issuesSoFar n ++ (formulaPlaces r.cursor (n, col) text).map issueAt := by
  induction text generalizing r rows n col with
  | nil =>
      rw [← Except.ok.inj hread, h.tableIssues_lastRows]
      exact (List.append_nil _).symm
  | cons c cs ih =>
      rw [read] at hread
      by_cases hbad : r.cursor.Bad c
      · obtain ⟨e, he⟩ := (hsound.follows c).bad hbad
        rw [he] at hread
        cases hread
      · obtain ⟨r', hr, hsound', hcursor⟩ := (hsound.follows c).good hbad
        have hstep := steps_of_processChar hr
        have hway := (hstep.extends h n).onTheWay
        obtain ⟨hissues, hplace⟩ := hstep.extends_at (n := n) h hcol
        simp only [hr, Except.bind] at hread
        rw [formulaPlaces, List.map_append, ← List.append_assoc]
        have hhere : List.map issueAt (if r.cursor.Formula c then [(n, col)] else []) =
            if r.cursor.Formula c then [issueAt (n, col)] else [] := by
          split <;> rfl
        rw [hhere, ← hissues]
        by_cases hend : c = '\n' ∧ r'.state ≠ .inQuotedField
        · -- the row is finished, and reading starts anew
          rw [if_pos hend] at hread
          rw [resume, if_pos hend] at hcursor
          obtain ⟨rows', hrows, rfl⟩ := map_eq_ok hread
          obtain ⟨rfl, hquoted⟩ := hend
          have hover : r'.state = .eatCrnl := (processChar_newline hr).resolve_right hquoted
          have hmode : r.cursor.mode ≠ .quoted := by
            intro hmode
            rcases processChar_inQuoted hr (mode_eq_quoted.1 hmode) with ⟨-, hc⟩ | ⟨hs, -⟩
            · exact absurd hc (by decide)
            · exact hquoted hs
          have hmove : r.cursor.move '\n' (n, col) = (n + 1, 1) := by
            rw [CellCursor.move, if_neg hmode, if_pos rfl]
          rw [tableIssues, ih onTheWay_empty sound_empty (fun _ => rfl) hrows, hcursor, hmove,
            issuesSoFar_of_field (hway.field_eq (.inr (.inr hover)))]
          rfl
        · rw [if_neg hend] at hread
          rw [resume, if_neg hend] at hsound' hcursor
          have hrow : (r.cursor.move c (n, col)).1 = n := by
            refine move_fst ?_ (n, col)
            intro hn
            by_contra hmode
            -- the newline would have ended the row
            rcases processChar_unquoted hr (mt mode_eq_quoted.2 hmode) with ⟨-, hover⟩ | ⟨hne, -⟩
            · exact hend ⟨hn, by simp [hover]⟩
            · exact hne hn
          have hmove : r.cursor.move c (n, col) = (n, (r.cursor.move c (n, col)).2) := Prod.ext hrow rfl
          rw [← hcursor, hmove]
          exact ih hway hsound' (fun hs => congrArg Prod.snd (hplace hs)) hread

end CsvReader

end TransferWorker
