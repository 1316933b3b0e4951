import TransferWorker.Worker.CsvSecurity

/-! # The reader on a text

`csv.reader` is fed line by line, but a line break tells it nothing that the newline character has not
told it. Here it reads a text character by character.

* **`CsvReader.read`** — the rows of a text; `csvRows_eq_read` says they are those of the lines. -/

namespace TransferWorker

namespace CsvReader

/-- The rows at the end of a text: an open record is finished. -/
def lastRows (r : CsvReader) : List (List (List Char)) :=
  match r.state with
  | .startRecord => []
  | .eatCrnl => [r.fields.reverse]
  | _ => [r.saveField.fields.reverse]

/-- **The rows of a text** from the next character on: a newline ends the record unless it is quoted. -/
def read : CsvReader → List Char → Except Exn (List (List (List Char)))
  | r, [] => .ok r.lastRows
  | r, c :: cs => (r.processChar (some c)).bind fun r =>
      if c = '\n' ∧ r.state ≠ .inQuotedField then (read {} cs).map (r.fields.reverse :: ·)
      else read r cs

/-- The rows at the end of a text. -/
theorem read_nil (r : CsvReader) : r.read [] = .ok r.lastRows := rfl

/-- A character that is no newline, and the rest. -/
theorem read_cons (r : CsvReader) {c : Char} (hc : c ≠ '\n') (cs : List Char) :
    r.read (c :: cs) = (r.processChar (some c)).bind fun r => r.read cs := by
  simp only [read, hc, false_and, if_false]

variable {r r' : CsvReader} {c : Char}

/-! ## Single characters -/

/-- A character is added below the limit on fields. -/
theorem addChar_eq_ok : r.addChar c = .ok r' ↔
    r.fieldLen < fieldLimit ∧ r' = { r with field := c :: r.field, fieldLen := r.fieldLen + 1 } := by
  unfold addChar
  by_cases h : r.fieldLen ≥ fieldLimit
  · rw [if_pos h]
    simp [not_lt.2 h]
  · rw [if_neg h]
    simp [not_le.1 h, eq_comm]

/-- A character that is added to a field changes only the field. -/
theorem addChar_keeps (h : r.addChar c = .ok r') : r'.state = r.state ∧ r'.fields = r.fields := by
  obtain ⟨-, rfl⟩ := addChar_eq_ok.1 h
  exact ⟨rfl, rfl⟩

/-- A value is computed from one that was read. -/
theorem map_eq_ok {α β : Type} {f : α → β} {x : Except Exn α} {b : β} (h : x.map f = .ok b) :
    ∃ a, x = .ok a ∧ b = f a := by
  cases x with
  | error e => cases h
  | ok a => exact ⟨a, rfl, (Except.ok.inj h).symm⟩

/-! What a character does to a reader, by its class: a line break, a quotation mark, a comma, and any
other character. -/

/-- A line break outside of a quoted field ends the record. -/
theorem processChar_break (hc : c = '\n' ∨ c = '\r') (hs : r.state ≠ .inQuotedField) :
    r.processChar (some c) = .ok (if r.state = .startRecord ∨ r.state = .eatCrnl then
      { r with state := .eatCrnl } else { r.saveField with state := .eatCrnl }) := by
  obtain ⟨state, fields, field, fieldLen⟩ := r
  have hbreak : isBreak (some c) = true := by rcases hc with rfl | rfl <;> rfl
  cases state <;> simp [processChar, processStartField, hbreak, endRecord, saveField] at hs ⊢

/-- After the end of a record only line breaks may follow on the line. -/
theorem processChar_eatCrnl (hc : ¬(c = '\n' ∨ c = '\r')) (hs : r.state = .eatCrnl) :
    ∃ e, r.processChar (some c) = .error e := by
  have hbreak : isBreak (some c) = false := by simpa [isBreak] using hc
  refine ⟨.csv
    "new-line character seen in unquoted field - do you need to open the file with newline=''?", ?_⟩
  rw [processChar, hs]
  simp [hbreak]

/-- A comma outside of a quoted field ends the field. -/
theorem processChar_comma (hs : r.state ≠ .inQuotedField) (hs' : r.state ≠ .eatCrnl) :
    r.processChar (some ',') = .ok { r.saveField with state := .startField } := by
  obtain ⟨state, fields, field, fieldLen⟩ := r
  cases state <;> simp [processChar, processStartField, isBreak, saveField] at hs hs' ⊢

/-- A quotation mark starts a quoted field at the start of a field. -/
theorem processChar_quote_start (hs : r.state = .startRecord ∨ r.state = .startField) :
    r.processChar (some '\x22') = .ok { r with state := .inQuotedField } := by
  rcases hs with hs | hs <;> simp [processChar, processStartField, isBreak, hs]

/-- It may end one. -/
theorem processChar_quote_end (hs : r.state = .inQuotedField) :
    r.processChar (some '\x22') = .ok { r with state := .quoteInQuotedField } := by
  simp [processChar, hs]

/-- Twice, it is a character of the field. -/
theorem processChar_quote_twice (hs : r.state = .quoteInQuotedField) :
    r.processChar (some '\x22') = (r.addChar '\x22').map fun r => { r with state := .inQuotedField } := by
  simp [processChar, isBreak, hs]

/-- In an unquoted field it is a character like others. -/
theorem processChar_quote_field (hs : r.state = .inField) :
    r.processChar (some '\x22') = r.addChar '\x22' := by
  simp [processChar, isBreak, hs]

/-- All characters but the quotation mark are added to a quoted field. -/
theorem processChar_quoted (hc : c ≠ '\x22') (hs : r.state = .inQuotedField) :
    r.processChar (some c) = r.addChar c := by
  simp [processChar, hs, hc]

/-- Any other character is added to an unquoted field. -/
theorem processChar_other (hc : ¬(c = '\n' ∨ c = '\r')) (hq : c ≠ '\x22') (hcomma : c ≠ ',')
    (hs : r.state ≠ .inQuotedField) (hs' : r.state ≠ .eatCrnl) :
    r.processChar (some c) = (r.addChar c).map fun r => { r with state := .inField } := by
  obtain ⟨state, fields, field, fieldLen⟩ := r
  have hbreak : isBreak (some c) = false := by simpa [isBreak] using hc
  cases state <;> simp [processChar, processStartField, hbreak, hq, hcomma] at hs hs' ⊢
  -- an unquoted field stays one
  simp only [addChar]
  split <;> rfl

/-- The reader with more characters of its field read. -/
def push (r : CsvReader) (cs : List Char) : CsvReader :=
  { r with field := cs.reverse ++ r.field, fieldLen := r.fieldLen + cs.length }

/-- **What a character does to a reader.** -/
inductive Steps (r : CsvReader) (c : Char) : CsvReader → Prop
  /-- It is added to a field, which is quoted again if the character doubles a quotation mark. -/
  | add (hs : r.state ≠ .inQuotedField) (ho : r.state ≠ .eatCrnl) (hc : c ≠ '\n' ∧ c ≠ '\r' ∧ c ≠ ',')
      (s : CsvState) (hstate : s = .inField ∨ s = .inQuotedField) : Steps r c { r.push [c] with state := s }
  /-- It is added to a quoted field. -/
  | addQuoted (hs : r.state = .inQuotedField) (hc : c ≠ '\x22') : Steps r c (r.push [c])
  /-- It opens a quoted field. -/
  | opens (hs : r.state = .startRecord ∨ r.state = .startField) (hc : c = '\x22') :
      Steps r c { r with state := .inQuotedField }
  /-- It may close one. -/
  | closes (hs : r.state = .inQuotedField) (hc : c = '\x22') : Steps r c { r with state := .quoteInQuotedField }
  /-- It ends a field. -/
  | comma (hs : r.state ≠ .inQuotedField) (ho : r.state ≠ .eatCrnl) (hc : c = ',') :
      Steps r c { r.saveField with state := .startField }
  /-- It ends a record. -/
  | lineBreak (hs : r.state ≠ .inQuotedField) (hc : c = '\n' ∨ c = '\r') :
      Steps r c (if r.state = .startRecord ∨ r.state = .eatCrnl then { r with state := .eatCrnl }
        else { r.saveField with state := .eatCrnl })

/-- A character on which the reader does not raise does one of these things. -/
theorem steps_of_processChar (h : r.processChar (some c) = .ok r') : r.Steps c r' := by
  by_cases hs : r.state = .inQuotedField
  · by_cases hq : c = '\x22'
    · rw [hq, processChar_quote_end hs] at h
      rw [← Except.ok.inj h]
      exact .closes hs hq
    · rw [processChar_quoted hq hs] at h
      rw [(addChar_eq_ok.1 h).2]
      exact .addQuoted hs hq
  · -- outside of quotes a line break ends the row whatever the state is
    by_cases hbreak : c = '\n' ∨ c = '\r'
    · rw [processChar_break hbreak hs] at h
      rw [← Except.ok.inj h]
      exact .lineBreak hs hbreak
    · -- after a line break nothing else may come in the line
      have ho : r.state ≠ .eatCrnl := by
        intro ho
        obtain ⟨e, he⟩ := processChar_eatCrnl hbreak ho
        rw [he] at h
        cases h
      obtain ⟨hn, hr⟩ := not_or.1 hbreak
      by_cases hcomma : c = ','
      · rw [hcomma, processChar_comma hs ho] at h
        rw [← Except.ok.inj h]
        exact .comma hs ho hcomma
      · by_cases hq : c = '\x22'
        · subst hq
          cases hstate : r.state with
          | startRecord =>
              rw [processChar_quote_start (.inl hstate)] at h
              rw [← Except.ok.inj h]
              exact .opens (.inl hstate) rfl
          | startField =>
              rw [processChar_quote_start (.inr hstate)] at h
              rw [← Except.ok.inj h]
              exact .opens (.inr hstate) rfl
          | inField =>
              rw [processChar_quote_field hstate] at h
              have hadd := Steps.add hs ho ⟨hn, hr, hcomma⟩ .inField (.inl rfl)
              rw [(addChar_eq_ok.1 h).2]
              rwa [← hstate] at hadd
          | inQuotedField => exact absurd hstate hs
          | quoteInQuotedField =>
              rw [processChar_quote_twice hstate] at h
              obtain ⟨r₁, hadd, rfl⟩ := map_eq_ok h
              rw [(addChar_eq_ok.1 hadd).2]
              exact .add hs ho ⟨hn, hr, hcomma⟩ .inQuotedField (.inr rfl)
          | eatCrnl => exact absurd hstate ho
        · rw [processChar_other hbreak hq hcomma hs ho] at h
          obtain ⟨r₁, hadd, rfl⟩ := map_eq_ok h
          rw [(addChar_eq_ok.1 hadd).2]
          exact .add hs ho ⟨hn, hr, hcomma⟩ .inField (.inl rfl)

/-- **A character outside of a quoted field** leads to one of these states. -/
theorem processChar_unquoted (h : r.processChar (some c) = .ok r') (hs : r.state ≠ .inQuotedField) :
    ((c = '\n' ∨ c = '\r') ∧ r'.state = .eatCrnl) ∨
      (c ≠ '\n' ∧ c ≠ '\r' ∧ r.state ≠ .eatCrnl ∧ r'.state ≠ .startRecord ∧ r'.state ≠ .eatCrnl) := by
  cases steps_of_processChar h with
  | add _ ho hc s hstate => exact .inr ⟨hc.1, hc.2.1, ho, by rcases hstate with rfl | rfl <;> simp⟩
  | addQuoted hs' _ => exact absurd hs' hs
  | opens hs' hc =>
      subst hc
      exact .inr ⟨by decide, by decide, by rcases hs' with hs' | hs' <;> simp [hs'], by simp, by simp⟩
  | closes hs' _ => exact absurd hs' hs
  | comma _ ho hc =>
      subst hc
      exact .inr ⟨by decide, by decide, ho, by simp, by simp⟩
  | lineBreak _ hc => exact .inl ⟨hc, by split <;> rfl⟩

/-- After a newline the record is over, or the newline is in a quoted field. -/
theorem processChar_newline (h : r.processChar (some '\n') = .ok r') :
    r'.state = .eatCrnl ∨ r'.state = .inQuotedField := by
  by_cases hs : r.state = .inQuotedField
  · rw [processChar_quoted (by decide) hs] at h
    exact .inr ((addChar_keeps h).1.trans hs)
  · rcases processChar_unquoted h hs with ⟨-, hr⟩ | ⟨hn, -⟩
    · exact .inl hr
    · exact absurd rfl hn

/-- A character in a quoted field leads to a quoted field or to a quotation mark in one. -/
theorem processChar_inQuoted (h : r.processChar (some c) = .ok r') (hs : r.state = .inQuotedField) :
    r'.state = .quoteInQuotedField ∧ c = '\x22' ∨ r'.state = .inQuotedField ∧ c ≠ '\x22' := by
  cases steps_of_processChar h with
  | add hs' => exact absurd hs hs'
  | addQuoted _ hc => exact .inr ⟨hs, hc⟩
  | opens hs' => rcases hs' with hs' | hs' <;> simp [hs] at hs'
  | closes _ hc => exact .inl ⟨rfl, hc⟩
  | comma hs' => exact absurd hs hs'
  | lineBreak hs' => exact absurd hs hs'

/-- After a character the reader is not at the start of a record. -/
theorem processChar_state (h : r.processChar (some c) = .ok r') : r'.state ≠ .startRecord := by
  by_cases hs : r.state = .inQuotedField
  · rcases processChar_inQuoted h hs with ⟨hr, -⟩ | ⟨hr, -⟩ <;> simp [hr]
  · rcases processChar_unquoted h hs with ⟨-, hr⟩ | ⟨-, -, -, hr, -⟩
    · simp [hr]
    · exact hr

/-! ## Lines -/

/-- What becomes of a reader at the end of a line. -/
def afterLine (lines : List (List Char)) (r : CsvReader) : Except Exn (List (List (List Char))) :=
  if r.state = .startRecord then (records {} lines).map (r.fields.reverse :: ·) else records r lines

/-- The records of a line and of the lines after it. -/
theorem records_cons (r : CsvReader) (line : List Char) (lines : List (List Char)) :
    records r (line :: lines) = (r.processLine line).bind (afterLine lines) := by
  rw [records]
  cases r.processLine line with
  | error e => rfl
  | ok r =>
      simp only [bind, Except.bind, afterLine]
      split
      · cases records {} lines <;> rfl
      · rfl

/-- The records of the rest of a line and of the lines after it. -/
def recordsInLine (r : CsvReader) (text : List Char) : Except Exn (List (List (List Char))) :=
  (r.processLine ((stringIoLines text).headD [])).bind (afterLine (stringIoLines text).tail)

/-- A newline is a line of its own. -/
theorem stringIoLines_newline (cs : List Char) : stringIoLines ('\n' :: cs) = ['\n'] :: stringIoLines cs := rfl

/-- A character other than a newline is put before the first line. -/
theorem stringIoLines_cons (hc : c ≠ '\n') (cs : List Char) : stringIoLines (c :: cs) =
    (c :: (stringIoLines cs).headD []) :: (stringIoLines cs).tail := by
  conv_lhs => unfold stringIoLines
  split
  · exact absurd rfl hc
  · rename_i hlines
    rw [hlines]
    rfl
  · rename_i hlines
    rw [hlines]
    rfl

/-- A character within a line. -/
theorem recordsInLine_cons (hc : c ≠ '\n') (cs : List Char) : r.recordsInLine (c :: cs) =
    (r.processChar (some c)).bind fun r => r.recordsInLine cs := by
  rw [recordsInLine, stringIoLines_cons hc, List.headD_cons, List.tail_cons, processLine]
  cases r.processChar (some c) <;> rfl

/-- The newline at the end of a line. -/
theorem recordsInLine_newline (cs : List Char) : r.recordsInLine ('\n' :: cs) =
    (r.processChar (some '\n')).bind fun r => (r.processChar none).bind (afterLine (stringIoLines cs)) := by
  rw [recordsInLine, stringIoLines_newline, List.headD_cons, List.tail_cons, processLine]
  cases r.processChar (some '\n') <;> rfl

/-- Lines are read character by character. -/
theorem records_eq_recordsInLine {text : List Char} (h : text ≠ []) :
    records r (stringIoLines text) = r.recordsInLine text := by
  cases text with
  | nil => exact absurd rfl h
  | cons c cs =>
      by_cases hc : c = '\n'
      · subst hc
        rw [stringIoLines_newline, records_cons]
        rfl
      · rw [stringIoLines_cons hc, records_cons, recordsInLine, stringIoLines_cons hc]
        rfl

/-- The end of a text in the middle of a line. -/
theorem recordsInLine_nil (hs : r.state ≠ .startRecord) : r.recordsInLine [] = r.read [] := by
  obtain ⟨state, fields, field, fieldLen⟩ := r
  cases state <;>
    simp [recordsInLine, stringIoLines, processLine, processChar, processStartField, isBreak, endRecord,
      afterLine, records, read, lastRows, saveField, Except.bind, Except.map] at hs ⊢

/-- **Reading lines is reading characters**, in the middle of a line and at its start. -/
theorem records_eq_read (text : List Char) :
    (∀ r : CsvReader, r.state ≠ .startRecord → r.recordsInLine text = r.read text) ∧
      ∀ r : CsvReader, r = {} ∨ r.state = .inQuotedField → records r (stringIoLines text) = r.read text := by
  induction text with
  | nil =>
      refine ⟨fun r hs => recordsInLine_nil hs, ?_⟩
      rintro r (rfl | hs)
      · rfl
      · simp [stringIoLines, records, read, lastRows, hs]
  | cons c cs ih =>
      have hline : ∀ r : CsvReader, r.recordsInLine (c :: cs) = r.read (c :: cs) := by
        intro r
        by_cases hc : c = '\n'
        · subst hc
          rw [recordsInLine_newline, read]
          cases hr : r.processChar (some '\n') with
          | error e => rfl
          | ok r' =>
              rcases processChar_newline hr with hs | hs
              · -- the record is over: the end of the line starts the next one
                have hend : r'.processChar none = .ok { r' with state := .startRecord } := by
                  simp [processChar, hs]
                simp only [Except.bind, hend, afterLine, hs]
                rw [if_pos trivial, if_pos ⟨trivial, by simp⟩, ih.2 {} (.inl rfl)]
              · have hend : r'.processChar none = .ok r' := by simp [processChar, hs]
                simp only [Except.bind, hend, afterLine, hs]
                rw [if_neg (by simp), if_neg (by simp), ih.2 r' (.inr hs)]
        · rw [recordsInLine_cons hc, read_cons r hc]
          cases hr : r.processChar (some c) with
          | error e => rfl
          | ok r' => exact ih.1 r' (processChar_state hr)
      refine ⟨fun r _ => hline r, ?_⟩
      intro r _
      rw [records_eq_recordsInLine (List.cons_ne_nil c cs), hline]

/-! ## Finished fields -/

end CsvReader

/-- **The rows of a text are those that the reader finds character by character.** -/
theorem csvRows_eq_read (text : List Char) : csvRows text = CsvReader.read {} text :=
  (CsvReader.records_eq_read text).2 {} (.inl rfl)

end TransferWorker
