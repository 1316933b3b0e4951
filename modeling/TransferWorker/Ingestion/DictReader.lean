import TransferWorker.Worker.CsvSecurity

/-! # `csv.DictReader`

The rows of a CSV text by the names in its header, as Python's `csv.DictReader` yields them: one after
the other, until the text ends or the reader raises.

* **`csvReader`** — the records of a text and the exception after them.
* **`dictReader`** — the rows after the header; `DictRow.getItem` is `row[name]`.
* **`intOfText`** — `int` of a text. -/

namespace TransferWorker

/-! ## The reader, one record after the other -/

/-- The records of the lines, and the exception that ends them. -/
def CsvReader.recordsUntil : CsvReader → List (List Char) → List (List (List Char)) × Option Exn
  | r, [] =>
      -- the end of the input finishes an open quoted field
      (if r.fieldLen ≠ 0 ∨ r.state = .inQuotedField then [r.saveField.fields.reverse] else [], none)
  | r, line :: lines =>
      match r.processLine line with
      | .error e => ([], some e)
      | .ok r =>
          if r.state = .startRecord then
            let (rows, e) := recordsUntil {} lines
            (r.fields.reverse :: rows, e)
          else recordsUntil r lines

/-- `list(reader)` is all the records, or the exception. -/
theorem CsvReader.records_eq (r : CsvReader) (lines : List (List Char)) :
    r.records lines = match r.recordsUntil lines with
      | (rows, none) => .ok rows
      | (_, some e) => .error e := by
  induction lines generalizing r with
  | nil =>
      rw [records, recordsUntil]
      split <;> rfl
  | cons line lines ih =>
      rw [records, recordsUntil]
      cases r.processLine line with
      | error e => rfl
      | ok r =>
          show (if r.state = .startRecord then
              (CsvReader.records {} lines).bind fun rest => .ok (r.fields.reverse :: rest)
            else r.records lines) = _
          by_cases hstart : r.state = .startRecord
          · simp only [hstart, if_true, ih]
            rcases CsvReader.recordsUntil {} lines with ⟨rows, _ | e⟩ <;> rfl
          · simp only [hstart, if_false]
            exact ih r

/-- `csv.reader(io.StringIO(text))` -/
def csvReader (text : List Char) : List (List (List Char)) × Option Exn :=
  CsvReader.recordsUntil {} (stringIoLines text)

/-- The rows of a text are those before the first error, and the error if there is one. -/
theorem csvRows_eq (text : List Char) : csvRows text = match csvReader text with
    | (rows, none) => .ok rows
    | (_, some e) => .error e := CsvReader.records_eq _ _

/-! ## Rows by name -/

/-- A row: the assignments that `DictReader` makes to its dictionary, in their order. -/
abbrev DictRow := List (String × Option String)

/-- The dictionary of a row: its cells under the names of the header, `None` for missing cells.
(Surplus cells go under the key `None`, which no text is equal to.) -/
def dictRow (fieldnames row : List String) : DictRow :=
  ((fieldnames.zip row).map fun (name, cell) => (name, some cell)) ++
    (fieldnames.drop row.length).map fun name => (name, none)

/-- `row[name]`: of repeated assignments the last one counts. -/
def DictRow.getItem (name : String) (row : DictRow) : Except Exn (Option String) :=
  match row.reverse.lookup name with
  | some cell => .ok cell
  | none => .error (.other "KeyError")

/-- The rows after the first one, which is the header; rows without cells are skipped. -/
def dictRows : List (List String) → List DictRow
  | [] => []
  | header :: rows => (rows.filter fun row => row ≠ []).map (dictRow header)

/-- **`csv.DictReader(io.StringIO(text))`** -/
def dictReader (text : List Char) : List DictRow × Option Exn :=
  let (rows, e) := csvReader text
  (dictRows (rows.map (List.map String.ofList)), e)

/-! ## Integers -/

/-- `int(text)`: white space around a decimal number with an optional sign and single underscores
between its digits; at most 4300 digits. -/
def intOfText (text : String) : Except Exn Int :=
  let body := stripChars isAsciiSpace (asciiDigits text.toList)
  let (neg, numeral) :=
    match body with
    | '+' :: rest => (false, rest)
    | '-' :: rest => (true, rest)
    | _ => (false, body)
  let digits := numeral.filter (· ≠ '_')
  if !isHexNumeral isAsciiDigit numeral then
    .error (.value ("invalid literal for int() with base 10: " ++ text))
  else if digits.length > 4300 then
    .error (.value "Exceeds the limit (4300 digits) for integer string conversion")
  else .ok (if neg then -(decimalValue digits : Int) else decimalValue digits)

/-- `int(cell)` -/
def intOfCell : Option String → Except Exn Int
  | none => .error (.other "TypeError")
  | some text => intOfText text

end TransferWorker
