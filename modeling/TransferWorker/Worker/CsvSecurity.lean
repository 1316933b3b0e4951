import TransferWorker.Worker.Operations

/-! # The CSV security scan

`scan_csv_file`: size limit, NUL bytes, encoding, and cells that a spreadsheet program takes for
formulas. The cells are those of Python's `csv.reader` in its default dialect, over the lines of an
`io.StringIO`; the reader is transcribed state by state from the C implementation.

* **`CsvReader`** — the state of the reader; `none` as a character is the end of a line.
* **`scanBytes`** — everything after the size check. -/

namespace TransferWorker

open CallTrees

/-! ## `csv.reader` -/

/-- The states of the reader that the default dialect reaches. -/
inductive CsvState where
  /-- At the start of a record. -/
  | startRecord
  /-- At the start of a field. -/
  | startField
  /-- In an unquoted field. -/
  | inField
  /-- In a quoted field. -/
  | inQuotedField
  /-- After a quotation mark in a quoted field. -/
  | quoteInQuotedField
  /-- After the line break that ended a record. -/
  | eatCrnl
deriving DecidableEq

/-- The reader: its state, the fields of the record so far and the characters of the field so far,
the last one first in both. -/
structure CsvReader where
  /-- The state. -/
  state : CsvState := .startRecord
  /-- The finished fields, reversed. -/
  fields : List (List Char) := []
  /-- The characters of the unfinished field, reversed. -/
  field : List Char := []
  /-- The number of these characters. -/
  fieldLen : Nat := 0

namespace CsvReader

/-- `csv.field_size_limit()` -/
def fieldLimit : Nat := 131072

/-- `parse_add_char` -/
def addChar (r : CsvReader) (c : Char) : Except Exn CsvReader :=
  if r.fieldLen ≥ fieldLimit then .error (.csv "field larger than field limit (131072)")
  else .ok { r with field := c :: r.field, fieldLen := r.fieldLen + 1 }

/-- `parse_save_field` -/
def saveField (r : CsvReader) : CsvReader :=
  { r with fields := r.field.reverse :: r.fields, field := [], fieldLen := 0 }

/-- The end of a line or of a record in a field that ends there. -/
def endRecord (r : CsvReader) (c : Option Char) : CsvReader :=
  { r.saveField with state := if c = none then .startRecord else .eatCrnl }

/-- A line break character, or the end of the line. -/
def isBreak (c : Option Char) : Bool := c = none || c = some '\n' || c = some '\r'

/-- `START_FIELD` -/
def processStartField (r : CsvReader) (c : Option Char) : Except Exn CsvReader :=
  if isBreak c then .ok (r.endRecord c)
  else match c with
    | none => .ok r
    | some c =>
        if c = '\x22' then .ok { r with state := .inQuotedField }
        else if c = ',' then .ok { r.saveField with state := .startField }
        else (r.addChar c).map fun r => { r with state := .inField }

/-- `parse_process_char` -/
def processChar (r : CsvReader) (c : Option Char) : Except Exn CsvReader :=
  match r.state with
  | .startRecord =>
      if c = none then .ok r
      else if isBreak c then .ok { r with state := .eatCrnl }
      else processStartField r c
  | .startField => processStartField r c
  | .inField =>
      if isBreak c then .ok (r.endRecord c)
      else match c with
        | none => .ok r
        | some c => if c = ',' then .ok { r.saveField with state := .startField } else r.addChar c
  | .inQuotedField =>
      match c with
      | none => .ok r
      | some c =>
          if c = '\x22' then .ok { r with state := .quoteInQuotedField } else r.addChar c
  | .quoteInQuotedField =>
      if isBreak c then .ok (r.endRecord c)
      else match c with
        | none => .ok r
        | some c =>
            if c = '\x22' then (r.addChar c).map fun r => { r with state := .inQuotedField }
            else if c = ',' then .ok { r.saveField with state := .startField }
            else (r.addChar c).map fun r => { r with state := .inField }
  | .eatCrnl =>
      if c = none then .ok { r with state := .startRecord }
      else if isBreak c then .ok r
      else .error (.csv
        "new-line character seen in unquoted field - do you need to open the file with newline=''?")

/-- The characters of a line, and its end. -/
def processLine : CsvReader → List Char → Except Exn CsvReader
  | r, [] => r.processChar none
  | r, c :: cs => (r.processChar (some c)).bind fun r => processLine r cs

/-- The records of the lines, from a reader inside a record or at its start. -/
def records : CsvReader → List (List Char) → Except Exn (List (List (List Char)))
  | r, [] =>
      -- the end of the input finishes an open quoted field
      if r.fieldLen ≠ 0 ∨ r.state = .inQuotedField then .ok [r.saveField.fields.reverse] else .ok []
  | r, line :: lines => do
      let r ← r.processLine line
      if r.state = .startRecord then
        let rest ← records {} lines
        return r.fields.reverse :: rest
      else records r lines

end CsvReader

/-- The lines of an `io.StringIO`, each with its final newline. -/
def stringIoLines : List Char → List (List Char)
  | [] => []
  | c :: cs =>
      match c, stringIoLines cs with
      | '\n', lines => ['\n'] :: lines
      | c, [] => [[c]]
      | c, line :: lines => (c :: line) :: lines

/-- `list(csv.reader(io.StringIO(text)))` -/
def csvRows (text : List Char) : Except Exn (List (List (List Char))) :=
  CsvReader.records {} (stringIoLines text)

/-! ## The scan -/

/-- `_FORMULA_PREFIXES` -/
def formulaPrefixes : List Char := ['=', '+', '-', '@', '\t', '\r']

/-- `cell.startswith(_FORMULA_PREFIXES)` -/
def isFormula : List Char → Bool
  | [] => false
  | c :: _ => formulaPrefixes.contains c

/-- The issues of a row, from the column `col` on. -/
def rowIssues (row : Nat) : Nat → List (List Char) → List String
  | _, [] => []
  | col, cell :: cells =>
      if isFormula cell then
        ("formula_injection:row=" ++ toString row ++ ",col=" ++ toString col) ::
          rowIssues row (col + 1) cells
      else rowIssues row (col + 1) cells

/-- The issues of all rows, from the row `row` on. -/
def tableIssues : Nat → List (List (List Char)) → List String
  | _, [] => []
  | row, cells :: rows => rowIssues row 1 cells ++ tableIssues (row + 1) rows

/-- A UTF-8 continuation byte. -/
def isContinuation (b : UInt8) : Bool := 0x80 ≤ b && b < 0xC0

/-- The reason of the `UnicodeDecodeError` that decoding as UTF-8 raises. -/
def utf8ErrorReason : List UInt8 → String
  | [] => "unexpected end of data"
  | b :: bs =>
      if b < 0x80 then utf8ErrorReason bs
      else if b < 0xC2 then "invalid start byte"
      else if b < 0xE0 then
        match bs with
        | [] => "unexpected end of data"
        | c :: bs =>
            if isContinuation c then utf8ErrorReason bs else "invalid continuation byte"
      else if b < 0xF0 then
        match bs with
        | [] => "unexpected end of data"
        | c :: bs =>
            if !isContinuation c || (b = 0xE0 && c < 0xA0) || (b = 0xED && 0xA0 ≤ c) then
              "invalid continuation byte"
            else match bs with
              | [] => "unexpected end of data"
              | d :: bs =>
                  if isContinuation d then utf8ErrorReason bs else "invalid continuation byte"
      else if b < 0xF5 then
        match bs with
        | [] => "unexpected end of data"
        | c :: bs =>
            if !isContinuation c || (b = 0xF0 && c < 0x90) || (b = 0xF4 && 0x90 ≤ c) then
              "invalid continuation byte"
            else match bs with
              | [] => "unexpected end of data"
              | d :: bs =>
                  if !isContinuation d then "invalid continuation byte"
                  else match bs with
                    | [] => "unexpected end of data"
                    | e :: bs =>
                        if isContinuation e then utf8ErrorReason bs
                        else "invalid continuation byte"
      else "invalid start byte"

/-- **The scan of a content** that is within the size limit. -/
def scanBytes (raw : ByteArray) : Except Exn (List String) :=
  if raw.data.contains 0 then .ok ["binary_content:null_byte"]
  else
    match String.fromUTF8? raw with
    | none => .ok ["invalid_encoding:" ++ utf8ErrorReason raw.data.toList]
    | some text => (csvRows text.toList).map (tableIssues 1)

/-- **`scan_csv_file`** -/
def scanCsvFile (path : Path) (settings : Settings) : Prog (List String) := do
  let sizeBytes ← call (.getsize path)
  if settings.maxCsvFileSizeBytes < (sizeBytes : Int) then
    return ["file_too_large:" ++ toString sizeBytes ++ ">" ++
      toString settings.maxCsvFileSizeBytes]
  let raw ← call (.readFile path)
  pureCall (scanBytes raw)

end TransferWorker
