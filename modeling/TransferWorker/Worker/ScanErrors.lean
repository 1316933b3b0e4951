import Mathlib.Data.List.Induction
import TransferWorker.CallTrees.Trace
import TransferWorker.Worker.CsvText

/-! # When the scan raises

`csv.reader` raises on a carriage return in the middle of a line and on a field that is too long. Which
texts have one is said by a small lexer that only knows where in a cell it is and how long the cell is.

* **`cursorAfter`** — the lexer.
* **`StrayReturn`**, **`LongCell`** — the two faults of a text; `csvRows_error_iff` says that the reader
  raises on these texts and on no others.
* **`scan_decides_iff`** — the contents on which `scan_csv_file` comes to a decision. -/

namespace TransferWorker

open CallTrees

/-! ## The lexer -/

/-- Where in a cell a text ends. -/
inductive CellMode where
  /-- Nothing of the cell has been read. -/
  | start
  /-- In a cell without quotation marks around it. -/
  | bare
  /-- Between quotation marks. -/
  | quoted
  /-- After a quotation mark between quotation marks: the last one, or the first half of a doubled one. -/
  | quote
  /-- After a carriage return that ended a row. -/
  | broken
deriving DecidableEq

/-- The lexer: the mode and the number of characters of the cell. -/
structure CellCursor where
  /-- The mode. -/
  mode : CellMode := .start
  /-- The characters of the cell so far. -/
  length : Nat := 0

/-- The next character. -/
def CellCursor.next (k : CellCursor) (c : Char) : CellCursor :=
  if k.mode = .quoted then
    if c = '\x22' then { k with mode := .quote } else { k with length := k.length + 1 }
  else if c = '\n' ∨ c = ',' then { mode := .start, length := 0 }
  else if c = '\r' then { mode := .broken, length := 0 }
  else if c = '\x22' ∧ k.mode = .start then { mode := .quoted, length := 0 }
  else if c = '\x22' ∧ k.mode = .quote then { mode := .quoted, length := k.length + 1 }
  else { mode := .bare, length := k.length + 1 }

/-- **The lexer after a text.** -/
def cursorAfter (text : List Char) : CellCursor := text.foldl CellCursor.next {}

/-- **A stray carriage return**: outside of quotation marks, and the line goes on after it. -/
def StrayReturn (text : List Char) : Prop :=
  ∃ before c after, text = before ++ '\r' :: c :: after ∧ (cursorAfter before).mode ≠ .quoted ∧
    c ≠ '\n' ∧ c ≠ '\r'

/-- **A cell that is too long.** -/
def LongCell (text : List Char) : Prop :=
  ∃ before, before <+: text ∧ CsvReader.fieldLimit < (cursorAfter before).length

/-- The next character is one on which the reader raises. -/
def CellCursor.Bad (k : CellCursor) (c : Char) : Prop :=
  (k.mode = .broken ∧ c ≠ '\n' ∧ c ≠ '\r') ∨ CsvReader.fieldLimit < (k.next c).length

/-- The lexer comes to such a character. -/
def CellCursor.Faulty : CellCursor → List Char → Prop
  | _, [] => False
  | k, c :: cs => k.Bad c ∨ (k.next c).Faulty cs

/-- A text is faulty if some character in it is bad for the cursor that reaches it. -/
theorem CellCursor.faulty_iff (k : CellCursor) (text : List Char) : k.Faulty text ↔
    ∃ before c after, text = before ++ c :: after ∧ (before.foldl CellCursor.next k).Bad c := by
  induction text generalizing k with
  | nil => simp [Faulty]
  | cons c cs ih =>
      rw [Faulty, ih]
      constructor
      · rintro (hbad | ⟨before, c', after, rfl, hbad⟩)
        · exact ⟨[], c, cs, rfl, hbad⟩
        · exact ⟨c :: before, c', after, rfl, hbad⟩
      · rintro ⟨before, c', after, htext, hbad⟩
        cases before with
        | nil =>
            obtain ⟨rfl, -⟩ := List.cons.inj htext
            exact .inl hbad
        | cons b before =>
            obtain ⟨rfl, rfl⟩ := List.cons.inj htext
            exact .inr ⟨before, c', after, rfl, hbad⟩

/-! ## The lexer and the reader -/

namespace CsvReader

/-- The mode of a state. -/
def mode : CsvState → CellMode
  | .startRecord => .start
  | .startField => .start
  | .inField => .bare
  | .inQuotedField => .quoted
  | .quoteInQuotedField => .quote
  | .eatCrnl => .broken

/-- The reader is within quotes in one state. -/
theorem mode_eq_quoted {s : CsvState} : mode s = .quoted ↔ s = .inQuotedField := by
  cases s <;> simp [mode]

/-- It waits for a line break in one state. -/
theorem mode_eq_broken {s : CsvState} : mode s = .broken ↔ s = .eatCrnl := by
  cases s <;> simp [mode]

/-- What the lexer knows of a reader. -/
def cursor (r : CsvReader) : CellCursor := ⟨mode r.state, r.fieldLen⟩

/-- A reader that has not raised. -/
structure Sound (r : CsvReader) : Prop where
  /-- Its field is not too long. -/
  length_le : r.fieldLen ≤ fieldLimit
  /-- A field that has not begun is empty. -/
  length_eq : r.state = .startRecord ∨ r.state = .startField ∨ r.state = .eatCrnl → r.fieldLen = 0

/-- Where reading goes on after a character. -/
def resume (r : CsvReader) (c : Char) : CsvReader :=
  if c = '\n' ∧ r.state ≠ .inQuotedField then {} else r

/-- The reader is sound at the start. -/
theorem sound_empty : ({} : CsvReader).Sound := ⟨Nat.zero_le _, fun _ => rfl⟩

variable {r r' : CsvReader} {c : Char}

/-- Reading goes on, up to the rows that are finished. -/
theorem read_error_cons (hr : r.processChar (some c) = .ok r') (cs : List Char) :
    (∃ e, r.read (c :: cs) = .error e) ↔ ∃ e, (r'.resume c).read cs = .error e := by
  rw [read, hr]
  simp only [Except.bind, resume]
  by_cases hend : c = '\n' ∧ r'.state ≠ .inQuotedField
  · rw [if_pos hend, if_pos hend]
    cases read {} cs with
    | error e => exact Iff.rfl
    | ok rows => simp [Except.map]
  · rw [if_neg hend, if_neg hend]

/-- One character, with the lexer beside the reader. -/
structure Follows (r : CsvReader) (c : Char) : Prop where
  /-- A bad character makes the reader raise. -/
  bad : r.cursor.Bad c → ∃ e, r.processChar (some c) = .error e
  /-- After any other one they still agree. -/
  good : ¬r.cursor.Bad c → ∃ r', r.processChar (some c) = .ok r' ∧ (r'.resume c).Sound ∧
    (r'.resume c).cursor = r.cursor.next c

/-- The step of a character that is added to the field. -/
theorem follows_addChar {s : CsvState} (hc : c ≠ '\n' ∨ s = .inQuotedField)
    (hs : s = .inField ∨ s = .inQuotedField)
    (hprocess : r.processChar (some c) = (r.addChar c).map fun r => { r with state := s })
    (hnext : r.cursor.next c = ({ r with state := s, fieldLen := r.fieldLen + 1 } : CsvReader).cursor)
    (hmode : r.cursor.mode ≠ .broken) : r.Follows c := by
  have hbad : r.cursor.Bad c ↔ fieldLimit ≤ r.fieldLen := by
    rw [CellCursor.Bad, hnext]
    constructor
    · rintro (⟨hbroken, -⟩ | hlong)
      · exact absurd hbroken hmode
      · exact Nat.le_of_lt_succ hlong
    · intro hle
      exact .inr (Nat.lt_succ_of_le hle)
  constructor
  · intro h
    rw [hprocess, addChar, if_pos (hbad.1 h)]
    exact ⟨_, rfl⟩
  · intro hgood
    have hlt : r.fieldLen < fieldLimit := not_le.1 fun hle => hgood (hbad.2 hle)
    rw [hprocess, addChar, if_neg (not_le.2 hlt), hnext]
    have hresume : ¬(c = '\n' ∧ s ≠ .inQuotedField) := by
      rintro ⟨hn, hquoted⟩
      exact hc.elim (fun hne => hne hn) hquoted
    refine ⟨_, rfl, ?_, ?_⟩
    · rw [resume, if_neg hresume]
      refine ⟨hlt, ?_⟩
      rcases hs with rfl | rfl <;> simp
    · rw [resume, if_neg hresume]
      rfl

/-- The step of a character that is not. -/
theorem follows_of_ok (h : r.processChar (some c) = .ok r') (hmode : r.cursor.mode ≠ .broken ∨ c = '\n' ∨ c = '\r')
    (hsound : (r'.resume c).Sound) (hcursor : (r'.resume c).cursor = r.cursor.next c) : r.Follows c where
  bad := by
    rintro (⟨hbroken, hn, hr⟩ | hlong)
    · rcases hmode with hmode | rfl | rfl
      · exact absurd hbroken hmode
      · exact absurd rfl hn
      · exact absurd rfl hr
    · rw [← hcursor] at hlong
      exact absurd hsound.length_le (not_le.2 hlong)
  good := fun _ => ⟨r', h, hsound, hcursor⟩

/-- The step of a line break that ends a record. -/
theorem follows_break (h : r.processChar (some c) = .ok r') (hc : c = '\n' ∨ c = '\r')
    (hquoted : r.cursor.mode ≠ .quoted) (hstate : r'.state = .eatCrnl) (hlen : r'.fieldLen = 0) :
    r.Follows c := by
  refine follows_of_ok h (.inr hc) ?_ ?_
  · rw [resume]
    split
    · exact sound_empty
    · exact ⟨hlen.le.trans (Nat.zero_le _), fun _ => hlen⟩
  · rcases hc with rfl | rfl
    · rw [resume, if_pos ⟨rfl, by simp [hstate]⟩, CellCursor.next, if_neg hquoted, if_pos (.inl rfl)]
      rfl
    · rw [resume, if_neg (by simp), CellCursor.next, if_neg hquoted, if_neg (by simp), if_pos rfl, cursor,
        hstate, hlen]
      rfl

/-- The step of a quotation mark outside of a quoted field. -/
theorem Sound.follows_quote (h : r.Sound) (hs : r.state ≠ .inQuotedField) (hs' : r.state ≠ .eatCrnl) :
    r.Follows '\x22' := by
  have hstart : r.state = .startRecord ∨ r.state = .startField → r.Follows '\x22' := by
    intro hstart
    have hlen : r.fieldLen = 0 := h.length_eq (hstart.imp_right .inl)
    have hmode : r.cursor.mode = .start := by rcases hstart with hstart | hstart <;> simp [cursor, mode, hstart]
    refine follows_of_ok (processChar_quote_start hstart) (.inl (by simp [hmode])) ?_ ?_
    · rw [resume, if_neg (by simp)]
      exact ⟨h.length_le, by simp⟩
    · rw [resume, if_neg (by simp), CellCursor.next, hmode]
      simp [cursor, mode, hlen]
  cases hstate : r.state with
  | startRecord => exact hstart (.inl hstate)
  | startField => exact hstart (.inr hstate)
  | inField =>
      refine follows_addChar (.inl (by decide)) (.inl rfl) ?_ ?_ ?_
      · rw [processChar_quote_field hstate]
        cases hadd : r.addChar '\x22' with
        | error e => rfl
        | ok r' =>
            have hsame := (addChar_keeps hadd).1.trans hstate
            rw [Except.map, ← hsame]
      · simp [CellCursor.next, cursor, mode, hstate]
      · simp [cursor, mode, hstate]
  | inQuotedField => exact absurd hstate hs
  | quoteInQuotedField =>
      refine follows_addChar (.inl (by decide)) (.inr rfl) (processChar_quote_twice hstate) ?_ ?_
      · simp [CellCursor.next, cursor, mode, hstate]
      · simp [cursor, mode, hstate]
  | eatCrnl => exact absurd hstate hs'

/-- **The lexer follows the reader**, character by character. -/
theorem Sound.follows (h : r.Sound) (c : Char) : r.Follows c := by
  by_cases hs : r.state = .inQuotedField
  · have hmode : r.cursor.mode = .quoted := mode_eq_quoted.2 hs
    by_cases hq : c = '\x22'
    · subst hq
      refine follows_of_ok (processChar_quote_end hs) (by simp [hmode]) ?_ ?_
      · exact ⟨h.length_le, by simp [resume]⟩
      · simp [resume, CellCursor.next, cursor, mode, hs]
    · refine follows_addChar (.inr rfl) (.inr rfl) ?_ ?_ (by simp [hmode])
      · rw [processChar_quoted hq hs]
        cases hadd : r.addChar c with
        | error e => rfl
        | ok r' =>
            have hstate := (addChar_keeps hadd).1.trans hs
            rw [Except.map, ← hstate]
      · simp [CellCursor.next, cursor, mode, hs, hq]
  · have hquoted : r.cursor.mode ≠ .quoted := fun hmode => hs (mode_eq_quoted.1 hmode)
    by_cases hbreak : c = '\n' ∨ c = '\r'
    · -- a line break resets the cursor
      have hprocess := processChar_break hbreak hs
      by_cases hstart : r.state = .startRecord ∨ r.state = .eatCrnl
      · rw [if_pos hstart] at hprocess
        exact follows_break hprocess hbreak hquoted rfl (h.length_eq (hstart.imp_right .inr))
      · rw [if_neg hstart] at hprocess
        exact follows_break hprocess hbreak hquoted rfl rfl
    · obtain ⟨hn, hr⟩ := not_or.1 hbreak
      by_cases hend : r.state = .eatCrnl
      · -- after a carriage return anything else is refused
        have hbad : r.cursor.Bad c := .inl ⟨mode_eq_broken.2 hend, hn, hr⟩
        exact ⟨fun _ => processChar_eatCrnl hbreak hend, fun hgood => absurd hbad hgood⟩
      · have hbroken : r.cursor.mode ≠ .broken := fun hmode => hend (mode_eq_broken.1 hmode)
        by_cases hcomma : c = ','
        · subst hcomma
          refine follows_of_ok (processChar_comma hs hend) (.inl hbroken) ?_ ?_
          · exact ⟨Nat.zero_le _, fun _ => rfl⟩
          · rw [resume, if_neg (by simp), CellCursor.next, if_neg hquoted, if_pos (.inr rfl)]
            rfl
        · by_cases hq : c = '\x22'
          · subst hq
            exact h.follows_quote hs hend
          · refine follows_addChar (.inl hn) (.inl rfl) (processChar_other hbreak hq hcomma hs hend) ?_ hbroken
            rw [CellCursor.next, if_neg hquoted, if_neg (by simp [hn, hcomma]), if_neg hr,
              if_neg (by simp [hq]), if_neg (by simp [hq])]
            rfl

/-- **A reader raises at the first bad character**, and only there. -/
theorem Sound.read_error_iff (h : r.Sound) (text : List Char) :
    (∃ e, r.read text = .error e) ↔ r.cursor.Faulty text := by
  induction text generalizing r with
  | nil => simp [read, CellCursor.Faulty]
  | cons c cs ih =>
      have hstep := h.follows c
      rw [CellCursor.Faulty]
      by_cases hbad : r.cursor.Bad c
      · obtain ⟨e, he⟩ := hstep.bad hbad
        exact iff_of_true ⟨e, by rw [read, he]; rfl⟩ (.inl hbad)
      · obtain ⟨r', hr, hsound, hcursor⟩ := hstep.good hbad
        rw [read_error_cons hr, ih hsound, hcursor]
        exact (or_iff_right hbad).symm

end CsvReader

/-! ## The faults of a text -/

/-- The cursor after one character more. -/
theorem cursorAfter_append (text : List Char) (c : Char) :
    cursorAfter (text ++ [c]) = (cursorAfter text).next c := by
  rw [cursorAfter, List.foldl_append]
  rfl

/-- Only a carriage return outside of quotation marks leads to the mode after one. -/
theorem CellCursor.next_broken {k : CellCursor} {c : Char} (h : (k.next c).mode = .broken) :
    c = '\r' ∧ k.mode ≠ .quoted := by
  unfold CellCursor.next at h
  by_cases hquoted : k.mode = .quoted
  · rw [if_pos hquoted] at h
    split at h
    · cases h
    · rw [hquoted] at h
      cases h
  · rw [if_neg hquoted] at h
    refine ⟨?_, hquoted⟩
    by_contra hc
    rw [if_neg hc] at h
    split_ifs at h

/-- **A text has a bad character if it has one of the faults.** -/
theorem exists_bad_iff (text : List Char) :
    (∃ before c after, text = before ++ c :: after ∧ (cursorAfter before).Bad c) ↔
      StrayReturn text ∨ LongCell text := by
  constructor
  · rintro ⟨before, c, after, rfl, ⟨hbroken, hn, hr⟩ | hlong⟩
    · -- the text before ends in the carriage return
      induction before using List.reverseRecOn with
      | nil => cases hbroken
      | append_singleton before b _ =>
          rw [cursorAfter_append] at hbroken
          obtain ⟨rfl, hquoted⟩ := CellCursor.next_broken hbroken
          exact .inl ⟨before, c, after, by simp, hquoted, hn, hr⟩
    · refine .inr ⟨before ++ [c], ⟨after, by simp⟩, ?_⟩
      rw [cursorAfter_append]
      exact hlong
  · rintro (⟨before, c, after, rfl, hquoted, hn, hr⟩ | ⟨before, ⟨after, rfl⟩, hlong⟩)
    · refine ⟨before ++ ['\r'], c, after, by simp, .inl ⟨?_, hn, hr⟩⟩
      rw [cursorAfter_append, CellCursor.next, if_neg hquoted, if_neg (by simp), if_pos rfl]
    · induction before using List.reverseRecOn with
      | nil => exact absurd hlong (Nat.not_lt_zero _)
      | append_singleton before b _ =>
          rw [cursorAfter_append] at hlong
          exact ⟨before, b, after, by simp, .inr hlong⟩

/-- **When the reader raises**: on the texts with one of the faults. -/
theorem csvRows_error_iff (text : List Char) :
    (∃ e, csvRows text = .error e) ↔ StrayReturn text ∨ LongCell text := by
  rw [csvRows_eq_read, CsvReader.sound_empty.read_error_iff, CellCursor.faulty_iff]
  exact exists_bad_iff text

/-! ## The scan -/

/-- The calls of the scan are answered by a file with this content. -/
def ReadsFile (path : Path) (raw : ByteArray) (tr : List (Answered calls Exn)) : Prop :=
  ∀ c ∈ tr, c = ⟨.getsize path, .ok raw.size⟩ ∨ c = ⟨.readFile path, .ok raw⟩

/-- **The scan comes to a decision** on a content: whatever file has it, a list of issues is returned. -/
def ScanDecides (settings : Settings) (path : Path) (raw : ByteArray) : Prop :=
  ∀ tr r, (scanCsvFile path settings).Makes tr r → ReadsFile path raw tr → ∃ issues, r = .ok issues

/-- **A content on which the scan raises**: a text within the size limit with one of the faults. -/
def Undecidable (settings : Settings) (raw : ByteArray) : Prop :=
  (raw.size : Int) ≤ settings.maxCsvFileSizeBytes ∧ (0 : UInt8) ∉ raw.data.toList ∧
    ∃ text, String.fromUTF8? raw = some text ∧ (StrayReturn text.toList ∨ LongCell text.toList)

/-- The pure part of the scan raises on these texts only. -/
theorem scanBytes_error_iff (raw : ByteArray) : (∃ e, scanBytes raw = .error e) ↔
    (0 : UInt8) ∉ raw.data.toList ∧
      ∃ text, String.fromUTF8? raw = some text ∧ (StrayReturn text.toList ∨ LongCell text.toList) := by
  unfold scanBytes
  by_cases hnul : (0 : UInt8) ∈ raw.data.toList
  · have hcontains : raw.data.contains 0 = true := by simpa using hnul
    rw [if_pos hcontains]
    simp [hnul]
  · have hcontains : ¬raw.data.contains 0 = true := by simpa using hnul
    rw [if_neg hcontains, and_iff_right hnul]
    cases String.fromUTF8? raw with
    | none => simp
    | some text =>
        have hrows := csvRows_error_iff text.toList
        show (∃ e, (csvRows text.toList).map (tableIssues 1) = .error e) ↔ _
        cases hread : csvRows text.toList with
        | error e =>
            rw [hread] at hrows
            exact iff_of_true ⟨e, rfl⟩ ⟨text, rfl, hrows.1 ⟨e, rfl⟩⟩
        | ok rows =>
            rw [hread] at hrows
            refine iff_of_false ?_ ?_
            · rintro ⟨e, he⟩
              cases he
            · rintro ⟨text', htext, hfault⟩
              obtain rfl := Option.some.inj htext
              obtain ⟨e, he⟩ := hrows.2 hfault
              cases he

/-- A run of the scan over a content. -/
theorem makes_scan {settings : Settings} {path : Path} {raw : ByteArray}
    (hsize : (raw.size : Int) ≤ settings.maxCsvFileSizeBytes) : (scanCsvFile path settings).Makes
      [⟨.getsize path, .ok raw.size⟩, ⟨.readFile path, .ok raw⟩] (scanBytes raw) := by
  refine .perform_bind (S := calls) (.getsize path) raw.size ?_
  rw [if_neg (not_lt.2 hsize)]
  refine .perform_bind (S := calls) (.readFile path) raw ?_
  exact Program.makes_ofExcept.2 ⟨rfl, rfl⟩

/-- All runs over a content end as its pure part does, or the content is too large. -/
theorem result_of_makes_scan {settings : Settings} {path : Path} {raw : ByteArray}
    {tr : List (Answered calls Exn)} {r : Except Exn (List String)}
    (h : (scanCsvFile path settings).Makes tr r) (htr : ReadsFile path raw tr) :
    (settings.maxCsvFileSizeBytes < (raw.size : Int) ∧ ∃ issues, r = .ok issues) ∨
      (raw.size : Int) ≤ settings.maxCsvFileSizeBytes ∧ r = scanBytes raw := by
  rw [scanCsvFile] at h
  rcases Program.makes_perform_bind h with ⟨size, tr₁, rfl, h₁⟩ | ⟨e, rfl, -⟩
  · rcases htr _ List.mem_cons_self with hc | hc
    · cases hc
      by_cases hsize : settings.maxCsvFileSizeBytes < (raw.size : Int)
      · rw [if_pos hsize] at h₁
        exact .inl ⟨hsize, _, (Program.makes_ret.1 h₁).2⟩
      · rw [if_neg hsize] at h₁
        rcases Program.makes_perform_bind h₁ with ⟨content, tr₂, rfl, h₂⟩ | ⟨e, rfl, -⟩
        · rcases htr _ (List.mem_cons_of_mem _ List.mem_cons_self) with hc | hc
          · cases hc
          · cases hc
            exact .inr ⟨not_lt.1 hsize, (Program.makes_ofExcept.1 h₂).2⟩
        · rcases htr _ (List.mem_cons_of_mem _ List.mem_cons_self) with hc | hc <;> cases hc
    · cases hc
  · rcases htr _ List.mem_cons_self with hc | hc <;> cases hc

/-- The scan comes to a decision if its pure part does. -/
theorem scanDecides_of_scanBytes {settings : Settings} {path : Path} {raw : ByteArray} {issues : List String}
    (h : scanBytes raw = .ok issues) : ScanDecides settings path raw := by
  intro tr r hmakes htr
  rcases result_of_makes_scan hmakes htr with ⟨-, hok⟩ | ⟨-, rfl⟩
  · exact hok
  · exact ⟨issues, h⟩

/-- **When the scan comes to a decision**: on all contents but texts within the size limit in which, outside
of quotation marks, a line goes on after a carriage return, or in which a cell is too long. -/
theorem scan_decides_iff (settings : Settings) (path : Path) (raw : ByteArray) :
    ScanDecides settings path raw ↔ ¬Undecidable settings raw := by
  constructor
  · rintro h ⟨hsize, hfault⟩
    obtain ⟨e, he⟩ := (scanBytes_error_iff raw).2 hfault
    obtain ⟨issues, hissues⟩ := h _ _ (makes_scan hsize) (by simp [ReadsFile])
    rw [he] at hissues
    cases hissues
  · intro h tr r hmakes htr
    rcases result_of_makes_scan hmakes htr with ⟨-, hok⟩ | ⟨hsize, rfl⟩
    · exact hok
    · cases hscan : scanBytes raw with
      | ok issues => exact ⟨issues, rfl⟩
      | error e => exact absurd ⟨hsize, (scanBytes_error_iff raw).1 ⟨e, hscan⟩⟩ h

/-- **A carriage return between two letters**: the scan raises. -/
theorem stray_return_raises : ¬ScanDecides {} "/watch/a.csv".toUTF8 "a\rb".toUTF8 := by
  intro h
  have hscan : scanBytes "a\rb".toUTF8 = .error (.csv
      "new-line character seen in unquoted field - do you need to open the file with newline=''?") := by
    decide +kernel
  have hmakes : (scanCsvFile "/watch/a.csv".toUTF8 {}).Makes _ (scanBytes "a\rb".toUTF8) :=
    makes_scan (by decide)
  obtain ⟨issues, hissues⟩ := h _ _ hmakes (by simp [ReadsFile])
  rw [hscan] at hissues
  cases hissues

end TransferWorker
