import Mathlib.Data.Rat.Floor
import Mathlib.Data.Int.Log

/-! # Text formats

The formats that the validators of the event schema check with the standard library: regular
expressions over decimal digits and hexadecimal text (with a `$` that also matches before a final
newline), `uuid.UUID`, `datetime.fromisoformat`, and the conversions to an integer. Everything
works on the list of characters of a string. -/

namespace TransferWorker

/-! ## Digits and white space -/

/-- The zero of every run of ten Unicode decimal digits (general category `Nd`, version 15.0). -/
def decimalZeros : List Nat :=
  [0x30, 0x660, 0x6F0, 0x7C0, 0x966, 0x9E6, 0xA66, 0xAE6, 0xB66, 0xBE6, 0xC66, 0xCE6, 0xD66, 0xDE6,
    0xE50, 0xED0, 0xF20, 0x1040, 0x1090, 0x17E0, 0x1810, 0x1946, 0x19D0, 0x1A80, 0x1A90, 0x1B50,
    0x1BB0, 0x1C40, 0x1C50, 0xA620, 0xA8D0, 0xA900, 0xA9D0, 0xA9F0, 0xAA50, 0xABF0, 0xFF10, 0x104A0,
    0x10D30, 0x11066, 0x110F0, 0x11136, 0x111D0, 0x112F0, 0x11450, 0x114D0, 0x11650, 0x116C0,
    0x11730, 0x118E0, 0x11950, 0x11C50, 0x11D50, 0x11DA0, 0x11F50, 0x16A60, 0x16AC0, 0x16B50,
    0x1D7CE, 0x1D7D8, 0x1D7E2, 0x1D7EC, 0x1D7F6, 0x1E140, 0x1E2F0, 0x1E4F0, 0x1E950, 0x1FBF0]

/-- The value of a Unicode decimal digit. -/
def decimal? (c : Char) : Option Nat :=
  (decimalZeros.find? fun z => z ≤ c.toNat && c.toNat < z + 10).map fun z => c.toNat - z

/-- `\d` -/
def isDecimal (c : Char) : Bool := (decimal? c).isSome

/-- The white space that `str` methods and `int` strip outside ASCII. -/
def isUnicodeSpace (c : Char) : Bool :=
  [0x85, 0xA0, 0x1680, 0x2028, 0x2029, 0x202F, 0x205F, 0x3000].contains c.toNat ||
    (0x2000 ≤ c.toNat && c.toNat ≤ 0x200A)

/-- The white space of ASCII: tab to carriage return, and space. -/
def isAsciiSpace (c : Char) : Bool := (9 ≤ c.toNat && c.toNat ≤ 13) || c = ' '

/-- `$` of a regular expression: the end, or a final newline. -/
def atEnd (cs : List Char) : Bool := cs = [] || cs = ['\n']

/-- `int` of a text of decimal digits. -/
def decimalValue (cs : List Char) : Nat := cs.foldl (fun n c => 10 * n + (decimal? c).getD 0) 0

/-! ## The regular expressions of the schema -/

/-- `_VERSION_RE.match`: `^(\d+)\.(\d+)$`, the digits of the first group. -/
def matchVersion (s : String) : Option (List Char) :=
  let major := s.toList.takeWhile isDecimal
  match s.toList.dropWhile isDecimal with
  | '.' :: rest =>
      if major ≠ [] ∧ rest.takeWhile isDecimal ≠ [] ∧ atEnd (rest.dropWhile isDecimal) then
        some major
      else none
  | _ => none

/-- `[a-f0-9]` -/
def isLowerHex (c : Char) : Bool := ('a' ≤ c && c ≤ 'f') || ('0' ≤ c && c ≤ '9')

/-- `[a-f0-9]{64}$` -/
def isHex64 (cs : List Char) : Bool :=
  (cs.takeWhile isLowerHex).length = 64 && atEnd (cs.dropWhile isLowerHex)

/-- `_SHA256_RE.match`: `^[a-f0-9]{64}$`. -/
def matchSha256 (s : String) : Bool := isHex64 s.toList

/-- `_IDEMPOTENCY_RE.match`: `^sha256:[a-f0-9]{64}$`. -/
def matchIdempotency (s : String) : Bool :=
  "sha256:".toList.isPrefixOf s.toList && isHex64 (s.toList.drop 7)

/-! ## `uuid.UUID` -/

/-- `str.replace(pat, "")`, reading from the left; `skip` characters of an occurrence are still to be
dropped. -/
def removeAll (pat : List Char) : Nat → List Char → List Char
  | _, [] => []
  | skip + 1, _ :: cs => removeAll pat skip cs
  | 0, c :: cs =>
      if pat.isPrefixOf (c :: cs) then removeAll pat (pat.length - 1) cs
      else c :: removeAll pat 0 cs

/-- `str.strip(chars)` -/
def stripChars (p : Char → Bool) (cs : List Char) : List Char :=
  ((cs.dropWhile p).reverse.dropWhile p).reverse

/-- `int` first turns the decimal digits and white space of a text that is not all ASCII into ASCII. -/
def asciiDigits (cs : List Char) : List Char :=
  if cs.all fun c => c.toNat < 128 then cs
  else cs.map fun c =>
    if c.toNat < 127 then c
    else if isUnicodeSpace c then ' '
    else match decimal? c with
      | some d => Char.ofNat (48 + d)
      | none => '?'

/-- Hexadecimal digits with single underscores between them. -/
def isHexNumeral (isHex : Char → Bool) : List Char → Bool
  | [] => false
  | [c] => isHex c
  | c :: '_' :: cs => isHex c && isHexNumeral isHex cs
  | c :: cs => isHex c && isHexNumeral isHex cs

/-- An ASCII hexadecimal digit of either case. -/
def isHexDigit (c : Char) : Bool :=
  isLowerHex c || ('A' ≤ c && c ≤ 'F')

/-- `int(text, 16)` does not raise. -/
def isInt16 (cs : List Char) : Bool :=
  let body := stripChars isAsciiSpace (asciiDigits cs)
  let unsigned :=
    match body with
    | '+' :: rest => rest
    | '-' :: rest => rest
    | _ => body
  match unsigned with
  | '0' :: 'x' :: '_' :: rest => isHexNumeral isHexDigit rest
  | '0' :: 'X' :: '_' :: rest => isHexNumeral isHexDigit rest
  | '0' :: 'x' :: rest => isHexNumeral isHexDigit rest
  | '0' :: 'X' :: rest => isHexNumeral isHexDigit rest
  | rest => isHexNumeral isHexDigit rest

/-- **`uuid.UUID(v)` does not raise**: without `urn:`, `uuid:`, outer braces and hyphens the text has
32 characters and is a hexadecimal number. -/
def isUuid (s : String) : Bool :=
  let hex := removeAll "uuid:".toList 0 (removeAll "urn:".toList 0 s.toList)
  let hex := removeAll ['-'] 0 (stripChars (fun c => c = '\x7b' || c = '\x7d') hex)
  hex.length = 32 && isInt16 hex

/-! ## `datetime.fromisoformat`

A transcription of the C implementation, which walks over the UTF-8 bytes of the text, with a NUL byte
at the end: `charAt` reads that byte beyond the end. -/

/-- The character at a position; NUL beyond the end. -/
def charAt (cs : List Char) (i : Nat) : Char := cs.getD i '\x00'

/-- An ASCII digit. -/
def isAsciiDigit (c : Char) : Bool := '0' ≤ c && c ≤ '9'

/-- `parse_digits`: exactly `n` digits from a position. -/
def parseDigits (cs : List Char) (i n : Nat) : Option Nat :=
  let ds := (List.range n).map fun k => charAt cs (i + k)
  if ds.all isAsciiDigit then some (ds.foldl (fun v c => 10 * v + (c.toNat - 48)) 0) else none

/-- `_find_isoformat_datetime_separator` -/
def findSeparator (cs : List Char) : Option Nat :=
  if cs.length = 7 then some 7
  else if charAt cs 4 = '-' then
    if charAt cs 5 = 'W' then
      if cs.length < 8 then none
      else if cs.length > 8 ∧ charAt cs 8 = '-' then
        if cs.length = 9 then none
        else if cs.length > 10 ∧ isAsciiDigit (charAt cs 10) then some 8
        else some 10
      else some 8
    else some 10
  else if charAt cs 4 = 'W' then
    -- an even number of digits before the first other character: the day is not part of the date
    let pos := 7 + ((cs.drop 7).takeWhile isAsciiDigit).length
    if pos < 9 then some pos else if pos % 2 = 0 then some 7 else some 8
  else some 8

/-- Leap years of the proleptic Gregorian calendar. -/
def isLeap (year : Nat) : Bool := year % 4 = 0 && (year % 100 ≠ 0 || year % 400 = 0)

/-- The days of a month. -/
def daysInMonth (year month : Nat) : Nat :=
  if month = 2 then (if isLeap year then 29 else 28)
  else if [4, 6, 9, 11].contains month then 30 else 31

/-- The days before January 1 of a year. -/
def daysBeforeYear (year : Nat) : Nat :=
  (year - 1) * 365 + (year - 1) / 4 - (year - 1) / 100 + (year - 1) / 400

/-- An ISO week date exists, and lies within the years a `datetime` can have. -/
def isWeekDate (year week day : Nat) : Bool :=
  let firstWeekday := (daysBeforeYear year + 7) % 7
  let long := firstWeekday = 3 || (firstWeekday = 2 && isLeap year)
  let week1Monday : Int :=
    (daysBeforeYear year + 1 - firstWeekday : Int) + (if firstWeekday > 3 then 7 else 0)
  1 ≤ year && 1 ≤ week && (week < 53 || (week = 53 && long)) && 1 ≤ day && day < 8 &&
    decide (week1Monday + (week - 1) * 7 + day - 1 ≤ 3652059)

/-- `parse_isoformat_date`, with the range checks of the constructor. -/
def isDate (cs : List Char) (len : Nat) : Bool :=
  match parseDigits cs 0 4 with
  | none => false
  | some year =>
      let sep := charAt cs 4 = '-'
      let p := if sep then 5 else 4
      if charAt cs p = 'W' then
        match parseDigits cs (p + 1) 2 with
        | none => false
        | some week =>
            if p + 3 < len then
              if sep ∧ charAt cs (p + 3) ≠ '-' then false
              else match parseDigits cs (if sep then p + 4 else p + 3) 1 with
                | none => false
                | some day => isWeekDate year week day
            else isWeekDate year week 1
      else
        match parseDigits cs p 2 with
        | none => false
        | some month =>
            if sep ∧ charAt cs (p + 2) ≠ '-' then false
            else match parseDigits cs (if sep then p + 3 else p + 2) 2 with
              | none => false
              | some day =>
                  1 ≤ year && 1 ≤ month && month ≤ 12 && 1 ≤ day && day ≤ daysInMonth year month

/-- A clock time: hours, minutes, seconds and microseconds. -/
structure ClockTime where
  /-- Hours. -/
  hour : Nat := 0
  /-- Minutes. -/
  minute : Nat := 0
  /-- Seconds. -/
  second : Nat := 0
  /-- Microseconds. -/
  micro : Nat := 0

/-- The fraction of `parse_hh_mm_ss_ff`: up to six digits count, further ones are skipped. -/
def parseFraction (cs : List Char) (t : ClockTime) (p pEnd : Nat) : Option (ClockTime × Bool) :=
  let toParse := min (pEnd - p) 6
  match parseDigits cs p toParse with
  | none => none
  | some v =>
      let rest := (cs.drop (p + toParse)).dropWhile isAsciiDigit
      some ({ t with micro := v * 10 ^ (6 - toParse) }, charAt rest 0 ≠ '\x00')

/-- `parse_hh_mm_ss_ff` between two positions; the flag says that the text goes on after the time.
`i` counts the components read so far. -/
def parseClock (cs : List Char) (pEnd : Nat) :
    Nat → Nat → Bool → ClockTime → Nat → Option (ClockTime × Bool)
  | 0, _, _, t, p => parseFraction cs t p pEnd
  | fuel + 1, i, hasSep, t, p =>
      match parseDigits cs p 2 with
      | none => none
      | some v =>
          let t :=
            if i = 0 then { t with hour := v }
            else if i = 1 then { t with minute := v }
            else { t with second := v }
          let c := charAt cs (p + 2)
          let hasSep := if i = 0 then c = ':' else hasSep
          if p + 3 ≥ pEnd then some (t, c ≠ '\x00')
          else if hasSep ∧ c = ':' then parseClock cs pEnd fuel (i + 1) hasSep t (p + 3)
          else if c = '.' ∨ c = ',' then parseFraction cs t (p + 3) pEnd
          else if !hasSep then parseClock cs pEnd fuel (i + 1) hasSep t (p + 2)
          else none

/-- `parse_isoformat_time` from a position to the end, with the range checks of the constructors. -/
def isTime (cs : List Char) (start : Nat) : Bool :=
  let zone := start + ((cs.drop start).takeWhile fun c => c ≠ '+' && c ≠ '-' && c ≠ 'Z').length
  match parseClock cs zone 3 0 true {} start with
  | none => false
  | some (t, more) =>
      let inRange := t.hour < 24 && t.minute < 60 && t.second < 60
      if zone ≥ cs.length then inRange && !more
      else if charAt cs zone = 'Z' then inRange && charAt cs (zone + 1) = '\x00'
      else
        match parseClock cs cs.length 3 0 true {} (zone + 1) with
        | none => false
        | some (z, more) =>
            inRange && !more && z.hour * 3600 + z.minute * 60 + z.second < 86400

/-- The bytes of the character that a byte starts. -/
def charWidth (c : Char) : Nat :=
  if c.toNat < 0x80 then 1 else if c.toNat < 0xE0 then 2 else if c.toNat < 0xF0 then 3 else 4

/-- **`datetime.fromisoformat` does not raise** on a text of these bytes. The separator is any
character; where it is a long one the time starts after all of its bytes. -/
def isIsoFormat (cs : List Char) : Bool :=
  match findSeparator cs with
  | none => false
  | some sep =>
      isDate cs sep && (cs.length ≤ sep + 1 || isTime cs (sep + charWidth (charAt cs sep)))

/-- `str.replace("Z", "+00:00")` -/
def replaceZulu (cs : List Char) : List Char :=
  cs.flatMap fun c => if c = 'Z' then "+00:00".toList else [c]

/-- The bytes of a text in UTF-8, each as the character of its number. -/
def utf8Chars (cs : List Char) : List Char :=
  cs.flatMap fun c => (String.utf8EncodeChar c).map fun b => Char.ofNat b.toNat

/-- `datetime.fromisoformat(v.replace("Z", "+00:00"))` does not raise. -/
def isOccurredAt (s : String) : Bool :=
  let text := replaceZulu s.toList
  7 ≤ text.length && isIsoFormat (utf8Chars text)

/-! ## Numbers that stand for an integer -/

/-- The nearest double of a rational, ties to even. -/
def roundDouble (q : ℚ) : ℚ :=
  if q = 0 then 0
  else
    let ulp : ℚ := 2 ^ max (Int.log 2 |q| - 52) (-1074)
    let low := ⌊q / ulp⌋
    let rest := q / ulp - low
    if rest < 1 / 2 ∨ (rest = 1 / 2 ∧ low % 2 = 0) then low * ulp else (low + 1) * ulp

/-- A JSON number with a fraction or an exponent as an integer: its double has no fractional part
and fits in 64 bits. -/
def floatAsInt (m e : Int) : Except String Int :=
  let q := roundDouble (m * 10 ^ e)
  if 2 ^ 1024 ≤ |q| then .error "Input should be a finite number"
  else if q.den ≠ 1 then
    .error "Input should be a valid integer, got a number with a fractional part"
  else if -(2 ^ 63) < q.num ∧ q.num < 2 ^ 63 then .ok q.num
  else .error "Unable to parse input string as an integer, exceeded maximum size"

/-- `BigUint::from_str`: digits and underscores after an optional plus sign, the first one a digit. -/
def parseBigUint (cs : List Char) : Option Nat :=
  let body :=
    match cs with
    | '+' :: tail => if tail.head? = some '+' then cs else tail
    | _ => cs
  if body = [] ∨ body.head? = some '_' then none
  else if body.all fun c => isAsciiDigit c || c = '_' then
    some (decimalValue (body.filter fun c => c ≠ '_'))
  else none

/-- `BigInt::from_str`: the same after an optional minus sign. -/
def parseBigInt (cs : List Char) : Option Int :=
  match cs with
  | '-' :: tail => (parseBigUint (if tail.head? = some '+' then cs else tail)).map fun n => -(n : Int)
  | _ => (parseBigUint cs).map fun n => (n : Int)

/-- `strip_decimal_zeros`: what stands before a point with nothing but zeros after it. -/
def stripDecimalZeros (cs : List Char) : Option (List Char) :=
  match cs.dropWhile fun c => c ≠ '.' with
  | '.' :: zeros => if zeros.all fun c => c = '0' then some (cs.takeWhile fun c => c ≠ '.') else none
  | _ => none

/-- `str_as_int`: a numeric string of at most 4300 bytes as an integer, with or without a fraction of
zeros. White space is not stripped. -/
def strAsInt (s : String) : Except String Int :=
  if s.utf8ByteSize > 4300 then
    .error "Unable to parse input string as an integer, exceeded maximum size"
  else
    match (parseBigInt s.toList).or ((stripDecimalZeros s.toList).bind parseBigInt) with
    | some n => .ok n
    | none => .error "Input should be a valid integer, unable to parse string as an integer"

example : ["7", " 7", "1_000", "_1", "-+5", "+5.00"].map strAsInt =
    [.ok 7, .error "Input should be a valid integer, unable to parse string as an integer", .ok 1000,
      .error "Input should be a valid integer, unable to parse string as an integer",
      .error "Input should be a valid integer, unable to parse string as an integer", .ok 5] := by
  decide +kernel

end TransferWorker
