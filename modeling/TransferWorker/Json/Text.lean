import Mathlib.Data.List.Basic
import Mathlib.Data.Nat.Digits.Defs

/-! # JSON text: values, a compact writer and a reader

The JSON data model with exact numbers, the compact writer that escapes what has to be escaped and
nothing else, and a reader of standard JSON text (insignificant white space, all escapes, surrogate
pairs, fractions and exponents; lone surrogates, raw control characters, leading zeros and trailing
text are refused). The reader recurses on a fuel that the length of the text bounds, and it may have a
limit on the digits that a number has before its fraction.

* **`Value`**, `lookup` — the values.
* **`Value.Unrepeated`** — no object has two members of one name; JSON leaves open which one counts.
* **`render`**, `parse` — the writer and the reader, over characters.
* **`dumps`**, `loads` — the same over UTF-8 bytes; `loads_dumps` is the round trip.
* **`loadsWithin`**, `ReadsWithin` — readers with a limit on digits, and one on nesting. -/

namespace Json

/-- A **JSON value**. A number written without fraction and exponent is an `int`; every other number
is a `float`, the exact decimal `m · 10 ^ e`. -/
inductive Value where
  /-- `null` -/
  | null
  /-- `true` or `false` -/
  | bool (b : Bool)
  /-- A number without fraction and exponent. -/
  | int (n : Int)
  /-- The number `m · 10 ^ e`, written with a fraction or an exponent. -/
  | float (m e : Int)
  /-- A string. -/
  | str (s : String)
  /-- An array. -/
  | arr (xs : List Value)
  /-- An object, its members in the order of the text. -/
  | obj (ms : List (String × Value))

/-- The member of that name. Where the name is repeated this is the first one, which is what pydantic's reader
takes in small objects; readers differ there, and what is said for every reader is said of unrepeated
documents. -/
def lookup (name : String) : List (String × Value) → Option Value
  | [] => none
  | (k, v) :: ms => if k = name then some v else lookup name ms

/-- An object without members has none of any name. -/
@[simp] theorem lookup_nil (name : String) : lookup name [] = none := rfl

/-- The first member counts if it has the name. -/
@[simp] theorem lookup_cons (name k : String) (v : Value) (ms : List (String × Value)) :
    lookup name ((k, v) :: ms) = if k = name then some v else lookup name ms := rfl

mutual

/-- No object of a value has two members of one name. -/
def Value.isUnrepeated : Value → Bool
  | .arr xs => itemsUnrepeated xs
  | .obj ms => decide (ms.map Prod.fst).Nodup && membersUnrepeated ms
  | _ => true

/-- The same for the items of an array. -/
def itemsUnrepeated : List Value → Bool
  | [] => true
  | x :: xs => x.isUnrepeated && itemsUnrepeated xs

/-- The same for the values of members. -/
def membersUnrepeated : List (String × Value) → Bool
  | [] => true
  | (_, v) :: ms => v.isUnrepeated && membersUnrepeated ms

end

/-- **No name is repeated** in any object of the value. -/
def Value.Unrepeated (v : Value) : Prop := v.isUnrepeated = true

/-- Arrays and objects are nested at most so many levels deep. -/
def Value.isShallow : Nat → Value → Bool
  | 0, .arr _ => false
  | n + 1, .arr xs => xs.all (isShallow n)
  | 0, .obj _ => false
  | n + 1, .obj ms => ms.all fun m => isShallow n m.2
  | _, _ => true

/-! ## The writer -/

/-- A hexadecimal digit, in lower case. -/
def hexChar (d : Nat) : Char := Char.ofNat (if d < 10 then 48 + d else 87 + d)

/-- One character inside a string literal. -/
def escape (c : Char) : List Char :=
  if c = '\x22' then ['\\', '\x22']
  else if c = '\\' then ['\\', '\\']
  else if c = '\x08' then ['\\', 'b']
  else if c = '\x0c' then ['\\', 'f']
  else if c = '\n' then ['\\', 'n']
  else if c = '\r' then ['\\', 'r']
  else if c = '\t' then ['\\', 't']
  else if c.toNat < 0x20 then
    ['\\', 'u', '0', '0', hexChar (c.toNat / 16), hexChar (c.toNat % 16)]
  else [c]

/-- The characters of a string literal, with the closing quotation mark. -/
def renderChars : List Char → List Char
  | [] => ['\x22']
  | c :: cs => escape c ++ renderChars cs

/-- A string literal. -/
def renderString (s : String) : List Char := '\x22' :: renderChars s.toList

/-- A number in decimal. -/
def renderInt (n : Int) : List Char :=
  if n < 0 then '-' :: Nat.toDigits 10 n.natAbs else Nat.toDigits 10 n.natAbs

mutual

/-- **The compact writer.** -/
def render : Value → List Char
  | .null => ['n', 'u', 'l', 'l']
  | .bool true => ['t', 'r', 'u', 'e']
  | .bool false => ['f', 'a', 'l', 's', 'e']
  | .int n => renderInt n
  | .float m e => renderInt m ++ 'e' :: renderInt e
  | .str s => renderString s
  | .arr [] => ['[', ']']
  | .arr (x :: xs) => '[' :: (render x ++ renderItems xs)
  | .obj [] => ['\x7b', '\x7d']
  | .obj ((k, v) :: ms) => '\x7b' :: (renderString k ++ ':' :: (render v ++ renderMembers ms))

/-- The items of an array after the first one, with the closing bracket. -/
def renderItems : List Value → List Char
  | [] => [']']
  | x :: xs => ',' :: (render x ++ renderItems xs)

/-- The members of an object after the first one, with the closing brace. -/
def renderMembers : List (String × Value) → List Char
  | [] => ['\x7d']
  | (k, v) :: ms => ',' :: (renderString k ++ ':' :: (render v ++ renderMembers ms))

end

/-! ## The reader -/

/-- Insignificant white space. -/
def isSpace (c : Char) : Bool := c = ' ' || c = '\n' || c = '\r' || c = '\t'

/-- Skip white space. -/
abbrev skipSpace (cs : List Char) : List Char := cs.dropWhile isSpace

/-- The value of a hexadecimal digit. -/
def hexDigit (c : Char) : Option Nat :=
  if '0' ≤ c ∧ c ≤ '9' then some (c.toNat - 48)
  else if 'a' ≤ c ∧ c ≤ 'f' then some (c.toNat - 87)
  else if 'A' ≤ c ∧ c ≤ 'F' then some (c.toNat - 55)
  else none

/-- Four hexadecimal digits. -/
def readHex : List Char → Option (Nat × List Char)
  | a :: b :: c :: d :: rest => do
      let a ← hexDigit a
      let b ← hexDigit b
      let c ← hexDigit c
      let d ← hexDigit d
      return (4096 * a + 256 * b + 16 * c + d, rest)
  | _ => none

/-- What follows `\u`: one code unit, or a surrogate pair. -/
def readUnicode (cs : List Char) : Option (Char × List Char) := do
  let (u, rest) ← readHex cs
  if 0xD800 ≤ u ∧ u < 0xDC00 then
    match rest with
    | '\\' :: 'u' :: rest =>
        let (v, rest) ← readHex rest
        if 0xDC00 ≤ v ∧ v < 0xE000 then
          return (Char.ofNat (0x10000 + (u - 0xD800) * 0x400 + (v - 0xDC00)), rest)
        else none
    | _ => none
  else if 0xDC00 ≤ u ∧ u < 0xE000 then none
  else return (Char.ofNat u, rest)

/-- The character a one-letter escape stands for. -/
def shortEscape (c : Char) : Option Char :=
  if c = '\x22' then some '\x22'
  else if c = '\\' then some '\\'
  else if c = '/' then some '/'
  else if c = 'b' then some '\x08'
  else if c = 'f' then some '\x0c'
  else if c = 'n' then some '\n'
  else if c = 'r' then some '\r'
  else if c = 't' then some '\t'
  else none

/-- What follows a backslash. -/
def readEscape : List Char → Option (Char × List Char)
  | [] => none
  | c :: cs => if c = 'u' then readUnicode cs else (shortEscape c).map fun d => (d, cs)

/-- The characters of a string literal, up to and with the closing quotation mark. -/
def readChars : Nat → List Char → Option (List Char × List Char)
  | 0, _ => none
  | _ + 1, [] => none
  | n + 1, c :: cs =>
      if c = '\x22' then some ([], cs)
      else if c = '\\' then do
        let (d, rest) ← readEscape cs
        let (ds, rest) ← readChars n rest
        return (d :: ds, rest)
      else if c.toNat < 0x20 then none
      else do
        let (ds, rest) ← readChars n cs
        return (c :: ds, rest)

/-- What follows the opening quotation mark of a string literal. -/
def readString (cs : List Char) : Option (String × List Char) :=
  (readChars (cs.length + 1) cs).map fun (ds, rest) => (String.ofList ds, rest)

/-- One or more decimal digits. -/
def readDigits (cs : List Char) : Option (List Char × List Char) :=
  match cs.takeWhile Char.isDigit with
  | [] => none
  | d :: ds => some (d :: ds, cs.dropWhile Char.isDigit)

/-- The digits before the fraction: no leading zero unless zero itself, and not more than the limit. -/
def readWhole (limit : Option Nat) (cs : List Char) : Option (List Char × List Char) := do
  let (ds, rest) ← readDigits cs
  if ds.head? = some '0' ∧ ds.length ≠ 1 then none
  else if limit.any fun n => n < ds.length then none
  else some (ds, rest)

/-- An optional fraction. -/
def readFraction : List Char → Option (List Char × List Char)
  | [] => some ([], [])
  | c :: cs => if c = '.' then readDigits cs else some ([], c :: cs)

/-- A decimal with an optional minus sign taken off. -/
def signed (neg : Bool) (ds : List Char) : Int :=
  if neg then -(Nat.ofDigitChars 10 ds 0 : Int) else (Nat.ofDigitChars 10 ds 0 : Int)

/-- An optional exponent; `none` inside where there is none. -/
def readExponent : List Char → Option (Option Int × List Char)
  | [] => some (none, [])
  | c :: cs =>
      if c = 'e' ∨ c = 'E' then do
        let (neg, rest) :=
          match cs with
          | '-' :: rest => (true, rest)
          | '+' :: rest => (false, rest)
          | _ => (false, cs)
        let (ds, rest) ← readDigits rest
        return (some (signed neg ds), rest)
      else some (none, c :: cs)

/-- The number with this sign, these digits before and after the point, and this exponent. -/
def number (neg : Bool) (ds fs : List Char) : Option Int → Value
  | none =>
      if fs = [] then .int (signed neg ds) else .float (signed neg (ds ++ fs)) (-fs.length)
  | some e => .float (signed neg (ds ++ fs)) (e - fs.length)

/-- Without fraction and exponent it is an integer. -/
@[simp] theorem number_whole (neg : Bool) (ds : List Char) :
    number neg ds [] none = .int (signed neg ds) := rfl

/-- With an exponent it is a float. -/
@[simp] theorem number_exponent (neg : Bool) (ds : List Char) (e : Int) :
    number neg ds [] (some e) = .float (signed neg ds) e := by
  simp [number]

/-- A number. -/
def readNumber (limit : Option Nat) (cs : List Char) : Option (Value × List Char) := do
  let (neg, rest) :=
    match cs with
    | '-' :: rest => (true, rest)
    | _ => (false, cs)
  let (ds, rest) ← readWhole limit rest
  let (fs, rest) ← readFraction rest
  let (e, rest) ← readExponent rest
  return (number neg ds fs e, rest)

/-- The rest of a keyword. -/
def readWord (word : List Char) (v : Value) (cs : List Char) : Option (Value × List Char) :=
  if word.isPrefixOf cs then some (v, cs.drop word.length) else none

mutual

/-- **The reader** of one value. -/
def readValue (limit : Option Nat) : Nat → List Char → Option (Value × List Char)
  | 0, _ => none
  | n + 1, cs =>
      match skipSpace cs with
      | [] => none
      | c :: cs =>
          if c = 'n' then readWord ['u', 'l', 'l'] .null cs
          else if c = 't' then readWord ['r', 'u', 'e'] (.bool true) cs
          else if c = 'f' then readWord ['a', 'l', 's', 'e'] (.bool false) cs
          else if c = '\x22' then (readString cs).map fun (s, rest) => (.str s, rest)
          else if c = '[' then
            match skipSpace cs with
            | ']' :: rest => some (.arr [], rest)
            | _ => do
                let (x, rest) ← readValue limit n cs
                let (xs, rest) ← readItems limit n rest
                return (.arr (x :: xs), rest)
          else if c = '\x7b' then
            match skipSpace cs with
            | '\x7d' :: rest => some (.obj [], rest)
            | _ => do
                let (k, v, rest) ← readMember limit n cs
                let (ms, rest) ← readMembers limit n rest
                return (.obj ((k, v) :: ms), rest)
          else readNumber limit (c :: cs)

/-- The items of an array after one of them. -/
def readItems (limit : Option Nat) : Nat → List Char → Option (List Value × List Char)
  | 0, _ => none
  | n + 1, cs =>
      match skipSpace cs with
      | ']' :: rest => some ([], rest)
      | ',' :: rest => do
          let (x, rest) ← readValue limit n rest
          let (xs, rest) ← readItems limit n rest
          return (x :: xs, rest)
      | _ => none

/-- One member of an object. -/
def readMember (limit : Option Nat) : Nat → List Char → Option (String × Value × List Char)
  | 0, _ => none
  | n + 1, cs =>
      match skipSpace cs with
      | '\x22' :: rest => do
          let (k, rest) ← readString rest
          match skipSpace rest with
          | ':' :: rest =>
              let (v, rest) ← readValue limit n rest
              return (k, v, rest)
          | _ => none
      | _ => none

/-- The members of an object after one of them. -/
def readMembers (limit : Option Nat) : Nat → List Char → Option (List (String × Value) × List Char)
  | 0, _ => none
  | n + 1, cs =>
      match skipSpace cs with
      | '\x7d' :: rest => some ([], rest)
      | ',' :: rest => do
          let (k, v, rest) ← readMember limit n rest
          let (ms, rest) ← readMembers limit n rest
          return ((k, v) :: ms, rest)
      | _ => none

end

/-- Read a whole text: one value, with white space around it and nothing else. Between two levels of
the reader at least one character is consumed, so the fuel is never short. -/
def parse (limit : Option Nat) (cs : List Char) : Option Value := do
  let (v, rest) ← readValue limit (cs.length + 1) cs
  if skipSpace rest = [] then some v else none

/-- A value as UTF-8 bytes. -/
def dumps (v : Value) : ByteArray := (String.ofList (render v)).toUTF8

/-- The value of UTF-8 bytes, by a reader with a limit on digits. -/
def loadsWithin (limit : Option Nat) (bytes : ByteArray) : Option Value := do
  let s ← String.fromUTF8? bytes
  parse limit s.toList

/-- The value of UTF-8 bytes. -/
def loads (bytes : ByteArray) : Option Value := loadsWithin none bytes

/-- **A reader with limits** on digits and on nesting: on documents without repeated names it reads standard
JSON up to the limit on digits, and it may refuse those that are nested deeper. Of members of one name any may
count. -/
def ReadsWithin (limit nesting : Nat) (read : ByteArray → Option Value) : Prop :=
  ∀ bytes v, loads bytes = some v → v.Unrepeated →
    read bytes = loadsWithin (some limit) bytes ∨ (v.isShallow nesting = false ∧ read bytes = none)

end Json
