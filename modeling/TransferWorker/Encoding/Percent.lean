import Mathlib.Data.List.TakeWhile

/-! # Percent encoding

The text of a URL component, and what it stands for, as `urllib.parse` reads it: `unquote` reads every
stretch of ASCII characters as bytes and decodes these, with the replacement character where they are not
UTF-8.

* **`unquote`**, `unquotePlus` — the functions.
* **`Quoted`** — the texts that stand for a string, whichever characters were escaped;
  `unquote_of_quoted` is the round trip.
* **`FormEncoded`** — the same with a plus sign for a space. -/

namespace Percent

/-! ## Decoding UTF-8 with replacement -/

/-- A continuation byte. -/
def isContinuation (b : UInt8) : Bool := 0x80 ≤ b && b < 0xC0

/-- How many bytes at the start of a text that is not UTF-8 are replaced together: the longest start of
a character, or a single byte. -/
def malformedLength : List UInt8 → Nat
  | a :: b :: bs =>
      let second : Bool :=
        if 0xE0 ≤ a && a < 0xF0 then
          isContinuation b && !(a = 0xE0 && b < 0xA0) && !(a = 0xED && 0xA0 ≤ b)
        else if 0xF0 ≤ a && a < 0xF5 then
          isContinuation b && !(a = 0xF0 && b < 0x90) && !(a = 0xF4 && 0x90 ≤ b)
        else false
      if second then
        match bs with
        | c :: _ => if 0xF0 ≤ a && isContinuation c then 3 else 2
        | [] => 2
      else 1
  | _ => 1

/-- At least one byte is replaced. -/
theorem one_le_malformedLength (bytes : List UInt8) : 1 ≤ malformedLength bytes := by
  unfold malformedLength
  split
  · dsimp only
    split_ifs <;> first | omega | (split <;> (try split_ifs) <;> omega)
  · omega

/-- **`bytes.decode("utf-8", "replace")`** -/
def decodeReplace : List UInt8 → List Char
  | [] => []
  | b :: bs =>
      match (b :: bs).toByteArray.utf8DecodeChar? 0 with
      | some c => c :: decodeReplace ((b :: bs).drop c.utf8Size)
      | none => '\uFFFD' :: decodeReplace ((b :: bs).drop (malformedLength (b :: bs)))
termination_by bytes => bytes.length
decreasing_by
  · have := c.utf8Size_pos
    simp only [List.length_drop, List.length_cons]
    omega
  · have := one_le_malformedLength (b :: bs)
    simp only [List.length_drop, List.length_cons]
    omega

/-- The UTF-8 encoding of some characters. -/
def utf8Bytes (cs : List Char) : List UInt8 := cs.flatMap String.utf8EncodeChar

/-- What is UTF-8 is decoded. -/
theorem decodeReplace_utf8Bytes (cs : List Char) : decodeReplace (utf8Bytes cs) = cs := by
  induction cs with
  | nil => simp [utf8Bytes, decodeReplace]
  | cons c cs ih =>
      have hbytes : utf8Bytes (c :: cs) = String.utf8EncodeChar c ++ utf8Bytes cs := rfl
      have hdecode : (String.utf8EncodeChar c ++ utf8Bytes cs).toByteArray.utf8DecodeChar? 0 = some c := by
        rw [List.toByteArray_append]
        exact ByteArray.utf8DecodeChar?_utf8EncodeChar_append
      have hdrop : (String.utf8EncodeChar c ++ utf8Bytes cs).drop c.utf8Size = utf8Bytes cs := by
        rw [← String.length_utf8EncodeChar, List.drop_left]
      rw [hbytes]
      cases h : String.utf8EncodeChar c ++ utf8Bytes cs with
      | nil => exact absurd (List.append_eq_nil_iff.1 h).1 String.utf8EncodeChar_ne_nil
      | cons b bs =>
          rw [h] at hdecode hdrop
          rw [decodeReplace, hdecode]
          simp only [hdrop, ih]

/-! ## Reading -/

/-- An ASCII character. -/
def isAscii (c : Char) : Bool := c.toNat < 128

/-- The value of a hexadecimal digit, of either case. -/
def hexValue (c : Char) : Option Nat :=
  if '0' ≤ c ∧ c ≤ '9' then some (c.toNat - 48)
  else if 'a' ≤ c ∧ c ≤ 'f' then some (c.toNat - 87)
  else if 'A' ≤ c ∧ c ≤ 'F' then some (c.toNat - 55)
  else none

/-- `unquote_to_bytes` of ASCII characters: a percent sign that two hexadecimal digits do not follow
stands for itself. -/
def unquoteToBytes : List Char → List UInt8
  | [] => []
  | '%' :: a :: b :: cs =>
      match hexValue a, hexValue b with
      | some x, some y => UInt8.ofNat (16 * x + y) :: unquoteToBytes cs
      | _, _ => 0x25 :: unquoteToBytes (a :: b :: cs)
  | c :: cs => UInt8.ofNat c.toNat :: unquoteToBytes cs

/-- `_generate_unquoted_parts`, put together. -/
def unquoteParts : List Char → List Char
  | [] => []
  | c :: cs =>
      if isAscii c then
        decodeReplace (unquoteToBytes (c :: cs.takeWhile isAscii)) ++ unquoteParts (cs.dropWhile isAscii)
      else c :: unquoteParts cs
termination_by cs => cs.length
decreasing_by
  · have := (List.dropWhile_sublist isAscii (l := cs)).length_le
    simp only [List.length_cons]
    omega
  · simp

/-- **`unquote`** -/
def unquote (cs : List Char) : List Char := if '%' ∉ cs then cs else unquoteParts cs

/-- Plus signs for spaces. -/
def plusToSpace (cs : List Char) : List Char := cs.map fun c => if c = '+' then ' ' else c

/-- **`unquote_plus`** -/
def unquotePlus (cs : List Char) : List Char := unquote (plusToSpace cs)

/-! ## What a text stands for -/

/-- The text consists of these bytes, escaped. -/
inductive Escapes : List UInt8 → List Char → Prop
  /-- No byte. -/
  | nil : Escapes [] []
  /-- A byte as a percent sign and two digits. -/
  | cons {bs : List UInt8} {e : List Char} {a b : Char} {x y : Nat} (ha : hexValue a = some x)
      (hb : hexValue b = some y) (h : Escapes bs e) :
      Escapes (UInt8.ofNat (16 * x + y) :: bs) ('%' :: a :: b :: e)

/-- **The text stands for the string**: each of its characters is written as it is, or escaped. -/
inductive Quoted : List Char → List Char → Prop
  /-- Nothing. -/
  | nil : Quoted [] []
  /-- A character as it is. -/
  | plain {c : Char} {cs t : List Char} (hc : c ≠ '%') (h : Quoted cs t) : Quoted (c :: cs) (c :: t)
  /-- A character escaped. -/
  | escaped {c : Char} {cs e t : List Char} (he : Escapes (String.utf8EncodeChar c) e) (h : Quoted cs t) :
      Quoted (c :: cs) (e ++ t)

/-- A hexadecimal digit is ASCII. -/
theorem isAscii_of_hexValue {c : Char} {n : Nat} (h : hexValue c = some n) : isAscii c = true := by
  have hle : ∀ {d : Char}, c ≤ d → d.toNat < 128 → isAscii c = true := by
    intro d hcd hd
    have hnat : c.toNat ≤ d.toNat := hcd
    exact decide_eq_true (Nat.lt_of_le_of_lt hnat hd)
  unfold hexValue at h
  split_ifs at h with h1 h2 h3
  · exact hle h1.2 (by decide)
  · exact hle h2.2 (by decide)
  · exact hle h3.2 (by decide)

/-- An escape is ASCII. -/
theorem Escapes.ascii {bs : List UInt8} {e : List Char} (h : Escapes bs e) : ∀ c ∈ e, isAscii c = true := by
  induction h with
  | nil => simp
  | cons ha hb _ ih =>
      intro c hc
      simp only [List.mem_cons] at hc
      rcases hc with rfl | rfl | rfl | hc
      · rfl
      · exact isAscii_of_hexValue ha
      · exact isAscii_of_hexValue hb
      · exact ih c hc

/-- What is escaped is read back. -/
theorem Escapes.unquoteToBytes_append {bs : List UInt8} {e : List Char} (h : Escapes bs e) (t : List Char) :
    unquoteToBytes (e ++ t) = bs ++ unquoteToBytes t := by
  induction h with
  | nil => rfl
  | cons ha hb _ ih =>
      rw [List.cons_append, List.cons_append, List.cons_append, unquoteToBytes, ha, hb]
      simp only [ih, List.cons_append]

/-- A character that is not escaped stands for itself. -/
theorem unquoteToBytes_plain {c : Char} (hc : c ≠ '%') (cs : List Char) :
    unquoteToBytes (c :: cs) = UInt8.ofNat c.toNat :: unquoteToBytes cs := by
  rw [unquoteToBytes]
  rintro a b cs' rfl
  exact absurd rfl hc

/-- An ASCII character is its own byte. -/
theorem utf8EncodeChar_of_isAscii {c : Char} (h : isAscii c = true) :
    String.utf8EncodeChar c = [UInt8.ofNat c.toNat] := by
  have hlt : c.toNat < 128 := of_decide_eq_true h
  have hle : c.val.toNat ≤ 0x7f := Nat.le_of_lt_succ hlt
  unfold String.utf8EncodeChar
  exact if_pos hle

/-- An ASCII text is read as the bytes of the string. -/
theorem Quoted.unquoteToBytes {cs t : List Char} (h : Quoted cs t) (ht : ∀ c ∈ t, isAscii c = true) :
    unquoteToBytes t = utf8Bytes cs := by
  induction h with
  | nil => rfl
  | @plain c cs t hc _ ih =>
      rw [unquoteToBytes_plain hc, ih fun d hd => ht d (List.mem_cons_of_mem _ hd)]
      show _ = String.utf8EncodeChar c ++ utf8Bytes cs
      rw [utf8EncodeChar_of_isAscii (ht c List.mem_cons_self)]
      rfl
  | escaped he _ ih =>
      rw [he.unquoteToBytes_append, ih fun d hd => ht d (List.mem_append_right _ hd)]
      rfl

/-- The ASCII characters at the start of a text stand for a string of their own, and so does the rest. -/
theorem Quoted.split {cs t : List Char} (h : Quoted cs t) : ∃ cs₁ cs₂, cs = cs₁ ++ cs₂ ∧
    Quoted cs₁ (t.takeWhile isAscii) ∧ Quoted cs₂ (t.dropWhile isAscii) := by
  induction h with
  | nil => exact ⟨[], [], rfl, .nil, .nil⟩
  | @plain c cs t hc h ih =>
      by_cases hascii : isAscii c = true
      · obtain ⟨cs₁, cs₂, rfl, h₁, h₂⟩ := ih
        rw [List.takeWhile_cons_of_pos hascii, List.dropWhile_cons_of_pos hascii]
        exact ⟨c :: cs₁, cs₂, rfl, .plain hc h₁, h₂⟩
      · rw [List.takeWhile_cons_of_neg hascii, List.dropWhile_cons_of_neg hascii]
        exact ⟨[], c :: cs, rfl, .nil, .plain hc h⟩
  | @escaped c cs e t he _ ih =>
      obtain ⟨cs₁, cs₂, rfl, h₁, h₂⟩ := ih
      rw [List.takeWhile_append_of_pos he.ascii, List.dropWhile_append_of_pos he.ascii]
      exact ⟨c :: cs₁, cs₂, rfl, .escaped he h₁, h₂⟩

/-- The escape of a character begins with a percent sign. -/
theorem Escapes.exists_cons {c : Char} {e : List Char} (h : Escapes (String.utf8EncodeChar c) e) :
    ∃ e', e = '%' :: e' := by
  generalize hbytes : String.utf8EncodeChar c = bytes at h
  cases h with
  | nil => exact absurd hbytes String.utf8EncodeChar_ne_nil
  | cons ha hb h => exact ⟨_, rfl⟩

/-- The empty text stands for the empty string. -/
theorem Quoted.eq_nil {cs t : List Char} (h : Quoted cs t) (ht : t = []) : cs = [] := by
  induction h with
  | nil => rfl
  | plain hc h ih => exact absurd ht (List.cons_ne_nil _ _)
  | escaped he h ih =>
      obtain ⟨e', rfl⟩ := he.exists_cons
      exact absurd ht (List.cons_ne_nil _ _)

/-- A character that is not a percent sign stands for itself. -/
theorem Quoted.eq_cons {cs t t' : List Char} {c : Char} (h : Quoted cs t) (hc : c ≠ '%') (ht : t = c :: t') :
    ∃ cs', cs = c :: cs' ∧ Quoted cs' t' := by
  induction h with
  | nil => exact absurd ht.symm (List.cons_ne_nil _ _)
  | plain hd h ih =>
      obtain ⟨rfl, rfl⟩ := List.cons.inj ht
      exact ⟨_, rfl, h⟩
  | escaped he h ih =>
      obtain ⟨e', rfl⟩ := he.exists_cons
      exact absurd (List.cons.inj ht).1.symm hc

/-- A text is read part by part. -/
theorem unquoteParts_of_quoted {cs t : List Char} (h : Quoted cs t) : unquoteParts t = cs := by
  induction t using unquoteParts.induct generalizing cs with
  | case1 => rw [unquoteParts, h.eq_nil rfl]
  | case2 c t hascii ih =>
      rw [unquoteParts, if_pos hascii]
      obtain ⟨cs₁, cs₂, rfl, h₁, h₂⟩ := h.split
      rw [List.takeWhile_cons_of_pos hascii] at h₁
      rw [List.dropWhile_cons_of_pos hascii] at h₂
      have hrun : ∀ d ∈ c :: t.takeWhile isAscii, isAscii d = true := by
        intro d hd
        rcases List.mem_cons.1 hd with rfl | hd
        · exact hascii
        · exact List.mem_takeWhile_imp hd
      rw [h₁.unquoteToBytes hrun, decodeReplace_utf8Bytes, ih h₂]
  | case3 c t hascii ih =>
      rw [unquoteParts, if_neg hascii]
      have hc : c ≠ '%' := by
        rintro rfl
        exact hascii rfl
      obtain ⟨cs', rfl, h'⟩ := h.eq_cons hc rfl
      rw [ih h']

/-- A text without a percent sign stands for itself. -/
theorem Quoted.eq_of_not_mem {cs t : List Char} (h : Quoted cs t) (ht : '%' ∉ t) : cs = t := by
  induction h with
  | nil => rfl
  | plain hc h ih => rw [ih fun hmem => ht (List.mem_cons_of_mem _ hmem)]
  | escaped he h ih =>
      obtain ⟨e', rfl⟩ := he.exists_cons
      exact absurd List.mem_cons_self ht

/-- **The round trip**: whichever characters were escaped, the string is read back. -/
theorem unquote_of_quoted {cs t : List Char} (h : Quoted cs t) : unquote t = cs := by
  unfold unquote
  split_ifs with ht
  · exact unquoteParts_of_quoted h
  · exact (h.eq_of_not_mem ht).symm

/-! ## Forms -/

/-- **The text stands for the string, as the field of a form**: a space may be a plus sign, and a plus
sign is escaped. -/
inductive FormEncoded : List Char → List Char → Prop
  /-- Nothing. -/
  | nil : FormEncoded [] []
  /-- A character as it is. -/
  | plain {c : Char} {cs t : List Char} (hc : c ≠ '%') (hplus : c ≠ '+') (h : FormEncoded cs t) :
      FormEncoded (c :: cs) (c :: t)
  /-- A space. -/
  | space {cs t : List Char} (h : FormEncoded cs t) : FormEncoded (' ' :: cs) ('+' :: t)
  /-- A character escaped. -/
  | escaped {c : Char} {cs e t : List Char} (he : Escapes (String.utf8EncodeChar c) e)
      (h : FormEncoded cs t) : FormEncoded (c :: cs) (e ++ t)

/-- A hexadecimal digit is no plus sign. -/
theorem ne_plus_of_hexValue {c : Char} {n : Nat} (h : hexValue c = some n) : c ≠ '+' := by
  rintro rfl
  have hnone : hexValue '+' = none := by decide
  exact Option.some_ne_none n (h.symm.trans hnone)

/-- An escape has no plus sign. -/
theorem Escapes.plusToSpace {bs : List UInt8} {e : List Char} (h : Escapes bs e) : plusToSpace e = e := by
  induction h with
  | nil => rfl
  | cons ha hb h ih =>
      unfold Percent.plusToSpace at ih ⊢
      have hsign : '%' ≠ '+' := by decide
      simp only [List.map_cons, ih, if_neg hsign, if_neg (ne_plus_of_hexValue ha),
        if_neg (ne_plus_of_hexValue hb)]

/-- With its plus signs read as spaces the field of a form is a quoted text. -/
theorem FormEncoded.quoted {cs t : List Char} (h : FormEncoded cs t) : Quoted cs (plusToSpace t) := by
  induction h with
  | nil => exact .nil
  | @plain c cs t hc hplus h ih =>
      show Quoted (c :: cs) ((if c = '+' then ' ' else c) :: plusToSpace t)
      rw [if_neg hplus]
      exact .plain hc ih
  | space h ih => exact .plain (by decide) ih
  | escaped he h ih =>
      unfold plusToSpace at ih ⊢
      rw [List.map_append]
      have he' := he.plusToSpace
      unfold plusToSpace at he'
      rw [he']
      exact .escaped he ih

/-- **The round trip of a form's field.** -/
theorem unquotePlus_of_formEncoded {cs t : List Char} (h : FormEncoded cs t) : unquotePlus t = cs :=
  unquote_of_quoted h.quoted

/-- A text without percent and plus signs, with plus signs for its spaces. -/
theorem formEncoded_of_plain (cs : List Char) (h : (cs.all fun c => c ≠ '%' && c ≠ '+') = true) :
    FormEncoded cs (cs.map fun c => if c = ' ' then '+' else c) := by
  induction cs with
  | nil => exact .nil
  | cons c cs ih =>
      simp only [List.all_cons, Bool.and_eq_true, decide_eq_true_eq] at h
      obtain ⟨⟨hpercent, hplus⟩, hrest⟩ := h
      have ih := ih (by simpa only [Bool.decide_and] using hrest)
      rw [List.map_cons]
      split_ifs with hspace
      · rw [hspace]
        exact .space ih
      · exact .plain hpercent hplus ih

end Percent
