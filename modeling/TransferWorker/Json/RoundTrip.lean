import TransferWorker.Json.Text

/-! # The round trip of JSON text

What the writer writes, the reader reads back: first characters, strings and numbers, then values
by induction on their structure. The fuel a value needs is bounded by the length of its text. A reader
with a limit on digits reads the same values, of fewer texts. -/

namespace Json

/-! ## Strings -/

/-- A digit that was written is read back. -/
theorem hexDigit_hexChar : ∀ d < 16, hexDigit (hexChar d) = some d := by decide

/-- An escape is read as one character. -/
theorem readChars_backslash {n : Nat} {c : Char} {cs rest : List Char}
    (h : readEscape cs = some (c, rest)) :
    readChars (n + 1) ('\\' :: cs) = (readChars n rest).bind fun p => some (c :: p.1, p.2) := by
  simp [readChars, h]

/-- The escape of a control character is read back. -/
theorem readEscape_control {c : Char} (hc : c.toNat < 0x20) (rest : List Char) :
    readEscape ('u' :: '0' :: '0' :: hexChar (c.toNat / 16) :: hexChar (c.toNat % 16) :: rest) =
      some (c, rest) := by
  have hd := hexDigit_hexChar (c.toNat / 16) (by omega)
  have hm := hexDigit_hexChar (c.toNat % 16) (Nat.mod_lt _ (by decide))
  have hz : hexDigit '0' = some 0 := rfl
  have hhigh : ¬ 0xD800 ≤ c.toNat := by omega
  have hlow : ¬ 0xDC00 ≤ c.toNat := by omega
  simp [readEscape, readUnicode, readHex, hz, hd, hm, Nat.div_add_mod, hhigh, hlow]

/-- One written character is read back as itself. -/
theorem readChars_escape (n : Nat) (c : Char) (rest : List Char) :
    readChars (n + 1) (escape c ++ rest) =
      (readChars n rest).bind fun p => some (c :: p.1, p.2) := by
  unfold escape
  split_ifs with h1 h2 h3 h4 h5 h6 h7 h8
  · subst h1; exact readChars_backslash rfl
  · subst h2; exact readChars_backslash rfl
  · subst h3; exact readChars_backslash rfl
  · subst h4; exact readChars_backslash rfl
  · subst h5; exact readChars_backslash rfl
  · subst h6; exact readChars_backslash rfl
  · subst h7; exact readChars_backslash rfl
  · exact readChars_backslash (readEscape_control h8 rest)
  · simp [readChars, h1, h2, h8]

/-- The characters of a string that were written are read back. -/
theorem readChars_renderChars (cs : List Char) {n : Nat} (rest : List Char) (hn : cs.length < n) :
    readChars n (renderChars cs ++ rest) = some (cs, rest) := by
  induction cs generalizing n with
  | nil =>
      obtain ⟨n, rfl⟩ := Nat.exists_eq_add_one_of_ne_zero (Nat.ne_zero_of_lt hn)
      simp [renderChars, readChars]
  | cons c cs ih =>
      obtain ⟨n, rfl⟩ := Nat.exists_eq_add_one_of_ne_zero (Nat.ne_zero_of_lt hn)
      rw [renderChars, List.append_assoc, readChars_escape, ih (by simpa using hn)]
      rfl

/-- A string is written with at least its characters and the closing quotation mark. -/
theorem length_le_renderChars (cs : List Char) : cs.length < (renderChars cs).length := by
  induction cs with
  | nil => simp [renderChars]
  | cons c cs ih =>
      have hpos : 0 < (escape c).length := by unfold escape; split_ifs <;> simp
      simp only [renderChars, List.length_append, List.length_cons]
      omega

/-- A string that was written is read back. -/
theorem readString_renderString (s : String) (rest : List Char) :
    readString (renderChars s.toList ++ rest) = some (s, rest) := by
  have hlen := length_le_renderChars s.toList
  rw [readString, readChars_renderChars _ _ (by rw [List.length_append]; omega)]
  simp

/-! ## Numbers -/

/-- The text that follows does not continue a number. -/
def Ends (rest : List Char) : Prop :=
  ∀ c ∈ rest.head?, c.isDigit = false ∧ c ≠ '.' ∧ c ≠ 'e' ∧ c ≠ 'E'

/-- A number ends at the end of the text. -/
theorem ends_nil : Ends [] := by simp [Ends]

/-- A number ends at any other character. -/
theorem ends_cons {c : Char} {rest : List Char}
    (h : c.isDigit = false ∧ c ≠ '.' ∧ c ≠ 'e' ∧ c ≠ 'E') : Ends (c :: rest) := by
  simpa [Ends] using h

/-- Decimal digits are read up to the first other character. -/
theorem readDigits_toDigits (n : Nat) {rest : List Char}
    (hrest : ∀ c ∈ rest.head?, c.isDigit = false) :
    readDigits (Nat.toDigits 10 n ++ rest) = some (Nat.toDigits 10 n, rest) := by
  have hdigits : ∀ c ∈ Nat.toDigits 10 n, c.isDigit = true := fun c hc =>
    Nat.isDigit_of_mem_toDigits (by decide) (by decide) hc
  have htake : rest.takeWhile Char.isDigit = [] := by
    cases rest with
    | nil => rfl
    | cons c cs => simp [hrest c (by simp)]
  have hdrop : rest.dropWhile Char.isDigit = rest := by
    cases rest with
    | nil => rfl
    | cons c cs => simp [hrest c (by simp)]
  rw [readDigits, List.takeWhile_append_of_pos hdigits, List.dropWhile_append_of_pos hdigits,
    htake, hdrop, List.append_nil]
  cases hds : Nat.toDigits 10 n with
  | nil => exact absurd hds Nat.toDigits_ne_nil
  | cons d ds => rfl

/-- A positive number is written without a leading zero. -/
theorem head_toDigits {n : Nat} (hn : 0 < n) : (Nat.toDigits 10 n).head? ≠ some '0' := by
  induction n using Nat.strong_induction_on with
  | _ n ih =>
      rcases Nat.lt_or_ge n 10 with h | h
      · rw [Nat.toDigits_of_lt_base h]
        have hdigit : ∀ d < 10, 0 < d → [d.digitChar].head? ≠ some '0' := by decide
        exact hdigit n h hn
      · have hrec := ih (n / 10) (Nat.div_lt_self hn (by decide)) (by omega)
        rw [Nat.toDigits_of_base_le (by decide) h, List.head?_append]
        cases hds : Nat.toDigits 10 (n / 10) with
        | nil => exact absurd hds Nat.toDigits_ne_nil
        | cons d ds => simpa [hds] using hrec

/-- The digits of a number are read up to its end. -/
theorem readWhole_toDigits (n : Nat) {rest : List Char}
    (hrest : ∀ c ∈ rest.head?, c.isDigit = false) :
    readWhole none (Nat.toDigits 10 n ++ rest) = some (Nat.toDigits 10 n, rest) := by
  have hzero : ¬ ((Nat.toDigits 10 n).head? = some '0' ∧ (Nat.toDigits 10 n).length ≠ 1) := by
    rintro ⟨hhead, hlen⟩
    rcases Nat.eq_zero_or_pos n with rfl | hn
    · exact hlen (by rw [Nat.toDigits_zero]; rfl)
    · exact head_toDigits hn hhead
  rw [readWhole, readDigits_toDigits n hrest]
  simp [hzero]

/-- An integer is its sign and the digits of its absolute value. -/
theorem signed_toDigits (n : Int) :
    signed (decide (n < 0)) (Nat.toDigits 10 n.natAbs) = n := by
  rw [signed, Nat.ofDigitChars_ten_toDigits]
  split_ifs with h <;> simp at h <;> omega

/-- A digit is none of the characters the reader branches on. -/
theorem isDigit_ne {c d : Char} (hc : c.isDigit = true) (hd : d.isDigit = false) : c ≠ d := by
  rintro rfl
  simp [hc] at hd

/-- No fraction follows a number that ends. -/
theorem readFraction_of_ends {rest : List Char} (h : ∀ c ∈ rest.head?, c ≠ '.') :
    readFraction rest = some ([], rest) := by
  cases rest with
  | nil => rfl
  | cons c cs => simp [readFraction, h c (by simp)]

/-- No exponent follows a number that ends. -/
theorem readExponent_of_ends {rest : List Char} (h : Ends rest) :
    readExponent rest = some (none, rest) := by
  cases rest with
  | nil => rfl
  | cons c cs => simp [readExponent, (h c (by simp)).2.2.1, (h c (by simp)).2.2.2]

/-- The exponent the writer writes. -/
theorem readExponent_renderInt (e : Int) {rest : List Char} (h : Ends rest) :
    readExponent ('e' :: (renderInt e ++ rest)) = some (some e, rest) := by
  have hdig : ∀ c ∈ rest.head?, c.isDigit = false := fun c hc => (h c hc).1
  have hs := signed_toDigits e
  unfold renderInt
  split_ifs with he
  · simp only [decide_eq_true he] at hs
    simp [readExponent, readDigits_toDigits _ hdig, hs]
  · simp only [decide_eq_false he] at hs
    cases hds : Nat.toDigits 10 e.natAbs with
    | nil => exact absurd hds Nat.toDigits_ne_nil
    | cons d ds =>
        have hd : d.isDigit = true :=
          Nat.isDigit_of_mem_toDigits (b := 10) (n := e.natAbs) (by decide) (by decide)
            (by simp [hds])
        have hread := readDigits_toDigits e.natAbs hdig
        rw [hds, List.cons_append] at hread
        rw [hds] at hs
        have hminus := isDigit_ne hd (d := '-') rfl
        have hplus := isDigit_ne hd (d := '+') rfl
        simp [readExponent, hminus, hplus, hread, hs]

/-- A written number, up to the exponent that may follow it. -/
theorem readNumber_renderInt (n : Int) (rest : List Char)
    (hrest : ∀ c ∈ rest.head?, c.isDigit = false ∧ c ≠ '.') :
    readNumber none (renderInt n ++ rest) = (readExponent rest).bind fun p =>
      some (p.1.elim (.int n) (.float n), p.2) := by
  have hdig : ∀ c ∈ rest.head?, c.isDigit = false := fun c hc => (hrest c hc).1
  have hdot : ∀ c ∈ rest.head?, c ≠ '.' := fun c hc => (hrest c hc).2
  have hs := signed_toDigits n
  have hend : ∀ neg, signed neg (Nat.toDigits 10 n.natAbs) = n → ∀ e : Option Int,
      number neg (Nat.toDigits 10 n.natAbs) [] e = e.elim (.int n) (.float n) := by
    rintro neg hneg (- | e) <;> simp [hneg]
  unfold renderInt
  split_ifs with hn
  · simp only [decide_eq_true hn] at hs
    simp [readNumber, readWhole_toDigits _ hdig, readFraction_of_ends hdot, hend true hs]
  · simp only [decide_eq_false hn] at hs
    have hread := readWhole_toDigits n.natAbs hdig
    have hend := hend false hs
    cases hds : Nat.toDigits 10 n.natAbs with
    | nil => exact absurd hds Nat.toDigits_ne_nil
    | cons d ds =>
        have hd : d.isDigit = true :=
          Nat.isDigit_of_mem_toDigits (b := 10) (n := n.natAbs) (by decide) (by decide)
            (by simp [hds])
        have hminus := isDigit_ne hd (d := '-') rfl
        rw [hds] at hend
        rw [hds, List.cons_append] at hread
        simp [readNumber, hminus, hread, readFraction_of_ends hdot, hend]

/-! ## Values -/

/-- What is no white space is not skipped. -/
theorem skipSpace_cons {c : Char} (h : isSpace c = false) (cs : List Char) :
    skipSpace (c :: cs) = c :: cs := by
  simp [skipSpace, h]

/-- A digit or a minus sign starts a number and nothing else. -/
theorem renderInt_head (n : Int) : ∃ c cs, renderInt n = c :: cs ∧ (c = '-' ∨ c.isDigit = true) := by
  unfold renderInt
  split_ifs with h
  · exact ⟨_, _, rfl, .inl rfl⟩
  · cases hds : Nat.toDigits 10 n.natAbs with
    | nil => exact absurd hds Nat.toDigits_ne_nil
    | cons d ds =>
        exact ⟨d, ds, rfl, .inr (Nat.isDigit_of_mem_toDigits (b := 10) (n := n.natAbs)
          (by decide) (by decide) (by simp [hds]))⟩

/-- The reader takes a text that starts like a number for a number. -/
theorem readValue_number {c : Char} {cs : List Char} (hc : c = '-' ∨ c.isDigit = true) (n : Nat) :
    readValue none (n + 1) (c :: cs) = readNumber none (c :: cs) := by
  have hne : ∀ d : Char, d.isDigit = false → d ≠ '-' → c ≠ d := by
    intro d hd hm
    rcases hc with rfl | hc
    · exact hm.symm
    · exact isDigit_ne hc hd
  have hspace : isSpace c = false := by
    simp [isSpace, hne ' ' rfl (by decide), hne '\n' rfl (by decide), hne '\r' rfl (by decide),
      hne '\t' rfl (by decide)]
  rw [readValue, skipSpace_cons hspace]
  simp [hne 'n' rfl (by decide), hne 't' rfl (by decide), hne 'f' rfl (by decide),
    hne '\x22' rfl (by decide), hne '[' rfl (by decide), hne '\x7b' rfl (by decide)]

/-- A written value starts with a character that is no white space and closes nothing. -/
theorem render_head (v : Value) : ∃ c cs, render v = c :: cs ∧
    isSpace c = false ∧ c ≠ ']' ∧ c ≠ '\x7d' := by
  have hnum : ∀ n : Int, ∃ c cs, renderInt n = c :: cs ∧
      isSpace c = false ∧ c ≠ ']' ∧ c ≠ '\x7d' := by
    intro n
    obtain ⟨c, cs, h, hc⟩ := renderInt_head n
    refine ⟨c, cs, h, ?_⟩
    rcases hc with rfl | hc
    · exact ⟨rfl, by decide, by decide⟩
    · refine ⟨?_, isDigit_ne hc rfl, isDigit_ne hc rfl⟩
      simp [isSpace, isDigit_ne hc (d := ' ') rfl, isDigit_ne hc (d := '\n') rfl,
        isDigit_ne hc (d := '\r') rfl, isDigit_ne hc (d := '\t') rfl]
  rcases v with - | (- | -) | n | ⟨m, e⟩ | s | (- | ⟨x, xs⟩) | (- | ⟨⟨k, x⟩, ms⟩)
  · exact ⟨_, _, rfl, rfl, by decide, by decide⟩
  · exact ⟨_, _, rfl, rfl, by decide, by decide⟩
  · exact ⟨_, _, rfl, rfl, by decide, by decide⟩
  · exact hnum n
  · obtain ⟨c, cs, h, hc⟩ := hnum m
    exact ⟨c, cs ++ 'e' :: renderInt e, by rw [render, h, List.cons_append], hc⟩
  · exact ⟨_, _, rfl, rfl, by decide, by decide⟩
  · exact ⟨_, _, rfl, rfl, by decide, by decide⟩
  · exact ⟨_, _, rfl, rfl, by decide, by decide⟩
  · exact ⟨_, _, rfl, rfl, by decide, by decide⟩
  · exact ⟨_, _, rfl, rfl, by decide, by decide⟩

/-- A number ends before the next item. -/
theorem ends_renderItems (xs : List Value) (rest : List Char) : Ends (renderItems xs ++ rest) := by
  cases xs <;> exact ends_cons (by decide)

/-- A number ends before the next member. -/
theorem ends_renderMembers (ms : List (String × Value)) (rest : List Char) :
    Ends (renderMembers ms ++ rest) := by
  rcases ms with - | ⟨⟨k, v⟩, ms⟩ <;> exact ends_cons (by decide)

/-- One member is read back, given that its value is. -/
theorem readMember_render {n : Nat} {k : String} {v : Value} {rest : List Char}
    (hv : readValue none n (render v ++ rest) = some (v, rest)) :
    readMember none (n + 1) (renderString k ++ ':' :: (render v ++ rest)) = some (k, v, rest) := by
  have hq : isSpace '\x22' = false := rfl
  have hc : isSpace ':' = false := rfl
  rw [readMember, renderString, List.cons_append, skipSpace_cons hq]
  simp [readString_renderString, skipSpace_cons hc, hv]

mutual

/-- **The round trip with fuel**: a value is read back as soon as the fuel covers its text. -/
theorem readValue_render : ∀ (v : Value) {n : Nat} (rest : List Char), (render v).length ≤ n →
    Ends rest → readValue none n (render v ++ rest) = some (v, rest)
  | v, 0, _, h, _ => by
      obtain ⟨c, cs, hc, -⟩ := render_head v
      simp [hc] at h
  | .null, n + 1, rest, _, _ => by
      simp [render, readValue, skipSpace_cons (c := 'n') rfl, readWord, List.isPrefixOf]
  | .bool true, n + 1, rest, _, _ => by
      simp [render, readValue, skipSpace_cons (c := 't') rfl, readWord, List.isPrefixOf]
  | .bool false, n + 1, rest, _, _ => by
      simp [render, readValue, skipSpace_cons (c := 'f') rfl, readWord, List.isPrefixOf]
  | .int i, n + 1, rest, _, hrest => by
      obtain ⟨c, cs, hi, hc⟩ := renderInt_head i
      have hnum := readNumber_renderInt i rest
        fun c hc => ⟨(hrest c hc).1, (hrest c hc).2.1⟩
      rw [readExponent_of_ends hrest] at hnum
      rw [render, hi, List.cons_append, readValue_number hc, ← List.cons_append, ← hi, hnum]
      rfl
  | .float m e, n + 1, rest, _, hrest => by
      obtain ⟨c, cs, hm, hc⟩ := renderInt_head m
      have hnum := readNumber_renderInt m ('e' :: (renderInt e ++ rest)) (by simp)
      rw [readExponent_renderInt e hrest] at hnum
      rw [render, List.append_assoc, List.cons_append, hm, List.cons_append, readValue_number hc,
        ← List.cons_append, ← hm, hnum]
      rfl
  | .str s, n + 1, rest, _, _ => by
      have hs := readString_renderString s rest
      simp [render, renderString, readValue, skipSpace_cons (c := '\x22') rfl, hs]
  | .arr [], n + 1, rest, _, _ => by
      simp [render, readValue, skipSpace_cons (c := '[') rfl, skipSpace_cons (c := ']') rfl]
  -- the bracket is a character of its own, so the fuel left covers the parts
  | .arr (x :: xs), n + 1, rest, h, _ => by
      simp only [render, List.length_cons, List.length_append] at h
      have hx := readValue_render x (n := n) _ (by omega) (ends_renderItems xs rest)
      have hxs := readItems_render xs (n := n) rest (by omega)
      obtain ⟨c, cs, hc, hspace, hclose, -⟩ := render_head x
      rw [render, List.cons_append, List.append_assoc, readValue, skipSpace_cons (c := '[') rfl]
      rw [hc, List.cons_append] at hx ⊢
      simp [skipSpace_cons hspace, hclose, hx, hxs]
  | .obj [], n + 1, rest, _, _ => by
      simp [render, readValue, skipSpace_cons (c := '\x7b') rfl, skipSpace_cons (c := '\x7d') rfl]
  | .obj ((k, v) :: ms), n + 1, rest, h, _ => by
      simp only [render, List.length_cons, List.length_append] at h
      -- a member takes one more round for its name and colon
      obtain ⟨n, rfl⟩ : ∃ m, n = m + 1 := ⟨n - 1, by omega⟩
      have hv := readValue_render v (n := n) _ (by omega) (ends_renderMembers ms rest)
      have hms := readMembers_render ms (n := n + 1) rest (by omega)
      have hm := readMember_render (k := k) hv
      rw [render, List.cons_append, List.append_assoc, List.cons_append, List.append_assoc,
        readValue, skipSpace_cons (c := '\x7b') rfl]
      rw [renderString, List.cons_append] at hm ⊢
      simp [skipSpace_cons (c := '\x22') rfl, hm, hms]

/-- The items after the first one are read back. -/
theorem readItems_render : ∀ (xs : List Value) {n : Nat} (rest : List Char),
    (renderItems xs).length ≤ n → readItems none n (renderItems xs ++ rest) = some (xs, rest)
  | [], 0, _, h => by simp [renderItems] at h
  | _ :: _, 0, _, h => by simp [renderItems] at h
  | [], n + 1, rest, _ => by
      simp [renderItems, readItems, skipSpace_cons (c := ']') rfl]
  | x :: xs, n + 1, rest, h => by
      simp only [renderItems, List.length_cons, List.length_append] at h
      have hx := readValue_render x (n := n) _ (by omega) (ends_renderItems xs rest)
      have hxs := readItems_render xs (n := n) rest (by omega)
      simp [renderItems, readItems, skipSpace_cons (c := ',') rfl, hx, hxs]

/-- The members after the first one are read back. -/
theorem readMembers_render : ∀ (ms : List (String × Value)) {n : Nat} (rest : List Char),
    (renderMembers ms).length ≤ n → readMembers none n (renderMembers ms ++ rest) = some (ms, rest)
  | [], 0, _, h => by simp [renderMembers] at h
  | _ :: _, 0, _, h => by simp [renderMembers] at h
  | [], n + 1, rest, _ => by
      simp [renderMembers, readMembers, skipSpace_cons (c := '\x7d') rfl]
  | (k, v) :: ms, n + 1, rest, h => by
      simp only [renderMembers, List.length_cons, List.length_append] at h
      obtain ⟨n, rfl⟩ : ∃ m, n = m + 1 := ⟨n - 1, by omega⟩
      have hv := readValue_render v (n := n) _ (by omega) (ends_renderMembers ms rest)
      have hms := readMembers_render ms (n := n + 1) rest (by omega)
      have hm := readMember_render (k := k) hv
      rw [renderMembers, List.cons_append, List.append_assoc, List.cons_append, List.append_assoc,
        readMembers, skipSpace_cons (c := ',') rfl]
      simp [hm, hms]

end

/-- **The round trip of texts.** -/
theorem parse_render (v : Value) : parse none (render v) = some v := by
  have h := readValue_render v (n := (render v).length + 1) [] (Nat.le_succ _) ends_nil
  rw [List.append_nil] at h
  simp only [parse, h]
  rfl

/-- A text is read back from its bytes. -/
theorem fromUTF8?_toUTF8 (s : String) : String.fromUTF8? s.toUTF8 = some s := by
  simp only [String.fromUTF8?]
  split
  · rfl
  · exact absurd s.isValidUTF8 (by assumption)

/-- What is read of written bytes is what is read of their text. -/
theorem loadsWithin_dumps (limit : Option Nat) (v : Value) :
    loadsWithin limit (dumps v) = parse limit (render v) := by
  rw [dumps, loadsWithin, fromUTF8?_toUTF8]
  show parse limit (String.ofList (render v)).toList = _
  rw [String.toList_ofList]

/-- **The round trip of bytes.** -/
@[simp] theorem loads_dumps (v : Value) : loads (dumps v) = some v := by
  rw [loads, loadsWithin_dumps, parse_render]

/-! ## A limit on digits -/

/-- The first computation has no other result than the second. -/
def Within {α : Type} (x y : Option α) : Prop := ∀ a, x = some a → y = some a

/-- The reader with a limit agrees with itself. -/
theorem Within.refl {α : Type} (x : Option α) : Within x x := fun _ h => h

/-- Computations are within others step by step. -/
theorem Within.bind {α β : Type} {x y : Option α} {f g : α → Option β} (h : Within x y)
    (hfg : ∀ a, Within (f a) (g a)) : Within (x >>= f) (y >>= g) := by
  intro b hb
  obtain ⟨a, ha, hb⟩ := Option.bind_eq_some_iff.1 hb
  exact Option.bind_eq_some_iff.2 ⟨a, h a ha, hfg a b hb⟩

variable {limit : Option Nat}

/-- The digits of a number within the limit. -/
theorem within_readWhole (cs : List Char) : Within (readWhole limit cs) (readWhole none cs) := by
  refine .bind (.refl _) fun p a ha => ?_
  dsimp only at ha ⊢
  split_ifs at ha with hzero hlong
  rw [if_neg hzero]
  exact ha

/-- The limit on digits is the only difference between two readers of numbers. -/
theorem within_readNumber (cs : List Char) : Within (readNumber limit cs) (readNumber none cs) :=
  .bind (within_readWhole _) fun _ => .refl _

/-- The values of a reader with a limit, for all kinds of text at once. -/
theorem within_readers (n : Nat) :
    (∀ cs, Within (readValue limit n cs) (readValue none n cs)) ∧
    (∀ cs, Within (readItems limit n cs) (readItems none n cs)) ∧
    (∀ cs, Within (readMember limit n cs) (readMember none n cs)) ∧
    ∀ cs, Within (readMembers limit n cs) (readMembers none n cs) := by
  induction n with
  | zero =>
      refine ⟨fun cs a h => ?_, fun cs a h => ?_, fun cs a h => ?_, fun cs a h => ?_⟩
      · cases h
      · cases h
      · cases h
      · cases h
  | succ n ih =>
      -- the four readers call each other with less fuel; only numbers differ
      obtain ⟨hvalue, hitems, hmember, hmembers⟩ := ih
      refine ⟨fun cs => ?_, fun cs => ?_, fun cs => ?_, fun cs => ?_⟩
      · unfold readValue
        cases skipSpace cs with
        | nil => exact .refl _
        | cons c cs =>
            dsimp only
            split_ifs
            · exact .refl _
            · exact .refl _
            · exact .refl _
            · exact .refl _
            · split
              · exact .refl _
              · exact .bind (hvalue _) fun _ => .bind (hitems _) fun _ => .refl _
            · split
              · exact .refl _
              · exact .bind (hmember _) fun _ => .bind (hmembers _) fun _ => .refl _
            · exact within_readNumber _
      · unfold readItems
        split
        · exact .refl _
        · exact .bind (hvalue _) fun _ => .bind (hitems _) fun _ => .refl _
        · exact .refl _
      · unfold readMember
        split
        · refine .bind (.refl _) fun p => ?_
          dsimp only
          split
          · exact .bind (hvalue _) fun _ => .refl _
          · exact .refl _
        · exact .refl _
      · unfold readMembers
        split
        · exact .refl _
        · exact .bind (hmember _) fun _ => .bind (hmembers _) fun _ => .refl _
        · exact .refl _

/-- **What a reader with a limit reads is the value of the text.** -/
theorem loads_of_loadsWithin {bytes : ByteArray} {v : Value} (h : loadsWithin limit bytes = some v) :
    loads bytes = some v := by
  have hparse : ∀ cs : List Char, Within (parse limit cs) (parse none cs) := fun cs =>
    .bind ((within_readers _).1 cs) fun _ => .refl _
  exact Within.bind (.refl _) (fun s : String => hparse s.toList) v h

/-- A written value whose text is within the limit is read back. -/
theorem loadsWithin_dumps_of_isSome {v : Value} (h : (parse limit (render v)).isSome = true) :
    loadsWithin limit (dumps v) = some v := by
  obtain ⟨w, hw⟩ := Option.isSome_iff_exists.1 h
  rw [← loadsWithin_dumps] at hw
  have hread := loads_of_loadsWithin hw
  rw [loads_dumps] at hread
  rw [hw, Option.some.inj hread]

/-! ## Unrepeated names -/

/-- The names of the members of an unrepeated object are different. -/
theorem Value.Unrepeated.nodup {ms : List (String × Value)} (h : (Value.obj ms).Unrepeated) :
    (ms.map Prod.fst).Nodup := by
  rw [Value.Unrepeated, Value.isUnrepeated, Bool.and_eq_true, decide_eq_true_eq] at h
  exact h.1

/-- If no name is repeated, every member counts. -/
theorem lookup_of_mem {ms : List (String × Value)} (hms : (ms.map Prod.fst).Nodup) {m : String × Value}
    (hm : m ∈ ms) : lookup m.1 ms = some m.2 := by
  induction ms with
  | nil => exact absurd hm List.not_mem_nil
  | cons p ms ih =>
      rw [List.map_cons, List.nodup_cons] at hms
      rw [lookup_cons]
      rcases List.mem_cons.1 hm with rfl | hm
      · rw [if_pos rfl]
      · have hname : p.1 ≠ m.1 := fun h => hms.1 (List.mem_map.2 ⟨m, hm, h.symm⟩)
        rw [if_neg hname, ih hms.2 hm]

/-- The values of the members of an unrepeated object are unrepeated. -/
theorem Value.Unrepeated.member {ms : List (String × Value)} (h : (Value.obj ms).Unrepeated)
    {m : String × Value} (hm : m ∈ ms) : m.2.Unrepeated := by
  rw [Value.Unrepeated, Value.isUnrepeated, Bool.and_eq_true] at h
  have hall : ∀ ns : List (String × Value), membersUnrepeated ns = true → m ∈ ns → m.2.Unrepeated := by
    intro ns hns hmem
    induction ns with
    | nil => exact absurd hmem List.not_mem_nil
    | cons n ns ih =>
        rw [membersUnrepeated, Bool.and_eq_true] at hns
        rcases List.mem_cons.1 hmem with rfl | hmem
        · exact hns.1
        · exact ih hns.2 hmem
  exact hall ms h.2 hm

/-- So are the items of an unrepeated array. -/
theorem Value.Unrepeated.item {xs : List Value} (h : (Value.arr xs).Unrepeated) {x : Value} (hx : x ∈ xs) :
    x.Unrepeated := by
  rw [Value.Unrepeated, Value.isUnrepeated] at h
  induction xs with
  | nil => exact absurd hx List.not_mem_nil
  | cons y ys ih =>
      rw [itemsUnrepeated, Bool.and_eq_true] at h
      rcases List.mem_cons.1 hx with rfl | hx
      · exact h.1
      · exact ih h.2 hx

/-! ## Nesting -/

/-- A value that is neither an array nor an object is not nested. -/
theorem isShallow_of_leaf {v : Value} (harr : ∀ xs, v ≠ .arr xs) (hobj : ∀ ms, v ≠ .obj ms) (n : Nat) :
    v.isShallow n = true := by
  cases v with
  | arr xs => exact absurd rfl (harr xs)
  | obj ms => exact absurd rfl (hobj ms)
  | _ => cases n <;> rfl

/-- An array is one level deeper than its items. -/
theorem isShallow_arr {n : Nat} {xs : List Value} (h : ∀ x ∈ xs, x.isShallow n = true) :
    (Value.arr xs).isShallow (n + 1) = true := List.all_eq_true.2 h

/-- An object is one level deeper than the values of its members. -/
theorem isShallow_obj {n : Nat} {ms : List (String × Value)} (h : ∀ m ∈ ms, m.2.isShallow n = true) :
    (Value.obj ms).isShallow (n + 1) = true := List.all_eq_true.2 h

/-- More levels may be allowed. -/
theorem isShallow_of_le {n k : Nat} {v : Value} (h : v.isShallow n = true) (hk : n ≤ k) :
    v.isShallow k = true := by
  induction k generalizing n v with
  | zero =>
      obtain rfl := Nat.le_zero.1 hk
      exact h
  | succ k ih =>
      cases v with
      | arr xs =>
          cases n with
          | zero => cases h
          | succ n => exact isShallow_arr fun x hx => ih (List.all_eq_true.1 h x hx) (Nat.le_of_succ_le_succ hk)
      | obj ms =>
          cases n with
          | zero => cases h
          | succ n => exact isShallow_obj fun m hm => ih (List.all_eq_true.1 h m hm) (Nat.le_of_succ_le_succ hk)
      | _ => exact isShallow_of_leaf (by simp) (by simp) _

end Json
