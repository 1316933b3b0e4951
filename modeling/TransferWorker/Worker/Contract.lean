import TransferWorker.Json.Schema
import TransferWorker.Worker.Negotiation

/-! # The published contract

The JSON schema of `file.transfer.requested`, and how the decoder compares with it. The two grammars
have the same objects with the same members; they differ in single values, in which `null` is allowed
where, and in the members that `retry` must have.

* **`transferEventSchema`** — the published schema.
* **`EventFits`** — every member of a document is good for the schema or for the decoder.
* **`EventLenient`**, `EventStrict` — what the decoder alone, or the schema alone, takes.
* **`decoder_agrees_iff`** — on which documents the two agree. -/

namespace TransferWorker

open Json (Value lookup Schema isInteger)

/-! ## The schema -/

/-- `^[0-9]+\.[0-9]+$` -/
def versionPattern (s : String) : Bool :=
  let major := s.toList.takeWhile isAsciiDigit
  match s.toList.dropWhile isAsciiDigit with
  | '.' :: minor => major ≠ [] && minor ≠ [] && minor.all isAsciiDigit
  | _ => false

/-- `[a-f0-9]{64}` -/
def hexText (cs : List Char) : Bool := cs.length = 64 && cs.all isLowerHex

/-- `^[a-f0-9]{64}$` -/
def checksumPattern (s : String) : Bool := hexText s.toList

/-- `^sha256:[a-f0-9]{64}$` -/
def keyPattern (s : String) : Bool := "sha256:".toList.isPrefixOf s.toList && hexText (s.toList.drop 7)

/-- `source` -/
def sourceSchema : Schema :=
  .object [("provider", .enum ["sftp"]), ("path", .anyString)] ["provider", "path"]

/-- `file` -/
def fileSchema : Schema :=
  .object [("name", .anyString), ("sizeBytes", .integer 0), ("checksumSha256", .string checksumPattern),
    ("contentType", .anyString)] ["name", "sizeBytes", "checksumSha256"]

/-- The items of `destinations`. -/
def destinationSchema : Schema :=
  .object [("provider", .enum ["aws-s3", "gcp-gcs"]), ("bucket", .anyString), ("key", .anyString),
    ("region", .anyString)] ["provider", "bucket", "key"]

/-- `retry` -/
def retrySchema : Schema :=
  .object [("attempt", .integer 1), ("maxAttempts", .integer 1), ("lastError", .anyString)] []

/-- **`schemas/transfer-event.schema.json`** -/
def transferEventSchema : Schema :=
  .object [("schemaVersion", .string versionPattern), ("eventType", .enum ["file.transfer.requested"]),
    ("eventId", .anyString), ("correlationId", .anyString), ("idempotencyKey", .string keyPattern),
    ("occurredAt", .anyString), ("source", sourceSchema), ("file", fileSchema),
    ("destinations", .array destinationSchema 1), ("retry", retrySchema)]
    ["schemaVersion", "eventType", "eventId", "correlationId", "idempotencyKey", "occurredAt", "source",
      "file", "destinations"]

/-! ## The patterns and the regular expressions -/

/-- A text ends in a newline. -/
def EndsInNewline (s : String) : Prop := s.toList.getLast? = some '\n'

/-- What `[a-f0-9]{64}$` of the decoder matches: the pattern, or the pattern and a final newline. -/
theorem hexText_iff {cs : List Char} (h : isHex64 cs = true) :
    hexText cs = true ↔ cs.getLast? ≠ some '\n' := by
  simp only [isHex64, atEnd, Bool.and_eq_true, Bool.or_eq_true, decide_eq_true_eq] at h
  have hsplit := List.takeWhile_append_dropWhile (p := isLowerHex) (l := cs)
  have hall : ∀ c ∈ cs.takeWhile isLowerHex, isLowerHex c = true := fun c hc =>
    List.mem_takeWhile_imp hc
  obtain ⟨hlength, hend | hend⟩ := h
  · rw [hend, List.append_nil] at hsplit
    rw [hsplit] at hlength hall
    refine iff_of_true (by simpa [hexText, hlength] using hall) fun hlast => ?_
    have hnewline := hall _ (List.mem_of_getLast? hlast)
    exact absurd hnewline (by decide)
  · rw [hend] at hsplit
    refine iff_of_false ?_ ?_
    · rw [← hsplit]
      simp [hexText, hlength]
    · rw [← hsplit]
      simp

/-- A text of 64 lower-case hexadecimal characters is one in the sense of the validators. -/
theorem isHex64_of_hexText {cs : List Char} (h : hexText cs = true) : isHex64 cs = true := by
  simp only [hexText, Bool.and_eq_true, decide_eq_true_eq, List.all_eq_true] at h
  have htake : cs.takeWhile isLowerHex = cs := List.takeWhile_eq_self_iff.2 h.2
  have hdrop : cs.dropWhile isLowerHex = [] := List.dropWhile_eq_nil_iff.2 h.2
  simp [isHex64, atEnd, htake, hdrop, h.1]

/-- A checksum that meets the pattern of the contract is accepted. -/
theorem matchSha256_of_pattern {s : String} (h : checksumPattern s = true) : matchSha256 s = true :=
  isHex64_of_hexText h

/-- An accepted checksum meets the pattern of the contract, unless it ends in a newline. -/
theorem checksumPattern_iff {s : String} (h : matchSha256 s = true) :
    checksumPattern s = true ↔ ¬EndsInNewline s := hexText_iff h

/-- A key that meets the pattern of the contract is accepted. -/
theorem matchIdempotency_of_pattern {s : String} (h : keyPattern s = true) :
    matchIdempotency s = true := by
  rw [keyPattern, Bool.and_eq_true] at h
  rw [matchIdempotency, Bool.and_eq_true]
  exact ⟨h.1, isHex64_of_hexText h.2⟩

/-- An accepted key meets the pattern of the contract, unless it ends in a newline. -/
theorem keyPattern_iff {s : String} (h : matchIdempotency s = true) :
    keyPattern s = true ↔ ¬EndsInNewline s := by
  rw [matchIdempotency, Bool.and_eq_true] at h
  have hlong : ¬s.toList.length ≤ 7 := by
    intro hshort
    have hnil := List.drop_eq_nil_of_le hshort
    have hhex := h.2
    rw [hnil] at hhex
    exact absurd hhex (by decide)
  rw [keyPattern, h.1, Bool.true_and, hexText_iff h.2, List.getLast?_drop, if_neg hlong]
  rfl

/-- The pattern of the version asks for two numbers with a dot between them. -/
theorem versionPattern_iff_isVersionText {s : String} :
    versionPattern s = true ↔ ∃ major minor, IsVersionText s major minor := by
  unfold versionPattern
  constructor
  · intro h
    split at h
    · rename_i minor hrest
      simp only [Bool.and_eq_true, decide_eq_true_eq, List.all_eq_true, ne_eq] at h
      refine ⟨s.toList.takeWhile isAsciiDigit, minor, ?_, h.1.1, h.1.2, ?_, h.2⟩
      · rw [← hrest, List.takeWhile_append_dropWhile]
      · exact fun c hc => List.mem_takeWhile_imp hc
    · cases h
  · rintro ⟨major, minor, h⟩
    have hpoint : ¬isAsciiDigit '.' = true := by decide
    have htake : s.toList.takeWhile isAsciiDigit = major := by
      rw [h.text, List.takeWhile_append_of_pos h.major_digits, List.takeWhile_cons_of_neg hpoint,
        List.append_nil]
    have hdrop : s.toList.dropWhile isAsciiDigit = '.' :: minor := by
      rw [h.text, List.dropWhile_append_of_pos h.major_digits, List.dropWhile_cons_of_neg hpoint]
    rw [htake, hdrop]
    simpa [h.major_ne, h.minor_ne] using h.minor_digits

/-- A version that meets the pattern of the contract is accepted. -/
theorem isVersion_of_pattern {s : String} (h : versionPattern s = true) : isVersion s = true := by
  obtain ⟨major, minor, hs⟩ := versionPattern_iff_isVersionText.1 h
  rw [isVersion, hs.matchVersion]
  rfl

/-- The decimal digits of ASCII. -/
theorem isAsciiDigit_of_isDecimal {c : Char} (hc : isDecimal c = true) (hascii : c.toNat < 128) :
    isAsciiDigit c = true := by
  have hzeros : ∀ z ∈ decimalZeros, z = 48 ∨ 128 ≤ z := by decide
  simp only [isDecimal, decimal?, Option.isSome_map, List.find?_isSome, Bool.and_eq_true,
    decide_eq_true_eq] at hc
  obtain ⟨z, hz, hle, hlt⟩ := hc
  have hrange : 48 ≤ c.toNat ∧ c.toNat ≤ 57 := by
    rcases hzeros z hz with h | h <;> omega
  simpa [isAsciiDigit, Char.le_def, UInt32.le_iff_toNat_le] using hrange

/-- An ASCII digit is a character below 128, and no newline. -/
theorem toNat_of_isAsciiDigit {c : Char} (hc : isAsciiDigit c = true) : c.toNat < 128 ∧ c ≠ '\n' := by
  have hrange : 48 ≤ c.toNat ∧ c.toNat ≤ 57 := by
    simpa [isAsciiDigit, Char.le_def, UInt32.le_iff_toNat_le] using hc
  refine ⟨by omega, ?_⟩
  rintro rfl
  exact absurd hrange (by decide)

/-- The parts of a text that `_VERSION_RE` matches. -/
theorem isVersion_parts {s : String} (h : isVersion s = true) : ∃ major minor : List Char,
    major ≠ [] ∧ minor ≠ [] ∧ (∀ c ∈ major, isDecimal c = true) ∧ (∀ c ∈ minor, isDecimal c = true) ∧
      (s.toList = major ++ '.' :: minor ∨ s.toList = major ++ '.' :: (minor ++ ['\n'])) := by
  unfold isVersion matchVersion at h
  split at h
  · rename_i rest hrest
    simp only at h
    split at h
    · rename_i hparts
      obtain ⟨hmajor, hminor, hend⟩ := hparts
      refine ⟨_, _, hmajor, hminor, fun c hc => List.mem_takeWhile_imp hc,
        fun c hc => List.mem_takeWhile_imp hc, ?_⟩
      have hwhole := List.takeWhile_append_dropWhile (p := isDecimal) (l := s.toList)
      have htail := List.takeWhile_append_dropWhile (p := isDecimal) (l := rest)
      simp only [atEnd, Bool.or_eq_true, decide_eq_true_eq] at hend
      rcases hend with hend | hend
      · rw [hend, List.append_nil] at htail
        exact .inl (by rw [htail, ← hrest, hwhole])
      · rw [hend] at htail
        exact .inr (by rw [htail, ← hrest, hwhole])
    · cases h
  · cases h

/-- Which of the texts that `_VERSION_RE` matches have the pattern of the schema. -/
theorem versionPattern_iff {s : String} (h : isVersion s = true) :
    versionPattern s = true ↔ ¬(EndsInNewline s ∨ ∃ c ∈ s.toList, 128 ≤ c.toNat) := by
  rw [versionPattern_iff_isVersionText]
  constructor
  · rintro ⟨major, minor, hs⟩ (hlast | ⟨c, hc, hbig⟩)
    · obtain ⟨last, hlast'⟩ := List.getLast?_isSome.2 hs.minor_ne |> Option.isSome_iff_exists.1
      have hminor : s.toList.getLast? = minor.getLast? := by
        rw [hs.text, List.getLast?_append_cons, List.getLast?_cons, hlast']
        rfl
      rw [EndsInNewline, hminor] at hlast
      exact (toNat_of_isAsciiDigit (hs.minor_digits _ (List.mem_of_getLast? hlast))).2 rfl
    · rw [hs.text, List.mem_append, List.mem_cons] at hc
      have hsmall : c.toNat < 128 := by
        rcases hc with hc | rfl | hc
        · exact (toNat_of_isAsciiDigit (hs.major_digits c hc)).1
        · decide
        · exact (toNat_of_isAsciiDigit (hs.minor_digits c hc)).1
      omega
  · intro hplain
    obtain ⟨major, minor, hmajor, hminor, hdmajor, hdminor, hs⟩ := isVersion_parts h
    have hascii : ∀ c ∈ s.toList, c.toNat < 128 := fun c hc => by
      by_contra hbig
      exact hplain (.inr ⟨c, hc, not_lt.1 hbig⟩)
    rcases hs with hs | hs
    · refine ⟨major, minor, hs, hmajor, hminor, fun c hc => ?_, fun c hc => ?_⟩
      · exact isAsciiDigit_of_isDecimal (hdmajor c hc) (hascii c (by simp [hs, hc]))
      · exact isAsciiDigit_of_isDecimal (hdminor c hc) (hascii c (by simp [hs, hc]))
    · refine absurd (.inl ?_) hplain
      rw [EndsInNewline, hs, ← List.cons_append, ← List.append_assoc]
      exact List.getLast?_concat ..

/-! ## The members of a document -/

/-- A member that must be there, and a property of its value. -/
def Has (ms : Members) (name : String) (p : Value → Prop) : Prop := ∃ v, lookup name ms = some v ∧ p v

/-- A member that may be absent, and a property of its value. -/
def MayHave (ms : Members) (name : String) (p : Value → Prop) : Prop :=
  ∀ v, lookup name ms = some v → p v

/-- The value is a text. -/
def IsText (v : Value) : Prop := ∃ s, v = .str s

/-- The value is a text with a property. -/
def IsTextOf (p : String → Bool) (v : Value) : Prop := ∃ s, v = .str s ∧ p s = true

/-- The value is a text or `null`. -/
def IsNullable (v : Value) : Prop := v = .null ∨ IsText v

/-- The decoder takes the value for an integer that is not below the bound. -/
def ReadsInt (bound : Int) (v : Value) : Prop := ∃ n, laxInt v = .ok n ∧ bound ≤ n

/-- The value is an integer of the schema, or the decoder takes it for one. -/
def FitsInt (bound : Int) (v : Value) : Prop := isInteger bound v = true ∨ ReadsInt bound v

/-- The value is an object with a property of its members. -/
def IsObject (p : Members → Prop) (v : Value) : Prop := ∃ ns, v = .obj ns ∧ p ns

/-- The members of a `source` that either grammar takes. -/
structure SourceFits (ns : Members) : Prop where
  /-- `provider` -/
  provider : Has ns "provider" (· = .str "sftp")
  /-- `path` -/
  path : Has ns "path" IsText
  /-- Nothing else. -/
  names : ∀ m ∈ ns, m.1 ∈ sourceNames

/-- The members of a `file` that are each good for one of the grammars. -/
structure FileFits (ns : Members) : Prop where
  /-- `name` -/
  name : Has ns "name" IsText
  /-- `sizeBytes` -/
  sizeBytes : Has ns "sizeBytes" (FitsInt 0)
  /-- `checksumSha256` -/
  checksum : Has ns "checksumSha256" (IsTextOf matchSha256)
  /-- `contentType` -/
  contentType : MayHave ns "contentType" IsNullable
  /-- Nothing else. -/
  names : ∀ m ∈ ns, m.1 ∈ fileNames

/-- The members of a destination that are each good for one of the grammars. -/
structure DestinationFits (ns : Members) : Prop where
  /-- `provider` -/
  provider : Has ns "provider" fun v => v = .str "aws-s3" ∨ v = .str "gcp-gcs"
  /-- `bucket` -/
  bucket : Has ns "bucket" IsText
  /-- `key` -/
  key : Has ns "key" IsText
  /-- `region` -/
  region : MayHave ns "region" IsNullable
  /-- Nothing else. -/
  names : ∀ m ∈ ns, m.1 ∈ destinationNames

/-- The members of a `retry` that are each good for one of the grammars. -/
structure RetryFits (ns : Members) : Prop where
  /-- `attempt` -/
  attempt : MayHave ns "attempt" (FitsInt 1)
  /-- `maxAttempts` -/
  maxAttempts : MayHave ns "maxAttempts" (FitsInt 1)
  /-- `lastError` -/
  lastError : MayHave ns "lastError" IsNullable
  /-- Nothing else. -/
  names : ∀ m ∈ ns, m.1 ∈ retryNames

/-- **A document whose members are each good for one of the grammars**: required members are there,
with the right types, and there are no others. -/
structure EventFits (ms : Members) : Prop where
  /-- `schemaVersion` -/
  schemaVersion : Has ms "schemaVersion" (IsTextOf isVersion)
  /-- `eventType` -/
  eventType : Has ms "eventType" (· = .str "file.transfer.requested")
  /-- `eventId` -/
  eventId : Has ms "eventId" IsText
  /-- `correlationId` -/
  correlationId : Has ms "correlationId" IsText
  /-- `idempotencyKey` -/
  idempotencyKey : Has ms "idempotencyKey" (IsTextOf matchIdempotency)
  /-- `occurredAt` -/
  occurredAt : Has ms "occurredAt" IsText
  /-- `source` -/
  source : Has ms "source" (IsObject SourceFits)
  /-- `file` -/
  file : Has ms "file" (IsObject FileFits)
  /-- `destinations` -/
  destinations : Has ms "destinations" fun v =>
    ∃ vs, v = .arr vs ∧ vs ≠ [] ∧ ∀ w ∈ vs, IsObject DestinationFits w
  /-- `retry` -/
  retry : MayHave ms "retry" fun v => v = .null ∨ IsObject RetryFits v
  /-- Nothing else. -/
  names : ∀ m ∈ ms, m.1 ∈ TransferEvent.fieldNames

/-! ## Where the grammars differ -/

/-- What the decoder takes in a `file` and the schema does not. -/
inductive FileLenient (ns : Members) : Prop where
  /-- The size is `true`, a numeric text, or a number whose nearest double is an integer. -/
  | sizeBytes (h : Has ns "sizeBytes" fun v => isInteger 0 v = false)
  /-- `$` matches before a final newline. -/
  | checksum {s : String} (h : lookup "checksumSha256" ns = some (.str s)) (hs : EndsInNewline s)
  /-- `null` stands for an absent member. -/
  | contentType (h : lookup "contentType" ns = some .null)

/-- What the decoder takes in a destination and the schema does not. -/
def DestinationLenient (ns : Members) : Prop := lookup "region" ns = some .null

/-- What the decoder takes in a `retry` and the schema does not. -/
inductive RetryLenient (ns : Members) : Prop where
  /-- As for the size. -/
  | attempt (h : Has ns "attempt" fun v => isInteger 1 v = false)
  /-- As for the size. -/
  | maxAttempts (h : Has ns "maxAttempts" fun v => isInteger 1 v = false)
  /-- `null` stands for an absent member. -/
  | lastError (h : lookup "lastError" ns = some .null)

/-- **What the decoder takes and the schema does not.** -/
inductive EventLenient (ms : Members) : Prop where
  /-- `$` matches before a final newline, and `\d` every Unicode decimal digit. -/
  | schemaVersion {s : String} (h : lookup "schemaVersion" ms = some (.str s))
      (hs : EndsInNewline s ∨ ∃ c ∈ s.toList, 128 ≤ c.toNat)
  /-- `$` matches before a final newline. -/
  | idempotencyKey {s : String} (h : lookup "idempotencyKey" ms = some (.str s)) (hs : EndsInNewline s)
  /-- In `file`. -/
  | file {ns : Members} (h : lookup "file" ms = some (.obj ns)) (hns : FileLenient ns)
  /-- In a destination. -/
  | destination {vs : List Value} {ns : Members} (h : lookup "destinations" ms = some (.arr vs))
      (hmem : .obj ns ∈ vs) (hns : DestinationLenient ns)
  /-- `null` stands for an absent member. -/
  | retryNull (h : lookup "retry" ms = some .null)
  /-- In `retry`. -/
  | retry {ns : Members} (h : lookup "retry" ms = some (.obj ns)) (hns : RetryLenient ns)

/-- What the schema takes in a `retry` and the decoder does not. -/
inductive RetryStrict (ns : Members) : Prop where
  /-- The decoder wants the member. -/
  | noAttempt (h : lookup "attempt" ns = none)
  /-- The decoder wants the member. -/
  | noMaxAttempts (h : lookup "maxAttempts" ns = none)
  /-- A number with a fraction or an exponent whose double does not fit in 64 bits. -/
  | attempt (h : Has ns "attempt" fun v => ¬ReadsInt 1 v)
  /-- As for `attempt`. -/
  | maxAttempts (h : Has ns "maxAttempts" fun v => ¬ReadsInt 1 v)

/-- **What the schema takes and the decoder does not.** -/
inductive EventStrict (ms : Members) : Prop where
  /-- A text that `uuid.UUID` refuses. -/
  | eventId {s : String} (h : lookup "eventId" ms = some (.str s)) (hs : isUuid s = false)
  /-- A text that `uuid.UUID` refuses. -/
  | correlationId {s : String} (h : lookup "correlationId" ms = some (.str s)) (hs : isUuid s = false)
  /-- A date and time that `datetime.fromisoformat` refuses, such as one with a leap second. -/
  | occurredAt {s : String} (h : lookup "occurredAt" ms = some (.str s)) (hs : isOccurredAt s = false)
  /-- A size whose double does not fit in 64 bits. -/
  | sizeBytes {ns : Members} (h : lookup "file" ms = some (.obj ns))
      (hns : Has ns "sizeBytes" fun v => ¬ReadsInt 0 v)
  /-- In `retry`. -/
  | retry {ns : Members} (h : lookup "retry" ms = some (.obj ns)) (hns : RetryStrict ns)

/-! ## What the decoder accepts -/

variable {ms ns : Members} {name : String} {p q : Value → Prop}

/-- A member that may be there may be there with a weaker condition. -/
theorem MayHave.imp (h : MayHave ms name p) (hpq : ∀ v, p v → q v) : MayHave ms name q :=
  fun v hv => hpq v (h v hv)

/-- A member that is there may be there. -/
theorem Has.mayHave (h : Has ms name p) : MayHave ms name p := by
  obtain ⟨v, hv, hp⟩ := h
  intro w hw
  rw [hv, Option.some.injEq] at hw
  exact hw ▸ hp

/-- A required member is there, and its value has the property. -/
theorem has_iff : Has ms name p ↔ (lookup name ms).isSome = true ∧ MayHave ms name p := by
  constructor
  · intro h
    obtain ⟨v, hv, -⟩ := id h
    exact ⟨by rw [hv]; rfl, h.mayHave⟩
  · rintro ⟨hsome, h⟩
    obtain ⟨v, hv⟩ := Option.isSome_iff_exists.1 hsome
    exact ⟨v, hv, h v hv⟩

/-- What an optional text may be. -/
theorem exists_optionalIs_str : (∃ a, OptionalIs ms name str a) ↔ MayHave ms name IsNullable := by
  constructor
  · rintro ⟨a, ⟨-, hnone | hnull⟩ | ⟨v, s, hv, -, hs, -⟩⟩ w hw
    · rw [hnone] at hw
      cases hw
    · rw [hnull, Option.some.injEq] at hw
      exact .inl hw.symm
    · rw [hv, Option.some.injEq] at hw
      exact .inr ⟨s, hw ▸ str_eq_ok.1 hs⟩
  · intro h
    cases hv : lookup name ms with
    | none => exact ⟨none, .inl ⟨rfl, .inl hv⟩⟩
    | some v =>
        rcases h v hv with rfl | ⟨s, rfl⟩
        · exact ⟨none, .inl ⟨rfl, .inr hv⟩⟩
        · exact ⟨some s, .inr ⟨.str s, s, hv, by simp, rfl, rfl⟩⟩

/-- The providers are these two texts. -/
theorem exists_provider {v : Value} :
    (∃ p : Provider, v = .str p.text) ↔ v = .str "aws-s3" ∨ v = .str "gcp-gcs" := by
  constructor
  · rintro ⟨⟨⟩, h⟩
    · exact .inl h
    · exact .inr h
  · rintro (h | h)
    · exact ⟨.awsS3, h⟩
    · exact ⟨.gcpGcs, h⟩

/-- A `source` can be decoded exactly if it has the members that it should have. -/
theorem Source.exists_decodes_iff : (∃ s, Source.Decodes ns s) ↔ SourceFits ns := by
  constructor
  · rintro ⟨⟨⟨⟩, path⟩, h⟩
    exact ⟨⟨_, h.provider, rfl⟩, ⟨_, h.path, path, rfl⟩, h.names⟩
  · rintro ⟨⟨v, hv, rfl⟩, ⟨w, hw, path, rfl⟩, hnames⟩
    exact ⟨⟨.sftp, path⟩, hv, hw, hnames⟩

/-- A `file` can be decoded exactly if it has its members and the reader takes its size. -/
theorem FileMeta.exists_decodes_iff : (∃ f, FileMeta.Decodes ns f) ↔
    FileFits ns ∧ ¬Has ns "sizeBytes" fun v => ¬ReadsInt 0 v := by
  constructor
  · rintro ⟨f, h⟩
    obtain ⟨v, hv, hsize⟩ := h.sizeBytes
    have hreads : ReadsInt 0 v := ⟨_, hsize, f.sizeBytes.property⟩
    refine ⟨⟨⟨_, h.name, _, rfl⟩, ⟨v, hv, .inr hreads⟩,
      ⟨_, h.checksum, _, rfl, f.checksumSha256.property⟩, exists_optionalIs_str.1 ⟨_, h.contentType⟩,
      h.names⟩, fun hnot => ?_⟩
    exact hnot.mayHave v hv hreads
  · rintro ⟨⟨⟨v, hv, name, rfl⟩, ⟨w, hw, -⟩, ⟨u, hu, sum, rfl, hsum⟩, htype, hnames⟩, hnot⟩
    obtain ⟨type, htype⟩ := exists_optionalIs_str.2 htype
    have hreads : ReadsInt 0 w := by
      by_contra hrefused
      exact hnot ⟨w, hw, hrefused⟩
    obtain ⟨n, hn, hle⟩ := hreads
    exact ⟨⟨name, ⟨n, hle⟩, ⟨sum, hsum⟩, type⟩, hv, ⟨w, hw, hn⟩, hu, htype, hnames⟩

/-- A destination can be decoded exactly if it has its members. -/
theorem Destination.exists_decodes_iff : (∃ d, Destination.Decodes ns d) ↔ DestinationFits ns := by
  constructor
  · rintro ⟨d, h⟩
    exact ⟨⟨_, h.provider, exists_provider.1 ⟨_, rfl⟩⟩, ⟨_, h.bucket, _, rfl⟩, ⟨_, h.key, _, rfl⟩,
      exists_optionalIs_str.1 ⟨_, h.region⟩, h.names⟩
  · rintro ⟨⟨v, hv, hp⟩, ⟨w, hw, bucket, rfl⟩, ⟨u, hu, key, rfl⟩, hregion, hnames⟩
    obtain ⟨p, rfl⟩ := exists_provider.2 hp
    obtain ⟨region, hregion⟩ := exists_optionalIs_str.2 hregion
    exact ⟨⟨p, bucket, key, region⟩, hv, hw, hu, hregion, hnames⟩

/-- A member that the decoder wants as an integer. -/
theorem exists_int_iff {bound : Int} : (Has ns name (ReadsInt bound)) ↔
    lookup name ns ≠ none ∧ ¬Has ns name fun v => ¬ReadsInt bound v := by
  constructor
  · intro h
    refine ⟨?_, ?_⟩
    · obtain ⟨v, hv, -⟩ := h
      simp [hv]
    · rintro ⟨v, hv, hnot⟩
      exact hnot (h.mayHave v hv)
  · rintro ⟨hne, hnot⟩
    obtain ⟨v, hv⟩ := Option.ne_none_iff_exists'.1 hne
    refine ⟨v, hv, ?_⟩
    by_contra hrefused
    exact hnot ⟨v, hv, hrefused⟩

/-- A `retry` can be decoded exactly if it has its members and the reader takes its attempt numbers. -/
theorem RetryInfo.exists_decodes_iff :
    (∃ r, RetryInfo.Decodes ns r) ↔ RetryFits ns ∧ ¬RetryStrict ns := by
  constructor
  · rintro ⟨r, h⟩
    obtain ⟨v, hv, hattempt⟩ := h.attempt
    obtain ⟨w, hw, hmax⟩ := h.maxAttempts
    have hattempt' : Has ns "attempt" (ReadsInt 1) := ⟨v, hv, _, hattempt, r.attempt.property⟩
    have hmax' : Has ns "maxAttempts" (ReadsInt 1) := ⟨w, hw, _, hmax, r.maxAttempts.property⟩
    refine ⟨⟨hattempt'.mayHave.imp fun _ => .inr, hmax'.mayHave.imp fun _ => .inr,
      exists_optionalIs_str.1 ⟨_, h.lastError⟩, h.names⟩, ?_⟩
    rintro (hnone | hnone | hrefused | hrefused)
    · exact (exists_int_iff.1 hattempt').1 hnone
    · exact (exists_int_iff.1 hmax').1 hnone
    · exact (exists_int_iff.1 hattempt').2 hrefused
    · exact (exists_int_iff.1 hmax').2 hrefused
  · rintro ⟨⟨-, -, hlast, hnames⟩, hstrict⟩
    obtain ⟨v, hv, n, hn, hle⟩ : Has ns "attempt" (ReadsInt 1) :=
      exists_int_iff.2 ⟨fun h => hstrict (.noAttempt h), fun h => hstrict (.attempt h)⟩
    obtain ⟨w, hw, k, hk, hle'⟩ : Has ns "maxAttempts" (ReadsInt 1) :=
      exists_int_iff.2 ⟨fun h => hstrict (.noMaxAttempts h), fun h => hstrict (.maxAttempts h)⟩
    obtain ⟨last, hlast⟩ := exists_optionalIs_str.2 hlast
    exact ⟨⟨⟨n, hle⟩, ⟨k, hle'⟩, last⟩, ⟨v, hv, hn⟩, ⟨w, hw, hk⟩, hlast, hnames⟩

/-- Items that are accepted one by one are accepted as a list. -/
theorem exists_forall₂ {α β : Type} {R : α → β → Prop} {as : List α} :
    (∃ bs, List.Forall₂ R as bs) ↔ ∀ a ∈ as, ∃ b, R a b := by
  induction as with
  | nil => simp
  | cons a as ih =>
      rw [List.forall_mem_cons, ← ih]
      constructor
      · rintro ⟨_, _ | ⟨hab, htail⟩⟩
        exact ⟨⟨_, hab⟩, _, htail⟩
      · rintro ⟨⟨b, hab⟩, bs, htail⟩
        exact ⟨b :: bs, .cons hab htail⟩

/-- What `retry` may be for the decoder. -/
theorem exists_optionalIs_retry : (∃ a, OptionalIs ms "retry" (model RetryInfo.validate) a) ↔
    MayHave ms "retry" fun v => v = .null ∨ IsObject (fun ns => RetryFits ns ∧ ¬RetryStrict ns) v := by
  have hmodel : ∀ v, (∃ r, model RetryInfo.validate v = .ok r) ↔
      IsObject (fun ns => RetryFits ns ∧ ¬RetryStrict ns) v := by
    intro v
    constructor
    · rintro ⟨r, hr⟩
      obtain ⟨ns, rfl, h⟩ := model_eq_ok.1 hr
      exact ⟨ns, rfl, RetryInfo.exists_decodes_iff.1 ⟨r, RetryInfo.validate_eq_ok.1 h⟩⟩
    · rintro ⟨ns, rfl, h⟩
      obtain ⟨r, hr⟩ := RetryInfo.exists_decodes_iff.2 h
      exact ⟨r, model_eq_ok.2 ⟨ns, rfl, RetryInfo.validate_eq_ok.2 hr⟩⟩
  constructor
  · rintro ⟨a, ⟨-, hnone | hnull⟩ | ⟨v, r, hv, -, hr, -⟩⟩ w hw
    · rw [hnone] at hw
      cases hw
    · rw [hnull, Option.some.injEq] at hw
      exact .inl hw.symm
    · rw [hv, Option.some.injEq] at hw
      exact .inr ((hmodel w).1 ⟨r, hw ▸ hr⟩)
  · intro h
    cases hv : lookup "retry" ms with
    | none => exact ⟨none, .inl ⟨rfl, .inl hv⟩⟩
    | some v =>
        rcases h v hv with rfl | hobj
        · exact ⟨none, .inl ⟨rfl, .inr hv⟩⟩
        · obtain ⟨r, hr⟩ := (hmodel v).2 hobj
          refine ⟨some r, .inr ⟨v, r, hv, ?_, hr, rfl⟩⟩
          obtain ⟨ns, rfl, -⟩ := hobj
          simp

/-- **The decoder accepts** a document that fits and has nothing only the schema takes. -/
theorem TransferEvent.exists_decodes_iff :
    (∃ e, TransferEvent.Decodes ms e) ↔ EventFits ms ∧ ¬EventStrict ms := by
  constructor
  · rintro ⟨e, h⟩
    obtain ⟨ns, hsource, hs⟩ := h.source
    obtain ⟨ns', hfile, hf⟩ := h.file
    obtain ⟨vs, hdest, hds⟩ := h.destinations
    obtain ⟨hff, hfs⟩ := FileMeta.exists_decodes_iff.1 ⟨_, hf⟩
    have hretry := exists_optionalIs_retry.1 ⟨_, h.retry⟩
    have hall : ∀ w ∈ vs, IsObject DestinationFits w := by
      intro w hw
      obtain ⟨d, ns'', rfl, hd⟩ := exists_forall₂.1 ⟨_, hds⟩ w hw
      exact ⟨ns'', rfl, Destination.exists_decodes_iff.1 ⟨d, hd⟩⟩
    have hne : vs ≠ [] := by
      rintro rfl
      exact e.destinations.property (List.forall₂_nil_left_iff.1 hds)
    -- every field fits, by what the validator found
    refine ⟨⟨⟨_, h.schemaVersion, _, rfl, e.schemaVersion.property⟩, ?_, ⟨_, h.eventId, _, rfl⟩,
      ⟨_, h.correlationId, _, rfl⟩, ⟨_, h.idempotencyKey, _, rfl, e.idempotencyKey.property⟩,
      ⟨_, h.occurredAt, _, rfl⟩, ⟨_, hsource, ns, rfl, Source.exists_decodes_iff.1 ⟨_, hs⟩⟩,
      ⟨_, hfile, ns', rfl, hff⟩, ⟨_, hdest, vs, rfl, hne, hall⟩, hretry.imp fun v => ?_, h.names⟩, ?_⟩
    · exact ⟨_, h.eventType, by cases e.eventType; rfl⟩
    · rintro (hnull | ⟨ns'', rfl, hns⟩)
      · exact .inl hnull
      · exact .inr ⟨ns'', rfl, hns.1⟩
    · -- each thing that only the schema takes contradicts the validator of its field
      intro hstrict
      have heq : ∀ {name : String} {v w : Value}, lookup name ms = some v → lookup name ms = some w →
          v = w := fun hv hw => Option.some.inj (hv.symm.trans hw)
      cases hstrict with
      | eventId hs hbad =>
          cases heq hs h.eventId
          exact absurd e.eventId.property (by simp [hbad])
      | correlationId hs hbad =>
          cases heq hs h.correlationId
          exact absurd e.correlationId.property (by simp [hbad])
      | occurredAt hs hbad =>
          cases heq hs h.occurredAt
          exact absurd e.occurredAt.property (by simp [hbad])
      | sizeBytes hs hbad =>
          cases heq hs hfile
          exact hfs hbad
      | retry hs hbad =>
          obtain hnull | ⟨ns'', hobj, hns⟩ := hretry _ hs
          · cases hnull
          · cases hobj
            exact hns.2 hbad
  · rintro ⟨h, hstrict⟩
    -- the event is put together of what fits, and of what the validators add
    obtain ⟨v₁, hversion, version, rfl, hv⟩ := h.schemaVersion
    obtain ⟨v₂, htype, rfl⟩ := h.eventType
    obtain ⟨v₃, heventId, eventId, rfl⟩ := h.eventId
    obtain ⟨v₄, hcorr, corr, rfl⟩ := h.correlationId
    obtain ⟨v₅, hkey, key, rfl, hk⟩ := h.idempotencyKey
    obtain ⟨v₆, hat, at', rfl⟩ := h.occurredAt
    obtain ⟨v₇, hsource, ns, rfl, hs⟩ := h.source
    obtain ⟨v₈, hfile, ns', rfl, hf⟩ := h.file
    obtain ⟨v₉, hdest, vs, rfl, hne, hall⟩ := h.destinations
    obtain ⟨source, hs⟩ := Source.exists_decodes_iff.2 hs
    obtain ⟨file, hf⟩ := FileMeta.exists_decodes_iff.2
      ⟨hf, fun hbad => hstrict (.sizeBytes hfile hbad)⟩
    obtain ⟨ds, hds⟩ : ∃ ds, List.Forall₂ (fun v d => ∃ ns, v = .obj ns ∧ Destination.Decodes ns d) vs ds :=
      exists_forall₂.2 fun w hw => by
        obtain ⟨ns'', rfl, hd⟩ := hall w hw
        obtain ⟨d, hd⟩ := Destination.exists_decodes_iff.2 hd
        exact ⟨d, ns'', rfl, hd⟩
    obtain ⟨retry, hretry⟩ := exists_optionalIs_retry.2 fun v hv => by
      rcases h.retry v hv with hnull | ⟨ns'', rfl, hns⟩
      · exact .inl hnull
      · exact .inr ⟨ns'', rfl, hns, fun hbad => hstrict (.retry hv hbad)⟩
    have hds_ne : ds ≠ [] := by
      rintro rfl
      exact hne (List.forall₂_nil_right_iff.1 hds)
    have htrue : ∀ {b : Bool}, ¬b = false → b = true := fun h => Bool.not_eq_false _ ▸ h
    exact ⟨⟨⟨version, hv⟩, .fileTransferRequested,
      ⟨eventId, htrue fun hbad => hstrict (.eventId heventId hbad)⟩,
      ⟨corr, htrue fun hbad => hstrict (.correlationId hcorr hbad)⟩, ⟨key, hk⟩,
      ⟨at', htrue fun hbad => hstrict (.occurredAt hat hbad)⟩, source, file, ⟨ds, hds_ne⟩, retry⟩,
      hversion, htype, heventId, hcorr, hkey, hat, ⟨ns, hsource, hs⟩, ⟨ns', hfile, hf⟩,
      ⟨vs, hdest, hds⟩, hretry, h.names⟩

/-! ## What the schema accepts -/

/-- An object of the schema, member by member. -/
theorem valid_members {properties : List (String × Schema)} {required : List String} :
    (Schema.object properties required).valid (.obj ms) = true ↔
      (∀ name ∈ required, (lookup name ms).isSome = true) ∧
      (∀ p ∈ properties, MayHave ms p.1 fun v => p.2.valid v = true) ∧
      ∀ m ∈ ms, m.1 ∈ properties.map Prod.fst := by
  rw [Schema.valid_object]
  constructor
  · rintro ⟨_, hms, hreq, hnames, hprops⟩
    cases hms
    exact ⟨hreq, hprops, hnames⟩
  · rintro ⟨hreq, hprops, hnames⟩
    exact ⟨ms, rfl, hreq, hnames, hprops⟩

/-- An enumeration of one text. -/
theorem valid_enum_one {s : String} {v : Value} : (Schema.enum [s]).valid v = true ↔ v = .str s := by
  rw [Schema.valid_enum]
  simp

/-- An enumeration of two texts. -/
theorem valid_enum_two {s t : String} {v : Value} :
    (Schema.enum [s, t]).valid v = true ↔ v = .str s ∨ v = .str t := by
  rw [Schema.valid_enum]
  simp

/-- What the schema says of a `source`. -/
theorem valid_source : sourceSchema.valid (.obj ns) = true ↔ SourceFits ns := by
  simp only [sourceSchema, valid_members, List.forall_mem_cons, List.not_mem_nil, false_implies,
    implies_true, and_true,
    valid_enum_one, Schema.valid_anyString]
  constructor
  · rintro ⟨⟨hp, hpath⟩, ⟨hp', hpath'⟩, hnames⟩
    exact ⟨has_iff.2 ⟨hp, hp'⟩, has_iff.2 ⟨hpath, hpath'⟩, hnames⟩
  · rintro ⟨hp, hpath, hnames⟩
    exact ⟨⟨(has_iff.1 hp).1, (has_iff.1 hpath).1⟩, ⟨hp.mayHave, hpath.mayHave⟩, hnames⟩

/-- An optional text of the schema: not `null`. -/
theorem mayHave_text_iff :
    MayHave ms name IsText ↔ MayHave ms name IsNullable ∧ lookup name ms ≠ some .null := by
  constructor
  · intro h
    refine ⟨h.imp fun v => .inr, fun hnull => ?_⟩
    obtain ⟨s, hs⟩ := h _ hnull
    cases hs
  · rintro ⟨h, hnull⟩ v hv
    rcases h v hv with rfl | htext
    · exact absurd hv hnull
    · exact htext

/-- A text with a pattern of the schema, whose texts the decoder takes too. -/
theorem mayHave_pattern_iff {f g : String → Bool} (hfg : ∀ s, f s = true → g s = true) :
    MayHave ms name (IsTextOf f) ↔
      MayHave ms name (IsTextOf g) ∧ ∀ s, lookup name ms = some (.str s) → f s = true := by
  constructor
  · intro h
    refine ⟨h.imp fun v ⟨s, hv, hs⟩ => ⟨s, hv, hfg s hs⟩, fun s hs => ?_⟩
    obtain ⟨t, ht, hf⟩ := h _ hs
    cases ht
    exact hf
  · rintro ⟨h, hf⟩ v hv
    obtain ⟨s, rfl, -⟩ := h v hv
    exact ⟨s, rfl, hf s hv⟩

/-- An integer of the schema. -/
theorem mayHave_int_iff {bound : Int} : MayHave ms name (fun v => isInteger bound v = true) ↔
    MayHave ms name (FitsInt bound) ∧ ¬Has ms name fun v => isInteger bound v = false := by
  constructor
  · intro h
    refine ⟨h.imp fun v => .inl, ?_⟩
    rintro ⟨v, hv, hnot⟩
    exact absurd (h v hv) (by simp [hnot])
  · rintro ⟨-, hnot⟩ v hv
    by_contra hint
    exact hnot ⟨v, hv, by simpa using hint⟩

/-- What the schema says of a `file`: the decoder asks the same, and is more lenient with the size and the
checksum. -/
theorem valid_file : fileSchema.valid (.obj ns) = true ↔ FileFits ns ∧ ¬FileLenient ns := by
  simp only [fileSchema, valid_members, List.forall_mem_cons, List.not_mem_nil, false_implies,
    implies_true, and_true,
    Schema.valid_anyString, Schema.valid_integer, Schema.valid_string]
  constructor
  · rintro ⟨⟨hname, hsize, hsum⟩, ⟨hname', hsize', hsum', htype⟩, hnames⟩
    obtain ⟨hfits, hint⟩ := mayHave_int_iff.1 hsize'
    obtain ⟨hnullable, hnull⟩ := mayHave_text_iff.1 htype
    obtain ⟨hmatch, hpattern⟩ := (mayHave_pattern_iff fun _ => matchSha256_of_pattern).1 hsum'
    refine ⟨⟨has_iff.2 ⟨hname, hname'⟩, has_iff.2 ⟨hsize, hfits⟩, has_iff.2 ⟨hsum, hmatch⟩, hnullable,
      hnames⟩, ?_⟩
    rintro (hbad | ⟨hs, hend⟩ | hbad)
    · exact hint hbad
    · obtain ⟨t, ht, hmatches⟩ := hmatch _ hs
      cases ht
      exact (checksumPattern_iff hmatches).1 (hpattern _ hs) hend
    · exact hnull hbad
  · rintro ⟨h, hlenient⟩
    refine ⟨⟨(has_iff.1 h.name).1, (has_iff.1 h.sizeBytes).1, (has_iff.1 h.checksum).1⟩,
      ⟨h.name.mayHave, ?_, ?_, ?_⟩, h.names⟩
    · exact mayHave_int_iff.2 ⟨h.sizeBytes.mayHave, fun hbad => hlenient (.sizeBytes hbad)⟩
    · refine (mayHave_pattern_iff fun _ => matchSha256_of_pattern).2 ⟨h.checksum.mayHave, fun s hs => ?_⟩
      obtain ⟨t, ht, hmatches⟩ := h.checksum.mayHave _ hs
      cases ht
      exact (checksumPattern_iff hmatches).2 fun hend => hlenient (.checksum hs hend)
    · exact mayHave_text_iff.2 ⟨h.contentType, fun hbad => hlenient (.contentType hbad)⟩

/-- What the schema says of a destination. -/
theorem valid_destination :
    destinationSchema.valid (.obj ns) = true ↔ DestinationFits ns ∧ ¬DestinationLenient ns := by
  simp only [destinationSchema, valid_members, List.forall_mem_cons, List.not_mem_nil, false_implies,
    implies_true, and_true,
    Schema.valid_anyString, valid_enum_two]
  constructor
  · rintro ⟨⟨hp, hbucket, hkey⟩, ⟨hp', hbucket', hkey', hregion⟩, hnames⟩
    obtain ⟨hnullable, hnull⟩ := mayHave_text_iff.1 hregion
    exact ⟨⟨has_iff.2 ⟨hp, hp'⟩, has_iff.2 ⟨hbucket, hbucket'⟩, has_iff.2 ⟨hkey, hkey'⟩, hnullable,
      hnames⟩, hnull⟩
  · rintro ⟨h, hlenient⟩
    exact ⟨⟨(has_iff.1 h.provider).1, (has_iff.1 h.bucket).1, (has_iff.1 h.key).1⟩,
      ⟨h.provider.mayHave, h.bucket.mayHave, h.key.mayHave, mayHave_text_iff.2 ⟨h.region, hlenient⟩⟩,
      h.names⟩

/-- What the schema says of a `retry`. -/
theorem valid_retry : retrySchema.valid (.obj ns) = true ↔ RetryFits ns ∧ ¬RetryLenient ns := by
  simp only [retrySchema, valid_members, List.forall_mem_cons, List.not_mem_nil, false_implies,
    implies_true, and_true, true_and,
    Schema.valid_anyString, Schema.valid_integer]
  constructor
  · rintro ⟨⟨hattempt, hmax, hlast⟩, hnames⟩
    obtain ⟨hattempt, hint⟩ := mayHave_int_iff.1 hattempt
    obtain ⟨hmax, hint'⟩ := mayHave_int_iff.1 hmax
    obtain ⟨hlast, hnull⟩ := mayHave_text_iff.1 hlast
    refine ⟨⟨hattempt, hmax, hlast, hnames⟩, ?_⟩
    rintro (hbad | hbad | hbad)
    · exact hint hbad
    · exact hint' hbad
    · exact hnull hbad
  · rintro ⟨h, hlenient⟩
    refine ⟨⟨?_, ?_, ?_⟩, h.names⟩
    · exact mayHave_int_iff.2 ⟨h.attempt, fun hbad => hlenient (.attempt hbad)⟩
    · exact mayHave_int_iff.2 ⟨h.maxAttempts, fun hbad => hlenient (.maxAttempts hbad)⟩
    · exact mayHave_text_iff.2 ⟨h.lastError, fun hbad => hlenient (.lastError hbad)⟩

/-- A part of the document that is an object of the schema. -/
theorem mayHave_object_iff (schema : Schema) {fits : Members → Prop} (lenient : Members → Prop)
    (hobj : ∀ v, schema.valid v = true → ∃ ns, v = .obj ns)
    (h : ∀ ns, schema.valid (.obj ns) = true ↔ fits ns ∧ ¬lenient ns) :
    MayHave ms name (fun v => schema.valid v = true) ↔
      MayHave ms name (IsObject fits) ∧ ∀ ns, lookup name ms = some (.obj ns) → ¬lenient ns := by
  constructor
  · intro hvalid
    refine ⟨hvalid.imp fun v hv => ?_, fun ns hns => ((h ns).1 (hvalid _ hns)).2⟩
    obtain ⟨ns, rfl⟩ := hobj v hv
    exact ⟨ns, rfl, ((h ns).1 hv).1⟩
  · rintro ⟨hfits, hnot⟩ v hv
    obtain ⟨ns, rfl, hns⟩ := hfits v hv
    exact (h ns).2 ⟨hns, hnot ns hv⟩

/-- What an object schema accepts is an object. -/
theorem exists_members {properties : List (String × Schema)} {required : List String} {v : Value}
    (h : (Schema.object properties required).valid v = true) : ∃ ns, v = .obj ns := by
  obtain ⟨ns, hv, -⟩ := Schema.valid_object.1 h
  exact ⟨ns, hv⟩

/-- What `retry` may be for the schema. -/
theorem mayHave_retry_iff : MayHave ms "retry" (fun v => retrySchema.valid v = true) ↔
    MayHave ms "retry" (fun v => v = .null ∨ IsObject RetryFits v) ∧ lookup "retry" ms ≠ some .null ∧
      ∀ ns, lookup "retry" ms = some (.obj ns) → ¬RetryLenient ns := by
  rw [mayHave_object_iff retrySchema RetryLenient (fun _ => exists_members) fun _ => valid_retry]
  constructor
  · rintro ⟨hobj, hnot⟩
    refine ⟨hobj.imp fun v => .inr, fun hnull => ?_, hnot⟩
    obtain ⟨ns, hns, -⟩ := hobj _ hnull
    cases hns
  · rintro ⟨h, hnull, hnot⟩
    refine ⟨fun v hv => ?_, hnot⟩
    rcases h v hv with rfl | hobj
    · exact absurd hv hnull
    · exact hobj

/-- What `destinations` may be for the schema. -/
theorem mayHave_destinations_iff :
    MayHave ms "destinations" (fun v => (Schema.array destinationSchema 1).valid v = true) ↔
      MayHave ms "destinations" (fun v =>
        ∃ vs, v = .arr vs ∧ vs ≠ [] ∧ ∀ w ∈ vs, IsObject DestinationFits w) ∧
      ∀ vs ns, lookup "destinations" ms = some (.arr vs) → .obj ns ∈ vs → ¬DestinationLenient ns := by
  simp only [Schema.valid_array]
  constructor
  · intro h
    refine ⟨h.imp ?_, fun vs ns hvs hmem => ?_⟩
    · rintro v ⟨vs, rfl, hlength, hall⟩
      refine ⟨vs, rfl, List.length_pos_iff.1 hlength, fun w hw => ?_⟩
      obtain ⟨ns, rfl⟩ := exists_members (hall w hw)
      exact ⟨ns, rfl, (valid_destination.1 (hall _ hw)).1⟩
    · obtain ⟨vs', hvs', -, hall⟩ := h _ hvs
      cases hvs'
      exact (valid_destination.1 (hall _ hmem)).2
  · rintro ⟨h, hnot⟩ v hv
    obtain ⟨vs, rfl, hne, hall⟩ := h v hv
    refine ⟨vs, rfl, List.length_pos_iff.2 hne, fun w hw => ?_⟩
    obtain ⟨ns, rfl, hns⟩ := hall w hw
    exact valid_destination.2 ⟨hns, hnot vs ns hv hw⟩

/-- **The schema accepts** a document that fits and has nothing only the decoder takes. -/
theorem valid_event : transferEventSchema.valid (.obj ms) = true ↔ EventFits ms ∧ ¬EventLenient ms := by
  simp only [transferEventSchema, valid_members, List.forall_mem_cons, List.not_mem_nil, false_implies,
    implies_true, and_true, Schema.valid_anyString, Schema.valid_string, valid_enum_one]
  rw [mayHave_retry_iff, mayHave_destinations_iff,
    mayHave_object_iff sourceSchema (fun _ => False) (fun _ => exists_members)
      fun _ => by rw [valid_source, not_false_eq_true, and_true],
    mayHave_object_iff fileSchema FileLenient (fun _ => exists_members) fun _ => valid_file]
  constructor
  · rintro ⟨⟨hversion, htype, hid, hcorr, hkey, hat, hsource, hfile, hdest⟩,
      ⟨hversion', htype', hid', hcorr', hkey', hat', ⟨hsource', -⟩, ⟨hfile', hfileNot⟩,
        ⟨hdest', hdestNot⟩, hretry, hnull, hretryNot⟩, hnames⟩
    obtain ⟨hversion', hversionPattern⟩ := (mayHave_pattern_iff fun _ => isVersion_of_pattern).1 hversion'
    obtain ⟨hkey', hkeyPattern⟩ := (mayHave_pattern_iff fun _ => matchIdempotency_of_pattern).1 hkey'
    refine ⟨⟨has_iff.2 ⟨hversion, hversion'⟩, has_iff.2 ⟨htype, htype'⟩, has_iff.2 ⟨hid, hid'⟩,
      has_iff.2 ⟨hcorr, hcorr'⟩, has_iff.2 ⟨hkey, hkey'⟩, has_iff.2 ⟨hat, hat'⟩,
      has_iff.2 ⟨hsource, hsource'⟩, has_iff.2 ⟨hfile, hfile'⟩, has_iff.2 ⟨hdest, hdest'⟩, hretry,
      hnames⟩, fun hlenient => ?_⟩
    -- each thing that only the decoder takes breaks a keyword
    cases hlenient with
    | schemaVersion hs hbad =>
        obtain ⟨t, ht, hmatch⟩ := hversion' _ hs
        cases ht
        exact (versionPattern_iff hmatch).1 (hversionPattern _ hs) hbad
    | idempotencyKey hs hbad =>
        obtain ⟨t, ht, hmatch⟩ := hkey' _ hs
        cases ht
        exact (keyPattern_iff hmatch).1 (hkeyPattern _ hs) hbad
    | file hs hbad => exact hfileNot _ hs hbad
    | destination hs hmem hbad => exact hdestNot _ _ hs hmem hbad
    | retryNull hs => exact hnull hs
    | retry hs hbad => exact hretryNot _ hs hbad
  · rintro ⟨h, hlenient⟩
    -- the two patterns hold because what `$` and `\d` add is excluded
    have hversion : ∀ s, lookup "schemaVersion" ms = some (.str s) → versionPattern s = true := by
      intro s hs
      obtain ⟨t, ht, hmatch⟩ := h.schemaVersion.mayHave _ hs
      cases ht
      exact (versionPattern_iff hmatch).2 fun hbad => hlenient (.schemaVersion hs hbad)
    have hkey : ∀ s, lookup "idempotencyKey" ms = some (.str s) → keyPattern s = true := by
      intro s hs
      obtain ⟨t, ht, hmatch⟩ := h.idempotencyKey.mayHave _ hs
      cases ht
      exact (keyPattern_iff hmatch).2 fun hbad => hlenient (.idempotencyKey hs hbad)
    refine ⟨⟨(has_iff.1 h.schemaVersion).1, (has_iff.1 h.eventType).1, (has_iff.1 h.eventId).1,
      (has_iff.1 h.correlationId).1, (has_iff.1 h.idempotencyKey).1, (has_iff.1 h.occurredAt).1,
      (has_iff.1 h.source).1, (has_iff.1 h.file).1, (has_iff.1 h.destinations).1⟩,
      ⟨?_, h.eventType.mayHave, h.eventId.mayHave, h.correlationId.mayHave, ?_, h.occurredAt.mayHave,
        ⟨h.source.mayHave, fun _ _ => id⟩, ⟨h.file.mayHave, fun ns hns hbad => hlenient (.file hns hbad)⟩,
        ⟨h.destinations.mayHave, fun vs ns hvs hmem hbad => hlenient (.destination hvs hmem hbad)⟩,
        h.retry, fun hbad => hlenient (.retryNull hbad),
        fun ns hns hbad => hlenient (.retry hns hbad)⟩, h.names⟩
    · exact (mayHave_pattern_iff fun _ => isVersion_of_pattern).2 ⟨h.schemaVersion.mayHave, hversion⟩
    · exact (mayHave_pattern_iff fun _ => matchIdempotency_of_pattern).2 ⟨h.idempotencyKey.mayHave, hkey⟩

/-! ## Nesting -/

/-- A text is not nested. -/
theorem IsText.isShallow {v : Value} (h : IsText v) (n : Nat) : v.isShallow n = true := by
  obtain ⟨s, rfl⟩ := h
  exact Json.isShallow_of_leaf (by simp) (by simp) n

/-- Nor is a text with a property. -/
theorem IsTextOf.isShallow {p : String → Bool} {v : Value} (h : IsTextOf p v) (n : Nat) :
    v.isShallow n = true :=
  IsText.isShallow (h.imp fun _ hs => hs.1) n

/-- Nor is a text or `null`. -/
theorem IsNullable.isShallow {v : Value} (h : IsNullable v) (n : Nat) : v.isShallow n = true := by
  rcases h with rfl | h
  · exact Json.isShallow_of_leaf (by simp) (by simp) n
  · exact h.isShallow n

/-- Nor is what one of the grammars takes for an integer. -/
theorem FitsInt.isShallow {bound : Int} {v : Value} (h : FitsInt bound v) (n : Nat) :
    v.isShallow n = true := by
  refine Json.isShallow_of_leaf ?_ ?_ n
  · rintro xs rfl
    rcases h with h | ⟨_, h, -⟩ <;> cases h
  · rintro ns rfl
    rcases h with h | ⟨_, h, -⟩ <;> cases h

/-- An object is one level deeper than its members, which are looked up by their names. -/
theorem isShallow_of_names {names : List String} {n : Nat} (hms : (Value.obj ms).Unrepeated)
    (hnames : ∀ m ∈ ms, m.1 ∈ names)
    (h : ∀ name ∈ names, MayHave ms name fun v => v.Unrepeated → v.isShallow n = true) :
    (Value.obj ms).isShallow (n + 1) = true :=
  Json.isShallow_obj fun m hm =>
    h m.1 (hnames m hm) m.2 (Json.lookup_of_mem hms.nodup hm) (hms.member hm)

/-- A `source` has one level. -/
theorem SourceFits.isShallow {ns : Members} (h : SourceFits ns) (hns : (Value.obj ns).Unrepeated) :
    (Value.obj ns).isShallow 1 = true := by
  refine isShallow_of_names hns h.names ?_
  simp only [sourceNames, List.forall_mem_cons, List.not_mem_nil, false_implies, implies_true, and_true]
  exact ⟨h.provider.mayHave.imp fun v hv _ => IsText.isShallow ⟨_, hv⟩ 0,
    h.path.mayHave.imp fun v hv _ => hv.isShallow 0⟩

/-- So has a `file`. -/
theorem FileFits.isShallow {ns : Members} (h : FileFits ns) (hns : (Value.obj ns).Unrepeated) :
    (Value.obj ns).isShallow 1 = true := by
  refine isShallow_of_names hns h.names ?_
  simp only [fileNames, List.forall_mem_cons, List.not_mem_nil, false_implies, implies_true, and_true]
  exact ⟨h.name.mayHave.imp fun v hv _ => hv.isShallow 0, h.sizeBytes.mayHave.imp fun v hv _ => hv.isShallow 0,
    h.checksum.mayHave.imp fun v hv _ => hv.isShallow 0, h.contentType.imp fun v hv _ => hv.isShallow 0⟩

/-- So has a destination. -/
theorem DestinationFits.isShallow {ns : Members} (h : DestinationFits ns)
    (hns : (Value.obj ns).Unrepeated) : (Value.obj ns).isShallow 1 = true := by
  refine isShallow_of_names hns h.names ?_
  simp only [destinationNames, List.forall_mem_cons, List.not_mem_nil, false_implies, implies_true, and_true]
  exact ⟨h.provider.mayHave.imp fun v hv _ => IsText.isShallow (hv.elim (fun h => ⟨_, h⟩) fun h => ⟨_, h⟩) 0,
    h.bucket.mayHave.imp fun v hv _ => hv.isShallow 0, h.key.mayHave.imp fun v hv _ => hv.isShallow 0,
    h.region.imp fun v hv _ => hv.isShallow 0⟩

/-- So has a `retry`. -/
theorem RetryFits.isShallow {ns : Members} (h : RetryFits ns) (hns : (Value.obj ns).Unrepeated) :
    (Value.obj ns).isShallow 1 = true := by
  refine isShallow_of_names hns h.names ?_
  simp only [retryNames, List.forall_mem_cons, List.not_mem_nil, false_implies, implies_true, and_true]
  exact ⟨h.attempt.imp fun v hv _ => hv.isShallow 0, h.maxAttempts.imp fun v hv _ => hv.isShallow 0,
    h.lastError.imp fun v hv _ => hv.isShallow 0⟩

/-- **A document that fits has three levels**: the event, its destinations and each of them. -/
theorem EventFits.isShallow (h : EventFits ms) (hms : (Value.obj ms).Unrepeated) :
    (Value.obj ms).isShallow 3 = true := by
  have hobject : ∀ {p : Members → Prop} {v : Value},
      (∀ ns, p ns → (Value.obj ns).Unrepeated → (Value.obj ns).isShallow 1 = true) →
      IsObject p v → v.Unrepeated → v.isShallow 1 = true := by
    rintro p v hp ⟨ns, rfl, hns⟩ hv
    exact hp ns hns hv
  have hlevel : ∀ {v : Value}, v.isShallow 1 = true → v.isShallow 2 = true := fun hv =>
    Json.isShallow_of_le hv (by decide)
  refine isShallow_of_names hms h.names ?_
  simp only [TransferEvent.fieldNames, List.forall_mem_cons, List.not_mem_nil, false_implies, implies_true,
    and_true]
  refine ⟨h.schemaVersion.mayHave.imp fun v hv _ => hv.isShallow 2,
    h.eventType.mayHave.imp fun v hv _ => IsText.isShallow ⟨_, hv⟩ 2,
    h.eventId.mayHave.imp fun v hv _ => hv.isShallow 2, h.correlationId.mayHave.imp fun v hv _ => hv.isShallow 2,
    h.idempotencyKey.mayHave.imp fun v hv _ => hv.isShallow 2,
    h.occurredAt.mayHave.imp fun v hv _ => hv.isShallow 2,
    h.source.mayHave.imp fun v hv hu => hlevel (hobject (fun _ => SourceFits.isShallow) hv hu),
    h.file.mayHave.imp fun v hv hu => hlevel (hobject (fun _ => FileFits.isShallow) hv hu), ?_, ?_⟩
  · refine h.destinations.mayHave.imp fun v hv hu => ?_
    obtain ⟨vs, rfl, -, hvs⟩ := hv
    exact Json.isShallow_arr fun w hw =>
      hobject (fun _ => DestinationFits.isShallow) (hvs w hw) (hu.item hw)
  · refine h.retry.imp fun v hv hu => ?_
    rcases hv with rfl | hv
    · exact IsNullable.isShallow (.inl rfl) 2
    · exact hlevel (hobject (fun _ => RetryFits.isShallow) hv hu)

/-! ## The comparison -/

/-- The document is accepted by the decoder. -/
theorem accepts_iff {data : ByteArray} {v : Value} (hdata : Json.loads data = some v) :
    (∃ e, TransferEvent.fromJsonBytes data = .ok e) ↔ ∃ ms, v = .obj ms ∧ EventFits ms ∧ ¬EventStrict ms := by
  constructor
  · rintro ⟨e, he⟩
    obtain ⟨ms, hms, hdec⟩ := TransferEvent.fromJsonBytes_eq_ok.1 he
    rw [hdata, Option.some.injEq] at hms
    exact ⟨ms, hms, TransferEvent.exists_decodes_iff.1 ⟨e, hdec⟩⟩
  · rintro ⟨ms, rfl, h⟩
    obtain ⟨e, hdec⟩ := TransferEvent.exists_decodes_iff.2 h
    exact ⟨e, TransferEvent.fromJsonBytes_eq_ok.2 ⟨ms, hdata, hdec⟩⟩

/-- The document is valid. -/
theorem valid_iff {v : Value} :
    transferEventSchema.valid v = true ↔ ∃ ms, v = .obj ms ∧ EventFits ms ∧ ¬EventLenient ms := by
  constructor
  · intro h
    obtain ⟨ms, rfl⟩ := exists_members h
    exact ⟨ms, rfl, valid_event.1 h⟩
  · rintro ⟨ms, rfl, h⟩
    exact valid_event.2 h

/-- The document is accepted by the decoder over a reader with limits: the number of digits before a fraction
stays within the limit, and it is accepted. No document that is accepted is nested too deep. -/
theorem accepts_within_iff {read : ByteArray → Option Value} {limit nesting : Nat}
    (hread : Json.ReadsWithin limit nesting read) (hnesting : 3 ≤ nesting) {data : ByteArray} {v : Value}
    (hdata : Json.loads data = some v) (hv : v.Unrepeated) :
    (∃ e, TransferEvent.fromJsonBytesWith read data = .ok e) ↔
      Json.loadsWithin (some limit) data ≠ none ∧ ∃ e, TransferEvent.fromJsonBytes data = .ok e := by
  rcases hread data v hdata hv with hsame | ⟨hdeep, hrefused⟩
  · unfold TransferEvent.fromJsonBytesWith TransferEvent.fromJsonBytes
    rw [hsame, hdata]
    cases hwithin : Json.loadsWithin (some limit) data with
    | none => simp
    | some w =>
        obtain rfl : v = w := Option.some.inj (hdata.symm.trans (Json.loads_of_loadsWithin hwithin))
        simp
  · refine iff_of_false ?_ ?_
    · rintro ⟨e, he⟩
      rw [TransferEvent.fromJsonBytesWith, hrefused] at he
      cases he
    · rintro ⟨-, haccepted⟩
      obtain ⟨ms, rfl, hfits, -⟩ := (accepts_iff hdata).1 haccepted
      have hshallow := Json.isShallow_of_le (hfits.isShallow hv) hnesting
      exact Bool.false_ne_true (hdeep.symm.trans hshallow)

/-- **Where the decoder and the schema agree**, for documents without repeated names: exactly on those
that do not fit, and on those that fit and have something only the decoder takes if and only if they have
something only the schema takes, or more digits before a fraction than the reader takes. -/
theorem decoder_agrees_iff {read : ByteArray → Option Value} {limit nesting : Nat}
    (hread : Json.ReadsWithin limit nesting read) (hnesting : 3 ≤ nesting) {data : ByteArray} {v : Value}
    (hdata : Json.loads data = some v) (hv : v.Unrepeated) :
    ((∃ e, TransferEvent.fromJsonBytesWith read data = .ok e) ↔ transferEventSchema.valid v = true) ↔
      ∀ ms, v = .obj ms → EventFits ms →
        (EventLenient ms ↔ EventStrict ms ∨ Json.loadsWithin (some limit) data = none) := by
  rw [accepts_within_iff hread hnesting hdata hv, accepts_iff hdata, valid_iff]
  constructor
  · rintro h ms rfl hfits
    have hiff : (Json.loadsWithin (some limit) data ≠ none ∧ EventFits ms ∧ ¬EventStrict ms) ↔
        EventFits ms ∧ ¬EventLenient ms := by
      simpa using h
    simp only [hfits, true_and] at hiff
    tauto
  · intro h
    constructor
    · rintro ⟨hwithin, ms, rfl, hfits, hstrict⟩
      exact ⟨ms, rfl, hfits, fun hlenient => ((h ms rfl hfits).1 hlenient).elim hstrict hwithin⟩
    · rintro ⟨ms, rfl, hfits, hlenient⟩
      refine ⟨fun hnone => ?_, ms, rfl, hfits, fun hstrict => ?_⟩
      · exact hlenient ((h ms rfl hfits).2 (.inr hnone))
      · exact hlenient ((h ms rfl hfits).2 (.inl hstrict))

/-- The example event after a failed attempt, with all its optional members. -/
def TransferEvent.fullSample : TransferEvent :=
  { sample with
    destinations := ⟨[⟨.awsS3, "wms-orders-processed", "orders/ORD-20260610-0001.csv", some "us-east-1"⟩],
      by simp⟩
    retry := some ⟨⟨2, by decide⟩, ⟨3, by decide⟩, some "gcp-gcs:upload_timeout"⟩ }

/-- The document of the example event is valid. -/
theorem valid_fullSample : transferEventSchema.valid TransferEvent.fullSample.toJson = true := by
  decide +kernel

/-- A reader with a limit of 4301 digits. -/
abbrev readJson : ByteArray → Option Value := Json.loadsWithin (some 4301)

/-- The reader keeps the limits of the decoder's reader. -/
theorem readsWithin_readJson : Json.ReadsWithin 4301 200 readJson := fun _ _ _ _ => .inl rfl

/-- The reader reads the example event back. -/
theorem readJson_fullSample :
    readJson TransferEvent.fullSample.toJsonBytes = some TransferEvent.fullSample.toJson :=
  Json.loadsWithin_dumps_of_isSome (by decide +kernel)

/-- The full example is taken by both. -/
theorem decoder_agrees_fullSample :
    (∃ e, TransferEvent.fromJsonBytesWith readJson TransferEvent.fullSample.toJsonBytes = .ok e) ↔
      transferEventSchema.valid TransferEvent.fullSample.toJson = true := by
  have hunrepeated : TransferEvent.fullSample.toJson.isUnrepeated = true := by decide +kernel
  refine (decoder_agrees_iff readsWithin_readJson (by decide) (Json.loads_dumps _) hunrepeated).2
    fun ms hms hfits => iff_of_false ?_ ?_
  · exact (valid_event.1 (hms ▸ valid_fullSample)).2
  · obtain ⟨ms', hms', -, hstrict⟩ := (accepts_iff (Json.loads_dumps _)).1
      ⟨_, TransferEvent.fromJsonBytes_toJsonBytes TransferEvent.fullSample⟩
    rw [hms] at hms'
    cases hms'
    rintro (hbad | hnone)
    · exact hstrict hbad
    · have hread := readJson_fullSample.symm.trans hnone
      cases hread

/-- The example event as it is published, with `null` for `retry`: only the decoder accepts it. -/
theorem decoder_disagrees_sample :
    Json.loads TransferEvent.sample.toJsonBytes = some (.obj sampleMembers) ∧
      (Value.obj sampleMembers).Unrepeated ∧
      lookup "eventId" sampleMembers = some (.str "8f14e45f-ceea-4c4f-9f2a-1d2b3c4d5e6f") ∧
      lookup "correlationId" sampleMembers = some (.str "3fa85f64-5717-4562-b3fc-2c963f66afa6") ∧
      lookup "occurredAt" sampleMembers = some (.str "2026-06-10T09:32:11Z") ∧
      ¬((∃ e, TransferEvent.fromJsonBytesWith readJson TransferEvent.sample.toJsonBytes = .ok e) ↔
        transferEventSchema.valid (.obj sampleMembers) = true) := by
  have hunrepeated : (Value.obj sampleMembers).isUnrepeated = true := by decide +kernel
  refine ⟨loads_sample, hunrepeated, rfl, rfl, rfl, fun h => ?_⟩
  have hread : readJson TransferEvent.sample.toJsonBytes = some TransferEvent.sample.toJson :=
    Json.loadsWithin_dumps_of_isSome (by decide +kernel)
  have haccepts : TransferEvent.fromJsonBytesWith readJson TransferEvent.sample.toJsonBytes = .ok .sample := by
    rw [TransferEvent.fromJsonBytesWith, hread]
    exact congrArg (Except.mapError Exn.validation) (TransferEvent.validate_toJson .sample)
  exact (valid_event.1 (h.1 ⟨_, haccepts⟩)).2 (.retryNull rfl)

end TransferWorker
