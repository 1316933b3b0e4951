import TransferWorker.Json.RoundTrip
import TransferWorker.Worker.Formats

/-! # The event schema

The pydantic models of `file.transfer.requested`: what `model_validate_json` accepts, in its default
lax mode, and what `model_dump_json` writes. A value of these types has passed its validators:
formats are subtypes, bounds are fields, so an invalid event cannot be built.

* **`Validated`** — a validation collects every problem, each with the path of its field.
* **`TransferEvent`** — the event, with `fromJsonBytes`, `toJsonBytes`, `assertSupported` and
  `withRetry`.
* **`fromJsonBytes_toJsonBytes`** — the round trip. -/

namespace TransferWorker

open Json (Value lookup)

/-! ## Exceptions -/

/-- One problem a validation found: the path of the field and the message. -/
structure FieldError where
  /-- The path of the field. -/
  loc : List String
  /-- The message. -/
  msg : String
deriving DecidableEq

/-- **The exceptions** that the worker and the libraries under it raise. -/
inductive Exn where
  /-- `pika.exceptions.AMQPError` and its subclasses, by the name of the class. -/
  | amqp (name : String)
  /-- `pydantic.ValidationError` -/
  | validation (errors : List FieldError)
  /-- `UnsupportedSchemaVersionError` -/
  | unsupportedSchemaVersion (msg : String)
  /-- Any other `ValueError`. -/
  | value (msg : String)
  /-- `UnicodeEncodeError` -/
  | unicodeEncode
  /-- `csv.Error` -/
  | csv (msg : String)
  /-- `OverflowError` -/
  | overflow (msg : String)
  /-- Any other exception, by the name of its class. -/
  | other (name : String)
deriving DecidableEq

/-- The exception is a `pika.exceptions.AMQPError`. -/
def Exn.isAmqp : Exn → Bool
  | .amqp _ => true
  | _ => false

/-! ## Validation -/

/-- A **validation**: a valid value, or all the problems. -/
abbrev Validated (α : Type) := Except (List FieldError) α

namespace Validated

variable {α β : Type}

/-- A single problem at the value itself. -/
def fail (msg : String) : Validated α := .error [⟨[], msg⟩]

/-- Both values, or the problems of both. -/
def both : Validated α → Validated β → Validated (α × β)
  | .ok a, .ok b => .ok (a, b)
  | .ok _, .error es => .error es
  | .error es, .ok _ => .error es
  | .error es, .error fs => .error (es ++ fs)

/-- Two values that were checked. -/
@[simp] theorem both_ok (a : α) (b : β) : both (.ok a) (.ok b) = .ok (a, b) := rfl

/-- The problems of a value as problems of the field that holds it. -/
def under (name : String) : Validated α → Validated α :=
  Except.mapError (List.map fun e => { e with loc := name :: e.loc })

/-- No problem, whatever the field is called. -/
@[simp] theorem under_ok (name : String) (a : α) : under name (.ok a) = .ok a := rfl

/-- All the items of a list, or the problems of all of them; `i` is the position of the first. -/
def items (check : Value → Validated α) : Nat → List Value → Validated (List α)
  | _, [] => .ok []
  | i, v :: vs =>
      (both (under (toString i) (check v)) (items check (i + 1) vs)).map fun p => p.1 :: p.2

/-- Items that were written item by item are read back. -/
theorem items_map {check : Value → Validated α} {write : α → Value}
    (h : ∀ a, check (write a) = .ok a) (i : Nat) (as : List α) :
    items check i (as.map write) = .ok as := by
  induction as generalizing i with
  | nil => rfl
  | cons a as ih =>
      simp only [List.map_cons, items, h, under_ok, ih, both_ok]
      rfl

end Validated

open Validated

/-- The members of an object. -/
abbrev Members := List (String × Value)

/-- A model: an object whose members are checked. -/
def model {α : Type} (check : Members → Validated α) : Value → Validated α
  | .obj ms => check ms
  | _ => fail "Input should be an object"

/-- A required field. -/
def field {α : Type} (name : String) (check : Value → Validated α) (ms : Members) : Validated α :=
  match lookup name ms with
  | none => .error [⟨[name], "Field required"⟩]
  | some v => under name (check v)

/-- A field of type `T | None = None`. -/
def optField {α : Type} (name : String) (check : Value → Validated α) (ms : Members) :
    Validated (Option α) :=
  match lookup name ms with
  | none => .ok none
  | some .null => .ok none
  | some v => under name ((check v).map some)

/-- `extra="forbid"` -/
def forbidExtra (names : List String) (ms : Members) : Validated Unit :=
  match ms.filter fun m => m.1 ∉ names with
  | [] => .ok ()
  | extras => .error (extras.map fun m => ⟨[m.1], "Extra inputs are not permitted"⟩)

/-- `None` is written as `null`. -/
def orNull {α : Type} (write : α → Value) : Option α → Value
  | none => .null
  | some a => write a

/-- A field that is there and that its check takes. -/
theorem field_eq {α : Type} {name : String} {check : Value → Validated α} {ms : Members} {v : Value}
    {a : α} (hv : lookup name ms = some v) (ha : check v = .ok a) : field name check ms = .ok a := by
  rw [field, hv]
  simp only [ha, under_ok]

/-- An optional field that was written, as its value or as `null`. -/
theorem optField_eq {α : Type} {name : String} {check : Value → Validated α} {ms : Members}
    {w : α → Value} {a : Option α} (hv : lookup name ms = some (orNull w a))
    (hne : ∀ a, w a ≠ .null) (ha : ∀ a, check (w a) = .ok a) :
    optField name check ms = .ok a := by
  rw [optField, hv]
  cases a with
  | none => rfl
  | some a =>
      have hok := ha a
      cases hw : w a with
      | null => exact absurd hw (hne a)
      | _ => simp only [orNull, hw] at hok ⊢; simp only [hok]; rfl

/-! ## Scalars -/

/-- A string that a predicate accepts. -/
abbrev Text (valid : String → Bool) := {s : String // valid s = true}

/-- The type `str`. -/
def str : Value → Validated String
  | .str s => .ok s
  | _ => fail "Input should be a valid string"

/-- A `str` field with a validator that raises `ValueError(msg)`. -/
def text (valid : String → Bool) (msg : String) (s : String) : Validated (Text valid) :=
  if h : valid s = true then .ok ⟨s, h⟩ else fail ("Value error, " ++ msg)

/-- A valid text passes its check. -/
@[simp] theorem text_val {valid : String → Bool} {msg : String} (t : Text valid) :
    text valid msg t.val = .ok t := by
  simp [text, t.property]

/-- A validator of strings, for a JSON value. -/
def strWith {α : Type} (validator : String → Validated α) (v : Value) : Validated α :=
  (str v).bind validator

/-- So does a string with it. -/
theorem strWith_val {valid : String → Bool} {msg : String} (t : Text valid) :
    strWith (text valid msg) (.str t.val) = .ok t := text_val t

/-- The type `int`, in lax mode: numbers without a fractional part, booleans, numeric strings. -/
def laxInt : Value → Validated Int
  | .int n => .ok n
  | .bool b => .ok (if b then 1 else 0)
  | .float m e => (floatAsInt m e).mapError fun msg => [⟨[], msg⟩]
  | .str s => (strAsInt s).mapError fun msg => [⟨[], msg⟩]
  | _ => fail "Input should be a valid integer"

/-- An integer with a lower bound. -/
abbrev AtLeast (bound : Int) := {n : Int // bound ≤ n}

/-- `Field(ge=bound)` -/
def atLeast (bound : Int) (n : Int) : Validated (AtLeast bound) :=
  if h : bound ≤ n then .ok ⟨n, h⟩
  else fail ("Input should be greater than or equal to " ++ toString bound)

/-- A number that is not below the bound passes its check. -/
@[simp] theorem atLeast_val {bound : Int} (n : AtLeast bound) : atLeast bound n.val = .ok n := by
  simp [atLeast, n.property]

/-- The same for a JSON value. -/
def intOf (bound : Int) (v : Value) : Validated (AtLeast bound) := (laxInt v).bind (atLeast bound)

/-- The type `Literal[...]`: the alternatives and their texts. -/
def literal {α : Type} (alternatives : List (String × α)) (msg : String) : Value → Validated α
  | .str s =>
      match alternatives.lookup s with
      | some a => .ok a
      | none => fail msg
  | _ => fail msg

/-! ## The models -/

/-- `Literal["sftp"]` -/
inductive SourceProvider where
  /-- The SFTP drop directory. -/
  | sftp
deriving DecidableEq

/-- The text of a source provider. -/
def SourceProvider.text : SourceProvider → String
  | .sftp => "sftp"

/-- **`Source`**: where the watcher found the file. -/
structure Source where
  /-- The provider. -/
  provider : SourceProvider
  /-- The path of the file. -/
  path : String
deriving DecidableEq

/-- The validation of `Source`. -/
def Source.validate (ms : Members) : Validated Source :=
  ((field "provider" (literal [("sftp", .sftp)] "Input should be 'sftp'") ms).both
    ((field "path" str ms).both (forbidExtra ["provider", "path"] ms))).map
    fun (provider, path, _) => ⟨provider, path⟩

/-- What is written for a `Source`. -/
def Source.toJson (s : Source) : Value :=
  .obj [("provider", .str s.provider.text), ("path", .str s.path)]

/-- A source that was written is read back. -/
@[simp] theorem Source.validate_toJson (s : Source) : model Source.validate s.toJson = .ok s := by
  rcases s with ⟨⟨⟩, path⟩
  rfl

/-- **`FileMeta`**: name, size, checksum and type of the file. -/
structure FileMeta where
  /-- The base name. -/
  name : String
  /-- The size in bytes. -/
  sizeBytes : AtLeast 0
  /-- The SHA-256 checksum, in hexadecimal. -/
  checksumSha256 : Text matchSha256
  /-- The MIME type. -/
  contentType : Option String
deriving DecidableEq

/-- `_valid_sha256` -/
def validSha256 : String → Validated (Text matchSha256) :=
  text matchSha256 "checksumSha256 must be 64 lowercase hex characters"

/-- The validation of `FileMeta`. -/
def FileMeta.validate (ms : Members) : Validated FileMeta :=
  ((field "name" str ms).both
    ((field "sizeBytes" (intOf 0) ms).both
      ((field "checksumSha256" (strWith validSha256) ms).both
        ((optField "contentType" str ms).both
          (forbidExtra ["name", "sizeBytes", "checksumSha256", "contentType"] ms))))).map
    fun (name, size, checksum, contentType, _) => ⟨name, size, checksum, contentType⟩

/-- What is written for a `FileMeta`. -/
def FileMeta.toJson (f : FileMeta) : Value :=
  .obj [("name", .str f.name), ("sizeBytes", .int f.sizeBytes),
    ("checksumSha256", .str f.checksumSha256), ("contentType", orNull .str f.contentType)]

/-- A file that was written is read back. -/
@[simp] theorem FileMeta.validate_toJson (f : FileMeta) :
    model FileMeta.validate f.toJson = .ok f := by
  have hsize : intOf 0 (.int f.sizeBytes) = .ok f.sizeBytes := atLeast_val f.sizeBytes
  have hsum : strWith validSha256 (.str f.checksumSha256) = .ok f.checksumSha256 :=
    strWith_val f.checksumSha256
  rw [FileMeta.toJson, model, FileMeta.validate, field_eq (v := .str f.name) (by rfl) (by rfl),
    field_eq (by rfl) hsize,
    field_eq (by rfl) hsum,
    optField_eq (w := .str) (by rfl) (by simp) (fun _ => rfl)]
  rfl

/-- `Literal["aws-s3", "gcp-gcs"]` -/
inductive Provider where
  /-- Amazon S3. -/
  | awsS3
  /-- Google Cloud Storage. -/
  | gcpGcs
deriving DecidableEq

/-- The text of a provider. -/
def Provider.text : Provider → String
  | .awsS3 => "aws-s3"
  | .gcpGcs => "gcp-gcs"

/-- **`Destination`**: one cloud target. -/
structure Destination where
  /-- The provider. -/
  provider : Provider
  /-- The bucket. -/
  bucket : String
  /-- The object key. -/
  key : String
  /-- The region. -/
  region : Option String
deriving DecidableEq

/-- The type of `provider`. -/
def Provider.validate : Value → Validated Provider :=
  literal [("aws-s3", .awsS3), ("gcp-gcs", .gcpGcs)] "Input should be 'aws-s3' or 'gcp-gcs'"

/-- The validation of `Destination`. -/
def Destination.validate (ms : Members) : Validated Destination :=
  ((field "provider" Provider.validate ms).both
    ((field "bucket" str ms).both
      ((field "key" str ms).both
        ((optField "region" str ms).both
          (forbidExtra ["provider", "bucket", "key", "region"] ms))))).map
    fun (provider, bucket, key, region, _) => ⟨provider, bucket, key, region⟩

/-- What is written for a `Destination`. -/
def Destination.toJson (d : Destination) : Value :=
  .obj [("provider", .str d.provider.text), ("bucket", .str d.bucket), ("key", .str d.key),
    ("region", orNull .str d.region)]

/-- A destination that was written is read back. -/
@[simp] theorem Destination.validate_toJson (d : Destination) :
    model Destination.validate d.toJson = .ok d := by
  have hprovider : Provider.validate (.str d.provider.text) = .ok d.provider := by
    cases d.provider <;> rfl
  rw [Destination.toJson, model, Destination.validate, field_eq (by rfl) hprovider,
    field_eq (v := .str d.bucket) (by rfl) (by rfl), field_eq (v := .str d.key) (by rfl) (by rfl),
    optField_eq (w := .str) (by rfl) (by simp) (fun _ => rfl)]
  rfl

/-- **`RetryInfo`**: which attempt of how many, and what went wrong before it. -/
structure RetryInfo where
  /-- The number of the attempt. -/
  attempt : AtLeast 1
  /-- The number of attempts allowed. -/
  maxAttempts : AtLeast 1
  /-- The error of the previous attempt. -/
  lastError : Option String
deriving DecidableEq

/-- The validation of `RetryInfo`. -/
def RetryInfo.validate (ms : Members) : Validated RetryInfo :=
  ((field "attempt" (intOf 1) ms).both
    ((field "maxAttempts" (intOf 1) ms).both
      ((optField "lastError" str ms).both
        (forbidExtra ["attempt", "maxAttempts", "lastError"] ms)))).map
    fun (attempt, maxAttempts, lastError, _) => ⟨attempt, maxAttempts, lastError⟩

/-- What is written for a `RetryInfo`. -/
def RetryInfo.toJson (r : RetryInfo) : Value :=
  .obj [("attempt", .int r.attempt), ("maxAttempts", .int r.maxAttempts),
    ("lastError", orNull .str r.lastError)]

/-- A retry that was written is read back. -/
@[simp] theorem RetryInfo.validate_toJson (r : RetryInfo) :
    model RetryInfo.validate r.toJson = .ok r := by
  have hattempt : intOf 1 (.int r.attempt) = .ok r.attempt := atLeast_val r.attempt
  have hmax : intOf 1 (.int r.maxAttempts) = .ok r.maxAttempts := atLeast_val r.maxAttempts
  rw [RetryInfo.toJson, model, RetryInfo.validate, field_eq (by rfl) hattempt,
    field_eq (by rfl) hmax, optField_eq (w := .str) (by rfl) (by simp) (fun _ => rfl)]
  rfl

/-! ## The event -/

/-- `Literal["file.transfer.requested"]` -/
inductive EventType where
  /-- A file is to be transferred. -/
  | fileTransferRequested
deriving DecidableEq

/-- The text of an event type. -/
def EventType.text : EventType → String
  | .fileTransferRequested => "file.transfer.requested"

/-- `schemaVersion` matches `_VERSION_RE`. -/
def isVersion (s : String) : Bool := (matchVersion s).isSome

/-- **`TransferEvent`**: a request to copy one file to its destinations. -/
structure TransferEvent where
  /-- `MAJOR.MINOR` -/
  schemaVersion : Text isVersion
  /-- The type of the event. -/
  eventType : EventType
  /-- One publish attempt. -/
  eventId : Text isUuid
  /-- One file's journey. -/
  correlationId : Text isUuid
  /-- The key of deduplication. -/
  idempotencyKey : Text matchIdempotency
  /-- When the watcher saw the file. -/
  occurredAt : Text isOccurredAt
  /-- Where the file is. -/
  source : Source
  /-- What the file is. -/
  file : FileMeta
  /-- Where the file goes; at least one destination. -/
  destinations : {ds : List Destination // ds ≠ []}
  /-- Present on redelivery. -/
  retry : Option RetryInfo
deriving DecidableEq

/-- `_valid_version` -/
def validVersion : String → Validated (Text isVersion) :=
  text isVersion "schemaVersion must look like MAJOR.MINOR"

/-- `_valid_uuid` -/
def validUuid : String → Validated (Text isUuid) := text isUuid "must be a valid UUID"

/-- `_valid_idempotency_key` -/
def validIdempotencyKey : String → Validated (Text matchIdempotency) :=
  text matchIdempotency "idempotencyKey must look like sha256:<64 hex chars>"

/-- `_valid_occurred_at` -/
def validOccurredAt : String → Validated (Text isOccurredAt) :=
  text isOccurredAt "occurredAt must be an RFC3339 timestamp"

/-- `list[Destination] = Field(min_length=1)` -/
def validDestinations : Value → Validated {ds : List Destination // ds ≠ []}
  | .arr vs => (items (model Destination.validate) 0 vs).bind fun ds =>
      if h : ds ≠ [] then .ok ⟨ds, h⟩
      else fail "List should have at least 1 item after validation, not 0"
  | _ => fail "Input should be a valid array"

namespace TransferEvent

/-- The names of the fields. -/
def fieldNames : List String :=
  ["schemaVersion", "eventType", "eventId", "correlationId", "idempotencyKey", "occurredAt",
    "source", "file", "destinations", "retry"]

/-- The validation of `TransferEvent`. -/
def validate (ms : Members) : Validated TransferEvent :=
  ((field "schemaVersion" (strWith validVersion) ms).both
    ((field "eventType" (literal [("file.transfer.requested", .fileTransferRequested)]
        "Input should be 'file.transfer.requested'") ms).both
      ((field "eventId" (strWith validUuid) ms).both
        ((field "correlationId" (strWith validUuid) ms).both
          ((field "idempotencyKey" (strWith validIdempotencyKey) ms).both
            ((field "occurredAt" (strWith validOccurredAt) ms).both
              ((field "source" (model Source.validate) ms).both
                ((field "file" (model FileMeta.validate) ms).both
                  ((field "destinations" validDestinations ms).both
                    ((optField "retry" (model RetryInfo.validate) ms).both
                      (forbidExtra fieldNames ms))))))))))).map
    fun (version, type, eventId, correlationId, key, occurredAt, source, file, ds, retry, _) =>
      ⟨version, type, eventId, correlationId, key, occurredAt, source, file, ds, retry⟩

/-- What is written for an event. -/
def toJson (e : TransferEvent) : Value :=
  .obj [("schemaVersion", .str e.schemaVersion), ("eventType", .str e.eventType.text),
    ("eventId", .str e.eventId), ("correlationId", .str e.correlationId),
    ("idempotencyKey", .str e.idempotencyKey), ("occurredAt", .str e.occurredAt),
    ("source", e.source.toJson), ("file", e.file.toJson),
    ("destinations", .arr (e.destinations.val.map Destination.toJson)),
    ("retry", orNull RetryInfo.toJson e.retry)]

/-- What is written for an event passes the validation and gives the event back. -/
theorem validate_toJson (e : TransferEvent) : model validate e.toJson = .ok e := by
  have htype : literal [("file.transfer.requested", EventType.fileTransferRequested)]
      "Input should be 'file.transfer.requested'" (.str e.eventType.text) = .ok e.eventType := by
    cases e.eventType; rfl
  have hdest : validDestinations (.arr (e.destinations.val.map Destination.toJson)) =
      .ok e.destinations := by
    simp only [validDestinations, items_map Destination.validate_toJson, Except.bind]
    exact dif_pos e.destinations.property
  have hid : strWith validUuid (.str e.eventId) = .ok e.eventId := strWith_val e.eventId
  have hcorr : strWith validUuid (.str e.correlationId) = .ok e.correlationId :=
    strWith_val e.correlationId
  have hversion : strWith validVersion (.str e.schemaVersion) = .ok e.schemaVersion :=
    strWith_val e.schemaVersion
  have hkey : strWith validIdempotencyKey (.str e.idempotencyKey) = .ok e.idempotencyKey :=
    strWith_val e.idempotencyKey
  have hat : strWith validOccurredAt (.str e.occurredAt) = .ok e.occurredAt :=
    strWith_val e.occurredAt
  have hretry : ∀ r : RetryInfo, r.toJson ≠ .null := fun _ => by simp [RetryInfo.toJson]
  rw [toJson, model, validate, field_eq (by rfl) hversion, field_eq (by rfl) htype,
    field_eq (by rfl) hid, field_eq (by rfl) hcorr, field_eq (by rfl) hkey, field_eq (by rfl) hat,
    field_eq (by rfl) (Source.validate_toJson e.source),
    field_eq (by rfl) (FileMeta.validate_toJson e.file), field_eq (by rfl) hdest,
    optField_eq (by rfl) hretry RetryInfo.validate_toJson]
  rfl

/-- `to_json_bytes` -/
def toJsonBytes (e : TransferEvent) : ByteArray := Json.dumps e.toJson

/-- `from_json_bytes` with this JSON reader under it. -/
def fromJsonBytesWith (read : ByteArray → Option Value) (data : ByteArray) : Except Exn TransferEvent :=
  match read data with
  | none => .error (.validation [⟨[], "Invalid JSON"⟩])
  | some v => (model validate v).mapError .validation

/-- **`from_json_bytes`**: parse and validate, with a reader of standard JSON. -/
def fromJsonBytes (data : ByteArray) : Except Exn TransferEvent :=
  match Json.loads data with
  | none => .error (.validation [⟨[], "Invalid JSON"⟩])
  | some v => (model validate v).mapError .validation

/-- **The wire round trip**: an encoded event decodes to itself. -/
@[simp] theorem fromJsonBytes_toJsonBytes (e : TransferEvent) :
    fromJsonBytes e.toJsonBytes = .ok e := by
  simp only [fromJsonBytes, toJsonBytes, Json.loads_dumps, validate_toJson]
  rfl

/-- `SUPPORTED_SCHEMA_MAJOR` -/
def supportedSchemaMajor : Nat := 1

/-- The digits of the major version. -/
def majorDigits (e : TransferEvent) : List Char :=
  (matchVersion e.schemaVersion).getD []

/-- `schema_major`: `int` refuses a text of more than 4300 digits. -/
def schemaMajor (e : TransferEvent) : Except Exn Nat :=
  if e.majorDigits.length > 4300 then
    .error (.value "Exceeds the limit (4300 digits) for integer string conversion")
  else .ok (decimalValue e.majorDigits)

/-- `assert_supported` -/
def assertSupported (e : TransferEvent) : Except Exn Unit := do
  if (← e.schemaMajor) ≠ supportedSchemaMajor then
    .error (.unsupportedSchemaVersion
      ("schemaVersion " ++ e.schemaVersion.val ++ " is not supported (expected major version " ++
        toString supportedSchemaMajor ++ ")"))
  else .ok ()

/-- `with_retry`: a copy with a new `RetryInfo`, whose constructor checks its bounds. -/
def withRetry (e : TransferEvent) (attempt maxAttempts : Int) (lastError : String) :
    Except Exn TransferEvent :=
  match ((atLeast 1 attempt).under "attempt").both ((atLeast 1 maxAttempts).under "maxAttempts") with
  | .ok (attempt, maxAttempts) => .ok { e with retry := some ⟨attempt, maxAttempts, lastError⟩ }
  | .error es => .error (.validation es)

/-- The constructor `TransferEvent(...)` as the watcher calls it: the validators run on the texts. -/
def make (schemaVersion eventId correlationId idempotencyKey occurredAt : String)
    (source : Source) (name : String) (sizeBytes : Nat) (checksumSha256 : String)
    (contentType : String) (destinations : {ds : List Destination // ds ≠ []}) :
    Except Exn TransferEvent :=
  let file := (validSha256 checksumSha256).under "checksumSha256" |>.map fun checksum =>
    FileMeta.mk name ⟨sizeBytes, Int.natCast_nonneg _⟩ checksum (some contentType)
  let event := ((validVersion schemaVersion).under "schemaVersion").both
    (((validUuid eventId).under "eventId").both
      (((validUuid correlationId).under "correlationId").both
        (((validIdempotencyKey idempotencyKey).under "idempotencyKey").both
          ((validOccurredAt occurredAt).under "occurredAt"))))
  -- the file's own model is built before the event's
  match file, event with
  | .error es, _ => .error (.validation es)
  | _, .error es => .error (.validation es)
  | .ok file, .ok (version, eventId, correlationId, key, occurredAt) =>
      .ok ⟨version, .fileTransferRequested, eventId, correlationId, key, occurredAt, source, file,
        destinations, none⟩

variable {e e' : TransferEvent} {attempt maxAttempts : Int} {lastError : String}

/-- A successful `with_retry` had both numbers in bounds and changed nothing but `retry`. -/
theorem withRetry_ok (h : e.withRetry attempt maxAttempts lastError = .ok e') :
    ∃ (ha : 1 ≤ attempt) (hm : 1 ≤ maxAttempts),
      e' = { e with retry := some ⟨⟨attempt, ha⟩, ⟨maxAttempts, hm⟩, some lastError⟩ } := by
  unfold withRetry atLeast at h
  by_cases ha : 1 ≤ attempt
  · by_cases hm : 1 ≤ maxAttempts
    · simp only [ha, hm, dif_pos, under_ok, both_ok, Except.ok.injEq] at h
      exact ⟨ha, hm, h.symm⟩
    · simp [ha, hm, fail, under, Except.mapError, both] at h
  · by_cases hm : 1 ≤ maxAttempts <;> simp [ha, hm, fail, under, Except.mapError, both] at h

/-- With both numbers in bounds `with_retry` returns normally. -/
theorem withRetry_eq (e : TransferEvent) (lastError : String) (ha : 1 ≤ attempt)
    (hm : 1 ≤ maxAttempts) : e.withRetry attempt maxAttempts lastError =
      .ok { e with retry := some ⟨⟨attempt, ha⟩, ⟨maxAttempts, hm⟩, some lastError⟩ } := by
  simp [withRetry, atLeast, ha, hm]

/-- The example event of the contract. -/
def sample : TransferEvent where
  schemaVersion := ⟨"1.0", by decide +kernel⟩
  eventType := .fileTransferRequested
  eventId := ⟨"8f14e45f-ceea-4c4f-9f2a-1d2b3c4d5e6f", by decide +kernel⟩
  correlationId := ⟨"3fa85f64-5717-4562-b3fc-2c963f66afa6", by decide +kernel⟩
  idempotencyKey :=
    ⟨"sha256:9f86d081884c7d659a2feaa0c55ad015a3bf4f1b2b0b822cd15d6c15b0f00a08", by decide +kernel⟩
  occurredAt := ⟨"2026-06-10T09:32:11Z", by decide +kernel⟩
  source := ⟨.sftp, "/watch/orders/ORD-20260610-0001.csv"⟩
  file := ⟨"ORD-20260610-0001.csv", ⟨4096, by decide⟩,
    ⟨"9f86d081884c7d659a2feaa0c55ad015a3bf4f1b2b0b822cd15d6c15b0f00a08", by decide +kernel⟩,
    some "text/csv"⟩
  destinations :=
    ⟨[⟨.awsS3, "wms-orders-processed", "orders/ORD-20260610-0001.csv", some "us-east-1"⟩,
      ⟨.gcpGcs, "wms-orders-processed", "orders/ORD-20260610-0001.csv", none⟩], by simp⟩
  retry := none

/-- The example event is of a supported version. -/
theorem sample_supported : sample.assertSupported = .ok () := by rfl

end TransferEvent

end TransferWorker
