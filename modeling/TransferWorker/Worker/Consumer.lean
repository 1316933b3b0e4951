import Mathlib.Tactic.Linarith
import Mathlib.Tactic.NormNum
import TransferWorker.CallTrees.Service
import TransferWorker.Worker.CsvSecurity
import TransferWorker.Worker.Publisher
import TransferWorker.Worker.Uploader

/-! # The consumer

The validate, dedupe, scan, upload, ack/retry/dead-letter state machine, and the thread that drives
it.

* **`Consumer.handle`** — `_handle`, one delivery; cut where an early return ends a stage.
* **`consumerService`** — `_run_consumer`: set up, `Consumer.run` turn by turn, clean up. -/

namespace TransferWorker

open CallTrees

/-- The smallest magnitude that a double rounds to infinity. -/
def floatOverflow : ℚ := 2 ^ 1024 - 2 ^ 970

/-- **`backoff_delay_ms`**: `int(base ** attempt * 1000)`, in exact arithmetic within the range of
doubles. -/
def backoffDelayMs (settings : Settings) (attempt : Nat) : Except Exn Int :=
  match settings.retryBackoffBase with
  | .nan => .error (.value "cannot convert float NaN to integer")
  | .infinite _ => .error (.overflow "cannot convert float infinity to integer")
  | .finite base =>
      let delay := base ^ attempt * 1000
      if floatOverflow ≤ |base ^ attempt| then .error (.overflow "Numerical result out of range")
      else if floatOverflow ≤ |delay| then
        .error (.overflow "cannot convert float infinity to integer")
      else .ok (delay.num.tdiv delay.den)

/-- A number up to `2 ^ 970` is no overflow. -/
theorem lt_floatOverflow {q : ℚ} (h : q ≤ 2 ^ 970) : q < floatOverflow := by
  have hpow : (2 : ℚ) ^ 1024 = 2 ^ 54 * 2 ^ 970 := by rw [← pow_add]
  have hpos : (0 : ℚ) < 2 ^ 970 := pow_pos two_pos 970
  rw [floatOverflow, hpow]
  generalize (2 : ℚ) ^ 970 = x at h hpos
  norm_num
  linarith

/-- Well within the range of doubles the delay is what the formula says. -/
theorem backoffDelayMs_eq {settings : Settings} {base : ℚ} {attempt : Nat}
    (hbase : settings.retryBackoffBase = .finite base)
    (h : |base ^ attempt * 1000| ≤ 2 ^ 970) :
    backoffDelayMs settings attempt =
      .ok ((base ^ attempt * 1000).num.tdiv (base ^ attempt * 1000).den) := by
  have hsmaller : |base ^ attempt| ≤ |base ^ attempt * 1000| := by
    rw [abs_mul]
    exact le_mul_of_one_le_right (abs_nonneg _) (by norm_num)
  simp only [backoffDelayMs, hbase]
  rw [if_neg (not_le.2 (lt_floatOverflow (hsmaller.trans h))), if_neg (not_le.2 (lt_floatOverflow h))]

namespace Consumer

/-- `__init__`: the channel's prefetch bound. -/
def init (settings : Settings) : Prog Unit :=
  call (.basicQos (max 1 settings.uploadMaxConcurrency))

/-- `_dead_letter_raw`: the body as it came, under a content type that is never empty. -/
def deadLetterRaw (settings : Settings) (message : Message) (reason : String) : Prog Unit :=
  let contentType :=
    match message.properties.contentType with
    | none => "application/octet-stream"
    | some t => if t = "" then "application/octet-stream" else t
  call (.basicPublish settings.dlqName
    { body := message.body
      properties :=
        { contentType := some contentType, headers := some [("x-dlq-reason", reason)] } })

/-- Publish an event to the dead-letter queue and acknowledge the delivery. -/
def deadLetter (settings : Settings) (tag : Nat) (event : TransferEvent) (reason : String) :
    Prog Unit := do
  Publisher.publishDlq settings event reason
  call (.basicAck tag)

/-- `",".join(r.error for r in failures if r.error)` -/
def lastError (failures : List UploadResult) : String :=
  ",".intercalate (failures.filterMap fun r => r.error.filter (· ≠ ""))

/-- The number of the attempt that has just failed: one more than the event carries. -/
def nextAttempt (event : TransferEvent) : Int :=
  match event.retry with
  | none => 1
  | some retry => retry.attempt + 1

/-- `_handle` after a failed upload: dead-letter or schedule a retry. -/
def handleFailure (settings : Settings) (tag : Nat) (event : TransferEvent)
    (failures : List UploadResult) : Prog Unit := do
  let error := lastError failures
  let attempt := nextAttempt event
  if attempt > settings.retryMaxAttempts then
    let failedEvent ← pureCall (event.withRetry (attempt - 1) settings.retryMaxAttempts error)
    deadLetter settings tag failedEvent "max_retries_exceeded"
  else
    let retryEvent ← pureCall (event.withRetry attempt settings.retryMaxAttempts error)
    let delayMs ← pureCall (backoffDelayMs settings attempt.toNat)
    Publisher.publishRetry settings retryEvent delayMs
    call (.basicAck tag)

/-- `_handle` after the scan: upload, and mark done or deal with the failures. -/
def handleUpload (settings : Settings) (tag : Nat) (event : TransferEvent) : Prog Unit := do
  let results ← uploadAll settings event (fsencode event.source.path)
  let failures := results.filter fun r => !r.ok
  if failures = [] then
    call (.markDone event.idempotencyKey event.correlationId)
    call (.basicAck tag)
  else handleFailure settings tag event failures

/-- `_handle` of an event that is not done yet: its source file and the scan. -/
def handleSource (settings : Settings) (tag : Nat) (event : TransferEvent) : Prog Unit := do
  if !(← call (.isfile (fsencode event.source.path))) then
    deadLetter settings tag event "source_file_missing"
  else
    let issues ← scanCsvFile (fsencode event.source.path) settings
    if issues ≠ [] then deadLetter settings tag event "csv_security_check_failed"
    else handleUpload settings tag event

/-- `_handle` of an event of a supported version: deduplication. -/
def handleSupported (settings : Settings) (tag : Nat) (event : TransferEvent) : Prog Unit := do
  if ← call (.isDone event.idempotencyKey) then call (.basicAck tag)
  else handleSource settings tag event

/-- **`_handle`** -/
def handle (settings : Settings) (tag : Nat) (message : Message) : Prog Unit :=
  match TransferEvent.fromJsonBytes message.body with
  | .error _ => do
      deadLetterRaw settings message "invalid_payload"
      call (.basicAck tag)
  | .ok event =>
      match event.assertSupported with
      | .error (.unsupportedSchemaVersion _) =>
          deadLetter settings tag event "unsupported_schema_version"
      | .error e => throwing e
      | .ok () => handleSupported settings tag event

/-- **One turn of `run`**: take the next item; a delivery is handled, and an exception of `_handle`
is only logged. When the loop ends the consumer is cancelled. -/
def turn (settings : Settings) : Prog (Unit ⊕ Unit) := do
  match ← call (.consume settings.queueName) with
  | .exhausted =>
      call .cancel
      return .inr ()
  | .tick =>
      if ← call .stopIsSet then
        call .cancel
        return .inr ()
      else return .inl ()
  | .delivery tag message =>
      if ← call .stopIsSet then
        call .cancel
        return .inr ()
      else
        let _ ← (handle settings tag message).attempt
        return .inl ()

end Consumer

/-- The `finally` of `_run_consumer`. -/
def consumerCleanup : Prog Unit := do
  call (.setReady .consumer false)
  call .close

/-- **`_run_consumer`**, with `Consumer.run` as its loop. The store is closed by an inner `finally`,
the readiness flag cleared and the connection closed by an outer one. -/
def consumerService (settings : Settings) : Service calls Exn Unit where
  setup := do
    connectAndSetup settings
    (do call (.storeOpen settings.idempotencyDbPath)
        (do call (.setReady .consumer true)
            Consumer.init settings).onError (call .storeClose)).onError consumerCleanup
  turn _ := Consumer.turn settings
  finish _ r := ((pureCall r).andFinally (call .storeClose)).andFinally consumerCleanup

end TransferWorker
