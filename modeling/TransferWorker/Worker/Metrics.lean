import TransferWorker.CallTrees.Instrumented
import TransferWorker.Worker.Main

/-! # Metrics

The counters of the process, and the code of the worker with the places where they are incremented. An
increment is a mark: it returns at once, and nothing in the worker reads it. Erased, the programs are the
ones without metrics. The observations of the duration histogram are marks without their value.

* **`Metric`** — the counters, with their labels.
* **`Metered.handle`** — `_handle` with its increments; `erase_handle`.
* **`Metered.service`** — the threads with their increments; `erase_service`. -/

namespace TransferWorker

open CallTrees

/-- The label `result` of `events_consumed_total`. -/
inductive ConsumeResult where
  /-- Both uploads succeeded. -/
  | success
  /-- A retry was scheduled. -/
  | retry
  /-- The message went to the dead-letter queue. -/
  | dlq
  /-- The event was done already. -/
  | duplicate
deriving DecidableEq

/-- **The metrics**, with their labels. -/
inductive Metric where
  /-- `events_published_total` -/
  | eventsPublished
  /-- `events_consumed_total` -/
  | eventsConsumed (result : ConsumeResult)
  /-- `upload_duration_seconds`: an observation. -/
  | uploadDuration (provider : Provider)
  /-- `uploads_total`; the label `result` is `success` or `error`. -/
  | uploads (provider : Provider) (success : Bool)
  /-- `dlq_messages_total` -/
  | dlqMessages
  /-- `idempotency_hits_total` -/
  | idempotencyHits
  /-- `csv_security_rejections_total` -/
  | csvSecurityRejections (issueType : String)
deriving DecidableEq

/-- A piece of the worker with its increments. -/
abbrev MeteredProg (α : Type) := Program (calls.marked Metric) Exn α

/-- `issue.split(":", 1)[0]` -/
def issueType (issue : String) : String := .ofList (issue.toList.takeWhile (· ≠ ':'))

/-- The increments for the issues of a scan. -/
def rejections (issues : List String) : List Metric :=
  issues.map fun issue => .csvSecurityRejections (issueType issue)

/-- The increments of `_upload_one`. -/
def uploadMarks (r : UploadResult) : List Metric := [.uploads r.provider r.ok, .uploadDuration r.provider]

/-- The increments for a message that was acknowledged. -/
def ConsumeResult.marks : ConsumeResult → List Metric
  | .success => [.eventsConsumed .success]
  | .retry => [.eventsConsumed .retry]
  | .dlq => [.eventsConsumed .dlq, .dlqMessages]
  | .duplicate => [.eventsConsumed .duplicate, .idempotencyHits]

namespace Metered

open Program

variable (settings : Settings)

/-- `upload_all`; the uploads count themselves as they end. -/
def uploadAll (event : TransferEvent) (path : Path) : MeteredProg (List UploadResult) := do
  let results ← (TransferWorker.uploadAll settings event path).plain
  marks (results.flatMap uploadMarks)
  return results

/-- Publish an event to the dead-letter queue, acknowledge the delivery, and count it. -/
def deadLetter (tag : Nat) (event : TransferEvent) (reason : String) : MeteredProg Unit := do
  (Publisher.publishDlq settings event reason).plain
  (call (.basicAck tag)).plain
  marks ConsumeResult.dlq.marks

/-- `_handle` after a failed upload. -/
def handleFailure (tag : Nat) (event : TransferEvent) (failures : List UploadResult) :
    MeteredProg Unit := do
  let error := Consumer.lastError failures
  let attempt := Consumer.nextAttempt event
  if attempt > settings.retryMaxAttempts then
    let failedEvent ← ofExcept (event.withRetry (attempt - 1) settings.retryMaxAttempts error)
    deadLetter settings tag failedEvent "max_retries_exceeded"
  else
    let retryEvent ← ofExcept (event.withRetry attempt settings.retryMaxAttempts error)
    let delayMs ← ofExcept (backoffDelayMs settings attempt.toNat)
    (Publisher.publishRetry settings retryEvent delayMs).plain
    (call (.basicAck tag)).plain
    marks ConsumeResult.retry.marks

/-- `_handle` after the scan. -/
def handleUpload (tag : Nat) (event : TransferEvent) : MeteredProg Unit := do
  let results ← uploadAll settings event (fsencode event.source.path)
  let failures := results.filter fun r => !r.ok
  if failures = [] then
    (call (.markDone event.idempotencyKey event.correlationId)).plain
    (call (.basicAck tag)).plain
    marks ConsumeResult.success.marks
  else handleFailure settings tag event failures

/-- `_handle` of an event that is not done yet. -/
def handleSource (tag : Nat) (event : TransferEvent) : MeteredProg Unit := do
  if !(← (call (.isfile (fsencode event.source.path))).plain) then
    deadLetter settings tag event "source_file_missing"
  else
    let issues ← (scanCsvFile (fsencode event.source.path) settings).plain
    if issues ≠ [] then
      marks (rejections issues)
      deadLetter settings tag event "csv_security_check_failed"
    else handleUpload settings tag event

/-- `_handle` of an event of a supported version. -/
def handleSupported (tag : Nat) (event : TransferEvent) : MeteredProg Unit := do
  if ← (call (.isDone event.idempotencyKey)).plain then
    (call (.basicAck tag)).plain
    marks ConsumeResult.duplicate.marks
  else handleSource settings tag event

/-- **`_handle`** -/
def handle (tag : Nat) (message : Message) : MeteredProg Unit :=
  match TransferEvent.fromJsonBytes message.body with
  | .error _ => do
      (Consumer.deadLetterRaw settings message "invalid_payload").plain
      (call (.basicAck tag)).plain
      marks ConsumeResult.dlq.marks
  | .ok event =>
      match event.assertSupported with
      | .error (.unsupportedSchemaVersion _) =>
          deadLetter settings tag event "unsupported_schema_version"
      | .error e => raise e
      | .ok () => handleSupported settings tag event

/-- One turn of `run`. -/
def consumerTurn : MeteredProg (Unit ⊕ Unit) := do
  match ← (call (.consume settings.queueName)).plain with
  | .exhausted =>
      (call .cancel).plain
      return .inr ()
  | .tick =>
      if ← (call .stopIsSet).plain then
        (call .cancel).plain
        return .inr ()
      else return .inl ()
  | .delivery tag message =>
      if ← (call .stopIsSet).plain then
        (call .cancel).plain
        return .inr ()
      else
        let _ ← (handle settings tag message).attempt
        return .inl ()

/-- `publish_event`, and the increment after it. -/
def publishCounted (event : TransferEvent) : MeteredProg Unit := do
  (Publisher.publishEvent settings event).plain
  mark .eventsPublished

/-- `_publish_with_reconnect` -/
def publishWithReconnect (event : TransferEvent) : MeteredProg Unit := do
  match ← (publishCounted settings event).attempt with
  | .ok () => return ()
  | .error e =>
      if e.isAmqp then
        (Watcher.reconnect settings).plain
        let _ ← (publishCounted settings event).attempt
        return ()
      else raise e

/-- What the watcher does with a path it took from the queue. -/
def handlePath (H : Hashes) (cwd : String) (path : Path) : MeteredProg Unit := do
  if !(← (call (.isfile path)).plain) then return ()
  else
    match ← (Watcher.buildEvent H cwd path settings).plain.attempt with
    | .error _ => return ()
    | .ok event => publishWithReconnect settings event

/-- One turn of the loop of `run_watcher`. -/
def watcherTurn (H : Hashes) (cwd : String) : MeteredProg (Unit ⊕ Unit) := do
  if ← (call .stopIsSet).plain then return .inr ()
  else
    match ← (call .fileQueueGet).plain with
    | none => (Watcher.serviceIdleConnection settings).plain
    | some path => handlePath settings H cwd path
    return .inl ()

/-! ## Without the increments -/

variable {settings}

/-- `upload_all` without its increments. -/
@[simp] theorem erase_uploadAll (event : TransferEvent) (path : Path) :
    (uploadAll settings event path).erase = TransferWorker.uploadAll settings event path := by
  simp [uploadAll, bind_ret]

/-- The dead letter without its increments. -/
@[simp] theorem erase_deadLetter (tag : Nat) (event : TransferEvent) (reason : String) :
    (deadLetter settings tag event reason).erase = Consumer.deadLetter settings tag event reason := by
  simp [deadLetter, Consumer.deadLetter]

/-- `_handle_failure` without its increments. -/
@[simp] theorem erase_handleFailure (tag : Nat) (event : TransferEvent) (failures : List UploadResult) :
    (handleFailure settings tag event failures).erase =
      Consumer.handleFailure settings tag event failures := by
  unfold handleFailure Consumer.handleFailure
  dsimp only
  split
  · simp
  · simp

/-- `_handle` from the upload on, without its increments. -/
@[simp] theorem erase_handleUpload (tag : Nat) (event : TransferEvent) :
    (handleUpload settings tag event).erase = Consumer.handleUpload settings tag event := by
  unfold handleUpload Consumer.handleUpload
  rw [erase_bind, erase_uploadAll]
  congr 1
  funext results
  dsimp only
  split
  · simp
  · simp

/-- `_handle` from the check of the source file on, without its increments. -/
@[simp] theorem erase_handleSource (tag : Nat) (event : TransferEvent) :
    (handleSource settings tag event).erase = Consumer.handleSource settings tag event := by
  unfold handleSource Consumer.handleSource
  rw [erase_bind, erase_plain]
  congr 1
  funext isfile
  split
  · simp
  · rw [erase_bind, erase_plain]
    congr 1
    funext issues
    split
    · simp
    · simp

/-- `_handle` of a supported event without its increments. -/
@[simp] theorem erase_handleSupported (tag : Nat) (event : TransferEvent) :
    (handleSupported settings tag event).erase = Consumer.handleSupported settings tag event := by
  unfold handleSupported Consumer.handleSupported
  rw [erase_bind, erase_plain]
  congr 1
  funext done
  split
  · simp
  · simp

/-- **`_handle` makes the calls that it makes without metrics.** -/
@[simp] theorem erase_handle (tag : Nat) (message : Message) :
    (handle settings tag message).erase = Consumer.handle settings tag message := by
  unfold handle Consumer.handle
  cases TransferEvent.fromJsonBytes message.body with
  | error e => simp
  | ok event =>
      dsimp only
      cases event.assertSupported with
      | ok u => exact erase_handleSupported tag event
      | error e =>
          cases e with
          | unsupportedSchemaVersion msg => exact erase_deadLetter tag event _
          | _ => rfl

/-- **The turn of the consumer** without its increments is that of the source. -/
theorem erase_consumerTurn : (consumerTurn settings).erase = Consumer.turn settings := by
  unfold consumerTurn Consumer.turn
  rw [erase_bind, erase_plain]
  congr 1
  funext item
  cases item with
  | exhausted => simp
  | tick =>
      dsimp only
      rw [erase_bind, erase_plain]
      congr 1
      funext stop
      cases stop <;> simp
  | delivery tag m =>
      dsimp only
      rw [erase_bind, erase_plain]
      congr 1
      funext stop
      cases stop <;> simp

/-- A publication without its increment. -/
@[simp] theorem erase_publishCounted (event : TransferEvent) :
    (publishCounted settings event).erase = Publisher.publishEvent settings event := by
  simp [publishCounted]

/-- A publication with a reconnect without its increments. -/
@[simp] theorem erase_publishWithReconnect (event : TransferEvent) :
    (publishWithReconnect settings event).erase = Watcher.publishWithReconnect settings event := by
  unfold publishWithReconnect Watcher.publishWithReconnect
  rw [erase_bind, erase_attempt, erase_publishCounted]
  congr 1
  funext r
  cases r with
  | ok u => rfl
  | error e =>
      dsimp only
      split
      · simp
      · simp

/-- **The turn of the watcher** without its increments is that of the source. -/
theorem erase_watcherTurn (H : Hashes) (cwd : String) :
    (watcherTurn settings H cwd).erase = Watcher.turn H cwd settings := by
  have hpath : ∀ path, (handlePath settings H cwd path).erase = Watcher.handlePath H cwd settings path := by
    intro path
    unfold handlePath Watcher.handlePath
    rw [erase_bind, erase_plain]
    congr 1
    funext isfile
    split
    · simp
    · rw [erase_bind, erase_attempt, erase_plain]
      congr 1
      funext r
      cases r <;> simp
  unfold watcherTurn Watcher.turn
  rw [erase_bind, erase_plain]
  congr 1
  funext stop
  split
  · simp
  · rw [erase_bind, erase_plain]
    congr 1
    funext item
    cases item with
    | none => simp
    | some path => simp [hpath]

end Metered

end TransferWorker
