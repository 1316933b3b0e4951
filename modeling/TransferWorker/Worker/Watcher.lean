import TransferWorker.CallTrees.Service
import TransferWorker.Worker.Publisher
import TransferWorker.Worker.Utils

/-! # The watcher

A file that was written completely gets an event on the broker. The observer's handler only puts
paths on a queue; the watcher's thread drains it and publishes.

* **`Watcher.buildEvent`** — the event of a file.
* **`Watcher.publishWithReconnect`** — publish, reconnecting once.
* **`watcherService`** — `run_watcher`. -/

namespace TransferWorker

open CallTrees

/-- `watchdog.events.FileSystemEvent` -/
structure FileSystemEvent where
  /-- The event is about a directory. -/
  isDirectory : Bool
  /-- The path the event is about. -/
  srcPath : Path
  /-- Where it was moved to. -/
  destPath : Path

namespace DetectedFileHandler

/-- `on_closed` -/
def onClosed (event : FileSystemEvent) (queue : List Path) : List Path :=
  if event.isDirectory then queue else queue ++ [event.srcPath]

/-- `on_moved` -/
def onMoved (event : FileSystemEvent) (queue : List Path) : List Path :=
  if event.isDirectory then queue else queue ++ [event.destPath]

end DetectedFileHandler

namespace Watcher

/-- The destinations of a relative key: the S3 bucket and the GCS bucket. -/
def destinations (settings : Settings) (relativeKey : String) : List Destination :=
  [⟨.awsS3, settings.s3Bucket, relativeKey, some settings.s3Region⟩,
    ⟨.gcpGcs, settings.gcsBucket, relativeKey, none⟩]

/-- An event has two destinations. -/
theorem destinations_ne_nil (settings : Settings) (relativeKey : String) :
    destinations settings relativeKey ≠ [] :=
  List.cons_ne_nil _ _

/-- **`build_event`**. A name that is not UTF-8 is a string with surrogate escapes, which the key's
`encode` refuses. -/
def buildEvent (H : Hashes) (cwd : String) (path : Path) (settings : Settings) :
    Prog TransferEvent := do
  let sizeBytes ← call (.getsize path)
  let content ← call (.readFile path)
  let checksum := H.sha256 content
  match String.fromUTF8? path with
  | none => throwing .unicodeEncode
  | some name =>
      let relativeKey := relpath cwd name settings.watchDir
      let key := computeIdempotencyKey H settings.correlationSecret name sizeBytes checksum
      let eventId ← call .newUuid
      let correlationId ← call .newUuid
      let occurredAt ← call .utcnow
      pureCall (TransferEvent.make "1.0" eventId correlationId key occurredAt ⟨.sftp, name⟩
        (basename name) sizeBytes checksum (guessContentType name)
        ⟨destinations settings relativeKey, destinations_ne_nil _ _⟩)

/-- `_reconnect`: close the old connection, whatever that raises, and open a fresh one. -/
def reconnect (settings : Settings) : Prog Unit := do
  let _ ← (call .close).attempt
  connectAndSetup settings

/-- **`_publish_with_reconnect`**: an AMQP error of the first publish leads to one reconnect and one
more publish, whose exceptions are only logged. -/
def publishWithReconnect (settings : Settings) (event : TransferEvent) : Prog Unit := do
  match ← (Publisher.publishEvent settings event).attempt with
  | .ok () => return ()
  | .error e =>
      if e.isAmqp then
        reconnect settings
        let _ ← (Publisher.publishEvent settings event).attempt
        return ()
      else throwing e

/-- `_service_idle_connection` -/
def serviceIdleConnection (settings : Settings) : Prog Unit :=
  (call .processDataEvents).tryCatch fun e => if e.isAmqp then reconnect settings else throwing e

/-- What the loop does with a path it took from the queue. -/
def handlePath (H : Hashes) (cwd : String) (settings : Settings) (path : Path) : Prog Unit := do
  if !(← call (.isfile path)) then return ()
  else
    match ← (buildEvent H cwd path settings).attempt with
    | .error _ => return ()
    | .ok event => publishWithReconnect settings event

/-- **One turn of the loop of `run_watcher`.** -/
def turn (H : Hashes) (cwd : String) (settings : Settings) : Prog (Unit ⊕ Unit) := do
  if ← call .stopIsSet then return .inr ()
  else
    match ← call .fileQueueGet with
    | none => serviceIdleConnection settings
    | some path => handlePath H cwd settings path
    return .inl ()

end Watcher

/-- **`run_watcher`**. The flag is set and the observer started before the `try` whose `finally`
clears the flag. -/
def watcherService (H : Hashes) (cwd : String) (settings : Settings) : Service calls Exn Unit where
  setup := do
    connectAndSetup settings
    call (.setReady .watcher true)
    call .observerNew
    call (.observerSchedule settings.watchDir)
    call .observerStart
  turn _ := Watcher.turn H cwd settings
  finish _ r := (pureCall r).andFinally do
    call (.setReady .watcher false)
    call .observerStop
    call .observerJoin
    let _ ← (call .close).attempt

end TransferWorker
