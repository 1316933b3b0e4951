import Mathlib.Logic.Function.Basic
import TransferWorker.Worker.Main

/-! # The world around the worker

The broker with its queues and the consumer's channel, the idempotency store, the file system, the
cloud buckets with the upload threads, and the shared flags of the process. `normal` and `failing`
say what a call may answer and leave behind, `Move` what happens without the worker: messages
arrive, are delivered, expire and are replayed, files are written, upload threads make progress,
the channel breaks, the process is asked to stop.

The world also records history that no party can see: which messages were ever accepted, from which
publications a message stems, which upload runs there were, what became of the paths that the
watcher took. It is there for statements about runs.

* **`World`** — the state, with one function for each change.
* **`World.responds`** — the answers of the external calls.
* **`Move`** — the environment's own steps.
* **`World.crash`** — the end of the process. -/

namespace TransferWorker

open CallTrees

/-! ## Records -/

/-- How far the upload to one destination has come. -/
inductive PartState where
  /-- The file has not been read. -/
  | pending
  /-- The file was read. -/
  | fetched (content : ByteArray)
  /-- This content was stored. -/
  | stored (content : ByteArray)
  /-- The upload function raised an exception of this class. -/
  | failed (cls : String)

/-- The upload to one destination. -/
structure Part where
  /-- The destination. -/
  destination : Destination
  /-- How far it has come. -/
  state : PartState

/-- One run of `upload_all`. -/
structure UploadRun where
  /-- The event. -/
  event : TransferEvent
  /-- The file. -/
  path : Path
  /-- The uploads, one for each destination. -/
  parts : List Part
  /-- How the uploads ended for `upload_all`, once it has returned. -/
  outcomes : Option (List Outcome) := none
  /-- The process that runs the threads lives. -/
  alive : Bool := true

namespace UploadRun

/-- The results that `upload_all` returned. -/
def results (run : UploadRun) : Option (List UploadResult) :=
  run.outcomes.map (List.zipWith uploadOne run.event.destinations.val)

/-- Every destination of the event (there is at least one) reported ok. -/
def AllOk (run : UploadRun) : Prop :=
  ∃ results, run.results = some results ∧
    results.length = run.event.destinations.val.length ∧ ∀ r ∈ results, r.ok = true

/-- Some destination of the event reported a failure. -/
def HasFailure (run : UploadRun) : Prop :=
  ∃ results, run.results = some results ∧ ∃ r ∈ results, r.ok = false

end UploadRun

/-- A publication of the consumer: the queue, the message, and the upload run of its `_handle`
call. -/
structure Publication where
  /-- The queue. -/
  queue : String
  /-- The message. -/
  message : Message
  /-- The upload run that had ended in the same call. -/
  run : Option UploadRun

/-- A message in the broker, with the publications of the consumer that led to it. -/
structure Entry where
  /-- The message. -/
  message : Message
  /-- The publications, the oldest first. -/
  chain : List Publication := []

/-- A `_handle` call in progress, or one that ended without an acknowledgement. -/
structure Handling where
  /-- The delivery tag. -/
  tag : Nat
  /-- What was delivered. -/
  entry : Entry
  /-- The size that the scan saw. -/
  sized : Option Nat := none
  /-- The content that the scan read. -/
  scanned : Option ByteArray := none
  /-- The upload run that has ended. -/
  run : Option UploadRun := none

/-- What the watcher found out about a path it took from its queue. -/
structure Inspection where
  /-- The path. -/
  path : Path
  /-- It was a regular file when checked. -/
  regular : Bool := false
  /-- Since then it has been there, unmodified and readable, until its event's data was read. -/
  intact : Bool := true
  /-- The data of its event has been read. -/
  finished : Bool := false
  /-- The size that its event will have. -/
  sized : Option Nat := none
  /-- The content whose checksum its event will have. -/
  digested : Option ByteArray := none

/-- What the watcher has found out about a file when it has read it. -/
def Inspection.examined (path : Path) (content : ByteArray) : Inspection where
  path := path
  regular := true
  finished := true
  sized := some content.size
  digested := some content

/-- An object of a cloud bucket: provider, bucket and key. -/
abbrev ObjectId := Provider × String × String

/-- The object that a destination names. -/
def Destination.object (d : Destination) : ObjectId := (d.provider, d.bucket, d.key)

/-- The threads of the process. -/
inductive Thread where
  /-- The main thread. -/
  | main
  /-- The watcher's thread. -/
  | watcher
  /-- The consumer's thread. -/
  | consumer
deriving DecidableEq

/-! ## The state -/

/-- **The world.** -/
structure World where
  /-- The ready messages of every queue, in order. -/
  queue : String → List Entry := fun _ => []
  /-- The deliveries on the consumer's channel that are not acknowledged, with their tags. -/
  unacked : List (Nat × Entry) := []
  /-- Those of them that the consumer's iterator has not yielded yet. -/
  buffered : List (Nat × Entry) := []
  /-- The tag of the next delivery; tags are numbered across channels. -/
  nextTag : Nat := 1
  /-- The prefetch bound of the consumer's channel. -/
  prefetch : Option Nat := none
  /-- The consumer's channel is open. -/
  channelOpen : Bool := false
  /-- The rows of `processed_events`: key and correlation id. -/
  processed : List (String × String) := []
  /-- The regular files. -/
  files : Path → Option ByteArray := fun _ => none
  /-- The stored objects. -/
  objects : ObjectId → Option ByteArray := fun _ => none
  /-- The run of `upload_all` in progress. -/
  active : Option UploadRun := none
  /-- The watcher's `file_queue`. -/
  fileQueue : List Path := []
  /-- The file system events that the observer has not handled yet. -/
  notices : List FileSystemEvent := []
  /-- The identifiers handed out. -/
  uuids : List String := []
  /-- The stop event. -/
  stop : Bool := false
  /-- The readiness flags. -/
  readiness : ReadinessState := .initial
  /-- The threads that were started. -/
  started : Component → Bool := fun _ => false
  /-- History: the messages ever accepted on the main queue from outside the consumer. -/
  accepted : List Message := []
  /-- History: the messages of the watcher that the broker confirmed. -/
  confirmed : List Message := []
  /-- History: the tags that the iterator has yielded. -/
  received : List Nat := []
  /-- History: the `_handle` call in progress. -/
  current : Option Handling := none
  /-- History: the runs of `upload_all` that have ended. -/
  runs : List UploadRun := []
  /-- History: the paths that the watcher took, the last one first. -/
  inspections : List Inspection := []

namespace World

variable (w : World)

/-- The keys in the store. -/
def doneKeys : List String := w.processed.map Prod.fst

/-! ### Changes by the broker's calls -/

/-- Change what is on a queue. -/
def setQueue (q : String) (es : List Entry) : World :=
  { w with queue := Function.update w.queue q es }

/-- A queue that was set. -/
@[simp] theorem setQueue_self (q : String) (es : List Entry) : (w.setQueue q es).queue q = es :=
  Function.update_self ..

/-- The other queues. -/
theorem setQueue_ne {q q' : String} (h : q' ≠ q) (es : List Entry) :
    (w.setQueue q es).queue q' = w.queue q' :=
  Function.update_of_ne h ..

/-- Put an entry at the end of a queue. -/
def push (q : String) (e : Entry) : World := w.setQueue q (w.queue q ++ [e])

/-- Deliveries go back to the main queue, among them all that the iterator has not yielded; these
remain on the channel. -/
def putBack (settings : Settings) (back : List Entry) (unacked : List (Nat × Entry)) : World :=
  { w.setQueue settings.queueName (back ++ w.queue settings.queueName) with
    unacked := unacked, buffered := [] }

/-- The consumer's channel is closed: all deliveries on it go back. -/
def closeChannel (settings : Settings) : World :=
  { w.putBack settings (w.unacked.map Prod.snd) [] with channelOpen := false }

/-- The head of the main queue is delivered on the consumer's channel. -/
def deliver (settings : Settings) (e : Entry) (rest : List Entry) : World :=
  { w.setQueue settings.queueName rest with
    unacked := w.unacked ++ [(w.nextTag, e)]
    buffered := w.buffered ++ [(w.nextTag, e)]
    nextTag := w.nextTag + 1 }

/-- A new channel of a thread. -/
def openChannel (settings : Settings) (t : Thread) : World :=
  if t = .consumer then { w.closeChannel settings with channelOpen := true, prefetch := none }
  else w

/-- A thread's connection is closed. -/
def closeConnection (settings : Settings) (t : Thread) : World :=
  if t = .consumer then w.closeChannel settings else w

/-- The thread has a channel to publish on; the watcher's is not modelled. -/
def CanSend (t : Thread) : Prop := t = .consumer → w.channelOpen = true

/-- The chain of what a thread publishes now: the consumer's publications continue the chain of the
message it handles. -/
def chainOf (t : Thread) (q : String) (m : Message) : List Publication :=
  match t, w.current with
  | .consumer, some h => h.entry.chain ++ [⟨q, m, h.run⟩]
  | _, _ => []

/-- The chain of a message of the consumer is that of the delivery, and one link more. -/
theorem chainOf_consumer {h : Handling} (hcurrent : w.current = some h) (q : String) (m : Message) :
    w.chainOf .consumer q m = h.entry.chain ++ [⟨q, m, h.run⟩] := by
  unfold chainOf
  rw [hcurrent]

/-- A message is in the target queue. -/
def publish (settings : Settings) (t : Thread) (q : String) (m : Message) : World :=
  { w.push q ⟨m, w.chainOf t q m⟩ with
    accepted := if t = .watcher ∧ q = settings.queueName then m :: w.accepted else w.accepted }

/-- A published message is at the end of its queue. -/
theorem publish_queue_self (settings : Settings) (t : Thread) (q : String) (m : Message) :
    (w.publish settings t q m).queue q = w.queue q ++ [⟨m, w.chainOf t q m⟩] :=
  setQueue_self ..

/-- It is on no other queue. -/
theorem publish_queue_ne (settings : Settings) (t : Thread) {q q' : String} (h : q' ≠ q)
    (m : Message) : (w.publish settings t q m).queue q' = w.queue q' :=
  setQueue_ne _ h _

/-- The broker has confirmed a message of a thread. -/
def confirm (t : Thread) (m : Message) : World :=
  { w with confirmed := if t = .watcher then m :: w.confirmed else w.confirmed }

/-- A delivery is acknowledged; the `_handle` call is over. -/
def ack (tag : Nat) : World :=
  { w with unacked := w.unacked.filter fun d => d.1 ≠ tag, current := none }

/-- The iterator goes on without a delivery. -/
def release : World := { w with current := none }

/-- The iterator yields a delivery. -/
def receive (tag : Nat) (e : Entry) (rest : List (Nat × Entry)) : World :=
  { w with buffered := rest, received := tag :: w.received, current := some { tag := tag, entry := e } }

/-- The consumer is cancelled: what the iterator has not yielded is rejected and requeued. -/
def cancelConsumer (settings : Settings) : World :=
  let pending := w.buffered.map Prod.fst
  w.putBack settings ((w.unacked.filter fun d => d.1 ∈ pending).map Prod.snd)
    (w.unacked.filter fun d => d.1 ∉ pending)

/-! ### Changes by the other calls -/

/-- `INSERT OR IGNORE` -/
def markDone (key correlationId : String) : World :=
  if key ∈ w.doneKeys then w else { w with processed := w.processed ++ [(key, correlationId)] }

/-- What was inserted is in the store. -/
theorem mem_doneKeys_markDone (key correlationId : String) :
    key ∈ (w.markDone key correlationId).doneKeys := by
  unfold markDone
  split
  · assumption
  · simp [doneKeys]

/-- Note something about the `_handle` call in progress. -/
def note (f : Handling → Handling) : World := { w with current := w.current.map f }

/-- Note something about the path that the watcher looks at. -/
def inspect (f : Inspection → Inspection) : World :=
  { w with inspections := match w.inspections with
      | [] => []
      | i :: is => f i :: is }

/-- A thread has found out the size of a file. -/
def noteSize (t : Thread) (n : Nat) : World :=
  match t with
  | .consumer => w.note fun h => { h with sized := some n }
  | .watcher => w.inspect fun i => { i with sized := some n }
  | .main => w

/-- A thread has read a file. -/
def noteContent (t : Thread) (content : ByteArray) : World :=
  match t with
  | .consumer => w.note fun h => { h with scanned := some content }
  | .watcher => w.inspect fun i => { i with finished := true, digested := some content }
  | .main => w

/-- A thread has found a file unreadable: the watcher makes no event of it. -/
def noteUnreadable (t : Thread) : World :=
  match t with
  | .watcher => w.inspect fun i => { i with intact := false, sized := none }
  | _ => w

/-- The tasks of an upload run are started. -/
def startUploads (event : TransferEvent) (path : Path) : World :=
  let parts := event.destinations.val.map fun d => Part.mk d .pending
  { w with active := some { event := event, path := path, parts := parts } }

/-- The active upload run has ended, normally (with the outcomes) or by an exception. -/
def endUploads (run : UploadRun) : World :=
  { w with
    active := none
    runs := w.runs ++ [run]
    current := w.current.map fun h => { h with run := some run } }

end World

/-- What `wait_for` may report of an upload: a timeout at any time, the end of the function only
when it has ended. -/
def PartState.Reports : PartState → Outcome → Prop
  | .stored _, o => o = .returned ∨ o = .timedOut
  | .failed cls, o => o = .raised cls ∨ o = .timedOut
  | _, o => o = .timedOut

/-- The calls that cannot raise: flags, identifiers, the clock, the in-memory queue. -/
def Op.mayRaise : Op → Bool
  | .newUuid => false
  | .utcnow => false
  | .fileQueueGet => false
  | .stopIsSet => false
  | .stopSet => false
  | .stopWait => false
  | .setReady _ _ => false
  | .threadJoin _ => false
  | _ => true

namespace World

variable (settings : Settings) (t : Thread) (w : World)

/-- **What a call may answer normally, and the world it leaves.** -/
def normal : (op : Op) → Res op → World → Prop
  | .channel, _, w' => w' = w.openChannel settings t
  | .basicQos n, _, w' => w' = { w with prefetch := some n.toNat }
  | .basicPublish q m, _, w' => w.CanSend t ∧ w' = (w.publish settings t q m).confirm t m
  | .basicAck tag, _, w' => w.channelOpen = true ∧ w' = w.ack tag
  | .consume _, .exhausted, w' => w' = w.release
  | .consume _, .tick, w' => w' = w.release
  | .consume _, .delivery tag m, w' => w.channelOpen = true ∧
      ∃ e rest, w.buffered = (tag, e) :: rest ∧ m = e.message ∧ w' = w.receive tag e rest
  | .cancel, _, w' => w' = w.cancelConsumer settings
  | .close, _, w' => w' = w.closeConnection settings t
  | .isDone key, b, w' => b = decide (key ∈ w.doneKeys) ∧ w' = w
  | .markDone key correlationId, _, w' => w' = w.markDone key correlationId
  | .isfile path, b, w' => (b = true → (w.files path).isSome = true) ∧
      w' = if t = .watcher then w.inspect fun i => { i with regular := b } else w
  | .getsize path, n, w' => (∃ content, w.files path = some content ∧ content.size = n) ∧ w' = w.noteSize t n
  | .readFile path, content, w' => w.files path = some content ∧ w' = w.noteContent t content
  | .uploadStart event path, _, w' => w' = w.startUploads event path
  -- without a permit of the semaphore no upload ever ends
  | .uploadGather, outcomes, w' => 1 ≤ settings.uploadMaxConcurrency ∧ ∃ run, w.active = some run ∧
      List.Forall₂ (fun p o => p.state.Reports o) run.parts outcomes ∧
      w' = w.endUploads { run with outcomes := some outcomes }
  | .newUuid, id, w' => isUuid id = true ∧ id ∉ w.uuids ∧ w' = { w with uuids := id :: w.uuids }
  | .utcnow, time, w' => isOccurredAt time = true ∧ w' = w
  | .fileQueueGet, none, w' => w.fileQueue = [] ∧ w' = w
  | .fileQueueGet, some path, w' => ∃ rest, w.fileQueue = path :: rest ∧
      w' = { w with fileQueue := rest, inspections := { path := path } :: w.inspections }
  | .stopIsSet, b, w' => b = w.stop ∧ w' = w
  | .stopSet, _, w' => w' = { w with stop := true }
  | .stopWait, _, w' => w.stop = true ∧ w' = w
  | .setReady c b, _, w' => w' = { w with readiness := w.readiness.setReady c b }
  | .threadStart c, _, w' => w' = { w with started := Function.update w.started c true }
  | _, _, w' => w' = w

/-- **What a call that raises may leave**: of most calls nothing, of a publication, an
acknowledgement or an insertion possibly its effect. -/
def failing : Op → World → Prop
  | .basicPublish q m, w' => w' = w ∨ (w.CanSend t ∧ w' = w.publish settings t q m)
  | .basicAck tag, w' => w' = w ∨ (w.channelOpen = true ∧ w' = w.ack tag)
  | .consume _, w' => w' = w.release
  | .cancel, w' => w' = w ∨ w' = w.cancelConsumer settings
  | .close, w' => w' = w ∨ w' = w.closeConnection settings t
  | .markDone key correlationId, w' => w' = w ∨ w' = w.markDone key correlationId
  | .getsize _, w' => w' = w.noteUnreadable t
  | .readFile _, w' => w' = w.noteUnreadable t
  | .uploadGather, w' => 1 ≤ settings.uploadMaxConcurrency ∧ w' = match w.active with
      | none => w
      | some run => w.endUploads run
  | op, w' => op.mayRaise = true ∧ w' = w

/-- **The answers of the external calls** that a thread makes. -/
def responds (op : Op) : Except Exn (Res op) → World → Prop
  | .ok a, w' => w.normal settings t op a w'
  | .error _, w' => w.failing settings t op w'

/-- `upload_all` is cut short: the run ends as it is. -/
theorem failing_uploadGather {run : UploadRun} {w' : World} (hrun : w.active = some run)
    (h : w.failing settings t .uploadGather w') : w' = w.endUploads run := by
  rw [failing, hrun] at h
  exact h.2

end World

/-! ## The environment's own steps -/

/-- The progress of one upload in a world: the file is read, the content stored, or it fails. -/
inductive Part.Progress (w : World) (path : Path) : Part → Part → World → Prop
  /-- The file is read. -/
  | fetch {d : Destination} {content : ByteArray} (h : w.files path = some content) :
      Progress w path ⟨d, .pending⟩ ⟨d, .fetched content⟩ w
  /-- The content is stored. -/
  | store {d : Destination} {content : ByteArray} :
      Progress w path ⟨d, .fetched content⟩ ⟨d, .stored content⟩
        { w with objects := Function.update w.objects d.object (some content) }
  /-- The upload function raises before anything is stored. -/
  | fail {d : Destination} {s : PartState} {cls : String}
      (h : s = .pending ∨ ∃ content, s = .fetched content) :
      Progress w path ⟨d, s⟩ ⟨d, .failed cls⟩ w
  /-- The upload function raises although the content was stored. -/
  | storeRaises {d : Destination} {content : ByteArray} {cls : String} :
      Progress w path ⟨d, .fetched content⟩ ⟨d, .failed cls⟩
        { w with objects := Function.update w.objects d.object (some content) }

/-- One upload of a run makes progress; the threads of a run outlive it, but not their process. -/
inductive UploadRun.Progress (w : World) : UploadRun → UploadRun → World → Prop
  /-- One part moves. -/
  | part {run : UploadRun} {before after : List Part} {p p' : Part} {w' : World}
      (halive : run.alive = true) (hparts : run.parts = before ++ p :: after)
      (hp : p.Progress w run.path p' w') :
      Progress w run { run with parts := before ++ p' :: after } w'

/-- **The environment's own steps.** -/
inductive Move (settings : Settings) : World → World → Prop
  /-- A message is accepted on the main queue. -/
  | accept {w : World} (m : Message) :
      Move settings w { w.push settings.queueName ⟨m, []⟩ with accepted := m :: w.accepted }
  /-- The head of the main queue is delivered, within the prefetch bound. -/
  | deliver {w : World} {e : Entry} {rest : List Entry} (hopen : w.channelOpen = true)
      (hbound : ∀ n, w.prefetch = some n → w.unacked.length < n)
      (hq : w.queue settings.queueName = e :: rest) :
      Move settings w (w.deliver settings e rest)
  /-- The time to live of the head of the retry queue is over: it is dead-lettered back onto the
  main queue, its body preserved. -/
  | expire {w : World} {e : Entry} {rest : List Entry} (properties : Properties)
      (hq : w.queue settings.retryQueueName = e :: rest) :
      Move settings w
        ((w.setQueue settings.retryQueueName rest).push settings.queueName
          { e with message := ⟨e.message.body, properties⟩ })
  /-- An operator publishes the body of a dead-lettered message to the main queue, and takes the
  dead-lettered one away or not. -/
  | replay {w : World} {e : Entry} {before after : List Entry} (properties : Properties)
      (remaining : List Entry) (hq : w.queue settings.dlqName = before ++ e :: after)
      (hrest : remaining = before ++ e :: after ∨ remaining = before ++ after) :
      Move settings w
        ((w.setQueue settings.dlqName remaining).push settings.queueName
          { e with message := ⟨e.message.body, properties⟩ })
  /-- The consumer's channel or connection breaks. -/
  | breakChannel {w : World} : Move settings w (w.closeChannel settings)
  /-- A file is written completely, and the observer will hear of it. -/
  | write {w : World} (path : Path) (content : ByteArray) :
      Move settings w { w with
        files := Function.update w.files path (some content)
        notices := w.notices ++ [⟨false, path, path⟩]
        inspections := w.inspections.map fun i =>
          if i.path = path ∧ i.finished = false then { i with intact := false } else i }
  /-- A file is removed. -/
  | remove {w : World} (path : Path) :
      Move settings w { w with
        files := Function.update w.files path none
        inspections := w.inspections.map fun i =>
          if i.path = path ∧ i.finished = false then { i with intact := false } else i }
  /-- The observer's handler is told of a closed file. -/
  | closed {w : World} {event : FileSystemEvent} {rest : List FileSystemEvent}
      (hn : w.notices = event :: rest) :
      Move settings w { w with
        notices := rest, fileQueue := DetectedFileHandler.onClosed event w.fileQueue }
  /-- The observer's handler is told of any other event. -/
  | notified {w : World} (event : FileSystemEvent) (queue : List Path)
      (hq : queue = DetectedFileHandler.onClosed event w.fileQueue ∨
        queue = DetectedFileHandler.onMoved event w.fileQueue) :
      Move settings w { w with fileQueue := queue }
  /-- An upload of the active run makes progress, if the semaphore has a permit. -/
  | activeProgress {w w' : World} {run run' : UploadRun}
      (hpermit : 1 ≤ settings.uploadMaxConcurrency) (hrun : w.active = some run)
      (hp : run.Progress w run' w') : Move settings w { w' with active := some run' }
  /-- An upload that outlived its run makes progress. -/
  | lateProgress {w w' : World} {before after : List UploadRun} {run run' : UploadRun}
      (hrun : w.runs = before ++ run :: after) (hp : run.Progress w run' w') :
      Move settings w { w' with runs := before ++ run' :: after }
  /-- A signal asks the process to stop. -/
  | signal {w : World} : Move settings w { w with stop := true }

/-- An operator publishes the body of a dead-lettered message to the main queue. -/
def Replays (settings : Settings) (w w' : World) : Prop :=
  ∃ e ∈ w.queue settings.dlqName, ∃ (properties : Properties) (remaining : List Entry),
    w' = (w.setQueue settings.dlqName remaining).push settings.queueName
      { e with message := ⟨e.message.body, properties⟩ }

/-- The three queues are different queues. -/
structure Settings.Distinct (settings : Settings) : Prop where
  /-- The retry queue is not the main queue. -/
  retry_ne_main : settings.retryQueueName ≠ settings.queueName
  /-- The dead-letter queue is not the main queue. -/
  dlq_ne_main : settings.dlqName ≠ settings.queueName
  /-- The dead-letter queue is not the retry queue. -/
  dlq_ne_retry : settings.dlqName ≠ settings.retryQueueName

/-- The default names of the queues are distinct. -/
theorem distinct_default : ({} : Settings).Distinct := ⟨by decide, by decide, by decide⟩

/-- What a replay changes is the main and the dead-letter queue only. -/
theorem Replays.frame {settings : Settings} {w w' : World} (hd : settings.Distinct)
    (h : Replays settings w w') : w'.nextTag = w.nextTag ∧ w'.accepted = w.accepted ∧
      w'.queue settings.retryQueueName = w.queue settings.retryQueueName ∧
      (w'.queue settings.queueName).length = (w.queue settings.queueName).length + 1 := by
  obtain ⟨e, -, properties, remaining, rfl⟩ := h
  refine ⟨rfl, rfl, ?_, ?_⟩
  · rw [World.push, World.setQueue_ne _ hd.retry_ne_main, World.setQueue_ne _ hd.dlq_ne_retry.symm]
  · rw [World.push, World.setQueue_self, World.setQueue_ne _ hd.dlq_ne_main.symm, List.length_append]
    rfl

namespace World

/-- **The end of the process**: the channel and the threads go with it; the broker, the store, the
files and the buckets stay. -/
def crash (settings : Settings) (w : World) : World :=
  { w.closeChannel settings with
    prefetch := none
    active := none
    runs := (w.runs ++ w.active.toList).map fun run => { run with alive := false }
    current := none
    fileQueue := []
    notices := []
    stop := false
    readiness := .initial
    started := fun _ => false }

end World

/-! ## Systems -/

/-- **The consumer in its world**: `_run_consumer`, the environment, and crashes with restarts. -/
def consumerHost (settings : Settings) : Host calls Exn World Unit where
  responds w op r w' := w.responds settings .consumer op r w'
  interfere := Move settings
  service := consumerService settings
  restart w _ w' := w' = w.crash settings

end TransferWorker
