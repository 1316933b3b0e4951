import TransferWorker.CallTrees.Execution
import TransferWorker.System.World

/-! # What the consumer can do

Executions of the consumer's pieces in a world that lets them succeed: from the setup to the loop
head, and through every stage of `_handle` up to the upload, its success and its partial failure.

* **`Capable`** — the environment gives every answer without a fault and lets uploads proceed;
  `executes_setup`, `executes_turn`, `executes_handle` are the stages, one lemma each.
* **`Serves`** — a host of the consumer without obstacles; `runs_delivery`, `runs_upload`.
* **`Admits`** — a host that allows uploads to fail as well; `runs_retry`. -/

namespace TransferWorker

open CallTrees Relation World

/-- If the message decodes, the version of its event can be read. -/
def Message.Readable (m : Message) : Prop :=
  ∀ event, TransferEvent.fromJsonBytes m.body = .ok event → ∀ e, event.assertSupported = .error e →
    ∃ text, e = .unsupportedSchemaVersion text

/-- A message of a supported event is readable. -/
theorem Message.Readable.of_supported {m : Message} {event : TransferEvent}
    (hm : TransferEvent.fromJsonBytes m.body = .ok event) (h : event.assertSupported = .ok ()) :
    m.Readable := by
  intro event' hm' e he
  obtain rfl : event = event' := Except.ok.inj (hm.symm.trans hm')
  rw [h] at he
  cases he

/-- An answer without a fault: not an upload that does not return, a message whose version cannot be
read, a content that the scan cannot parse. -/
def Op.Faultless : (op : Op) → Res op → Prop
  | .uploadGather, outcomes => ∀ o ∈ outcomes, o = .returned
  | .consume _, .delivery _ m => m.Readable
  | .readFile _, content => ∃ issues, scanBytes content = .ok issues
  | _, _ => True

namespace World

variable (settings : Settings) (w : World)

/-- The world after the setup of the consumer. -/
def connected : World :=
  { w.openChannel settings .consumer with
    readiness := w.readiness.setReady .consumer true
    prefetch := some (max 1 settings.uploadMaxConcurrency).toNat }

/-- The scan has read this content. -/
def scannedAs (content : ByteArray) : World :=
  (w.note fun h => { h with sized := some content.size }).note
    fun h => { h with scanned := some content }

/-- The content is stored at these destinations. -/
def copyTo (content : ByteArray) (ds : List Destination) : World :=
  { w with objects := ds.foldl (fun o d => Function.update o d.object (some content)) w.objects }

/-- The head of the main queue is delivered and yielded by the iterator. -/
def fetchNext (e : Entry) (rest : List Entry) : World :=
  (w.deliver settings e rest).receive w.nextTag e []

end World

namespace UploadRun

/-- The run in which this content went to the destinations in `good` and nothing to those in `bad`,
whose upload functions raised an exception of the class `cls`. -/
def split (event : TransferEvent) (path : Path) (content : ByteArray) (good bad : List Destination)
    (cls : String) : UploadRun where
  event := event
  path := path
  parts := good.map (Part.mk · (.stored content)) ++ bad.map (Part.mk · (.failed cls))
  outcomes := some (good.map (fun _ => .returned) ++ bad.map fun _ => .raised cls)

/-- The run in which this content went to every destination. -/
def complete (event : TransferEvent) (path : Path) (content : ByteArray) : UploadRun :=
  split event path content event.destinations.val [] ""

/-- The results of such a run. -/
theorem zipWith_returned (ds : List Destination) :
    List.zipWith uploadOne ds (ds.map fun _ => .returned) =
      ds.map fun d => ⟨d.provider, true, none⟩ := by
  rw [List.zipWith_map_right, List.zipWith_self]
  rfl

end UploadRun

/-- **An environment of the consumer without obstacles**: every answer without a fault is possible,
and an upload that is pending may store the content of its file. -/
structure Capable (settings : Settings) (E : Environment calls Exn World) : Prop where
  /-- The answers. -/
  answers : ∀ {w op x w'}, w.normal settings .consumer op x w' → op.Faultless x →
    E.responds w op (.ok x) w'
  /-- An upload. -/
  copies : ∀ {w run before after d content}, 1 ≤ settings.uploadMaxConcurrency →
    w.active = some run → run.alive = true → run.parts = before ++ ⟨d, .pending⟩ :: after →
    w.files run.path = some content → E.Drifts w { w.copyTo content [d] with
      active := some { run with parts := before ++ ⟨d, .stored content⟩ :: after } }

namespace Capable

variable {settings : Settings} {E : Environment calls Exn World} {w w' : World}
  {event : TransferEvent} {content : ByteArray} {tag : Nat} {r : Except Exn Unit}

/-- A call without a fault, followed by a program. -/
theorem call_bind {α : Type} (hE : Capable settings E) (op : Op) (x : Res op)
    {f : Res op → Prog α} {r : Except Exn α} {w'' : World}
    (h : w.normal settings .consumer op x w') (hx : op.Faultless x)
    (hf : Executes E (f x) w' r w'') : Executes E (TransferWorker.call op >>= f) w r w'' :=
  .perform_bind (hE.answers h hx) hf

/-- A last call without a fault. -/
theorem call (hE : Capable settings E) (op : Op) (x : Res op)
    (h : w.normal settings .consumer op x w') (hx : op.Faultless x) :
    Executes E (TransferWorker.call op) w (.ok x) w' :=
  .perform (hE.answers h hx)

/-- **The setup.** -/
theorem executes_setup (hE : Capable settings E) :
    Executes E (consumerService settings).setup w (.ok ()) (w.connected settings) := by
  have hdeclare : ∀ v, Executes E (declareTopology settings) v (.ok ()) v := fun v =>
    hE.call_bind (.queueDeclare _ _) () rfl trivial
      (hE.call_bind (.queueDeclare _ _) () rfl trivial
        (hE.call (.queueDeclare _ _) () rfl trivial))
  have hconnect : Executes E (connectAndSetup settings) w (.ok ())
      (w.openChannel settings .consumer) :=
    hE.call_bind .connect () rfl trivial
      (hE.call_bind .channel () rfl trivial
        ((hdeclare _).bind (hE.call .confirmDelivery () rfl trivial)))
  refine hconnect.bind (.onError (hE.call_bind (.storeOpen _) () rfl trivial (.onError ?_)))
  exact hE.call_bind (.setReady .consumer true) () rfl trivial
    (hE.call (.basicQos _) () rfl trivial)

/-- Uploads store the content of their file one after the other. -/
theorem drifts_copy {run : UploadRun} (hE : Capable settings E)
    (hconc : 1 ≤ settings.uploadMaxConcurrency) (hactive : w.active = some run)
    (halive : run.alive = true) (hfile : w.files run.path = some content) (before after : List Part)
    (ds : List Destination) (hparts : run.parts = before ++ (ds.map (Part.mk · .pending) ++ after)) :
    E.Drifts w { w.copyTo content ds with
      active := some { run with parts :=
        before ++ (ds.map (Part.mk · (.stored content)) ++ after) } } := by
  induction ds generalizing w run before with
  | nil =>
      have hrun : { run with parts := before ++ after } = run := by
        rw [← List.nil_append after, ← List.map_nil, ← hparts]
      rw [List.map_nil, List.nil_append, hrun, ← hactive]
      exact .refl
  | cons d ds ih =>
      refine (hE.copies hconc hactive halive hparts hfile).trans ?_
      have hrest := ih (w := { w.copyTo content [d] with active := some { run with parts :=
          before ++ ⟨d, .stored content⟩ :: (ds.map (Part.mk · .pending) ++ after) } })
        rfl halive hfile (before ++ [⟨d, .stored content⟩]) (by simp)
      simpa [World.copyTo] using hrest

/-- **An upload that succeeds.** -/
theorem executes_uploadAll (hE : Capable settings E) (hconc : 1 ≤ settings.uploadMaxConcurrency)
    {path : Path} (hfile : w.files path = some content) :
    Executes E (uploadAll settings event path) w
      (.ok (event.destinations.val.map fun d => ⟨d.provider, true, none⟩))
      ((w.copyTo content event.destinations.val).endUploads (.complete event path content)) := by
  unfold uploadAll
  rw [if_neg (by omega)]
  refine hE.call_bind (.uploadStart event path) () rfl trivial (.drifts (hE.drifts_copy hconc rfl rfl
    hfile [] [] event.destinations.val (by simp)) ?_)
  refine hE.call_bind .uploadGather (event.destinations.val.map fun _ => Outcome.returned)
    ⟨hconc, _, rfl, ?_, rfl⟩ ?_ ?_
  · rw [List.nil_append, List.append_nil, List.forall₂_map_left_iff, List.forall₂_map_right_iff]
    exact List.forall₂_same.2 fun _ _ => .inl rfl
  · intro o ho
    obtain ⟨_, -, rfl⟩ := List.mem_map.1 ho
    rfl
  · rw [UploadRun.zipWith_returned]
    have hrun : UploadRun.complete event path content =
        ⟨event, path, [] ++ (event.destinations.val.map (Part.mk · (.stored content)) ++ []),
          some (event.destinations.val.map fun _ => Outcome.returned), true⟩ := by
      simp [UploadRun.complete, UploadRun.split]
    rw [hrun]
    exact .ret

/-- **`_handle` after an upload that succeeds.** -/
theorem executes_handleUpload (hE : Capable settings E)
    (hconc : 1 ≤ settings.uploadMaxConcurrency) (hopen : w.channelOpen = true)
    (hfile : w.files (fsencode event.source.path) = some content) :
    Executes E (Consumer.handleUpload settings tag event) w (.ok ())
      ((((w.copyTo content event.destinations.val).endUploads
        (.complete event (fsencode event.source.path) content)).markDone event.idempotencyKey
          event.correlationId).ack tag) := by
  refine .bind (hE.executes_uploadAll hconc hfile) ?_
  have hfailures : (event.destinations.val.map fun d => UploadResult.mk d.provider true none).filter
      (fun r => !r.ok) = [] := by
    rw [List.filter_eq_nil_iff]
    rintro r hr
    obtain ⟨d, -, rfl⟩ := List.mem_map.1 hr
    simp
  dsimp only
  rw [hfailures, if_pos rfl]
  refine hE.call_bind (.markDone _ _) () rfl trivial (hE.call (.basicAck tag) () ⟨?_, rfl⟩ trivial)
  unfold World.markDone
  split <;> exact hopen

/-- The check of the source file and a scan without issues. -/
theorem executes_handleSource (hE : Capable settings E)
    (hfile : w.files (fsencode event.source.path) = some content)
    (hsize : (content.size : Int) ≤ settings.maxCsvFileSizeBytes)
    (hscan : scanBytes content = .ok [])
    (hupload : Executes E (Consumer.handleUpload settings tag event) (w.scannedAs content) r w') :
    Executes E (Consumer.handleSource settings tag event) w r w' := by
  refine hE.call_bind (.isfile _) true ⟨fun _ => by rw [hfile]; rfl, rfl⟩ trivial ?_
  have hissues : Executes E (scanCsvFile (fsencode event.source.path) settings) w (.ok [])
      (w.scannedAs content) := by
    refine hE.call_bind (.getsize _) content.size ⟨⟨content, hfile, rfl⟩, rfl⟩ trivial ?_
    rw [if_neg (not_lt.2 hsize)]
    refine hE.call_bind (.readFile _) content ⟨hfile, rfl⟩ ⟨[], hscan⟩ ?_
    rw [hscan]
    exact .ret
  exact hissues.bind hupload

/-- `_handle` of a supported event that is not done. -/
theorem executes_handle (hE : Capable settings E) {m : Message}
    (hm : TransferEvent.fromJsonBytes m.body = .ok event) (hsupported : event.assertSupported = .ok ())
    (hdone : event.idempotencyKey.val ∉ w.doneKeys)
    (hsource : Executes E (Consumer.handleSource settings tag event) w r w') :
    Executes E (Consumer.handle settings tag m) w r w' := by
  simp only [Consumer.handle, hm, hsupported]
  exact hE.call_bind (.isDone _) false ⟨by simpa using hdone, rfl⟩ trivial hsource

/-- `_handle` of a supported event that is done. -/
theorem executes_handle_done (hE : Capable settings E) {m : Message}
    (hm : TransferEvent.fromJsonBytes m.body = .ok event) (hsupported : event.assertSupported = .ok ())
    (hdone : event.idempotencyKey.val ∈ w.doneKeys) (hopen : w.channelOpen = true) :
    Executes E (Consumer.handle settings tag m) w (.ok ()) (w.ack tag) := by
  simp only [Consumer.handle, hm, hsupported]
  exact hE.call_bind (.isDone _) true ⟨by simpa using hdone, rfl⟩ trivial
    (hE.call (.basicAck tag) () ⟨hopen, rfl⟩ trivial)

/-- **A turn of the loop with a delivery.** -/
theorem executes_turn (hE : Capable settings E) {e : Entry} {rest : List (Nat × Entry)}
    (hbuffered : w.buffered = (tag, e) :: rest) (hopen : w.channelOpen = true)
    (hstop : w.stop = false) (hreadable : e.message.Readable)
    (hhandle : Executes E (Consumer.handle settings tag e.message) (w.receive tag e rest) r w') :
    Executes E (Consumer.turn settings) w (.ok (.inl ())) w' := by
  refine hE.call_bind (.consume _) (.delivery tag e.message) ⟨hopen, e, rest, hbuffered, rfl, rfl⟩
    hreadable ?_
  refine hE.call_bind .stopIsSet false ⟨hstop.symm, rfl⟩ trivial ?_
  exact hhandle.attempt.bind .ret

end Capable

/-! ## Runs of the consumer -/

namespace World

/-- The consumer is ready for the next message. -/
structure Idle (w : World) : Prop where
  /-- The channel is open. -/
  channelOpen : w.channelOpen = true
  /-- The process is not asked to stop. -/
  stop : w.stop = false
  /-- Every delivery was yielded. -/
  buffered : w.buffered = []
  /-- There is room for one more delivery. -/
  room : ∀ n, w.prefetch = some n → w.unacked.length < n

/-- The next message was delivered, uploaded with this content, marked done and acknowledged. -/
def uploadNext (settings : Settings) (w : World) (e : Entry) (rest : List Entry)
    (event : TransferEvent) (content : ByteArray) : World :=
  (((((w.fetchNext settings e rest).scannedAs content).copyTo content
    event.destinations.val).endUploads
      (.complete event (fsencode event.source.path) content)).markDone event.idempotencyKey
        event.correlationId).ack w.nextTag

/-- The next message was delivered, its upload failed for the destinations in `bad`, and the retry
message `m` was published. -/
def retryNext (settings : Settings) (w : World) (e : Entry) (rest : List Entry)
    (event : TransferEvent) (content : ByteArray) (good bad : List Destination) (cls : String)
    (m : Message) : World :=
  let w₁ := (((w.fetchNext settings e rest).scannedAs content).copyTo content good).endUploads
    (.split event (fsencode event.source.path) content good bad cls)
  ((w₁.publish settings .consumer settings.retryQueueName m).confirm .consumer m).ack w.nextTag

/-- The head of the retry queue went back to the main queue. -/
def expireNext (settings : Settings) (w : World) (e : Entry) (rest : List Entry) : World :=
  (w.setQueue settings.retryQueueName rest).push settings.queueName e

end World

/-- An ordinary move: the channel stays as it was, nobody replays a message, and what is accepted is a
new event as `publish_event` writes it. -/
structure Ordinary (settings : Settings) (w w' : World) : Prop where
  /-- The channel. -/
  channelOpen : w'.channelOpen = w.channelOpen
  /-- No replay. -/
  noReplay : ¬Replays settings w w'
  /-- What is accepted. -/
  accepts : ∀ m, w'.accepted = m :: w.accepted →
    ∃ event : TransferEvent, event.retry = none ∧ m = Publisher.message event none none

/-- A host of the consumer without obstacles. -/
structure Serves (settings : Settings) (H : Host calls Exn World Unit) : Prop where
  /-- It runs the consumer. -/
  service : H.service = consumerService settings
  /-- The queues are different ones. -/
  distinct : settings.Distinct
  /-- The answers. -/
  capable : Capable settings H.toEnvironment
  /-- The moves. -/
  moves : ∀ {w w'}, Move settings w w' → Ordinary settings w w' → H.interfere w w'

/-- A host of the consumer that allows every normal answer and every ordinary move. -/
structure Admits (settings : Settings) (H : Host calls Exn World Unit) : Prop where
  /-- It runs the consumer. -/
  service : H.service = consumerService settings
  /-- The queues are different ones. -/
  distinct : settings.Distinct
  /-- The answers. -/
  answers : ∀ {w op x w'}, w.normal settings .consumer op x w' → H.responds w op (.ok x) w'
  /-- The moves. -/
  moves : ∀ {w w'}, Move settings w w' → Ordinary settings w w' → H.interfere w w'

/-- The host of the consumer admits a run without obstacles. -/
theorem consumerHost_admits {settings : Settings} (hd : settings.Distinct) :
    Admits settings (consumerHost settings) :=
  ⟨rfl, hd, fun h => h, fun h _ => h⟩

variable {settings : Settings} {H : Host calls Exn World Unit} {w w' : World}
  {event : TransferEvent} {content : ByteArray}

/-- A condition that excludes no normal answer and no ordinary move. -/
theorem Admits.under {K : Condition calls Exn World Unit} (hH : Admits settings H)
    (hcall : ∀ w op x, K.call w op (.ok x))
    (hmove : ∀ w w' : World, Ordinary settings w w' → K.move w w') : Admits settings (H.under K) :=
  ⟨hH.service, hH.distinct, fun h => ⟨hH.answers h, hcall _ _ _⟩, fun h hordinary =>
    ⟨hH.moves h hordinary, hmove _ _ hordinary⟩⟩

/-- A move that is no acceptance and shows not to be a replay. -/
theorem ordinary_of_ne (hopen : w'.channelOpen = w.channelOpen) (haccepted : w'.accepted = w.accepted)
    (hreplay : ¬Replays settings w w') : Ordinary settings w w' where
  channelOpen := hopen
  noReplay := hreplay
  accepts m hm := by
    rw [haccepted] at hm
    exact absurd hm (List.cons_ne_self m _).symm

/-- A delivery is ordinary. -/
theorem ordinary_deliver (hd : settings.Distinct) (e : Entry) (rest : List Entry) :
    Ordinary settings w (w.deliver settings e rest) :=
  ordinary_of_ne rfl rfl fun h => Nat.succ_ne_self _ (h.frame hd).1

/-- The progress of an upload is ordinary. -/
theorem ordinary_progress (hd : settings.Distinct) {objects : ObjectId → Option ByteArray}
    {active : Option UploadRun} :
    Ordinary settings w { w with objects := objects, active := active } :=
  ordinary_of_ne rfl rfl fun h => Nat.succ_ne_self _ (h.frame hd).2.2.2.symm

/-- **A pending upload** may read its file, and then store what it has read. -/
theorem moves_of_pending {run : UploadRun} {before after : List Part} {d : Destination}
    (hconc : 1 ≤ settings.uploadMaxConcurrency) (hactive : w.active = some run) (halive : run.alive = true)
    (hparts : run.parts = before ++ ⟨d, .pending⟩ :: after) (hfile : w.files run.path = some content) :
    let fetched : UploadRun := { run with parts := before ++ ⟨d, .fetched content⟩ :: after }
    let stored : UploadRun := { run with parts := before ++ ⟨d, .stored content⟩ :: after }
    Move settings w { w with active := some fetched } ∧
      Move settings { w with active := some fetched } { w.copyTo content [d] with active := some stored } := by
  intro fetched stored
  have hfetch : run.Progress w fetched w := .part halive hparts (.fetch hfile)
  have hstore : fetched.Progress { w with active := some fetched } stored
      { w.copyTo content [d] with active := some fetched } := .part halive rfl .store
  have hprogress := @Move.activeProgress settings _ _ _ _ hconc rfl hstore
  exact ⟨.activeProgress hconc hactive hfetch, hprogress⟩

/-- An environment that allows the ordinary moves lets uploads store their content. -/
theorem Capable.of_moves {E : Environment calls Exn World} (hd : settings.Distinct)
    (hanswers : ∀ {w op x w'}, w.normal settings .consumer op x w' → op.Faultless x →
      E.responds w op (.ok x) w')
    (hmoves : ∀ {w w'}, Move settings w w' → Ordinary settings w w' → E.interfere w w') :
    Capable settings E where
  answers := hanswers
  copies hconc hactive halive hparts hfile := by
    obtain ⟨hread, hstore⟩ := moves_of_pending hconc hactive halive hparts hfile
    exact .head (hmoves hread (ordinary_progress hd)) (.single (hmoves hstore (ordinary_progress hd)))

/-- Such a host has no obstacles. -/
theorem Admits.serves (hH : Admits settings H) : Serves settings H :=
  ⟨hH.service, hH.distinct, .of_moves hH.distinct (fun h _ => hH.answers h) hH.moves, hH.moves⟩

/-- A consumer that has just connected is ready. -/
theorem idle_connected (hstop : w.stop = false) : (w.connected settings).Idle where
  channelOpen := rfl
  stop := hstop
  buffered := rfl
  room n hn := by
    have hone : 1 ≤ max 1 settings.uploadMaxConcurrency := le_max_left ..
    obtain rfl : (max 1 settings.uploadMaxConcurrency).toNat = n := Option.some.inj hn
    show 0 < _
    omega

/-- The acknowledgement of the next message makes room again. -/
theorem World.Idle.ack {e : Entry} (h : w.Idle) (hopen : w'.channelOpen = w.channelOpen)
    (hstop : w'.stop = w.stop) (hbuffered : w'.buffered = []) (hprefetch : w'.prefetch = w.prefetch)
    (hunacked : w'.unacked = w.unacked ++ [(w.nextTag, e)]) : (w'.ack w.nextTag).Idle where
  channelOpen := hopen.trans h.channelOpen
  stop := hstop.trans h.stop
  buffered := hbuffered
  room n hn := by
    refine lt_of_le_of_lt ?_ (h.room n (hprefetch ▸ hn))
    show (w'.unacked.filter _).length ≤ _
    rw [hunacked, List.filter_append]
    simpa using List.length_filter_le ..

/-- A message was accepted on the main queue. -/
def World.accept (settings : Settings) (w : World) (m : Message) : World :=
  { w.push settings.queueName ⟨m, []⟩ with accepted := m :: w.accepted }

/-- An accepted message is at the end of the main queue. -/
@[simp] theorem World.accept_queue (m : Message) :
    (w.accept settings m).queue settings.queueName = w.queue settings.queueName ++ [⟨m, []⟩] :=
  setQueue_self ..

/-- A new connection has what was unacknowledged at the head of the main queue. -/
@[simp] theorem World.connected_queue : (w.connected settings).queue settings.queueName =
    w.unacked.map Prod.snd ++ w.queue settings.queueName := setQueue_self ..

/-- An accepted message is on no other queue. -/
theorem World.accept_queue_ne {q : String} (hq : q ≠ settings.queueName) (m : Message) :
    (w.accept settings m).queue q = w.queue q :=
  setQueue_ne _ hq _

/-- A new connection leaves the other queues. -/
theorem World.connected_queue_ne {q : String} (hq : q ≠ settings.queueName) :
    (w.connected settings).queue q = w.queue q :=
  setQueue_ne _ hq _

/-- The consumer stays ready while a message is accepted. -/
theorem World.Idle.accept (h : w.Idle) (m : Message) : (w.accept settings m).Idle :=
  ⟨h.channelOpen, h.stop, h.buffered, h.room⟩

/-- The upload run is the last one. -/
theorem World.uploadNext_runs {e : Entry} {rest : List Entry} :
    (w.uploadNext settings e rest event content).runs =
      w.runs ++ [.complete event (fsencode event.source.path) content] := by
  unfold World.uploadNext World.markDone
  split <;> rfl

/-- The consumer is ready again after a failed upload. -/
theorem World.Idle.retryNext {e : Entry} {rest : List Entry} {good bad : List Destination}
    {cls : String} {m : Message} (h : w.Idle) :
    (w.retryNext settings e rest event content good bad cls m).Idle := by
  refine h.ack (e := e) ?_ ?_ ?_ ?_ ?_ <;> rfl

/-- The consumer stays ready while a retry expires. -/
theorem World.Idle.expireNext {e : Entry} {rest : List Entry} (h : w.Idle) :
    (w.expireNext settings e rest).Idle :=
  ⟨h.channelOpen, h.stop, h.buffered, h.room⟩

/-- A failed upload of a single message leaves the retry message on the retry queue. -/
theorem World.retryNext_queue {e : Entry} {good bad : List Destination} {cls : String} {m : Message}
    (hne : settings.retryQueueName ≠ settings.queueName)
    (hempty : w.queue settings.retryQueueName = []) :
    let w' := w.retryNext settings e [] event content good bad cls m
    w'.queue settings.queueName = [] ∧
      ∃ chain, w'.queue settings.retryQueueName = [⟨m, chain⟩] := by
  intro w'
  -- the main queue is changed by the delivery, the retry queue by the publication only
  let w₁ := (((w.fetchNext settings e []).scannedAs content).copyTo content good).endUploads
    (.split event (fsencode event.source.path) content good bad cls)
  have hmain : w₁.queue settings.queueName = [] := setQueue_self ..
  have hretry : w₁.queue settings.retryQueueName = [] := (setQueue_ne w hne []).trans hempty
  have hpublished := publish_queue_self w₁ settings .consumer settings.retryQueueName m
  rw [hretry, List.nil_append] at hpublished
  exact ⟨(publish_queue_ne w₁ settings .consumer hne.symm m).trans hmain, _, hpublished⟩

/-- What it takes for a file to be uploaded. -/
structure Uploadable (settings : Settings) (w : World) (event : TransferEvent)
    (content : ByteArray) : Prop where
  /-- The event is of a supported version. -/
  supported : event.assertSupported = .ok ()
  /-- Its file has the content. -/
  file : w.files (fsencode event.source.path) = some content
  /-- It is within the size limit. -/
  size : (content.size : Int) ≤ settings.maxCsvFileSizeBytes
  /-- The scan finds nothing. -/
  scan : scanBytes content = .ok []
  /-- The bound on concurrent uploads is valid. -/
  concurrency : 1 ≤ settings.uploadMaxConcurrency

/-- The results of a run that succeeds for some destinations and fails for the others. -/
theorem zipWith_split (good bad : List Destination) (cls : String) :
    List.zipWith uploadOne (good ++ bad)
      (good.map (fun _ => .returned) ++ bad.map fun _ => .raised cls) =
      good.map (fun d => ⟨d.provider, true, none⟩) ++ bad.map fun d => uploadOne d (.raised cls) := by
  rw [List.zipWith_append (by simp), UploadRun.zipWith_returned, List.zipWith_map_right,
    List.zipWith_self]

namespace Serves

/-- A new event is accepted. -/
theorem runs_accept (hH : Serves settings H) (hretry : event.retry = none)
    (φ : Phase calls Exn Unit) :
    H.Runs (w, φ) (w.accept settings (Publisher.message event none none), φ) := by
  refine .single (.interfere (hH.moves (.accept _) ⟨rfl, fun h => ?_, fun m hm => ?_⟩))
  · exact List.cons_ne_self _ _ (h.frame hH.distinct).2.1
  · exact ⟨event, hretry, (List.cons.inj hm).1.symm⟩

/-- The consumer connects. -/
theorem runs_connect (hH : Serves settings H) : H.Runs (w, .setup H.service.setup)
    (w.connected settings, .head ()) := by
  refine Host.runs_setup ?_
  rw [hH.service]
  exact hH.capable.executes_setup

/-- **The next message is delivered and handled.** -/
theorem runs_delivery {e : Entry} {rest : List Entry} {r : Except Exn Unit}
    (hH : Serves settings H) (hidle : w.Idle) (hq : w.queue settings.queueName = e :: rest)
    (hreadable : e.message.Readable)
    (hhandle : Executes H.toEnvironment (Consumer.handle settings w.nextTag e.message)
      (w.fetchNext settings e rest) r w') :
    H.Runs (w, .head ()) (w', .head ()) := by
  have hnext : (w.deliver settings e rest).buffered = (w.nextTag, e) :: [] := by
    simp [World.deliver, hidle.buffered]
  have hturn := hH.capable.executes_turn hnext hidle.channelOpen hidle.stop hreadable hhandle
  have hdeliver : Move settings w (w.deliver settings e rest) :=
    .deliver hidle.channelOpen hidle.room hq
  refine .head (.interfere (hH.moves hdeliver (ordinary_deliver hH.distinct e rest)))
    (Host.runs_turn ?_)
  rw [hH.service]
  exact hturn

/-- **The next message is delivered and its file uploaded.** -/
theorem runs_upload {e : Entry} {rest : List Entry} (hH : Serves settings H) (hidle : w.Idle)
    (hq : w.queue settings.queueName = e :: rest)
    (hm : TransferEvent.fromJsonBytes e.message.body = .ok event)
    (hdone : event.idempotencyKey.val ∉ w.doneKeys) (h : Uploadable settings w event content) :
    H.Runs (w, .head ()) (w.uploadNext settings e rest event content, .head ()) := by
  have hE := hH.capable
  have hreadable : e.message.Readable := .of_supported hm h.supported
  exact hH.runs_delivery hidle hq hreadable (hE.executes_handle hm h.supported hdone
    (hE.executes_handleSource h.file h.size h.scan
      (hE.executes_handleUpload h.concurrency hidle.channelOpen h.file)))

/-- **The time to live of a retry message ends.** -/
theorem runs_expire {e : Entry} {rest : List Entry} (hH : Serves settings H)
    (hq : w.queue settings.retryQueueName = e :: rest) (φ : Phase calls Exn Unit) :
    H.Runs (w, φ) (w.expireNext settings e rest, φ) := by
  have hne := hH.distinct.retry_ne_main
  refine .single (.interfere (hH.moves (.expire e.message.properties hq)
    (ordinary_of_ne rfl rfl fun h => ?_)))
  -- the retry queue has lost its head
  have hretry : (w.expireNext settings e rest).queue settings.retryQueueName = _ :=
    (h.frame hH.distinct).2.2.1
  rw [hq, expireNext, push, setQueue_ne _ hne, setQueue_self] at hretry
  exact List.cons_ne_self _ _ hretry.symm

end Serves

namespace Admits

/-- Uploads fail one after the other. -/
theorem drifts_fail {run : UploadRun} (hH : Admits settings H) (cls : String)
    (hconc : 1 ≤ settings.uploadMaxConcurrency)
    (hactive : w.active = some run) (halive : run.alive = true) (before : List Part)
    (ds : List Destination) (hparts : run.parts = before ++ ds.map (Part.mk · .pending)) :
    H.Drifts w { w with
      active := some { run with parts := before ++ ds.map (Part.mk · (.failed cls)) } } := by
  induction ds generalizing w run before with
  | nil =>
      have hrun : { run with parts := before ++ [] } = run := by rw [← List.map_nil, ← hparts]
      rw [List.map_nil, hrun, ← hactive]
  | cons d ds ih =>
      let failed : UploadRun :=
        { run with parts := before ++ ⟨d, .failed cls⟩ :: ds.map (Part.mk · .pending) }
      have hfail : run.Progress w failed w := .part halive hparts (.fail (.inl rfl))
      have hrest := ih (w := { w with active := some failed }) rfl halive
        (before ++ [⟨d, .failed cls⟩]) (by simp [failed])
      refine .head (hH.moves (.activeProgress hconc hactive hfail) (ordinary_progress hH.distinct)) ?_
      simpa [failed] using hrest

/-- **An upload that fails for some destinations.** -/
theorem executes_uploadAll_split (hH : Admits settings H) (good bad : List Destination)
    (cls : String) (hds : event.destinations.val = good ++ bad)
    (hconc : 1 ≤ settings.uploadMaxConcurrency) {path : Path} (hfile : w.files path = some content) :
    Executes H.toEnvironment (uploadAll settings event path) w
      (.ok (good.map (fun d => ⟨d.provider, true, none⟩) ++
        bad.map fun d => uploadOne d (.raised cls)))
      ((w.copyTo content good).endUploads (.split event path content good bad cls)) := by
  have hE := hH.serves.capable
  unfold uploadAll
  rw [if_neg (by omega)]
  refine hE.call_bind (.uploadStart event _) () rfl trivial ?_
  refine .drifts ((hE.drifts_copy hconc rfl rfl hfile [] (bad.map (Part.mk · .pending)) good
    (by simp [hds])).trans (hH.drifts_fail cls hconc rfl rfl (good.map (Part.mk · (.stored content))) bad
      (by simp))) ?_
  refine .perform_bind (a := good.map (fun _ => .returned) ++ bad.map fun _ => .raised cls)
    (hH.answers ⟨hconc, _, rfl, ?_, rfl⟩) ?_
  · refine List.rel_append ?_ ?_
    · rw [List.forall₂_map_left_iff, List.forall₂_map_right_iff]
      exact List.forall₂_same.2 fun _ _ => .inl rfl
    · rw [List.forall₂_map_left_iff, List.forall₂_map_right_iff]
      exact List.forall₂_same.2 fun _ _ => .inl rfl
  · rw [hds, zipWith_split]
    exact .ret

/-- **`_handle` after an upload that fails for some destinations**, with attempts left. -/
theorem executes_handleUpload_retry {retried : TransferEvent} {tag : Nat} {delay : Int}
    (hH : Admits settings H) (good bad : List Destination) (cls : String)
    (hds : event.destinations.val = good ++ bad) (hbad : bad ≠ [])
    (hconc : 1 ≤ settings.uploadMaxConcurrency) (hopen : w.channelOpen = true)
    (hfile : w.files (fsencode event.source.path) = some content)
    (hattempt : Consumer.nextAttempt event ≤ settings.retryMaxAttempts)
    (hretried : event.withRetry (Consumer.nextAttempt event) settings.retryMaxAttempts
      (Consumer.lastError (bad.map fun d => uploadOne d (.raised cls))) = .ok retried)
    (hdelay : backoffDelayMs settings (Consumer.nextAttempt event).toNat = .ok delay) :
    let m := Publisher.message retried (some (toString delay)) none
    let w₁ := (w.copyTo content good).endUploads
      (.split event (fsencode event.source.path) content good bad cls)
    Executes H.toEnvironment (Consumer.handleUpload settings tag event) w (.ok ())
      (((w₁.publish settings .consumer settings.retryQueueName m).confirm .consumer m).ack tag) := by
  intro m w₁
  have hE := hH.serves.capable
  -- what failed is what the retry names
  have hfailures : (good.map (fun d => UploadResult.mk d.provider true none) ++
      bad.map fun d => uploadOne d (.raised cls)).filter (fun r => !r.ok) =
      bad.map fun d => uploadOne d (.raised cls) := by
    rw [List.filter_append, List.filter_eq_nil_iff.2, List.nil_append, List.filter_eq_self]
    · rintro r hr
      obtain ⟨d, -, rfl⟩ := List.mem_map.1 hr
      rfl
    · rintro r hr
      obtain ⟨d, -, rfl⟩ := List.mem_map.1 hr
      simp
  refine (hH.executes_uploadAll_split good bad cls hds hconc hfile).bind ?_
  dsimp only
  rw [hfailures, if_neg (by simpa using hbad)]
  unfold Consumer.handleFailure
  dsimp only
  -- an attempt is left: the delayed copy is published, then the delivery acknowledged
  rw [if_neg (not_lt.2 hattempt), hretried, hdelay]
  exact hE.call_bind (.basicPublish _ m) () ⟨fun _ => hopen, rfl⟩ trivial
    (hE.call (.basicAck tag) () ⟨hopen, rfl⟩ trivial)

/-- **The next message is delivered and its upload fails for some destinations.** -/
theorem runs_retry {e : Entry} {rest : List Entry} {retried : TransferEvent} {delay : Int}
    (hH : Admits settings H) (hidle : w.Idle) (hq : w.queue settings.queueName = e :: rest)
    (hm : TransferEvent.fromJsonBytes e.message.body = .ok event)
    (hdone : event.idempotencyKey.val ∉ w.doneKeys) (h : Uploadable settings w event content)
    (good bad : List Destination) (cls : String) (hds : event.destinations.val = good ++ bad)
    (hbad : bad ≠ []) (hattempt : Consumer.nextAttempt event ≤ settings.retryMaxAttempts)
    (hretried : event.withRetry (Consumer.nextAttempt event) settings.retryMaxAttempts
      (Consumer.lastError (bad.map fun d => uploadOne d (.raised cls))) = .ok retried)
    (hdelay : backoffDelayMs settings (Consumer.nextAttempt event).toNat = .ok delay) :
    H.Runs (w, .head ()) (w.retryNext settings e rest event content good bad cls
      (Publisher.message retried (some (toString delay)) none), .head ()) := by
  have hE := hH.serves.capable
  have hreadable : e.message.Readable := .of_supported hm h.supported
  refine hH.serves.runs_delivery (r := .ok ()) hidle hq hreadable (hE.executes_handle hm h.supported
    hdone (hE.executes_handleSource h.file h.size h.scan ?_))
  exact hH.executes_handleUpload_retry good bad cls hds hbad h.concurrency hidle.channelOpen h.file
    hattempt hretried hdelay

end Admits

/-- There is a content that the scan lets pass. -/
theorem exists_scannable : ∃ content : ByteArray,
    (content.size : Int) ≤ ({} : Settings).maxCsvFileSizeBytes ∧ scanBytes content = .ok [] :=
  ⟨"a\n".toUTF8, by decide +kernel, by decide +kernel⟩

/-! ## The example event -/

/-- Nothing has happened yet, and every path has this content. -/
def World.fresh (content : ByteArray) : World := { files := fun _ => some content }

/-- The destinations of the example event. -/
def sampleS3 : Destination :=
  ⟨.awsS3, "wms-orders-processed", "orders/ORD-20260610-0001.csv", some "us-east-1"⟩

/-- A destination of the other provider. -/
def sampleGcs : Destination :=
  ⟨.gcpGcs, "wms-orders-processed", "orders/ORD-20260610-0001.csv", none⟩

/-- The upload of the example event has succeeded on S3 and failed on GCS, and `e` is the message of
its retry. -/
structure SampleRetry (content : ByteArray) (w : World) (e : Entry) (retried : TransferEvent) :
    Prop where
  /-- The consumer is ready. -/
  idle : w.Idle
  /-- The main queue is empty. -/
  main : w.queue ({} : Settings).queueName = []
  /-- The retry message is on the retry queue. -/
  retry : w.queue ({} : Settings).retryQueueName = [e]
  /-- It decodes to the event of the retry. -/
  decodes : TransferEvent.fromJsonBytes e.message.body = .ok retried
  /-- That is the example event but for `retry`. -/
  event : retried = { TransferEvent.sample with retry := retried.retry }
  /-- The files are as before. -/
  files : w.files = fun _ => some content
  /-- The store is empty. -/
  processed : w.processed = []
  /-- The message of the example event was accepted. -/
  accepted : w.accepted = [Publisher.message .sample none none]
  /-- The run of the upload. -/
  runs : w.runs = [.split .sample (fsencode TransferEvent.sample.source.path) content [sampleS3]
    [sampleGcs] "ClientError"]

/-- With the content of such a file any supported event can be uploaded. -/
theorem uploadable_of_files {content : ByteArray} {w : World} {event : TransferEvent}
    (hcontent : (content.size : Int) ≤ ({} : Settings).maxCsvFileSizeBytes ∧
      scanBytes content = .ok []) (hfiles : w.files = fun _ => some content)
    (hsupported : event.assertSupported = .ok ()) : Uploadable {} w event content :=
  ⟨hsupported, by rw [hfiles], hcontent.1, hcontent.2, by decide⟩

/-- **The example event is delivered, uploaded and acknowledged.** -/
theorem Serves.runs_sample {H : Host calls Exn World Unit} (hH : Serves {} H) {content : ByteArray}
    (hcontent : (content.size : Int) ≤ ({} : Settings).maxCsvFileSizeBytes ∧ scanBytes content = .ok []) :
    ∃ w, H.Runs (.fresh content, .setup H.service.setup) (w, .head ()) ∧
      TransferEvent.sample.idempotencyKey.val ∈ w.doneKeys ∧ w.received ≠ [] := by
  let m := Publisher.message .sample none none
  let w : World := ((World.fresh content).connected {}).accept {} m
  have hidle : w.Idle := (idle_connected rfl).accept m
  have hq : w.queue ({} : Settings).queueName = ⟨m, []⟩ :: [] := by
    rw [accept_queue, connected_queue]
    rfl
  have hrun := (hH.runs_connect.trans (hH.runs_accept rfl _)).trans (hH.runs_upload hidle hq
    (Publisher.fromJsonBytes_message _ _ _) List.not_mem_nil
    (uploadable_of_files hcontent rfl TransferEvent.sample_supported))
  have hreceived : (w.uploadNext {} ⟨m, []⟩ [] .sample content).received ≠ [] := by
    unfold World.uploadNext World.markDone
    split <;> exact List.cons_ne_nil _ _
  exact ⟨_, hrun, mem_doneKeys_markDone .., hreceived⟩

/-- The first delay is two seconds. -/
theorem backoffDelayMs_first : backoffDelayMs {} 1 = .ok 2000 := by
  have hsmall : |(2 : ℚ) ^ 1 * 1000| ≤ 2 ^ 970 :=
    calc |(2 : ℚ) ^ 1 * 1000| ≤ 2 ^ 11 := by norm_num
      _ ≤ 2 ^ 970 := pow_le_pow_right₀ one_le_two (by decide)
  exact (backoffDelayMs_eq rfl hsmall).trans (congrArg Except.ok (by decide +kernel))

/-- **The example event fails on GCS.** -/
theorem Admits.runs_sample_retry {H : Host calls Exn World Unit} (hH : Admits {} H)
    {content : ByteArray} (hcontent : (content.size : Int) ≤ ({} : Settings).maxCsvFileSizeBytes ∧
      scanBytes content = .ok []) :
    ∃ w e retried, H.Runs (.fresh content, .setup H.service.setup) (w, .head ()) ∧
      SampleRetry content w e retried := by
  let event := TransferEvent.sample
  let retried : TransferEvent :=
    { event with retry := some ⟨⟨1, le_rfl⟩, ⟨5, by decide⟩, some "gcp-gcs:ClientError"⟩ }
  let m := Publisher.message event none none
  let m' := Publisher.message retried (some (toString (2000 : Int))) none
  let w : World := ((World.fresh content).connected {}).accept {} m
  have hidle : w.Idle := (idle_connected rfl).accept m
  have hq : w.queue ({} : Settings).queueName = ⟨m, []⟩ :: [] := by
    rw [accept_queue, connected_queue]
    rfl
  have hne : ({} : Settings).retryQueueName ≠ ({} : Settings).queueName := by decide
  have hretried : event.withRetry (Consumer.nextAttempt event) ({} : Settings).retryMaxAttempts
      (Consumer.lastError ([sampleGcs].map fun d => uploadOne d (.raised "ClientError"))) =
      .ok retried := rfl
  have hrun := hH.runs_retry hidle hq (Publisher.fromJsonBytes_message event none none)
    List.not_mem_nil (uploadable_of_files hcontent rfl TransferEvent.sample_supported) [sampleS3]
    [sampleGcs] "ClientError" rfl (by simp) (by decide) hretried backoffDelayMs_first
  have hempty : w.queue ({} : Settings).retryQueueName = [] :=
    (accept_queue_ne hne m).trans (connected_queue_ne hne)
  obtain ⟨hmain, chain, hretry⟩ := retryNext_queue (w := w) (e := ⟨m, []⟩) (m := m') hne hempty
  exact ⟨_, ⟨m', chain⟩, retried,
    (hH.serves.runs_connect.trans (hH.serves.runs_accept rfl _)).trans hrun,
    hidle.retryNext, hmain, hretry, Publisher.fromJsonBytes_message retried _ _, rfl, rfl, rfl, rfl, rfl⟩

end TransferWorker
