import TransferWorker.System.Progress
import TransferWorker.System.Threads
import TransferWorker.Worker.Building
import TransferWorker.Worker.Hashlib

/-! # A file is announced

Executions of the watcher in a world that answers its questions truthfully: from the start of the process
to the three loop heads, and through the turn in which a file is taken from the queue and its event
published.

* **`Observes`** — such a world; `executes_turn` is the turn.
* **`runs_heads`** — all threads at the heads of their loops; `runs_upload_next` — a message is handled.
* **`runs_sighted`**, `runs_copied` — one file with an order line is announced and copied. -/

namespace TransferWorker

open CallTrees World

/-- A true answer: a regular file is recognised. -/
def Op.Truthful (w : World) : (op : Op) → Res op → Prop
  | .isfile path, b => b = (w.files path).isSome
  | _, _ => True

/-- **An environment of the watcher in which every true answer is possible**; the watcher does not
consume. -/
def Observes (settings : Settings) (E : Environment calls Exn World) : Prop :=
  ∀ {w op x w'}, (∀ q, op ≠ .consume q) → op.Truthful w x → w.normal settings .watcher op x w' →
    E.responds w op (.ok x) w'

/-- A file was written completely. -/
def World.wrote (w : World) (path : Path) (content : ByteArray) : World :=
  { w with
    files := Function.update w.files path (some content)
    notices := w.notices ++ [⟨false, path, path⟩]
    inspections := w.inspections.map fun i =>
      if i.path = path ∧ i.finished = false then { i with intact := false } else i }

/-- The observer's handler was told of it, and of nothing else. -/
def World.reports (w : World) (path : Path) (content : ByteArray) : World :=
  { w.wrote path content with notices := [], fileQueue := w.fileQueue ++ [path] }

/-- The file is there. -/
theorem World.reports_files (w : World) (path : Path) (content : ByteArray) :
    (w.reports path content).files path = some content :=
  Function.update_self ..

/-- The file was taken from the queue, and the event that was built of it is on the main queue. -/
def World.announced (settings : Settings) (w : World) (path : Path) (rest : List Path)
    (s : Sighting) (e : TransferEvent) : World :=
  let w' : World := { w with
    fileQueue := rest
    inspections := .examined path s.content :: w.inspections
    uuids := s.correlationId.val :: s.eventId.val :: w.uuids }
  (w'.publish settings .watcher settings.queueName (Publisher.message e none none)).confirm .watcher
    (Publisher.message e none none)

/-- The event is at the end of the main queue. -/
@[simp] theorem World.announced_queue (settings : Settings) (w : World) (path : Path) (rest : List Path)
    (s : Sighting) (e : TransferEvent) :
    (w.announced settings path rest s e).queue settings.queueName =
      w.queue settings.queueName ++ [⟨Publisher.message e none none, []⟩] :=
  setQueue_self ..

namespace Observes

variable {H : Hashes} {cwd : String} {settings : Settings} {E : Environment calls Exn World}
  {w w' : World} {path : Path} {rest : List Path} {name : String} {s : Sighting}

/-- A call, followed by a program. -/
theorem call_bind {α : Type} {r : Except Exn α} (hE : Observes settings E) (op : Op) (x : Res op)
    {f : Res op → Prog α} {w'' : World} (hop : ∀ q, op ≠ .consume q) (hx : op.Truthful w x)
    (h : w.normal settings .watcher op x w') (hf : Executes E (f x) w' r w'') :
    Executes E (call op >>= f) w r w'' :=
  .perform_bind (hE hop hx h) hf

/-- The setup. -/
theorem executes_setup (hE : Observes settings E) :
    Executes E (watcherService H cwd settings).setup w (.ok ()) w.watching := by
  let E' : Environment calls Exn World :=
    ⟨fun w op r w' => ∃ x, r = .ok x ∧ (∀ q, op ≠ .consume q) ∧ w.normal settings .watcher op x w',
      fun _ _ => False⟩
  have hattends : Attends settings E' := fun hop h => ⟨_, rfl, hop, h⟩
  have hlooks : (watcherService H cwd settings).setup.Calls fun op : Op => ∀ path, op ≠ .isfile path :=
    calls_watcher_setup ⟨by simp, by simp, by simp, by simp, by simp⟩ (by simp) (by simp) (by simp)
      (by simp)
  have hmoves : ∀ {v v'}, E'.interfere v v' → E.interfere v v' := fun h => h.elim
  refine Executes.of_calls hlooks (fun {w op r w'} hop h => ?_) hmoves hattends.executes_setup
  obtain ⟨x, rfl, hconsume, hx⟩ := h
  refine hE hconsume ?_ hx
  cases op with
  | isfile path => exact absurd rfl (hop path)
  | _ => trivial

/-- `build_event` of a file that is there. -/
theorem executes_buildEvent (hE : Observes settings E) (hname : String.fromUTF8? path = some name)
    {is : List Inspection} (hinspections : w.inspections = { path := path, regular := true } :: is)
    (hfile : w.files path = some s.content) (hsize : s.size = s.content.size)
    (hevent : s.eventId.val ∉ w.uuids) (hcorrelation : s.correlationId.val ∉ s.eventId.val :: w.uuids) :
    Executes E (Watcher.buildEvent H cwd path settings) w (.ok (s.event H cwd name settings))
      { w with
        inspections := .examined path s.content :: is
        uuids := s.correlationId.val :: s.eventId.val :: w.uuids } := by
  have hread : (w.noteSize .watcher s.size).noteContent .watcher s.content =
      { w with inspections := .examined path s.content :: is } := by
    unfold World.noteContent World.noteSize World.inspect
    rw [hinspections, hsize]
    rfl
  refine hE.call_bind (.getsize path) s.size (by simp) trivial
    ⟨⟨s.content, hfile, hsize.symm⟩, rfl⟩ ?_
  refine hE.call_bind (.readFile path) s.content (by simp) trivial ⟨hfile, hread.symm⟩ ?_
  simp only [hname]
  refine hE.call_bind .newUuid s.eventId.val (by simp) trivial ⟨s.eventId.property, hevent, rfl⟩ ?_
  refine hE.call_bind .newUuid s.correlationId.val (by simp) trivial
    ⟨s.correlationId.property, hcorrelation, rfl⟩ ?_
  refine hE.call_bind .utcnow s.occurredAt.val (by simp) trivial ⟨s.occurredAt.property, rfl⟩ ?_
  rw [s.make_eq]
  exact .ret

/-- **The turn that announces a file.** -/
theorem executes_turn (hE : Observes settings E) (hname : String.fromUTF8? path = some name)
    (hstop : w.stop = false) (hqueue : w.fileQueue = path :: rest)
    (hfile : w.files path = some s.content) (hsize : s.size = s.content.size)
    (hevent : s.eventId.val ∉ w.uuids) (hcorrelation : s.correlationId.val ∉ s.eventId.val :: w.uuids) :
    Executes E (Watcher.turn H cwd settings) w (.ok (.inl ()))
      (w.announced settings path rest s (s.event H cwd name settings)) := by
  refine hE.call_bind .stopIsSet false (by simp) trivial ⟨hstop.symm, rfl⟩ ?_
  refine hE.call_bind .fileQueueGet (some path) (by simp) trivial ⟨rest, hqueue, rfl⟩ ?_
  have hregular : (w.files path).isSome = true := by rw [hfile]; rfl
  have hsend : ∀ v : World, v.CanSend .watcher := fun v h => absurd h (by decide)
  have hhandle : Executes E (Watcher.handlePath H cwd settings path)
      { w with fileQueue := rest, inspections := { path := path } :: w.inspections } (.ok ())
      (w.announced settings path rest s (s.event H cwd name settings)) := by
    refine hE.call_bind (.isfile path) true (by simp) hregular.symm ⟨fun _ => hregular, rfl⟩ ?_
    have hbuild : Executes E (Watcher.buildEvent H cwd path settings)
        { w with fileQueue := rest, inspections := { path := path, regular := true } :: w.inspections }
        (.ok (s.event H cwd name settings)) _ :=
      hE.executes_buildEvent hname rfl hfile hsize hevent hcorrelation
    have hpublish : Executes E (Publisher.publishEvent settings (s.event H cwd name settings))
        { w with
          fileQueue := rest
          inspections := .examined path s.content :: w.inspections
          uuids := s.correlationId.val :: s.eventId.val :: w.uuids } (.ok ())
        (w.announced settings path rest s (s.event H cwd name settings)) :=
      .perform (hE (by simp) trivial ⟨hsend _, rfl⟩)
    exact hbuild.attempt.bind (hpublish.attempt.bind .ret)
  exact hhandle.bind .ret

end Observes

/-! ## Runs of the process -/

section heads

variable {H : Hashes} {cwd : String} {settings : Settings} {w : World}
  {K : Pool.Condition calls Exn World Thread}

/-- **All threads get to the heads of their loops.** -/
theorem runs_heads (hmain : ∀ v c, K.call .main v (.threadStart c) (.ok ()))
    (hwatcher : Observes settings (threadWorld settings K .watcher))
    (hconsumer : Capable settings (threadWorld settings K .consumer)) :
    ((process H cwd settings).under K).Runs (w, ((process H cwd settings).under K).start)
      (w.launched.watching.connected settings, fun _ => .head ()) := by
  let P := (process H cwd settings).under K
  let φ := Function.update P.start .main (.head ())
  have hlaunch : P.Runs (w, P.start) (w.launched, φ) := runs_launch (hmain _ _) fun _ => hmain _ _
  have hwatch : P.Runs (w.launched, φ) (w.launched.watching, Function.update φ .watcher (.head ())) :=
    runs_thread_setup hwatcher.executes_setup rfl rfl
  have hconnect : P.Runs (w.launched.watching, Function.update φ .watcher (.head ()))
      (w.launched.watching.connected settings,
        Function.update (Function.update φ .watcher (.head ())) .consumer (.head ())) :=
    runs_thread_setup hconsumer.executes_setup rfl rfl
  have hheads : Function.update (Function.update φ .watcher (.head ())) .consumer (.head ()) =
      fun _ => .head () := by
    funext t
    cases t <;> rfl
  rw [hheads] at hconnect
  exact (hlaunch.trans hwatch).trans hconnect

/-- A file is written, and the observer hears of it. -/
theorem runs_reports {path : Path} {content : ByteArray} {φ : Thread → Phase calls Exn Unit}
    (hnotices : w.notices = []) (hwrote : K.move w (w.wrote path content))
    (hreports : K.move (w.wrote path content) (w.reports path content)) :
    ((process H cwd settings).under K).Runs (w, φ) (w.reports path content, φ) := by
  have hnotice : (w.wrote path content).notices = ⟨false, path, path⟩ :: [] := by
    show w.notices ++ [_] = _
    rw [hnotices]
    rfl
  have hwrite : Move settings w (w.wrote path content) := .write path content
  have hclosed : Move settings (w.wrote path content) (w.reports path content) := .closed hnotice
  exact .head (.interfere ⟨hwrite, hwrote⟩) (.single (.interfere ⟨hclosed, hreports⟩))

/-- A turn of a thread at whose end all are at the heads of their loops again. -/
theorem runs_head_turn {t : Thread} {w' : World} (hrun : w.Running t)
    (h : Executes (threadWorld settings K t) (((process H cwd settings).service t).turn ()) w
      (.ok (.inl ())) w') :
    ((process H cwd settings).under K).Runs (w, fun _ => .head ()) (w', fun _ => .head ()) := by
  have hturn : ((process H cwd settings).under K).Runs (w, fun _ => .head ())
      (w', Function.update (fun _ => .head ()) t (.head ())) := Pool.runs_turn rfl (executes_process h hrun)
  rwa [Function.update_eq_self] at hturn

/-- **A file is written, and the watcher publishes its event.** -/
theorem runs_announced {path : Path} {name : String} {s : Sighting}
    (hwatcher : Observes settings (threadWorld settings K .watcher)) (hrun : w.Running .watcher)
    (hstop : w.stop = false) (hnotices : w.notices = []) (hqueue : w.fileQueue = [])
    (hname : String.fromUTF8? path = some name) (hsize : s.size = s.content.size)
    (hevent : s.eventId.val ∉ w.uuids) (hcorrelation : s.correlationId.val ∉ s.eventId.val :: w.uuids)
    (hwrote : K.move w (w.wrote path s.content))
    (hreports : K.move (w.wrote path s.content) (w.reports path s.content)) :
    ((process H cwd settings).under K).Runs (w, fun _ => .head ())
      ((w.reports path s.content).announced settings path [] s (s.event H cwd name settings),
        fun _ => .head ()) := by
  have hpath : (w.reports path s.content).fileQueue = path :: [] := by
    show w.fileQueue ++ [path] = _
    rw [hqueue]
    rfl
  have hturn : Executes (threadWorld settings K .watcher) (Watcher.turn H cwd settings)
      (w.reports path s.content) (.ok (.inl ())) _ :=
    hwatcher.executes_turn hname hstop hpath (reports_files ..) hsize hevent hcorrelation
  exact (runs_reports hnotices hwrote hreports).trans (runs_head_turn (t := .watcher) hrun hturn)

/-- An upload leaves the files and the watcher's queue as they are. -/
theorem uploadNext_frame {e : Entry} {rest : List Entry} {event : TransferEvent} {content : ByteArray} :
    let w' := w.uploadNext settings e rest event content
    w'.files = w.files ∧ w'.fileQueue = w.fileQueue ∧ w'.notices = w.notices := by
  unfold World.uploadNext World.markDone
  split <;> exact ⟨rfl, rfl, rfl⟩

/-- **The next message is delivered and its file uploaded.** -/
theorem runs_upload_next {e : Entry} {rest : List Entry} {event : TransferEvent} {content : ByteArray}
    (hE : Capable settings (threadWorld settings K .consumer)) (hidle : w.Idle) (hrun : w.Running .consumer)
    (hq : w.queue settings.queueName = e :: rest) (hdelivers : K.move w (w.deliver settings e rest))
    (hm : TransferEvent.fromJsonBytes e.message.body = .ok event)
    (hdone : event.idempotencyKey.val ∉ w.doneKeys) (h : Uploadable settings w event content) :
    ((process H cwd settings).under K).Runs (w, fun _ => .head ())
      (w.uploadNext settings e rest event content, fun _ => .head ()) := by
  have hnext : (w.deliver settings e rest).buffered = (w.nextTag, e) :: [] := by
    simp [World.deliver, hidle.buffered]
  have hreadable : e.message.Readable := .of_supported hm h.supported
  have hturn : Executes (threadWorld settings K .consumer) (Consumer.turn settings)
      (w.deliver settings e rest) (.ok (.inl ())) (w.uploadNext settings e rest event content) :=
    hE.executes_turn hnext hidle.channelOpen hidle.stop hreadable (hE.executes_handle hm h.supported hdone
      (hE.executes_handleSource h.file h.size h.scan
        (hE.executes_handleUpload h.concurrency hidle.channelOpen h.file)))
  have hdeliver : Move settings w (w.deliver settings e rest) :=
    .deliver hidle.channelOpen hidle.room hq
  exact .head (.interfere ⟨hdeliver, hdelivers⟩) (runs_head_turn (t := .consumer) hrun hturn)

/-- The next message was delivered and acknowledged. -/
def World.skipNext (settings : Settings) (w : World) (e : Entry) (rest : List Entry) : World :=
  (w.fetchNext settings e rest).ack w.nextTag

/-- **The next message is delivered and skipped**: its key is done. -/
theorem runs_skip_next {e : Entry} {rest : List Entry} {event : TransferEvent}
    (hE : Capable settings (threadWorld settings K .consumer)) (hidle : w.Idle) (hrun : w.Running .consumer)
    (hq : w.queue settings.queueName = e :: rest) (hdelivers : K.move w (w.deliver settings e rest))
    (hm : TransferEvent.fromJsonBytes e.message.body = .ok event) (hsupported : event.assertSupported = .ok ())
    (hdone : event.idempotencyKey.val ∈ w.doneKeys) :
    ((process H cwd settings).under K).Runs (w, fun _ => .head ())
      (w.skipNext settings e rest, fun _ => .head ()) := by
  have hnext : (w.deliver settings e rest).buffered = (w.nextTag, e) :: [] := by
    simp [World.deliver, hidle.buffered]
  have hturn : Executes (threadWorld settings K .consumer) (Consumer.turn settings)
      (w.deliver settings e rest) (.ok (.inl ())) (w.skipNext settings e rest) :=
    hE.executes_turn hnext hidle.channelOpen hidle.stop (.of_supported hm hsupported)
      (hE.executes_handle_done hm hsupported hdone hidle.channelOpen)
  have hdeliver : Move settings w (w.deliver settings e rest) :=
    .deliver hidle.channelOpen hidle.room hq
  exact .head (.interfere ⟨hdeliver, hdelivers⟩) (runs_head_turn (t := .consumer) hrun hturn)

end heads

/-! ## A file that is announced and copied -/

/-- The watcher's event for a file with one order line. -/
def sightedEvent : TransferEvent := Sighting.sample.event hashlib "/" "/watch/ORD-1.csv" {}

/-- Support is a matter of the version. -/
theorem assertSupported_congr {e e' : TransferEvent} (h : e.schemaVersion = e'.schemaVersion) :
    e.assertSupported = e'.assertSupported := by
  unfold TransferEvent.assertSupported TransferEvent.schemaMajor TransferEvent.majorDigits
  rw [h]

/-- Every event of the watcher is of a supported version. -/
theorem Sighting.event_supported (s : Sighting) (H : Hashes) (cwd name : String) (settings : Settings) :
    (s.event H cwd name settings).assertSupported = .ok () := by
  have hversion : (s.event H cwd name settings).schemaVersion = TransferEvent.sample.schemaVersion :=
    Subtype.ext rfl
  rw [assertSupported_congr hversion]
  exact TransferEvent.sample_supported

/-- So is this one. -/
theorem sightedEvent_supported : sightedEvent.assertSupported = .ok () := Sighting.event_supported ..

namespace World

/-- All threads are at the heads of their loops, and nothing has happened. -/
def atHeads : World := connected {} (launched {}).watching

/-- The file was written, and its event is on the main queue. -/
def sighted : World :=
  (atHeads.reports (fsencode "/watch/ORD-1.csv") Sighting.sample.content).announced {}
    (fsencode "/watch/ORD-1.csv") [] .sample sightedEvent

/-- The file was copied to its destinations, and the message acknowledged. -/
def copied : World :=
  sighted.uploadNext {} ⟨Publisher.message sightedEvent none none, []⟩ [] sightedEvent Sighting.sample.content

/-- The file is there. -/
theorem sighted_file : sighted.files (fsencode "/watch/ORD-1.csv") = some Sighting.sample.content :=
  reports_files atHeads (fsencode "/watch/ORD-1.csv") Sighting.sample.content

/-- The message of the file is the only one. -/
theorem sighted_queue :
    sighted.queue ({} : Settings).queueName = [⟨Publisher.message sightedEvent none none, []⟩] := by
  have hempty : atHeads.queue ({} : Settings).queueName = [] := connected_queue
  have hnothing : (atHeads.reports (fsencode "/watch/ORD-1.csv") Sighting.sample.content).queue
      ({} : Settings).queueName = [] := hempty
  rw [sighted, announced_queue, hnothing]
  rfl

end World

section sighted

variable {K : Pool.Condition calls Exn World Thread}

/-- **A file is written, and the watcher publishes its event.** -/
theorem runs_sighted (hmain : ∀ v c, K.call .main v (.threadStart c) (.ok ()))
    (hwatcher : Observes {} (threadWorld {} K .watcher)) (hconsumer : Capable {} (threadWorld {} K .consumer))
    (hwrote : K.move atHeads (atHeads.wrote (fsencode "/watch/ORD-1.csv") Sighting.sample.content))
    (hreports : K.move (atHeads.wrote (fsencode "/watch/ORD-1.csv") Sighting.sample.content)
      (atHeads.reports (fsencode "/watch/ORD-1.csv") Sighting.sample.content)) :
    ((process hashlib "/" {}).under K).Runs ({}, ((process hashlib "/" {}).under K).start)
      (sighted, fun _ => .head ()) := by
  let P := (process hashlib "/" {}).under K
  have hheads : P.Runs ({}, P.start) (atHeads, fun _ => .head ()) := runs_heads hmain hwatcher hconsumer
  have hannounced : P.Runs (atHeads, fun _ => .head ()) (sighted, fun _ => .head ()) :=
    runs_announced hwatcher rfl rfl rfl rfl (Json.fromUTF8?_toUTF8 "/watch/ORD-1.csv") rfl List.not_mem_nil
      (by decide) hwrote hreports
  exact hheads.trans hannounced

/-- **Its message is delivered, and both destinations get it.** -/
theorem runs_copied (hconsumer : Capable {} (threadWorld {} K .consumer))
    (hdelivers : K.move sighted (sighted.deliver {} ⟨Publisher.message sightedEvent none none, []⟩ [])) :
    ((process hashlib "/" {}).under K).Runs (sighted, fun _ => .head ()) (copied, fun _ => .head ()) := by
  have hconnected : atHeads.Idle := idle_connected rfl
  have hidle : sighted.Idle :=
    ⟨hconnected.channelOpen, hconnected.stop, hconnected.buffered, hconnected.room⟩
  exact runs_upload_next hconsumer hidle rfl sighted_queue hdelivers
    (Publisher.fromJsonBytes_message sightedEvent none none) List.not_mem_nil
    ⟨sightedEvent_supported, sighted_file, by decide, by decide +kernel, by decide⟩

end sighted

end TransferWorker
