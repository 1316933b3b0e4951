import TransferWorker.System.NoLoss
import TransferWorker.System.Progress

/-! # Recovery

From every state there is a way on: whatever happened before, the consumer can settle all messages that
wait, those in the retry queue and those of a broken channel included. A message whose file can be
uploaded gets its key into the store, any other one gets onto the dead-letter queue; none of them stops
the ones behind it.

* **`World.Resolved`** — what became of a message.
* **`Capable.executes_handle_any`** — `_handle` settles any message without an exception.
* **`can_always_finish`** — the run to the end, from any state. -/

namespace TransferWorker

open CallTrees Relation World

namespace World

/-- The messages that wait: on the main queue, on the retry queue, or unacknowledged. -/
def waiting (settings : Settings) (w : World) : List Message :=
  (w.unacked.map Prod.snd ++ w.queue settings.queueName ++ w.queue settings.retryQueueName).map
    Entry.message

/-- **The message is settled**: its event is done, or its file cannot be uploaded and a message for the
same event is on the dead-letter queue. -/
def Resolved (settings : Settings) (w : World) (body : ByteArray) : Prop :=
  w.Done body ∨ ((∀ event content, TransferEvent.fromJsonBytes body = .ok event →
      ¬Uploadable settings w event content) ∧
    ∃ e ∈ w.queue settings.dlqName, SameMessage body e.message.body)

/-- Every file can be scanned. -/
def Scannable (w : World) : Prop :=
  ∀ path content, w.files path = some content → ∃ issues, scanBytes content = .ok issues

/-- Steps that settle messages: the files stay, the store and the dead-letter queue only grow. -/
structure Onward (settings : Settings) (w w' : World) : Prop where
  /-- The files. -/
  files : w'.files = w.files
  /-- What was accepted. -/
  accepted : w'.accepted = w.accepted
  /-- The store. -/
  done : ∀ key ∈ w.doneKeys, key ∈ w'.doneKeys
  /-- The dead-letter queue. -/
  dead : ∀ e ∈ w.queue settings.dlqName, e ∈ w'.queue settings.dlqName

/-- What a `_handle` call does before its acknowledgement. -/
structure Beside (settings : Settings) (w w' : World) : Prop extends Onward settings w w' where
  /-- The main queue. -/
  main : w'.queue settings.queueName = w.queue settings.queueName
  /-- The retry queue. -/
  retry : w'.queue settings.retryQueueName = w.queue settings.retryQueueName
  /-- The deliveries. -/
  unacked : w'.unacked = w.unacked
  /-- What the iterator has not yielded. -/
  buffered : w'.buffered = w.buffered
  /-- The prefetch bound. -/
  prefetch : w'.prefetch = w.prefetch
  /-- The channel. -/
  channelOpen : w'.channelOpen = w.channelOpen
  /-- The stop event. -/
  stop : w'.stop = w.stop

end World

variable {settings : Settings} {w w' w'' : World}

/-- Nothing happens. -/
theorem World.Onward.refl : w.Onward settings w := ⟨rfl, rfl, fun _ h => h, fun _ h => h⟩

/-- One thing after the other. -/
theorem World.Onward.trans (h : w.Onward settings w') (h' : w'.Onward settings w'') :
    w.Onward settings w'' where
  files := h'.files.trans h.files
  accepted := h'.accepted.trans h.accepted
  done key hkey := h'.done key (h.done key hkey)
  dead e he := h'.dead e (h.dead e he)

/-- Nothing happens beside the consumer. -/
theorem World.Beside.refl : w.Beside settings w :=
  ⟨.refl, rfl, rfl, rfl, rfl, rfl, rfl, rfl⟩

/-- One thing after the other beside the consumer. -/
theorem World.Beside.trans (h : w.Beside settings w') (h' : w'.Beside settings w'') :
    w.Beside settings w'' where
  toOnward := h.toOnward.trans h'.toOnward
  main := h'.main.trans h.main
  retry := h'.retry.trans h.retry
  unacked := h'.unacked.trans h.unacked
  buffered := h'.buffered.trans h.buffered
  prefetch := h'.prefetch.trans h.prefetch
  channelOpen := h'.channelOpen.trans h.channelOpen
  stop := h'.stop.trans h.stop

/-- A world that differs in nothing that a message needs. -/
theorem World.beside_of_same (hfiles : w'.files = w.files) (haccepted : w'.accepted = w.accepted)
    (hdone : w'.doneKeys = w.doneKeys) (hqueue : w'.queue = w.queue) (hunacked : w'.unacked = w.unacked)
    (hbuffered : w'.buffered = w.buffered) (hprefetch : w'.prefetch = w.prefetch)
    (hopen : w'.channelOpen = w.channelOpen) (hstop : w'.stop = w.stop) : w.Beside settings w' where
  files := hfiles
  accepted := haccepted
  done key hkey := by rwa [hdone]
  dead e he := by rwa [hqueue]
  main := by rw [hqueue]
  retry := by rw [hqueue]
  unacked := hunacked
  buffered := hbuffered
  prefetch := hprefetch
  channelOpen := hopen
  stop := hstop

/-- A note on the call is beside the consumer's business. -/
theorem World.beside_note (f : Handling → Handling) : w.Beside settings (w.note f) :=
  beside_of_same rfl rfl rfl rfl rfl rfl rfl rfl rfl

/-- An upload that succeeds. -/
theorem World.beside_upload {content : ByteArray} {ds : List Destination} {run : UploadRun}
    {key correlationId : String} :
    w.Beside settings (((w.copyTo content ds).endUploads run).markDone key correlationId) := by
  have hend : w.Beside settings ((w.copyTo content ds).endUploads run) :=
    beside_of_same rfl rfl rfl rfl rfl rfl rfl rfl rfl
  refine hend.trans ?_
  unfold markDone
  split_ifs
  · exact .refl
  · refine ⟨⟨rfl, rfl, fun key' hkey => ?_, fun _ he => he⟩, rfl, rfl, rfl, rfl, rfl, rfl, rfl⟩
    show key' ∈ (_ ++ [_]).map Prod.fst
    rw [List.map_append]
    exact List.mem_append_left _ hkey

/-- A publication on the dead-letter queue. -/
theorem World.beside_dead (hd : settings.Distinct) (m : Message) :
    w.Beside settings ((w.publish settings .consumer settings.dlqName m).confirm .consumer m) := by
  refine ⟨⟨rfl, rfl, fun _ hkey => hkey, fun e he => ?_⟩, ?_, ?_, rfl, rfl, rfl, rfl, rfl⟩
  · show e ∈ (w.publish settings .consumer settings.dlqName m).queue settings.dlqName
    rw [publish_queue_self]
    exact List.mem_append_left _ he
  · exact publish_queue_ne w settings .consumer hd.dlq_ne_main.symm m
  · exact publish_queue_ne w settings .consumer hd.dlq_ne_retry.symm m

/-- A dead letter is on the dead-letter queue. -/
theorem World.mem_dead (settings : Settings) (w : World) (m : Message) :
    ∃ e ∈ ((w.publish settings .consumer settings.dlqName m).confirm .consumer m).queue settings.dlqName,
      e.message = m := by
  refine ⟨⟨m, w.chainOf .consumer settings.dlqName m⟩, ?_, rfl⟩
  show _ ∈ (w.publish settings .consumer settings.dlqName m).queue settings.dlqName
  rw [publish_queue_self]
  exact List.mem_append_right _ (List.mem_singleton_self _)

/-- What was settled stays settled. -/
theorem World.Resolved.onward {body : ByteArray} (h : w.Resolved settings body)
    (hw : w.Onward settings w') : w'.Resolved settings body := by
  rcases h with ⟨event, hok, hdone⟩ | ⟨hfile, e, he, hsame⟩
  · exact .inl ⟨event, hok, hw.done _ hdone⟩
  · refine .inr ⟨fun event content hok h => hfile event content hok ?_, e, hw.dead e he, hsame⟩
    exact ⟨h.supported, hw.files ▸ h.file, h.size, h.scan, h.concurrency⟩

/-! ## One message -/

namespace Capable

variable {E : Environment calls Exn World} {event : TransferEvent} {m : Message} (tag : Nat)

/-- The message goes to the dead-letter queue. -/
theorem executes_dead (hE : Capable settings E) (hopen : w.channelOpen = true) (m' : Message) :
    Executes E (TransferWorker.call (.basicPublish settings.dlqName m') >>= fun _ =>
      TransferWorker.call (.basicAck tag)) w (.ok ())
      (((w.publish settings .consumer settings.dlqName m').confirm .consumer m').ack tag) :=
  hE.call_bind (.basicPublish _ _) () ⟨fun _ => hopen, rfl⟩ trivial
    (hE.call (.basicAck tag) () ⟨hopen, rfl⟩ trivial)

/-- An event goes to the dead-letter queue when its file cannot be uploaded. -/
theorem executes_deadLetter_resolved (hE : Capable settings E) (hd : settings.Distinct)
    (hopen : w.channelOpen = true) (hm : TransferEvent.fromJsonBytes m.body = .ok event)
    (hfile : ∀ content, ¬Uploadable settings w event content) (reason : String) :
    ∃ w', Executes E (Consumer.deadLetter settings tag event reason) w (.ok ()) (w'.ack tag) ∧
      w.Beside settings w' ∧ w'.Resolved settings m.body := by
  refine ⟨_, hE.executes_dead tag hopen _, beside_dead hd _, .inr ⟨fun event' content hok h => ?_, ?_⟩⟩
  · cases hm.symm.trans hok
    exact hfile content ⟨h.supported, h.file, h.size, h.scan, h.concurrency⟩
  · obtain ⟨e, he, hmessage⟩ := mem_dead settings w
      (Publisher.message event none (some [("x-dlq-reason", reason)]))
    refine ⟨e, he, ?_⟩
    rw [hmessage]
    exact sameMessage_of_ok hm (Publisher.fromJsonBytes_message _ _ _) rfl rfl

/-- The scan of a file that is too large. -/
theorem executes_scan_large (hE : Capable settings E) {path : Path} {content : ByteArray}
    (hfile : w.files path = some content) (hsize : settings.maxCsvFileSizeBytes < (content.size : Int)) :
    Executes E (scanCsvFile path settings) w
      (.ok ["file_too_large:" ++ toString content.size ++ ">" ++ toString settings.maxCsvFileSizeBytes])
      (w.note fun h => { h with sized := some content.size }) := by
  refine hE.call_bind (.getsize path) content.size ⟨⟨content, hfile, rfl⟩, rfl⟩ trivial ?_
  rw [if_pos hsize]
  exact .ret

/-- The scan of any other file. -/
theorem executes_scan_read (hE : Capable settings E) {path : Path} {content : ByteArray}
    {issues : List String} (hfile : w.files path = some content)
    (hsize : ¬settings.maxCsvFileSizeBytes < (content.size : Int)) (hissues : scanBytes content = .ok issues) :
    Executes E (scanCsvFile path settings) w (.ok issues) (w.scannedAs content) := by
  refine hE.call_bind (.getsize path) content.size ⟨⟨content, hfile, rfl⟩, rfl⟩ trivial ?_
  rw [if_neg hsize]
  refine hE.call_bind (.readFile path) content ⟨hfile, rfl⟩ ⟨issues, hissues⟩ ?_
  rw [hissues]
  exact .ret

/-- An event whose file has issues goes to the dead-letter queue. -/
theorem executes_handleSource_issues (hE : Capable settings E) (hd : settings.Distinct)
    (hopen : w.channelOpen = true) (hm : TransferEvent.fromJsonBytes m.body = .ok event)
    {content : ByteArray} (hfile : w.files (fsencode event.source.path) = some content)
    {issues : List String} (hne : issues ≠ [])
    (hscan : Executes E (scanCsvFile (fsencode event.source.path) settings) w (.ok issues) w'')
    (hbeside : w.Beside settings w'') (hbad : ∀ content', ¬Uploadable settings w'' event content') :
    ∃ w', Executes E (Consumer.handleSource settings tag event) w (.ok ()) (w'.ack tag) ∧
      w.Beside settings w' ∧ w'.Resolved settings m.body := by
  obtain ⟨w', hdead, hbeside', hresolved⟩ := hE.executes_deadLetter_resolved tag hd
    (hbeside.channelOpen.trans hopen) hm hbad "csv_security_check_failed"
  have hanswer : w.normal settings .consumer (.isfile (fsencode event.source.path)) true w :=
    ⟨fun _ => by rw [hfile]; rfl, rfl⟩
  refine ⟨w', hE.call_bind _ true hanswer trivial (hscan.bind ?_), hbeside.trans hbeside', hresolved⟩
  rw [if_pos hne]
  exact hdead

/-- **The source file and the scan**, whatever the file is. -/
theorem executes_handleSource_any (hE : Capable settings E) (hd : settings.Distinct)
    (hconc : 1 ≤ settings.uploadMaxConcurrency) (hopen : w.channelOpen = true) (hscan : w.Scannable)
    (hm : TransferEvent.fromJsonBytes m.body = .ok event) :
    ∃ w', Executes E (Consumer.handleSource settings tag event) w (.ok ()) (w'.ack tag) ∧
      w.Beside settings w' ∧ w'.Resolved settings m.body := by
  cases hfile : w.files (fsencode event.source.path) with
  | none =>
      -- without its file the event cannot be uploaded
      have habsent : ∀ content, ¬Uploadable settings w event content := by
        intro content h
        exact Option.some_ne_none content (h.file.symm.trans hfile)
      obtain ⟨w', hdead, hbeside, hresolved⟩ := hE.executes_deadLetter_resolved tag hd hopen hm
        habsent "source_file_missing"
      have hanswer : w.normal settings .consumer (.isfile (fsencode event.source.path)) false w :=
        ⟨fun h => absurd h Bool.false_ne_true, rfl⟩
      refine ⟨w', ?_, hbeside, hresolved⟩
      exact hE.call_bind (.isfile _) false hanswer trivial hdead
  | some content =>
      have hcontent : ∀ {v content'}, w.Beside settings v → Uploadable settings v event content' →
          content' = content := fun hv h =>
        Option.some.inj (h.file.symm.trans ((congrFun hv.files _).trans hfile))
      by_cases hsize : settings.maxCsvFileSizeBytes < (content.size : Int)
      · refine hE.executes_handleSource_issues tag hd hopen hm hfile (List.cons_ne_nil _ _)
          (hE.executes_scan_large hfile hsize) (beside_note _) fun content' h => ?_
        rw [hcontent (beside_note _) h] at h
        exact not_le.2 hsize h.size
      · obtain ⟨issues, hissues⟩ := hscan _ _ hfile
        have hbeside : w.Beside settings (w.scannedAs content) := (beside_note _).trans (beside_note _)
        cases issues with
        | nil =>
            -- without issues the file is uploaded
            have hupload : Executes E (Consumer.handleUpload settings tag event) (w.scannedAs content)
                (.ok ()) _ := hE.executes_handleUpload hconc hopen hfile
            exact ⟨_, hE.executes_handleSource hfile (not_lt.1 hsize) hissues hupload,
              hbeside.trans beside_upload, .inl ⟨event, hm, mem_doneKeys_markDone _ _ _⟩⟩
        | cons issue issues =>
            refine hE.executes_handleSource_issues tag hd hopen hm hfile (List.cons_ne_nil _ _)
              (hE.executes_scan_read hfile hsize hissues) hbeside fun content' h => ?_
            rw [hcontent hbeside h] at h
            exact List.cons_ne_nil _ _ (Except.ok.inj (hissues.symm.trans h.scan))

/-- **`_handle` settles any message** whose version can be read, and returns. -/
theorem executes_handle_any (hE : Capable settings E) (hd : settings.Distinct)
    (hconc : 1 ≤ settings.uploadMaxConcurrency) (hopen : w.channelOpen = true) (hscan : w.Scannable)
    (hreadable : m.Readable) :
    ∃ w', Executes E (Consumer.handle settings tag m) w (.ok ()) (w'.ack tag) ∧
      w.Beside settings w' ∧ w'.Resolved settings m.body := by
  cases hm : TransferEvent.fromJsonBytes m.body with
  | error e =>
      -- an undecodable body is dead-lettered as it is
      have hraw : ∃ m' : Message, Consumer.handle settings tag m =
          (TransferWorker.call (.basicPublish settings.dlqName m') >>= fun _ =>
            TransferWorker.call (.basicAck tag)) ∧ m'.body = m.body := by
        simp only [Consumer.handle, hm]
        exact ⟨_, rfl, rfl⟩
      obtain ⟨m', hhandle, hbody⟩ := hraw
      refine ⟨_, hhandle ▸ hE.executes_dead tag hopen m', beside_dead hd _, .inr ⟨?_, ?_⟩⟩
      · intro event content hok
        cases hm.symm.trans hok
      · obtain ⟨e', he, hmessage⟩ := mem_dead settings w m'
        refine ⟨e', he, ?_⟩
        rw [hmessage, hbody]
        exact .refl _
  | ok event =>
      cases hsupported : event.assertSupported with
      | error e =>
          -- another major version is dead-lettered
          obtain ⟨text, rfl⟩ := hreadable event hm e hsupported
          have hold : ∀ content, ¬Uploadable settings w event content := by
            intro content h
            cases hsupported.symm.trans h.supported
          obtain ⟨w', hdead, hbeside, hresolved⟩ := hE.executes_deadLetter_resolved tag hd hopen hm
            hold "unsupported_schema_version"
          refine ⟨w', ?_, hbeside, hresolved⟩
          simp only [Consumer.handle, hm, hsupported]
          exact hdead
      | ok u =>
          by_cases hdone : event.idempotencyKey.val ∈ w.doneKeys
          · exact ⟨w, hE.executes_handle_done hm hsupported hdone hopen, .refl, .inl ⟨event, hm, hdone⟩⟩
          · obtain ⟨w', hsource, hbeside, hresolved⟩ := hE.executes_handleSource_any tag hd hconc
              hopen hscan hm
            exact ⟨w', hE.executes_handle hm hsupported hdone hsource, hbeside, hresolved⟩

end Capable

/-! ## All messages -/

/-- The consumer is ready, and no delivery is open. -/
structure World.Vacant (w : World) : Prop extends Idle w where
  /-- Every delivery was acknowledged. -/
  unacked : w.unacked = []

/-- **The next message is settled.** -/
theorem Serves.runs_next {H : Host calls Exn World Unit} (hH : Serves settings H)
    (hconc : 1 ≤ settings.uploadMaxConcurrency) {e : Entry} {rest : List Entry} (hw : w.Vacant)
    (hscan : w.Scannable) (hq : w.queue settings.queueName = e :: rest)
    (hreadable : e.message.Readable) :
    ∃ w', H.Runs (w, .head ()) (w', .head ()) ∧ w'.Vacant ∧ w'.queue settings.queueName = rest ∧
      w'.queue settings.retryQueueName = w.queue settings.retryQueueName ∧ w.Onward settings w' ∧
      w'.Resolved settings e.message.body := by
  have hd := hH.distinct
  obtain ⟨v, hhandle, hbeside, hresolved⟩ := hH.capable.executes_handle_any w.nextTag
    (w := w.fetchNext settings e rest) hd hconc hw.channelOpen hscan hreadable
  have hrun := hH.runs_delivery hw.toIdle hq hreadable hhandle
  have hunacked : v.unacked = w.unacked ++ [(w.nextTag, e)] := hbeside.unacked
  have hidle : (v.ack w.nextTag).Idle := hw.toIdle.ack (e := e) hbeside.channelOpen hbeside.stop
    hbeside.buffered hbeside.prefetch hunacked
  refine ⟨v.ack w.nextTag, hrun, ⟨hidle, ?_⟩, ?_, ?_, ?_, ?_⟩
  · show v.unacked.filter (fun d => d.1 ≠ w.nextTag) = []
    rw [hunacked, hw.unacked]
    simp
  · exact hbeside.main.trans (setQueue_self ..)
  · exact hbeside.retry.trans (setQueue_ne _ hd.retry_ne_main _)
  · refine ⟨hbeside.files, hbeside.accepted, hbeside.done, fun e' he => hbeside.dead e' ?_⟩
    show e' ∈ (w.setQueue settings.queueName rest).queue settings.dlqName
    rwa [setQueue_ne _ hd.dlq_ne_main]
  · exact hresolved.onward ⟨rfl, rfl, fun _ h => h, fun _ h => h⟩

/-- **The messages of the main queue are settled**, one after the other. -/
theorem Serves.runs_main {H : Host calls Exn World Unit} (hH : Serves settings H)
    (hconc : 1 ≤ settings.uploadMaxConcurrency) (entries : List Entry) (hw : w.Vacant)
    (hscan : w.Scannable) (hq : w.queue settings.queueName = entries)
    (hreadable : ∀ e ∈ entries, e.message.Readable) :
    ∃ w', H.Runs (w, .head ()) (w', .head ()) ∧ w'.Vacant ∧ w'.queue settings.queueName = [] ∧
      w'.queue settings.retryQueueName = w.queue settings.retryQueueName ∧ w.Onward settings w' ∧
      ∀ e ∈ entries, w'.Resolved settings e.message.body := by
  induction entries generalizing w with
  | nil => exact ⟨w, .refl, hw, hq, rfl, .refl, fun _ he => absurd he List.not_mem_nil⟩
  | cons e rest ih =>
      rw [List.forall_mem_cons] at hreadable
      obtain ⟨v, hrun, hv, hmain, hretry, honward, hresolved⟩ := hH.runs_next hconc hw hscan hq hreadable.1
      have hscan' : v.Scannable := fun path content hfile => hscan path content (honward.files ▸ hfile)
      obtain ⟨w', hrun', hw', hmain', hretry', honward', hresolved'⟩ := ih hv hscan' hmain hreadable.2
      exact ⟨w', hrun.trans hrun', hw', hmain', hretry'.trans hretry, honward.trans honward',
        List.forall_mem_cons.2 ⟨hresolved.onward honward', hresolved'⟩⟩

/-- **The messages of the retry queue expire**, one after the other. -/
theorem Serves.runs_expire_all {H : Host calls Exn World Unit} (hH : Serves settings H)
    (entries : List Entry) (hw : w.Vacant) (hq : w.queue settings.retryQueueName = entries) :
    ∃ w', H.Runs (w, .head ()) (w', .head ()) ∧ w'.Vacant ∧
      w'.queue settings.queueName = w.queue settings.queueName ++ entries ∧
      w'.queue settings.retryQueueName = [] ∧ w.Onward settings w' := by
  induction entries generalizing w with
  | nil => exact ⟨w, .refl, hw, (List.append_nil _).symm, hq, .refl⟩
  | cons e rest ih =>
      have hd := hH.distinct
      have hrun := hH.runs_expire hq (.head ())
      have hmain : (w.expireNext settings e rest).queue settings.queueName =
          w.queue settings.queueName ++ [e] := by
        refine (setQueue_self ..).trans ?_
        rw [setQueue_ne _ hd.retry_ne_main.symm]
      have hretry : (w.expireNext settings e rest).queue settings.retryQueueName = rest :=
        (setQueue_ne _ hd.retry_ne_main _).trans (setQueue_self ..)
      have honward : w.Onward settings (w.expireNext settings e rest) := by
        refine ⟨rfl, rfl, fun _ h => h, fun e' he => ?_⟩
        have hdead : (w.expireNext settings e rest).queue settings.dlqName = w.queue settings.dlqName :=
          (setQueue_ne _ hd.dlq_ne_main _).trans (setQueue_ne _ hd.dlq_ne_retry _)
        rwa [hdead]
      obtain ⟨w', hrun', hw', hmain', hretry', honward'⟩ := ih
        (w := w.expireNext settings e rest) ⟨hw.toIdle.expireNext, hw.unacked⟩ hretry
      refine ⟨w', hrun.trans hrun', hw', ?_, hretry', honward.trans honward'⟩
      rw [hmain', hmain, List.append_assoc]
      rfl

/-- A new process after a crash has the deliveries back on the main queue. -/
theorem World.connected_crash (hd : settings.Distinct) (w : World) :
    ((w.crash settings).connected settings).Vacant ∧
      ((w.crash settings).connected settings).queue settings.queueName =
        w.unacked.map Prod.snd ++ w.queue settings.queueName ∧
      ((w.crash settings).connected settings).queue settings.retryQueueName =
        w.queue settings.retryQueueName ∧
      w.Onward settings ((w.crash settings).connected settings) := by
  have hne : ∀ q, q ≠ settings.queueName →
      ((w.crash settings).connected settings).queue q = w.queue q := by
    intro q hq
    exact (connected_queue_ne hq).trans (setQueue_ne _ hq _)
  refine ⟨⟨idle_connected rfl, rfl⟩, ?_, hne _ hd.retry_ne_main, rfl, rfl, fun _ h => h, fun e he => ?_⟩
  · rw [connected_queue]
    exact setQueue_self ..
  · rwa [hne _ hd.dlq_ne_main]

/-- **From every state there is a way to the end**: whatever the world is like and wherever the consumer
is, if the versions of the waiting messages can be read and the files scanned, there is a run after which
no message waits, every one that did is settled, and no file was touched on the way. -/
theorem can_always_finish (hd : settings.Distinct) (hconc : 1 ≤ settings.uploadMaxConcurrency) (w : World)
    (φ : Phase calls Exn Unit) (hscan : w.Scannable)
    (hreadable : ∀ m ∈ w.waiting settings, m.Readable) :
    ∃ w', (consumerHost settings).Runs (w, φ) (w', .head ()) ∧ w'.waiting settings = [] ∧
      w.Onward settings w' ∧ ∀ m ∈ w.waiting settings, w'.Resolved settings m.body := by
  have hH := (consumerHost_admits hd).serves
  obtain ⟨hvacant, hmain, hretry, honward⟩ := connected_crash hd w
  have hrestart : (consumerHost settings).Runs (w, φ) (w.crash settings, .setup _) :=
    .single (.restart rfl)
  have hconnect := hH.runs_connect (w := w.crash settings)
  obtain ⟨v, hexpire, hv, hvmain, hvretry, hvonward⟩ := hH.runs_expire_all _ hvacant hretry
  rw [hmain] at hvmain
  have hscan' : v.Scannable := fun path content hfile =>
    hscan path content ((honward.trans hvonward).files ▸ hfile)
  have hentries : ∀ e ∈ w.unacked.map Prod.snd ++ w.queue settings.queueName ++
      w.queue settings.retryQueueName, e.message.Readable := fun e he =>
    hreadable e.message (List.mem_map_of_mem he)
  obtain ⟨w', hsettle, hw', hmain', hretry', honward', hresolved⟩ :=
    hH.runs_main hconc _ hv hscan' hvmain hentries
  refine ⟨w', ((hrestart.trans hconnect).trans hexpire).trans hsettle, ?_,
    (honward.trans hvonward).trans honward', fun m hm => ?_⟩
  · rw [waiting, hw'.unacked, hmain', hretry', hvretry]
    rfl
  · obtain ⟨e, he, rfl⟩ := List.mem_map.1 hm
    exact hresolved e he

/-- An event whose retry message waits is uploaded in the end, wherever the consumer was. -/
theorem can_always_finish_sample : ∃ (content : ByteArray) (w' : World),
    (consumerHost {}).Runs
      ((World.fresh content).push ({} : Settings).retryQueueName
        ⟨Publisher.message .sample none none, []⟩, .terminated (.ok ())) (w', .head ()) ∧
      w'.waiting {} = [] ∧ w'.Done (Publisher.message .sample none none).body := by
  obtain ⟨content, hcontent⟩ := exists_scannable
  let m := Publisher.message .sample none none
  let w := (World.fresh content).push ({} : Settings).retryQueueName ⟨m, []⟩
  have hdecodes : TransferEvent.fromJsonBytes m.body = .ok .sample :=
    Publisher.fromJsonBytes_message _ _ _
  have hwaiting : w.waiting {} = [m] := rfl
  have hreadable : ∀ m' ∈ w.waiting {}, m'.Readable := by
    intro m' hm'
    rw [hwaiting, List.mem_singleton] at hm'
    rw [hm']
    exact .of_supported hdecodes TransferEvent.sample_supported
  have hscan : w.Scannable := by
    intro path content' hfile
    rw [← Option.some.inj hfile]
    exact ⟨[], hcontent.2⟩
  obtain ⟨w', hrun, hdone, honward, hresolved⟩ :=
    can_always_finish distinct_default (by decide) w (.terminated (.ok ())) hscan hreadable
  refine ⟨content, w', hrun, hdone, ?_⟩
  rcases hresolved m (by rw [hwaiting]; exact List.mem_singleton_self m) with hkey | ⟨hfile, -⟩
  · exact hkey
  · exact absurd (uploadable_of_files hcontent honward.files TransferEvent.sample_supported)
      (hfile _ _ hdecodes)

end TransferWorker
