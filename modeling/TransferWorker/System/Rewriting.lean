import TransferWorker.System.Convergence

/-! # Files that are written again and again

Fault-free runs of the whole process in which the files are written with any contents in any order: no call
fails, no upload fails or times out, every write is complete and told of. At the end of such a run the
destinations of a file need not hold what is in it: the store never forgets a key, and a content that is put
back has the key that it had before.

* **`faultFree`** — the runs; `Quiescent` — nothing is left to do.
* **`destinations_hold_files`** — when every write is one that the process can account for
  (`World.Admits`), every destination holds its file as soon as nothing is left to do.
* **`restored_content_skipped`** — a file whose content is replaced and put back. -/

namespace TransferWorker

open CallTrees World

/-! ## Fault-free runs -/

/-- **The moves of a fault-free run**: a file is written completely, with a content that `may` be written then;
the observer tells of it; a message is delivered; an upload reads its file or stores what it has read. -/
inductive World.Advances (S : Site) (may : World → String → ByteArray → Prop) (w : World) : World → Prop
  /-- A file of the site, or one whose name is not UTF-8, is written. -/
  | write {path : Path} {content : ByteArray} (h : (∃ name ∈ S.names, path = fsencode name ∧
      content ∈ S.contents name ∧ may w name content) ∨ String.fromUTF8? path = none) :
      Advances S may w (w.wrote path content)
  /-- The handler of the observer is told of it. -/
  | closed {event : FileSystemEvent} {rest : List FileSystemEvent} (h : w.notices = event :: rest) :
      Advances S may w
        { w with notices := rest, fileQueue := DetectedFileHandler.onClosed event w.fileQueue }
  /-- The head of the main queue is delivered. -/
  | deliver (e : Entry) (rest : List Entry) : Advances S may w (w.deliver S.settings e rest)
  /-- An upload makes progress, and does not fail. -/
  | upload {run : UploadRun} {objects : ObjectId → Option ByteArray}
      (h : ∀ p ∈ run.parts, ∀ cls, p.state = .failed cls → ∃ r, w.active = some r ∧ p ∈ r.parts) :
      Advances S may w { w with objects := objects, active := some run }

/-- **The steps of a fault-free run**: every call returns, the watcher recognises the files that are there, the
uploads return in time, and what the consumer reads can be scanned. The process is not killed. -/
def faultFree (S : Site) (may : World → String → ByteArray → Prop) :
    Pool.Condition calls Exn World Thread where
  call t w op r := ∃ x, r = .ok x ∧ (t = .watcher → op.Truthful w x) ∧ (t = .consumer → op.Faultless x)
  move w w' := w.Advances S may w'
  restart _ := False

/-- **The fault-free runs of the process at a site.** -/
def writing (S : Site) (may : World → String → ByteArray → Prop) :
    Pool calls Exn World (fun _ : Thread => Unit) :=
  (process S.H S.cwd S.settings).under (faultFree S may)

/-- Any content of the site may be written at any time. -/
def always : World → String → ByteArray → Prop := fun _ _ _ => True

/-- Every key of the file may stand for a content. -/
def anyKey : String → ByteArray → String → Prop := fun _ _ _ => True

/-- **The worlds before anything is written**, in which the watcher has not looked at a path yet. -/
structure World.Blank (w : World) : Prop extends World.Pristine w where
  /-- No path was taken. -/
  inspections : w.inspections = []

/-- **Nothing is left to do**: the watcher is at its loop head and will be told of nothing, and no message is
in the broker. -/
structure Quiescent (settings : Settings) (s : World × (Thread → Phase calls Exn Unit)) : Prop where
  /-- The watcher is at the head of its loop. -/
  watcher : s.2 .watcher = .head ()
  /-- The observer has told of everything. -/
  notices : s.1.notices = []
  /-- The watcher's queue is empty. -/
  fileQueue : s.1.fileQueue = []
  /-- The main queue is empty. -/
  main : s.1.queue settings.queueName = []
  /-- The retry queue is empty. -/
  retry : s.1.queue settings.retryQueueName = []
  /-- Nothing is on the dead-letter queue. -/
  dlq : s.1.queue settings.dlqName = []
  /-- Nothing is unacknowledged. -/
  unacked : s.1.unacked = []

variable {S : Site} {may : World → String → ByteArray → Prop} {w w' : World}

/-- The moves of a fault-free run disturb nothing. -/
theorem World.Advances.undisturbed (h : w.Advances S may w') : w.UndisturbedBy S may w' := by
  cases h with
  | @write path content h =>
      refine ⟨rfl, rfl, fun path' content' hcontent => ?_⟩
      have hfile : Function.update w.files path (some content) path' = some content' := hcontent
      by_cases hpath : path' = path
      · subst hpath
        rw [Function.update_self] at hfile
        obtain rfl := Option.some.inj hfile
        exact .inr h
      · rw [Function.update_of_ne hpath] at hfile
        exact .inl hfile
  | closed _ => exact ⟨rfl, rfl, fun _ _ => .inl⟩
  | deliver _ _ => exact ⟨rfl, rfl, fun _ _ => .inl⟩
  | upload _ => exact ⟨rfl, rfl, fun _ _ => .inl⟩

/-- In a fault-free run the watcher is not hindered. -/
theorem unhindered_of_faultFree {op : Op} {r : Except Exn (Res op)}
    (h : (faultFree S may).call .watcher w op r) : w.Unhindered op r := by
  obtain ⟨x, rfl, htrue, -⟩ := h
  cases op with
  | isfile path =>
      intro hfalse
      have hregular : x = (w.files path).isSome := htrue rfl
      rw [Except.ok.inj hfalse] at hregular
      simpa using hregular.symm
  | _ => trivial

/-- A fault-free run whose writes are accounted for is one of the runs in which the watcher announces every
content. -/
theorem reachable_writing {R : String → ByteArray → String → Prop} {s : (writing S may).State}
    (hmay : ∀ w name content, may w name content → w.Admits S R name content)
    (hs : (writing S may).Reachable World.Blank s) :
    (pipelineBy S R).Reachable (World.Initial S R) s := by
  have hle : (faultFree S may).Le (process S.H S.cwd S.settings) (pipelineByCondition S R) := by
    refine ⟨?_, fun w w' _ h => ?_, fun _ h => h⟩
    · rintro t w op r h rfl
      exact unhindered_of_faultFree h
    · obtain ⟨haccepted, hruns, hfiles⟩ := h.undisturbed
      refine ⟨haccepted, hruns, fun path content hcontent => (hfiles path content hcontent).imp_right ?_⟩
      exact .imp_left fun ⟨name, hname, hpath, hmem, h⟩ => ⟨name, hname, hpath, hmem, hmay _ _ _ h⟩
  obtain ⟨w₀, hw₀, hrun⟩ := Pool.reachable_under_mono hle hs
  refine ⟨w₀, ⟨hw₀.toPristine, ?_⟩, hrun⟩
  rintro name content key - ⟨n, digested, hfound, -⟩
  rw [World.finding, hw₀.inspections] at hfound
  cases hfound

/-! ## What a fault-free run can do -/

/-- The watcher gets every true answer. -/
theorem observes_faultFree (S : Site) (may : World → String → ByteArray → Prop) :
    Observes S.settings (threadWorld S.settings (faultFree S may) .watcher) :=
  fun _ htrue h => ⟨h, _, rfl, fun _ => htrue, fun hconsumer => by cases hconsumer⟩

/-- The consumer gets every answer without a fault, and uploads proceed. -/
theorem capable_faultFree (S : Site) (may : World → String → ByteArray → Prop) :
    Capable S.settings (threadWorld S.settings (faultFree S may) .consumer) where
  answers h hx := ⟨h, _, rfl, (fun hwatcher => by cases hwatcher), fun _ => hx⟩
  copies {w run before after d content} hconc hactive halive hparts hfile := by
    let fetched : UploadRun := { run with parts := before ++ ⟨d, .fetched content⟩ :: after }
    let stored : UploadRun := { run with parts := before ++ ⟨d, .stored content⟩ :: after }
    obtain ⟨hread, hstore⟩ := moves_of_pending hconc hactive halive hparts hfile
    -- the part that moves does not fail
    have hfine : ∀ {s s' : PartState} {before after : List Part}, (∀ cls, s' ≠ .failed cls) →
        ∀ p ∈ before ++ ⟨d, s'⟩ :: after, ∀ cls, p.state = .failed cls → p ∈ before ++ ⟨d, s⟩ :: after := by
      intro s s' before after hs p hp cls hfailed
      rcases mem_parts_moved (p := ⟨d, s⟩) hp with rfl | hp
      · exact absurd hfailed (hs cls)
      · exact hp
    have hreads : w.Advances S may { w with active := some fetched } :=
      .upload fun p hp cls hfailed => ⟨run, hactive, hparts ▸ hfine (by simp) p hp cls hfailed⟩
    have hstores : World.Advances S may { w with active := some fetched }
        { w.copyTo content [d] with active := some stored } :=
      .upload fun p hp cls hfailed => ⟨fetched, rfl, hfine (by simp) p hp cls hfailed⟩
    exact .head ⟨hread, hreads⟩ (.single ⟨hstore, hstores⟩)

/-- Whether a thread runs is a matter of what was started. -/
theorem World.Running.of_eq {t : Thread} (h : w.Running t) (hstarted : w'.started = w.started) :
    w'.Running t := by
  cases t with
  | main => trivial
  | watcher => exact (congrFun hstarted _).trans h
  | consumer => exact (congrFun hstarted _).trans h

/-- **Nothing is underway**: the threads run, no message is in the broker, and the watcher will be told of
nothing. -/
structure World.Resting (w : World) : Prop extends World.Idle w where
  /-- All threads run. -/
  running : ∀ t, w.Running t
  /-- The observer has told of everything. -/
  notices : w.notices = []
  /-- The watcher's queue is empty. -/
  fileQueue : w.fileQueue = []
  /-- No queue has a message. -/
  queue : w.queue = fun _ => []
  /-- Nothing is unacknowledged. -/
  unacked : w.unacked = []

/-- **One message is underway**, on the main queue. -/
structure World.Waiting (settings : Settings) (e : Entry) (w : World) : Prop extends World.Idle w where
  /-- All threads run. -/
  running : ∀ t, w.Running t
  /-- The observer has told of everything. -/
  notices : w.notices = []
  /-- The watcher's queue is empty. -/
  fileQueue : w.fileQueue = []
  /-- The message is the only one. -/
  queue : w.queue = Function.update (fun _ => []) settings.queueName [e]
  /-- Nothing is unacknowledged. -/
  unacked : w.unacked = []

/-- When nothing is underway nothing is left to do. -/
theorem World.Resting.quiescent (h : w.Resting) (settings : Settings) :
    Quiescent settings (w, fun _ => .head ()) where
  watcher := rfl
  notices := h.notices
  fileQueue := h.fileQueue
  main := congrFun h.queue _
  retry := congrFun h.queue _
  dlq := congrFun h.queue _
  unacked := h.unacked

/-- The message that is underway is the next one. -/
theorem World.Waiting.next {settings : Settings} {e : Entry} (h : w.Waiting settings e) :
    w.queue settings.queueName = e :: [] := by
  rw [h.queue, Function.update_self]

namespace World

variable (S : Site) (w : World) (name : String) (s : Sighting)

/-- The entry of the event that the watcher publishes for a file. -/
def entryOf : Entry := ⟨Publisher.message (s.event S.H S.cwd name S.settings) none none, []⟩

/-- A file was written, and its event published. -/
def told : World :=
  (w.reports (fsencode name) s.content).announced S.settings (fsencode name) [] s
    (s.event S.H S.cwd name S.settings)

/-- It was copied, too. -/
def rewritten : World :=
  (w.told S name s).uploadNext S.settings (entryOf S name s) [] (s.event S.H S.cwd name S.settings) s.content

/-- Or its event was skipped. -/
def skipped : World := (w.told S name s).skipNext S.settings (entryOf S name s) []

end World

variable {s : Sighting} {name : String}

/-- The event of a file is underway. -/
theorem World.Resting.told (h : w.Resting) : (w.told S name s).Waiting S.settings (entryOf S name s) where
  toIdle := ⟨h.channelOpen, h.stop, h.buffered, h.room⟩
  running t := (h.running t).of_eq rfl
  notices := rfl
  fileQueue := rfl
  queue := by
    have hqueue : Function.update w.queue S.settings.queueName (w.queue S.settings.queueName ++
        [entryOf S name s]) = Function.update (fun _ => []) S.settings.queueName [entryOf S name s] := by
      rw [h.queue, List.nil_append]
    exact hqueue
  unacked := h.unacked

/-- When the message was skipped, nothing is underway. -/
theorem World.Waiting.skipNext {settings : Settings} {e : Entry} (h : w.Waiting settings e) :
    (w.skipNext settings e []).Resting where
  toIdle := by refine h.toIdle.ack (e := e) ?_ ?_ ?_ ?_ ?_ <;> rfl
  running t := (h.running t).of_eq rfl
  notices := h.notices
  fileQueue := h.fileQueue
  queue := by
    have hqueue : Function.update w.queue settings.queueName [] = fun _ => [] := by
      rw [h.queue, Function.update_idem]
      exact Function.update_eq_self settings.queueName (fun _ => [])
    exact hqueue
  unacked := by
    have hunacked : (w.unacked ++ [(w.nextTag, e)]).filter (fun d => d.1 ≠ w.nextTag) = [] := by
      simp [h.unacked]
    exact hunacked

/-- Nor when it was uploaded. -/
theorem World.Waiting.uploadNext {settings : Settings} {e : Entry} {event : TransferEvent}
    {content : ByteArray} (h : w.Waiting settings e) :
    (w.uploadNext settings e [] event content).Resting := by
  have hskip := h.skipNext
  unfold World.uploadNext World.markDone
  split <;> exact ⟨⟨hskip.channelOpen, hskip.stop, hskip.buffered, hskip.room⟩,
    fun t => (h.running t).of_eq rfl, hskip.notices, hskip.fileQueue, hskip.queue, hskip.unacked⟩

/-- Uploads store the content in every object that they are for. -/
theorem World.copyTo_objects {ds : List Destination} {o : ObjectId}
    (h : o ∈ ds.map Destination.object ∨ w.objects o = some content) :
    (w.copyTo content ds).objects o = some content := by
  induction ds generalizing w with
  | nil => exact h.resolve_left List.not_mem_nil
  | cons d ds ih =>
      have hnext : ((w.copyTo content [d]).copyTo content ds).objects o = some content := by
        refine ih ?_
        by_cases ho : o = d.object
        · right
          rw [ho]
          exact Function.update_self ..
        · refine h.imp (fun hmem => ?_) fun hobject => (Function.update_of_ne ho ..).trans hobject
          exact (List.mem_cons.1 hmem).resolve_left ho
      exact hnext

/-- The keys in the store after an insertion. -/
theorem World.mem_doneKeys_markDone_iff {key key' correlationId : String} :
    key' ∈ (w.markDone key correlationId).doneKeys ↔ key' ∈ w.doneKeys ∨ key' = key := by
  unfold World.markDone
  split
  · rename_i hmem
    exact ⟨.inl, fun h => h.elim id fun heq => heq ▸ hmem⟩
  · simp [World.doneKeys]

/-- **A content of a file that can be copied**, with what the watcher is told about it. -/
structure Sighting.Copyable (S : Site) (name : String) (s : Sighting) : Prop where
  /-- The file is one of the site. -/
  mem : name ∈ S.names
  /-- The content is one that it may have. -/
  content : s.content ∈ S.contents name
  /-- The size is that of the content. -/
  size : s.size = s.content.size
  /-- It is within the size limit. -/
  limit : (s.content.size : Int) ≤ S.settings.maxCsvFileSizeBytes
  /-- The scan finds nothing. -/
  scan : scanBytes s.content = .ok []

/-- The key of the event is that of the content. -/
theorem Sighting.Copyable.key (h : s.Copyable S name) :
    (s.event S.H S.cwd name S.settings).idempotencyKey.val = S.key name s.content :=
  congrArg (fun n => computeIdempotencyKey S.H S.settings.correlationSecret name n (S.H.sha256 s.content))
    h.size

section rewritten

/-- Every destination of the file holds the content. -/
theorem rewritten_objects {o : ObjectId} (ho : o ∈ S.objects name) :
    (w.rewritten S name s).objects o = some s.content := by
  have hcopied : ∀ v : World, (v.copyTo s.content
      (s.event S.H S.cwd name S.settings).destinations.val).objects o = some s.content :=
    fun v => v.copyTo_objects (.inl ho)
  unfold World.rewritten World.uploadNext World.markDone
  split <;> exact hcopied _

/-- The file holds it. -/
theorem rewritten_files : (w.rewritten S name s).files (fsencode name) = some s.content :=
  (congrFun uploadNext_frame.1 _).trans (World.reports_files ..)

/-- The keys in the store are those before and the one of the content. -/
theorem mem_doneKeys_rewritten (h : s.Copyable S name) {key : String} :
    key ∈ (w.rewritten S name s).doneKeys ↔ key ∈ w.doneKeys ∨ key = S.key name s.content := by
  rw [← h.key]
  exact World.mem_doneKeys_markDone_iff

/-- One run has ended more, for the event. -/
theorem rewritten_runs : (w.rewritten S name s).runs = w.runs ++
    [.complete (s.event S.H S.cwd name S.settings) (fsencode name) s.content] :=
  World.uploadNext_runs

/-- No run is in progress. -/
theorem rewritten_active : (w.rewritten S name s).active = none := by
  unfold World.rewritten World.uploadNext World.markDone
  split <;> rfl

/-- The event's identifiers were handed out. -/
theorem rewritten_uuids : (w.rewritten S name s).uuids = s.correlationId.val :: s.eventId.val :: w.uuids := by
  unfold World.rewritten World.uploadNext World.markDone
  split <;> rfl

/-- A file whose event was skipped holds the content. -/
theorem skipped_files : (w.skipped S name s).files (fsencode name) = some s.content := World.reports_files ..

/-- The objects are as before. -/
theorem skipped_objects : (w.skipped S name s).objects = w.objects := rfl

end rewritten

section runs

variable (h : w.Resting) (hs : s.Copyable S name) (hmay : may w name s.content)
  (hevent : s.eventId.val ∉ w.uuids) (hcorrelation : s.correlationId.val ∉ s.eventId.val :: w.uuids)

include h hs hmay hevent hcorrelation

/-- **A file is written, and its event published.** -/
theorem runs_told : (writing S may).Runs (w, fun _ => .head ()) (w.told S name s, fun _ => .head ()) := by
  have hname : String.fromUTF8? (fsencode name) = some name := Json.fromUTF8?_toUTF8 name
  have hwrote : w.Advances S may (w.wrote (fsencode name) s.content) :=
    .write (.inl ⟨name, hs.mem, rfl, hs.content, hmay⟩)
  have hnotice : (w.wrote (fsencode name) s.content).notices = ⟨false, fsencode name, fsencode name⟩ :: [] := by
    show w.notices ++ [_] = _
    rw [h.notices]
    rfl
  have hreports : World.Advances S may (w.wrote (fsencode name) s.content)
      (w.reports (fsencode name) s.content) := .closed hnotice
  exact runs_announced (observes_faultFree S may) (h.running _) h.stop h.notices h.fileQueue hname hs.size
    hevent hcorrelation hwrote hreports

/-- **It is copied**, if the key of the content is not in the store. -/
theorem runs_rewritten (hnew : S.key name s.content ∉ w.doneKeys)
    (hconc : 1 ≤ S.settings.uploadMaxConcurrency) :
    (writing S may).Runs (w, fun _ => .head ()) (w.rewritten S name s, fun _ => .head ()) := by
  have hwaiting : (w.told S name s).Waiting S.settings (entryOf S name s) := h.told
  have huploadable : Uploadable S.settings (w.told S name s) (s.event S.H S.cwd name S.settings) s.content :=
    ⟨s.event_supported .., World.reports_files .., hs.limit, hs.scan, hconc⟩
  refine (runs_told h hs hmay hevent hcorrelation).trans (runs_upload_next (capable_faultFree S may)
    hwaiting.toIdle (hwaiting.running _) hwaiting.next (.deliver _ _)
    (Publisher.fromJsonBytes_message _ none none) ?_ huploadable)
  rw [hs.key]
  exact hnew

/-- **Its event is skipped**, if the key is in the store. -/
theorem runs_skipped (hdone : S.key name s.content ∈ w.doneKeys) :
    (writing S may).Runs (w, fun _ => .head ()) (w.skipped S name s, fun _ => .head ()) := by
  have hwaiting : (w.told S name s).Waiting S.settings (entryOf S name s) := h.told
  refine (runs_told h hs hmay hevent hcorrelation).trans (runs_skip_next (capable_faultFree S may)
    hwaiting.toIdle (hwaiting.running _) hwaiting.next (.deliver _ _)
    (Publisher.fromJsonBytes_message _ none none) (s.event_supported ..) ?_)
  rw [hs.key]
  exact hdone

end runs

/-! ## A file that is written again -/

/-- The order line with another quantity. -/
def Sighting.changed : Sighting where
  size := "order_id,sku,quantity,channel\nA1,S1,2,web\n".toUTF8.size
  content := "order_id,sku,quantity,channel\nA1,S1,2,web\n".toUTF8
  eventId := ⟨"00000000-0000-4000-8000-000000000003", by decide⟩
  correlationId := ⟨"00000000-0000-4000-8000-000000000004", by decide⟩
  occurredAt := Sighting.sample.occurredAt

/-- The first order line once more. -/
def Sighting.restored : Sighting :=
  { Sighting.sample with
    eventId := ⟨"00000000-0000-4000-8000-000000000005", by decide⟩
    correlationId := ⟨"00000000-0000-4000-8000-000000000006", by decide⟩ }

/-- The fingerprints of the two contents. -/
def rewrittenFile : Set Fingerprint :=
  {Sighting.sample.fingerprint hashlib "/watch/ORD-1.csv",
    Sighting.changed.fingerprint hashlib "/watch/ORD-1.csv"}

/-- Their keys differ. -/
theorem hmac_injOn_rewrittenFile :
    Set.InjOn (hashlib.hmacSha256 "dev-secret-change-me".toUTF8) (Fingerprint.message '' rewrittenFile) := by
  rw [rewrittenFile, Set.image_pair, Set.injOn_pair]
  intro h
  exact absurd h (by decide +kernel)

/-- The two contents are of the same size. -/
theorem size_changed : Sighting.changed.content.size = Sighting.sample.content.size := by decide +kernel

/-- A site with one file, which has one of the two order lines. -/
def rewriteSite : Site where
  H := hashlib
  cwd := "/"
  settings := {}
  names := {"/watch/ORD-1.csv"}
  contents _ := {Sighting.sample.content, Sighting.changed.content}
  watched := orderSite.watched
  distinct := by
    refine hmac_injOn_rewrittenFile.mono (Set.image_mono ?_)
    rintro ⟨name, size, checksum⟩ ⟨rfl, ⟨c, hc, rfl⟩, c', hc', rfl⟩
    have hsize : c.size = Sighting.sample.content.size := by
      rcases hc with rfl | rfl
      · rfl
      · exact size_changed
    rw [hsize]
    rcases hc' with rfl | rfl
    · exact .inl rfl
    · exact .inr (congrArg (fun n => Fingerprint.mk _ n _) size_changed.symm)

/-- The first order line can be copied. -/
theorem copyable_sample : Sighting.sample.Copyable rewriteSite "/watch/ORD-1.csv" :=
  ⟨rfl, .inl rfl, rfl, by decide +kernel, by decide +kernel⟩

/-- So can the second one. -/
theorem copyable_changed : Sighting.changed.Copyable rewriteSite "/watch/ORD-1.csv" :=
  ⟨rfl, .inr rfl, rfl, by decide +kernel, by decide +kernel⟩

/-- And the first one again. -/
theorem copyable_restored : Sighting.restored.Copyable rewriteSite "/watch/ORD-1.csv" :=
  ⟨copyable_sample.mem, copyable_sample.content, rfl, copyable_sample.limit, copyable_sample.scan⟩

/-- The two contents have different keys. -/
theorem key_changed_ne : rewriteSite.key "/watch/ORD-1.csv" Sighting.changed.content ≠
    rewriteSite.key "/watch/ORD-1.csv" Sighting.sample.content := by
  intro h
  have hfingerprint := Fingerprint.key_injOn (H := hashlib) hmac_injOn_rewrittenFile (.inr rfl) (.inl rfl) h
  exact absurd (Fingerprint.mk.inj hfingerprint).2.2 (by decide +kernel)

namespace World

/-- The first order line was written and copied. -/
def firstCopied : World := atHeads.rewritten rewriteSite "/watch/ORD-1.csv" .sample

/-- Then the second one. -/
def secondCopied : World := firstCopied.rewritten rewriteSite "/watch/ORD-1.csv" .changed

/-- Then the first one was written again, and its event skipped. -/
def thirdSkipped : World := secondCopied.skipped rewriteSite "/watch/ORD-1.csv" .restored

/-- Nothing is underway when the threads get to their loops. -/
theorem resting_atHeads : atHeads.Resting where
  toIdle := idle_connected rfl
  running t := by cases t <;> trivial
  notices := rfl
  fileQueue := rfl
  queue := by
    funext q
    by_cases hq : q = ({} : Settings).queueName
    · rw [hq]
      exact connected_queue
    · exact connected_queue_ne hq
  unacked := rfl

/-- Nor after the first copy. -/
theorem resting_firstCopied : firstCopied.Resting := resting_atHeads.told.uploadNext

/-- Nor after the second one. -/
theorem resting_secondCopied : secondCopied.Resting := resting_firstCopied.told.uploadNext

/-- The key of the first order line is the only one in the store after the first copy. -/
theorem mem_doneKeys_firstCopied {key : String} : key ∈ firstCopied.doneKeys ↔
    key = rewriteSite.key "/watch/ORD-1.csv" Sighting.sample.content := by
  have hnone : key ∉ atHeads.doneKeys := List.not_mem_nil
  rw [firstCopied, mem_doneKeys_rewritten copyable_sample, or_iff_right hnone]

end World

/-- **The file is written twice, and copied both times.** -/
theorem runs_secondCopied (hfirst : may atHeads "/watch/ORD-1.csv" Sighting.sample.content)
    (hsecond : may firstCopied "/watch/ORD-1.csv" Sighting.changed.content) :
    (writing rewriteSite may).Runs ({}, (writing rewriteSite may).start) (secondCopied, fun _ => .head ()) := by
  have hheads : (writing rewriteSite may).Runs ({}, (writing rewriteSite may).start)
      (atHeads, fun _ => .head ()) :=
    runs_heads (fun _ _ => ⟨_, rfl, (fun h => by cases h), fun h => by cases h⟩)
      (observes_faultFree rewriteSite may) (capable_faultFree rewriteSite may)
  have hwritten : (writing rewriteSite may).Runs (atHeads, fun _ => .head ())
      (firstCopied, fun _ => .head ()) :=
    runs_rewritten resting_atHeads copyable_sample hfirst List.not_mem_nil (by decide) List.not_mem_nil
      (by decide)
  have hnew : rewriteSite.key "/watch/ORD-1.csv" Sighting.changed.content ∉ firstCopied.doneKeys :=
    fun h => key_changed_ne (mem_doneKeys_firstCopied.1 h)
  have hchanged : (writing rewriteSite may).Runs (firstCopied, fun _ => .head ())
      (secondCopied, fun _ => .head ()) := by
    refine runs_rewritten resting_firstCopied copyable_changed hsecond ?_ ?_ hnew (by decide)
    · rw [firstCopied, rewritten_uuids]
      decide
    · rw [firstCopied, rewritten_uuids]
      decide
  exact (hheads.trans hwritten).trans hchanged

/-- Nothing has happened in the world in which the runs start. -/
theorem blank_empty : World.Blank {} := ⟨⟨⟨⟨rfl, rfl, rfl⟩, rfl⟩, rfl, rfl, rfl, rfl⟩, rfl⟩

/-- **Every destination holds its file**, in every fault-free run all of whose writes can be accounted for,
whenever nothing is left to do. A write can be accounted for if there is a key by which the content is secure,
its own key or that of an event that is underway: published, or about to be published by the watcher. The
content is secure by a key if no upload run was for the key; or if, after a run that succeeded, the
destinations hold the content already; or if, during a run, each of them holds it or is going to. -/
theorem destinations_hold_files (S : Site) {s : (writing S fun w => w.Admits S anyKey).State}
    (hs : (writing S fun w => w.Admits S anyKey).Reachable World.Blank s) (hquiet : Quiescent S.settings s) :
    ∀ name content, s.1.files (fsencode name) = some content →
      ∀ o ∈ S.objects name, s.1.objects o = some content := by
  intro name content hcontent
  rcases stored_or_held (reachable_writing (fun _ _ _ h => h) hs) hquiet.watcher hquiet.fileQueue
    hquiet.notices hcontent with hstored | ⟨body, e, hholds, -, -⟩
  · exact hstored
  · -- no message is in the broker
    exfalso
    rcases hholds with ⟨q, hq, e', he', -⟩ | ⟨d, hd, -⟩
    · have hempty : s.1.queue q = [] := by
        simp only [Settings.queues, List.mem_cons, List.not_mem_nil, or_false] at hq
        rcases hq with rfl | rfl | rfl
        · exact hquiet.main
        · exact hquiet.retry
        · exact hquiet.dlq
      rw [hempty] at he'
      cases he'
    · rw [hquiet.unacked] at hd
      cases hd

/-- One order line and then another are written to a file, and both are copied. -/
theorem destinations_hold_rewritten : ∃ s : (writing rewriteSite fun w => w.Admits rewriteSite anyKey).State,
    s.1.files (fsencode "/watch/ORD-1.csv") = some Sighting.changed.content ∧ s.1.runs.length = 2 ∧
      ∀ name content, s.1.files (fsencode name) = some content →
        ∀ o ∈ rewriteSite.objects name, s.1.objects o = some content := by
  -- neither content has a key that an upload run was for
  have hfirst : atHeads.Admits rewriteSite anyKey "/watch/ORD-1.csv" Sighting.sample.content := by
    refine ⟨_, trivial, Site.keyOf_key copyable_sample.mem copyable_sample.content, ?_, .inl rfl⟩
    exact .of_unclaimed (fun run hrun => absurd hrun List.not_mem_nil) fun run hrun => by cases hrun
  have hsecond : firstCopied.Admits rewriteSite anyKey "/watch/ORD-1.csv" Sighting.changed.content := by
    refine ⟨_, trivial, Site.keyOf_key copyable_changed.mem copyable_changed.content, ?_, .inl rfl⟩
    refine .of_unclaimed (fun run hrun => ?_) fun run hrun => ?_
    · rw [firstCopied, rewritten_runs] at hrun
      obtain rfl := List.mem_singleton.1 hrun
      exact fun hkey => key_changed_ne (hkey.symm.trans copyable_sample.key)
    · rw [firstCopied, rewritten_active] at hrun
      cases hrun
  have hreach : (writing rewriteSite fun w => w.Admits rewriteSite anyKey).Reachable World.Blank
      (secondCopied, fun _ => .head ()) := ⟨{}, blank_empty, runs_secondCopied hfirst hsecond⟩
  refine ⟨(secondCopied, fun _ => .head ()), rewritten_files, ?_,
    destinations_hold_files rewriteSite hreach (resting_secondCopied.quiescent {})⟩
  show secondCopied.runs.length = 2
  rw [secondCopied, rewritten_runs, firstCopied, rewritten_runs]
  rfl

/-- **A content that is put back is skipped**: one order line is written to a file, then another, then the
first one again, each when the event of the one before was handled. The third event has the key of the first,
which is in the store, and the destinations keep the second order line. -/
theorem restored_content_skipped : ∃ s : (writing rewriteSite always).State,
    (writing rewriteSite always).Reachable World.Blank s ∧ Quiescent rewriteSite.settings s ∧
      ¬∀ name content, s.1.files (fsencode name) = some content →
        ∀ o ∈ rewriteSite.objects name, s.1.objects o = some content := by
  have hdone : rewriteSite.key "/watch/ORD-1.csv" Sighting.restored.content ∈ secondCopied.doneKeys :=
    (mem_doneKeys_rewritten copyable_changed).2 (.inl (mem_doneKeys_firstCopied.2 rfl))
  have hskipped : (writing rewriteSite always).Runs (secondCopied, fun _ => .head ())
      (thirdSkipped, fun _ => .head ()) := by
    refine runs_skipped resting_secondCopied copyable_restored trivial ?_ ?_ hdone
    · rw [secondCopied, rewritten_uuids, firstCopied, rewritten_uuids]
      decide
    · rw [secondCopied, rewritten_uuids, firstCopied, rewritten_uuids]
      decide
  have hcopied : (writing rewriteSite always).Runs ({}, (writing rewriteSite always).start)
      (secondCopied, fun _ => .head ()) := runs_secondCopied trivial trivial
  have hresting : thirdSkipped.Resting := resting_secondCopied.told.skipNext
  refine ⟨_, ⟨{}, blank_empty, hcopied.trans hskipped⟩, hresting.quiescent {}, fun hholds => ?_⟩
  -- the file has the first order line again, the objects the second one
  have hfile : thirdSkipped.files (fsencode "/watch/ORD-1.csv") = some Sighting.sample.content := skipped_files
  have ho : (.awsS3, ({} : Settings).s3Bucket, relpath "/" "/watch/ORD-1.csv" ({} : Settings).watchDir) ∈
      rewriteSite.objects "/watch/ORD-1.csv" := mem_objectsOf.2 (.inl rfl)
  have hobject := hholds _ _ hfile _ ho
  rw [thirdSkipped, skipped_objects, secondCopied, rewritten_objects ho] at hobject
  exact key_changed_ne (congrArg _ (Option.some.inj hobject))

end TransferWorker
