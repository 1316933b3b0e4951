import TransferWorker.System.Carriage
import TransferWorker.System.CheckedCopy
import TransferWorker.System.Watchfulness

/-! # The destinations hold what was written

In the runs of the pipeline the watcher announces every content of a file, what was announced is in the
broker or done, and what is done is in the destinations.

* **`synced_turn`** — the consumer keeps `Synced`, whatever its calls answer.
* **`safe_pipeline`** — every thread does its duty.
* **`pipeline_converges`** — what every file's destinations hold.
* **`secure_of_new`**, `reachable_wrote` — a content that is new at its path may be written there. -/

namespace TransferWorker

open CallTrees World

variable {S : Site} {R : String → ByteArray → String → Prop} {w w' : World} {op : Op}

/-! ## The consumer -/

/-- An assertion that quiet steps keep lasts beside the invariant while the consumer does what is peaceful. -/
theorem keeps_beside {X : World → Prop} (hX : ∀ v v', X v → Quiet v v' → X v') :
    Keeps (among S R .consumer) (duty S .consumer) (Op.Peaceful S .consumer) (fun w => Synced S w ∧ X w) where
  stable := by
    refine stable_among (fun v v' h hm hu => ⟨h.1.move hm hu, hX _ _ h.2 hm.quiet⟩) ?_
    intro v v' t' op r h ht' hguar hr
    have hstore : v'.processed = v.processed := same_of_others hguar.fits ht' (.inl rfl) hr
    have huploads : Aspect.uploads.Same v v' := same_of_others hguar.fits ht' (.inr rfl) hr
    have hruns : v'.runs = v.runs := congrArg Prod.snd huploads
    exact ⟨h.1.responds hguar hr, hX _ _ h.2 (.of_evolve hstore (hruns ▸ .refl _))⟩
  inv _ h := h.1
  guar _ _ hop _ := hop.guarantee
  responds _ op _ _ hop h hr := ⟨h.1.responds hop.guarantee hr.1.2,
    hX _ _ h.2 (quiet_of_responds S.settings op (marks_of_free hop.free) hr.1.2)⟩

/-- The upload of the event stays in progress beside the invariant. -/
theorem stable_uploading (event : TransferEvent) :
    (among S R .consumer).Stable fun w => Synced S w ∧ w.Uploading event := by
  refine stable_among (fun v v' h hm hu => ⟨h.1.move hm hu, h.2.move hm⟩) ?_
  intro v v' t' op r h ht' hguar hr
  refine ⟨h.1.responds hguar hr, ?_⟩
  obtain ⟨run, hactive, hrest⟩ := h.2
  have huploads : Aspect.uploads.Same v v' := same_of_others hguar.fits ht' (.inr rfl) hr
  exact ⟨run, (congrArg Prod.fst huploads).trans hactive, hrest⟩

variable {event : TransferEvent}

/-- **`upload_all`** of an event about a file of the site ends with results of a run for it. -/
theorem synced_uploadAll (hevent : S.Sights event) (h : Synced S w) :
    Safe (among S R .consumer) (duty S .consumer)
      (fun r v => Synced S v ∧ ∀ results, r = .ok results → v.Uploaded event results)
      (uploadAll S.settings event (fsencode event.source.path)) w := by
  have hraise : ∀ v e, Synced S v → Safe (among S R .consumer) (duty S .consumer)
      (fun r v => Synced S v ∧ ∀ results, r = .ok results → v.Uploaded event results)
      (.raise e) v := fun v e hv => Synced.keeps.raise (fun v hv => ⟨hv, by simp⟩) hv
  have hstart : ∀ v, Guarantee S .consumer v (.uploadStart event (fsencode event.source.path)) := by
    intro v
    refine ⟨.own rfl, by simp, fun event' path hop => ?_, by simp⟩
    obtain ⟨rfl, rfl⟩ := Op.uploadStart.inj hop
    exact ⟨hevent, rfl⟩
  have hgather : ∀ v, Guarantee S .consumer v .uploadGather := fun v =>
    ⟨.own rfl, by simp, by simp, by simp⟩
  unfold uploadAll
  split
  · exact hraise w _ h
  · refine Synced.keeps.other_bind (fun v _ => hstart v) (fun v x v' hv hr => ?_)
      (fun v e v' hv hr => hraise v' e (hv.responds (hstart v) hr.1.2)) h
    have hv' : Synced S v' := hv.responds (hstart v) hr.1.2
    obtain rfl : v' = v.startUploads event (fsencode event.source.path) := hr.1.2
    refine Safe.perform_bind (stable_uploading event) (fun u hu => hu.1) (fun u _ => hgather u)
      (fun u outcomes u' hu hr => ?_)
      (fun u e u' hu hr => hraise u' e (hu.1.responds (hgather u) hr.1.2)) ⟨hv', _, rfl, rfl, by simp⟩
    have hu' : Synced S u' := hu.1.responds (hgather u) hr.1.2
    obtain ⟨-, run, hrun, houtcomes, rfl⟩ := hr.1.2
    refine (keeps_beside fun _ _ hx hq => hq.uploaded hx).ret (fun z hz => ⟨hz.1, fun results hres => ?_⟩)
      ⟨hu', hu.2.gather hrun houtcomes⟩
    rw [← Except.ok.inj hres]
    exact hz.2

/-- A piece of the consumer keeps the invariant. -/
abbrev KeepsSynced {α : Type} (S : Site) (R : String → ByteArray → String → Prop) (p : Prog α) (w : World) :
    Prop :=
  Safe (among S R .consumer) (duty S .consumer) (fun _ => Synced S) p w

/-- The calls that give an event of the site away are peaceful. -/
theorem givesAway_peaceful (tag : Nat) (hevent : S.Sights event) :
    GivesAway (Op.Peaceful S .consumer) tag event where
  publish _ e expiration headers hjourney :=
    .of_sights ⟨e, Publisher.fromJsonBytes_message e expiration headers, hevent.of_journey hjourney⟩
  ack := ⟨.own rfl, rfl, by simp⟩

/-- `_handle` from the upload on. -/
theorem synced_handleUpload (tag : Nat) (hevent : S.Sights event) (h : Synced S w) :
    KeepsSynced S R (Consumer.handleUpload S.settings tag event) w := by
  refine (synced_uploadAll hevent h).bind (fun results v hv _ => ?_) fun _ _ hv => hv.1
  dsimp only
  split
  · rename_i hfailures
    obtain ⟨run, hrun, rfl, hresults, hlength⟩ := hv.2 results rfl
    have hok : v.OkRun run.event.idempotencyKey :=
      ⟨run, hrun, rfl, UploadRun.allOk_of_results hresults hlength hfailures⟩
    have hmark : ∀ u : World, u.OkRun run.event.idempotencyKey →
        Guarantee S .consumer u (.markDone run.event.idempotencyKey run.event.correlationId) := by
      intro u hu
      refine ⟨.own rfl, by simp, by simp, fun key correlationId hop => ?_⟩
      obtain ⟨rfl, -⟩ := Op.markDone.inj hop
      exact hu
    have hkeeps : Keeps (among S R .consumer) (duty S .consumer) (Op.Peaceful S .consumer)
        (fun u => Synced S u ∧ u.OkRun run.event.idempotencyKey) := keeps_beside fun _ _ hx hq => hq.okRun hx
    refine Safe.perform_bind hkeeps.stable hkeeps.inv (fun u hu => hmark u hu.2)
      (fun u x u' hu hr => ?_) (fun u e u' hu hr => ?_) ⟨hv.1, hok⟩
    · exact Synced.keeps.of_calls (Program.calls_perform (givesAway_peaceful tag hevent).ack)
        (hu.1.responds (hmark u hu.2) hr.1.2)
    · exact Synced.keeps.raise (fun _ hx => hx) (hu.1.responds (hmark u hu.2) hr.1.2)
  · exact Synced.keeps.of_calls (calls_handleFailure (givesAway_peaceful tag hevent) _) hv.1

/-- `_handle` from the check of the source file on. -/
theorem synced_handleSource (tag : Nat) (hevent : S.Sights event) (h : Synced S w) :
    KeepsSynced S R (Consumer.handleSource S.settings tag event) w := by
  have hdead : ∀ (v : World) (reason : String), Synced S v →
      KeepsSynced S R (Consumer.deadLetter S.settings tag event reason) v := fun v reason hv =>
    Synced.keeps.of_calls (calls_deadLetter (givesAway_peaceful tag hevent) _) hv
  have hlook : ∀ {op : Op}, op.owner = none → (∀ q m, op ≠ .basicPublish q m) → op.Peaceful S .consumer :=
    .common
  refine Synced.keeps.call_bind (hlook rfl (by simp)) (fun _ _ hv => hv) (fun _ isfile v _ _ hv => ?_) h
  split
  · exact hdead v _ hv
  · have hscan : (scanCsvFile (fsencode event.source.path) S.settings).Calls (Op.Peaceful S .consumer) :=
      calls_scanCsvFile _ (hlook rfl (by simp)) (hlook rfl (by simp))
    refine Synced.keeps.bind hscan (fun _ _ hu => hu) (fun issues u hu => ?_) hv
    split
    · exact hdead u _ hu
    · exact synced_handleUpload tag hevent hu

/-- **`_handle`** of a message about a file of the site keeps the invariant. -/
theorem synced_handle (tag : Nat) {m : Message} (hm : S.SightsBody m.body) (h : Synced S w) :
    KeepsSynced S R (Consumer.handle S.settings tag m) w := by
  obtain ⟨event, hdecode, hevent⟩ := hm
  unfold Consumer.handle
  rw [hdecode]
  dsimp only
  split
  · exact Synced.keeps.of_calls (calls_deadLetter (givesAway_peaceful tag hevent) _) h
  · exact Synced.keeps.raise (fun _ hv => hv) h
  · have hdone : (Op.isDone event.idempotencyKey).Peaceful S .consumer := ⟨.own rfl, rfl, by simp⟩
    refine Synced.keeps.call_bind hdone (fun _ _ hv => hv) (fun _ done v _ _ hv => ?_) h
    split
    · exact Synced.keeps.of_calls (Program.calls_perform (givesAway_peaceful tag hevent).ack) hv
    · exact synced_handleSource tag hevent hv

/-- The calls outside of `_handle` are peaceful. -/
theorem peaceful_of_isSession (h : op.isSession = true) : op.Peaceful S .consumer :=
  ⟨fits_of_isSession h, free_of_isSession h, fun q m hop => by
    rw [hop] at h
    cases h⟩

/-- **One turn of the loop.** -/
theorem synced_turn (h : Synced S w) : KeepsSynced S R (Consumer.turn S.settings) w := by
  have hconsume : (Op.consume S.settings.queueName).Peaceful S .consumer := ⟨.own rfl, rfl, by simp⟩
  have hstop : ∀ op : Op, op = .stopIsSet → op.Peaceful S .consumer := by
    rintro op rfl
    exact .common rfl (by simp)
  refine turn_rule (B := fun _ m v => Synced S v ∧ S.SightsBody m.body) Synced.keeps
    (fun _ => peaceful_of_isSession) hconsume
    (fun tag m => (keeps_beside fun _ _ hx _ => hx).mono hstop) (fun _ _ _ hv => hv.1)
    (fun v tag m v' hv hr => ?_) (fun tag m _ hv => synced_handle tag hv.2 hv.1) h
  have hv' : Synced S v' := Synced.keeps.responds v _ _ v' hconsume hv hr
  obtain ⟨-, e, rest, hb, rfl, -⟩ := hr.1.2
  refine ⟨hv', hv.entries.buffered (tag, e) ?_⟩
  rw [hb]
  exact List.mem_cons_self

/-! ## The process -/

/-- What is known of the threads. -/
def pipelinePosts (S : Site) (R : String → ByteArray → String → Prop) :
    (t : Thread) → Service.Posts Exn Unit World
  | .watcher => watchfulPosts S R
  | _ => .uniform (Synced S)

/-- Starting and stopping is peaceful. -/
theorem starts_peaceful : Starts (Op.Peaceful S .main) where
  threadStart _ := .common rfl (by simp)
  serverStart := .common rfl (by simp)
  stopWait := .common rfl (by simp)
  serverStop := .common rfl (by simp)
  stopSet := .common rfl (by simp)
  threadJoin _ := .common rfl (by simp)

/-- **Every thread does its duty.** -/
theorem sound_pipeline (t : Thread) :
    ((pipelineBy S R).service t).Sound (among S R t) (duty S t) (pipelinePosts S R t) := by
  cases t with
  | main => exact .of_keeps Synced.keeps (calls_main_turn starts_peaceful) (calls_main_finish starts_peaceful)
  | watcher => exact sound_watchful
  | consumer =>
      have hsound : (consumerService S.settings).Sound (among S R .consumer) (duty S .consumer)
          (loopPosts (Synced S) (Synced S)) :=
        sound_consumer Synced.keeps (fun _ => peaceful_of_isSession) fun _ h =>
          (synced_turn h).mono fun r _ hv => by rcases r with _ | ⟨_ | _⟩ <;> exact hv
      exact ⟨hsound.turn, hsound.finish⟩

/-- The setups of the threads. -/
theorem setup_pipeline (t : Thread) (h : Watchful S R .empty w) :
    Safe (among S R t) (duty S t) (pipelinePosts S R t).setup ((pipelineBy S R).service t).setup w := by
  cases t with
  | main => exact Service.setup_of_keeps Synced.keeps (calls_main_setup starts_peaceful) h.synced
  | watcher => exact watchful_setup h
  | consumer =>
      have hsetup : (consumerService S.settings).setup.Calls (Op.Peaceful S .consumer) :=
        calls_setup.mono fun _ => peaceful_of_isSession
      exact Service.setup_of_keeps Synced.keeps hsetup h.synced

/-- **The worlds in which nothing has happened yet.** -/
structure World.Pristine (w : World) : Prop extends World.Unused w where
  /-- No file was written. -/
  files : w.files = fun _ => none
  /-- No message is in the broker. -/
  queue : w.queue = fun _ => []
  /-- No upload runs. -/
  active : w.active = none
  /-- The store is empty. -/
  processed : w.processed = []

/-- Nothing is written yet, so that everything is accounted for. -/
theorem World.Pristine.watchful (h : w.Pristine) (hfits : Hand.empty.Fits S R w) : Watchful S R .empty w := by
  have hnothing : ∀ path content, w.files path ≠ some content := by
    intro path content hcontent
    rw [h.files] at hcontent
    cases hcontent
  refine ⟨⟨fun path content hcontent => absurd hcontent (hnothing _ _), ⟨?_, ?_, ?_⟩, ?_, ?_⟩, ?_, hfits⟩
  · intro q e he
    rw [h.queue] at he
    exact absurd he List.not_mem_nil
  · intro d hd
    exact absurd (h.unacked ▸ hd) List.not_mem_nil
  · intro d hd
    exact absurd (h.buffered ▸ hd) List.not_mem_nil
  · intro run hrun
    rw [h.active] at hrun
    cases hrun
  · intro key hkey
    rw [doneKeys, h.processed] at hkey
    exact absurd hkey List.not_mem_nil
  · exact fun name content hcontent => absurd hcontent (hnothing _ _)

/-- **The worlds in which the runs start.** -/
structure World.Initial (S : Site) (R : String → ByteArray → String → Prop) (w : World) : Prop
    extends World.Pristine w where
  /-- The watcher has nothing in hand. -/
  fits : Hand.empty.Fits S R w

/-- **The run lemma.** -/
theorem safe_pipeline {s : (pipelineBy S R).State} (hs : (pipelineBy S R).Reachable (World.Initial S R) s) :
    Pool.AllSafe (pipelineBy S R) (duty S) (pipelinePosts S R) s :=
  Pool.phaseSafe_of_reachable sound_pipeline (fun _ hw t => setup_pipeline t (hw.watchful hw.fits))
    (fun _ _ _ _ hr => hr.2.elim) hs

/-- A run under the condition is a run of the process. -/
theorem process_of_pipeline {s : (pipelineBy S R).State}
    (hs : (pipelineBy S R).Reachable (World.Initial S R) s) :
    (process S.H S.cwd S.settings).Reachable World.Unused s := by
  obtain ⟨w₀, hw₀, hrun⟩ := hs
  exact ⟨w₀, hw₀.toUnused, Pool.runs_of_under hrun⟩

/-- **What the destinations of a file hold**: its content, or an event with a key that the rule permits is in
the broker. -/
theorem stored_or_held {s : (pipelineBy S R).State} (hs : (pipelineBy S R).Reachable (World.Initial S R) s)
    (hhead : s.2 .watcher = .head ()) (hqueue : s.1.fileQueue = []) (hnotices : s.1.notices = [])
    {name : String} {content : ByteArray} (hcontent : s.1.files (fsencode name) = some content) :
    (∀ o ∈ S.objects name, s.1.objects o = some content) ∨
      ∃ body e, s.1.Holds S.settings body ∧ TransferEvent.fromJsonBytes body = .ok e ∧
        R name content e.idempotencyKey.val := by
  have hwatcher := safe_pipeline hs .watcher
  rw [hhead] at hwatcher
  have hwatchful : Watchful S R .empty s.1 := (hwatcher s.1 .refl).2
  have hnoLoss : NoLoss S.settings s.1 := carried_of_reachable (process_of_pipeline hs) .consumer
  obtain ⟨key, hrule, -, hsecure, hcoming⟩ := hwatchful.accounted name content hcontent
  rcases hcoming with ⟨-, hmem | ⟨n, hn, -⟩⟩ | ⟨m, hm, e, hdecode, hkey⟩ | hholds
  · rw [hqueue] at hmem
    exact absurd hmem List.not_mem_nil
  · rw [hnotices] at hn
    exact absurd hn List.not_mem_nil
  · rcases hnoLoss.carried m hm with ⟨e', hdecode', hdone⟩ | ⟨body, hsame, hpresent⟩
    · -- the key is done, so a run for it had every destination ok
      obtain rfl : e = e' := Except.ok.inj (hdecode.symm.trans hdecode')
      have hok : s.1.OkRun key := hwatchful.synced.store _ (hkey ▸ hdone)
      exact .inl fun o ho => (hsecure.done hok o ho).1
    · rw [SameMessage, hdecode] at hsame
      obtain ⟨e', hdecode', hkey', -⟩ := hsame
      exact .inr ⟨body, e', hpresent, hdecode', by rw [hkey', hkey]; exact hrule⟩
  · exact hholds.elim

/-! ## Nothing is put back -/

/-- The condition on the steps: what is written is secure at its path. -/
def pipelineCondition (S : Site) : Pool.Condition calls Exn World Thread where
  call t w op r := t = .watcher → w.Unhindered op r
  move w w' := w.Undisturbed S w'
  restart _ := False

/-- **The process at a site**, in the runs that meet the condition. -/
def pipeline (S : Site) : Pool calls Exn World (fun _ : Thread => Unit) :=
  (process S.H S.cwd S.settings).under (pipelineCondition S)

/-- The rule that a content is accounted for by its own key. -/
def Site.own (S : Site) (name : String) (content : ByteArray) (key : String) : Prop := key = S.key name content

/-- What is secure at its path is secure by its own key. -/
theorem World.Undisturbed.own (h : w.Undisturbed S w') :
    w.UndisturbedBy S (fun w => w.Admits S S.own) w' where
  accepted := h.accepted
  runs := h.runs
  files path content hcontent := by
    rcases h.files path content hcontent with hold | ⟨name, hname, hpath, hmem, hsecure⟩
    · exact .inl hold
    · exact .inr (.inl ⟨name, hname, hpath, hmem, _, rfl, Site.keyOf_key hname hmem, hsecure, .inl rfl⟩)

/-- Such a run is one of the runs of that rule. -/
theorem reachable_own {s : (pipeline S).State} (hs : (pipeline S).Reachable World.Pristine s) :
    (pipelineBy S S.own).Reachable (World.Initial S S.own) s := by
  have hle : (pipelineCondition S).Le (process S.H S.cwd S.settings) (pipelineByCondition S S.own) :=
    ⟨fun _ _ _ _ h => h, fun _ _ _ h => h.own, fun _ h => h⟩
  obtain ⟨w₀, hw₀, hrun⟩ := Pool.reachable_under_mono hle hs
  exact ⟨w₀, ⟨hw₀, fun _ _ _ hrule _ => .inl hrule⟩, hrun⟩

/-- **The destinations of every file hold what was written to it, or will be told.** The process is not killed,
the watcher is not hindered, messages come from the watcher only, no upload outlives its `upload_all`, the files
are under `watch_dir` with names in UTF-8, the fingerprints of the site differ (`Site.distinct`), and no content
is put back at a path during or after an upload run for its key (`Undisturbed.files`). Then in every run,
whenever the watcher is at the head of its loop and has been told of everything, every destination of every
file holds the content of the file, or an event with the key of this content is in the broker. The consumer's
calls may fail in every way, its channel may break, and deliveries, retries and replays come in any order. -/
theorem pipeline_converges (S : Site) {s : (pipeline S).State}
    (hs : (pipeline S).Reachable World.Pristine s) (hhead : s.2 .watcher = .head ())
    (hqueue : s.1.fileQueue = []) (hnotices : s.1.notices = []) :
    ∀ name content, s.1.files (fsencode name) = some content →
      (∀ o ∈ S.objects name, s.1.objects o = some content) ∨
      ∃ body e, s.1.Holds S.settings body ∧ TransferEvent.fromJsonBytes body = .ok e ∧
        e.idempotencyKey.val = S.key name content :=
  fun _ _ hcontent => stored_or_held (reachable_own hs) hhead hqueue hnotices hcontent

/-! ## Contents that are new at their paths -/

/-- Writing a content that is secure at its path disturbs nothing. -/
theorem undisturbed_wrote {name : String} {content : ByteArray} (hname : name ∈ S.names)
    (hcontent : content ∈ S.contents name) (hsecure : w.Secure S name content) :
    w.Undisturbed S (w.wrote (fsencode name) content) := by
  refine ⟨rfl, rfl, fun path content' hfile => ?_⟩
  have hfile' : Function.update w.files (fsencode name) (some content) path = some content' := hfile
  by_cases hpath : path = fsencode name
  · rw [hpath, Function.update_self] at hfile'
    obtain rfl := Option.some.inj hfile'
    exact .inr ⟨name, hname, hpath, hcontent, hsecure⟩
  · rw [Function.update_of_ne hpath] at hfile'
    exact .inl hfile'

section fresh

variable {s : (pipeline S).State} {name : String} {content : ByteArray}

/-- The site where the files may have other contents. -/
def Site.withContents (S : Site) (contents : String → Set ByteArray)
    (hdistinct : Set.InjOn (S.H.hmacSha256 S.settings.correlationSecret.toUTF8)
      (Fingerprint.message '' fingerprintsOf S.H S.names contents)) : Site :=
  { S with contents := contents, distinct := hdistinct }

/-- A call ends no run but the one in progress. -/
theorem ended_of_responds {settings : Settings} {t : Thread} {r : Except Exn (Res op)}
    (h : w.responds settings t op r w') {run : UploadRun} (hrun : run ∈ w'.runs) :
    run ∈ w.runs ∨ ∃ a, w.active = some a ∧ run.event = a.event := by
  by_cases huploads : op.changes .uploads = false
  · have hsame : Aspect.uploads.Same w w' := frame_of_responds huploads h
    have hruns : w'.runs = w.runs := congrArg Prod.snd hsame
    exact .inl (hruns ▸ hrun)
  · cases op with
    | uploadStart event path =>
        cases r with
        | ok x =>
            obtain rfl : w' = w.startUploads event path := h
            exact .inl hrun
        | error e =>
            obtain rfl := h.2
            exact .inl hrun
    | uploadGather =>
        cases r with
        | ok outcomes =>
            obtain ⟨-, a, ha, -, rfl⟩ := h
            rcases List.mem_append.1 hrun with hold | hnew
            · exact .inl hold
            · obtain rfl := List.mem_singleton.1 hnew
              exact .inr ⟨a, ha, rfl⟩
        | error e =>
            cases hactive : w.active with
            | none =>
                have hsame : w.failing settings t .uploadGather w' := h
                rw [World.failing, hactive] at hsame
                obtain rfl : w' = w := hsame.2
                exact .inl hrun
            | some a =>
                -- the run is cut short, and ends as it is
                obtain rfl := failing_uploadGather settings t w hactive h
                rcases List.mem_append.1 hrun with hold | hnew
                · exact .inl hold
                · obtain rfl := List.mem_singleton.1 hnew
                  exact .inr ⟨_, rfl, rfl⟩
    | _ => exact absurd rfl huploads

/-- The runs that have ended are for events about files of the site, if there was none at the start. -/
theorem sights_of_reachable (hs : (pipeline S).Reachable (fun w => w.Pristine ∧ w.runs = []) s) :
    ∀ run ∈ s.1.runs, S.Sights run.event := by
  obtain ⟨w₀, ⟨hpristine, hnone⟩, hrun⟩ := hs
  induction hrun with
  | refl =>
      rintro run (hrun : run ∈ w₀.runs)
      rw [hnone] at hrun
      cases hrun
  | tail hruns hstep ih =>
      have hsynced := (safe_pipeline (reachable_own ⟨w₀, hpristine, hruns⟩) .consumer).inv
      cases hstep with
      | interfere h =>
          intro run hrun
          exact ih run (h.2.runs ▸ hrun)
      | thread i h =>
          cases h with
          | call r hφ hr =>
              intro run hrun
              rcases ended_of_responds hr.1.2 hrun with hold | ⟨a, ha, hevent⟩
              · exact ih run hold
              · exact hevent ▸ (hsynced.uploads a ha).1
          | silent hφ => exact ih
      | restart h => exact h.2.elim

/-- **A content that is new at its path is secure there**: if its checksum is that of no content that the
file may have had so far, no upload run was for its key. -/
theorem secure_of_new {contents : String → Set ByteArray}
    {hdistinct : Set.InjOn (S.H.hmacSha256 S.settings.correlationSecret.toUTF8)
      (Fingerprint.message '' fingerprintsOf S.H S.names contents)}
    (hmore : ∀ name, S.contents name ⊆ contents name)
    (hs : (pipeline S).Reachable (fun w => w.Pristine ∧ w.runs = []) s) (hname : name ∈ S.names)
    (hcontent : content ∈ contents name) (hnew : ∀ c ∈ S.contents name, S.H.sha256 c ≠ S.H.sha256 content) :
    s.1.Secure (S.withContents contents hdistinct) name content := by
  have hsynced : Synced S s.1 := by
    obtain ⟨w₀, hw₀, hrun⟩ := hs
    exact (safe_pipeline (reachable_own ⟨w₀, hw₀.1, hrun⟩) .consumer).inv
  have hother : ∀ e, S.Sights e → e.idempotencyKey.val ≠ S.key name content := by
    rintro e ⟨name', hname', habout⟩ hkey
    obtain ⟨f, ⟨hmem, ⟨c, hc, hsize⟩, ⟨c', hc', hchecksum⟩⟩, -, hf⟩ := habout.key
    have hwider : f ∈ fingerprintsOf S.H S.names contents :=
      ⟨hmem, ⟨c, hmore _ hc, hsize⟩, ⟨c', hmore _ hc', hchecksum⟩⟩
    have hthis : (⟨name, content.size, S.H.sha256 content⟩ : Fingerprint) ∈
        fingerprintsOf S.H S.names contents := ⟨hname, ⟨content, hcontent, rfl⟩, ⟨content, hcontent, rfl⟩⟩
    -- equal keys are those of equal fingerprints
    have heq := Fingerprint.key_injOn hdistinct hwider hthis (hf.symm.trans hkey)
    rw [heq] at hc' hchecksum
    exact hnew c' hc' hchecksum.symm
  exact .of_unclaimed (fun run hrun => hother _ (sights_of_reachable hs run hrun))
    fun run hrun => hother _ (hsynced.uploads run hrun).1

/-- More contents leave more runs. -/
theorem step_withContents {contents : String → Set ByteArray}
    {hdistinct : Set.InjOn (S.H.hmacSha256 S.settings.correlationSecret.toUTF8)
      (Fingerprint.message '' fingerprintsOf S.H S.names contents)}
    (hmore : ∀ name, S.contents name ⊆ contents name) {s s' : World × (Thread → Phase calls Exn Unit)}
    (h : Pool.Step (pipeline S) s s') : Pool.Step (pipeline (S.withContents contents hdistinct)) s s' := by
  cases h with
  | interfere h =>
      refine .interfere ⟨h.1, h.2.accepted, h.2.runs, fun path content hcontent => ?_⟩
      refine (h.2.files path content hcontent).imp_right ?_
      rintro ⟨name, hname, hpath, hmem, hsecure⟩
      exact ⟨name, hname, hpath, hmore name hmem, hsecure.done, hsecure.underway⟩
  | thread t h => exact .thread t h
  | restart h => exact h.2.elim

/-- **A content that is new at its path may be written there at any moment**, and the run goes on. -/
theorem reachable_wrote {contents : String → Set ByteArray}
    {hdistinct : Set.InjOn (S.H.hmacSha256 S.settings.correlationSecret.toUTF8)
      (Fingerprint.message '' fingerprintsOf S.H S.names contents)}
    (hmore : ∀ name, S.contents name ⊆ contents name)
    (hs : (pipeline S).Reachable (fun w => w.Pristine ∧ w.runs = []) s) (hname : name ∈ S.names)
    (hcontent : content ∈ contents name) (hnew : ∀ c ∈ S.contents name, S.H.sha256 c ≠ S.H.sha256 content) :
    (pipeline (S.withContents contents hdistinct)).Reachable (fun w => w.Pristine ∧ w.runs = [])
      (s.1.wrote (fsencode name) content, s.2) := by
  have hsecure : s.1.Secure (S.withContents contents hdistinct) name content :=
    secure_of_new hmore hs hname hcontent hnew
  obtain ⟨w₀, hw₀, hrun⟩ := hs
  have hrun' : (pipeline (S.withContents contents hdistinct)).Runs
      (w₀, (pipeline (S.withContents contents hdistinct)).start) s :=
    hrun.lift id fun _ _ => step_withContents hmore
  exact ⟨w₀, hw₀, hrun'.tail (.interfere ⟨.write _ _, undisturbed_wrote hname hcontent hsecure⟩)⟩

end fresh

/-! ## A file that gets to its destinations -/

/-- A site with one file, which has one order line. -/
def orderSite : Site where
  H := hashlib
  cwd := "/"
  settings := {}
  names := {"/watch/ORD-1.csv"}
  contents _ := {Sighting.sample.content}
  watched := by
    rintro name rfl
    have hfile : EntryName "ORD-1.csv".toList := by constructor <;> decide
    exact ⟨["ORD-1.csv".toList], by simp, by simpa using hfile, by decide +kernel⟩
  distinct := by
    refine Set.Subsingleton.injOn (Set.Subsingleton.image ?_ _) _
    rintro ⟨name, size, checksum⟩ ⟨rfl, ⟨_, rfl, rfl⟩, _, rfl, rfl⟩
      ⟨name', size', checksum'⟩ ⟨rfl, ⟨_, rfl, rfl⟩, _, rfl, rfl⟩
    rfl

/-- A move of the broker, the uploads or the observer that leaves the files as they are. -/
theorem World.Undisturbed.of_eq (haccepted : w'.accepted = w.accepted) (hruns : w'.runs = w.runs)
    (hfiles : w'.files = w.files) : w.Undisturbed S w' :=
  ⟨haccepted, hruns, fun _ _ h => .inl (hfiles ▸ h)⟩

/-- The watcher gets every true answer. -/
theorem observes_pipeline (S : Site) :
    Observes S.settings (threadWorld S.settings (pipelineCondition S) .watcher) := by
  intro w op x w' _ htrue h
  refine ⟨h, fun _ => ?_⟩
  cases op with
  | isfile path =>
      intro hfalse
      obtain rfl : x = false := Except.ok.inj hfalse
      cases hfile : w.files path with
      | none => rfl
      | some content =>
          rw [Op.Truthful, hfile] at htrue
          cases htrue
  | _ => trivial

/-- The consumer gets every answer, and uploads proceed. -/
theorem capable_pipeline (S : Site) :
    Capable S.settings (threadWorld S.settings (pipelineCondition S) .consumer) where
  answers h _ := ⟨h, fun hwatcher => by cases hwatcher⟩
  copies hconc hactive halive hparts hfile := by
    obtain ⟨hread, hstore⟩ := moves_of_pending hconc hactive halive hparts hfile
    exact .head ⟨hread, .of_eq rfl rfl rfl⟩ (.single ⟨hstore, .of_eq rfl rfl rfl⟩)

/-- The file is written, its event published and consumed, and both destinations hold the content. -/
theorem pipeline_converges_order : ∃ s : (pipeline orderSite).State,
    s.1.files (fsencode "/watch/ORD-1.csv") = some Sighting.sample.content ∧ s.1.runs ≠ [] ∧
      ∀ name content, s.1.files (fsencode name) = some content →
        (∀ o ∈ orderSite.objects name, s.1.objects o = some content) ∨
        ∃ body e, s.1.Holds {} body ∧ TransferEvent.fromJsonBytes body = .ok e ∧
          e.idempotencyKey.val = orderSite.key name content := by
  have hwatcher : Observes {} (threadWorld {} (pipelineCondition orderSite) .watcher) :=
    observes_pipeline orderSite
  have hconsumer : Capable {} (threadWorld {} (pipelineCondition orderSite) .consumer) :=
    capable_pipeline orderSite
  -- nothing was uploaded yet, so that the content is secure
  have hsecure : atHeads.Secure orderSite "/watch/ORD-1.csv" Sighting.sample.content :=
    .of_unclaimed (fun run hrun => absurd hrun List.not_mem_nil) fun run hrun => by cases hrun
  have hsighted := runs_sighted (fun _ _ h => by cases h) hwatcher hconsumer
    (undisturbed_wrote rfl rfl hsecure) (.of_eq rfl rfl rfl)
  have hcopied := runs_copied hconsumer (.of_eq rfl rfl rfl)
  have hpristine : World.Pristine {} := ⟨⟨⟨rfl, rfl, rfl⟩, rfl⟩, rfl, rfl, rfl, rfl⟩
  have hreach : (pipeline orderSite).Reachable World.Pristine (copied, fun _ => .head ()) :=
    ⟨{}, hpristine, hsighted.trans hcopied⟩
  obtain ⟨hfiles, hqueue, hnotices⟩ : copied.files = sighted.files ∧ copied.fileQueue = sighted.fileQueue ∧
      copied.notices = sighted.notices := uploadNext_frame
  refine ⟨_, (congrFun hfiles _).trans sighted_file, ?_,
    pipeline_converges orderSite hreach rfl hqueue hnotices⟩
  show copied.runs ≠ []
  rw [copied, World.uploadNext_runs]
  simp

end TransferWorker
