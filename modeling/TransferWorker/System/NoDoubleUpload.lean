import TransferWorker.System.StoreSoundness

/-! # Which uploads are repeated

A run of `upload_all` always goes to all destinations of its event, and only a run in which every
destination reported ok puts the key into the store. So a destination that has the file already is
uploaded to again after a partial failure; but once a run has succeeded at every destination no
further run for its key starts, unless the process dies, or the store refuses the key, between the
run's success and the insertion of the key.

* **`World.OnceOk`** — a run after one for the same key with every destination ok there is none.
* **`no_upload_after_success`** — in every reachable state.
* **`partial_failure_uploads_again`** — a destination that is uploaded to twice. -/

namespace TransferWorker

open CallTrees World

namespace UploadRun

/-- The idempotency key of the run's event. -/
def key (run : UploadRun) : String := run.event.idempotencyKey

/-- The upload to this object reported ok. -/
def Stores (run : UploadRun) (object : ObjectId) : Bool :=
  ((run.event.destinations.val.zip (run.outcomes.getD [])).any
    fun (d, outcome) => d.object = object && outcome = .returned)

/-- Results with a failure among them. -/
theorem not_allOk_of_results {run : UploadRun} {results : List UploadResult}
    (hresults : run.results = some results)
    (hfailures : (results.filter fun r => !r.ok) ≠ []) : ¬run.AllOk := by
  rintro ⟨results', hresults', -, hok⟩
  rw [hresults, Option.some.injEq] at hresults'
  subst hresults'
  refine hfailures (List.filter_eq_nil_iff.2 fun r hr => ?_)
  simp [hok r hr]

/-- A run without outcomes did not succeed. -/
theorem not_allOk_of_outcomes {run : UploadRun} (h : run.outcomes = none) : ¬run.AllOk := by
  rintro ⟨_, hresults, -⟩
  rw [UploadRun.results, h] at hresults
  cases hresults

end UploadRun

namespace World

/-- How many ended runs for a key reported a successful upload to an object. -/
def uploadsTo (w : World) (key : String) (object : ObjectId) : Nat :=
  (w.runs.filter fun run => run.key = key && run.Stores object).length

/-- **After a run for a key with every destination ok there is no other one for that key**, neither
ended nor active. -/
structure OnceOk (w : World) : Prop where
  /-- Among the ended runs. -/
  ended : w.runs.Pairwise fun run later => run.AllOk → later.key ≠ run.key
  /-- The active run has no outcomes, and there was no such run for its key. -/
  active : ∀ run, w.active = some run → run.outcomes = none ∧
    ∀ before ∈ w.runs, before.AllOk → run.key ≠ before.key

/-- The runs with every destination ok are recorded in the store, those for `key` excepted. -/
def Recorded (except : Option String) (w : World) : Prop :=
  ∀ run ∈ w.runs, run.AllOk → run.key ∈ w.doneKeys ∨ some run.key = except

end World

variable {settings : Settings} {w w' : World} {event : TransferEvent}

/-- What has evolved is the same run, either way. -/
theorem RunsEvolve.symm {runs runs' : List UploadRun} (h : RunsEvolve runs runs') :
    RunsEvolve runs' runs :=
  List.Forall₂.flip (h.imp fun _ _ hab => ⟨hab.1.symm, hab.2.symm⟩)

/-- A relation that is about events and outcomes only holds of the runs when they have evolved. -/
theorem RunsEvolve.pairwise {R : UploadRun → UploadRun → Prop} {runs runs' : List UploadRun}
    (h : RunsEvolve runs runs')
    (hR : ∀ {a b a' b' : UploadRun}, a'.event = a.event → a'.outcomes = a.outcomes →
      b'.event = b.event → b'.outcomes = b.outcomes → R a b → R a' b')
    (hp : runs.Pairwise R) : runs'.Pairwise R := by
  induction h with
  | nil => exact .nil
  | cons hab htail ih =>
      obtain ⟨hhead, hrest⟩ := List.pairwise_cons.1 hp
      refine List.pairwise_cons.2 ⟨fun b' hb' => ?_, ih hrest⟩
      obtain ⟨b, hb, hevent, houtcomes⟩ := RunsEvolve.exists (RunsEvolve.symm htail) hb'
      exact hR hab.1 hab.2 hevent.symm houtcomes.symm (hhead b hb)

/-- **A step that leaves the store alone, and of the upload runs all but their progress.** -/
structure Still (w w' : World) : Prop where
  /-- The store is the same. -/
  processed : w'.processed = w.processed
  /-- The ended runs are the same. -/
  runs : RunsEvolve w.runs w'.runs
  /-- The active run is the same. -/
  active : ∀ run', w'.active = some run' → ∃ run, w.active = some run ∧
    run'.event = run.event ∧ run'.outcomes = run.outcomes

namespace Still

/-- A still step keeps the successes apart. -/
theorem onceOk (h : Still w w') (hw : w.OnceOk) : w'.OnceOk where
  ended := by
    refine h.runs.pairwise (fun hea hoa heb _ hab hall => ?_) hw.ended
    rw [UploadRun.key, UploadRun.key, hea, heb]
    exact hab ((UploadRun.allOk_congr hea hoa).1 hall)
  active run' hrun' := by
    obtain ⟨run, hrun, hevent, houtcomes⟩ := h.active run' hrun'
    obtain ⟨hnone, hbefore⟩ := hw.active run hrun
    refine ⟨houtcomes.trans hnone, fun before' hbefore' hall => ?_⟩
    obtain ⟨before, hmem, hevent', houtcomes'⟩ := RunsEvolve.exists h.runs.symm hbefore'
    have hne := hbefore before hmem ((UploadRun.allOk_congr hevent' houtcomes').2 hall)
    rwa [UploadRun.key, UploadRun.key, hevent', ← hevent] at hne

/-- It keeps every success recorded. -/
theorem recorded (h : Still w w') {except : Option String} (hw : w.Recorded except) :
    w'.Recorded except := by
  intro run' hrun' hall
  obtain ⟨run, hrun, hevent, houtcomes⟩ := RunsEvolve.exists h.runs.symm hrun'
  have hrec := hw run hrun ((UploadRun.allOk_congr hevent houtcomes).2 hall)
  rwa [UploadRun.key, hevent, doneKeys, ← h.processed] at hrec

end Still

/-- The environment's steps leave the store and the upload runs alone. -/
theorem Move.still (h : Move settings w w') : Still w w' where
  processed := h.frame.1
  runs := h.runs
  active run' hrun' := by
    rcases h.active with hsame | ⟨run, run'', hrun, hrun'', _, hp, -⟩
    · exact ⟨run', hsame ▸ hrun', rfl, rfl⟩
    · rw [hrun'', Option.some.injEq] at hrun'
      subst hrun'
      exact ⟨run, hrun, hp.run_eq.1, hp.run_eq.2.1⟩

/-- The calls that leave the store and the upload runs alone. -/
def Op.leavesUploads : Op → Bool
  | .uploadStart _ _ => false
  | .uploadGather => false
  | .markDone _ _ => false
  | _ => true

/-- The calls that give an event away leave the uploads. -/
theorem givesAway_leavesUploads (tag : Nat) (event : TransferEvent) :
    GivesAway (fun op : Op => op.leavesUploads = true) tag event where
  publish _ _ _ _ _ := rfl
  ack := rfl

/-- A call that leaves the uploads is still. -/
theorem still_of_responds {op : Op} {r : Except Exn (Res op)} (hop : op.leavesUploads = true)
    (h : w.responds settings .consumer op r w') : Still w w' := by
  have hstore : op.changes .store = false := by cases op <;> first | rfl | cases hop
  have huploads : op.changes .uploads = false := by cases op <;> first | rfl | cases hop
  have hsame := frame_of_responds huploads h
  simp only [Aspect.Same, Prod.mk.injEq] at hsame
  refine ⟨frame_of_responds hstore h, ?_, fun run' hrun' => ⟨run', hsame.1 ▸ hrun', rfl, rfl⟩⟩
  rw [hsame.2]
  exact .refl _

/-! ## The programs -/

/-- **No gap between success and record**: the store does not refuse a key, and the process does not
die while the key of a run with every destination ok is not in the store. -/
def noGap : Condition calls Exn World Unit where
  call _ op r :=
    match op, r with
    | .markDone _ _, .error _ => False
    | _, _ => True
  move _ _ := True
  restart w _ := w.Recorded none

/-- The consumer's host without such gaps. -/
abbrev gaplessHost (settings : Settings) : Host calls Exn World Unit :=
  (consumerHost settings).under noGap

/-- The contract: the invariant at every moment. -/
def onceContract : Contract calls World := ⟨OnceOk, fun _ _ => True⟩

/-- The invariant, with every success recorded but those for `except`. -/
def Settled (except : Option String) (w : World) : Prop := w.OnceOk ∧ w.Recorded except

/-- All is recorded, and the key of the event is not in the store. -/
def Ready (event : TransferEvent) (w : World) : Prop :=
  Settled none w ∧ event.idempotencyKey.val ∉ w.doneKeys

/-- An assertion that is kept while uploads and store are left alone, and contains the invariant. -/
structure Steady (A : World → Prop) : Prop where
  /-- It is kept. -/
  still : ∀ w w', A w → Still w w' → A w'
  /-- It contains the invariant. -/
  inv : ∀ w, A w → w.OnceOk

/-- A steady assertion is kept by calls that leave the uploads. -/
theorem Steady.keeps {A : World → Prop} (hA : Steady A) :
    Keeps (gaplessHost settings).toEnvironment onceContract (fun op : Op => op.leavesUploads = true)
      A where
  stable _ _ h hm := hA.still _ _ h (Move.still hm.1)
  inv := hA.inv
  guar _ _ _ _ := trivial
  responds _ _ _ _ hop h hr := hA.still _ _ h (still_of_responds hop hr.1)

/-- That every success is recorded is steady. -/
theorem steady_settled (except : Option String) : Steady (Settled except) :=
  ⟨fun _ _ h hs => ⟨hs.onceOk h.1, hs.recorded h.2⟩, fun _ h => h.1⟩

/-- Calls that leave the uploads leave every success recorded. -/
theorem keeps_settled : Keeps (gaplessHost settings).toEnvironment onceContract
    (fun op : Op => op.leavesUploads = true) (Settled none) :=
  (steady_settled none).keeps

/-- They leave a key that is not done so. -/
theorem keeps_ready : Keeps (gaplessHost settings).toEnvironment onceContract
    (fun op : Op => op.leavesUploads = true) (Ready event) := by
  refine Steady.keeps ⟨fun w w' h hs => ⟨⟨hs.onceOk h.1.1, hs.recorded h.1.2⟩, ?_⟩, fun _ h => h.1.1⟩
  rw [doneKeys, hs.processed]
  exact h.2

/-- A run is started for an event that is not done: no earlier run for its key succeeded. -/
theorem Ready.start (h : Ready event w) (path : Path) : Settled none (w.startUploads event path) := by
  refine ⟨⟨h.1.1.ended, fun run hrun => ?_⟩, h.1.2⟩
  obtain rfl := Option.some.inj hrun
  refine ⟨rfl, fun before hbefore hall hkey => h.2 ?_⟩
  rcases h.1.2 before hbefore hall with hdone | hnone
  · rwa [← hkey] at hdone
  · cases hnone

/-- The active run ends. -/
theorem Settled.endUploads {run : UploadRun} {outcomes : Option (List Outcome)}
    (h : Settled none w) (hrun : w.active = some run) :
    Settled (some run.key) (w.endUploads { run with outcomes := outcomes }) := by
  have hbefore := (h.1.active run hrun).2
  refine ⟨⟨?_, fun run' hrun' => ?_⟩, fun run' hrun' hall => ?_⟩
  · refine List.pairwise_append.2 ⟨h.1.ended, List.pairwise_singleton _ _, fun before hmem later hl => ?_⟩
    rw [List.mem_singleton.1 hl]
    exact hbefore before hmem
  · cases hrun'
  · rcases List.mem_append.1 hrun' with hmem | hmem
    · rcases h.2 run' hmem hall with hdone | hnone
      · exact .inl hdone
      · cases hnone
    · rw [List.mem_singleton.1 hmem]
      exact .inr rfl

/-- The active run ends without success. -/
theorem Settled.endUploads_failed {run : UploadRun} (outcomes : Option (List Outcome))
    (h : Settled none w) (hrun : w.active = some run)
    (hfailed : ¬UploadRun.AllOk { run with outcomes := outcomes }) :
    Settled none (w.endUploads { run with outcomes := outcomes }) := by
  refine ⟨(h.endUploads hrun).1, fun run' hrun' hall => ?_⟩
  rcases List.mem_append.1 hrun' with hmem | hmem
  · exact h.2 run' hmem hall
  · rw [List.mem_singleton.1 hmem] at hall
    exact absurd hall hfailed

/-- Its key gets into the store. -/
theorem Settled.markDone {key : String} (h : Settled (some key) w) (correlationId : String) :
    Settled none (w.markDone key correlationId) := by
  have hgrows : Grows {} w (w.markDone key correlationId) := .markDone key correlationId
  have hruns : (w.markDone key correlationId).runs = w.runs := by
    unfold World.markDone
    split <;> rfl
  have hactive : (w.markDone key correlationId).active = w.active := by
    unfold World.markDone
    split <;> rfl
  refine ⟨⟨hruns ▸ h.1.ended, ?_⟩, fun run hrun hall => .inl ?_⟩
  · rw [hactive, hruns]
    exact h.1.active
  · rw [hruns] at hrun
    rcases h.2 run hrun hall with hdone | hkey
    · exact hgrows.done _ hdone
    · rw [Option.some.inj hkey]
      exact mem_doneKeys_markDone ..

/-- How `upload_all` ends: only a result list without failures leaves a success to be recorded. -/
def AfterUpload (event : TransferEvent) : Except Exn (List UploadResult) → World → Prop
  | .ok results, w =>
      if (results.filter fun r => !r.ok) = [] then Settled (some event.idempotencyKey.val) w
      else Settled none w
  | .error _, w => Settled none w

/-- **`upload_all`** of an event that is not done. -/
theorem uploadAll_once (path : Path) (h : Ready event w) :
    Safe (gaplessHost settings).toEnvironment onceContract (AfterUpload event)
      (uploadAll settings event path) w := by
  unfold uploadAll
  split
  · exact keeps_settled.raise (fun _ hv => hv) h.1
  · refine keeps_ready.other_bind (fun _ _ => trivial)
      (fun v x v' hv hr => ?_) (fun v e v' hv hr => ?_) h
    · obtain rfl : v' = v.startUploads event path := hr.1
      -- the run goes on until the gather answers
      have hstable : (gaplessHost settings).toEnvironment.Stable
          fun u => Settled none u ∧ u.Uploading event :=
        fun _ _ hu hm => ⟨keeps_settled.stable hu.1 hm, hu.2.move hm.1⟩
      refine Safe.perform_bind hstable (fun _ hu => hu.1.1) (fun _ _ => trivial)
        (fun u outcomes u' hu hr => ?_) (fun u e u' hu hr => ?_)
        ⟨hv.start path, _, rfl, rfl, by simp⟩
      · obtain ⟨⟨-, run, hrun, houtcomes, rfl⟩, -⟩ := hr
        obtain ⟨run', hrun', hevent, -⟩ := hu.2
        obtain rfl : run = run' := Option.some.inj (hrun.symm.trans hrun')
        -- the results are those of the run at hand
        have hresults : UploadRun.results { run with outcomes := some outcomes } =
            some (List.zipWith uploadOne event.destinations.val outcomes) := by
          rw [← hevent]
          rfl
        by_cases hfailures :
            ((List.zipWith uploadOne event.destinations.val outcomes).filter fun r => !r.ok) = []
        · refine (steady_settled (some event.idempotencyKey.val)).keeps.ret (fun v hv => ?_) ?_
          · rw [AfterUpload, if_pos hfailures]
            exact hv
          · rw [← hevent]
            exact hu.1.endUploads hrun
        · refine keeps_settled.ret (fun v hv => ?_)
            (hu.1.endUploads_failed _ hrun (UploadRun.not_allOk_of_results hresults hfailures))
          rw [AfterUpload, if_neg hfailures]
          exact hv
      · -- `upload_all` is cut short: the run has no outcomes
        obtain ⟨run, hrun, -⟩ := hu.2
        have hend := failing_uploadGather settings .consumer u hrun hr.1
        have hnone := (hu.1.1.active run hrun).1
        refine keeps_settled.raise (fun _ hv => hv) ?_
        rw [hend]
        exact hu.1.endUploads_failed run.outcomes hrun
          (UploadRun.not_allOk_of_outcomes hnone)
    · obtain rfl : v' = v := hr.1.2
      exact keeps_settled.raise (fun _ hu => hu) hv.1

/-! ## The consumer -/

/-- A piece of the consumer is safe, and every success is recorded at its end. -/
abbrev SafeOnce {α : Type} (settings : Settings) (p : Prog α) (w : World) : Prop :=
  Safe (gaplessHost settings).toEnvironment onceContract (fun _ => Settled none) p w

/-- `_handle` from the upload on. -/
theorem handleUpload_once (tag : Nat) (h : Ready event w) :
    SafeOnce settings (Consumer.handleUpload settings tag event) w := by
  refine Safe.bind (uploadAll_once _ h) (fun results v hv _ => ?_) fun _ _ hv => hv
  unfold AfterUpload at hv
  dsimp only at hv ⊢
  split
  · rename_i hfailures
    rw [if_pos hfailures] at hv
    refine (steady_settled _).keeps.other_bind (fun _ _ => trivial) (fun u x u' hu hr => ?_)
      (fun u e u' _ hr => hr.2.elim) hv
    obtain rfl : u' = u.markDone event.idempotencyKey event.correlationId := hr.1
    exact keeps_settled.of_calls (Program.calls_perform rfl) (hu.markDone event.correlationId)
  · rename_i hfailures
    rw [if_neg hfailures] at hv
    exact keeps_settled.of_calls (calls_handleFailure (givesAway_leavesUploads tag _) _) hv

/-- `_handle` from the check of the source file on. -/
theorem handleSource_once (tag : Nat) (h : Ready event w) :
    SafeOnce settings (Consumer.handleSource settings tag event) w := by
  have hdead : ∀ (v : World) (reason : String), Ready event v →
      SafeOnce settings (Consumer.deadLetter settings tag event reason) v := fun v reason hv =>
    keeps_settled.of_calls (calls_deadLetter (givesAway_leavesUploads tag _) _) hv.1
  refine keeps_ready.call_bind rfl (fun _ _ hv => hv.1) (fun _ isfile v _ _ hv => ?_) h
  split
  · exact hdead v _ hv
  · refine keeps_ready.bind (calls_scanCsvFile _ rfl rfl) (fun _ _ hu => hu.1) (fun issues u hu => ?_)
      hv
    split
    · exact hdead u _ hu
    · exact handleUpload_once tag hu

/-- **`_handle` records every success before it ends.** -/
theorem handle_once (tag : Nat) (m : Message) (h : Settled none w) :
    SafeOnce settings (Consumer.handle settings tag m) w := by
  unfold Consumer.handle
  split
  · exact keeps_settled.of_calls (Program.calls_bind (Program.calls_perform rfl) fun _ =>
      Program.calls_perform rfl) h
  · split
    · exact keeps_settled.of_calls (calls_deadLetter (givesAway_leavesUploads tag _) _) h
    · exact keeps_settled.raise (fun _ hv => hv) h
    · refine keeps_settled.call_bind rfl (fun _ _ hv => hv) (fun v done v' _ hn hv' => ?_) h
      split
      · exact keeps_settled.of_calls (Program.calls_perform rfl) hv'
      · obtain ⟨⟨hdone, rfl⟩, -⟩ := hn
        exact handleSource_once tag ⟨hv', by simpa [*] using hdone.symm⟩

/-- The calls outside of `_handle` leave the uploads. -/
theorem leavesUploads_of_isSession {op : Op} (h : op.isSession = true) : op.leavesUploads = true := by
  cases op <;> first | rfl | cases h

/-- **One turn of the loop.** -/
theorem turn_once (h : Settled none w) : SafeOnce settings (Consumer.turn settings) w := by
  refine turn_rule keeps_settled (fun _ => leavesUploads_of_isSession) rfl
    (fun _ _ => keeps_settled.mono fun op hop => hop ▸ rfl) (fun _ _ _ hv => hv)
    (fun v tag m v' hv hr => ?_) (fun tag m _ hv => handle_once tag m hv) h
  exact keeps_settled.responds v (.consume settings.queueName) _ v' rfl hv hr

/-- A crash with every success recorded. -/
theorem Settled.crash (h : w.OnceOk) (hrec : w.Recorded none) : Settled none (w.crash settings) := by
  have hall : (w.runs ++ w.active.toList).Pairwise
      fun run later => run.AllOk → later.key ≠ run.key := by
    refine List.pairwise_append.2 ⟨h.ended, ?_, fun before hmem later hl => ?_⟩
    · cases w.active with
      | none => exact .nil
      | some run => exact List.pairwise_singleton _ _
    · exact (h.active later (Option.mem_toList.1 hl)).2 before hmem
  have hevolve : RunsEvolve (w.runs ++ w.active.toList) (w.crash settings).runs := runsEvolve_crash
  refine ⟨⟨hevolve.pairwise (fun hea hoa heb _ hab hok => ?_) hall, fun run hrun => ?_⟩,
    fun run' hrun' hok => ?_⟩
  · rw [UploadRun.key, UploadRun.key, hea, heb]
    exact hab ((UploadRun.allOk_congr hea hoa).1 hok)
  · cases hrun
  · obtain ⟨run, hrun, hevent, houtcomes⟩ := RunsEvolve.exists hevolve.symm hrun'
    have hok' := (UploadRun.allOk_congr hevent houtcomes).2 hok
    rcases List.mem_append.1 hrun with hmem | hmem
    · have := hrec run hmem hok'
      rwa [UploadRun.key, hevent] at this
    · -- the run that the crash cuts short has no outcomes
      have hnone := (h.active run (Option.mem_toList.1 hmem)).1
      exact absurd hok' (UploadRun.not_allOk_of_outcomes hnone)

/-- **No upload after a success.** In every run of retries, replays, redeliveries, faults and crashes
in which the store takes the key of every upload run that succeeded at all destinations before the
process dies, no later run, ended or in progress, is for the key of such a run. -/
theorem no_upload_after_success (settings : Settings) {s : World × Phase calls Exn Unit}
    (hs : (gaplessHost settings).Reachable (fun w => w.runs = [] ∧ w.active = none) s) :
    (s.1.runs ++ s.1.active.toList).Pairwise fun run later => run.AllOk → later.key ≠ run.key := by
  have hinit : ∀ w : World, w.runs = [] ∧ w.active = none → Settled none w := by
    intro w ⟨hruns, hactive⟩
    refine ⟨⟨?_, ?_⟩, ?_⟩
    · simp [hruns]
    · simp [hactive]
    · simp [World.Recorded, hruns]
  have hinv : s.1.OnceOk := (consumer_rule rfl keeps_settled (fun _ => leavesUploads_of_isSession)
    (fun _ => turn_once) hinit
    (fun w φ w' hφ hw => by
      obtain ⟨rfl, hrec⟩ := hw
      exact Settled.crash hφ.inv hrec) hs).inv
  refine List.pairwise_append.2 ⟨hinv.ended, ?_, fun before hmem later hl => ?_⟩
  · cases s.1.active with
    | none => exact .nil
    | some run => exact List.pairwise_singleton _ _
  · exact (hinv.active later (Option.mem_toList.1 hl)).2 before hmem

/-! ## A repeated upload -/

/-- The upload of the example event succeeds on S3 and fails on GCS; its retry succeeds on both. -/
theorem runs_partial_failure {H : Host calls Exn World Unit} (hH : Admits {} H) :
    ∃ w w' : World, w.processed = [] ∧ w.runs = [] ∧ w.active = none ∧
      H.Runs (w, .setup H.service.setup) (w', .head ()) ∧
      w'.uploadsTo TransferEvent.sample.idempotencyKey sampleS3.object = 2 := by
  obtain ⟨content, hcontent⟩ := exists_scannable
  obtain ⟨w, e, retried, hfirst, hw⟩ := hH.runs_sample_retry hcontent
  have hne : ({} : Settings).queueName ≠ ({} : Settings).retryQueueName := by decide
  let w' := w.expireNext {} e []
  have hq : w'.queue ({} : Settings).queueName = e :: [] := by
    refine (setQueue_self ..).trans ?_
    rw [setQueue_ne _ hne, hw.main, List.nil_append]
  have hsupported : retried.assertSupported = .ok () := by
    rw [hw.event]
    exact TransferEvent.sample_supported
  have hdone : retried.idempotencyKey.val ∉ w'.doneKeys := by
    rw [doneKeys, show w'.processed = [] from hw.processed]
    exact List.not_mem_nil
  have hsecond := hH.serves.runs_upload hw.idle.expireNext hq hw.decodes hdone
    (uploadable_of_files hcontent hw.files hsupported)
  refine ⟨.fresh content, _, rfl, rfl, rfl, (hfirst.trans (hH.serves.runs_expire hw.retry _)).trans hsecond,
    ?_⟩
  rw [uploadsTo, uploadNext_runs, show w'.runs = _ from hw.runs, hw.event]
  rfl

/-- No crash at all. -/
def noCrash : Condition calls Exn World Unit := ⟨fun _ _ _ => True, fun _ _ => True, fun _ _ => False⟩

/-- **A destination that is uploaded to twice**: it is not so that, in every run without a crash,
every destination receives at most one successful upload for a key. -/
theorem partial_failure_uploads_again : ¬∀ s : World × Phase calls Exn Unit,
    ((consumerHost {}).under noCrash).Reachable
      (fun w => w.processed = [] ∧ w.runs = [] ∧ w.active = none) s →
    ∀ key object, s.1.uploadsTo key object ≤ 1 := by
  intro h
  have hH : Admits {} ((consumerHost {}).under noCrash) :=
    (consumerHost_admits distinct_default).under (fun _ _ _ => trivial) fun _ _ _ => trivial
  obtain ⟨w, w', hprocessed, hruns, hactive, hrun, htwo⟩ := runs_partial_failure hH
  have hle := h (w', .head ()) ⟨w, ⟨hprocessed, hruns, hactive⟩, hrun⟩
    TransferEvent.sample.idempotencyKey sampleS3.object
  rw [htwo] at hle
  omega

/-- After the two uploads of the example event no third run starts. -/
theorem no_upload_after_success_sample : ∃ s : World × Phase calls Exn Unit,
    s.1.uploadsTo TransferEvent.sample.idempotencyKey sampleS3.object = 2 ∧
    (s.1.runs ++ s.1.active.toList).Pairwise
      fun run later => run.AllOk → later.key ≠ run.key := by
  have hH : Admits {} (gaplessHost {}) :=
    (consumerHost_admits distinct_default).under (fun _ op _ => by cases op <;> trivial) fun _ _ _ => trivial
  obtain ⟨w, w', -, hruns, hactive, hrun, htwo⟩ := runs_partial_failure hH
  exact ⟨(w', .head ()), htwo, no_upload_after_success {} ⟨w, ⟨hruns, hactive⟩, hrun⟩⟩

end TransferWorker
