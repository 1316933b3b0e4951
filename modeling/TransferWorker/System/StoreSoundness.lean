import TransferWorker.System.NoLoss
import TransferWorker.System.Progress

/-! # Soundness and finality of the idempotency store

A key enters the store only after an upload run for it in which every destination reported ok, and
no upload run starts for a key that is in the store. The consumer is the only writer of the store,
`_handle` asks it before it uploads and tells it after a run without failures.

* **`World.OkRun`** — some ended run for the key had every destination ok.
* **`store_sound`** — soundness and finality in every reachable state. -/

namespace TransferWorker

open CallTrees World

namespace UploadRun

/-- Whether every destination reported ok is a matter of the event and the outcomes. -/
theorem allOk_congr {run run' : UploadRun} (hevent : run'.event = run.event)
    (houtcomes : run'.outcomes = run.outcomes) : run'.AllOk ↔ run.AllOk := by
  rw [AllOk, AllOk, results, results, hevent, houtcomes]

/-- Results of the right number and without a failure. -/
theorem allOk_of_results {run : UploadRun} {results : List UploadResult}
    (hresults : run.results = some results)
    (hlength : results.length = run.event.destinations.val.length)
    (hfailures : (results.filter fun r => !r.ok) = []) : run.AllOk := by
  refine ⟨results, hresults, hlength, fun r hr => ?_⟩
  have hnot := List.filter_eq_nil_iff.1 hfailures r hr
  simpa using hnot

end UploadRun

namespace World

/-- **Some ended run for the key had every destination ok.** -/
def OkRun (w : World) (key : String) : Prop :=
  ∃ run ∈ w.runs, run.event.idempotencyKey.val = key ∧ run.AllOk

/-- **The store is sound**: every key in it had such a run. -/
def StoreSound (w : World) : Prop := ∀ key ∈ w.doneKeys, w.OkRun key

/-- The active upload run is for this event, with one part for each destination. -/
def Uploading (event : TransferEvent) (w : World) : Prop :=
  ∃ run, w.active = some run ∧ run.event = event ∧
    run.parts.length = event.destinations.val.length

/-- A run for this event has ended with these results, one for each destination. -/
def Uploaded (event : TransferEvent) (results : List UploadResult) (w : World) : Prop :=
  ∃ run ∈ w.runs, run.event = event ∧ run.results = some results ∧
    results.length = event.destinations.val.length

end World

/-- A step that leaves the store alone and at most adds upload runs. -/
structure Quiet (w w' : World) : Prop where
  /-- The store is the same. -/
  processed : w'.processed = w.processed
  /-- Upload runs are kept. -/
  runs : ∃ more, RunsEvolve (w.runs ++ more) w'.runs

variable {settings : Settings} {w w' : World} {event : TransferEvent}

/-- What is known of an ended run stays known. -/
theorem RunsEvolve.exists {runs runs' : List UploadRun} (h : RunsEvolve runs runs') {run : UploadRun}
    (hrun : run ∈ runs) : ∃ run' ∈ runs', run'.event = run.event ∧ run'.outcomes = run.outcomes := by
  induction h with
  | nil => exact absurd hrun List.not_mem_nil
  | cons hab _ ih =>
      rcases List.mem_cons.1 hrun with rfl | hrun
      · exact ⟨_, List.mem_cons_self .., hab⟩
      · obtain ⟨run', hmem, heq⟩ := ih hrun
        exact ⟨run', List.mem_cons_of_mem _ hmem, heq⟩

namespace Quiet

/-- An upload run is found again. -/
theorem run (h : Quiet w w') {run : UploadRun} (hrun : run ∈ w.runs) :
    ∃ run' ∈ w'.runs, run'.event = run.event ∧ run'.outcomes = run.outcomes := by
  obtain ⟨more, hmore⟩ := h.runs
  exact hmore.exists (List.mem_append_left _ hrun)

/-- The store has the same keys. -/
theorem doneKeys (h : Quiet w w') : w'.doneKeys = w.doneKeys := by
  rw [World.doneKeys, World.doneKeys, h.processed]

/-- A run for the key with every destination ok is found again. -/
theorem okRun (h : Quiet w w') {key : String} (hok : w.OkRun key) : w'.OkRun key := by
  obtain ⟨run, hrun, hkey, hall⟩ := hok
  obtain ⟨run', hrun', hevent, houtcomes⟩ := h.run hrun
  exact ⟨run', hrun', by rw [hevent, hkey], (UploadRun.allOk_congr hevent houtcomes).2 hall⟩

/-- The store stays sound. -/
theorem storeSound (h : Quiet w w') (hs : w.StoreSound) : w'.StoreSound := by
  intro key hkey
  rw [h.doneKeys] at hkey
  exact h.okRun (hs key hkey)

/-- What was uploaded stays uploaded. -/
theorem uploaded (h : Quiet w w') {results : List UploadResult}
    (hu : w.Uploaded event results) : w'.Uploaded event results := by
  obtain ⟨run, hrun, hevent, hresults, hlength⟩ := hu
  obtain ⟨run', hrun', hevent', houtcomes⟩ := h.run hrun
  refine ⟨run', hrun', hevent'.trans hevent, ?_, hlength⟩
  rw [← hresults, UploadRun.results, UploadRun.results, hevent', houtcomes]

/-- Quiet is what leaves the store and the ended runs as they are. -/
theorem of_evolve (hprocessed : w'.processed = w.processed) (hruns : RunsEvolve w.runs w'.runs) :
    Quiet w w' :=
  ⟨hprocessed, [], by rwa [List.append_nil]⟩

end Quiet

/-- The environment's steps are quiet. -/
theorem Move.quiet (h : Move settings w w') : Quiet w w' := .of_evolve h.frame.1 h.runs

/-- A call writes the store. -/
def Op.marks : Op → Bool
  | .markDone _ _ => true
  | _ => false

/-- **Every call of the consumer but an insertion is quiet**, however it ends. -/
theorem quiet_of_responds (settings : Settings) (op : Op) {r : Except Exn (Res op)}
    (hop : op.marks = false) (h : w.responds settings .consumer op r w') : Quiet w w' := by
  have hstore : op.changes .store = false := by cases op <;> first | rfl | simp [Op.marks] at hop
  refine ⟨frame_of_responds hstore h, ?_⟩
  by_cases huploads : op.changes .uploads = false
  · have hsame := frame_of_responds huploads h
    simp only [Aspect.Same, Prod.mk.injEq] at hsame
    exact ⟨[], by rw [List.append_nil, hsame.2]; exact .refl _⟩
  · cases op with
    | uploadStart event path =>
        cases r with
        | ok x =>
            obtain rfl := h
            exact ⟨[], by rw [List.append_nil]; exact .refl _⟩
        | error e =>
            obtain rfl := h.2
            exact ⟨[], by rw [List.append_nil]; exact .refl _⟩
    | uploadGather =>
        cases r with
        | ok x =>
            obtain ⟨-, run, -, -, rfl⟩ := h
            exact ⟨[_], .refl _⟩
        | error e =>
            obtain ⟨-, rfl⟩ := h
            split
            · exact ⟨[], by rw [List.append_nil]; exact .refl _⟩
            · exact ⟨[_], .refl _⟩
    | _ => exact absurd rfl huploads

/-! ## The programs -/

/-- **The contract**: the store is sound; an upload starts only for a key that is not in the store,
and a key is inserted only after a run with every destination ok. -/
def storeContract : Contract calls World where
  inv := StoreSound
  guar w op :=
    match op with
    | .uploadStart event _ => event.idempotencyKey.val ∉ w.doneKeys
    | .markDone key _ => w.OkRun key
    | _ => True

/-- The calls with no obligation. -/
def Op.free : Op → Bool
  | .uploadStart _ _ => false
  | .markDone _ _ => false
  | _ => true

/-- A call that is free marks nothing. -/
theorem marks_of_free {op : Op} (h : op.free = true) : op.marks = false := by
  cases op <;> first | rfl | cases h

/-- The calls that give an event away are free. -/
theorem givesAway_free (tag : Nat) (event : TransferEvent) :
    GivesAway (fun op : Op => op.free = true) tag event where
  publish _ _ _ _ _ := rfl
  ack := rfl

/-- A free call meets the guarantee. -/
theorem guar_of_free {op : Op} (h : op.free = true) : storeContract.guar w op := by
  cases op <;> trivial

/-- An assertion that quiet steps keep, and that contains the invariant. -/
structure Calm (A : World → Prop) : Prop where
  /-- Quiet steps keep it. -/
  quiet : ∀ w w', A w → Quiet w w' → A w'
  /-- It contains the invariant. -/
  sound : ∀ w, A w → w.StoreSound

/-- A calm assertion is kept by free calls. -/
theorem Calm.keeps {A : World → Prop} (hA : Calm A) :
    Keeps (consumerHost settings).toEnvironment storeContract (fun op : Op => op.free = true) A where
  stable _ _ h hm := hA.quiet _ _ h (Move.quiet hm)
  inv := hA.sound
  guar _ _ hop _ := guar_of_free hop
  responds _ op _ _ hop h hr := hA.quiet _ _ h (quiet_of_responds settings op (marks_of_free hop) hr)

/-- The key of the event is not in the store. -/
def NotDone (event : TransferEvent) (w : World) : Prop :=
  w.StoreSound ∧ event.idempotencyKey.val ∉ w.doneKeys

/-- The soundness of the store is calm. -/
theorem calm_sound : Calm StoreSound := ⟨fun _ _ h hq => hq.storeSound h, fun _ => id⟩

/-- That a key is not done is calm. -/
theorem calm_notDone : Calm (NotDone event) :=
  ⟨fun _ _ h hq => ⟨hq.storeSound h.1, hq.doneKeys ▸ h.2⟩, fun _ h => h.1⟩

/-- What was uploaded is calm. -/
theorem calm_uploaded (results : List UploadResult) :
    Calm fun w => w.StoreSound ∧ w.Uploaded event results :=
  ⟨fun _ _ h hq => ⟨hq.storeSound h.1, hq.uploaded h.2⟩, fun _ h => h.1⟩

/-- A run with every destination ok is calm. -/
theorem calm_okRun (key : String) : Calm fun w => w.StoreSound ∧ w.OkRun key :=
  ⟨fun _ _ h hq => ⟨hq.storeSound h.1, hq.okRun h.2⟩, fun _ h => h.1⟩

/-- Free calls keep the store sound. -/
theorem keeps_storeSound : Keeps (consumerHost settings).toEnvironment storeContract
    (fun op : Op => op.free = true) StoreSound :=
  calm_sound.keeps

/-- Free calls keep a key that is not done so. -/
theorem keeps_notDone : Keeps (consumerHost settings).toEnvironment storeContract
    (fun op : Op => op.free = true) (NotDone event) :=
  calm_notDone.keeps

/-- A piece of the consumer is safe, and the store is sound at its end. -/
abbrev SafeStore {α : Type} (settings : Settings) (p : Prog α) (w : World) : Prop :=
  Safe (consumerHost settings).toEnvironment storeContract (fun _ => StoreSound) p w

/-- The active run stays one for the event while its uploads make progress. -/
theorem World.Uploading.move (h : w.Uploading event) (hm : Move settings w w') : w'.Uploading event := by
  obtain ⟨run, hactive, hevent, hlength⟩ := h
  rcases hm.active with hsame | ⟨run₀, run', hrun₀, hrun', _, hp, -⟩
  · exact ⟨run, hsame ▸ hactive, hevent, hlength⟩
  · rw [hactive, Option.some.injEq] at hrun₀
    subst hrun₀
    obtain ⟨hevent', -, -, hparts⟩ := hp.run_eq
    have hcount := congrArg List.length hparts
    simp only [List.length_map] at hcount
    exact ⟨run', hrun', hevent'.trans hevent, hcount.trans hlength⟩

/-- The end of an active run for the event. -/
theorem World.Uploading.gather {outcomes : List Outcome} {run : UploadRun} (h : w.Uploading event)
    (hrun : w.active = some run)
    (houtcomes : List.Forall₂ (fun p o => p.state.Reports o) run.parts outcomes) :
    (w.endUploads { run with outcomes := some outcomes }).Uploaded event
      (List.zipWith uploadOne event.destinations.val outcomes) := by
  obtain ⟨run', hrun', hevent, hlength⟩ := h
  rw [hrun, Option.some.injEq] at hrun'
  subst hrun'
  refine ⟨_, List.mem_append_right _ (List.mem_singleton_self _), hevent, ?_, ?_⟩
  · rw [UploadRun.results, ← hevent]
    rfl
  · rw [List.length_zipWith, ← houtcomes.length_eq, hlength, min_self]

/-- **`upload_all`** of an event that is not in the store ends with results of a run for it. -/
theorem uploadAll_store (path : Path) (h : NotDone event w) :
    Safe (consumerHost settings).toEnvironment storeContract
      (fun r v => v.StoreSound ∧ ∀ results, r = .ok results → v.Uploaded event results)
      (uploadAll settings event path) w := by
  have hraise : ∀ v e, v.StoreSound → Safe (consumerHost settings).toEnvironment storeContract
      (fun r v => v.StoreSound ∧ ∀ results, r = .ok results → v.Uploaded event results)
      (.raise e) v := fun v e hv => keeps_storeSound.raise (fun v hv => ⟨hv, by simp⟩) hv
  unfold uploadAll
  split
  · exact hraise w _ h.1
  · refine Safe.perform_bind keeps_notDone.stable calm_notDone.sound (fun v hv => hv.2)
      (fun v x v' hv hr => ?_) (fun v e v' hv hr => ?_) h
    · have hstart : Quiet v v' :=
        quiet_of_responds settings (.uploadStart event path) (r := .ok x) rfl hr
      obtain rfl : v' = v.startUploads event path := hr
      -- the run is under way; interference only moves its parts
      have hstable : (consumerHost settings).toEnvironment.Stable
          fun u => u.StoreSound ∧ u.Uploading event :=
        fun _ _ hu hm => ⟨(Move.quiet hm).storeSound hu.1, hu.2.move hm⟩
      refine Safe.perform_bind hstable (fun u hu => hu.1) (fun _ _ => trivial)
        (fun u outcomes u' hu hr => ?_) (fun u e u' hu hr => ?_)
        ⟨hstart.storeSound hv.1, _, rfl, rfl, by simp⟩
      · have hend : Quiet u u' := quiet_of_responds settings .uploadGather (r := .ok outcomes) rfl hr
        obtain ⟨-, run, hrun, houtcomes, rfl⟩ := hr
        refine (calm_uploaded _).keeps.ret (fun v hv => ⟨hv.1, fun results hres => ?_⟩)
          ⟨hend.storeSound hu.1, hu.2.gather hrun houtcomes⟩
        rw [← Except.ok.inj hres]
        exact hv.2
      · have hend : Quiet u u' := quiet_of_responds settings .uploadGather (r := .error e) rfl hr
        exact hraise u' e (hend.storeSound hu.1)
    · have hstart : Quiet v v' :=
        quiet_of_responds settings (.uploadStart event path) (r := .error e) rfl hr
      exact hraise v' e (hstart.storeSound hv.1)

/-! ## `_handle` -/

/-- An insertion for which there was a run with every destination ok. -/
theorem World.StoreSound.markDone {key : String} (h : w.StoreSound) (hok : w.OkRun key)
    (correlationId : String) : (w.markDone key correlationId).StoreSound := by
  unfold World.markDone
  split
  · exact h
  · intro key' hkey'
    simp only [doneKeys, List.map_append, List.map_cons, List.map_nil, List.mem_append,
      List.mem_singleton] at hkey'
    rcases hkey' with hkey' | rfl
    · exact h key' hkey'
    · exact hok

/-- A key is inserted after a run for it with every destination ok. -/
theorem markDone_store {β : Type} {key correlationId : String} {f : Unit → Prog β}
    (hf : ∀ u, (f u).Calls fun op : Op => op.free = true) (h : w.StoreSound) (hok : w.OkRun key) :
    SafeStore settings (call (.markDone key correlationId) >>= f) w := by
  refine Safe.perform_bind (calm_okRun key).keeps.stable (calm_okRun key).sound (fun v hv => hv.2)
    (fun v x v' hv hr => ?_) (fun v e v' hv hr => ?_) ⟨h, hok⟩
  · obtain rfl := hr
    exact keeps_storeSound.of_calls (hf x) (hv.1.markDone hv.2 correlationId)
  · refine keeps_storeSound.raise (fun _ hu => hu) ?_
    rcases hr with rfl | rfl
    · exact hv.1
    · exact hv.1.markDone hv.2 correlationId

/-- `_handle` from the upload on. -/
theorem handleUpload_store (tag : Nat) (h : NotDone event w) :
    SafeStore settings (Consumer.handleUpload settings tag event) w := by
  refine Safe.bind (uploadAll_store _ h) (fun results v hv _ => ?_) fun _ _ hv => hv.1
  dsimp only
  split
  · rename_i hfailures
    obtain ⟨run, hrun, rfl, hresults, hlength⟩ := hv.2 results rfl
    exact markDone_store (fun _ => Program.calls_perform rfl) hv.1
      ⟨run, hrun, rfl, UploadRun.allOk_of_results hresults hlength hfailures⟩
  · exact keeps_storeSound.of_calls (calls_handleFailure (givesAway_free tag _) _) hv.1

/-- `_handle` from the check of the source file on: nothing changes the store until the upload. -/
theorem handleSource_store (tag : Nat) (h : NotDone event w) :
    SafeStore settings (Consumer.handleSource settings tag event) w := by
  have hdead : ∀ (v : World) (reason : String), NotDone event v →
      SafeStore settings (Consumer.deadLetter settings tag event reason) v := fun v reason hv =>
    keeps_storeSound.of_calls (calls_deadLetter (givesAway_free tag _) _) hv.1
  refine keeps_notDone.call_bind rfl (fun _ _ hv => hv.1) (fun _ isfile v _ _ hv => ?_) h
  split
  · exact hdead v _ hv
  · refine keeps_notDone.bind (calls_scanCsvFile _ rfl rfl) (fun _ _ hu => hu.1)
      (fun issues u hu => ?_) hv
    split
    · exact hdead u _ hu
    · exact handleUpload_store tag hu

/-- **`_handle` keeps the store sound**, and uploads only what is not done. -/
theorem handle_store (tag : Nat) (m : Message) (h : w.StoreSound) :
    SafeStore settings (Consumer.handle settings tag m) w := by
  unfold Consumer.handle
  split
  · exact keeps_storeSound.of_calls (Program.calls_bind (Program.calls_perform rfl) fun _ =>
      Program.calls_perform rfl) h
  · split
    · exact keeps_storeSound.of_calls (calls_deadLetter (givesAway_free tag _) _) h
    · exact keeps_storeSound.raise (fun _ hv => hv) h
    · refine keeps_storeSound.call_bind rfl (fun _ _ hv => hv) (fun v done v' _ hn hv' => ?_) h
      split
      · exact keeps_storeSound.of_calls (Program.calls_perform rfl) hv'
      · obtain ⟨hdone, rfl⟩ := hn
        exact handleSource_store tag ⟨hv', by simpa [*] using hdone.symm⟩

/-! ## The consumer -/

/-- The calls outside of `_handle` are free. -/
theorem free_of_isSession {op : Op} (h : op.isSession = true) : op.free = true := by
  cases op <;> first | rfl | cases h

/-- **One turn of the loop.** -/
theorem turn_store (h : w.StoreSound) : SafeStore settings (Consumer.turn settings) w := by
  refine turn_rule keeps_storeSound (fun _ => free_of_isSession) rfl
    (fun _ _ => keeps_storeSound.mono fun op hop => hop ▸ rfl) (fun _ _ _ hv => hv)
    (fun v tag m v' hv hr => ?_) (fun tag m _ hv => handle_store tag m hv) h
  exact keeps_storeSound.responds v (.consume settings.queueName) _ v' rfl hv hr

/-- A crash ends the active run and keeps the store. -/
theorem quiet_crash : Quiet w (w.crash settings) := ⟨rfl, _, runsEvolve_crash⟩

/-- Every reachable thread meets the contract of the store. -/
theorem store_of_reachable {s : World × Phase calls Exn Unit}
    (hs : (consumerHost settings).Reachable (fun w => w.processed = []) s) :
    Service.PhaseSafe (consumerHost settings).toEnvironment storeContract (allPosts StoreSound)
      s.2 s.1 := by
  refine consumer_rule rfl keeps_storeSound (fun _ => free_of_isSession) (fun _ => turn_store)
    (fun w hw key hkey => ?_) (fun _ _ _ hφ hw => hw ▸ quiet_crash.storeSound hφ.inv) hs
  rw [doneKeys, hw] at hkey
  exact absurd hkey List.not_mem_nil

/-- **Soundness and finality of the idempotency store.** The store starts empty; whatever the calls
answer, and however deliveries, replays, faults, crashes and restarts are interleaved, every key in
the store had an upload run in which every destination (there is at least one) reported ok, and no
upload run is started for an event whose key is in the store. -/
theorem store_sound (settings : Settings) {s : World × Phase calls Exn Unit}
    (hs : (consumerHost settings).Reachable (fun w => w.processed = []) s) :
    (∀ key ∈ s.1.doneKeys, ∃ run ∈ s.1.runs, run.event.idempotencyKey.val = key ∧
      run.event.destinations.val ≠ [] ∧ run.AllOk) ∧
    ∀ event path, s.2.Calling (.uploadStart event path) →
      event.idempotencyKey.val ∉ s.1.doneKeys := by
  have hsafe := store_of_reachable hs
  refine ⟨fun key hkey => ?_, fun event path ⟨k, hk⟩ => (hsafe.pending hk).1⟩
  obtain ⟨run, hrun, hkey', hok⟩ := hsafe.inv key hkey
  exact ⟨run, hrun, hkey', run.event.destinations.property, hok⟩

/-- The key of the example event gets into the store. -/
theorem store_sound_sample : ∃ s : World × Phase calls Exn Unit,
    TransferEvent.sample.idempotencyKey.val ∈ s.1.doneKeys ∧
    (∀ key ∈ s.1.doneKeys, ∃ run ∈ s.1.runs, run.event.idempotencyKey.val = key ∧
      run.event.destinations.val ≠ [] ∧ run.AllOk) ∧
    ∀ event path, s.2.Calling (.uploadStart event path) →
      event.idempotencyKey.val ∉ s.1.doneKeys := by
  obtain ⟨content, hcontent⟩ := exists_scannable
  obtain ⟨w, hrun, hdone, -⟩ := (consumerHost_admits distinct_default).serves.runs_sample hcontent
  exact ⟨_, hdone, store_sound {} ⟨.fresh content, rfl, hrun⟩⟩

end TransferWorker
