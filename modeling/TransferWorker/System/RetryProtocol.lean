import TransferWorker.System.ConsumerRules
import TransferWorker.System.Entries
import TransferWorker.System.StoreSoundness

/-! # The retry protocol

The attempt counter travels in the body of a message: through the retry queue, the expiry of the
message there, the main queue and the next `_handle` call. Every entry in the broker carries the
chain of the publications that led to it; the invariant says that the counter in the body is the
number of retry publications in the chain, and that each of these followed a failed upload.

* **`OnWay`** — an entry whose counter agrees with its chain.
* **`Placed`** — what is true of the entries on each queue.
* **`retry_protocol`** — in every reachable state. -/

namespace TransferWorker

open CallTrees World

/-- The events agree in every field but `retry`. -/
def SameButRetry (event event' : TransferEvent) : Prop :=
  { event' with retry := none } = { event with retry := none }

/-- **The publication of the `k`-th retry**, by a `_handle` call whose upload had failed somewhere. -/
structure Publication.IsRetry (settings : Settings) (k : Nat) (p : Publication) : Prop where
  /-- It went to the retry queue. -/
  queue : p.queue = settings.retryQueueName
  /-- Its event carries the number. -/
  attempt : ∃ event r, TransferEvent.fromJsonBytes p.message.body = .ok event ∧
    event.retry = some r ∧ r.attempt.val = k ∧ r.maxAttempts.val = settings.retryMaxAttempts
  /-- The upload had failed. -/
  failed : ∃ run, p.run = some run ∧ run.HasFailure

/-- **A chain of retries**, numbered from 1. -/
def RetryChain (settings : Settings) (chain : List Publication) : Prop :=
  ∀ (i : Nat) (p : Publication), chain[i]? = some p → p.IsRetry settings (i + 1)

/-- **An entry on its way**: its event has been retried as often as its chain says. -/
structure OnWay (settings : Settings) (e : Entry) : Prop where
  /-- The event, with the number of the next attempt. -/
  event : ∃ event, TransferEvent.fromJsonBytes e.message.body = .ok event ∧
    Consumer.nextAttempt event = e.chain.length + 1 ∧
    ∀ r, event.retry = some r → r.maxAttempts.val = settings.retryMaxAttempts
  /-- There were not too many retries. -/
  bound : (e.chain.length : Int) ≤ settings.retryMaxAttempts
  /-- The chain consists of retries. -/
  chain : RetryChain settings e.chain

/-- The headers of an event that was given up. -/
def maxRetriesExceeded : Option (List (String × String)) :=
  some [("x-dlq-reason", "max_retries_exceeded")]

/-- **An entry that was given up**: after all retries, by a `_handle` call whose upload had failed. -/
def GivenUp (settings : Settings) (e : Entry) : Prop :=
  ∃ retries p, e.chain = retries ++ [p] ∧ (retries.length : Int) = settings.retryMaxAttempts ∧
    RetryChain settings retries ∧ (∃ run, p.run = some run ∧ run.HasFailure) ∧
    ∃ event r, TransferEvent.fromJsonBytes e.message.body = .ok event ∧ event.retry = some r ∧
      r.attempt.val = settings.retryMaxAttempts

/-- **What is true of the entries on each queue.** -/
structure Placed (settings : Settings) (q : String) (e : Entry) : Prop where
  /-- On the main queue. -/
  main : q = settings.queueName → OnWay settings e
  /-- On the retry queue. -/
  retry : q = settings.retryQueueName → OnWay settings e ∧ e.chain ≠ []
  /-- On the dead-letter queue. -/
  dlq : q = settings.dlqName → e.message.properties.headers = maxRetriesExceeded → GivenUp settings e

variable {settings : Settings} {w w' : World} {event : TransferEvent} {e : Entry}

/-- One more retry at the end of a chain. -/
theorem RetryChain.snoc {chain : List Publication} {p : Publication} (h : RetryChain settings chain)
    (hp : p.IsRetry settings (chain.length + 1)) : RetryChain settings (chain ++ [p]) := by
  intro i p' hi
  by_cases hlt : i < chain.length
  · rw [List.getElem?_append_left hlt] at hi
    exact h i p' hi
  · rw [List.getElem?_append_right (not_lt.1 hlt)] at hi
    have hzero : i - chain.length = 0 := by
      by_contra hne
      rw [List.getElem?_eq_none (by simp; omega)] at hi
      cases hi
    rw [hzero] at hi
    obtain rfl : p = p' := by simpa using hi
    rwa [show i = chain.length by omega]

/-- What is on its way may be on the main queue. -/
theorem placed_main (hd : settings.Distinct) (h : OnWay settings e) :
    Placed settings settings.queueName e :=
  ⟨fun _ => h, fun hq => absurd hq.symm hd.retry_ne_main, fun hq => absurd hq.symm hd.dlq_ne_main⟩

/-- What was retried may be on the retry queue. -/
theorem placed_retry (hd : settings.Distinct) (h : OnWay settings e) (hne : e.chain ≠ []) :
    Placed settings settings.retryQueueName e :=
  ⟨fun hq => absurd hq hd.retry_ne_main, fun _ => ⟨h, hne⟩, fun hq => absurd hq.symm hd.dlq_ne_retry⟩

/-- What was given up may be on the dead-letter queue. -/
theorem placed_dlq (hd : settings.Distinct)
    (h : e.message.properties.headers = maxRetriesExceeded → GivenUp settings e) :
    Placed settings settings.dlqName e :=
  ⟨fun hq => absurd hq hd.dlq_ne_main, fun hq => absurd hq hd.dlq_ne_retry, fun _ => h⟩

/-- Whether an entry is on its way is a matter of its body and its chain. -/
theorem OnWay.withProperties (h : OnWay settings e) (properties : Properties) :
    OnWay settings { e with message := ⟨e.message.body, properties⟩ } :=
  ⟨h.event, h.bound, h.chain⟩

/-- A new event is on its way. -/
theorem onWay_new (hN : 1 ≤ settings.retryMaxAttempts) (hretry : event.retry = none) :
    OnWay settings ⟨Publisher.message event none none, []⟩ where
  event := by
    refine ⟨event, Publisher.fromJsonBytes_message event _ _, ?_, fun r hr => ?_⟩
    · rw [Consumer.nextAttempt, hretry]
      rfl
    · rw [hretry] at hr
      cases hr
  bound := by
    show (0 : Int) ≤ _
    omega
  chain := by
    intro i p hi
    cases hi

/-- The message of the next retry is on its way. -/
theorem OnWay.retry {retried : TransferEvent} {error : String} {run : UploadRun}
    {expiration : Option String} (h : OnWay settings e)
    (hm : TransferEvent.fromJsonBytes e.message.body = .ok event)
    (hattempt : Consumer.nextAttempt event ≤ settings.retryMaxAttempts)
    (hretried : event.withRetry (Consumer.nextAttempt event) settings.retryMaxAttempts error =
      .ok retried) (hfailed : run.HasFailure) :
    let m := Publisher.message retried expiration none
    OnWay settings ⟨m, e.chain ++ [⟨settings.retryQueueName, m, some run⟩]⟩ := by
  intro m
  obtain ⟨event', hm', hnext, -⟩ := h.event
  obtain rfl : event = event' := Except.ok.inj (hm.symm.trans hm')
  obtain ⟨ha, hmax, rfl⟩ := TransferEvent.withRetry_ok hretried
  have hdecode : TransferEvent.fromJsonBytes m.body = .ok _ :=
    Publisher.fromJsonBytes_message _ expiration none
  refine ⟨⟨_, hdecode, ?_, ?_⟩, ?_, h.chain.snoc ⟨rfl, ⟨_, _, hdecode, rfl, ?_, rfl⟩, run, rfl, hfailed⟩⟩
  · show Consumer.nextAttempt event + 1 = ((e.chain ++ [_]).length : Int) + 1
    rw [hnext, List.length_append]
    rfl
  · rintro r ⟨⟩
    rfl
  · rw [List.length_append]
    rw [hnext] at hattempt
    exact hattempt
  · exact hnext

/-- An event whose last retry has failed is given up. -/
theorem OnWay.giveUp {failed : TransferEvent} {error : String} {run : UploadRun} {q : String}
    {properties : Properties} (h : OnWay settings e)
    (hm : TransferEvent.fromJsonBytes e.message.body = .ok event)
    (hattempt : settings.retryMaxAttempts < Consumer.nextAttempt event)
    (hfailed : event.withRetry (Consumer.nextAttempt event - 1) settings.retryMaxAttempts error =
      .ok failed) (hrun : run.HasFailure) :
    let m : Message := ⟨failed.toJsonBytes, properties⟩
    GivenUp settings ⟨m, e.chain ++ [⟨q, m, some run⟩]⟩ := by
  intro m
  obtain ⟨event', hm', hnext, -⟩ := h.event
  obtain rfl : event = event' := Except.ok.inj (hm.symm.trans hm')
  obtain ⟨ha, hmax, rfl⟩ := TransferEvent.withRetry_ok hfailed
  have hlength : (e.chain.length : Int) = settings.retryMaxAttempts := by
    have hbound := h.bound
    omega
  refine ⟨e.chain, _, rfl, hlength, h.chain, ⟨run, rfl, hrun⟩, _, _,
    TransferEvent.fromJsonBytes_toJsonBytes _, rfl, ?_⟩
  show Consumer.nextAttempt event - 1 = settings.retryMaxAttempts
  omega

/-! ## The programs -/

/-- **Events enter the main queue only as new events**: nobody replays dead-lettered messages, and
what is accepted is an event as `publish_event` writes it, without `retry`. -/
def newEventsOnly (settings : Settings) : Condition calls Exn World Unit where
  call _ _ _ := True
  move w w' := ¬Replays settings w w' ∧ ∀ m, w'.accepted = m :: w.accepted →
    ∃ event : TransferEvent, event.retry = none ∧ m = Publisher.message event none none
  restart _ _ := True

/-- The consumer's host in which this is so. -/
abbrev newEventsHost (settings : Settings) : Host calls Exn World Unit :=
  (consumerHost settings).under (newEventsOnly settings)

/-- All entries are where they may be. -/
abbrev AllPlaced (settings : Settings) (w : World) : Prop := Everywhere settings (Placed settings) w

/-- **The contract**: what the consumer publishes is the received event, up to `retry`. -/
def retryContract (settings : Settings) : Contract calls World where
  inv := AllPlaced settings
  guar w op :=
    match op with
    | .basicPublish _ m => ∃ h event event', w.current = some h ∧
        TransferEvent.fromJsonBytes h.entry.message.body = .ok event ∧
        TransferEvent.fromJsonBytes m.body = .ok event' ∧ SameButRetry event event'
    | _ => True

/-- `_handle` works on an entry with this event. -/
structure InCall (settings : Settings) (event : TransferEvent) (w : World) : Prop where
  /-- All entries are where they may be. -/
  placed : AllPlaced settings w
  /-- The call in progress. -/
  call : ∃ h, w.current = some h ∧ TransferEvent.fromJsonBytes h.entry.message.body = .ok event ∧
    OnWay settings h.entry

/-- `_handle` works on an entry with this event, and its upload has failed. -/
structure InFailedCall (settings : Settings) (event : TransferEvent) (w : World) : Prop where
  /-- All entries are where they may be. -/
  placed : AllPlaced settings w
  /-- The call in progress, with its upload run. -/
  call : ∃ h run, w.current = some h ∧ TransferEvent.fromJsonBytes h.entry.message.body = .ok event ∧
    OnWay settings h.entry ∧ h.run = some run ∧ run.HasFailure

/-- A call whose upload has failed is a call. -/
theorem InFailedCall.inCall (h : InFailedCall settings event w) : InCall settings event w := by
  obtain ⟨hplaced, handling, run, hcurrent, hevent, hway, -⟩ := h
  exact ⟨hplaced, handling, hcurrent, hevent, hway⟩

/-- The environment keeps the entries where they may be. -/
theorem AllPlaced.move (hd : settings.Distinct) (hN : 1 ≤ settings.retryMaxAttempts)
    (h : AllPlaced settings w) (hm : (newEventsHost settings).interfere w w') :
    AllPlaced settings w' := by
  obtain ⟨hm, hreplay, haccept⟩ := hm
  refine Everywhere.move h hm (fun m hw => ?_) (fun e properties he => ?_) hreplay
  · obtain ⟨event, hretry, rfl⟩ := haccept m hw
    exact placed_main hd (onWay_new hN hretry)
  · exact placed_main hd ((he.retry rfl).1.withProperties properties)

/-- A call publishes. -/
def Op.publishes : Op → Bool
  | .basicPublish _ _ => true
  | _ => false

/-- A call that publishes nothing leaves every message in its place. -/
theorem keeps_allPlaced (hd : settings.Distinct) (hN : 1 ≤ settings.retryMaxAttempts) :
    Keeps (newEventsHost settings).toEnvironment (retryContract settings)
      (fun op : Op => op.publishes = false) (AllPlaced settings) where
  stable _ _ h hm := AllPlaced.move hd hN h hm
  inv _ h := h
  guar _ op hop _ := by cases op <;> trivial
  responds _ op _ _ hop h hr := Everywhere.responds h hr.1 fun q m hq => by
    rw [hq] at hop
    cases hop

/-- The calls that neither publish nor end the `_handle` call. -/
def Op.continues (op : Op) : Bool := !op.publishes && !op.endsCall

/-- A call that goes on stays a call of the same event. -/
theorem keeps_inCall (event : TransferEvent) (hd : settings.Distinct) (hN : 1 ≤ settings.retryMaxAttempts) :
    Keeps (newEventsHost settings).toEnvironment (retryContract settings)
      (fun op : Op => op.continues = true) (InCall settings event) where
  stable w w' h hm := by
    obtain ⟨hplaced, handling, hcurrent, hevent⟩ := h
    exact ⟨AllPlaced.move hd hN hplaced hm, handling, (hm.1.frame.2).trans hcurrent, hevent⟩
  inv _ h := h.placed
  guar _ op hop _ := by cases op <;> trivial
  responds w op r w' hop h hr := by
    obtain ⟨hpublishes, hends⟩ : op.publishes = false ∧ op.endsCall = false := by
      simpa [Op.continues] using hop
    obtain ⟨hplaced, handling, hcurrent, hevent⟩ := h
    obtain ⟨handling', hcurrent', hentry⟩ := current_of_responds hends hr.1 hcurrent
    refine ⟨(keeps_allPlaced hd hN).responds w op r w' hpublishes hplaced hr, handling', hcurrent', ?_⟩
    rw [hentry]
    exact hevent

/-- The call whose upload has failed goes on while the world moves. -/
theorem stable_inFailedCall (hd : settings.Distinct) (hN : 1 ≤ settings.retryMaxAttempts) :
    (newEventsHost settings).toEnvironment.Stable (InFailedCall settings event) := by
  intro w w' h hm
  obtain ⟨hplaced, handling, run, hcurrent, hrest⟩ := h
  exact ⟨AllPlaced.move hd hN hplaced hm, handling, run, (hm.1.frame.2).trans hcurrent, hrest⟩

/-- A piece of the consumer is safe, and all entries are where they may be at its end. -/
abbrev SafeRetry {α : Type} (settings : Settings) (p : Prog α) (w : World) : Prop :=
  Safe (newEventsHost settings).toEnvironment (retryContract settings) (fun _ => AllPlaced settings)
    p w

/-- **A publication**, of an event that agrees with the received one up to `retry`, and that may be
where it is put; then the acknowledgement. -/
theorem publish_ack_retry {A : World → Prop} {tag : Nat} {q : String} {m : Message}
    {event' : TransferEvent} (hd : settings.Distinct) (hN : 1 ≤ settings.retryMaxAttempts)
    (hA : (newEventsHost settings).toEnvironment.Stable A) (hcall : ∀ v, A v → InCall settings event v)
    (hm : TransferEvent.fromJsonBytes m.body = .ok event') (hsame : SameButRetry event event')
    (hplaced : ∀ v h, A v → v.current = some h →
      Placed settings q ⟨m, h.entry.chain ++ [⟨q, m, h.run⟩]⟩)
    (h : A w) : SafeRetry settings (call (.basicPublish q m) >>= fun _ => call (.basicAck tag)) w := by
  have hkeeps := keeps_allPlaced hd hN
  have hpublish : ∀ v r v', A v → (newEventsHost settings).responds v (.basicPublish q m) r v' →
      AllPlaced settings v' := by
    intro v r v' hv hr
    refine Everywhere.responds (hcall v hv).placed hr.1 fun q' m' heq => ?_
    obtain ⟨rfl, rfl⟩ : q = q' ∧ m = m' := by simpa using heq
    obtain ⟨handling, hcurrent, -⟩ := (hcall v hv).call
    rw [chainOf_consumer v hcurrent]
    exact hplaced v handling hv hcurrent
  refine Safe.perform_bind hA (fun v hv => (hcall v hv).placed) (fun v hv => ?_)
    (fun v x v' hv hr => ?_) (fun v e v' hv hr => ?_) h
  · obtain ⟨handling, hcurrent, hevent, -⟩ := (hcall v hv).call
    exact ⟨handling, event, event', hcurrent, hevent, hm, hsame⟩
  · exact hkeeps.of_calls (Program.calls_perform rfl) (hpublish v (.ok x) v' hv hr)
  · exact hkeeps.raise (fun _ hu => hu) (hpublish v (.error e) v' hv hr)

/-- Dead-lettering the received event for another reason. -/
theorem deadLetter_retry {tag : Nat} {reason : String} (hd : settings.Distinct)
    (hN : 1 ≤ settings.retryMaxAttempts) (hreason : reason ≠ "max_retries_exceeded")
    (h : InCall settings event w) :
    SafeRetry settings (Consumer.deadLetter settings tag event reason) w := by
  refine publish_ack_retry hd hN (keeps_inCall _ hd hN).stable (fun _ hv => hv)
    (Publisher.fromJsonBytes_message event _ _) rfl (fun v handling _ _ => ?_) h
  refine placed_dlq hd fun hheaders => absurd ?_ hreason
  simpa [Publisher.message, maxRetriesExceeded] using hheaders

/-- **`_handle` after a failed upload.** -/
theorem handleFailure_retry {tag : Nat} (failures : List UploadResult) (hd : settings.Distinct)
    (hN : 1 ≤ settings.retryMaxAttempts) (h : InFailedCall settings event w) :
    SafeRetry settings (Consumer.handleFailure settings tag event failures) w := by
  have hkeeps := keeps_inCall event hd hN
  unfold Consumer.handleFailure
  dsimp only
  split
  · rename_i hattempt
    refine hkeeps.pure_bind (fun _ _ hv => hv.placed) (fun failed hfailed => ?_) h.inCall
    have hsame : SameButRetry event failed := by
      obtain ⟨-, -, rfl⟩ := TransferEvent.withRetry_ok hfailed
      rfl
    refine publish_ack_retry hd hN (stable_inFailedCall hd hN) (fun _ hv => hv.inCall)
      (Publisher.fromJsonBytes_message failed _ _) hsame (fun v handling hv hcurrent => ?_) h
    obtain ⟨-, handling', run, hcurrent', hevent, hway, hrun, hbad⟩ := hv
    obtain rfl : handling = handling' := Option.some.inj (hcurrent.symm.trans hcurrent')
    rw [hrun]
    exact placed_dlq hd fun _ => hway.giveUp hevent hattempt hfailed hbad
  · rename_i hattempt
    refine hkeeps.pure_bind (fun _ _ hv => hv.placed) (fun retried hretried => ?_) h.inCall
    refine hkeeps.pure_bind (fun _ _ hv => hv.placed) (fun delay _ => ?_) h.inCall
    have hsame : SameButRetry event retried := by
      obtain ⟨-, -, rfl⟩ := TransferEvent.withRetry_ok hretried
      rfl
    refine publish_ack_retry hd hN (stable_inFailedCall hd hN) (fun _ hv => hv.inCall)
      (Publisher.fromJsonBytes_message retried _ _) hsame (fun v handling hv hcurrent => ?_) h
    obtain ⟨-, handling', run, hcurrent', hevent, hway, hrun, hbad⟩ := hv
    obtain rfl : handling = handling' := Option.some.inj (hcurrent.symm.trans hcurrent')
    rw [hrun]
    exact placed_retry hd (hway.retry hevent (not_lt.1 hattempt) hretried hbad) (by simp)

/-- How `upload_all` ends: a failure among its results is one of the run of this `_handle` call. -/
def AfterUploadAll (settings : Settings) (event : TransferEvent)
    (r : Except Exn (List UploadResult)) (w : World) : Prop :=
  InCall settings event w ∧ ∀ results : List UploadResult, r = .ok results →
    (results.filter fun r => !r.ok) ≠ [] → InFailedCall settings event w

/-- **`upload_all`**, in a `_handle` call. -/
theorem uploadAll_retry (path : Path) (hd : settings.Distinct) (hN : 1 ≤ settings.retryMaxAttempts)
    (h : InCall settings event w) :
    Safe (newEventsHost settings).toEnvironment (retryContract settings)
      (AfterUploadAll settings event) (uploadAll settings event path) w := by
  have hkeeps := keeps_inCall event hd hN
  have hraise : ∀ v e, InCall settings event v →
      Safe (newEventsHost settings).toEnvironment (retryContract settings)
        (AfterUploadAll settings event) (.raise e) v := fun v e hv =>
    hkeeps.raise (fun u hu => ⟨hu, fun _ hres => by cases hres⟩) hv
  unfold uploadAll
  split
  · exact hraise w _ h
  · refine hkeeps.other_bind (fun _ _ => trivial) (fun v x v' hv hr => ?_) (fun v e v' hv hr => ?_) h
    · have hstart := hkeeps.responds v (.uploadStart event path) (.ok x) v' rfl hv hr
      have hrunning : v'.Uploading event := by
        obtain rfl : v' = v.startUploads event path := hr.1
        exact ⟨_, rfl, rfl, by simp⟩
      -- the call stays the same one until the gather answers
      have hstable : (newEventsHost settings).toEnvironment.Stable
          fun u => InCall settings event u ∧ u.Uploading event :=
        fun _ _ hu hm => ⟨hkeeps.stable hu.1 hm, hu.2.move hm.1⟩
      refine Safe.perform_bind hstable (fun _ hu => hu.1.placed) (fun _ _ => trivial)
        (fun u outcomes u' hu hr => ?_) (fun u e u' hu hr => ?_) ⟨hstart, hrunning⟩
      · have hend := hkeeps.responds u .uploadGather (.ok outcomes) u' rfl hu.1 hr
        by_cases hfailures :
            ((List.zipWith uploadOne event.destinations.val outcomes).filter fun r => !r.ok) = []
        · refine hkeeps.ret (fun v hv => ⟨hv, fun results hres hne => absurd hfailures ?_⟩) hend
          rwa [Except.ok.inj hres]
        · -- one of the results is not ok, so the run behind it failed
          have hfailed : InFailedCall settings event u' := by
            obtain ⟨⟨-, run, hrun, -, rfl⟩, -⟩ := hr
            obtain ⟨run', hrun', hevent, -⟩ := hu.2
            obtain rfl : run = run' := Option.some.inj (hrun.symm.trans hrun')
            obtain ⟨-, handling, hcurrent, hdecode, hway⟩ := hu.1
            obtain ⟨r, hr, hbad⟩ : ∃ r ∈ List.zipWith uploadOne event.destinations.val outcomes,
                r.ok = false := by simpa [List.filter_eq_nil_iff] using hfailures
            refine ⟨hend.placed, _, _, congrArg (Option.map _) hcurrent, hdecode, hway, rfl, _, ?_,
              r, hr, hbad⟩
            rw [← hevent]
            rfl
          refine Safe.ret (stable_inFailedCall hd hN) (fun _ hv => hv.placed)
            (fun v hv => ⟨hv.inCall, fun _ _ _ => hv⟩) hfailed
      · exact hraise u' e (hkeeps.responds u .uploadGather (.error e) u' rfl hu.1 hr)
    · exact hraise v' e (hkeeps.responds v (.uploadStart event path) (.error e) v' rfl hv hr)

/-- `_handle` from the upload on. -/
theorem handleUpload_retry {tag : Nat} (hd : settings.Distinct) (hN : 1 ≤ settings.retryMaxAttempts)
    (h : InCall settings event w) :
    SafeRetry settings (Consumer.handleUpload settings tag event) w := by
  refine Safe.bind (uploadAll_retry _ hd hN h) (fun results v hv _ => ?_) fun _ _ hv => hv.1.placed
  dsimp only
  split
  · exact (keeps_allPlaced hd hN).of_calls (Program.calls_bind (Program.calls_perform rfl) fun _ =>
      Program.calls_perform rfl) hv.1.placed
  · rename_i hfailures
    exact handleFailure_retry _ hd hN (hv.2 results rfl hfailures)

/-- `_handle` from the check of the source file on. -/
theorem handleSource_retry {tag : Nat} (hd : settings.Distinct) (hN : 1 ≤ settings.retryMaxAttempts)
    (h : InCall settings event w) :
    SafeRetry settings (Consumer.handleSource settings tag event) w := by
  have hkeeps := keeps_inCall event hd hN
  refine hkeeps.call_bind rfl (fun _ _ hv => hv.placed) (fun _ isfile v _ _ hv => ?_) h
  split
  · exact deadLetter_retry hd hN (by decide) hv
  · refine hkeeps.bind (calls_scanCsvFile _ rfl rfl) (fun _ _ hu => hu.placed) (fun issues u hu => ?_)
      hv
    split
    · exact deadLetter_retry hd hN (by decide) hu
    · exact handleUpload_retry hd hN hu

/-- **`_handle` of a message that decodes to the event in progress.** -/
theorem handle_retry {tag : Nat} {m : Message} (hd : settings.Distinct)
    (hN : 1 ≤ settings.retryMaxAttempts) (hm : TransferEvent.fromJsonBytes m.body = .ok event)
    (h : InCall settings event w) : SafeRetry settings (Consumer.handle settings tag m) w := by
  have hkeeps := keeps_inCall event hd hN
  simp only [Consumer.handle, hm]
  split
  · exact deadLetter_retry hd hN (by decide) h
  · exact hkeeps.raise (fun _ hv => hv.placed) h
  · refine hkeeps.call_bind rfl (fun _ _ hv => hv.placed) (fun _ done v _ _ hv => ?_) h
    split
    · exact (keeps_allPlaced hd hN).of_calls (Program.calls_perform rfl) hv.placed
    · exact handleSource_retry hd hN hv

/-! ## The consumer -/

/-- The calls outside of `_handle` publish nothing. -/
theorem notPublishes_of_isSession {op : Op} (h : op.isSession = true) : op.publishes = false := by
  cases op <;> first | rfl | cases h

/-- **One turn of the loop.** -/
theorem turn_retry (hd : settings.Distinct) (hN : 1 ≤ settings.retryMaxAttempts)
    (h : AllPlaced settings w) : SafeRetry settings (Consumer.turn settings) w := by
  let B : Nat → Message → World → Prop := fun _ m v =>
    ∃ event, TransferEvent.fromJsonBytes m.body = .ok event ∧ InCall settings event v
  have hB : ∀ tag m, Keeps (newEventsHost settings).toEnvironment (retryContract settings)
      (· = .stopIsSet) (B tag m) := fun tag m =>
    { stable := fun _ _ ⟨event, hm, hv⟩ hmove => ⟨event, hm, (keeps_inCall _ hd hN).stable hv hmove⟩
      inv := fun _ ⟨_, _, hv⟩ => hv.placed
      guar := fun _ op hop _ => hop ▸ trivial
      responds := fun v op r v' hop ⟨event, hm, hv⟩ hr =>
        ⟨event, hm, (keeps_inCall _ hd hN).responds v op r v' (hop ▸ rfl) hv hr⟩ }
  refine turn_rule (keeps_allPlaced hd hN) (fun _ => notPublishes_of_isSession) rfl hB
    (fun _ _ _ ⟨_, _, hv⟩ => hv.placed) (fun v tag m v' hv hr => ?_)
    (fun tag m v ⟨event, hm, hv⟩ => handle_retry hd hN hm hv) h
  have hplaced := (keeps_allPlaced hd hN).responds v (.consume settings.queueName) _ v' rfl hv hr
  obtain ⟨⟨-, e, rest, hb, rfl, rfl⟩, -⟩ := hr
  have hway : OnWay settings e := (hv.buffered (tag, e) (hb ▸ List.mem_cons_self ..)).main rfl
  obtain ⟨event, hm, -⟩ := hway.event
  exact ⟨event, hm, hplaced, _, rfl, hm, hway⟩

/-- The worlds a run starts in: no messages. -/
structure NoMessages (w : World) : Prop where
  /-- No queue has one. -/
  queue : ∀ q, w.queue q = []
  /-- None is unacknowledged. -/
  unacked : w.unacked = []
  /-- None is buffered. -/
  buffered : w.buffered = []

/-- Whatever is asked of the messages holds where there are none. -/
theorem NoMessages.everywhere {Q : String → Entry → Prop} (h : NoMessages w) :
    Everywhere settings Q w where
  queued q e he := by
    rw [h.queue q] at he
    cases he
  unacked d hd := by
    rw [h.unacked] at hd
    cases hd
  buffered d hd := by
    rw [h.buffered] at hd
    cases hd

/-- **The retry protocol.** With `retry_max_attempts` at least 1 and events entering the main queue
only as new events, in every run: (1) what the consumer publishes decodes to the event it received,
up to `retry`; (2) a message on the retry queue carries the number of the retry publications that led
to it, which are numbered from 1 and each of which followed a failed upload; (3) a message is
dead-lettered for exceeded retries only after exactly `retry_max_attempts` of them and one more failed
upload, and it carries that number. -/
theorem retry_protocol (settings : Settings) (hd : settings.Distinct)
    (hN : 1 ≤ settings.retryMaxAttempts) {s : World × Phase calls Exn Unit}
    (hs : (newEventsHost settings).Reachable NoMessages s) :
    (∀ q m, s.2.Calling (.basicPublish q m) → ∃ h event event', s.1.current = some h ∧
      TransferEvent.fromJsonBytes h.entry.message.body = .ok event ∧
      TransferEvent.fromJsonBytes m.body = .ok event' ∧
      { event' with retry := none } = { event with retry := none }) ∧
    (∀ e ∈ s.1.queue settings.retryQueueName, ∃ (k : Nat) (event : TransferEvent) (r : RetryInfo),
      1 ≤ k ∧ (k : Int) ≤ settings.retryMaxAttempts ∧
      TransferEvent.fromJsonBytes e.message.body = .ok event ∧ event.retry = some r ∧
      r.attempt.val = k ∧ r.maxAttempts.val = settings.retryMaxAttempts ∧ e.chain.length = k ∧
      ∀ (i : Nat) (p : Publication), e.chain[i]? = some p → p.IsRetry settings (i + 1)) ∧
    ∀ e ∈ s.1.queue settings.dlqName,
      e.message.properties.headers = some [("x-dlq-reason", "max_retries_exceeded")] →
      ∃ (retries : List Publication) (p : Publication), e.chain = retries ++ [p] ∧
        (retries.length : Int) = settings.retryMaxAttempts ∧
        (∀ (i : Nat) (p : Publication), retries[i]? = some p → p.IsRetry settings (i + 1)) ∧
        (∃ run, p.run = some run ∧ run.HasFailure) ∧
        ∃ event r, TransferEvent.fromJsonBytes e.message.body = .ok event ∧ event.retry = some r ∧
          r.attempt.val = settings.retryMaxAttempts := by
  have hsafe := consumer_rule (H := newEventsHost settings) rfl (keeps_allPlaced hd hN)
    (fun _ => notPublishes_of_isSession) (fun _ => turn_retry hd hN) (fun _ hw => hw.everywhere)
    (fun w φ w' hφ hw => hw.1 ▸ Everywhere.crash hφ.inv) hs
  have hplaced : AllPlaced settings s.1 := hsafe.inv
  refine ⟨fun q m ⟨k, hk⟩ => (hsafe.pending hk).1, fun e he => ?_, fun e he hreason =>
    (hplaced.queued _ e he).dlq rfl hreason⟩
  -- the attempt in the event is the length of the chain
  obtain ⟨hway, hne⟩ := (hplaced.queued _ e he).retry rfl
  obtain ⟨event, hm, hnext, hmax⟩ := hway.event
  have hpos : 1 ≤ e.chain.length := List.length_pos_iff.2 hne
  rw [Consumer.nextAttempt] at hnext
  split at hnext
  · omega
  · rename_i r hr
    refine ⟨e.chain.length, event, r, hpos, hway.bound, hm, hr, ?_, hmax r hr, rfl, hway.chain⟩
    have hnext' : r.attempt.val + 1 = (e.chain.length : Int) + 1 := hnext
    omega

/-- The retry of the example event is on the retry queue, with its number. -/
theorem retry_protocol_sample : ∃ (s : World × Phase calls Exn Unit) (e : Entry),
    s.1.queue ({} : Settings).retryQueueName = [e] ∧
    ∃ (k : Nat) (event : TransferEvent) (r : RetryInfo), 1 ≤ k ∧ (k : Int) ≤ 5 ∧
      TransferEvent.fromJsonBytes e.message.body = .ok event ∧ event.retry = some r ∧
      r.attempt.val = k ∧ r.maxAttempts.val = 5 ∧ e.chain.length = k ∧
      ∀ (i : Nat) (p : Publication), e.chain[i]? = some p → p.IsRetry {} (i + 1) := by
  obtain ⟨content, hcontent⟩ := exists_scannable
  have hH : Admits {} (newEventsHost {}) := (consumerHost_admits distinct_default).under
    (fun _ _ _ => trivial) fun _ _ h => ⟨h.noReplay, h.accepts⟩
  obtain ⟨w, e, retried, hrun, hw⟩ := hH.runs_sample_retry hcontent
  have hempty : NoMessages (.fresh content) := ⟨fun _ => rfl, rfl, rfl⟩
  have hprotocol := retry_protocol {} distinct_default (by decide) (s := (w, .head ()))
    ⟨_, hempty, hrun⟩
  refine ⟨(w, .head ()), e, hw.retry, hprotocol.2.1 e ?_⟩
  rw [hw.retry]
  exact List.mem_singleton_self e

end TransferWorker
