import TransferWorker.System.ConsumerRules
import TransferWorker.System.Delivery
import TransferWorker.System.StoreSoundness

/-! # Deliveries that are left unacknowledged

Every way through `_handle` that returns ends with the acknowledgement of the delivery. A way that
raises does not, and the loop goes on with the delivery outstanding: while the channel stays open the
broker does not deliver it again, and it takes up a place in the prefetch window.

* **`World.Ledger`** — the bookkeeping of deliveries; `World.Settles` — which may be outstanding.
* **`Op.Harmless`** — the answers after which `_handle` does not raise.
* **`no_delivery_stranded`** — with such answers nothing is outstanding at the loop head.
* **`consumer_starves`** — the runs in which all places of the window are lost. -/

namespace TransferWorker

open CallTrees World

namespace World

/-- **The ledger of deliveries.** -/
structure Ledger (w : World) : Prop where
  /-- Tags identify deliveries. -/
  tags : w.Tags
  /-- A closed channel has no deliveries. -/
  closed : w.channelOpen = false → w.unacked = []
  /-- The tags that were yielded were handed out. -/
  received_below : ∀ tag ∈ w.received, tag < w.nextTag
  /-- What was yielded is not yielded again. -/
  received_ne : ∀ tag ∈ w.received, ∀ d ∈ w.buffered, d.1 ≠ tag
  /-- The deliveries to be yielded have different tags. -/
  buffered_ne : w.buffered.Pairwise fun d d' => d.1 ≠ d'.1
  /-- The prefetch window has a place at least. -/
  window : ∀ n, w.prefetch = some n → 1 ≤ n

/-- **What may be outstanding**: the deliveries that the iterator has not yielded, and those under the
tags in `busy`. -/
structure Settles (busy : Nat → Prop) (w : World) : Prop extends Ledger w where
  /-- Nothing else is unacknowledged. -/
  outstanding : ∀ d ∈ w.unacked, busy d.1 ∨ d ∈ w.buffered

/-- Nothing is outstanding but what the iterator has not yielded. -/
abbrev Clear (w : World) : Prop := w.Settles fun _ => False

/-- The channel is closed. -/
def Closed (w : World) : Prop := w.Ledger ∧ w.channelOpen = false

end World

variable {settings : Settings} {w w' : World} {busy : Nat → Prop} {tag : Nat} {m : Message}
  {event : TransferEvent}

/-! ## The ledger under the changes of the world -/

namespace World.Settles

/-- More deliveries may be busy. -/
theorem mono {busy' : Nat → Prop} (h : w.Settles busy) (hb : ∀ n, busy n → busy' n) :
    w.Settles busy' :=
  ⟨h.toLedger, fun d hd => (h.outstanding d hd).imp_left (hb d.1)⟩

/-- A step that leaves the deliveries alone. -/
theorem of_eq (h : w.Settles busy) (hunacked : w'.unacked = w.unacked)
    (hbuffered : w'.buffered = w.buffered) (htag : w'.nextTag = w.nextTag)
    (hreceived : w'.received = w.received) (hprefetch : w'.prefetch = w.prefetch)
    (hopen : w'.channelOpen = w.channelOpen) : w'.Settles busy where
  tags := by
    refine ⟨?_, ?_, ?_⟩
    · rw [hunacked, htag]
      exact h.tags.below
    · rw [hbuffered, htag]
      exact h.tags.buffered_below
    · rw [hbuffered, hunacked]
      exact h.tags.functional
  closed hc := by
    rw [hunacked]
    exact h.closed (hopen ▸ hc)
  received_below := by
    rw [hreceived, htag]
    exact h.received_below
  received_ne := by
    rw [hreceived, hbuffered]
    exact h.received_ne
  buffered_ne := by
    rw [hbuffered]
    exact h.buffered_ne
  window := by
    rw [hprefetch]
    exact h.window
  outstanding := by
    rw [hunacked, hbuffered]
    exact h.outstanding

/-- The ledger is a matter of the broker. -/
theorem of_same (h : w.Settles busy) (hsame : Aspect.broker.Same w w') : w'.Settles busy := by
  simp only [Aspect.Same, Prod.mk.injEq] at hsame
  obtain ⟨-, hunacked, hbuffered, htag, hprefetch, hopen, -, hreceived⟩ := hsame
  exact h.of_eq hunacked hbuffered htag hreceived hprefetch hopen

end World.Settles

/-- **After the channel is closed nothing is outstanding.** -/
theorem World.Ledger.closeChannel (h : w.Ledger) : (w.closeChannel settings).Settles busy where
  tags := Grows.closeChannel.tags h.tags
  closed _ := rfl
  received_below := h.received_below
  received_ne _ _ _ hd := absurd hd List.not_mem_nil
  buffered_ne := .nil
  window := h.window
  outstanding _ hd := absurd hd List.not_mem_nil

/-- With a new channel every delivery is settled. -/
theorem World.Ledger.openChannel (h : w.Ledger) : (w.openChannel settings .consumer).Settles busy where
  tags := by
    have hclosed := (h.closeChannel : (w.closeChannel settings).Settles busy).tags
    exact ⟨hclosed.below, hclosed.buffered_below, hclosed.functional⟩
  closed hc := by cases hc
  received_below := h.received_below
  received_ne _ _ _ hd := absurd hd List.not_mem_nil
  buffered_ne := .nil
  window n hn := by cases hn
  outstanding _ hd := absurd hd List.not_mem_nil

namespace World.Settles

/-- With the consumer cancelled too. -/
theorem cancelConsumer (h : w.Settles busy) : (w.cancelConsumer settings).Settles busy where
  tags := Grows.cancelConsumer.tags h.tags
  closed hc := by
    show w.unacked.filter _ = []
    rw [h.closed hc]
    rfl
  received_below := h.received_below
  received_ne _ _ _ hd := absurd hd List.not_mem_nil
  buffered_ne := .nil
  window := h.window
  outstanding d hd := by
    have hd' := List.mem_filter.1 hd
    -- a delivery that the iterator has not yielded has gone back
    refine (h.outstanding d hd'.1).imp_right fun hmem => ?_
    have hnot := of_decide_eq_true hd'.2
    exact absurd (List.mem_map_of_mem hmem) hnot

/-- A delivery is outstanding from the start. -/
theorem deliver {e : Entry} {rest : List Entry} (h : w.Settles busy) (hopen : w.channelOpen = true)
    (hq : w.queue settings.queueName = e :: rest) : (w.deliver settings e rest).Settles busy where
  tags := (Grows.deliver hq).tags h.tags
  closed hc := by
    rw [show (w.deliver settings e rest).channelOpen = w.channelOpen from rfl, hopen] at hc
    cases hc
  received_below tag ht := (h.received_below tag ht).trans (Nat.lt_succ_self _)
  received_ne tag ht d hd := by
    rcases List.mem_append.1 hd with hmem | hmem
    · exact h.received_ne tag ht d hmem
    · rw [List.mem_singleton.1 hmem]
      exact (h.received_below tag ht).ne'
  buffered_ne := by
    refine List.pairwise_append.2 ⟨h.buffered_ne, List.pairwise_singleton _ _, fun d hd d' hd' => ?_⟩
    rw [List.mem_singleton.1 hd']
    exact (h.tags.buffered_below d hd).ne
  window := h.window
  outstanding d hd := by
    rcases List.mem_append.1 hd with hmem | hmem
    · exact (h.outstanding d hmem).imp_right (List.mem_append_left _)
    · exact .inr (List.mem_append_right _ hmem)

/-- The iterator yields a delivery, which is outstanding from now on. -/
theorem receive {e : Entry} {rest : List (Nat × Entry)} (h : w.Clear)
    (hb : w.buffered = (tag, e) :: rest) : (w.receive tag e rest).Settles (· = tag) where
  tags := (Grows.receive hb : Grows ({} : Settings) w _).tags h.tags
  closed := h.closed
  received_below t ht := by
    rcases List.mem_cons.1 ht with rfl | ht
    · exact h.tags.buffered_below _ (hb ▸ List.mem_cons_self ..)
    · exact h.received_below t ht
  received_ne t ht d hd := by
    have hne := h.buffered_ne
    rw [hb, List.pairwise_cons] at hne
    rcases List.mem_cons.1 ht with rfl | ht
    · exact (hne.1 d hd).symm
    · exact h.received_ne t ht d (hb ▸ List.mem_cons_of_mem _ hd)
  buffered_ne := by
    have hne := h.buffered_ne
    rw [hb, List.pairwise_cons] at hne
    exact hne.2
  window := h.window
  outstanding d hd := by
    have hmem := (h.outstanding d hd).resolve_left id
    rw [hb] at hmem
    rcases List.mem_cons.1 hmem with rfl | hrest
    · exact .inl rfl
    · exact .inr hrest

/-- The acknowledgement settles a delivery. -/
theorem ack (h : w.Settles (· = tag)) : (w.ack tag).Clear where
  tags := ⟨fun d hd => h.tags.below d (List.mem_of_mem_filter hd), h.tags.buffered_below,
    fun d hd d' hd' => h.tags.functional d hd d' (List.mem_of_mem_filter hd')⟩
  closed hc := by
    show w.unacked.filter _ = []
    rw [h.closed hc]
    rfl
  received_below := h.received_below
  received_ne := h.received_ne
  buffered_ne := h.buffered_ne
  window := h.window
  outstanding d hd := by
    obtain ⟨hmem, hne⟩ := List.mem_filter.1 hd
    have htag : d.1 ≠ tag := of_decide_eq_true hne
    exact .inr ((h.outstanding d hmem).resolve_left htag)

/-- **The environment's steps.** -/
theorem move (h : w.Settles busy) (hm : Move settings w w') : w'.Settles busy := by
  cases hm with
  | deliver hopen _ hq => exact h.deliver hopen hq
  | breakChannel => exact h.toLedger.closeChannel
  | activeProgress _ _ hp =>
      obtain ⟨objects, rfl⟩ := hp.frame
      exact h.of_eq rfl rfl rfl rfl rfl rfl
  | lateProgress _ hp =>
      obtain ⟨objects, rfl⟩ := hp.frame
      exact h.of_eq rfl rfl rfl rfl rfl rfl
  | _ => exact h.of_eq rfl rfl rfl rfl rfl rfl

end World.Settles

/-- The calls that settle and take up no delivery, and leave a place in the window. -/
def Op.keepsLedger : Op → Bool
  | .basicAck _ => false
  | .consume _ => false
  | .basicQos n => 1 ≤ n
  | _ => true

/-- **The consumer's calls but an acknowledgement and the iterator**, however they end. -/
theorem World.Settles.responds (settings : Settings) {op : Op} {r : Except Exn (Res op)}
    (h : w.Settles busy) (hop : op.keepsLedger = true) (hr : w.responds settings .consumer op r w') :
    w'.Settles busy := by
  cases broker_of_responds hr with
  | same hsame => exact h.of_same hsame
  | openChannel => exact h.toLedger.openChannel
  | bound n =>
      have hone : 1 ≤ n := of_decide_eq_true hop
      have htags : World.Tags { w with prefetch := some n.toNat } :=
        ⟨h.tags.below, h.tags.buffered_below, h.tags.functional⟩
      refine ⟨⟨htags, h.closed, h.received_below, h.received_ne, h.buffered_ne, fun k hk => ?_⟩,
        h.outstanding⟩
      obtain rfl : n.toNat = k := Option.some.inj hk
      omega
  | publish q m _ hw => rcases hw with rfl | rfl <;> exact h.of_eq rfl rfl rfl rfl rfl rfl
  | cancel => exact h.cancelConsumer
  | close => exact h.toLedger.closeChannel
  | _ => cases hop

/-! ## A closed channel -/

namespace World.Closed

/-- There is nothing outstanding on a closed channel. -/
theorem settles (h : w.Closed) : w.Settles busy where
  toLedger := h.1
  outstanding d hd := by
    rw [h.1.closed h.2] at hd
    exact absurd hd List.not_mem_nil

/-- Without a channel nothing is delivered. -/
theorem move (h : w.Closed) (hm : Move settings w w') : w'.Closed := by
  have hledger : w'.Clear := h.settles.move hm
  refine ⟨hledger.toLedger, ?_⟩
  cases hm with
  | breakChannel => rfl
  | activeProgress _ _ hp =>
      obtain ⟨objects, rfl⟩ := hp.frame
      exact h.2
  | lateProgress _ hp =>
      obtain ⟨objects, rfl⟩ := hp.frame
      exact h.2
  | _ => exact h.2

/-- The calls of `_handle` find the channel closed and leave it closed. -/
theorem responds {op : Op} {r : Except Exn (Res op)} (h : w.Closed) (hop : op.isHandling = true)
    (hr : w.responds settings .consumer op r w') : w'.Closed := by
  have hnot : ¬w.channelOpen = true := by simp [h.2]
  cases broker_of_responds hr with
  | same hsame =>
      have hclear : w'.Clear := h.settles.of_same hsame
      simp only [Aspect.Same, Prod.mk.injEq] at hsame
      exact ⟨hclear.toLedger, hsame.2.2.2.2.2.1.trans h.2⟩
  | publish q m hsend _ => exact absurd (hsend rfl) hnot
  | ack tag hopen => exact absurd hopen hnot
  | _ => cases hop

end World.Closed

/-! ## The condition -/

/-- **The answers after which `_handle` does not raise**: none of its calls raises, the version of the
message can be read, the scan can parse the content, an upload has a valid bound on its concurrency,
and after a failed upload the next retry can be scheduled. -/
def Op.Harmless (settings : Settings) (w : World) : (op : Op) → Except Exn (Res op) → Prop
  | .consume _, .ok (.delivery _ m) => m.Readable
  | .readFile _, .ok content => ∃ issues, scanBytes content = .ok issues ∧
      (issues = [] → 0 ≤ settings.uploadMaxConcurrency)
  | .uploadGather, .ok outcomes => ∀ run, w.active = some run → (∃ o ∈ outcomes, o ≠ .returned) →
      1 ≤ settings.retryMaxAttempts ∧
        (Consumer.nextAttempt run.event ≤ settings.retryMaxAttempts →
          ∃ delay, backoffDelayMs settings (Consumer.nextAttempt run.event).toNat = .ok delay)
  | op, .error _ => op.isHandling = false
  | _, .ok _ => True

/-- While the channel is open, nothing makes `_handle` raise. -/
def undisturbed (settings : Settings) : Condition calls Exn World Unit where
  call w op r := w.channelOpen = true → op.Harmless settings w r
  move _ _ := True
  restart _ _ := True

/-- The runs of the consumer in which, while the channel is open, nothing makes `_handle` raise. -/
abbrev undisturbedHost (settings : Settings) : Host calls Exn World Unit :=
  (consumerHost settings).under (undisturbed settings)

/-- The contract: the ledger at every moment, and no obligation at calls. -/
def ledger : Contract calls World := ⟨Ledger, fun _ _ => True⟩

/-- Calls that keep the ledger keep the deliveries settled. -/
theorem keeps_settles (busy : Nat → Prop) : Keeps (undisturbedHost settings).toEnvironment ledger
    (fun op : Op => op.keepsLedger = true) (Settles busy) where
  stable _ _ h hm := h.move hm.1
  inv _ h := h.toLedger
  guar _ _ _ _ := trivial
  responds _ _ _ _ hop h hr := h.responds settings hop hr.1

/-- The calls of `_handle` keep a closed channel closed. -/
theorem keeps_closed : Keeps (undisturbedHost settings).toEnvironment ledger
    (fun op : Op => op.isHandling = true) Closed where
  stable _ _ h hm := h.move hm.1
  inv _ h := h.1
  guar _ _ _ _ := trivial
  responds _ _ _ _ hop h hr := h.responds hop hr.1

/-- A piece of `_handle` is safe, and nothing is outstanding at its end. -/
abbrev SafeClear {α : Type} (settings : Settings) (p : Prog α) (w : World) : Prop :=
  Safe (undisturbedHost settings).toEnvironment ledger (fun _ => Clear) p w

/-! ## `_handle` -/

/-- With the channel closed `_handle` does no harm. -/
theorem World.Closed.safe {α : Type} {p : Prog α} (h : w.Closed)
    (hp : p.Calls fun op : Op => op.isHandling = true) : SafeClear settings p w :=
  (keeps_closed.of_calls hp h).mono fun _ _ hv => hv.settles

/-- **A call of `_handle`**: either it finds the channel open and returns without harm, or the channel
is closed and nothing is outstanding. -/
theorem handling_bind {α : Type} {D : World → Prop} {op : Op} {f : Res op → Prog α}
    (hcalls : (Program.perform op >>= f : Prog α).Calls fun op : Op => op.isHandling = true)
    (hD : (undisturbedHost settings).toEnvironment.Stable D) (hledger : ∀ v, D v → v.Ledger)
    (hok : ∀ v x v', D v → op.Harmless settings v (.ok x) →
      v.normal settings .consumer op x v' → SafeClear settings (f x) v')
    (h : D w) : SafeClear settings (Program.perform op >>= f) w := by
  refine Safe.call hD hledger (fun _ _ => trivial) (fun v r v' hv hr => ?_) h
  by_cases hopen : v.channelOpen = true
  · have hharmless := hr.2 hopen
    cases r with
    | ok x => exact hok v x v' hv hharmless hr.1
    | error e =>
        -- no call of `_handle` raises while the channel is open
        have hnot : op.isHandling = false := by
          revert hharmless
          cases op <;> exact id
        rw [hcalls.1] at hnot
        cases hnot
  · have hclosed : v.Closed := ⟨hledger v hv, by simpa using hopen⟩
    have hclosed' : v'.Closed := hclosed.responds hcalls.1 hr.1
    exact hclosed'.safe (hcalls.2 r)

/-- A call of `_handle` that keeps the ledger. -/
theorem keeping_bind {α : Type} {op : Op} {f : Res op → Prog α}
    (hcalls : (Program.perform op >>= f : Prog α).Calls fun op : Op => op.isHandling = true)
    (hop : op.keepsLedger = true)
    (hok : ∀ v x v', op.Harmless settings v (.ok x) → v.normal settings .consumer op x v' →
      v'.Settles (· = tag) → SafeClear settings (f x) v')
    (h : w.Settles (· = tag)) : SafeClear settings (Program.perform op >>= f) w :=
  handling_bind hcalls (keeps_settles (· = tag)).stable (fun _ hv => hv.toLedger)
    (fun v x v' hv hharmless hn => hok v x v' hharmless hn (hv.responds settings (r := .ok x) hop hn)) h

/-- **The acknowledgement at the end of `_handle`.** -/
theorem ack_clear (h : w.Settles (· = tag)) : SafeClear settings (call (.basicAck tag)) w := by
  have hcalls : (call (.basicAck tag) >>= fun u => .ret u).Calls fun op : Op => op.isHandling = true :=
    Program.calls_bind (Program.calls_perform rfl) fun _ => trivial
  rw [← Program.bind_ret (call (.basicAck tag))]
  refine handling_bind hcalls (keeps_settles (· = tag)).stable (fun _ hv => hv.toLedger)
    (fun v x v' hv _ hn => ?_) h
  obtain ⟨-, rfl⟩ := hn
  exact (keeps_settles fun _ => False).ret (fun _ hu => hu) hv.ack

/-- A publication, and the acknowledgement. -/
theorem publish_ack_clear (q : String) (m : Message) (h : w.Settles (· = tag)) :
    SafeClear settings (call (.basicPublish q m) >>= fun _ => call (.basicAck tag)) w :=
  keeping_bind (Program.calls_bind (Program.calls_perform rfl) fun _ => Program.calls_perform rfl) rfl
    (fun _ _ _ _ _ hv => ack_clear hv) h

/-- After a failed upload the delivery is acknowledged when the next retry can be scheduled. -/
theorem handleFailure_clear (failures : List UploadResult) (hmax : 1 ≤ settings.retryMaxAttempts)
    (hdelay : Consumer.nextAttempt event ≤ settings.retryMaxAttempts →
      ∃ delay, backoffDelayMs settings (Consumer.nextAttempt event).toNat = .ok delay)
    (h : w.Settles (· = tag)) :
    SafeClear settings (Consumer.handleFailure settings tag event failures) w := by
  unfold Consumer.handleFailure
  dsimp only
  by_cases hattempt : Consumer.nextAttempt event > settings.retryMaxAttempts
  · rw [if_pos hattempt, TransferEvent.withRetry_eq event _ (by omega) hmax]
    exact publish_ack_clear _ _ h
  · have hone : 1 ≤ Consumer.nextAttempt event := by
      unfold Consumer.nextAttempt
      split
      · exact le_rfl
      · rename_i retry _
        have := retry.attempt.property
        omega
    obtain ⟨delay, hd⟩ := hdelay (not_lt.1 hattempt)
    rw [if_neg hattempt, TransferEvent.withRetry_eq event _ hone hmax, hd]
    exact publish_ack_clear _ _ h

/-- A result that is not ok comes from an upload that did not return. -/
theorem exists_not_returned {ds : List Destination} {outcomes : List Outcome}
    (h : (List.zipWith uploadOne ds outcomes).filter (fun r => !r.ok) ≠ []) :
    ∃ o ∈ outcomes, o ≠ .returned := by
  obtain ⟨r, hr⟩ := List.exists_mem_of_ne_nil _ h
  obtain ⟨hmem, hnot⟩ := List.mem_filter.1 hr
  rw [List.mem_iff_getElem?] at hmem
  obtain ⟨i, hi⟩ := hmem
  rw [List.getElem?_zipWith_eq_some] at hi
  obtain ⟨d, o, -, ho, rfl⟩ := hi
  refine ⟨o, List.mem_of_getElem? ho, fun hret => ?_⟩
  rw [hret] at hnot
  cases hnot

/-- `_handle` from the upload on. -/
theorem handleUpload_clear (hconc : 0 ≤ settings.uploadMaxConcurrency) (h : w.Settles (· = tag)) :
    SafeClear settings (Consumer.handleUpload settings tag event) w := by
  have hcalls : (Consumer.handleUpload settings tag event).Calls fun op : Op => op.isHandling = true :=
    calls_handleUpload (handles_isHandling tag event)
  unfold Consumer.handleUpload uploadAll at hcalls ⊢
  rw [if_neg (not_lt.2 hconc)] at hcalls ⊢
  simp only [Program.bind_assoc, Program.pure_eq, Program.ret_bind] at hcalls ⊢
  refine keeping_bind hcalls rfl (fun v x v' _ hn hv => ?_) h
  obtain rfl : v' = v.startUploads event (fsencode event.source.path) := hn
  -- the run is under way, and stays the run of this event
  have hup : (v.startUploads event (fsencode event.source.path)).Uploading event :=
    ⟨_, rfl, rfl, by simp⟩
  refine handling_bind (hcalls.after x)
    ((keeps_settles (· = tag)).stable.and fun _ _ hu hm => World.Uploading.move hu hm.1)
    (fun _ hu => hu.1.toLedger) (fun u outcomes u' hu hharmless hn => ?_) ⟨hv, hup⟩
  have hgather : u.responds settings .consumer .uploadGather (.ok outcomes) u' := hn
  have hu' : u'.Settles (· = tag) := hu.1.responds settings rfl hgather
  obtain ⟨run, hactive, rfl, -⟩ := hu.2
  split
  · refine keeping_bind ?_ rfl (fun _ _ _ _ _ hx => ack_clear hx) hu'
    exact Program.calls_bind (Program.calls_perform rfl) fun _ => Program.calls_perform rfl
  · rename_i hfailures
    obtain ⟨hmax, hdelay⟩ := hharmless run hactive (exists_not_returned hfailures)
    exact handleFailure_clear _ hmax hdelay hu'

/-- `_handle` from the check of the source file on. -/
theorem handleSource_clear (h : w.Settles (· = tag)) :
    SafeClear settings (Consumer.handleSource settings tag event) w := by
  have hcalls : (Consumer.handleSource settings tag event).Calls fun op : Op => op.isHandling = true :=
    calls_handleSource (handles_isHandling tag event)
  refine keeping_bind hcalls rfl (fun _ isfile v _ _ hv => ?_) h
  have hscan := hcalls.after isfile
  cases isfile with
  | false => exact publish_ack_clear _ _ hv
  | true =>
      unfold scanCsvFile at hscan ⊢
      simp only [Program.bind_assoc] at hscan ⊢
      refine keeping_bind hscan rfl (fun _ n v _ _ hv => ?_) hv
      have hread := hscan.after n
      by_cases hsize : settings.maxCsvFileSizeBytes < (n : Int)
      · simp only [if_pos hsize]
        exact publish_ack_clear _ _ hv
      · simp only [if_neg hsize] at hread ⊢
        rw [Program.bind_assoc] at hread ⊢
        refine keeping_bind hread rfl (fun _ raw v hharmless _ hv => ?_) hv
        obtain ⟨issues, hissues, hconc⟩ := hharmless
        rw [hissues]
        show SafeClear settings (if issues ≠ [] then _ else _) v
        by_cases hempty : issues = []
        · rw [if_neg (not_not.2 hempty)]
          exact handleUpload_clear (hconc hempty) hv
        · rw [if_pos hempty]
          exact publish_ack_clear _ _ hv

/-- **`_handle` leaves nothing outstanding.** -/
theorem handle_clear (hreadable : m.Readable) (h : w.Settles (· = tag)) :
    SafeClear settings (Consumer.handle settings tag m) w := by
  have hcalls : (Consumer.handle settings tag m).Calls fun op : Op => op.isHandling = true :=
    calls_handle tag m
  unfold Consumer.handle at hcalls ⊢
  split
  · exact publish_ack_clear _ _ h
  · rename_i event hm
    rw [hm] at hcalls
    dsimp only at hcalls
    split
    · exact publish_ack_clear _ _ h
    · rename_i e hnot he
      obtain ⟨text, rfl⟩ := hreadable event hm e he
      exact absurd rfl (hnot text)
    · rename_i hsupported
      rw [hsupported] at hcalls
      refine keeping_bind hcalls rfl (fun _ done v _ _ hv => ?_) h
      cases done with
      | true => exact ack_clear hv
      | false => exact handleSource_clear hv

/-! ## The consumer -/

/-- The calls outside of `_handle` keep the ledger. -/
theorem keepsLedger_of_isSession {op : Op} (h : op.isSession = true) : op.keepsLedger = true := by
  cases op <;> first | rfl | cases h | exact h

/-- **One turn of the loop**: it comes back to the head with nothing outstanding. -/
theorem turn_clear (h : w.Clear) : Safe (undisturbedHost settings).toEnvironment ledger
    (turnPost Clear (Settles fun _ => True)) (Consumer.turn settings) w := by
  -- what is yielded must be readable for `_handle`
  let busyWith : Nat → Message → World → Prop := fun tag m v =>
    v.Settles (· = tag) ∧ m.Readable
  have hbusy : ∀ tag m, Keeps (undisturbedHost settings).toEnvironment ledger (· = .stopIsSet)
      (busyWith tag m) := fun tag m =>
    ⟨fun _ _ hv hm => ⟨hv.1.move hm.1, hv.2⟩, fun _ hv => hv.1.toLedger, fun _ _ _ _ => trivial,
      fun v op r v' hop hv hr => ⟨hv.1.responds settings (by rw [hop]; rfl) hr.1, hv.2⟩⟩
  refine turn_rule_leaving (keeps_settles _) (keeps_settles _) (fun v hv => hv.mono fun _ => False.elim)
    (fun _ => keepsLedger_of_isSession) (fun _ _ => trivial) (fun v r v' hv hr => ?_) hbusy
    (fun tag m v hv => hv.1.mono fun _ _ => trivial) (fun tag m v hv => handle_clear hv.2 hv.1) h
  rcases r with e | ⟨_ | _ | ⟨tag, m⟩⟩
  · obtain rfl : v' = v.release := hr.1
    have hclear : v.release.Clear := hv.of_eq rfl rfl rfl rfl rfl rfl
    exact hclear.mono fun _ hb => absurd hb id
  · obtain rfl : v' = v.release := hr.1
    exact hv.of_eq rfl rfl rfl rfl rfl rfl
  · obtain rfl : v' = v.release := hr.1
    exact hv.of_eq rfl rfl rfl rfl rfl rfl
  · obtain ⟨⟨hopen, e, rest, hb, rfl, rfl⟩, hcareful⟩ := hr
    exact ⟨hv.receive hb, hcareful hopen⟩

/-- The worlds a run starts in: the consumer has not opened a channel. -/
structure Unopened (w : World) : Prop where
  /-- Nothing is unacknowledged. -/
  unacked : w.unacked = []
  /-- Nothing is buffered. -/
  buffered : w.buffered = []
  /-- Nothing was yielded. -/
  received : w.received = []
  /-- There is no prefetch bound. -/
  prefetch : w.prefetch = none

/-- The worlds before the start are clear. -/
theorem Unopened.clear (h : Unopened w) : w.Clear where
  tags := by constructor <;> simp [h.unacked, h.buffered]
  closed _ := h.unacked
  received_below := by simp [h.received]
  received_ne := by simp [h.received]
  buffered_ne := by simp [h.buffered]
  window := by simp [h.prefetch]
  outstanding := by simp [h.unacked]

/-- After a crash nothing is outstanding. -/
theorem World.Ledger.crash (h : w.Ledger) : (w.crash settings).Clear := by
  have hclosed : (w.closeChannel settings).Clear := h.closeChannel
  exact ⟨⟨⟨hclosed.tags.below, hclosed.tags.buffered_below, hclosed.tags.functional⟩, hclosed.closed,
    hclosed.received_below, hclosed.received_ne, hclosed.buffered_ne, fun n hn => by cases hn⟩,
    hclosed.outstanding⟩

/-- **No delivery is stranded.** In every run in which, while the channel is open, nothing makes
`_handle` raise, each time the loop is at its head every delivery that was yielded so far has been
acknowledged or returned to the queue; and if the prefetch window is full, the iterator has a delivery
to yield. -/
theorem no_delivery_stranded (settings : Settings) {s : World × Phase calls Exn Unit}
    (hs : (undisturbedHost settings).Reachable Unopened s) (hhead : s.2 = .head ()) :
    (∀ tag ∈ s.1.received, ∀ d ∈ s.1.unacked, d.1 ≠ tag) ∧
      ∀ n, s.1.prefetch = some n → n ≤ s.1.unacked.length → s.1.buffered ≠ [] := by
  have hsafe := consumer_rule_leaving rfl (keeps_settles _) (keeps_settles _)
    (fun v hv => hv.mono fun _ => False.elim) (fun _ => keepsLedger_of_isSession) (fun _ => turn_clear)
    (fun _ hw => hw.clear) (fun _ _ _ hφ hw => by obtain ⟨rfl, -⟩ := hw; exact hφ.inv.crash) hs
  rw [hhead] at hsafe
  have hclear : s.1.Clear := (hsafe s.1 .refl).2
  refine ⟨fun tag ht d hd => ?_, fun n hn hfull hempty => ?_⟩
  · exact hclear.received_ne tag ht d ((hclear.outstanding d hd).resolve_left id)
  · have hone := hclear.window n hn
    have hnone : s.1.unacked = [] := by
      rw [List.eq_nil_iff_forall_not_mem]
      intro d hd
      have hmem := (hclear.outstanding d hd).resolve_left id
      rw [hempty] at hmem
      exact absurd hmem List.not_mem_nil
    rw [hnone, List.length_nil] at hfull
    omega

/-- With a valid bound on concurrent uploads an answer without a fault does no harm. -/
theorem harmless_of_faultless (hconc : 0 ≤ settings.uploadMaxConcurrency) {op : Op} {x : Res op}
    (hx : op.Faultless x) : op.Harmless settings w (.ok x) := by
  revert hx
  cases op with
  | consume q => cases x <;> exact id
  | readFile path => exact fun ⟨issues, h⟩ => ⟨issues, h, fun _ => hconc⟩
  | uploadGather => exact fun hall _ _ ⟨o, ho, hne⟩ => absurd (hall o ho) hne
  | _ => exact fun _ => trivial

/-- Such runs of the default settings have no obstacles. -/
theorem undisturbedHost_serves : Serves {} (undisturbedHost {}) where
  service := rfl
  distinct := distinct_default
  capable := .of_moves distinct_default
    (fun h hx => ⟨h, fun _ => harmless_of_faultless (by decide) hx⟩) fun h _ => ⟨h, trivial⟩
  moves h _ := ⟨h, trivial⟩

/-- The example event is delivered, uploaded and acknowledged. -/
theorem no_delivery_stranded_sample : ∃ w : World, w.received ≠ [] ∧
    (∀ tag ∈ w.received, ∀ d ∈ w.unacked, d.1 ≠ tag) ∧
      ∀ n, w.prefetch = some n → n ≤ w.unacked.length → w.buffered ≠ [] := by
  obtain ⟨content, hcontent⟩ := exists_scannable
  obtain ⟨w, hrun, -, hreceived⟩ := undisturbedHost_serves.runs_sample hcontent
  exact ⟨_, hreceived, no_delivery_stranded {} (s := (w, .head ()))
    ⟨.fresh content, ⟨rfl, rfl, rfl, rfl⟩, hrun⟩ rfl⟩

/-! ## Exceptions of `_handle` -/

/-- Only the calls of `_handle` raise, the channel stays open, and nothing crashes. -/
def handleFaults : Condition calls Exn World Unit where
  call _ op r := op.isHandling = true ∨ ∃ x, r = .ok x
  move w w' := w.channelOpen = true → w'.channelOpen = true
  restart _ _ := False

/-- Faults in `_handle` leave a host without obstacles. -/
theorem handleFaults_serves (hd : settings.Distinct) :
    Serves settings ((consumerHost settings).under handleFaults) :=
  have hanswers : ∀ w op x, handleFaults.call w op (.ok x) := fun _ _ x => .inr ⟨x, rfl⟩
  ((consumerHost_admits hd).under hanswers fun _ _ h hopen => h.channelOpen.trans hopen).serves

/-- The head has left the main queue. -/
theorem World.fetchNext_queue (e : Entry) (rest : List Entry) :
    (w.fetchNext settings e rest).queue settings.queueName = rest :=
  setQueue_self w settings.queueName rest

/-- **The store raises in `_handle`**: the delivery stays outstanding, and the loop goes on. -/
theorem runs_strand {e : Entry} {rest : List Entry} (hd : settings.Distinct) (hidle : w.Idle)
    (hq : w.queue settings.queueName = e :: rest)
    (hm : TransferEvent.fromJsonBytes e.message.body = .ok event)
    (hsupported : event.assertSupported = .ok ()) :
    ((consumerHost settings).under handleFaults).Runs (w, .head ())
      (w.fetchNext settings e rest, .head ()) := by
  refine (handleFaults_serves hd).runs_delivery (r := .error (.other "OperationalError")) hidle hq
    (.of_supported hm hsupported) ?_
  simp only [Consumer.handle, hm, hsupported]
  exact .bind_error (.perform_error ⟨⟨rfl, rfl⟩, .inl rfl⟩)

/-- The consumer is ready for one more delivery as long as the window is not full. -/
theorem World.Idle.fetchNext {e : Entry} {rest : List Entry} {n : Nat} (h : w.Idle)
    (hn : w.prefetch = some n) (hroom : w.unacked.length + 1 < n) :
    (w.fetchNext settings e rest).Idle where
  channelOpen := h.channelOpen
  stop := h.stop
  buffered := rfl
  room k hk := by
    obtain rfl : n = k := Option.some.inj (hn.symm.trans hk)
    show (w.unacked ++ [(w.nextTag, e)]).length < n
    simpa using hroom

/-- **The consumer starves.** Three copies of the example event are on the main queue; the store
raises while the first two are handled. The loop is at its head, the channel is open, both deliveries
are outstanding and fill the prefetch window, and the third message is never delivered. -/
theorem consumer_starves : ∃ s : World × Phase calls Exn Unit,
    ((consumerHost {}).under handleFaults).Reachable Unopened s ∧ s.2 = .head () ∧
      s.1.channelOpen = true ∧ (∃ tag ∈ s.1.received, ∃ d ∈ s.1.unacked, d.1 = tag) ∧
      (∃ n, s.1.prefetch = some n ∧ s.1.unacked.length = n) ∧ s.1.buffered = [] ∧
      s.1.queue ({} : Settings).queueName ≠ [] := by
  let m := Publisher.message .sample none none
  let e : Entry := ⟨m, []⟩
  let w₀ : World := (({} : World).connected {}).accept {} m
  let w₁ : World := w₀.accept {} m
  let w : World := w₁.accept {} m
  have hidle : w.Idle := (((idle_connected rfl).accept m).accept m).accept m
  have hq : w.queue ({} : Settings).queueName = [e, e, e] := by
    rw [accept_queue, accept_queue, accept_queue, connected_queue]
    rfl
  have hm : TransferEvent.fromJsonBytes e.message.body = .ok .sample :=
    Publisher.fromJsonBytes_message _ _ _
  have hH := handleFaults_serves distinct_default
  have hstart : ((consumerHost {}).under handleFaults).Runs ({}, .setup (consumerService {}).setup)
      (w, .head ()) :=
    ((hH.runs_connect.trans (hH.runs_accept rfl _)).trans (hH.runs_accept rfl _)).trans
      (hH.runs_accept rfl _)
  have hfirst := runs_strand distinct_default hidle hq hm TransferEvent.sample_supported
  have hidle' : (w.fetchNext {} e [e, e]).Idle := hidle.fetchNext (n := 2) rfl (by decide)
  have hsecond := runs_strand distinct_default hidle' (fetchNext_queue e _) hm
    TransferEvent.sample_supported
  refine ⟨_, ⟨{}, ⟨rfl, rfl, rfl, rfl⟩, (hstart.trans hfirst).trans hsecond⟩, rfl, rfl, ?_, ⟨2, rfl, rfl⟩,
    rfl, ?_⟩
  · exact ⟨w.nextTag, List.mem_cons_of_mem _ (List.mem_cons_self ..), (w.nextTag, e),
      List.mem_cons_self .., rfl⟩
  · rw [fetchNext_queue]
    exact List.cons_ne_nil _ _

end TransferWorker
