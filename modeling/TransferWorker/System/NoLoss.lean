import TransferWorker.System.ConsumerRules
import TransferWorker.System.Delivery
import TransferWorker.System.Progress

/-! # No message is lost

Every message that was ever accepted on the main queue is carried: a message for the same event is
somewhere in the broker, or the event's key is in the store. An acknowledgement is the only step
that takes a message out of the broker, and `_handle` hands a message on before it acknowledges the
delivery: to the dead-letter queue, to the retry queue, or to the store.

* **`World.Carried`** — a message for the same event is present, or the event is done.
* **`handle_safe`** — whatever the calls of `_handle` answer, it never acknowledges too early.
* **`no_message_lost`** — in every reachable state. -/

namespace TransferWorker

open CallTrees World

/-- **A message for the same event**: the same key and correlation id; of an undecodable body, the
very same body. -/
def SameMessage (body body' : ByteArray) : Prop :=
  match TransferEvent.fromJsonBytes body with
  | .error _ => body' = body
  | .ok event => ∃ event', TransferEvent.fromJsonBytes body' = .ok event' ∧
      event'.idempotencyKey = event.idempotencyKey ∧ event'.correlationId = event.correlationId

/-- A body is the same message as itself. -/
theorem SameMessage.refl (body : ByteArray) : SameMessage body body := by
  unfold SameMessage
  split
  · rfl
  · exact ⟨_, by assumption, rfl, rfl⟩

/-- Two bodies of events with one key and one correlation id are the same message. -/
theorem sameMessage_of_ok {body body' : ByteArray} {event event' : TransferEvent}
    (h : TransferEvent.fromJsonBytes body = .ok event)
    (h' : TransferEvent.fromJsonBytes body' = .ok event')
    (hkey : event'.idempotencyKey = event.idempotencyKey)
    (hcorr : event'.correlationId = event.correlationId) : SameMessage body body' := by
  rw [SameMessage, h]
  exact ⟨event', h', hkey, hcorr⟩

/-- The same message as the same message. -/
theorem SameMessage.trans {body body' body'' : ByteArray} (h : SameMessage body body')
    (h' : SameMessage body' body'') : SameMessage body body'' := by
  unfold SameMessage at h
  split at h
  · subst h
    exact h'
  · obtain ⟨event', hok, hkey, hcorr⟩ := h
    rw [SameMessage, hok] at h'
    obtain ⟨event'', hok', hkey', hcorr'⟩ := h'
    exact sameMessage_of_ok (by assumption) hok' (hkey'.trans hkey) (hcorr'.trans hcorr)

namespace World

/-- The event of a body is done. -/
def Done (w : World) (body : ByteArray) : Prop :=
  ∃ event, TransferEvent.fromJsonBytes body = .ok event ∧ event.idempotencyKey.val ∈ w.doneKeys

/-- **A body is carried**: a message for the same event is present, or the event is done. -/
def Carried (settings : Settings) (keep : Nat → Prop) (w : World) (body : ByteArray) : Prop :=
  w.Done body ∨ ∃ body', SameMessage body body' ∧ w.Present settings keep body'

variable {settings : Settings} {w w' : World}

/-- What is done with a body is done with the same message. -/
theorem Done.same {body body' : ByteArray} (h : w.Done body') (hs : SameMessage body body') :
    w.Done body := by
  obtain ⟨event', hok, hdone⟩ := h
  unfold SameMessage at hs
  split at hs
  · subst hs
    exact ⟨event', hok, hdone⟩
  · rename_i event hevent
    obtain ⟨event'', hok', hkey, -⟩ := hs
    rw [hok', Except.ok.injEq] at hok
    subst hok
    exact ⟨event, hevent, hkey ▸ hdone⟩

/-- What is carried of a body is carried of the same message. -/
theorem Carried.same {keep : Nat → Prop} {body body' : ByteArray}
    (h : w.Carried settings keep body') (hs : SameMessage body body') :
    w.Carried settings keep body := by
  rcases h with h | ⟨body'', hs', hp⟩
  · exact .inl (h.same hs)
  · exact .inr ⟨body'', hs.trans hs', hp⟩

/-- A body stays carried while the broker grows. -/
theorem Carried.grows {keep : Nat → Prop} {body : ByteArray} (h : w.Carried settings keep body)
    (hg : Grows settings w w') (hkeep : ∀ n, w.nextTag ≤ n → keep n) :
    w'.Carried settings keep body := by
  rcases h with ⟨event, hok, hdone⟩ | ⟨body', hs, hp⟩
  · exact .inl ⟨event, hok, hg.done _ hdone⟩
  · exact .inr ⟨body', hs, hg.present keep body' hkeep hp⟩

/-- A body that is carried, if need be by the delivery under a tag, is carried otherwise when the
message of that delivery is. -/
theorem Carried.besides {tag : Nat} {m : Message} {body : ByteArray}
    (h : w.Carried settings (fun _ => True) body) (hown : Own tag m w)
    (hm : w.Carried settings (· ≠ tag) m.body) : w.Carried settings (· ≠ tag) body := by
  rcases h with h | ⟨body', hs, hq | ⟨d, hd, -, hb⟩⟩
  · exact .inl h
  · exact .inr ⟨body', hs, .inl hq⟩
  · by_cases htag : d.1 = tag
    · rw [← hb, hown.message d hd htag] at hs
      exact hm.same hs
    · exact .inr ⟨body', hs, .inr ⟨d, hd, htag, hb⟩⟩

/-- What is carried without a delivery is carried after its acknowledgement. -/
theorem Carried.ack {tag : Nat} {body : ByteArray} (h : w.Carried settings (· ≠ tag) body) :
    (w.ack tag).Carried settings (fun _ => True) body := by
  rcases h with h | ⟨body', hs, hq | ⟨d, hd, htag, hb⟩⟩
  · exact .inl h
  · exact .inr ⟨body', hs, .inl hq⟩
  · exact .inr ⟨body', hs, .inr ⟨d, List.mem_filter.2 ⟨hd, by simpa using htag⟩, trivial, hb⟩⟩

end World

/-! ## The assertions -/

/-- **The invariant**: tags identify deliveries, and every accepted message is carried. -/
structure NoLoss (settings : Settings) (w : World) : Prop where
  /-- Tags identify deliveries. -/
  tags : w.Tags
  /-- Every accepted message is carried. -/
  carried : ∀ m ∈ w.accepted, w.Carried settings (fun _ => True) m.body

/-- `_handle` works on a delivery. -/
structure Handles (settings : Settings) (tag : Nat) (m : Message) (w : World) : Prop
    extends NoLoss settings w where
  /-- The delivery is under its tag. -/
  own : Own tag m w

/-- `_handle` has handed the message on, so that the delivery is no longer needed. -/
structure HandedOn (settings : Settings) (tag : Nat) (m : Message) (w : World) : Prop
    extends Handles settings tag m w where
  /-- The message is carried without the delivery. -/
  besides : w.Carried settings (· ≠ tag) m.body

variable {settings : Settings} {w w' : World} {tag : Nat} {m : Message}

/-- No message is lost while the broker grows. -/
theorem NoLoss.grows (h : NoLoss settings w) (hg : Grows settings w w') : NoLoss settings w' where
  tags := hg.tags h.tags
  carried m hm := by
    rcases hg.accepted m hm with hm | hm
    · exact (h.carried m hm).grows hg fun _ _ => trivial
    · exact .inr ⟨m.body, .refl _, hm⟩

/-- The delivery at hand stays at hand. -/
theorem Handles.grows (h : Handles settings tag m w) (hg : Grows settings w w') :
    Handles settings tag m w' where
  toNoLoss := h.toNoLoss.grows hg
  own := hg.own tag m h.own

/-- What was handed on stays handed on. -/
theorem HandedOn.grows (h : HandedOn settings tag m w) (hg : Grows settings w w') :
    HandedOn settings tag m w' where
  toHandles := h.toHandles.grows hg
  besides := h.besides.grows hg fun _ hn => (h.own.below.trans_le hn).ne'

/-- After the acknowledgement of a delivery that was handed on nothing is lost. -/
theorem HandedOn.ack (h : HandedOn settings tag m w) : NoLoss settings (w.ack tag) where
  tags := ⟨fun d hd => h.tags.below d (List.mem_of_mem_filter hd), h.tags.buffered_below,
    fun d hd d' hd' => h.tags.functional d hd d' (List.mem_of_mem_filter hd')⟩
  carried m' hm' := ((h.carried m' hm').besides h.own h.besides).ack

/-- A published message for the same event hands the delivery on. -/
theorem Handles.publish (h : Handles settings tag m w) {q : String} (hq : q ∈ settings.queues)
    {m' : Message} (hs : SameMessage m.body m'.body) :
    HandedOn settings tag m ((w.publish settings .consumer q m').confirm .consumer m') where
  toHandles := h.grows ((Grows.publish q m').trans (.of_eq rfl rfl rfl rfl rfl rfl) le_rfl)
  besides := by
    refine .inr ⟨m'.body, hs, ?_⟩
    exact present_push (w := w) hq ⟨m', w.chainOf .consumer q m'⟩

/-! ## The programs -/

/-- The contract: the invariant at every moment, and no obligation at calls. -/
def noLoss (settings : Settings) : Contract calls World := ⟨NoLoss settings, fun _ _ => True⟩

/-- The consumer among parties of whom it is only known that they let the broker grow. -/
def amidGrowth (settings : Settings) : Environment calls Exn World where
  responds w op r w' := w.responds settings .consumer op r w'
  interfere := Grows settings

/-- The environment of the consumer alone lets the broker grow. -/
theorem consumerHost_within : (consumerHost settings).toEnvironment.Within (amidGrowth settings) :=
  ⟨fun h => h, Move.grows⟩

/-- An assertion that survives everything but an acknowledgement, and contains the invariant. -/
structure Lasting (settings : Settings) (A : World → Prop) : Prop where
  /-- It survives. -/
  grows : ∀ w w', A w → Grows settings w w' → A w'
  /-- It contains the invariant. -/
  inv : ∀ w, A w → NoLoss settings w

/-- A lasting assertion is kept by calls that acknowledge nothing. -/
theorem Lasting.keeps {A : World → Prop} (hA : Lasting settings A) :
    Keeps (amidGrowth settings) (noLoss settings)
      (fun op : Op => op.isAck = false) A where
  stable _ _ h hm := hA.grows _ _ h hm
  inv := hA.inv
  guar _ _ _ _ := trivial
  responds _ _ _ _ hop h hr := hA.grows _ _ h (grows_of_responds hop hr)

/-- Calls that acknowledge nothing lose no message. -/
theorem keeps_noLoss : Keeps (amidGrowth settings) (noLoss settings)
    (fun op : Op => op.isAck = false) (NoLoss settings) :=
  Lasting.keeps ⟨fun _ _ => .grows, fun _ => id⟩

/-- They leave the delivery at hand. -/
theorem keeps_handles : Keeps (amidGrowth settings) (noLoss settings)
    (fun op : Op => op.isAck = false) (Handles settings tag m) :=
  Lasting.keeps ⟨fun _ _ => .grows, fun _ h => h.toNoLoss⟩

/-- They leave handed on what was handed on. -/
theorem keeps_handedOn : Keeps (amidGrowth settings) (noLoss settings)
    (fun op : Op => op.isAck = false) (HandedOn settings tag m) :=
  Lasting.keeps ⟨fun _ _ => .grows, fun _ h => h.toNoLoss⟩

/-- A piece of the consumer is safe, and the invariant holds at its end. -/
abbrev SafeNoLoss {α : Type} (settings : Settings) (p : Prog α) (w : World) : Prop :=
  Safe (amidGrowth settings) (noLoss settings) (fun _ => NoLoss settings) p w

/-! ## `_handle` -/

/-- **The acknowledgement of a delivery that was handed on.** -/
theorem ack_safe (h : HandedOn settings tag m w) : SafeNoLoss settings (call (.basicAck tag)) w := by
  refine Safe.perform keeps_handedOn.stable keeps_handedOn.inv (fun _ _ => trivial)
    (fun _ => keeps_noLoss.stable.and keeps_noLoss.stable) (fun v r v' hv hr => ?_) h
  have hend : NoLoss settings v' := by
    cases r with
    | ok a =>
        obtain ⟨-, rfl⟩ := hr
        exact hv.ack
    | error e =>
        rcases hr with rfl | ⟨-, rfl⟩
        · exact hv.toNoLoss
        · exact hv.ack
  exact ⟨hend, hend⟩

/-- Publish a message for the same event to a queue of the topology, then acknowledge. -/
theorem publish_ack_safe {q : String} (hq : q ∈ settings.queues) {m' : Message}
    (hs : SameMessage m.body m'.body) (h : Handles settings tag m w) :
    SafeNoLoss settings (call (.basicPublish q m') >>= fun _ => call (.basicAck tag)) w :=
  keeps_handles.call_bind rfl (fun _ _ hv => hv.toNoLoss) (fun v _ v' hv hn _ => by
    obtain ⟨-, rfl⟩ := hn
    exact ack_safe (hv.publish hq hs)) h

variable {event event' : TransferEvent}

/-- Dead-lettering an event of the same key and correlation id. -/
theorem deadLetter_safe (hm : TransferEvent.fromJsonBytes m.body = .ok event)
    (hkey : event'.idempotencyKey = event.idempotencyKey)
    (hcorr : event'.correlationId = event.correlationId) (reason : String)
    (h : Handles settings tag m w) :
    SafeNoLoss settings (Consumer.deadLetter settings tag event' reason) w :=
  publish_ack_safe mem_queues_dlq
    (sameMessage_of_ok hm (Publisher.fromJsonBytes_message event' _ _) hkey hcorr) h

/-- The end of `_handle` after a failed upload. -/
theorem handleFailure_safe (hm : TransferEvent.fromJsonBytes m.body = .ok event)
    (failures : List UploadResult) (h : Handles settings tag m w) :
    SafeNoLoss settings (Consumer.handleFailure settings tag event failures) w := by
  unfold Consumer.handleFailure
  dsimp only
  split
  · refine keeps_handles.pure_bind (fun _ _ hv => hv.toNoLoss) (fun failed hfailed => ?_) h
    obtain ⟨-, -, rfl⟩ := TransferEvent.withRetry_ok hfailed
    refine deadLetter_safe hm ?_ ?_ _ h <;> rfl
  · refine keeps_handles.pure_bind (fun _ _ hv => hv.toNoLoss) (fun retried hretried => ?_) h
    obtain ⟨-, -, rfl⟩ := TransferEvent.withRetry_ok hretried
    refine keeps_handles.pure_bind (fun _ _ hv => hv.toNoLoss) (fun delay _ => ?_) h
    exact publish_ack_safe mem_queues_retry
      (sameMessage_of_ok hm (Publisher.fromJsonBytes_message _ _ _) rfl rfl) h

/-- `_handle` from the upload on. -/
theorem handleUpload_safe (hm : TransferEvent.fromJsonBytes m.body = .ok event)
    (h : Handles settings tag m w) :
    SafeNoLoss settings (Consumer.handleUpload settings tag event) w := by
  refine keeps_handles.bind (calls_uploadAll _ _ rfl rfl) (fun _ _ hv => hv.toNoLoss)
    (fun results v hv => ?_) h
  dsimp only
  split
  · refine keeps_handles.call_bind rfl (fun _ _ hu => hu.toNoLoss) (fun u _ u' hu hn hu' => ?_) hv
    -- the key is in the store before the delivery is acknowledged
    obtain rfl := hn
    exact ack_safe ⟨hu', .inl ⟨event, hm, mem_doneKeys_markDone ..⟩⟩
  · exact handleFailure_safe hm _ hv

/-- `_handle` from the check of the source file on. -/
theorem handleSource_safe (hm : TransferEvent.fromJsonBytes m.body = .ok event)
    (h : Handles settings tag m w) :
    SafeNoLoss settings (Consumer.handleSource settings tag event) w := by
  refine keeps_handles.call_bind rfl (fun _ _ hv => hv.toNoLoss) (fun _ isfile v _ _ hv => ?_) h
  split
  · exact deadLetter_safe hm rfl rfl _ hv
  · refine keeps_handles.bind (calls_scanCsvFile _ rfl rfl) (fun _ _ hu => hu.toNoLoss)
      (fun issues u hu => ?_) hv
    split
    · exact deadLetter_safe hm rfl rfl _ hu
    · exact handleUpload_safe hm hu

/-- **`_handle` never acknowledges too early**, whatever its calls answer and whatever happens in
between. -/
theorem handle_safe (h : Handles settings tag m w) :
    SafeNoLoss settings (Consumer.handle settings tag m) w := by
  unfold Consumer.handle
  split
  · exact publish_ack_safe (m := m) mem_queues_dlq (.refl m.body) h
  · rename_i event hm
    split
    · exact deadLetter_safe hm rfl rfl _ h
    · exact keeps_handles.raise (fun _ hv => hv.toNoLoss) h
    · refine keeps_handles.call_bind rfl (fun _ _ hv => hv.toNoLoss)
        (fun v done v' _ hn hv' => ?_) h
      split
      · obtain ⟨hdone, rfl⟩ := hn
        exact ack_safe ⟨hv', .inl ⟨event, hm, by simpa [*] using hdone.symm⟩⟩
      · exact handleSource_safe hm hv'

/-! ## The consumer -/

/-- A delivery that the iterator yields is under its tag. -/
theorem NoLoss.receive {e : Entry} {rest : List (Nat × Entry)} (h : NoLoss settings w)
    (hb : w.buffered = (tag, e) :: rest) : Handles settings tag e.message (w.receive tag e rest) where
  toNoLoss := h.grows (.receive hb)
  own := by
    have hmem : (tag, e) ∈ w.buffered := by simp [hb]
    refine ⟨h.tags.buffered_below _ hmem, fun d hd htag => ?_⟩
    rw [← h.tags.functional _ hmem d hd htag.symm]

/-- The calls outside of `_handle` acknowledge nothing. -/
theorem notAck_of_isSession {op : Op} (h : op.isSession = true) : op.isAck = false := by
  cases op <;> first | rfl | cases h

/-- **One turn of the loop.** -/
theorem turn_safe (h : NoLoss settings w) : SafeNoLoss settings (Consumer.turn settings) w := by
  refine turn_rule keeps_noLoss (fun _ => notAck_of_isSession) rfl
    (fun tag m => keeps_handles.mono fun op hop => hop ▸ rfl)
    (fun _ _ _ hv => Handles.toNoLoss hv) (fun v tag m v' hv hr => ?_)
    (fun _ _ _ hv => handle_safe hv) h
  obtain ⟨-, e, rest, hb, rfl, rfl⟩ := hr
  exact hv.receive hb

/-- A crash loses nothing. -/
theorem NoLoss.crash (h : NoLoss settings w) : NoLoss settings (w.crash settings) :=
  h.grows (Grows.closeChannel.trans (.of_eq rfl rfl rfl rfl rfl rfl) le_rfl)

/-- The worlds a run starts in: nothing was accepted yet and no channel is open. -/
structure Fresh (w : World) : Prop where
  /-- Nothing was accepted. -/
  accepted : w.accepted = []
  /-- Nothing is unacknowledged. -/
  unacked : w.unacked = []
  /-- Nothing is buffered. -/
  buffered : w.buffered = []

/-- Nothing is lost at the start. -/
theorem Fresh.noLoss (h : Fresh w) : NoLoss settings w where
  tags := by constructor <;> simp [h.unacked, h.buffered]
  carried := by simp [h.accepted]

/-- Every reachable world meets the invariant. -/
theorem noLoss_of_reachable {s : World × Phase calls Exn Unit}
    (hs : (consumerHost settings).Reachable Fresh s) : NoLoss settings s.1 :=
  (consumer_rule rfl (keeps_noLoss.within consumerHost_within) (fun _ => notAck_of_isSession)
    (fun _ h => (turn_safe h).within consumerHost_within) (fun _ hw => hw.noLoss)
    (fun _ _ _ hφ hw => hw ▸ NoLoss.crash hφ.inv) hs).inv

/-- **No message is ever lost by the consumer.** Whatever the calls of the consumer answer, however
they fail, and however the environment, crashes and restarts are interleaved with it: of every
message that was ever accepted on the main queue, a message with the same key and correlation id (of
an undecodable body, with exactly the same bytes) is on the main queue, unacknowledged, on the retry
queue or on the dead-letter queue, or its key is in the store. -/
theorem no_message_lost (settings : Settings) {s : World × Phase calls Exn Unit}
    (hs : (consumerHost settings).Reachable Fresh s) :
    ∀ m ∈ s.1.accepted,
      match TransferEvent.fromJsonBytes m.body with
      | .error _ => s.1.Holds settings m.body
      | .ok event => event.idempotencyKey.val ∈ s.1.doneKeys ∨
          ∃ body event', s.1.Holds settings body ∧ TransferEvent.fromJsonBytes body = .ok event' ∧
            event'.idempotencyKey = event.idempotencyKey ∧
            event'.correlationId = event.correlationId := by
  intro m hm
  have hcarried := (noLoss_of_reachable hs).carried m hm
  split
  · rename_i hdecode
    rcases hcarried with ⟨event, hok, -⟩ | ⟨body, hsame, hp⟩
    · rw [hdecode] at hok
      exact absurd hok (by simp)
    · rw [SameMessage, hdecode] at hsame
      exact hsame ▸ hp
  · rename_i event hdecode
    rcases hcarried with ⟨event', hok, hdone⟩ | ⟨body, hsame, hp⟩
    · rw [hdecode, Except.ok.injEq] at hok
      exact .inl (hok ▸ hdone)
    · rw [SameMessage, hdecode] at hsame
      obtain ⟨event', hok, hkey, hcorr⟩ := hsame
      exact .inr ⟨body, event', hp, hok, hkey, hcorr⟩

/-- An event whose upload failed on one provider is acknowledged, and its retry message is there. -/
theorem no_message_lost_sample : ∃ s : World × Phase calls Exn Unit,
    s.1.accepted = [Publisher.message .sample none none] ∧ s.1.queue "orders.inbound" = [] ∧
      s.1.doneKeys = [] ∧
      ∀ m ∈ s.1.accepted, match TransferEvent.fromJsonBytes m.body with
        | .error _ => s.1.Holds {} m.body
        | .ok event => event.idempotencyKey.val ∈ s.1.doneKeys ∨
            ∃ body event', s.1.Holds {} body ∧ TransferEvent.fromJsonBytes body = .ok event' ∧
              event'.idempotencyKey = event.idempotencyKey ∧
              event'.correlationId = event.correlationId := by
  obtain ⟨content, hcontent⟩ := exists_scannable
  obtain ⟨w, e, retried, hrun, hretry⟩ := (consumerHost_admits distinct_default).runs_sample_retry hcontent
  exact ⟨(w, .head ()), hretry.accepted, hretry.main, congrArg (List.map Prod.fst) hretry.processed,
    no_message_lost {} ⟨.fresh content, ⟨rfl, rfl, rfl⟩, hrun⟩⟩

end TransferWorker
