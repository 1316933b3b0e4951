import TransferWorker.System.World

/-! # Proof rules for the consumer

The parts of a proof about the consumer that do not depend on what is proved: which calls each piece
of it makes, and how an assertion that holds at the loop head is carried through a turn, a run of the
thread and its restarts, when `_handle` keeps it.

* **`Op.isSession`** — the calls that the consumer makes outside its iterator and `_handle`.
* **`turn_rule_leaving`** — one turn, from a rule about `_handle`; `turn_rule` when nothing is lost on
  leaving the loop.
* **`consumer_rule_leaving`**, `consumer_rule` — every reachable state. -/

namespace TransferWorker

open CallTrees

/-- The calls that the consumer makes outside its iterator and `_handle`. -/
def Op.isSession : Op → Bool
  | .connect => true
  | .channel => true
  | .queueDeclare _ _ => true
  | .confirmDelivery => true
  | .basicQos n => 1 ≤ n
  | .cancel => true
  | .close => true
  | .storeOpen _ => true
  | .storeClose => true
  | .stopIsSet => true
  | .setReady component _ => component = .consumer
  | _ => false

/-- The calls that `_handle` makes. -/
def Op.isHandling : Op → Bool
  | .basicPublish _ _ => true
  | .basicAck _ => true
  | .isDone _ => true
  | .markDone _ _ => true
  | .isfile _ => true
  | .getsize _ => true
  | .readFile _ => true
  | .uploadStart _ _ => true
  | .uploadGather => true
  | _ => false

variable {settings : Settings} {P : Op → Prop}

/-! ## The calls of the pieces -/

/-- The calls that set up a connection. -/
theorem calls_connectAndSetup (hconnect : P .connect) (hchannel : P .channel)
    (hdeclare : ∀ q args, P (.queueDeclare q args)) (hconfirm : P .confirmDelivery) :
    (connectAndSetup settings).Calls P :=
  Program.calls_bind (Program.calls_perform hconnect) fun _ =>
    Program.calls_bind (Program.calls_perform hchannel) fun _ =>
      Program.calls_bind (Program.calls_bind (Program.calls_perform (hdeclare _ _)) fun _ =>
        Program.calls_bind (Program.calls_perform (hdeclare _ _)) fun _ =>
          Program.calls_perform (hdeclare _ _)) fun _ => Program.calls_perform hconfirm

/-- The calls of the setup. -/
theorem calls_setup : (consumerService settings).setup.Calls fun op : Op => op.isSession = true := by
  have hcleanup : consumerCleanup.Calls fun op : Op => op.isSession = true :=
    Program.calls_bind (Program.calls_perform rfl) fun _ => Program.calls_perform rfl
  have hinit : (Consumer.init settings).Calls fun op : Op => op.isSession = true :=
    Program.calls_perform (decide_eq_true (le_max_left 1 settings.uploadMaxConcurrency))
  refine Program.calls_bind (calls_connectAndSetup rfl rfl (fun _ _ => rfl) rfl) fun _ => ?_
  refine Program.calls_onError (Program.calls_bind (Program.calls_perform rfl) fun _ => ?_) hcleanup
  exact Program.calls_onError (Program.calls_bind (Program.calls_perform rfl) fun _ => hinit)
    (Program.calls_perform rfl)

/-- The calls of the code after the loop. -/
theorem calls_finish (s : Unit) (r : Except Exn Unit) :
    ((consumerService settings).finish s r).Calls fun op : Op => op.isSession = true :=
  Program.calls_andFinally
    (Program.calls_andFinally (Program.calls_ofExcept r) (Program.calls_perform rfl))
    (Program.calls_bind (Program.calls_perform rfl) fun _ => Program.calls_perform rfl)

/-- The scan asks for the size and reads the file. -/
theorem calls_scanCsvFile (path : Path) (hsize : P (.getsize path)) (hread : P (.readFile path)) :
    (scanCsvFile path settings).Calls P := by
  refine Program.calls_bind (Program.calls_perform hsize) fun n => ?_
  split
  · trivial
  · exact Program.calls_bind (Program.calls_perform hread) fun _ => Program.calls_ofExcept _

/-- The uploads are started and gathered. -/
theorem calls_uploadAll (event : TransferEvent) (path : Path) (hstart : P (.uploadStart event path))
    (hgather : P .uploadGather) : (uploadAll settings event path).Calls P := by
  unfold uploadAll
  split
  · trivial
  · exact Program.calls_bind (Program.calls_perform hstart) fun _ =>
      Program.calls_bind (Program.calls_perform hgather) fun _ => trivial

/-- What a retry keeps of an event: everything but `retry`. -/
def TransferEvent.journey (e : TransferEvent) : TransferEvent := { e with retry := none }

/-- The retry is no part of the journey. -/
theorem TransferEvent.journey_withRetry {e e' : TransferEvent} {attempt maxAttempts : Int}
    {lastError : String} (h : e.withRetry attempt maxAttempts lastError = .ok e') :
    e'.journey = e.journey := by
  obtain ⟨ha, hm, rfl⟩ := TransferEvent.withRetry_ok h
  rfl

/-- The calls with which `_handle` gives an event away are in `P`: publications of the event or of one
with another `retry`, and the acknowledgement. -/
structure GivesAway (P : Op → Prop) (tag : Nat) (event : TransferEvent) : Prop where
  /-- The publications. -/
  publish : ∀ q e expiration headers, e.journey = event.journey →
    P (.basicPublish q (Publisher.message e expiration headers))
  /-- The acknowledgement. -/
  ack : P (.basicAck tag)

/-- The calls of `_handle` for an event are in `P`. -/
structure HandlesEvent (P : Op → Prop) (tag : Nat) (event : TransferEvent) : Prop extends
    GivesAway P tag event where
  /-- The calls that publish nothing. -/
  other : ∀ op : Op, op.isHandling = true → (∀ q m, op ≠ .basicPublish q m) → P op

/-- The calls of `_handle` are those that handle an event. -/
theorem handles_isHandling (tag : Nat) (event : TransferEvent) :
    HandlesEvent (fun op : Op => op.isHandling = true) tag event where
  publish _ _ _ _ _ := rfl
  ack := rfl
  other _ h _ := h

/-- A dead letter gives the event away. -/
theorem calls_deadLetter {tag : Nat} {event : TransferEvent} (h : GivesAway P tag event)
    (reason : String) : (Consumer.deadLetter settings tag event reason).Calls P :=
  Program.calls_bind (Program.calls_perform (h.publish _ _ _ _ rfl)) fun _ =>
    Program.calls_perform h.ack

/-- A pure computation makes no call before the rest. -/
theorem calls_ofExcept_bind {α β : Type} {r : Except Exn α} {f : α → Prog β}
    (hf : ∀ a, r = .ok a → (f a).Calls P) : (pureCall r >>= f).Calls P := by
  cases r with
  | ok a => exact hf a rfl
  | error e => trivial

/-- A failed upload gives the event away. -/
theorem calls_handleFailure {tag : Nat} {event : TransferEvent} (h : GivesAway P tag event)
    (failures : List UploadResult) : (Consumer.handleFailure settings tag event failures).Calls P := by
  unfold Consumer.handleFailure
  dsimp only
  split
  · refine calls_ofExcept_bind fun failed hfailed => ?_
    have hjourney := TransferEvent.journey_withRetry hfailed
    exact Program.calls_bind (Program.calls_perform (h.publish _ _ _ _ hjourney)) fun _ =>
      Program.calls_perform h.ack
  · refine calls_ofExcept_bind fun retried hretried => ?_
    have hjourney := TransferEvent.journey_withRetry hretried
    refine Program.calls_bind (Program.calls_ofExcept _) fun _ => ?_
    exact Program.calls_bind (Program.calls_perform (h.publish _ _ _ _ hjourney)) fun _ =>
      Program.calls_perform h.ack

/-- The calls of `_handle` from the upload on. -/
theorem calls_handleUpload {tag : Nat} {event : TransferEvent} (h : HandlesEvent P tag event) :
    (Consumer.handleUpload settings tag event).Calls P := by
  have hstart := h.other (.uploadStart event (fsencode event.source.path)) rfl fun _ _ => nofun
  have hgather := h.other .uploadGather rfl fun _ _ => nofun
  have hmark := h.other (.markDone event.idempotencyKey event.correlationId) rfl fun _ _ => nofun
  refine Program.calls_bind (calls_uploadAll _ _ hstart hgather) fun results => ?_
  dsimp only
  split
  · exact Program.calls_bind (Program.calls_perform hmark) fun _ => Program.calls_perform h.ack
  · exact calls_handleFailure h.toGivesAway _

/-- The calls of `_handle` from the check of the source file on. -/
theorem calls_handleSource {tag : Nat} {event : TransferEvent} (h : HandlesEvent P tag event) :
    (Consumer.handleSource settings tag event).Calls P := by
  have hisfile := h.other (.isfile (fsencode event.source.path)) rfl fun _ _ => nofun
  have hsize := h.other (.getsize (fsencode event.source.path)) rfl fun _ _ => nofun
  have hread := h.other (.readFile (fsencode event.source.path)) rfl fun _ _ => nofun
  refine Program.calls_bind (Program.calls_perform hisfile) fun isfile => ?_
  split
  · exact calls_deadLetter h.toGivesAway _
  · refine Program.calls_bind (calls_scanCsvFile _ hsize hread) fun issues => ?_
    split
    · exact calls_deadLetter h.toGivesAway _
    · exact calls_handleUpload h

/-- The calls of `_handle` for a message that decodes to an event. -/
theorem calls_handle_event {tag : Nat} {event : TransferEvent} {m : Message} (h : HandlesEvent P tag event)
    (hm : TransferEvent.fromJsonBytes m.body = .ok event) :
    (Consumer.handle settings tag m).Calls P := by
  unfold Consumer.handle
  rw [hm]
  dsimp only
  split
  · exact calls_deadLetter h.toGivesAway _
  · trivial
  · have hdone := h.other (.isDone event.idempotencyKey) rfl fun _ _ => nofun
    refine Program.calls_bind (Program.calls_perform hdone) fun done => ?_
    split
    · exact Program.calls_perform h.ack
    · exact calls_handleSource h

/-- The calls of `_handle`. -/
theorem calls_handle (tag : Nat) (m : Message) :
    (Consumer.handle settings tag m).Calls fun op : Op => op.isHandling = true := by
  cases hm : TransferEvent.fromJsonBytes m.body with
  | error e =>
      unfold Consumer.handle
      rw [hm]
      exact Program.calls_bind (Program.calls_perform rfl) fun _ => Program.calls_perform rfl
  | ok event => exact calls_handle_event (handles_isHandling tag event) hm

/-- The calls of a turn. -/
theorem calls_turn (hconsume : P (.consume settings.queueName)) (hcancel : P .cancel)
    (hstop : P .stopIsSet) (hhandle : ∀ op : Op, op.isHandling = true → P op) :
    (Consumer.turn settings).Calls P := by
  have hend : (call .cancel >>= fun _ => (.ret (.inr ()) : Prog (Unit ⊕ Unit))).Calls P :=
    Program.calls_bind (Program.calls_perform hcancel) fun _ => trivial
  refine Program.calls_bind (Program.calls_perform hconsume) fun item => ?_
  cases item with
  | exhausted => exact hend
  | tick =>
      refine Program.calls_bind (Program.calls_perform hstop) fun stop => ?_
      split
      · exact hend
      · trivial
  | delivery tag m =>
      refine Program.calls_bind (Program.calls_perform hstop) fun stop => ?_
      split
      · exact hend
      · exact Program.calls_bind (Program.calls_attempt ((calls_handle tag m).mono hhandle)) fun _ => trivial

/-! ## The thread -/

variable {W : Type} {E : Environment calls Exn W} {C : Contract calls W} {A L : W → Prop}
  {B : Nat → Message → W → Prop}

/-- Where a turn leads: to `A` at the next loop head, to `L` when the loop is left. -/
def turnPost (A L : W → Prop) : Except Exn (Unit ⊕ Unit) → W → Prop
  | .ok (.inl _) => A
  | _ => L

/-- Where an answer of the iterator leads. -/
def consumePost (A L : W → Prop) (B : Nat → Message → W → Prop) :
    Except Exn Consumed → W → Prop
  | .ok (.delivery tag m) => B tag m
  | .ok _ => A
  | .error _ => L

/-- **The rule of a turn.** `A` holds at the loop head and `L` when the loop is left; `B tag m` holds
once the iterator has yielded a delivery, and `_handle` leads from it back to `A`, however it ends. -/
theorem turn_rule_leaving (hA : Keeps E C P A) (hL : Keeps E C P L) (hAL : ∀ v, A v → L v)
    (hsession : ∀ op : Op, op.isSession = true → P op)
    (hguar : ∀ v, A v → C.guar v (.consume settings.queueName))
    (hconsume : ∀ v r v', A v → E.responds v (.consume settings.queueName) r v' →
      consumePost A L B r v')
    (hB : ∀ tag m, Keeps E C (· = .stopIsSet) (B tag m)) (hBL : ∀ tag m v, B tag m v → L v)
    (hhandle : ∀ tag m v, B tag m v →
      Safe E C (fun _ => A) (Consumer.handle settings tag m) v)
    {w : W} (h : A w) : Safe E C (turnPost A L) (Consumer.turn settings) w := by
  have hcancel : ∀ v, L v → Safe E C (turnPost A L)
      (call .cancel >>= fun _ => (.ret (.inr ()) : Prog (Unit ⊕ Unit))) v :=
    fun v hv => hL.call_bind (hsession _ rfl) (fun _ _ hu => hu)
      (fun _ _ _ _ _ hu => hL.ret (fun _ hx => hx) hu) hv
  refine hA.other_bind hguar (fun v item v' hv hr => ?_) (fun v e v' hv hr => ?_) h
  · have hitem := hconsume v (.ok item) v' hv hr
    cases item with
    | exhausted => exact hcancel v' (hAL v' hitem)
    | tick =>
        refine hA.call_bind (hsession _ rfl) (fun _ u hu => hAL u hu) (fun _ stop u _ _ hu => ?_) hitem
        split
        · exact hcancel u (hAL u hu)
        · exact hA.ret (fun _ hx => hx) hu
    | delivery tag m =>
        refine (hB tag m).call_bind rfl (fun _ u hu => hBL _ _ u hu) (fun _ stop u _ _ hu => ?_) hitem
        split
        · exact hcancel u (hBL _ _ u hu)
        · have hattempt : Safe E C (fun _ => A) (Consumer.handle settings tag m).attempt u :=
            Safe.attempt (hhandle tag m u hu)
          exact Safe.bind hattempt (fun _ v hv _ => hA.ret (fun _ hx => hx) hv) fun _ v hv => hAL v hv
  · exact hL.raise (fun _ hx => hx) (hconsume v (.error e) v' hv hr)

/-- **The rule of a turn** for an assertion that also holds when the loop is left. -/
theorem turn_rule (hA : Keeps E C P A) (hsession : ∀ op : Op, op.isSession = true → P op)
    (hconsume : P (.consume settings.queueName))
    (hB : ∀ tag m, Keeps E C (· = .stopIsSet) (B tag m)) (hBA : ∀ tag m v, B tag m v → A v)
    (hreceive : ∀ v tag m v', A v →
      E.responds v (.consume settings.queueName) (.ok (.delivery tag m)) v' → B tag m v')
    (hhandle : ∀ tag m v, B tag m v →
      Safe E C (fun _ => A) (Consumer.handle settings tag m) v)
    {w : W} (h : A w) : Safe E C (fun _ => A) (Consumer.turn settings) w := by
  have hpost : ∀ v r v', A v → E.responds v (.consume settings.queueName) r v' →
      consumePost A A B r v' := fun v r v' hv hr => by
    have hv' : A v' := hA.responds v _ r v' hconsume hv hr
    rcases r with e | ⟨_ | _ | ⟨tag, m⟩⟩
    · exact hv'
    · exact hv'
    · exact hv'
    · exact hreceive v tag m v' hv hr
  refine (turn_rule_leaving hA hA (fun _ hv => hv) hsession (fun v hv => hA.guar v _ hconsume hv)
    hpost hB hBA hhandle h).mono fun r _ hv => ?_
  rcases r with _ | ⟨_ | _⟩ <;> exact hv

/-- `A` is known at the loop head, `L` when the loop is left and after the end. -/
def loopPosts (A L : W → Prop) : Service.Posts Exn Unit W :=
  ⟨fun _ => A, fun _ _ => L, fun _ => L⟩

/-- The same is known at all stations of the thread. -/
def allPosts (A : W → Prop) : Service.Posts Exn Unit W :=
  ⟨fun _ => A, fun _ _ => A, fun _ => A⟩

/-- The setup of the consumer. -/
theorem safe_consumer_setup (hA : Keeps E C P A) (hAL : ∀ v, A v → L v)
    (hsession : ∀ op : Op, op.isSession = true → P op) {w : W} (h : A w) :
    Safe E C (loopPosts A L).setup (consumerService settings).setup w :=
  (hA.of_calls (calls_setup.mono hsession) h).mono fun r v hv => by
    cases r with
    | ok s => exact hv
    | error e => exact hAL v hv

/-- The loop of the consumer, and what follows it. -/
theorem sound_consumer (hL : Keeps E C P L) (hsession : ∀ op : Op, op.isSession = true → P op)
    (hturn : ∀ w, A w → Safe E C (turnPost A L) (Consumer.turn settings) w) :
    (consumerService settings).Sound E C (loopPosts A L) where
  turn _ w _ hw := (hturn w hw).mono fun r _ hv => by rcases r with _ | ⟨_ | _⟩ <;> exact hv
  finish s r _ _ hw := hL.of_calls ((calls_finish s r).mono hsession) hw

/-- **The rule of the consumer**: what holds at the start and after a restart, is kept by the calls
outside the loop and by every turn, is known at the head of the loop in every reachable state. -/
theorem consumer_rule_leaving {H : Host calls Exn W Unit} {init : W → Prop}
    (hservice : H.service = consumerService settings) (hA : Keeps H.toEnvironment C P A)
    (hL : Keeps H.toEnvironment C P L) (hAL : ∀ v, A v → L v)
    (hsession : ∀ op : Op, op.isSession = true → P op)
    (hturn : ∀ w, A w → Safe H.toEnvironment C (turnPost A L) (Consumer.turn settings) w)
    (hinit : ∀ w, init w → A w)
    (hrestart : ∀ w φ w', Service.PhaseSafe H.toEnvironment C (loopPosts A L) φ w →
      H.restart w φ w' → A w')
    {s : W × Phase calls Exn Unit} (hs : H.Reachable init s) :
    Service.PhaseSafe H.toEnvironment C (loopPosts A L) s.2 s.1 := by
  have hsetup : ∀ w, A w →
      Safe H.toEnvironment C (loopPosts A L).setup H.service.setup w := fun w hw => by
    rw [hservice]
    exact safe_consumer_setup hA hAL hsession hw
  have hsound : H.service.Sound H.toEnvironment C (loopPosts A L) := by
    rw [hservice]
    exact sound_consumer hL hsession hturn
  exact Host.phaseSafe_of_reachable hsound (fun w hw => hsetup w (hinit w hw))
    (fun w φ w' hφ hw => hsetup w' (hrestart w φ w' hφ hw)) hs

/-- **The rule of the consumer** for an assertion that holds at all stations of the thread. -/
theorem consumer_rule {H : Host calls Exn W Unit} {init : W → Prop}
    (hservice : H.service = consumerService settings) (hA : Keeps H.toEnvironment C P A)
    (hsession : ∀ op : Op, op.isSession = true → P op)
    (hturn : ∀ w, A w → Safe H.toEnvironment C (fun _ => A) (Consumer.turn settings) w)
    (hinit : ∀ w, init w → A w)
    (hrestart : ∀ w φ w', Service.PhaseSafe H.toEnvironment C (allPosts A) φ w →
      H.restart w φ w' → A w')
    {s : W × Phase calls Exn Unit} (hs : H.Reachable init s) :
    Service.PhaseSafe H.toEnvironment C (allPosts A) s.2 s.1 :=
  consumer_rule_leaving hservice hA hA (fun _ hv => hv) hsession
    (fun w hw => (hturn w hw).mono fun r _ hv => by rcases r with _ | ⟨_ | _⟩ <;> exact hv)
    hinit hrestart hs

end TransferWorker
