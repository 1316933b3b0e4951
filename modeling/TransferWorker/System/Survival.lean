import TransferWorker.System.Process
import TransferWorker.System.Progress
import TransferWorker.System.WatcherRules
import TransferWorker.Worker.Hashlib

/-! # Which broker failures the process survives

An AMQP error that ends a worker thread while the main thread goes on serving leaves a process that does
only half of its work and is not restarted. The watcher reconnects after an error of a publication or of
the idle connection, but not after one of the reconnect itself; the consumer does not reconnect.

* **`brokerFaults`** — the runs in which both threads set up, and in their loops only the broker fails.
* **`survivable`** — the condition: the consumer's iterator goes on, and a reconnect succeeds.
* **`threads_survive`** — in the runs that meet both, no thread ends before the stop event is set. -/

namespace TransferWorker

open CallTrees

/-- The call belongs to `connect_and_setup`. -/
def Op.connects : Op → Bool
  | .connect => true
  | .channel => true
  | .queueDeclare _ _ => true
  | .confirmDelivery => true
  | _ => false

/-- The call belongs to the setup of a thread, after the connection. -/
def Op.prepares : Op → Bool
  | .storeOpen _ => true
  | .basicQos _ => true
  | .observerNew => true
  | .observerSchedule _ => true
  | .observerStart => true
  | _ => false

/-- The exceptions that a call of a thread may raise when the setups succeed and only the broker fails
in the loops. The watcher raises its flag between its setup's connection and its loop; whatever `_handle`
raises is caught; `os.path.isfile` does not raise. -/
def BrokerFault (w : World) (e : Exn) : Thread → Op → Prop
  | .main, _ => True
  | .watcher, .basicPublish _ _ => e.isAmqp = true
  | .watcher, .processDataEvents => e.isAmqp = true
  | .watcher, .isfile _ => False
  | .watcher, op =>
      op.prepares = false ∧ (op.connects = true → e.isAmqp = true ∧ w.readiness .watcher = true)
  | .consumer, .consume _ => e.isAmqp = true
  | .consumer, op => op.prepares = false ∧ op.connects = false

/-- **The setups succeed, and only the broker fails.** -/
def brokerFaults : Pool.Condition calls Exn World Thread where
  call t w op r := ∀ e, r = .error e → BrokerFault w e t op
  move _ _ := True
  restart _ := True

/-- The answers after which a thread gives up. -/
def GivesUp : (op : Op) → Except Exn (Res op) → Prop
  | .consume _, .error _ => True
  | .consume _, .ok .exhausted => True
  | .consume _, .ok _ => False
  | op, .error _ => op.connects = true
  | _, .ok _ => False

/-- **The iterator goes on, and a reconnect succeeds.** -/
def survivable : Pool.Condition calls Exn World Thread where
  call _ _ op r := ¬GivesUp op r
  move _ _ := True
  restart _ := True

variable {H : Hashes} {cwd : String} {settings : Settings} {w : World} {t : Thread}

/-- The process under both conditions. -/
abbrev survivor (H : Hashes) (cwd : String) (settings : Settings) :
    Pool calls Exn World (fun _ : Thread => Unit) :=
  (process H cwd settings).under (brokerFaults.and survivable)

/-- Nothing is asked of a call. -/
def anyCall : Contract calls World := ⟨fun _ => True, fun _ _ => True⟩

/-- What a thread sees of the process. -/
abbrev survivorView (H : Hashes) (cwd : String) (settings : Settings) (t : Thread) :
    Environment calls Exn World := (survivor H cwd settings).view (fun _ => anyCall) t

/-- A worker thread that has left its loop was asked to. -/
def Asked (t : Thread) (w : World) : Prop := t ≠ .main → w.stop = true

/-- What is known of the threads. -/
def stopPosts (t : Thread) : Service.Posts Exn Unit World :=
  ⟨fun _ _ => True, fun _ _ => Asked t, fun _ => Asked t⟩

/-- A program does not raise. -/
def Returned {α : Type} (r : Except Exn α) (_ : World) : Prop := ∃ a, r = .ok a

/-! ## Rules -/

/-- A stop event that is set stays set. -/
theorem keeps_asked (t : Thread) :
    Keeps (survivorView H cwd settings t) anyCall (fun _ => True) (Asked t) where
  stable w w' h hmove := by
    intro ht
    rcases hmove with ⟨hmove, -⟩ | ⟨t', -, op, r, -, ⟨-, hr⟩, -⟩
    · exact hmove.flags.1 (h ht)
    · exact (flags_of_responds hr).1 (h ht)
  inv _ _ := trivial
  guar _ _ _ _ := trivial
  responds w op r w' _ h hr := fun ht => (flags_of_responds hr.1.2).1 (h ht)

/-- Of the main thread nothing needs to be known. -/
theorem keeps_whatever (t : Thread) :
    Keeps (survivorView H cwd settings t) anyCall (fun _ => True) (fun _ => True) where
  stable _ _ _ _ := trivial
  inv _ _ := trivial
  guar _ _ _ _ := trivial
  responds _ _ _ _ _ _ _ := trivial

/-- A program, whatever it does. -/
theorem safe_whatever {α : Type} {post : Except Exn α → World → Prop} {p : Prog α}
    (hpost : ∀ r v, post r v) : Safe (survivorView H cwd settings t) anyCall post p w :=
  ((keeps_whatever t).of_calls p.calls_trivial trivial).mono fun r v _ => hpost r v

/-- A program that runs when the thread was asked to stop. -/
theorem safe_asked {α : Type} {p : Prog α} (h : Asked t w) :
    Safe (survivorView H cwd settings t) anyCall (fun _ => Asked t) p w :=
  (keeps_asked t).of_calls p.calls_trivial h

/-- A return. -/
theorem safe_ret {α : Type} {post : Except Exn α → World → Prop} {a : α} (hpost : ∀ v, post (.ok a) v) :
    Safe (survivorView H cwd settings t) anyCall post (.ret a) w :=
  (keeps_whatever t).ret (fun v _ => hpost v) trivial

/-- A call that does not raise, followed by a program. -/
theorem safe_returning {α : Type} {op : Op} {f : Res op → Prog α} {post : Except Exn α → World → Prop}
    (hop : ∀ v e v', ¬(survivorView H cwd settings t).responds v op (.error e) v')
    (hf : ∀ x v, Safe (survivorView H cwd settings t) anyCall post (f x) v) :
    Safe (survivorView H cwd settings t) anyCall post (call op >>= f) w :=
  (keeps_whatever t).other_bind (fun _ _ => trivial) (fun _ x v' _ _ => hf x v')
    (fun v e v' _ hr => absurd hr (hop v e v')) trivial

/-- A program that does not raise, followed by another one. -/
theorem safe_returned_bind {α β : Type} {p : Prog α} {f : α → Prog β} {post : Except Exn β → World → Prop}
    (hp : Safe (survivorView H cwd settings t) anyCall Returned p w)
    (hf : ∀ a v, Safe (survivorView H cwd settings t) anyCall post (f a) v) :
    Safe (survivorView H cwd settings t) anyCall post (p >>= f) w := by
  refine hp.bind (fun a v _ _ => hf a v) fun e v hv => ?_
  obtain ⟨a, ha⟩ := hv
  cases ha

/-- A call that cannot raise. -/
theorem safe_perform {op : Op} (hop : ∀ v e v', ¬(survivorView H cwd settings t).responds v op (.error e) v') :
    Safe (survivorView H cwd settings t) anyCall Returned (call op) w := by
  rw [← Program.bind_ret (call op)]
  exact safe_returning hop fun x v => safe_ret fun _ => ⟨x, rfl⟩

/-! ## What does not raise -/

/-- A connection. -/
theorem not_raises_connects {op : Op} (hop : op.connects = true) (v : World) (e : Exn) (v' : World) :
    ¬(survivorView H cwd settings t).responds v op (.error e) v' := by
  intro h
  refine h.2.2 ?_
  cases op <;> first | exact hop | cases hop

/-- A call that prepares a thread meets no fault of the broker. -/
theorem BrokerFault.prepares {op : Op} {e : Exn} (ht : t ≠ .main) (h : BrokerFault w e t op) :
    op.prepares = false := by
  cases t with
  | main => exact absurd rfl ht
  | watcher => cases op <;> first | rfl | exact h.1
  | consumer => cases op <;> first | rfl | exact h.1

/-- The other calls of the setups. -/
theorem not_raises_prepares {op : Op} (ht : t ≠ .main) (hop : op.prepares = true) (v : World) (e : Exn)
    (v' : World) : ¬(survivorView H cwd settings t).responds v op (.error e) v' := by
  intro h
  have hnot := (h.2.1 e rfl).prepares ht
  rw [hop] at hnot
  cases hnot

/-- Setting up a connection does not raise. -/
theorem safe_connectAndSetup :
    Safe (survivorView H cwd settings t) anyCall Returned (connectAndSetup settings) w := by
  refine safe_returning (not_raises_connects rfl) fun _ _ => ?_
  refine safe_returning (not_raises_connects rfl) fun _ _ => ?_
  refine safe_returned_bind ?_ fun _ _ => safe_perform (not_raises_connects rfl)
  refine safe_returning (not_raises_connects rfl) fun _ _ => ?_
  exact safe_returning (not_raises_connects rfl) fun _ _ => safe_perform (not_raises_connects rfl)

/-- Nor does reporting readiness. -/
theorem not_raises_setReady (c : Component) (b : Bool) (v : World) (e : Exn) (v' : World) :
    ¬(survivorView H cwd settings t).responds v (.setReady c b) (.error e) v' :=
  fun h => nomatch h.1.2.1

/-- The result of a program as a value, followed by another one. -/
theorem safe_attempt_bind {α β : Type} {p : Prog α} {f : Except Exn α → Prog β}
    {post : Except Exn β → World → Prop}
    (hf : ∀ r v, Safe (survivorView H cwd settings t) anyCall post (f r) v) :
    Safe (survivorView H cwd settings t) anyCall post (p.attempt >>= f) w := by
  have hp : Safe (survivorView H cwd settings t) anyCall (fun _ _ => True) p w :=
    safe_whatever fun _ _ => trivial
  exact hp.attempt_bind fun r v _ _ => hf r v

/-- **A reconnect succeeds.** -/
theorem safe_reconnect :
    Safe (survivorView H cwd settings t) anyCall Returned (Watcher.reconnect settings) w :=
  safe_attempt_bind fun _ _ => safe_connectAndSetup

/-! ## The watcher -/

/-- What the broker raises while the watcher publishes or is idle is an AMQP error. -/
theorem amqp_of_responds {op : Op} (hop : (∃ q m, op = .basicPublish q m) ∨ op = .processDataEvents)
    {v v' : World} {e : Exn} (h : (survivorView H cwd settings .watcher).responds v op (.error e) v') :
    e.isAmqp = true := by
  have hfault := h.2.1 e rfl
  rcases hop with ⟨q, m, rfl⟩ | rfl
  · exact hfault
  · exact hfault

/-- One call of the watcher to the broker: an exception is an AMQP error. -/
theorem safe_broker {op : Op} (hop : (∃ q m, op = .basicPublish q m) ∨ op = .processDataEvents) :
    Safe (survivorView H cwd settings .watcher) anyCall (fun r _ => ∀ e, r = .error e → e.isAmqp = true)
      (call op) w := by
  refine Safe.perform (fun _ _ _ _ => trivial) (fun _ _ => trivial) (fun _ _ => trivial)
    (fun r v v' h _ => h) (fun v r v' _ hr => ⟨trivial, ?_⟩) (A := fun _ => True) trivial
  rintro e rfl
  exact amqp_of_responds hop hr

/-- Publishing with a reconnect does not raise. -/
theorem safe_publishWithReconnect (e : TransferEvent) :
    Safe (survivorView H cwd settings .watcher) anyCall Returned (Watcher.publishWithReconnect settings e)
      w := by
  refine (safe_broker (.inl ⟨_, _, rfl⟩)).attempt_bind fun r v hr _ => ?_
  cases r with
  | ok u => exact safe_ret fun _ => ⟨(), rfl⟩
  | error exn =>
      dsimp only
      rw [if_pos (hr exn rfl)]
      -- whatever the second publication raises is only logged
      refine safe_returned_bind safe_reconnect fun _ _ => ?_
      exact safe_attempt_bind fun _ _ => safe_ret fun _ => ⟨(), rfl⟩

/-- Nor does serving an idle connection. -/
theorem safe_serviceIdleConnection :
    Safe (survivorView H cwd settings .watcher) anyCall Returned (Watcher.serviceIdleConnection settings)
      w := by
  refine (safe_broker (.inr rfl)).attempt_bind fun r v hr _ => ?_
  cases r with
  | ok u => exact safe_ret fun _ => ⟨u, rfl⟩
  | error exn =>
      dsimp only
      rw [if_pos (hr exn rfl)]
      exact safe_reconnect

/-- Nor does handling a path, since a failed `build_event` is only logged. -/
theorem safe_handlePath (path : Path) :
    Safe (survivorView H cwd settings .watcher) anyCall Returned (Watcher.handlePath H cwd settings path)
      w := by
  refine safe_returning (fun v e v' h => h.2.1 e rfl) fun regular v => ?_
  split
  · exact safe_ret fun _ => ⟨(), rfl⟩
  · refine safe_attempt_bind fun r v => ?_
    cases r with
    | error e => exact safe_ret fun _ => ⟨(), rfl⟩
    | ok e => exact safe_publishWithReconnect e

/-- **A turn of the watcher** ends the loop only when the stop event is set. -/
theorem safe_watcher_turn :
    Safe (survivorView H cwd settings .watcher) anyCall ((stopPosts .watcher).turn ())
      (Watcher.turn H cwd settings) w := by
  have hnext : ∀ {p : Prog Unit} (v : World), Safe (survivorView H cwd settings .watcher) anyCall Returned p v →
      Safe (survivorView H cwd settings .watcher) anyCall ((stopPosts .watcher).turn ())
        (p >>= fun _ => .ret (.inl ())) v :=
    fun v hp => safe_returned_bind hp fun _ _ => safe_ret fun _ => trivial
  refine (keeps_whatever .watcher).other_bind (fun _ _ => trivial) (fun v stop v' _ hr => ?_)
    (fun v e v' _ hr => nomatch hr.1.2.1) trivial
  obtain ⟨rfl, rfl⟩ : stop = v.stop ∧ v' = v := hr.1.2
  split
  · rename_i hstop
    exact (keeps_asked .watcher).ret (fun _ hu => hu) fun _ => hstop
  · refine safe_returning (fun _ _ _ h => nomatch h.1.2.1) fun item u => ?_
    cases item with
    | none => exact hnext u safe_serviceIdleConnection
    | some path => exact hnext u (safe_handlePath path)

/-- The setup of the watcher does not raise. -/
theorem safe_watcher_setup :
    Safe (survivorView H cwd settings .watcher) anyCall Returned (watcherService H cwd settings).setup w := by
  have hprepares : ∀ {op : Op}, op.prepares = true → ∀ v e v',
      ¬(survivorView H cwd settings .watcher).responds v op (.error e) v' :=
    fun hop => not_raises_prepares nofun hop
  refine safe_returned_bind safe_connectAndSetup fun _ _ => ?_
  refine safe_returning (not_raises_setReady .watcher true) fun _ _ => ?_
  refine safe_returning (hprepares rfl) fun _ _ => ?_
  exact safe_returning (hprepares rfl) fun _ _ => safe_perform (hprepares rfl)

/-! ## The consumer -/

/-- The iterator yields. -/
theorem consumes_of_responds {q : String} {v v' : World} {r : Except Exn Consumed}
    (h : (survivorView H cwd settings t).responds v (.consume q) r v') :
    r = .ok .tick ∨ ∃ tag m, r = .ok (.delivery tag m) := by
  have hgoes := h.2.2
  rcases r with e | ⟨_ | _ | ⟨tag, m⟩⟩
  · exact absurd trivial hgoes
  · exact absurd trivial hgoes
  · exact .inl rfl
  · exact .inr ⟨tag, m, rfl⟩

/-- **A turn of the consumer** ends the loop only when the stop event is set. -/
theorem safe_consumer_turn :
    Safe (survivorView H cwd settings .consumer) anyCall ((stopPosts .consumer).turn ())
      (Consumer.turn settings) w := by
  have hleave : ∀ v : World, Asked .consumer v → Safe (survivorView H cwd settings .consumer) anyCall
      ((stopPosts .consumer).turn ()) (call .cancel >>= fun _ => (.ret (.inr ()) : Prog (Unit ⊕ Unit))) v :=
    fun v hv => (keeps_asked .consumer).call_bind trivial (fun _ _ hu => hu)
      (fun _ _ _ _ _ hu => (keeps_asked .consumer).ret (fun _ hx => hx) hu) hv
  -- the stop event is read after every item
  have hread : ∀ (v : World) {p : Prog (Unit ⊕ Unit)},
      (∀ u, Safe (survivorView H cwd settings .consumer) anyCall ((stopPosts .consumer).turn ()) p u) →
      Safe (survivorView H cwd settings .consumer) anyCall ((stopPosts .consumer).turn ())
        (call .stopIsSet >>= fun b => if b = true then
          call .cancel >>= fun _ => (.ret (.inr ()) : Prog (Unit ⊕ Unit)) else p) v := by
    intro v p hp
    refine (keeps_whatever .consumer).other_bind (fun _ _ => trivial) (fun u stop u' _ hr => ?_)
      (fun u e u' _ hr => nomatch hr.1.2.1) trivial
    obtain ⟨rfl, rfl⟩ : stop = u.stop ∧ u' = u := hr.1.2
    split
    · rename_i hstop
      exact hleave _ fun _ => hstop
    · exact hp _
  refine (keeps_whatever .consumer).other_bind (fun _ _ => trivial) (fun v item v' _ hr => ?_)
    (fun v e v' _ hr => ?_) trivial
  · rcases consumes_of_responds hr with hitem | ⟨tag, m, hitem⟩
    · cases hitem
      exact hread v' fun _ => safe_ret fun _ => trivial
    · cases hitem
      refine hread v' fun u => ?_
      exact safe_attempt_bind fun _ _ => safe_ret fun _ => trivial
  · rcases consumes_of_responds hr with hitem | ⟨tag, m, hitem⟩ <;> cases hitem

/-- A body that does not raise needs no cleanup. -/
theorem safe_returned_onError {α : Type} {p : Prog α} {c : Prog Unit}
    (hp : Safe (survivorView H cwd settings t) anyCall Returned p w) :
    Safe (survivorView H cwd settings t) anyCall Returned (p.onError c) w := by
  refine hp.attempt_bind fun r v hr _ => ?_
  obtain ⟨a, rfl⟩ := hr
  exact safe_ret fun _ => ⟨a, rfl⟩

/-- Nor does that of the consumer. -/
theorem safe_consumer_setup_returned :
    Safe (survivorView H cwd settings .consumer) anyCall Returned (consumerService settings).setup w := by
  refine safe_returned_bind safe_connectAndSetup fun _ _ => safe_returned_onError ?_
  refine safe_returning (not_raises_prepares nofun rfl) fun _ _ => safe_returned_onError ?_
  refine safe_returning (not_raises_setReady .consumer true) fun _ _ => ?_
  exact safe_perform (not_raises_prepares nofun rfl)

/-! ## Every run -/

/-- After a setup that did not raise nothing needs to be known. -/
theorem stopPosts_setup {r : Except Exn Unit} (h : Returned r w) : (stopPosts t).setup r w := by
  obtain ⟨a, rfl⟩ := h
  trivial

/-- The setup of every thread. -/
theorem safe_thread_setup (t : Thread) : Safe (survivorView H cwd settings t) anyCall (stopPosts t).setup
    ((survivor H cwd settings).service t).setup w := by
  cases t with
  | main =>
      refine safe_whatever fun r v => ?_
      cases r with
      | ok s => trivial
      | error e => exact fun h => absurd rfl h
  | watcher => exact safe_watcher_setup.mono fun _ _ => stopPosts_setup
  | consumer => exact safe_consumer_setup_returned.mono fun _ _ => stopPosts_setup

/-- **Every thread leaves its loop only when the stop event is set.**. -/
theorem sound_thread (t : Thread) : ((survivor H cwd settings).service t).Sound
    (survivorView H cwd settings t) anyCall (stopPosts t) := by
  cases t with
  | main =>
      refine ⟨fun s w _ _ => safe_whatever fun r v => ?_, fun s r w _ _ => safe_whatever fun r v => ?_⟩
      · rcases r with _ | ⟨_ | _⟩
        · exact fun h => absurd rfl h
        · trivial
        · exact fun h => absurd rfl h
      · exact fun h => absurd rfl h
  | watcher => exact ⟨fun _ _ _ _ => safe_watcher_turn, fun _ _ _ _ hw => safe_asked hw⟩
  | consumer => exact ⟨fun _ _ _ _ => safe_consumer_turn, fun _ _ _ _ hw => safe_asked hw⟩

/-- The main thread waits for the stop event. -/
def Serving (φ : Phase calls Exn Unit) : Prop := φ.Calling .stopWait

/-- **The threads survive**: in every run in which the setups succeed and only the broker fails in the
loops, and in which the consumer's iterator goes on and every reconnect succeeds, no worker thread has
ended while the main thread serves and the stop event is not set. -/
theorem threads_survive {H : Hashes} {cwd : String} {settings : Settings}
    {s : (process H cwd settings).State}
    (hs : ((process H cwd settings).under (brokerFaults.and survivable)).Reachable (fun _ => True) s) :
    ¬(Serving (s.2 .main) ∧ s.1.stop = false ∧ ∃ c : Component, (s.2 c.thread).Terminated) := by
  rintro ⟨-, hstop, c, hc⟩
  have hsafe := Pool.phaseSafe_of_reachable (C := fun _ => anyCall) (Q := stopPosts) sound_thread
    (fun w _ t => safe_thread_setup t) (fun w φ w' _ _ t => safe_thread_setup t) hs c.thread
  cases hφ : s.2 c.thread with
  | terminated r =>
      rw [hφ] at hsafe
      have hne : c.thread ≠ .main := by cases c <;> nofun
      have hset : s.1.stop = true := (hsafe s.1 .refl).2 hne
      exact absurd (hset.symm.trans hstop) nofun
  | _ =>
      rw [hφ] at hc
      exact hc.elim

/-! ## Two runs -/

/-- What the main thread does while it serves. -/
def servingTurn : Prog (Unit ⊕ Unit) := do
  (call .stopWait).andFinally (call .serverStop)
  return .inr ()

/-- The main thread starts the other two and serves. -/
theorem runs_serve {K : Pool.Condition calls Exn World Thread}
    (hK : ∀ v (op : Op) x, (∀ q, op ≠ .consume q) → K.call .main v op (.ok x)) :
    ((process H cwd settings).under K).Runs (w, ((process H cwd settings).under K).start)
      (w.launched, Function.update ((process H cwd settings).under K).start .main
        (.turn () servingTurn)) := by
  let P := (process H cwd settings).under K
  let φ := Function.update P.start .main (.head ())
  let φ' := Function.update φ .main (.turn () (mainService.turn ()))
  have hlaunch : P.Runs (w, P.start) (w.launched, φ) :=
    runs_launch (hK _ _ _ nofun) fun v => hK v _ _ nofun
  have henter : P.Runs (w.launched, φ) (w.launched, φ') := Pool.runs_enter rfl
  have hstart : P.responds .main w.launched .serverStart (.ok ()) w.launched :=
    ⟨⟨trivial, rfl⟩, hK _ _ _ nofun⟩
  have hcall := Pool.runs_call (φ := φ') (i := Thread.main) (.ok ()) rfl hstart
  have hserve : P.Runs (w.launched, φ') (w.launched, Function.update φ' .main (.turn () servingTurn)) :=
    hcall
  rw [Function.update_idem, Function.update_idem] at hserve
  exact (hlaunch.trans henter).trans hserve

/-- **A lost connection**: the iterator raises, the consumer's thread ends, and the main thread serves
on. -/
theorem consumer_gives_up : ∃ s : (process hashlib "/" {}).State,
    ((process hashlib "/" {}).under brokerFaults).Reachable (fun _ => True) s ∧
      Serving (s.2 .main) ∧ s.1.stop = false ∧ (s.2 .consumer).Terminated := by
  let P := (process hashlib "/" {}).under brokerFaults
  let φ := Function.update P.start .main (.turn () servingTurn)
  let w := World.connected {} (World.launched {})
  let lost : Exn := .amqp "ConnectionClosedByBroker"
  let lowered : World := { w.release with readiness := w.readiness.setReady .consumer false }
  let closed := lowered.closeConnection {} .consumer
  have hE : Capable {} (threadWorld {} brokerFaults .consumer) :=
    .of_moves distinct_default (fun h _ => ⟨h, nofun⟩) fun h _ => ⟨h, trivial⟩
  have hserve : P.Runs ({}, P.start) (World.launched {}, φ) := runs_serve fun _ _ _ _ => nofun
  have hsetup : P.Runs (World.launched {}, φ) (w, Function.update φ .consumer (.head ())) :=
    runs_thread_setup hE.executes_setup rfl rfl
  have hconsume : Executes (threadWorld {} brokerFaults .consumer) (Consumer.turn {}) w (.error lost)
      w.release := by
    refine .bind_error (.perform_error ⟨rfl, ?_⟩)
    rintro e ⟨⟩
    rfl
  have hfinish : Executes (threadWorld {} brokerFaults .consumer)
      ((consumerService {}).finish () (.error lost)) w.release (.error lost) closed := by
    refine .andFinally (.andFinally .ofExcept (hE.call .storeClose () rfl trivial)) ?_
    exact hE.call_bind (.setReady .consumer false) () rfl trivial (hE.call .close () rfl trivial)
  have hturn := Pool.runs_turn_error (P := P) (φ := Function.update φ .consumer (.head ())) rfl
    (executes_process hconsume rfl)
  have hend := hturn.trans (Pool.runs_finish rfl (executes_process hfinish rfl))
  refine ⟨_, ⟨{}, trivial, (hserve.trans hsetup).trans hend⟩, ⟨_, rfl⟩, rfl, ?_⟩
  trivial

/-- The idle connection of the watcher is lost, and the watcher goes on. -/
theorem threads_survive_idle : ∃ s : (process hashlib "/" {}).State,
    s.2 .watcher = .head () ∧ Serving (s.2 .main) ∧
      ¬(Serving (s.2 .main) ∧ s.1.stop = false ∧ ∃ c : Component, (s.2 c.thread).Terminated) := by
  let K := brokerFaults.and survivable
  let P := (process hashlib "/" {}).under K
  let φ := Function.update P.start .main (.turn () servingTurn)
  let w := World.watching (World.launched {})
  let lost : Exn := .amqp "AMQPHeartbeatTimeout"
  have hreturns : ∀ t v (op : Op) x, (∀ q, op ≠ .consume q) → K.call t v op (.ok x) := by
    intro t v op x hop
    refine ⟨nofun, ?_⟩
    cases op <;> first | exact id | exact absurd rfl (hop _)
  have hE : Attends {} (threadWorld {} K .watcher) := fun hop h => ⟨h, hreturns _ _ _ _ hop⟩
  have hserve : P.Runs ({}, P.start) (World.launched {}, φ) := runs_serve fun v op x hop => hreturns _ v op x hop
  have hsetup : P.Runs (World.launched {}, φ) (w, Function.update φ .watcher (.head ())) :=
    runs_thread_setup hE.executes_setup rfl rfl
  have hidle : Executes (threadWorld {} K .watcher) (Watcher.serviceIdleConnection {}) w (.ok ()) w := by
    refine .bind (.attempt (.perform_error (e := lost) ⟨⟨rfl, rfl⟩, ?_, nofun⟩)) hE.executes_reconnect
    rintro e ⟨⟩
    rfl
  have hturn : Executes (threadWorld {} K .watcher) (Watcher.turn hashlib "/" {}) w (.ok (.inl ())) w := by
    refine hE.call_bind .stopIsSet false nofun ⟨rfl, rfl⟩ ?_
    exact hE.call_bind .fileQueueGet none nofun ⟨rfl, rfl⟩ (hidle.bind .ret)
  have hnext := Pool.runs_turn (P := P) (φ := Function.update φ .watcher (.head ())) rfl
    (executes_process hturn rfl)
  exact ⟨_, rfl, ⟨_, rfl⟩, threads_survive ⟨{}, trivial, (hserve.trans hsetup).trans hnext⟩⟩

end TransferWorker
