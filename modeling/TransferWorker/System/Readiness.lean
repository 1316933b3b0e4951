import TransferWorker.System.Process
import TransferWorker.System.Progress
import TransferWorker.System.WatcherRules
import TransferWorker.Worker.Hashlib

/-! # The readiness of the process

A component is ready from when its thread says so until the thread takes it back. `_run_consumer` takes
it back in the `finally` that follows the connection; `run_watcher` does so in a `finally` that starts
only after the observer has. So the flag of the watcher is wrong if the observer cannot be created,
scheduled or started, and in no other case.

* **`observerStarts`** — the condition: no call with which the observer is set up raises.
* **`readiness_truthful`** — in the runs that meet it, the flag of a thread that has ended is down. -/

namespace TransferWorker

open CallTrees

variable {H : Hashes} {cwd : String} {settings : Settings} {w w' : World}

/-- The calls with which `run_watcher` sets its observer up. -/
def Op.startsObserver : Op → Bool
  | .observerNew => true
  | .observerSchedule _ => true
  | .observerStart => true
  | _ => false

/-- The observer can be set up. -/
def observerStarts : Pool.Condition calls Exn World Thread where
  call _ _ op r := op.startsObserver = true → ∀ e, r ≠ .error e
  move _ _ := True
  restart _ := True

/-- The flags of a thread are down. -/
def World.Off (t : Thread) (w : World) : Prop := ∀ c : Component, c.thread = t → w.readiness c = false

/-- A call that touches the flags of one thread only. -/
def OwnFlags (t : Thread) (op : Op) : Prop := ∀ c b, op = .setReady c b → c.thread = t

/-- Every thread sets the flags of its own component only. -/
def flagContract (t : Thread) : Contract calls World where
  inv _ := True
  guar _ := OwnFlags t

/-- When a thread has ended, its flags are down. -/
def flagPosts (t : Thread) : Service.Posts Exn Unit World :=
  ⟨fun _ _ => True, fun _ _ _ => True, fun _ => World.Off t⟩

/-- What a thread sees of the process. -/
abbrev flagView (H : Hashes) (cwd : String) (settings : Settings) (t : Thread) :
    Environment calls Exn World :=
  ((process H cwd settings).under observerStarts).view flagContract t

/-- A call that raises no flag, and touches those of one thread only. -/
def LowersFlags (t : Thread) (op : Op) : Prop := ∀ c b, op = .setReady c b → c.thread = t ∧ b = false

/-- A call that sets no flag raises none. -/
theorem lowersFlags {t : Thread} {op : Op} (hop : ∀ c b, op ≠ .setReady c b) : LowersFlags t op :=
  fun c b h => absurd h (hop c b)

/-! ## What the threads keep -/

/-- **Flags that are down stay down**, whatever other threads do, until the thread raises one. -/
theorem keeps_off (t : Thread) :
    Keeps (flagView H cwd settings t) (flagContract t) (LowersFlags t) (World.Off t) where
  stable w w' hoff hmove := by
    intro c hc
    rcases hmove with ⟨hmove, -⟩ | ⟨t', ht, op, r, hguar, ⟨-, hr⟩, -⟩
    · rw [hmove.flags.2.1]
      exact hoff c hc
    · -- a flag of this thread is not set by another one
      have hop : ∀ b, op ≠ .setReady c b := fun b heq => ht ((hguar c b heq).symm.trans hc)
      rw [(flags_of_responds hr).2.1 c hop]
      exact hoff c hc
  inv _ _ := trivial
  guar _ op hop _ c b heq := (hop c b heq).1
  responds w op r w' hop hoff hr := by
    intro c hc
    by_cases hset : ∃ b, op = .setReady c b
    · obtain ⟨b, rfl⟩ := hset
      rw [flag_of_setReady hr.1.2]
      exact (hop c b rfl).2
    · rw [(flags_of_responds hr.1.2).2.1 c fun b heq => hset ⟨b, heq⟩]
      exact hoff c hc

/-- Calls of a thread keep what is always so. -/
theorem keeps_anything (t : Thread) :
    Keeps (flagView H cwd settings t) (flagContract t) (OwnFlags t) (fun _ => True) where
  stable _ _ _ _ := trivial
  inv _ _ := trivial
  guar _ _ hop _ := hop
  responds _ _ _ _ _ _ _ := trivial

/-- A thread that lowers its flag and does not raise it again. -/
theorem safe_lower (c : Component) {α : Type} {f : Unit → Prog α}
    (hf : (f ()).Calls (LowersFlags c.thread)) :
    Safe (flagView H cwd settings c.thread) (flagContract c.thread) (fun _ => World.Off c.thread)
      (call (.setReady c false) >>= f) w := by
  have hlow : ∀ v r v', (flagView H cwd settings c.thread).responds v (.setReady c false) r v' →
      World.Off c.thread v' := by
    intro v r v' hr c' hc
    obtain rfl : c' = c := by
      cases c <;> cases c' <;> first | rfl | cases hc
    exact flag_of_setReady hr.1.2
  refine (keeps_anything c.thread).other_bind (fun _ _ => ?_) (fun v x v' _ hr => ?_)
    (fun v e v' _ hr => ?_) trivial
  · intro c' b heq
    cases heq
    rfl
  · exact (keeps_off c.thread).of_calls hf (hlow v _ v' hr)
  · exact (keeps_off c.thread).raise (fun _ h => h) (hlow v _ v' hr)

/-- A program that touches the flags of its thread only, and what follows it. -/
theorem safe_then (t : Thread) {α β : Type} {p : Prog α} {f : Except Exn α → Prog β}
    {post : Except Exn β → World → Prop}
    (hp : p.Calls (OwnFlags t))
    (hf : ∀ r v, Safe (flagView H cwd settings t) (flagContract t) post (f r) v) :
    Safe (flagView H cwd settings t) (flagContract t) post (p.attempt >>= f) w :=
  Safe.attempt_bind ((keeps_anything t).of_calls hp trivial) fun r v _ _ => hf r v

/-- A program that touches no flag, after they have been lowered. -/
theorem safe_lowered {t : Thread} {α : Type} {p : Prog α} (hp : p.Calls (LowersFlags t))
    (h : World.Off t w) : Safe (flagView H cwd settings t) (flagContract t) (fun _ => World.Off t) p w :=
  (keeps_off t).of_calls hp h

/-! ## The consumer -/

/-- The cleanup of the consumer, and an end. -/
theorem safe_consumerCleanup {α : Type} (r : Except Exn α) :
    Safe (flagView H cwd settings .consumer) (flagContract .consumer) (fun _ => World.Off .consumer)
      (consumerCleanup >>= fun _ => pureCall r) w := by
  have hcleanup : Safe (flagView H cwd settings .consumer) (flagContract .consumer)
      (fun _ => World.Off .consumer) consumerCleanup w :=
    safe_lower .consumer (Program.calls_perform (lowersFlags nofun))
  exact hcleanup.bind (fun _ _ hv _ => safe_lowered (Program.calls_ofExcept r) hv) fun _ _ hv => hv

/-- **The setup of the consumer**: whenever it raises, the flag is down. -/
theorem safe_setup_consumer (h : World.Off .consumer w) :
    Safe (flagView H cwd settings .consumer) (flagContract .consumer) (flagPosts .consumer).setup
      (consumerService settings).setup w := by
  refine (keeps_off .consumer).bind (calls_connectAndSetup (lowersFlags nofun) (lowersFlags nofun)
    (fun _ _ => lowersFlags nofun) (lowersFlags nofun)) (fun _ _ hv => hv) (fun _ v hv => ?_) h
  refine safe_then .consumer ?_ fun r u => ?_
  · refine Program.calls_bind (Program.calls_perform nofun) fun _ => ?_
    refine Program.calls_onError (Program.calls_bind (Program.calls_perform ?_) fun _ => ?_) ?_
    · rintro c b ⟨⟩
      rfl
    · exact Program.calls_perform nofun
    · exact Program.calls_perform nofun
  · cases r with
    | ok s => exact (keeps_anything .consumer).ret (fun _ hv => hv) trivial
    | error e =>
        exact (safe_consumerCleanup (.error e : Except Exn Unit)).mono fun r u hu => by
          cases r with
          | ok s => trivial
          | error e => exact hu

/-- **The consumer leaves its flag down.** -/
theorem sound_consumer_flags : (consumerService settings).Sound (flagView H cwd settings .consumer)
    (flagContract .consumer) (flagPosts .consumer) where
  turn s w _ _ := by
    have hturn : (Consumer.turn settings).Calls (OwnFlags .consumer) :=
      calls_turn nofun nofun nofun fun op hop c b heq => by
        rw [heq] at hop
        cases hop
    exact ((keeps_anything .consumer).of_calls hturn trivial).mono fun r _ _ => by
      rcases r with _ | ⟨_ | _⟩ <;> trivial
  finish s r w _ _ := by
    refine safe_then .consumer ?_ fun r v => safe_consumerCleanup r
    exact Program.calls_andFinally (Program.calls_ofExcept r) (Program.calls_perform nofun)

/-! ## The watcher -/

/-- A reconnect raises no flag. -/
theorem reconnects_lowersFlags (t : Thread) : Reconnects (LowersFlags t) :=
  ⟨lowersFlags nofun, lowersFlags nofun, lowersFlags nofun, fun _ _ => lowersFlags nofun, lowersFlags nofun⟩

/-- The watcher sets only its own flag. -/
theorem watches_ownFlags (t : Thread) : Watches (OwnFlags t) where
  close := nofun
  connect := nofun
  channel := nofun
  declare _ _ := nofun
  confirm := nofun
  publish _ _ := nofun
  processDataEvents := nofun
  builds _ := ⟨nofun, nofun, nofun, nofun⟩
  isfile _ := nofun
  fileQueueGet := nofun
  stopIsSet := nofun

/-- The observer is set up: no call raises. -/
theorem safe_observer {op : Op} {f : Res op → Prog Unit} (hop : op.startsObserver = true)
    (hown : OwnFlags .watcher op)
    (hf : ∀ x v, Safe (flagView H cwd settings .watcher) (flagContract .watcher)
      (flagPosts .watcher).setup (f x) v) :
    Safe (flagView H cwd settings .watcher) (flagContract .watcher) (flagPosts .watcher).setup
      (call op >>= f) w := by
  refine (keeps_anything .watcher).other_bind (fun _ _ => hown) (fun v x v' _ _ => hf x v')
    (fun v e v' _ hr => ?_) trivial
  exact absurd rfl (hr.2 hop e)

/-- **The setup of the watcher**: if it raises, the flag has not been raised. -/
theorem safe_setup_watcher (h : World.Off .watcher w) :
    Safe (flagView H cwd settings .watcher) (flagContract .watcher) (flagPosts .watcher).setup
      (watcherService H cwd settings).setup w := by
  have hconnect := reconnects_lowersFlags .watcher
  refine (keeps_off .watcher).bind
    (calls_connectAndSetup hconnect.connect hconnect.channel hconnect.declare hconnect.confirm)
    (fun _ _ hv => hv) (fun _ v hv => ?_) h
  refine (keeps_anything .watcher).other_bind (fun _ _ => ?_) (fun u x u' _ _ => ?_)
    (fun u e u' _ hr => ?_) trivial
  · rintro c b ⟨⟩
    rfl
  · -- from here on the flag is up
    refine safe_observer rfl nofun fun _ _ => safe_observer rfl nofun fun _ v => ?_
    rw [← Program.bind_ret (call .observerStart)]
    exact safe_observer rfl nofun fun _ _ => (keeps_anything .watcher).ret (fun _ _ => trivial) trivial
  · exact nomatch hr.1.2.1

/-- **The watcher leaves its flag down.** -/
theorem sound_watcher_flags : (watcherService H cwd settings).Sound (flagView H cwd settings .watcher)
    (flagContract .watcher) (flagPosts .watcher) where
  turn s w _ _ :=
    ((keeps_anything .watcher).of_calls (calls_watcher_turn (watches_ownFlags .watcher)) trivial).mono
      fun r _ _ => by rcases r with _ | ⟨_ | _⟩ <;> trivial
  finish s r w _ _ := by
    have hend : ∀ r : Except Exn Unit, (pureCall r).Calls (LowersFlags .watcher) := Program.calls_ofExcept
    refine safe_then .watcher (Program.calls_ofExcept r) fun r v => ?_
    have hlower : Safe (flagView H cwd settings .watcher) (flagContract .watcher)
        (fun _ => World.Off .watcher) (do
          call (.setReady .watcher false)
          call .observerStop
          call .observerJoin
          let _ ← (call .close).attempt) v := by
      refine safe_lower .watcher (Program.calls_bind (Program.calls_perform (lowersFlags nofun)) fun _ => ?_)
      refine Program.calls_bind (Program.calls_perform (lowersFlags nofun)) fun _ => ?_
      exact Program.calls_bind (Program.calls_attempt (Program.calls_perform (lowersFlags nofun)))
        fun _ => trivial
    exact hlower.bind (fun _ _ hv _ => safe_lowered (hend r) hv) fun _ _ hv => hv

/-! ## Every run -/

/-- The main thread has no flag. -/
theorem sound_main_flags : mainService.Sound (flagView H cwd settings .main) (flagContract .main)
    (flagPosts .main) where
  turn s w _ _ := by
    have hturn : (mainService.turn s).Calls (OwnFlags .main) := by
      refine Program.calls_bind (Program.calls_bind (Program.calls_perform nofun) fun _ => ?_) fun _ => trivial
      exact Program.calls_andFinally (Program.calls_perform nofun) (Program.calls_perform nofun)
    exact ((keeps_anything .main).of_calls hturn trivial).mono fun r _ _ => by
      rcases r with _ | ⟨_ | _⟩ <;> trivial
  finish s r w _ _ := by
    have hfinish : (mainService.finish s r).Calls (OwnFlags .main) := by
      refine Program.calls_andFinally (Program.calls_ofExcept r) ?_
      refine Program.calls_bind (Program.calls_perform nofun) fun _ => ?_
      exact Program.calls_bind (Program.calls_perform nofun) fun _ => Program.calls_perform nofun
    exact ((keeps_anything .main).of_calls hfinish trivial).mono fun r _ _ c hc => by cases c <;> cases hc

/-- The invariant of the process. -/
theorem allSafe_flags {s : (process H cwd settings).State}
    (hs : ((process H cwd settings).under observerStarts).Reachable (fun w => w.readiness = .initial) s) :
    Pool.AllSafe ((process H cwd settings).under observerStarts) flagContract flagPosts s := by
  have hsound : ∀ t : Thread, ((process H cwd settings).service t).Sound (flagView H cwd settings t)
      (flagContract t) (flagPosts t) := by
    intro t
    cases t with
    | main => exact sound_main_flags
    | watcher => exact sound_watcher_flags
    | consumer => exact sound_consumer_flags
  have hsetup : ∀ w : World, w.readiness = .initial → ∀ t : Thread,
      Safe (flagView H cwd settings t) (flagContract t) (flagPosts t).setup
        ((process H cwd settings).service t).setup w := by
    intro w hw t
    have hoff : ∀ t, World.Off t w := fun t c _ => by rw [hw]; rfl
    cases t with
    | main =>
        have hcalls : mainService.setup.Calls (LowersFlags .main) :=
          Program.calls_bind (Program.calls_perform (lowersFlags nofun)) fun _ =>
            Program.calls_perform (lowersFlags nofun)
        exact ((keeps_off .main).of_calls hcalls (hoff .main)).mono fun r v hv => by
          cases r with
          | ok s => trivial
          | error e => exact hv
    | watcher => exact safe_setup_watcher (hoff .watcher)
    | consumer => exact safe_setup_consumer (hoff .consumer)
  refine Pool.phaseSafe_of_reachable hsound hsetup (fun w φ w' _ hw t => hsetup w' ?_ t) hs
  obtain ⟨rfl, -⟩ := hw
  rfl

/-- **Readiness is truthful if the observer starts**: in every run in which no call that sets the
watcher's observer up raises, whatever else raises, the flag of a component whose thread has ended is
down; so `/ready` answers 200 only while both threads live. -/
theorem readiness_truthful {H : Hashes} {cwd : String} {settings : Settings}
    {s : (process H cwd settings).State}
    (hs : ((process H cwd settings).under observerStarts).Reachable (fun w => w.readiness = .initial) s) :
    (∀ c : Component, (s.2 c.thread).Terminated → s.1.readiness c = false) ∧
      (getReady s.1.readiness = 200 → ∀ c : Component, ¬(s.2 c.thread).Terminated) := by
  have hdown : ∀ c : Component, (s.2 c.thread).Terminated → s.1.readiness c = false := by
    intro c hc
    have hsafe := allSafe_flags hs c.thread
    cases hφ : s.2 c.thread with
    | terminated r =>
        rw [hφ] at hsafe
        exact (hsafe s.1 .refl).2 c rfl
    | _ =>
        rw [hφ] at hc
        exact hc.elim
  refine ⟨hdown, fun hready c hc => ?_⟩
  have hflag := hdown c hc
  have hup : s.1.readiness.ready = true := by
    by_contra hne
    rw [getReady, if_neg hne] at hready
    cases hready
  rw [ReadinessState.ready, Bool.and_eq_true] at hup
  cases c with
  | watcher => exact absurd (hup.1.symm.trans hflag) nofun
  | consumer => exact absurd (hup.2.symm.trans hflag) nofun

/-! ## Two threads that end -/

/-- The broker cannot be reached: the watcher's thread ends, and its flag is down. -/
theorem readiness_truthful_unreachable : ∃ s : (process hashlib "/" {}).State,
    (s.2 .watcher).Terminated ∧
      ((∀ c : Component, (s.2 c.thread).Terminated → s.1.readiness c = false) ∧
        (getReady s.1.readiness = 200 → ∀ c : Component, ¬(s.2 c.thread).Terminated)) := by
  let P := (process hashlib "/" {}).under observerStarts
  have hconnect : (threadWorld {} observerStarts .watcher).responds (World.launched {}) .connect
      (.error (.amqp "AMQPConnectionError")) (World.launched {}) := ⟨⟨rfl, rfl⟩, nofun⟩
  have hsetup : Executes (threadWorld {} observerStarts .watcher) (watcherService hashlib "/" {}).setup
      (World.launched {}) (.error (.amqp "AMQPConnectionError")) (World.launched {}) :=
    .bind_error (.bind_error (.perform_error hconnect))
  have hlaunch : P.Runs ({}, P.start) (World.launched {}, Function.update P.start .main (.head ())) :=
    runs_launch nofun fun _ => nofun
  have hend : P.Runs (World.launched {}, Function.update P.start .main (.head ())) _ :=
    runs_thread_setup_error hsetup rfl rfl
  refine ⟨_, ?_, readiness_truthful ⟨{}, rfl, hlaunch.trans hend⟩⟩
  trivial

/-- **The observer cannot be created**: the watcher's thread ends, and `/ready` goes on answering 200. -/
theorem dead_watcher_ready : ∃ s : (process hashlib "/" {}).State,
    (process hashlib "/" {}).Reachable (fun w => w.readiness = .initial) s ∧
      (s.2 .watcher).Terminated ∧ s.1.readiness .watcher = true ∧ getReady s.1.readiness = 200 := by
  let K : Pool.Condition calls Exn World Thread :=
    ⟨fun _ _ _ _ => True, fun _ _ => True, fun _ => True⟩
  let P := (process hashlib "/" {}).under K
  let φ := Function.update P.start .main (.head ())
  let w := World.connected {} (World.launched {})
  have hconsumer : Capable {} (threadWorld {} K .consumer) :=
    .of_moves distinct_default (fun h _ => ⟨h, trivial⟩) fun h _ => ⟨h, trivial⟩
  have hwatcher : Attends {} (threadWorld {} K .watcher) := fun _ h => ⟨h, trivial⟩
  have hsetup : Executes (threadWorld {} K .watcher) (watcherService hashlib "/" {}).setup w
      (.error (.other "OSError")) w.watching :=
    hwatcher.executes_setup_observer ⟨⟨rfl, rfl⟩, trivial⟩
  have hlaunch : P.Runs ({}, P.start) (World.launched {}, φ) := runs_launch trivial fun _ => trivial
  have hready : P.Runs (World.launched {}, φ) (w, Function.update φ .consumer (.head ())) :=
    runs_thread_setup hconsumer.executes_setup rfl rfl
  have hdead : P.Runs (w, Function.update φ .consumer (.head ())) _ :=
    runs_thread_setup_error hsetup rfl rfl
  exact ⟨_, ⟨{}, rfl, Pool.runs_of_under ((hlaunch.trans hready).trans hdead)⟩, trivial, rfl, rfl⟩

end TransferWorker
