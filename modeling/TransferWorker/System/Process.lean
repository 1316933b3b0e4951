import TransferWorker.CallTrees.Pool
import TransferWorker.System.ConsumerRules
import TransferWorker.System.Frames

/-! # The process

`main` and the two worker threads that it starts, in one world, with its environment, crashes and
restarts.

* **`process`** — the pool of the three threads.
* **`flags_of_responds`** — who touches the readiness flags and the stop event. -/

namespace TransferWorker

open CallTrees

/-- The thread of a component. -/
def Component.thread : Component → Thread
  | .watcher => .watcher
  | .consumer => .consumer

/-- The thread runs: the main thread does from the beginning, the others once they were started. -/
def World.Running (w : World) : Thread → Prop
  | .main => True
  | .watcher => w.started .watcher = true
  | .consumer => w.started .consumer = true

/-- **The process** that `main` is, with the two threads. -/
def process (H : Hashes) (cwd : String) (settings : Settings) :
    Pool calls Exn World (fun _ : Thread => Unit) where
  service
    | .main => mainService
    | .watcher => watcherService H cwd settings
    | .consumer => consumerService settings
  responds t w op r w' := w.Running t ∧ w.responds settings t op r w'
  interfere := Move settings
  restart w w' := w' = w.crash settings

variable {settings : Settings} {t : Thread} {w w' : World}

/-! ## The flags -/

/-- **The stop event stays set, only `set_ready` of its component touches a flag, and a started thread
stays started.** -/
theorem flags_of_responds {op : Op} {r : Except Exn (Res op)} (h : w.responds settings t op r w') :
    (w.stop = true → w'.stop = true) ∧
      (∀ c, (∀ b, op ≠ .setReady c b) → w'.readiness c = w.readiness c) ∧
      ∀ c, w.started c = true → w'.started c = true := by
  by_cases hflags : op.changes .flags = false
  · have hsame : (w'.stop, w'.readiness, w'.started) = (w.stop, w.readiness, w.started) :=
      frame_of_responds hflags h
    rw [Prod.mk.injEq, Prod.mk.injEq] at hsame
    exact ⟨fun hstop => hsame.1.trans hstop, fun c _ => congrFun hsame.2.1 c,
      fun c hc => (congrFun hsame.2.2 c).trans hc⟩
  · cases op with
    | stopSet =>
        cases r with
        | ok x =>
            obtain rfl : w' = _ := h
            exact ⟨fun _ => rfl, fun _ _ => rfl, fun _ hc => hc⟩
        | error e => exact nomatch h.1
    | threadStart c =>
        cases r with
        | ok x =>
            obtain rfl : w' = _ := h
            refine ⟨id, fun _ _ => rfl, fun c' hc => ?_⟩
            by_cases hsame : c' = c
            · rw [hsame]
              exact Function.update_self ..
            · exact (Function.update_of_ne hsame ..).trans hc
        | error e =>
            obtain rfl : w' = w := h.2
            exact ⟨id, fun _ _ => rfl, fun _ hc => hc⟩
    | setReady c b =>
        cases r with
        | ok x =>
            obtain rfl : w' = _ := h
            refine ⟨id, fun c' hne => if_neg ?_, fun _ hc => hc⟩
            intro heq
            exact hne b (heq ▸ rfl)
        | error e => exact nomatch h.1
    | _ => exact absurd rfl hflags

/-- `set_ready` sets its flag, and does not raise. -/
theorem flag_of_setReady {c : Component} {b : Bool} {r : Except Exn Unit}
    (h : w.responds settings t (.setReady c b) r w') : w'.readiness c = b := by
  cases r with
  | ok x =>
      obtain rfl : w' = _ := h
      exact if_pos rfl
  | error e => exact nomatch h.1

/-- The environment may set the stop event, and touches no flag. -/
theorem Move.flags (h : Move settings w w') :
    (w.stop = true → w'.stop = true) ∧ w'.readiness = w.readiness ∧ w'.started = w.started := by
  cases h with
  | activeProgress _ _ hp =>
      obtain ⟨objects, rfl⟩ := hp.frame
      exact ⟨id, rfl, rfl⟩
  | lateProgress _ hp =>
      obtain ⟨objects, rfl⟩ := hp.frame
      exact ⟨id, rfl, rfl⟩
  | signal => exact ⟨fun _ => rfl, rfl, rfl⟩
  | _ => exact ⟨id, rfl, rfl⟩

/-! ## Runs -/

/-- What one thread sees of its world under a condition while the others rest, once it was started. -/
def threadWorld (settings : Settings) (K : Pool.Condition calls Exn World Thread) (t : Thread) :
    Environment calls Exn World where
  responds w op r w' := w.responds settings t op r w' ∧ K.call t w op r
  interfere w w' := Move settings w w' ∧ K.move w w'

/-- A thread that runs goes on running, whatever is called. -/
theorem World.Running.responds {op : Op} {r : Except Exn (Res op)} {t' : Thread} (h : w.Running t)
    (hr : w.responds settings t' op r w') : w'.Running t := by
  have hstarted : ∀ c, w.started c = true → w'.started c = true := (flags_of_responds hr).2.2
  cases t with
  | main => trivial
  | watcher => exact hstarted _ h
  | consumer => exact hstarted _ h

/-- It does so while the world moves. -/
theorem World.Running.move (h : w.Running t) (hm : Move settings w w') : w'.Running t := by
  have hstarted : w'.started = w.started := hm.flags.2.2
  cases t with
  | main => trivial
  | watcher => exact (congrFun hstarted _).trans h
  | consumer => exact (congrFun hstarted _).trans h

section runs

variable {H : Hashes} {cwd : String} {K : Pool.Condition calls Exn World Thread} {α : Type}
  {φ : Thread → Phase calls Exn Unit}

/-- An execution of a thread that was started is one in the process. -/
theorem executes_process {p : Prog α} {r : Except Exn α} (h : Executes (threadWorld settings K t) p w r w')
    (hrun : w.Running t) : Executes (((process H cwd settings).under K).alone t) p w r w' := by
  let E := ((process H cwd settings).under K).alone t
  have hcall : ∀ {v op r v'}, World.Running v t → (threadWorld settings K t).responds v op r v' →
      E.responds v op r v' ∧ World.Running v' t :=
    fun hv hr => ⟨⟨⟨hv, hr.1⟩, hr.2⟩, hv.responds hr.1⟩
  have hmove : ∀ {v v'}, World.Running v t → (threadWorld settings K t).interfere v v' →
      E.interfere v v' ∧ World.Running v' t := fun hv hm => ⟨hm, hv.move hm.1⟩
  exact (h.restrict hcall hmove hrun).1

/-- Both worker threads were started. -/
def World.launched (w : World) : World := { w with started := fun _ => true }

/-- **The main thread starts the other two.** -/
theorem runs_launch
    (hwatcher : K.call .main w (.threadStart .watcher) (.ok ()))
    (hconsumer : ∀ v, K.call .main v (.threadStart .consumer) (.ok ())) :
    ((process H cwd settings).under K).Runs (w, ((process H cwd settings).under K).start)
      (w.launched, Function.update ((process H cwd settings).under K).start .main (.head ())) := by
  have hsetup : Executes (threadWorld settings K .main) mainService.setup w (.ok ())
      { w with started := Function.update (Function.update w.started .watcher true) .consumer true } :=
    .perform_bind ⟨rfl, hwatcher⟩ (.perform ⟨rfl, hconsumer _⟩)
  have hstarted : Function.update (Function.update w.started .watcher true) .consumer true =
      fun _ => true := by
    funext c
    cases c <;> rfl
  rw [hstarted] at hsetup
  exact Pool.runs_setup rfl (executes_process hsetup trivial)

/-- A thread sets up. -/
theorem runs_thread_setup (h : Executes (threadWorld settings K t) ((process H cwd settings).service t).setup
      w (.ok ()) w') (hrun : w.Running t)
    (hφ : φ t = .setup ((process H cwd settings).service t).setup) :
    ((process H cwd settings).under K).Runs (w, φ) (w', Function.update φ t (.head ())) :=
  Pool.runs_setup hφ (executes_process h hrun)

/-- The setup of a thread raises. -/
theorem runs_thread_setup_error {e : Exn} (h : Executes (threadWorld settings K t)
      ((process H cwd settings).service t).setup w (.error e) w') (hrun : w.Running t)
    (hφ : φ t = .setup ((process H cwd settings).service t).setup) :
    ((process H cwd settings).under K).Runs (w, φ) (w', Function.update φ t (.terminated (.error e))) :=
  Pool.runs_setup_error hφ (executes_process h hrun)

end runs

end TransferWorker
