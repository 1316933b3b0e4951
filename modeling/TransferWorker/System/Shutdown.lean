import TransferWorker.CallTrees.Termination
import TransferWorker.System.Announcements
import TransferWorker.Worker.Hashlib

/-! # Shutdown

What happens once the stop event is set and the process is not killed: every thread has few steps left,
and the consumer, once it is at the head of its loop, handles nothing any more and gives its deliveries back.

* **`bounded_main`**, `bounded_watcher`, `bounded_consumer` — how many calls the programs make.
* **`stop_bounds_threads`** — how many more steps each thread makes.
* **`stopped_consumer_gives_back`** — what the consumer still does. -/

namespace TransferWorker

open CallTrees Relation World

variable {H : Hashes} {cwd : String} {settings : Settings} {w w' : World} {t : Thread}

/-! ## The lengths of the programs -/

section lengths

open Program

/-- A connection takes at most six calls. -/
theorem within_connectAndSetup : Within 6 (connectAndSetup settings) := by
  refine within_call fun _ => within_call fun _ => ?_
  have htopology : Within 3 (declareTopology settings) :=
    within_call fun _ => within_call fun _ => within_perform
  exact within_bind htopology fun _ => within_perform

/-- The programs of the main thread. -/
theorem bounded_main : mainService.Bounded 2 3 3 where
  setup := within_call fun _ => within_perform
  turn _ := by
    have hserve : Within 3 runHealthServer :=
      within_call fun _ => (within_andFinally within_perform within_perform).mono (Nat.le_refl 2)
    exact within_bind hserve fun _ => within_ret 0 _
  finish _ r := by
    have hjoin : Within 3 (call .stopSet >>= fun _ => call (.threadJoin .watcher) >>= fun _ =>
        call (.threadJoin .consumer)) := within_call fun _ => within_call fun _ => within_perform
    exact (within_andFinally (within_ofExcept 0 r) hjoin).mono (by omega)

/-- A reconnect takes one more, to close the old connection. -/
theorem within_reconnect : Within 7 (Watcher.reconnect settings) :=
  (within_bind (within_attempt within_perform) fun _ => within_connectAndSetup).mono (by omega)

/-- A publication takes two tries and a reconnect. -/
theorem within_publishWithReconnect (e : TransferEvent) :
    Within 9 (Watcher.publishWithReconnect settings e) := by
  have hpublish : Within 1 (Publisher.publishEvent settings e).attempt := within_attempt within_perform
  refine (within_bind (n := 8) hpublish fun r => ?_).mono (by omega)
  cases r with
  | ok u => exact within_ret 8 ()
  | error exn =>
      dsimp only
      split
      · exact within_bind within_reconnect fun _ => within_bind hpublish fun _ => within_ret 0 ()
      · exact within_raise 8 exn

/-- `build_event` makes five calls. -/
theorem within_buildEvent (path : Path) : Within 5 (Watcher.buildEvent H cwd path settings) := by
  refine within_call fun _ => within_call fun _ => ?_
  dsimp only
  split
  · exact within_raise 3 _
  · exact within_call fun _ => within_call fun _ => within_call fun _ => within_ofExcept 0 _

/-- The programs of the watcher. -/
theorem bounded_watcher : (watcherService H cwd settings).Bounded 10 17 4 where
  setup := within_bind within_connectAndSetup fun _ =>
    within_call fun _ => within_call fun _ => within_call fun _ => within_perform
  turn _ := by
    refine within_call fun stop => ?_
    split
    · exact within_ret 16 _
    · refine within_call fun item => ?_
      cases item with
      | none =>
          -- an idle turn may reconnect
          have hidle : Within 8 (Watcher.serviceIdleConnection settings) := by
            refine (within_tryCatch (n := 7) within_perform fun e => ?_).mono (by omega)
            split
            · exact within_reconnect
            · exact within_raise 7 e
          exact (within_bind hidle fun _ => within_ret 0 _).mono (by omega)
      | some path =>
          -- a turn with a path may build, publish, reconnect and publish again
          have hpath : Within 15 (Watcher.handlePath H cwd settings path) := by
            refine within_call fun regular => ?_
            split
            · exact within_ret 14 ()
            · refine within_bind (n := 9) (within_attempt (within_buildEvent path)) fun r => ?_
              cases r with
              | ok e => exact within_publishWithReconnect e
              | error e => exact within_ret 9 ()
          exact within_bind hpath fun _ => within_ret 0 _
  finish _ r := by
    have hend : Within 4 (call (.setReady .watcher false) >>= fun _ => call .observerStop >>= fun _ =>
        call .observerJoin >>= fun _ => (call .close).attempt >>= fun _ => (.ret () : Prog Unit)) :=
      within_call fun _ => within_call fun _ => within_call fun _ =>
        (within_bind (within_attempt within_perform) fun _ => within_ret 0 ()).mono (by omega)
    exact (within_andFinally (within_ofExcept 0 r) hend).mono (by omega)

/-- A dead letter is a publication and an acknowledgement. -/
theorem within_deadLetter (tag : Nat) (event : TransferEvent) (reason : String) :
    Within 2 (Consumer.deadLetter settings tag event reason) := within_call fun _ => within_perform

/-- An upload, and what follows from its results. -/
theorem within_handleUpload (tag : Nat) (event : TransferEvent) :
    Within 4 (Consumer.handleUpload settings tag event) := by
  have hupload : Within 2 (uploadAll settings event (fsencode event.source.path)) := by
    unfold uploadAll
    split
    · exact within_raise 2 _
    · exact within_call fun _ => within_call fun _ => within_ret 0 _
  refine within_bind (n := 2) hupload fun results => ?_
  dsimp only
  split
  · exact within_call fun _ => within_perform
  · unfold Consumer.handleFailure
    dsimp only
    split
    · exact (within_bind (within_ofExcept 0 _) fun _ => within_deadLetter _ _ _).mono (by omega)
    · refine (within_bind (within_ofExcept 0 _) fun _ => ?_).mono (Nat.le_of_eq (Nat.zero_add 2))
      refine (within_bind (within_ofExcept 0 _) fun _ => ?_).mono (Nat.le_of_eq (Nat.zero_add 2))
      exact within_call fun _ => within_perform

/-- `_handle` makes at most eight calls. -/
theorem within_handle (tag : Nat) (m : Message) : Within 8 (Consumer.handle settings tag m) := by
  unfold Consumer.handle
  split
  · exact Within.mono (within_call fun _ => within_perform) (by omega : 2 ≤ 8)
  · split
    · exact (within_deadLetter _ _ _).mono (by omega)
    · exact within_raise 8 _
    · refine within_call fun done => ?_
      split
      · exact within_perform.mono (by omega)
      · refine within_call fun isfile => ?_
        split
        · exact (within_deadLetter _ _ _).mono (by omega)
        · have hscan : Within 2
              (scanCsvFile (fsencode (‹TransferEvent› : TransferEvent).source.path) settings) := by
            refine within_call fun size => ?_
            split
            · exact within_ret 1 _
            · exact within_call fun _ => within_ofExcept 0 _
          refine within_bind (n := 4) hscan fun issues => ?_
          split
          · exact (within_deadLetter _ _ _).mono (by omega)
          · exact within_handleUpload _ _

/-- The programs of the consumer. -/
theorem bounded_consumer : (consumerService settings).Bounded 12 10 3 where
  setup := by
    have hcleanup : Within 2 consumerCleanup := within_call fun _ => within_perform
    have hinit : Within 1 (Consumer.init settings) := within_perform
    refine within_bind (n := 6) within_connectAndSetup fun _ => ?_
    refine within_onError (m := 4) (within_call fun _ => ?_) hcleanup
    have hready : Within 2 (call (.setReady .consumer true) >>= fun _ => Consumer.init settings) :=
      within_call fun _ => hinit
    have hclose : Within 1 (call .storeClose) := within_perform
    exact (within_onError hready hclose).mono (by omega)
  turn _ := by
    have hend : ∀ n, 1 ≤ n → Within n (call .cancel >>= fun _ => (.ret (.inr ()) : Prog (Unit ⊕ Unit))) :=
      fun n hn => (within_call fun _ => within_ret 0 _).mono hn
    refine within_call fun item => ?_
    cases item with
    | exhausted => exact hend 9 (by omega)
    | tick =>
        refine within_call fun stop => ?_
        split
        · exact hend 8 (by omega)
        · exact within_ret 8 _
    | delivery tag m =>
        refine within_call fun stop => ?_
        split
        · exact hend 8 (by omega)
        · exact within_bind (within_attempt (within_handle tag m)) fun _ => within_ret 0 _
  finish _ r := by
    have hcleanup : Within 2 consumerCleanup := within_call fun _ => within_perform
    exact within_andFinally ((within_andFinally (within_ofExcept 0 r) within_perform).mono (by omega)) hcleanup

end lengths

/-! ## The threads end -/

/-- How many calls the setup of a thread makes at most. -/
def setupLength : Thread → Nat
  | .main => 2
  | .watcher => 10
  | .consumer => 12

/-- How many calls a turn of its loop makes at most. -/
def turnLength : Thread → Nat
  | .main => 3
  | .watcher => 17
  | .consumer => 10

/-- How many calls it makes at most after its loop. -/
def finishLength : Thread → Nat
  | .main => 3
  | .watcher => 4
  | .consumer => 3

/-- **The programs of every thread are bounded.**. -/
theorem bounded_thread (t : Thread) : ((process H cwd settings).service t).Bounded (setupLength t)
    (turnLength t) (finishLength t) := by
  cases t with
  | main => exact bounded_main
  | watcher => exact bounded_watcher
  | consumer => exact bounded_consumer

/-- **How many more steps a thread makes** once the stop event is set: what is left of a setup or a turn,
a last turn, and what follows the loop. -/
def stopBound (t : Thread) : Nat :=
  max (setupLength t) (turnLength t) + (turnLength t + finishLength t + 4)

/-- Nothing is asked of a thread. -/
def unasked : Contract calls World := ⟨fun _ => True, fun _ _ => True⟩

/-- A thread that was stopped makes none of the calls of `_handle`. -/
def resting : Contract calls World := ⟨fun w => w.stop = true, fun _ op => op.isHandling = false⟩

section stopped

variable {C : Contract calls World} {P : Op → Prop}

/-- The stop event stays set, whatever happens. -/
theorem keeps_stop (hinv : ∀ w, w.stop = true → C.inv w) (hguar : ∀ w op, P op → C.guar w op) :
    Keeps ((process H cwd settings).crowd t) C P (fun w => w.stop = true) where
  stable := by
    rintro w w' h (hmove | ⟨t', -, op, r, -, hr⟩)
    · exact hmove.flags.1 h
    · exact (flags_of_responds hr).1 h
  inv := hinv
  guar w op hop _ := hguar w op hop
  responds w op r w' _ h hr := (flags_of_responds hr.2).1 h

/-- The stop event stays set. -/
theorem keeps_stop_resting : Keeps ((process H cwd settings).crowd t) resting
    (fun op => op.isHandling = false) (fun w => w.stop = true) :=
  keeps_stop (fun _ h => h) fun _ _ h => h

/-- A thread that finds the stop event set leaves its loop. -/
theorem safe_stopped {f : Bool → Prog (Unit ⊕ Unit)}
    (hf : ∀ w, w.stop = true →
      Safe ((process H cwd settings).crowd t) resting Service.leaving (f true) w)
    (h : w.stop = true) :
    Safe ((process H cwd settings).crowd t) resting Service.leaving (call .stopIsSet >>= f) w := by
  refine keeps_stop_resting.call_bind rfl (fun e v _ s => by simp) ?_ h
  intro v b v' hv hr hv'
  -- the answer is the event itself
  have hb : b = true := hr.2.1.trans hv
  rw [hb]
  exact hf v' hv'

/-- The loop is left with the stop event set. -/
theorem safe_left (h : w.stop = true) : Safe ((process H cwd settings).crowd t) resting
    Service.leaving (.ret (.inr ()) : Prog (Unit ⊕ Unit)) w :=
  keeps_stop_resting.ret (fun _ _ s => by simp) h

/-- The consumer is cancelled, and the loop left. -/
theorem safe_cancelled (h : w.stop = true) : Safe ((process H cwd settings).crowd t) resting
    Service.leaving (call .cancel >>= fun _ => (.ret (.inr ()) : Prog (Unit ⊕ Unit))) w :=
  keeps_stop_resting.call_bind rfl (fun e v _ s => by simp) (fun _ _ _ _ _ hv => safe_left hv) h

/-- **Every turn leads out of the loop** once the stop event is set. -/
theorem safe_leaving (s : Unit) (h : w.stop = true) :
    Safe ((process H cwd settings).crowd t) resting Service.leaving
      (((process H cwd settings).service t).turn s) w := by
  cases t with
  | main =>
      have hserve : runHealthServer.Calls fun op : Op => op.isHandling = false :=
        Program.calls_bind (Program.calls_perform rfl) fun _ =>
          Program.calls_andFinally (Program.calls_perform rfl) (Program.calls_perform rfl)
      exact keeps_stop_resting.bind hserve (fun e v _ s => by simp) (fun _ v hv => safe_left hv) h
  | watcher => exact safe_stopped (fun _ => safe_left) h
  | consumer =>
      refine keeps_stop_resting.call_bind rfl (fun e v _ s => by simp) ?_ h
      intro v item v' _ _ hv'
      cases item with
      | exhausted => exact safe_cancelled hv'
      | tick => exact safe_stopped (fun _ => safe_cancelled) hv'
      | delivery tag m => exact safe_stopped (fun _ => safe_cancelled) hv'

end stopped

/-! ## A way to the end -/

section ending

/-- A call of a thread that returns. -/
theorem executes_answer (op : Op) (x : Res op) (hrun : w.Running t) (h : w.normal settings t op x w') :
    Executes ((process H cwd settings).alone t) (call op) w (.ok x) w' := by
  have hanswer : ((process H cwd settings).alone t).responds w op (.ok x) w' := ⟨hrun, h⟩
  exact .perform hanswer

/-- A call of a thread that returns, followed by a program. -/
theorem executes_answer_bind {α : Type} {op : Op} {f : Res op → Prog α} {r : Except Exn α} {v : World}
    (x : Res op) (hrun : w.Running t) (h : w.normal settings t op x w')
    (hf : Executes ((process H cwd settings).alone t) (f x) w' r v) :
    Executes ((process H cwd settings).alone t) (call op >>= f) w r v :=
  (executes_answer op x hrun h).bind hf

/-- A thread that runs goes through its last turn and to its end, if no call raises. -/
theorem executes_leaving (t : Thread) (hstop : w.stop = true) (hrun : w.Running t) : ∃ w' w'',
    Executes ((process H cwd settings).alone t) (((process H cwd settings).service t).turn ()) w
      (.ok (.inr ())) w' ∧
    Executes ((process H cwd settings).alone t) (((process H cwd settings).service t).finish () (.ok ())) w'
      (.ok ()) w'' := by
  cases t with
  | main =>
      refine ⟨w, { w with stop := true }, ?_, ?_⟩
      · -- the health server is stopped
        have hserve : Executes ((process H cwd settings).alone .main) runHealthServer w (.ok ()) w :=
          executes_answer_bind () hrun rfl
            ((executes_answer .stopWait () hrun ⟨hstop, rfl⟩).andFinally (executes_answer .serverStop () hrun rfl))
        exact hserve.bind .ret
      · refine Executes.ofExcept.andFinally (executes_answer_bind () hrun rfl ?_)
        exact executes_answer_bind () trivial rfl (executes_answer (.threadJoin _) () trivial rfl)
  | watcher =>
      let w₁ : World := { w with readiness := w.readiness.setReady .watcher false }
      have hrun₁ : w₁.Running .watcher := hrun
      have hclose : Executes ((process H cwd settings).alone .watcher) (call .close) w₁ (.ok ()) w₁ :=
        executes_answer .close () hrun₁ rfl
      refine ⟨w, w₁, executes_answer_bind true hrun ⟨hstop.symm, rfl⟩ .ret, ?_⟩
      refine Executes.ofExcept.andFinally (executes_answer_bind () hrun rfl ?_)
      exact executes_answer_bind () hrun₁ rfl (executes_answer_bind () hrun₁ rfl (hclose.attempt.bind .ret))
  | consumer =>
      let w₁ := w.release.cancelConsumer settings
      let w₂ : World := { w₁ with readiness := w₁.readiness.setReady .consumer false }
      have hrun₁ : w₁.Running .consumer := hrun
      have hstore : Executes ((process H cwd settings).alone .consumer) (call .storeClose) w₁ (.ok ()) w₁ :=
        executes_answer .storeClose () hrun₁ rfl
      -- the flag is lowered and the connection closed
      have hcleanup : Executes ((process H cwd settings).alone .consumer) consumerCleanup w₁ (.ok ())
          (w₂.closeChannel settings) :=
        executes_answer_bind () hrun₁ rfl (executes_answer .close () hrun rfl)
      refine ⟨w₁, w₂.closeChannel settings, ?_, (Executes.ofExcept.andFinally hstore).andFinally hcleanup⟩
      exact executes_answer_bind .exhausted hrun rfl (executes_answer_bind () hrun rfl .ret)

/-- Both workers are at work, a message was delivered, and then the process was told to stop. -/
def World.halted (m : Message) : World :=
  { (((World.connected {} (World.launched {}).watching).accept {} m).deliver {} ⟨m, []⟩ []) with stop := true }

/-- Such a world is reached, all threads being at the heads of their loops. -/
theorem reachable_halted (m : Message) :
    (process hashlib "/" {}).Reachable (fun w => w = {}) (World.halted m, fun _ => .head ()) := by
  let K : Pool.Condition calls Exn World Thread :=
    ⟨fun _ _ _ _ => True, fun _ _ => True, fun _ => True⟩
  let w : World := World.connected {} (World.launched {}).watching
  have hconsumer : Capable {} (threadWorld {} K .consumer) :=
    .of_moves distinct_default (fun h _ => ⟨h, trivial⟩) fun h _ => ⟨h, trivial⟩
  have hwatcher : Observes {} (threadWorld {} K .watcher) := fun _ _ h => ⟨h, trivial⟩
  have hheads : ((process hashlib "/" {}).under K).Runs ({}, ((process hashlib "/" {}).under K).start)
      (w, fun _ => .head ()) := runs_heads (fun _ _ => trivial) hwatcher hconsumer
  have hidle : w.Idle := idle_connected rfl
  have hq : (w.accept {} m).queue ({} : Settings).queueName = ⟨m, []⟩ :: [] := by
    have hempty : w.queue ({} : Settings).queueName = [] := connected_queue
    rw [accept_queue, hempty]
    rfl
  have haccept : Move {} w (w.accept {} m) := .accept m
  have hdeliver : Move {} (w.accept {} m) ((w.accept {} m).deliver {} ⟨m, []⟩ []) :=
    .deliver hidle.channelOpen hidle.room hq
  have hrun := ((Pool.runs_of_under hheads).tail (.interfere haccept)).tail (.interfere hdeliver)
  exact ⟨{}, rfl, hrun.tail (.interfere .signal)⟩

/-- From there every thread comes to its end. -/
theorem goes_of_halted (m : Message) (t : Thread) : ∃ (n : Nat) (w' : World),
    (process hashlib "/" {}).Goes t n (World.halted m, fun _ => .head ())
      (w', Function.update (fun _ => .head ()) t (.terminated (.ok ()))) := by
  have hrun : (World.halted m).Running t := by cases t <;> trivial
  obtain ⟨w', w'', hturn, hfinish⟩ : ∃ w' w'',
      Executes ((process hashlib "/" {}).alone t) (((process hashlib "/" {}).service t).turn ())
        (World.halted m) (.ok (.inr ())) w' ∧
      Executes ((process hashlib "/" {}).alone t)
        (((process hashlib "/" {}).service t).finish () (.ok ())) w' (.ok ()) w'' :=
    executes_leaving t rfl hrun
  let φ : Thread → Phase calls Exn Unit := fun _ => .head ()
  have hhead : φ t = .head () := rfl
  obtain ⟨n, hgoes⟩ := Pool.goes_of_leaving hhead hturn hfinish
  exact ⟨n, w'', hgoes⟩

end ending

/-! ## The bounds -/

/-- **A stopped process has few steps left.** Once the stop event is set, whatever the world, the broker
and the other threads do and answer, a thread makes at most so many more steps, unless the process is killed
and starts again. -/
theorem stop_bounds_threads {init : World → Prop} {n : Nat} {s s' : (process H cwd settings).State}
    (hs : (process H cwd settings).Reachable init s) (hstop : s.1.stop = true)
    (hgoes : (process H cwd settings).Goes t n s s') : n ≤ stopBound t := by
  have hlength : ((process H cwd settings).service t).Bounded (setupLength t) (turnLength t)
      (finishLength t) := bounded_thread t
  have hkeeps : Keeps ((process H cwd settings).crowd t) unasked (fun _ => True) fun w => w.stop = true :=
    keeps_stop (fun _ _ => trivial) fun _ _ _ => trivial
  exact hgoes.le (hlength.ends hkeeps (fun s v hv => safe_leaving s hv)
    (Pool.within_of_reachable hlength hs) hstop)

/-- All three threads come to their ends, each within its bound. -/
theorem stop_bounds_threads_sample : ∃ s : (process hashlib "/" {}).State, s.1.stop = true ∧
    (∃ n s', s.2 .main = .head () ∧ (process hashlib "/" {}).Goes .main n s s' ∧
      (s'.2 .main).Terminated ∧ n ≤ stopBound .main) ∧
    (∃ n s', s.2 .watcher = .head () ∧ (process hashlib "/" {}).Goes .watcher n s s' ∧
      (s'.2 .watcher).Terminated ∧ n ≤ stopBound .watcher) ∧
    ∃ n s', s.2 .consumer = .head () ∧ (process hashlib "/" {}).Goes .consumer n s s' ∧
      (s'.2 .consumer).Terminated ∧ n ≤ stopBound .consumer := by
  let m : Message := ⟨.empty, {}⟩
  refine ⟨(World.halted m, fun _ => .head ()), rfl, ?_, ?_, ?_⟩
  · obtain ⟨n, w', hgoes⟩ := goes_of_halted m .main
    exact ⟨n, _, rfl, hgoes, trivial, stop_bounds_threads (reachable_halted m) rfl hgoes⟩
  · obtain ⟨n, w', hgoes⟩ := goes_of_halted m .watcher
    exact ⟨n, _, rfl, hgoes, trivial, stop_bounds_threads (reachable_halted m) rfl hgoes⟩
  · obtain ⟨n, w', hgoes⟩ := goes_of_halted m .consumer
    exact ⟨n, _, rfl, hgoes, trivial, stop_bounds_threads (reachable_halted m) rfl hgoes⟩

/-! ## What the consumer still does -/

/-- The consumer has no channel and no deliveries. -/
def World.Dismissed (w : World) : Prop := w.unacked = [] ∧ w.channelOpen = false

/-- Nothing is delivered without a channel. -/
theorem World.Dismissed.move (h : w.Dismissed) (hm : Move settings w w') : w'.Dismissed := by
  cases hm with
  | deliver hopen _ _ =>
      rw [h.2] at hopen
      cases hopen
  | breakChannel => exact ⟨rfl, rfl⟩
  | activeProgress _ _ hp =>
      obtain ⟨objects, rfl⟩ := hp.frame
      exact h
  | lateProgress _ hp =>
      obtain ⟨objects, rfl⟩ := hp.frame
      exact h
  | _ => exact h

/-- The other threads have no part in it. -/
theorem World.Dismissed.others {op : Op} {r : Except Exn (Res op)} (h : w.Dismissed) (ht : t ≠ .consumer)
    (hr : w.responds settings t op r w') : w'.Dismissed := by
  cases broker_of_responds hr with
  | same hsame =>
      simp only [Aspect.Same, Prod.mk.injEq] at hsame
      exact ⟨hsame.2.1.trans h.1, hsame.2.2.2.2.2.1.trans h.2⟩
  | openChannel =>
      rw [World.openChannel, if_neg ht]
      exact h
  | publish q m _ hw => rcases hw with rfl | rfl <;> exact h
  | ack tag hopen => exact absurd hopen (by simp [h.2])
  | cancel => exact ⟨by simp [World.cancelConsumer, World.putBack, h.1], h.2⟩
  | close =>
      rw [World.closeConnection, if_neg ht]
      exact h
  | _ => exact h

/-! ## The end of the consumer -/

/-- What is known of the consumer after the stop event was set: it ends without deliveries, or by an
exception. -/
def stoppedPosts : Service.Posts Exn Unit World :=
  ⟨fun _ w => w.stop = true, fun _ _ w => w.stop = true, fun r w => r = .ok () → w.Dismissed⟩

/-- The crowd leaves a consumer that was stopped and dismissed. -/
theorem stable_dismissed : ((process H cwd settings).crowd .consumer).Stable
    fun w => w.stop = true ∧ w.Dismissed := by
  rintro w w' ⟨hstop, h⟩ hm
  refine ⟨(keeps_stop_resting (t := .consumer)).stable hstop hm, ?_⟩
  rcases hm with hmove | ⟨t', ht, op, r, -, hr⟩
  · exact h.move hmove
  · exact h.others ht hr

/-- The connection is closed. -/
theorem safe_cleanup (r : Except Exn Unit) (h : w.stop = true) :
    Safe ((process H cwd settings).crowd .consumer) resting stoppedPosts.ended
      (consumerCleanup >>= fun _ => Program.ofExcept r) w := by
  have hclosed : Safe ((process H cwd settings).crowd .consumer) resting
      (fun r w => w.stop = true ∧ (r = .ok () → w.Dismissed)) consumerCleanup w := by
    refine keeps_stop_resting.call_bind rfl (fun e v hv => ⟨hv, by simp⟩) (fun v x v' _ _ hv' => ?_) h
    refine Safe.call keeps_stop_resting.stable (fun _ hv => hv) (fun _ _ => rfl) ?_ hv'
    intro u x u' hu hr
    have hstop : u'.stop = true := keeps_stop_resting.responds u .close x u' rfl hu hr
    cases x with
    | ok y =>
        obtain rfl : u' = u.closeChannel settings := hr.2
        exact Safe.ret stable_dismissed (fun _ hv => hv.1) (fun _ hv => ⟨hv.1, fun _ => hv.2⟩)
          ⟨hstop, rfl, rfl⟩
    | error e => exact keeps_stop_resting.raise (fun _ hv => ⟨hv, by simp⟩) hstop
  refine hclosed.bind (fun u v hv _ => ?_) fun e v _ => by simp [stoppedPosts]
  have hended : v.stop = true ∧ v.Dismissed := ⟨hv.1, hv.2 rfl⟩
  cases r with
  | ok u => exact Safe.ret stable_dismissed (fun _ hv => hv.1) (fun _ hv _ => hv.2) hended
  | error e => exact keeps_stop_resting.raise (fun _ _ => by simp [stoppedPosts]) hv.1

/-- The consumer is sound once it was stopped. -/
theorem sound_stopped : (consumerService settings).Sound ((process H cwd settings).crowd .consumer) resting
    stoppedPosts where
  turn s w _ h := (safe_leaving (t := .consumer) s h).with_inv.mono fun r v hv => by
    rcases r with e | ⟨s' | u⟩ <;> exact hv.1
  finish s r w _ h := by
    have hstore : Safe ((process H cwd settings).crowd .consumer) resting (fun _ w => w.stop = true)
        ((pureCall r).andFinally (call .storeClose)) w :=
      keeps_stop_resting.of_calls
        (Program.calls_andFinally (Program.calls_ofExcept r) (Program.calls_perform rfl)) h
    exact hstore.attempt_bind fun r' v hv _ => safe_cleanup r' hv

/-- While a stopped consumer comes to its end, what is due stays due: nobody acknowledges anything. -/
theorem due_of_goes {init : World → Prop} {n : Nat} {s s' : (process H cwd settings).State}
    (hd : settings.Distinct) (hs : (process H cwd settings).Reachable init s)
    (hsafe : Service.PhaseSafe ((process H cwd settings).crowd .consumer) resting stoppedPosts
      (s.2 .consumer) s.1)
    (hgoes : (process H cwd settings).Goes .consumer n s s') :
    (s.1.due settings).Subperm (s'.1.due settings) := by
  let R : World → World → Prop := fun w w' => (w.due settings).Subperm (w'.due settings)
  have hother : ∀ {t : Thread} {w w' : World} {op : Op} {r : Except Exn (Res op)}, t ≠ .consumer →
      op.Fits t → w.Running t ∧ w.responds settings t op r w' → R w w' := by
    intro t w w' op r ht hop hr
    refine due_of_responds (fun tag hack => ?_) hr.2
    subst hack
    exact hop.owner_ne ht rfl
  have hown : ∀ {w w' : World} {op : Op} {r : Except Exn (Res op)}, op.isHandling = false →
      w.Running .consumer ∧ w.responds settings .consumer op r w' → R w w' := by
    intro w w' op r hop hr
    refine due_of_responds (fun tag hack => ?_) hr.2
    subst hack
    cases hop
  have hcalls : ∀ t, t ≠ .consumer → (s.2 t).Calls (Op.Fits t) := fun t ht =>
    Pool.calls_of_reachable (calls_others ht) hs
  have hrun : ReflTransGen R s.1 s'.1 := hgoes.relates sound_stopped hsafe (fun t ht => calls_others ht)
    hcalls (fun hm => Move.due hd hm) hother hown
  have hrefl : Std.Refl R := ⟨fun _ => .refl _⟩
  have htrans : IsTrans World R := ⟨fun _ _ _ h h' => h.trans h'⟩
  rwa [reflTransGen_eq_self] at hrun

/-- **A stopped consumer gives everything back.** From the head of its loop on, the consumer takes up no
delivery and makes none of the calls of `_handle`, whatever the broker delivers; and when its thread has
ended without an exception, its channel is closed, no delivery of it is left unacknowledged, and everything
that was due at any moment since is on the main queue. -/
theorem stopped_consumer_gives_back {init : World → Prop} {m n : Nat}
    {s s' s'' : (process H cwd settings).State} (hd : settings.Distinct)
    (hs : (process H cwd settings).Reachable init s) (hhead : s.2 .consumer = .head ())
    (hstop : s.1.stop = true) (hgoes : (process H cwd settings).Goes .consumer m s s')
    (hgoes' : (process H cwd settings).Goes .consumer n s' s'') :
    (∀ op, (s''.2 .consumer).Calling op → op.isHandling = false) ∧
      (s''.2 .consumer = .terminated (.ok ()) → s''.1.unacked = [] ∧ s''.1.channelOpen = false ∧
        (s'.1.due settings).Subperm (s''.1.queue settings.queueName)) := by
  have hstart : Service.PhaseSafe ((process H cwd settings).crowd .consumer) resting stoppedPosts
      (s.2 .consumer) s.1 := by
    rw [hhead]
    intro v hv
    have hv' : v.stop = true := (keeps_stop_resting (t := .consumer)).stable.drifts hv hstop
    exact ⟨hv', hv'⟩
  have hsafe' := hgoes.phaseSafe sound_stopped hstart
  have hsafe := hgoes'.phaseSafe sound_stopped hsafe'
  constructor
  · rintro op ⟨k, hk⟩
    exact (hsafe.pending hk).1
  · intro hended
    rw [hended] at hsafe
    obtain ⟨hunacked, hclosed⟩ := (hsafe s''.1 .refl).2 rfl
    have hdue : (s'.1.due settings).Subperm (s''.1.due settings) :=
      due_of_goes hd (hgoes.reachable hs) hsafe' hgoes'
    have hmain : s''.1.due settings = s''.1.queue settings.queueName := by simp [World.due, hunacked]
    exact ⟨hunacked, hclosed, hmain ▸ hdue⟩

/-- A consumer with a delivery at hand is told to stop, and ends; the message is on the main queue. -/
theorem stopped_consumer_gives_back_sample : ∃ (m : Message) (s s' : (process hashlib "/" {}).State),
    s.1.unacked = [(1, ⟨m, []⟩)] ∧ s.1.queue "orders.inbound" = [] ∧ s'.2 .consumer = .terminated (.ok ()) ∧
      s'.1.unacked = [] ∧ s'.1.channelOpen = false ∧ ⟨m, []⟩ ∈ s'.1.queue "orders.inbound" := by
  let m : Message := ⟨.empty, {}⟩
  have hunacked : (World.halted m).unacked = [(1, ⟨m, []⟩)] := rfl
  have hmain : (World.halted m).queue "orders.inbound" = [] := rfl
  obtain ⟨n, w', hgoes⟩ := goes_of_halted m .consumer
  have hstopped := stopped_consumer_gives_back distinct_default (reachable_halted m) rfl rfl .refl hgoes
  obtain ⟨hnone, hclosed, hdue⟩ := hstopped.2 rfl
  have hmem : ⟨m, []⟩ ∈ (World.halted m).due {} :=
    List.mem_append_right _ (List.mem_map_of_mem (f := Prod.snd) (hunacked ▸ List.mem_cons_self))
  exact ⟨m, (World.halted m, fun _ => .head ()), _, hunacked, hmain, rfl, hnone, hclosed, hdue.subset hmem⟩

end TransferWorker
