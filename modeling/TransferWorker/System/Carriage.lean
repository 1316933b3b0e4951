import TransferWorker.System.Announcements
import TransferWorker.System.NoLoss

/-! # Nothing is lost in the process

The consumer loses no message, whatever the other threads do, and the watcher publishes nothing but new
events to the main queue. Together: an event whose publication the broker confirmed to the watcher is in
the broker, or done, through all faults, crashes and restarts.

* **`carrying`** — what each thread owes the others.
* **`Confirmed`** — what was confirmed to the watcher was accepted, and is an event.
* **`confirmed_never_lost`** — in every state of the process. -/

namespace TransferWorker

open CallTrees World

variable {H : Hashes} {cwd : String} {settings : Settings} {w w' : World} {t : Thread}

/-! ## What the watcher publishes -/

/-- A publication is one of a new event on the main queue. -/
def Op.Announcing (settings : Settings) (op : Op) : Prop :=
  ∀ q m, op = .basicPublish q m →
    q = settings.queueName ∧ ∃ e : TransferEvent, m = Publisher.message e none none

/-- The calls of the watcher. -/
def Op.Watching (settings : Settings) (op : Op) : Prop := op.Fits .watcher ∧ op.Announcing settings

/-- A common call that publishes nothing is one of the watcher. -/
theorem Op.Watching.common {op : Op} (howner : op.owner = none) (hop : ∀ q m, op ≠ .basicPublish q m) :
    op.Watching settings :=
  ⟨.common howner, fun q m h => absurd h (hop q m)⟩

/-- The publication of a new event is one of the watcher. -/
theorem Op.Watching.publish (e : TransferEvent) :
    (Op.basicPublish settings.queueName (Publisher.message e none none)).Watching settings := by
  refine ⟨.common rfl, fun q m h => ?_⟩
  obtain ⟨rfl, rfl⟩ := Op.basicPublish.inj h
  exact ⟨rfl, e, rfl⟩

/-- So are the calls of a reconnect. -/
theorem reconnects_watching : Reconnects (Op.Watching settings) where
  close := .common rfl (by simp)
  connect := .common rfl (by simp)
  channel := .common rfl (by simp)
  declare _ _ := .common rfl (by simp)
  confirm := .common rfl (by simp)

/-- So are those of `build_event`. -/
theorem builds_watching (path : Path) : Builds (Op.Watching settings) path where
  getsize := .common rfl (by simp)
  readFile := .common rfl (by simp)
  newUuid := .common rfl (by simp)
  utcnow := .common rfl (by simp)

/-- The calls of the watcher for a path. -/
theorem calls_handlePath_watching (path : Path) :
    (Watcher.handlePath H cwd settings path).Calls (Op.Watching settings) := by
  have hisfile : (Op.isfile path).Watching settings := .common rfl (by simp)
  refine Program.calls_bind (Program.calls_perform hisfile) fun regular => ?_
  split
  · trivial
  · have hbuild : (Watcher.buildEvent H cwd path settings).Calls (Op.Watching settings) :=
      calls_buildEvent (builds_watching path)
    refine Program.calls_bind (Program.calls_attempt hbuild) fun r => ?_
    cases r with
    | error e => trivial
    | ok e => exact calls_publishWithReconnect reconnects_watching (.publish e)

/-- The calls of a turn of the watcher. -/
theorem calls_turn_watching (s : Unit) :
    ((watcherService H cwd settings).turn s).Calls (Op.Watching settings) := by
  have hstop : Op.stopIsSet.Watching settings := .common rfl (by simp)
  refine Program.calls_bind (Program.calls_perform hstop) fun stop => ?_
  split
  · trivial
  · have hget : Op.fileQueueGet.Watching settings := ⟨.own rfl, by simp [Op.Announcing]⟩
    refine Program.calls_bind (Program.calls_perform hget) fun item => ?_
    cases item with
    | none =>
        have hidle : (Watcher.serviceIdleConnection settings).Calls (Op.Watching settings) :=
          calls_serviceIdleConnection reconnects_watching (.common rfl (by simp))
        exact Program.calls_bind hidle fun _ => trivial
    | some path => exact Program.calls_bind (calls_handlePath_watching path) fun _ => trivial

/-- The calls of its setup. -/
theorem calls_setup_watching :
    (watcherService H cwd settings).setup.Calls (Op.Watching settings) :=
  calls_watcher_setup reconnects_watching (.common rfl (by simp)) (.common rfl (by simp))
    (.common rfl (by simp)) (.common rfl (by simp))

/-- The calls of the code after its loop. -/
theorem calls_finish_watching (s : Unit) (r : Except Exn Unit) :
    ((watcherService H cwd settings).finish s r).Calls (Op.Watching settings) :=
  calls_watcher_finish (.common rfl (by simp)) (.common rfl (by simp)) (.common rfl (by simp))
    (.common rfl (by simp)) s r

/-! ## Contracts -/

/-- **What was confirmed to the watcher** was accepted, and is a message of an event. -/
def Confirmed (w : World) : Prop :=
  ∀ m ∈ w.confirmed, m ∈ w.accepted ∧ ∃ e : TransferEvent, m = Publisher.message e none none

/-- **What a thread owes the others**: the consumer loses nothing, the watcher publishes events, and the
main thread only starts and stops. -/
def carrying (settings : Settings) : Thread → Contract calls World
  | .main => ⟨fun _ => True, fun _ op => op.Fits .main⟩
  | .watcher => ⟨Confirmed, fun _ op => op.Watching settings⟩
  | .consumer => noLoss settings

/-- The other threads make only calls that fit them. -/
theorem fits_of_carrying {op : Op} (h : (carrying settings t).guar w op) (ht : t ≠ .consumer) :
    op.Fits t := by
  cases t with
  | main => exact h
  | watcher => exact h.1
  | consumer => exact absurd rfl ht

/-- A thread among those that keep what they owe. -/
abbrev amid (H : Hashes) (cwd : String) (settings : Settings) (t : Thread) : Environment calls Exn World :=
  (process H cwd settings).view (carrying settings) t

/-- To the consumer the others are parties that let the broker grow. -/
theorem consumer_within : (amid H cwd settings .consumer).Within (amidGrowth settings) where
  responds h := h.2
  interfere h := by
    rcases h with hm | ⟨t, ht, op, r, hguar, hr⟩
    · exact hm.grows
    · exact grows_of_others (fits_of_carrying hguar ht) ht hr.2

/-! ## What was confirmed -/

/-- A call changes what was confirmed only if it is a publication of the watcher. -/
theorem confirmed_of_responds {op : Op} {r : Except Exn (Res op)} (h : w.responds settings t op r w') :
    w'.confirmed = w.confirmed ∨ t = .watcher ∧ ∃ q m, op = .basicPublish q m ∧
      w' = (w.publish settings t q m).confirm t m := by
  have hopen : (w.openChannel settings t).confirmed = w.confirmed := by
    unfold World.openChannel
    split <;> rfl
  have hclose : (w.closeConnection settings t).confirmed = w.confirmed := by
    unfold World.closeConnection
    split <;> rfl
  have hmark : ∀ key correlationId, (w.markDone key correlationId).confirmed = w.confirmed := by
    intro key correlationId
    unfold World.markDone
    split <;> rfl
  cases r with
  | ok x =>
      cases op with
      | channel => exact .inl ((congrArg World.confirmed h).trans hopen)
      -- only the watcher keeps a list of what was confirmed
      | basicPublish q m =>
          obtain ⟨-, rfl⟩ := h
          by_cases ht : t = .watcher
          · exact .inr ⟨ht, q, m, rfl, rfl⟩
          · exact .inl (if_neg ht)
      | basicAck tag =>
          obtain ⟨-, rfl⟩ := h
          exact .inl rfl
      | consume q =>
          cases x with
          | exhausted =>
              obtain rfl := h
              exact .inl rfl
          | tick =>
              obtain rfl := h
              exact .inl rfl
          | delivery tag m =>
              obtain ⟨-, e, rest, -, -, rfl⟩ := h
              exact .inl rfl
      | close => exact .inl ((congrArg World.confirmed h).trans hclose)
      | isDone key => exact .inl (congrArg World.confirmed h.2)
      | markDone key correlationId => exact .inl ((congrArg World.confirmed h).trans (hmark _ _))
      | isfile path =>
          obtain ⟨-, rfl⟩ := h
          left
          split <;> rfl
      | getsize path =>
          obtain ⟨-, rfl⟩ := h
          left
          cases t <;> rfl
      | readFile path =>
          obtain ⟨-, rfl⟩ := h
          left
          cases t <;> rfl
      | uploadGather =>
          obtain ⟨-, run, -, -, rfl⟩ := h
          exact .inl rfl
      | newUuid =>
          obtain ⟨-, -, rfl⟩ := h
          exact .inl rfl
      | utcnow => exact .inl (congrArg World.confirmed h.2)
      | fileQueueGet =>
          cases x with
          | none => exact .inl (congrArg World.confirmed h.2)
          | some path =>
              obtain ⟨rest, -, rfl⟩ := h
              exact .inl rfl
      | stopIsSet => exact .inl (congrArg World.confirmed h.2)
      | stopWait => exact .inl (congrArg World.confirmed h.2)
      | _ =>
          obtain rfl := h
          exact .inl rfl
  -- a call that raises confirms nothing, whatever it did
  | error e =>
      left
      cases op with
      | basicPublish q m =>
          rcases h with rfl | ⟨-, rfl⟩ <;> rfl
      | basicAck tag =>
          rcases h with rfl | ⟨-, rfl⟩ <;> rfl
      | consume q =>
          obtain rfl : w' = w.release := h
          rfl
      | cancel =>
          rcases h with rfl | rfl <;> rfl
      | close =>
          rcases h with rfl | rfl
          · rfl
          · exact hclose
      | markDone key correlationId =>
          rcases h with rfl | rfl
          · rfl
          · exact hmark _ _
      | getsize path =>
          obtain rfl := h
          cases t <;> rfl
      | readFile path =>
          obtain rfl := h
          cases t <;> rfl
      | uploadGather =>
          obtain ⟨-, rfl⟩ := h
          split <;> rfl
      | _ => exact congrArg World.confirmed h.2

/-- The environment confirms nothing, and takes nothing back that was accepted. -/
theorem Move.confirmed (h : Move settings w w') :
    w'.confirmed = w.confirmed ∧ ∀ m ∈ w.accepted, m ∈ w'.accepted := by
  cases h with
  | accept m => exact ⟨rfl, fun m' hm' => List.mem_cons_of_mem _ hm'⟩
  | activeProgress _ _ hp =>
      obtain ⟨objects, rfl⟩ := hp.frame
      exact ⟨rfl, fun _ => id⟩
  | lateProgress _ hp =>
      obtain ⟨objects, rfl⟩ := hp.frame
      exact ⟨rfl, fun _ => id⟩
  | _ => exact ⟨rfl, fun _ => id⟩

/-- What was confirmed stays so while what is accepted grows. -/
theorem Confirmed.of_mono (h : Confirmed w) (hconfirmed : w'.confirmed = w.confirmed)
    (haccepted : ∀ m ∈ w.accepted, m ∈ w'.accepted) : Confirmed w' := by
  intro m hm
  obtain ⟨hmem, he⟩ := h m (hconfirmed ▸ hm)
  exact ⟨haccepted m hmem, he⟩

/-- The calls of the watcher keep it, and those of the other threads. -/
theorem Confirmed.responds {op : Op} {r : Except Exn (Res op)} (h : Confirmed w)
    (hop : t = .watcher → op.Announcing settings) (hr : w.responds settings t op r w') :
    Confirmed w' := by
  rcases confirmed_of_responds hr with hsame | ⟨rfl, q, m, rfl, rfl⟩
  · exact h.of_mono hsame fun m => accepted_mono hr
  · obtain ⟨rfl, he⟩ := hop rfl q m rfl
    have haccepted : ((w.publish settings .watcher settings.queueName m).confirm .watcher m).accepted =
        m :: w.accepted := if_pos ⟨rfl, rfl⟩
    have hconfirmed : ((w.publish settings .watcher settings.queueName m).confirm .watcher m).confirmed =
        m :: w.confirmed := rfl
    intro m' hm'
    rw [hconfirmed] at hm'
    rw [haccepted]
    rcases List.mem_cons.1 hm' with rfl | hold
    · exact ⟨List.mem_cons_self, he⟩
    · exact ⟨List.mem_cons_of_mem _ (h m' hold).1, (h m' hold).2⟩

/-! ## The threads -/

/-- The watcher keeps what was confirmed to it. -/
theorem keeps_confirmed : Keeps (amid H cwd settings .watcher) (carrying settings .watcher)
    (Op.Watching settings) Confirmed where
  stable w w' h hm := by
    rcases hm with hm | ⟨t, ht, op, r, -, hr⟩
    · exact h.of_mono hm.confirmed.1 hm.confirmed.2
    · exact h.responds (fun heq => absurd heq ht) hr.2
  inv _ h := h
  guar _ _ hop _ := hop
  responds _ _ _ _ hop h hr := h.responds (fun _ => hop.2) hr.2

/-- The main thread only starts and stops. -/
theorem keeps_starting : Keeps (amid H cwd settings .main) (carrying settings .main) (Op.Fits .main)
    (fun _ => True) where
  stable _ _ _ _ := trivial
  inv _ _ := trivial
  guar _ _ hop _ := hop
  responds _ _ _ _ _ _ _ := trivial

/-- What is known of a thread at all its stations. -/
def carried (settings : Settings) : Thread → World → Prop
  | .main => fun _ => True
  | .watcher => Confirmed
  | .consumer => NoLoss settings

/-- **Every thread keeps what it owes.** -/
theorem sound_carrying (t : Thread) :
    ((process H cwd settings).service t).Sound (amid H cwd settings t) (carrying settings t)
      (Service.Posts.uniform (carried settings t)) := by
  cases t with
  | main => exact .of_keeps keeps_starting (calls_main_turn starts_fits) (calls_main_finish starts_fits)
  | watcher => exact .of_keeps keeps_confirmed calls_turn_watching calls_finish_watching
  | consumer =>
      have hkeeps : Keeps (amid H cwd settings .consumer) (noLoss settings)
          (fun op : Op => op.isAck = false) (NoLoss settings) := keeps_noLoss.within consumer_within
      have hsound : (consumerService settings).Sound (amid H cwd settings .consumer) (noLoss settings)
          (loopPosts (NoLoss settings) (NoLoss settings)) :=
        sound_consumer hkeeps (fun _ => notAck_of_isSession) fun _ h =>
          ((turn_safe h).within consumer_within).mono fun r _ hv => by
            rcases r with _ | ⟨_ | _⟩ <;> exact hv
      exact ⟨hsound.turn, hsound.finish⟩

/-- The threads set up. -/
theorem setup_carrying (t : Thread) (h : carried settings t w) :
    Safe (amid H cwd settings t) (carrying settings t) (Service.Posts.uniform (carried settings t)).setup
      ((process H cwd settings).service t).setup w := by
  cases t with
  | main => exact Service.setup_of_keeps keeps_starting (calls_main_setup starts_fits) h
  | watcher => exact Service.setup_of_keeps keeps_confirmed calls_setup_watching h
  | consumer =>
      have hkeeps : Keeps (amid H cwd settings .consumer) (noLoss settings)
          (fun op : Op => op.isAck = false) (NoLoss settings) := keeps_noLoss.within consumer_within
      exact Service.setup_of_keeps hkeeps (calls_setup.mono fun _ => notAck_of_isSession) h

/-- The worlds in which nothing was accepted or confirmed, and no channel is open. -/
structure World.Unused (w : World) : Prop extends Fresh w where
  /-- Nothing was confirmed. -/
  confirmed : w.confirmed = []

/-- **The run lemma.** -/
theorem carried_of_reachable {s : (process H cwd settings).State}
    (hs : (process H cwd settings).Reachable World.Unused s) (t : Thread) : carried settings t s.1 := by
  have hinv : ∀ t, (∀ v, (carrying settings t).inv v → carried settings t v) := by
    intro t v hv
    cases t <;> exact hv
  have hcrash : ∀ t v, carried settings t v → carried settings t (v.crash settings) := by
    intro t v hv
    cases t with
    | main => trivial
    | watcher => exact hv.of_mono rfl fun _ => id
    | consumer => exact NoLoss.crash hv
  have hinit : ∀ v, v.Unused → ∀ t, carried settings t v := by
    intro v hv t
    cases t with
    | main => trivial
    | watcher => exact fun m hm => absurd (hv.confirmed ▸ hm) List.not_mem_nil
    | consumer => exact hv.toFresh.noLoss
  have hsafe := Pool.phaseSafe_of_reachable (C := carrying settings)
    (Q := fun t => Service.Posts.uniform (carried settings t)) sound_carrying
    (fun v hv t => setup_carrying t (hinit v hv t))
    (fun v φ v' hφ hv t => by
      obtain rfl : v' = v.crash settings := hv
      exact setup_carrying t (hcrash t v (hinv t v (hφ t).inv))) hs
  exact hinv t _ (hsafe t).inv

/-- **An event whose publication was confirmed to the watcher is never lost.** However the calls of the
three threads end, and however deliveries, faults, replays, crashes and restarts are interleaved with them:
what the broker confirmed to the watcher is the message of an event, and the event's key is in the store,
or a message with this key and this correlation id is on one of the queues or unacknowledged. -/
theorem confirmed_never_lost {H : Hashes} {cwd : String} {settings : Settings}
    {s : (process H cwd settings).State} (hs : (process H cwd settings).Reachable World.Unused s) :
    ∀ m ∈ s.1.confirmed, ∃ e : TransferEvent, m = Publisher.message e none none ∧
      (e.idempotencyKey.val ∈ s.1.doneKeys ∨ ∃ body e', s.1.Holds settings body ∧
        TransferEvent.fromJsonBytes body = .ok e' ∧ e'.idempotencyKey = e.idempotencyKey ∧
        e'.correlationId = e.correlationId) := by
  intro m hm
  have hconfirmed : Confirmed s.1 := carried_of_reachable hs .watcher
  have hnoLoss : NoLoss settings s.1 := carried_of_reachable hs .consumer
  obtain ⟨haccepted, e, rfl⟩ := hconfirmed m hm
  refine ⟨e, rfl, ?_⟩
  have hdecode : TransferEvent.fromJsonBytes (Publisher.message e none none).body = .ok e :=
    Publisher.fromJsonBytes_message e none none
  rcases hnoLoss.carried _ haccepted with ⟨e', hok, hdone⟩ | ⟨body, hsame, hp⟩
  · rw [hdecode, Except.ok.injEq] at hok
    exact .inl (hok ▸ hdone)
  · rw [SameMessage, hdecode] at hsame
    obtain ⟨e', hok, hkey, hcorr⟩ := hsame
    exact .inr ⟨body, e', hp, hok, hkey, hcorr⟩

/-- The condition under which no call raises, and the process is not killed. -/
def untroubled : Pool.Condition calls Exn World Thread where
  call _ _ _ r := ∃ x, r = .ok x
  move _ _ := True
  restart _ := False

/-- Then the consumer gets every answer. -/
theorem capable_untroubled : Capable {} (threadWorld {} untroubled .consumer) :=
  .of_moves distinct_default (fun h _ => ⟨h, _, rfl⟩) fun h _ => ⟨h, trivial⟩

/-- A file is written, and the watcher publishes its event. -/
theorem runs_untroubled_sighted : ((process hashlib "/" {}).under untroubled).Runs
    ({}, ((process hashlib "/" {}).under untroubled).start) (sighted, fun _ => .head ()) := by
  have hwatcher : Observes {} (threadWorld {} untroubled .watcher) := fun _ _ h => ⟨h, _, rfl⟩
  exact runs_sighted (fun _ _ => ⟨_, rfl⟩) hwatcher capable_untroubled trivial trivial

/-- What was confirmed there is not lost. -/
theorem confirmed_never_lost_sample : ∃ s : (process hashlib "/" {}).State,
    s.1.confirmed ≠ [] ∧
      ∀ m ∈ s.1.confirmed, ∃ e : TransferEvent, m = Publisher.message e none none ∧
        (e.idempotencyKey.val ∈ s.1.doneKeys ∨ ∃ body e', s.1.Holds {} body ∧
          TransferEvent.fromJsonBytes body = .ok e' ∧ e'.idempotencyKey = e.idempotencyKey ∧
          e'.correlationId = e.correlationId) := by
  have hunused : World.Unused {} := ⟨⟨rfl, rfl, rfl⟩, rfl⟩
  have hrun := Pool.runs_of_under runs_untroubled_sighted
  exact ⟨_, List.cons_ne_nil _ _, confirmed_never_lost ⟨{}, hunused, hrun⟩⟩

end TransferWorker
