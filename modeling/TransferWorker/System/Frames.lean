import TransferWorker.System.World

/-! # What a step leaves alone

The world falls into aspects; `Op.changes` says which of them a call may touch, whatever it answers.
The frame theorems say that nothing else changes, for the calls of a thread and for the
environment's own steps; `BrokerEffect` lists what a call can do to the broker. -/

namespace TransferWorker

open CallTrees

/-- The aspects of a world. -/
inductive Aspect where
  /-- Queues, deliveries and the consumer's channel. -/
  | broker
  /-- The rows of the store. -/
  | store
  /-- The upload runs. -/
  | uploads
  /-- The `_handle` call in progress. -/
  | handling
  /-- The files. -/
  | files
  /-- The stored objects. -/
  | objects
  /-- The watcher's queue and what it found out. -/
  | watch
  /-- The stop event, the readiness flags and the started threads. -/
  | flags

/-- Two worlds agree on an aspect. -/
def Aspect.Same (w w' : World) : Aspect → Prop
  | .broker => (w'.queue, w'.unacked, w'.buffered, w'.nextTag, w'.prefetch, w'.channelOpen,
      w'.accepted, w'.received) = (w.queue, w.unacked, w.buffered, w.nextTag, w.prefetch,
      w.channelOpen, w.accepted, w.received)
  | .store => w'.processed = w.processed
  | .uploads => (w'.active, w'.runs) = (w.active, w.runs)
  | .handling => w'.current = w.current
  | .files => w'.files = w.files
  | .objects => w'.objects = w.objects
  | .watch => (w'.fileQueue, w'.notices, w'.inspections) = (w.fileQueue, w.notices, w.inspections)
  | .flags => (w'.stop, w'.readiness, w'.started) = (w.stop, w.readiness, w.started)

/-- Every aspect of a world is the same. -/
theorem Aspect.Same.refl (w : World) (a : Aspect) : a.Same w w := by cases a <;> rfl

/-- The aspects that a call may touch. -/
def Op.changes : Op → Aspect → Bool
  | .channel, .broker => true
  | .basicQos _, .broker => true
  | .basicPublish _ _, .broker => true
  | .basicAck _, .broker => true
  | .basicAck _, .handling => true
  | .consume _, .broker => true
  | .consume _, .handling => true
  | .cancel, .broker => true
  | .close, .broker => true
  | .markDone _ _, .store => true
  | .isfile _, .watch => true
  | .getsize _, .handling => true
  | .getsize _, .watch => true
  | .readFile _, .handling => true
  | .readFile _, .watch => true
  | .uploadStart _ _, .uploads => true
  | .uploadGather, .uploads => true
  | .uploadGather, .handling => true
  | .fileQueueGet, .watch => true
  | .stopSet, .flags => true
  | .setReady _ _, .flags => true
  | .threadStart _, .flags => true
  | _, _ => false

variable {settings : Settings} {t : Thread} {w w' : World} {a : Aspect}

/-! ## The changes of the world -/

/-- A new channel changes the broker only. -/
theorem same_openChannel (ha : a ≠ .broker) : a.Same w (w.openChannel settings t) := by
  unfold World.openChannel
  split_ifs <;> cases a <;> first | rfl | exact absurd rfl ha

/-- So does the end of the connection. -/
theorem same_closeConnection (ha : a ≠ .broker) : a.Same w (w.closeConnection settings t) := by
  unfold World.closeConnection
  split_ifs <;> cases a <;> first | rfl | exact absurd rfl ha

/-- So does the end of the consumer. -/
theorem same_cancelConsumer (ha : a ≠ .broker) : a.Same w (w.cancelConsumer settings) := by
  cases a <;> first | rfl | exact absurd rfl ha

/-- So does a publication. -/
theorem same_publish (q : String) (m : Message) (ha : a ≠ .broker) :
    a.Same w (w.publish settings t q m) := by
  cases a <;> first | rfl | exact absurd rfl ha

/-- A mark changes the store only. -/
theorem same_markDone (key correlationId : String) (ha : a ≠ .store) :
    a.Same w (w.markDone key correlationId) := by
  unfold World.markDone
  split_ifs <;> cases a <;> first | rfl | exact absurd rfl ha

/-- A note on the call of `_handle` changes only this call. -/
theorem same_note (f : Handling → Handling) (ha : a ≠ .handling) : a.Same w (w.note f) := by
  cases a <;> first | rfl | exact absurd rfl ha

/-- A note on the inspection at hand changes only what is watched. -/
theorem same_inspect (f : Inspection → Inspection) (ha : a ≠ .watch) : a.Same w (w.inspect f) := by
  cases a <;> first | rfl | exact absurd rfl ha

/-- What a thread notes of a size changes its own notes only. -/
theorem same_noteSize (n : Nat) (ha : a ≠ .handling) (ha' : a ≠ .watch) : a.Same w (w.noteSize t n) := by
  cases t with
  | main => exact .refl _ a
  | watcher => exact same_inspect _ ha'
  | consumer => exact same_note _ ha

/-- So does what it notes of a content. -/
theorem same_noteContent (content : ByteArray) (ha : a ≠ .handling) (ha' : a ≠ .watch) :
    a.Same w (w.noteContent t content) := by
  cases t with
  | main => exact .refl _ a
  | watcher => exact same_inspect _ ha'
  | consumer => exact same_note _ ha

/-- A file that cannot be read is noted by the watcher only. -/
theorem same_noteUnreadable (ha : a ≠ .watch) : a.Same w (w.noteUnreadable t) := by
  cases t with
  | watcher => exact same_inspect _ ha
  | main => exact .refl _ a
  | consumer => exact .refl _ a

/-- The end of the uploads changes the uploads and the call of `_handle`. -/
theorem same_endUploads (run : UploadRun) (ha : a ≠ .uploads) (ha' : a ≠ .handling) :
    a.Same w (w.endUploads run) := by
  cases a <;> first | rfl | exact absurd rfl ha | exact absurd rfl ha'

/-! ## Calls -/

/-- A call that is known not to touch an aspect does not touch that one. -/
theorem Op.ne_of_changes {op : Op} {b : Aspect} (ha : op.changes a = false)
    (hb : op.changes b = true) : a ≠ b := by
  rintro rfl
  simp [ha] at hb

/-- **The frame of a call that returns.** -/
theorem frame_of_normal {op : Op} {x : Res op} (ha : op.changes a = false)
    (h : w.normal settings t op x w') : a.Same w w' := by
  have hne := fun b => Op.ne_of_changes (b := b) ha
  cases op with
  | channel => exact h ▸ same_openChannel (hne _ rfl)
  | basicQos n =>
      obtain rfl := h
      cases a <;> first | rfl | exact absurd rfl (hne .broker rfl)
  | basicPublish q m =>
      obtain ⟨-, rfl⟩ := h
      cases a <;> first | rfl | exact absurd rfl (hne .broker rfl)
  | basicAck tag =>
      obtain ⟨-, rfl⟩ := h
      cases a <;> first
        | rfl | exact absurd rfl (hne .broker rfl) | exact absurd rfl (hne .handling rfl)
  -- a tick, the end of the loop and a delivery all end the call before
  | consume q =>
      have hb := hne .broker rfl
      have hh := hne .handling rfl
      cases x with
      | exhausted =>
          obtain rfl := h
          cases a <;> first | rfl | exact absurd rfl hh
      | tick =>
          obtain rfl := h
          cases a <;> first | rfl | exact absurd rfl hh
      | delivery tag m =>
          obtain ⟨-, e, rest, -, -, rfl⟩ := h
          cases a <;> first | rfl | exact absurd rfl hb | exact absurd rfl hh
  | cancel => exact h ▸ same_cancelConsumer (hne _ rfl)
  | close => exact h ▸ same_closeConnection (hne _ rfl)
  | isDone key =>
      obtain ⟨-, rfl⟩ := h
      exact .refl _ a
  | markDone key correlationId => exact h ▸ same_markDone key correlationId (hne _ rfl)
  -- the watcher notes what it finds, the consumer does not
  | isfile path =>
      obtain ⟨-, rfl⟩ := h
      split_ifs
      · exact same_inspect _ (hne _ rfl)
      · exact .refl _ a
  | getsize path =>
      obtain ⟨-, rfl⟩ := h
      exact same_noteSize x (hne _ rfl) (hne _ rfl)
  | readFile path =>
      obtain ⟨-, rfl⟩ := h
      exact same_noteContent x (hne _ rfl) (hne _ rfl)
  | uploadStart event path =>
      obtain rfl := h
      cases a <;> first | rfl | exact absurd rfl (hne .uploads rfl)
  | uploadGather =>
      obtain ⟨-, run, -, -, rfl⟩ := h
      exact same_endUploads _ (hne _ rfl) (hne _ rfl)
  | newUuid =>
      obtain ⟨-, -, rfl⟩ := h
      cases a <;> rfl
  | utcnow =>
      obtain ⟨-, rfl⟩ := h
      exact .refl _ a
  | fileQueueGet =>
      cases x with
      | none =>
          obtain ⟨-, rfl⟩ := h
          exact .refl _ a
      | some path =>
          obtain ⟨rest, -, rfl⟩ := h
          cases a <;> first | rfl | exact absurd rfl (hne .watch rfl)
  | stopIsSet =>
      obtain ⟨-, rfl⟩ := h
      exact .refl _ a
  | stopSet =>
      obtain rfl := h
      cases a <;> first | rfl | exact absurd rfl (hne .flags rfl)
  | stopWait =>
      obtain ⟨-, rfl⟩ := h
      exact .refl _ a
  | setReady c b =>
      obtain rfl := h
      cases a <;> first | rfl | exact absurd rfl (hne .flags rfl)
  | threadStart c =>
      obtain rfl := h
      cases a <;> first | rfl | exact absurd rfl (hne .flags rfl)
  | _ => exact h ▸ .refl _ a

/-- **The frame of a call that raises.** -/
theorem frame_of_failing {op : Op} (ha : op.changes a = false)
    (h : w.failing settings t op w') : a.Same w w' := by
  have hne := fun b => Op.ne_of_changes (b := b) ha
  cases op with
  -- the calls that may raise and have their effect all the same
  | basicPublish q m =>
      rcases h with rfl | ⟨-, rfl⟩
      · exact .refl _ a
      · exact same_publish q m (hne _ rfl)
  | basicAck tag =>
      rcases h with rfl | ⟨-, rfl⟩
      · exact .refl _ a
      · cases a <;> first
          | rfl | exact absurd rfl (hne .broker rfl) | exact absurd rfl (hne .handling rfl)
  | consume q =>
      obtain rfl := h
      cases a <;> first | rfl | exact absurd rfl (hne .handling rfl)
  | cancel =>
      rcases h with rfl | rfl
      · exact .refl _ a
      · exact same_cancelConsumer (hne _ rfl)
  | close =>
      rcases h with rfl | rfl
      · exact .refl _ a
      · exact same_closeConnection (hne _ rfl)
  | markDone key correlationId =>
      rcases h with rfl | rfl
      · exact .refl _ a
      · exact same_markDone key correlationId (hne _ rfl)
  -- the watcher notes that it could not look
  | getsize path =>
      obtain rfl := h
      exact same_noteUnreadable (hne _ rfl)
  | readFile path =>
      obtain rfl := h
      exact same_noteUnreadable (hne _ rfl)
  | uploadGather =>
      obtain ⟨-, rfl⟩ := h
      split
      · exact .refl _ a
      · exact same_endUploads _ (hne _ rfl) (hne _ rfl)
  | _ => exact h.2 ▸ .refl _ a

/-- **The frame of a call**, however it ends. -/
theorem frame_of_responds {op : Op} {r : Except Exn (Res op)} (ha : op.changes a = false)
    (h : w.responds settings t op r w') : a.Same w w' := by
  cases r with
  | ok x => exact frame_of_normal ha h
  | error e => exact frame_of_failing ha h

/-- **What a call does to the broker**: one of these changes, or none. -/
inductive BrokerEffect (settings : Settings) (t : Thread) (w : World) : Op → World → Prop
  /-- The broker stays as it is. -/
  | same {op : Op} {w' : World} (h : Aspect.broker.Same w w') : BrokerEffect settings t w op w'
  /-- A channel is opened. -/
  | openChannel : BrokerEffect settings t w .channel (w.openChannel settings t)
  /-- The number of deliveries ahead is bounded. -/
  | bound (n : Int) : BrokerEffect settings t w (.basicQos n) { w with prefetch := some n.toNat }
  /-- A message is published, and perhaps confirmed. -/
  | publish (q : String) (m : Message) {w' : World} (hsend : w.CanSend t)
      (h : w' = w.publish settings t q m ∨ w' = (w.publish settings t q m).confirm t m) :
      BrokerEffect settings t w (.basicPublish q m) w'
  /-- A delivery is acknowledged. -/
  | ack (tag : Nat) (hopen : w.channelOpen = true) : BrokerEffect settings t w (.basicAck tag) (w.ack tag)
  /-- The iterator yields a delivery. -/
  | receive {q : String} {tag : Nat} {e : Entry} {rest : List (Nat × Entry)} (hopen : w.channelOpen = true)
      (hbuffered : w.buffered = (tag, e) :: rest) :
      BrokerEffect settings t w (.consume q) (w.receive tag e rest)
  /-- The consumer is cancelled. -/
  | cancel : BrokerEffect settings t w .cancel (w.cancelConsumer settings)
  /-- The connection is closed. -/
  | close : BrokerEffect settings t w .close (w.closeConnection settings t)

/-- **Every call has one of these effects on the broker**, however it ends. -/
theorem broker_of_responds {op : Op} {r : Except Exn (Res op)} (h : w.responds settings t op r w') :
    BrokerEffect settings t w op w' := by
  by_cases hbroker : op.changes .broker = false
  · exact .same (frame_of_responds hbroker h)
  · cases r with
    | ok x =>
        cases op with
        | channel =>
            obtain rfl : w' = w.openChannel settings t := h
            exact .openChannel
        | basicQos n =>
            obtain rfl := h
            exact .bound n
        | basicPublish q m => exact .publish q m h.1 (.inr h.2)
        | basicAck tag =>
            obtain ⟨hopen, rfl⟩ := h
            exact .ack tag hopen
        | consume q =>
            -- only a delivery has an effect on the broker
            cases x with
            | exhausted =>
                obtain rfl := h
                exact .same rfl
            | tick =>
                obtain rfl := h
                exact .same rfl
            | delivery tag m =>
                obtain ⟨hopen, e, rest, hbuffered, -, rfl⟩ := h
                exact .receive hopen hbuffered
        | cancel =>
            obtain rfl := h
            exact .cancel
        | close =>
            obtain rfl : w' = w.closeConnection settings t := h
            exact .close
        | _ => exact absurd rfl hbroker
    | error e =>
        -- what a call that raises leaves is nothing, or what it was asked for
        cases op with
        | channel => exact h.2 ▸ .same (.refl _ _)
        | basicQos n => exact h.2 ▸ .same (.refl _ _)
        | basicPublish q m =>
            rcases h with rfl | ⟨hsend, rfl⟩
            · exact .same (.refl _ _)
            · exact .publish q m hsend (.inl rfl)
        | basicAck tag =>
            rcases h with rfl | ⟨hopen, rfl⟩
            · exact .same (.refl _ _)
            · exact .ack tag hopen
        | consume q =>
            obtain rfl : w' = w.release := h
            exact .same rfl
        | cancel =>
            rcases h with rfl | rfl
            · exact .same (.refl _ _)
            · exact .cancel
        | close =>
            rcases h with rfl | rfl
            · exact .same (.refl _ _)
            · exact .close
        | _ => exact absurd rfl hbroker

/-- A call after which another `_handle` call, or none, is in progress. -/
def Op.endsCall : Op → Bool
  | .basicAck _ => true
  | .consume _ => true
  | _ => false

/-- The other calls leave the `_handle` call in progress, and its delivery. -/
theorem current_of_responds {op : Op} {r : Except Exn (Res op)} {h : Handling}
    (hop : op.endsCall = false) (hr : w.responds settings t op r w') (hcurrent : w.current = some h) :
    ∃ h', w'.current = some h' ∧ h'.entry = h.entry := by
  by_cases hhandling : op.changes .handling = false
  · have hsame : w'.current = w.current := frame_of_responds hhandling hr
    exact ⟨h, hsame.trans hcurrent, rfl⟩
  · -- the calls that note something do so on the call of the consumer only
    have hmap : ∀ (f : Handling → Handling) (b : Bool), (∀ h, (f h).entry = h.entry) →
        w'.current = (if b then w.current.map f else w.current) →
        ∃ h', w'.current = some h' ∧ h'.entry = h.entry := by
      intro f b hf hw
      cases b with
      | true => exact ⟨f h, by rw [hw, hcurrent]; rfl, hf h⟩
      | false => exact ⟨h, hw.trans hcurrent, rfl⟩
    cases op with
    | getsize path =>
        cases r with
        | ok n =>
            obtain ⟨-, rfl⟩ := hr
            refine hmap (fun h => { h with sized := some n }) (t = .consumer) (fun _ => rfl) ?_
            cases t <;> rfl
        | error e =>
            obtain rfl := hr
            refine hmap id false (fun _ => rfl) ?_
            cases t <;> rfl
    | readFile path =>
        cases r with
        | ok content =>
            obtain ⟨-, rfl⟩ := hr
            refine hmap (fun h => { h with scanned := some content }) (t = .consumer) (fun _ => rfl) ?_
            cases t <;> rfl
        | error e =>
            obtain rfl := hr
            refine hmap id false (fun _ => rfl) ?_
            cases t <;> rfl
    | uploadGather =>
        cases r with
        | ok outcomes =>
            obtain ⟨-, run, -, -, rfl⟩ := hr
            exact hmap (fun h => { h with run := some { run with outcomes := some outcomes } }) true
              (fun _ => rfl) rfl
        | error e =>
            obtain ⟨-, rfl⟩ := hr
            split
            · exact ⟨h, hcurrent, rfl⟩
            · rename_i run _
              exact ⟨{ h with run := some run }, congrArg (Option.map _) hcurrent, rfl⟩
    -- these end the call
    | basicAck tag => cases hop
    | consume q => cases hop
    | _ => exact absurd rfl hhandling

/-! ## The environment -/

/-- The progress of an upload changes nothing but the objects. -/
theorem UploadRun.Progress.frame {run run' : UploadRun} (h : run.Progress w run' w') :
    ∃ objects, w' = { w with objects := objects } := by
  cases h with
  | part _ _ hp =>
      cases hp with
      | fetch _ => exact ⟨w.objects, rfl⟩
      | store => exact ⟨_, rfl⟩
      | fail _ => exact ⟨w.objects, rfl⟩
      | storeRaises => exact ⟨_, rfl⟩

/-- The progress of an upload keeps the event of its run, its outcomes and its destinations. -/
theorem UploadRun.Progress.run_eq {run run' : UploadRun} (h : run.Progress w run' w') :
    run'.event = run.event ∧ run'.outcomes = run.outcomes ∧ run'.path = run.path ∧
      run'.parts.map Part.destination = run.parts.map Part.destination := by
  cases h with
  | part _ hparts hp =>
      refine ⟨rfl, rfl, rfl, ?_⟩
      rw [hparts]
      cases hp <;> simp

/-- **The environment's steps touch neither the store nor the `_handle` call.** -/
theorem Move.frame (h : Move settings w w') : w'.processed = w.processed ∧ w'.current = w.current := by
  cases h with
  | activeProgress _ _ hp =>
      obtain ⟨objects, rfl⟩ := hp.frame
      exact ⟨rfl, rfl⟩
  | lateProgress _ hp =>
      obtain ⟨objects, rfl⟩ := hp.frame
      exact ⟨rfl, rfl⟩
  | _ => exact ⟨rfl, rfl⟩

/-- Upload runs may only make progress: each keeps its event, its outcomes and its destinations. -/
def RunsEvolve (runs runs' : List UploadRun) : Prop :=
  List.Forall₂ (fun run run' : UploadRun => run'.event = run.event ∧ run'.outcomes = run.outcomes)
    runs runs'

/-- Runs that stay as they are have evolved. -/
theorem RunsEvolve.refl (runs : List UploadRun) : RunsEvolve runs runs :=
  List.forall₂_same.2 fun _ _ => ⟨rfl, rfl⟩

/-- **The environment lets upload runs make progress, and no more.** -/
theorem Move.runs (h : Move settings w w') : RunsEvolve w.runs w'.runs := by
  cases h with
  | activeProgress _ _ hp =>
      obtain ⟨objects, rfl⟩ := hp.frame
      exact .refl _
  | lateProgress hruns hp =>
      rw [hruns]
      refine List.rel_append (RunsEvolve.refl _) (.cons ?_ (RunsEvolve.refl _))
      exact ⟨hp.run_eq.1, hp.run_eq.2.1⟩
  | _ => exact .refl _

/-- The active run stays the active run, of the same event and with as many parts. -/
theorem Move.active (h : Move settings w w') :
    w'.active = w.active ∨ ∃ run run', w.active = some run ∧ w'.active = some run' ∧
      ∃ w'', run.Progress w run' w'' ∧ w' = { w'' with active := some run' } := by
  cases h with
  | activeProgress _ hrun hp => exact .inr ⟨_, _, hrun, rfl, _, hp, rfl⟩
  | lateProgress _ hp =>
      obtain ⟨objects, rfl⟩ := hp.frame
      exact .inl rfl
  | _ => exact .inl rfl

/-- A crash ends the threads of the runs, and the active run. -/
theorem runsEvolve_crash : RunsEvolve (w.runs ++ w.active.toList) (w.crash settings).runs := by
  show List.Forall₂ _ _ (List.map _ _)
  rw [List.forall₂_map_right_iff]
  exact List.forall₂_same.2 fun _ _ => ⟨rfl, rfl⟩

end TransferWorker
