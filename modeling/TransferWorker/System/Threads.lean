import TransferWorker.System.Delivery
import TransferWorker.System.Entries
import TransferWorker.System.Process
import TransferWorker.System.WatcherRules

/-! # Which thread does what

The calls that only one of the threads makes, and what the calls of the other two do to the broker, the
store and the uploads.

* **`Op.owner`** — the thread that a call belongs to, if it belongs to one.
* **`Op.Fits`** — a thread makes only calls of its own and common ones.
* **`Starts`** — the calls of the main thread.
* **`grows_of_others`**, `same_of_others` — a call of another thread than the consumer. -/

namespace TransferWorker

open CallTrees World

/-- The thread that a call belongs to. -/
def Op.owner : Op → Option Thread
  | .basicQos _ => some .consumer
  | .basicAck _ => some .consumer
  | .consume _ => some .consumer
  | .cancel => some .consumer
  | .storeOpen _ => some .consumer
  | .isDone _ => some .consumer
  | .markDone _ _ => some .consumer
  | .storeClose => some .consumer
  | .uploadStart _ _ => some .consumer
  | .uploadGather => some .consumer
  | .fileQueueGet => some .watcher
  | _ => none

/-- A thread may make the call: it is its own, or a common one. -/
def Op.Fits (t : Thread) (op : Op) : Prop := ∀ t', op.owner = some t' → t = t'

variable {H : Hashes} {cwd : String} {settings : Settings} {t : Thread} {w w' : World} {op : Op}

/-- A common call fits every thread. -/
theorem Op.Fits.common (h : op.owner = none) : op.Fits t := by
  intro t' ht'
  rw [h] at ht'
  cases ht'

/-- A call fits its owner. -/
theorem Op.Fits.own (h : op.owner = some t) : op.Fits t := by
  intro t' ht'
  exact Option.some.inj (h.symm.trans ht')

/-- A thread does not make the calls of another one. -/
theorem Op.Fits.owner_ne {t' : Thread} (h : op.Fits t) (ht : t ≠ t') : op.owner ≠ some t' :=
  fun howner => ht (h t' howner)

/-! ## The code of the threads -/

/-- The calls of the main thread are in `P`. -/
structure Starts (P : Op → Prop) : Prop where
  /-- A thread is started. -/
  threadStart : ∀ c, P (.threadStart c)
  /-- The server is started. -/
  serverStart : P .serverStart
  /-- The thread waits for the stop event. -/
  stopWait : P .stopWait
  /-- The server is shut down. -/
  serverStop : P .serverStop
  /-- The stop event is set. -/
  stopSet : P .stopSet
  /-- A thread is joined. -/
  threadJoin : ∀ c, P (.threadJoin c)

variable {P : Op → Prop}

/-- The calls of the main thread up to its loop. -/
theorem calls_main_setup (h : Starts P) : mainService.setup.Calls P :=
  Program.calls_bind (Program.calls_perform (h.threadStart _)) fun _ =>
    Program.calls_perform (h.threadStart _)

/-- The call of the main thread in its loop. -/
theorem calls_main_turn (h : Starts P) (s : Unit) : (mainService.turn s).Calls P := by
  have hserve : runHealthServer.Calls P :=
    Program.calls_bind (Program.calls_perform h.serverStart) fun _ =>
      Program.calls_andFinally (Program.calls_perform h.stopWait) (Program.calls_perform h.serverStop)
  exact Program.calls_bind hserve fun _ => trivial

/-- The calls of the main thread after its loop. -/
theorem calls_main_finish (h : Starts P) (s : Unit) (r : Except Exn Unit) :
    (mainService.finish s r).Calls P :=
  Program.calls_andFinally (Program.calls_ofExcept r)
    (Program.calls_bind (Program.calls_perform h.stopSet) fun _ =>
      Program.calls_bind (Program.calls_perform (h.threadJoin _)) fun _ =>
        Program.calls_perform (h.threadJoin _))

/-- Starting and stopping are common calls. -/
theorem starts_fits : Starts (Op.Fits t) where
  threadStart _ := .common rfl
  serverStart := .common rfl
  stopWait := .common rfl
  serverStop := .common rfl
  stopSet := .common rfl
  threadJoin _ := .common rfl

/-- So are those of a reconnect. -/
theorem reconnects_fits : Reconnects (Op.Fits t) where
  close := .common rfl
  connect := .common rfl
  channel := .common rfl
  declare _ _ := .common rfl
  confirm := .common rfl

/-- The calls of the watcher in its loop fit it. -/
theorem watches_fits : Watches (Op.Fits .watcher) where
  toReconnects := reconnects_fits
  publish _ _ := .common rfl
  processDataEvents := .common rfl
  builds _ := ⟨.common rfl, .common rfl, .common rfl, .common rfl⟩
  isfile _ := .common rfl
  fileQueueGet := .own rfl
  stopIsSet := .common rfl

/-- So do those of its setup. -/
theorem calls_watcherService_setup : (watcherService H cwd settings).setup.Calls (Op.Fits .watcher) :=
  calls_watcher_setup reconnects_fits (.common rfl) (.common rfl) (.common rfl) (.common rfl)

/-- A turn of the watcher makes only calls that fit it. -/
theorem calls_watcherService_turn (s : Unit) :
    ((watcherService H cwd settings).turn s).Calls (Op.Fits .watcher) := calls_watcher_turn watches_fits

/-- So does the code after its loop. -/
theorem calls_watcherService_finish (s : Unit) (r : Except Exn Unit) :
    ((watcherService H cwd settings).finish s r).Calls (Op.Fits .watcher) :=
  calls_watcher_finish (.common rfl) (.common rfl) (.common rfl) (.common rfl) s r

/-- The other threads make only calls of their own and common ones. -/
theorem calls_others (ht : t ≠ .consumer) : ((process H cwd settings).service t).Calls (Op.Fits t) := by
  cases t with
  | main => exact ⟨calls_main_setup starts_fits, calls_main_turn starts_fits, calls_main_finish starts_fits⟩
  | watcher => exact ⟨calls_watcherService_setup, calls_watcherService_turn, calls_watcherService_finish⟩
  | consumer => exact absurd rfl ht

/-- The calls of the consumer outside of `_handle` fit it. -/
theorem fits_of_isSession (h : op.isSession = true) : op.Fits .consumer := by
  cases op <;> first | exact .common rfl | exact .own rfl | cases h

/-! ## The calls of the other threads -/

/-- A call that does not belong to the consumer changes neither the store nor the uploads. -/
theorem changes_of_owner {a : Aspect} (h : op.owner ≠ some .consumer)
    (ha : a = .store ∨ a = .uploads) : op.changes a = false := by
  rcases ha with rfl | rfl <;> cases op <;> first | rfl | exact absurd rfl h

/-- A call of another thread leaves the store and the uploads as they are. -/
theorem same_of_others {r : Except Exn (Res op)} {a : Aspect} (hop : op.Fits t) (ht : t ≠ .consumer)
    (ha : a = .store ∨ a = .uploads) (h : w.responds settings t op r w') : a.Same w w' :=
  frame_of_responds (changes_of_owner (hop.owner_ne ht) ha) h

/-- Such a call of another thread publishes, or leaves the broker as it is. -/
theorem broker_of_others {r : Except Exn (Res op)} (hop : op.Fits t) (ht : t ≠ .consumer)
    (h : w.responds settings t op r w') :
    Aspect.broker.Same w w' ∨ ∃ q m, op = .basicPublish q m ∧
      (w' = w.publish settings t q m ∨ w' = (w.publish settings t q m).confirm t m) := by
  have howner := hop.owner_ne ht
  cases broker_of_responds h with
  | same hsame => exact .inl hsame
  | openChannel =>
      rw [World.openChannel, if_neg ht]
      exact .inl (.refl _ _)
  | publish q m _ hw => exact .inr ⟨q, m, rfl, hw⟩
  | close =>
      rw [World.closeConnection, if_neg ht]
      exact .inl (.refl _ _)
  | _ => exact absurd rfl howner

/-- A publication lets the broker grow, whoever makes it. -/
theorem grows_publish (t : Thread) (q : String) (m : Message) :
    Grows settings w (w.publish settings t q m) := by
  have hpush : Grows settings w (w.push q ⟨m, w.chainOf t q m⟩) := .push q _
  refine ⟨hpush.present, hpush.done, fun m' hm' => ?_, fun ht => ⟨ht.1, ht.2, ht.3⟩,
    fun _ _ ho => ⟨ho.1, ho.2⟩⟩
  unfold World.publish at hm'
  dsimp only at hm'
  split at hm'
  · rename_i hmain
    rcases List.mem_cons.1 hm' with rfl | hm'
    · refine .inr (.inl ⟨q, hmain.2 ▸ mem_queues_main, ⟨m', w.chainOf t q m'⟩, ?_, rfl⟩)
      rw [World.publish_queue_self]
      exact List.mem_append_right _ List.mem_cons_self
    · exact .inl hm'
  · exact .inl hm'

/-- **The calls of the other threads let the broker grow.** -/
theorem grows_of_others {r : Except Exn (Res op)} (hop : op.Fits t) (ht : t ≠ .consumer)
    (h : w.responds settings t op r w') : Grows settings w w' := by
  have hstore := same_of_others hop ht (.inl rfl) h
  rcases broker_of_others hop ht h with hbroker | ⟨q, m, -, rfl | rfl⟩
  · exact .of_same hbroker hstore
  · exact grows_publish t q m
  · exact (grows_publish t q m).trans (.of_eq rfl rfl rfl rfl rfl rfl) le_rfl

/-- Only a publication is accepted, whoever makes it. -/
theorem accepted_of_responds {r : Except Exn (Res op)} (h : w.responds settings t op r w') :
    w'.accepted = w.accepted ∨
      ∃ q m, op = .basicPublish q m ∧ w'.accepted = (w.publish settings t q m).accepted := by
  cases broker_of_responds h with
  | same hsame =>
      simp only [Aspect.Same, Prod.mk.injEq] at hsame
      exact .inl hsame.2.2.2.2.2.2.1
  | openChannel =>
      left
      unfold World.openChannel
      split <;> rfl
  | publish q m _ hw => exact .inr ⟨q, m, rfl, by rcases hw with rfl | rfl <;> rfl⟩
  | close =>
      left
      unfold World.closeConnection
      split <;> rfl
  | _ => exact .inl rfl

/-- What was accepted stays accepted. -/
theorem accepted_mono {r : Except Exn (Res op)} (h : w.responds settings t op r w') {m : Message}
    (hm : m ∈ w.accepted) : m ∈ w'.accepted := by
  rcases accepted_of_responds h with hsame | ⟨q, m', -, hsame⟩
  · exact hsame ▸ hm
  · rw [hsame]
    unfold World.publish
    dsimp only
    split
    · exact List.mem_cons_of_mem _ hm
    · exact hm

/-- Only the watcher takes paths from its queue. -/
theorem paths_of_responds {r : Except Exn (Res op)} (hop : op ≠ .fileQueueGet)
    (h : w.responds settings t op r w') : w'.fileQueue = w.fileQueue ∧ w'.notices = w.notices := by
  by_cases hwatch : op.changes .watch = false
  · have hsame : Aspect.watch.Same w w' := frame_of_responds hwatch h
    exact ⟨congrArg Prod.fst hsame, congrArg (fun a => a.2.1) hsame⟩
  · -- a look at a file changes the notes of the scan or of the delivery, never the two queues
    cases op with
    | isfile path =>
        cases r with
        | ok b =>
            obtain ⟨-, rfl⟩ := h
            split <;> exact ⟨rfl, rfl⟩
        | error e =>
            obtain ⟨-, rfl⟩ := h
            exact ⟨rfl, rfl⟩
    | getsize path =>
        cases r with
        | ok n =>
            obtain ⟨-, rfl⟩ := h
            cases t <;> exact ⟨rfl, rfl⟩
        | error e =>
            obtain rfl := h
            cases t <;> exact ⟨rfl, rfl⟩
    | readFile path =>
        cases r with
        | ok content =>
            obtain ⟨-, rfl⟩ := h
            cases t <;> exact ⟨rfl, rfl⟩
        | error e =>
            obtain rfl := h
            cases t <;> exact ⟨rfl, rfl⟩
    | fileQueueGet => exact absurd rfl hop
    | _ => exact absurd rfl hwatch

/-- What is true of every entry stays true of every entry, if it is true of what is published. -/
theorem Everywhere.others {Q : String → Entry → Prop} {r : Except Exn (Res op)}
    (h : Everywhere settings Q w) (hop : op.Fits t) (ht : t ≠ .consumer)
    (hr : w.responds settings t op r w')
    (hpublish : ∀ q m, op = .basicPublish q m → Q q ⟨m, w.chainOf t q m⟩) :
    Everywhere settings Q w' := by
  rcases broker_of_others hop ht hr with hbroker | ⟨q, m, hm, rfl | rfl⟩
  · exact h.of_same hbroker
  · exact h.publish (hpublish q m hm)
  · exact (h.publish (hpublish q m hm)).of_eq rfl rfl rfl

end TransferWorker
