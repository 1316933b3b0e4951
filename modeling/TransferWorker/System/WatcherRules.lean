import TransferWorker.CallTrees.Execution
import TransferWorker.System.ConsumerRules

/-! # Proof rules for the watcher

Which calls each piece of the watcher makes, and executions of the pieces in a world that gives every
normal answer.

* **`Reconnects`**, `Watches` — the calls of a reconnect, and those of the loop.
* **`Attends`** — such a world; `executes_setup` and the others are the pieces. -/

namespace TransferWorker

open CallTrees

/-- The calls with which a connection is closed and opened again are in `P`. -/
structure Reconnects (P : Op → Prop) : Prop where
  /-- The old connection is closed. -/
  close : P .close
  /-- The new one is opened. -/
  connect : P .connect
  /-- Its channel. -/
  channel : P .channel
  /-- The queues. -/
  declare : ∀ queue arguments, P (.queueDeclare queue arguments)
  /-- Confirmations. -/
  confirm : P .confirmDelivery

/-- The calls with which `build_event` looks at a file are in `P`. -/
structure Builds (P : Op → Prop) (path : Path) : Prop where
  /-- The size. -/
  getsize : P (.getsize path)
  /-- The content. -/
  readFile : P (.readFile path)
  /-- The two identifiers. -/
  newUuid : P .newUuid
  /-- The time. -/
  utcnow : P .utcnow

/-- The calls of the loop are in `P`. -/
structure Watches (P : Op → Prop) extends Reconnects P where
  /-- A publication. -/
  publish : ∀ queue message, P (.basicPublish queue message)
  /-- The idle connection is serviced. -/
  processDataEvents : P .processDataEvents
  /-- The event of a path is built. -/
  builds : ∀ path, Builds P path
  /-- The path is checked. -/
  isfile : ∀ path, P (.isfile path)
  /-- It is taken from the queue. -/
  fileQueueGet : P .fileQueueGet
  /-- The stop event is checked. -/
  stopIsSet : P .stopIsSet

variable {H : Hashes} {cwd : String} {settings : Settings} {P : Op → Prop}

/-- The calls of a reconnect. -/
theorem calls_reconnect (h : Reconnects P) : (Watcher.reconnect settings).Calls P :=
  Program.calls_bind (Program.calls_attempt (Program.calls_perform h.close)) fun _ =>
    calls_connectAndSetup h.connect h.channel h.declare h.confirm

/-- The calls of a publication with a reconnect. -/
theorem calls_publishWithReconnect {e : TransferEvent} (h : Reconnects P)
    (hpublish : P (.basicPublish settings.queueName (Publisher.message e none none))) :
    (Watcher.publishWithReconnect settings e).Calls P := by
  have hevent : (Publisher.publishEvent settings e).Calls P := Program.calls_perform hpublish
  refine Program.calls_bind (Program.calls_attempt hevent) fun r => ?_
  cases r with
  | ok u => trivial
  | error exn =>
      dsimp only
      split
      · refine Program.calls_bind (calls_reconnect h) fun _ => ?_
        exact Program.calls_bind (Program.calls_attempt hevent) fun _ => trivial
      · trivial

/-- The calls that serve an idle connection. -/
theorem calls_serviceIdleConnection (h : Reconnects P) (hservice : P .processDataEvents) :
    (Watcher.serviceIdleConnection settings).Calls P :=
  Program.calls_tryCatch (Program.calls_perform hservice) fun e => by
    split
    · exact calls_reconnect h
    · trivial

/-- The calls of `build_event`. -/
theorem calls_buildEvent {path : Path} (h : Builds P path) :
    (Watcher.buildEvent H cwd path settings).Calls P := by
  refine Program.calls_bind (Program.calls_perform h.getsize) fun _ => ?_
  refine Program.calls_bind (Program.calls_perform h.readFile) fun _ => ?_
  dsimp only
  split
  · trivial
  · refine Program.calls_bind (Program.calls_perform h.newUuid) fun _ => ?_
    refine Program.calls_bind (Program.calls_perform h.newUuid) fun _ => ?_
    exact Program.calls_bind (Program.calls_perform h.utcnow) fun _ => Program.calls_ofExcept _

/-- The calls of the watcher for a path. -/
theorem calls_handlePath (h : Watches P) (path : Path) :
    (Watcher.handlePath H cwd settings path).Calls P := by
  refine Program.calls_bind (Program.calls_perform (h.isfile path)) fun regular => ?_
  split
  · trivial
  · refine Program.calls_bind (Program.calls_attempt (calls_buildEvent (h.builds path))) fun r => ?_
    cases r with
    | error e => trivial
    | ok e => exact calls_publishWithReconnect h.toReconnects (h.publish _ _)

/-- The calls of a turn. -/
theorem calls_watcher_turn (h : Watches P) : (Watcher.turn H cwd settings).Calls P := by
  refine Program.calls_bind (Program.calls_perform h.stopIsSet) fun stop => ?_
  split
  · trivial
  · refine Program.calls_bind (Program.calls_perform h.fileQueueGet) fun item => ?_
    cases item with
    | none =>
        have hidle : (Watcher.serviceIdleConnection settings).Calls P :=
          calls_serviceIdleConnection h.toReconnects h.processDataEvents
        exact Program.calls_bind hidle fun _ => trivial
    | some path => exact Program.calls_bind (calls_handlePath h path) fun _ => trivial

/-- The calls of the setup. -/
theorem calls_watcher_setup (h : Reconnects P) (hready : P (.setReady .watcher true))
    (hnew : P .observerNew) (hschedule : P (.observerSchedule settings.watchDir))
    (hstart : P .observerStart) : (watcherService H cwd settings).setup.Calls P := by
  refine Program.calls_bind (calls_connectAndSetup h.connect h.channel h.declare h.confirm) fun _ => ?_
  refine Program.calls_bind (Program.calls_perform hready) fun _ => ?_
  refine Program.calls_bind (Program.calls_perform hnew) fun _ => ?_
  exact Program.calls_bind (Program.calls_perform hschedule) fun _ => Program.calls_perform hstart

/-- The calls of the code after the loop. -/
theorem calls_watcher_finish (hready : P (.setReady .watcher false)) (hstop : P .observerStop)
    (hjoin : P .observerJoin) (hclose : P .close) (s : Unit) (r : Except Exn Unit) :
    ((watcherService H cwd settings).finish s r).Calls P := by
  refine Program.calls_andFinally (Program.calls_ofExcept r) ?_
  refine Program.calls_bind (Program.calls_perform hready) fun _ => ?_
  refine Program.calls_bind (Program.calls_perform hstop) fun _ => ?_
  refine Program.calls_bind (Program.calls_perform hjoin) fun _ => ?_
  exact Program.calls_bind (Program.calls_attempt (Program.calls_perform hclose)) fun _ => trivial

/-! ## Executions -/

/-- The world in which the flag of the watcher is up. -/
def World.watching (w : World) : World := { w with readiness := w.readiness.setReady .watcher true }

/-- **An environment of the watcher without obstacles**: every normal answer is possible; the watcher
does not consume. -/
def Attends (settings : Settings) (E : Environment calls Exn World) : Prop :=
  ∀ {w op x w'}, (∀ q, op ≠ .consume q) → w.normal settings .watcher op x w' → E.responds w op (.ok x) w'

namespace Attends

variable {E : Environment calls Exn World} {w w' : World} {α : Type} {r : Except Exn α}

/-- A call, followed by a program. -/
theorem call_bind (hE : Attends settings E) (op : Op) (x : Res op) {f : Res op → Prog α} {w'' : World}
    (hop : ∀ q, op ≠ .consume q) (h : w.normal settings .watcher op x w')
    (hf : Executes E (f x) w' r w'') : Executes E (TransferWorker.call op >>= f) w r w'' :=
  .perform_bind (hE hop h) hf

/-- A last call. -/
theorem call (hE : Attends settings E) (op : Op) (x : Res op) (hop : ∀ q, op ≠ .consume q)
    (h : w.normal settings .watcher op x w') : Executes E (TransferWorker.call op) w (.ok x) w' :=
  .perform (hE hop h)

/-- A connection of the watcher leaves no trace. -/
theorem executes_connectAndSetup (hE : Attends settings E) :
    Executes E (connectAndSetup settings) w (.ok ()) w := by
  have htopology : Executes E (declareTopology settings) w (.ok ()) w :=
    hE.call_bind (.queueDeclare _ _) () nofun rfl
      (hE.call_bind (.queueDeclare _ _) () nofun rfl (hE.call (.queueDeclare _ _) () nofun rfl))
  refine hE.call_bind .connect () nofun rfl (hE.call_bind .channel () nofun rfl ?_)
  exact htopology.bind (hE.call .confirmDelivery () nofun rfl)

/-- **The setup.** -/
theorem executes_setup (hE : Attends settings E) :
    Executes E (watcherService H cwd settings).setup w (.ok ()) w.watching := by
  refine hE.executes_connectAndSetup.bind (hE.call_bind (.setReady .watcher true) () nofun rfl ?_)
  refine hE.call_bind .observerNew () nofun rfl (hE.call_bind (.observerSchedule _) () nofun rfl ?_)
  exact hE.call .observerStart () nofun rfl

/-- A reconnect. -/
theorem executes_reconnect (hE : Attends settings E) :
    Executes E (Watcher.reconnect settings) w (.ok ()) w :=
  (hE.call .close () nofun rfl).attempt.bind hE.executes_connectAndSetup

/-- The setup, when the observer cannot be created. -/
theorem executes_setup_observer {e : Exn} (hE : Attends settings E)
    (he : E.responds w.watching .observerNew (.error e) w.watching) :
    Executes E (watcherService H cwd settings).setup w (.error e) w.watching := by
  refine hE.executes_connectAndSetup.bind (hE.call_bind (.setReady .watcher true) () nofun rfl ?_)
  exact .bind_error (.perform_error he)

end Attends

end TransferWorker
