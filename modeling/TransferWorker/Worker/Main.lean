import TransferWorker.Worker.Consumer
import TransferWorker.Worker.Watcher

/-! # The process

The readiness flags with the answer of `GET /ready`, and the main thread: it starts the two worker
threads, serves HTTP until the stop event is set, and then sets the event itself and joins them. -/

namespace TransferWorker

open CallTrees

/-- **`ReadinessState`**: one flag for each component. -/
abbrev ReadinessState := Component → Bool

namespace ReadinessState

/-- The initial flags. -/
def initial : ReadinessState := fun _ => false

/-- `set_ready` -/
def setReady (r : ReadinessState) (component : Component) (ready : Bool) : ReadinessState :=
  fun c => if c = component then ready else r c

/-- `ready`: all flags are set. -/
def ready (r : ReadinessState) : Bool := r .watcher && r .consumer

end ReadinessState

/-- `Handler.do_GET` of `/ready`: the status of the response. -/
def getReady (readiness : ReadinessState) : Nat := if readiness.ready then 200 else 503

/-- `run_health_server`: serve until the stop event is set. -/
def runHealthServer : Prog Unit := do
  call .serverStart
  (call .stopWait).andFinally (call .serverStop)

/-- **`main`** from the start of the threads on: the health server is its loop, of a single turn. -/
def mainService : Service calls Exn Unit where
  setup := do
    call (.threadStart .watcher)
    call (.threadStart .consumer)
  turn _ := do
    runHealthServer
    return .inr ()
  finish _ r := (pureCall r).andFinally do
    call .stopSet
    call (.threadJoin .watcher)
    call (.threadJoin .consumer)

end TransferWorker
