import TransferWorker.CallTrees.Program
import TransferWorker.Worker.Config
import TransferWorker.Worker.Schema

/-! # External calls

Everything the worker asks of the broker, the store, the file system, the cloud clients, the
observer and the thread primitives, as one signature of calls. The worker's functions are call trees
over it; what a call may answer and do is the world's affair. Logging and metrics are left out: they
return nothing and change nothing that the worker reads. -/

namespace TransferWorker

/-- A path of the file system, as the bytes of the operating system. -/
abbrev Path := ByteArray

/-- Paths can be compared. -/
instance : DecidableEq Path := ByteArray.decEq

/-- The path that a string names (`os.fsencode`). -/
def fsencode (s : String) : Path := s.toUTF8

/-- The components with a thread and a readiness flag of their own. -/
inductive Component where
  /-- The watcher. -/
  | watcher
  /-- The consumer. -/
  | consumer
deriving DecidableEq

/-- `pika.BasicProperties`, as far as the worker sets or reads them; `delivery_mode` is always
persistent. -/
structure Properties where
  /-- `content_type` -/
  contentType : Option String := none
  /-- `message_id` -/
  messageId : Option String := none
  /-- `correlation_id` -/
  correlationId : Option String := none
  /-- `expiration`: the time to live of this message, in milliseconds. -/
  expiration : Option String := none
  /-- `headers` -/
  headers : Option (List (String × String)) := none
deriving DecidableEq

/-- A message of the broker. -/
structure Message where
  /-- The body. -/
  body : ByteArray
  /-- The properties. -/
  properties : Properties := {}
deriving DecidableEq

/-- What the iterator of `channel.consume` yields next. -/
inductive Consumed where
  /-- The iterator has ended. -/
  | exhausted
  /-- Nothing arrived within `inactivity_timeout`. -/
  | tick
  /-- A delivery with its tag. -/
  | delivery (tag : Nat) (message : Message)

/-- How the call of one upload function under `asyncio.wait_for` ended. -/
inductive Outcome where
  /-- It returned within the timeout. -/
  | returned
  /-- `TimeoutError`: of `wait_for`, or raised by the function. -/
  | timedOut
  /-- It raised another exception, of the class with this name. -/
  | raised (cls : String)
deriving DecidableEq

/-- **The external calls.** -/
inductive Op where
  /-- `pika.BlockingConnection(parameters)` -/
  | connect
  /-- `connection.channel()` -/
  | channel
  /-- `channel.queue_declare(queue=..., durable=True, arguments=...)` -/
  | queueDeclare (queue : String) (arguments : List (String × String))
  /-- `channel.confirm_delivery()` -/
  | confirmDelivery
  /-- `channel.basic_qos(prefetch_count=...)` -/
  | basicQos (prefetchCount : Int)
  /-- `channel.basic_publish(exchange="", ..., mandatory=True)` on a confirming channel. -/
  | basicPublish (routingKey : String) (message : Message)
  /-- `channel.basic_ack(delivery_tag)` -/
  | basicAck (tag : Nat)
  /-- The next item of `channel.consume(queue, inactivity_timeout=1)`. -/
  | consume (queue : String)
  /-- `channel.cancel()` -/
  | cancel
  /-- `connection.process_data_events(time_limit=0)` -/
  | processDataEvents
  /-- `connection.close()` -/
  | close
  /-- `IdempotencyStore(db_path)` -/
  | storeOpen (path : String)
  /-- `SELECT 1 FROM processed_events WHERE idempotency_key = ?` finds a row. -/
  | isDone (key : String)
  /-- `INSERT OR IGNORE INTO processed_events`, committed. -/
  | markDone (key correlationId : String)
  /-- `idempotency.close()` -/
  | storeClose
  /-- `os.path.isfile(path)` -/
  | isfile (path : Path)
  /-- `os.path.getsize(path)` -/
  | getsize (path : Path)
  /-- Open a file for reading and read it to the end. -/
  | readFile (path : Path)
  /-- Start the upload tasks of an event, one for each destination. -/
  | uploadStart (event : TransferEvent) (path : Path)
  /-- Wait for all the upload tasks. -/
  | uploadGather
  /-- `uuid.uuid4()` -/
  | newUuid
  /-- `utcnow_iso()` -/
  | utcnow
  /-- `Observer()` -/
  | observerNew
  /-- `observer.schedule(handler, path, recursive=True)` -/
  | observerSchedule (path : String)
  /-- `observer.start()` -/
  | observerStart
  /-- `observer.stop()` -/
  | observerStop
  /-- `observer.join()` -/
  | observerJoin
  /-- `file_queue.get(timeout=...)`; `none` is `queue.Empty`. -/
  | fileQueueGet
  /-- `stop_event.is_set()` -/
  | stopIsSet
  /-- `stop_event.set()` -/
  | stopSet
  /-- `stop_event.wait()` -/
  | stopWait
  /-- `readiness.set_ready(component, ready)` -/
  | setReady (component : Component) (ready : Bool)
  /-- `thread.start()` -/
  | threadStart (component : Component)
  /-- `thread.join(timeout=10)` -/
  | threadJoin (component : Component)
  /-- Bind the health server and start its thread. -/
  | serverStart
  /-- Shut the health server down. -/
  | serverStop

/-- What a call answers with. -/
abbrev Res : Op → Type
  | .consume _ => Consumed
  | .isDone _ => Bool
  | .isfile _ => Bool
  | .getsize _ => Nat
  | .readFile _ => ByteArray
  | .uploadGather => List Outcome
  | .newUuid => String
  | .utcnow => String
  | .fileQueueGet => Option Path
  | .stopIsSet => Bool
  | _ => Unit

/-- The signature of the external calls. -/
abbrev calls : CallTrees.Signature := ⟨Op, Res⟩

/-- **A piece of the worker**: a program of external calls that may raise. -/
abbrev Prog (α : Type) := CallTrees.Program calls Exn α

/-- Make one external call. -/
abbrev call (op : Op) : Prog (Res op) := CallTrees.Program.perform (S := calls) op

/-- Raise an exception. -/
abbrev throwing {α : Type} (e : Exn) : Prog α := CallTrees.Program.raise e

/-- Return or raise what a pure computation gives. -/
abbrev pureCall {α : Type} (r : Except Exn α) : Prog α := CallTrees.Program.ofExcept r

end TransferWorker
