import Mathlib.Data.Rat.Defs

/-! # Settings

The runtime configuration of the worker, and the numbers it is made of. The fields that no modelled
function reads (hosts, credentials, endpoints, log level, ports) are left out. -/

namespace TransferWorker

/-- A floating-point number of the configuration: a finite value, an infinity or not a number. -/
inductive PyFloat where
  /-- A finite number. -/
  | finite (q : ℚ)
  /-- Plus or minus infinity. -/
  | infinite (negative : Bool)
  /-- Not a number. -/
  | nan

/-- **`Settings`**: a frozen dataclass, its defaults those of the source. -/
structure Settings where
  /-- The directory the watcher watches. -/
  watchDir : String := "/watch"
  /-- The main queue. -/
  queueName : String := "orders.inbound"
  /-- The holding queue of messages that wait for a retry. -/
  retryQueueName : String := "orders.inbound.retry"
  /-- The queue of terminal failures. -/
  dlqName : String := "orders.inbound.dlq"
  /-- The bucket of the first destination. -/
  s3Bucket : String := "wms-orders-processed"
  /-- The region of the first destination. -/
  s3Region : String := "us-east-1"
  /-- The bucket of the second destination. -/
  gcsBucket : String := "wms-orders-processed"
  /-- How many uploads of one event run at a time. -/
  uploadMaxConcurrency : Int := 2
  /-- After how many attempts an event is dead-lettered. -/
  retryMaxAttempts : Int := 5
  /-- The base of the exponential backoff. -/
  retryBackoffBase : PyFloat := .finite 2
  /-- The size limit of the scan. -/
  maxCsvFileSizeBytes : Int := 10000000
  /-- The database of the idempotency store. -/
  idempotencyDbPath : String := "/data/idempotency.db"
  /-- The key under which idempotency keys are derived. -/
  correlationSecret : String := "dev-secret-change-me"

end TransferWorker
