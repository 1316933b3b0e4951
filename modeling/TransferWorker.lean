import TransferWorker.CallTrees.Execution
import TransferWorker.Json.RoundTrip
import TransferWorker.System.ConsumerRules
import TransferWorker.System.NoDoubleUpload
import TransferWorker.System.NoLoss
import TransferWorker.System.Progress
import TransferWorker.System.StoreSoundness
import TransferWorker.Worker.Hashlib
import TransferWorker.System.Entries
import TransferWorker.System.RetryProtocol
import TransferWorker.System.Stranding
import TransferWorker.CallTrees.Trace
import TransferWorker.Worker.Decoding
import TransferWorker.Worker.Negotiation
import TransferWorker.Json.Schema
import TransferWorker.Worker.Contract
import TransferWorker.Worker.Emission
import TransferWorker.Queues.DelayQueue
import TransferWorker.Worker.DelayedRetry
import TransferWorker.Ingestion.DictReader
import TransferWorker.Stores.LastWrite
import TransferWorker.Ingestion.Functions
import TransferWorker.Ingestion.Agreement
import TransferWorker.Ingestion.Redelivery
import TransferWorker.Ingestion.ScannedCells
import TransferWorker.CallTrees.Pool
import TransferWorker.Ingestion.UploadedKeys
import TransferWorker.System.Identity
import TransferWorker.System.Process
import TransferWorker.System.Readiness
import TransferWorker.System.Survival
import TransferWorker.Scheduling.Semaphore
import TransferWorker.Worker.Keys
import TransferWorker.Worker.Scheduling
import TransferWorker.Worker.Wire
import TransferWorker.Worker.Backoff
import TransferWorker.Worker.CsvText
import TransferWorker.Worker.ScanErrors
import TransferWorker.Worker.CsvEncoding
import TransferWorker.Worker.FormulaPlaces
import TransferWorker.Worker.ByteOrderMark
import TransferWorker.System.Detection
import TransferWorker.System.CheckedCopy
import TransferWorker.System.Threads
import TransferWorker.Worker.WatchedNames
import TransferWorker.System.Announcements
import TransferWorker.System.Carriage
import TransferWorker.System.Convergence
import TransferWorker.CallTrees.Instrumented
import TransferWorker.CallTrees.Termination
import TransferWorker.System.Accounting
import TransferWorker.System.Shutdown
import TransferWorker.Encoding.Percent
import TransferWorker.Ingestion.Attempts
import TransferWorker.System.Recovery
import TransferWorker.System.Rewriting
