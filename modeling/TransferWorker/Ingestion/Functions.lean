import TransferWorker.Ingestion.DictReader
import TransferWorker.Stores.LastWrite

/-! # The ingestion functions

What reads the uploaded CSV files back: a Lambda function that writes the rows of an object to a
DynamoDB table, through boto3's batch writer, and a Cloud Function that writes them to Firestore, one
document at a time.

* **`orderLine`** — what both take from a row.
* **`ingestObject`** — the AWS function, with `BatchWriter`.
* **`handleGcsEvent`** — the GCP function. -/

namespace TransferWorker

open Stores

/-- What both functions read from a row. -/
structure OrderLine where
  /-- `order_id` -/
  orderId : Option String
  /-- `sku` -/
  sku : Option String
  /-- `quantity` -/
  quantity : Int
  /-- `channel` -/
  channel : Option String
deriving DecidableEq

/-- The cells of a row, in the order in which both functions read them. -/
def orderLine (row : DictRow) : Except Exn OrderLine := do
  let orderId ← row.getItem "order_id"
  let sku ← row.getItem "sku"
  let quantity ← intOfCell (← row.getItem "quantity")
  let channel ← row.getItem "channel"
  return ⟨orderId, sku, quantity, channel⟩

/-! ## AWS -/

/-- An item of the `order-line-items` table. -/
structure LineItem where
  /-- `orderId`, the partition key. -/
  orderId : Option String
  /-- `sku`, the sort key. -/
  sku : Option String
  /-- `quantity` -/
  quantity : Int
  /-- `channel` -/
  channel : Option String
  /-- `sourceObjectKey` -/
  sourceObjectKey : String
  /-- `ingestedAt` -/
  ingestedAt : String
deriving DecidableEq

/-- The table: the items by order and stock keeping unit. -/
abbrev LineItemTable := Table (String × String) LineItem

/-- The primary key of an item: two strings, neither empty. -/
def LineItem.key? (item : LineItem) : Option (String × String) :=
  match item.orderId, item.sku with
  | some orderId, some sku => if orderId ≠ "" ∧ sku ≠ "" then some (orderId, sku) else none
  | _, _ => none

/-- The item of a row. -/
def OrderLine.item (line : OrderLine) (key ingestedAt : String) : LineItem :=
  ⟨line.orderId, line.sku, line.quantity, line.channel, key, ingestedAt⟩

/-- The writes of some items to their keys. -/
def itemWrites (items : List LineItem) : List ((String × String) × LineItem) :=
  items.filterMap fun item => item.key?.map fun key => (key, item)

/-- **What `BatchWriteItem` accepts**: every item has a key and a number of at most 38 digits, and no
two items have the same key. -/
structure GoodBatch (items : List LineItem) : Prop where
  /-- The keys. -/
  keyed : ∀ item ∈ items, item.key? ≠ none
  /-- No key twice. -/
  nodup : (items.map LineItem.key?).Nodup
  /-- The numbers. -/
  numbers : ∀ item ∈ items, item.quantity.natAbs < 10 ^ 38

/-- Whether a batch is a good one can be computed. -/
instance (items : List LineItem) : Decidable (GoodBatch items) :=
  decidable_of_iff ((∀ item ∈ items, item.key? ≠ none) ∧ (items.map LineItem.key?).Nodup ∧
      ∀ item ∈ items, item.quantity.natAbs < 10 ^ 38)
    ⟨fun h => ⟨h.1, h.2.1, h.2.2⟩, fun h => ⟨h.1, h.2, h.3⟩⟩

/-- **`BatchWriteItem`**: all the puts, or a refusal of the whole batch. -/
def batchWriteItem (table : LineItemTable) (items : List LineItem) : Except Exn LineItemTable :=
  if GoodBatch items then .ok (putAll table (itemWrites items)) else .error (.other "ClientError")

/-- boto3's **`BatchWriter`**: the table and the puts that were not sent yet. -/
structure BatchWriter where
  /-- The table. -/
  table : LineItemTable
  /-- `_items_buffer` -/
  buffer : List LineItem

namespace BatchWriter

/-- `_flush_amount` -/
def flushAmount : Nat := 25

/-- `_flush`: the first puts leave the buffer and are sent. -/
def flush (w : BatchWriter) : BatchWriter × Except Exn Unit :=
  match batchWriteItem w.table (w.buffer.take flushAmount) with
  | .ok table => (⟨table, w.buffer.drop flushAmount⟩, .ok ())
  | .error e => (⟨w.table, w.buffer.drop flushAmount⟩, .error e)

/-- `put_item` -/
def putItem (w : BatchWriter) (item : LineItem) : BatchWriter × Except Exn Unit :=
  let w : BatchWriter := ⟨w.table, w.buffer ++ [item]⟩
  if flushAmount ≤ w.buffer.length then w.flush else (w, .ok ())

/-- `__exit__`: flush until the buffer is empty, `n` times at most. -/
def exit : Nat → BatchWriter → BatchWriter × Except Exn Unit
  | 0, w => (w, .ok ())
  | n + 1, w =>
      if w.buffer = [] then (w, .ok ())
      else match w.flush with
        | (w, .ok ()) => exit n w
        | (w, .error e) => (w, .error e)

end BatchWriter

/-- The loop of `_ingest_object` over the rows. -/
def putRows (key ingestedAt : String) : List DictRow → BatchWriter → BatchWriter × Except Exn Unit
  | [], w => (w, .ok ())
  | row :: rows, w =>
      match orderLine row with
      | .error e => (w, .error e)
      | .ok line =>
          match w.putItem (line.item key ingestedAt) with
          | (w, .ok ()) => putRows key ingestedAt rows w
          | (w, .error e) => (w, .error e)

/-- **`_ingest_object`** of an object with this body: the table afterwards, and how it ended. -/
def ingestObject (body : ByteArray) (key ingestedAt : String) (table : LineItemTable) :
    LineItemTable × Except Exn Unit :=
  match String.fromUTF8? body with
  | none => (table, .error (.other "UnicodeDecodeError"))
  | some text =>
      let (rows, readerError) := dictReader text.toList
      let (w, result) := putRows key ingestedAt rows ⟨table, []⟩
      let result := result.bind fun _ => readerError.elim (.ok ()) .error
      -- the batch writer is flushed also after an exception
      let (w, exitResult) := w.exit w.buffer.length
      (w.table, exitResult.bind fun _ => result)

/-! ## GCP -/

/-- The id of a document: one that was asked for, or one that the client made up. -/
inductive DocumentId where
  /-- The given text. -/
  | named (id : String)
  /-- `_auto_id()`, the `n`-th. -/
  | auto (n : Nat)
deriving DecidableEq

/-- A document of `lineItems`. -/
structure LineItemDocument where
  /-- `sku` -/
  sku : Option String
  /-- `quantity` -/
  quantity : Int
  /-- `channel` -/
  channel : Option String
  /-- `sourceObjectName` -/
  sourceObjectName : String
  /-- `ingestedAt` -/
  ingestedAt : String
deriving DecidableEq

/-- **Firestore**: the documents at `orders/{orderId}/lineItems/{sku}`, by their two ids, and how many ids the
client has made up. Where an id has a slash in it two pairs may stand for one path. -/
structure Firestore where
  /-- The documents. -/
  documents : Table (DocumentId × DocumentId) LineItemDocument
  /-- The ids that were made up. -/
  autoIds : Nat

namespace Firestore

/-- A text that is one part of a path: it is not empty and has no slash. -/
def isDocumentId (id : String) : Bool := id ≠ "" && !id.toList.contains '/'

variable (accepts : String → Bool)

/-- **The assumption on ids** under which the two functions are compared: as the id of a document the client
accepts exactly the texts that are one part of a path. -/
def PlainIds : Prop := ∀ id, accepts id = true ↔ id ≠ "" ∧ '/' ∉ id.toList

/-- `document(id)`: with `None` the client makes up an id; of the texts it accepts some. -/
def document (autoIds : Nat) : Option String → Except Exn (DocumentId × Nat)
  | none => .ok (.auto autoIds, autoIds + 1)
  | some id => if accepts id then .ok (.named id, autoIds) else .error (.other "InvalidArgument")

/-- An integer that a Firestore field can hold. -/
def isInt64 (n : Int) : Bool := -(2 ^ 63) ≤ n && n < 2 ^ 63

/-- What the loop of `handle_gcs_event` does with a row. -/
def setRow (db : Firestore) (name now : String) (row : DictRow) : Except Exn Firestore := do
  let line ← orderLine row
  let (orderId, autoIds) ← document accepts db.autoIds line.orderId
  let (sku, autoIds) ← document accepts autoIds line.sku
  if isInt64 line.quantity then
    return ⟨put db.documents (orderId, sku) ⟨line.sku, line.quantity, line.channel, name, now⟩, autoIds⟩
  else .error (.value "Value out of range")

/-- The loop over the rows. -/
def setRows (name now : String) : List DictRow → Firestore → Firestore × Except Exn Unit
  | [], db => (db, .ok ())
  | row :: rows, db =>
      match db.setRow accepts name now row with
      | .ok db => setRows name now rows db
      | .error e => (db, .error e)

end Firestore

/-- An object that the GCP function does not ignore. -/
def isOrderCsv (name : String) : Bool :=
  "orders/".toList.isPrefixOf name.toList && ".csv".toList.isSuffixOf name.toList

/-- **`handle_gcs_event`** for an object with this name and content: Firestore afterwards, and how it
ended. -/
def handleGcsEvent (accepts : String → Bool) (content : ByteArray) (name now : String) (db : Firestore) :
    Firestore × Except Exn Unit :=
  if !isOrderCsv name then (db, .ok ())
  else match String.fromUTF8? content with
    | none => (db, .error (.other "UnicodeDecodeError"))
    | some text =>
        let (rows, readerError) := dictReader text.toList
        let (db, result) := db.setRows accepts name now rows
        (db, result.bind fun _ => readerError.elim (.ok ()) .error)

/-! ## What the functions have in common -/

/-- **The order lines of a text**: those of all its rows, if no row and not the reader raises. -/
def orderLines (text : List Char) : Except Exn (List OrderLine) :=
  match dictReader text with
  | (rows, none) => rows.mapM orderLine
  | (_, some e) => .error e

end TransferWorker
