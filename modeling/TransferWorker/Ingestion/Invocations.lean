import TransferWorker.CallTrees.Execution
import TransferWorker.Encoding.Percent
import TransferWorker.Ingestion.Redelivery
import TransferWorker.Ingestion.ScannedCells

/-! # Invocations of the ingestion functions

The handlers of the two functions as programs: what they ask the clouds for, one call after the other,
when every call can fail. A failed batch may have been written in part, and a batch that succeeded may
come back in part as unprocessed items, which boto3 puts into its buffer again.

* **`Invocation.handleS3Event`**, `Invocation.handleGcsEvent` — the handlers.
* **`executes_ingestObject`** — where no call fails, the Lambda function does to the table what
  `ingestObject` says. -/

namespace TransferWorker

open CallTrees Stores

/-- What the ingestion functions call. -/
inductive FunctionOp where
  /-- `s3.get_object(Bucket=bucket, Key=key)["Body"].read()` -/
  | getObject (bucket key : String)
  /-- `time.strftime("%Y-%m-%dT%H:%M:%SZ", time.gmtime())` -/
  | gmtime
  /-- `batch_write_item` of the table. -/
  | batchWriteItem (items : List LineItem)
  /-- The bytes behind `storage_client.bucket(bucket).blob(name).download_as_text()`. -/
  | download (bucket name : String)
  /-- `.document(id)` -/
  | document (id : Option String)
  /-- `doc_ref.set` of a line, at the document of an order and the one of the line. -/
  | set (order item : DocumentId) (line : OrderLine) (name : String)

/-- What a call returns. -/
def FunctionOp.Res : FunctionOp → Type
  | .getObject _ _ => ByteArray
  | .gmtime => String
  -- `UnprocessedItems`
  | .batchWriteItem _ => List LineItem
  | .download _ _ => ByteArray
  | .document _ => DocumentId
  | .set _ _ _ _ => Unit

/-- The calls of the ingestion functions. -/
def functionCalls : Signature := ⟨FunctionOp, FunctionOp.Res⟩

namespace Invocation

open Program

/-- The text of a body. -/
def decode (body : ByteArray) : Except Exn String :=
  match String.fromUTF8? body with
  | none => .error (.other "UnicodeDecodeError")
  | some text => .ok text

/-- A body that is UTF-8 is decoded. -/
theorem decode_of_some {body : ByteArray} {text : String} (h : String.fromUTF8? body = some text) :
    decode body = .ok text := by rw [decode, h]

/-- A body that is not raises. -/
theorem decode_of_none {body : ByteArray} (h : String.fromUTF8? body = none) :
    decode body = .error (.other "UnicodeDecodeError") := by rw [decode, h]

/-! ## AWS -/

/-- `_flush`: the buffer afterwards, and how it ended. -/
def flush (buffer : List LineItem) : Program functionCalls Exn (List LineItem × Except Exn Unit) :=
  .call (.batchWriteItem (buffer.take BatchWriter.flushAmount)) fun
    | .ok (unprocessed : List LineItem) =>
        .ret (buffer.drop BatchWriter.flushAmount ++ unprocessed, .ok ())
    | .error e => .ret (buffer.drop BatchWriter.flushAmount, .error e)

/-- `put_item` -/
def putItem (buffer : List LineItem) (item : LineItem) :
    Program functionCalls Exn (List LineItem × Except Exn Unit) :=
  if BatchWriter.flushAmount ≤ (buffer ++ [item]).length then flush (buffer ++ [item])
  else .ret (buffer ++ [item], .ok ())

/-- The loop of `_ingest_object` over the rows. -/
def putRows (key ingestedAt : String) :
    List DictRow → List LineItem → Program functionCalls Exn (List LineItem × Except Exn Unit)
  | [], buffer => .ret (buffer, .ok ())
  | row :: rows, buffer =>
      match orderLine row with
      | .error e => .ret (buffer, .error e)
      | .ok line =>
          putItem buffer (line.item key ingestedAt) >>= fun
            | (buffer, .ok ()) => putRows key ingestedAt rows buffer
            | (buffer, .error e) => .ret (buffer, .error e)

/-- `__exit__`: flush until the buffer is empty. The time of an invocation is limited: after so many
batches it is over. -/
def exit : Nat → List LineItem → Program functionCalls Exn Unit
  | n, buffer =>
      if buffer = [] then .ret ()
      else match n with
        | 0 => .raise (.other "Sandbox.Timedout")
        | n + 1 => flush buffer >>= fun
            | (buffer, .ok ()) => exit n buffer
            | (_, .error e) => .raise e

/-- **`_ingest_object`**, with time for so many batches at the end. -/
def ingestObject (time : Nat) (bucket key : String) : Program functionCalls Exn Unit := do
  let body ← perform (S := functionCalls) (.getObject bucket key)
  let text ← ofExcept (decode body)
  let ingestedAt ← perform (S := functionCalls) .gmtime
  let (rows, readerError) := dictReader text.toList
  let (buffer, result) ← putRows key ingestedAt rows []
  exit time buffer
  ofExcept (result.bind fun _ => readerError.elim (.ok ()) .error)

/-- A record of an S3 event. -/
structure S3Record where
  /-- `record["s3"]["bucket"]["name"]` -/
  bucket : String
  /-- `record["s3"]["object"]["key"]` -/
  key : String

/-- `urllib.parse.unquote_plus` -/
def unquotePlus (text : String) : String := String.ofList (Percent.unquotePlus text.toList)

/-- **`handle_s3_event`** -/
def handleS3Event (time : Nat) : List S3Record → Program functionCalls Exn Unit
  | [] => .ret ()
  | record :: records => do
      ingestObject time record.bucket (unquotePlus record.key)
      handleS3Event time records

/-! ## GCP -/

/-- The loop of `handle_gcs_event` over the rows. -/
def setRows (name : String) : List DictRow → Program functionCalls Exn Unit
  | [] => .ret ()
  | row :: rows => do
      let orderId ← ofExcept (row.getItem "order_id")
      let order ← perform (S := functionCalls) (.document orderId)
      let sku ← ofExcept (row.getItem "sku")
      let item ← perform (S := functionCalls) (.document sku)
      let quantity ← ofExcept (row.getItem "quantity" >>= intOfCell)
      let channel ← ofExcept (row.getItem "channel")
      perform (S := functionCalls) (.set order item ⟨orderId, sku, quantity, channel⟩ name)
      setRows name rows

/-- **`handle_gcs_event`** -/
def handleGcsEvent (bucket name : String) : Program functionCalls Exn Unit :=
  if !isOrderCsv name then .ret ()
  else do
    let content ← perform (S := functionCalls) (.download bucket name)
    let text ← ofExcept (decode content)
    let (rows, readerError) := dictReader text.toList
    setRows name rows
    ofExcept (readerError.elim (.ok ()) .error)

end Invocation

/-! ## The clouds -/

/-- The id is a single part of a path. -/
def DocumentId.isSegment : DocumentId → Bool
  | .named id => !id.toList.contains '/'
  | .auto _ => true

/-- A document that was named is one segment of a path. -/
theorem Firestore.isSegment_of_document {id : Option String} {n n' : Nat} {p : DocumentId}
    (h : Firestore.document Firestore.isDocumentId n id = .ok (p, n')) : p.isSegment = true := by
  unfold Firestore.document at h
  cases id with
  | none =>
      cases h
      rfl
  | some id =>
      dsimp only at h
      split_ifs at h with hid
      cases h
      exact (Bool.and_eq_true_iff.1 hid).2

/-- The stores of both functions. -/
structure Clouds where
  /-- The `order-line-items` table. -/
  table : LineItemTable
  /-- Firestore. -/
  db : Firestore

namespace Clouds

/-- The table after the writes of some items. -/
def written (w : Clouds) (items : List LineItem) : Clouds :=
  { w with table := putAll w.table (itemWrites items) }

/-- Firestore after a write. -/
def withDocument (w : Clouds) (path : DocumentId × DocumentId) (document : LineItemDocument) : Clouds :=
  { w with db := { w.db with documents := put w.db.documents path document } }

/-- The next id that the client makes up. -/
def nextId (w : Clouds) : Clouds := { w with db := { w.db with autoIds := w.db.autoIds + 1 } }

/-- **What the write of a document may leave.** An id with slashes leads to a longer path, and the document
there is none of `documents`. -/
def Sets (w : Clouds) (order item : DocumentId) (line : OrderLine) (name : String) (w' : Clouds) : Prop :=
  if order.isSegment && item.isSegment then ∃ now, w' = w.withDocument (order, item) (line.document name now)
  else w' = w

variable (versions : Cloud → String → String → ByteArray → Prop)

/-- **What a call may answer and leave.** `versions` says what an object has ever contained. -/
def Responds (w : Clouds) : (op : FunctionOp) → Except Exn op.Res → Clouds → Prop
  | .getObject bucket key, .ok body, w' => versions .aws bucket key body ∧ w' = w
  | .gmtime, .ok _, w' => w' = w
  | .batchWriteItem items, .ok (unprocessed : List LineItem), w' =>
      GoodBatch items ∧ ∃ processed, (processed ++ unprocessed).Perm items ∧ w' = w.written processed
  -- of a batch that failed any part may have been written
  | .batchWriteItem items, .error _, w' => ∃ processed, processed.Sublist items ∧ w' = w.written processed
  | .download bucket name, .ok content, w' => versions .gcp bucket name content ∧ w' = w
  | .document id, .ok (p : DocumentId), w' =>
      match id with
      | none => p = .auto w.db.autoIds ∧ w' = w.nextId
      | some id => id ≠ "" ∧ p = .named id ∧ w' = w
  | .set order item line name, .ok _, w' =>
      Firestore.isInt64 line.quantity = true ∧ w.Sets order item line name w'
  -- nor is it known of a document
  | .set order item line name, .error _, w' => w' = w ∨ w.Sets order item line name w'
  | _, .error _, w' => w' = w

end Clouds

/-! ## Invocations without a failure -/

/-- **Clouds that fail no call**: the objects stay as they are, the clock stands still, every batch is written
as a whole or refused, and ids with slashes are refused. -/
def reliableClouds (contents : Cloud → String → String → ByteArray) (now : String) :
    Environment functionCalls Exn Clouds where
  responds w op r w' :=
    match op, r with
    | .getObject bucket key, r => r = .ok (contents .aws bucket key) ∧ w' = w
    | .gmtime, r => r = .ok now ∧ w' = w
    | .batchWriteItem items, r =>
        match batchWriteItem w.table items with
        | .ok table => r = .ok ([] : List LineItem) ∧ w' = { w with table := table }
        | .error e => r = .error e ∧ w' = w
    | .download bucket name, r => r = .ok (contents .gcp bucket name) ∧ w' = w
    | .document id, r =>
        match Firestore.document Firestore.isDocumentId w.db.autoIds id with
        | .ok (p, autoIds) => r = .ok p ∧ w' = { w with db := { w.db with autoIds := autoIds } }
        | .error e => r = .error e ∧ w' = w
    | .set order item line name, r =>
        if Firestore.isInt64 line.quantity && order.isSegment && item.isSegment then
          r = .ok () ∧ w' = w.withDocument (order, item) (line.document name now)
        else r = .error (.value "Value out of range") ∧ w' = w
  interfere _ _ := False

section reliable

open Program

variable (contents : Cloud → String → String → ByteArray) (now : String)

/-- The clouds with another table. -/
def Clouds.withTable (w : Clouds) (table : LineItemTable) : Clouds := { w with table := table }

/-- A flush against stores without faults is the one of the batch writer. -/
theorem executes_flush (w : Clouds) (buffer : List LineItem) :
    Executes (reliableClouds contents now) (Invocation.flush buffer) w
      (.ok ((BatchWriter.mk w.table buffer).flush.1.buffer, (BatchWriter.mk w.table buffer).flush.2))
      (w.withTable (BatchWriter.mk w.table buffer).flush.1.table) := by
  unfold BatchWriter.flush Invocation.flush
  dsimp only
  cases h : batchWriteItem w.table (buffer.take BatchWriter.flushAmount) with
  | ok table =>
      have hresponds : (reliableClouds contents now).responds w
          (.batchWriteItem (buffer.take BatchWriter.flushAmount)) (.ok ([] : List LineItem))
          (w.withTable table) := by
        show (match batchWriteItem w.table (buffer.take BatchWriter.flushAmount) with
          | .ok table => _ | .error e => _)
        rw [h]
        exact ⟨rfl, rfl⟩
      refine .call (.ok ([] : List LineItem)) hresponds ?_
      · show Executes _ (Program.ret (buffer.drop BatchWriter.flushAmount ++ ([] : List LineItem),
          (Except.ok () : Except Exn Unit))) _ _ _
        rw [List.append_nil]
        exact .ret
  | error e =>
      have hresponds : (reliableClouds contents now).responds w
          (.batchWriteItem (buffer.take BatchWriter.flushAmount)) (.error e) w := by
        show (match batchWriteItem w.table (buffer.take BatchWriter.flushAmount) with
          | .ok table => _ | .error e => _)
        rw [h]
        exact ⟨rfl, rfl⟩
      exact .call (.error e) hresponds .ret

/-- So is putting an item. -/
theorem executes_putItem (w : Clouds) (buffer : List LineItem) (item : LineItem) :
    Executes (reliableClouds contents now) (Invocation.putItem buffer item) w
      (.ok (((BatchWriter.mk w.table buffer).putItem item).1.buffer,
        ((BatchWriter.mk w.table buffer).putItem item).2))
      (w.withTable ((BatchWriter.mk w.table buffer).putItem item).1.table) := by
  unfold BatchWriter.putItem Invocation.putItem
  dsimp only
  split_ifs with hfull
  · exact executes_flush contents now w (buffer ++ [item])
  · exact .ret

/-- So is putting the items of all rows. -/
theorem executes_putRows (key ingestedAt : String) (rows : List DictRow) (w : Clouds)
    (buffer : List LineItem) :
    Executes (reliableClouds contents now) (Invocation.putRows key ingestedAt rows buffer) w
      (.ok ((putRows key ingestedAt rows ⟨w.table, buffer⟩).1.buffer,
        (putRows key ingestedAt rows ⟨w.table, buffer⟩).2))
      (w.withTable (putRows key ingestedAt rows ⟨w.table, buffer⟩).1.table) := by
  induction rows generalizing w buffer with
  | nil => exact .ret
  | cons row rows ih =>
      unfold Invocation.putRows putRows
      cases orderLine row with
      | error e => exact .ret
      | ok line =>
          have hput := executes_putItem contents now w buffer
            (line.item key ingestedAt)
          dsimp only
          generalize (BatchWriter.mk w.table buffer).putItem (line.item key ingestedAt) = result at hput ⊢
          obtain ⟨writer, ⟨e⟩ | ⟨⟨⟩⟩⟩ := result
          · exact hput.bind .ret
          · exact hput.bind (ih (w.withTable writer.table) writer.buffer)

/-- A batch that is not refused leaves less in the buffer. -/
theorem length_flush_lt {writer : BatchWriter} (h : writer.buffer ≠ []) :
    writer.flush.1.buffer.length < writer.buffer.length := by
  have hpos := List.length_pos_iff.2 h
  unfold BatchWriter.flush
  split
  · simp only [List.length_drop, BatchWriter.flushAmount]
    omega
  · simp only [List.length_drop, BatchWriter.flushAmount]
    omega

/-- So is the end of the batch, if there is time for what is left. -/
theorem executes_exit (time n : Nat) (w : Clouds) (buffer : List LineItem) (htime : buffer.length ≤ time)
    (hn : buffer.length ≤ n) :
    Executes (reliableClouds contents now) (Invocation.exit time buffer) w
      ((BatchWriter.mk w.table buffer).exit n).2
      (w.withTable ((BatchWriter.mk w.table buffer).exit n).1.table) := by
  induction time generalizing n w buffer with
  | zero =>
      have hempty := List.length_eq_zero_iff.1 (Nat.le_zero.1 htime)
      subst hempty
      unfold Invocation.exit
      rw [if_pos rfl]
      cases n <;> exact .ret
  | succ time ih =>
      unfold Invocation.exit
      by_cases hempty : buffer = []
      · subst hempty
        rw [if_pos rfl]
        cases n <;> exact .ret
      · obtain ⟨n, rfl⟩ := Nat.exists_eq_succ_of_ne_zero
          (Nat.pos_iff_ne_zero.1 (lt_of_lt_of_le (List.length_pos_iff.2 hempty) hn))
        rw [if_neg hempty, BatchWriter.exit, if_neg hempty]
        have hless : (BatchWriter.mk w.table buffer).flush.1.buffer.length < buffer.length :=
          length_flush_lt hempty
        have hflush := executes_flush contents now w buffer
        generalize (BatchWriter.mk w.table buffer).flush = result at hless hflush ⊢
        obtain ⟨writer, ⟨e⟩ | ⟨⟨⟩⟩⟩ := result
        · exact hflush.bind .raise
        · have hlength : writer.buffer.length < buffer.length := hless
          exact hflush.bind (ih n (w.withTable writer.table) writer.buffer (by omega) (by omega))

/-- **Where no call fails, the Lambda function does to the table what `ingestObject` says**, and ends like
it, if it has the time. -/
theorem executes_ingestObject (bucket key : String) (w : Clouds) : ∃ n, ∀ time, n ≤ time →
    Executes (reliableClouds contents now) (Invocation.ingestObject time bucket key) w
      (ingestObject (contents .aws bucket key) key now w.table).2
      (w.withTable (ingestObject (contents .aws bucket key) key now w.table).1) := by
  have hread : (reliableClouds contents now).responds w (.getObject bucket key)
      (.ok (contents .aws bucket key)) w := ⟨rfl, rfl⟩
  have hclock : (reliableClouds contents now).responds w .gmtime (.ok now) w := ⟨rfl, rfl⟩
  unfold ingestObject
  cases htext : String.fromUTF8? (contents .aws bucket key) with
  | none =>
      refine ⟨0, fun time _ => .perform_bind hread ?_⟩
      rw [Invocation.decode_of_none htext]
      exact .raise
  | some text =>
      dsimp only
      generalize hrows : dictReader text.toList = read
      obtain ⟨rows, readerError⟩ := read
      -- one round for each item still in the buffer when the rows are over
      refine ⟨(putRows key now rows ⟨w.table, []⟩).1.buffer.length, fun time htime => ?_⟩
      refine .perform_bind hread ?_
      rw [Invocation.decode_of_some htext, ofExcept_ok, ret_bind]
      refine .perform_bind hclock ?_
      rw [hrows]
      have hput := executes_putRows contents now key now rows w []
      dsimp only
      generalize putRows key now rows ⟨w.table, []⟩ = result at hput htime ⊢
      obtain ⟨writer, result⟩ := result
      refine hput.bind ?_
      have hexit := executes_exit contents now time writer.buffer.length
        (w.withTable writer.table) writer.buffer htime le_rfl
      dsimp only [Clouds.withTable] at hexit ⊢
      generalize BatchWriter.exit writer.buffer.length ⟨writer.table, writer.buffer⟩ = ending at hexit ⊢
      -- the reader's error is only met once the buffer is flushed
      obtain ⟨writer', ⟨e⟩ | ⟨⟨⟩⟩⟩ := ending
      · exact hexit.bind_error
      · exact hexit.bind .ofExcept

/-- The clouds with another Firestore. -/
def Clouds.withDb (w : Clouds) (db : Firestore) : Clouds := { w with db := db }

/-- The cells of an order line. -/
theorem orderLine_cells {row : DictRow} {line : OrderLine} (h : orderLine row = .ok line) :
    row.getItem "order_id" = .ok line.orderId ∧ row.getItem "sku" = .ok line.sku ∧
      (row.getItem "quantity" >>= intOfCell) = .ok line.quantity ∧
      row.getItem "channel" = .ok line.channel := by
  unfold orderLine at h
  obtain ⟨orderId, horder, h⟩ := exists_of_bind_eq_ok h
  obtain ⟨sku, hsku, h⟩ := exists_of_bind_eq_ok h
  obtain ⟨cell, hcell, h⟩ := exists_of_bind_eq_ok h
  obtain ⟨quantity, hquantity, h⟩ := exists_of_bind_eq_ok h
  obtain ⟨channel, hchannel, h⟩ := exists_of_bind_eq_ok h
  cases h
  exact ⟨horder, hsku, by rw [hcell]; exact hquantity, hchannel⟩

variable {now} in
/-- What is needed to write the document of a row. -/
theorem setRow_eq_ok {db db' : Firestore} {name : String} {row : DictRow}
    (h : db.setRow Firestore.isDocumentId name now row = .ok db') :
    ∃ line order item n n', orderLine row = .ok line ∧
      Firestore.document Firestore.isDocumentId db.autoIds line.orderId = .ok (order, n) ∧
      Firestore.document Firestore.isDocumentId n line.sku = .ok (item, n') ∧
      Firestore.isInt64 line.quantity = true ∧
      db' = ⟨put db.documents (order, item) (line.document name now), n'⟩ := by
  unfold Firestore.setRow at h
  obtain ⟨line, hline, h⟩ := exists_of_bind_eq_ok h
  obtain ⟨⟨order, n⟩, horder, h⟩ := exists_of_bind_eq_ok h
  obtain ⟨⟨item, n'⟩, hitem, h⟩ := exists_of_bind_eq_ok h
  dsimp only at h
  split_ifs at h with hint
  cases h
  exact ⟨line, order, item, n, n', hline, horder, hitem, hint, rfl⟩

/-- A document is named as Firestore names it. -/
theorem executes_document {w : Clouds} {id : Option String} {p : DocumentId} {n : Nat}
    (h : Firestore.document Firestore.isDocumentId w.db.autoIds id = .ok (p, n)) :
    (reliableClouds contents now).responds w (.document id) (.ok p)
      (w.withDb { w.db with autoIds := n }) := by
  show (match Firestore.document Firestore.isDocumentId w.db.autoIds id with
    | .ok (p, autoIds) => _ | .error e => _)
  rw [h]
  exact ⟨rfl, rfl⟩

/-- The documents of all rows are set as Firestore sets them. -/
theorem executes_setRows {name : String} (rows : List DictRow) {w : Clouds} {db : Firestore}
    (h : w.db.setRows Firestore.isDocumentId name now rows = (db, .ok ())) :
    Executes (reliableClouds contents now) (Invocation.setRows name rows) w (.ok ()) (w.withDb db) := by
  induction rows generalizing w with
  | nil =>
      cases h
      exact .ret
  | cons row rows ih =>
      unfold Firestore.setRows at h
      cases hrow : w.db.setRow Firestore.isDocumentId name now row with
      | error e =>
          rw [hrow] at h
          cases h
      | ok db' =>
          rw [hrow] at h
          obtain ⟨line, order, item, n, n', hline, horder, hitem, hint, rfl⟩ := setRow_eq_ok hrow
          obtain ⟨h₁, h₂, h₃, h₄⟩ := orderLine_cells hline
          unfold Invocation.setRows
          rw [h₁, h₂, h₃, h₄]
          simp only [ofExcept_ok, ret_bind]
          refine .perform_bind (executes_document contents now horder)
            (.perform_bind (executes_document contents now hitem) ?_)
          -- the ids have no slash, so the document is where it belongs
          have hset : (reliableClouds contents now).responds
              ((w.withDb { w.db with autoIds := n }).withDb { w.db with autoIds := n' })
              (.set order item line name) (.ok ())
              (w.withDb ⟨put w.db.documents (order, item) (line.document name now), n'⟩) := by
            have hsegments : (Firestore.isInt64 line.quantity && order.isSegment && item.isSegment) = true := by
              rw [hint, Firestore.isSegment_of_document horder, Firestore.isSegment_of_document hitem]
              rfl
            show (if Firestore.isInt64 line.quantity && order.isSegment && item.isSegment then _ else _)
            rw [if_pos hsegments]
            exact ⟨rfl, rfl⟩
          exact .perform_bind hset (ih h)

/-- **Where no call fails, the Cloud Function completes the objects that `handleGcsEvent` completes**, and
leaves the same documents. -/
theorem executes_handleGcsEvent {bucket name : String} {w : Clouds} {db : Firestore}
    (h : handleGcsEvent Firestore.isDocumentId (contents .gcp bucket name) name now w.db = (db, .ok ())) :
    Executes (reliableClouds contents now) (Invocation.handleGcsEvent bucket name) w (.ok ())
      (w.withDb db) := by
  unfold handleGcsEvent at h
  unfold Invocation.handleGcsEvent
  split_ifs at h ⊢ with htaken
  · cases h
    exact .ret
  · have hread : (reliableClouds contents now).responds w (.download bucket name)
        (.ok (contents .gcp bucket name)) w := ⟨rfl, rfl⟩
    refine .perform_bind hread ?_
    cases htext : String.fromUTF8? (contents .gcp bucket name) with
    | none =>
        rw [htext] at h
        cases h
    | some text =>
        rw [htext] at h
        rw [Invocation.decode_of_some htext, ofExcept_ok, ret_bind]
        dsimp only at h ⊢
        generalize dictReader text.toList = read at h ⊢
        obtain ⟨rows, readerError⟩ := read
        -- the documents before a row that fails stay, so success needs every row
        cases hrows : w.db.setRows Firestore.isDocumentId name now rows with
        | mk db' result =>
            rw [hrows] at h
            obtain ⟨rfl, hresult⟩ := Prod.mk.inj h
            cases result with
            | error e => cases hresult
            | ok u =>
                cases readerError with
                | some e => cases hresult
                | none => exact (executes_setRows contents now rows hrows).bind .ret

end reliable

end TransferWorker
