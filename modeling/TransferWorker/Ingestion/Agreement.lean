import TransferWorker.Ingestion.Functions
import TransferWorker.Json.RoundTrip

/-! # The two clouds

Whether the ingestion functions agree on an object: both raise or both complete, and when both complete
they have written the same quantities and channels under the same keys.

* **`ingestObject_ok_iff`**, `handleGcsEvent_ok_iff` — which objects each of them completes, and what it
  leaves in its store.
* **`ingestion_agrees_iff`** — on which objects they agree. -/

namespace TransferWorker

open Stores

variable {accepts : String → Bool} {key ingestedAt name now : String} {rows : List DictRow}
  {lines : List OrderLine} {table table' : LineItemTable}

/-! ## Rows -/

/-- The order lines of a row and of the rows after it. -/
theorem mapM_orderLine_cons {row : DictRow} : (row :: rows).mapM orderLine = .ok lines ↔
    ∃ line rest, orderLine row = .ok line ∧ rows.mapM orderLine = .ok rest ∧ lines = line :: rest := by
  rw [List.mapM_cons]
  cases orderLine row with
  | error e => simp [bind, Except.bind]
  | ok line =>
      cases rows.mapM orderLine with
      | error e => simp [bind, Except.bind]
      | ok rest => simp [bind, Except.bind, pure, Except.pure, eq_comm]

/-- The items of the lines of an object. -/
def itemsOf (key ingestedAt : String) (lines : List OrderLine) : List LineItem :=
  lines.map fun line => line.item key ingestedAt

/-! ## AWS -/

/-- A batch is written as a whole if it is a good one. -/
theorem batchWriteItem_eq_ok {items : List LineItem} : batchWriteItem table items = .ok table' ↔
    GoodBatch items ∧ table' = putAll table (itemWrites items) := by
  unfold batchWriteItem
  split
  · rename_i hgood
    simp [hgood, eq_comm]
  · rename_i hbad
    simp [hbad]

/-- The writes of two batches. -/
theorem itemWrites_append (items items' : List LineItem) :
    itemWrites (items ++ items') = itemWrites items ++ itemWrites items' := List.filterMap_append

namespace BatchWriter

/-- Sending a buffer that fits into one batch. -/
theorem flush_eq_ok {w w' : BatchWriter} (h : w.buffer.length ≤ flushAmount) :
    w.flush = (w', .ok ()) ↔
      GoodBatch w.buffer ∧ w' = ⟨putAll w.table (itemWrites w.buffer), []⟩ := by
  unfold flush
  rw [List.take_of_length_le h, List.drop_eq_nil_of_le h]
  cases hbatch : batchWriteItem w.table w.buffer with
  | ok table =>
      obtain ⟨hgood, rfl⟩ := batchWriteItem_eq_ok.1 hbatch
      simp [hgood, eq_comm]
  | error e =>
      have hbad : ¬GoodBatch w.buffer := fun hgood => by
        rw [batchWriteItem_eq_ok.2 ⟨hgood, rfl⟩] at hbatch
        cases hbatch
      simp [hbad]

/-- The end of the batch writer: at most one batch is left. -/
theorem exit_eq_ok {w : BatchWriter} (h : w.buffer.length ≤ flushAmount) :
    (∃ w', w.exit w.buffer.length = (w', .ok ()) ∧ w'.table = table') ↔
      (∀ batch ∈ chunks 24 w.buffer, GoodBatch batch) ∧
        table' = putAll w.table (itemWrites w.buffer) := by
  by_cases hempty : w.buffer = []
  · have hexit : w.exit w.buffer.length = (w, .ok ()) := by
      rw [hempty]
      rfl
    rw [hexit, hempty]
    simp [itemWrites, eq_comm]
  · rw [chunks_of_le hempty h]
    obtain ⟨n, hn⟩ := Nat.exists_eq_succ_of_ne_zero (List.length_pos_iff.2 hempty).ne'
    rw [hn, exit, if_neg hempty]
    simp only [List.mem_singleton, forall_eq]
    constructor
    · rintro ⟨w', hexit, rfl⟩
      split at hexit
      · rename_i w₁ hflush
        obtain ⟨hgood, rfl⟩ := (flush_eq_ok h).1 hflush
        have hdone : BatchWriter.exit n ⟨putAll w.table (itemWrites w.buffer), []⟩ =
            (⟨putAll w.table (itemWrites w.buffer), []⟩, .ok ()) := by cases n <;> rfl
        rw [hdone, Prod.mk.injEq] at hexit
        exact ⟨hgood, by rw [← hexit.1]⟩
      · cases hexit
    · rintro ⟨hgood, rfl⟩
      rw [(flush_eq_ok h).2 ⟨hgood, rfl⟩]
      exact ⟨_, by cases n <;> rfl, rfl⟩

end BatchWriter

/-- **The loop and the end of the batch writer**: it gets through exactly if all rows are order lines and
all batches, of what was buffered and what is put, are good; then everything is in the table. -/
theorem putRows_eq_ok (key ingestedAt : String) (rows : List DictRow) (table' : LineItemTable)
    {w : BatchWriter} (h : w.buffer.length < BatchWriter.flushAmount) :
    (∃ w' w'', putRows key ingestedAt rows w = (w', .ok ()) ∧
        w'.exit w'.buffer.length = (w'', .ok ()) ∧ w''.table = table') ↔
      ∃ lines, rows.mapM orderLine = .ok lines ∧
        (∀ batch ∈ chunks 24 (w.buffer ++ itemsOf key ingestedAt lines), GoodBatch batch) ∧
        table' = putAll w.table (itemWrites (w.buffer ++ itemsOf key ingestedAt lines)) := by
  induction rows generalizing w with
  | nil =>
      have hrows : ∀ lines, ([] : List DictRow).mapM orderLine = .ok lines ↔ lines = [] := by
        simp [pure, Except.pure, eq_comm]
      simp only [hrows, exists_eq_left, itemsOf, List.map_nil, List.append_nil]
      rw [← BatchWriter.exit_eq_ok h.le]
      simp [putRows]
  | cons row rows ih =>
      cases hline : orderLine row with
      -- the row raises, so neither the loop nor the lines complete
      | error e =>
          refine iff_of_false ?_ ?_
          · rintro ⟨w', w'', hput, -⟩
            rw [putRows, hline] at hput
            cases hput
          · rintro ⟨lines, hlines, -⟩
            obtain ⟨line, rest, hok, -⟩ := mapM_orderLine_cons.1 hlines
            rw [hline] at hok
            cases hok
      | ok line =>
          have hmap : ∀ P : List OrderLine → Prop,
              (∃ lines, (row :: rows).mapM orderLine = .ok lines ∧ P lines) ↔
                ∃ rest, rows.mapM orderLine = .ok rest ∧ P (line :: rest) := fun P => by
            constructor
            · rintro ⟨lines, hlines, hP⟩
              obtain ⟨line', rest, hok, hrest, rfl⟩ := mapM_orderLine_cons.1 hlines
              cases hline.symm.trans hok
              exact ⟨rest, hrest, hP⟩
            · rintro ⟨rest, hrest, hP⟩
              exact ⟨_, mapM_orderLine_cons.2 ⟨line, rest, hline, hrest, rfl⟩, hP⟩
          rw [hmap]
          simp only [putRows, hline]
          -- the item of the row goes to the end of the buffer
          have hsplit : ∀ rest, w.buffer ++ itemsOf key ingestedAt (line :: rest) =
              (w.buffer ++ [line.item key ingestedAt]) ++ itemsOf key ingestedAt rest :=
            fun rest => by simp [itemsOf]
          simp only [hsplit]
          by_cases hfull : BatchWriter.flushAmount ≤ (w.buffer ++ [line.item key ingestedAt]).length
          · -- the buffer is full and is sent
            have hlength : (w.buffer ++ [line.item key ingestedAt]).length = 24 + 1 := by
              rw [List.length_append, List.length_singleton] at hfull ⊢
              simp only [BatchWriter.flushAmount] at h hfull
              omega
            have hput : w.putItem (line.item key ingestedAt) =
                BatchWriter.flush ⟨w.table, w.buffer ++ [line.item key ingestedAt]⟩ := if_pos hfull
            simp only [hput, chunks_append hlength, List.forall_mem_cons, itemWrites_append, putAll_append]
            by_cases hgood : GoodBatch (w.buffer ++ [line.item key ingestedAt])
            · have hflush := (BatchWriter.flush_eq_ok
                (w := ⟨w.table, w.buffer ++ [line.item key ingestedAt]⟩) hlength.le).2 ⟨hgood, rfl⟩
              have hrest := ih (w := ⟨putAll w.table (itemWrites (w.buffer ++ [line.item key ingestedAt])), []⟩)
                (Nat.zero_lt_succ _)
              simp only [hflush, hgood, true_and]
              rw [hrest]
              simp only [List.nil_append, itemWrites_append, putAll_append]
            · refine iff_of_false ?_ ?_
              · rintro ⟨w', w'', hrows, -⟩
                split at hrows
                · rename_i w₁ hflush
                  exact hgood ((BatchWriter.flush_eq_ok hlength.le).1 hflush).1
                · cases hrows
              · rintro ⟨rest, -, hbatches, -⟩
                exact hgood hbatches.1
          · have hput : w.putItem (line.item key ingestedAt) =
                (⟨w.table, w.buffer ++ [line.item key ingestedAt]⟩, .ok ()) := if_neg hfull
            simp only [hput]
            exact ih (w := ⟨w.table, w.buffer ++ [line.item key ingestedAt]⟩) (not_le.1 hfull)

/-- **What `_ingest_object` completes**: the objects all of whose rows are order lines and all of whose
batches are good. -/
theorem ingestObject_ok_iff {body : ByteArray} {text : String}
    (htext : String.fromUTF8? body = some text) :
    ingestObject body key ingestedAt table = (table', .ok ()) ↔
      ∃ lines, orderLines text.toList = .ok lines ∧
        (∀ batch ∈ chunks 24 (itemsOf key ingestedAt lines), GoodBatch batch) ∧
        table' = putAll table (itemWrites (itemsOf key ingestedAt lines)) := by
  unfold ingestObject orderLines
  rw [htext]
  cases hread : dictReader text.toList with
  | mk rows e =>
      cases hloop : putRows key ingestedAt rows ⟨table, []⟩ with
      | mk w' result =>
          cases hexit : w'.exit w'.buffer.length with
          | mk w'' exitResult =>
              have hrows := putRows_eq_ok key ingestedAt rows table' (w := ⟨table, []⟩)
                (Nat.zero_lt_succ _)
              simp only [hloop, List.nil_append] at hrows
              simp only [hread, hloop, hexit]
              cases e with
              | some e =>
                  -- the reader's exception comes last
                  cases exitResult <;> cases result <;> simp [Except.bind]
              | none =>
                  rw [← hrows]
                  cases exitResult <;> cases result <;> simp [Except.bind, hexit]

/-! ## GCP -/

/-- The ids of a line, as far as it has any, are ids that the client accepts. -/
def OrderLine.Addressable (accepts : String → Bool) (line : OrderLine) : Prop :=
  ∀ id, line.orderId = some id ∨ line.sku = some id → accepts id = true

/-- Both ids of a line. -/
def OrderLine.path? (line : OrderLine) : Option (String × String) :=
  match line.orderId, line.sku with
  | some orderId, some sku => some (orderId, sku)
  | _, _ => none

/-- The path of a line is its two ids. -/
theorem OrderLine.path_eq_some {line : OrderLine} {path : String × String} :
    line.path? = some path ↔ (line.orderId, line.sku) = (some path.1, some path.2) := by
  obtain ⟨orderId, sku⟩ := path
  rcases line with ⟨_ | o, _ | s, quantity, channel⟩ <;> simp [OrderLine.path?]

/-- The document of a line. -/
def OrderLine.document (line : OrderLine) (name now : String) : LineItemDocument :=
  ⟨line.sku, line.quantity, line.channel, name, now⟩

/-- The writes of the lines that have both ids. -/
def documentWrites (name now : String) (lines : List OrderLine) :
    List ((String × String) × LineItemDocument) :=
  lines.filterMap fun line => line.path?.map fun path => (path, line.document name now)

/-- Two ids in the path of a document. -/
def documentPath (path : String × String) : DocumentId × DocumentId := (.named path.1, .named path.2)

/-- Different paths are different documents. -/
theorem documentPath_injective : Function.Injective documentPath := by
  rintro ⟨orderId, sku⟩ ⟨orderId', sku'⟩ h
  simpa [documentPath] using h

namespace Firestore

variable {db db' : Firestore}

/-- The texts that are one part of a path are what is assumed of the client. -/
theorem plainIds_isDocumentId : PlainIds isDocumentId := fun id => by simp [isDocumentId]

/-- A document can be named unless its id is refused. -/
theorem document_ok_iff {n : Nat} {id : Option String} :
    (∃ p, document accepts n id = .ok p) ↔ ∀ s, id = some s → accepts s = true := by
  cases id with
  | none => simp [document]
  | some s => cases hs : accepts s <;> simp [document, hs]

/-- The rows that are written. -/
theorem setRow_ok_iff (accepts : String → Bool) (db : Firestore) (name now : String) (row : DictRow) :
    (∃ db', db.setRow accepts name now row = .ok db') ↔
    ∃ line, orderLine row = .ok line ∧ line.Addressable accepts ∧ isInt64 line.quantity = true := by
  unfold setRow
  cases orderLine row with
  | error e => simp [bind, Except.bind]
  | ok line =>
      have haddr : line.Addressable accepts ↔ (∀ s, line.orderId = some s → accepts s = true) ∧
          ∀ s, line.sku = some s → accepts s = true := by
        simp only [OrderLine.Addressable, or_imp, forall_and]
      simp only [bind, Except.bind, Except.ok.injEq, exists_eq_left', haddr]
      rw [← document_ok_iff (n := db.autoIds)]
      cases document accepts db.autoIds line.orderId with
      | error e => simp
      | ok p =>
          rw [← document_ok_iff (n := p.2)]
          cases hsku : document accepts p.2 line.sku with
          | error e => simp [hsku]
          | ok q => cases isInt64 line.quantity <;> simp [hsku, pure, Except.pure]

/-- Where a row with both ids is written. -/
theorem documents_of_setRow {row : DictRow} {line : OrderLine} {path : String × String}
    (h : db.setRow accepts name now row = .ok db') (hline : orderLine row = .ok line)
    (hpath : line.path? = some path) :
    db'.documents = put db.documents (documentPath path) (line.document name now) := by
  rcases line with ⟨_ | orderId, _ | sku, quantity, channel⟩ <;> cases hpath
  unfold setRow at h
  simp only [hline, bind, Except.bind, document] at h
  split at h
  · cases h
  · rename_i p hp
    split at hp <;> cases hp
    split at h
    · cases h
    · rename_i q hq
      split at hq <;> cases hq
      split at h <;> cases h
      rfl

/-- The loop gets through exactly if all rows are written. -/
theorem setRows_ok_iff (accepts : String → Bool) (db : Firestore) (name now : String) (rows : List DictRow) :
    (db.setRows accepts name now rows).2 = .ok () ↔
    ∃ lines, rows.mapM orderLine = .ok lines ∧
      ∀ line ∈ lines, line.Addressable accepts ∧ isInt64 line.quantity = true := by
  induction rows generalizing db with
  | nil => simp [setRows, pure, Except.pure]
  | cons row rows ih =>
      rw [setRows]
      cases hrow : db.setRow accepts name now row with
      | ok db' =>
          obtain ⟨line, hline, hgood⟩ := (setRow_ok_iff accepts db name now row).1 ⟨db', hrow⟩
          show (setRows accepts name now rows db').2 = .ok () ↔ _
          rw [ih]
          constructor
          · rintro ⟨rest, hrest, hall⟩
            exact ⟨_, mapM_orderLine_cons.2 ⟨line, rest, hline, hrest, rfl⟩,
              List.forall_mem_cons.2 ⟨hgood, hall⟩⟩
          · rintro ⟨lines, hlines, hall⟩
            obtain ⟨_, rest, -, hrest, rfl⟩ := mapM_orderLine_cons.1 hlines
            exact ⟨rest, hrest, (List.forall_mem_cons.1 hall).2⟩
      | error e =>
          refine iff_of_false (by simp) ?_
          rintro ⟨lines, hlines, hall⟩
          obtain ⟨line, rest, hline, -, rfl⟩ := mapM_orderLine_cons.1 hlines
          obtain ⟨db', hok⟩ := (setRow_ok_iff accepts db name now row).2
            ⟨line, hline, (List.forall_mem_cons.1 hall).1⟩
          rw [hrow] at hok
          cases hok

/-- What the loop leaves, if all rows have both ids. -/
theorem documents_of_setRows (h : (db.setRows accepts name now rows).2 = .ok ())
    (hlines : rows.mapM orderLine = .ok lines) (hpaths : ∀ line ∈ lines, line.path? ≠ none) :
    (db.setRows accepts name now rows).1.documents =
      putAll db.documents ((documentWrites name now lines).map fun w => (documentPath w.1, w.2)) := by
  induction rows generalizing db lines with
  | nil =>
      simp only [List.mapM_nil, pure, Except.pure, Except.ok.injEq] at hlines
      subst hlines
      rfl
  | cons row rows ih =>
      obtain ⟨line, rest, hline, hrest, rfl⟩ := mapM_orderLine_cons.1 hlines
      rw [List.forall_mem_cons] at hpaths
      obtain ⟨path, hpath⟩ := Option.ne_none_iff_exists'.1 hpaths.1
      rw [setRows] at h ⊢
      cases hrow : db.setRow accepts name now row with
      | error e =>
          rw [hrow] at h
          cases h
      | ok db' =>
          rw [hrow] at h
          show (setRows accepts name now rows db').1.documents = _
          have hwrites : documentWrites name now (line :: rest) =
              (path, line.document name now) :: documentWrites name now rest :=
            List.filterMap_cons_some (by rw [hpath]; rfl)
          rw [ih h hrest hpaths.2, documents_of_setRow hrow hline hpath, hwrites, List.map_cons, putAll_cons]

end Firestore

/-- **What `handle_gcs_event` completes**: the objects all of whose rows are order lines with ids that
documents can have, if any. -/
theorem handleGcsEvent_ok_iff {content : ByteArray} {text : String} {db : Firestore}
    (hname : isOrderCsv name = true) (htext : String.fromUTF8? content = some text) :
    (handleGcsEvent accepts content name now db).2 = .ok () ↔
      ∃ lines, orderLines text.toList = .ok lines ∧
        ∀ line ∈ lines, line.Addressable accepts ∧ Firestore.isInt64 line.quantity = true := by
  unfold handleGcsEvent orderLines
  rw [htext, hname]
  cases hread : dictReader text.toList with
  | mk rows e =>
      have hrows := Firestore.setRows_ok_iff accepts db name now rows
      simp only [hread, Bool.not_true, Bool.false_eq_true, if_false]
      cases e with
      | some e => cases (db.setRows accepts name now rows).2 <;> simp [Except.bind]
      | none =>
          rw [← hrows]
          cases (db.setRows accepts name now rows).2 <;> simp [Except.bind]

/-- What it leaves, if all rows have both ids. -/
theorem handleGcsEvent_documents {content : ByteArray} {text : String} {db : Firestore}
    (hname : isOrderCsv name = true) (htext : String.fromUTF8? content = some text)
    (h : (handleGcsEvent accepts content name now db).2 = .ok ()) (hlines : orderLines text.toList = .ok lines)
    (hpaths : ∀ line ∈ lines, line.path? ≠ none) :
    (handleGcsEvent accepts content name now db).1.documents =
      putAll db.documents ((documentWrites name now lines).map fun w => (documentPath w.1, w.2)) := by
  unfold handleGcsEvent at h ⊢
  unfold orderLines at hlines
  rw [htext, hname] at h
  rw [htext, hname]
  cases hread : dictReader text.toList with
  | mk rows e =>
      simp only [hread] at hlines
      simp only [hread, Bool.not_true, Bool.false_eq_true, if_false] at h ⊢
      cases e with
      | some e => cases hlines
      | none =>
          refine Firestore.documents_of_setRows ?_ hlines hpaths
          cases hresult : (db.setRows accepts name now rows).2 with
          | ok u => rfl
          | error e =>
              rw [hresult] at h
              cases h

/-! ## The comparison -/

/-- **The functions agree** on an object: both raise or both complete, and when both complete they have
written the same quantities and channels for the same orders and stock keeping units. -/
structure IngestionAgrees (accepts : String → Bool) (content : ByteArray) (name ingestedAt now : String) :
    Prop where
  /-- Both complete or both raise. -/
  ends : (ingestObject content name ingestedAt .empty).2 = .ok () ↔
    (handleGcsEvent accepts content name now ⟨.empty, 0⟩).2 = .ok ()
  /-- The tables. -/
  tables : (ingestObject content name ingestedAt .empty).2 = .ok () →
    (handleGcsEvent accepts content name now ⟨.empty, 0⟩).2 = .ok () → ∀ path : String × String,
      ((ingestObject content name ingestedAt .empty).1 path).map (fun i => (i.quantity, i.channel)) =
        ((handleGcsEvent accepts content name now ⟨.empty, 0⟩).1.documents (documentPath path)).map
          fun d => (d.quantity, d.channel)

/-- An id is missing: the row has no cell for it. -/
def OrderLine.Missing (line : OrderLine) : Prop := line.orderId = none ∨ line.sku = none

/-- An id is empty. -/
def OrderLine.Empty (line : OrderLine) : Prop := line.orderId = some "" ∨ line.sku = some ""

/-- An id has a slash in it. -/
def OrderLine.Slashed (line : OrderLine) : Prop :=
  ∃ id, (line.orderId = some id ∨ line.sku = some id) ∧ '/' ∈ id.toList

/-- Two of 25 rows that are sent together have the same ids. -/
def RepeatsInBatch (lines : List OrderLine) : Prop :=
  ∃ batch ∈ chunks 24 lines, ¬(batch.map fun line => (line.orderId, line.sku)).Nodup

/-- A line can be addressed if its ids are neither empty nor have a slash. -/
theorem OrderLine.addressable_iff (hids : Firestore.PlainIds accepts) {line : OrderLine} :
    line.Addressable accepts ↔ ¬line.Empty ∧ ¬line.Slashed := by
  constructor
  · intro h
    refine ⟨?_, ?_⟩
    · rintro (hid | hid)
      · exact ((hids "").1 (h "" (.inl hid))).1 rfl
      · exact ((hids "").1 (h "" (.inr hid))).1 rfl
    · rintro ⟨id, hid, hslash⟩
      exact ((hids id).1 (h id hid)).2 hslash
  · rintro ⟨hempty, hslash⟩ id hid
    have hne : id ≠ "" := by
      rintro rfl
      exact hempty hid
    exact (hids id).2 ⟨hne, fun hmem => hslash ⟨id, hid, hmem⟩⟩

/-- The lines whose items have a key. -/
theorem OrderLine.key_ne_none_iff {line : OrderLine} :
    (line.item key ingestedAt).key? ≠ none ↔ ¬line.Missing ∧ ¬line.Empty := by
  rcases line with ⟨_ | orderId, _ | sku, quantity, channel⟩ <;>
    simp [OrderLine.item, LineItem.key?, OrderLine.Missing, OrderLine.Empty]

/-- The key of an item that has one is made of both ids of the line. -/
theorem OrderLine.key_eq_path {line : OrderLine} (h : (line.item key ingestedAt).key? ≠ none) :
    (line.item key ingestedAt).key? = line.path? := by
  rcases line with ⟨_ | orderId, _ | sku, quantity, channel⟩ <;>
    simp_all [OrderLine.item, LineItem.key?, OrderLine.path?]

/-- A line has a path if neither id is missing. -/
theorem OrderLine.path_ne_none_iff {line : OrderLine} : line.path? ≠ none ↔ ¬line.Missing := by
  rcases line with ⟨_ | orderId, _ | sku, quantity, channel⟩ <;>
    simp [OrderLine.path?, OrderLine.Missing]

/-- Of items that have keys, no two have the same exactly if no two lines have the same ids. -/
theorem nodup_keys_iff (h : ∀ line ∈ lines, (line.item key ingestedAt).key? ≠ none) :
    ((itemsOf key ingestedAt lines).map LineItem.key?).Nodup ↔
      (lines.map fun line => (line.orderId, line.sku)).Nodup := by
  have hids : ∀ line line' : OrderLine, line.path? ≠ none →
      (line.path? = line'.path? ↔ (line.orderId, line.sku) = (line'.orderId, line'.sku)) := by
    rintro ⟨_ | o, _ | s, _, _⟩ ⟨_ | o', _ | s', _, _⟩ hne <;> simp_all [OrderLine.path?]
  simp only [itemsOf, List.Nodup, List.map_map, List.pairwise_map, Function.comp_apply]
  constructor
  · intro hkeys
    refine hkeys.imp_of_mem fun {line line'} hmem hmem' hne heq => hne ?_
    have hpath : line.path? ≠ none := OrderLine.key_eq_path (h line hmem) ▸ h line hmem
    rw [OrderLine.key_eq_path (h line hmem), OrderLine.key_eq_path (h line' hmem')]
    exact (hids line line' hpath).2 heq
  · intro hlines
    refine hlines.imp_of_mem fun {line line'} hmem hmem' hne heq => hne ?_
    rw [OrderLine.key_eq_path (h line hmem), OrderLine.key_eq_path (h line' hmem')] at heq
    exact (hids line line' (OrderLine.key_eq_path (h line hmem) ▸ h line hmem)).1 heq

/-- A number that Firestore can hold is one that DynamoDB can hold. -/
theorem natAbs_lt_of_isInt64 {q : Int} (h : Firestore.isInt64 q = true) : q.natAbs < 10 ^ 38 := by
  simp only [Firestore.isInt64, Bool.and_eq_true, decide_eq_true_eq] at h
  omega

/-- When all batches of an object are good. -/
theorem goodBatches_iff (key ingestedAt : String)
    (hfits : ∀ line ∈ lines, line.quantity.natAbs < 10 ^ 38) :
    (∀ batch ∈ chunks 24 (itemsOf key ingestedAt lines), GoodBatch batch) ↔
      (∀ line ∈ lines, ¬line.Missing ∧ ¬line.Empty) ∧ ¬RepeatsInBatch lines := by
  have hmem : ∀ line, line ∈ lines ↔ ∃ batch ∈ chunks 24 lines, line ∈ batch := fun line => by
    rw [← List.mem_flatten, flatten_chunks]
  simp only [itemsOf, chunks_map, List.forall_mem_map]
  constructor
  · intro h
    refine ⟨fun line hline => ?_, ?_⟩
    · obtain ⟨batch, hbatch, hin⟩ := (hmem line).1 hline
      exact OrderLine.key_ne_none_iff.1 ((h batch hbatch).keyed _ (List.mem_map_of_mem hin))
    · rintro ⟨batch, hbatch, hrepeat⟩
      refine hrepeat ((nodup_keys_iff fun line hline => ?_).1 (h batch hbatch).nodup)
      exact (h batch hbatch).keyed _ (List.mem_map_of_mem hline)
  · rintro ⟨hkeys, hnodup⟩ batch hbatch
    have hkeyed : ∀ line ∈ batch, (line.item key ingestedAt).key? ≠ none := fun line hline =>
      OrderLine.key_ne_none_iff.2 (hkeys line ((hmem line).2 ⟨batch, hbatch, hline⟩))
    refine ⟨List.forall_mem_map.2 hkeyed, (nodup_keys_iff hkeyed).2 ?_, List.forall_mem_map.2 fun line hline => ?_⟩
    · by_contra hrepeat
      exact hnodup ⟨batch, hbatch, hrepeat⟩
    · exact hfits line ((hmem line).2 ⟨batch, hbatch, hline⟩)

/-- What both have written for lines that have keys. -/
theorem mapValues_writes (h : ∀ line ∈ lines, (line.item key ingestedAt).key? ≠ none) :
    mapValues (fun i => (i.quantity, i.channel)) (itemWrites (itemsOf key ingestedAt lines)) =
      mapValues (fun d => (d.quantity, d.channel)) (documentWrites name now lines) := by
  simp only [mapValues, itemWrites, itemsOf, documentWrites, List.filterMap_map, List.map_filterMap]
  refine List.filterMap_congr fun line hline => ?_
  simp only [Function.comp_apply, OrderLine.key_eq_path (h line hline), Option.map_map]
  rfl

section agreement

variable {content : ByteArray} {text : String}

/-- What a completed run of `_ingest_object` has read and written. -/
theorem ingestObject_of_ok (htext : String.fromUTF8? content = some text)
    (h : (ingestObject content name ingestedAt table).2 = .ok ()) :
    ∃ lines, orderLines text.toList = .ok lines ∧
      (∀ batch ∈ chunks 24 (itemsOf name ingestedAt lines), GoodBatch batch) ∧
      (ingestObject content name ingestedAt table).1 =
        putAll table (itemWrites (itemsOf name ingestedAt lines)) := by
  have heq : ingestObject content name ingestedAt table =
      ((ingestObject content name ingestedAt table).1, .ok ()) := Prod.ext rfl h
  exact (ingestObject_ok_iff htext).1 heq

/-- **When `_ingest_object` completes**, by the ids of the lines. -/
theorem ingestObject_completes_iff (htext : String.fromUTF8? content = some text)
    (hread : orderLines text.toList = .ok lines)
    (hfits : ∀ line ∈ lines, Firestore.isInt64 line.quantity = true) :
    (ingestObject content name ingestedAt table).2 = .ok () ↔
      (¬∃ line ∈ lines, line.Empty) ∧ ¬((∃ line ∈ lines, line.Missing) ∨ RepeatsInBatch lines) := by
  have hgood := goodBatches_iff name ingestedAt fun line hline => natAbs_lt_of_isInt64 (hfits line hline)
  constructor
  · intro h
    obtain ⟨_, hlines, hbatches, -⟩ := ingestObject_of_ok htext h
    cases hread.symm.trans hlines
    obtain ⟨hkeys, hrepeat⟩ := hgood.1 hbatches
    refine ⟨?_, ?_⟩
    · rintro ⟨line, hline, hempty⟩
      exact (hkeys line hline).2 hempty
    · rintro (⟨line, hline, hmissing⟩ | hbatch)
      · exact (hkeys line hline).1 hmissing
      · exact hrepeat hbatch
  · rintro ⟨hempty, hmissing⟩
    have hbatches := hgood.2 ⟨fun line hline => ⟨fun h => hmissing (.inl ⟨line, hline, h⟩),
      fun h => hempty ⟨line, hline, h⟩⟩, fun h => hmissing (.inr h)⟩
    rw [(ingestObject_ok_iff htext).2 ⟨lines, hread, hbatches, rfl⟩]

/-- **When `handle_gcs_event` completes**, by the ids of the lines. -/
theorem handleGcsEvent_completes_iff {db : Firestore} (hids : Firestore.PlainIds accepts)
    (hname : isOrderCsv name = true) (htext : String.fromUTF8? content = some text)
    (hread : orderLines text.toList = .ok lines)
    (hfits : ∀ line ∈ lines, Firestore.isInt64 line.quantity = true) :
    (handleGcsEvent accepts content name now db).2 = .ok () ↔
      (¬∃ line ∈ lines, line.Empty) ∧ ¬∃ line ∈ lines, line.Slashed := by
  rw [handleGcsEvent_ok_iff hname htext]
  simp only [hread, Except.ok.injEq, exists_eq_left', OrderLine.addressable_iff hids, not_exists, not_and]
  constructor
  · intro h
    exact ⟨fun line hline => (h line hline).1.1, fun line hline => (h line hline).1.2⟩
  · rintro ⟨hempty, hslash⟩ line hline
    exact ⟨⟨hempty line hline, hslash line hline⟩, hfits line hline⟩

/-- **When both complete they have written the same.** -/
theorem tables_agree (hname : isOrderCsv name = true) (htext : String.fromUTF8? content = some text)
    (haws : (ingestObject content name ingestedAt .empty).2 = .ok ())
    (hgcp : (handleGcsEvent accepts content name now ⟨.empty, 0⟩).2 = .ok ()) (path : String × String) :
    ((ingestObject content name ingestedAt .empty).1 path).map (fun i => (i.quantity, i.channel)) =
      ((handleGcsEvent accepts content name now ⟨.empty, 0⟩).1.documents (documentPath path)).map
        fun d => (d.quantity, d.channel) := by
  obtain ⟨lines, hread, hbatches, htable⟩ := ingestObject_of_ok htext haws
  have hkeys : ∀ line ∈ lines, (line.item name ingestedAt).key? ≠ none := fun line hline => by
    have hmem : line.item name ingestedAt ∈ (chunks 24 (itemsOf name ingestedAt lines)).flatten := by
      rw [flatten_chunks]
      exact List.mem_map_of_mem hline
    obtain ⟨batch, hbatch, hin⟩ := List.mem_flatten.1 hmem
    exact (hbatches batch hbatch).keyed _ hin
  have hpaths : ∀ line ∈ lines, line.path? ≠ none := fun line hline =>
    OrderLine.key_eq_path (hkeys line hline) ▸ hkeys line hline
  have hdocs := handleGcsEvent_documents hname htext hgcp hread hpaths
  rw [congrFun htable path, congrFun hdocs (documentPath path), putAll_apply, putAll_apply,
    lastWrite_mapKeys documentPath_injective]
  simp only [Table.empty, Option.or_none]
  rw [← lastWrite_mapValues, ← lastWrite_mapValues, mapValues_writes hkeys]

/-- **Where the two functions agree**, if Firestore takes the plain ids only: on an object whose rows are order
lines, either an id is empty, or some id has a slash exactly if some id is missing or two rows of a batch have
the same ids. -/
theorem ingestion_agrees_iff (hids : Firestore.PlainIds accepts) (hname : isOrderCsv name = true)
    (htext : String.fromUTF8? content = some text)
    (hfits : ∀ lines, orderLines text.toList = .ok lines →
      ∀ line ∈ lines, Firestore.isInt64 line.quantity = true) (ingestedAt now : String) :
    IngestionAgrees accepts content name ingestedAt now ↔ ∀ lines, orderLines text.toList = .ok lines →
      (∃ line ∈ lines, line.Empty) ∨
        ((∃ line ∈ lines, line.Slashed) ↔ (∃ line ∈ lines, line.Missing) ∨ RepeatsInBatch lines) := by
  have hagrees : IngestionAgrees accepts content name ingestedAt now ↔
      ((ingestObject content name ingestedAt .empty).2 = .ok () ↔
        (handleGcsEvent accepts content name now ⟨.empty, 0⟩).2 = .ok ()) :=
    ⟨fun h => h.ends, fun h => ⟨h, tables_agree hname htext⟩⟩
  rw [hagrees]
  cases hread : orderLines text.toList with
  | error e =>
      -- both raise
      refine iff_of_true (iff_of_false (fun h => ?_) fun h => ?_) fun lines h => by cases h
      · obtain ⟨lines, hlines, -⟩ := ingestObject_of_ok htext h
        cases hread.symm.trans hlines
      · obtain ⟨lines, hlines, -⟩ := (handleGcsEvent_ok_iff hname htext).1 h
        cases hread.symm.trans hlines
  | ok lines =>
      rw [ingestObject_completes_iff htext hread (hfits lines hread),
        handleGcsEvent_completes_iff hids hname htext hread (hfits lines hread)]
      simp only [Except.ok.injEq, forall_eq']
      by_cases hempty : ∃ line ∈ lines, line.Empty
      · exact iff_of_true (by simp only [hempty, not_true_eq_false, false_and]) (.inl hempty)
      · rw [and_iff_right hempty, and_iff_right hempty, or_iff_right hempty, not_iff_not]
        exact iff_comm

end agreement

/-- An order of two items. -/
def orderCsv : String := "order_id,sku,quantity,channel\nA1,S1,1,web\nA1,S2,2,web\n"

/-- The lines of the example. -/
theorem orderLines_orderCsv : orderLines orderCsv.toList =
    .ok [⟨some "A1", some "S1", 1, some "web"⟩, ⟨some "A1", some "S2", 2, some "web"⟩] := by
  decide +kernel

/-- The functions agree on an order of two items. -/
theorem ingestion_agrees_orderCsv :
    IngestionAgrees Firestore.isDocumentId orderCsv.toUTF8 "orders/A1.csv" "2026-06-10T09:32:11Z"
      "2026-06-10T09:32:11Z" := by
  refine (ingestion_agrees_iff Firestore.plainIds_isDocumentId (by decide +kernel)
    (Json.fromUTF8?_toUTF8 orderCsv) ?_ _ _).2 ?_
  · intro lines hlines
    cases orderLines_orderCsv.symm.trans hlines
    decide
  · intro lines hlines
    cases orderLines_orderCsv.symm.trans hlines
    refine .inr (iff_of_false ?_ ?_)
    · simp [OrderLine.Slashed]
    · simp [OrderLine.Missing, RepeatsInBatch, chunks_cons]

/-- An order that has the same item twice. -/
def repeatedCsv : String := "order_id,sku,quantity,channel\nA1,S1,1,web\nA1,S1,2,web\n"

/-- The lines of the file that repeats a row. -/
theorem orderLines_repeatedCsv : orderLines repeatedCsv.toList =
    .ok [⟨some "A1", some "S1", 1, some "web"⟩, ⟨some "A1", some "S1", 2, some "web"⟩] := by
  decide +kernel

/-- **The same item twice in an order**: DynamoDB refuses the batch, Firestore keeps the second row. -/
theorem repeated_item_disagrees : isOrderCsv "orders/A1.csv" = true ∧
    String.fromUTF8? repeatedCsv.toUTF8 = some repeatedCsv ∧
    (∀ lines, orderLines repeatedCsv.toList = .ok lines →
      ∀ line ∈ lines, Firestore.isInt64 line.quantity = true) ∧
    ¬IngestionAgrees Firestore.isDocumentId repeatedCsv.toUTF8 "orders/A1.csv" "2026-06-10T09:32:11Z"
      "2026-06-10T09:32:11Z" := by
  have htext := Json.fromUTF8?_toUTF8 repeatedCsv
  have hname : isOrderCsv "orders/A1.csv" = true := by decide +kernel
  have hfits : ∀ line ∈ ([⟨some "A1", some "S1", 1, some "web"⟩,
      ⟨some "A1", some "S1", 2, some "web"⟩] : List OrderLine), Firestore.isInt64 line.quantity = true := by
    decide
  refine ⟨hname, htext, fun lines hlines => ?_, fun h => ?_⟩
  · cases orderLines_repeatedCsv.symm.trans hlines
    exact hfits
  · have hgcp := h.ends.2 ((handleGcsEvent_completes_iff Firestore.plainIds_isDocumentId hname htext
      orderLines_repeatedCsv hfits).2
      ⟨by simp [OrderLine.Empty], by simp [OrderLine.Slashed]⟩)
    obtain ⟨-, hbatches⟩ := (ingestObject_completes_iff htext orderLines_repeatedCsv hfits).1 hgcp
    exact hbatches (.inr ⟨_, by rw [chunks_cons]; exact List.mem_cons_self, by simp⟩)

end TransferWorker
