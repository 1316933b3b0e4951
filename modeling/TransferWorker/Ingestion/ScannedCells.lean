import TransferWorker.Ingestion.Agreement
import TransferWorker.CallTrees.Trace
import Mathlib.Data.List.Infix

/-! # Scanned cells

What the security scan of the worker means for the tables of the ingestion functions: in a content
without issues no cell that a function writes starts like a formula. The scan reads the cells by their
position, the functions by the names in the header; both take them from the same records.

* **`noFormula_of_scanBytes`** — the cells that the scan has seen.
* **`ingestTables`**, `gcsTables` — the tables that a function goes through.
* **`scanned_cells_safe`** — the scan protects both. -/

namespace TransferWorker

open CallTrees Stores

/-! ## The scan -/

/-- A row without issues has no formula in it. -/
theorem rowIssues_eq_nil {row col : Nat} {cells : List (List Char)} (h : rowIssues row col cells = []) :
    ∀ cell ∈ cells, isFormula cell = false := by
  induction cells generalizing col with
  | nil => simp
  | cons cell cells ih =>
      rw [rowIssues] at h
      by_cases hcell : isFormula cell = true
      · rw [if_pos hcell] at h
        cases h
      · rw [if_neg hcell] at h
        rw [List.forall_mem_cons]
        exact ⟨Bool.eq_false_iff.2 hcell, ih h⟩

/-- A table without issues has no formula in it. -/
theorem tableIssues_eq_nil {n : Nat} {rows : List (List (List Char))} (h : tableIssues n rows = []) :
    ∀ cells ∈ rows, ∀ cell ∈ cells, isFormula cell = false := by
  induction rows generalizing n with
  | nil => simp
  | cons cells rows ih =>
      rw [tableIssues, List.append_eq_nil_iff] at h
      rw [List.forall_mem_cons]
      exact ⟨rowIssues_eq_nil h.1, ih h.2⟩

/-- **A content without issues**: it is a text, the reader does not raise, and no cell starts like a
formula. -/
theorem noFormula_of_scanBytes {content : ByteArray} (h : scanBytes content = .ok []) :
    ∃ text rows, String.fromUTF8? content = some text ∧ csvReader text.toList = (rows, none) ∧
      ∀ cells ∈ rows, ∀ cell ∈ cells, isFormula cell = false := by
  unfold scanBytes at h
  split at h
  · cases h
  · cases htext : String.fromUTF8? content with
    | none =>
        rw [htext] at h
        cases h
    | some text =>
        rw [htext] at h
        simp only [csvRows_eq] at h
        rcases hread : csvReader text.toList with ⟨rows, _ | e⟩
        · rw [hread] at h
          refine ⟨text, rows, rfl, hread, tableIssues_eq_nil (n := 1) ?_⟩
          simpa [Except.map] using h
        · rw [hread] at h
          cases h

/-- What the scan has read when it ends without issues. -/
theorem scanBytes_of_makes {path : Path} {settings : Settings} {tr : List (Answered calls Exn)}
    {content : ByteArray} (h : (scanCsvFile path settings).Makes tr (.ok []))
    (hread : ⟨.readFile path, .ok content⟩ ∈ tr) : scanBytes content = .ok [] := by
  rcases Program.makes_perform_bind h with ⟨size, tr₁, rfl, hsize⟩ | ⟨e, -, he⟩
  · clear h
    split at hsize
    · obtain ⟨-, hissues⟩ := Program.makes_ret.1 hsize
      cases hissues
    · rcases Program.makes_perform_bind hsize with ⟨raw, tr₂, rfl, hraw⟩ | ⟨e, -, he⟩
      · obtain ⟨rfl, hscan⟩ := Program.makes_ofExcept.1 hraw
        rw [List.mem_cons, List.mem_singleton] at hread
        rcases hread with hread | hread
        · cases hread
        · cases hread
          exact hscan.symm
      · cases he
  · cases he

/-! ## Rows by name -/

/-- No cell of a row starts like a formula. -/
def DictRow.Safe (row : DictRow) : Prop := ∀ p ∈ row, ∀ text, p.2 = some text → isFormula text.toList = false

/-- The cells of a row by name are cells of the row. -/
theorem safe_dictRow {fieldnames : List String} {cells : List (List Char)}
    (h : ∀ cell ∈ cells, isFormula cell = false) : (dictRow fieldnames (cells.map String.ofList)).Safe := by
  intro p hp text htext
  rw [dictRow, List.mem_append, List.mem_map, List.mem_map] at hp
  rcases hp with ⟨⟨name, cell⟩, hzip, rfl⟩ | ⟨name, -, rfl⟩
  · obtain ⟨cs, hcs, hcell⟩ := List.mem_map.1 (List.of_mem_zip hzip).2
    cases htext
    rw [← hcell, String.toList_ofList]
    exact h cs hcs
  · -- a missing cell
    cases htext

/-- The rows of a table without formulas are safe. -/
theorem safe_dictReader {text : List Char} {rows : List (List (List Char))} {e : Option Exn}
    (hread : csvReader text = (rows, e)) (h : ∀ cells ∈ rows, ∀ cell ∈ cells, isFormula cell = false) :
    ∀ row ∈ (dictReader text).1, DictRow.Safe row := by
  rw [dictReader, hread]
  cases rows with
  | nil => simp [dictRows]
  | cons header rows =>
      rw [List.forall_mem_cons] at h
      intro row hrow
      simp only [List.map_cons, dictRows, List.mem_map, List.mem_filter] at hrow
      obtain ⟨_, ⟨⟨cells, hcells, rfl⟩, -⟩, rfl⟩ := hrow
      exact safe_dictRow (h.2 cells hcells)

/-- A field of a safe row is no formula. -/
theorem DictRow.Safe.getItem {row : DictRow} (h : row.Safe) {name : String} {cell : Option String}
    (hget : row.getItem name = .ok cell) : ∀ text, cell = some text → isFormula text.toList = false := by
  unfold DictRow.getItem at hget
  cases hlookup : row.reverse.lookup name with
  | none =>
      rw [hlookup] at hget
      cases hget
  | some cell' =>
      rw [hlookup] at hget
      cases hget
      obtain ⟨front, back, hsplit, -⟩ := List.lookup_eq_some_iff.1 hlookup
      have hmem : (name, cell) ∈ row.reverse := by
        rw [hsplit]
        exact List.mem_append_right _ List.mem_cons_self
      exact h (name, cell) (List.mem_reverse.1 hmem)

/-- No text of a line starts like a formula. -/
def OrderLine.Safe (line : OrderLine) : Prop :=
  ∀ text, line.orderId = some text ∨ line.sku = some text ∨ line.channel = some text →
    isFormula text.toList = false

/-- A computation that returned has got through its first step. -/
theorem exists_of_bind_eq_ok {ε α β : Type} {x : Except ε α} {f : α → Except ε β} {b : β}
    (h : (x >>= f) = .ok b) : ∃ a, x = .ok a ∧ f a = .ok b := by
  cases x with
  | error e => cases h
  | ok a => exact ⟨a, rfl, h⟩

/-- The fields of an order line are those of the row. -/
theorem orderLine_eq_ok {row : DictRow} {line : OrderLine} (h : orderLine row = .ok line) :
    row.getItem "order_id" = .ok line.orderId ∧ row.getItem "sku" = .ok line.sku ∧
      row.getItem "channel" = .ok line.channel := by
  unfold orderLine at h
  obtain ⟨orderId, horder, h⟩ := exists_of_bind_eq_ok h
  obtain ⟨sku, hsku, h⟩ := exists_of_bind_eq_ok h
  obtain ⟨cell, -, h⟩ := exists_of_bind_eq_ok h
  obtain ⟨quantity, -, h⟩ := exists_of_bind_eq_ok h
  obtain ⟨channel, hchannel, h⟩ := exists_of_bind_eq_ok h
  cases h
  exact ⟨horder, hsku, hchannel⟩

/-- The order line of a safe row is safe. -/
theorem safe_orderLine {row : DictRow} (h : row.Safe) {line : OrderLine}
    (hline : orderLine row = .ok line) : line.Safe := by
  obtain ⟨horder, hsku, hchannel⟩ := orderLine_eq_ok hline
  rintro text (htext | htext | htext)
  · exact h.getItem horder text htext
  · exact h.getItem hsku text htext
  · exact h.getItem hchannel text htext

/-! ## The tables -/

/-- No text of an item starts like a formula. -/
def LineItem.Safe (item : LineItem) : Prop :=
  ∀ text, item.orderId = some text ∨ item.sku = some text ∨ item.channel = some text →
    isFormula text.toList = false

/-- What is in a table was there before, or is safe. -/
def SafeSince (old table : LineItemTable) : Prop :=
  ∀ k item, table k = some item → old k = some item ∨ item.Safe

/-- Safe items keep a table safe. -/
theorem SafeSince.putAll {old table : LineItemTable} (h : SafeSince old table) {items : List LineItem}
    (hitems : ∀ item ∈ items, item.Safe) : SafeSince old (putAll table (itemWrites items)) := by
  intro k item hk
  rcases eq_or_mem_of_putAll hk with hold | hnew
  · exact h k item hold
  · obtain ⟨item', hmem, hwrite⟩ := List.mem_filterMap.1 hnew
    obtain ⟨key, -, heq⟩ := Option.map_eq_some_iff.1 hwrite
    cases heq
    exact .inr (hitems item hmem)

/-- What the batch writer has written and is going to write is safe. -/
structure BatchWriter.Safe (old : LineItemTable) (w : BatchWriter) : Prop where
  /-- The table. -/
  table : SafeSince old w.table
  /-- The puts that were not sent yet. -/
  buffer : ∀ item ∈ w.buffer, item.Safe

namespace BatchWriter

variable {old : LineItemTable} {w : BatchWriter}

/-- Writing out the buffer keeps the table safe. -/
theorem Safe.flush (h : w.Safe old) : w.flush.1.Safe old := by
  have hrest : ∀ item ∈ w.buffer.drop flushAmount, item.Safe := fun item hitem =>
    h.buffer item (List.mem_of_mem_drop hitem)
  unfold BatchWriter.flush batchWriteItem
  by_cases hgood : GoodBatch (w.buffer.take flushAmount)
  · rw [if_pos hgood]
    exact ⟨h.table.putAll fun item hitem => h.buffer item (List.mem_of_mem_take hitem), hrest⟩
  · rw [if_neg hgood]
    exact ⟨h.table, hrest⟩

/-- So does putting a safe item. -/
theorem Safe.putItem (h : w.Safe old) {item : LineItem} (hitem : item.Safe) :
    (w.putItem item).1.Safe old := by
  have hadded : BatchWriter.Safe old ⟨w.table, w.buffer ++ [item]⟩ := by
    refine ⟨h.table, fun item' hmem => ?_⟩
    rw [List.mem_append, List.mem_singleton] at hmem
    rcases hmem with hmem | rfl
    · exact h.buffer item' hmem
    · exact hitem
  simp only [BatchWriter.putItem]
  split
  · exact hadded.flush
  · exact hadded

/-- So does the end of the batch, whatever is written of it. -/
theorem Safe.exit (h : w.Safe old) (n : Nat) : (w.exit n).1.Safe old := by
  induction n generalizing w with
  | zero => exact h
  | succ n ih =>
      have hflush := h.flush
      rw [BatchWriter.exit]
      split
      · exact h
      · split
        · rename_i w' heq
          rw [heq] at hflush
          exact ih hflush
        · rename_i w' e heq
          rw [heq] at hflush
          exact hflush

/-- **The loop over safe rows.** -/
theorem Safe.putRows (h : w.Safe old) (key ingestedAt : String) {rows : List DictRow}
    (hrows : ∀ row ∈ rows, row.Safe) : (putRows key ingestedAt rows w).1.Safe old := by
  induction rows generalizing w with
  | nil => exact h
  | cons row rows ih =>
      rw [List.forall_mem_cons] at hrows
      rw [TransferWorker.putRows]
      cases hline : orderLine row with
      | error e => exact h
      | ok line =>
          have hitem : (line.item key ingestedAt).Safe := safe_orderLine hrows.1 hline
          have hput := h.putItem hitem
          simp only
          split
          · rename_i w' heq
            rw [heq] at hput
            exact ih hput hrows.2
          · rename_i w' e heq
            rw [heq] at hput
            exact hput

end BatchWriter

/-- A document and its path: no text of them starts like a formula. -/
structure SafeDocument (path : DocumentId × DocumentId) (doc : LineItemDocument) : Prop where
  /-- The ids of the path. -/
  path : ∀ text, path.1 = .named text ∨ path.2 = .named text → isFormula text.toList = false
  /-- The fields. -/
  fields : ∀ text, doc.sku = some text ∨ doc.channel = some text → isFormula text.toList = false

/-- What is in Firestore was there before, or is safe. -/
def Firestore.Safe (old db : Firestore) : Prop :=
  ∀ path doc, db.documents path = some doc → old.documents path = some doc ∨ SafeDocument path doc

namespace Firestore

variable {accepts : String → Bool} {old db db' : Firestore}

/-- The id of a document is the given text, or made up. -/
theorem document_eq_ok {n n' : Nat} {id : Option String} {p : DocumentId}
    (h : document accepts n id = .ok (p, n')) (text : String) (hp : p = .named text) : id = some text := by
  cases id with
  | none =>
      cases h
      cases hp
  | some s =>
      rw [document] at h
      split at h
      · cases h
        cases hp
        rfl
      · cases h

/-- A document that is set of a safe row is safe. -/
theorem Safe.setRow (h : Firestore.Safe old db) {name now : String} {row : DictRow} (hrow : row.Safe)
    (hset : db.setRow accepts name now row = .ok db') : Firestore.Safe old db' := by
  unfold Firestore.setRow at hset
  obtain ⟨line, hline, hset⟩ := exists_of_bind_eq_ok hset
  obtain ⟨⟨orderId, n⟩, horder, hset⟩ := exists_of_bind_eq_ok hset
  obtain ⟨⟨sku, n'⟩, hsku, hset⟩ := exists_of_bind_eq_ok hset
  have hsafe := safe_orderLine hrow hline
  simp only at hset
  split at hset
  · cases hset
    intro path doc hdoc
    simp only [put] at hdoc
    by_cases hpath : path = (orderId, sku)
    · rw [if_pos hpath] at hdoc
      cases hdoc
      refine .inr ⟨?_, ?_⟩
      · rw [hpath]
        rintro text (htext | htext)
        · exact hsafe text (.inl (document_eq_ok horder text htext))
        · exact hsafe text (.inr (.inl (document_eq_ok hsku text htext)))
      · rintro text (htext | htext)
        · exact hsafe text (.inr (.inl htext))
        · exact hsafe text (.inr (.inr htext))
    · rw [if_neg hpath] at hdoc
      exact h path doc hdoc
  · cases hset

/-- **The loop over safe rows.** -/
theorem Safe.setRows (h : Firestore.Safe old db) (name now : String) {rows : List DictRow}
    (hrows : ∀ row ∈ rows, row.Safe) : Firestore.Safe old (db.setRows accepts name now rows).1 := by
  induction rows generalizing db with
  | nil => exact h
  | cons row rows ih =>
      rw [List.forall_mem_cons] at hrows
      rw [Firestore.setRows]
      cases hrow : db.setRow accepts name now row with
      | error e => exact h
      | ok db' => exact ih (h.setRow hrows.1 hrow) hrows.2

end Firestore

/-- **The tables that `_ingest_object` goes through**: after some of the rows, and at its end. -/
def ingestTables (body : ByteArray) (key ingestedAt : String) (table : LineItemTable) :
    List LineItemTable :=
  match String.fromUTF8? body with
  | none => [(ingestObject body key ingestedAt table).1]
  | some text =>
      ((dictReader text.toList).1.inits.map fun rows => (putRows key ingestedAt rows ⟨table, []⟩).1.table) ++
        [(ingestObject body key ingestedAt table).1]

/-- **The databases that `handle_gcs_event` goes through**: after some of the rows, and at its end. -/
def gcsTables (accepts : String → Bool) (content : ByteArray) (name now : String) (db : Firestore) :
    List Firestore :=
  match String.fromUTF8? content with
  | none => [(handleGcsEvent accepts content name now db).1]
  | some text =>
      (if isOrderCsv name then
          (dictReader text.toList).1.inits.map fun rows => (db.setRows accepts name now rows).1
        else []) ++
        [(handleGcsEvent accepts content name now db).1]

/-- **The scan protects the tables**: in a content for which it returns no issues, no text that either
function writes as an order, a stock keeping unit or a channel starts like a formula. -/
theorem scanned_cells_safe {path : Path} {settings : Settings} {tr : List (Answered calls Exn)}
    {content : ByteArray} (hscan : (scanCsvFile path settings).Makes tr (.ok []))
    (hread : ⟨.readFile path, .ok content⟩ ∈ tr) :
    (∀ (key ingestedAt : String) (old : LineItemTable),
      ∀ table ∈ ingestTables content key ingestedAt old, SafeSince old table) ∧
    ∀ (accepts : String → Bool) (name now : String) (old : Firestore),
      ∀ db ∈ gcsTables accepts content name now old, Firestore.Safe old db := by
  obtain ⟨text, records, htext, hrecords, hcells⟩ := noFormula_of_scanBytes (scanBytes_of_makes hscan hread)
  have hrows := safe_dictReader hrecords hcells
  -- so are the rows of every beginning of the table
  have hinits : ∀ rows ∈ (dictReader text.toList).1.inits, ∀ row ∈ rows, row.Safe := by
    intro rows hinit row hrow
    exact hrows row (((List.mem_inits _ _).1 hinit).subset hrow)
  refine ⟨fun key ingestedAt old table htable => ?_, fun accepts name now old db hdb => ?_⟩
  · have hstart : BatchWriter.Safe old ⟨old, []⟩ := ⟨fun k item hk => .inl hk, by simp⟩
    rw [ingestTables, htext] at htable
    rcases List.mem_append.1 htable with htable | htable
    · obtain ⟨rows, hinit, rfl⟩ := List.mem_map.1 htable
      exact (hstart.putRows key ingestedAt (hinits rows hinit)).table
    · obtain rfl := List.mem_singleton.1 htable
      rw [ingestObject, htext]
      exact ((hstart.putRows key ingestedAt hrows).exit _).table
  · have hstart : Firestore.Safe old old := fun path doc hdoc => .inl hdoc
    rw [gcsTables, htext] at hdb
    rcases List.mem_append.1 hdb with hdb | hdb
    · split at hdb
      · obtain ⟨rows, hinit, rfl⟩ := List.mem_map.1 hdb
        exact hstart.setRows name now (hinits rows hinit)
      · cases hdb
    · obtain rfl := List.mem_singleton.1 hdb
      rw [handleGcsEvent, htext]
      split
      · exact hstart
      · exact hstart.setRows name now hrows

/-- The scan of an order of two items, and what it means for the tables. -/
theorem scanned_cells_safe_orderCsv :
    (∀ (key ingestedAt : String) (old : LineItemTable),
      ∀ table ∈ ingestTables orderCsv.toUTF8 key ingestedAt old, SafeSince old table) ∧
    ∀ (accepts : String → Bool) (name now : String) (old : Firestore),
      ∀ db ∈ gcsTables accepts orderCsv.toUTF8 name now old, Firestore.Safe old db := by
  have hscan : scanBytes orderCsv.toUTF8 = .ok [] := by decide +kernel
  have hsize : ¬({} : Settings).maxCsvFileSizeBytes < (orderCsv.toUTF8.size : Int) := by decide +kernel
  have hrun : (scanCsvFile (fsencode "/data/orders/A1.csv") {}).Makes
      [⟨.getsize (fsencode "/data/orders/A1.csv"), .ok orderCsv.toUTF8.size⟩,
        ⟨.readFile (fsencode "/data/orders/A1.csv"), .ok orderCsv.toUTF8⟩] (.ok []) := by
    refine .perform_bind _ _ ?_
    rw [if_neg hsize]
    refine .perform_bind _ _ ?_
    rw [hscan]
    exact .ret
  exact scanned_cells_safe hrun (List.mem_cons_of_mem _ (List.mem_singleton_self _))

end TransferWorker
