import TransferWorker.CallTrees.Pool
import TransferWorker.Ingestion.Invocations

/-! # Attempts

The ingestion functions under everything that may happen to them: notifications that are delivered more
than once, invocations that fail, are retried, run at the same time or stop anywhere, batches of which
only a part is written. Every delivery of a notification and every retry is an attempt of its own, and
all of them run side by side.

* **`attempts`** — the pool of all attempts.
* **`Kept`** — what any call of an attempt may do to the stores; entries are only replaced by others
  that a row of an announced object says.
* **`items_of_announced`**, `documents_of_announced` — what is in the stores, whatever happened. -/

namespace TransferWorker

open CallTrees Stores

/-- An object that a notification of S3 announces. -/
structure ObjectCreated where
  /-- Its bucket. -/
  bucket : String
  /-- Its key. -/
  key : String
  /-- The text for the key in the notification. -/
  text : String
  /-- S3 encodes the key like the field of a form. -/
  encoded : Percent.FormEncoded key.toList text.toList

/-- The record of an object in the event. -/
def ObjectCreated.record (object : ObjectCreated) : Invocation.S3Record := ⟨object.bucket, object.text⟩

/-- The handler reads the key of the object. -/
theorem ObjectCreated.unquotePlus_record (object : ObjectCreated) :
    Invocation.unquotePlus object.record.key = object.key := by
  show String.ofList (Percent.unquotePlus object.text.toList) = object.key
  rw [Percent.unquotePlus_of_formEncoded object.encoded, String.ofList_toList]

/-- A notification. -/
inductive FunctionEvent where
  /-- Of S3. -/
  | s3 (objects : List ObjectCreated)
  /-- Of Google Cloud Storage. -/
  | gcs (bucket name : String)

/-- The objects that a notification gives to a function, by bucket and name. -/
def FunctionEvent.objects : FunctionEvent → Cloud → List (String × String)
  | .s3 objects, .aws => objects.map fun object => (object.bucket, object.key)
  | .gcs bucket name, .gcp => if isOrderCsv name then [(bucket, name)] else []
  | _, _ => []

/-- An attempt at a notification. -/
structure Attempt where
  /-- The notification. -/
  event : FunctionEvent
  /-- How many batches the time of the invocation is enough for, at the end of an object. -/
  time : Nat

namespace Attempt

/-- The handler of the function that the notification is for. -/
def handler (attempt : Attempt) : Program functionCalls Exn Unit :=
  match attempt.event with
  | .s3 objects => Invocation.handleS3Event attempt.time (objects.map ObjectCreated.record)
  | .gcs bucket name => Invocation.handleGcsEvent bucket name

/-- An attempt as a thread: it ends as its handler does. -/
def service (attempt : Attempt) : Service functionCalls Exn Unit where
  setup := .ret ()
  turn _ := attempt.handler >>= fun _ => .ret (.inr ())
  finish _ r := .ofExcept r

end Attempt

variable {ι : Type}

/-- **All attempts at all notifications**, side by side. An attempt that is killed makes no further
call; its retry is another attempt. `versions` says what each attempt reads in which object. -/
def attempts (versions : ι → Cloud → String → String → ByteArray → Prop) (attempt : ι → Attempt) :
    Pool functionCalls Exn Clouds fun _ : ι => Unit where
  service i := (attempt i).service
  responds i := Clouds.Responds (versions i)
  interfere _ _ := False
  restart _ _ := False

/-- The order lines of a content that can be read, up to the end or the exception of the reader. -/
def readableLines (content : ByteArray) : List OrderLine :=
  match String.fromUTF8? content with
  | none => []
  | some text => (dictReader text.toList).1.filterMap fun row => (orderLine row).toOption

/-- What an id of a document is for an id of a row. -/
def DocumentId.Names : DocumentId → Option String → Prop
  | .named id, some id' => id = id'
  | .auto _, none => True
  | _, _ => False

section stores

variable (versions : ι → Cloud → String → String → ByteArray → Prop) (attempt : ι → Attempt)

/-- **The line is in an object** of this name that was announced to a function, in a version of it that an
attempt reads. -/
def Announced (cloud : Cloud) (name : String) (line : OrderLine) : Prop :=
  ∃ i bucket, (bucket, name) ∈ (attempt i).event.objects cloud ∧
    ∃ content, versions i cloud bucket name content ∧ line ∈ readableLines content

/-- The item is the one of a line in an announced object. -/
def OfLine (item : LineItem) : Prop :=
  ∃ line key ingestedAt, Announced versions attempt .aws key line ∧ item = line.item key ingestedAt

/-- The document is the one of a line in an announced object, and at the place of the line. -/
def DocumentOfLine (path : DocumentId × DocumentId) (document : LineItemDocument) : Prop :=
  ∃ line name now, Announced versions attempt .gcp name line ∧ document = line.document name now ∧
    path.1.Names line.orderId ∧ path.2.Names line.sku

/-- The key has an item of an announced object. -/
def HasItem (w : Clouds) (key : String × String) : Prop :=
  ∃ item, w.table key = some item ∧ item.key? = some key ∧ OfLine versions attempt item

/-- The path has a document of an announced object. -/
def HasDocument (w : Clouds) (path : DocumentId × DocumentId) : Prop :=
  ∃ document, w.db.documents path = some document ∧ DocumentOfLine versions attempt path document

/-- **What a call of an attempt may do to the stores**: new entries are those of announced objects, and
no entry disappears. -/
structure Kept (w w' : Clouds) : Prop where
  /-- The new items. -/
  items : ∀ key item, w'.table key = some item →
    w.table key = some item ∨ (item.key? = some key ∧ OfLine versions attempt item)
  /-- The new documents. -/
  documents : ∀ path document, w'.db.documents path = some document →
    w.db.documents path = some document ∨ DocumentOfLine versions attempt path document
  /-- The items stay. -/
  hasItem : ∀ key, HasItem versions attempt w key → HasItem versions attempt w' key
  /-- The documents stay. -/
  hasDocument : ∀ path, HasDocument versions attempt w path → HasDocument versions attempt w' path

/-- What an attempt writes is in an announced object. -/
def Writes : FunctionOp → Prop
  | .batchWriteItem items => ∀ item ∈ items, OfLine versions attempt item
  | .set order item line name =>
      Announced versions attempt .gcp name line ∧ order.Names line.orderId ∧ item.Names line.sku
  | _ => True

/-- The entries of the stores were there before, or are those of announced objects. -/
def Sourced (w₀ w : Clouds) : Prop :=
  (∀ key item, w.table key = some item →
    w₀.table key = some item ∨ (item.key? = some key ∧ OfLine versions attempt item)) ∧
  ∀ path document, w.db.documents path = some document →
    w₀.db.documents path = some document ∨ DocumentOfLine versions attempt path document

/-- What an attempt owes the others. -/
def attemptContract (w₀ : Clouds) : Contract functionCalls Clouds where
  inv := Sourced versions attempt w₀
  guar _ op := Writes versions attempt op

end stores

section steps

variable {versions : ι → Cloud → String → String → ByteArray → Prop} {attempt : ι → Attempt} {w w' w₀ : Clouds}

/-- An attempt keeps a store that stays as it is. -/
theorem Kept.refl : Kept versions attempt w w where
  items _ _ h := .inl h
  documents _ _ h := .inl h
  hasItem _ h := h
  hasDocument _ h := h

/-- A write to a key of a table leaves something there. -/
theorem exists_of_mem_keys {K V : Type} [DecidableEq K] {t : Table K V} {ws : List (K × V)} {k : K}
    (h : k ∈ keys ws) : ∃ v, putAll t ws k = some v ∧ (k, v) ∈ ws := by
  cases hlast : lastWrite ws k with
  | none => exact absurd h (lastWrite_eq_none_iff.1 hlast)
  | some v => exact ⟨v, by rw [putAll_apply, hlast, Option.some_or], mem_of_lastWrite hlast⟩

/-- The writes of a batch are those of its items. -/
theorem mem_itemWrites {items : List LineItem} {key : String × String} {item : LineItem} :
    (key, item) ∈ itemWrites items ↔ item ∈ items ∧ item.key? = some key := by
  simp only [itemWrites, List.mem_filterMap, Option.map_eq_some_iff, Prod.mk.injEq]
  constructor
  · rintro ⟨item', hmem, key', hkey, rfl, rfl⟩
    exact ⟨hmem, hkey⟩
  · rintro ⟨hmem, hkey⟩
    exact ⟨item, hmem, key, hkey, rfl, rfl⟩

/-- Items that were written are there. -/
theorem hasItem_written {items : List LineItem} (hitems : ∀ item ∈ items, OfLine versions attempt item)
    {item : LineItem} (hmem : item ∈ items) {key : String × String} (hkey : item.key? = some key) :
    HasItem versions attempt (w.written items) key := by
  have hwritten : key ∈ keys (itemWrites items) :=
    List.mem_map.2 ⟨(key, item), mem_itemWrites.2 ⟨hmem, hkey⟩, rfl⟩
  obtain ⟨item', hput, hmem'⟩ := exists_of_mem_keys (t := w.table) hwritten
  rw [mem_itemWrites] at hmem'
  exact ⟨item', hput, hmem'.2, hitems item' hmem'.1⟩

/-- Writing items of lines keeps what is known of the store. -/
theorem kept_written {items : List LineItem} (hitems : ∀ item ∈ items, OfLine versions attempt item) :
    Kept versions attempt w (w.written items) where
  items key item hput := by
    rcases eq_or_mem_of_putAll hput with hold | hnew
    · exact .inl hold
    · rw [mem_itemWrites] at hnew
      exact .inr ⟨hnew.2, hitems item hnew.1⟩
  documents _ _ h := .inl h
  hasItem key h := by
    obtain ⟨item, hitem, hkey, hline⟩ := h
    by_cases hwritten : key ∈ keys (itemWrites items)
    · obtain ⟨item', hput, hmem⟩ := exists_of_mem_keys (t := w.table) hwritten
      rw [mem_itemWrites] at hmem
      exact ⟨item', hput, hmem.2, hitems item' hmem.1⟩
    · refine ⟨item, ?_, hkey, hline⟩
      show putAll w.table (itemWrites items) key = some item
      rw [putAll_apply, lastWrite_eq_none_iff.2 hwritten, Option.none_or, hitem]
  hasDocument _ h := h

/-- So does writing the document of a line. -/
theorem kept_withDocument {path : DocumentId × DocumentId} {document : LineItemDocument}
    (hline : DocumentOfLine versions attempt path document) :
    Kept versions attempt w (w.withDocument path document) where
  items _ _ h := .inl h
  documents path' document' hput := by
    change (if path' = path then some document else w.db.documents path') = some document' at hput
    split_ifs at hput with hpath
    · cases hput
      rw [hpath]
      exact .inr hline
    · exact .inl hput
  hasItem _ h := h
  hasDocument path' h := by
    by_cases hpath : path' = path
    · rw [hpath]
      exact ⟨document, if_pos rfl, hline⟩
    · obtain ⟨document', hdocument, hline'⟩ := h
      exact ⟨document', (if_neg hpath).trans hdocument, hline'⟩

/-- **The step lemma**: any answer to a call that writes lines of announced objects. -/
theorem Writes.kept {op : FunctionOp} {read : Cloud → String → String → ByteArray → Prop}
    (hop : Writes versions attempt op) {r : Except Exn op.Res} (hr : Clouds.Responds read w op r w') :
    Kept versions attempt w w' := by
  cases op with
  | getObject bucket key =>
      cases r with
      | ok body =>
          obtain ⟨-, rfl⟩ := hr
          exact .refl
      | error e =>
          obtain rfl : w' = w := hr
          exact .refl
  | gmtime => cases r <;> (obtain rfl : w' = w := hr; exact .refl)
  -- of a batch some items are written, each one that of an announced line
  | batchWriteItem items =>
      cases r with
      | ok unprocessed =>
          obtain ⟨-, processed, hperm, rfl⟩ := hr
          exact kept_written fun item hmem => hop item (hperm.subset (List.mem_append_left _ hmem))
      | error e =>
          obtain ⟨processed, hsub, rfl⟩ := hr
          exact kept_written fun item hmem => hop item (hsub.subset hmem)
  | download bucket name =>
      cases r with
      | ok content =>
          obtain ⟨-, rfl⟩ := hr
          exact .refl
      | error e =>
          obtain rfl : w' = w := hr
          exact .refl
  | document id =>
      cases r with
      | ok p =>
          cases id with
          | none =>
              obtain ⟨-, rfl⟩ := hr
              exact ⟨fun _ _ h => .inl h, fun _ _ h => .inl h, fun _ h => h, fun _ h => h⟩
          | some id =>
              obtain ⟨-, -, rfl⟩ := hr
              exact .refl
      | error e =>
          obtain rfl : w' = w := hr
          exact .refl
  | set order item line name =>
      have hdocument : ∀ now, DocumentOfLine versions attempt (order, item) (line.document name now) :=
        fun now => ⟨line, name, now, hop.1, rfl, hop.2⟩
      -- with a slash in an id the document is at another place
      have hsets : w.Sets order item line name w' → Kept versions attempt w w' := by
        intro hsets
        unfold Clouds.Sets at hsets
        split_ifs at hsets
        · obtain ⟨now, rfl⟩ := hsets
          exact kept_withDocument (hdocument now)
        · exact hsets ▸ .refl
      cases r with
      | ok u => exact hsets hr.2
      | error e =>
          rcases hr with rfl | hr
          · exact .refl
          · exact hsets hr

/-- What the store holds stays sourced. -/
theorem Sourced.kept (h : Sourced versions attempt w₀ w) (hw : Kept versions attempt w w') :
    Sourced versions attempt w₀ w' := by
  refine ⟨fun key item hitem => ?_, fun path document hdocument => ?_⟩
  · rcases hw.items key item hitem with hold | hnew
    · exact h.1 key item hold
    · exact .inr hnew
  · rcases hw.documents path document hdocument with hold | hnew
    · exact h.2 path document hold
    · exact .inr hnew

end steps

/-! ## The batch writer -/

section programs

variable {versions : ι → Cloud → String → String → ByteArray → Prop} {attempt : ι → Attempt} {w w₀ : Clouds}
  {R : Clouds → Prop} {items buffer : List LineItem}

variable (versions attempt w₀) in
/-- An assertion that lasts while entries of announced objects come. -/
structure Enduring (R : Clouds → Prop) : Prop where
  /-- It contains the invariant. -/
  sourced : ∀ w, R w → Sourced versions attempt w₀ w
  /-- It is kept. -/
  kept : ∀ w w', Kept versions attempt w w' → R w → R w'

variable (versions attempt w₀) in
/-- What an attempt runs in: the others write lines of announced objects. -/
abbrev attemptView (i : ι) : Environment functionCalls Exn Clouds :=
  (attempts versions attempt).view (fun _ => attemptContract versions attempt w₀) i

variable {i : ι}

/-- Writing lines of announced objects keeps what lasts. -/
theorem Enduring.keeps (hR : Enduring versions attempt w₀ R) :
    Keeps (attemptView versions attempt w₀ i) (attemptContract versions attempt w₀)
      (Writes versions attempt) R where
  stable v v' h hm := by
    rcases hm with hm | ⟨j, -, op, r, hop, hr⟩
    · exact hm.elim
    · exact hR.kept v v' (Writes.kept hop hr) h
  inv := hR.sourced
  guar _ _ hop _ := hop
  responds v op r v' hop h hr := hR.kept v v' (Writes.kept hop hr) h

variable (versions attempt R) in
/-- **The state of a batch writer** that got these items: each of them is still in its buffer, or there is
an item under its key. -/
structure Buffered (items buffer : List LineItem) (w : Clouds) : Prop where
  /-- What lasts. -/
  frame : R w
  /-- What is in the buffer can be written. -/
  writable : ∀ item ∈ buffer, OfLine versions attempt item
  /-- The items so far. -/
  covered : ∀ item ∈ items, item ∈ buffer ∨ ∃ key, item.key? = some key ∧ HasItem versions attempt w key

/-- The buffer of an invocation lasts while the other attempts write. -/
theorem Buffered.kept (hR : Enduring versions attempt w₀ R) {w' : Clouds} (hw : Kept versions attempt w w')
    (h : Buffered versions attempt R items buffer w) : Buffered versions attempt R items buffer w' where
  frame := hR.kept w w' hw h.frame
  writable := h.writable
  covered item hmem := (h.covered item hmem).imp_right fun ⟨key, hkey, hitem⟩ => ⟨key, hkey, hw.hasItem key hitem⟩

/-- That a buffer holds these items endures. -/
theorem enduring_buffered (hR : Enduring versions attempt w₀ R) :
    Enduring versions attempt w₀ (Buffered versions attempt R items buffer) where
  sourced v h := hR.sourced v h.frame
  kept _ _ hw h := h.kept hR hw

variable (versions attempt R) in
/-- What an operation of the batch writer leaves: after an exception only what is in the buffer matters. -/
def Flushed (items : List LineItem) : Except Exn (List LineItem × Except Exn Unit) → Clouds → Prop
  | .ok (buffer, .ok _), w => Buffered versions attempt R items buffer w
  | .ok (buffer, .error _), w => Buffered versions attempt R [] buffer w
  | .error _, _ => False

/-- The first items of the buffer were written. -/
theorem Buffered.drop (h : Buffered versions attempt R items buffer w) (n : Nat) :
    Buffered versions attempt R [] (buffer.drop n) w where
  frame := h.frame
  writable item hmem := h.writable item (List.mem_of_mem_drop hmem)
  covered _ hmem := absurd hmem List.not_mem_nil

/-- **A flush**: what was sent is in the table, or comes back into the buffer. -/
theorem safe_flush (hR : Enduring versions attempt w₀ R) (h : Buffered versions attempt R items buffer w) :
    Safe (attemptView versions attempt w₀ i) (attemptContract versions attempt w₀)
      (Flushed versions attempt R items) (Invocation.flush buffer) w := by
  have henduring : Enduring versions attempt w₀ (Buffered versions attempt R items buffer) :=
    enduring_buffered hR
  have hK := henduring.keeps (i := i)
  have hop : ∀ v, Buffered versions attempt R items buffer v →
      Writes versions attempt (.batchWriteItem (buffer.take BatchWriter.flushAmount)) :=
    fun v hv item hmem => hv.writable item (List.mem_of_mem_take hmem)
  refine Safe.call hK.stable hK.inv (fun v hv => hop v hv) (fun v r v' hv hr => ?_) h
  have hkept : Kept versions attempt v v' := Writes.kept (hop v hv) hr
  have hv' := hv.kept hR hkept
  cases r with
  | error e => exact (enduring_buffered hR).keeps.ret (fun _ h => h) (hv'.drop _)
  | ok unprocessed =>
      refine (enduring_buffered hR).keeps.ret (fun _ h => h) ⟨hv'.frame, fun item hmem => ?_, fun item hmem => ?_⟩
      · -- what comes back unprocessed is put into the buffer again
        obtain ⟨-, processed, hperm, -⟩ := hr
        rcases List.mem_append.1 hmem with hrest | hback
        · exact hv.writable item (List.mem_of_mem_drop hrest)
        · exact hop v hv item (hperm.subset (List.mem_append_right _ hback))
      · rcases hv'.covered item hmem with hbuffer | hdone
        · obtain ⟨hgood, processed, hperm, rfl⟩ := hr
          rw [← List.take_append_drop BatchWriter.flushAmount buffer, List.mem_append] at hbuffer
          rcases hbuffer with hsent | hrest
          · rcases List.mem_append.1 (hperm.symm.subset hsent) with hwritten | hback
            · -- a batch that was accepted has keys
              obtain ⟨key, hkey⟩ := Option.ne_none_iff_exists'.1 (hgood.keyed item hsent)
              exact .inr ⟨key, hkey, hasItem_written
                (fun item' hmem' => hop v hv item' (hperm.subset (List.mem_append_left _ hmem')))
                hwritten hkey⟩
            · exact .inl (List.mem_append_right _ hback)
          · exact .inl (List.mem_append_left _ hrest)
        · exact .inr hdone

/-- An item of a line is put into the buffer, which may write some. -/
theorem safe_putItem (hR : Enduring versions attempt w₀ R) (h : Buffered versions attempt R items buffer w)
    {item : LineItem} (hitem : OfLine versions attempt item) :
    Safe (attemptView versions attempt w₀ i) (attemptContract versions attempt w₀)
      (Flushed versions attempt R (items ++ [item])) (Invocation.putItem buffer item) w := by
  have hadded : Buffered versions attempt R (items ++ [item]) (buffer ++ [item]) w := by
    refine ⟨h.frame, fun item' hmem => ?_, fun item' hmem => ?_⟩
    · rcases List.mem_append.1 hmem with hmem | hmem
      · exact h.writable item' hmem
      · rw [List.mem_singleton.1 hmem]
        exact hitem
    · rcases List.mem_append.1 hmem with hmem | hmem
      · exact (h.covered item' hmem).imp_left (List.mem_append_left _)
      · exact .inl (List.mem_append_right _ hmem)
  unfold Invocation.putItem
  split_ifs
  · exact safe_flush hR hadded
  · exact (enduring_buffered hR).keeps.ret (fun _ h => h) hadded

variable (versions attempt R) in
/-- What the loop over the rows leaves. -/
def Looped (items : List LineItem) (key ingestedAt : String) (rows : List DictRow) :
    Except Exn (List LineItem × Except Exn Unit) → Clouds → Prop
  | .ok (buffer, .ok _), w => ∃ lines, rows.mapM orderLine = .ok lines ∧
      Buffered versions attempt R (items ++ itemsOf key ingestedAt lines) buffer w
  | .ok (buffer, .error _), w => Buffered versions attempt R [] buffer w
  | .error _, _ => False

/-- **The loop over the rows.** -/
theorem safe_putRows (hR : Enduring versions attempt w₀ R) {key ingestedAt : String} {rows : List DictRow}
    (hrows : ∀ row ∈ rows, ∀ line, orderLine row = .ok line → Announced versions attempt .aws key line)
    (h : Buffered versions attempt R items buffer w) :
    Safe (attemptView versions attempt w₀ i) (attemptContract versions attempt w₀)
      (Looped versions attempt R items key ingestedAt rows) (Invocation.putRows key ingestedAt rows buffer) w := by
  induction rows generalizing items buffer w with
  | nil =>
      refine (enduring_buffered hR).keeps.ret (fun v hv => ?_) h
      exact ⟨[], rfl, by rwa [itemsOf, List.map_nil, List.append_nil]⟩
  | cons row rows ih =>
      rw [List.forall_mem_cons] at hrows
      unfold Invocation.putRows
      cases hline : orderLine row with
      | error e => exact (enduring_buffered hR).keeps.ret (fun _ h => h) (h.drop 0)
      | ok line =>
          have hitem : OfLine versions attempt (line.item key ingestedAt) :=
            ⟨line, key, ingestedAt, hrows.1 line hline, rfl⟩
          refine (safe_putItem hR h hitem).bind (fun result v hv _ => ?_) fun e v hv => hv.elim
          obtain ⟨buffer', ⟨e⟩ | ⟨⟨⟩⟩⟩ := result
          · exact (enduring_buffered hR).keeps.ret (fun _ h => h) hv
          · refine (ih hrows.2 hv).mono fun r v' hr => ?_
            rcases r with e | ⟨buffer'', ⟨e⟩ | ⟨⟨⟩⟩⟩
            · exact hr
            · exact hr
            · obtain ⟨lines, hlines, hbuffered⟩ := hr
              refine ⟨line :: lines, mapM_orderLine_cons.2 ⟨line, lines, hline, hlines, rfl⟩, ?_⟩
              rwa [List.append_assoc] at hbuffered

/-- What the end of the batch writer leaves: nothing is in the buffer. -/
def Emptied (versions : ι → Cloud → String → String → ByteArray → Prop) (attempt : ι → Attempt)
    (R : Clouds → Prop) (items : List LineItem) : Except Exn Unit → Clouds → Prop
  | .ok _, w => Buffered versions attempt R items [] w
  | .error _, w => R w

/-- **The end of the batch writer.** -/
theorem safe_exit (hR : Enduring versions attempt w₀ R) (time : Nat)
    (h : Buffered versions attempt R items buffer w) :
    Safe (attemptView versions attempt w₀ i) (attemptContract versions attempt w₀)
      (Emptied versions attempt R items) (Invocation.exit time buffer) w := by
  induction time generalizing buffer w with
  | zero =>
      unfold Invocation.exit
      split_ifs with hempty
      · rw [hempty] at h
        exact (enduring_buffered hR).keeps.ret (fun _ h => h) h
      · exact (enduring_buffered hR).keeps.raise (fun _ h => h.frame) h
  | succ time ih =>
      unfold Invocation.exit
      split_ifs with hempty
      · rw [hempty] at h
        exact (enduring_buffered hR).keeps.ret (fun _ h => h) h
      · refine (safe_flush hR h).bind (fun result v hv _ => ?_) fun e v hv => hv.elim
        obtain ⟨buffer', ⟨e⟩ | ⟨⟨⟩⟩⟩ := result
        · exact (enduring_buffered hR).keeps.raise (fun _ h => h.frame) hv
        · exact ih hv

/-! ## Objects -/

/-- **The lines of an object with this content**, if all its rows can be read. -/
def LinesOf (content : ByteArray) (lines : List OrderLine) : Prop :=
  ∃ text, String.fromUTF8? content = some text ∧ orderLines text.toList = .ok lines

variable (versions attempt) in
/-- **The line is in the store** of the function: there is an item under its key; there is a document at its
ids, if these have no slash. -/
def HasEntry (w : Clouds) (line : OrderLine) : Cloud → Prop
  | .aws => ∃ path, line.path? = some path ∧ HasItem versions attempt w path
  | .gcp => ¬line.Slashed → ∃ path : DocumentId × DocumentId, path.1.Names line.orderId ∧
      path.2.Names line.sku ∧ HasDocument versions attempt w path

variable (versions attempt) in
/-- **An attempt has completed an object**: every line of the version that it has read is in the store. -/
def Complete (i : ι) (cloud : Cloud) (w : Clouds) (bucket name : String) : Prop :=
  ∃ content lines, versions i cloud bucket name content ∧ LinesOf content lines ∧
    ∀ line ∈ lines, HasEntry versions attempt w line cloud

/-- An entry of a line stays one. -/
theorem HasEntry.kept {cloud : Cloud} {line : OrderLine} {w' : Clouds}
    (h : HasEntry versions attempt w line cloud) (hw : Kept versions attempt w w') :
    HasEntry versions attempt w' line cloud := by
  cases cloud with
  | aws =>
      obtain ⟨path, hpath, hitem⟩ := h
      exact ⟨path, hpath, hw.hasItem path hitem⟩
  | gcp =>
      intro hslash
      obtain ⟨path, horder, hsku, hdocument⟩ := h hslash
      exact ⟨path, horder, hsku, hw.hasDocument path hdocument⟩

/-- An object whose lines are all stored stays so. -/
theorem Complete.kept {cloud : Cloud} {bucket name : String} {w' : Clouds}
    (h : Complete versions attempt i cloud w bucket name) (hw : Kept versions attempt w w') :
    Complete versions attempt i cloud w' bucket name := by
  obtain ⟨content, lines, hversion, hlines, hall⟩ := h
  exact ⟨content, lines, hversion, hlines, fun line hmem => (hall line hmem).kept hw⟩

variable (versions attempt R) in
/-- What a function leaves that got these objects. -/
def Ingested (i : ι) (cloud : Cloud) (objects : List (String × String)) : Except Exn Unit → Clouds → Prop
  | .ok _, w => R w ∧ ∀ object ∈ objects, Complete versions attempt i cloud w object.1 object.2
  | .error _, w => R w

/-- That some objects are complete endures. -/
theorem Enduring.and_complete (hR : Enduring versions attempt w₀ R) (i : ι) (cloud : Cloud)
    (objects : List (String × String)) : Enduring versions attempt w₀ fun w =>
      R w ∧ ∀ object ∈ objects, Complete versions attempt i cloud w object.1 object.2 where
  sourced v h := hR.sourced v h.1
  kept v v' hw h := ⟨hR.kept v v' hw h.1, fun object hmem => (h.2 object hmem).kept hw⟩

/-- The lines of the rows before an exception are readable. -/
theorem mem_readableLines {content : ByteArray} {text : String} (htext : String.fromUTF8? content = some text)
    {row : DictRow} (hrow : row ∈ (dictReader text.toList).1) {line : OrderLine}
    (hline : orderLine row = .ok line) : line ∈ readableLines content := by
  unfold readableLines
  rw [htext]
  exact List.mem_filterMap.2 ⟨row, hrow, by rw [hline]; rfl⟩

/-- The lines of a text that the reader gets through. -/
theorem orderLines_of_mapM {text : List Char} (lines : List OrderLine)
    (hmap : (dictReader text).1.mapM orderLine = .ok lines) (hend : (dictReader text).2 = none) :
    orderLines text = .ok lines := by
  unfold orderLines
  generalize dictReader text = read at hmap hend
  obtain ⟨rows, readerError⟩ := read
  cases hend
  exact hmap

/-- The items of the lines are in the table when the buffer is empty. -/
theorem Buffered.hasItem {key ingestedAt : String} {lines : List OrderLine}
    (h : Buffered versions attempt R (itemsOf key ingestedAt lines) [] w) {line : OrderLine}
    (hmem : line ∈ lines) : ∃ path, line.path? = some path ∧ HasItem versions attempt w path := by
  have hcovered := h.covered (line.item key ingestedAt) (List.mem_map.2 ⟨line, hmem, rfl⟩)
  obtain ⟨path, hpath, hitem⟩ := hcovered.resolve_left List.not_mem_nil
  refine ⟨path, ?_, hitem⟩
  rw [OrderLine.path_eq_some]
  unfold LineItem.key? at hpath
  split at hpath
  · rename_i orderId sku horder hsku
    split_ifs at hpath
    cases hpath
    have horder' : line.orderId = some orderId := horder
    have hsku' : line.sku = some sku := hsku
    rw [horder', hsku']
  · cases hpath

/-- **`_ingest_object`** -/
theorem safe_ingestObject (hR : Enduring versions attempt w₀ R) {time : Nat} {bucket key : String}
    (hobject : (bucket, key) ∈ (attempt i).event.objects .aws) (h : R w) :
    Safe (attemptView versions attempt w₀ i) (attemptContract versions attempt w₀)
      (Ingested versions attempt R i .aws [(bucket, key)]) (Invocation.ingestObject time bucket key) w := by
  unfold Invocation.ingestObject
  have hop : Writes versions attempt (.getObject bucket key) := trivial
  refine hR.keeps.call_bind hop (fun _ _ h => h)
    (fun v content v' hv hr hv' => ?_) h
  obtain ⟨hversion, -⟩ := hr
  cases htext : String.fromUTF8? content with
  | none =>
      rw [Invocation.decode_of_none htext]
      exact hR.keeps.raise (fun _ h => h) hv'
  | some text =>
      rw [Invocation.decode_of_some htext, Program.ofExcept_ok, Program.ret_bind]
      have hop : Writes versions attempt (.gmtime) := trivial
      refine hR.keeps.call_bind hop (fun _ _ h => h)
        (fun u ingestedAt u' hu _ hu' => ?_) hv'
      -- each row is one of an announced object, in the version read
      have hrows : ∀ row ∈ (dictReader text.toList).1, ∀ line, orderLine row = .ok line →
          Announced versions attempt .aws key line := by
        intro row hrow line hline
        exact ⟨i, bucket, hobject, content, hversion, mem_readableLines htext hrow hline⟩
      have hlines := @orderLines_of_mapM text.toList
      generalize dictReader text.toList = read at hrows hlines
      obtain ⟨rows, readerError⟩ := read
      dsimp only at hrows hlines ⊢
      have hstart : Buffered versions attempt R [] [] u' :=
        ⟨hu', fun _ hmem => absurd hmem List.not_mem_nil, fun _ hmem => absurd hmem List.not_mem_nil⟩
      refine (safe_putRows hR hrows hstart).bind (fun result x hx _ => ?_) fun e x hx => hx.elim
      obtain ⟨buffer', ⟨e⟩ | ⟨⟨⟩⟩⟩ := result
      · -- the exception is raised again when the buffer is empty
        refine (safe_exit hR time hx).bind (fun _ y hy _ => ?_) fun e y hy => hy
        exact hR.keeps.raise (fun _ h => h) hy.frame
      · obtain ⟨lines, hmap, hbuffered⟩ := hx
        refine (safe_exit hR time hbuffered).bind (fun _ y hy _ => ?_) fun e y hy => hy
        cases readerError with
        | some e => exact hR.keeps.raise (fun _ h => h) hy.frame
        | none =>
            refine (enduring_buffered hR).keeps.ret (fun z hz => ⟨hz.frame, ?_⟩) hy
            simp only [List.mem_singleton, forall_eq]
            -- all rows were put and the buffer is empty
            exact ⟨content, lines, hversion, ⟨text, htext, hlines lines hmap rfl⟩, fun line hmem =>
              hz.hasItem hmem⟩

/-- **`handle_s3_event`** -/
theorem safe_handleS3Event (hR : Enduring versions attempt w₀ R) {time : Nat} (objects : List ObjectCreated)
    (hobjects : ∀ object ∈ objects, (object.bucket, object.key) ∈ (attempt i).event.objects .aws)
    (h : R w) :
    Safe (attemptView versions attempt w₀ i) (attemptContract versions attempt w₀)
      (Ingested versions attempt R i .aws (objects.map fun object => (object.bucket, object.key)))
      (Invocation.handleS3Event time (objects.map ObjectCreated.record)) w := by
  induction objects generalizing R w with
  | nil => exact hR.keeps.ret (fun v hv => ⟨hv, fun _ hmem => absurd hmem List.not_mem_nil⟩) h
  | cons object objects ih =>
      rw [List.forall_mem_cons] at hobjects
      rw [List.map_cons, List.map_cons, Invocation.handleS3Event, object.unquotePlus_record]
      refine (safe_ingestObject hR hobjects.1 h).bind (fun _ v hv _ => ?_) fun e v hv => hv
      have hrest := ih (hR.and_complete i .aws [(object.bucket, object.key)]) hobjects.2 hv
      refine hrest.mono fun r u hr => ?_
      cases r with
      | error e => exact hr.1
      | ok a =>
          obtain ⟨⟨hu, hfirst⟩, hothers⟩ := hr
          refine ⟨hu, List.forall_mem_cons.2 ⟨?_, hothers⟩⟩
          exact hfirst _ List.mem_cons_self

/-- That a line has an entry endures. -/
theorem Enduring.and_hasEntry (hR : Enduring versions attempt w₀ R) (line : OrderLine) (cloud : Cloud) :
    Enduring versions attempt w₀ fun w => R w ∧ HasEntry versions attempt w line cloud where
  sourced v h := hR.sourced v h.1
  kept v v' hw h := ⟨hR.kept v v' hw h.1, h.2.kept hw⟩

/-- The id that a document gets. -/
theorem names_of_responds {read : Cloud → String → String → ByteArray → Prop} {w' : Clouds}
    {id : Option String} {p : DocumentId} (hr : Clouds.Responds read w (.document id) (.ok p) w') :
    p.Names id := by
  cases id with
  | none =>
      obtain ⟨rfl, -⟩ := hr
      trivial
  | some id =>
      obtain ⟨-, rfl, -⟩ := hr
      rfl

/-- The ids of a line without slashes are single parts of a path. -/
theorem isSegment_of_names {line : OrderLine} {order item : DocumentId} (hslash : ¬line.Slashed)
    (horder : order.Names line.orderId) (hitem : item.Names line.sku) :
    order.isSegment = true ∧ item.isSegment = true := by
  have hnamed : ∀ {p : DocumentId} {id : Option String}, p.Names id →
      (∀ text, id = some text → '/' ∉ text.toList) → p.isSegment = true := by
    intro p id hp hid
    cases p with
    | auto n => rfl
    | named text =>
        cases id with
        | none => exact hp.elim
        | some text' =>
            obtain rfl : text = text' := hp
            simpa [DocumentId.isSegment] using hid text rfl
  exact ⟨hnamed horder fun text htext hmem => hslash ⟨text, .inl htext, hmem⟩,
    hnamed hitem fun text htext hmem => hslash ⟨text, .inr htext, hmem⟩⟩

variable (versions attempt R) in
/-- What the loop over the rows leaves in Firestore. -/
def RowsPlaced (rows : List DictRow) : Except Exn Unit → Clouds → Prop
  | .ok _, w => R w ∧ ∃ lines, rows.mapM orderLine = .ok lines ∧
      ∀ line ∈ lines, HasEntry versions attempt w line .gcp
  | .error _, w => R w

/-- An order line from its cells. -/
theorem orderLine_of_cells {row : DictRow} {orderId sku channel : Option String} {quantity : Int}
    (horder : row.getItem "order_id" = .ok orderId) (hsku : row.getItem "sku" = .ok sku)
    (hquantity : (row.getItem "quantity" >>= intOfCell) = .ok quantity)
    (hchannel : row.getItem "channel" = .ok channel) :
    orderLine row = .ok ⟨orderId, sku, quantity, channel⟩ := by
  obtain ⟨cell, hcell, hint⟩ := exists_of_bind_eq_ok hquantity
  unfold orderLine
  rw [horder, hsku, hcell, hchannel]
  show (intOfCell cell >>= fun quantity => Except.ok (OrderLine.mk orderId sku quantity channel)) = _
  rw [hint]
  rfl

/-- **The loop over the rows.** -/
theorem safe_setRows (hR : Enduring versions attempt w₀ R) {name : String} {rows : List DictRow}
    (hrows : ∀ row ∈ rows, ∀ line, orderLine row = .ok line → Announced versions attempt .gcp name line)
    (h : R w) :
    Safe (attemptView versions attempt w₀ i) (attemptContract versions attempt w₀)
      (RowsPlaced versions attempt R rows) (Invocation.setRows name rows) w := by
  induction rows generalizing R w with
  | nil =>
      exact hR.keeps.ret (fun v hv => ⟨hv, [], rfl, fun _ hmem => absurd hmem List.not_mem_nil⟩) h
  | cons row rows ih =>
      rw [List.forall_mem_cons] at hrows
      unfold Invocation.setRows
      refine hR.keeps.pure_bind (fun _ _ h => h) (fun orderId horder => ?_) h
      -- the two ids
      have hop : Writes versions attempt (.document orderId) := trivial
      refine hR.keeps.call_bind hop (fun _ _ h => h)
        (fun u order v _ hr hv => ?_) h
      have hanswer : Clouds.Responds (versions i) u (.document orderId) (.ok order) v := hr
      have hname := names_of_responds hanswer
      refine hR.keeps.pure_bind (fun _ _ h => h) (fun sku hsku => ?_) hv
      have hop : Writes versions attempt (.document sku) := trivial
      refine hR.keeps.call_bind hop (fun _ _ h => h)
        (fun v item u _ hr hu => ?_) hv
      have hanswer : Clouds.Responds (versions i) v (.document sku) (.ok item) u := hr
      have hname' := names_of_responds hanswer
      refine hR.keeps.pure_bind (fun _ _ h => h) (fun quantity hquantity => ?_) hu
      refine hR.keeps.pure_bind (fun _ _ h => h) (fun channel hchannel => ?_) hu
      -- the cells make up the line of the row
      have hline := orderLine_of_cells horder hsku hquantity hchannel
      have hannounced := hrows.1 _ hline
      have hset : Writes versions attempt (.set order item ⟨orderId, sku, quantity, channel⟩ name) :=
        ⟨hannounced, hname, hname'⟩
      refine hR.keeps.call_bind hset (fun _ _ h => h) (fun x _ y _ hr hy => ?_) hu
      have hentry : HasEntry versions attempt y ⟨orderId, sku, quantity, channel⟩ .gcp := by
        intro hslash
        have hsets : x.Sets order item ⟨orderId, sku, quantity, channel⟩ name y := hr.2
        have hsegments := isSegment_of_names hslash hname hname'
        have hboth : (order.isSegment && item.isSegment) = true := by rw [hsegments.1, hsegments.2, Bool.and_self]
        unfold Clouds.Sets at hsets
        rw [if_pos hboth] at hsets
        obtain ⟨now, rfl⟩ := hsets
        exact ⟨(order, item), hname, hname', _, if_pos rfl, _, name, now, hannounced, rfl, hname, hname'⟩
      -- the entry endures while the other rows are written
      refine (ih (hR.and_hasEntry ⟨orderId, sku, quantity, channel⟩ .gcp) hrows.2 ⟨hy, hentry⟩).mono
        fun r z hz => ?_
      cases r with
      | error e => exact hz.1
      | ok a =>
          obtain ⟨⟨hz, hfirst⟩, lines, hlines, hothers⟩ := hz
          exact ⟨hz, _ :: lines, mapM_orderLine_cons.2 ⟨_, lines, hline, hlines, rfl⟩,
            List.forall_mem_cons.2 ⟨hfirst, hothers⟩⟩

/-- **`handle_gcs_event`** -/
theorem safe_handleGcsEvent (hR : Enduring versions attempt w₀ R) {bucket name : String}
    (hobject : (attempt i).event = .gcs bucket name) (h : R w) :
    Safe (attemptView versions attempt w₀ i) (attemptContract versions attempt w₀)
      (Ingested versions attempt R i .gcp ((FunctionEvent.gcs bucket name).objects .gcp))
      (Invocation.handleGcsEvent bucket name) w := by
  have hobjects : (FunctionEvent.gcs bucket name).objects .gcp =
      if isOrderCsv name then [(bucket, name)] else [] := rfl
  unfold Invocation.handleGcsEvent
  cases htaken : isOrderCsv name with
  | false =>
      rw [htaken] at hobjects
      rw [hobjects]
      exact hR.keeps.ret (fun v hv => ⟨hv, fun _ hmem => absurd hmem List.not_mem_nil⟩) h
  | true =>
      rw [htaken] at hobjects
      rw [hobjects]
      have hop : Writes versions attempt (.download bucket name) := trivial
      refine hR.keeps.call_bind hop (fun _ _ h => h)
        (fun v content v' hv hr hv' => ?_) h
      obtain ⟨hversion, -⟩ := hr
      cases htext : String.fromUTF8? content with
      | none =>
          rw [Invocation.decode_of_none htext]
          exact hR.keeps.raise (fun _ h => h) hv'
      | some text =>
          rw [Invocation.decode_of_some htext, Program.ofExcept_ok, Program.ret_bind]
          -- each row is one of an announced object, in the version read
          have hrows : ∀ row ∈ (dictReader text.toList).1, ∀ line, orderLine row = .ok line →
              Announced versions attempt .gcp name line := by
            intro row hrow line hline
            refine ⟨i, bucket, ?_, content, hversion, mem_readableLines htext hrow hline⟩
            rw [hobject, FunctionEvent.objects, htaken]
            exact List.mem_cons_self
          have hlines := @orderLines_of_mapM text.toList
          generalize dictReader text.toList = read at hrows hlines
          obtain ⟨rows, readerError⟩ := read
          dsimp only at hrows hlines ⊢
          refine (safe_setRows hR hrows hv').bind (fun _ u hu _ => ?_) fun e u hu => hu
          obtain ⟨hu, lines, hmap, hall⟩ := hu
          cases readerError with
          | some e => exact hR.keeps.raise (fun _ h => h) hu
          | none =>
              -- without an exception of the reader the lines are all there
              have hcomplete : Complete versions attempt i .gcp u bucket name :=
                ⟨content, lines, hversion, ⟨text, htext, hlines lines hmap rfl⟩, hall⟩
              refine (hR.and_complete i .gcp [(bucket, name)]).keeps.ret (fun z hz => hz) ⟨hu, ?_⟩
              simpa only [List.mem_singleton, forall_eq] using hcomplete

/-! ## All attempts -/

variable (versions attempt w₀) in
/-- What an attempt leaves. -/
def attemptPosts (i : ι) : Service.Posts Exn Unit Clouds where
  head _ := Sourced versions attempt w₀
  leave _ r w := Sourced versions attempt w₀ w ∧
    (r = .ok () → ∀ cloud, ∀ object ∈ (attempt i).event.objects cloud,
      Complete versions attempt i cloud w object.1 object.2)
  ended r w := Sourced versions attempt w₀ w ∧
    (r = .ok () → ∀ cloud, ∀ object ∈ (attempt i).event.objects cloud,
      Complete versions attempt i cloud w object.1 object.2)

/-- That the store is sourced endures. -/
theorem enduring_sourced : Enduring versions attempt w₀ (Sourced versions attempt w₀) where
  sourced _ h := h
  kept _ _ hw h := h.kept hw

/-- **The handler of an attempt**: when it returns, its objects are in the store of its function. -/
theorem safe_handler (h : Sourced versions attempt w₀ w) :
    Safe (attemptView versions attempt w₀ i) (attemptContract versions attempt w₀)
      (fun r w => Sourced versions attempt w₀ w ∧ (r = .ok () →
        ∀ cloud, ∀ object ∈ (attempt i).event.objects cloud,
          Complete versions attempt i cloud w object.1 object.2)) (attempt i).handler w := by
  unfold Attempt.handler
  cases hevent : (attempt i).event with
  | s3 objects =>
      have hobjects : ∀ object ∈ objects,
          (object.bucket, object.key) ∈ (attempt i).event.objects .aws := by
        intro object hmem
        rw [hevent]
        exact List.mem_map.2 ⟨object, hmem, rfl⟩
      refine (safe_handleS3Event enduring_sourced objects hobjects h).mono fun r v hv => ?_
      cases r with
      | error e => exact ⟨hv, fun heq => by cases heq⟩
      | ok a =>
          refine ⟨hv.1, fun _ cloud => ?_⟩
          cases cloud with
          | aws => exact hv.2
          | gcp => exact fun _ hmem => absurd hmem List.not_mem_nil
  | gcs bucket name =>
      refine (safe_handleGcsEvent enduring_sourced hevent h).mono fun r v hv => ?_
      cases r with
      | error e => exact ⟨hv, fun heq => by cases heq⟩
      | ok a =>
          refine ⟨hv.1, fun _ cloud => ?_⟩
          cases cloud with
          | aws => exact fun _ hmem => absurd hmem List.not_mem_nil
          | gcp => exact hv.2

/-- An attempt is sound: its handler keeps the contract. -/
theorem sound_attempt : ((attempts versions attempt).service i).Sound (attemptView versions attempt w₀ i)
    (attemptContract versions attempt w₀) (attemptPosts versions attempt w₀ i) where
  turn s w _ h := by
    refine (safe_handler h).bind (fun a v hv _ => ?_) fun e v hv => ⟨hv.1, fun heq => by cases heq⟩
    have henduring : Enduring versions attempt w₀ fun v => Sourced versions attempt w₀ v ∧
        ∀ cloud, ∀ object ∈ (attempt i).event.objects cloud,
          Complete versions attempt i cloud v object.1 object.2 := by
      refine ⟨fun v h => h.1, fun v v' hw h => ⟨h.1.kept hw, fun cloud object hmem => ?_⟩⟩
      exact (h.2 cloud object hmem).kept hw
    exact henduring.keeps.ret (fun z hz => ⟨hz.1, fun _ => hz.2⟩) ⟨hv.1, hv.2 rfl⟩
  finish s r w _ h := by
    have henduring : Enduring versions attempt w₀ fun v => Sourced versions attempt w₀ v ∧
        (r = .ok () → ∀ cloud, ∀ object ∈ (attempt i).event.objects cloud,
          Complete versions attempt i cloud v object.1 object.2) := by
      refine ⟨fun v h => h.1, fun v v' hw h => ⟨h.1.kept hw, fun hr cloud object hmem => ?_⟩⟩
      exact (h.2 hr cloud object hmem).kept hw
    cases r with
    | error e => exact henduring.keeps.raise (fun _ hz => hz) h
    | ok u => exact henduring.keeps.ret (fun _ hz => hz) h

variable [DecidableEq ι] {s : (attempts versions attempt).State}

/-- Every attempt is safe, at every moment. -/
theorem allSafe_attempts (hs : (attempts versions attempt).Reachable (· = w₀) s) :
    Pool.AllSafe (attempts versions attempt) (fun _ => attemptContract versions attempt w₀)
      (attemptPosts versions attempt w₀) s := by
  refine Pool.phaseSafe_of_reachable (fun i => sound_attempt) (fun w hw i => ?_)
    (fun w φ w' _ hr => hr.elim) hs
  have hstart : Sourced versions attempt w₀ w := by
    rw [hw]
    exact ⟨fun _ _ h => .inl h, fun _ _ h => .inl h⟩
  exact enduring_sourced.keeps.ret (fun _ h => h) hstart

/-- What is in the stores comes from announced objects. -/
theorem sourced_of_reachable (hs : (attempts versions attempt).Reachable (· = w₀) s) :
    Sourced versions attempt w₀ s.1 := by
  rcases isEmpty_or_nonempty ι with hempty | ⟨⟨i⟩⟩
  · -- without attempts nothing happens
    obtain ⟨w, rfl, hrun⟩ := hs
    have hsame : s.1 = w := by
      induction hrun with
      | refl => rfl
      | tail _ hstep ih =>
          cases hstep with
          | interfere h => exact h.elim
          | thread i h => exact hempty.elim i
          | restart h => exact h.elim
    rw [hsame]
    exact ⟨fun _ _ h => .inl h, fun _ _ h => .inl h⟩
  · exact (allSafe_attempts hs i).inv

/-- Every step writes lines of announced objects. -/
theorem kept_of_step {s' : (attempts versions attempt).State}
    (hs : (attempts versions attempt).Reachable (· = w₀) s)
    (hstep : Pool.Step (attempts versions attempt) s s') : Kept versions attempt s.1 s'.1 := by
  cases hstep with
  | interfere h => exact h.elim
  | @thread w w' φ j φ' h =>
      cases h with
      | call r hφ hr =>
          -- the call is one of a safe attempt
          have hop := (Service.PhaseSafe.pending (allSafe_attempts hs j) hφ).1
          exact Writes.kept hop hr
      | silent hφ => exact .refl
  | restart h => exact h.elim

/-- **An attempt that has returned has completed its objects for good**: the lines of the version that it
has read are in the store, in every later state, too. -/
theorem complete_of_returned (hs : (attempts versions attempt).Reachable (· = w₀) s) {i : ι}
    (hreturned : s.2 i = .terminated (.ok ())) {cloud : Cloud} {object : String × String}
    (hobject : object ∈ (attempt i).event.objects cloud) :
    ∃ content lines, versions i cloud object.1 object.2 content ∧ LinesOf content lines ∧
      ∀ s', (attempts versions attempt).Runs s s' → ∀ line ∈ lines, HasEntry versions attempt s'.1 line cloud := by
  have hsafe := allSafe_attempts hs i
  rw [hreturned] at hsafe
  obtain ⟨content, lines, hversion, hlines, hall⟩ := (hsafe s.1 .refl).2.2 rfl cloud object hobject
  refine ⟨content, lines, hversion, hlines, fun s' hrun => ?_⟩
  obtain ⟨w, hw, hstart⟩ := hs
  induction hrun with
  | refl => exact hall
  | tail hrun hstep ih =>
      have hkept := kept_of_step ⟨w, hw, hstart.trans hrun⟩ hstep
      exact fun line hmem => (ih line hmem).kept hkept

/-- **The table of order lines**, whatever happened to the attempts: an item that was not there before is
the one of a line in an announced object, under the key of the line; and when an attempt at a notification
has returned, every line of the version that it has read of its objects has an item, from then on. -/
theorem items_of_announced (hs : (attempts versions attempt).Reachable (· = w₀) s) :
    (∀ key item, s.1.table key = some item →
        w₀.table key = some item ∨ (item.key? = some key ∧ OfLine versions attempt item)) ∧
      ∀ i, s.2 i = .terminated (.ok ()) → ∀ object ∈ (attempt i).event.objects .aws,
        ∃ content lines, versions i .aws object.1 object.2 content ∧ LinesOf content lines ∧
          ∀ s', (attempts versions attempt).Runs s s' → ∀ line ∈ lines,
            ∃ key, line.path? = some key ∧ HasItem versions attempt s'.1 key :=
  ⟨(sourced_of_reachable hs).1, fun _ hreturned _ hobject => complete_of_returned hs hreturned hobject⟩

/-- **The documents in Firestore**, whatever happened to the attempts: a document that was not there before
is the one of a line in an announced object, at ids that are those of the line; and when an attempt at an
event has returned, every line without slashes of the version that it has read has a document, from then
on. -/
theorem documents_of_announced (hs : (attempts versions attempt).Reachable (· = w₀) s) :
    (∀ path document, s.1.db.documents path = some document →
        w₀.db.documents path = some document ∨ DocumentOfLine versions attempt path document) ∧
      ∀ i, s.2 i = .terminated (.ok ()) → ∀ object ∈ (attempt i).event.objects .gcp,
        ∃ content lines, versions i .gcp object.1 object.2 content ∧ LinesOf content lines ∧
          ∀ s', (attempts versions attempt).Runs s s' → ∀ line ∈ lines, ¬line.Slashed →
            ∃ path : DocumentId × DocumentId, path.1.Names line.orderId ∧ path.2.Names line.sku ∧
              HasDocument versions attempt s'.1 path :=
  ⟨(sourced_of_reachable hs).2, fun _ hreturned _ hobject => complete_of_returned hs hreturned hobject⟩

end programs

/-! ## An order -/

/-- Objects that never change. -/
def onlyVersion (contents : Cloud → String → String → ByteArray) :
    Cloud → String → String → ByteArray → Prop :=
  fun cloud bucket name content => content = contents cloud bucket name

/-- What clouds that fail no call answer, any clouds may answer. -/
theorem responds_of_reliable {contents : Cloud → String → String → ByteArray} {now : String}
    {w w' : Clouds} {op : FunctionOp} {r : Except Exn op.Res}
    (h : (reliableClouds contents now).responds w op r w') :
    Clouds.Responds (onlyVersion contents) w op r w' := by
  cases op with
  | getObject bucket key =>
      obtain ⟨rfl, rfl⟩ := h
      exact ⟨rfl, rfl⟩
  | gmtime =>
      obtain ⟨rfl, rfl⟩ := h
      rfl
  | batchWriteItem items =>
      unfold reliableClouds at h
      dsimp only at h
      cases hbatch : batchWriteItem w.table items with
      | ok table =>
          rw [hbatch] at h
          obtain ⟨rfl, rfl⟩ := h
          obtain ⟨hgood, rfl⟩ := batchWriteItem_eq_ok.1 hbatch
          -- the whole batch is processed
          exact ⟨hgood, items, by rw [List.append_nil], rfl⟩
      | error e =>
          rw [hbatch] at h
          obtain ⟨rfl, rfl⟩ := h
          -- or nothing of it
          exact ⟨[], List.nil_sublist items, rfl⟩
  | download bucket name =>
      obtain ⟨rfl, rfl⟩ := h
      exact ⟨rfl, rfl⟩
  | document id =>
      unfold reliableClouds at h
      dsimp only at h
      cases id with
      | none =>
          obtain ⟨rfl, rfl⟩ := h
          exact ⟨rfl, rfl⟩
      | some id =>
          by_cases hid : Firestore.isDocumentId id = true
          · rw [Firestore.document, if_pos hid] at h
            obtain ⟨rfl, rfl⟩ := h
            exact ⟨of_decide_eq_true (Bool.and_eq_true_iff.1 hid).1, rfl, rfl⟩
          · rw [Firestore.document, if_neg hid] at h
            obtain ⟨rfl, rfl⟩ := h
            rfl
  | set order item line name =>
      change (if Firestore.isInt64 line.quantity && order.isSegment && item.isSegment then _ else _) at h
      split_ifs at h with hgood
      · obtain ⟨rfl, rfl⟩ := h
        obtain ⟨⟨hint, horder⟩, hitem⟩ : (Firestore.isInt64 line.quantity = true ∧ order.isSegment = true) ∧
          item.isSegment = true := by simpa using hgood
        refine ⟨hint, ?_⟩
        unfold Clouds.Sets
        rw [horder, hitem, if_pos (Bool.and_self true)]
        exact ⟨now, rfl⟩
      · obtain ⟨rfl, rfl⟩ := h
        exact .inl rfl

/-- The attempts, where the objects never change. -/
abbrev steadyAttempts (contents : Cloud → String → String → ByteArray) (attempt : ι → Attempt) :
    Pool functionCalls Exn Clouds fun _ : ι => Unit :=
  attempts (fun _ => onlyVersion contents) attempt

/-- An attempt whose handler returns, while the others rest. -/
theorem reachable_returned {contents : Cloud → String → String → ByteArray} {now : String} [DecidableEq ι]
    {attempt : ι → Attempt} {i : ι} {w w' : Clouds}
    (h : Executes (reliableClouds contents now) (attempt i).handler w (.ok ()) w') :
    ∃ s, (steadyAttempts contents attempt).Reachable (· = w) s ∧ s.1 = w' ∧
      s.2 i = .terminated (.ok ()) := by
  have hhandler : Executes ((steadyAttempts contents attempt).alone i) (attempt i).handler w (.ok ()) w' :=
    h.of_calls (Program.calls_trivial _) (fun _ hr => responds_of_reliable hr) fun hm => hm.elim
  have hsetup : (steadyAttempts contents attempt).Runs (w, (steadyAttempts contents attempt).start)
      (w, Function.update (steadyAttempts contents attempt).start i (.head ())) :=
    Pool.runs_setup rfl .ret
  have hturn := Pool.runs_turn_then (Function.update_self i (.head ())
    (steadyAttempts contents attempt).start) (hhandler.bind .ret) rfl
  have hfinish : (steadyAttempts contents attempt).Runs
      (w', Function.update (steadyAttempts contents attempt).start i (.finish (.ret ())))
      (w', Function.update (Function.update (steadyAttempts contents attempt).start i (.finish (.ret ()))) i
        (.terminated (.ok ()))) := Pool.runs_finish (Function.update_self ..) .ret
  rw [Function.update_idem] at hturn hfinish
  exact ⟨(w', Function.update (steadyAttempts contents attempt).start i (.terminated (.ok ()))),
    ⟨w, rfl, (hsetup.trans hturn).trans hfinish⟩, rfl, Function.update_self ..⟩

/-- The object of an order, in a notification. -/
def orderCreated : ObjectCreated where
  bucket := "orders-processed"
  key := "orders/A 1.csv"
  text := "orders/A+1.csv"
  encoded := Percent.formEncoded_of_plain _ (by decide +kernel)

/-- Attempts at the notifications of an order: in both clouds, again and again. -/
def orderAttempt (time i : Nat) : Attempt :=
  if i % 2 = 0 then ⟨.s3 [orderCreated], time⟩ else ⟨.gcs "orders-processed" "orders/A 1.csv", time⟩

/-- The clouds before the order. -/
def emptyClouds : Clouds := ⟨Table.empty, ⟨Table.empty, 0⟩⟩

/-- The clouds in which every object is the order. -/
abbrev orderClouds : Cloud → String → String → ByteArray := fun _ _ _ => orderCsv.toUTF8

/-- The quantities of the example are integers that Firestore takes. -/
theorem isInt64_orderCsv : ∀ line ∈ ([⟨some "A1", some "S1", 1, some "web"⟩,
    ⟨some "A1", some "S2", 2, some "web"⟩] : List OrderLine), Firestore.isInt64 line.quantity = true := by
  decide

/-- The order has two lines. -/
theorem eq_of_linesOf {lines : List OrderLine} (h : LinesOf orderCsv.toUTF8 lines) :
    lines = [⟨some "A1", some "S1", 1, some "web"⟩, ⟨some "A1", some "S2", 2, some "web"⟩] := by
  obtain ⟨text, htext, hlines⟩ := h
  obtain rfl := Option.some.inj (htext.symm.trans (Json.fromUTF8?_toUTF8 orderCsv))
  exact Except.ok.inj (hlines.symm.trans orderLines_orderCsv)

/-- The Lambda function completes the order. -/
theorem executes_order_aws : ∃ time w, Executes (reliableClouds orderClouds "2026-06-10T09:32:11Z")
    (orderAttempt time 0).handler emptyClouds (.ok ()) w := by
  obtain ⟨n, hn⟩ := executes_ingestObject orderClouds "2026-06-10T09:32:11Z"
    "orders-processed" "orders/A 1.csv" emptyClouds
  have hok : (ingestObject orderCsv.toUTF8 "orders/A 1.csv" "2026-06-10T09:32:11Z" Table.empty).2 =
      .ok () := by
    refine (ingestObject_completes_iff (Json.fromUTF8?_toUTF8 orderCsv) orderLines_orderCsv
      isInt64_orderCsv).2 ⟨by simp [OrderLine.Empty], ?_⟩
    simp [OrderLine.Missing, RepeatsInBatch, chunks_cons]
  have hingest := hn n le_rfl
  change Executes _ _ _ (ingestObject orderCsv.toUTF8 "orders/A 1.csv" "2026-06-10T09:32:11Z"
    Table.empty).2 _ at hingest
  rw [hok] at hingest
  generalize emptyClouds.withTable _ = w at hingest
  refine ⟨n, w, ?_⟩
  show Executes _ (Invocation.handleS3Event n [orderCreated.record]) _ _ _
  rw [Invocation.handleS3Event, orderCreated.unquotePlus_record]
  exact hingest.bind .ret

/-- The Cloud Function completes it, too. -/
theorem executes_order_gcp : ∃ w, Executes (reliableClouds orderClouds "2026-06-10T09:32:11Z")
    (orderAttempt 0 1).handler emptyClouds (.ok ()) w := by
  have hname : isOrderCsv "orders/A 1.csv" = true := by decide +kernel
  have hok : (handleGcsEvent Firestore.isDocumentId orderCsv.toUTF8 "orders/A 1.csv" "2026-06-10T09:32:11Z"
      emptyClouds.db).2 = .ok () :=
    (handleGcsEvent_completes_iff Firestore.plainIds_isDocumentId hname (Json.fromUTF8?_toUTF8 orderCsv)
      orderLines_orderCsv isInt64_orderCsv).2 ⟨by simp [OrderLine.Empty], by simp [OrderLine.Slashed]⟩
  have hgcs : handleGcsEvent Firestore.isDocumentId (orderClouds .gcp "orders-processed" "orders/A 1.csv")
      "orders/A 1.csv" "2026-06-10T09:32:11Z" emptyClouds.db = (_, .ok ()) := Prod.ext rfl hok
  exact ⟨_, executes_handleGcsEvent orderClouds "2026-06-10T09:32:11Z" hgcs⟩

/-- An order in the table: both lines have items, from the end of the attempt on. -/
theorem items_of_announced_order : ∃ (time : Nat) (lines : List OrderLine), lines.length = 2 ∧
    ∃ s, (steadyAttempts orderClouds (orderAttempt time)).Reachable (· = emptyClouds) s ∧
      ∀ s', (steadyAttempts orderClouds (orderAttempt time)).Runs s s' → ∀ line ∈ lines,
        ∃ key, line.path? = some key ∧
          HasItem (fun _ => onlyVersion orderClouds) (orderAttempt time) s'.1 key := by
  obtain ⟨time, w, hrun⟩ := executes_order_aws
  obtain ⟨s, hs, -, hreturned⟩ := reachable_returned hrun
  obtain ⟨content, lines, hversion, hlines, hlast⟩ := (items_of_announced hs).2 0 hreturned
    ("orders-processed", "orders/A 1.csv") List.mem_cons_self
  obtain rfl : content = orderCsv.toUTF8 := hversion
  exact ⟨time, lines, congrArg List.length (eq_of_linesOf hlines), s, hs, hlast⟩

/-- An order in Firestore: both lines have documents, from the end of the attempt on. -/
theorem documents_of_announced_order : ∃ lines : List OrderLine, lines.length = 2 ∧
    ∃ s, (steadyAttempts orderClouds (orderAttempt 0)).Reachable (· = emptyClouds) s ∧
      ∀ s', (steadyAttempts orderClouds (orderAttempt 0)).Runs s s' → ∀ line ∈ lines,
        ∃ path : DocumentId × DocumentId, path.1.Names line.orderId ∧ path.2.Names line.sku ∧
          HasDocument (fun _ => onlyVersion orderClouds) (orderAttempt 0) s'.1 path := by
  obtain ⟨w, hrun⟩ := executes_order_gcp
  obtain ⟨s, hs, -, hreturned⟩ := reachable_returned hrun
  have hobject : ("orders-processed", "orders/A 1.csv") ∈ (orderAttempt 0 1).event.objects .gcp := by
    decide +kernel
  obtain ⟨content, lines, hversion, hlines, hlast⟩ := (documents_of_announced hs).2 1 hreturned _ hobject
  obtain rfl : content = orderCsv.toUTF8 := hversion
  have hslash : ¬∃ line ∈ lines, line.Slashed := by
    rw [eq_of_linesOf hlines]
    simp [OrderLine.Slashed]
  exact ⟨lines, congrArg List.length (eq_of_linesOf hlines), s, hs, fun s' hrun line hmem =>
    hlast s' hrun line hmem fun h => hslash ⟨line, hmem, h⟩⟩

end TransferWorker
