import TransferWorker.Ingestion.Agreement
import Mathlib.Data.List.Nodup

/-! # Redelivered notifications

What a notification that is delivered once more, later, does to the tables of the ingestion functions.
The objects have fixed contents and well-formed rows; a table is compared without the times of
ingestion.

* **`Cloud.run`** — one of the two functions for the notifications of a sequence, one after the other.
* **`lastWriter`** — the object that wrote to a key last.
* **`redelivery_iff`** — which redeliveries leave the tables as they are. -/

namespace TransferWorker

open Stores

/-- A notification: an object was created. -/
structure Notification where
  /-- The key of the object. -/
  name : String
  /-- When the function runs. -/
  time : String

/-- The two ingestion functions. -/
inductive Cloud where
  /-- `_ingest_object` -/
  | aws
  /-- `handle_gcs_event` -/
  | gcp

namespace Cloud

/-- What a function keeps its rows in. -/
def Store : Cloud → Type
  | aws => LineItemTable
  | gcp => Firestore

variable (accepts : String → Bool)

/-- **The function for all notifications of a sequence**, in order. `accepts` are the ids that the Firestore
client accepts. -/
def run (contents : String → ByteArray) : (cloud : Cloud) → cloud.Store → List Notification → cloud.Store
  | aws, (table : LineItemTable), ns =>
      ns.foldl (fun table n => (ingestObject (contents n.name) n.name n.time table).1) table
  | gcp, (db : Firestore), ns =>
      ns.foldl (fun db n => (handleGcsEvent accepts (contents n.name) n.name n.time db).1) db

/-- The same rows, in every field but `ingestedAt`. -/
def SameRows : (cloud : Cloud) → cloud.Store → cloud.Store → Prop
  | aws, (table : LineItemTable), (table' : LineItemTable) => ∀ k,
      (table k).map (fun item => { item with ingestedAt := "" }) =
        (table' k).map fun item => { item with ingestedAt := "" }
  | gcp, (db : Firestore), (db' : Firestore) => ∀ k,
      (db.documents k).map (fun doc => { doc with ingestedAt := "" }) =
        (db'.documents k).map fun doc => { doc with ingestedAt := "" }

/-- The objects that a function does not ignore. -/
def takes : Cloud → String → Bool
  | aws, _ => true
  | gcp, name => isOrderCsv name

/-- The order lines that a function reads from an object. -/
def linesOf (cloud : Cloud) (contents : String → ByteArray) (name : String) : List OrderLine :=
  if cloud.takes name then
    match String.fromUTF8? (contents name) with
    | none => []
    | some text =>
        match orderLines text.toList with
        | .ok lines => lines
        | .error _ => []
  else []

/-- What the store of a function can hold of a line. -/
def Fits : Cloud → OrderLine → Prop
  | aws, line => line.quantity.natAbs < 10 ^ 38
  | gcp, line => Firestore.isInt64 line.quantity = true ∧ line.Addressable accepts ∧ ¬line.Slashed

/-- **An object with well-formed rows**: both ids are there, the store can hold them and the quantity,
and no two rows have the same ids. -/
structure WellFormedObject (cloud : Cloud) (contents : String → ByteArray) (name : String) : Prop where
  /-- The rows are order lines. -/
  reads : cloud.takes name = true → ∃ text, String.fromUTF8? (contents name) = some text ∧
    orderLines text.toList = .ok (cloud.linesOf contents name)
  /-- The ids are there. -/
  present : ∀ line ∈ cloud.linesOf contents name, ¬line.Missing
  /-- They are not empty. -/
  nonempty : ∀ line ∈ cloud.linesOf contents name, ¬line.Empty
  /-- The store can hold them and the quantities. -/
  fits : ∀ line ∈ cloud.linesOf contents name, cloud.Fits accepts line
  /-- No ids twice. -/
  nodup : ((cloud.linesOf contents name).map fun line => (line.orderId, line.sku)).Nodup

end Cloud

/-- The keys that an object writes. -/
def pathsOf (lines : String → List OrderLine) (name : String) : List (String × String) :=
  (lines name).filterMap OrderLine.path?

/-- **The object that wrote to a key last**, of the notifications so far. -/
def lastWriter (lines : String → List OrderLine) (ns : List Notification) (path : String × String) :
    Option String :=
  lastWrite (ns.flatMap fun n => (pathsOf lines n.name).map fun path => (path, n.name)) path

/-- What a function writes for a notification: a record of every line, under a key of its ids. -/
def recordWrites {L V : Type} (lines : String → List OrderLine) (place : String × String → L)
    (record : Notification → OrderLine → V) (n : Notification) : List (L × V) :=
  (lines n.name).filterMap fun line => line.path?.map fun path => (place path, record n line)

/-! ## One store -/

section store

variable {L V W : Type} {lines : String → List OrderLine} {place : String × String → L}
  {record : Notification → OrderLine → V} {view : V → W} {source : W → String}
  {before after : List Notification} {n : Notification}

/-- What is written of a notification: for every line with a path, its record. -/
theorem mem_recordWrites {w : L × V} : w ∈ recordWrites lines place record n ↔
    ∃ line ∈ lines n.name, ∃ path, line.path? = some path ∧ w = (place path, record n line) := by
  simp only [recordWrites, List.mem_filterMap, Option.map_eq_some_iff]
  constructor
  · rintro ⟨line, hline, path, hpath, rfl⟩
    exact ⟨line, hline, path, hpath, rfl⟩
  · rintro ⟨line, hline, path, hpath, rfl⟩
    exact ⟨line, hline, path, hpath, rfl⟩

/-- The paths of an object are those of its lines. -/
theorem mem_pathsOf {name : String} {path : String × String} :
    path ∈ pathsOf lines name ↔ ∃ line ∈ lines name, line.path? = some path := List.mem_filterMap

/-- The keys of what is written are the places of the paths. -/
theorem keys_recordWrites :
    keys (recordWrites lines place record n) = (pathsOf lines n.name).map place := by
  simp only [keys, recordWrites, pathsOf, List.map_filterMap]
  refine List.filterMap_congr fun line _ => ?_
  cases line.path? <;> rfl

/-- The keys of what several notifications write. -/
theorem mem_keys_flatMap {ns : List Notification} {k : L} :
    k ∈ keys (ns.flatMap (recordWrites lines place record)) ↔
      ∃ m ∈ ns, ∃ path ∈ pathsOf lines m.name, k = place path := by
  simp only [keys, List.map_flatMap, List.mem_flatMap]
  refine exists_congr fun m => and_congr_right fun _ => ?_
  show k ∈ keys (recordWrites lines place record m) ↔ _
  rw [keys_recordWrites, List.mem_map]
  exact exists_congr fun path => and_congr_right fun _ => eq_comm

/-- The paths of an object without repeated ids are different. -/
theorem nodup_pathsOf {name : String}
    (h : ((lines name).map fun line => (line.orderId, line.sku)).Nodup) : (pathsOf lines name).Nodup := by
  rw [List.Nodup, List.pairwise_map] at h
  rw [pathsOf, List.Nodup, List.pairwise_filterMap]
  refine h.imp fun {line line'} hne path hpath path' hpath' heq => ?_
  rw [OrderLine.path_eq_some] at hpath hpath'
  exact hne (by rw [hpath, hpath', heq])

variable [DecidableEq L] {table : Table L V}

/-- The last record under a key is the one of the object that wrote to it last. -/
theorem source_lastWrite (hplace : Function.Injective place)
    (hsource : ∀ n line, source (view (record n line)) = n.name) (ns : List Notification)
    (path : String × String) :
    (lastWrite (ns.flatMap (recordWrites lines place record)) (place path)).map (source ∘ view) =
      lastWriter lines ns path := by
  have hwriters : mapValues (source ∘ view) (ns.flatMap (recordWrites lines place record)) =
      (ns.flatMap fun n => (pathsOf lines n.name).map fun path => (path, n.name)).map
        fun w => (place w.1, w.2) := by
    simp only [mapValues, List.map_flatMap, recordWrites, pathsOf, List.map_filterMap, Option.map_map]
    refine List.flatMap_congr fun m _ => List.filterMap_congr fun line _ => ?_
    refine congrFun (congrArg _ (funext fun p => ?_)) _
    simp [hsource]
  rw [← lastWrite_mapValues, hwriters, lastWrite_mapKeys hplace]
  rfl

variable (source) in
/-- **A redelivery in one store**: what a view of the records shows stays as it is exactly if each key of
the object is written again later or was last written by the same object. -/
theorem repeated_records_iff (hplace : Function.Injective place)
    (hsource : ∀ n line, source (view (record n line)) = n.name)
    (hview : ∀ n n' line, n.name = n'.name → view (record n line) = view (record n' line))
    (hnodup : ((lines n.name).map fun line => (line.orderId, line.sku)).Nodup)
    (hn : ∃ m ∈ before, m.name = n.name) :
    (∀ k, (putAll table ((before ++ n :: after).flatMap (recordWrites lines place record)) k).map view =
        (putAll table ((before ++ after).flatMap (recordWrites lines place record)) k).map view) ↔
      ∀ path ∈ pathsOf lines n.name, (∃ m ∈ after, path ∈ pathsOf lines m.name) ∨
        lastWriter lines before path = some n.name := by
  obtain ⟨m, hm, hname⟩ := hn
  have hkeys : (keys (recordWrites lines place record n)).Nodup := by
    rw [keys_recordWrites]
    exact List.Nodup.map hplace (nodup_pathsOf hnodup)
  -- the object was announced before, so its keys are written already
  have hpast : ∀ k ∈ keys (recordWrites lines place record n),
      k ∈ keys (before.flatMap (recordWrites lines place record)) := by
    intro k hk
    rw [keys_recordWrites] at hk
    obtain ⟨path, hpath, rfl⟩ := List.mem_map.1 hk
    exact mem_keys_flatMap.2 ⟨m, hm, path, hname ▸ hpath, rfl⟩
  rw [List.flatMap_append, List.flatMap_append, List.flatMap_cons, map_putAll_repeat_iff hkeys hpast]
  constructor
  · intro h path hpath
    obtain ⟨line, hline, hlinePath⟩ := mem_pathsOf.1 hpath
    rcases h _ _ (mem_recordWrites.2 ⟨line, hline, path, hlinePath, rfl⟩) with hlater | hlast
    · obtain ⟨m', hm', path', hpath', heq⟩ := mem_keys_flatMap.1 hlater
      exact .inl ⟨m', hm', hplace heq ▸ hpath'⟩
    · refine .inr ?_
      rw [← source_lastWrite hplace hsource, ← Option.map_map, hlast, Option.map_some, hsource]
  · intro h k v hmem
    obtain ⟨line, hline, path, hpath, heq⟩ := mem_recordWrites.1 hmem
    cases heq
    rcases h path (mem_pathsOf.2 ⟨line, hline, hpath⟩) with ⟨m', hm', hpath'⟩ | hlast
    · exact .inl (mem_keys_flatMap.2 ⟨m', hm', path, hpath', rfl⟩)
    · -- the last record is one of the same object, and so of the same line
      refine .inr ?_
      rw [← source_lastWrite hplace hsource, Option.map_eq_some_iff] at hlast
      obtain ⟨v, hv, hsrc⟩ := hlast
      obtain ⟨m', hm', hw⟩ := List.mem_flatMap.1 (mem_of_lastWrite hv)
      obtain ⟨line', hline', path', hpath', heq⟩ := mem_recordWrites.1 hw
      rw [Prod.mk.injEq] at heq
      have hpaths : path = path' := hplace heq.1
      have hsame : m'.name = n.name := by rw [← hsrc, heq.2, Function.comp_apply, hsource]
      have hlines : line' = line := by
        rw [hsame] at hline'
        rw [OrderLine.path_eq_some] at hpath hpath'
        exact List.inj_on_of_nodup_map hnodup hline' hline (by rw [hpath, hpath', hpaths])
      rw [hv, Option.map_some, heq.2, hlines, hview m' n line hsame]

end store

/-! ## The functions as writes -/

section writes

variable {accepts : String → Bool} {contents : String → ByteArray} {name : String}

/-- No two of the lines that are sent together have the same ids. -/
theorem not_repeatsInBatch {lines : List OrderLine}
    (h : (lines.map fun line => (line.orderId, line.sku)).Nodup) : ¬RepeatsInBatch lines := by
  rintro ⟨batch, hbatch, hrepeat⟩
  have hsub : batch.Sublist lines := by
    rw [← flatten_chunks 24 lines]
    exact List.sublist_flatten_of_mem hbatch
  exact hrepeat (h.sublist (hsub.map _))

/-- **`_ingest_object`** on an object with well-formed rows. -/
theorem ingestObject_wellFormed (h : Cloud.WellFormedObject accepts .aws contents name) (time : String)
    (table : LineItemTable) :
    (ingestObject (contents name) name time table).1 = putAll table
      (recordWrites (Cloud.linesOf .aws contents) id (fun n line => line.item n.name n.time) ⟨name, time⟩) := by
  obtain ⟨text, htext, hread⟩ := h.reads rfl
  have hbatches := (goodBatches_iff name time h.fits).2
    ⟨fun line hline => ⟨h.present line hline, h.nonempty line hline⟩, not_repeatsInBatch h.nodup⟩
  rw [(ingestObject_ok_iff htext).2 ⟨_, hread, hbatches, rfl⟩]
  refine congrArg (putAll table) ?_
  simp only [itemWrites, itemsOf, recordWrites, List.filterMap_map]
  refine List.filterMap_congr fun line hline => ?_
  have hkey : (line.item name time).key? ≠ none :=
    OrderLine.key_ne_none_iff.2 ⟨h.present line hline, h.nonempty line hline⟩
  rw [Function.comp_apply, OrderLine.key_eq_path hkey]
  rfl

/-- **`handle_gcs_event`** on an object with well-formed rows. -/
theorem handleGcsEvent_wellFormed (h : Cloud.WellFormedObject accepts .gcp contents name) (time : String)
    (db : Firestore) :
    (handleGcsEvent accepts (contents name) name time db).1.documents = putAll db.documents
      (recordWrites (Cloud.linesOf .gcp contents) documentPath
        (fun n line => line.document n.name n.time) ⟨name, time⟩) := by
  by_cases hname : isOrderCsv name = true
  · obtain ⟨text, htext, hread⟩ := h.reads hname
    have hok : (handleGcsEvent accepts (contents name) name time db).2 = .ok () := by
      rw [handleGcsEvent_ok_iff hname htext]
      exact ⟨_, hread, fun line hline => ⟨(h.fits line hline).2.1, (h.fits line hline).1⟩⟩
    rw [handleGcsEvent_documents hname htext hok hread fun line hline =>
      OrderLine.path_ne_none_iff.2 (h.present line hline)]
    refine congrArg (putAll db.documents) ?_
    simp only [documentWrites, recordWrites, List.map_filterMap, Option.map_map]
    rfl
  · -- the object is ignored
    have hlines : Cloud.linesOf .gcp contents name = [] := if_neg hname
    have hskip : handleGcsEvent accepts (contents name) name time db = (db, .ok ()) := if_pos (by simp [hname])
    rw [hskip, recordWrites, hlines]
    rfl

/-- A run of the DynamoDB function on well-formed objects, as writes. -/
theorem run_aws {ns : List Notification} (h : ∀ m ∈ ns, Cloud.WellFormedObject accepts .aws contents m.name)
    (table : LineItemTable) :
    Cloud.run accepts contents .aws table ns = putAll table (ns.flatMap
      (recordWrites (Cloud.linesOf .aws contents) id fun n line => line.item n.name n.time)) := by
  induction ns generalizing table with
  | nil => rfl
  | cons n ns ih =>
      rw [List.forall_mem_cons] at h
      rw [List.flatMap_cons, putAll_append, ← ingestObject_wellFormed h.1 n.time table, ← ih h.2]
      rfl

/-- A run of the Firestore function on well-formed objects, as writes. -/
theorem run_gcp {ns : List Notification} (h : ∀ m ∈ ns, Cloud.WellFormedObject accepts .gcp contents m.name)
    (db : Firestore) :
    (Cloud.run accepts contents .gcp db ns : Firestore).documents = putAll db.documents (ns.flatMap
      (recordWrites (Cloud.linesOf .gcp contents) documentPath fun n line => line.document n.name n.time)) := by
  induction ns generalizing db with
  | nil => rfl
  | cons n ns ih =>
      rw [List.forall_mem_cons] at h
      rw [List.flatMap_cons, putAll_append, ← handleGcsEvent_wellFormed h.1 n.time db, ← ih h.2]
      rfl

/-- With a redelivery there are no other objects. -/
theorem wellFormed_redelivered {cloud : Cloud} {before after : List Notification} {n : Notification}
    (hwf : ∀ m ∈ before ++ after, cloud.WellFormedObject accepts contents m.name)
    (hn : ∃ m ∈ before, m.name = n.name) :
    cloud.WellFormedObject accepts contents n.name ∧
      ∀ m ∈ before ++ n :: after, cloud.WellFormedObject accepts contents m.name := by
  obtain ⟨m, hm, hname⟩ := hn
  have hobject : cloud.WellFormedObject accepts contents n.name := hname ▸ hwf m (List.mem_append_left _ hm)
  refine ⟨hobject, fun m' hm' => ?_⟩
  rw [List.mem_append, List.mem_cons] at hm'
  rcases hm' with hm' | rfl | hm'
  · exact hwf m' (List.mem_append_left _ hm')
  · exact hobject
  · exact hwf m' (List.mem_append_right _ hm')

/-- **A redelivery to the AWS function.** -/
theorem sameRows_aws_iff (accepts : String → Bool) (before after : List Notification) (n : Notification)
    (hwf : ∀ m ∈ before ++ after, Cloud.WellFormedObject accepts .aws contents m.name)
    (hn : ∃ m ∈ before, m.name = n.name) (table : LineItemTable) :
    Cloud.SameRows .aws (Cloud.run accepts contents .aws table (before ++ n :: after))
        (Cloud.run accepts contents .aws table (before ++ after)) ↔
      ∀ path ∈ pathsOf (Cloud.linesOf .aws contents) n.name,
        (∃ m ∈ after, path ∈ pathsOf (Cloud.linesOf .aws contents) m.name) ∨
          lastWriter (Cloud.linesOf .aws contents) before path = some n.name := by
  obtain ⟨hobject, hall⟩ := wellFormed_redelivered hwf hn
  rw [run_aws hall, run_aws hwf]
  exact repeated_records_iff LineItem.sourceObjectKey Function.injective_id
    (fun _ _ => rfl) (fun n n' line h => by simp only [OrderLine.item, h]) hobject.nodup hn

/-- **A redelivery to the GCP function.** -/
theorem sameRows_gcp_iff (accepts : String → Bool) (before after : List Notification) (n : Notification)
    (hwf : ∀ m ∈ before ++ after, Cloud.WellFormedObject accepts .gcp contents m.name)
    (hn : ∃ m ∈ before, m.name = n.name) (db : Firestore) :
    Cloud.SameRows .gcp (Cloud.run accepts contents .gcp db (before ++ n :: after))
        (Cloud.run accepts contents .gcp db (before ++ after)) ↔
      ∀ path ∈ pathsOf (Cloud.linesOf .gcp contents) n.name,
        (∃ m ∈ after, path ∈ pathsOf (Cloud.linesOf .gcp contents) m.name) ∨
          lastWriter (Cloud.linesOf .gcp contents) before path = some n.name := by
  obtain ⟨hobject, hall⟩ := wellFormed_redelivered hwf hn
  show (∀ k, Option.map _ ((Cloud.run accepts contents .gcp db (before ++ n :: after) : Firestore).documents k) =
    Option.map _ ((Cloud.run accepts contents .gcp db (before ++ after) : Firestore).documents k)) ↔ _
  rw [run_gcp hall, run_gcp hwf]
  exact repeated_records_iff LineItemDocument.sourceObjectName documentPath_injective
    (fun _ _ => rfl) (fun n n' line h => by simp only [OrderLine.document, h]) hobject.nodup hn

end writes

/-- **Which redeliveries leave the tables as they are**: those of objects each of whose rows is written
again by a later notification, or was last written by the same object. -/
theorem redelivery_iff (accepts : String → Bool) (cloud : Cloud) (contents : String → ByteArray)
    (start : cloud.Store) (before after : List Notification) (n : Notification)
    (hwf : ∀ m ∈ before ++ after, cloud.WellFormedObject accepts contents m.name)
    (hn : ∃ m ∈ before, m.name = n.name) :
    cloud.SameRows (cloud.run accepts contents start (before ++ n :: after))
        (cloud.run accepts contents start (before ++ after)) ↔
      ∀ path ∈ pathsOf (cloud.linesOf contents) n.name,
        (∃ m ∈ after, path ∈ pathsOf (cloud.linesOf contents) m.name) ∨
          lastWriter (cloud.linesOf contents) before path = some n.name := by
  cases cloud with
  | aws => exact sameRows_aws_iff accepts before after n hwf hn start
  | gcp => exact sameRows_gcp_iff accepts before after n hwf hn start

/-! ## Two files with the same order -/

/-- An order of one item, and the order with another quantity in a later file. -/
def correctedOrder (name : String) : String :=
  if name = "orders/day1.csv" then "order_id,sku,quantity,channel\nA1,S1,1,web\n"
  else "order_id,sku,quantity,channel\nA1,S1,2,web\n"

/-- Its line. -/
def correctedLine (name : String) : OrderLine :=
  ⟨some "A1", some "S1", if name = "orders/day1.csv" then 1 else 2, some "web"⟩

/-- The corrected order has one line. -/
theorem orderLines_correctedOrder (name : String) :
    orderLines (correctedOrder name).toList = .ok [correctedLine name] := by
  unfold correctedOrder correctedLine
  split
  · decide +kernel
  · decide +kernel

/-- The contents of the files. -/
def correctedContents (name : String) : ByteArray := (correctedOrder name).toUTF8

/-- It is the only line of its object. -/
theorem linesOf_correctedContents {cloud : Cloud} {name : String} (h : cloud.takes name = true) :
    cloud.linesOf correctedContents name = [correctedLine name] := by
  have htext : String.fromUTF8? (correctedContents name) = some (correctedOrder name) :=
    Json.fromUTF8?_toUTF8 _
  rw [Cloud.linesOf, if_pos h, htext]
  simp only [orderLines_correctedOrder]

/-- Its object is well formed. -/
theorem wellFormed_correctedContents (cloud : Cloud) {name : String} (h : cloud.takes name = true) :
    cloud.WellFormedObject Firestore.isDocumentId correctedContents name := by
  have hlines := linesOf_correctedContents h
  refine ⟨fun _ => ⟨_, Json.fromUTF8?_toUTF8 _, by rw [hlines, orderLines_correctedOrder]⟩, ?_, ?_, ?_, ?_⟩
  · simp [hlines, correctedLine, OrderLine.Missing]
  · simp [hlines, correctedLine, OrderLine.Empty]
  · rw [hlines, List.forall_mem_singleton]
    cases cloud with
    | aws =>
        show (correctedLine name).quantity.natAbs < 10 ^ 38
        unfold correctedLine
        split <;> decide
    | gcp =>
        refine ⟨?_, ?_, by simp [correctedLine, OrderLine.Slashed]⟩
        · unfold correctedLine
          split <;> decide
        · rintro id (hid | hid)
          · obtain rfl : "A1" = id := Option.some.inj hid
            decide
          · obtain rfl : "S1" = id := Option.some.inj hid
            decide
  · rw [hlines, List.map_singleton]
    exact List.nodup_singleton _

/-- Its path is the only one. -/
theorem pathsOf_correctedContents {cloud : Cloud} {name : String} (h : cloud.takes name = true) :
    pathsOf (cloud.linesOf correctedContents) name = [("A1", "S1")] := by
  rw [pathsOf, linesOf_correctedContents h]
  rfl

/-- A redelivery before the corrected order changes nothing. -/
theorem redelivery_before_correction :
    Cloud.SameRows .aws
      (Cloud.run Firestore.isDocumentId correctedContents .aws Table.empty
        [⟨"orders/day1.csv", "2026-06-10T09:32:11Z"⟩, ⟨"orders/day1.csv", "2026-06-10T09:32:12Z"⟩,
          ⟨"orders/day2.csv", "2026-06-11T09:32:11Z"⟩])
      (Cloud.run Firestore.isDocumentId correctedContents .aws Table.empty
        [⟨"orders/day1.csv", "2026-06-10T09:32:11Z"⟩, ⟨"orders/day2.csv", "2026-06-11T09:32:11Z"⟩]) := by
  refine (redelivery_iff Firestore.isDocumentId .aws correctedContents Table.empty
    [⟨"orders/day1.csv", "2026-06-10T09:32:11Z"⟩] [⟨"orders/day2.csv", "2026-06-11T09:32:11Z"⟩]
    ⟨"orders/day1.csv", "2026-06-10T09:32:12Z"⟩ (fun m _ => wellFormed_correctedContents .aws rfl)
    ⟨_, List.mem_singleton_self _, rfl⟩).2 ?_
  intro path hpath
  rw [pathsOf_correctedContents rfl] at hpath
  exact .inl ⟨_, List.mem_singleton_self _, by rw [pathsOf_correctedContents rfl]; exact hpath⟩

/-- The two files, one after the other. -/
def twoDays : List Notification :=
  [⟨"orders/day1.csv", "2026-06-10T09:32:11Z"⟩, ⟨"orders/day2.csv", "2026-06-11T09:32:11Z"⟩]

/-- **After the corrected order the redelivery brings the old quantity back.** -/
theorem redelivery_undoes_correction :
    (∀ cloud : Cloud, ∀ m ∈ twoDays, cloud.WellFormedObject Firestore.isDocumentId correctedContents m.name) ∧
    ¬Cloud.SameRows .aws
      (Cloud.run Firestore.isDocumentId correctedContents .aws Table.empty
        (twoDays ++ [⟨"orders/day1.csv", "2026-06-12T09:32:11Z"⟩]))
      (Cloud.run Firestore.isDocumentId correctedContents .aws Table.empty twoDays) ∧
    ¬Cloud.SameRows .gcp
      (Cloud.run Firestore.isDocumentId correctedContents .gcp (⟨Table.empty, 0⟩ : Firestore)
        (twoDays ++ [⟨"orders/day1.csv", "2026-06-12T09:32:11Z"⟩]))
      (Cloud.run Firestore.isDocumentId correctedContents .gcp (⟨Table.empty, 0⟩ : Firestore) twoDays) := by
  have hnames : ∀ cloud : Cloud, cloud.takes "orders/day1.csv" = true ∧ cloud.takes "orders/day2.csv" = true := by
    rintro (_ | _)
    · exact ⟨rfl, rfl⟩
    · decide +kernel
  have hwf : ∀ cloud : Cloud, ∀ m ∈ twoDays,
      cloud.WellFormedObject Firestore.isDocumentId correctedContents m.name := by
    intro cloud
    simp only [twoDays, List.forall_mem_cons, List.not_mem_nil, false_implies, implies_true, and_true]
    exact ⟨wellFormed_correctedContents cloud (hnames cloud).1,
      wellFormed_correctedContents cloud (hnames cloud).2⟩
  -- the second file wrote the item last
  have hlast : ∀ cloud : Cloud, ¬∀ path ∈ pathsOf (cloud.linesOf correctedContents) "orders/day1.csv",
      (∃ m ∈ ([] : List Notification), path ∈ pathsOf (cloud.linesOf correctedContents) m.name) ∨
        lastWriter (cloud.linesOf correctedContents) twoDays path = some "orders/day1.csv" := by
    intro cloud h
    have hmem : ("A1", "S1") ∈ pathsOf (cloud.linesOf correctedContents) "orders/day1.csv" := by
      rw [pathsOf_correctedContents (hnames cloud).1]
      exact List.mem_singleton_self _
    have hpath := h _ hmem
    simp [lastWriter, twoDays, pathsOf_correctedContents (hnames cloud).1,
      pathsOf_correctedContents (hnames cloud).2, lastWrite] at hpath
  have hday1 : ∃ m ∈ twoDays, m.name = "orders/day1.csv" := ⟨_, List.mem_cons_self, rfl⟩
  have hnone : twoDays ++ [] = twoDays := List.append_nil _
  refine ⟨hwf, fun h => hlast .aws ?_, fun h => hlast .gcp ?_⟩
  · refine (sameRows_aws_iff Firestore.isDocumentId twoDays [] ⟨"orders/day1.csv", "2026-06-12T09:32:11Z"⟩ ?_
      hday1 Table.empty).1 ?_
    · rw [hnone]
      exact hwf .aws
    · rw [hnone]
      exact h
  · refine (sameRows_gcp_iff Firestore.isDocumentId twoDays [] ⟨"orders/day1.csv", "2026-06-12T09:32:11Z"⟩ ?_
      hday1 ⟨Table.empty, 0⟩).1 ?_
    · rw [hnone]
      exact hwf .gcp
    · rw [hnone]
      exact h

end TransferWorker
