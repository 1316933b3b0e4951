import TransferWorker.Worker.Building
import TransferWorker.Worker.Contract
import TransferWorker.Worker.Hashlib
import TransferWorker.Worker.Publisher

/-! # What the worker emits

The bodies that the publisher puts on the queues, against the published contract. The encoder writes
every field of the model, and `null` for one that is `None`; the contract has no `null`.

* **`Origin`** — the ways an event comes about.
* **`Origin.Complete`** — the origin of the event has every optional member.
* **`emitted_valid_iff`** — which bodies are valid. -/

namespace TransferWorker

open CallTrees
open Json (Value lookup Schema)

variable {e e' : TransferEvent} {ms ns : Members} {name : String}

/-! ## Encoded events -/

/-- The texts of an event have the patterns of the schema. -/
structure TransferEvent.Patterned (e : TransferEvent) : Prop where
  /-- `schemaVersion` -/
  schemaVersion : versionPattern e.schemaVersion = true
  /-- `idempotencyKey` -/
  idempotencyKey : keyPattern e.idempotencyKey = true
  /-- `checksumSha256` -/
  checksum : checksumPattern e.file.checksumSha256 = true

/-- The optional fields of the file and of the destinations are set. -/
structure TransferEvent.Described (e : TransferEvent) : Prop where
  /-- `contentType` -/
  contentType : e.file.contentType ≠ none
  /-- `region`, of every destination. -/
  regions : ∀ d ∈ e.destinations.val, d.region ≠ none

/-- The event has a `retry` with a `lastError`. -/
def TransferEvent.Retried (e : TransferEvent) : Prop := ∃ r, e.retry = some r ∧ r.lastError ≠ none

/-- A text that is there is not written as `null`. -/
theorem orNull_str_ne_null {a : Option String} (h : a ≠ none) : orNull Value.str a ≠ .null := by
  cases a with
  | none => exact absurd rfl h
  | some s => simp [orNull]

/-- **When an encoded event is valid**: its texts have the patterns, and no field is `None`. -/
theorem valid_toJson_iff :
    transferEventSchema.valid e.toJson = true ↔ e.Patterned ∧ e.Described ∧ e.Retried := by
  -- an encoded event is decodable, so only the things that the decoder alone takes matter
  have hfits : ∀ ms, e.toJson = .obj ms → EventFits ms := fun ms hms => by
    obtain ⟨ms', hms', h, -⟩ := (accepts_iff (Json.loads_dumps _)).1
      ⟨e, TransferEvent.fromJsonBytes_toJsonBytes e⟩
    cases hms.symm.trans hms'
    exact h
  rw [TransferEvent.toJson, valid_event, and_iff_right (hfits _ rfl)]
  constructor
  · intro hnot
    -- each field that is wrong would be one of these things
    refine ⟨⟨?_, ?_, ?_⟩, ⟨fun hnone => ?_, fun d hd hnone => ?_⟩, ?_⟩
    · exact (versionPattern_iff e.schemaVersion.property).2 fun hbad => hnot (.schemaVersion rfl hbad)
    · exact (keyPattern_iff e.idempotencyKey.property).2 fun hbad => hnot (.idempotencyKey rfl hbad)
    · exact (checksumPattern_iff e.file.checksumSha256.property).2 fun hbad =>
        hnot (.file rfl (.checksum rfl hbad))
    · refine hnot (.file rfl (.contentType ?_))
      show some (orNull Value.str e.file.contentType) = _
      rw [hnone]
      rfl
    · refine hnot (.destination rfl (List.mem_map_of_mem hd) ?_)
      show some (orNull Value.str d.region) = _
      rw [hnone]
      rfl
    · cases hretry : e.retry with
      | none =>
          refine absurd (.retryNull ?_) hnot
          show some (orNull RetryInfo.toJson e.retry) = _
          rw [hretry]
          rfl
      | some r =>
          have hobj : some (orNull RetryInfo.toJson e.retry) = some r.toJson := by
            rw [hretry]
            rfl
          refine ⟨r, hretry, fun hnone => hnot (.retry hobj (.lastError ?_))⟩
          show some (orNull Value.str r.lastError) = _
          rw [hnone]
          rfl
  · rintro ⟨hpat, hdesc, r, hretry, hlast⟩ hlenient
    -- and each of them is excluded by a pattern, a bound or a field that is not `None`
    cases hlenient with
    | schemaVersion h hbad =>
        cases h
        exact (versionPattern_iff e.schemaVersion.property).1 hpat.schemaVersion hbad
    | idempotencyKey h hbad =>
        cases h
        exact (keyPattern_iff e.idempotencyKey.property).1 hpat.idempotencyKey hbad
    | file h hbad =>
        cases h
        rcases hbad with ⟨v, hv, hbad⟩ | ⟨hs, hbad⟩ | hnull
        · cases hv
          have hsize := e.file.sizeBytes.property
          simp [Json.isInteger, hsize] at hbad
        · cases hs
          exact (checksumPattern_iff e.file.checksumSha256.property).1 hpat.checksum hbad
        · exact orNull_str_ne_null hdesc.contentType (Option.some.inj hnull)
    | destination h hmem hbad =>
        cases h
        obtain ⟨d, hd, hobj⟩ := List.mem_map.1 hmem
        cases hobj
        exact orNull_str_ne_null (hdesc.regions d hd) (Option.some.inj hbad)
    | retryNull h =>
        have hnull : orNull RetryInfo.toJson e.retry = .null := Option.some.inj h
        rw [hretry] at hnull
        cases hnull
    | retry h hbad =>
        have hobj : orNull RetryInfo.toJson e.retry = .obj _ := Option.some.inj h
        rw [hretry] at hobj
        cases hobj
        rcases hbad with ⟨v, hv, hbad⟩ | ⟨v, hv, hbad⟩ | hnull
        · cases hv
          have hattempt := r.attempt.property
          simp [Json.isInteger, hattempt] at hbad
        · cases hv
          have hmax := r.maxAttempts.property
          simp [Json.isInteger, hmax] at hbad
        · exact orNull_str_ne_null hlast (Option.some.inj hnull)

/-! ## Where events come from -/

/-- **The origin of an event**: built for a path, or decoded from a body, and then perhaps passed
through `with_retry`. -/
inductive Origin where
  /-- `build_event` of a path. -/
  | built (cwd : String) (path : Path)
  /-- `from_json_bytes` of a body. -/
  | decoded (data : ByteArray)
  /-- `from_json_bytes` of a body, then `with_retry`. -/
  | retried (data : ByteArray) (attempt maxAttempts : Int) (lastError : String)

/-- An event comes about in this way; a body that is decoded is valid under the published schema. -/
def Origin.Gives (H : Hashes) (settings : Settings) : Origin → TransferEvent → Prop
  | .built cwd path, e => ∃ tr, (Watcher.buildEvent H cwd path settings).Makes tr (.ok e)
  | .decoded data, e => (∃ v, Json.loads data = some v ∧ transferEventSchema.valid v = true) ∧
      TransferEvent.fromJsonBytes data = .ok e
  | .retried data attempt maxAttempts lastError, e =>
      (∃ v, Json.loads data = some v ∧ transferEventSchema.valid v = true) ∧
        ∃ e', TransferEvent.fromJsonBytes data = .ok e' ∧
          e'.withRetry attempt maxAttempts lastError = .ok e

/-- A document has a `contentType`, and a `region` in every destination. -/
def FullyDescribed (ms : Members) : Prop :=
  (∀ ns, lookup "file" ms = some (.obj ns) → lookup "contentType" ns ≠ none) ∧
    ∀ vs ns, lookup "destinations" ms = some (.arr vs) → .obj ns ∈ vs → lookup "region" ns ≠ none

/-- A document has a `retry` with a `lastError`. -/
def FullyRetried (ms : Members) : Prop :=
  ∃ ns, lookup "retry" ms = some (.obj ns) ∧ lookup "lastError" ns ≠ none

/-- **An origin with every optional member**: never a path, since the watcher gives the second
destination no region. -/
def Origin.Complete : Origin → Prop
  | .built _ _ => False
  | .decoded data => ∃ ms, Json.loads data = some (.obj ms) ∧ FullyDescribed ms ∧ FullyRetried ms
  | .retried data _ _ _ => ∃ ms, Json.loads data = some (.obj ms) ∧ FullyDescribed ms

/-- The event of a valid document has the patterns of the schema. -/
theorem TransferEvent.Decodes.patterned (h : TransferEvent.Decodes ms e)
    (hvalid : transferEventSchema.valid (.obj ms) = true) : e.Patterned := by
  have hlenient := (valid_event.1 hvalid).2
  obtain ⟨ns, hfile, hf⟩ := h.file
  refine ⟨(versionPattern_iff e.schemaVersion.property).2 fun hbad => ?_,
    (keyPattern_iff e.idempotencyKey.property).2 fun hbad => ?_,
    (checksumPattern_iff e.file.checksumSha256.property).2 fun hbad => ?_⟩
  · exact hlenient (.schemaVersion h.schemaVersion hbad)
  · exact hlenient (.idempotencyKey h.idempotencyKey hbad)
  · exact hlenient (.file hfile (.checksum hf.checksum hbad))

/-- An optional text that is not `null` is read as `None` exactly if it is absent. -/
theorem OptionalIs.eq_none_iff {α : Type} {check : Value → Validated α} {a : Option α}
    (h : OptionalIs ms name check a) (hnull : lookup name ms ≠ some .null) :
    a = none ↔ lookup name ms = none := by
  rcases h with ⟨rfl, habsent | habsent⟩ | ⟨v, b, hv, -, -, rfl⟩
  · exact iff_of_true rfl habsent
  · exact absurd habsent hnull
  · exact iff_of_false (by simp) (by simp [hv])

/-- An item of a list of accepted items. -/
theorem forall₂_mem {α β : Type} {R : α → β → Prop} {as : List α} {bs : List β}
    (h : List.Forall₂ R as bs) :
    (∀ a ∈ as, ∃ b ∈ bs, R a b) ∧ ∀ b ∈ bs, ∃ a ∈ as, R a b := by
  induction h with
  | nil => simp
  | cons hab _ ih =>
      refine ⟨?_, ?_⟩
      · rw [List.forall_mem_cons]
        exact ⟨⟨_, List.mem_cons_self, hab⟩, fun a ha =>
          (ih.1 a ha).imp fun b hb => ⟨List.mem_cons_of_mem _ hb.1, hb.2⟩⟩
      · rw [List.forall_mem_cons]
        exact ⟨⟨_, List.mem_cons_self, hab⟩, fun b hb =>
          (ih.2 b hb).imp fun a ha => ⟨List.mem_cons_of_mem _ ha.1, ha.2⟩⟩

/-- The event of a valid document is described as far as the document is. -/
theorem TransferEvent.Decodes.described_iff (h : TransferEvent.Decodes ms e)
    (hvalid : transferEventSchema.valid (.obj ms) = true) : e.Described ↔ FullyDescribed ms := by
  have hlenient := (valid_event.1 hvalid).2
  obtain ⟨ns, hfile, hf⟩ := h.file
  obtain ⟨vs, hdest, hds⟩ := h.destinations
  have htype : e.file.contentType = none ↔ lookup "contentType" ns = none :=
    hf.contentType.eq_none_iff fun hnull => hlenient (.file hfile (.contentType hnull))
  have hregion : ∀ {ns d}, .obj ns ∈ vs → Destination.Decodes ns d →
      (d.region = none ↔ lookup "region" ns = none) := fun hmem hd =>
    hd.region.eq_none_iff fun hnull => hlenient (.destination hdest hmem hnull)
  constructor
  · intro hdesc
    refine ⟨fun ns' hns' => ?_, fun vs' ns' hvs' hmem => ?_⟩
    · cases hfile.symm.trans hns'
      exact fun hnone => hdesc.contentType (htype.2 hnone)
    · cases hdest.symm.trans hvs'
      obtain ⟨d, hd, ns'', hns'', hdec⟩ := (forall₂_mem hds).1 _ hmem
      cases hns''
      exact fun hnone => hdesc.regions d hd ((hregion hmem hdec).2 hnone)
  · rintro ⟨hcontent, hregions⟩
    refine ⟨fun hnone => hcontent ns hfile (htype.1 hnone), fun d hd hnone => ?_⟩
    obtain ⟨v, hmem, ns', rfl, hdec⟩ := (forall₂_mem hds).2 d hd
    exact hregions vs ns' hdest hmem ((hregion hmem hdec).1 hnone)

/-- The event of a valid document has a named retry if the document has. -/
theorem TransferEvent.Decodes.retried_iff (h : TransferEvent.Decodes ms e)
    (hvalid : transferEventSchema.valid (.obj ms) = true) : e.Retried ↔ FullyRetried ms := by
  have hlenient := (valid_event.1 hvalid).2
  have hlast : ∀ {ns r}, lookup "retry" ms = some (.obj ns) → RetryInfo.Decodes ns r →
      (r.lastError = none ↔ lookup "lastError" ns = none) := fun hns hr =>
    hr.lastError.eq_none_iff fun hnull => hlenient (.retry hns (.lastError hnull))
  rcases h.retry with ⟨hnone, habsent⟩ | ⟨v, r, hv, -, hr, hsome⟩
  · refine iff_of_false ?_ ?_
    · rintro ⟨r, hr, -⟩
      rw [hnone] at hr
      cases hr
    · rintro ⟨ns, hns, -⟩
      rcases habsent with habsent | habsent <;> rw [habsent] at hns <;> cases hns
  · obtain ⟨ns, rfl, hdec⟩ := model_eq_ok.1 hr
    have hiff := hlast hv (RetryInfo.validate_eq_ok.1 hdec)
    constructor
    · rintro ⟨r', hr', hne⟩
      cases hsome.symm.trans hr'
      exact ⟨ns, hv, fun hnone => hne (hiff.2 hnone)⟩
    · rintro ⟨ns', hns', hne⟩
      cases hv.symm.trans hns'
      exact ⟨r, hsome, fun hnone => hne (hiff.1 hnone)⟩

/-! ## What is put on the queues -/

/-- A call of the publisher for an event. -/
inductive PublishedBy (settings : Settings) (e : TransferEvent) : Prog Unit → Prop
  /-- `publish_event` -/
  | event : PublishedBy settings e (Publisher.publishEvent settings e)
  /-- `publish_retry` -/
  | retry (delayMs : Int) : PublishedBy settings e (Publisher.publishRetry settings e delayMs)
  /-- `publish_dlq` -/
  | dlq (reason : String) : PublishedBy settings e (Publisher.publishDlq settings e reason)

/-- A body is a JSON document that is valid under the published schema. -/
def ValidBody (data : ByteArray) : Prop :=
  ∃ v, Json.loads data = some v ∧ transferEventSchema.valid v = true

/-- The body of an event is valid exactly if its texts, its file and its retry are. -/
theorem validBody_toJsonBytes_iff :
    ValidBody e.toJsonBytes ↔ e.Patterned ∧ e.Described ∧ e.Retried := by
  rw [← valid_toJson_iff, ValidBody, TransferEvent.toJsonBytes, Json.loads_dumps]
  simp

/-- The body of a message is the event. -/
theorem message_body (e : TransferEvent) (expiration : Option String)
    (headers : Option (List (String × String))) :
    (Publisher.message e expiration headers).body = e.toJsonBytes := rfl

/-- Whatever the publisher is asked, the body is the encoded event. -/
theorem body_of_publishedBy {settings : Settings} {p : Prog Unit} {tr : List (Answered calls Exn)}
    {r : Except Exn Unit} {c : Answered calls Exn} {q : String} {m : Message}
    (hp : PublishedBy settings e p) (htr : p.Makes tr r) (hc : c ∈ tr)
    (hop : c.op = .basicPublish q m) : m.body = e.toJsonBytes := by
  have hone : ∀ {q' : String} {exp : Option String} {headers : Option (List (String × String))},
      (Publisher.publish q' e exp headers).Makes tr r → m.body = e.toJsonBytes := fun {_ _ _} h => by
    obtain ⟨x, tr', rfl, hend⟩ := Program.makes_call.1 h
    have hnil : tr' = [] := by
      cases x with
      | ok u => exact (Program.makes_ret.1 hend).1
      | error exn => exact (Program.makes_raise.1 hend).1
    rw [hnil, List.mem_singleton] at hc
    subst hc
    cases hop
    rfl
  cases hp with
  | event => exact hone htr
  | retry delayMs => exact hone htr
  | dlq reason => exact hone htr

/-- A retry keeps the texts and the description of an event and gives it a named retry. -/
theorem TransferEvent.withRetry_keeps {attempt maxAttempts : Int} {lastError : String}
    (h : e.withRetry attempt maxAttempts lastError = .ok e') :
    (e'.Patterned ↔ e.Patterned) ∧ (e'.Described ↔ e.Described) ∧ e'.Retried := by
  obtain ⟨ha, hm, rfl⟩ := TransferEvent.withRetry_ok h
  refine ⟨⟨fun h => ⟨h.1, h.2, h.3⟩, fun h => ⟨h.1, h.2, h.3⟩⟩,
    ⟨fun h => ⟨h.1, h.2⟩, fun h => ⟨h.1, h.2⟩⟩, _, rfl, by simp⟩

/-- **Which emitted bodies are valid**: exactly those of an origin with every optional member, and
so none that the watcher publishes. -/
theorem emitted_valid_iff {H : Hashes} {settings : Settings} {o : Origin} {p : Prog Unit}
    {tr : List (Answered calls Exn)} {r : Except Exn Unit} {c : Answered calls Exn} {q : String}
    {m : Message} (ho : o.Gives H settings e) (hp : PublishedBy settings e p) (htr : p.Makes tr r)
    (hc : c ∈ tr) (hop : c.op = .basicPublish q m) : ValidBody m.body ↔ o.Complete := by
  rw [body_of_publishedBy hp htr hc hop, validBody_toJsonBytes_iff]
  cases o with
  | built cwd path =>
      obtain ⟨tr', hbuilt⟩ := ho
      obtain ⟨name, s, -, -, rfl⟩ := makes_buildEvent_iff.1 hbuilt
      refine iff_of_false (fun h => ?_) id
      -- the GCS destination has no region
      refine h.2.1.regions ⟨.gcpGcs, settings.gcsBucket, relpath cwd name settings.watchDir, none⟩ ?_ rfl
      simp [Sighting.event, Watcher.destinations]
  | decoded data =>
      obtain ⟨⟨v, hv, hvalid⟩, hok⟩ := ho
      obtain ⟨ms, hms, hdec⟩ := TransferEvent.fromJsonBytes_eq_ok.1 hok
      cases hv.symm.trans hms
      rw [and_iff_right (hdec.patterned hvalid), hdec.described_iff hvalid, hdec.retried_iff hvalid]
      simp [Origin.Complete, hms]
  | retried data attempt maxAttempts lastError =>
      obtain ⟨⟨v, hv, hvalid⟩, e', hok, hretry⟩ := ho
      obtain ⟨ms, hms, hdec⟩ := TransferEvent.fromJsonBytes_eq_ok.1 hok
      cases hv.symm.trans hms
      obtain ⟨hpat, hdesc, hnamed⟩ := TransferEvent.withRetry_keeps hretry
      rw [hpat, hdesc, and_iff_right (hdec.patterned hvalid), and_iff_left hnamed,
        hdec.described_iff hvalid]
      simp [Origin.Complete, hms]

/-- The bodies of an event with all its optional members are valid. -/
theorem emitted_valid_fullSample :
    ValidBody (Publisher.message .fullSample none none).body ↔
      (Origin.decoded TransferEvent.fullSample.toJsonBytes).Complete :=
  by
  have hgives : (Origin.decoded TransferEvent.fullSample.toJsonBytes).Gives hashlib {} .fullSample :=
    ⟨⟨_, Json.loads_dumps _, valid_fullSample⟩, TransferEvent.fromJsonBytes_toJsonBytes .fullSample⟩
  exact emitted_valid_iff hgives .event (.perform (S := calls) (Op.basicPublish _ _) ())
    List.mem_cons_self rfl

/-- `schemas/example-event.json` -/
def exampleDocument : Members :=
  [("schemaVersion", .str "1.0"), ("eventType", .str "file.transfer.requested"),
    ("eventId", .str TransferEvent.sample.eventId.val),
    ("correlationId", .str TransferEvent.sample.correlationId.val),
    ("idempotencyKey", .str TransferEvent.sample.idempotencyKey.val),
    ("occurredAt", .str TransferEvent.sample.occurredAt.val),
    ("source", TransferEvent.sample.source.toJson), ("file", TransferEvent.sample.file.toJson),
    ("destinations", .arr
      [.obj [("provider", .str "aws-s3"), ("bucket", .str "wms-orders-processed"),
        ("key", .str "orders/ORD-20260610-0001.csv"), ("region", .str "us-east-1")],
      .obj [("provider", .str "gcp-gcs"), ("bucket", .str "wms-orders-processed"),
        ("key", .str "orders/ORD-20260610-0001.csv")]])]

/-- The document of the example is valid. -/
theorem valid_exampleDocument : transferEventSchema.valid (.obj exampleDocument) = true := by
  decide +kernel

/-- It decodes to the example event. -/
theorem decodes_exampleDocument : TransferEvent.Decodes exampleDocument .sample where
  schemaVersion := rfl
  eventType := rfl
  eventId := rfl
  correlationId := rfl
  idempotencyKey := rfl
  occurredAt := rfl
  source := ⟨_, rfl, rfl, rfl, by simp⟩
  file := ⟨_, rfl, rfl, ⟨_, rfl, rfl⟩, rfl, .inr ⟨.str "text/csv", "text/csv", rfl, by simp, rfl, rfl⟩, by simp⟩
  destinations := by
    refine ⟨_, rfl, .cons ⟨_, rfl, rfl, rfl, rfl, ?_, by simp⟩
      (.cons ⟨_, rfl, rfl, rfl, rfl, .inl ⟨rfl, .inl rfl⟩, by simp⟩ .nil)⟩
    exact .inr ⟨_, "us-east-1", rfl, by simp, rfl, rfl⟩
  retry := .inl ⟨rfl, .inl rfl⟩
  names := by decide

/-- A publication that the broker accepts. -/
theorem makes_publishDlq (settings : Settings) (e : TransferEvent) (reason : String) :
    (Publisher.publishDlq settings e reason).Makes
      [⟨.basicPublish settings.dlqName (Publisher.message e none (some [("x-dlq-reason", reason)])),
        .ok ()⟩] (.ok ()) :=
  .perform (S := calls) (Op.basicPublish _ _) ()

/-- A body of the example document. -/
theorem exists_exampleDocument_body : ∃ data, Json.loads data = some (.obj exampleDocument) ∧
    TransferEvent.fromJsonBytes data = .ok .sample := by
  have hdata := Json.loads_dumps (.obj exampleDocument)
  exact ⟨_, hdata, TransferEvent.fromJsonBytes_eq_ok.2 ⟨_, hdata, decodes_exampleDocument⟩⟩

/-- **The example event of the contract is valid, and is no longer when it is published again**. -/
theorem exampleDocument_published_invalid : ∃ data m tr,
    Json.loads data = some (.obj exampleDocument) ∧
      transferEventSchema.valid (.obj exampleDocument) = true ∧
      TransferEvent.fromJsonBytes data = .ok .sample ∧
      (Publisher.publishDlq {} .sample "unsupported_schema_version").Makes tr (.ok ()) ∧
      ⟨Op.basicPublish "orders.inbound.dlq" m, .ok ()⟩ ∈ tr ∧ ¬ValidBody m.body := by
  obtain ⟨data, hdata, hok⟩ := exists_exampleDocument_body
  refine ⟨data, _, _, hdata, valid_exampleDocument, hok, makes_publishDlq {} .sample _,
    List.mem_cons_self, fun hvalid => ?_⟩
  rw [message_body, validBody_toJsonBytes_iff] at hvalid
  obtain ⟨r, hr, -⟩ := hvalid.2.2
  cases hr

end TransferWorker
