import TransferWorker.Worker.Schema

/-! # What the decoder accepts

Each validation of the schema, turned round: from its success to what the document has. A document
is accepted when each of its fields is, and it has no others. -/

namespace TransferWorker

open Json (Value lookup)

variable {α β : Type}

namespace Validated

/-- Both checks succeed if each does. -/
theorem both_eq_ok {x : Validated α} {y : Validated β} {p : α × β} :
    both x y = .ok p ↔ x = .ok p.1 ∧ y = .ok p.2 := by
  obtain ⟨a, b⟩ := p
  cases x <;> cases y <;> simp [both]

/-- A value is computed from one that was checked. -/
theorem map_eq_ok {f : α → β} {x : Validated α} {b : β} :
    Except.map f x = .ok b ↔ ∃ a, x = .ok a ∧ f a = b := by
  cases x <;> simp [Except.map]

/-- The name of the field matters to the problems only. -/
theorem under_eq_ok {name : String} {x : Validated α} {a : α} : under name x = .ok a ↔ x = .ok a := by
  cases x <;> simp [under, Except.mapError]

/-- One check after the other. -/
theorem bind_eq_ok {x : Validated α} {f : α → Validated β} {b : β} :
    x.bind f = .ok b ↔ ∃ a, x = .ok a ∧ f a = .ok b := by
  cases x <;> simp [Except.bind]

/-- The items of a list are accepted one by one. -/
theorem items_eq_ok {check : Value → Validated α} {i : Nat} {vs : List Value} {as : List α} :
    items check i vs = .ok as ↔ List.Forall₂ (fun v a => check v = .ok a) vs as := by
  induction vs generalizing i as with
  | nil =>
      rw [List.forall₂_nil_left_iff, items, Except.ok.injEq]
      exact eq_comm
  | cons v vs ih =>
      rw [items, map_eq_ok]
      constructor
      · rintro ⟨p, hp, rfl⟩
        obtain ⟨hhead, htail⟩ := both_eq_ok.1 hp
        exact .cons (under_eq_ok.1 hhead) (ih.1 htail)
      · rintro (_ | ⟨hhead, htail⟩)
        exact ⟨(_, _), both_eq_ok.2 ⟨under_eq_ok.2 hhead, ih.2 htail⟩, rfl⟩

end Validated

open Validated

/-- A model is an object whose members its check takes. -/
theorem model_eq_ok {check : Members → Validated α} {v : Value} {a : α} :
    model check v = .ok a ↔ ∃ ms, v = .obj ms ∧ check ms = .ok a := by
  cases v <;> simp [model, fail]

/-- A required field is there, and its check takes it. -/
theorem field_eq_ok {name : String} {check : Value → Validated α} {ms : Members} {a : α} :
    field name check ms = .ok a ↔ ∃ v, lookup name ms = some v ∧ check v = .ok a := by
  unfold field
  cases lookup name ms with
  | none => simp
  | some v => simp [under_eq_ok]

/-- An optional field is absent, `null`, or accepted. -/
theorem optField_eq_ok {name : String} {check : Value → Validated α} {ms : Members} {a : Option α} :
    optField name check ms = .ok a ↔
      (a = none ∧ (lookup name ms = none ∨ lookup name ms = some .null)) ∨
        ∃ v b, lookup name ms = some v ∧ v ≠ .null ∧ check v = .ok b ∧ a = some b := by
  unfold optField
  cases lookup name ms with
  | none => simp [eq_comm]
  | some v =>
      have hrest : under name ((check v).map some) = .ok a ↔ ∃ b, check v = .ok b ∧ a = some b := by
        rw [under_eq_ok, map_eq_ok]
        exact exists_congr fun b => and_congr_right fun _ => eq_comm
      cases v with
      | null => simp [eq_comm]
      | _ => simpa using hrest

/-- Nothing but the named members is there. -/
theorem forbidExtra_eq_ok {names : List String} {ms : Members} {u : Unit} :
    forbidExtra names ms = .ok u ↔ ∀ m ∈ ms, m.1 ∈ names := by
  unfold forbidExtra
  split
  · rename_i hnone
    have hall := List.filter_eq_nil_iff.1 hnone
    simpa using hall
  · rename_i extras hne
    constructor
    · intro h
      cases h
    · intro hall
      refine absurd (List.filter_eq_nil_iff.2 fun m hm => ?_) hne
      simpa using hall m hm

/-- A string is taken as it is. -/
theorem str_eq_ok {v : Value} {s : String} : str v = .ok s ↔ v = .str s := by
  cases v <;> simp [str, fail]

/-- A text is taken if it is valid. -/
theorem text_eq_ok {valid : String → Bool} {msg s : String} {t : Text valid} :
    text valid msg s = .ok t ↔ t.val = s := by
  unfold text
  split
  · rw [Except.ok.injEq, Subtype.ext_iff]
    exact eq_comm
  · rename_i hinvalid
    constructor
    · intro h
      cases h
    · rintro rfl
      exact absurd t.property hinvalid

/-- A validated string. -/
theorem strWith_eq_ok {valid : String → Bool} {msg : String} {v : Value} {t : Text valid} :
    strWith (text valid msg) v = .ok t ↔ v = .str t.val := by
  rw [strWith, bind_eq_ok]
  constructor
  · rintro ⟨s, hs, ht⟩
    rw [text_eq_ok.1 ht]
    exact str_eq_ok.1 hs
  · intro h
    exact ⟨t.val, str_eq_ok.2 h, text_val t⟩

/-- A number is taken if it is not below the bound. -/
theorem atLeast_eq_ok {bound n : Int} {k : AtLeast bound} : atLeast bound n = .ok k ↔ k.val = n := by
  unfold atLeast
  split
  · rw [Except.ok.injEq, Subtype.ext_iff]
    exact eq_comm
  · rename_i hsmall
    constructor
    · intro h
      cases h
    · rintro rfl
      exact absurd k.property hsmall

/-- A value is taken as an integer if the lax reading gives one that is not below the bound. -/
theorem intOf_eq_ok {bound : Int} {v : Value} {k : AtLeast bound} :
    intOf bound v = .ok k ↔ laxInt v = .ok k.val := by
  rw [intOf, bind_eq_ok]
  constructor
  · rintro ⟨n, hn, hk⟩
    rw [atLeast_eq_ok.1 hk]
    exact hn
  · intro h
    exact ⟨k.val, h, atLeast_val k⟩

/-- A literal is one of the texts. -/
theorem literal_eq_ok {alternatives : List (String × α)} {msg : String} {v : Value} {a : α} :
    literal alternatives msg v = .ok a ↔ ∃ s, v = .str s ∧ alternatives.lookup s = some a := by
  cases v with
  | str s => cases h : alternatives.lookup s <;> simp [literal, h, fail]
  | _ => simp [literal, fail]

/-- The alternatives of a list of two. -/
theorem lookup_cons_eq_some {k s : String} {a b : α} {rest : List (String × α)} :
    List.lookup s ((k, b) :: rest) = some a ↔ s = k ∧ b = a ∨ s ≠ k ∧ List.lookup s rest = some a := by
  by_cases hs : s = k
  · subst hs
    simp [List.lookup_cons_self]
  · simp [List.lookup_cons, beq_false_of_ne hs, hs]

/-! ## The models -/

/-- The provider of a source is its text. -/
theorem sourceProvider_eq_ok {v : Value} {p : SourceProvider} :
    literal [("sftp", SourceProvider.sftp)] "Input should be 'sftp'" v = .ok p ↔ v = .str p.text := by
  rw [literal_eq_ok]
  cases p
  simp [lookup_cons_eq_some, SourceProvider.text]

/-- The provider of a destination is its text. -/
theorem provider_eq_ok {v : Value} {p : Provider} : Provider.validate v = .ok p ↔ v = .str p.text := by
  rw [Provider.validate, literal_eq_ok]
  cases p <;> simp [lookup_cons_eq_some, Provider.text]

/-- The event type is its text. -/
theorem eventType_eq_ok {v : Value} {t : EventType} :
    literal [("file.transfer.requested", EventType.fileTransferRequested)]
      "Input should be 'file.transfer.requested'" v = .ok t ↔ v = .str t.text := by
  rw [literal_eq_ok]
  cases t
  simp [lookup_cons_eq_some, EventType.text]

/-- The value of an optional field: absent or `null`, or what its check accepts. -/
def OptionalIs (ms : Members) (name : String) (check : Value → Validated α) (a : Option α) : Prop :=
  (a = none ∧ (lookup name ms = none ∨ lookup name ms = some .null)) ∨
    ∃ v b, lookup name ms = some v ∧ v ≠ .null ∧ check v = .ok b ∧ a = some b

/-- **The members of an accepted `source`.** -/
structure Source.Decodes (ms : Members) (s : Source) : Prop where
  /-- `provider` -/
  provider : lookup "provider" ms = some (.str s.provider.text)
  /-- `path` -/
  path : lookup "path" ms = some (.str s.path)
  /-- Nothing else. -/
  names : ∀ m ∈ ms, m.1 ∈ ["provider", "path"]

/-- The source that is made of an object is the one that it decodes to. -/
theorem Source.validate_eq_ok {ms : Members} {s : Source} :
    Source.validate ms = .ok s ↔ Source.Decodes ms s := by
  constructor
  · intro hval
    obtain ⟨⟨p, path, u⟩, h, rfl⟩ := map_eq_ok.1 hval
    show Source.Decodes ms ⟨p, path⟩
    obtain ⟨hp, h⟩ := both_eq_ok.1 h
    obtain ⟨hpath, hu⟩ := both_eq_ok.1 h
    obtain ⟨v, hv, hp⟩ := field_eq_ok.1 hp
    obtain ⟨w, hw, hpath⟩ := field_eq_ok.1 hpath
    exact ⟨sourceProvider_eq_ok.1 hp ▸ hv, str_eq_ok.1 hpath ▸ hw, forbidExtra_eq_ok.1 hu⟩
  · intro h
    refine map_eq_ok.2 ⟨(s.provider, s.path, ()), both_eq_ok.2 ⟨?_, both_eq_ok.2 ⟨?_, ?_⟩⟩, rfl⟩
    · exact field_eq_ok.2 ⟨_, h.provider, sourceProvider_eq_ok.2 rfl⟩
    · exact field_eq_ok.2 ⟨_, h.path, str_eq_ok.2 rfl⟩
    · exact forbidExtra_eq_ok.2 h.names

/-- **The members of an accepted `file`.** -/
structure FileMeta.Decodes (ms : Members) (f : FileMeta) : Prop where
  /-- `name` -/
  name : lookup "name" ms = some (.str f.name)
  /-- `sizeBytes` -/
  sizeBytes : ∃ v, lookup "sizeBytes" ms = some v ∧ laxInt v = .ok f.sizeBytes.val
  /-- `checksumSha256` -/
  checksum : lookup "checksumSha256" ms = some (.str f.checksumSha256.val)
  /-- `contentType` -/
  contentType : OptionalIs ms "contentType" str f.contentType
  /-- Nothing else. -/
  names : ∀ m ∈ ms, m.1 ∈ ["name", "sizeBytes", "checksumSha256", "contentType"]

/-- The file that is made of an object is the one that it decodes to. -/
theorem FileMeta.validate_eq_ok {ms : Members} {f : FileMeta} :
    FileMeta.validate ms = .ok f ↔ FileMeta.Decodes ms f := by
  constructor
  · intro hval
    obtain ⟨⟨name, size, sum, type, u⟩, h, rfl⟩ := map_eq_ok.1 hval
    show FileMeta.Decodes ms ⟨name, size, sum, type⟩
    obtain ⟨hname, h⟩ := both_eq_ok.1 h
    obtain ⟨hsize, h⟩ := both_eq_ok.1 h
    obtain ⟨hsum, h⟩ := both_eq_ok.1 h
    obtain ⟨htype, hu⟩ := both_eq_ok.1 h
    obtain ⟨v₁, hv₁, hname⟩ := field_eq_ok.1 hname
    obtain ⟨v₂, hv₂, hsize⟩ := field_eq_ok.1 hsize
    obtain ⟨v₃, hv₃, hsum⟩ := field_eq_ok.1 hsum
    exact ⟨str_eq_ok.1 hname ▸ hv₁, ⟨v₂, hv₂, intOf_eq_ok.1 hsize⟩, strWith_eq_ok.1 hsum ▸ hv₃,
      optField_eq_ok.1 htype, forbidExtra_eq_ok.1 hu⟩
  · intro h
    obtain ⟨v, hv, hsize⟩ := h.sizeBytes
    refine map_eq_ok.2 ⟨(f.name, f.sizeBytes, f.checksumSha256, f.contentType, ()), ?_, rfl⟩
    refine both_eq_ok.2 ⟨field_eq_ok.2 ⟨_, h.name, str_eq_ok.2 rfl⟩, both_eq_ok.2 ⟨?_, ?_⟩⟩
    · exact field_eq_ok.2 ⟨v, hv, intOf_eq_ok.2 hsize⟩
    · exact both_eq_ok.2 ⟨field_eq_ok.2 ⟨_, h.checksum, strWith_eq_ok.2 rfl⟩,
        both_eq_ok.2 ⟨optField_eq_ok.2 h.contentType, forbidExtra_eq_ok.2 h.names⟩⟩

/-- **The members of an accepted destination.** -/
structure Destination.Decodes (ms : Members) (d : Destination) : Prop where
  /-- `provider` -/
  provider : lookup "provider" ms = some (.str d.provider.text)
  /-- `bucket` -/
  bucket : lookup "bucket" ms = some (.str d.bucket)
  /-- `key` -/
  key : lookup "key" ms = some (.str d.key)
  /-- `region` -/
  region : OptionalIs ms "region" str d.region
  /-- Nothing else. -/
  names : ∀ m ∈ ms, m.1 ∈ ["provider", "bucket", "key", "region"]

/-- The destination that is made of an object is the one that it decodes to. -/
theorem Destination.validate_eq_ok {ms : Members} {d : Destination} :
    Destination.validate ms = .ok d ↔ Destination.Decodes ms d := by
  constructor
  · intro hval
    obtain ⟨⟨p, bucket, key, region, u⟩, h, rfl⟩ := map_eq_ok.1 hval
    show Destination.Decodes ms ⟨p, bucket, key, region⟩
    obtain ⟨hp, h⟩ := both_eq_ok.1 h
    obtain ⟨hbucket, h⟩ := both_eq_ok.1 h
    obtain ⟨hkey, h⟩ := both_eq_ok.1 h
    obtain ⟨hregion, hu⟩ := both_eq_ok.1 h
    obtain ⟨v₁, hv₁, hp⟩ := field_eq_ok.1 hp
    obtain ⟨v₂, hv₂, hbucket⟩ := field_eq_ok.1 hbucket
    obtain ⟨v₃, hv₃, hkey⟩ := field_eq_ok.1 hkey
    exact ⟨provider_eq_ok.1 hp ▸ hv₁, str_eq_ok.1 hbucket ▸ hv₂, str_eq_ok.1 hkey ▸ hv₃,
      optField_eq_ok.1 hregion, forbidExtra_eq_ok.1 hu⟩
  · intro h
    refine map_eq_ok.2 ⟨(d.provider, d.bucket, d.key, d.region, ()), ?_, rfl⟩
    refine both_eq_ok.2 ⟨field_eq_ok.2 ⟨_, h.provider, provider_eq_ok.2 rfl⟩, both_eq_ok.2 ⟨?_, ?_⟩⟩
    · exact field_eq_ok.2 ⟨_, h.bucket, str_eq_ok.2 rfl⟩
    · exact both_eq_ok.2 ⟨field_eq_ok.2 ⟨_, h.key, str_eq_ok.2 rfl⟩,
        both_eq_ok.2 ⟨optField_eq_ok.2 h.region, forbidExtra_eq_ok.2 h.names⟩⟩

/-- **The members of an accepted `retry`.** -/
structure RetryInfo.Decodes (ms : Members) (r : RetryInfo) : Prop where
  /-- `attempt` -/
  attempt : ∃ v, lookup "attempt" ms = some v ∧ laxInt v = .ok r.attempt.val
  /-- `maxAttempts` -/
  maxAttempts : ∃ v, lookup "maxAttempts" ms = some v ∧ laxInt v = .ok r.maxAttempts.val
  /-- `lastError` -/
  lastError : OptionalIs ms "lastError" str r.lastError
  /-- Nothing else. -/
  names : ∀ m ∈ ms, m.1 ∈ ["attempt", "maxAttempts", "lastError"]

/-- The retry that is made of an object is the one that it decodes to. -/
theorem RetryInfo.validate_eq_ok {ms : Members} {r : RetryInfo} :
    RetryInfo.validate ms = .ok r ↔ RetryInfo.Decodes ms r := by
  constructor
  · intro hval
    obtain ⟨⟨attempt, max, last, u⟩, h, rfl⟩ := map_eq_ok.1 hval
    show RetryInfo.Decodes ms ⟨attempt, max, last⟩
    obtain ⟨hattempt, h⟩ := both_eq_ok.1 h
    obtain ⟨hmax, h⟩ := both_eq_ok.1 h
    obtain ⟨hlast, hu⟩ := both_eq_ok.1 h
    obtain ⟨v₁, hv₁, hattempt⟩ := field_eq_ok.1 hattempt
    obtain ⟨v₂, hv₂, hmax⟩ := field_eq_ok.1 hmax
    exact ⟨⟨v₁, hv₁, intOf_eq_ok.1 hattempt⟩, ⟨v₂, hv₂, intOf_eq_ok.1 hmax⟩, optField_eq_ok.1 hlast,
      forbidExtra_eq_ok.1 hu⟩
  · intro h
    obtain ⟨v₁, hv₁, hattempt⟩ := h.attempt
    obtain ⟨v₂, hv₂, hmax⟩ := h.maxAttempts
    refine map_eq_ok.2 ⟨(r.attempt, r.maxAttempts, r.lastError, ()), ?_, rfl⟩
    refine both_eq_ok.2 ⟨field_eq_ok.2 ⟨v₁, hv₁, intOf_eq_ok.2 hattempt⟩, both_eq_ok.2 ⟨?_, ?_⟩⟩
    · exact field_eq_ok.2 ⟨v₂, hv₂, intOf_eq_ok.2 hmax⟩
    · exact both_eq_ok.2 ⟨optField_eq_ok.2 h.lastError, forbidExtra_eq_ok.2 h.names⟩

/-- The destinations are a list of which every item is taken, and not empty. -/
theorem validDestinations_eq_ok {v : Value} {ds : {ds : List Destination // ds ≠ []}} :
    validDestinations v = .ok ds ↔ ∃ vs, v = .arr vs ∧
      List.Forall₂ (fun v d => model Destination.validate v = .ok d) vs ds.val := by
  cases v with
  | arr vs =>
      rw [validDestinations, bind_eq_ok]
      constructor
      · rintro ⟨ds', hds', h⟩
        by_cases hne : ds' ≠ []
        · rw [dif_pos hne, Except.ok.injEq] at h
          subst h
          exact ⟨vs, rfl, items_eq_ok.1 hds'⟩
        · rw [dif_neg hne] at h
          cases h
      · rintro ⟨vs', hvs, h⟩
        cases hvs
        exact ⟨ds.val, items_eq_ok.2 h, dif_pos ds.property⟩
  | _ => simp [validDestinations, fail]

/-- **The members of an accepted event.** -/
structure TransferEvent.Decodes (ms : Members) (e : TransferEvent) : Prop where
  /-- `schemaVersion` -/
  schemaVersion : lookup "schemaVersion" ms = some (.str e.schemaVersion.val)
  /-- `eventType` -/
  eventType : lookup "eventType" ms = some (.str e.eventType.text)
  /-- `eventId` -/
  eventId : lookup "eventId" ms = some (.str e.eventId.val)
  /-- `correlationId` -/
  correlationId : lookup "correlationId" ms = some (.str e.correlationId.val)
  /-- `idempotencyKey` -/
  idempotencyKey : lookup "idempotencyKey" ms = some (.str e.idempotencyKey.val)
  /-- `occurredAt` -/
  occurredAt : lookup "occurredAt" ms = some (.str e.occurredAt.val)
  /-- `source` -/
  source : ∃ ns, lookup "source" ms = some (.obj ns) ∧ Source.Decodes ns e.source
  /-- `file` -/
  file : ∃ ns, lookup "file" ms = some (.obj ns) ∧ FileMeta.Decodes ns e.file
  /-- `destinations` -/
  destinations : ∃ vs, lookup "destinations" ms = some (.arr vs) ∧
    List.Forall₂ (fun v d => ∃ ns, v = .obj ns ∧ Destination.Decodes ns d) vs e.destinations.val
  /-- `retry` -/
  retry : OptionalIs ms "retry" (model RetryInfo.validate) e.retry
  /-- Nothing else. -/
  names : ∀ m ∈ ms, m.1 ∈ TransferEvent.fieldNames

/-- **What the decoder accepts**, and as which event. -/
theorem TransferEvent.validate_eq_ok {ms : Members} {e : TransferEvent} :
    TransferEvent.validate ms = .ok e ↔ TransferEvent.Decodes ms e := by
  constructor
  · intro hval
    obtain ⟨⟨version, type, eventId, correlationId, key, occurredAt, source, file, ds, retry, u⟩, h,
      rfl⟩ := map_eq_ok.1 hval
    show TransferEvent.Decodes ms
      ⟨version, type, eventId, correlationId, key, occurredAt, source, file, ds, retry⟩
    -- all fields were valid
    obtain ⟨hversion, h⟩ := both_eq_ok.1 h
    obtain ⟨htype, h⟩ := both_eq_ok.1 h
    obtain ⟨hid, h⟩ := both_eq_ok.1 h
    obtain ⟨hcorr, h⟩ := both_eq_ok.1 h
    obtain ⟨hkey, h⟩ := both_eq_ok.1 h
    obtain ⟨hat, h⟩ := both_eq_ok.1 h
    obtain ⟨hsource, h⟩ := both_eq_ok.1 h
    obtain ⟨hfile, h⟩ := both_eq_ok.1 h
    obtain ⟨hds, h⟩ := both_eq_ok.1 h
    obtain ⟨hretry, hu⟩ := both_eq_ok.1 h
    -- and the members are there
    obtain ⟨v₁, hv₁, hversion⟩ := field_eq_ok.1 hversion
    obtain ⟨v₂, hv₂, htype⟩ := field_eq_ok.1 htype
    obtain ⟨v₃, hv₃, hid⟩ := field_eq_ok.1 hid
    obtain ⟨v₄, hv₄, hcorr⟩ := field_eq_ok.1 hcorr
    obtain ⟨v₅, hv₅, hkey⟩ := field_eq_ok.1 hkey
    obtain ⟨v₆, hv₆, hat⟩ := field_eq_ok.1 hat
    obtain ⟨v₇, hv₇, hsource⟩ := field_eq_ok.1 hsource
    obtain ⟨ns, rfl, hsource⟩ := model_eq_ok.1 hsource
    obtain ⟨v₈, hv₈, hfile⟩ := field_eq_ok.1 hfile
    obtain ⟨ns', rfl, hfile⟩ := model_eq_ok.1 hfile
    obtain ⟨v₉, hv₉, hds⟩ := field_eq_ok.1 hds
    obtain ⟨vs, rfl, hall⟩ := validDestinations_eq_ok.1 hds
    refine ⟨strWith_eq_ok.1 hversion ▸ hv₁, eventType_eq_ok.1 htype ▸ hv₂, strWith_eq_ok.1 hid ▸ hv₃,
      strWith_eq_ok.1 hcorr ▸ hv₄, strWith_eq_ok.1 hkey ▸ hv₅, strWith_eq_ok.1 hat ▸ hv₆,
      ⟨ns, hv₇, Source.validate_eq_ok.1 hsource⟩, ⟨ns', hv₈, FileMeta.validate_eq_ok.1 hfile⟩,
      ⟨vs, hv₉, hall.imp fun v d hd => ?_⟩, optField_eq_ok.1 hretry, forbidExtra_eq_ok.1 hu⟩
    obtain ⟨ms', rfl, hd⟩ := model_eq_ok.1 hd
    exact ⟨ms', rfl, Destination.validate_eq_ok.1 hd⟩
  · intro h
    obtain ⟨ns, hsource, hs⟩ := h.source
    obtain ⟨ns', hfile, hf⟩ := h.file
    obtain ⟨vs, hdestinations, hds⟩ := h.destinations
    have hds' : List.Forall₂ (fun v d => model Destination.validate v = .ok d) vs e.destinations.val :=
      hds.imp fun v d ⟨ms', hv, hd⟩ => model_eq_ok.2 ⟨ms', hv, Destination.validate_eq_ok.2 hd⟩
    refine map_eq_ok.2 ⟨(e.schemaVersion, e.eventType, e.eventId, e.correlationId, e.idempotencyKey,
      e.occurredAt, e.source, e.file, e.destinations, e.retry, ()), ?_, rfl⟩
    refine both_eq_ok.2 ⟨field_eq_ok.2 ⟨_, h.schemaVersion, strWith_eq_ok.2 rfl⟩, ?_⟩
    refine both_eq_ok.2 ⟨field_eq_ok.2 ⟨_, h.eventType, eventType_eq_ok.2 rfl⟩, ?_⟩
    refine both_eq_ok.2 ⟨field_eq_ok.2 ⟨_, h.eventId, strWith_eq_ok.2 rfl⟩, ?_⟩
    refine both_eq_ok.2 ⟨field_eq_ok.2 ⟨_, h.correlationId, strWith_eq_ok.2 rfl⟩, ?_⟩
    refine both_eq_ok.2 ⟨field_eq_ok.2 ⟨_, h.idempotencyKey, strWith_eq_ok.2 rfl⟩, ?_⟩
    refine both_eq_ok.2 ⟨field_eq_ok.2 ⟨_, h.occurredAt, strWith_eq_ok.2 rfl⟩, ?_⟩
    refine both_eq_ok.2 ⟨field_eq_ok.2 ⟨_, hsource, model_eq_ok.2 ⟨ns, rfl,
      Source.validate_eq_ok.2 hs⟩⟩, ?_⟩
    refine both_eq_ok.2 ⟨field_eq_ok.2 ⟨_, hfile, model_eq_ok.2 ⟨ns', rfl,
      FileMeta.validate_eq_ok.2 hf⟩⟩, ?_⟩
    refine both_eq_ok.2 ⟨field_eq_ok.2 ⟨_, hdestinations, validDestinations_eq_ok.2 ⟨vs, rfl,
      hds'⟩⟩, ?_⟩
    exact both_eq_ok.2 ⟨optField_eq_ok.2 h.retry, forbidExtra_eq_ok.2 h.names⟩

/-- An accepted body is a JSON object with the members of the event. -/
theorem TransferEvent.fromJsonBytes_eq_ok {data : ByteArray} {e : TransferEvent} :
    TransferEvent.fromJsonBytes data = .ok e ↔
      ∃ ms, Json.loads data = some (.obj ms) ∧ TransferEvent.Decodes ms e := by
  unfold TransferEvent.fromJsonBytes
  cases Json.loads data with
  | none => simp
  | some v =>
      have hmap : Except.mapError Exn.validation (model TransferEvent.validate v) = .ok e ↔
          model TransferEvent.validate v = .ok e := by
        cases model TransferEvent.validate v <;> simp [Except.mapError]
      show Except.mapError Exn.validation (model TransferEvent.validate v) = .ok e ↔ _
      rw [hmap, model_eq_ok]
      simp only [Option.some.injEq, TransferEvent.validate_eq_ok]

end TransferWorker
