import Mathlib.Data.List.TakeWhile
import TransferWorker.CallTrees.Trace
import TransferWorker.Worker.Consumer
import TransferWorker.Worker.Decoding

/-! # Version negotiation

What `_handle` does with documents of other versions of the schema: of another major version, and of
a minor version with members that this one does not know. The decoder checks the whole model of
version 1 before anyone looks at the version.

* **`RejectsVersion`** — the document goes to the dead-letter queue as of an unsupported version;
  `rejectsVersion_iff` says for which documents it does.
* **`Widens`** — a document with additional members, at any level; `widened_document` says that it is
  dead-lettered. -/

namespace TransferWorker

open CallTrees
open Json (Value lookup)

variable {settings : Settings} {tag : Nat} {m : Message} {event : TransferEvent}

/-! ## Major versions -/

/-- The publications and acknowledgements of a trace all succeed. -/
def WorkingBroker (tr : List (Answered calls Exn)) : Prop :=
  ∀ c ∈ tr, ((∃ q m, c.op = .basicPublish q m) ∨ ∃ t, c.op = .basicAck t) → ∃ x, c.answer = .ok x

/-- The headers of a message that was dead-lettered for its version. -/
def unsupportedSchemaVersion : Option (List (String × String)) :=
  some [("x-dlq-reason", "unsupported_schema_version")]

/-- **`_handle` rejects the version of a message**: with a working broker it publishes the event to
the dead-letter queue with that reason, acknowledges the delivery, and does nothing else. -/
def RejectsVersion (settings : Settings) (tag : Nat) (m : Message) : Prop :=
  ∀ tr r, (Consumer.handle settings tag m).Makes tr r → WorkingBroker tr →
    r = .ok () ∧ ∃ m' : Message, m'.properties.headers = unsupportedSchemaVersion ∧
      TransferEvent.fromJsonBytes m'.body = TransferEvent.fromJsonBytes m.body ∧
      tr = [⟨.basicPublish settings.dlqName m', .ok ()⟩, ⟨.basicAck tag, .ok ()⟩]

/-- **A version text**: `MAJOR.MINOR` in ASCII digits. -/
structure IsVersionText (s : String) (major minor : List Char) : Prop where
  /-- The two parts with a point between them. -/
  text : s.toList = major ++ '.' :: minor
  /-- The major version has digits. -/
  major_ne : major ≠ []
  /-- The minor version has digits. -/
  minor_ne : minor ≠ []
  /-- The digits of the major version. -/
  major_digits : ∀ c ∈ major, isAsciiDigit c = true
  /-- The digits of the minor version. -/
  minor_digits : ∀ c ∈ minor, isAsciiDigit c = true

/-- An ASCII digit is a decimal digit. -/
theorem isDecimal_of_isAsciiDigit {c : Char} (h : isAsciiDigit c = true) : isDecimal c = true := by
  have hrange : 48 ≤ c.toNat ∧ c.toNat ≤ 57 := by
    simpa [isAsciiDigit, Char.le_def, UInt32.le_iff_toNat_le] using h
  have hzero : (0x30 ≤ c.toNat && c.toNat < 0x30 + 10) = true := by
    simp only [Bool.and_eq_true, decide_eq_true_eq]
    omega
  simp only [isDecimal, decimal?, decimalZeros, List.find?_cons, hzero, Option.map_some,
    Option.isSome_some]

/-- A version text matches `_VERSION_RE`, with its major version as the first group. -/
theorem IsVersionText.matchVersion {s : String} {major minor : List Char}
    (h : IsVersionText s major minor) : matchVersion s = some major := by
  have hmajor : ∀ c ∈ major, isDecimal c = true :=
    fun c hc => isDecimal_of_isAsciiDigit (h.major_digits c hc)
  have hminor : ∀ c ∈ minor, isDecimal c = true :=
    fun c hc => isDecimal_of_isAsciiDigit (h.minor_digits c hc)
  have hpoint : isDecimal '.' = false := by decide
  have htake : s.toList.takeWhile isDecimal = major := by
    rw [h.text, List.takeWhile_append_of_pos hmajor, List.takeWhile_cons_of_neg (by simp [hpoint]),
      List.append_nil]
  have hdrop : s.toList.dropWhile isDecimal = '.' :: minor := by
    rw [h.text, List.dropWhile_append_of_pos hmajor, List.dropWhile_cons_of_neg (by simp [hpoint])]
  have hrest : minor.takeWhile isDecimal = minor := List.takeWhile_eq_self_iff.2 hminor
  have hend : minor.dropWhile isDecimal = [] := List.dropWhile_eq_nil_iff.2 hminor
  unfold TransferWorker.matchVersion
  rw [hdrop, htake]
  show (if major ≠ [] ∧ minor.takeWhile isDecimal ≠ [] ∧ atEnd (minor.dropWhile isDecimal) then
    some major else none) = some major
  rw [hrest, hend, if_pos ⟨h.major_ne, h.minor_ne, rfl⟩]

/-- The trace of a publication and an acknowledgement with a working broker. -/
theorem makes_publish_ack {q : String} {m : Message} {tr : List (Answered calls Exn)}
    {r : Except Exn Unit}
    (h : (call (.basicPublish q m) >>= fun _ => call (.basicAck tag) : Prog Unit).Makes tr r)
    (hbroker : WorkingBroker tr) :
    r = .ok () ∧ tr = [⟨.basicPublish q m, .ok ()⟩, ⟨.basicAck tag, .ok ()⟩] := by
  rcases Program.makes_perform_bind h with ⟨_, tr', rfl, hrest⟩ | ⟨e, rfl, -⟩
  · rw [← Program.bind_ret (call (.basicAck tag))] at hrest
    rcases Program.makes_perform_bind hrest with ⟨_, tr'', rfl, hend⟩ | ⟨e, rfl, -⟩
    · obtain ⟨rfl, rfl⟩ := Program.makes_ret.1 hend
      exact ⟨rfl, rfl⟩
    · obtain ⟨x, hx⟩ := hbroker ⟨.basicAck tag, .error e⟩ (by simp) (.inr ⟨tag, rfl⟩)
      cases hx
  · obtain ⟨x, hx⟩ := hbroker ⟨.basicPublish q m, .error e⟩ (by simp) (.inl ⟨q, m, rfl⟩)
    cases hx

/-- With a working broker there is such a trace. -/
theorem makes_publish_ack_ok (q : String) (m : Message) :
    (call (.basicPublish q m) >>= fun _ => call (.basicAck tag) : Prog Unit).Makes
      [⟨.basicPublish q m, .ok ()⟩, ⟨.basicAck tag, .ok ()⟩] (.ok ()) :=
  .perform_bind (S := calls) (Op.basicPublish q m) () (.perform (S := calls) (Op.basicAck tag) ())

/-- The broker takes a dead letter and its acknowledgement. -/
theorem workingBroker_ok {q : String} {m : Message} :
    WorkingBroker [⟨.basicPublish q m, .ok ()⟩, ⟨.basicAck tag, .ok ()⟩] := by
  intro c hc _
  rcases List.mem_cons.1 hc with rfl | hc
  · exact ⟨(), rfl⟩
  · rw [List.mem_singleton.1 hc]
    exact ⟨(), rfl⟩

/-- The version of an accepted document is the version of the event. -/
theorem matchVersion_of_decodes {ms : Members} {s : String} {major minor : List Char}
    (he : TransferEvent.Decodes ms event) (hs : lookup "schemaVersion" ms = some (.str s))
    (hversion : IsVersionText s major minor) : event.majorDigits = major := by
  have htext : event.schemaVersion.val = s := by
    have hsame := he.schemaVersion.symm.trans hs
    rw [Option.some.injEq, Value.str.injEq] at hsame
    exact hsame
  rw [TransferEvent.majorDigits, htext, hversion.matchVersion]
  rfl

/-- A body that the decoder refuses is not rejected for its version. -/
theorem not_rejectsVersion_of_error {e : Exn} (h : TransferEvent.fromJsonBytes m.body = .error e) :
    ¬RejectsVersion settings tag m := by
  intro hrejects
  unfold RejectsVersion Consumer.handle at hrejects
  rw [h] at hrejects
  -- the raw body is dead-lettered, for another reason
  obtain ⟨-, m', hheaders, -, htrace⟩ := hrejects _ _ (makes_publish_ack_ok _ _) workingBroker_ok
  have hraw := (List.cons.inj htrace).1
  rw [Answered.mk.injEq, Op.basicPublish.injEq] at hraw
  rw [← hraw.1.2] at hheaders
  have hreasons : some [("x-dlq-reason", "invalid_payload")] = unsupportedSchemaVersion := hheaders
  exact absurd hreasons (by decide)

/-- **Which documents of another major version are rejected as such**: of all JSON objects whose
`schemaVersion` is a version text with a major version other than 1, exactly those that pass the
validation of version 1 in every field, and whose major version `int` can read. -/
theorem rejectsVersion_iff (settings : Settings) (tag : Nat) {m : Message} {ms : Members} {s : String}
    {major minor : List Char} (hm : Json.loads m.body = some (.obj ms))
    (hs : lookup "schemaVersion" ms = some (.str s)) (hversion : IsVersionText s major minor)
    (hother : decimalValue major ≠ 1) :
    RejectsVersion settings tag m ↔
      (∃ event, TransferEvent.fromJsonBytes m.body = .ok event) ∧ major.length ≤ 4300 := by
  constructor
  · intro h
    cases hok : TransferEvent.fromJsonBytes m.body with
    | error e => exact absurd h (not_rejectsVersion_of_error hok)
    | ok event =>
        refine ⟨⟨event, rfl⟩, ?_⟩
        -- with too many digits `int` raises, and nothing is published
        by_contra hlong
        obtain ⟨ms', hms', he⟩ := TransferEvent.fromJsonBytes_eq_ok.1 hok
        obtain rfl : ms = ms' := by simpa using hm.symm.trans hms'
        have hraises : event.assertSupported =
            .error (.value "Exceeds the limit (4300 digits) for integer string conversion") := by
          simp only [TransferEvent.assertSupported, TransferEvent.schemaMajor,
            matchVersion_of_decodes he hs hversion]
          rw [if_pos (not_le.1 hlong)]
          rfl
        unfold RejectsVersion Consumer.handle at h
        rw [hok] at h
        dsimp only at h
        rw [hraises] at h
        obtain ⟨hr, -⟩ := h [] _ .raise (by simp [WorkingBroker])
        cases hr
  · rintro ⟨⟨event, hok⟩, hlength⟩ tr r hmakes hbroker
    obtain ⟨ms', hms', he⟩ := TransferEvent.fromJsonBytes_eq_ok.1 hok
    obtain rfl : ms = ms' := by simpa using hm.symm.trans hms'
    obtain ⟨text, hraises⟩ : ∃ text, event.assertSupported = .error (.unsupportedSchemaVersion text) := by
      simp only [TransferEvent.assertSupported, TransferEvent.schemaMajor,
        matchVersion_of_decodes he hs hversion]
      rw [if_neg (not_lt.2 hlength)]
      exact ⟨_, if_pos hother⟩
    simp only [Consumer.handle, hok, hraises] at hmakes
    obtain ⟨rfl, rfl⟩ := makes_publish_ack hmakes hbroker
    refine ⟨rfl, _, rfl, ?_, rfl⟩
    rw [hok]
    exact Publisher.fromJsonBytes_message event none _

/-- A version with the major number two. -/
theorem isVersionText_two : IsVersionText "2.0" ['2'] ['0'] where
  text := rfl
  major_ne := by simp
  minor_ne := by simp
  major_digits := by
    intro c hc
    rw [List.mem_singleton.1 hc]
    rfl
  minor_digits := by
    intro c hc
    rw [List.mem_singleton.1 hc]
    rfl

/-- The example event with version 2.0 is rejected for its version. -/
theorem rejectsVersion_sample : ∃ m : Message, RejectsVersion {} 1 m := by
  let event : TransferEvent := { TransferEvent.sample with schemaVersion := ⟨"2.0", by decide +kernel⟩ }
  let m := Publisher.message event none none
  have hm : Json.loads m.body = some event.toJson := Json.loads_dumps _
  have hok : TransferEvent.fromJsonBytes m.body = .ok event := Publisher.fromJsonBytes_message _ _ _
  exact ⟨m, (rejectsVersion_iff {} 1 hm rfl isVersionText_two (by decide)).2 ⟨⟨event, hok⟩, by decide⟩⟩

/-- **A document of version 2.0 that has no other member** is dead-lettered as an invalid payload. -/
theorem version_only_not_rejected : ∃ (m : Message) (ms : Members),
    Json.loads m.body = some (.obj ms) ∧ lookup "schemaVersion" ms = some (.str "2.0") ∧
      IsVersionText "2.0" ['2'] ['0'] ∧ decimalValue ['2'] ≠ 1 ∧ ¬RejectsVersion {} 1 m := by
  let ms : Members := [("schemaVersion", .str "2.0")]
  have hloads : Json.loads (Json.dumps (.obj ms)) = some (.obj ms) := Json.loads_dumps _
  have hrefused : ∃ e, TransferEvent.fromJsonBytes (Json.dumps (.obj ms)) = .error e := by
    cases hok : TransferEvent.fromJsonBytes (Json.dumps (.obj ms)) with
    | error e => exact ⟨e, rfl⟩
    | ok event =>
        obtain ⟨ms', hms', he⟩ := TransferEvent.fromJsonBytes_eq_ok.1 hok
        obtain rfl : ms = ms' := by simpa using hloads.symm.trans hms'
        -- the event has an event type, the document has none
        cases he.eventType
  obtain ⟨e, he⟩ := hrefused
  exact ⟨⟨Json.dumps (.obj ms), {}⟩, ms, hloads, rfl, isVersionText_two, by decide,
    not_rejectsVersion_of_error he⟩

/-! ## Additional members -/

/-- An object with additional members: those that the schema names are as before, in the same order,
or related by `sub`. -/
def WidensObject (names : List String) (sub : String → Value → Value → Prop) (ms ms' : Members) :
    Prop :=
  List.Forall₂ (fun m m' => m'.1 = m.1 ∧ sub m.1 m.2 m'.2) ms (ms'.filter fun m => m.1 ∈ names)

/-- A value that is an object of a sub-model, with additional members; any other value as it was. -/
def WidensModel (names : List String) : Value → Value → Prop
  | .obj ns, v' => ∃ ns', v' = .obj ns' ∧ WidensObject names (fun _ w w' => w' = w) ns ns'
  | v, v' => v' = v

/-- The names of the fields of `source`. -/
def sourceNames : List String := ["provider", "path"]

/-- The names of the fields of `file`. -/
def fileNames : List String := ["name", "sizeBytes", "checksumSha256", "contentType"]

/-- The names of the fields of a destination. -/
def destinationNames : List String := ["provider", "bucket", "key", "region"]

/-- The names of the fields of `retry`. -/
def retryNames : List String := ["attempt", "maxAttempts", "lastError"]

/-- A member of the event with additional members inside. -/
def WidensField (name : String) (v v' : Value) : Prop :=
  if name = "source" then WidensModel sourceNames v v'
  else if name = "file" then WidensModel fileNames v v'
  else if name = "retry" then WidensModel retryNames v v'
  else if name = "destinations" then
    match v with
    | .arr vs => ∃ vs', v' = .arr vs' ∧ List.Forall₂ (WidensModel destinationNames) vs vs'
    | v => v' = v
  else v' = v

/-- **A document with additional members** whose names are not fields of the schema, at top level or
inside `source`, `file`, a destination or `retry`. -/
def Widens (ms ms' : Members) : Prop := WidensObject TransferEvent.fieldNames WidensField ms ms'

/-- Some member of an object is not among these. -/
def Extra (names : List String) (ms : Members) : Prop := ∃ m ∈ ms, m.1 ∉ names

/-- **Every member of a document is a field of the schema**, at top level and inside the `source`,
`file`, `destinations` and `retry` that count. -/
structure Unextended (ms : Members) : Prop where
  /-- At top level. -/
  top : ¬Extra TransferEvent.fieldNames ms
  /-- Inside `source`. -/
  source : ∀ ns, lookup "source" ms = some (.obj ns) → ¬Extra sourceNames ns
  /-- Inside `file`. -/
  file : ∀ ns, lookup "file" ms = some (.obj ns) → ¬Extra fileNames ns
  /-- Inside a destination. -/
  destinations : ∀ vs, lookup "destinations" ms = some (.arr vs) →
    ∀ ns, .obj ns ∈ vs → ¬Extra destinationNames ns
  /-- Inside `retry`. -/
  retry : ∀ ns, lookup "retry" ms = some (.obj ns) → ¬Extra retryNames ns

/-- An accepted document is not extended. -/
theorem TransferEvent.Decodes.unextended {ms : Members} (h : TransferEvent.Decodes ms event) :
    Unextended ms where
  top := fun ⟨m, hm, hname⟩ => hname (h.names m hm)
  source ns hns := by
    obtain ⟨ns', hns', hs⟩ := h.source
    obtain rfl : ns' = ns := by simpa using hns'.symm.trans hns
    rintro ⟨m, hm, hname⟩
    exact hname (hs.names m hm)
  file ns hns := by
    obtain ⟨ns', hns', hf⟩ := h.file
    obtain rfl : ns' = ns := by simpa using hns'.symm.trans hns
    rintro ⟨m, hm, hname⟩
    exact hname (hf.names m hm)
  destinations vs hvs ns hns := by
    obtain ⟨vs', hvs', hds⟩ := h.destinations
    obtain rfl : vs' = vs := by simpa using hvs'.symm.trans hvs
    obtain ⟨i, hi⟩ := List.mem_iff_getElem?.1 hns
    obtain ⟨hlength, hget⟩ := List.forall₂_iff_get.1 hds
    obtain ⟨hlt, hi⟩ := List.getElem?_eq_some_iff.1 hi
    obtain ⟨ns', hns', hd⟩ := hget i hlt (hlength ▸ hlt)
    have hsame : Value.obj ns = .obj ns' := hi.symm.trans hns'
    cases hsame
    rintro ⟨m, hm, hname⟩
    exact hname (hd.names m hm)
  retry ns hns := by
    rcases h.retry with ⟨-, hnone | hnull⟩ | ⟨v, r, hv, -, hr, -⟩
    · rw [hns] at hnone
      cases hnone
    · rw [hns] at hnull
      cases hnull
    · obtain rfl : v = .obj ns := by simpa using hv.symm.trans hns
      obtain ⟨ns', hns', hr⟩ := model_eq_ok.1 hr
      cases hns'
      rintro ⟨m, hm, hname⟩
      exact hname ((RetryInfo.validate_eq_ok.1 hr).names m hm)

/-- Without an additional member the object is the same. -/
theorem WidensObject.eq {names : List String} {ms ms' : Members}
    (h : WidensObject names (fun _ w w' => w' = w) ms ms') (hextra : ¬Extra names ms') : ms' = ms := by
  have hall : ms'.filter (fun m => m.1 ∈ names) = ms' := by
    rw [List.filter_eq_self]
    intro m hm
    by_contra hnot
    exact hextra ⟨m, hm, by simpa using hnot⟩
  rw [WidensObject, hall] at h
  have hsame : List.Forall₂ (· = ·) ms ms' := h.imp fun m m' ⟨hk, hv⟩ => (Prod.ext hk hv).symm
  exact (List.forall₂_eq_eq_eq ▸ hsame).symm

/-- A model that was not widened is the same. -/
theorem WidensModel.eq {names : List String} {v v' : Value} (h : WidensModel names v v')
    (hextra : ∀ ns', v' = .obj ns' → ¬Extra names ns') : v' = v := by
  cases v with
  | obj ns =>
      obtain ⟨ns', rfl, hw⟩ := h
      rw [hw.eq (hextra ns' rfl)]
  | _ => exact h

/-- The items of a list are the same when none of them has an additional member. -/
theorem widensModel_items_eq {names : List String} {vs vs' : List Value}
    (h : List.Forall₂ (WidensModel names) vs vs')
    (hextra : ∀ ns', .obj ns' ∈ vs' → ¬Extra names ns') : vs' = vs := by
  induction h with
  | nil => rfl
  | @cons v v' vs vs' hv _ ih =>
      have hhead : v' = v := hv.eq fun ns' hns' => hextra ns' (hns' ▸ List.mem_cons_self ..)
      have htail : vs' = vs := ih fun ns' hns' => hextra ns' (List.mem_cons_of_mem _ hns')
      rw [hhead, htail]

/-- A field without additional members inside is as before. -/
theorem WidensField.eq {ms' : Members} {name : String} {v v' : Value} (h : WidensField name v v')
    (hu : Unextended ms') (hv' : lookup name ms' = some v') : v' = v := by
  unfold WidensField at h
  split_ifs at h with hsource hfile hretry hdest
  · subst hsource
    exact h.eq fun ns' hns' => hu.source ns' (hns' ▸ hv')
  · subst hfile
    exact h.eq fun ns' hns' => hu.file ns' (hns' ▸ hv')
  · subst hretry
    exact h.eq fun ns' hns' => hu.retry ns' (hns' ▸ hv')
  · subst hdest
    cases v with
    | arr vs =>
        obtain ⟨vs', rfl, hvs⟩ := h
        rw [widensModel_items_eq hvs fun ns' hns' => hu.destinations vs' hv' ns' hns']
    | _ => exact h
  · exact h

/-- **Without an additional member the document is the same**, if no name in it is repeated. -/
theorem Widens.eq {ms ms' : Members} (h : Widens ms ms') (hu : Unextended ms')
    (hms : (ms.map Prod.fst).Nodup) : ms' = ms := by
  have hall : ms'.filter (fun m => m.1 ∈ TransferEvent.fieldNames) = ms' := by
    rw [List.filter_eq_self]
    intro m hm
    by_contra hnot
    exact hu.top ⟨m, hm, by simpa using hnot⟩
  rw [Widens, WidensObject, hall] at h
  have hnames : ms'.map Prod.fst = ms.map Prod.fst := by
    rw [← List.forall₂_eq_eq_eq, List.forall₂_map_left_iff, List.forall₂_map_right_iff]
    exact List.Forall₂.flip (h.imp fun _ _ hm => hm.1)
  have hms' : (ms'.map Prod.fst).Nodup := hnames ▸ hms
  have hpairs := (List.forall₂_and_left (p := fun m => m ∈ ms') ms' ms).2
    ⟨fun _ hm => hm, List.Forall₂.flip h⟩
  have hsame : List.Forall₂ (· = ·) ms' ms := hpairs.imp fun m' m ⟨hm', hname, hsub⟩ => by
    have hv' : lookup m.1 ms' = some m'.2 := hname ▸ Json.lookup_of_mem hms' hm'
    exact Prod.ext hname (hsub.eq hu hv')
  exact List.forall₂_eq_eq_eq ▸ hsame

/-- A document that is extended is refused. -/
theorem fromJsonBytes_error_of_extended {data : ByteArray} {ms : Members}
    (hdata : Json.loads data = some (.obj ms)) (hextended : ¬Unextended ms) :
    ∃ e, TransferEvent.fromJsonBytes data = .error e := by
  cases hok : TransferEvent.fromJsonBytes data with
  | error e => exact ⟨e, rfl⟩
  | ok event =>
      obtain ⟨ms', hms', he⟩ := TransferEvent.fromJsonBytes_eq_ok.1 hok
      obtain rfl : ms = ms' := by simpa using hdata.symm.trans hms'
      exact absurd he.unextended hextended

/-- `_handle` of a body that the decoder refuses. -/
theorem handle_of_error {e : Exn} (h : TransferEvent.fromJsonBytes m.body = .error e) :
    Consumer.handle settings tag m = (do
      Consumer.deadLetterRaw settings m "invalid_payload"
      call (.basicAck tag)) := by
  rw [Consumer.handle, h]

/-- **What becomes of a document to which members were added**, if no name in it is repeated: whatever
became of the document itself, `_handle` dead-letters the raw body of the other one as an invalid payload
and acknowledges the delivery. It makes no upload and does not touch the store. -/
theorem widened_document (settings : Settings) (tag : Nat) {m' : Message} {ms ms' : Members}
    (hm' : Json.loads m'.body = some (.obj ms')) (hw : Widens ms ms') (hadded : ms' ≠ ms)
    (hms : (Value.obj ms).Unrepeated) : Consumer.handle settings tag m' = (do
      Consumer.deadLetterRaw settings m' "invalid_payload"
      call (.basicAck tag)) := by
  have hextended : ¬Unextended ms' := fun hu => hadded (hw.eq hu hms.nodup)
  obtain ⟨e, he⟩ := fromJsonBytes_error_of_extended hm' hextended
  exact handle_of_error he

/-- The members of the example event. -/
def sampleMembers : Members :=
  match TransferEvent.sample.toJson with
  | .obj ms => ms
  | _ => []

/-- The example event with one more member at top level. -/
def notedMembers : Members := sampleMembers ++ [("note", .str "x")]

/-- A model may be widened by nothing. -/
theorem WidensModel.refl {names : List String} (v : Value)
    (h : ∀ ns, v = .obj ns → ∀ m ∈ ns, m.1 ∈ names) : WidensModel names v v := by
  cases v with
  | obj ns =>
      have hall : ns.filter (fun m => m.1 ∈ names) = ns := by
        rw [List.filter_eq_self]
        intro m hm
        simpa using h ns rfl m hm
      refine ⟨ns, rfl, ?_⟩
      rw [WidensObject, hall]
      exact List.forall₂_same.2 fun _ _ => ⟨rfl, rfl⟩
  | _ => exact rfl

/-- A member of a document as it was, if the sub-models in it have no additional members. -/
theorem WidensField.refl {name : String} {v : Value}
    (hsource : name = "source" → ∀ ns, v = .obj ns → ∀ m ∈ ns, m.1 ∈ sourceNames)
    (hfile : name = "file" → ∀ ns, v = .obj ns → ∀ m ∈ ns, m.1 ∈ fileNames)
    (hretry : name = "retry" → ∀ ns, v = .obj ns → ∀ m ∈ ns, m.1 ∈ retryNames)
    (hdest : name = "destinations" → ∀ vs, v = .arr vs →
      ∀ ns, .obj ns ∈ vs → ∀ m ∈ ns, m.1 ∈ destinationNames) : WidensField name v v := by
  unfold WidensField
  split_ifs with h₁ h₂ h₃ h₄
  · exact .refl v (hsource h₁)
  · exact .refl v (hfile h₂)
  · exact .refl v (hretry h₃)
  · cases v with
    | arr vs =>
        refine ⟨vs, rfl, List.forall₂_same.2 fun d hd => .refl d fun ns hns => ?_⟩
        exact hdest h₄ vs rfl ns (hns ▸ hd)
    | _ => exact rfl
  · exact rfl

/-- Members with other names at the end of an accepted document, if no name in it is repeated. -/
theorem Widens.append {ms extras : Members} (he : TransferEvent.Decodes ms event)
    (hnodup : ∀ m ∈ ms, lookup m.1 ms = some m.2)
    (hextras : ∀ m ∈ extras, m.1 ∉ TransferEvent.fieldNames) : Widens ms (ms ++ extras) := by
  have hkept : (ms ++ extras).filter (fun m => m.1 ∈ TransferEvent.fieldNames) = ms := by
    rw [List.filter_append, List.filter_eq_self.2, List.filter_eq_nil_iff.2, List.append_nil]
    · intro m hm
      simpa using hextras m hm
    · intro m hm
      simpa using he.names m hm
  have hu := he.unextended
  rw [Widens, WidensObject, hkept]
  refine List.forall₂_same.2 fun m hm => ⟨rfl, .refl ?_ ?_ ?_ ?_⟩
  · intro hname ns hns m' hm'
    by_contra hnot
    exact hu.source ns (by rw [← hname, hnodup m hm, hns]) ⟨m', hm', hnot⟩
  · intro hname ns hns m' hm'
    by_contra hnot
    exact hu.file ns (by rw [← hname, hnodup m hm, hns]) ⟨m', hm', hnot⟩
  · intro hname ns hns m' hm'
    by_contra hnot
    exact hu.retry ns (by rw [← hname, hnodup m hm, hns]) ⟨m', hm', hnot⟩
  · intro hname vs hvs ns hns m' hm'
    by_contra hnot
    exact hu.destinations vs (by rw [← hname, hnodup m hm, hvs]) ns hns ⟨m', hm', hnot⟩

/-- The document of the example event. -/
theorem loads_sample : Json.loads TransferEvent.sample.toJsonBytes = some (.obj sampleMembers) :=
  Json.loads_dumps _

/-- It decodes to the example event. -/
theorem decodes_sample : TransferEvent.Decodes sampleMembers .sample := by
  obtain ⟨ms, hms, he⟩ := TransferEvent.fromJsonBytes_eq_ok.1
    (TransferEvent.fromJsonBytes_toJsonBytes .sample)
  obtain rfl : sampleMembers = ms := by simpa using loads_sample.symm.trans hms
  exact he

/-- A note is added to it. -/
theorem widens_noted : Widens sampleMembers notedMembers := by
  refine .append decodes_sample (fun m hm => ?_) fun m hm => ?_
  · simp only [sampleMembers, TransferEvent.toJson, List.mem_cons, List.not_mem_nil, or_false] at hm
    rcases hm with rfl | rfl | rfl | rfl | rfl | rfl | rfl | rfl | rfl | rfl <;> rfl
  · rw [List.mem_singleton.1 hm]
    decide

/-- Then it has a member that it should not have. -/
theorem noted_extended : ¬Unextended notedMembers :=
  fun h => h.top ⟨("note", .str "x"), List.mem_append_right _ (List.mem_singleton_self _), by decide⟩

/-- Then it is another document. -/
theorem noted_ne_sample : notedMembers ≠ sampleMembers := by
  intro h
  have hlength := congrArg List.length h
  rw [notedMembers, List.length_append, List.length_singleton] at hlength
  omega

/-- A body of the example event. -/
theorem exists_sample_body : ∃ data, Json.loads data = some (.obj sampleMembers) ∧
    TransferEvent.fromJsonBytes data = .ok .sample :=
  ⟨_, loads_sample, TransferEvent.fromJsonBytes_toJsonBytes .sample⟩

/-- A body of the example event with a note. -/
theorem exists_noted_body : ∃ data, Json.loads data = some (.obj notedMembers) :=
  ⟨_, Json.loads_dumps _⟩

/-- The example event with a note is dead-lettered. -/
theorem widened_document_sample : ∃ m' : Message, Consumer.handle {} 1 m' = (do
    Consumer.deadLetterRaw {} m' "invalid_payload"
    call (.basicAck 1)) := by
  obtain ⟨data', hdata'⟩ := exists_noted_body
  let m' : Message := ⟨data', {}⟩
  have hm' : Json.loads m'.body = some (.obj notedMembers) := hdata'
  have hunrepeated : (Value.obj sampleMembers).isUnrepeated = true := by decide +kernel
  exact ⟨m', widened_document {} 1 hm' widens_noted noted_ne_sample hunrepeated⟩

/-- **A member that version 1.0 does not know makes a difference**: of the example event the first
call asks the store, of the example event with a note it dead-letters the body. -/
theorem noted_takes_another_branch : ∃ m m' : Message, ∃ ms ms' : Members,
    Json.loads m.body = some (.obj ms) ∧ Json.loads m'.body = some (.obj ms') ∧ Widens ms ms' ∧
      (∃ event, TransferEvent.fromJsonBytes m.body = .ok event ∧ event.assertSupported = .ok ()) ∧
      (∀ tr r, (Consumer.handle {} 1 m).Makes tr r →
        ∃ key x tr', tr = ⟨.isDone key, x⟩ :: tr') ∧
      ∀ tr r, (Consumer.handle {} 1 m').Makes tr r →
        ∃ m'' x tr', tr = ⟨.basicPublish ({} : Settings).dlqName m'', x⟩ :: tr' := by
  obtain ⟨data, hdata, hok⟩ := exists_sample_body
  obtain ⟨data', hdata'⟩ := exists_noted_body
  obtain ⟨e, he⟩ := fromJsonBytes_error_of_extended hdata' noted_extended
  refine ⟨⟨data, {}⟩, ⟨data', {}⟩, sampleMembers, notedMembers, hdata, hdata', widens_noted,
    ⟨.sample, hok, TransferEvent.sample_supported⟩, fun tr r hmakes => ?_, fun tr r hmakes => ?_⟩
  · simp only [Consumer.handle, hok, TransferEvent.sample_supported] at hmakes
    obtain ⟨x, tr', rfl, -⟩ := Program.makes_call.1 hmakes
    exact ⟨_, x, tr', rfl⟩
  · rw [handle_of_error (m := ⟨data', {}⟩) he] at hmakes
    obtain ⟨x, tr', rfl, -⟩ := Program.makes_call.1 hmakes
    exact ⟨_, x, tr', rfl⟩

end TransferWorker
