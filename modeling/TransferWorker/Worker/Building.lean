import TransferWorker.CallTrees.Trace
import TransferWorker.Worker.Decoding
import TransferWorker.Worker.Watcher

/-! # The events that the watcher builds

What `build_event` asks the system for, and the event that it makes of the answers.

* **`Sighting`** — the answers; `Sighting.event` is the event.
* **`makes_buildEvent_iff`** — the runs of `build_event` that return. -/

namespace TransferWorker

open CallTrees
open Validated

namespace TransferEvent

variable {version eventId correlationId key occurredAt name checksum type : String} {source : Source}
  {size : Nat} {ds : {ds : List Destination // ds ≠ []}} {e : TransferEvent}

/-- The constructor accepts validated texts. -/
theorem make_texts (version : Text isVersion) (eventId correlationId : Text isUuid)
    (key : Text matchIdempotency) (occurredAt : Text isOccurredAt) (source : Source) (name : String)
    (size : Nat) (checksum : Text matchSha256) (type : String) (ds : {ds : List Destination // ds ≠ []}) :
    make version eventId correlationId key occurredAt source name size checksum type ds =
      .ok ⟨version, .fileTransferRequested, eventId, correlationId, key, occurredAt, source,
        ⟨name, ⟨size, Int.natCast_nonneg _⟩, checksum, some type⟩, ds, none⟩ := by
  simp [make, validSha256, validVersion, validUuid, validIdempotencyKey, validOccurredAt, Except.map]

/-- It refuses all others, and keeps the identifiers. -/
theorem valid_of_make
    (h : make version eventId correlationId key occurredAt source name size checksum type ds = .ok e) :
    e.eventId.val = eventId ∧ isUuid correlationId = true ∧ isOccurredAt occurredAt = true := by
  unfold make at h
  simp only at h
  split at h
  · cases h
  · cases h
  · rename_i hevent
    obtain ⟨hversion, hrest⟩ := both_eq_ok.1 hevent
    obtain ⟨hid, hrest⟩ := both_eq_ok.1 hrest
    obtain ⟨hcorrelation, hrest⟩ := both_eq_ok.1 hrest
    obtain ⟨-, hat⟩ := both_eq_ok.1 hrest
    have hvalid : ∀ {valid : String → Bool} {msg field s : String} {t : Text valid},
        (text valid msg s).under field = .ok t → valid s = true := fun {_ _ _ _ t} h => by
      rw [← text_eq_ok.1 (under_eq_ok.1 h)]
      exact t.property
    refine ⟨?_, hvalid hcorrelation, hvalid hat⟩
    cases h
    exact text_eq_ok.1 (under_eq_ok.1 hid)

end TransferEvent

/-- The version of all events of the watcher. -/
theorem isVersion_one : isVersion "1.0" = true := by decide +kernel

/-- What `build_event` is told about a file. -/
structure Sighting where
  /-- The size that `getsize` returns. -/
  size : Nat
  /-- What `sha256_file` reads. -/
  content : ByteArray
  /-- The first new UUID. -/
  eventId : Text isUuid
  /-- The second one. -/
  correlationId : Text isUuid
  /-- The time. -/
  occurredAt : Text isOccurredAt

namespace Sighting

/-- The calls with their answers. -/
def trace (s : Sighting) (path : Path) : List (Answered calls Exn) :=
  [⟨.getsize path, .ok s.size⟩, ⟨.readFile path, .ok s.content⟩, ⟨.newUuid, .ok s.eventId.val⟩,
    ⟨.newUuid, .ok s.correlationId.val⟩, ⟨.utcnow, .ok s.occurredAt.val⟩]

/-- The event. -/
def event (s : Sighting) (H : Hashes) (cwd name : String) (settings : Settings) : TransferEvent where
  schemaVersion := ⟨"1.0", isVersion_one⟩
  eventType := .fileTransferRequested
  eventId := s.eventId
  correlationId := s.correlationId
  idempotencyKey := ⟨computeIdempotencyKey H settings.correlationSecret name s.size (H.sha256 s.content),
    matchIdempotency_digest _⟩
  occurredAt := s.occurredAt
  source := ⟨.sftp, name⟩
  file := ⟨basename name, ⟨s.size, Int.natCast_nonneg _⟩,
    ⟨H.sha256 s.content, matchSha256_digest _⟩, some (guessContentType name)⟩
  destinations := ⟨Watcher.destinations settings (relpath cwd name settings.watchDir),
    Watcher.destinations_ne_nil _ _⟩
  retry := none

/-- A file with one order line, with the identifiers of the example event. -/
def sample : Sighting where
  size := "order_id,sku,quantity,channel\nA1,S1,1,web\n".toUTF8.size
  content := "order_id,sku,quantity,channel\nA1,S1,1,web\n".toUTF8
  eventId := TransferEvent.sample.eventId
  correlationId := TransferEvent.sample.correlationId
  occurredAt := TransferEvent.sample.occurredAt

end Sighting

variable {H : Hashes} {cwd name : String} {path : Path} {settings : Settings}
  {tr : List (Answered calls Exn)} {e : TransferEvent}

/-- The constructor makes the event. -/
theorem Sighting.make_eq (H : Hashes) (cwd name : String) (settings : Settings) (s : Sighting) :
    TransferEvent.make "1.0" s.eventId s.correlationId
      (computeIdempotencyKey H settings.correlationSecret name s.size (H.sha256 s.content)) s.occurredAt
      ⟨.sftp, name⟩ (basename name) s.size (H.sha256 s.content) (guessContentType name)
      ⟨Watcher.destinations settings (relpath cwd name settings.watchDir),
        Watcher.destinations_ne_nil _ _⟩ = .ok (s.event H cwd name settings) :=
  TransferEvent.make_texts ⟨"1.0", isVersion_one⟩ s.eventId s.correlationId
    ⟨_, matchIdempotency_digest _⟩ s.occurredAt ⟨.sftp, name⟩ (basename name) s.size
    ⟨_, matchSha256_digest (H.sha256 s.content)⟩ (guessContentType name) _

/-- **The runs of `build_event` that return**: the name is UTF-8, and all calls return. -/
theorem makes_buildEvent_iff : (Watcher.buildEvent H cwd path settings).Makes tr (.ok e) ↔
    ∃ name s, String.fromUTF8? path = some name ∧ tr = Sighting.trace s path ∧
      e = s.event H cwd name settings := by
  unfold Watcher.buildEvent
  constructor
  · intro h
    obtain ⟨size, tr₁, rfl, h₁⟩ := Program.makes_perform_bind_ok.1 h
    obtain ⟨content, tr₂, rfl, h₂⟩ := Program.makes_perform_bind_ok.1 h₁
    cases hname : String.fromUTF8? path with
    | none =>
        simp only [hname] at h₂
        cases (Program.makes_raise.1 h₂).2
    | some name =>
        simp only [hname] at h₂
        obtain ⟨eventId, tr₃, rfl, h₃⟩ := Program.makes_perform_bind_ok.1 h₂
        obtain ⟨correlationId, tr₄, rfl, h₄⟩ := Program.makes_perform_bind_ok.1 h₃
        obtain ⟨occurredAt, tr₅, rfl, h₅⟩ := Program.makes_perform_bind_ok.1 h₄
        obtain ⟨rfl, hmake⟩ := Program.makes_ofExcept.1 h₅
        -- the constructor accepts only answers that are a sighting
        obtain ⟨heq, hcorrelation, hat⟩ := TransferEvent.valid_of_make hmake.symm
        have hid : isUuid eventId = true := heq ▸ e.eventId.property
        have hevent := Sighting.make_eq H cwd name settings
          ⟨size, content, ⟨eventId, hid⟩, ⟨correlationId, hcorrelation⟩, ⟨occurredAt, hat⟩⟩
        refine ⟨name, ⟨size, content, ⟨eventId, hid⟩, ⟨correlationId, hcorrelation⟩, ⟨occurredAt, hat⟩⟩,
          rfl, rfl, ?_⟩
        exact Except.ok.inj (hmake.trans hevent)
  · rintro ⟨name, s, hname, rfl, rfl⟩
    refine .perform_bind _ _ (.perform_bind _ _ ?_)
    simp only [hname]
    refine .perform_bind _ _ (.perform_bind _ _ (.perform_bind _ _ ?_))
    exact Program.makes_ofExcept.2 ⟨rfl, (s.make_eq H cwd name settings).symm⟩

end TransferWorker
