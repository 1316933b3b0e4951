import TransferWorker.Worker.Building

/-! # Events on the wire

Whatever event the worker holds, the body it publishes for it decodes to that event again.

* **`Held`** — the events of the worker: built, decoded, passed through `with_retry`.
* **`wire_round_trip`** — encoding and decoding lose nothing.
* **`recode`** — decode and encode again; a second time changes nothing. -/

namespace TransferWorker

open CallTrees

namespace TransferEvent

/-- **The events that the worker holds.** A retry may be given to any of them, any number of times. -/
inductive Held (H : Hashes) (cwd : String) (settings : Settings) : TransferEvent → Prop
  /-- `build_event` returned it. -/
  | built {path : Path} {tr : List (Answered calls Exn)} {e : TransferEvent} :
      (Watcher.buildEvent H cwd path settings).Makes tr (.ok e) → Held H cwd settings e
  /-- `from_json_bytes` returned it. -/
  | decoded {data : ByteArray} {e : TransferEvent} : fromJsonBytes data = .ok e → Held H cwd settings e
  /-- `with_retry` returned it. -/
  | retried {e e' : TransferEvent} {attempt maxAttempts : Int} {lastError : String} :
      Held H cwd settings e → e.withRetry attempt maxAttempts lastError = .ok e' →
        Held H cwd settings e'

/-- Decode a body and encode the event. -/
def recode (data : ByteArray) : Except Exn ByteArray := (fromJsonBytes data).map toJsonBytes

variable {H : Hashes} {cwd : String} {settings : Settings} {data : ByteArray} {e : TransferEvent}

/-- What can be decoded is encoded again as its event. -/
theorem recode_eq (h : fromJsonBytes data = .ok e) : recode data = .ok e.toJsonBytes := by
  rw [recode, h]
  rfl

/-- The encoding of an event is a fixed point. -/
theorem recode_toJsonBytes (e : TransferEvent) : recode e.toJsonBytes = .ok e.toJsonBytes :=
  recode_eq (fromJsonBytes_toJsonBytes e)

/-- Encoding is injective: a body says all about its event. -/
theorem toJsonBytes_injective : Function.Injective toJsonBytes := by
  intro e e' h
  have hdecoded := congrArg fromJsonBytes h
  rw [fromJsonBytes_toJsonBytes, fromJsonBytes_toJsonBytes] at hdecoded
  exact Except.ok.inj hdecoded

/-- `with_retry` of positive counters returns, and changes nothing but `retry`. -/
theorem exists_withRetry (e : TransferEvent) {attempt maxAttempts : Int} (lastError : String)
    (ha : 1 ≤ attempt) (hm : 1 ≤ maxAttempts) : ∃ e', e.withRetry attempt maxAttempts lastError = .ok e' ∧
      { e' with retry := e.retry } = e ∧
      ∃ r, e'.retry = some r ∧ r.attempt.val = attempt ∧ r.maxAttempts.val = maxAttempts ∧
        r.lastError = some lastError :=
  ⟨_, withRetry_eq e lastError ha hm, rfl, _, rfl, rfl, rfl, rfl⟩

/-- **The wire round trip.** Every event that the worker holds is decoded from its encoding, alone and
as the body of a message, and so is every retry of it; a body that decodes is encoded to one that
decodes to the same event and is encoded to itself. -/
theorem wire_round_trip (H : Hashes) (cwd : String) (settings : Settings) :
    (∀ e, Held H cwd settings e → fromJsonBytes e.toJsonBytes = .ok e ∧
      (∀ expiration headers,
        fromJsonBytes (Publisher.message e expiration headers).body = .ok e) ∧
      ∀ (attempt maxAttempts : Int) (lastError : String), 1 ≤ attempt → 1 ≤ maxAttempts →
        ∃ e', e.withRetry attempt maxAttempts lastError = .ok e' ∧ { e' with retry := e.retry } = e ∧
          (∃ r, e'.retry = some r ∧ r.attempt.val = attempt ∧ r.maxAttempts.val = maxAttempts ∧
            r.lastError = some lastError) ∧
          fromJsonBytes e'.toJsonBytes = .ok e') ∧
    ∀ data e, fromJsonBytes data = .ok e → ∃ data', recode data = .ok data' ∧
      fromJsonBytes data' = .ok e ∧ recode data' = .ok data' := by
  constructor
  · intro e _
    refine ⟨fromJsonBytes_toJsonBytes e, Publisher.fromJsonBytes_message e, ?_⟩
    intro attempt maxAttempts lastError ha hm
    obtain ⟨e', hretry, hsame, hinfo⟩ := exists_withRetry e lastError ha hm
    exact ⟨e', hretry, hsame, hinfo, fromJsonBytes_toJsonBytes e'⟩
  · intro data e he
    exact ⟨_, recode_eq he, fromJsonBytes_toJsonBytes e, recode_toJsonBytes e⟩

end TransferEvent

end TransferWorker
