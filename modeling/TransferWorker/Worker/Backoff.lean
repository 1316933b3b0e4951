import TransferWorker.Worker.Keys
import TransferWorker.Worker.Negotiation
import TransferWorker.Worker.Verdicts
import TransferWorker.Worker.Wire

/-! # Backoff

The delays of the retries of one event. `backoff_delay_ms` grows exponentially with an attempt that only
`RETRY_MAX_ATTEMPTS` bounds, and the broker takes an expiration of at most 32 bits.

* **`Reschedules`** — `_handle` of a message calls `publish_retry`.
* **`Chain`** — one retry after another, with the attempts and the delays.
* **`backoff_in_range_iff`** — when all delays are within the broker's range. -/

namespace TransferWorker

open CallTrees

/-- The largest expiration that the broker accepts. -/
def maxExpiration : Int := 2 ^ 32 - 1

/-- **`_handle` reschedules an event**: in some run over the message it calls `publish_retry` with this
attempt and this delay. -/
def Reschedules (settings : Settings) (m m' : Message) (attempt : Nat) (delayMs : Int) : Prop :=
  ∃ tag tr r e x, (Consumer.handle settings tag m).Makes tr r ∧ ScheduledUploads settings tr ∧
    m' = Publisher.message e (some (toString delayMs)) none ∧
    ⟨.basicPublish settings.retryQueueName m', x⟩ ∈ tr ∧
    ∃ info, e.retry = some info ∧ info.attempt.val = attempt

/-- **A chain of retries**, each the attempt and the delay of a call: what was published comes back as a
message with the same body, and its retry is the next one. -/
inductive Chain (settings : Settings) : Message → List (Nat × Int) → Prop
  /-- No retry. -/
  | nil {m : Message} : Chain settings m []
  /-- One more. -/
  | cons {m m' m'' : Message} {attempt : Nat} {delayMs : Int} {retries : List (Nat × Int)} :
      Reschedules settings m m' attempt delayMs → m''.body = m'.body → Chain settings m'' retries →
        Chain settings m ((attempt, delayMs) :: retries)

/-- **The backoff stays in the broker's range**: in every chain the delay of an attempt is the power of
the base in seconds, the attempts and the delays grow, and the broker accepts the delays. -/
def BackoffInRange (settings : Settings) (base : Nat) : Prop :=
  ∀ m retries, Chain settings m retries →
    (∀ p ∈ retries, p.2 = base ^ p.1 * 1000 ∧ p.2 ≤ maxExpiration) ∧
      retries.Pairwise fun p q => p.1 < q.1 ∧ p.2 < q.2

variable {settings : Settings} {base : Nat} {m m' : Message} {event : TransferEvent}

/-! ## The delay -/

/-- With an integer as its base the delay is the power, unless that is out of the range of doubles. -/
theorem backoffDelayMs_nat (hbase : settings.retryBackoffBase = .finite base) (attempt : Nat) :
    backoffDelayMs settings attempt =
      if floatOverflow ≤ (base : ℚ) ^ attempt then .error (.overflow "Numerical result out of range")
      else if floatOverflow ≤ (base : ℚ) ^ attempt * 1000 then
        .error (.overflow "cannot convert float infinity to integer")
      else .ok (base ^ attempt * 1000) := by
  have hcast : (base : ℚ) ^ attempt * 1000 = ((base ^ attempt * 1000 : Nat) : ℚ) := by push_cast; rfl
  have hpower : |(base : ℚ) ^ attempt| = (base : ℚ) ^ attempt := abs_of_nonneg (by positivity)
  have hdelay : |(base : ℚ) ^ attempt * 1000| = (base : ℚ) ^ attempt * 1000 := abs_of_nonneg (by positivity)
  simp only [backoffDelayMs, hbase, hpower, hdelay]
  rw [hcast, Rat.num_natCast, Rat.den_natCast]
  simp

/-- The delay is the power of the base in milliseconds, unless it is too large for a float. -/
theorem backoffDelayMs_eq_ok (hbase : settings.retryBackoffBase = .finite base) {attempt : Nat}
    {delayMs : Int} : backoffDelayMs settings attempt = .ok delayMs ↔
      (base : ℚ) ^ attempt * 1000 < floatOverflow ∧ delayMs = base ^ attempt * 1000 := by
  rw [backoffDelayMs_nat hbase]
  have hle : (base : ℚ) ^ attempt ≤ (base : ℚ) ^ attempt * 1000 :=
    le_mul_of_one_le_right (by positivity) (by norm_num)
  by_cases hover : floatOverflow ≤ (base : ℚ) ^ attempt * 1000
  · have hnot : ¬(base : ℚ) ^ attempt * 1000 < floatOverflow := not_lt.2 hover
    rw [if_pos hover]
    split <;> simp [hnot]
  · rw [if_neg hover, if_neg (fun h => hover (h.trans hle))]
    simp [not_le.1 hover, eq_comm]

/-! ## What a rescheduling says -/

/-- Different numbers have different texts. -/
theorem toString_int_injective : Function.Injective (fun n : Int => toString n) := by
  intro a b h
  have hminus : ∀ j k : Nat, toString (Int.ofNat j) ≠ toString (Int.negSucc k) := by
    intro j k heq
    have hchars : Nat.toDigits 10 j = '-' :: Nat.toDigits 10 (k + 1) := by
      have hlist := congrArg String.toList heq
      have hneg : (toString (Int.negSucc k)).toList = '-' :: (Nat.repr (k + 1)).toList :=
        String.toList_append
      rw [hneg, Nat.toList_repr] at hlist
      rw [← hlist]
      exact Nat.toList_repr.symm
    have hdigit : '-'.isDigit = true :=
      Nat.isDigit_of_mem_toDigits (by decide) (by decide) (hchars ▸ List.mem_cons_self)
    exact absurd hdigit (by decide)
  cases a with
  | ofNat j =>
      cases b with
      | ofNat k => exact congrArg Int.ofNat (toString_nat_injective h)
      | negSucc k => exact absurd h (hminus j k)
  | negSucc j =>
      cases b with
      | ofNat k => exact absurd h.symm (hminus k j)
      | negSucc k =>
          have hdigits : toString (j + 1) = toString (k + 1) := (String.append_right_inj "-").1 h
          have hsame : j + 1 = k + 1 := toString_nat_injective hdigits
          rw [Nat.succ.inj hsame]

/-- A call that publishes nothing with an expiration. -/
def Plain (op : Op) : Prop := ∀ q m, op = .basicPublish q m → m.properties.expiration = none

/-- A call that does not publish is plain. -/
theorem plain_of_ne {op : Op} (h : ∀ q m, op ≠ .basicPublish q m) : Plain op :=
  fun q m hop => absurd hop (h q m)

/-- Dead letters have no expiration. -/
theorem plain_deadLetter (settings : Settings) (tag : Nat) (event : TransferEvent) (reason : String) :
    (Consumer.deadLetter settings tag event reason).Calls Plain := by
  refine Program.calls_bind (Program.calls_perform ?_) fun _ => Program.calls_perform (plain_of_ne nofun)
  intro q m hop
  cases hop
  rfl

/-- A raw dead letter has no time to live. -/
theorem plain_deadLetterRaw (settings : Settings) (tag : Nat) (m : Message) (reason : String) :
    (Consumer.deadLetterRaw settings m reason >>= fun _ => call (.basicAck tag) : Prog Unit).Calls Plain := by
  refine Program.calls_bind (Program.calls_perform ?_) fun _ => Program.calls_perform (plain_of_ne nofun)
  intro q m' hop
  cases hop
  rfl

variable {tag : Nat} {q : String} {x : Except Exn Unit} {tr : List (Answered calls Exn)}
  {r : Except Exn Unit}

/-- A program without expirations publishes no message with one. -/
theorem not_mem_of_plain {p : Prog Unit} (hp : p.Calls Plain) (h : p.Makes tr r)
    (hexp : m'.properties.expiration ≠ none) : ⟨.basicPublish q m', x⟩ ∉ tr := by
  intro hmem
  exact hexp (hp.of_makes h _ hmem q m' rfl)

/-- **The retry of a failed upload**: the event with the next attempt, and the delay of that attempt. -/
def IsRetryOf (settings : Settings) (event : TransferEvent) (m' : Message) : Prop :=
  ∃ e delayMs error, event.withRetry (Consumer.nextAttempt event) settings.retryMaxAttempts error = .ok e ∧
    Consumer.nextAttempt event ≤ settings.retryMaxAttempts ∧
    backoffDelayMs settings (Consumer.nextAttempt event).toNat = .ok delayMs ∧
    m' = Publisher.message e (some (toString delayMs)) none

/-- A message with a time to live is the retry of a failed upload. -/
theorem retry_of_handleFailure {failures : List UploadResult}
    (h : (Consumer.handleFailure settings tag event failures).Makes tr r)
    (hmem : ⟨.basicPublish q m', x⟩ ∈ tr) (hexp : m'.properties.expiration ≠ none) :
    IsRetryOf settings event m' := by
  simp only [Consumer.handleFailure] at h
  by_cases hlast : Consumer.nextAttempt event > settings.retryMaxAttempts
  · rw [if_pos hlast] at h
    have hplain := Program.calls_bind (Program.calls_ofExcept (event.withRetry
      (Consumer.nextAttempt event - 1) settings.retryMaxAttempts (Consumer.lastError failures)))
      fun e => plain_deadLetter settings tag e "max_retries_exceeded"
    exact absurd hmem (not_mem_of_plain hplain h hexp)
  · rw [if_neg hlast] at h
    cases hretry : event.withRetry (Consumer.nextAttempt event) settings.retryMaxAttempts
        (Consumer.lastError failures) with
    | error e =>
        rw [hretry] at h
        obtain ⟨rfl, -⟩ := Program.makes_raise.1 h
        cases hmem
    | ok e =>
        rw [hretry] at h
        cases hdelay : backoffDelayMs settings (Consumer.nextAttempt event).toNat with
        | error exn =>
            rw [hdelay] at h
            obtain ⟨rfl, -⟩ := Program.makes_raise.1 h
            cases hmem
        | ok delayMs =>
            rw [hdelay] at h
            refine ⟨e, delayMs, _, hretry, not_lt.1 hlast, hdelay, ?_⟩
            -- the publication is the first call, the acknowledgement the second one
            by_contra hne
            obtain ⟨_, tr', rfl, hack, hmem'⟩ := Program.makes_bind_of_mem h hmem (by
              intro hop
              cases hop
              exact hne rfl)
            have hplain : (call (.basicAck tag) : Prog Unit).Calls Plain :=
              Program.calls_perform (plain_of_ne (by simp))
            exact not_mem_of_plain hplain hack hexp hmem'

/-- So it is in `_handle` from the upload on, and the uploads were gathered before. -/
theorem retry_of_handleUpload (h : (Consumer.handleUpload settings tag event).Makes tr r)
    (hmem : ⟨.basicPublish q m', x⟩ ∈ tr) (hexp : m'.properties.expiration ≠ none) :
    IsRetryOf settings event m' ∧ ∃ outcomes, ⟨.uploadGather, .ok outcomes⟩ ∈ tr := by
  rw [Consumer.handleUpload, uploadAll] at h
  by_cases hn : settings.uploadMaxConcurrency < 0
  · rw [if_pos hn] at h
    obtain ⟨rfl, -⟩ := Program.makes_raise.1 h
    cases hmem
  · rw [if_neg hn, Program.bind_assoc] at h
    obtain ⟨_, tr₁, rfl, h₁, hmem₁⟩ := Program.makes_bind_of_mem h hmem (by simp)
    rw [Program.bind_assoc] at h₁
    obtain ⟨outcomes, tr₂, rfl, h₂, hmem₂⟩ := Program.makes_bind_of_mem h₁ hmem₁ (by simp)
    refine ⟨?_, outcomes, by simp⟩
    simp only [Program.pure_eq, Program.ret_bind] at h₂
    split at h₂
    · have hplain : (call (.markDone event.idempotencyKey event.correlationId) >>=
          fun _ => call (.basicAck tag) : Prog Unit).Calls Plain :=
        Program.calls_bind (Program.calls_perform (plain_of_ne (by simp)))
          fun _ => Program.calls_perform (plain_of_ne (by simp))
      exact absurd hmem₂ (not_mem_of_plain hplain h₂ hexp)
    · exact retry_of_handleFailure h₂ hmem₂ hexp

/-- **What `_handle` publishes with an expiration** is the retry of a failed upload; the file was within
the size limit, and `gather` has returned. -/
theorem retry_of_handle (h : (Consumer.handle settings tag m).Makes tr r)
    (hmem : ⟨.basicPublish q m', x⟩ ∈ tr) (hexp : m'.properties.expiration ≠ none) :
    ∃ event, TransferEvent.fromJsonBytes m.body = .ok event ∧ IsRetryOf settings event m' ∧
      0 ≤ settings.maxCsvFileSizeBytes ∧ ∃ outcomes, ⟨.uploadGather, .ok outcomes⟩ ∈ tr := by
  unfold Consumer.handle at h
  cases hok : TransferEvent.fromJsonBytes m.body with
  -- what is published without an expiration is no retry; each branch but one publishes such
  | error e =>
      rw [hok] at h
      exact absurd hmem (not_mem_of_plain (plain_deadLetterRaw settings tag m "invalid_payload") h hexp)
  | ok event =>
      rw [hok] at h
      dsimp only at h
      refine ⟨event, rfl, ?_⟩
      split at h
      · exact absurd hmem
          (not_mem_of_plain (plain_deadLetter settings tag event "unsupported_schema_version") h hexp)
      · obtain ⟨rfl, -⟩ := Program.makes_raise.1 h
        cases hmem
      · rw [Consumer.handleSupported] at h
        obtain ⟨isDone, tr₁, rfl, h₁, hmem₁⟩ := Program.makes_bind_of_mem h hmem (by simp)
        cases isDone with
        | true =>
            have hplain : (call (.basicAck tag) : Prog Unit).Calls Plain :=
              Program.calls_perform (plain_of_ne (by simp))
            exact absurd hmem₁ (not_mem_of_plain hplain h₁ hexp)
        | false =>
            simp only [Bool.false_eq_true, if_false, Consumer.handleSource] at h₁
            obtain ⟨isfile, tr₂, rfl, h₂, hmem₂⟩ := Program.makes_bind_of_mem h₁ hmem₁ (by simp)
            cases isfile with
            | false =>
                exact absurd hmem₂
                  (not_mem_of_plain (plain_deadLetter settings tag event "source_file_missing") h₂ hexp)
            | true =>
                simp only [Bool.not_true, Bool.false_eq_true, if_false, scanCsvFile,
                  Program.bind_assoc] at h₂
                obtain ⟨size, tr₃, rfl, h₃, hmem₃⟩ := Program.makes_bind_of_mem h₂ hmem₂ (by simp)
                have hscanned := plain_deadLetter settings tag event "csv_security_check_failed"
                by_cases hmax : settings.maxCsvFileSizeBytes < (size : Int)
                · rw [if_pos hmax] at h₃
                  exact absurd hmem₃ (not_mem_of_plain hscanned h₃ hexp)
                · rw [if_neg hmax, Program.bind_assoc] at h₃
                  obtain ⟨content, tr₄, rfl, h₄, hmem₄⟩ := Program.makes_bind_of_mem h₃ hmem₃ (by simp)
                  cases hscan : scanBytes content with
                  | error e =>
                      rw [hscan] at h₄
                      obtain ⟨rfl, -⟩ := Program.makes_raise.1 h₄
                      cases hmem₄
                  | ok issues =>
                      rw [hscan] at h₄
                      simp only [Program.ofExcept_ok, Program.ret_bind] at h₄
                      split at h₄
                      · exact absurd hmem₄ (not_mem_of_plain hscanned h₄ hexp)
                      · -- only after the uploads
                        obtain ⟨hretry, outcomes, houtcomes⟩ := retry_of_handleUpload h₄ hmem₄ hexp
                        exact ⟨hretry, by omega, outcomes, by simp [houtcomes]⟩

/-! ## Chains -/

/-- **What one retry says**: it is the next attempt of the event, its delay is the power, and the event it
publishes carries the attempt. -/
structure Retried (settings : Settings) (base : Nat) (event e : TransferEvent) (attempt : Nat)
    (delayMs : Int) : Prop where
  /-- The attempt is the next one. -/
  attempt_eq : (attempt : Int) = Consumer.nextAttempt event
  /-- It is not the last but one. -/
  attempt_le : (attempt : Int) ≤ settings.retryMaxAttempts
  /-- The published event carries it. -/
  next_eq : Consumer.nextAttempt e = attempt + 1
  /-- The delay. -/
  delay_eq : delayMs = base ^ attempt * 1000
  /-- It is within the range of doubles. -/
  delay_lt : (base : ℚ) ^ attempt * 1000 < floatOverflow
  /-- The size limit lets some file pass. -/
  size_le : 0 ≤ settings.maxCsvFileSizeBytes
  /-- There is a permit. -/
  permit : 1 ≤ settings.uploadMaxConcurrency

/-- A message that was rescheduled is the retry of the event. -/
theorem Reschedules.retried {attempt : Nat} {delayMs : Int}
    (hbase : settings.retryBackoffBase = .finite base) (h : Reschedules settings m m' attempt delayMs) :
    ∃ event e, TransferEvent.fromJsonBytes m.body = .ok event ∧
      TransferEvent.fromJsonBytes m'.body = .ok e ∧ Retried settings base event e attempt delayMs := by
  obtain ⟨tag, tr, r, e, x, hmakes, hscheduled, rfl, hmem, info, hinfo, hattempt⟩ := h
  obtain ⟨event, hok, ⟨e', delayMs', error, hretry, hlast, hdelay, hmessage⟩, hsize, outcomes, hgather⟩ :=
    retry_of_handle hmakes hmem nofun
  obtain ⟨event', path, -, hgathers⟩ := hscheduled outcomes hgather
  -- the message determines the event and the delay
  have he : e = e' := TransferEvent.toJsonBytes_injective (congrArg Message.body hmessage)
  have hexpiration : some (toString delayMs) = some (toString delayMs') :=
    congrArg (fun m : Message => m.properties.expiration) hmessage
  have hdelays : delayMs = delayMs' := toString_int_injective (Option.some.inj hexpiration)
  subst he hdelays
  obtain ⟨hpos, hmax, rfl⟩ := TransferEvent.withRetry_ok hretry
  obtain rfl := Option.some.inj hinfo
  have hnext : (attempt : Int) = Consumer.nextAttempt event := hattempt.symm
  have hnat : (Consumer.nextAttempt event).toNat = attempt := by omega
  rw [hnat] at hdelay
  obtain ⟨hrange, hpower⟩ := (backoffDelayMs_eq_ok hbase).1 hdelay
  refine ⟨event, _, hok, Publisher.fromJsonBytes_message _ _ _, ?_⟩
  exact ⟨hnext, by omega, congrArg (· + 1) hattempt, hpower, hrange, hsize,
    (Uploads.gathers_iff.1 hgathers).1⟩

/-- The attempts of a chain come after those the event has behind it. -/
theorem Chain.next_le {retries : List (Nat × Int)} (hbase : settings.retryBackoffBase = .finite base)
    (h : Chain settings m retries) (hok : TransferEvent.fromJsonBytes m.body = .ok event) :
    ∀ p ∈ retries, Consumer.nextAttempt event ≤ p.1 := by
  induction h generalizing event with
  | nil => simp
  | cons hfirst hbody hrest ih =>
      obtain ⟨event', e, hok', he, hretried⟩ := hfirst.retried hbase
      obtain rfl : event = event' := Except.ok.inj (hok.symm.trans hok')
      rw [← hbody] at he
      have hnext := hretried.next_eq
      have hattempt := hretried.attempt_eq
      intro p hp
      rcases List.mem_cons.1 hp with rfl | hp
      · exact hattempt.ge
      · have hlater := ih he p hp
        omega

/-- **Every retry of a chain** is one of some event, and the attempts and the delays grow. -/
theorem Chain.retried {retries : List (Nat × Int)} (hbase : settings.retryBackoffBase = .finite base)
    (hb : 2 ≤ base) (h : Chain settings m retries) :
    (∀ p ∈ retries, ∃ event e, Retried settings base event e p.1 p.2) ∧
      retries.Pairwise fun p q => p.1 < q.1 ∧ p.2 < q.2 := by
  induction h with
  | nil => simp
  | @cons m m' m'' attempt delayMs retries hfirst hbody hrest ih =>
      obtain ⟨event, e, -, he, hretried⟩ := hfirst.retried hbase
      rw [← hbody] at he
      refine ⟨?_, List.pairwise_cons.2 ⟨?_, ih.2⟩⟩
      · intro p hp
        rcases List.mem_cons.1 hp with rfl | hp
        · exact ⟨event, e, hretried⟩
        · exact ih.1 p hp
      · intro p hp
        have hlater := hrest.next_le hbase he p hp
        have hnext := hretried.next_eq
        obtain ⟨event', e', hretried'⟩ := ih.1 p hp
        refine ⟨by omega, ?_⟩
        rw [hretried'.delay_eq, show (attempt, delayMs).2 = _ from hretried.delay_eq]
        have hpower : base ^ attempt < base ^ p.1 := Nat.pow_lt_pow_right (by omega) (by omega)
        exact_mod_cast Nat.mul_lt_mul_of_pos_right hpower (by omega : 0 < 1000)

/-- Every retry that the settings allow happens in some run. -/
theorem exists_reschedules {attempt : Nat} (hbase : settings.retryBackoffBase = .finite base)
    (hok : TransferEvent.fromJsonBytes m.body = .ok event) (hsupported : event.assertSupported = .ok ())
    (hsize : 0 ≤ settings.maxCsvFileSizeBytes) (hn : 1 ≤ settings.uploadMaxConcurrency)
    (hattempt : (attempt : Int) = Consumer.nextAttempt event)
    (hlast : (attempt : Int) ≤ settings.retryMaxAttempts)
    (hrange : (base : ℚ) ^ attempt * 1000 < floatOverflow) :
    ∃ m' e, Reschedules settings m m' attempt (base ^ attempt * 1000) ∧
      TransferEvent.fromJsonBytes m'.body = .ok e ∧ e.assertSupported = .ok () ∧
      Consumer.nextAttempt e = attempt + 1 := by
  have hpos := nextAttempt_pos event
  have hdelay : backoffDelayMs settings (Consumer.nextAttempt event).toNat = .ok (base ^ attempt * 1000) := by
    rw [← hattempt, Int.toNat_natCast]
    exact (backoffDelayMs_eq_ok hbase).2 ⟨hrange, rfl⟩
  let info : RetryInfo := ⟨⟨Consumer.nextAttempt event, hpos⟩, ⟨settings.retryMaxAttempts, by omega⟩,
    some (Consumer.lastError (timeouts event))⟩
  let e : TransferEvent := { event with retry := some info }
  let m' := Publisher.message e (some (toString ((base : Int) ^ attempt * 1000))) none
  have hmakes : (Consumer.handleFailure settings 0 event (timeouts event)).Makes
      [⟨.basicPublish settings.retryQueueName m', .ok ()⟩, ⟨.basicAck 0, .ok ()⟩] (.ok ()) := by
    simp only [Consumer.handleFailure]
    rw [if_neg (by omega), TransferEvent.withRetry_eq event _ hpos (by omega), hdelay]
    exact makes_publish_ack_ok _ _
  have hrun := makes_failedUpload hok hsupported hsize (by omega) hmakes
  refine ⟨m', e, ⟨0, _, _, e, .ok (), hrun, ?_, rfl, by simp, info, rfl, hattempt.symm⟩,
    Publisher.fromJsonBytes_message _ _ _, hsupported, congrArg (· + 1) hattempt.symm⟩
  exact scheduledUploads_failedUpload event hn (by simp)

/-- **Every chain that the settings allow** happens: so many retries of a supported event. -/
theorem exists_chain (hbase : settings.retryBackoffBase = .finite base)
    (hsize : 0 ≤ settings.maxCsvFileSizeBytes) (hn : 1 ≤ settings.uploadMaxConcurrency)
    {start count : Nat} (hlast : (start + count : Int) ≤ settings.retryMaxAttempts + 1)
    (hrange : ∀ k < start + count, (base : ℚ) ^ k * 1000 < floatOverflow)
    (hok : TransferEvent.fromJsonBytes m.body = .ok event) (hsupported : event.assertSupported = .ok ())
    (hstart : (start : Int) = Consumer.nextAttempt event) :
    Chain settings m ((List.range' start count).map fun k => (k, (base : Int) ^ k * 1000)) := by
  induction count generalizing m event start with
  | zero => exact .nil
  | succ count ih =>
      obtain ⟨m', e, hfirst, he, hsupported', hnext⟩ := exists_reschedules hbase hok hsupported hsize hn
        hstart (by omega) (hrange start (by omega))
      rw [List.range'_succ, List.map_cons]
      refine .cons hfirst rfl (ih (by push_cast at hlast ⊢; omega) ?_ he hsupported' (by omega))
      intro k hk
      exact hrange k (by omega)

/-! ## The range -/

/-- A power that the broker does not accept has a first one, still in the range of doubles if the base
is. -/
theorem exists_first_exceeding {n : Nat} (hb : 2 ≤ base) (hn : ¬(base : Int) ^ n * 1000 ≤ maxExpiration)
    (hrange : (base : ℚ) * 1000 < floatOverflow) :
    ∃ k, 1 ≤ k ∧ k ≤ n ∧ ¬(base : Int) ^ k * 1000 ≤ maxExpiration ∧
      ∀ j ≤ k, (base : ℚ) ^ j * 1000 < floatOverflow := by
  classical
  have hex : ∃ k, ¬(base : Int) ^ k * 1000 ≤ maxExpiration := ⟨n, hn⟩
  have hfirst := Nat.find_spec hex
  have hbefore : ∀ j < Nat.find hex, (base : Int) ^ j * 1000 ≤ maxExpiration :=
    fun j hj => not_not.1 (Nat.find_min hex hj)
  have hle : Nat.find hex ≤ n := Nat.find_min' hex hn
  generalize Nat.find hex = k at hfirst hbefore hle
  have hpos : 1 ≤ k := by
    by_contra hzero
    obtain rfl : k = 0 := by omega
    exact hfirst (by norm_num [maxExpiration])
  refine ⟨k, hpos, hle, hfirst, ?_⟩
  intro j hj
  obtain ⟨i, rfl⟩ : ∃ i, k = i + 1 := ⟨k - 1, by omega⟩
  have hlast := hbefore i (by omega)
  -- a power that the broker accepts, times the base
  have hpower : (base : ℚ) ^ i * 1000 ≤ 2 ^ 32 := by
    have hint : (base : Int) ^ i * 1000 ≤ 2 ^ 32 := hlast.trans (by norm_num [maxExpiration])
    exact_mod_cast hint
  have hone : (1 : ℚ) ≤ base := by exact_mod_cast (by omega : 1 ≤ base)
  have hnext : (base : ℚ) ^ (i + 1) * 1000 < floatOverflow := by
    cases i with
    | zero => simpa using hrange
    | succ i =>
        have hself : (base : ℚ) ≤ base ^ (i + 1) := le_self_pow₀ hone (by omega)
        have hbase : (base : ℚ) ≤ 2 ^ 32 := by
          have hthousand : (base : ℚ) ^ (i + 1) ≤ base ^ (i + 1) * 1000 :=
            le_mul_of_one_le_right (by positivity) (by norm_num)
          exact hself.trans (hthousand.trans hpower)
        refine lt_floatOverflow ?_
        calc (base : ℚ) ^ (i + 1 + 1) * 1000 = base * (base ^ (i + 1) * 1000) := by ring
          _ ≤ 2 ^ 32 * 2 ^ 32 := mul_le_mul hbase hpower (by positivity) (by positivity)
          _ = 2 ^ 64 := by norm_num
          _ ≤ 2 ^ 970 := pow_le_pow_right₀ one_le_two (by norm_num)
  have hmono : (base : ℚ) ^ j ≤ base ^ (i + 1) := pow_le_pow_right₀ hone hj
  linarith

/-- **When the backoff stays in the broker's range**: when the delay of the last attempt does; or no retry
is ever published, since the first delay is out of the range of doubles, no file passes the scan or no
upload gets a permit. -/
theorem backoff_in_range_iff (settings : Settings) (base : Nat)
    (hbase : settings.retryBackoffBase = .finite base) (hb : 2 ≤ base)
    (hN : 1 ≤ settings.retryMaxAttempts) :
    BackoffInRange settings base ↔
      (base : Int) ^ settings.retryMaxAttempts.toNat * 1000 ≤ maxExpiration ∨
        floatOverflow ≤ (base : ℚ) * 1000 ∨ settings.maxCsvFileSizeBytes < 0 ∨
        settings.uploadMaxConcurrency < 1 := by
  constructor
  · intro h
    by_contra hcond
    simp only [not_or, not_le, not_lt] at hcond
    obtain ⟨hlimit, hrange, hsize, hn⟩ := hcond
    obtain ⟨k, hpos, hk, hexceeds, hpowers⟩ := exists_first_exceeding hb (not_le.2 hlimit) hrange
    -- the retries of a new event up to that attempt
    have hchain : Chain settings (Publisher.message .sample none none)
        ((List.range' 1 k).map fun j => (j, (base : Int) ^ j * 1000)) :=
      exists_chain hbase hsize hn (by omega) (fun j hj => hpowers j (by omega))
        (Publisher.fromJsonBytes_message _ _ _) TransferEvent.sample_supported rfl
    have hmem : (k, (base : Int) ^ k * 1000) ∈
        (List.range' 1 k).map fun j => (j, (base : Int) ^ j * 1000) :=
      List.mem_map.2 ⟨k, List.mem_range'_1.2 ⟨hpos, by omega⟩, rfl⟩
    exact hexceeds ((h _ _ hchain).1 _ hmem).2
  · intro hcond m retries hchain
    obtain ⟨hretried, hgrow⟩ := hchain.retried hbase hb
    refine ⟨?_, hgrow⟩
    intro p hp
    obtain ⟨event, e, hp⟩ := hretried p hp
    refine ⟨hp.delay_eq, ?_⟩
    have hpos := nextAttempt_pos event
    have hattempt := hp.attempt_eq
    obtain hlimit | hrange | hsize | hn := hcond
    · have hlast := hp.attempt_le
      have hpower : base ^ p.1 ≤ base ^ settings.retryMaxAttempts.toNat :=
        Nat.pow_le_pow_right (by omega) (by omega)
      rw [hp.delay_eq]
      refine le_trans ?_ hlimit
      exact_mod_cast Nat.mul_le_mul_right 1000 hpower
    · -- the first delay is out of range, and this one is not smaller
      have hone : (1 : ℚ) ≤ base := by exact_mod_cast (by omega : 1 ≤ base)
      have hself : (base : ℚ) ≤ base ^ p.1 := le_self_pow₀ hone (by omega)
      have hlt := hp.delay_lt
      linarith
    · exact absurd hp.size_le (not_le.2 hsize)
    · exact absurd hp.permit (not_le.2 hn)

/-- The default settings stay in range. -/
theorem backoff_in_range_default : BackoffInRange {} 2 :=
  (backoff_in_range_iff {} 2 rfl (by decide) (by decide)).2 (.inl (by decide))

/-- **`RETRY_MAX_ATTEMPTS=23`**: the last retry of a new event has a delay that the broker does not
accept. -/
theorem backoff_exceeds_range : ¬BackoffInRange { retryMaxAttempts := 23 } 2 := by
  intro h
  have hchain : Chain { retryMaxAttempts := 23 } (Publisher.message .sample none none)
      ((List.range' 1 23).map fun j => (j, ((2 : Nat) : Int) ^ j * 1000)) := by
    refine exists_chain rfl (by decide) (by decide) (by decide) ?_
      (Publisher.fromJsonBytes_message _ _ _) TransferEvent.sample_supported rfl
    intro k hk
    refine lt_floatOverflow ?_
    have hpower : ((2 : Nat) : ℚ) ^ k ≤ 2 ^ 23 := pow_le_pow_right₀ (by norm_num) (by omega)
    calc ((2 : Nat) : ℚ) ^ k * 1000 ≤ 2 ^ 23 * 2 ^ 10 :=
          mul_le_mul hpower (by norm_num) (by norm_num) (by positivity)
      _ = 2 ^ 33 := by norm_num
      _ ≤ 2 ^ 970 := pow_le_pow_right₀ one_le_two (by norm_num)
  have hlast := ((h _ _ hchain).1 (23, 8388608000) (by decide)).2
  exact absurd hlast (by decide)

end TransferWorker
