import TransferWorker.Worker.Consumer
import TransferWorker.Worker.Scheduling

/-! # Verdicts

Every delivery should end in a verdict: a publication to the dead-letter or the retry queue, a new entry
of the store or an old one, and then the acknowledgement. An exception instead leaves the delivery
unacknowledged, and the next one of the same message raises it again.

* **`Concluded`** — the calls end with a verdict and the acknowledgement.
* **`Raises`** — how `_handle` can raise though all its calls return; `handle_cases` says there is no
  other way.
* **`getsVerdict_iff`** — which messages get a verdict. -/

namespace TransferWorker

open CallTrees

/-! ## Ends of a delivery -/

/-- **A verdict**: what must happen once before the acknowledgement. -/
inductive IsVerdict (settings : Settings) : Answered calls Exn → Prop
  /-- A publication to the dead-letter queue. -/
  | deadLettered (m : Message) : IsVerdict settings ⟨.basicPublish settings.dlqName m, .ok ()⟩
  /-- A publication to the retry queue. -/
  | retried (m : Message) : IsVerdict settings ⟨.basicPublish settings.retryQueueName m, .ok ()⟩
  /-- A new entry of the store. -/
  | done (key correlationId : String) : IsVerdict settings ⟨.markDone key correlationId, .ok ()⟩
  /-- An old entry of the store. -/
  | duplicate (key : String) : IsVerdict settings ⟨.isDone key, .ok true⟩

/-- A call that is no verdict and tells the broker nothing. -/
structure Silent (settings : Settings) (c : Answered calls Exn) : Prop where
  /-- It is no verdict. -/
  verdict : ¬IsVerdict settings c
  /-- It publishes nothing. -/
  publish : ∀ q m, c.op ≠ .basicPublish q m
  /-- It acknowledges nothing. -/
  ack : ∀ tag, c.op ≠ .basicAck tag

/-- **The calls of a delivery end in one verdict and the acknowledgement.** -/
def Concluded (settings : Settings) (tag : Nat) (tr : List (Answered calls Exn)) : Prop :=
  ∃ silent c, tr = silent ++ [c, ⟨.basicAck tag, .ok ()⟩] ∧ IsVerdict settings c ∧
    ∀ c' ∈ silent, Silent settings c'

/-- All calls return. -/
def AllReturn (tr : List (Answered calls Exn)) : Prop := ∀ c ∈ tr, ∃ x, c.answer = .ok x

variable {settings : Settings} {tag : Nat} {m : Message} {event : TransferEvent}
  {tr : List (Answered calls Exn)}

/-- A silent call before. -/
theorem Concluded.cons {c : Answered calls Exn} (hc : Silent settings c) (h : Concluded settings tag tr) :
    Concluded settings tag (c :: tr) := by
  obtain ⟨silent, v, rfl, hv, hsilent⟩ := h
  refine ⟨c :: silent, v, rfl, hv, ?_⟩
  intro c' hc'
  rcases List.mem_cons.1 hc' with rfl | hc'
  · exact hc
  · exact hsilent c' hc'

/-- A verdict and its acknowledgement. -/
theorem concluded_pair {c : Answered calls Exn} (hc : IsVerdict settings c) :
    Concluded settings tag [c, ⟨.basicAck tag, .ok ()⟩] :=
  ⟨[], c, rfl, hc, by simp⟩

/-- The calls to the file system and to the uploads are silent. -/
theorem silent_of_op {c : Answered calls Exn} (hpublish : ∀ q m, c.op ≠ .basicPublish q m)
    (hack : ∀ tag, c.op ≠ .basicAck tag) (hdone : ∀ key id, c.op ≠ .markDone key id)
    (hstore : ∀ key, c ≠ ⟨.isDone key, .ok true⟩) : Silent settings c where
  verdict := by
    rintro (m | m | ⟨key, id⟩ | key)
    · exact hpublish _ m rfl
    · exact hpublish _ m rfl
    · exact hdone key id rfl
    · exact hstore key rfl
  publish := hpublish
  ack := hack

/-- Where all calls return, so does the first one. -/
theorem makes_first {α : Type} {op : Op} {f : Res op → Prog α} {r : Except Exn α}
    (h : (call op >>= f : Prog α).Makes tr r) (hall : AllReturn tr) :
    ∃ x tr', tr = ⟨op, .ok x⟩ :: tr' ∧ (f x).Makes tr' r ∧ AllReturn tr' := by
  rcases Program.makes_perform_bind h with ⟨x, tr', rfl, hrest⟩ | ⟨e, rfl, -⟩
  · exact ⟨x, tr', rfl, hrest, fun c hc => hall c (List.mem_cons_of_mem _ hc)⟩
  · obtain ⟨x, hx⟩ := hall ⟨op, .error e⟩ List.mem_cons_self
    cases hx

/-- A single call that returns. -/
theorem makes_only {op : Op} {r : Except Exn (Res op)} (h : (call op : Prog (Res op)).Makes tr r)
    (hall : AllReturn tr) : ∃ x, r = .ok x ∧ tr = [⟨op, .ok x⟩] := by
  rw [← Program.bind_ret (call op)] at h
  obtain ⟨x, tr', rfl, hend, -⟩ := makes_first h hall
  obtain ⟨rfl, rfl⟩ := Program.makes_ret.1 hend
  exact ⟨x, rfl, rfl⟩

/-- A verdict, then the acknowledgement. -/
theorem makes_verdict {op : Op} {r : Except Exn Unit} (hv : ∀ x, IsVerdict settings ⟨op, .ok x⟩)
    (h : (call op >>= fun _ => call (.basicAck tag) : Prog Unit).Makes tr r) (hall : AllReturn tr) :
    r = .ok () ∧ Concluded settings tag tr := by
  obtain ⟨x, tr', rfl, hrest, hall'⟩ := makes_first h hall
  obtain ⟨u, rfl, rfl⟩ := makes_only hrest hall'
  exact ⟨rfl, concluded_pair (hv x)⟩

/-! ## The stages of `_handle` -/

/-- The next attempt is at least the first. -/
theorem nextAttempt_pos (event : TransferEvent) : 1 ≤ Consumer.nextAttempt event := by
  unfold Consumer.nextAttempt
  cases event.retry with
  | none => exact Int.le_refl 1
  | some retry =>
      have hattempt : 1 ≤ retry.attempt.val := retry.attempt.property
      show 1 ≤ retry.attempt.val + 1
      omega

/-- Without a positive `RETRY_MAX_ATTEMPTS` there is no retry info. -/
theorem withRetry_error (event : TransferEvent) (attempt : Int) (error : String)
    (h : settings.retryMaxAttempts < 1) :
    ∃ e, event.withRetry attempt settings.retryMaxAttempts error = .error e := by
  cases hretry : event.withRetry attempt settings.retryMaxAttempts error with
  | error e => exact ⟨e, rfl⟩
  | ok e' =>
      obtain ⟨-, hm, -⟩ := TransferEvent.withRetry_ok hretry
      omega

/-- A new attempt number is never too large. -/
theorem withRetry_ne_overflow {attempt maxAttempts : Int} {error text : String} :
    event.withRetry attempt maxAttempts error ≠ .error (.overflow text) := by
  unfold TransferEvent.withRetry
  split <;> simp

/-- A dead letter concludes the delivery. -/
theorem makes_deadLetter {reason : String} {r : Except Exn Unit}
    (h : (Consumer.deadLetter settings tag event reason).Makes tr r) (hall : AllReturn tr) :
    r = .ok () ∧ Concluded settings tag tr :=
  makes_verdict (fun _ => .deadLettered _) h hall

/-- Nothing becomes of a failed upload: `RetryInfo` refuses the maximum, or the delay of the retry cannot
be computed. -/
def RefusesFailure (settings : Settings) (event : TransferEvent) (e : Exn) : Prop :=
  settings.retryMaxAttempts < 1 ∨ Consumer.nextAttempt event ≤ settings.retryMaxAttempts ∧
    backoffDelayMs settings (Consumer.nextAttempt event).toNat = .error e

/-- **After a failed upload**: a verdict, or an exception. -/
theorem makes_handleFailure {failures : List UploadResult} {r : Except Exn Unit}
    (h : (Consumer.handleFailure settings tag event failures).Makes tr r) (hall : AllReturn tr) :
    (r = .ok () ∧ Concluded settings tag tr) ∨ ∃ e, r = .error e ∧ RefusesFailure settings event e := by
  have hpos := nextAttempt_pos event
  simp only [Consumer.handleFailure] at h
  by_cases hmax : settings.retryMaxAttempts < 1
  · -- both branches call `with_retry` with this maximum
    rw [if_pos (by omega)] at h
    obtain ⟨e, he⟩ := withRetry_error event (Consumer.nextAttempt event - 1)
      (Consumer.lastError failures) hmax
    rw [he] at h
    obtain ⟨-, rfl⟩ := Program.makes_raise.1 h
    exact .inr ⟨e, rfl, .inl hmax⟩
  · by_cases hlast : Consumer.nextAttempt event > settings.retryMaxAttempts
    · rw [if_pos hlast, TransferEvent.withRetry_eq event _ (by omega) (by omega)] at h
      exact .inl (makes_deadLetter h hall)
    · rw [if_neg hlast, TransferEvent.withRetry_eq event _ hpos (by omega)] at h
      cases hdelay : backoffDelayMs settings (Consumer.nextAttempt event).toNat with
      | error e =>
          rw [hdelay] at h
          obtain ⟨-, rfl⟩ := Program.makes_raise.1 h
          exact .inr ⟨e, rfl, .inr ⟨by omega, hdelay⟩⟩
      | ok delayMs =>
          rw [hdelay] at h
          exact .inl (makes_verdict (fun _ => .retried _) h hall)

/-- **The upload**: a verdict, or `upload_all` raises, or nothing becomes of its failure. -/
theorem makes_handleUpload {r : Except Exn Unit} (h : (Consumer.handleUpload settings tag event).Makes tr r)
    (hall : AllReturn tr) : (r = .ok () ∧ Concluded settings tag tr) ∨ ∃ e, r = .error e ∧
      ((∀ outcomes, ⟨.uploadGather, .ok outcomes⟩ ∉ tr) ∨
        (∃ outcomes, ⟨.uploadGather, .ok outcomes⟩ ∈ tr) ∧ RefusesFailure settings event e) := by
  rw [Consumer.handleUpload, uploadAll] at h
  by_cases hn : settings.uploadMaxConcurrency < 0
  · rw [if_pos hn] at h
    obtain ⟨rfl, rfl⟩ := Program.makes_raise.1 h
    exact .inr ⟨_, rfl, .inl fun outcomes => List.not_mem_nil⟩
  · rw [if_neg hn, Program.bind_assoc] at h
    obtain ⟨_, tr₁, rfl, h₁, hall₁⟩ := makes_first h hall
    rw [Program.bind_assoc] at h₁
    obtain ⟨outcomes, tr₂, rfl, h₂, hall₂⟩ := makes_first h₁ hall₁
    have hstart : Silent settings ⟨.uploadStart event (fsencode event.source.path), .ok ()⟩ :=
      silent_of_op (by simp) (by simp) (by simp) (by simp)
    have hgather : Silent settings ⟨.uploadGather, .ok outcomes⟩ :=
      silent_of_op (by simp) (by simp) (by simp) (by simp)
    have hend : (r = .ok () ∧ Concluded settings tag tr₂) ∨
        ∃ e, r = .error e ∧ RefusesFailure settings event e := by
      simp only [Program.pure_eq, Program.ret_bind] at h₂
      split at h₂
      · exact .inl (makes_verdict (fun _ => .done _ _) h₂ hall₂)
      · exact makes_handleFailure h₂ hall₂
    rcases hend with ⟨hr, hconcluded⟩ | ⟨e, hr, hrefuses⟩
    · exact .inl ⟨hr, .cons hstart (.cons hgather hconcluded)⟩
    · exact .inr ⟨e, hr, .inr ⟨⟨outcomes, by simp⟩, hrefuses⟩⟩

/-- **How `_handle` raises though all its calls return.** -/
inductive Raises (settings : Settings) (m : Message) (tr : List (Answered calls Exn)) (e : Exn) : Prop
  /-- `int` refuses the digits of the major version. -/
  | version (event : TransferEvent) (hok : TransferEvent.fromJsonBytes m.body = .ok event)
      (hdigits : 4300 < event.majorDigits.length)
  /-- The reader of the scan raises. -/
  | scan (path : Path) (content : ByteArray) (hread : ⟨.readFile path, .ok content⟩ ∈ tr)
      (hscan : scanBytes content = .error e)
  /-- `upload_all` raises. -/
  | upload (path : Path) (content : ByteArray) (hread : ⟨.readFile path, .ok content⟩ ∈ tr)
      (hscan : scanBytes content = .ok []) (hgather : ∀ outcomes, ⟨.uploadGather, .ok outcomes⟩ ∉ tr)
  /-- Nothing becomes of a failed upload. -/
  | failure (event : TransferEvent) (path : Path) (size : Nat) (outcomes : List Outcome)
      (hok : TransferEvent.fromJsonBytes m.body = .ok event) (hsupported : event.assertSupported = .ok ())
      (hsize : ⟨.getsize path, .ok size⟩ ∈ tr) (hmax : (size : Int) ≤ settings.maxCsvFileSizeBytes)
      (hgather : ⟨.uploadGather, .ok outcomes⟩ ∈ tr) (hrefuses : RefusesFailure settings event e)

/-- What raises later also raises with a call before. -/
theorem Raises.cons {c : Answered calls Exn} {e : Exn} (h : Raises settings m tr e)
    (hc : ∀ outcomes, c ≠ ⟨.uploadGather, .ok outcomes⟩) : Raises settings m (c :: tr) e := by
  cases h with
  | version event hok hdigits => exact .version event hok hdigits
  | scan path content hread hscan => exact .scan path content (List.mem_cons_of_mem _ hread) hscan
  | upload path content hread hscan hgather =>
      refine .upload path content (List.mem_cons_of_mem _ hread) hscan ?_
      intro outcomes hmem
      rcases List.mem_cons.1 hmem with heq | hmem
      · exact hc outcomes heq.symm
      · exact hgather outcomes hmem
  | failure event path size outcomes hok hsupported hsize hmax hgather hrefuses =>
      exact .failure event path size outcomes hok hsupported (List.mem_cons_of_mem _ hsize) hmax
        (List.mem_cons_of_mem _ hgather) hrefuses

/-- **The source file and the scan.** -/
theorem makes_handleSource {r : Except Exn Unit} (hok : TransferEvent.fromJsonBytes m.body = .ok event)
    (hsupported : event.assertSupported = .ok ())
    (h : (Consumer.handleSource settings tag event).Makes tr r) (hall : AllReturn tr) :
    (r = .ok () ∧ Concluded settings tag tr) ∨ ∃ e, r = .error e ∧ Raises settings m tr e := by
  rw [Consumer.handleSource] at h
  generalize hpath : fsencode event.source.path = path at h
  obtain ⟨isfile, tr₁, rfl, h₁, hall₁⟩ := makes_first h hall
  have hsilent : Silent settings ⟨.isfile path, .ok isfile⟩ := silent_of_op nofun nofun nofun nofun
  cases isfile with
  -- the source file is missing
  | false =>
      obtain ⟨hr, hconcluded⟩ := makes_deadLetter h₁ hall₁
      exact .inl ⟨hr, .cons hsilent hconcluded⟩
  | true =>
      simp only [Bool.not_true, Bool.false_eq_true, if_false, scanCsvFile, Program.bind_assoc] at h₁
      obtain ⟨size, tr₂, rfl, h₂, hall₂⟩ := makes_first h₁ hall₁
      have hsilent₂ : Silent settings ⟨.getsize path, .ok size⟩ := silent_of_op nofun nofun nofun nofun
      by_cases hmax : settings.maxCsvFileSizeBytes < (size : Int)
      · -- too large: there is an issue
        rw [if_pos hmax] at h₂
        obtain ⟨hr, hconcluded⟩ := makes_deadLetter h₂ hall₂
        exact .inl ⟨hr, .cons hsilent (.cons hsilent₂ hconcluded)⟩
      · rw [if_neg hmax, Program.bind_assoc] at h₂
        obtain ⟨content, tr₃, rfl, h₃, hall₃⟩ := makes_first h₂ hall₂
        have hsilent₃ : Silent settings ⟨.readFile path, .ok content⟩ :=
          silent_of_op nofun nofun nofun nofun
        cases hscan : scanBytes content with
        | error e =>
            rw [hscan] at h₃
            obtain ⟨rfl, rfl⟩ := Program.makes_raise.1 h₃
            -- the reader raised, and nothing catches it
            exact .inr ⟨e, rfl, .scan path content (by simp) hscan⟩
        | ok issues =>
            rw [hscan] at h₃
            simp only [Program.ofExcept_ok, Program.ret_bind] at h₃
            by_cases hissues : issues = []
            · subst hissues
              rw [if_neg (by simp)] at h₃
              rcases makes_handleUpload h₃ hall₃ with ⟨hr, hconcluded⟩ | ⟨e, hr, hgather | ⟨⟨outcomes, ho⟩, he⟩⟩
              · exact .inl ⟨hr, .cons hsilent (.cons hsilent₂ (.cons hsilent₃ hconcluded))⟩
              · refine .inr ⟨e, hr, .upload path content (by simp) hscan ?_⟩
                intro outcomes hmem
                simp only [List.mem_cons, reduceCtorEq, Answered.mk.injEq, false_and, false_or] at hmem
                exact hgather outcomes hmem
              · exact .inr ⟨e, hr, .failure event path size outcomes hok hsupported (by simp)
                  (not_lt.1 hmax) (by simp [ho]) he⟩
            · rw [if_pos hissues] at h₃
              -- there are issues
              obtain ⟨hr, hconcluded⟩ := makes_deadLetter h₃ hall₃
              exact .inl ⟨hr, .cons hsilent (.cons hsilent₂ (.cons hsilent₃ hconcluded))⟩

/-- **All ways a delivery can end** when its calls return: a verdict and the acknowledgement, or one of
the exceptions. -/
theorem handle_cases {r : Except Exn Unit} (h : (Consumer.handle settings tag m).Makes tr r)
    (hall : AllReturn tr) :
    (r = .ok () ∧ Concluded settings tag tr) ∨ ∃ e, r = .error e ∧ Raises settings m tr e := by
  unfold Consumer.handle at h
  cases hok : TransferEvent.fromJsonBytes m.body with
  | error e =>
      rw [hok] at h
      -- the body is refused
      exact .inl (makes_verdict (fun _ => .deadLettered _) h hall)
  | ok event =>
      rw [hok] at h
      by_cases hdigits : 4300 < event.majorDigits.length
      · -- `int` raises
        have hraises : event.assertSupported =
            .error (.value "Exceeds the limit (4300 digits) for integer string conversion") := by
          rw [TransferEvent.assertSupported, TransferEvent.schemaMajor, if_pos hdigits]
          rfl
        simp only [hraises] at h
        obtain ⟨-, rfl⟩ := Program.makes_raise.1 h
        exact .inr ⟨_, rfl, .version event hok hdigits⟩
      · by_cases hmajor : decimalValue event.majorDigits = TransferEvent.supportedSchemaMajor
        · have hsupported : event.assertSupported = .ok () := by
            rw [TransferEvent.assertSupported, TransferEvent.schemaMajor, if_neg hdigits]
            exact if_neg (not_not.2 hmajor)
          simp only [hsupported, Consumer.handleSupported] at h
          obtain ⟨isDone, tr₁, rfl, h₁, hall₁⟩ := makes_first h hall
          cases isDone with
          | true =>
              obtain ⟨u, rfl, rfl⟩ := makes_only h₁ hall₁
              exact .inl ⟨rfl, concluded_pair (.duplicate _)⟩
          | false =>
              have hsilent : Silent settings ⟨.isDone event.idempotencyKey, .ok false⟩ :=
                silent_of_op nofun nofun nofun (by simp)
              rcases makes_handleSource hok hsupported h₁ hall₁ with ⟨hr, hconcluded⟩ | ⟨e, hr, he⟩
              · exact .inl ⟨hr, .cons hsilent hconcluded⟩
              · exact .inr ⟨e, hr, he.cons nofun⟩
        · -- another major version is refused
          obtain ⟨text, hraises⟩ : ∃ text, event.assertSupported =
              .error (.unsupportedSchemaVersion text) := by
            rw [TransferEvent.assertSupported, TransferEvent.schemaMajor, if_neg hdigits]
            exact ⟨_, if_pos hmajor⟩
          simp only [hraises] at h
          exact .inl (makes_deadLetter h hall)

/-! ## Which messages get a verdict -/

/-- `gather` returns what a schedule of the uploads of the event gives, one outcome for each
destination. -/
def ScheduledUploads (settings : Settings) (tr : List (Answered calls Exn)) : Prop :=
  ∀ outcomes, ⟨.uploadGather, .ok outcomes⟩ ∈ tr → ∃ event path,
    ⟨.uploadStart event path, .ok ()⟩ ∈ tr ∧ Uploads.Gathers settings event outcomes

/-- **The world behaves**: every call returns, the scan comes to a list of issues, and `upload_all` is
called for a content without issues and returns what a schedule of the uploads gives. -/
structure Normal (settings : Settings) (tr : List (Answered calls Exn)) : Prop where
  /-- Every call returns. -/
  answers : AllReturn tr
  /-- The scan does. -/
  scans : ∀ path content, ⟨.readFile path, .ok content⟩ ∈ tr → ∃ issues, scanBytes content = .ok issues
  /-- `upload_all` does. -/
  uploads : ∀ path content, ⟨.readFile path, .ok content⟩ ∈ tr → scanBytes content = .ok [] →
    ∃ outcomes, ⟨.uploadGather, .ok outcomes⟩ ∈ tr
  /-- It has one outcome for each destination. -/
  gathers : ScheduledUploads settings tr

/-- **A message gets a verdict** whenever the world behaves and the backoff does not overflow. -/
def GetsVerdict (settings : Settings) (tag : Nat) (m : Message) : Prop :=
  ∀ tr r, (Consumer.handle settings tag m).Makes tr r → Normal settings tr →
    (∀ text, r ≠ .error (.overflow text)) → r = .ok () ∧ Concluded settings tag tr

/-- **A poison message**: an event with a major version that `int` does not read; or one that can get to
a failed upload under settings that refuse every maximum, or every delay. -/
def Poison (settings : Settings) (m : Message) : Prop :=
  ∃ event, TransferEvent.fromJsonBytes m.body = .ok event ∧
    (4300 < event.majorDigits.length ∨
      event.assertSupported = .ok () ∧ 0 ≤ settings.maxCsvFileSizeBytes ∧
        1 ≤ settings.uploadMaxConcurrency ∧
        (settings.retryMaxAttempts < 1 ∨ settings.retryBackoffBase = .nan ∧
          Consumer.nextAttempt event ≤ settings.retryMaxAttempts))

/-- But for an overflow the delay can only fail to be a number. -/
theorem nan_of_backoffDelayMs {attempt : Nat} {e : Exn} (h : backoffDelayMs settings attempt = .error e)
    (he : ∀ text, e ≠ .overflow text) : settings.retryBackoffBase = .nan := by
  unfold backoffDelayMs at h
  cases hbase : settings.retryBackoffBase with
  | nan => rfl
  | infinite negative =>
      rw [hbase] at h
      cases h
      exact absurd rfl (he _)
  | finite base =>
      simp only [hbase] at h
      split at h
      · cases h
        exact absurd rfl (he _)
      · split at h
        · cases h
          exact absurd rfl (he _)
        · cases h

/-- Where the world behaves, only poison raises. -/
theorem poison_of_raises {e : Exn} (h : Raises settings m tr e) (hnormal : Normal settings tr)
    (he : ∀ text, e ≠ .overflow text) : Poison settings m := by
  cases h with
  | version event hok hdigits => exact ⟨event, hok, .inl hdigits⟩
  | scan path content hread hscan =>
      obtain ⟨issues, hissues⟩ := hnormal.scans path content hread
      rw [hissues] at hscan
      cases hscan
  | upload path content hread hscan hgather =>
      obtain ⟨outcomes, houtcomes⟩ := hnormal.uploads path content hread hscan
      exact absurd houtcomes (hgather outcomes)
  | failure event path size outcomes hok hsupported hsize hmax hgather hrefuses =>
      obtain ⟨event', path', -, hgathers⟩ := hnormal.gathers outcomes hgather
      obtain ⟨hn, -⟩ := Uploads.gathers_iff.1 hgathers
      refine ⟨event, hok, .inr ⟨hsupported, by omega, hn, ?_⟩⟩
      exact hrefuses.imp_right fun ⟨hlast, hdelay⟩ => ⟨nan_of_backoffDelayMs hdelay he, hlast⟩

/-- The calls that lead to a failed upload: an empty file, whose uploads all time out. -/
def failedUpload (event : TransferEvent) : List (Answered calls Exn) :=
  [⟨.isDone event.idempotencyKey, .ok false⟩, ⟨.isfile (fsencode event.source.path), .ok true⟩,
    ⟨.getsize (fsencode event.source.path), .ok 0⟩,
    ⟨.readFile (fsencode event.source.path), .ok ⟨#[]⟩⟩,
    ⟨.uploadStart event (fsencode event.source.path), .ok ()⟩,
    ⟨.uploadGather, .ok (event.destinations.val.map fun _ => .timedOut)⟩]

/-- Its failures. -/
def timeouts (event : TransferEvent) : List UploadResult :=
  event.destinations.val.map (uploadOne · .timedOut)

/-- **Every supported event can get to a failed upload**, if the settings let an empty file pass and
accept the semaphore. -/
theorem makes_failedUpload {r : Except Exn Unit} (hok : TransferEvent.fromJsonBytes m.body = .ok event)
    (hsupported : event.assertSupported = .ok ()) (hmax : 0 ≤ settings.maxCsvFileSizeBytes)
    (hn : 0 ≤ settings.uploadMaxConcurrency)
    (h : (Consumer.handleFailure settings tag event (timeouts event)).Makes tr r) :
    (Consumer.handle settings tag m).Makes (failedUpload event ++ tr) r := by
  -- all uploads time out, so all results are failures
  have hresults : List.zipWith uploadOne event.destinations.val
      (event.destinations.val.map fun _ => Outcome.timedOut) = timeouts event := by
    rw [List.zipWith_map_right, List.zipWith_self]
    rfl
  have hfailures : (timeouts event).filter (fun r => !r.ok) = timeouts event := by
    rw [List.filter_eq_self]
    intro r hr
    obtain ⟨d, -, rfl⟩ := List.mem_map.1 hr
    rfl
  have hne : timeouts event ≠ [] := by
    intro hnil
    exact event.destinations.property (List.map_eq_nil_iff.1 hnil)
  have hscan : scanBytes ⟨#[]⟩ = .ok [] := by decide +kernel
  -- the calls of `_handle` on an empty file, one by one
  unfold Consumer.handle
  simp only [hok, hsupported]
  refine .perform_bind (S := calls) (.isDone event.idempotencyKey) false ?_
  refine .perform_bind (S := calls) (.isfile (fsencode event.source.path)) true ?_
  simp only [Bool.not_true, Bool.false_eq_true, if_false, scanCsvFile, Program.bind_assoc]
  refine .perform_bind (S := calls) (.getsize (fsencode event.source.path)) 0 ?_
  rw [if_neg (by omega), Program.bind_assoc]
  refine .perform_bind (S := calls) (.readFile (fsencode event.source.path)) ⟨#[]⟩ ?_
  simp only [hscan, Program.ofExcept_ok, Program.ret_bind]
  rw [if_neg (by simp), Consumer.handleUpload, uploadAll, if_neg (by omega), Program.bind_assoc]
  refine .perform_bind (S := calls) (.uploadStart event (fsencode event.source.path)) () ?_
  rw [Program.bind_assoc]
  refine .perform_bind (S := calls) .uploadGather (event.destinations.val.map fun _ => .timedOut) ?_
  simp only [Program.pure_eq, Program.ret_bind, hresults, hfailures, if_neg hne]
  exact h

/-- The uploads of that run are scheduled, whatever follows. -/
theorem scheduledUploads_failedUpload (event : TransferEvent) (hn : 1 ≤ settings.uploadMaxConcurrency)
    (htr : ∀ outcomes, ⟨.uploadGather, .ok outcomes⟩ ∉ tr) :
    ScheduledUploads settings (failedUpload event ++ tr) := by
  intro outcomes hgather
  refine ⟨event, fsencode event.source.path, by simp [failedUpload], ?_⟩
  have houtcomes : outcomes = event.destinations.val.map fun _ => .timedOut := by
    simpa [failedUpload, htr] using hgather
  rw [Uploads.gathers_iff, houtcomes, List.length_map]
  exact ⟨hn, rfl⟩

/-- Nothing happens there but what the world does when it behaves. -/
theorem normal_failedUpload (event : TransferEvent) (hn : 1 ≤ settings.uploadMaxConcurrency) :
    Normal settings (failedUpload event) where
  answers := by simp [AllReturn, failedUpload]
  scans := by
    intro path content hread
    have hcontent : content = ⟨#[]⟩ := by
      simp only [failedUpload, List.mem_cons, Answered.mk.injEq, reduceCtorEq, false_and, false_or,
        List.not_mem_nil, or_false] at hread
      obtain ⟨hop, hanswer⟩ := hread
      cases hop
      exact Except.ok.inj (eq_of_heq hanswer)
    exact ⟨[], by rw [hcontent]; decide +kernel⟩
  uploads := fun _ _ _ _ => ⟨event.destinations.val.map fun _ => .timedOut, by simp [failedUpload]⟩
  gathers := by
    rw [← List.append_nil (failedUpload event)]
    exact scheduledUploads_failedUpload event hn fun _ => List.not_mem_nil

/-- Poison gets no verdict. -/
theorem not_getsVerdict_of_poison (h : Poison settings m) : ¬GetsVerdict settings tag m := by
  intro hverdict
  obtain ⟨event, hok, hdigits | ⟨hsupported, hmax, hn, hrefuses⟩⟩ := h
  · -- the version cannot be read
    have hraises : event.assertSupported =
        .error (.value "Exceeds the limit (4300 digits) for integer string conversion") := by
      rw [TransferEvent.assertSupported, TransferEvent.schemaMajor, if_pos hdigits]
      rfl
    have hmakes : (Consumer.handle settings tag m).Makes []
        (.error (.value "Exceeds the limit (4300 digits) for integer string conversion")) := by
      unfold Consumer.handle
      simp only [hok, hraises]
      exact .raise
    have hnormal : Normal settings [] := by constructor <;> simp [AllReturn, ScheduledUploads]
    obtain ⟨hr, -⟩ := hverdict [] _ hmakes hnormal nofun
    cases hr
  · -- the failed upload raises another exception than an overflow
    obtain ⟨e, he, hmakes⟩ : ∃ e, (∀ text, e ≠ Exn.overflow text) ∧
        (Consumer.handleFailure settings tag event (timeouts event)).Makes [] (.error e) := by
      have hpos := nextAttempt_pos event
      simp only [Consumer.handleFailure]
      obtain hlow | ⟨hbase, hlast⟩ := hrefuses
      · rw [if_pos (by omega)]
        obtain ⟨e, hretry⟩ := withRetry_error event (Consumer.nextAttempt event - 1)
          (Consumer.lastError (timeouts event)) hlow
        rw [hretry]
        refine ⟨e, ?_, .raise⟩
        rintro text rfl
        exact withRetry_ne_overflow hretry
      · rw [if_neg (by omega), TransferEvent.withRetry_eq event _ hpos (by omega)]
        refine ⟨.value "cannot convert float NaN to integer", nofun, ?_⟩
        rw [backoffDelayMs, hbase]
        exact .raise
    have hrun := makes_failedUpload hok hsupported hmax (by omega) hmakes
    rw [List.append_nil] at hrun
    obtain ⟨hr, -⟩ := hverdict _ _ hrun (normal_failedUpload event hn) (by simpa using he)
    cases hr

/-- **Which messages get a verdict**: all but the poison. -/
theorem getsVerdict_iff (settings : Settings) (tag : Nat) (m : Message) :
    GetsVerdict settings tag m ↔ ¬Poison settings m := by
  constructor
  · intro h hpoison
    exact not_getsVerdict_of_poison hpoison h
  · intro hpoison tr r hmakes hnormal hoverflow
    rcases handle_cases hmakes hnormal.answers with hend | ⟨e, rfl, hraises⟩
    · exact hend
    · refine absurd (poison_of_raises hraises hnormal ?_) hpoison
      rintro text rfl
      exact hoverflow text rfl

/-- **`RETRY_MAX_ATTEMPTS=0`** makes every supported event poison. -/
theorem zero_attempts_no_verdict :
    ¬GetsVerdict { retryMaxAttempts := 0 } 1 (Publisher.message .sample none none) :=
  not_getsVerdict_of_poison ⟨.sample, Publisher.fromJsonBytes_message _ _ _,
    .inr ⟨TransferEvent.sample_supported, by decide, by decide, .inl (by decide)⟩⟩

end TransferWorker
