import TransferWorker.System.Carriage
import TransferWorker.Worker.Metrics

/-! # What the counters count

The process with its metrics, and auditors that follow the calls of the threads: what a delivery was
acknowledged for, what the scans found, how the uploads ended, which publications succeeded. At the head
of a thread's loop, and at its end, the counters are what the auditor says, in every run; in between they
are never ahead.

* **`metered`** — the process with its metrics; `metered_refines`.
* **`consumerAuditor`**, `watcherAuditor` — what becomes due.
* **`counters_account`** — the counters of every run. -/

namespace TransferWorker

open CallTrees Program

variable {H : Hashes} {cwd : String} {settings : Settings} {t : Thread}

/-! ## The process with its metrics -/

/-- **The threads with their increments.** -/
def meteredService (H : Hashes) (cwd : String) (settings : Settings) :
    Thread → Service (calls.marked Metric) Exn Unit
  | .main => mainService.plain
  | .watcher =>
      { (watcherService H cwd settings).plain with turn := fun _ => Metered.watcherTurn settings H cwd }
  | .consumer => { (consumerService settings).plain with turn := fun _ => Metered.consumerTurn settings }

/-- **The process with its metrics**; every thread has a record of its calls and increments. -/
abbrev metered (H : Hashes) (cwd : String) (settings : Settings) :=
  (process H cwd settings).instrumented (meteredService H cwd settings)

/-- The increments change nothing. -/
theorem erase_meteredService (t : Thread) :
    (meteredService H cwd settings t).erase = (process H cwd settings).service t := by
  cases t with
  | main => exact Service.erase_plain mainService
  | watcher =>
      have hturn : (fun _ : Unit => (Metered.watcherTurn settings H cwd).erase) =
          fun _ => Watcher.turn H cwd settings := by
        funext s
        exact Metered.erase_watcherTurn H cwd
      simp only [meteredService, Service.erase, Service.plain, erase_plain, hturn]
      rfl
  | consumer =>
      have hturn : (fun _ : Unit => (Metered.consumerTurn settings).erase) =
          fun _ => Consumer.turn settings := by
        funext s
        exact Metered.erase_consumerTurn
      simp only [meteredService, Service.erase, Service.plain, erase_plain, hturn]
      rfl

/-! ## The auditors -/

/-- What is known of the delivery at hand. -/
structure Delivery where
  /-- What an acknowledgement would be for. -/
  result : ConsumeResult := .success
  /-- The event that is being uploaded. -/
  event : Option TransferEvent := none

/-- What a call says about the delivery at hand: a new one; it was published to a queue; its key was done;
it is being uploaded. -/
def Delivery.step (settings : Settings) (d : Delivery) : (op : Op) → Except Exn (Res op) → Delivery
  | .consume _, _ => {}
  | .basicPublish q _, .ok _ =>
      { d with result := if q = settings.retryQueueName then .retry else .dlq }
  | .isDone _, .ok true => { d with result := .duplicate }
  | .uploadStart event _, .ok _ => { d with event := some event }
  | _, _ => d

/-- The increments that a call of the consumer makes due: an acknowledgement counts for what became of the
delivery, a scan for every issue, an upload run for every destination. -/
def Delivery.due (settings : Settings) (d : Delivery) : (op : Op) → Except Exn (Res op) → List Metric
  | .basicAck _, .ok _ => d.result.marks
  | .getsize _, .ok n =>
      if settings.maxCsvFileSizeBytes < (n : Int) then [.csvSecurityRejections "file_too_large"] else []
  | .readFile _, .ok content =>
      match scanBytes content with
      | .ok issues => rejections issues
      | .error _ => []
  | .uploadGather, .ok outcomes =>
      match d.event with
      | some event => (List.zipWith uploadOne event.destinations.val outcomes).flatMap uploadMarks
      | none => []
  | _, _ => []

/-- **The auditor of the consumer.** -/
def consumerAuditor (settings : Settings) : Auditor calls Exn Metric where
  State := Delivery
  init := {}
  step d c := d.step settings c.op c.answer
  due d c := d.due settings c.op c.answer

/-- The increments that a call of the watcher makes due: a confirmed publication counts. -/
def publicationDue : (op : Op) → Except Exn (Res op) → List Metric
  | .basicPublish _ _, .ok _ => [.eventsPublished]
  | _, _ => []

/-- **The auditor of the watcher.** -/
def watcherAuditor : Auditor calls Exn Metric where
  State := Unit
  init := ()
  step s _ := s
  due _ c := publicationDue c.op c.answer

/-- The auditor of the main thread: nothing is ever due. -/
def mainAuditor : Auditor calls Exn Metric where
  State := Unit
  init := ()
  step s _ := s
  due _ _ := []

/-- The auditors of the threads. -/
def auditor (settings : Settings) : Thread → Auditor calls Exn Metric
  | .main => mainAuditor
  | .watcher => watcherAuditor
  | .consumer => consumerAuditor settings

/-! ## The consumer -/

section consumer

variable {d : Delivery} {α : Type}

/-- The calls outside of `_handle` say nothing about a delivery. -/
theorem ignored_of_isSession {op : Op} {r : Except Exn (Res op)} (h : op.isSession = true) :
    d.step settings op r = d ∧ d.due settings op r = [] := by
  cases op <;> first | exact ⟨rfl, rfl⟩ | cases h

/-- A program of such calls. -/
theorem pays_session {p : Prog α} (hp : p.Calls fun op : Op => op.isSession = true) :
    p.plain.Pays (consumerAuditor settings) (Service.paid _) d [] :=
  (pays_plain (A := consumerAuditor settings) hp fun _ _ _ h => ignored_of_isSession h).mono
    fun _ _ _ h => h.2

/-- An acknowledgement, and the increments for it. -/
theorem pays_ack (tag : Nat) (result : ConsumeResult) (hd : d.result = result) :
    ((call (.basicAck tag)).plain >>= fun _ => marks result.marks).Pays (consumerAuditor settings)
      (Service.paid _) d [] := by
  refine pays_call (fun x => ?_) fun e => rfl
  subst hd
  exact pays_all rfl

/-- A publication to the dead-letter queue, the acknowledgement, and the increments. -/
theorem pays_dlq (hdistinct : settings.Distinct) (tag : Nat) (m : Message) :
    ((call (.basicPublish settings.dlqName m)).plain >>= fun _ => (call (.basicAck tag)).plain >>= fun _ =>
      marks ConsumeResult.dlq.marks).Pays (consumerAuditor settings) (Service.paid _) d [] := by
  refine pays_call (fun x => ?_) fun e => rfl
  exact pays_ack tag .dlq (if_neg hdistinct.dlq_ne_retry)

/-- The failure of an upload is counted as a retry or as a dead letter. -/
theorem pays_handleFailure (hdistinct : settings.Distinct) (tag : Nat) (event : TransferEvent)
    (failures : List UploadResult) : (Metered.handleFailure settings tag event failures).Pays
      (consumerAuditor settings) (Service.paid _) d [] := by
  unfold Metered.handleFailure
  dsimp only
  split
  · exact pays_ofExcept (fun e _ => pays_dlq hdistinct tag _) fun e => rfl
  · refine pays_ofExcept (fun e _ => pays_ofExcept (fun n _ => ?_) fun e => rfl) fun e => rfl
    refine pays_call (fun x => ?_) fun e => rfl
    exact pays_ack tag .retry (if_pos rfl)

/-- The uploads, and the increments for them. -/
theorem pays_uploadAll (event : TransferEvent) (path : Path) :
    (Metered.uploadAll settings event path).Pays (consumerAuditor settings)
      (fun _ d' ms => d'.result = d.result ∧ ms = []) d [] := by
  have hrun : ((TransferWorker.uploadAll settings event path).plain : MeteredProg _).Pays
      (consumerAuditor settings) (fun r d' ms => d'.result = d.result ∧
        ms = r.toOption.elim [] fun results => results.flatMap uploadMarks) d [] := by
    unfold TransferWorker.uploadAll
    split
    · exact ⟨rfl, rfl⟩
    · rw [plain_bind]
      refine pays_call (fun x => ?_) fun e => ⟨rfl, rfl⟩
      rw [plain_bind]
      exact pays_call (fun outcomes => ⟨rfl, rfl⟩) fun e => ⟨rfl, rfl⟩
  refine hrun.bind (fun results d' ms h => ?_) fun e d' ms h => h
  obtain ⟨hd, rfl⟩ := h
  exact pays_marks (f := fun _ => (ret results : MeteredProg _)) ⟨hd, rfl⟩

/-- The type of the issue about the size. -/
theorem issueType_fileTooLarge (s : String) : issueType ("file_too_large:" ++ s) = "file_too_large" := by
  rw [issueType, String.toList_append]
  rfl

/-- The scan makes a rejection due for every issue. -/
theorem pays_scan (path : Path) :
    ((scanCsvFile path settings).plain : MeteredProg _).Pays (consumerAuditor settings)
      (fun r d' ms => d' = d ∧ ms = r.toOption.elim [] rejections) d [] := by
  unfold scanCsvFile
  rw [plain_bind]
  refine pays_call (fun n => ?_) fun e => ⟨rfl, rfl⟩
  split
  · rename_i hlarge
    refine ⟨rfl, ?_⟩
    show [] ++ (if settings.maxCsvFileSizeBytes < (n : Int) then _ else _) = _
    rw [if_pos hlarge, String.append_assoc, String.append_assoc]
    show _ = [Metric.csvSecurityRejections (issueType _)]
    rw [issueType_fileTooLarge]
    rfl
  · rename_i hsmall
    rw [plain_bind]
    -- the size made nothing due
    have hsize : (consumerAuditor settings).due d ⟨.getsize path, .ok n⟩ = [] := if_neg hsmall
    rw [hsize]
    refine pays_call (fun content => ?_) fun e => ⟨rfl, rfl⟩
    cases hscan : scanBytes content with
    | ok issues =>
        refine ⟨rfl, ?_⟩
        show [] ++ [] ++ (match scanBytes content with | .ok issues => rejections issues | .error _ => []) = _
        rw [hscan]
        rfl
    | error e =>
        refine ⟨rfl, ?_⟩
        show [] ++ [] ++ (match scanBytes content with | .ok issues => rejections issues | .error _ => []) = _
        rw [hscan]
        rfl

/-- `_handle` from the upload on counts what it did. -/
theorem pays_handleUpload (hdistinct : settings.Distinct) (tag : Nat) (event : TransferEvent)
    (hd : d.result = .success) : (Metered.handleUpload settings tag event).Pays
      (consumerAuditor settings) (Service.paid _) d [] := by
  refine (pays_uploadAll event _).bind (fun results d' ms h => ?_) fun e d' ms h => h.2
  obtain ⟨hd', rfl⟩ := h
  rw [hd] at hd'
  dsimp only
  split
  · refine pays_call (fun x => ?_) fun e => rfl
    exact pays_ack tag .success hd'
  · exact pays_handleFailure hdistinct tag event _

/-- `_handle` from the check of the source file on counts what it did. -/
theorem pays_handleSource (hdistinct : settings.Distinct) (tag : Nat) (event : TransferEvent)
    (hd : d.result = .success) : (Metered.handleSource settings tag event).Pays
      (consumerAuditor settings) (Service.paid _) d [] := by
  refine pays_call (fun isfile => ?_) fun e => rfl
  split
  · exact pays_dlq hdistinct tag _
  · refine (pays_scan (d := d) _).bind (fun issues d' ms h => ?_) fun e d' ms h => h.2
    obtain ⟨rfl, rfl⟩ := h
    by_cases hissues : issues = []
    · subst hissues
      exact pays_handleUpload hdistinct tag event hd
    · have hdlq : (Metered.deadLetter settings tag event "csv_security_check_failed").Pays
          (consumerAuditor settings) (Service.paid _) d' [] := pays_dlq hdistinct tag _
      simp only [ne_eq, hissues, not_false_eq_true, ↓reduceIte]
      exact pays_marks (f := fun _ => Metered.deadLetter settings tag event _) hdlq

/-- `_handle` of a supported event counts what it did. -/
theorem pays_handleSupported (hdistinct : settings.Distinct) (tag : Nat) (event : TransferEvent)
    (hd : d.result = .success) : (Metered.handleSupported settings tag event).Pays
      (consumerAuditor settings) (Service.paid _) d [] := by
  refine pays_call (fun done => ?_) fun e => rfl
  cases done with
  | true => exact pays_ack tag .duplicate rfl
  | false => exact pays_handleSource hdistinct tag event hd

/-- **`_handle` counts what it did**, from a delivery of which nothing is known yet. -/
theorem pays_handle (hdistinct : settings.Distinct) (tag : Nat) (m : Message)
    (hd : d.result = .success) : (Metered.handle settings tag m).Pays (consumerAuditor settings)
      (Service.paid _) d [] := by
  unfold Metered.handle
  cases TransferEvent.fromJsonBytes m.body with
  | error e => exact pays_dlq hdistinct tag _
  | ok event =>
      dsimp only
      cases event.assertSupported with
      | ok u => exact pays_handleSupported hdistinct tag event hd
      | error e =>
          cases e with
          | unsupportedSchemaVersion msg => exact pays_dlq hdistinct tag _
          | _ => exact rfl

/-- A turn of the consumer counts what it did. -/
theorem pays_consumerTurn (hdistinct : settings.Distinct) :
    (Metered.consumerTurn settings).Pays (consumerAuditor settings) (Service.paid _) d [] := by
  have hcancel : ((call .cancel).plain >>= fun _ => (ret (.inr ()) : MeteredProg (Unit ⊕ Unit))).Pays
      (consumerAuditor settings) (Service.paid _) {} [] := pays_call (fun _ => rfl) fun _ => rfl
  refine pays_call (fun item => ?_) fun e => rfl
  cases item with
  | exhausted => exact hcancel
  | tick =>
      refine pays_call (fun stop => ?_) fun e => rfl
      cases stop with
      | true => exact hcancel
      | false => rfl
  | delivery tag m =>
      refine pays_call (fun stop => ?_) fun e => rfl
      cases stop with
      | true => exact hcancel
      | false =>
          -- an exception of `_handle` is only logged
          have hhandle := pays_handle hdistinct (d := {}) tag m rfl
          have hattempt : (Metered.handle settings tag m).attempt.Pays (consumerAuditor settings)
              (Service.paid _) {} [] := Pays.attempt (hhandle.mono fun _ _ _ h => h)
          exact hattempt.bind (fun _ _ _ h => h) fun _ _ _ h => h

/-- The consumer makes the increments that are due. -/
theorem pays_consumer (hdistinct : settings.Distinct) :
    (meteredService H cwd settings .consumer).Pays (consumerAuditor settings) where
  setup := pays_session calls_setup
  turn _ _ := pays_consumerTurn hdistinct
  finish s r _ := pays_session (calls_finish s r)

end consumer

/-! ## The watcher and the main thread -/

/-- Calls that do not count. -/
theorem pays_uncounted {α : Type} {p : Prog α} (hp : p.Calls fun op => ∀ r, publicationDue op r = []) :
    p.plain.Pays watcherAuditor (Service.paid _) () [] :=
  (pays_plain (A := watcherAuditor) hp fun _ _ r h => ⟨rfl, h r⟩).mono fun _ _ _ h => h.2

/-- A reconnect counts nothing. -/
theorem reconnects_uncounted : Reconnects fun op => ∀ r, publicationDue op r = [] where
  close _ := rfl
  connect _ := rfl
  channel _ := rfl
  declare _ _ _ := rfl
  confirm _ := rfl

/-- A publication, counted if it returned. -/
theorem pays_publishCounted (event : TransferEvent) :
    (Metered.publishCounted settings event).Pays watcherAuditor (Service.paid _) () [] :=
  pays_call (fun _ => ⟨[], rfl, rfl⟩) fun _ => rfl

/-- A publication is counted if it returned in the end. -/
theorem pays_publishWithReconnect (event : TransferEvent) :
    (Metered.publishWithReconnect settings event).Pays watcherAuditor (Service.paid _) () [] := by
  have hpublish : (Metered.publishCounted settings event).attempt.Pays watcherAuditor
      (Service.paid _) () [] := Pays.attempt ((pays_publishCounted event).mono fun _ _ _ h => h)
  refine hpublish.bind (fun r _ ms h => ?_) fun _ _ _ h => h
  obtain rfl : ms = [] := h
  cases r with
  | ok u => rfl
  | error e =>
      dsimp only
      split
      · refine (pays_uncounted (calls_reconnect reconnects_uncounted)).bind (fun _ _ ms h => ?_)
          fun _ _ _ h => h
        obtain rfl : ms = [] := h
        exact hpublish.bind (fun _ _ _ h => h) fun _ _ _ h => h
      · rfl

/-- A turn of the watcher counts the publication, if there was one. -/
theorem pays_watcherTurn :
    (Metered.watcherTurn settings H cwd).Pays watcherAuditor (Service.paid _) () [] := by
  refine pays_call (fun stop => ?_) fun e => rfl
  split
  · rfl
  · refine pays_call (fun item => ?_) fun e => rfl
    cases item with
    | none =>
        have hidle : (Watcher.serviceIdleConnection settings).plain.Pays watcherAuditor
            (Service.paid _) () [] :=
          pays_uncounted (calls_serviceIdleConnection reconnects_uncounted fun _ => rfl)
        exact hidle.bind (fun _ _ _ h => h) fun _ _ _ h => h
    | some path =>
        have hbuild : (Watcher.buildEvent H cwd path settings).plain.Pays watcherAuditor
            (Service.paid _) () [] :=
          pays_uncounted (calls_buildEvent ⟨fun _ => rfl, fun _ => rfl, fun _ => rfl, fun _ => rfl⟩)
        have hpath : (Metered.handlePath settings H cwd path).Pays watcherAuditor
            (Service.paid _) () [] := by
          refine pays_call (fun regular => ?_) fun e => rfl
          split
          · rfl
          · have hattempt : (Watcher.buildEvent H cwd path settings).plain.attempt.Pays watcherAuditor
                (Service.paid _) () [] := Pays.attempt (hbuild.mono fun _ _ _ h => h)
            refine hattempt.bind (fun r _ ms h => ?_) fun _ _ _ h => h
            obtain rfl : ms = [] := h
            cases r with
            | error e => rfl
            | ok event => exact pays_publishWithReconnect event
        exact hpath.bind (fun _ _ _ h => h) fun _ _ _ h => h

/-- **Every thread makes the increments that are due.** -/
theorem pays_thread (hdistinct : settings.Distinct) (t : Thread) :
    (meteredService H cwd settings t).Pays (auditor settings t) := by
  cases t with
  | main =>
      have hnothing : ∀ {α : Type} (p : Prog α), p.plain.Pays mainAuditor (Service.paid _) () [] :=
        fun p => (pays_plain (A := mainAuditor) (calls_trivial p) fun _ _ _ _ => ⟨rfl, rfl⟩).mono
          fun _ _ _ h => h.2
      exact ⟨hnothing _, fun _ _ => hnothing _, fun _ _ _ => hnothing _⟩
  | watcher =>
      refine ⟨pays_uncounted ?_, fun _ _ => pays_watcherTurn, fun s r _ => pays_uncounted ?_⟩
      · exact calls_watcher_setup reconnects_uncounted (fun _ => rfl) (fun _ => rfl) (fun _ => rfl)
          fun _ => rfl
      · exact calls_watcher_finish (fun _ => rfl) (fun _ => rfl) (fun _ => rfl) (fun _ => rfl) s r
  | consumer => exact pays_consumer hdistinct

/-! ## Counters -/

/-- A record of a thread. -/
abbrev Record := List (Event calls Exn Metric)

/-- The value of a counter, as far as the thread with this record incremented it. -/
def counter (l : Record) (m : Metric) : Nat := (marksOf l).count m

/-- The value that it ought to have. -/
def expected (settings : Settings) (t : Thread) (l : Record) (m : Metric) : Nat :=
  ((auditor settings t).dues (auditor settings t).init l).count m

/-- The deliveries of a record that were acknowledged. -/
def acknowledged : Record → Nat
  | [] => 0
  | .call ⟨.basicAck _, .ok _⟩ :: l => acknowledged l + 1
  | _ :: l => acknowledged l

/-- The publications of a record that were confirmed. -/
def confirmed : Record → Nat
  | [] => 0
  | .call ⟨.basicPublish _ _, .ok _⟩ :: l => confirmed l + 1
  | _ :: l => confirmed l

/-- The increments are those for so many acknowledged deliveries: each is counted under one result, and
under the result `dlq` or `duplicate` once more. -/
structure Tally (ms : List Metric) (n : Nat) : Prop where
  /-- One result each. -/
  consumed : ms.count (.eventsConsumed .success) + ms.count (.eventsConsumed .retry) +
    ms.count (.eventsConsumed .dlq) + ms.count (.eventsConsumed .duplicate) = n
  /-- Those that went to the dead-letter queue. -/
  dlq : ms.count .dlqMessages = ms.count (.eventsConsumed .dlq)
  /-- Those that were done already. -/
  hits : ms.count .idempotencyHits = ms.count (.eventsConsumed .duplicate)

namespace Tally

variable {ms ms' : List Metric} {n n' : Nat}

/-- The increments for some deliveries and for some more. -/
theorem append (h : Tally ms n) (h' : Tally ms' n') : Tally (ms ++ ms') (n + n') where
  consumed := by
    have := h.consumed
    have := h'.consumed
    simp only [List.count_append]
    omega
  dlq := by rw [List.count_append, List.count_append, h.dlq, h'.dlq]
  hits := by rw [List.count_append, List.count_append, h.hits, h'.hits]

/-- The other counters do not matter. -/
theorem others (h : ∀ m ∈ ms, (∀ r, m ≠ .eventsConsumed r) ∧ m ≠ .dlqMessages ∧ m ≠ .idempotencyHits) :
    Tally ms 0 := by
  have hconsumed : ∀ r, ms.count (.eventsConsumed r) = 0 := fun r =>
    List.count_eq_zero.2 fun hm => (h _ hm).1 r rfl
  have hdlq : ms.count .dlqMessages = 0 := List.count_eq_zero.2 fun hm => (h _ hm).2.1 rfl
  have hhits : ms.count .idempotencyHits = 0 := List.count_eq_zero.2 fun hm => (h _ hm).2.2 rfl
  exact ⟨by simp [hconsumed], by rw [hdlq, hconsumed], by rw [hhits, hconsumed]⟩

/-- No increments for no delivery. -/
theorem nil : Tally [] 0 := others (by simp)

/-- The increments for one result. -/
theorem of_result (r : ConsumeResult) : Tally r.marks 1 := by cases r <;> constructor <;> decide

/-- The increments for rejections count no delivery. -/
theorem rejections (issues : List String) : Tally (rejections issues) 0 :=
  others (by simp [TransferWorker.rejections])

/-- Nor do those for uploads. -/
theorem uploads (results : List UploadResult) : Tally (results.flatMap uploadMarks) 0 := by
  refine others fun m hm => ?_
  obtain ⟨r, -, hm⟩ := List.mem_flatMap.1 hm
  rcases List.mem_cons.1 hm with rfl | hm
  · simp
  · obtain rfl := List.mem_singleton.1 hm
    simp

/-- What a call makes due. -/
theorem due (d : Delivery) (op : Op) (r : Except Exn (Res op)) :
    Tally (d.due settings op r) (acknowledged [.call ⟨op, r⟩]) := by
  cases r with
  | error e => cases op <;> exact nil
  | ok x =>
      cases op with
      | basicAck tag => exact of_result d.result
      | getsize path =>
          show Tally (if settings.maxCsvFileSizeBytes < (x : Int) then _ else _) 0
          split
          · exact others (by simp)
          · exact nil
      | readFile path =>
          show Tally (match scanBytes x with | .ok issues => _ | .error _ => _) 0
          cases scanBytes x with
          | ok issues => exact rejections issues
          | error e => exact nil
      | uploadGather =>
          show Tally (match d.event with | some event => _ | none => _) 0
          cases d.event with
          | some event => exact uploads _
          | none => exact nil
      | _ => exact nil

/-- **What a record makes due**, call by call. -/
theorem dues (d : Delivery) (l : Record) : Tally ((consumerAuditor settings).dues d l) (acknowledged l) := by
  induction l generalizing d with
  | nil => exact nil
  | cons e l ih =>
      cases e with
      | mark m => exact ih d
      | call c =>
          have hcount : acknowledged (.call c :: l) = acknowledged [.call c] + acknowledged l := by
            obtain ⟨op, r⟩ := c
            cases r with
            | error e => cases op <;> exact (Nat.zero_add _).symm
            | ok x =>
                cases op with
                | basicAck tag => exact Nat.add_comm _ _
                | _ => exact (Nat.zero_add _).symm
          rw [hcount]
          exact (due d c.op c.answer).append (ih _)

end Tally

/-- The publications of the watcher are what its auditor counts. -/
theorem expected_published (l : Record) : expected settings .watcher l .eventsPublished = confirmed l := by
  show (watcherAuditor.dues () l).count .eventsPublished = confirmed l
  induction l with
  | nil => rfl
  | cons e l ih =>
      cases e with
      | mark m => exact ih
      | call c =>
          obtain ⟨op, r⟩ := c
          show (publicationDue op r ++ watcherAuditor.dues () l).count .eventsPublished = _
          rw [List.count_append, ih]
          cases r with
          | error e => cases op <;> exact Nat.zero_add _
          | ok x =>
              cases op with
              | basicPublish q m => exact Nat.add_comm _ _
              | _ => exact Nat.zero_add _

/-- **What the counters count**, in every run of the process with its metrics, the three queues having different
names and the uploads being counted after their gather. (1) Without its increments
the run is one of the process. (2) At every moment no thread has incremented a counter more often than what
its calls answered made due; (3) at the head of its loop and at its end it has done so exactly as often.
(4) Then each delivery that was acknowledged is counted under exactly one result, the counters of the
dead-letter queue and of the duplicates agree with these results, and (5) each publication of the watcher
that was confirmed is counted once. -/
theorem counters_account {init : World → Prop} (hdistinct : settings.Distinct)
    {s : (metered H cwd settings).State}
    (hs : (metered H cwd settings).Reachable (fun w => init w.1 ∧ w.2 = fun _ => []) s) :
    (process H cwd settings).Reachable init (s.1.1, Pool.erased s.2) ∧
      (∀ t m, counter (s.1.2 t) m ≤ expected settings t (s.1.2 t) m) ∧
      (∀ t, Service.Resting (s.2 t) → ∀ m, counter (s.1.2 t) m = expected settings t (s.1.2 t) m) ∧
      (Service.Resting (s.2 .consumer) → Tally (marksOf (s.1.2 .consumer)) (acknowledged (s.1.2 .consumer))) ∧
      (Service.Resting (s.2 .watcher) →
        counter (s.1.2 .watcher) .eventsPublished = confirmed (s.1.2 .watcher)) := by
  have hrecords := fun t => Pool.records_of_reachable hs t
  have hsettled : ∀ t, Service.Resting (s.2 t) →
      marksOf (s.1.2 t) = (auditor settings t).dues (auditor settings t).init (s.1.2 t) :=
    fun t ht => (hrecords t).settled (pays_thread hdistinct t) ht
  refine ⟨Pool.reachable_erase erase_meteredService hs, fun t m => ?_, fun t ht m => ?_, fun ht => ?_,
    fun ht => ?_⟩
  · exact ((hrecords t).never_ahead (pays_thread hdistinct t)).sublist.count_le m
  · rw [counter, hsettled t ht, expected]
  · rw [hsettled .consumer ht]
    exact Tally.dues {} _
  · rw [counter, hsettled .watcher ht]
    exact expected_published _

/-! ## A file that is counted -/

section sample

variable {w w' : World}

/-- Something is due since the first message was accepted. -/
def World.Outstanding (settings : Settings) (w : World) : Prop := w.accepted ≠ [] → w.due settings ≠ []

/-- It stays so while what is due stays due. -/
theorem World.Outstanding.of_subperm (h : w.Outstanding settings) (haccepted : w'.accepted = w.accepted)
    (hdue : (w.due settings).Subperm (w'.due settings)) : w'.Outstanding settings := by
  intro hsome hnone
  rw [haccepted] at hsome
  rw [hnone] at hdue
  exact h hsome (List.subperm_nil.1 hdue)

/-- It is so after something was put on the main queue. -/
theorem World.Outstanding.of_queue (h : w.queue settings.queueName ≠ []) : w.Outstanding settings := by
  intro _ hnone
  exact h (List.append_eq_nil_iff.1 hnone).1

/-- The environment keeps it. -/
theorem World.Outstanding.move (hd : settings.Distinct) (h : w.Outstanding settings)
    (hm : Move settings w w') : w'.Outstanding settings := by
  have hdue := hm.due hd
  cases hm with
  | accept m =>
      refine .of_queue ?_
      show (w.push settings.queueName ⟨m, []⟩).queue settings.queueName ≠ []
      rw [push_queue_self]
      simp
  | activeProgress _ _ hp =>
      obtain ⟨objects, rfl⟩ := hp.frame
      exact h.of_subperm rfl hdue
  | lateProgress _ hp =>
      obtain ⟨objects, rfl⟩ := hp.frame
      exact h.of_subperm rfl hdue
  | _ => exact h.of_subperm rfl hdue

/-- So does every call that returns, but for an acknowledgement. -/
theorem World.Outstanding.responds {op : Op} {x : Res op} (h : w.Outstanding settings)
    (hop : ∀ tag, op ≠ .basicAck tag) (hr : w.responds settings t op (.ok x) w') :
    w'.Outstanding settings := by
  rcases accepted_of_responds hr with hsame | ⟨q, m, rfl, hsame⟩
  · exact h.of_subperm hsame (due_of_responds hop hr)
  · by_cases hq : q = settings.queueName
    · -- a publication to the main queue is due itself
      subst hq
      obtain ⟨-, rfl⟩ := hr
      refine .of_queue ?_
      show (w.publish settings t settings.queueName m).queue settings.queueName ≠ []
      rw [publish_queue_self]
      simp
    · have hfew : (w.publish settings t q m).accepted = w.accepted := if_neg fun hboth => hq hboth.2
      exact h.of_subperm (hsame.trans hfew) (due_of_responds hop hr)

/-- An acknowledgement on a record is counted. -/
theorem acknowledged_pos {l : Record} {tag : Nat} {x : Unit}
    (h : Event.call ⟨Op.basicAck tag, .ok x⟩ ∈ l) : 0 < acknowledged l := by
  induction l with
  | nil => cases h
  | cons e l ih =>
      rcases List.mem_cons.1 h with rfl | hrest
      · exact Nat.succ_pos _
      · have htail : 0 < acknowledged l := ih hrest
        cases e with
        | mark m => exact htail
        | call c =>
            obtain ⟨op, r⟩ := c
            cases r with
            | error e => cases op <;> exact htail
            | ok y =>
                cases op with
                | basicAck tag => exact Nat.succ_pos _
                | _ => exact htail

/-- **What is not due any more was acknowledged**, if no call raises and the process is not killed. -/
theorem acknowledged_of_due (hd : settings.Distinct)
    {s : (((process H cwd settings).under untroubled).instrumented (meteredService H cwd settings)).State}
    (hs : (((process H cwd settings).under untroubled).instrumented (meteredService H cwd settings)).Reachable
      (fun w => w.1.Unused ∧ w.2 = fun _ => []) s)
    (haccepted : s.1.1.accepted ≠ []) (hdue : s.1.1.due settings = []) :
    0 < acknowledged (s.1.2 .consumer) := by
  have hcalled := Pool.called_of_reachable (P := (process H cwd settings).under untroubled)
    (A := World.Outstanding settings) (i := .consumer)
    (Q := fun op r => ∃ tag x, (⟨op, r⟩ : Answered calls Exn) = ⟨.basicAck tag, .ok x⟩)
    erase_meteredService (fun w hw hsome => absurd hw.accepted hsome) (fun w w' h hm => h.move hd hm.1)
    (fun s hs t op k r w' hpending h hr => ?_) (fun w w' h => h.2) hs
  · rcases hcalled with hstill | ⟨op, r, hmem, tag, x, heq⟩
    · exact absurd hdue (hstill haccepted)
    · rw [heq] at hmem
      exact acknowledged_pos hmem
  · obtain ⟨⟨-, hanswer⟩, x, rfl⟩ := hr
    by_cases hack : ∃ tag, op = .basicAck tag
    · -- an acknowledgement is one of the consumer
      obtain ⟨tag, rfl⟩ := hack
      refine .inr ⟨?_, tag, x, rfl⟩
      by_contra ht
      have hfits : (s.2 t).Calls (Op.Fits t) := Pool.calls_of_reachable (calls_others ht) hs
      exact (hfits.pending hpending).1.owner_ne ht rfl
    · exact .inl (h.responds (fun tag htag => hack ⟨tag, htag⟩) hanswer)

/-- What is due after the next message was uploaded and acknowledged. -/
theorem uploadNext_due {e : Entry} {rest : List Entry} {event : TransferEvent} {content : ByteArray} :
    (w.uploadNext settings e rest event content).due settings =
      rest ++ (w.unacked.filter fun d => d.1 ≠ w.nextTag).map Prod.snd := by
  -- the store has no part in it
  have hmark : ∀ (v : World) key correlationId, (v.markDone key correlationId).queue = v.queue ∧
      (v.markDone key correlationId).unacked = v.unacked := by
    intro v key correlationId
    unfold World.markDone
    split <;> exact ⟨rfl, rfl⟩
  obtain ⟨hqueue, hunacked⟩ := hmark ((((w.fetchNext settings e rest).scannedAs content).copyTo content
    event.destinations.val).endUploads (.complete event (fsencode event.source.path) content))
    event.idempotencyKey event.correlationId
  have hrest : (w.uploadNext settings e rest event content).queue settings.queueName = rest :=
    (congrFun hqueue _).trans (World.setQueue_self ..)
  have hleft : (w.uploadNext settings e rest event content).unacked =
      (w.unacked ++ [(w.nextTag, e)]).filter fun d => d.1 ≠ w.nextTag :=
    congrArg (List.filter fun d : Nat × Entry => d.1 ≠ w.nextTag) hunacked
  rw [World.due, hrest, hleft]
  simp

/-- The counters after a file was announced, copied and acknowledged. -/
theorem counters_account_sample : ∃ s : (metered hashlib "/" {}).State,
    acknowledged (s.1.2 .consumer) ≠ 0 ∧ s.1.1.confirmed ≠ [] ∧
      Tally (marksOf (s.1.2 .consumer)) (acknowledged (s.1.2 .consumer)) ∧
      counter (s.1.2 .watcher) .eventsPublished = confirmed (s.1.2 .watcher) := by
  have hunused : World.Unused {} := ⟨⟨rfl, rfl, rfl⟩, rfl⟩
  have hrun := runs_untroubled_sighted.trans (runs_copied capable_untroubled trivial)
  obtain ⟨s, hs, hworld, herased⟩ := Pool.reachable_instrumented
    (P := (process hashlib "/" {}).under untroubled) (V := meteredService hashlib "/" {})
    erase_meteredService ⟨{}, hunused, hrun⟩
  have hworld : s.1.1 = World.copied := hworld
  have hresting : ∀ t, Service.Resting (s.2 t) := by
    intro t
    have hphase : (s.2 t).erase = .head () := by
      show Pool.erased s.2 t = .head ()
      rw [herased]
    cases h : s.2 t with
    | head x => trivial
    | terminated r => trivial
    | _ =>
        rw [h] at hphase
        cases hphase
  have haccount := counters_account distinct_default (Pool.reachable_instrumented_of_under hs)
  have hack : 0 < acknowledged (s.1.2 .consumer) :=
    acknowledged_of_due distinct_default hs (hworld ▸ List.cons_ne_nil _ _) (hworld ▸ uploadNext_due)
  refine ⟨s, hack.ne', hworld ▸ List.cons_ne_nil _ _, haccount.2.2.2.1 (hresting _),
    haccount.2.2.2.2 (hresting _)⟩

end sample

end TransferWorker
