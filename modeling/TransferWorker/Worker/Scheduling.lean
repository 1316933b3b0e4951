import TransferWorker.CallTrees.Trace
import TransferWorker.Scheduling.Semaphore
import TransferWorker.Worker.Uploader

/-! # The schedule of the uploads

What happens inside one call of `upload_all`: a task for each destination waits for the semaphore, runs
its upload function on a thread, and answers when the function ends or the timeout is over. A function
that is still executing then goes on executing. The limit of the default executor on its workers is left out:
there is a thread for every function that a task starts.

* **`Uploads.Reaches`** — a schedule of the tasks and the state it leads to.
* **`concurrency_capped_iff`** — when at most `upload_max_concurrency` functions execute.
* **`answersEvery_iff`** — when every destination gets its answer. -/

namespace TransferWorker

open CallTrees
open Semaphore (State Action Phase)

namespace Uploads

/-- An event of the schedule: an action of the task of one destination. -/
abbrev Event := Nat × Action Outcome

/-- The semaphore, and the tasks that `gather` makes. -/
def start (settings : Settings) (event : TransferEvent) : Except Exn (State Outcome) :=
  if settings.uploadMaxConcurrency < 0 then .error (.value "Semaphore initial value must be >= 0")
  else .ok (.initial settings.uploadMaxConcurrency.toNat event.destinations.val.length)

/-- **One call of `upload_all` can get to a state** by a schedule. A task that gives up has timed out. -/
def Reaches (settings : Settings) (event : TransferEvent) (es : List Event) (s : State Outcome) : Prop :=
  ∃ s₀, start settings event = .ok s₀ ∧ Semaphore.run .timedOut s₀ es = some s

/-- The results, when all tasks have answered: what `gather` returns. -/
def results (event : TransferEvent) (s : State Outcome) : Option (List UploadResult) :=
  s.answers.map (List.zipWith uploadOne event.destinations.val)

variable {settings : Settings} {event : TransferEvent} {path : Path} {es : List Event} {s : State Outcome}

/-- With a bound that is not negative every task waits at the start. -/
theorem start_eq_ok (h : 0 ≤ settings.uploadMaxConcurrency) : start settings event =
    .ok (.initial settings.uploadMaxConcurrency.toNat event.destinations.val.length) :=
  if_neg (not_lt.2 h)

/-- The state comes from the initial one, and the semaphore was not refused. -/
theorem reaches_iff : Reaches settings event es s ↔ 0 ≤ settings.uploadMaxConcurrency ∧
    Semaphore.run .timedOut
      (.initial settings.uploadMaxConcurrency.toNat event.destinations.val.length) es = some s := by
  constructor
  · rintro ⟨s₀, hstart, hrun⟩
    by_cases hn : settings.uploadMaxConcurrency < 0
    · rw [start, if_pos hn] at hstart
      cases hstart
    · rw [start, if_neg hn] at hstart
      cases hstart
      exact ⟨not_lt.1 hn, hrun⟩
  · rintro ⟨hn, hrun⟩
    exact ⟨_, start_eq_ok hn, hrun⟩

/-- What `gather` can return: the answers of a complete schedule. -/
def Gathers (settings : Settings) (event : TransferEvent) (outcomes : List Outcome) : Prop :=
  ∃ es s, Reaches settings event es s ∧ s.answers = some outcomes

/-- There is one answer for each destination. -/
theorem length_of_reaches {outcomes : List Outcome} (hs : Reaches settings event es s)
    (hanswers : s.answers = some outcomes) : outcomes.length = event.destinations.val.length := by
  rw [← (Semaphore.answers_eq_some_iff.1 hanswers).length_eq, Semaphore.length_run (reaches_iff.1 hs).2,
    State.initial, List.length_replicate]

/-- At first there are no answers. -/
theorem initial_answers (event : TransferEvent) (n : Nat) :
    (State.initial n event.destinations.val.length : State Outcome).answers = none := by
  cases h : (State.initial n event.destinations.val.length : State Outcome).answers with
  | none => rfl
  | some outcomes =>
      have hpos := List.length_pos_of_ne_nil event.destinations.property
      have hforall := Semaphore.answers_eq_some_iff.1 h
      obtain ⟨count, hcount⟩ := Nat.exists_eq_add_one_of_ne_zero hpos.ne'
      rw [State.initial, hcount, List.replicate_succ] at hforall
      obtain ⟨o, -, hnone, -, -⟩ := List.forall₂_cons_left_iff.1 hforall
      cases hnone

/-- **`gather` can return every list of answers**, one for each destination, if there is a permit, and
nothing otherwise. -/
theorem gathers_iff {outcomes : List Outcome} : Gathers settings event outcomes ↔
    1 ≤ settings.uploadMaxConcurrency ∧ outcomes.length = event.destinations.val.length := by
  constructor
  · rintro ⟨es, s, hs, hanswers⟩
    have hlength := length_of_reaches hs hanswers
    refine ⟨?_, hlength⟩
    by_contra hn
    obtain ⟨hpos, hrun⟩ := reaches_iff.1 hs
    obtain rfl : es = [] := by
      cases es with
      | nil => rfl
      | cons e es =>
          have hzero : settings.uploadMaxConcurrency.toNat = 0 := by omega
          rw [hzero, Semaphore.run_cons, Semaphore.step_initial_zero] at hrun
          cases hrun
    -- nothing has happened, but there is a destination
    obtain rfl := Option.some.inj hrun
    rw [initial_answers] at hanswers
    cases hanswers
  · rintro ⟨hn, hlength⟩
    obtain ⟨es, s, hrun, hanswers⟩ := Semaphore.exists_run_answers Outcome.timedOut
      (by omega : 1 ≤ settings.uploadMaxConcurrency.toNat) outcomes
    rw [hlength] at hrun
    exact ⟨es, s, reaches_iff.2 ⟨by omega, hrun⟩, hanswers⟩

/-! ## The cap -/

/-- At most so many functions are executing, at every moment of a schedule, as there are permits. -/
def Capped (settings : Settings) (event : TransferEvent) (es : List Event) : Prop :=
  ∀ es' s, es' <+: es → Reaches settings event es' s →
    (s.executing : Int) ≤ settings.uploadMaxConcurrency

/-- A schedule in which no function outlives its timeout is capped. -/
theorem capped_of_not_abandon (h : ∀ e ∈ es, e.2 ≠ .abandon) : Capped settings event es := by
  intro es' s hes' hs
  obtain ⟨hn, hrun⟩ := reaches_iff.1 hs
  have hle := Semaphore.run_executing_le hrun
  have hleft := Semaphore.run_leftBehind hrun fun e he => h e (hes'.subset he)
  omega

/-- So is every schedule of few destinations. -/
theorem capped_of_length (h : (event.destinations.val.length : Int) ≤ settings.uploadMaxConcurrency) :
    Capped settings event es := by
  intro es' s _ hs
  have hle := Semaphore.run_executing_le_count (reaches_iff.1 hs).2
  omega

/-- With more destinations than permits some schedule is not. -/
theorem not_capped_overfill (hn : 1 ≤ settings.uploadMaxConcurrency)
    (h : settings.uploadMaxConcurrency < event.destinations.val.length) :
    ¬Capped settings event (Semaphore.overfill settings.uploadMaxConcurrency.toNat) := by
  intro hcapped
  have hmore : settings.uploadMaxConcurrency.toNat < event.destinations.val.length := by omega
  obtain ⟨s, hrun, hmany⟩ := Semaphore.exists_overfill Outcome.timedOut (by omega) hmore
  have hle := hcapped _ s (List.prefix_refl _) (reaches_iff.2 ⟨by omega, hrun⟩)
  omega

/-- **When the concurrency cap is real**, with as many threads as tasks start. A schedule is capped if no upload
function is executing when its timeout is over, or if the event has no more destinations than there are permits;
and these are the events all of whose schedules are capped. -/
theorem concurrency_capped_iff (settings : Settings) (event : TransferEvent)
    (hn : 1 ≤ settings.uploadMaxConcurrency) :
    (∀ es, (∀ e ∈ es, e.2 ≠ .abandon) ∨
      (event.destinations.val.length : Int) ≤ settings.uploadMaxConcurrency →
        Capped settings event es) ∧
    ((∀ es, Capped settings event es) ↔
      (event.destinations.val.length : Int) ≤ settings.uploadMaxConcurrency) := by
  refine ⟨?_, ?_, fun h es => capped_of_length h⟩
  · rintro es (hstay | hfew)
    · exact capped_of_not_abandon hstay
    · exact capped_of_length hfew
  · intro hall
    by_contra hmany
    exact not_capped_overfill hn (not_le.1 hmany) (hall _)

/-- Under the default settings a timeout makes no difference to the example event, which has two
destinations. -/
theorem concurrency_capped_sample :
    Capped {} .sample [(0, .acquire), (0, .start), (0, .abandon), (1, .acquire), (1, .start)] :=
  (concurrency_capped_iff {} .sample (by decide)).2.2 (by decide) _

/-- **One permit, two destinations**: the first upload times out while it is executing, and the second
one executes beside it. -/
theorem cap_exceeded : ∃ s, Reaches { uploadMaxConcurrency := 1 } .sample
    [(0, .acquire), (0, .start), (0, .abandon), (1, .acquire), (1, .start)] s ∧ s.executing = 2 :=
  ⟨⟨0, [.answered .timedOut true, .executing]⟩, ⟨_, rfl, rfl⟩, rfl⟩

/-! ## Every destination gets an answer -/

/-- The calls of `upload_all` are answered as the schedule says: the tasks are started, and `gather`
returns when they all have answered. -/
def Follows (settings : Settings) (event : TransferEvent) (es : List Event)
    (tr : List (Answered calls Exn)) : Prop :=
  ∀ c ∈ tr, (∃ path, c = ⟨.uploadStart event path, .ok ()⟩) ∨
    ∃ s outcomes, Reaches settings event es s ∧ s.answers = some outcomes ∧
      c = ⟨.uploadGather, .ok outcomes⟩

/-- The results answer for the destinations in their order: the provider is that of the destination, and
`ok` says whether the function returned in time. -/
def Aligned (event : TransferEvent) (es : List Event) (results : List UploadResult) : Prop :=
  results.length = event.destinations.val.length ∧
    ∀ i d r, event.destinations.val[i]? = some d → results[i]? = some r →
      r.provider = d.provider ∧ (r.ok = true ↔ (i, .finish .returned) ∈ es)

/-- **`upload_all` answers for every destination.** -/
structure AnswersEvery (settings : Settings) (event : TransferEvent) (path : Path) : Prop where
  /-- While a destination has no answer, something can happen. -/
  progress : ∀ es s, Reaches settings event es s → results event s = none →
    ∃ e s', Semaphore.step .timedOut s e = some s'
  /-- No schedule goes on forever. -/
  finite : ∀ es s, Reaches settings event es s → es.length ≤ 4 * event.destinations.val.length
  /-- It does not raise, and returns one result for each destination. -/
  returns : ∀ es tr r, (uploadAll settings event path).Makes tr r → Follows settings event es tr →
    ∃ results, r = .ok results ∧ Aligned event es results

/-- The result names the provider of its destination. -/
theorem uploadOne_provider (d : Destination) (o : Outcome) : (uploadOne d o).provider = d.provider := by
  cases o <;> rfl

/-- The results of a complete schedule answer for the destinations. -/
theorem aligned_of_reaches {outcomes : List Outcome} (hs : Reaches settings event es s)
    (hanswers : s.answers = some outcomes) :
    Aligned event es (List.zipWith uploadOne event.destinations.val outcomes) := by
  obtain ⟨-, hrun⟩ := reaches_iff.1 hs
  have hforall := Semaphore.answers_eq_some_iff.1 hanswers
  have hlength := length_of_reaches hs hanswers
  refine ⟨by rw [List.length_zipWith, hlength, Nat.min_self], ?_⟩
  intro i d r hd hr
  obtain ⟨d', o, hd', ho, rfl⟩ := List.getElem?_zipWith_eq_some.1 hr
  obtain rfl : d = d' := Option.some.inj (hd.symm.trans hd')
  refine ⟨uploadOne_provider d o, ?_⟩
  rw [uploadOne_ok]
  -- the answer of the task is the outcome of the function
  have hanswer : s.answer? i = some o := by
    obtain ⟨hi, rfl⟩ := List.getElem?_eq_some_iff.1 ho
    have hlt : i < s.tasks.length := hforall.length_eq ▸ hi
    have hphase := List.Forall₂.get hforall hlt hi
    rw [State.answer?, List.getElem?_eq_getElem hlt]
    exact hphase
  constructor
  · rintro rfl
    obtain hfinish | ⟨hlate, -⟩ := (Semaphore.run_answer hrun i _).1 hanswer
    · exact hfinish
    · cases hlate
  · intro hfinish
    have hreturned := (Semaphore.run_answer hrun i .returned).2 (.inl hfinish)
    exact Option.some.inj (hanswer.symm.trans hreturned)

/-- With a permit `upload_all` returns what the schedule gives. -/
theorem uploadAll_returns {tr : List (Answered calls Exn)} {r : Except Exn (List UploadResult)}
    (hn : 0 ≤ settings.uploadMaxConcurrency) (h : (uploadAll settings event path).Makes tr r)
    (htr : Follows settings event es tr) : ∃ results, r = .ok results ∧ Aligned event es results := by
  rw [uploadAll, if_neg (not_lt.2 hn)] at h
  rcases Program.makes_perform_bind h with ⟨_, tr₁, rfl, h₁⟩ | ⟨e, rfl, -⟩
  · rcases Program.makes_perform_bind h₁ with ⟨outcomes, tr₂, rfl, h₂⟩ | ⟨e, rfl, -⟩
    · obtain ⟨-, rfl⟩ := Program.makes_ret.1 h₂
      obtain ⟨path', hc⟩ | ⟨s, outcomes', hs, hanswers, hc⟩ :=
        htr ⟨.uploadGather, .ok outcomes⟩ (List.mem_cons_of_mem _ List.mem_cons_self)
      · cases hc
      · cases hc
        exact ⟨_, rfl, aligned_of_reaches hs hanswers⟩
    · obtain ⟨path', hc⟩ | ⟨s, outcomes', -, -, hc⟩ :=
        htr ⟨.uploadGather, .error e⟩ (List.mem_cons_of_mem _ List.mem_cons_self)
      · cases hc
      · cases hc
  · obtain ⟨path', hc⟩ | ⟨s, outcomes', -, -, hc⟩ :=
      htr ⟨.uploadStart event path, .error e⟩ List.mem_cons_self
    · cases hc
    · cases hc

/-- **When `upload_all` answers for every destination**: when there is a permit at all. -/
theorem answersEvery_iff (settings : Settings) (event : TransferEvent) (path : Path) :
    AnswersEvery settings event path ↔ 1 ≤ settings.uploadMaxConcurrency := by
  constructor
  · intro h
    rcases lt_trichotomy settings.uploadMaxConcurrency 0 with hneg | hzero | hpos
    · -- the semaphore is refused
      obtain ⟨results, hr, -⟩ := h.returns [] [] (.error _)
        (by rw [uploadAll, if_pos hneg]; exact .raise) (by simp [Follows])
      cases hr
    · -- nobody can take a permit
      have hs : Reaches settings event [] (.initial 0 event.destinations.val.length) :=
        reaches_iff.2 ⟨hzero.ge, by rw [hzero]; rfl⟩
      have hopen : results event (.initial 0 event.destinations.val.length) = none := by
        rw [results, initial_answers]
        rfl
      obtain ⟨e, s', hstep⟩ := h.progress _ _ hs hopen
      rw [Semaphore.step_initial_zero] at hstep
      cases hstep
    · exact hpos
  · intro hn
    have hpos : 0 ≤ settings.uploadMaxConcurrency := by omega
    refine ⟨?_, ?_, fun es tr r h htr => uploadAll_returns hpos h htr⟩
    · intro es s hs hopen
      refine Semaphore.exists_step (by omega) (reaches_iff.1 hs).2 ?_
      rw [results, Option.map_eq_none_iff] at hopen
      exact hopen
    · intro es s hs
      exact Semaphore.run_length_le (reaches_iff.1 hs).2

/-- **No permit**: `UPLOAD_MAX_CONCURRENCY=0` makes a semaphore that nobody can take; no destination has
an answer and nothing can happen. A negative value makes `upload_all` raise. -/
theorem no_permit_stuck :
    (∃ s, Reaches { uploadMaxConcurrency := 0 } .sample [] s ∧ results .sample s = none ∧
      ∀ e, Semaphore.step .timedOut s e = none) ∧
    (uploadAll { uploadMaxConcurrency := -1 } .sample ⟨#[]⟩).Makes []
      (.error (.value "Semaphore initial value must be >= 0")) :=
  ⟨⟨_, ⟨_, rfl, rfl⟩, rfl, Semaphore.step_initial_zero _ _⟩, .raise⟩

end Uploads

end TransferWorker
