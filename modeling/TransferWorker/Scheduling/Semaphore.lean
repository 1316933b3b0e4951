import Mathlib.Data.List.Forall2
import Mathlib.Data.List.Induction

/-! # Tasks behind a semaphore

Tasks that wait for a permit of a counting semaphore, have a thread do some work, and give the permit
back when they have an answer. A task need not wait for its thread: when it gives up it answers at
once, and the thread goes on without a permit.

* **`step`** — one event of the scheduler; `step_cases` says all that it can do.
* **`run_conserved`** — permits are neither lost nor made.
* **`run_executing_le`** — the threads at work: never more than the permits and the threads left behind.
* **`exists_step`** — while a task has no answer and the semaphore has a permit, something can happen. -/

namespace Semaphore

variable {ρ : Type}

/-- How far a task is. -/
inductive Phase (ρ : Type) where
  /-- It waits for a permit. -/
  | waiting
  /-- It holds a permit; no thread has started its work. -/
  | admitted
  /-- It holds a permit and waits for the thread that does its work. -/
  | executing
  /-- It has its answer; a thread that it left behind may still be at work. -/
  | answered (answer : ρ) (leftBehind : Bool)
deriving DecidableEq

namespace Phase

/-- The task is waiting for a permit. -/
def isWaiting : Phase ρ → Bool
  | .waiting => true
  | _ => false

/-- The task holds a permit. -/
def holds : Phase ρ → Bool
  | .admitted => true
  | .executing => true
  | _ => false

/-- A thread is at work for the task. -/
def executes : Phase ρ → Bool
  | .executing => true
  | .answered _ leftBehind => leftBehind
  | _ => false

/-- A thread is at work that the task no longer waits for. -/
def leavesBehind : Phase ρ → Bool
  | .answered _ leftBehind => leftBehind
  | _ => false

/-- The answer. -/
def answer? : Phase ρ → Option ρ
  | .answered a _ => some a
  | _ => none

end Phase

/-- What happens to a task. -/
inductive Action (ρ : Type) where
  /-- It takes a permit. -/
  | acquire
  /-- A thread starts its work. -/
  | start
  /-- The thread ends with an answer while the task waits for it. -/
  | finish (answer : ρ)
  /-- The task gives up before a thread has started; none will. -/
  | withdraw
  /-- The task gives up while the thread is at work. -/
  | abandon
  /-- The thread that was left behind ends. -/
  | expire
deriving DecidableEq

/-- **The state**: the free permits, and the tasks in the order in which they queue. -/
structure State (ρ : Type) where
  /-- The value of the semaphore. -/
  permits : Nat
  /-- The tasks. -/
  tasks : List (Phase ρ)
deriving DecidableEq

/-- The phase after an action, with the answer of a task that gives up. -/
def Phase.next (givenUp : ρ) : Action ρ → Phase ρ → Option (Phase ρ)
  | .acquire, .waiting => some .admitted
  | .start, .admitted => some .executing
  | .finish a, .executing => some (.answered a false)
  | .withdraw, .admitted => some (.answered givenUp false)
  | .abandon, .executing => some (.answered givenUp true)
  | .expire, .answered a true => some (.answered a false)
  | _, _ => none

/-- The permits after an action: `acquire` takes one, and an answer gives one back. -/
def permitsAfter : Action ρ → Nat → Option Nat
  | .acquire, 0 => none
  | .acquire, n + 1 => some n
  | .finish _, n => some (n + 1)
  | .withdraw, n => some (n + 1)
  | .abandon, n => some (n + 1)
  | _, n => some n

/-- The turn of a task: permits go to the waiting tasks in their order. -/
def inTurn (tasks : List (Phase ρ)) (i : Nat) : Action ρ → Bool
  | .acquire => (tasks.take i).all fun p => !p.isWaiting
  | _ => true

/-- **One event**: an action of one task. -/
def step (givenUp : ρ) (s : State ρ) (e : Nat × Action ρ) : Option (State ρ) := do
  let p ← s.tasks[e.1]?
  let p' ← p.next givenUp e.2
  let n ← permitsAfter e.2 s.permits
  if inTurn s.tasks e.1 e.2 then return ⟨n, s.tasks.set e.1 p'⟩ else none

/-- A schedule: the events one after another. -/
def run (givenUp : ρ) (s : State ρ) (es : List (Nat × Action ρ)) : Option (State ρ) :=
  es.foldlM (step givenUp) s

/-- Nothing has happened yet to so many tasks. -/
def State.initial (permits count : Nat) : State ρ := ⟨permits, List.replicate count .waiting⟩

/-- How many permits are taken. -/
def State.held (s : State ρ) : Nat := s.tasks.countP Phase.holds

/-- How many threads are at work. -/
def State.executing (s : State ρ) : Nat := s.tasks.countP Phase.executes

/-- How many of them were left behind. -/
def State.leftBehind (s : State ρ) : Nat := s.tasks.countP Phase.leavesBehind

/-- The answers, when all tasks have one. -/
def State.answers (s : State ρ) : Option (List ρ) := s.tasks.mapM Phase.answer?

variable {givenUp : ρ} {s s' : State ρ} {e : Nat × Action ρ} {es : List (Nat × Action ρ)}

/-! ## What an event can do -/

/-- **All that an event can do**: one task takes its turn. -/
theorem step_cases (h : step givenUp s e = some s') : ∃ p p', s.tasks[e.1]? = some p ∧
    p.next givenUp e.2 = some p' ∧ permitsAfter e.2 s.permits = some s'.permits ∧
    inTurn s.tasks e.1 e.2 = true ∧ s'.tasks = s.tasks.set e.1 p' := by
  simp only [step, Option.bind_eq_bind, Option.bind_eq_some_iff] at h
  obtain ⟨p, hp, p', hp', n, hn, h⟩ := h
  by_cases hturn : inTurn s.tasks e.1 e.2 = true
  · rw [if_pos hturn] at h
    obtain rfl := Option.some.inj h
    exact ⟨p, p', hp, hp', hn, hturn, rfl⟩
  · rw [if_neg hturn] at h
    cases h

/-- A step that can be made. -/
theorem step_eq {p q : Phase ρ} {n : Nat} (hp : s.tasks[e.1]? = some p)
    (hnext : p.next givenUp e.2 = some q) (hn : permitsAfter e.2 s.permits = some n)
    (hturn : inTurn s.tasks e.1 e.2 = true) :
    step givenUp s e = some ⟨n, s.tasks.set e.1 q⟩ := by
  simp [step, hp, hnext, hn, hturn]

/-- Nothing happens. -/
theorem run_nil : run givenUp s [] = some s := rfl

/-- The first action, and the rest. -/
theorem run_cons : run givenUp s (e :: es) = (step givenUp s e).bind fun s' => run givenUp s' es := rfl

/-- A schedule that ends with an event. -/
theorem run_append {es' : List (Nat × Action ρ)} :
    run givenUp s (es ++ es') = (run givenUp s es).bind fun s' => run givenUp s' es' :=
  List.foldlM_append

/-- **The induction over schedules**, event by event from the start. -/
theorem run_induction {motive : List (Nat × Action ρ) → State ρ → Prop} (hnil : motive [] s)
    (hstep : ∀ es u e u', run givenUp s es = some u → motive es u → step givenUp u e = some u' →
      motive (es ++ [e]) u') (h : run givenUp s es = some s') : motive es s' := by
  induction es using List.reverseRecOn generalizing s' with
  | nil =>
      obtain rfl := Option.some.inj h
      exact hnil
  | append_singleton es e ih =>
      rw [run_append, Option.bind_eq_some_iff] at h
      obtain ⟨u, hu, hlast⟩ := h
      rw [run_cons, Option.bind_eq_some_iff] at hlast
      obtain ⟨u', hu', hend⟩ := hlast
      obtain rfl := Option.some.inj hend
      exact hstep es u e u' hu (ih hu) hu'

/-- The number of tasks stays the same. -/
theorem length_step (h : step givenUp s e = some s') : s'.tasks.length = s.tasks.length := by
  obtain ⟨p, p', -, -, -, -, htasks⟩ := step_cases h
  rw [htasks, List.length_set]

/-- A run has as many tasks at its end as at its start. -/
theorem length_run (h : run givenUp s es = some s') : s'.tasks.length = s.tasks.length := by
  refine run_induction (motive := fun _ u => u.tasks.length = s.tasks.length) rfl ?_ h
  intro es u e u' _ ih hstep
  rw [length_step hstep, ih]

/-! ## Permits and threads -/

/-- A count over the tasks after one of them has changed. -/
theorem countP_set_add {tasks : List (Phase ρ)} {i : Nat} {p q : Phase ρ} (f : Phase ρ → Bool)
    (h : tasks[i]? = some p) :
    (tasks.set i q).countP f + (f p).toNat = tasks.countP f + (f q).toNat := by
  obtain ⟨hi, hp⟩ := List.getElem?_eq_some_iff.1 h
  have hle : (f p).toNat ≤ tasks.countP f := by
    cases hf : f p with
    | false => exact Nat.zero_le _
    | true => exact List.countP_pos_iff.2 ⟨p, List.mem_of_getElem? h, hf⟩
  rw [List.countP_set hi, hp]
  cases hf : f p <;> cases hf' : f q <;> simp only [hf, Bool.toNat_true, Bool.toNat_false] at hle ⊢ <;>
    simp <;> omega

/-- An action moves a permit between the semaphore and its task. -/
theorem permitsAfter_holds {a : Action ρ} {p p' : Phase ρ} {n n' : Nat} (hp : p.next givenUp a = some p')
    (hn : permitsAfter a n = some n') : n' + p'.holds.toNat = n + p.holds.toNat := by
  cases a <;> cases p <;> simp only [Phase.next] at hp <;> try cases hp
  case acquire.waiting =>
    cases n with
    | zero => cases hn
    | succ n =>
        cases hn
        rfl
  case expire.answered a leftBehind =>
    cases leftBehind with
    | false => cases hp
    | true =>
        cases hp
        cases hn
        rfl
  all_goals
    cases hn
    rfl

/-- One event neither loses nor makes a permit. -/
theorem step_conserved (h : step givenUp s e = some s') : s'.permits + s'.held = s.permits + s.held := by
  obtain ⟨p, p', hp, hnext, hpermits, -, htasks⟩ := step_cases h
  have hcount := countP_set_add (q := p') Phase.holds hp
  have hmoved := permitsAfter_holds hnext hpermits
  rw [State.held, State.held, htasks]
  omega

/-- **Permits are neither lost nor made.** -/
theorem run_conserved (h : run givenUp s es = some s') : s'.permits + s'.held = s.permits + s.held := by
  refine run_induction (motive := fun _ u => u.permits + u.held = s.permits + s.held) rfl ?_ h
  intro es u e u' _ ih hstep
  rw [step_conserved hstep, ih]

/-- A thread at work belongs to a task that holds a permit, or it was left behind. -/
theorem executing_le (s : State ρ) : s.executing ≤ s.held + s.leftBehind := by
  obtain ⟨permits, tasks⟩ := s
  show tasks.countP Phase.executes ≤ tasks.countP Phase.holds + tasks.countP Phase.leavesBehind
  induction tasks with
  | nil => exact Nat.zero_le _
  | cons p tasks ih =>
      rw [List.countP_cons, List.countP_cons, List.countP_cons]
      have hone : (if p.executes = true then 1 else 0) ≤
          (if p.holds = true then 1 else 0) + if p.leavesBehind = true then 1 else 0 := by
        cases p with
        | answered a leftBehind =>
            cases leftBehind <;> simp [Phase.executes, Phase.holds, Phase.leavesBehind]
        | waiting => simp [Phase.executes]
        | admitted => simp [Phase.executes]
        | executing => simp [Phase.executes, Phase.holds]
      omega

/-- No task holds a permit at the start. -/
@[simp] theorem held_initial (n count : Nat) : (State.initial n count : State ρ).held = 0 := by
  simp [State.held, State.initial, List.countP_replicate, Phase.holds]

/-- No thread is left behind at the start. -/
@[simp] theorem leftBehind_initial (n count : Nat) : (State.initial n count : State ρ).leftBehind = 0 := by
  simp [State.leftBehind, State.initial, List.countP_replicate, Phase.leavesBehind]

/-- **The threads at work** are at most the permits and the threads that were left behind. -/
theorem run_executing_le {n count : Nat} (h : run givenUp (State.initial n count) es = some s) :
    s.executing ≤ n + s.leftBehind := by
  have hconserved := run_conserved h
  have hle := executing_le s
  rw [held_initial] at hconserved
  have hn : (State.initial n count : State ρ).permits = n := rfl
  omega

/-- They are at most the tasks. -/
theorem run_executing_le_count {n count : Nat} (h : run givenUp (State.initial n count) es = some s) :
    s.executing ≤ count := by
  have hlength := length_run h
  have hcount : (State.initial n count : State ρ).tasks.length = count := List.length_replicate
  have hle : s.executing ≤ s.tasks.length := List.countP_le_length
  omega

/-- Only an abandoned task leaves a thread behind. -/
theorem step_leftBehind_le (h : step givenUp s e = some s') (ha : e.2 ≠ .abandon) :
    s'.leftBehind ≤ s.leftBehind := by
  obtain ⟨p, p', hp, hnext, -, -, htasks⟩ := step_cases h
  have hcount := countP_set_add (q := p') Phase.leavesBehind hp
  have hphase : p'.leavesBehind.toNat ≤ p.leavesBehind.toNat := by
    obtain ⟨i, a⟩ := e
    cases a <;> cases p <;> simp only [Phase.next] at hnext <;> try cases hnext
    case abandon.executing => exact absurd rfl ha
    case expire.answered a leftBehind =>
      cases leftBehind with
      | false => cases hnext
      | true =>
          cases hnext
          exact Nat.zero_le _
    all_goals exact Nat.le_refl _
  rw [State.leftBehind, State.leftBehind, htasks]
  omega

/-- Without an abandoned task no thread is left behind. -/
theorem run_leftBehind {n count : Nat} (h : run givenUp (State.initial n count) es = some s)
    (ha : ∀ e ∈ es, e.2 ≠ .abandon) : s.leftBehind = 0 := by
  refine run_induction (motive := fun es u => (∀ e ∈ es, e.2 ≠ .abandon) → u.leftBehind = 0)
    (fun _ => leftBehind_initial n count) ?_ h ha
  intro es u e u' _ ih hstep hall
  have hbefore := ih fun e he => hall e (List.mem_append_left _ he)
  have hle := step_leftBehind_le hstep (hall e (List.mem_append_right _ List.mem_cons_self))
  omega

/-! ## Schedules that exceed the permits -/

/-- The schedule in which the first tasks take a permit each and start. -/
def fill (k : Nat) : List (Nat × Action ρ) := (List.range k).flatMap fun i => [(i, .acquire), (i, .start)]

/-- After it the first tasks execute, and the others wait. -/
theorem run_fill {n count k : Nat} (hn : k ≤ n) (hcount : k ≤ count) :
    run givenUp (State.initial n count) (fill k) =
      some ⟨n - k, List.replicate k .executing ++ List.replicate (count - k) .waiting⟩ := by
  induction k with
  | zero => simp [fill, run_nil, State.initial]
  | succ k ih =>
      have hfill : (fill (k + 1) : List (Nat × Action ρ)) = fill k ++ [(k, .acquire), (k, .start)] := by
        simp [fill, List.range_succ]
      rw [hfill, run_append, ih (by omega) (by omega), Option.bind_some]
      obtain ⟨m, hm⟩ : ∃ m, n - k = m + 1 := ⟨n - k - 1, by omega⟩
      obtain ⟨c, hc⟩ : ∃ c, count - k = c + 1 := ⟨count - k - 1, by omega⟩
      have hset : ∀ p q : Phase ρ,
          (List.replicate k Phase.executing ++ p :: List.replicate c .waiting).set k q =
            List.replicate k .executing ++ q :: List.replicate c .waiting := by
        intro p q
        rw [List.set_append_right _ _ (by simp)]
        simp
      have hget : ∀ p : Phase ρ,
          (List.replicate k Phase.executing ++ p :: List.replicate c .waiting)[k]? = some p := by
        intro p
        rw [List.getElem?_append_right (by simp)]
        simp
      rw [hm, hc, List.replicate_succ, run_cons,
        step_eq (hget _) rfl rfl (by simp [inTurn, Phase.isWaiting]), Option.bind_some,
        hset, run_cons, step_eq (hget _) rfl rfl rfl, Option.bind_some, hset, run_nil]
      rw [List.replicate_succ', List.append_assoc, show n - (k + 1) = m by omega,
        show count - (k + 1) = c by omega]
      rfl

/-- Then the first task abandons its thread, and the next one starts too. -/
def overfill (n : Nat) : List (Nat × Action ρ) :=
  fill n ++ [(0, .abandon), (n, .acquire), (n, .start)]

/-- **One abandoned thread is enough**: if there are more tasks than permits, as many threads as there
are permits and one more can be at work. -/
theorem exists_overfill (givenUp : ρ) {n count : Nat} (hn : 1 ≤ n) (hcount : n < count) :
    ∃ s, run givenUp (State.initial n count) (overfill n) = some s ∧ s.executing = n + 1 := by
  obtain ⟨k, rfl⟩ : ∃ k, n = k + 1 := ⟨n - 1, by omega⟩
  obtain ⟨c, hc⟩ : ∃ c, count - (k + 1) = c + 1 := ⟨count - (k + 1) - 1, by omega⟩
  let left : Phase ρ := .answered givenUp true
  have hget : ∀ p : Phase ρ, (left :: (List.replicate k .executing ++
      p :: List.replicate c .waiting))[k + 1]? = some p := by
    intro p
    rw [List.getElem?_cons_succ, List.getElem?_append_right (by simp)]
    simp
  have hset : ∀ p p' : Phase ρ, (left :: (List.replicate k .executing ++
      p :: List.replicate c .waiting)).set (k + 1) p' =
        left :: (List.replicate k .executing ++ p' :: List.replicate c .waiting) := by
    intro p p'
    rw [List.set_cons_succ, List.set_append_right _ _ (by simp)]
    simp
  refine ⟨⟨0, left :: (List.replicate k .executing ++ .executing :: List.replicate c .waiting)⟩, ?_, ?_⟩
  · rw [overfill, run_append, run_fill (Nat.le_refl _) (by omega), Option.bind_some, Nat.sub_self, hc,
      List.replicate_succ, List.replicate_succ, List.cons_append, run_cons,
      step_eq (q := left) (n := 1) rfl rfl rfl rfl, Option.bind_some, List.set_cons_zero, run_cons,
      step_eq (hget _) rfl rfl (by simp [inTurn, left, Phase.isWaiting]),
      Option.bind_some, hset, run_cons, step_eq (hget _) rfl rfl rfl, Option.bind_some, hset, run_nil]
  · simp [State.executing, left, Phase.executes, List.countP_cons, List.countP_append, List.countP_replicate]

/-! ## Answers -/

/-- The answer of a task. -/
def State.answer? (s : State ρ) (i : Nat) : Option ρ := s.tasks[i]?.bind Phase.answer?

/-- The answers are those of the tasks, in their order. -/
theorem answers_eq_some_iff {as : List ρ} : s.answers = some as ↔
    List.Forall₂ (fun p a => p.answer? = some a) s.tasks as := by
  rw [State.answers]
  generalize s.tasks = tasks
  induction tasks generalizing as with
  | nil =>
      rw [List.forall₂_nil_left_iff]
      exact ⟨fun h => (Option.some.inj h).symm, fun h => h ▸ rfl⟩
  | cons p tasks ih =>
      rw [List.mapM_cons, List.forall₂_cons_left_iff]
      simp only [Option.bind_eq_bind, Option.bind_eq_some_iff, Option.pure_def, Option.some.injEq]
      constructor
      · rintro ⟨a, ha, as', has', rfl⟩
        exact ⟨a, as', ha, ih.1 has', rfl⟩
      · rintro ⟨a, as', ha, has', rfl⟩
        exact ⟨a, ha, as', ih.2 has', rfl⟩

/-- They are missing while a task has none. -/
theorem answers_eq_none (h : s.answers = none) : ∃ p ∈ s.tasks, p.answer? = none := by
  by_contra hall
  have hsome : ∀ p ∈ s.tasks, ∃ a, p.answer? = some a := by
    intro p hp
    cases hanswer : p.answer? with
    | none => exact absurd ⟨p, hp, hanswer⟩ hall
    | some a => exact ⟨a, rfl⟩
  obtain ⟨as, has⟩ : ∃ as, List.Forall₂ (fun (p : Phase ρ) a => p.answer? = some a) s.tasks as := by
    generalize s.tasks = tasks at hsome
    induction tasks with
    | nil => exact ⟨[], .nil⟩
    | cons p tasks ih =>
        obtain ⟨a, ha⟩ := hsome p List.mem_cons_self
        obtain ⟨as, has⟩ := ih fun q hq => hsome q (List.mem_cons_of_mem p hq)
        exact ⟨a :: as, .cons ha has⟩
  rw [answers_eq_some_iff.2 has] at h
  cases h

/-- **Who has an answer after an event**: who had it, and the task that finished with it or gave up. -/
theorem step_answer (h : step givenUp s e = some s') (i : Nat) (a : ρ) : s'.answer? i = some a ↔
    s.answer? i = some a ∨ e = (i, .finish a) ∨
      a = givenUp ∧ (e = (i, .withdraw) ∨ e = (i, .abandon)) := by
  obtain ⟨j, act⟩ := e
  obtain ⟨p, p', hp, hnext, -, -, htasks⟩ := step_cases h
  by_cases hij : j = i
  · subst hij
    have hlt : j < s.tasks.length := (List.getElem?_eq_some_iff.1 hp).1
    have hbefore : s.answer? j = p.answer? := by rw [State.answer?, hp, Option.bind_some]
    have hafter : s'.answer? j = p'.answer? := by
      rw [State.answer?, htasks, List.getElem?_set_self hlt, Option.bind_some]
    rw [hbefore, hafter]
    cases act <;> cases p <;> simp only [Phase.next] at hnext <;> try cases hnext
    case expire.answered b leftBehind =>
      cases leftBehind with
      | false => cases hnext
      | true =>
          cases hnext
          simp [Phase.answer?]
    all_goals simp [Phase.answer?, eq_comm]
  · have hsame : s'.answer? i = s.answer? i := by
      rw [State.answer?, htasks, List.getElem?_set_ne hij, State.answer?]
    rw [hsame]
    simp [hij]

/-- **Who has an answer after a schedule**: the tasks that finished, with their answer, and those that
gave up. -/
theorem run_answer {n count : Nat} (h : run givenUp (State.initial n count) es = some s) (i : Nat) (a : ρ) :
    s.answer? i = some a ↔
      (i, .finish a) ∈ es ∨ a = givenUp ∧ ((i, .withdraw) ∈ es ∨ (i, .abandon) ∈ es) := by
  refine run_induction (motive := fun es u => u.answer? i = some a ↔
    (i, .finish a) ∈ es ∨ a = givenUp ∧ ((i, .withdraw) ∈ es ∨ (i, .abandon) ∈ es)) ?_ ?_ h
  · have hnone : (State.initial n count : State ρ).answer? i = none := by
      by_cases hi : i < count <;> simp [State.answer?, State.initial, hi, Phase.answer?]
    simp [hnone]
  · intro es u e u' _ ih hstep
    rw [step_answer hstep, ih]
    simp only [List.mem_append, List.mem_singleton]
    constructor
    · rintro ((hfinish | ⟨ha, hup⟩) | hlast | ⟨ha, hlast⟩)
      · exact .inl (.inl hfinish)
      · exact .inr ⟨ha, hup.imp .inl .inl⟩
      · exact .inl (.inr hlast.symm)
      · exact .inr ⟨ha, hlast.imp (fun h => .inr h.symm) fun h => .inr h.symm⟩
    · rintro ((hfinish | hlast) | ⟨ha, (hup | hlast) | hup | hlast⟩)
      · exact .inl (.inl hfinish)
      · exact .inr (.inl hlast.symm)
      · exact .inl (.inr ⟨ha, .inl hup⟩)
      · exact .inr (.inr ⟨ha, .inl hlast.symm⟩)
      · exact .inl (.inr ⟨ha, .inr hup⟩)
      · exact .inr (.inr ⟨ha, .inr hlast.symm⟩)

/-- The schedule in which the tasks work one after another, from the task `i` on. -/
def oneByOne : Nat → List ρ → List (Nat × Action ρ)
  | _, [] => []
  | i, a :: as => (i, .acquire) :: (i, .start) :: (i, .finish a) :: oneByOne (i + 1) as

/-- The tasks take their permit one after the other, and each answers. -/
theorem run_oneByOne {n : Nat} (as : List ρ) (done : List (Phase ρ))
    (hdone : ∀ p ∈ done, p.isWaiting = false) :
    run givenUp ⟨n + 1, done ++ List.replicate as.length .waiting⟩ (oneByOne done.length as) =
      some ⟨n + 1, done ++ as.map (.answered · false)⟩ := by
  induction as generalizing done with
  | nil => rfl
  | cons a as ih =>
      -- the tasks before this one are done, so it stands at the head of what is left
      have hget : ∀ p : Phase ρ,
          (done ++ p :: List.replicate as.length .waiting)[done.length]? = some p := by
        intro p
        rw [List.getElem?_append_right (Nat.le_refl _), Nat.sub_self]
        rfl
      have hset : ∀ p q : Phase ρ, (done ++ p :: List.replicate as.length .waiting).set done.length q =
          done ++ q :: List.replicate as.length .waiting := by
        intro p q
        rw [List.set_append_right _ _ (Nat.le_refl _), Nat.sub_self, List.set_cons_zero]
      have hturn : inTurn (done ++ .waiting :: List.replicate as.length .waiting) done.length
          (.acquire : Action ρ) = true := by
        rw [inTurn, List.take_left', List.all_eq_true]
        · intro p hp
          rw [hdone p hp]
          rfl
        · rfl
      -- it acquires, starts and answers, and its permit is free for the next
      rw [List.length_cons, List.replicate_succ, oneByOne, run_cons, step_eq (hget _) rfl rfl hturn,
        Option.bind_some, hset, run_cons, step_eq (hget _) rfl rfl rfl, Option.bind_some, hset, run_cons,
        step_eq (hget _) rfl rfl rfl, Option.bind_some, hset]
      have hrest := ih (done ++ [.answered a false]) (by
        intro p hp
        rcases List.mem_append.1 hp with hp | hp
        · exact hdone p hp
        · rw [List.mem_singleton.1 hp]
          rfl)
      rw [List.length_append, List.length_singleton, List.append_assoc, List.append_assoc] at hrest
      exact hrest

/-- **All answers are possible**: with a permit, every list of answers is that of some schedule. -/
theorem exists_run_answers (givenUp : ρ) {n : Nat} (hn : 1 ≤ n) (as : List ρ) :
    ∃ es s, run givenUp (State.initial n as.length) es = some s ∧ s.answers = some as := by
  obtain ⟨m, rfl⟩ : ∃ m, n = m + 1 := ⟨n - 1, by omega⟩
  refine ⟨_, _, run_oneByOne as [] (by simp), ?_⟩
  rw [answers_eq_some_iff, List.nil_append, List.forall₂_map_left_iff, List.forall₂_same]
  intro a _
  rfl

/-! ## Progress -/

/-- **Progress**: from every state of a schedule over at least one permit in which a task has no answer,
some event can happen. -/
theorem exists_step {n count : Nat} (hn : 1 ≤ n) (h : run givenUp (State.initial n count) es = some s)
    (hopen : s.answers = none) : ∃ e s', step givenUp s e = some s' := by
  obtain ⟨p, hp, hanswer⟩ := answers_eq_none hopen
  by_cases hheld : s.held = 0
  · -- all permits are free, and the task waits
    have hconserved := run_conserved h
    have hpermits : s.permits = n := by
      rw [held_initial, hheld] at hconserved
      exact hconserved
    obtain ⟨m, hm⟩ : ∃ m, s.permits = m + 1 := ⟨s.permits - 1, by omega⟩
    have hwaiting : p.isWaiting = true := by
      have hfree := List.countP_eq_zero.1 hheld p hp
      cases p with
      | waiting => rfl
      | admitted => exact absurd rfl hfree
      | executing => exact absurd rfl hfree
      | answered a leftBehind => cases hanswer
    have hlt : s.tasks.findIdx Phase.isWaiting < s.tasks.length :=
      List.findIdx_lt_length_of_exists ⟨p, hp, hwaiting⟩
    have hfirst : s.tasks[s.tasks.findIdx Phase.isWaiting]? = some .waiting := by
      have hget := List.findIdx_getElem (w := hlt)
      rw [List.getElem?_eq_getElem hlt]
      cases hphase : s.tasks[s.tasks.findIdx Phase.isWaiting] with
      | waiting => rfl
      | admitted => rw [hphase] at hget; cases hget
      | executing => rw [hphase] at hget; cases hget
      | answered a leftBehind => rw [hphase] at hget; cases hget
    have hturn : inTurn s.tasks (s.tasks.findIdx Phase.isWaiting) (.acquire : Action ρ) = true := by
      rw [inTurn, List.all_eq_true]
      intro q hq
      obtain ⟨j, hj, rfl⟩ := List.mem_take_iff_getElem.1 hq
      have hnot := List.not_of_lt_findIdx (by omega : j < s.tasks.findIdx Phase.isWaiting)
      simpa using hnot
    exact ⟨(_, .acquire), _, step_eq hfirst rfl (by rw [hm]; rfl) hturn⟩
  · -- a task that holds a permit can give up
    obtain ⟨q, hq, hholds⟩ := List.countP_pos_iff.1 (Nat.pos_of_ne_zero hheld)
    obtain ⟨i, hi⟩ := List.getElem?_of_mem hq
    cases q with
    | waiting => cases hholds
    | admitted => exact ⟨(i, .withdraw), _, step_eq hi rfl rfl rfl⟩
    | executing => exact ⟨(i, .abandon), _, step_eq hi rfl rfl rfl⟩
    | answered a leftBehind => cases hholds

/-- Without a permit nothing can happen. -/
theorem step_initial_zero (givenUp : ρ) (count : Nat) (e : Nat × Action ρ) :
    step givenUp (State.initial 0 count) e = none := by
  cases h : step givenUp (State.initial 0 count) e with
  | none => rfl
  | some s' =>
      obtain ⟨i, a⟩ := e
      obtain ⟨p, p', hp, hnext, hpermits, -, -⟩ := step_cases h
      obtain rfl : p = .waiting := List.eq_of_mem_replicate (List.mem_of_getElem? hp)
      cases a with
      | acquire =>
          have hzero : permitsAfter (.acquire : Action ρ) 0 = some s'.permits := hpermits
          cases hzero
      | start => cases hnext
      | finish b => cases hnext
      | withdraw => cases hnext
      | abandon => cases hnext
      | expire => cases hnext

/-- How many events a task has still before it, at most. -/
def Phase.rank : Phase ρ → Nat
  | .waiting => 4
  | .admitted => 3
  | .executing => 2
  | .answered _ leftBehind => leftBehind.toNat

/-- How many events all tasks have still before them, at most. -/
def remaining : List (Phase ρ) → Nat
  | [] => 0
  | p :: tasks => p.rank + remaining tasks

/-- What is left to do for tasks in one phase. -/
theorem remaining_replicate (n : Nat) (p : Phase ρ) : remaining (List.replicate n p) = n * p.rank := by
  induction n with
  | zero => rw [Nat.zero_mul]; rfl
  | succ n ih => rw [List.replicate_succ, remaining, ih, Nat.succ_mul, Nat.add_comm]

/-- A task that moves changes what is left by its own part. -/
theorem remaining_set {tasks : List (Phase ρ)} {i : Nat} {p q : Phase ρ} (h : tasks[i]? = some p) :
    remaining (tasks.set i q) + p.rank = remaining tasks + q.rank := by
  induction tasks generalizing i with
  | nil => cases h
  | cons p' tasks ih =>
      cases i with
      | zero =>
          obtain rfl := Option.some.inj h
          simp only [List.set_cons_zero, remaining]
          omega
      | succ i =>
          have hrest := ih h
          simp only [List.set_cons_succ, remaining]
          omega

/-- **Every action leaves less to do.**. -/
theorem remaining_step (h : step givenUp s e = some s') : remaining s'.tasks < remaining s.tasks := by
  obtain ⟨p, p', hp, hnext, -, -, htasks⟩ := step_cases h
  have hset := remaining_set (q := p') hp
  have hrank : p'.rank < p.rank := by
    obtain ⟨i, a⟩ := e
    cases a <;> cases p <;> simp only [Phase.next] at hnext <;> try cases hnext
    case expire.answered b leftBehind =>
      cases leftBehind with
      | false => cases hnext
      | true =>
          cases hnext
          exact Nat.zero_lt_one
    all_goals simp [Phase.rank]
  rw [htasks]
  omega

/-- **Schedules are finite**: four events for each task at most. -/
theorem run_length_le {n count : Nat} (h : run givenUp (State.initial n count) es = some s) :
    es.length ≤ 4 * count := by
  have hless : es.length + remaining s.tasks ≤ 4 * count := by
    refine run_induction (motive := fun es u => es.length + remaining u.tasks ≤ 4 * count) ?_ ?_ h
    · simp [State.initial, remaining_replicate, Phase.rank, Nat.mul_comm]
    · intro es e u e' _ ih hstep
      have hstep := remaining_step hstep
      rw [List.length_append, List.length_singleton]
      omega
  omega

end Semaphore
