import Mathlib.Logic.Function.Basic
import TransferWorker.CallTrees.Execution

/-! # Pools: services that share a world

Several services run in one world, each in a thread of its own. To a thread, the calls of the others
are moves of the world. What these moves may be, the contracts of the others say: a thread is proved
safe against all calls that meet the guarantees of the other threads, and all threads together keep
their guarantees.

* **`Pool`** — the threads; `Pool.Step` lets one of them move, or the world, or restarts them all.
* **`Pool.view`** — the environment of one thread.
* **`Pool.phaseSafe_of_reachable`** — threads that are sound in their views are safe together.
* **`Pool.of_reachable_phase`** — what every step of a thread keeps of its phase.
* **`Pool.under`** — the runs of a pool all of whose steps meet a `Pool.Condition`. -/

namespace CallTrees

open Relation

variable {S : Signature} {ε W ι : Type} {σ : ι → Type}

/-- **A pool of threads** in a world; each thread may get answers of its own to a call. -/
structure Pool (S : Signature) (ε W : Type) {ι : Type} (σ : ι → Type) where
  /-- The threads' code. -/
  service : (i : ι) → Service S ε (σ i)
  /-- What a call of a thread may answer and leave. -/
  responds : ι → W → (op : S.Op) → Except ε (S.Res op) → W → Prop
  /-- The world's own moves. -/
  interfere : W → W → Prop
  /-- The process is killed and starts again. -/
  restart : W → W → Prop

namespace Pool

variable [DecidableEq ι] (P : Pool S ε W σ)

/-- A state of a pool: the world, and where each thread is. -/
abbrev State (_ : Pool S ε W σ) : Type := W × ((i : ι) → Phase S ε (σ i))

/-- All threads at their start. -/
def start : (i : ι) → Phase S ε (σ i) := fun i => .setup (P.service i).setup

/-- **One step of a pool.** -/
inductive Step : P.State → P.State → Prop
  /-- The world moves. -/
  | interfere {w w' : W} {φ : (i : ι) → Phase S ε (σ i)} (h : P.interfere w w') : Step (w, φ) (w', φ)
  /-- A thread moves. -/
  | thread {w w' : W} {φ : (i : ι) → Phase S ε (σ i)} (i : ι) {φ' : Phase S ε (σ i)}
      (h : (P.service i).Step (P.responds i) (w, φ i) (w', φ')) :
      Step (w, φ) (w', Function.update φ i φ')
  /-- All threads are killed and start again. -/
  | restart {w w' : W} {φ : (i : ι) → Phase S ε (σ i)} (h : P.restart w w') : Step (w, φ) (w', P.start)

/-- The states that a pool reaches from a start in a world that meets `init`. -/
def Reachable (init : W → Prop) (s : P.State) : Prop :=
  ∃ w₀, init w₀ ∧ ReflTransGen P.Step (w₀, P.start) s

/-- **The environment of one thread**: the world's own moves, and all calls of other threads that meet
their guarantees. -/
def view (C : ι → Contract S W) (i : ι) : Environment S ε W where
  responds := P.responds i
  interfere w w' := P.interfere w w' ∨
    ∃ j, j ≠ i ∧ ∃ op r, (C j).guar w op ∧ P.responds j w op r w'

variable {P} {C : ι → Contract S W} {Q : (i : ι) → Service.Posts ε (σ i) W} {init : W → Prop}

/-- Every thread is safe in its view. -/
def AllSafe (P : Pool S ε W σ) (C : ι → Contract S W) (Q : (i : ι) → Service.Posts ε (σ i) W)
    (s : P.State) : Prop :=
  ∀ i, Service.PhaseSafe (P.view C i) (C i) (Q i) (s.2 i) s.1

/-- **The step lemma**: a step of one thread keeps it safe, and is interference for the others. -/
theorem AllSafe.thread (hV : ∀ i, (P.service i).Sound (P.view C i) (C i) (Q i)) {w w' : W}
    {φ : (i : ι) → Phase S ε (σ i)} {i : ι} {φ' : Phase S ε (σ i)} (h : AllSafe P C Q (w, φ))
    (hs : (P.service i).Step (P.responds i) (w, φ i) (w', φ')) :
    AllSafe P C Q (w', Function.update φ i φ') := by
  intro j
  show Service.PhaseSafe (P.view C j) (C j) (Q j) (Function.update φ i φ' j) w'
  by_cases hj : j = i
  · subst hj
    rw [Function.update_self]
    exact (hV j).step (h j) hs
  · rw [Function.update_of_ne hj]
    cases hs with
    | call r hφ hr =>
        -- the call met the guarantee of its thread
        have hguar := ((h i).pending hφ).1
        exact (h j).drifts (.single (.inr ⟨i, Ne.symm hj, _, r, hguar, hr⟩))
    | silent hφ => exact h j

/-- **The run lemma.** -/
theorem phaseSafe_of_reachable (hV : ∀ i, (P.service i).Sound (P.view C i) (C i) (Q i))
    (hinit : ∀ w, init w → ∀ i, Safe (P.view C i) (C i) (Q i).setup (P.service i).setup w)
    (hrestart : ∀ w φ w', AllSafe P C Q (w, φ) → P.restart w w' →
      ∀ i, Safe (P.view C i) (C i) (Q i).setup (P.service i).setup w')
    {s : P.State} (hs : P.Reachable init s) : AllSafe P C Q s := by
  obtain ⟨w₀, hw₀, hrun⟩ := hs
  induction hrun with
  | refl => exact hinit w₀ hw₀
  | tail _ hstep ih =>
      cases hstep with
      | interfere h => exact fun i => (ih i).drifts (.single (.inl h))
      | thread i h => exact AllSafe.thread hV ih h
      | restart h => exact hrestart _ _ _ ih h

/-- **What every step of a thread keeps** is so of the thread in every reachable state. -/
theorem of_reachable_phase {i : ι} {A : Phase S ε (σ i) → Prop} {s : P.State}
    (hstart : A (.setup (P.service i).setup))
    (hstep : ∀ {w w' φ φ'}, A φ → (P.service i).Step (P.responds i) (w, φ) (w', φ') → A φ')
    (hs : P.Reachable init s) : A (s.2 i) := by
  obtain ⟨w₀, -, hrun⟩ := hs
  induction hrun with
  | refl => exact hstart
  | tail _ hlast ih =>
      cases hlast with
      | interfere h => exact ih
      | @thread w w' φ j φ' h =>
          show A (Function.update φ j φ' i)
          by_cases hj : i = j
          · subst hj
            rw [Function.update_self]
            exact hstep ih h
          · rw [Function.update_of_ne hj]
            exact ih
      | restart h => exact hstart

/-- In every reachable state what is left of a thread makes only the calls of its service. -/
theorem calls_of_reachable {G : S.Op → Prop} {i : ι} {s : P.State}
    (hV : (P.service i).Calls G) (hs : P.Reachable init s) : (s.2 i).Calls G :=
  of_reachable_phase (A := fun φ => φ.Calls G) hV.setup (fun h hstep => hV.step h hstep) hs

/-! ## Conditions -/

/-- A condition on the steps of a pool. -/
structure Condition (S : Signature) (ε W ι : Type) where
  /-- On the answers to the calls of a thread. -/
  call : ι → W → (op : S.Op) → Except ε (S.Res op) → Prop
  /-- On the world's own moves. -/
  move : W → W → Prop
  /-- On kills. -/
  restart : W → Prop

/-- Two conditions at once. -/
def Condition.and (K K' : Condition S ε W ι) : Condition S ε W ι where
  call i w op r := K.call i w op r ∧ K'.call i w op r
  move w w' := K.move w w' ∧ K'.move w w'
  restart w := K.restart w ∧ K'.restart w

/-- The runs of a pool all of whose steps meet a condition. -/
def under (P : Pool S ε W σ) (K : Condition S ε W ι) : Pool S ε W σ where
  service := P.service
  responds i w op r w' := P.responds i w op r w' ∧ K.call i w op r
  interfere w w' := P.interfere w w' ∧ K.move w w'
  restart w w' := P.restart w w' ∧ K.restart w

/-! ## Runs -/

/-- A run of the pool: finitely many steps. -/
abbrev Runs (P : Pool S ε W σ) : P.State → P.State → Prop := ReflTransGen P.Step

/-- What one thread sees of a run in which the others rest. -/
def alone (P : Pool S ε W σ) (i : ι) : Environment S ε W where
  responds := P.responds i
  interfere := P.interfere

variable {w w' : W} {φ : (i : ι) → Phase S ε (σ i)} {i : ι}

/-- An execution within one thread, while the others rest. -/
theorem runs_of_executes {α : Type} {F : Program S ε α → Phase S ε (σ i)}
    (hF : ∀ op k, (F (.call op k)).pending = some ⟨op, fun r => F (k r)⟩) {p : Program S ε α}
    {r : Except ε α} (hφ : φ i = F p) (h : Executes (P.alone i) p w r w') :
    P.Runs (w, φ) (w', Function.update φ i (F (.ofExcept r))) := by
  have hrun := h.run
    (R := fun s s' : W × Phase S ε (σ i) =>
      P.Step (s.1, Function.update φ i s.2) (s'.1, Function.update φ i s'.2))
    (fun _ hm => .interfere hm) (fun {v v' ψ op k} x hψ hx => by
      have hstep : P.Step (v, Function.update φ i ψ)
          (v', Function.update (Function.update φ i ψ) i (k x)) :=
        .thread i (.call x (by rw [Function.update_self]; exact hψ) hx)
      rw [Function.update_idem] at hstep
      exact hstep) hF
  have hlift : P.Runs (w, Function.update φ i (F p)) (w', Function.update φ i (F (.ofExcept r))) :=
    hrun.lift (fun s : W × Phase S ε (σ i) => (s.1, Function.update φ i s.2)) fun _ _ h => h
  rwa [← hφ, Function.update_eq_self] at hlift

/-- A silent move of one thread. -/
theorem step_silent {ψ : Phase S ε (σ i)} (h : (P.service i).advance (φ i) = some ψ) :
    P.Step (w, φ) (w, Function.update φ i ψ) := .thread i (.silent h)

/-- An execution within one thread and the silent move after it. -/
theorem runs_then_silent {α : Type} {F : Program S ε α → Phase S ε (σ i)}
    (hF : ∀ op k, (F (.call op k)).pending = some ⟨op, fun r => F (k r)⟩) {p : Program S ε α}
    {r : Except ε α} {ψ : Phase S ε (σ i)} (hφ : φ i = F p) (h : Executes (P.alone i) p w r w')
    (hψ : (P.service i).advance (F (.ofExcept r)) = some ψ) :
    P.Runs (w, φ) (w', Function.update φ i ψ) := by
  have hstep : P.Step (w', Function.update φ i (F (.ofExcept r)))
      (w', Function.update (Function.update φ i (F (.ofExcept r))) i ψ) :=
    step_silent (by rw [Function.update_self]; exact hψ)
  rw [Function.update_idem] at hstep
  exact (runs_of_executes hF hφ h).tail hstep

/-- The setup of a thread, up to its loop head. -/
theorem runs_setup {s : σ i} (hφ : φ i = .setup (P.service i).setup)
    (h : Executes (P.alone i) (P.service i).setup w (.ok s) w') :
    P.Runs (w, φ) (w', Function.update φ i (.head s)) :=
  runs_then_silent (F := .setup) (fun _ _ => rfl) hφ h rfl

/-- The setup of a thread that ends with an exception. -/
theorem runs_setup_error {e : ε} (hφ : φ i = .setup (P.service i).setup)
    (h : Executes (P.alone i) (P.service i).setup w (.error e) w') :
    P.Runs (w, φ) (w', Function.update φ i (.terminated (.error e))) :=
  runs_then_silent (F := .setup) (fun _ _ => rfl) hφ h rfl

/-- One call of a thread. -/
theorem runs_call {op : S.Op} {k : Except ε (S.Res op) → Phase S ε (σ i)} (r : Except ε (S.Res op))
    (hφ : (φ i).pending = some ⟨op, k⟩) (h : P.responds i w op r w') :
    P.Runs (w, φ) (w', Function.update φ i (k r)) :=
  .single (.thread i (.call r hφ h))

/-- The start of a turn. -/
theorem runs_enter {s : σ i} (hφ : φ i = .head s) :
    P.Runs (w, φ) (w, Function.update φ i (.turn s ((P.service i).turn s))) :=
  .single (step_silent (by rw [hφ]; rfl))

/-- One turn of a thread, however it ends. -/
theorem runs_turn_then {s : σ i} {r : Except ε (σ i ⊕ Unit)} {ψ : Phase S ε (σ i)} (hφ : φ i = .head s)
    (h : Executes (P.alone i) ((P.service i).turn s) w r w')
    (hψ : (P.service i).advance (.turn s (.ofExcept r)) = some ψ) :
    P.Runs (w, φ) (w', Function.update φ i ψ) := by
  have hrun : P.Runs (w, Function.update φ i (.turn s ((P.service i).turn s)))
      (w', Function.update (Function.update φ i (.turn s ((P.service i).turn s))) i ψ) :=
    runs_then_silent (F := .turn s) (fun _ _ => rfl) (Function.update_self ..) h hψ
  rw [Function.update_idem] at hrun
  exact (runs_enter hφ).trans hrun

/-- One turn of a thread. -/
theorem runs_turn {s s' : σ i} (hφ : φ i = .head s)
    (h : Executes (P.alone i) ((P.service i).turn s) w (.ok (.inl s')) w') :
    P.Runs (w, φ) (w', Function.update φ i (.head s')) := runs_turn_then hφ h rfl

/-- A turn that raises, and what follows the loop. -/
theorem runs_turn_error {s : σ i} {e : ε} (hφ : φ i = .head s)
    (h : Executes (P.alone i) ((P.service i).turn s) w (.error e) w') :
    P.Runs (w, φ) (w', Function.update φ i (.finish ((P.service i).finish s (.error e)))) :=
  runs_turn_then hφ h rfl

/-- The end of a thread. -/
theorem runs_finish {p : Program S ε Unit} {r : Except ε Unit} (hφ : φ i = .finish p)
    (h : Executes (P.alone i) p w r w') :
    P.Runs (w, φ) (w', Function.update φ i (.terminated r)) :=
  runs_then_silent (F := .finish) (fun _ _ => rfl) hφ h (by cases r <;> rfl)

/-- A step under a condition is a step. -/
theorem step_of_under {K : Condition S ε W ι} {s s' : W × ((i : ι) → Phase S ε (σ i))}
    (h : Step (P.under K) s s') : Step P s s' := by
  cases h with
  | interfere h => exact .interfere h.1
  | thread i h =>
      refine .thread i ?_
      cases h with
      | call r hφ hr => exact .call r hφ hr.1
      | silent hφ => exact .silent hφ
  | restart h => exact .restart h.1

/-- What a condition means for the steps of a pool: one is as strict as another. -/
structure Condition.Le (P : Pool S ε W σ) (K K' : Condition S ε W ι) : Prop where
  /-- On the calls. -/
  call : ∀ i w op r, K.call i w op r → K'.call i w op r
  /-- On the moves. -/
  move : ∀ w w', P.interfere w w' → K.move w w' → K'.move w w'
  /-- On the kills. -/
  restart : ∀ w, K.restart w → K'.restart w

/-- A step under a condition is one under a condition that is less strict. -/
theorem step_under_mono {K K' : Condition S ε W ι} (hK : K.Le P K')
    {s s' : W × ((i : ι) → Phase S ε (σ i))} (h : Step (P.under K) s s') : Step (P.under K') s s' := by
  cases h with
  | interfere h => exact .interfere ⟨h.1, hK.move _ _ h.1 h.2⟩
  | thread i h =>
      refine .thread i ?_
      cases h with
      | call r hφ hr => exact .call r hφ ⟨hr.1, hK.call _ _ _ _ hr.2⟩
      | silent hφ => exact .silent hφ
  | restart h => exact .restart ⟨h.1, hK.restart _ h.2⟩

/-- So are the reachable states. -/
theorem reachable_under_mono {K K' : Condition S ε W ι} (hK : K.Le P K') {s : P.State}
    (h : (P.under K).Reachable init s) : (P.under K').Reachable init s := by
  obtain ⟨w₀, hw₀, hrun⟩ := h
  exact ⟨w₀, hw₀, hrun.lift id fun _ _ => step_under_mono hK⟩

/-- A run under a condition is a run. -/
theorem runs_of_under {K : Condition S ε W ι} {s s' : W × ((i : ι) → Phase S ε (σ i))}
    (h : Runs (P.under K) s s') : Runs P s s' := by
  induction h with
  | refl => exact .refl
  | tail _ hstep ih => exact ih.tail (step_of_under hstep)

end Pool

end CallTrees
