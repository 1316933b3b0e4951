import TransferWorker.CallTrees.Interference

/-! # Services: a thread that sets up, loops and finishes

A `Service` is the shape of a long-running thread: code before its loop, one turn of the loop from
a loop state, and the code that runs when the loop is left or escaped by an exception. A thread is
in one of the `Phase`s; `Service.Step` lets it make its next call or move on silently. A `Host`
runs one service in a world that interferes and may kill and restart it at any moment.

* **`PhaseSafe`** — the invariant a thread carries: its remaining program is `Safe`.
* **`Service.Sound`** — the two obligations of a proof about a service (one turn, one finish);
  `Sound.step` is the step lemma, `Host.phaseSafe_of_reachable` the run lemma.
* **`Host.under`** — the runs of a host all of whose steps meet a `Condition`. -/

namespace CallTrees

open Relation

/-- A long-running thread: what runs before its loop, one turn of the loop, and what runs after it
(with the loop state of the turn in which the loop ended, and how it ended). -/
structure Service (S : Signature) (ε σ : Type) where
  /-- The code before the loop; an exception here ends the thread. -/
  setup : Program S ε σ
  /-- One turn: go round again with a new loop state (`inl`), or leave the loop (`inr`). -/
  turn : σ → Program S ε (σ ⊕ Unit)
  /-- The code after the loop. -/
  finish : σ → Except ε Unit → Program S ε Unit

/-- Where a thread is. -/
inductive Phase (S : Signature) (ε σ : Type) : Type
  /-- Before its loop, with this much left to run. -/
  | setup (p : Program S ε σ)
  /-- At the head of its loop. -/
  | head (s : σ)
  /-- Inside the turn that started from `s`, with this much left to run. -/
  | turn (s : σ) (p : Program S ε (σ ⊕ Unit))
  /-- After its loop, with this much left to run. -/
  | finish (p : Program S ε Unit)
  /-- Ended, normally or by an exception. -/
  | terminated (r : Except ε Unit)

variable {S : Signature} {ε σ W : Type}

namespace Phase

/-- The call a thread is about to make, and where it is after the response. -/
def pending : Phase S ε σ → Option (Σ op : S.Op, Except ε (S.Res op) → Phase S ε σ)
  | .setup (.call op k) => some ⟨op, fun r => .setup (k r)⟩
  | .turn s (.call op k) => some ⟨op, fun r => .turn s (k r)⟩
  | .finish (.call op k) => some ⟨op, fun r => .finish (k r)⟩
  | _ => none

/-- The thread is about to make the call `op`. -/
def Calling (φ : Phase S ε σ) (op : S.Op) : Prop := ∃ k, φ.pending = some ⟨op, k⟩

/-- The thread has ended. -/
def Terminated : Phase S ε σ → Prop
  | .terminated _ => True
  | _ => False

/-- What is left of the phase makes only calls in `P`. -/
def Calls (P : S.Op → Prop) : Phase S ε σ → Prop
  | .setup p => p.Calls P
  | .turn _ p => p.Calls P
  | .finish p => p.Calls P
  | _ => True

/-- The call that a thread is about to make is in `P`, and so is what follows it. -/
theorem Calls.pending {P : S.Op → Prop} {φ : Phase S ε σ} {op : S.Op} {k : Except ε (S.Res op) → Phase S ε σ}
    (h : φ.Calls P) (hφ : φ.pending = some ⟨op, k⟩) : P op ∧ ∀ r, (k r).Calls P := by
  rcases φ with (_ | _ | ⟨op', k'⟩) | _ | ⟨s, (_ | _ | ⟨op', k'⟩)⟩ | (_ | _ | ⟨op', k'⟩) | _ <;>
    simp only [Phase.pending, reduceCtorEq, Option.some.injEq, Sigma.mk.injEq] at hφ <;>
    obtain ⟨rfl, hk⟩ := hφ <;> cases hk <;> exact h

end Phase

namespace Service

/-- The silent move of a thread whose program for the phase is over, or that is at its loop head. -/
def advance (V : Service S ε σ) : Phase S ε σ → Option (Phase S ε σ)
  | .setup (.ret s) => some (.head s)
  | .setup (.raise e) => some (.terminated (.error e))
  | .head s => some (.turn s (V.turn s))
  | .turn _ (.ret (.inl s)) => some (.head s)
  | .turn s (.ret (.inr _)) => some (.finish (V.finish s (.ok ())))
  | .turn s (.raise e) => some (.finish (V.finish s (.error e)))
  | .finish (.ret _) => some (.terminated (.ok ()))
  | .finish (.raise e) => some (.terminated (.error e))
  | _ => none

/-- **One step of a thread**: its next call, answered by the world, or a silent move. -/
inductive Step (V : Service S ε σ)
    (responds : W → (op : S.Op) → Except ε (S.Res op) → W → Prop) :
    W × Phase S ε σ → W × Phase S ε σ → Prop
  /-- The thread makes the call it is about to make. -/
  | call {w w' : W} {φ : Phase S ε σ} {op : S.Op} {k : Except ε (S.Res op) → Phase S ε σ}
      (r : Except ε (S.Res op)) (hφ : φ.pending = some ⟨op, k⟩) (hr : responds w op r w') :
      Step V responds (w, φ) (w', k r)
  /-- The thread moves on without a call. -/
  | silent {w : W} {φ φ' : Phase S ε σ} (hφ : V.advance φ = some φ') :
      Step V responds (w, φ) (w, φ')

/-- What is known of the world when the thread is at its loop head, when it leaves the loop, and
when it has ended. -/
structure Posts (ε σ W : Type) where
  /-- At the loop head. -/
  head : σ → W → Prop
  /-- On leaving the loop in a turn from `s`. -/
  leave : σ → Except ε Unit → W → Prop
  /-- After the end of the thread. -/
  ended : Except ε Unit → W → Prop

/-- The postcondition of the setup program. -/
def Posts.setup (Q : Posts ε σ W) : Except ε σ → W → Prop
  | .ok s => Q.head s
  | .error e => Q.ended (.error e)

/-- The postcondition of one turn. -/
def Posts.turn (Q : Posts ε σ W) (s : σ) : Except ε (σ ⊕ Unit) → W → Prop
  | .ok (.inl s') => Q.head s'
  | .ok (.inr _) => Q.leave s (.ok ())
  | .error e => Q.leave s (.error e)

variable {E : Environment S ε W} {C : Contract S W} {Q : Posts ε σ W}

/-- **The invariant of a thread**: what is left of its phase is safe. -/
def PhaseSafe (E : Environment S ε W) (C : Contract S W) (Q : Posts ε σ W) :
    Phase S ε σ → W → Prop
  | .setup p, w => Safe E C Q.setup p w
  | .head s, w => ∀ w', E.Drifts w w' → C.inv w' ∧ Q.head s w'
  | .turn s p, w => Safe E C (Q.turn s) p w
  | .finish p, w => Safe E C Q.ended p w
  | .terminated r, w => ∀ w', E.Drifts w w' → C.inv w' ∧ Q.ended r w'

/-- A phase that is safe is in a world that meets the invariant. -/
theorem PhaseSafe.inv {φ : Phase S ε σ} {w : W} (h : PhaseSafe E C Q φ w) : C.inv w := by
  cases φ with
  | setup p => exact Safe.inv h
  | head s => exact (h w .refl).1
  | turn s p => exact Safe.inv h
  | finish p => exact Safe.inv h
  | terminated r => exact (h w .refl).1

/-- A phase stays safe however the world drifts. -/
theorem PhaseSafe.drifts {φ : Phase S ε σ} {w w' : W} (h : PhaseSafe E C Q φ w)
    (hw : E.Drifts w w') : PhaseSafe E C Q φ w' := by
  cases φ with
  | setup p => exact Safe.drifts h hw
  | head s => exact fun v hv => h v (hw.trans hv)
  | turn s p => exact Safe.drifts h hw
  | finish p => exact Safe.drifts h hw
  | terminated r => exact fun v hv => h v (hw.trans hv)

/-- The call a safe thread is about to make meets the guarantee, and what follows it is safe. -/
theorem PhaseSafe.pending {φ : Phase S ε σ} {w : W} {op : S.Op}
    {k : Except ε (S.Res op) → Phase S ε σ} (h : PhaseSafe E C Q φ w)
    (hφ : φ.pending = some ⟨op, k⟩) :
    C.guar w op ∧ ∀ r w', E.responds w op r w' → PhaseSafe E C Q (k r) w' := by
  rcases φ with (_ | _ | ⟨op', k'⟩) | _ | ⟨s, (_ | _ | ⟨op', k'⟩)⟩ | (_ | _ | ⟨op', k'⟩) | _ <;>
    simp only [Phase.pending, reduceCtorEq, Option.some.injEq, Sigma.mk.injEq] at hφ <;>
    obtain ⟨rfl, hk⟩ := hφ <;> cases hk <;> exact Safe.call_root h

/-- The obligations of a proof about a service: one turn from the loop head, and the code after the
loop. -/
structure Sound (V : Service S ε σ) (E : Environment S ε W) (C : Contract S W)
    (Q : Posts ε σ W) : Prop where
  /-- One turn, started at the loop head. -/
  turn : ∀ s w, C.inv w → Q.head s w → Safe E C (Q.turn s) (V.turn s) w
  /-- The code after the loop. -/
  finish : ∀ s r w, C.inv w → Q.leave s r w → Safe E C Q.ended (V.finish s r) w

/-- A silent move keeps a thread safe. -/
theorem Sound.advance {V : Service S ε σ} (hV : V.Sound E C Q) {φ φ' : Phase S ε σ} {w : W}
    (h : PhaseSafe E C Q φ w) (hφ : V.advance φ = some φ') : PhaseSafe E C Q φ' w := by
  rcases φ with (s | e | _) | s | ⟨s, ((s' | u) | e | _)⟩ | (_ | e | _) | _ <;>
    simp only [Service.advance, reduceCtorEq, Option.some.injEq] at hφ <;> subst hφ
  · exact h
  · exact h
  · exact hV.turn s w (h w .refl).1 (h w .refl).2
  · exact h
  · exact hV.finish s (.ok ()) w (h w .refl).1 (h w .refl).2
  · exact hV.finish s (.error e) w (h w .refl).1 (h w .refl).2
  · exact h
  · exact h

/-- **The step lemma**: a step of the thread keeps it safe. -/
theorem Sound.step {V : Service S ε σ} (hV : V.Sound E C Q) {w w' : W} {φ φ' : Phase S ε σ}
    (h : PhaseSafe E C Q φ w) (hs : V.Step E.responds (w, φ) (w', φ')) :
    PhaseSafe E C Q φ' w' := by
  cases hs with
  | call r hφ hr => exact (h.pending hφ).2 r w' hr
  | silent hφ => exact hV.advance h hφ

/-! ## Services of which only the calls are known -/

/-- The same is known at all stations of a thread. -/
def Posts.uniform (A : W → Prop) : Posts ε σ W := ⟨fun _ => A, fun _ _ => A, fun _ => A⟩

variable {V : Service S ε σ} {P : S.Op → Prop} {A : W → Prop}

/-- The programs of a service make only calls in `P`. -/
structure Calls (V : Service S ε σ) (P : S.Op → Prop) : Prop where
  /-- The setup. -/
  setup : V.setup.Calls P
  /-- A turn. -/
  turn : ∀ s, (V.turn s).Calls P
  /-- The code after the loop. -/
  finish : ∀ s r, (V.finish s r).Calls P

/-- **A step keeps to the calls** of the service. -/
theorem Calls.step {responds : W → (op : S.Op) → Except ε (S.Res op) → W → Prop} (hV : V.Calls P)
    {φ φ' : Phase S ε σ} {w w' : W} (h : φ.Calls P) (hs : V.Step responds (w, φ) (w', φ')) :
    φ'.Calls P := by
  cases hs with
  | call r hφ hr => exact (h.pending hφ).2 r
  | silent hφ =>
      rcases φ with (s | e | _) | s | ⟨s, ((s' | u) | e | _)⟩ | (_ | e | _) | _ <;>
        simp only [Service.advance, reduceCtorEq, Option.some.injEq] at hφ <;> subst hφ
      · trivial
      · trivial
      · exact hV.turn s
      · trivial
      · exact hV.finish s _
      · exact hV.finish s _
      · trivial
      · trivial

/-- A service that makes only calls that keep an assertion keeps it at all stations. -/
theorem Sound.of_keeps (hA : Keeps E C P A) (hturn : ∀ s, (V.turn s).Calls P)
    (hfinish : ∀ s r, (V.finish s r).Calls P) : V.Sound E C (Posts.uniform A) where
  turn s _ _ h := (hA.of_calls (hturn s) h).mono fun r _ hv => by rcases r with _ | ⟨_ | _⟩ <;> exact hv
  finish s r _ _ h := hA.of_calls (hfinish s r) h

/-- Its setup does, too. -/
theorem setup_of_keeps (hA : Keeps E C P A) (hsetup : V.setup.Calls P) {w : W} (h : A w) :
    Safe E C (Posts.uniform A).setup V.setup w :=
  (hA.of_calls hsetup h).mono fun r _ hv => by cases r <;> exact hv

end Service

/-! ## A host: one service that may be killed and restarted -/

/-- A world with one service running in it. `restart w φ w'`: the thread, being in the phase `φ`,
may be killed in the world `w`; the service starts again in `w'`. -/
structure Host (S : Signature) (ε W σ : Type) extends Environment S ε W where
  /-- The thread's code. -/
  service : Service S ε σ
  /-- A kill and restart. -/
  restart : W → Phase S ε σ → W → Prop

/-- A condition on the steps of a host. -/
structure Condition (S : Signature) (ε W σ : Type) where
  /-- On the answers to calls. -/
  call : W → (op : S.Op) → Except ε (S.Res op) → Prop
  /-- On the world's own moves. -/
  move : W → W → Prop
  /-- On kills. -/
  restart : W → Phase S ε σ → Prop

namespace Host

variable (H : Host S ε W σ)

/-- One step of a host. -/
inductive Step : W × Phase S ε σ → W × Phase S ε σ → Prop
  /-- The world moves. -/
  | interfere {w w' : W} {φ : Phase S ε σ} (h : H.interfere w w') : Step (w, φ) (w', φ)
  /-- The thread moves. -/
  | thread {w w' : W} {φ φ' : Phase S ε σ} (h : H.service.Step H.responds (w, φ) (w', φ')) :
      Step (w, φ) (w', φ')
  /-- The thread is killed and the service starts again. -/
  | restart {w w' : W} {φ : Phase S ε σ} (h : H.restart w φ w') :
      Step (w, φ) (w', .setup H.service.setup)

/-- The states a host reaches from a start in a world that meets `init`. -/
def Reachable (init : W → Prop) (s : W × Phase S ε σ) : Prop :=
  ∃ w₀, init w₀ ∧ ReflTransGen H.Step (w₀, .setup H.service.setup) s

/-- The runs of a host all of whose steps meet a condition. -/
def under (K : Condition S ε W σ) : Host S ε W σ where
  responds w op r w' := H.responds w op r w' ∧ K.call w op r
  interfere w w' := H.interfere w w' ∧ K.move w w'
  service := H.service
  restart w φ w' := H.restart w φ w' ∧ K.restart w φ

variable {H} {C : Contract S W} {Q : Service.Posts ε σ W} {init : W → Prop}

/-- **The run lemma.** If the service is sound, its setup is safe in the initial worlds and in the
worlds a kill leaves, then every reachable thread is safe. -/
theorem phaseSafe_of_reachable (hV : H.service.Sound H.toEnvironment C Q)
    (hinit : ∀ w, init w → Safe H.toEnvironment C Q.setup H.service.setup w)
    (hrestart : ∀ w φ w', Service.PhaseSafe H.toEnvironment C Q φ w → H.restart w φ w' →
      Safe H.toEnvironment C Q.setup H.service.setup w')
    {s : W × Phase S ε σ} (hs : H.Reachable init s) :
    Service.PhaseSafe H.toEnvironment C Q s.2 s.1 := by
  obtain ⟨w₀, hw₀, hrun⟩ := hs
  induction hrun with
  | refl => exact hinit w₀ hw₀
  | tail _ hstep ih =>
      cases hstep with
      | interfere h => exact ih.drifts (.single h)
      | thread h => exact hV.step ih h
      | restart h => exact hrestart _ _ _ ih h

end Host

end CallTrees
