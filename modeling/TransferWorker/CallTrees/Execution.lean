import TransferWorker.CallTrees.Service
import TransferWorker.CallTrees.Trace

/-! # Executions

What a program may do, as opposed to what it never does: `Executes E p w r w'` says that `p`, started
in `w`, may end with `r` in `w'`, the world moving as it likes on the way; `Arrives E p w q w'` says
that it may get to the rest `q` of it. Executions of the pieces compose to runs of a host. -/

namespace CallTrees

open Relation

variable {S : Signature} {ε σ α β W : Type}

/-- **An execution of a program**, calls and moves of the world in any order. -/
inductive Executes (E : Environment S ε W) : Program S ε α → W → Except ε α → W → Prop
  /-- A normal return. -/
  | ret {a : α} {w : W} : Executes E (.ret a) w (.ok a) w
  /-- An exception. -/
  | raise {e : ε} {w : W} : Executes E (.raise e) w (.error e) w
  /-- A call and its answer. -/
  | call {op : S.Op} {k : Except ε (S.Res op) → Program S ε α} {w w' w'' : W} {r : Except ε α}
      (x : Except ε (S.Res op)) (hx : E.responds w op x w') (hk : Executes E (k x) w' r w'') :
      Executes E (.call op k) w r w''
  /-- The world moves. -/
  | move {p : Program S ε α} {w w' w'' : W} {r : Except ε α} (hm : E.interfere w w')
      (hp : Executes E p w' r w'') : Executes E p w r w''

/-- The world gives these answers to these calls, one after the other. -/
inductive Answers (E : Environment S ε W) : List (Answered S ε) → W → W → Prop
  /-- No call. -/
  | nil {w : W} : Answers E [] w w
  /-- A call and its answer. -/
  | cons {op : S.Op} {x : Except ε (S.Res op)} {tr : List (Answered S ε)} {w w' w'' : W}
      (hx : E.responds w op x w') (ha : Answers E tr w' w'') : Answers E (⟨op, x⟩ :: tr) w w''

namespace Executes

variable {E : Environment S ε W} {p : Program S ε α} {w w' w'' : W}

/-- Sequencing after a normal return. -/
theorem bind {f : α → Program S ε β} {a : α} {r : Except ε β} (hp : Executes E p w (.ok a) w')
    (hf : Executes E (f a) w' r w'') : Executes E (p >>= f) w r w'' := by
  generalize hr : Except.ok a = r' at hp
  induction hp with
  | ret =>
      cases hr
      exact hf
  | raise => cases hr
  | call x hx _ ih => exact .call x hx (ih hf hr)
  | move hm _ ih => exact .move hm (ih hf hr)

/-- An exception of the first program skips the second. -/
theorem bind_error {f : α → Program S ε β} {e : ε} (hp : Executes E p w (.error e) w') :
    Executes E (p >>= f) w (.error e) w' := by
  generalize hr : Except.error e = r' at hp
  induction hp with
  | ret => cases hr
  | raise =>
      cases hr
      exact .raise
  | call x hx _ ih => exact .call x hx (ih hr)
  | move hm _ ih => exact .move hm (ih hr)

/-- The result as a value. -/
theorem attempt {r : Except ε α} (hp : Executes E p w r w') :
    Executes E p.attempt w (.ok r) w' := by
  induction hp with
  | ret => exact .ret
  | raise => exact .ret
  | call x hx _ ih => exact .call x hx ih
  | move hm _ ih => exact .move hm ih

/-- One call that returns. -/
theorem perform {op : S.Op} {a : S.Res op} (h : E.responds w op (.ok a) w') :
    Executes E (.perform op) w (.ok a) w' :=
  .call (.ok a) h .ret

/-- One call that raises. -/
theorem perform_error {op : S.Op} {e : ε} (h : E.responds w op (.error e) w') :
    Executes E (.perform op) w (.error e) w' :=
  .call (.error e) h .raise

/-- One call that returns, followed by a program. -/
theorem perform_bind {op : S.Op} {a : S.Res op} {f : S.Res op → Program S ε β} {r : Except ε β}
    (h : E.responds w op (.ok a) w') (hf : Executes E (f a) w' r w'') :
    Executes E (Program.perform op >>= f) w r w'' :=
  (perform h).bind hf

/-- A cleanup is skipped after a normal return. -/
theorem onError {a : α} {c : Program S ε Unit} (hp : Executes E p w (.ok a) w') :
    Executes E (p.onError c) w (.ok a) w' :=
  hp.attempt.bind .ret

/-- A return or an exception. -/
theorem ofExcept {r : Except ε α} : Executes E (.ofExcept r) w r w := by
  cases r with
  | ok a => exact .ret
  | error e => exact .raise

/-- A cleanup, however the program before it ended. -/
theorem andFinally {r : Except ε α} {c : Program S ε Unit} (hp : Executes E p w r w')
    (hc : Executes E c w' (.ok ()) w'') : Executes E (p.andFinally c) w r w'' :=
  hp.attempt.bind (hc.bind .ofExcept)

/-- **A trace that the world answers** is an execution. -/
theorem of_makes {tr : List (Answered S ε)} {r : Except ε α} (hp : p.Makes tr r)
    (ha : Answers E tr w w') : Executes E p w r w' := by
  induction hp generalizing w with
  | ret =>
      cases ha
      exact .ret
  | raise =>
      cases ha
      exact .raise
  | call x _ ih =>
      cases ha with
      | cons hx ha => exact .call x hx (ih ha)

/-- Moves of the world come before the program. -/
theorem drifts {r : Except ε α} (hw : E.Drifts w w') (hp : Executes E p w' r w'') :
    Executes E p w r w'' := by
  induction hw using ReflTransGen.head_induction_on with
  | refl => exact hp
  | head hm _ ih => exact .move hm ih

/-- An execution in one environment is one in another that allows the same steps where an invariant
holds. -/
theorem restrict {E' : Environment S ε W} {I : W → Prop}
    (hcall : ∀ {w op r w'}, I w → E.responds w op r w' → E'.responds w op r w' ∧ I w')
    (hmove : ∀ {w w'}, I w → E.interfere w w' → E'.interfere w w' ∧ I w') {r : Except ε α}
    (h : Executes E p w r w') (hw : I w) : Executes E' p w r w' ∧ I w' := by
  induction h with
  | ret => exact ⟨.ret, hw⟩
  | raise => exact ⟨.raise, hw⟩
  | call x hx _ ih =>
      obtain ⟨hx', hw'⟩ := hcall hw hx
      obtain ⟨hrest, hend⟩ := ih hw'
      exact ⟨.call x hx' hrest, hend⟩
  | move hm _ ih =>
      obtain ⟨hm', hw'⟩ := hmove hw hm
      obtain ⟨hrest, hend⟩ := ih hw'
      exact ⟨.move hm' hrest, hend⟩

/-- An execution of a program of some calls is one in another environment that answers these alike. -/
theorem of_calls {E' : Environment S ε W} {P : S.Op → Prop} (hp : p.Calls P)
    (hcall : ∀ {w op r w'}, P op → E.responds w op r w' → E'.responds w op r w')
    (hmove : ∀ {w w'}, E.interfere w w' → E'.interfere w w') {r : Except ε α}
    (h : Executes E p w r w') : Executes E' p w r w' := by
  induction h with
  | ret => exact .ret
  | raise => exact .raise
  | call x hx _ ih => exact .call x (hcall hp.1 hx) (ih (hp.2 x))
  | move hm _ ih => exact .move (hmove hm) (ih hp)

/-- **An execution within a thread**: in any system that lets the world move and the thread make its
next call, the thread gets from `p` to the end of `p`. `F` says where in the thread `p` is. -/
theorem run {R : W × Phase S ε σ → W × Phase S ε σ → Prop}
    (hmove : ∀ {w w'} φ, E.interfere w w' → R (w, φ) (w', φ))
    (hcall : ∀ {w w' φ op k} r, Phase.pending φ = some ⟨op, k⟩ → E.responds w op r w' →
      R (w, φ) (w', k r))
    {F : Program S ε α → Phase S ε σ}
    (hF : ∀ op k, (F (.call op k)).pending = some ⟨op, fun r => F (k r)⟩)
    {r : Except ε α} (h : Executes E p w r w') :
    ReflTransGen R (w, F p) (w', F (.ofExcept r)) := by
  induction h with
  | ret => exact .refl
  | raise => exact .refl
  | call x hx _ ih => exact .head (hcall x (hF _ _) hx) ih
  | move hm _ ih => exact .head (hmove _ hm) ih

end Executes

/-! ## Executions that are not over -/

/-- **A program may get this far**: from `p` in `w` to what is left of it, `q`, in `w'`. -/
inductive Arrives (E : Environment S ε W) : Program S ε α → W → Program S ε α → W → Prop
  /-- It is there. -/
  | refl {p : Program S ε α} {w : W} : Arrives E p w p w
  /-- A call and its answer. -/
  | call {op : S.Op} {k : Except ε (S.Res op) → Program S ε α} {q : Program S ε α} {w w' w'' : W}
      (x : Except ε (S.Res op)) (hx : E.responds w op x w') (hk : Arrives E (k x) w' q w'') :
      Arrives E (.call op k) w q w''
  /-- The world moves. -/
  | move {p q : Program S ε α} {w w' w'' : W} (hm : E.interfere w w') (hp : Arrives E p w' q w'') :
      Arrives E p w q w''

namespace Arrives

variable {E : Environment S ε W} {p q : Program S ε α} {w w' w'' : W}

/-- One program after the other: the first one gets so far. -/
theorem bind (f : α → Program S ε β) (h : Arrives E p w q w') :
    Arrives E (p >>= f) w (q >>= f) w' := by
  induction h with
  | refl => exact .refl
  | call x hx _ ih => exact .call x hx ih
  | move hm _ ih => exact .move hm ih

/-- One program after the other: the first one returns, the second one gets so far. -/
theorem of_executes {f : α → Program S ε β} {a : α} {r : Program S ε β}
    (hp : Executes E p w (.ok a) w') (hf : Arrives E (f a) w' r w'') :
    Arrives E (p >>= f) w r w'' := by
  generalize hr : Except.ok a = x at hp
  induction hp with
  | ret =>
      cases hr
      exact hf
  | raise => cases hr
  | call x hx _ ih => exact .call x hx (ih hf hr)
  | move hm _ ih => exact .move hm (ih hf hr)

/-- One call that returns, followed by a program. -/
theorem perform_bind {op : S.Op} {a : S.Res op} {f : S.Res op → Program S ε β} {r : Program S ε β}
    (h : E.responds w op (.ok a) w') (hf : Arrives E (f a) w' r w'') :
    Arrives E (Program.perform op >>= f) w r w'' :=
  of_executes (.perform h) hf

/-- An attempt gets as far as what is attempted. -/
theorem attempt (h : Arrives E p w q w') : Arrives E p.attempt w q.attempt w' := by
  induction h with
  | refl => exact .refl
  | call x hx _ ih => exact .call x hx ih
  | move hm _ ih => exact .move hm ih

end Arrives

/-! ## Runs of a host -/

namespace Host

variable {H : Host S ε W σ} {w w' : W} {s : σ}

/-- A run of the host: finitely many steps. -/
abbrev Runs (H : Host S ε W σ) : W × Phase S ε σ → W × Phase S ε σ → Prop := ReflTransGen H.Step

/-- An execution is a run of the host. -/
theorem runs_of_executes {F : Program S ε α → Phase S ε σ}
    (hF : ∀ op k, (F (.call op k)).pending = some ⟨op, fun r => F (k r)⟩)
    {p : Program S ε α} {r : Except ε α} (h : Executes H.toEnvironment p w r w') :
    H.Runs (w, F p) (w', F (.ofExcept r)) :=
  h.run (fun _ hm => .interfere hm) (fun x hφ hx => .thread (.call x hφ hx)) hF

/-- The setup of the thread up to the loop head. -/
theorem runs_setup (h : Executes H.toEnvironment H.service.setup w (.ok s) w') :
    H.Runs (w, .setup H.service.setup) (w', .head s) :=
  (runs_of_executes (F := .setup) (fun _ _ => rfl) h).tail (.thread (.silent rfl))

/-- One turn of the loop. -/
theorem runs_turn {s' : σ} (h : Executes H.toEnvironment (H.service.turn s) w (.ok (.inl s')) w') :
    H.Runs (w, .head s) (w', .head s') :=
  .head (.thread (.silent rfl))
    ((runs_of_executes (F := .turn s) (fun _ _ => rfl) h).tail (.thread (.silent rfl)))

/-- A program may get so far within a turn. -/
theorem runs_of_arrives {p q : Program S ε (σ ⊕ Unit)} (h : Arrives H.toEnvironment p w q w') :
    H.Runs (w, .turn s p) (w', .turn s q) := by
  induction h with
  | refl => exact .refl
  | call x hx _ ih => exact .head (.thread (.call x rfl hx)) ih
  | move hm _ ih => exact .head (.interfere hm) ih

/-- A turn of the loop that is not over. -/
theorem runs_within {q : Program S ε (σ ⊕ Unit)}
    (h : Arrives H.toEnvironment (H.service.turn s) w q w') :
    H.Runs (w, .head s) (w', .turn s q) :=
  .head (.thread (.silent rfl)) (runs_of_arrives h)

/-- Moves of the world. -/
theorem runs_drifts {φ : Phase S ε σ} (h : H.Drifts w w') : H.Runs (w, φ) (w', φ) := by
  induction h with
  | refl => exact .refl
  | tail _ hm ih => exact ih.tail (.interfere hm)

end Host

end CallTrees
