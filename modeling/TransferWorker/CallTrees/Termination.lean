import TransferWorker.CallTrees.Pool

/-! # Services that come to an end

How many more steps a thread can make. A program of bounded depth makes boundedly many calls; a service
whose turns lead out of its loop, wherever it is when that begins to hold, is soon at its end.

* **`Program.Within`** — the program makes at most so many calls, whatever they answer.
* **`Service.Ends`** — the thread makes at most so many more steps.
* **`Service.Bounded.ends`** — the bound for a service whose turns lead out of the loop.
* **`Pool.Goes`** — a stretch of a run in which one thread makes so many steps; `Goes.le`,
  `Goes.phaseSafe` and `Goes.relates` are the run lemmas. -/

namespace CallTrees

open Relation

variable {S : Signature} {ε α β σ W : Type}

/-! ## Programs -/

namespace Program

/-- **The program makes at most so many calls**, whatever they answer. -/
def Within : Nat → Program S ε α → Prop
  | _, .ret _ => True
  | _, .raise _ => True
  | 0, .call _ _ => False
  | n + 1, .call _ k => ∀ r, Within n (k r)

variable {m n : Nat} {p : Program S ε α}

/-- The end of a program is within every bound. -/
theorem within_ret (n : Nat) (a : α) : Within n (ret a : Program S ε α) := by cases n <;> trivial

/-- So is an exception. -/
theorem within_raise (n : Nat) (e : ε) : Within n (raise e : Program S ε α) := by cases n <;> trivial

/-- A larger bound. -/
theorem Within.mono (h : Within m p) (hmn : m ≤ n) : Within n p := by
  induction p generalizing m n with
  | ret a => exact within_ret n a
  | raise e => exact within_raise n e
  | call op k ih =>
      cases m with
      | zero => exact h.elim
      | succ m =>
          obtain ⟨n, rfl⟩ : ∃ n', n = n' + 1 := ⟨n - 1, by omega⟩
          intro r
          exact ih r (h r) (by omega)

/-- A single call is within one. -/
theorem within_perform {op : S.Op} : Within 1 (perform op : Program S ε (S.Res op)) := by
  intro r
  cases r with
  | ok a => exact within_ret 0 a
  | error e => exact within_raise 0 e

/-- A computation makes no call. -/
theorem within_ofExcept (n : Nat) (r : Except ε α) : Within n (ofExcept r : Program S ε α) := by
  cases r with
  | ok a => exact within_ret n a
  | error e => exact within_raise n e

/-- One program after the other. -/
theorem within_bind {f : α → Program S ε β} (hp : Within m p) (hf : ∀ a, Within n (f a)) :
    Within (m + n) (p >>= f) := by
  induction p generalizing m with
  | ret a => exact (hf a).mono (by omega)
  | raise e => exact within_raise _ e
  | call op k ih =>
      cases m with
      | zero => exact hp.elim
      | succ m =>
          rw [show m + 1 + n = m + n + 1 by omega]
          intro r
          exact ih r (hp r)

/-- A call, followed by a program. -/
theorem within_call {op : S.Op} {f : S.Res op → Program S ε α} (hf : ∀ a, Within n (f a)) :
    Within (n + 1) (perform op >>= f : Program S ε α) :=
  (within_bind within_perform hf).mono (by omega)

/-- An attempt makes the calls of what is attempted. -/
theorem within_attempt (h : Within n p) : Within n p.attempt := by
  induction p generalizing n with
  | ret a => exact within_ret n _
  | raise e => exact within_ret n _
  | call op k ih =>
      cases n with
      | zero => exact h.elim
      | succ n => exact fun r => ih r (h r)

/-- A program and its handler. -/
theorem within_tryCatch {handler : ε → Program S ε α} (hp : Within m p) (hh : ∀ e, Within n (handler e)) :
    Within (m + n) (p.tryCatch handler) :=
  within_bind (within_attempt hp) fun r => by
    cases r with
    | ok a => exact within_ret n a
    | error e => exact hh e

/-- A program and what runs when it raises. -/
theorem within_onError {c : Program S ε Unit} (hp : Within m p) (hc : Within n c) :
    Within (m + n) (p.onError c) :=
  within_tryCatch hp fun e => (within_bind hc fun _ => within_raise 0 e).mono (by omega)

/-- A program and what runs after it. -/
theorem within_andFinally {c : Program S ε Unit} (hp : Within m p) (hc : Within n c) :
    Within (m + n) (p.andFinally c) :=
  within_bind (within_attempt hp) fun r => (within_bind hc fun _ => within_ofExcept 0 r).mono (by omega)

end Program

/-! ## Phases -/

/-- What is left of the phase makes at most so many calls: in the setup `a`, in a turn `b`, after the loop
`c`. -/
def Phase.Within (a b c : Nat) : Phase S ε σ → Prop
  | .setup p => p.Within a
  | .turn _ p => p.Within b
  | .finish p => p.Within c
  | _ => True

namespace Service

/-- The programs of a service make at most so many calls. -/
structure Bounded (V : Service S ε σ) (a b c : Nat) : Prop where
  /-- The setup. -/
  setup : V.setup.Within a
  /-- A turn. -/
  turn : ∀ s, (V.turn s).Within b
  /-- The code after the loop. -/
  finish : ∀ s r, (V.finish s r).Within c

/-- **The thread makes at most so many more steps**, whatever the world does and answers. -/
def Ends (V : Service S ε σ) (E : Environment S ε W) : Nat → Phase S ε σ → W → Prop
  | 0, φ, w => ∀ v, E.Drifts w v → ∀ s, ¬V.Step E.responds (v, φ) s
  | n + 1, φ, w => ∀ v, E.Drifts w v → ∀ s, V.Step E.responds (v, φ) s → V.Ends E n s.2 s.1

variable {V : Service S ε σ} {E : Environment S ε W} {C C' : Contract S W} {A : W → Prop}
  {a b c m n : Nat} {φ φ' : Phase S ε σ} {w w' : W}

/-- The world moves before the thread goes on. -/
theorem Ends.drifts (h : V.Ends E n φ w) (hw : E.Drifts w w') : V.Ends E n φ w' := by
  cases n with
  | zero => exact fun v hv => h v (hw.trans hv)
  | succ n => exact fun v hv => h v (hw.trans hv)

/-- A larger bound on the way to the end. -/
theorem Ends.mono (h : V.Ends E m φ w) (hmn : m ≤ n) : V.Ends E n φ w := by
  induction n generalizing m φ w with
  | zero =>
      obtain rfl : m = 0 := by omega
      exact h
  | succ n ih =>
      intro v hv s hs
      cases m with
      | zero => exact absurd hs (h v hv s)
      | succ m => exact ih (h v hv s hs) (by omega)

/-- A thread that has ended is at its end. -/
theorem ends_terminated (n : Nat) (r : Except ε Unit) : V.Ends E n (.terminated r) w := by
  have hstuck : ∀ v (s : W × Phase S ε σ), ¬V.Step E.responds (v, .terminated r) s := by
    intro v s hs
    cases hs with
    | call x hφ hr => cases hφ
    | silent hφ => cases hφ
  cases n with
  | zero => exact fun v _ => hstuck v
  | succ n => exact fun v _ s hs => absurd hs (hstuck v s)

/-- **A step keeps the bounds.** -/
theorem Bounded.within {responds : W → (op : S.Op) → Except ε (S.Res op) → W → Prop}
    (hV : V.Bounded a b c) (h : φ.Within a b c) (hs : V.Step responds (w, φ) (w', φ')) :
    φ'.Within a b c := by
  have hcall : ∀ {α : Type} {N : Nat} {op : S.Op} {k : Except ε (S.Res op) → Program S ε α} r,
      Program.Within N (.call op k) → (k r).Within N := by
    intro α N op k r h
    cases N with
    | zero => exact h.elim
    | succ N => exact (h r).mono (by omega)
  cases hs with
  | call r hφ hr =>
      rcases φ with (_ | _ | ⟨op', k'⟩) | _ | ⟨s, (_ | _ | ⟨op', k'⟩)⟩ | (_ | _ | ⟨op', k'⟩) | _ <;>
        simp only [Phase.pending, reduceCtorEq, Option.some.injEq, Sigma.mk.injEq] at hφ <;>
        obtain ⟨rfl, hk⟩ := hφ <;> cases hk <;> exact hcall r h
  | silent hφ =>
      rcases φ with (s | e | _) | s | ⟨s, ((s' | u) | e | _)⟩ | (_ | e | _) | _ <;>
        simp only [Service.advance, reduceCtorEq, Option.some.injEq] at hφ <;> subst hφ
      · trivial
      · trivial
      · exact hV.turn s
      · trivial
      · exact hV.finish s _
      · exact hV.finish s _
      · trivial
      · trivial

/-! ## Turns that lead out of the loop -/

/-- **A phase that runs a program.** It takes the calls of the program, the silent move at its end, and what
follows. -/
theorem ends_program {Q : Except ε α → W → Prop} {F : Program S ε α → Phase S ε σ}
    (hcall : ∀ op k, (F (.call op k)).pending = some ⟨op, fun r => F (k r)⟩)
    (hbusy : ∀ op k, V.advance (F (.call op k)) = none) (hidle : ∀ r, (F (.ofExcept r)).pending = none)
    (hafter : ∀ r v, Q r v → ∀ φ', V.advance (F (.ofExcept r)) = some φ' → V.Ends E m φ' v)
    {p : Program S ε α} (h : p.Within n) (hp : Safe E C Q p w) : V.Ends E (n + m + 1) (F p) w := by
  have hover : ∀ (r : Except ε α) (n : Nat) (v : W), (∀ u, E.Drifts v u → Q r u) →
      V.Ends E (n + m + 1) (F (.ofExcept r)) v := by
    intro r n v hv u hu s hs
    cases hs with
    | call x hφ hr =>
        rw [hidle r] at hφ
        cases hφ
    | silent hφ => exact (hafter r u (hv u hu) _ hφ).mono (by omega)
  induction p generalizing n w with
  | ret a => exact hover (.ok a) n w fun u hu => (hp u hu).2
  | raise e => exact hover (.error e) n w fun u hu => (hp u hu).2
  | call op k ih =>
      cases n with
      | zero => exact h.elim
      | succ n =>
          rw [show n + 1 + m + 1 = n + m + 1 + 1 by omega]
          intro v hv s hs
          cases hs with
          | call r hφ hr =>
              rw [hcall op k] at hφ
              obtain ⟨rfl, hk⟩ := Sigma.mk.inj (Option.some.inj hφ)
              obtain rfl := eq_of_heq hk
              exact ih r (h r) ((hp v hv).2.2 r _ hr)
          | silent hφ =>
              rw [hbusy op k] at hφ
              cases hφ

/-- Nothing is asked of a program, and nothing is known of its end. -/
theorem safe_anything (p : Program S ε α) (w : W) :
    Safe E ⟨fun _ => True, fun _ _ => True⟩ (fun _ _ => True) p w := by
  induction p generalizing w with
  | ret a => exact fun _ _ => ⟨trivial, trivial⟩
  | raise e => exact fun _ _ => ⟨trivial, trivial⟩
  | call op k ih => exact fun _ _ => ⟨trivial, trivial, fun r v _ => ih r v⟩

/-- The turn does not go round again. -/
def leaving : Except ε (σ ⊕ Unit) → W → Prop := fun r _ => ∀ s, r ≠ .ok (.inl s)

/-- After the loop. -/
theorem ends_finish {p : Program S ε Unit} (h : p.Within c) : V.Ends E (c + 1) (.finish p) w := by
  refine ends_program (F := .finish) (m := 0) (fun _ _ => rfl) (fun _ _ => rfl)
    (fun r => by cases r <;> rfl) (fun r v _ φ' hφ => ?_) h (safe_anything p w)
  cases r <;> cases hφ <;> exact ends_terminated 0 _

/-- A turn that leads out of the loop. -/
theorem ends_leaving (hV : V.Bounded a b c) {s : σ} {p : Program S ε (σ ⊕ Unit)} (h : p.Within n)
    (hleaves : Safe E C leaving p w) : V.Ends E (n + (c + 1) + 1) (.turn s p) w := by
  refine ends_program (F := .turn s) (fun _ _ => rfl) (fun _ _ => rfl) (fun r => by cases r <;> rfl)
    (fun r v hv φ' hφ => ?_) h hleaves
  rcases r with e | ⟨s' | u⟩
  · cases hφ
    exact ends_finish (hV.finish s _)
  · exact absurd rfl (hv s')
  · cases hφ
    exact ends_finish (hV.finish s _)

/-- **At the head of the loop**, when every turn leads out of it. -/
theorem ends_head (hV : V.Bounded a b c) (hA : E.Stable A)
    (hturn : ∀ s w, A w → Safe E C leaving (V.turn s) w) {s : σ} (h : A w) :
    V.Ends E (b + c + 3) (.head s) w := by
  intro v hv s' hs
  cases hs with
  | call r hφ hr => cases hφ
  | silent hφ =>
      cases hφ
      exact (ends_leaving hV (hV.turn s) (hturn s v (hA.drifts hv h))).mono (by omega)

/-- **The bound for a service whose turns lead out of the loop**, wherever it is: what is left of the phase,
a last turn, and what follows the loop. -/
theorem Bounded.ends (hV : V.Bounded a b c) (hA : Keeps E C (fun _ => True) A)
    (hturn : ∀ s w, A w → Safe E C' leaving (V.turn s) w) (h : φ.Within a b c) (hw : A w) :
    V.Ends E (max a b + (b + c + 4)) φ w := by
  have hhead : ∀ s v, A v → V.Ends E (b + c + 3) (.head s) v := fun s v hv =>
    ends_head hV hA.stable hturn hv
  -- a turn that ends the loop leaves only the cleanup
  have hrest : ∀ s r v, V.Ends E (b + c + 3) (.finish (V.finish s r)) v := fun s r v =>
    (ends_finish (hV.finish s r)).mono (by omega)
  cases φ with
  | setup p =>
      -- the setup comes before one whole round of the loop
      have hsetup : V.Ends E (a + (b + c + 3) + 1) (.setup p) w := by
        refine ends_program (F := .setup) (fun _ _ => rfl) (fun _ _ => rfl) (fun r => by cases r <;> rfl)
          (fun r v hv φ' hφ => ?_) h (hA.of_calls (Program.calls_trivial p) hw)
        cases r with
        | ok s =>
            cases hφ
            exact hhead s v hv
        | error e =>
            cases hφ
            exact ends_terminated _ _
      exact hsetup.mono (by omega)
  | head s => exact (hhead s w hw).mono (by omega)
  | turn s p =>
      have hloop : V.Ends E (b + (b + c + 3) + 1) (.turn s p) w := by
        refine ends_program (F := .turn s) (fun _ _ => rfl) (fun _ _ => rfl) (fun r => by cases r <;> rfl)
          (fun r v hv φ' hφ => ?_) h (hA.of_calls (Program.calls_trivial p) hw)
        rcases r with e | ⟨s' | u⟩
        · cases hφ
          exact hrest s _ v
        · cases hφ
          exact hhead s' v hv
        · cases hφ
          exact hrest s _ v
      exact hloop.mono (by omega)
  | finish p => exact (ends_finish h).mono (by omega)
  | terminated r => exact ends_terminated _ r

end Service

/-! ## Pools -/

namespace Pool

variable {ι : Type} {σ : ι → Type} [DecidableEq ι] {P : Pool S ε W σ} {i : ι}

/-- What a thread sees of a pool of which nothing is known: the world's own moves, and any call of the
others. -/
def crowd (P : Pool S ε W σ) (i : ι) : Environment S ε W where
  responds := P.responds i
  interfere w w' := P.interfere w w' ∨ ∃ j, j ≠ i ∧ ∃ op r, P.responds j w op r w'

/-- **A stretch of a run without a restart** in which the thread makes so many steps. -/
inductive Goes (P : Pool S ε W σ) (i : ι) : Nat → P.State → P.State → Prop
  /-- Nothing happens. -/
  | refl {s : P.State} : Goes P i 0 s s
  /-- The world moves. -/
  | interfere {w w' : W} {φ : (i : ι) → Phase S ε (σ i)} {s : P.State} {n : Nat} (h : P.interfere w w')
      (hrest : Goes P i n (w', φ) s) : Goes P i n (w, φ) s
  /-- Another thread moves. -/
  | other {w w' : W} {φ : (i : ι) → Phase S ε (σ i)} {s : P.State} {n : Nat} {j : ι} (hj : j ≠ i)
      {φ' : Phase S ε (σ j)} (h : (P.service j).Step (P.responds j) (w, φ j) (w', φ'))
      (hrest : Goes P i n (w', Function.update φ j φ') s) : Goes P i n (w, φ) s
  /-- The thread moves. -/
  | own {w w' : W} {φ : (i : ι) → Phase S ε (σ i)} {s : P.State} {n : Nat} {φ' : Phase S ε (σ i)}
      (h : (P.service i).Step (P.responds i) (w, φ i) (w', φ'))
      (hrest : Goes P i n (w', Function.update φ i φ') s) : Goes P i (n + 1) (w, φ) s

/-- Stretches follow one another. -/
theorem Goes.trans {s s' s'' : P.State} {m n : Nat} (h : Goes P i m s s') (h' : Goes P i n s' s'') :
    Goes P i (m + n) s s'' := by
  induction h with
  | refl => rwa [Nat.zero_add]
  | interfere h _ ih => exact .interfere h (ih h')
  | other hj h _ ih => exact .other hj h (ih h')
  | own h _ ih =>
      rw [Nat.add_right_comm]
      exact .own h (ih h')

/-- **An execution within the thread** while the others rest. -/
theorem goes_of_executes {α : Type} {F : Program S ε α → Phase S ε (σ i)}
    (hF : ∀ op k, (F (.call op k)).pending = some ⟨op, fun r => F (k r)⟩) {p : Program S ε α}
    {r : Except ε α} {w w' : W} (h : Executes (P.alone i) p w r w') :
    ∀ {φ : (i : ι) → Phase S ε (σ i)}, φ i = F p →
      ∃ n, Goes P i n (w, φ) (w', Function.update φ i (F (.ofExcept r))) := by
  have hover : ∀ {r : Except ε α} {v : W} {φ : (i : ι) → Phase S ε (σ i)}, φ i = F (.ofExcept r) →
      Goes P i 0 (v, φ) (v, Function.update φ i (F (.ofExcept r))) := by
    intro r v φ hφ
    rw [← hφ, Function.update_eq_self]
    exact .refl
  induction h with
  | ret => exact fun hφ => ⟨0, hover hφ⟩
  | raise => exact fun hφ => ⟨0, hover hφ⟩
  | @call op k v v' v'' r x hx _ ih =>
      intro φ hφ
      have hown : (P.service i).Step (P.responds i) (v, φ i) (v', F (k x)) := by
        rw [hφ]
        exact .call x (hF op k) hx
      obtain ⟨n, hn⟩ := ih (φ := Function.update φ i (F (k x))) (Function.update_self ..)
      rw [Function.update_idem] at hn
      exact ⟨n + 1, .own hown hn⟩
  | move hm _ ih =>
      intro φ hφ
      obtain ⟨n, hn⟩ := ih hφ
      exact ⟨n, .interfere hm hn⟩

/-- **From the head of the loop to the end**: a turn that leaves the loop, and what follows the loop. -/
theorem goes_of_leaving {s : σ i} {w w' w'' : W} {φ : (i : ι) → Phase S ε (σ i)} (hφ : φ i = .head s)
    (hturn : Executes (P.alone i) ((P.service i).turn s) w (.ok (.inr ())) w')
    (hfinish : Executes (P.alone i) ((P.service i).finish s (.ok ())) w' (.ok ()) w'') :
    ∃ n, Goes P i n (w, φ) (w'', Function.update φ i (.terminated (.ok ()))) := by
  have hsilent : ∀ {v : W} {ψ : (i : ι) → Phase S ε (σ i)} {χ : Phase S ε (σ i)},
      (P.service i).advance (ψ i) = some χ → Goes P i 1 (v, ψ) (v, Function.update ψ i χ) :=
    fun h => .own (.silent h) .refl
  have henter := hsilent (v := w) (ψ := φ) (χ := .turn s ((P.service i).turn s)) (by rw [hφ]; rfl)
  obtain ⟨m, hloop⟩ := goes_of_executes (F := .turn s) (fun _ _ => rfl) hturn
    (φ := Function.update φ i (.turn s ((P.service i).turn s))) (Function.update_self ..)
  rw [Function.update_idem] at hloop
  have hleave := hsilent (v := w') (ψ := Function.update φ i (.turn s (.ofExcept (.ok (.inr ())))))
    (χ := .finish ((P.service i).finish s (.ok ()))) (by rw [Function.update_self]; rfl)
  rw [Function.update_idem] at hleave
  obtain ⟨n, hrest⟩ := goes_of_executes (F := .finish) (fun _ _ => rfl) hfinish
    (φ := Function.update φ i (.finish ((P.service i).finish s (.ok ())))) (Function.update_self ..)
  rw [Function.update_idem] at hrest
  have hend := hsilent (v := w'') (ψ := Function.update φ i (.finish (.ofExcept (.ok ()))))
    (χ := .terminated (.ok ())) (by rw [Function.update_self]; rfl)
  rw [Function.update_idem] at hend
  exact ⟨_, (((henter.trans hloop).trans hleave).trans hrest).trans hend⟩

omit [DecidableEq ι] in
/-- To the thread the step of another one is a move of the crowd, or nothing. -/
theorem drifts_crowd {j : ι} {φ φ' : Phase S ε (σ j)} {w w' : W} (hj : j ≠ i)
    (h : (P.service j).Step (P.responds j) (w, φ) (w', φ')) : (P.crowd i).Drifts w w' := by
  cases h with
  | call r hφ hr => exact .single (.inr ⟨j, hj, _, r, hr⟩)
  | silent hφ => exact .refl

/-- A stretch of a run is a run. -/
theorem Goes.runs {s s' : P.State} {n : Nat} (h : Goes P i n s s') : P.Runs s s' := by
  induction h with
  | refl => exact .refl
  | interfere h _ ih => exact .head (.interfere h) ih
  | other _ h _ ih => exact .head (.thread _ h) ih
  | own h _ ih => exact .head (.thread _ h) ih

/-- What a stretch of a run reaches is reachable. -/
theorem Goes.reachable {init : W → Prop} {s s' : P.State} {n : Nat} (h : Goes P i n s s')
    (hs : P.Reachable init s) : P.Reachable init s' := by
  obtain ⟨w₀, hw₀, hrun⟩ := hs
  exact ⟨w₀, hw₀, hrun.trans h.runs⟩

/-- **The run lemma of the bounds.** -/
theorem Goes.le {s s' : P.State} {n N : Nat} (h : Goes P i n s s')
    (hends : (P.service i).Ends (P.crowd i) N (s.2 i) s.1) : n ≤ N := by
  induction h generalizing N with
  | refl => omega
  | interfere h _ ih => exact ih (hends.drifts (.single (.inl h)))
  | @other w w' φ s n j hj φ' h _ ih =>
      apply ih
      show (P.service i).Ends (P.crowd i) N (Function.update φ j φ' i) w'
      rw [Function.update_of_ne (Ne.symm hj)]
      exact hends.drifts (drifts_crowd hj h)
  | @own w w' φ s n φ' h _ ih =>
      cases N with
      | zero => exact absurd h (hends w .refl _)
      | succ N =>
          have hrest : (P.service i).Ends (P.crowd i) N (Function.update φ i φ' i) w' := by
            rw [Function.update_self]
            exact hends w .refl _ h
          exact Nat.succ_le_succ (ih hrest)

/-- **The run lemma of a safe thread.** -/
theorem Goes.phaseSafe {C : Contract S W} {Q : Service.Posts ε (σ i) W} {s s' : P.State} {n : Nat}
    (h : Goes P i n s s') (hV : (P.service i).Sound (P.crowd i) C Q)
    (hs : Service.PhaseSafe (P.crowd i) C Q (s.2 i) s.1) :
    Service.PhaseSafe (P.crowd i) C Q (s'.2 i) s'.1 := by
  induction h with
  | refl => exact hs
  | interfere h _ ih => exact ih (hs.drifts (.single (.inl h)))
  | @other w w' φ s n j hj φ' h _ ih =>
      apply ih
      show Service.PhaseSafe (P.crowd i) C Q (Function.update φ j φ' i) w'
      rw [Function.update_of_ne (Ne.symm hj)]
      exact hs.drifts (drifts_crowd hj h)
  | @own w w' φ s n φ' h _ ih =>
      apply ih
      show Service.PhaseSafe (P.crowd i) C Q (Function.update φ i φ' i) w'
      rw [Function.update_self]
      exact hV.step hs h

/-- **The run lemma of a relation between worlds.** A safe thread makes only calls that meet its guarantee,
and the others make only calls of their own. -/
theorem Goes.relates {C : Contract S W} {Q : Service.Posts ε (σ i) W} {G : ι → S.Op → Prop}
    {R : W → W → Prop} {s s' : P.State} {n : Nat} (h : Goes P i n s s')
    (hV : (P.service i).Sound (P.crowd i) C Q) (hs : Service.PhaseSafe (P.crowd i) C Q (s.2 i) s.1)
    (hG : ∀ j, j ≠ i → (P.service j).Calls (G j)) (hcalls : ∀ j, j ≠ i → (s.2 j).Calls (G j))
    (hmove : ∀ {w w'}, P.interfere w w' → R w w')
    (hother : ∀ {j w op r w'}, j ≠ i → G j op → P.responds j w op r w' → R w w')
    (hown : ∀ {w op r w'}, C.guar w op → P.responds i w op r w' → R w w') :
    ReflTransGen R s.1 s'.1 := by
  induction h with
  | refl => exact .refl
  | interfere h _ ih => exact .head (hmove h) (ih (hs.drifts (.single (.inl h))) hcalls)
  | @other w w' φ s n j hj φ' h _ ih =>
      -- to this thread the step of another one is a drift
      have hsafe : Service.PhaseSafe (P.crowd i) C Q (Function.update φ j φ' i) w' := by
        rw [Function.update_of_ne (Ne.symm hj)]
        exact hs.drifts (drifts_crowd hj h)
      have hrest : ∀ l, l ≠ i → (Function.update φ j φ' l).Calls (G l) := by
        intro l hl
        by_cases hlj : l = j
        · subst hlj
          rw [Function.update_self]
          exact (hG l hl).step (hcalls l hl) h
        · rw [Function.update_of_ne hlj]
          exact hcalls l hl
      have hend := ih hsafe hrest
      cases h with
      | call r hφ hr => exact .head (hother hj ((hcalls j hj).pending hφ).1 hr) hend
      | silent hφ => exact hend
  | @own w w' φ s n φ' h _ ih =>
      have hsafe : Service.PhaseSafe (P.crowd i) C Q (Function.update φ i φ' i) w' := by
        rw [Function.update_self]
        exact hV.step hs h
      have hrest : ∀ l, l ≠ i → (Function.update φ i φ' l).Calls (G l) := by
        intro l hl
        rw [Function.update_of_ne hl]
        exact hcalls l hl
      have hend := ih hsafe hrest
      cases h with
      | call r hφ hr => exact .head (hown (hs.pending hφ).1 hr) hend
      | silent hφ => exact hend

/-- In every reachable state the programs of a bounded service are within their bounds. -/
theorem within_of_reachable {a b c : Nat} {init : W → Prop} {s : P.State}
    (hV : (P.service i).Bounded a b c) (hs : P.Reachable init s) : (s.2 i).Within a b c :=
  of_reachable_phase (A := fun φ => φ.Within a b c) hV.setup (fun h hstep => hV.within h hstep) hs

end Pool

end CallTrees
