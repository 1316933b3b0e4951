import TransferWorker.CallTrees.Pool
import TransferWorker.CallTrees.Trace

/-! # Instrumented programs

A program that makes *marks* between its calls: counters, observations, whatever the program itself never
reads. A mark is a call of a larger signature that returns at once. Erasing the marks gives the plain
program back, and a pool of instrumented threads does what the plain threads do.

What the marks ought to be is said by an `Auditor`, which sees the calls and their answers only.

* **`Program.erase`**, `Service.erase` — the program without its marks.
* **`Pool.instrumented`** — a pool whose threads keep a record; `reachable_erase` is the refinement, and
  `called_of_reachable` finds a call on the record.
* **`Service.Records`** — the runs of one thread with its record, whatever its calls answer.
* **`Program.Pays`** — the program makes all marks that become due; `Records.settled` is the run lemma. -/

namespace CallTrees

open Relation

/-- The signature with marks. -/
abbrev Signature.marked (S : Signature) (M : Type) : Signature where
  Op := S.Op ⊕ M
  Res
    | .inl op => S.Res op
    | .inr _ => Unit

variable {S : Signature} {ε α β σ W M : Type}

/-! ## Programs without their marks -/

namespace Program

/-- **The program without its marks.** -/
def erase : Program (S.marked M) ε α → Program S ε α
  | .ret a => .ret a
  | .raise e => .raise e
  | .call (.inl op) k => .call op fun r => (k r).erase
  | .call (.inr _) k => (k (.ok ())).erase

/-- A program without marks. -/
def plain : Program S ε α → Program (S.marked M) ε α
  | .ret a => .ret a
  | .raise e => .raise e
  | .call op k => .call (S := S.marked M) (.inl op) fun r => (k r).plain

/-- Make a mark. -/
def mark (m : M) : Program (S.marked M) ε Unit := perform (S := S.marked M) (.inr m)

/-- Make several marks. -/
def marks : List M → Program (S.marked M) ε Unit
  | [] => .ret ()
  | m :: ms => mark m >>= fun _ => marks ms

/-- The end of a program has no mark. -/
@[simp] theorem erase_ret (a : α) : (ret a : Program (S.marked M) ε α).erase = ret a := rfl

/-- Neither has an exception. -/
@[simp] theorem erase_raise (e : ε) : (raise e : Program (S.marked M) ε α).erase = raise e := rfl

/-- Programs one after the other lose the marks of both. -/
@[simp] theorem erase_bind (p : Program (S.marked M) ε α) (f : α → Program (S.marked M) ε β) :
    (p >>= f).erase = p.erase >>= fun a => (f a).erase := by
  induction p with
  | ret a => rfl
  | raise e => rfl
  | call op k ih =>
      cases op with
      | inl op =>
          show Program.call op (fun r => (k r >>= f).erase) = _
          simp only [ih]
          rfl
      | inr m => exact ih (.ok ())

/-- An attempt loses the marks of what is attempted. -/
@[simp] theorem erase_attempt (p : Program (S.marked M) ε α) : p.attempt.erase = p.erase.attempt := by
  induction p with
  | ret a => rfl
  | raise e => rfl
  | call op k ih =>
      cases op with
      | inl op =>
          show Program.call op (fun r => (k r).attempt.erase) = _
          simp only [ih]
          rfl
      | inr m => exact ih (.ok ())

/-- Programs without marks one after the other make none. -/
theorem plain_bind (p : Program S ε α) (f : α → Program S ε β) :
    ((p >>= f).plain : Program (S.marked M) ε β) = p.plain >>= fun a => (f a).plain := by
  induction p with
  | ret a => rfl
  | raise e => rfl
  | call op k ih =>
      show Program.call (S := S.marked M) (.inl op) (fun r => (k r >>= f).plain) = _
      simp only [ih]
      rfl

/-- A program without marks is the same without its marks. -/
@[simp] theorem erase_plain (p : Program S ε α) : (p.plain : Program (S.marked M) ε α).erase = p := by
  induction p with
  | ret a => rfl
  | raise e => rfl
  | call op k ih =>
      show Program.call op (fun r => (k r).plain.erase) = _
      simp only [ih]

/-- A mark is nothing without marks. -/
@[simp] theorem erase_mark (m : M) : (mark m : Program (S.marked M) ε Unit).erase = ret () := rfl

/-- So are several marks. -/
@[simp] theorem erase_marks (ms : List M) : (marks ms : Program (S.marked M) ε Unit).erase = ret () := by
  induction ms with
  | nil => rfl
  | cons m ms ih => exact ih

/-- Nothing comes after the marks of a program. -/
@[simp] theorem bind_unit (p : Program S ε Unit) : (p >>= fun _ => ret ()) = p := bind_ret p

/-- A pure computation has no marks. -/
@[simp] theorem erase_ofExcept (r : Except ε α) :
    (ofExcept r : Program (S.marked M) ε α).erase = ofExcept r := by
  cases r <;> rfl

end Program

/-- A phase without its marks. -/
def Phase.erase : Phase (S.marked M) ε σ → Phase S ε σ
  | .setup p => .setup p.erase
  | .head s => .head s
  | .turn s p => .turn s p.erase
  | .finish p => .finish p.erase
  | .terminated r => .terminated r

/-- A service without its marks. -/
def Service.erase (V : Service (S.marked M) ε σ) : Service S ε σ where
  setup := V.setup.erase
  turn s := (V.turn s).erase
  finish s r := (V.finish s r).erase

/-- A service without marks. -/
def Service.plain (V : Service S ε σ) : Service (S.marked M) ε σ where
  setup := V.setup.plain
  turn s := (V.turn s).plain
  finish s r := (V.finish s r).plain

/-- A service without marks is the same without its marks. -/
@[simp] theorem Service.erase_plain (V : Service S ε σ) :
    (V.plain : Service (S.marked M) ε σ).erase = V := by
  simp [Service.erase, Service.plain]

section phases

variable {φ φ' : Phase (S.marked M) ε σ}

/-- The calls of a phase are those of the phase without its marks. -/
theorem Phase.pending_erase {op : S.Op} {k : Except ε (S.Res op) → Phase (S.marked M) ε σ}
    (h : φ.pending = some ⟨.inl op, k⟩) : φ.erase.pending = some ⟨op, fun r => (k r).erase⟩ := by
  rcases φ with (_ | _ | ⟨op', k'⟩) | _ | ⟨s, (_ | _ | ⟨op', k'⟩)⟩ | (_ | _ | ⟨op', k'⟩) | _ <;>
    simp only [Phase.pending, reduceCtorEq, Option.some.injEq, Sigma.mk.injEq] at h <;>
    obtain ⟨rfl, hk⟩ := h <;> cases hk <;> rfl

/-- A mark is not seen in the phase without its marks. -/
theorem Phase.mark_erase {m : M} {k : Except ε Unit → Phase (S.marked M) ε σ}
    (h : φ.pending = some ⟨.inr m, k⟩) : (k (.ok ())).erase = φ.erase := by
  rcases φ with (_ | _ | ⟨op', k'⟩) | _ | ⟨s, (_ | _ | ⟨op', k'⟩)⟩ | (_ | _ | ⟨op', k'⟩) | _ <;>
    simp only [Phase.pending, reduceCtorEq, Option.some.injEq, Sigma.mk.injEq] at h <;>
    obtain ⟨rfl, hk⟩ := h <;> cases hk <;> rfl

/-- The silent moves are the same. -/
theorem Service.advance_erase {V : Service (S.marked M) ε σ} (h : V.advance φ = some φ') :
    V.erase.advance φ.erase = some φ'.erase := by
  rcases φ with (s | e | _) | s | ⟨s, ((s' | u) | e | _)⟩ | (_ | e | _) | _ <;>
    simp only [Service.advance, reduceCtorEq, Option.some.injEq] at h <;> subst h <;> rfl

/-- The phase is not about to make a mark. -/
def Unmarked (φ : Phase (S.marked M) ε σ) : Prop := ∀ m k, φ.pending ≠ some ⟨.inr m, k⟩

/-- The calls of the phase without its marks are those of the phase. -/
theorem Unmarked.pending (h : Unmarked φ) {op : S.Op} {k : Except ε (S.Res op) → Phase S ε σ}
    (hk : φ.erase.pending = some ⟨op, k⟩) :
    ∃ k' : Except ε (S.Res op) → Phase (S.marked M) ε σ, φ.pending = some ⟨.inl op, k'⟩ ∧
      ∀ r, (k' r).erase = k r := by
  rcases φ with (_ | _ | ⟨op' | m, k'⟩) | _ | ⟨s, (_ | _ | ⟨op' | m, k'⟩)⟩ |
      (_ | _ | ⟨op' | m, k'⟩) | _ <;>
    first
    | exact absurd rfl (h m _)
    | (simp only [Phase.erase, Program.erase, Phase.pending, reduceCtorEq, Option.some.injEq,
        Sigma.mk.injEq] at hk
       try obtain ⟨rfl, hk⟩ := hk
       try cases hk
       try exact ⟨_, rfl, fun _ => rfl⟩)

/-- So are the silent moves. -/
theorem Unmarked.advance {V : Service (S.marked M) ε σ} (h : Unmarked φ) {ψ : Phase S ε σ}
    (hψ : V.erase.advance φ.erase = some ψ) : ∃ φ', V.advance φ = some φ' ∧ φ'.erase = ψ := by
  rcases φ with (s | e | ⟨op' | m, k'⟩) | s | ⟨s, ((s' | u) | e | ⟨op' | m, k'⟩)⟩ |
      (_ | e | ⟨op' | m, k'⟩) | _ <;>
    first
    | exact absurd rfl (h m _)
    | (simp only [Phase.erase, Program.erase, Service.advance, reduceCtorEq, Option.some.injEq] at hψ
       try subst hψ
       try exact ⟨_, rfl, rfl⟩)

end phases

/-! ## Records -/

/-- An event of a record. -/
inductive Event (S : Signature) (ε M : Type) where
  /-- A call and its answer. -/
  | call (c : Answered S ε)
  /-- A mark. -/
  | mark (m : M)

/-- A call may be answered so, and is recorded; a mark is made, and recorded. -/
def recorded (responds : W → (op : S.Op) → Except ε (S.Res op) → W → Prop) (w : W)
    (l : List (Event S ε M)) :
    (op : (S.marked M).Op) → Except ε ((S.marked M).Res op) → W → List (Event S ε M) → Prop
  | .inl op, r, w', l' => responds w op r w' ∧ l' = l ++ [.call ⟨op, r⟩]
  | .inr m, r, w', l' => r = .ok () ∧ w' = w ∧ l' = l ++ [.mark m]

/-- **The runs of one thread with its record**, whatever its calls answer. -/
inductive Service.Records (V : Service (S.marked M) ε σ) :
    List (Event S ε M) → Phase (S.marked M) ε σ → Prop
  /-- The start. -/
  | start : Records V [] (.setup V.setup)
  /-- A call with its answer, or a mark. -/
  | call {l l' : List (Event S ε M)} {φ : Phase (S.marked M) ε σ} {op : (S.marked M).Op}
      {k : Except ε ((S.marked M).Res op) → Phase (S.marked M) ε σ} (r : Except ε ((S.marked M).Res op))
      (h : Records V l φ) (hφ : φ.pending = some ⟨op, k⟩)
      (hr : recorded (fun _ _ _ _ => True) () l op r () l') : Records V l' (k r)
  /-- A silent move. -/
  | silent {l : List (Event S ε M)} {φ φ' : Phase (S.marked M) ε σ} (h : Records V l φ)
      (hφ : V.advance φ = some φ') : Records V l φ'

namespace Pool

variable {ι : Type} {τ : ι → Type} [DecidableEq ι] (P : Pool S ε W τ)
  (V : (i : ι) → Service (S.marked M) ε (τ i))

/-- **A pool whose threads make marks and keep a record**; the record goes with the process. -/
def instrumented : Pool (S.marked M) ε (W × (ι → List (Event S ε M))) τ where
  service := V
  responds i w op r w' := recorded (P.responds i) w.1 (w.2 i) op r w'.1 (w'.2 i) ∧
    ∀ j, j ≠ i → w'.2 j = w.2 j
  interfere w w' := P.interfere w.1 w'.1 ∧ w'.2 = w.2
  restart w w' := P.restart w.1 w'.1 ∧ w'.2 = fun _ => []

variable {P V}

/-- The phases of all threads without their marks. -/
def erased (φ : (i : ι) → Phase (S.marked M) ε (τ i)) : (i : ι) → Phase S ε (τ i) :=
  fun i => (φ i).erase

/-- The phases without their marks after a move of one thread. -/
theorem erased_update (φ : (i : ι) → Phase (S.marked M) ε (τ i)) (i : ι) (φ' : Phase (S.marked M) ε (τ i)) :
    erased (Function.update φ i φ') = Function.update (erased φ) i φ'.erase := by
  funext j
  exact Function.apply_update (fun _ => Phase.erase) φ i φ' j

/-- A step of the instrumented pool is a step of the plain one, or nothing. -/
theorem step_erase (hV : ∀ i, (V i).erase = P.service i) {s s' : (P.instrumented V).State}
    (h : (P.instrumented V).Step s s') :
    P.Step (s.1.1, erased s.2) (s'.1.1, erased s'.2) ∨ (s.1.1, erased s.2) = (s'.1.1, erased s'.2) := by
  cases h with
  | interfere h => exact .inl (.interfere h.1)
  | @thread w w' φ i φ' h =>
      show P.Step (w.1, erased φ) (w'.1, erased (Function.update φ i φ')) ∨ _
      rw [erased_update]
      cases h with
      | @call _ _ _ op k r hφ hr =>
          cases op with
          | inl op =>
              have hpending : (erased φ i).pending = some ⟨op, fun r => (k r).erase⟩ :=
                Phase.pending_erase hφ
              have hstep : (P.service i).Step (P.responds i) (w.1, erased φ i) (w'.1, (k r).erase) :=
                Service.Step.call (k := fun r => Phase.erase (k r)) r hpending hr.1.1
              exact .inl (.thread i hstep)
          | inr m =>
              -- a mark leaves the world and the plain phase as they are
              right
              obtain ⟨⟨rfl, hw, -⟩, -⟩ := hr
              have hphase : (k (.ok ())).erase = erased φ i := Phase.mark_erase hφ
              show (w.1, erased φ) = (w'.1, Function.update (erased φ) i (k (.ok ())).erase)
              rw [hphase, Function.update_eq_self, hw]
      | silent hφ =>
          refine .inl (.thread i (.silent ?_))
          rw [← hV i]
          exact Service.advance_erase hφ
  | restart h =>
      have hstart : erased (P.instrumented V).start = P.start := by
        funext i
        exact congrArg (fun U : Service S ε (τ i) => Phase.setup U.setup) (hV i)
      refine .inl ?_
      rw [hstart]
      exact .restart h.1

/-- **The refinement**: what an instrumented pool reaches, the plain pool reaches. -/
theorem reachable_erase (hV : ∀ i, (V i).erase = P.service i) {init : W → Prop}
    {s : (P.instrumented V).State}
    (hs : (P.instrumented V).Reachable (fun w => init w.1 ∧ w.2 = fun _ => []) s) :
    P.Reachable init (s.1.1, erased s.2) := by
  obtain ⟨w₀, hw₀, hrun⟩ := hs
  refine ⟨w₀.1, hw₀.1, ?_⟩
  induction hrun with
  | refl =>
      have hstart : erased (P.instrumented V).start = P.start := by
        funext i
        exact congrArg (fun U : Service S ε (τ i) => Phase.setup U.setup) (hV i)
      show ReflTransGen P.Step _ (w₀.1, erased (P.instrumented V).start)
      rw [hstart]
  | tail _ hstep ih =>
      rcases step_erase hV hstep with h | h
      · exact ih.tail h
      · rwa [← h]

/-! ### The runs of the plain pool -/

/-- The marks before the next call or the end of the program are made. -/
theorem runs_marks {α : Type} {i : ι} {F : Program (S.marked M) ε α → Phase (S.marked M) ε (τ i)}
    (hF : ∀ op k, (F (.call op k)).pending = some ⟨op, fun r => F (k r)⟩)
    (hidle : ∀ r, (F (.ofExcept r)).pending = none) (p : Program (S.marked M) ε α)
    {w : W × (ι → List (Event S ε M))} {φ : (i : ι) → Phase (S.marked M) ε (τ i)} (hφ : φ i = F p) :
    ∃ l φ', (P.instrumented V).Runs (w, φ) ((w.1, l), Function.update φ i φ') ∧ Unmarked φ' ∧
      φ'.erase = (F p).erase := by
  -- there may be no mark to make
  have hrest : ∀ (w : W × (ι → List (Event S ε M))) (φ : (i : ι) → Phase (S.marked M) ε (τ i))
      (p : Program (S.marked M) ε α), φ i = F p → Unmarked (F p) → ∃ l φ',
        (P.instrumented V).Runs (w, φ) ((w.1, l), Function.update φ i φ') ∧ Unmarked φ' ∧
          φ'.erase = (F p).erase := by
    intro w φ p hφ hunmarked
    refine ⟨w.2, F p, ?_, hunmarked, rfl⟩
    rw [← hφ, Function.update_eq_self]
  have hover : ∀ r, Unmarked (F (.ofExcept r)) := by
    intro r m k hk
    rw [hidle r] at hk
    cases hk
  induction p generalizing w φ with
  | ret a => exact hrest w φ _ hφ (hover (.ok a))
  | raise e => exact hrest w φ _ hφ (hover (.error e))
  | call op k ih =>
      cases op with
      | inl op =>
          refine hrest w φ _ hφ fun m k' hk => ?_
          rw [hF, Option.some.injEq, Sigma.mk.injEq] at hk
          cases hk.1
      | inr m =>
          let w' : W × (ι → List (Event S ε M)) := (w.1, Function.update w.2 i (w.2 i ++ [.mark m]))
          have hpending : (φ i).pending = some ⟨.inr m, fun r => F (k r)⟩ := by rw [hφ, hF]
          have hrecorded : (P.instrumented V).responds i w (.inr m) (.ok ()) w' :=
            ⟨⟨rfl, rfl, Function.update_self ..⟩, fun j hj => Function.update_of_ne hj ..⟩
          have hstep : (P.instrumented V).Step (w, φ) (w', Function.update φ i (F (k (.ok ())))) :=
            .thread i (Service.Step.call (k := fun r => F (k r)) (.ok ()) hpending hrecorded)
          obtain ⟨l, φ', hruns, hunmarked, herase⟩ :=
            ih (.ok ()) (w := w') (φ := Function.update φ i (F (k (.ok ())))) (Function.update_self ..)
          rw [Function.update_idem] at hruns
          refine ⟨l, φ', .head hstep hruns, hunmarked, ?_⟩
          rw [herase]
          exact Phase.mark_erase (hF _ _)

/-- A thread makes the marks before its next call or silent move. -/
theorem runs_unmarked (w : W × (ι → List (Event S ε M))) (φ : (i : ι) → Phase (S.marked M) ε (τ i))
    (i : ι) : ∃ l φ', (P.instrumented V).Runs (w, φ) ((w.1, l), Function.update φ i φ') ∧ Unmarked φ' ∧
      φ'.erase = (φ i).erase := by
  have hrest : (φ i).pending = none → ∃ l φ', (P.instrumented V).Runs (w, φ)
      ((w.1, l), Function.update φ i φ') ∧ Unmarked φ' ∧ φ'.erase = (φ i).erase := by
    intro hnone
    refine ⟨w.2, φ i, ?_, fun m k hk => ?_, rfl⟩
    · rw [Function.update_eq_self]
    · rw [hnone] at hk
      cases hk
  cases hφ : φ i with
  | setup p => exact runs_marks (fun _ _ => rfl) (fun r => by cases r <;> rfl) p hφ
  | turn s p => exact runs_marks (F := .turn s) (fun _ _ => rfl) (fun r => by cases r <;> rfl) p hφ
  | finish p => exact runs_marks (F := .finish) (fun _ _ => rfl) (fun r => by cases r <;> rfl) p hφ
  | head s =>
      rw [hφ] at hrest
      exact hrest rfl
  | terminated r =>
      rw [hφ] at hrest
      exact hrest rfl

/-- **A step of the plain pool** is one that the instrumented pool can make, after some marks. -/
theorem runs_of_step (hV : ∀ i, (V i).erase = P.service i) {v v' : W} {ψ ψ' : (i : ι) → Phase S ε (τ i)}
    (h : P.Step (v, ψ) (v', ψ')) {w : W × (ι → List (Event S ε M))}
    {φ : (i : ι) → Phase (S.marked M) ε (τ i)} (hw : w.1 = v) (hφ : erased φ = ψ) :
    ∃ w' φ', (P.instrumented V).Runs (w, φ) (w', φ') ∧ w'.1 = v' ∧ erased φ' = ψ' := by
  subst hw hφ
  cases h with
  | interfere h => exact ⟨(v', w.2), φ, .single (.interfere ⟨h, rfl⟩), rfl, rfl⟩
  | restart h =>
      refine ⟨(v', fun _ => []), (P.instrumented V).start, .single (.restart ⟨h, rfl⟩), rfl, ?_⟩
      funext i
      exact congrArg (fun U : Service S ε (τ i) => Phase.setup U.setup) (hV i)
  | @thread _ _ _ i ψ' h =>
      -- first the marks that are due, then the step itself
      obtain ⟨l, φ₁, hruns, hunmarked, herase⟩ := runs_unmarked (P := P) (V := V) w φ i
      have hsame : erased (Function.update φ i φ₁) = erased φ := by
        rw [erased_update, herase]
        exact Function.update_eq_self ..
      have hself : Function.update φ i φ₁ i = φ₁ := Function.update_self ..
      rw [show erased φ i = φ₁.erase from herase.symm] at h
      cases h with
      | @call _ _ _ op k r hψ hr =>
          obtain ⟨k', hpending, hk⟩ := hunmarked.pending hψ
          let w' : W × (ι → List (Event S ε M)) := (v', Function.update l i (l i ++ [.call ⟨op, r⟩]))
          have hrecorded : (P.instrumented V).responds i (w.1, l) (.inl op) r w' :=
            ⟨⟨hr, Function.update_self ..⟩, fun j hj => Function.update_of_ne hj ..⟩
          have hcall : (Function.update φ i φ₁ i).pending = some ⟨.inl op, k'⟩ := by rw [hself, hpending]
          have hstep : (P.instrumented V).Step ((w.1, l), Function.update φ i φ₁)
              (w', Function.update (Function.update φ i φ₁) i (k' r)) :=
            .thread i (@Service.Step.call _ _ _ _ (V i) _ _ _ _ (.inl op) k' r hcall hrecorded)
          refine ⟨w', _, hruns.tail hstep, rfl, ?_⟩
          rw [erased_update, hsame, hk r]
      | silent hψ =>
          rw [← hV i] at hψ
          obtain ⟨φ₂, hadvance, hφ₂⟩ := hunmarked.advance hψ
          have hstep : (P.instrumented V).Step ((w.1, l), Function.update φ i φ₁)
              ((w.1, l), Function.update (Function.update φ i φ₁) i φ₂) :=
            .thread i (.silent (by rw [hself]; exact hadvance))
          refine ⟨(w.1, l), _, hruns.tail hstep, rfl, ?_⟩
          rw [erased_update, hsame, hφ₂]

/-- **The runs of the plain pool** are runs of the instrumented one without their marks. -/
theorem reachable_instrumented (hV : ∀ i, (V i).erase = P.service i) {init : W → Prop} {s : P.State}
    (hs : P.Reachable init s) : ∃ s' : (P.instrumented V).State,
      (P.instrumented V).Reachable (fun w => init w.1 ∧ w.2 = fun _ => []) s' ∧ s'.1.1 = s.1 ∧
        erased s'.2 = s.2 := by
  obtain ⟨w₀, hw₀, hrun⟩ := hs
  induction hrun with
  | refl =>
      refine ⟨((w₀, fun _ => []), (P.instrumented V).start), ⟨_, ⟨hw₀, rfl⟩, .refl⟩, rfl, ?_⟩
      funext i
      exact congrArg (fun U : Service S ε (τ i) => Phase.setup U.setup) (hV i)
  | tail _ hstep ih =>
      obtain ⟨⟨w, φ⟩, ⟨w₁, hw₁, hruns⟩, hw, hφ⟩ := ih
      obtain ⟨w', φ', hmore, hw', hφ'⟩ := runs_of_step hV hstep hw hφ
      exact ⟨(w', φ'), ⟨w₁, hw₁, hruns.trans hmore⟩, hw', hφ'⟩

/-- **Every thread of a run has its record.** -/
theorem records_of_reachable {init : W → Prop} {s : (P.instrumented V).State}
    (hs : (P.instrumented V).Reachable (fun w => init w.1 ∧ w.2 = fun _ => []) s) (i : ι) :
    (V i).Records (s.1.2 i) (s.2 i) := by
  obtain ⟨w₀, hw₀, hrun⟩ := hs
  induction hrun with
  | refl =>
      show (V i).Records (w₀.2 i) _
      rw [hw₀.2]
      exact .start
  | tail _ hstep ih =>
      cases hstep with
      | interfere h =>
          show (V i).Records _ _
          rw [h.2]
          exact ih
      | @thread w w' φ j φ' h =>
          show (V i).Records (w'.2 i) (Function.update φ j φ' i)
          -- only the thread that steps writes a record, and only its own
          by_cases hj : i = j
          · subst hj
            rw [Function.update_self]
            cases h with
            | @call _ _ _ op k r hφ hr =>
                refine .call r ih hφ ?_
                cases op with
                | inl op => exact ⟨trivial, hr.1.2⟩
                | inr m => exact ⟨hr.1.1, rfl, hr.1.2.2⟩
            | silent hφ => exact .silent ih hφ
          · rw [Function.update_of_ne hj]
            cases h with
            | call r hφ hr =>
                rw [hr.2 i hj]
                exact ih
            | silent hφ => exact ih
      -- a restart empties every record, as at the start
      | restart h =>
          show (V i).Records _ _
          rw [h.2]
          exact .start

/-- What is reached under a condition is reached. -/
theorem reachable_instrumented_of_under {K : Condition S ε W ι}
    {init : W × (ι → List (Event S ε M)) → Prop}
    {s : (W × (ι → List (Event S ε M))) × ((i : ι) → Phase (S.marked M) ε (τ i))}
    (hs : Reachable ((P.under K).instrumented V) init s) : Reachable (P.instrumented V) init s := by
  obtain ⟨w₀, hw₀, hrun⟩ := hs
  refine ⟨w₀, hw₀, ?_⟩
  induction hrun with
  | refl => exact .refl
  | tail _ hstep ih =>
      refine ih.tail ?_
      cases hstep with
      | interfere h => exact .interfere ⟨h.1.1, h.2⟩
      | thread i h =>
          refine .thread i ?_
          cases h with
          | @call _ _ _ op k r hφ hr =>
              refine @Service.Step.call _ _ _ _ (V i) _ _ _ _ op k r hφ ⟨?_, hr.2⟩
              cases op with
              | inl op => exact ⟨hr.1.1.1, hr.1.2⟩
              | inr m => exact hr.1
          | silent hφ => exact .silent hφ
      | restart h => exact .restart ⟨h.1.1, h.2⟩

/-- **A call that must have been made is on the record.** Every step keeps an assertion, but for some
calls of one thread: where the assertion fails, such a call was made. -/
theorem called_of_reachable (hV : ∀ i, (V i).erase = P.service i) {init A : W → Prop} {i : ι}
    {Q : (op : S.Op) → Except ε (S.Res op) → Prop} (hinit : ∀ w, init w → A w)
    (hmove : ∀ w w', A w → P.interfere w w' → A w')
    (hcall : ∀ s : P.State, P.Reachable init s → ∀ j op k r w', (s.2 j).pending = some ⟨op, k⟩ → A s.1 →
      P.responds j s.1 op r w' → A w' ∨ j = i ∧ Q op r)
    (hrestart : ∀ w w', ¬P.restart w w') {s : (P.instrumented V).State}
    (hs : (P.instrumented V).Reachable (fun w => init w.1 ∧ w.2 = fun _ => []) s) :
    A s.1.1 ∨ ∃ op r, Event.call ⟨op, r⟩ ∈ s.1.2 i ∧ Q op r := by
  obtain ⟨w₀, hw₀, hrun⟩ := hs
  induction hrun with
  | refl => exact .inl (hinit _ hw₀.1)
  | tail hruns hstep ih =>
      cases hstep with
      | interfere h => exact ih.imp (fun hA => hmove _ _ hA h.1) fun hrecord => by rwa [h.2]
      | @thread w w' φ j φ' h =>
          have hplain : P.Reachable init (w.1, erased φ) := reachable_erase hV ⟨w₀, hw₀, hruns⟩
          cases h with
          | @call _ _ _ op k r hφ hr =>
              obtain ⟨hanswer, hothers⟩ := hr
              -- the record of the thread only grows
              have hgrows : ∀ e ∈ w.2 i, e ∈ w'.2 i := by
                intro e he
                by_cases hj : i = j
                · subst hj
                  cases op with
                  | inl op => exact hanswer.2 ▸ List.mem_append_left _ he
                  | inr m => exact hanswer.2.2 ▸ List.mem_append_left _ he
                · exact hothers i hj ▸ he
              rcases ih with hA | ⟨op', r', hmem, hQ⟩
              · cases op with
                | inl op =>
                    refine (hcall _ hplain j op _ r _ (Phase.pending_erase hφ) hA hanswer.1).imp_right ?_
                    rintro ⟨rfl, hQ⟩
                    exact ⟨op, r, hanswer.2 ▸ by simp, hQ⟩
                | inr m =>
                    have hsame : w'.1 = w.1 := hanswer.2.1
                    exact .inl (hsame ▸ hA)
              · exact .inr ⟨op', r', hgrows _ hmem, hQ⟩
          | silent hφ => exact ih
      | restart h => exact absurd h.1 (hrestart _ _)

end Pool

/-! ## What the marks ought to be -/

/-- **An auditor** follows the calls of a thread and their answers, and says which marks become due. -/
structure Auditor (S : Signature) (ε M : Type) where
  /-- What it remembers. -/
  State : Type
  /-- At the start. -/
  init : State
  /-- After a call. -/
  step : State → Answered S ε → State
  /-- The marks that a call makes due. -/
  due : State → Answered S ε → List M

/-- The marks of a record. -/
def marksOf : List (Event S ε M) → List M
  | [] => []
  | .call _ :: l => marksOf l
  | .mark m :: l => m :: marksOf l

/-- The marks of two records one after the other. -/
theorem marksOf_append (l l' : List (Event S ε M)) : marksOf (l ++ l') = marksOf l ++ marksOf l' := by
  induction l with
  | nil => rfl
  | cons e l ih =>
      cases e with
      | call c => exact ih
      | mark m => exact congrArg (List.cons m) ih

namespace Auditor

variable (A : Auditor S ε M)

/-- What the auditor remembers after a record. -/
def after : A.State → List (Event S ε M) → A.State
  | s, [] => s
  | s, .call c :: l => after (A.step s c) l
  | s, .mark _ :: l => after s l

/-- The marks that a record makes due. -/
def dues : A.State → List (Event S ε M) → List M
  | _, [] => []
  | s, .call c :: l => A.due s c ++ dues (A.step s c) l
  | s, .mark _ :: l => dues s l

/-- What the auditor remembers after two records. -/
theorem after_append (s : A.State) (l l' : List (Event S ε M)) :
    A.after s (l ++ l') = A.after (A.after s l) l' := by
  induction l generalizing s with
  | nil => rfl
  | cons e l ih => cases e <;> exact ih _

/-- What two records make due. -/
theorem dues_append (s : A.State) (l l' : List (Event S ε M)) :
    A.dues s (l ++ l') = A.dues s l ++ A.dues (A.after s l) l' := by
  induction l generalizing s with
  | nil => rfl
  | cons e l ih =>
      cases e with
      | call c =>
          show A.due s c ++ A.dues (A.step s c) (l ++ l') = _
          rw [ih, ← List.append_assoc]
          rfl
      | mark m => exact ih s

end Auditor

namespace Program

variable {A : Auditor S ε M} {s : A.State} {ms : List M} {p : Program (S.marked M) ε α}
  {post post' : Except ε α → A.State → List M → Prop}

/-- **The program pays**: started when the marks `ms` are due, it makes the marks that are due in their
order, whatever its calls answer; `post` says how it ends, and what is still due then. -/
def Pays (A : Auditor S ε M) (post : Except ε α → A.State → List M → Prop) :
    A.State → List M → Program (S.marked M) ε α → Prop
  | s, ms, .ret a => post (.ok a) s ms
  | s, ms, .raise e => post (.error e) s ms
  | s, ms, .call (.inl op) k => ∀ r, Pays A post (A.step s ⟨op, r⟩) (ms ++ A.due s ⟨op, r⟩) (k r)
  | s, ms, .call (.inr m) k => ∃ ms', ms = m :: ms' ∧ Pays A post s ms' (k (.ok ()))

/-- A weaker postcondition. -/
theorem Pays.mono (h : Pays A post s ms p) (hpost : ∀ r s ms, post r s ms → post' r s ms) :
    Pays A post' s ms p := by
  induction p generalizing s ms with
  | ret a => exact hpost _ _ _ h
  | raise e => exact hpost _ _ _ h
  | call op k ih =>
      cases op with
      | inl op => exact fun r => ih r (h r)
      | inr m =>
          obtain ⟨ms', hms, hrest⟩ := h
          exact ⟨ms', hms, ih _ hrest⟩

/-- One program after the other. -/
theorem Pays.bind {mid : Except ε α → A.State → List M → Prop}
    {post : Except ε β → A.State → List M → Prop} {f : α → Program (S.marked M) ε β}
    (h : Pays A mid s ms p) (hok : ∀ a s ms, mid (.ok a) s ms → Pays A post s ms (f a))
    (herr : ∀ e s ms, mid (.error e) s ms → post (.error e) s ms) : Pays A post s ms (p >>= f) := by
  induction p generalizing s ms with
  | ret a => exact hok _ _ _ h
  | raise e => exact herr _ _ _ h
  | call op k ih =>
      cases op with
      | inl op => exact fun r => ih r (h r)
      | inr m =>
          obtain ⟨ms', hms, hrest⟩ := h
          exact ⟨ms', hms, ih _ hrest⟩

/-- The result as a value. -/
theorem Pays.attempt {post : Except ε (Except ε α) → A.State → List M → Prop}
    (h : Pays A (fun r => post (.ok r)) s ms p) : Pays A post s ms p.attempt := by
  induction p generalizing s ms with
  | ret a => exact h
  | raise e => exact h
  | call op k ih =>
      cases op with
      | inl op => exact fun r => ih r (h r)
      | inr m =>
          obtain ⟨ms', hms, hrest⟩ := h
          exact ⟨ms', hms, ih _ hrest⟩

/-- A call, and a program after it. -/
theorem pays_call {op : S.Op} {f : S.Res op → Program (S.marked M) ε α}
    (hok : ∀ x, Pays A post (A.step s ⟨op, .ok x⟩) (ms ++ A.due s ⟨op, .ok x⟩) (f x))
    (herr : ∀ e, post (.error e) (A.step s ⟨op, .error e⟩) (ms ++ A.due s ⟨op, .error e⟩)) :
    Pays A post s ms ((perform op).plain >>= f) := by
  intro r
  cases r with
  | ok x => exact hok x
  | error e => exact herr e

/-- All marks that are due are made, and a program follows. -/
theorem pays_marks {f : Unit → Program (S.marked M) ε α} (h : Pays A post s [] (f ())) :
    Pays A post s ms (marks ms >>= f) := by
  induction ms with
  | nil => exact h
  | cons m ms ih => exact ⟨ms, rfl, ih⟩

/-- All marks that are due are made. -/
theorem pays_all {post : Except ε Unit → A.State → List M → Prop} (h : post (.ok ()) s []) :
    Pays A post s ms (marks ms) := by
  induction ms with
  | nil => exact h
  | cons m ms ih => exact ⟨ms, rfl, ih⟩

/-- A pure computation, and a program after it. -/
theorem pays_ofExcept {r : Except ε β} {f : β → Program (S.marked M) ε α}
    (hok : ∀ b, r = .ok b → Pays A post s ms (f b)) (herr : ∀ e, post (.error e) s ms) :
    Pays A post s ms (ofExcept r >>= f) := by
  cases r with
  | ok b => exact hok b rfl
  | error e => exact herr e

/-- Calls that do not interest the auditor. -/
theorem pays_plain {P : S.Op → Prop} {p : Program S ε α} (hp : p.Calls P)
    (hstep : ∀ op s r, P op → A.step s ⟨op, r⟩ = s ∧ A.due s ⟨op, r⟩ = []) :
    Pays A (fun _ s' ms' => s' = s ∧ ms' = ms) s ms p.plain := by
  induction p with
  | ret a => exact ⟨rfl, rfl⟩
  | raise e => exact ⟨rfl, rfl⟩
  | call op k ih =>
      intro r
      obtain ⟨hs, hdue⟩ := hstep op s r hp.1
      rw [hs, hdue, List.append_nil]
      exact ih r (hp.2 r)

end Program

namespace Service

variable {A : Auditor S ε M} {V : Service (S.marked M) ε σ} {φ φ' : Phase (S.marked M) ε σ}
  {s : A.State} {ms : List M} {l : List (Event S ε M)}

/-- Nothing is due. -/
def paid (A : Auditor S ε M) : Except ε α → A.State → List M → Prop := fun _ _ ms => ms = []

/-- The programs of a service pay. -/
structure Pays (V : Service (S.marked M) ε σ) (A : Auditor S ε M) : Prop where
  /-- The setup. -/
  setup : V.setup.Pays A (paid A) A.init []
  /-- A turn. -/
  turn : ∀ x s, (V.turn x).Pays A (paid A) s []
  /-- The code after the loop. -/
  finish : ∀ x r s, (V.finish x r).Pays A (paid A) s []

/-- What is left of the phase pays. -/
def PhasePays (A : Auditor S ε M) (s : A.State) (ms : List M) : Phase (S.marked M) ε σ → Prop
  | .setup p => p.Pays A (paid A) s ms
  | .turn _ p => p.Pays A (paid A) s ms
  | .finish p => p.Pays A (paid A) s ms
  | _ => ms = []

/-- After a call what is left of the phase pays what the call made due. -/
theorem PhasePays.call {op : S.Op} {k : Except ε (S.Res op) → Phase (S.marked M) ε σ}
    (h : PhasePays A s ms φ) (hφ : φ.pending = some ⟨.inl op, k⟩) (r : Except ε (S.Res op)) :
    PhasePays A (A.step s ⟨op, r⟩) (ms ++ A.due s ⟨op, r⟩) (k r) := by
  rcases φ with (_ | _ | ⟨op', k'⟩) | _ | ⟨x, (_ | _ | ⟨op', k'⟩)⟩ | (_ | _ | ⟨op', k'⟩) | _ <;>
    simp only [Phase.pending, reduceCtorEq, Option.some.injEq, Sigma.mk.injEq] at hφ <;>
    obtain ⟨rfl, hk⟩ := hφ <;> cases hk <;> exact h r

/-- A mark is the first one that is due. -/
theorem PhasePays.mark {m : M} {k : Except ε Unit → Phase (S.marked M) ε σ} (h : PhasePays A s ms φ)
    (hφ : φ.pending = some ⟨.inr m, k⟩) : ∃ ms', ms = m :: ms' ∧ PhasePays A s ms' (k (.ok ())) := by
  rcases φ with (_ | _ | ⟨op', k'⟩) | _ | ⟨x, (_ | _ | ⟨op', k'⟩)⟩ | (_ | _ | ⟨op', k'⟩) | _ <;>
    simp only [Phase.pending, reduceCtorEq, Option.some.injEq, Sigma.mk.injEq] at hφ <;>
    obtain ⟨rfl, hk⟩ := hφ <;> cases hk <;> exact h

/-- After a silent move what is left of the phase pays. -/
theorem Pays.advance (hV : V.Pays A) (h : PhasePays A s ms φ) (hφ : V.advance φ = some φ') :
    PhasePays A s ms φ' := by
  rcases φ with (x | e | _) | x | ⟨x, ((x' | u) | e | _)⟩ | (_ | e | _) | _ <;>
    simp only [Service.advance, reduceCtorEq, Option.some.injEq] at hφ <;> subst hφ
  · exact h
  · exact h
  · obtain rfl : ms = [] := h
    exact hV.turn x s
  · exact h
  · obtain rfl : ms = [] := h
    exact hV.finish x (.ok ()) s
  · obtain rfl : ms = [] := h
    exact hV.finish x (.error e) s
  · exact h
  · exact h

/-- **The run lemma**: at every moment the marks of the record, and those that what is left of the phase is
about to make, are the ones that are due. -/
theorem Records.pays (hV : V.Pays A) (h : V.Records l φ) :
    ∃ ms, PhasePays A (A.after A.init l) ms φ ∧ marksOf l ++ ms = A.dues A.init l := by
  induction h with
  | start => exact ⟨[], hV.setup, rfl⟩
  | @call l l' φ op k r _ hφ hr ih =>
      obtain ⟨ms, hpays, hdue⟩ := ih
      cases op with
      | inl op =>
          obtain ⟨-, rfl⟩ := hr
          rw [A.after_append, A.dues_append, marksOf_append, ← hdue]
          refine ⟨_, hpays.call hφ r, ?_⟩
          simp [marksOf, Auditor.dues]
      | inr m =>
          obtain ⟨rfl, -, rfl⟩ := hr
          rw [A.after_append, A.dues_append, marksOf_append, ← hdue]
          obtain ⟨ms', rfl, hrest⟩ := hpays.mark hφ
          exact ⟨ms', hrest, by simp [marksOf, Auditor.dues]⟩
  | silent _ hφ ih =>
      obtain ⟨ms, hpays, hdue⟩ := ih
      exact ⟨ms, hV.advance hpays hφ, hdue⟩

/-- The marks of a record are never ahead of what is due. -/
theorem Records.never_ahead (hV : V.Pays A) (h : V.Records l φ) : marksOf l <+: A.dues A.init l := by
  obtain ⟨ms, -, hdue⟩ := h.pays hV
  exact ⟨ms, hdue⟩

/-- The thread is at the head of its loop, or has ended. -/
def Resting : Phase (S.marked M) ε σ → Prop
  | .head _ => True
  | .terminated _ => True
  | _ => False

/-- **At the head of the loop and at the end of the thread all marks were made.** -/
theorem Records.settled (hV : V.Pays A) (h : V.Records l φ) (hφ : Resting φ) :
    marksOf l = A.dues A.init l := by
  obtain ⟨ms, hpays, hdue⟩ := h.pays hV
  have hms : ms = [] := by
    cases φ with
    | head x => exact hpays
    | terminated r => exact hpays
    | _ => exact hφ.elim
  rw [← hdue, hms, List.append_nil]

end Service

end CallTrees
