import TransferWorker.CallTrees.Program

/-! # Programs under interference

A call tree runs in a world that other parties change between any two of its calls. An
`Environment` says what a call may answer and do (`responds`) and how the world may move on its own
(`interfere`). `Safe` is the property proved of a program started in a world: whatever the calls
answer and however the world moves in between, the contract's invariant holds all the time, every
call is made in a world that meets its guarantee, and the program ends in a world that meets the
postcondition. Its rules follow the program's syntax and use assertions that are *stable*, i.e.
kept by interference. -/

namespace CallTrees

open Relation

variable {S : Signature} {ε α β W : Type}

/-- A world that programs call into. -/
structure Environment (S : Signature) (ε W : Type) where
  /-- `responds w op r w'`: in the world `w` the call `op` may answer `r` and leave `w'`. -/
  responds : W → (op : S.Op) → Except ε (S.Res op) → W → Prop
  /-- The world's own moves between two calls. -/
  interfere : W → W → Prop

/-- What a program owes its surroundings: an invariant that holds at every moment, and a guarantee
that holds whenever it makes a call. -/
structure Contract (S : Signature) (W : Type) where
  /-- Holds at every moment of the run. -/
  inv : W → Prop
  /-- Holds of the world and the call whenever a call is made. -/
  guar : W → S.Op → Prop

namespace Environment

variable (E : Environment S ε W)

/-- Zero or more moves of the world. -/
abbrev Drifts : W → W → Prop := ReflTransGen E.interfere

/-- An assertion is **stable** when interference keeps it. -/
def Stable (A : W → Prop) : Prop := ∀ ⦃w w'⦄, A w → E.interfere w w' → A w'

variable {E} {A B : W → Prop}

/-- A stable assertion holds however the world drifts. -/
theorem Stable.drifts (hA : E.Stable A) {w w' : W} (h : E.Drifts w w') (hw : A w) : A w' := by
  induction h with
  | refl => exact hw
  | tail _ hstep ih => exact hA ih hstep

/-- Two stable assertions are stable together. -/
theorem Stable.and (hA : E.Stable A) (hB : E.Stable B) : E.Stable fun w => A w ∧ B w :=
  fun _ _ h hw => ⟨hA h.1 hw, hB h.2 hw⟩

/-- A fact that is not about the world is stable. -/
theorem stable_const (P : Prop) : E.Stable fun _ => P := fun _ _ h _ => h

/-- Every answer and every move of the one environment is possible in the other. -/
structure Within (E' E : Environment S ε W) : Prop where
  /-- The answers. -/
  responds : ∀ {w op r w'}, E'.responds w op r w' → E.responds w op r w'
  /-- The moves. -/
  interfere : ∀ {w w'}, E'.interfere w w' → E.interfere w w'

/-- What drifts in a smaller environment drifts in a larger one. -/
theorem Within.drifts {E' : Environment S ε W} (hE : E'.Within E) {w w' : W} (h : E'.Drifts w w') :
    E.Drifts w w' := by
  induction h with
  | refl => exact .refl
  | tail _ hm ih => exact ih.tail (hE.interfere hm)

end Environment

/-- **Safety of a program in a world** under interference: the invariant of `C` always holds, its
guarantee holds at every call, and the program ends in a world that meets `post`. -/
def Safe (E : Environment S ε W) (C : Contract S W) (post : Except ε α → W → Prop) :
    Program S ε α → W → Prop
  | .ret a, w => ∀ w', E.Drifts w w' → C.inv w' ∧ post (.ok a) w'
  | .raise e, w => ∀ w', E.Drifts w w' → C.inv w' ∧ post (.error e) w'
  | .call op k, w => ∀ w', E.Drifts w w' → C.inv w' ∧ C.guar w' op ∧
      ∀ r w'', E.responds w' op r w'' → Safe E C post (k r) w''

namespace Safe

variable {E : Environment S ε W} {C : Contract S W} {post : Except ε α → W → Prop}
  {p : Program S ε α} {w w' : W}

/-- A safe program is in a world that meets the invariant. -/
theorem inv (h : Safe E C post p w) : C.inv w := by
  cases p with
  | ret a => exact (h w .refl).1
  | raise e => exact (h w .refl).1
  | call op k => exact (h w .refl).1

/-- Interference keeps a program safe. -/
theorem drifts (h : Safe E C post p w) (hw : E.Drifts w w') : Safe E C post p w' := by
  cases p with
  | ret a => exact fun v hv => h v (hw.trans hv)
  | raise e => exact fun v hv => h v (hw.trans hv)
  | call op k => exact fun v hv => h v (hw.trans hv)

/-- What the call at the root of a safe program may rely on, and what follows it. -/
theorem call_root {op : S.Op} {k : Except ε (S.Res op) → Program S ε α}
    (h : Safe E C post (.call op k) w) :
    C.guar w op ∧ ∀ r w', E.responds w op r w' → Safe E C post (k r) w' :=
  (h w .refl).2

/-- The rule of a normal return. -/
theorem ret {A : W → Prop} {a : α} (hA : E.Stable A) (hinv : ∀ w, A w → C.inv w)
    (hpost : ∀ w, A w → post (.ok a) w) (h : A w) : Safe E C post (.ret a) w :=
  fun w' hw => ⟨hinv w' (hA.drifts hw h), hpost w' (hA.drifts hw h)⟩

/-- The rule of an exception. -/
theorem raise {A : W → Prop} {e : ε} (hA : E.Stable A) (hinv : ∀ w, A w → C.inv w)
    (hpost : ∀ w, A w → post (.error e) w) (h : A w) : Safe E C post (.raise e) w :=
  fun w' hw => ⟨hinv w' (hA.drifts hw h), hpost w' (hA.drifts hw h)⟩

/-- The rule of a call: a stable assertion holds before it, and what may come back is safe. -/
theorem call {A : W → Prop} {op : S.Op} {k : Except ε (S.Res op) → Program S ε α}
    (hA : E.Stable A) (hinv : ∀ w, A w → C.inv w) (hguar : ∀ w, A w → C.guar w op)
    (hk : ∀ w r w', A w → E.responds w op r w' → Safe E C post (k r) w') (h : A w) :
    Safe E C post (.call op k) w := fun w' hw =>
  have hw' := hA.drifts hw h
  ⟨hinv w' hw', hguar w' hw', fun r w'' hr => hk w' r w'' hw' hr⟩

/-- What is safe in an environment is safe in one that does less. -/
theorem within {E' : Environment S ε W} (hE : E'.Within E) (h : Safe E C post p w) :
    Safe E' C post p w := by
  induction p generalizing w with
  | ret a => exact fun v hv => h v (hE.drifts hv)
  | raise e => exact fun v hv => h v (hE.drifts hv)
  | call op k ih =>
      intro v hv
      obtain ⟨hinv, hguar, hrest⟩ := h v (hE.drifts hv)
      exact ⟨hinv, hguar, fun r u hr => ih r (hrest r u (hE.responds hr))⟩

/-- Weakening the postcondition. -/
theorem mono {post' : Except ε α → W → Prop} (h : Safe E C post p w)
    (hpost : ∀ r w, post r w → post' r w) : Safe E C post' p w := by
  induction p generalizing w with
  | ret a => exact fun v hv => ⟨(h v hv).1, hpost _ _ (h v hv).2⟩
  | raise e => exact fun v hv => ⟨(h v hv).1, hpost _ _ (h v hv).2⟩
  | call op k ih =>
      exact fun v hv => ⟨(h v hv).1, (h v hv).2.1, fun r u hr => ih r ((h v hv).2.2 r u hr)⟩

/-- The invariant is part of every postcondition. -/
theorem with_inv (h : Safe E C post p w) :
    Safe E C (fun r v => C.inv v ∧ post r v) p w := by
  induction p generalizing w with
  | ret a => exact fun v hv => ⟨(h v hv).1, h v hv⟩
  | raise e => exact fun v hv => ⟨(h v hv).1, h v hv⟩
  | call op k ih =>
      exact fun v hv => ⟨(h v hv).1, (h v hv).2.1, fun r u hr => ih r ((h v hv).2.2 r u hr)⟩

/-- The rule of sequencing: the middle assertion is the first program's postcondition. -/
theorem bind {mid : Except ε α → W → Prop} {post : Except ε β → W → Prop}
    {f : α → Program S ε β} (h : Safe E C mid p w)
    (hok : ∀ a w, mid (.ok a) w → C.inv w → Safe E C post (f a) w)
    (herr : ∀ e w, mid (.error e) w → post (.error e) w) : Safe E C post (p >>= f) w := by
  induction p generalizing w with
  | ret a => exact hok a w (h w .refl).2 (h w .refl).1
  | raise e => exact fun v hv => ⟨(h v hv).1, herr e v (h v hv).2⟩
  | call op k ih =>
      exact fun v hv => ⟨(h v hv).1, (h v hv).2.1, fun r u hr => ih r ((h v hv).2.2 r u hr)⟩

/-- The rule of a single call followed by a program: what a normal response leaves is safe for the
rest, and what an exception leaves meets the postcondition stably. -/
theorem perform_bind {A : W → Prop} {op : S.Op} {f : S.Res op → Program S ε α}
    (hA : E.Stable A) (hinv : ∀ w, A w → C.inv w) (hguar : ∀ w, A w → C.guar w op)
    (hok : ∀ w a w', A w → E.responds w op (.ok a) w' → Safe E C post (f a) w')
    (herr : ∀ w e w', A w → E.responds w op (.error e) w' → Safe E C post (.raise e) w')
    (h : A w) : Safe E C post (Program.perform op >>= f) w :=
  Safe.call hA hinv hguar (fun w r w' hw hr => by
    cases r with
    | ok a => exact hok w a w' hw hr
    | error e => exact herr w e w' hw hr) h

/-- The rule of a single call. -/
theorem perform {A : W → Prop} {op : S.Op} {post : Except ε (S.Res op) → W → Prop}
    (hA : E.Stable A) (hinv : ∀ w, A w → C.inv w) (hguar : ∀ w, A w → C.guar w op)
    (hpost : ∀ r, E.Stable fun w => C.inv w ∧ post r w)
    (hr : ∀ w r w', A w → E.responds w op r w' → C.inv w' ∧ post r w')
    (h : A w) : Safe E C post (Program.perform op) w :=
  Safe.call hA hinv hguar (fun w r w' hw hres => by
    have hw' := hr w r w' hw hres
    cases r with
    | ok a => exact Safe.ret (hpost (.ok a)) (fun _ h => h.1) (fun _ h => h.2) hw'
    | error e => exact Safe.raise (hpost (.error e)) (fun _ h => h.1) (fun _ h => h.2) hw') h

/-- The rule of `attempt`: the result becomes a value. -/
theorem attempt {post : Except ε (Except ε α) → W → Prop}
    (h : Safe E C (fun r => post (.ok r)) p w) : Safe E C post p.attempt w := by
  induction p generalizing w with
  | ret a => exact h
  | raise e => exact h
  | call op k ih =>
      exact fun v hv => ⟨(h v hv).1, (h v hv).2.1, fun r u hr => ih r ((h v hv).2.2 r u hr)⟩

/-- The rule of a program whose result is a value for what follows. -/
theorem attempt_bind {mid : Except ε α → W → Prop} {post : Except ε β → W → Prop}
    {f : Except ε α → Program S ε β} (h : Safe E C mid p w)
    (hf : ∀ r w, mid r w → C.inv w → Safe E C post (f r) w) : Safe E C post (p.attempt >>= f) w := by
  have hvalue : Safe E C (fun r v => ∃ x, r = .ok x ∧ mid x v) p.attempt w :=
    attempt (h.mono fun r _ hr => ⟨r, rfl, hr⟩)
  refine hvalue.bind (fun r v hr hinv => ?_) fun e v hr => ?_
  · obtain ⟨x, heq, hx⟩ := hr
    cases heq
    exact hf r v hx hinv
  · obtain ⟨x, heq, -⟩ := hr
    cases heq

end Safe

/-! ## Assertions that a set of calls keeps -/

/-- An assertion that interference and the calls in `P` keep, whatever they answer, and that contains
the invariant and the guarantee of these calls. -/
structure Keeps (E : Environment S ε W) (C : Contract S W) (P : S.Op → Prop) (A : W → Prop) :
    Prop where
  /-- Interference keeps it. -/
  stable : E.Stable A
  /-- It contains the invariant. -/
  inv : ∀ w, A w → C.inv w
  /-- It contains the guarantee of the calls. -/
  guar : ∀ w op, P op → A w → C.guar w op
  /-- The calls keep it. -/
  responds : ∀ w op r w', P op → A w → E.responds w op r w' → A w'

namespace Keeps

variable {E : Environment S ε W} {C : Contract S W} {P : S.Op → Prop} {A : W → Prop}
  {post : Except ε α → W → Prop} {w : W}

/-- The end of a program. -/
theorem ret (hA : Keeps E C P A) {a : α} (hpost : ∀ w, A w → post (.ok a) w) (h : A w) :
    Safe E C post (.ret a) w :=
  Safe.ret hA.stable hA.inv hpost h

/-- An exception. -/
theorem raise (hA : Keeps E C P A) {e : ε} (hpost : ∀ w, A w → post (.error e) w) (h : A w) :
    Safe E C post (.raise e) w :=
  Safe.raise hA.stable hA.inv hpost h

/-- A smaller set of calls. -/
theorem mono {P' : S.Op → Prop} (hA : Keeps E C P A) (hP : ∀ op, P' op → P op) : Keeps E C P' A where
  stable := hA.stable
  inv := hA.inv
  guar w op hop := hA.guar w op (hP op hop)
  responds w op r w' hop := hA.responds w op r w' (hP op hop)

/-- An environment that does less. -/
theorem within {E' : Environment S ε W} (hE : E'.Within E) (hA : Keeps E C P A) : Keeps E' C P A where
  stable _ _ h hm := hA.stable h (hE.interfere hm)
  inv := hA.inv
  guar := hA.guar
  responds w op r w' hop h hr := hA.responds w op r w' hop h (hE.responds hr)

/-- A program of such calls keeps the assertion. -/
theorem of_calls (hA : Keeps E C P A) {p : Program S ε α} (hp : p.Calls P) (h : A w) :
    Safe E C (fun _ => A) p w := by
  induction p generalizing w with
  | ret a => exact hA.ret (fun _ hw => hw) h
  | raise e => exact hA.raise (fun _ hw => hw) h
  | call op k ih =>
      exact Safe.call hA.stable hA.inv (fun v hv => hA.guar v op hp.1 hv)
        (fun v r v' hv hr => ih r (hp.2 r) (hA.responds v op r v' hp.1 hv hr)) h

/-- A program of such calls, followed by another one. -/
theorem bind (hA : Keeps E C P A) {p : Program S ε β} {f : β → Program S ε α} (hp : p.Calls P)
    (herr : ∀ e w, A w → post (.error e) w) (hf : ∀ a w, A w → Safe E C post (f a) w) (h : A w) :
    Safe E C post (p >>= f) w :=
  Safe.bind (hA.of_calls hp h) (fun a w hw _ => hf a w hw) herr

/-- Such a call, followed by a program that may rely on its answer. -/
theorem call_bind (hA : Keeps E C P A) {op : S.Op} {f : S.Res op → Program S ε α} (hop : P op)
    (herr : ∀ e w, A w → post (.error e) w)
    (hf : ∀ v x v', A v → E.responds v op (.ok x) v' → A v' → Safe E C post (f x) v') (h : A w) :
    Safe E C post (Program.perform op >>= f) w :=
  Safe.perform_bind hA.stable hA.inv (fun v hv => hA.guar v op hop hv)
    (fun v x v' hv hr => hf v x v' hv hr (hA.responds v op (.ok x) v' hop hv hr))
    (fun v e v' hv hr => hA.raise (herr e) (hA.responds v op (.error e) v' hop hv hr)) h

/-- Any other call, followed by a program: both ways in which it may end are accounted for. -/
theorem other_bind (hA : Keeps E C P A) {op : S.Op} {f : S.Res op → Program S ε α}
    (hguar : ∀ w, A w → C.guar w op)
    (hok : ∀ v x v', A v → E.responds v op (.ok x) v' → Safe E C post (f x) v')
    (herr : ∀ v e v', A v → E.responds v op (.error e) v' → Safe E C post (.raise e) v') (h : A w) :
    Safe E C post (Program.perform op >>= f) w :=
  Safe.perform_bind hA.stable hA.inv hguar hok herr h

/-- A pure computation, followed by a program. -/
theorem pure_bind (hA : Keeps E C P A) {r : Except ε β} {f : β → Program S ε α}
    (herr : ∀ e w, A w → post (.error e) w) (hf : ∀ a, r = .ok a → Safe E C post (f a) w)
    (h : A w) : Safe E C post (Program.ofExcept r >>= f) w := by
  cases r with
  | ok a => exact hf a rfl
  | error e => exact hA.raise (herr e) h

end Keeps

end CallTrees
