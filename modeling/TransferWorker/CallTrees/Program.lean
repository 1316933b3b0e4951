import Mathlib.Logic.Relation

/-! # Call trees: programs of external calls with exceptions

A program that talks to the outside world is a tree of *external calls*: at every node it either
returns, raises, or makes one call and continues with whatever comes back, a response or an
exception. The calls of a program are described by a `Signature`; nothing is said here about what
a call does, so one program can be run against many worlds.

* **`Program S ε α`** — the trees, with their monad structure (`bind` lets an exception pass).
* **`Program.attempt`** — the exception as a value, from which `tryCatch`, `onError` and
  `andFinally` (the `try`/`except`/`finally` forms) are defined.
* **`Program.Calls P p`** — every call the program can ever make satisfies `P`. -/

namespace CallTrees

/-- A **signature** of external calls: the calls and the type each one answers with. -/
structure Signature where
  /-- The external calls. -/
  Op : Type
  /-- What a call returns when it returns normally. -/
  Res : Op → Type

/-- A **program** over a signature: a finite-depth tree of external calls. -/
inductive Program (S : Signature) (ε α : Type) : Type
  /-- Return normally. -/
  | ret (a : α)
  /-- Raise an exception. -/
  | raise (e : ε)
  /-- Make a call and continue with its response, or with the exception it raised. -/
  | call (op : S.Op) (k : Except ε (S.Res op) → Program S ε α)

namespace Program

variable {S : Signature} {ε α β : Type}

/-- Sequencing: an exception of the first program skips the second. -/
def bind : Program S ε α → (α → Program S ε β) → Program S ε β
  | .ret a, f => f a
  | .raise e, _ => .raise e
  | .call op k, f => .call op fun r => (k r).bind f

/-- Programs one after the other. -/
instance : Monad (Program S ε) where
  pure := .ret
  bind := .bind

/-- A value is the end of a program. -/
@[simp] theorem pure_eq (a : α) : (pure a : Program S ε α) = .ret a := rfl

/-- What follows the end of a program. -/
@[simp] theorem ret_bind (a : α) (f : α → Program S ε β) : (ret a >>= f) = f a := rfl

/-- Nothing follows an exception. -/
@[simp] theorem raise_bind (e : ε) (f : α → Program S ε β) :
    (raise e >>= f) = raise e := rfl

/-- What follows a call. -/
@[simp] theorem call_bind (op : S.Op) (k : Except ε (S.Res op) → Program S ε α)
    (f : α → Program S ε β) : (call op k >>= f) = call op fun r => k r >>= f := rfl

/-- Returning the result of a program changes nothing. -/
theorem bind_ret (p : Program S ε α) : (p >>= fun a => ret a) = p := by
  induction p with
  | ret a => rfl
  | raise e => rfl
  | call op k ih =>
      rw [call_bind]
      congr 1
      funext r
      exact ih r

/-- Sequencing is associative. -/
theorem bind_assoc {γ : Type} (p : Program S ε α) (f : α → Program S ε β) (g : β → Program S ε γ) :
    (p >>= f) >>= g = p >>= fun a => f a >>= g := by
  induction p with
  | ret a => rfl
  | raise e => rfl
  | call op k ih =>
      rw [call_bind, call_bind, call_bind]
      congr 1
      funext r
      exact ih r

/-- The program that makes one call and returns its response (or lets its exception pass). -/
def perform (op : S.Op) : Program S ε (S.Res op) :=
  .call op fun
    | .ok a => .ret a
    | .error e => .raise e

/-- A result as a program: return or raise. -/
def ofExcept : Except ε α → Program S ε α
  | .ok a => .ret a
  | .error e => .raise e

/-- A computation that returns. -/
@[simp] theorem ofExcept_ok (a : α) : (ofExcept (.ok a) : Program S ε α) = .ret a := rfl

/-- A computation that raises. -/
@[simp] theorem ofExcept_error (e : ε) : (ofExcept (.error e) : Program S ε α) = .raise e := rfl

/-- Run a program to its end and return how it ended, as a value. -/
def attempt : Program S ε α → Program S ε (Except ε α)
  | .ret a => .ret (.ok a)
  | .raise e => .ret (.error e)
  | .call op k => .call op fun r => (k r).attempt

/-- An attempt that returns at once. -/
@[simp] theorem attempt_ret (a : α) : (ret a : Program S ε α).attempt = ret (.ok a) := rfl

/-- An attempt that raises at once. -/
@[simp] theorem attempt_raise (e : ε) : (raise e : Program S ε α).attempt = ret (.error e) := rfl

/-- The calls of an attempt. -/
@[simp] theorem attempt_call (op : S.Op) (k : Except ε (S.Res op) → Program S ε α) :
    (call op k).attempt = call op fun r => (k r).attempt := rfl

/-- `try: p  except e: h e`. -/
def tryCatch (p : Program S ε α) (h : ε → Program S ε α) : Program S ε α :=
  p.attempt >>= fun
    | .ok a => .ret a
    | .error e => h e

/-- `try: p  except e: cleanup; raise e`: the cleanup runs only when `p` raises. -/
def onError (p : Program S ε α) (cleanup : Program S ε Unit) : Program S ε α :=
  p.tryCatch fun e => cleanup >>= fun _ => .raise e

/-- `try: p  finally: cleanup`: the cleanup always runs, and its own exception wins. -/
def andFinally (p : Program S ε α) (cleanup : Program S ε Unit) : Program S ε α :=
  p.attempt >>= fun r => cleanup >>= fun _ => ofExcept r

/-! ## The calls a program can make -/

/-- Every call that the program can ever make, whatever its calls answer, satisfies `P`. -/
def Calls (P : S.Op → Prop) : Program S ε α → Prop
  | .ret _ => True
  | .raise _ => True
  | .call op k => P op ∧ ∀ r, (k r).Calls P

variable {P : S.Op → Prop}

/-- More calls are allowed. -/
theorem Calls.mono {P' : S.Op → Prop} (h : ∀ op, P op → P' op) {p : Program S ε α} (hp : p.Calls P) :
    p.Calls P' := by
  induction p with
  | ret a => trivial
  | raise e => trivial
  | call op k ih => exact ⟨h op hp.1, fun r => ih r (hp.2 r)⟩

/-- Every program makes some calls. -/
theorem calls_trivial (p : Program S ε α) : p.Calls fun _ => True := by
  induction p with
  | ret a => trivial
  | raise e => trivial
  | call op k ih => exact ⟨trivial, ih⟩

/-- A single call. -/
theorem calls_perform {op : S.Op} (h : P op) :
    (perform op : Program S ε (S.Res op)).Calls P :=
  ⟨h, fun r => by cases r <;> trivial⟩

/-- What follows a call makes no other calls. -/
theorem Calls.after {op : S.Op} {f : S.Res op → Program S ε α}
    (h : (perform op >>= f : Program S ε α).Calls P) (x : S.Res op) : (f x).Calls P :=
  h.2 (.ok x)

/-- The calls of two programs one after the other. -/
theorem calls_bind {p : Program S ε α} {f : α → Program S ε β} (hp : p.Calls P)
    (hf : ∀ a, (f a).Calls P) : (p >>= f).Calls P := by
  induction p with
  | ret a => exact hf a
  | raise e => trivial
  | call op k ih => exact ⟨hp.1, fun r => ih r (hp.2 r)⟩

/-- The calls of an attempt are those of what is attempted. -/
theorem calls_attempt {p : Program S ε α} (hp : p.Calls P) : p.attempt.Calls P := by
  induction p with
  | ret a => trivial
  | raise e => trivial
  | call op k ih => exact ⟨hp.1, fun r => ih r (hp.2 r)⟩

/-- A computation makes no calls. -/
theorem calls_ofExcept (r : Except ε α) : (ofExcept r : Program S ε α).Calls P := by
  cases r <;> trivial

/-- The calls of a program and of its handler. -/
theorem calls_tryCatch {p : Program S ε α} {h : ε → Program S ε α} (hp : p.Calls P)
    (hh : ∀ e, (h e).Calls P) : (p.tryCatch h).Calls P :=
  calls_bind (calls_attempt hp) fun r => by
    cases r with
    | ok a => trivial
    | error e => exact hh e

/-- The calls of a program and of what runs when it raises. -/
theorem calls_onError {p : Program S ε α} {c : Program S ε Unit} (hp : p.Calls P)
    (hc : c.Calls P) : (p.onError c).Calls P :=
  calls_tryCatch hp fun _ => calls_bind hc fun _ => trivial

/-- The calls of a program and of what runs after it. -/
theorem calls_andFinally {p : Program S ε α} {c : Program S ε Unit} (hp : p.Calls P)
    (hc : c.Calls P) : (p.andFinally c).Calls P :=
  calls_bind (calls_attempt hp) fun r => calls_bind hc fun _ => calls_ofExcept r

end Program

end CallTrees
