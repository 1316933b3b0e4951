import TransferWorker.CallTrees.Program

/-! # Traces

The calls that a program makes, each with its answer, and how it ends: what can be seen of one run of
a program from outside, whatever the world is like. -/

namespace CallTrees

variable {S : Signature} {ε α β : Type}

/-- A call with its answer. -/
structure Answered (S : Signature) (ε : Type) where
  /-- The call. -/
  op : S.Op
  /-- The answer. -/
  answer : Except ε (S.Res op)

namespace Program

/-- **The traces of a program**: it may make these calls, answered so, and end with this result. -/
inductive Makes : Program S ε α → List (Answered S ε) → Except ε α → Prop
  /-- A normal return. -/
  | ret {a : α} : Makes (.ret a) [] (.ok a)
  /-- An exception. -/
  | raise {e : ε} : Makes (.raise e) [] (.error e)
  /-- A call, and what follows its answer. -/
  | call {op : S.Op} {k : Except ε (S.Res op) → Program S ε α} {r : Except ε α}
      {tr : List (Answered S ε)} (x : Except ε (S.Res op)) (h : Makes (k x) tr r) :
      Makes (.call op k) (⟨op, x⟩ :: tr) r

variable {a : α} {e : ε} {r : Except ε α} {tr : List (Answered S ε)}

/-- The end of a program makes no call. -/
theorem makes_ret : (ret a : Program S ε α).Makes tr r ↔ tr = [] ∧ r = .ok a := by
  constructor
  · rintro ⟨⟩
    exact ⟨rfl, rfl⟩
  · rintro ⟨rfl, rfl⟩
    exact .ret

/-- Neither does an exception. -/
theorem makes_raise : (raise e : Program S ε α).Makes tr r ↔ tr = [] ∧ r = .error e := by
  constructor
  · rintro ⟨⟩
    exact ⟨rfl, rfl⟩
  · rintro ⟨rfl, rfl⟩
    exact .raise

/-- A result makes no calls. -/
theorem makes_ofExcept {r' : Except ε α} :
    (ofExcept r' : Program S ε α).Makes tr r ↔ tr = [] ∧ r = r' := by
  cases r' with
  | ok a => exact makes_ret
  | error e => exact makes_raise

/-- The trace of a program starts with its first call. -/
theorem makes_call {op : S.Op} {k : Except ε (S.Res op) → Program S ε α} :
    (call op k).Makes tr r ↔ ∃ x tr', tr = ⟨op, x⟩ :: tr' ∧ (k x).Makes tr' r := by
  constructor
  · rintro ⟨⟩
    exact ⟨_, _, rfl, by assumption⟩
  · rintro ⟨x, tr', rfl, h⟩
    exact .call x h

/-- A single call that returned. -/
theorem Makes.perform (op : S.Op) (x : S.Res op) :
    (Program.perform op : Program S ε (S.Res op)).Makes [⟨op, .ok x⟩] (.ok x) :=
  .call (.ok x) .ret

/-- A call that returned, and what followed it. -/
theorem Makes.perform_bind (op : S.Op) (x : S.Res op) {f : S.Res op → Program S ε α}
    (h : (f x).Makes tr r) : (Program.perform op >>= f).Makes (⟨op, .ok x⟩ :: tr) r :=
  .call (.ok x) h

/-- A program whose calls all return is the rest of the program after the first answer. -/
theorem makes_perform_bind {op : S.Op} {f : S.Res op → Program S ε α}
    (h : (perform op >>= f : Program S ε α).Makes tr r) :
    (∃ x tr', tr = ⟨op, .ok x⟩ :: tr' ∧ (f x).Makes tr' r) ∨
      ∃ e, tr = [⟨op, .error e⟩] ∧ r = .error e := by
  rw [perform, call_bind, makes_call] at h
  obtain ⟨x, tr', rfl, h⟩ := h
  cases x with
  | ok x => exact .inl ⟨x, tr', rfl, h⟩
  | error e =>
      obtain ⟨rfl, rfl⟩ := makes_raise.1 h
      exact .inr ⟨e, rfl, rfl⟩

/-- If the program returned, so did its first call. -/
theorem makes_perform_bind_ok {op : S.Op} {f : S.Res op → Program S ε α} :
    (perform op >>= f : Program S ε α).Makes tr (.ok a) ↔
      ∃ x tr', tr = ⟨op, .ok x⟩ :: tr' ∧ (f x).Makes tr' (.ok a) := by
  constructor
  · intro h
    rcases makes_perform_bind h with hok | ⟨e, -, he⟩
    · exact hok
    · cases he
  · rintro ⟨x, tr', rfl, h⟩
    exact .perform_bind op x h

/-- The calls of a trace are among those that the program can make. -/
theorem Calls.of_makes {P : S.Op → Prop} {p : Program S ε α} (h : p.Calls P) (hm : p.Makes tr r) :
    ∀ c ∈ tr, P c.op := by
  induction hm with
  | ret => simp
  | raise => simp
  | call x hrest ih =>
      intro c hc
      rcases List.mem_cons.1 hc with rfl | hc
      · exact h.1
      · exact ih (h.2 x) c hc

/-- A call of a trace other than the first one follows the answer of that one. -/
theorem makes_bind_of_mem {op : S.Op} {f : S.Res op → Program S ε α} {c : Answered S ε}
    (h : (perform op >>= f : Program S ε α).Makes tr r) (hc : c ∈ tr) (hop : c.op ≠ op) :
    ∃ x tr', tr = ⟨op, .ok x⟩ :: tr' ∧ (f x).Makes tr' r ∧ c ∈ tr' := by
  rcases makes_perform_bind h with ⟨x, tr', rfl, hrest⟩ | ⟨e, rfl, -⟩
  · rcases List.mem_cons.1 hc with rfl | hc
    · exact absurd rfl hop
    · exact ⟨x, tr', rfl, hrest, hc⟩
  · rw [List.mem_singleton] at hc
    exact absurd (congrArg Answered.op hc) hop

end Program

end CallTrees
