import Mathlib.Data.List.Perm.Basic
import Mathlib.Order.Lattice

/-! # Delay queues

Messages that each have a time at which they are due, and a queue that lets go of them when they are.
A queue is given by its *discipline*: which of the waiting messages may leave next. Time passes between
the actions of a run; no message leaves before it is due, and it may leave later.

* **`Runs D`** — the runs of a queue with discipline `D`.
* **`fifo`** — only the head of the queue may leave; **`earliest`** — only a message that none of the
  others is due before: the ideal delay queue.
* **`fifo_refines_iff`** — when a first-in-first-out queue behaves like the ideal one. -/

namespace DelayQueue

/-- A message with the time at which it is due. -/
structure Item (α T : Type) where
  /-- The message. -/
  payload : α
  /-- When it is due. -/
  due : T

/-- What can be seen of a queue: a message enters it, or leaves it, at some time. -/
inductive Action (α T : Type) where
  /-- A message enters. -/
  | publish (t : T) (x : Item α T)
  /-- A message leaves. -/
  | release (t : T) (x : Item α T)

variable {α T : Type}

/-- A **discipline**: from these messages this one may leave, and those remain. -/
abbrev Discipline (α T : Type) := List (Item α T) → Item α T → List (Item α T) → Prop

/-- The head leaves. -/
def fifo : Discipline α T := fun q x rest => q = x :: rest

/-- What has entered, and when. -/
def published : List (Action α T) → List (T × Item α T)
  | [] => []
  | .publish t x :: tr => (t, x) :: published tr
  | .release _ _ :: tr => published tr

/-- What has left, and when. -/
def released : List (Action α T) → List (T × Item α T)
  | [] => []
  | .publish _ _ :: tr => released tr
  | .release t x :: tr => (t, x) :: released tr

/-- Nothing enters when messages only leave. -/
theorem published_map_release (t : T) (xs : List (Item α T)) : published (xs.map (.release t)) = [] := by
  induction xs with
  | nil => rfl
  | cons x xs ih => exact ih

/-- They leave in their order. -/
theorem released_map_release (t : T) (xs : List (Item α T)) :
    released (xs.map (.release t)) = xs.map (Prod.mk t) := by
  induction xs with
  | nil => rfl
  | cons x xs ih => rw [List.map_cons, released, ih, List.map_cons]

variable [LinearOrder T]

/-- A message leaves that none of the others is due before. -/
def earliest : Discipline α T := fun q x rest => q.Perm (x :: rest) ∧ ∀ y ∈ rest, x.due ≤ y.due

/-- The messages are in the order of the times at which they are due. -/
def InDueOrder (xs : List (Item α T)) : Prop := xs.Pairwise fun x y => x.due ≤ y.due

/-- **The runs of a queue** from a time on, with some messages waiting. A message is not due before it
enters. -/
inductive Runs (D : Discipline α T) : T → List (Item α T) → List (Action α T) → Prop
  /-- Nothing more is seen. -/
  | done {now : T} {q : List (Item α T)} : Runs D now q []
  /-- A message enters at the end. -/
  | publish {now t : T} {q : List (Item α T)} {x : Item α T} {tr : List (Action α T)} (hnow : now ≤ t)
      (hdue : t ≤ x.due) (h : Runs D t (q ++ [x]) tr) : Runs D now q (.publish t x :: tr)
  /-- A message leaves that is due. -/
  | release {now t : T} {q rest : List (Item α T)} {x : Item α T} {tr : List (Action α T)}
      (hnow : now ≤ t) (hdue : x.due ≤ t) (hleave : D q x rest) (h : Runs D t rest tr) :
      Runs D now q (.release t x :: tr)

variable {D : Discipline α T} {now : T} {q : List (Item α T)} {tr : List (Action α T)}
  {pubs : List (T × Item α T)}

/-- **No message leaves early**, whatever the discipline. -/
theorem Runs.not_early (h : Runs D now q tr) : ∀ p ∈ released tr, p.2.due ≤ p.1 := by
  induction h with
  | done => simp [released]
  | publish _ _ _ ih => exact ih
  | release _ hdue _ _ ih =>
      rw [released, List.forall_mem_cons]
      exact ⟨hdue, ih⟩

/-- Nothing leaves an ideal queue that was due before everything in it, and before now. -/
theorem Runs.le_due_of_earliest {d : T} (h : Runs earliest now q tr) (hnow : d ≤ now)
    (hq : ∀ x ∈ q, d ≤ x.due) : ∀ p ∈ released tr, d ≤ p.2.due := by
  induction h with
  | done => simp [released]
  | publish hle hdue _ ih =>
      refine ih (hnow.trans hle) fun y hy => ?_
      rcases List.mem_append.1 hy with hy | hy
      · exact hq y hy
      · rw [List.mem_singleton.1 hy]
        exact hnow.trans (hle.trans hdue)
  | release hle _ hleave _ ih =>
      rw [released, List.forall_mem_cons]
      refine ⟨hq _ (hleave.1.mem_iff.2 List.mem_cons_self), ih (hnow.trans hle) fun y hy => ?_⟩
      exact hq y (hleave.1.mem_iff.2 (List.mem_cons_of_mem _ hy))

/-- **The ideal queue keeps the order of the due times.** -/
theorem Runs.earliest_order (h : Runs earliest now q tr) :
    InDueOrder ((released tr).map Prod.snd) := by
  induction h with
  | done => exact .nil
  | publish _ _ _ ih => exact ih
  | release _ hdue hleave hrest ih =>
      refine List.pairwise_cons.2 ⟨fun y hy => ?_, ih⟩
      obtain ⟨p, hp, rfl⟩ := List.mem_map.1 hy
      exact hrest.le_due_of_earliest hdue hleave.2 p hp

/-- **The simulation**: if everything that is in the queue or enters it is in the order of the due
times, then the head is always a message that an ideal queue may let go. -/
theorem Runs.refines (h : Runs fifo now q tr) (horder : InDueOrder (q ++ (published tr).map Prod.snd)) :
    Runs earliest now q tr := by
  induction h with
  | done => exact .done
  | publish hle hdue _ ih =>
      refine .publish hle hdue (ih ?_)
      simpa [published] using horder
  | release hle hdue hleave _ ih =>
      rw [hleave, List.cons_append] at horder
      obtain ⟨hhead, hrest⟩ := List.pairwise_cons.1 horder
      refine .release hle hdue ⟨by rw [hleave], fun y hy => ?_⟩ (ih hrest)
      exact hhead y (List.mem_append_left _ hy)

/-- Everything that waits can leave, once it is all due. -/
theorem Runs.drain {t : T} (hnow : now ≤ t) (hdue : ∀ x ∈ q, x.due ≤ t) :
    Runs fifo now q (q.map (.release t)) := by
  induction q generalizing now with
  | nil => exact .done
  | cons x q ih =>
      rw [List.forall_mem_cons] at hdue
      exact .release hnow hdue.1 rfl (ih le_rfl hdue.2)

/-- **Whatever enters, there is a run in which it all leaves again.** -/
theorem Runs.exists_complete (hsorted : (now :: pubs.map Prod.fst).Pairwise (· ≤ ·))
    (hdue : ∀ p ∈ pubs, p.1 ≤ p.2.due) :
    ∃ tr, Runs fifo now q tr ∧ published tr = pubs ∧
      (released tr).map Prod.snd = q ++ pubs.map Prod.snd := by
  induction pubs generalizing now q with
  | nil =>
      obtain ⟨t, hnow, hq⟩ : ∃ t, now ≤ t ∧ ∀ x ∈ q, x.due ≤ t := by
        clear hsorted hdue
        induction q with
        | nil => exact ⟨now, le_rfl, by simp⟩
        | cons x q ih =>
            obtain ⟨t, hnow, hq⟩ := ih
            refine ⟨max t x.due, hnow.trans (le_max_left _ _), ?_⟩
            rw [List.forall_mem_cons]
            exact ⟨le_max_right _ _, fun y hy => (hq y hy).trans (le_max_left _ _)⟩
      refine ⟨q.map (.release t), .drain hnow hq, published_map_release t q, ?_⟩
      rw [released_map_release, List.map_map, List.map_nil, List.append_nil]
      exact List.map_id q
  | cons p pubs ih =>
      obtain ⟨t, x⟩ := p
      rw [List.forall_mem_cons] at hdue
      rw [List.map_cons, List.pairwise_cons, List.forall_mem_cons] at hsorted
      obtain ⟨tr, hrun, hpub, hrel⟩ := ih (q := q ++ [x]) hsorted.2 hdue.2
      refine ⟨.publish t x :: tr, .publish hsorted.1.1 hdue.1 hrun, ?_, ?_⟩
      · rw [published, hpub]
      · rw [released, hrel, List.append_assoc]
        rfl

/-- **When a first-in-first-out queue is as good as an ideal delay queue**: for given messages, every
run is one of the ideal queue, and lets the messages go in the order of their due times and not early,
exactly if the messages enter in the order of their due times. -/
theorem fifo_refines_iff (hsorted : (pubs.map Prod.fst).Pairwise (· ≤ ·))
    (hdue : ∀ p ∈ pubs, p.1 ≤ p.2.due) :
    (∀ now tr, Runs fifo now [] tr → published tr = pubs →
      Runs earliest now [] tr ∧ InDueOrder ((released tr).map Prod.snd) ∧
        ∀ p ∈ released tr, p.2.due ≤ p.1) ↔ InDueOrder (pubs.map Prod.snd) := by
  constructor
  · intro h
    cases pubs with
    | nil => exact .nil
    | cons p pubs =>
        -- the run in which all messages leave again, from the time of the first one
        have hstart : (p.1 :: (p :: pubs).map Prod.fst).Pairwise (· ≤ ·) := by
          refine List.pairwise_cons.2 ⟨?_, hsorted⟩
          rw [List.map_cons, List.forall_mem_cons]
          exact ⟨le_rfl, (List.pairwise_cons.1 hsorted).1⟩
        obtain ⟨tr, hrun, hpub, hrel⟩ := Runs.exists_complete (q := []) hstart hdue
        rw [List.nil_append] at hrel
        exact hrel ▸ (h p.1 tr hrun hpub).2.1
  · intro horder now tr hrun hpub
    have hideal : Runs earliest now [] tr := hrun.refines (by simpa [hpub] using horder)
    exact ⟨hideal, hideal.earliest_order, hrun.not_early⟩

end DelayQueue
