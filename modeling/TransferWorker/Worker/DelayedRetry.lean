import Mathlib.Data.Real.Basic
import TransferWorker.CallTrees.Trace
import TransferWorker.Queues.DelayQueue
import TransferWorker.Worker.Publisher

/-! # Delayed retry

The retry queue as a delay queue. `publish_retry` puts a message on it with its own time to live;
the broker dead-letters a message back onto the main queue when its time is over and it is at the head
of the queue.

* **`RetryCall.Puts`** — what a call of `publish_retry` puts on the queue.
* **`retry_order_iff`** — when the messages come back in the order of their due times. -/

namespace TransferWorker

open CallTrees
open DelayQueue

/-- The **time to live** of a message, in milliseconds: the broker wants a decimal number of at most
32 bits, and refuses the message otherwise. -/
def timeToLive (m : Message) : Option Nat :=
  m.properties.expiration.bind fun text =>
    let ms := Nat.ofDigitChars 10 text.toList 0
    if text.toList ≠ [] ∧ text.toList.all Char.isDigit ∧ ms < 2 ^ 32 then some ms else none

/-- The number that `str(delay_ms)` writes is the time to live. -/
theorem timeToLive_message {event : TransferEvent} {delayMs : Int} {n : Nat}
    (h : timeToLive (Publisher.message event (some (toString delayMs)) none) = some n) :
    delayMs = n := by
  simp only [timeToLive, Publisher.message, Option.bind_some] at h
  split at h
  · rename_i hdigits
    obtain ⟨-, hall, -⟩ := hdigits
    rw [Option.some.injEq] at h
    cases delayMs with
    | ofNat k =>
        have htext : (toString (Int.ofNat k)).toList = Nat.toDigits 10 k := Nat.toList_repr
        rw [htext, Nat.ofDigitChars_ten_toDigits] at h
        exact congrArg Int.ofNat h
    | negSucc k =>
        -- a minus sign is not a digit
        have htext : (toString (Int.negSucc k)).toList = '-' :: (Nat.repr (k + 1)).toList :=
          String.toList_append
        rw [htext, List.all_cons] at hall
        exact absurd hall (by simp)
  · cases h

/-- A delay that the broker accepts is the time to live of the message. -/
theorem timeToLive_eq (event : TransferEvent) {n : Nat} (hn : n < 2 ^ 32) :
    timeToLive (Publisher.message event (some (toString (n : Int))) none) = some n := by
  have htext : (toString (n : Int)).toList = Nat.toDigits 10 n := Nat.toList_repr
  have hall : (Nat.toDigits 10 n).all Char.isDigit = true := by
    rw [List.all_eq_true]
    exact fun c hc => Nat.isDigit_of_mem_toDigits (by decide) (by decide) hc
  simp only [timeToLive, Publisher.message, Option.bind_some, htext, Nat.ofDigitChars_ten_toDigits]
  exact if_pos ⟨Nat.toDigits_ne_nil, hall, hn⟩

/-- A call of `publish_retry`. -/
structure RetryCall where
  /-- When it is made, in milliseconds. -/
  time : ℝ
  /-- The event. -/
  event : TransferEvent
  /-- The delay. -/
  delayMs : Int

/-- When the retry is due. -/
noncomputable def RetryCall.due (c : RetryCall) : ℝ := c.time + c.delayMs

/-- **What a successful call puts on the retry queue**: the message, due when its time to live is
over. -/
def RetryCall.Puts (settings : Settings) (c : RetryCall) (p : ℝ × Item Message ℝ) : Prop :=
  ∃ tr m n, (Publisher.publishRetry settings c.event c.delayMs).Makes tr (.ok ()) ∧
    ⟨Op.basicPublish settings.retryQueueName m, .ok ()⟩ ∈ tr ∧ timeToLive m = some n ∧
    p = (c.time, ⟨m, c.time + n⟩)

/-- The message is due when the call says. -/
theorem RetryCall.Puts.due_eq {settings : Settings} {c : RetryCall} {p : ℝ × Item Message ℝ}
    (h : c.Puts settings p) : p.1 = c.time ∧ p.2.due = c.due ∧ p.1 ≤ p.2.due := by
  obtain ⟨tr, m, n, hmakes, hmem, hn, rfl⟩ := h
  obtain ⟨x, tr', rfl, hend⟩ := Program.makes_call.1 hmakes
  obtain rfl : tr' = [] := by
    cases x with
    | ok u => exact (Program.makes_ret.1 hend).1
    | error exn => exact (Program.makes_raise.1 hend).1
  rw [List.mem_singleton, Answered.mk.injEq, Op.basicPublish.injEq] at hmem
  rw [hmem.1.2] at hn
  have hdelay := timeToLive_message hn
  refine ⟨rfl, ?_, by simp⟩
  rw [RetryCall.due, hdelay, Int.cast_natCast]

/-- A call with a delay that the broker accepts. -/
theorem RetryCall.exists_puts (settings : Settings) (time : ℝ) (event : TransferEvent) {n : Nat}
    (hn : n < 2 ^ 32) : ∃ p, (RetryCall.mk time event n).Puts settings p :=
  ⟨_, _, _, n, .perform (S := calls) (Op.basicPublish _ _) (), List.mem_cons_self,
    timeToLive_eq event hn, rfl⟩

variable {settings : Settings} {cs : List RetryCall} {pubs : List (ℝ × Item Message ℝ)}

/-- A relation between the due times of two lists. -/
theorem inDueOrder_iff (h : List.Forall₂ (RetryCall.Puts settings) cs pubs) :
    InDueOrder (pubs.map Prod.snd) ↔ cs.Pairwise fun c c' => c.due ≤ c'.due := by
  have hdues : pubs.map (fun p => p.2.due) = cs.map RetryCall.due := by
    induction h with
    | nil => rfl
    | cons hp _ ih => rw [List.map_cons, List.map_cons, ih, hp.due_eq.2.1]
  rw [InDueOrder, ← List.pairwise_map (f := RetryCall.due) (R := (· ≤ ·)), ← hdues]
  simp only [List.pairwise_map]

/-- **When the retry queue honours each message's own backoff**: for any calls of `publish_retry`, in
the order of their times, every run of the queue is a run of the ideal delay queue, and lets the
messages go back in the order of their due times and none early, exactly if the calls themselves are in
the order of the due times. -/
theorem retry_order_iff (hputs : List.Forall₂ (RetryCall.Puts settings) cs pubs)
    (htimes : cs.Pairwise fun c c' => c.time ≤ c'.time) :
    (∀ now tr, Runs fifo now [] tr → published tr = pubs →
      Runs earliest now [] tr ∧ InDueOrder ((released tr).map Prod.snd) ∧
        ∀ p ∈ released tr, p.2.due ≤ p.1) ↔
      cs.Pairwise fun c c' => c.due ≤ c'.due := by
  have htimes' : (pubs.map Prod.fst).Pairwise (· ≤ ·) := by
    have heq : pubs.map Prod.fst = cs.map RetryCall.time := by
      clear htimes
      induction hputs with
      | nil => rfl
      | cons hp _ ih => rw [List.map_cons, List.map_cons, ih, hp.due_eq.1]
    rw [heq, List.pairwise_map]
    exact htimes
  have hdue : ∀ p ∈ pubs, p.1 ≤ p.2.due := by
    clear htimes htimes'
    induction hputs with
    | nil => simp
    | cons hp _ ih =>
        rw [List.forall_mem_cons]
        exact ⟨hp.due_eq.2.2, ih⟩
  rw [fifo_refines_iff htimes' hdue, inDueOrder_iff hputs]

/-- Two calls, of any delays that the broker accepts. -/
theorem exists_puts_two (settings : Settings) (t t' : ℝ) (event : TransferEvent) (n n' : Nat)
    (hn : n < 2 ^ 32) (hn' : n' < 2 ^ 32) :
    ∃ pubs, List.Forall₂ (RetryCall.Puts settings) [⟨t, event, n⟩, ⟨t', event, n'⟩] pubs := by
  obtain ⟨p, hp⟩ := RetryCall.exists_puts settings t event hn
  obtain ⟨p', hp'⟩ := RetryCall.exists_puts settings t' event hn'
  exact ⟨[p, p'], .cons hp (.cons hp' .nil)⟩

/-- A first retry after two seconds and a second retry, one second later, after four. -/
theorem retry_order_sample : ∃ pubs,
    List.Forall₂ (RetryCall.Puts {}) [⟨0, .sample, 2000⟩, ⟨1000, .sample, 4000⟩] pubs ∧
      ∀ now tr, Runs fifo now [] tr → published tr = pubs →
        InDueOrder ((released tr).map Prod.snd) := by
  obtain ⟨pubs, hputs⟩ := exists_puts_two {} 0 1000 .sample 2000 4000 (by decide) (by decide)
  refine ⟨pubs, hputs, fun now tr hrun hpub => ?_⟩
  refine ((retry_order_iff hputs ?_).2 ?_ now tr hrun hpub).2.1
  · simp
  · simp only [RetryCall.due, List.pairwise_cons, List.mem_singleton, forall_eq]
    norm_num

/-- **A short backoff behind a long one**: a message published at time 0 for its fourth retry, after 16
seconds, and one published a second later for its first, after 2 seconds, go back in that order. -/
theorem short_backoff_held_up : ∃ pubs tr,
    List.Forall₂ (RetryCall.Puts {}) [⟨0, .sample, 16000⟩, ⟨1000, .sample, 2000⟩] pubs ∧
      Runs fifo 0 [] tr ∧ published tr = pubs ∧ ¬InDueOrder ((released tr).map Prod.snd) := by
  obtain ⟨pubs, hputs⟩ :=
    exists_puts_two {} 0 1000 .sample 16000 2000 (by decide) (by decide)
  have hdues := inDueOrder_iff hputs
  obtain ⟨p, _, hp, htail, rfl⟩ := List.forall₂_cons_left_iff.1 hputs
  obtain ⟨p', _, hp', hnil, rfl⟩ := List.forall₂_cons_left_iff.1 htail
  obtain rfl := List.forall₂_nil_left_iff.1 hnil
  obtain ⟨tr, hrun, hpub, hrel⟩ : ∃ tr, Runs fifo 0 [] tr ∧ published tr = [p, p'] ∧
      (released tr).map Prod.snd = [] ++ [p, p'].map Prod.snd := by
    refine Runs.exists_complete ?_ ?_
    · simp [hp.due_eq.1, hp'.due_eq.1]
    · simp [hp.due_eq.2.2, hp'.due_eq.2.2]
  refine ⟨_, tr, hputs, hrun, hpub, ?_⟩
  rw [hrel, List.nil_append, hdues]
  simp only [RetryCall.due, List.pairwise_cons, List.mem_singleton, forall_eq]
  norm_num

end TransferWorker
