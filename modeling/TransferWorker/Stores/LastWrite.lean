import Mathlib.Data.List.Basic

/-! # Tables where the last write wins

A table with one value for a key, and what sequences of writes leave in it. A write replaces whatever
was there, so that of a sequence only the last write to each key counts.

* **`putAll`** — the table after a sequence of writes; `putAll_apply` reads it by `lastWrite`.
* **`putAll_repeat_iff`** — when writes that are made once more, later, change nothing.
* **`chunks`** — a sequence in pieces of the same length, as a buffered writer sends it. -/

namespace Stores

variable {K V W : Type}

/-- A **table**: at most one value for every key. -/
abbrev Table (K V : Type) := K → Option V

/-- The empty table. -/
def Table.empty : Table K V := fun _ => none

/-- The keys of a sequence of writes that it writes at all. -/
def keys (ws : List (K × V)) : List K := ws.map Prod.fst

/-- The writes with other values. -/
def mapValues (f : V → W) (ws : List (K × V)) : List (K × W) := ws.map fun w => (w.1, f w.2)

variable [DecidableEq K]

/-- A write. -/
def put (t : Table K V) (k : K) (v : V) : Table K V := fun k' => if k' = k then some v else t k'

/-- A sequence of writes. -/
def putAll (t : Table K V) (ws : List (K × V)) : Table K V := ws.foldl (fun t w => put t w.1 w.2) t

/-- The value that the last write to a key writes. -/
def lastWrite : List (K × V) → K → Option V
  | [], _ => none
  | w :: ws, k => (lastWrite ws k).or (if k = w.1 then some w.2 else none)

variable {t : Table K V} {ws ws' : List (K × V)} {k : K} {v : V}

/-- No write. -/
@[simp] theorem putAll_nil : putAll t [] = t := rfl

/-- The first write, and the others. -/
theorem putAll_cons (w : K × V) : putAll t (w :: ws) = putAll (put t w.1 w.2) ws := rfl

/-- Writes after writes. -/
theorem putAll_append : putAll t (ws ++ ws') = putAll (putAll t ws) ws' := List.foldl_append

/-- **Only the last write to a key counts.** -/
theorem putAll_apply : putAll t ws k = (lastWrite ws k).or (t k) := by
  induction ws generalizing t with
  | nil => rfl
  | cons w ws ih =>
      rw [putAll_cons, ih, lastWrite, put, Option.or_assoc]
      by_cases hk : k = w.1 <;> simp [hk]

/-- The last write to a key is among the later ones, if there is one. -/
theorem lastWrite_append : lastWrite (ws ++ ws') k = (lastWrite ws' k).or (lastWrite ws k) := by
  induction ws with
  | nil => simp [lastWrite]
  | cons w ws ih => rw [List.cons_append, lastWrite, lastWrite, ih, Option.or_assoc]

/-- A key without a last write is not written. -/
theorem lastWrite_eq_none_iff : lastWrite ws k = none ↔ k ∉ keys ws := by
  induction ws with
  | nil => simp [lastWrite, keys]
  | cons w ws ih => simp [lastWrite, keys, Option.or_eq_none_iff, ih, and_comm]

/-- The last write is a write. -/
theorem mem_of_lastWrite (h : lastWrite ws k = some v) : (k, v) ∈ ws := by
  induction ws with
  | nil => cases h
  | cons w ws ih =>
      rw [lastWrite, Option.or_eq_some_iff] at h
      rcases h with h | ⟨-, h⟩
      · exact List.mem_cons_of_mem _ (ih h)
      · split at h
        · rename_i hk
          cases h
          rw [hk]
          exact List.mem_cons_self
        · cases h

/-- What is in a table was there before, or was written. -/
theorem eq_or_mem_of_putAll (h : putAll t ws k = some v) : t k = some v ∨ (k, v) ∈ ws := by
  rw [putAll_apply, Option.or_eq_some_iff] at h
  rcases h with h | ⟨-, h⟩
  · exact .inr (mem_of_lastWrite h)
  · exact .inl h

/-- Of writes to different keys each one is the last to its key. -/
theorem lastWrite_of_mem (hnodup : (keys ws).Nodup) (h : (k, v) ∈ ws) : lastWrite ws k = some v := by
  induction ws with
  | nil => cases h
  | cons w ws ih =>
      rw [keys, List.map_cons, List.nodup_cons] at hnodup
      rw [lastWrite]
      rcases List.mem_cons.1 h with rfl | h
      · rw [lastWrite_eq_none_iff.2 hnodup.1]
        simp
      · rw [ih hnodup.2 h]
        rfl

/-- The last write when every value is changed. -/
theorem lastWrite_mapValues (f : V → W) : lastWrite (mapValues f ws) k = (lastWrite ws k).map f := by
  induction ws with
  | nil => rfl
  | cons w ws ih =>
      rw [mapValues, List.map_cons, lastWrite, lastWrite, Option.map_or]
      refine congrArg₂ _ ih ?_
      by_cases hk : k = w.1 <;> simp [hk]

/-- The writes under other keys. -/
theorem lastWrite_mapKeys {L : Type} [DecidableEq L] {f : K → L} (hf : Function.Injective f) :
    lastWrite (ws.map fun w => (f w.1, w.2)) (f k) = lastWrite ws k := by
  induction ws with
  | nil => rfl
  | cons w ws ih =>
      rw [List.map_cons, lastWrite, lastWrite, ih]
      refine congrArg₂ _ rfl ?_
      by_cases hk : k = w.1
      · rw [if_pos hk, if_pos (congrArg f hk)]
      · rw [if_neg hk, if_neg fun h => hk (hf h)]

/-- The table with other values. -/
theorem map_putAll (f : V → W) :
    (putAll t ws k).map f = (lastWrite (mapValues f ws) k).or ((t k).map f) := by
  rw [putAll_apply, Option.map_or, lastWrite_mapValues]

/-- **Writes that are made once more change nothing** exactly if each of their keys is written again
later, or has the same value already. -/
theorem putAll_repeat_iff (hnodup : (keys ws).Nodup) {past future : List (K × V)} :
    (∀ k, lastWrite (past ++ (ws ++ future)) k = lastWrite (past ++ future) k) ↔
      ∀ k v, (k, v) ∈ ws → k ∈ keys future ∨ lastWrite past k = some v := by
  constructor
  · intro h k v hmem
    by_cases hk : k ∈ keys future
    · exact .inl hk
    · have hsame := h k
      have hnone : lastWrite future k = none := lastWrite_eq_none_iff.2 hk
      rw [lastWrite_append, lastWrite_append, lastWrite_append, hnone, lastWrite_of_mem hnodup hmem,
        Option.none_or, Option.none_or, Option.some_or] at hsame
      exact .inr hsame.symm
  · intro h k
    rw [lastWrite_append, lastWrite_append, lastWrite_append]
    cases hfuture : lastWrite future k with
    | some v => rfl
    | none =>
        cases hws : lastWrite ws k with
        | none => rfl
        | some v =>
            have hpast := (h k v (mem_of_lastWrite hws)).resolve_left (lastWrite_eq_none_iff.1 hfuture)
            simp [hpast]

/-- **The same for a table**, of whose values only a view is compared: the writes are made once more
after some that wrote all their keys. -/
theorem map_putAll_repeat_iff {f : V → W} {past future : List (K × V)} (hnodup : (keys ws).Nodup)
    (hpast : ∀ k ∈ keys ws, k ∈ keys past) :
    (∀ k, (putAll t (past ++ (ws ++ future)) k).map f = (putAll t (past ++ future) k).map f) ↔
      ∀ k v, (k, v) ∈ ws → k ∈ keys future ∨ (lastWrite past k).map f = some (f v) := by
  have hkeys : ∀ us : List (K × V), keys (mapValues f us) = keys us := fun us => by
    simp [keys, mapValues]
  have happend : ∀ us us' : List (K × V), mapValues f (us ++ us') = mapValues f us ++ mapValues f us' :=
    fun us us' => List.map_append
  -- a repeat writes no key that was not there
  have hwritten : ∀ k, (lastWrite (mapValues f (past ++ (ws ++ future))) k).isSome =
      (lastWrite (mapValues f (past ++ future)) k).isSome := by
    intro k
    rw [Bool.eq_iff_iff, Option.isSome_iff_ne_none, Option.isSome_iff_ne_none, Ne, Ne,
      lastWrite_eq_none_iff, lastWrite_eq_none_iff, hkeys, hkeys]
    simp only [keys, List.map_append, List.mem_append, not_not]
    have hsub := hpast k
    tauto
  -- so the start table is covered alike in both, and only the writes are compared
  have htables : (∀ k, (putAll t (past ++ (ws ++ future)) k).map f =
        (putAll t (past ++ future) k).map f) ↔
      ∀ k, lastWrite (mapValues f past ++ (mapValues f ws ++ mapValues f future)) k =
        lastWrite (mapValues f past ++ mapValues f future) k := by
    refine forall_congr' fun k => ?_
    have hk := hwritten k
    rw [map_putAll, map_putAll]
    rw [← happend, ← happend, ← happend]
    cases h : lastWrite (mapValues f (past ++ (ws ++ future))) k <;>
      cases h' : lastWrite (mapValues f (past ++ future)) k <;> simp [h, h'] at hk ⊢
  rw [htables, putAll_repeat_iff (by rw [hkeys]; exact hnodup)]
  simp only [hkeys, lastWrite_mapValues]
  constructor
  · intro h k v hmem
    exact h k (f v) (List.mem_map.2 ⟨(k, v), hmem, rfl⟩)
  · intro h k w hmem
    obtain ⟨⟨k', v⟩, hmem', heq⟩ := List.mem_map.1 hmem
    cases heq
    exact h k' v hmem'

/-! ## Pieces -/

section chunks

variable {α β : Type}

/-- The pieces of a list: all of them of length `n + 1`, but for the last one. -/
def chunks (n : Nat) (xs : List α) : List (List α) :=
  match xs with
  | [] => []
  | x :: xs => (x :: xs.take n) :: chunks n (xs.drop n)
termination_by xs.length
decreasing_by simp only [List.length_drop, List.length_cons]; omega

/-- There is no chunk of nothing. -/
@[simp] theorem chunks_nil (n : Nat) : chunks n ([] : List α) = [] := by rw [chunks]

/-- The first chunk, and the others. -/
theorem chunks_cons (n : Nat) (x : α) (xs : List α) :
    chunks n (x :: xs) = (x :: xs.take n) :: chunks n (xs.drop n) := by rw [chunks]

/-- A full first piece. -/
theorem chunks_append {n : Nat} {xs : List α} (h : xs.length = n + 1) (ys : List α) :
    chunks n (xs ++ ys) = xs :: chunks n ys := by
  cases xs with
  | nil => cases h
  | cons x xs =>
      have hlength : xs.length = n := Nat.succ.inj h
      rw [List.cons_append, chunks_cons, ← hlength, List.take_left, List.drop_left]

/-- A single piece. -/
theorem chunks_of_le {n : Nat} {xs : List α} (hne : xs ≠ []) (h : xs.length ≤ n + 1) :
    chunks n xs = [xs] := by
  cases xs with
  | nil => exact absurd rfl hne
  | cons x xs =>
      have hle : xs.length ≤ n := Nat.le_of_succ_le_succ h
      rw [chunks_cons, List.take_of_length_le hle, List.drop_eq_nil_of_le hle, chunks_nil]

/-- The chunks when every element is changed. -/
theorem chunks_map (n : Nat) (f : α → β) (xs : List α) :
    chunks n (xs.map f) = (chunks n xs).map (List.map f) := by
  induction xs using chunks.induct n with
  | case1 => simp
  | case2 x xs ih => rw [List.map_cons, chunks_cons, chunks_cons, List.map_cons, ← ih, List.map_cons,
      List.map_take, List.map_drop]

/-- The pieces together are the list. -/
theorem flatten_chunks (n : Nat) (xs : List α) : (chunks n xs).flatten = xs := by
  induction xs using chunks.induct n with
  | case1 => simp
  | case2 x xs ih => rw [chunks_cons, List.flatten_cons, ih, List.cons_append, List.take_append_drop]

end chunks

end Stores
