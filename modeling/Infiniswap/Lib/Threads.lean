/-
# Threads as lists of pending instructions

A thread is the list of the instructions it still has to perform. A step takes
the first instruction of one thread and puts in its place the instructions it
turns into, so that a call is run by the thread that makes it. What is pending
over all threads then changes at one place only, and sums and counts over it
change by what is taken off and put on.

Key definitions: `pending`, `Solo`.
Key theorems: `pending_set`, `Solo.run`.
-/
import Mathlib.Data.List.Basic
import Mathlib.Data.List.Flatten
import Mathlib.Algebra.Order.BigOperators.Group.List
import Mathlib.Algebra.Order.Ring.Nat

namespace Threads

variable {ι : Type*}

variable {ts : List (List ι)} {t rest : List ι} {x y : ι} {i : ℕ}

/-- All pending instructions. -/
def pending (ts : List (List ι)) : List ι := ts.flatten

theorem pending_cons (t : List ι) (ts : List (List ι)) : pending (t :: ts) = t ++ pending ts := rfl

theorem pending_spawn (ts : List (List ι)) (x : ι) : pending (ts ++ [[x]]) = pending ts ++ [x] := by
  simp [pending]

theorem mem_pending : x ∈ pending ts ↔ ∃ t ∈ ts, x ∈ t := List.mem_flatten

/-- A step of one thread changes what is pending at one place. -/
theorem pending_set : ∀ {ts : List (List ι)} {i : ℕ}, ts[i]? = some (x :: rest) →
    ∃ l r, pending ts = l ++ x :: r ∧ ∀ new, pending (ts.set i (new ++ rest)) = l ++ new ++ r
  | [], _, h => by cases h
  | t :: ts, 0, h => by
    cases h
    exact ⟨[], rest ++ pending ts, rfl, fun new => by simp [pending_cons]⟩
  | t :: ts, i + 1, h => by
    obtain ⟨l, r, hp, hset⟩ := pending_set (show ts[i]? = some (x :: rest) from h)
    refine ⟨t ++ l, r, ?_, fun new => ?_⟩
    · rw [pending_cons, hp, List.append_assoc]
    · rw [List.set_cons_succ, pending_cons, hset]
      simp only [List.append_assoc]

/-- A weight summed over what is pending changes by what the step takes off and puts on. -/
theorem sum_set (h : ts[i]? = some (x :: rest)) (f : ι → ℕ) (new : List ι) :
    ((pending (ts.set i (new ++ rest))).map f).sum + f x =
      ((pending ts).map f).sum + (new.map f).sum := by
  obtain ⟨l, r, hp, hset⟩ := pending_set h
  rw [hset, hp]
  simp only [List.map_append, List.map_cons, List.sum_append, List.sum_cons]
  omega

theorem sum_spawn (ts : List (List ι)) (x : ι) (f : ι → ℕ) :
    ((pending (ts ++ [[x]])).map f).sum = ((pending ts).map f).sum + f x := by
  rw [pending_spawn]
  simp

theorem head_mem_pending (h : ts[i]? = some (x :: rest)) :
    x ∈ pending ts :=
  mem_pending.mpr ⟨_, List.mem_of_getElem? h, List.mem_cons_self⟩

theorem le_sum_of_mem (h : x ∈ pending ts) (f : ι → ℕ) :
    f x ≤ ((pending ts).map f).sum :=
  List.le_sum_of_mem (List.mem_map_of_mem h)

/-- What holds of every pending instruction and of those a step puts on holds afterwards. -/
theorem forall_pending_set {P : ι → Prop} (h : ts[i]? = some (x :: rest)) {new : List ι}
    (hP : ∀ y ∈ pending ts, P y) (hnew : ∀ y ∈ new, P y) :
    ∀ y ∈ pending (ts.set i (new ++ rest)), P y := by
  obtain ⟨l, r, hp, hset⟩ := pending_set h
  intro y hy
  rw [hset, List.mem_append, List.mem_append] at hy
  rw [hp] at hP
  rcases hy with (hy | hy) | hy
  · exact hP y (List.mem_append_left _ hy)
  · exact hnew y hy
  · exact hP y (List.mem_append_right _ (List.mem_cons_of_mem _ hy))

/-- What a step puts on is pending afterwards. -/
theorem mem_pending_set_of_new (h : ts[i]? = some (x :: rest)) {new : List ι} (hy : y ∈ new) :
    y ∈ pending (ts.set i (new ++ rest)) := by
  obtain ⟨l, r, -, hset⟩ := pending_set h
  rw [hset]
  exact List.mem_append_left _ (List.mem_append_right _ hy)

/-- What is pending stays, but for what the step takes off. -/
theorem mem_pending_set_of_ne (h : ts[i]? = some (x :: rest)) (new : List ι) (hy : y ∈ pending ts)
    (hne : y ≠ x) : y ∈ pending (ts.set i (new ++ rest)) := by
  obtain ⟨l, r, hp, hset⟩ := pending_set h
  rw [hset]
  rw [hp, List.mem_append, List.mem_cons] at hy
  rcases hy with hy | hy | hy
  · exact List.mem_append_left _ (List.mem_append_left _ hy)
  · exact absurd hy hne
  · exact List.mem_append_right _ hy

theorem mem_pending_spawn (hy : y ∈ pending ts) (x : ι) : y ∈ pending (ts ++ [[x]]) := by
  rw [pending_spawn]
  exact List.mem_append_left _ hy

/-- What holds of every thread and of the one a step leaves holds afterwards. -/
theorem forall_thread_set {P : List ι → Prop} (hP : ∀ u ∈ ts, P u) (ht : P t) :
    ∀ u ∈ ts.set i t, P u := by
  intro u hu
  rcases List.mem_or_eq_of_mem_set hu with hu | rfl
  · exact hP u hu
  · exact ht

/-! ### One thread alone -/

/-- One thread has the instructions `t` left, every other is done. -/
def Solo (ts : List (List ι)) (t : List ι) : Prop :=
  ∃ i : ℕ, ts[i]? = some t ∧ ∀ (j : ℕ) (u : List ι), ts[j]? = some u → j ≠ i → u = []

theorem solo_singleton (t : List ι) : Solo [t] t := by
  refine ⟨0, rfl, fun j u h hj => ?_⟩
  cases j with
  | zero => exact absurd rfl hj
  | succ j => cases h

/-- With every other thread done, the one that is left is alone. -/
theorem solo_set (hi : i < ts.length) (h : ∀ u ∈ ts.set i [], u = []) (t : List ι) :
    Solo (ts.set i t) t := by
  refine ⟨i, by simp [hi], fun j u hj hne => h u ?_⟩
  rw [List.getElem?_set_ne (Ne.symm hne)] at hj
  refine List.mem_of_getElem? (i := j) ?_
  rw [List.getElem?_set_ne (Ne.symm hne), hj]

/-- The thread that is alone makes the step, and is alone afterwards. -/
theorem Solo.run (h : Solo ts t) {j : ℕ} (hj : ts[j]? = some (x :: rest)) :
    t = x :: rest ∧ ∀ u, Solo (ts.set j u) u := by
  obtain ⟨i, hi, hother⟩ := h
  have hij : j = i := by
    by_contra hne
    cases hother j _ hj hne
  subst hij
  refine ⟨Option.some.inj (hi.symm.trans hj), fun u => ⟨j, ?_, fun k v hk hkj => ?_⟩⟩
  · obtain ⟨hlt, -⟩ := List.getElem?_eq_some_iff.mp hj
    simp [hlt]
  · rw [List.getElem?_set_ne (Ne.symm hkj)] at hk
    exact hother k v hk hkj

theorem Solo.forall_thread (h : Solo ts t) {P : List ι → Prop} (h0 : P []) (ht : P t) :
    ∀ u ∈ ts, P u := by
  obtain ⟨i, hi, hother⟩ := h
  intro u hu
  obtain ⟨j, hj⟩ := List.getElem?_of_mem hu
  by_cases hji : j = i
  · subst hji
    rw [hi] at hj
    cases hj
    exact ht
  · rw [hother j u hj hji]
    exact h0

/-- Only the instructions of the thread that is alone are pending. -/
theorem Solo.pending_eq : ∀ {ts : List (List ι)} {t : List ι}, Solo ts t → pending ts = t
  | [], _, ⟨_, hi, _⟩ => by cases hi
  | u :: ts, t, ⟨0, hi, hother⟩ => by
    cases hi
    have hdone : ∀ v ∈ ts, v = [] := fun v hv => by
      obtain ⟨j, hj⟩ := List.getElem?_of_mem hv
      exact hother (j + 1) v hj (Nat.succ_ne_zero j)
    rw [pending_cons, pending, List.flatten_eq_nil_iff.mpr hdone, List.append_nil]
  | u :: ts, t, ⟨i + 1, hi, hother⟩ => by
    have hsolo : Solo ts t :=
      ⟨i, hi, fun j v hj hne => hother (j + 1) v hj (fun he => hne (Nat.succ.inj he))⟩
    rw [pending_cons, hother 0 u rfl (Nat.succ_ne_zero i).symm, hsolo.pending_eq, List.nil_append]

end Threads
