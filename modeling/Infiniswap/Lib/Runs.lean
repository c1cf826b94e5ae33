/-
# Runs of a labelled transition system

A system is given by its initial states and a partial step function; a label
carries every choice the environment makes, so a step is a computation and a
concrete run can be evaluated. `Reach C` are the states reached by steps that
all meet the condition `C` on the state before the step and its label.

Key definitions: `System`, `System.Reach`, `System.startAt`, `System.logged`, `System.exec`,
`System.execIf`.
Key theorems: `System.Reach.invariant`, `System.Reach.invariant_from`, `System.logged_invariant`,
`System.reach_of_exec`, `System.countP_le_of_exec`, `System.reach_of_execIf`, `System.exists_of_exec`.
-/
import Mathlib.Data.Option.Basic
import Mathlib.Data.List.Basic

namespace Transition

variable {σ ℓ : Type*}

/-- A labelled transition system whose labels resolve all nondeterminism. -/
structure System (σ ℓ : Type*) where
  init : σ → Prop
  step : σ → ℓ → Option σ

namespace System

variable (S : System σ ℓ)

/-- The states reached from an initial state by steps that all meet `C`. -/
inductive Reach (C : σ → ℓ → Prop) : σ → Prop
  | init {s : σ} : S.init s → Reach C s
  | step {s t : σ} {l : ℓ} : Reach C s → C s l → S.step s l = some t → Reach C t

/-- The states of arbitrary runs. -/
abbrev Reachable : σ → Prop := S.Reach fun _ _ => True

variable {S} {C C' : σ → ℓ → Prop} {I : σ → Prop}

/-- **The invariant rule.** What holds initially and is kept by every step
that meets `C` from a state reached so far holds in every state reached. -/
theorem Reach.invariant (h0 : ∀ s, S.init s → I s)
    (hstep : ∀ s l t, S.Reach C s → I s → C s l → S.step s l = some t → I t) :
    ∀ {s}, S.Reach C s → I s := by
  intro s h
  induction h with
  | init h => exact h0 _ h
  | step hr hc hs ih => exact hstep _ _ _ hr ih hc hs

theorem Reach.mono (hC : ∀ s l, C s l → C' s l) {s : σ} (h : S.Reach C s) : S.Reach C' s := by
  induction h with
  | init h => exact .init h
  | step _ hc hs ih => exact .step ih (hC _ _ hc) hs

theorem Reach.reachable {s : σ} (h : S.Reach C s) : S.Reachable s :=
  h.mono fun _ _ _ => trivial

/-! ### Continuing a run -/

/-- The runs of the system that start in `s`. -/
def startAt (S : System σ ℓ) (s : σ) : System σ ℓ := { S with init := fun t => t = s }

/-- The invariant rule for the runs from a reachable state. -/
theorem Reach.invariant_from {s : σ} (hs : S.Reachable s) (h0 : I s)
    (hstep : ∀ u l v, S.Reachable u → I u → C u l → S.step u l = some v → I v) {t : σ}
    (h : (S.startAt s).Reach C t) : S.Reachable t ∧ I t := by
  refine Reach.invariant (S := S.startAt s) (I := fun t => S.Reachable t ∧ I t) ?_ ?_ h
  · rintro _ rfl
    exact ⟨hs, h0⟩
  · rintro u l v - ⟨hu, hI⟩ hc hv
    exact ⟨hu.step trivial hv, hstep u l v hu hI hc hv⟩

/-! ### History variables -/

section Logged

variable {ε : Type*} {events : σ → ℓ → σ → List ε}

/-- The system with a log, newest event first: each step puts its events in front. -/
def logged (S : System σ ℓ) (events : σ → ℓ → σ → List ε) : System (σ × List ε) ℓ where
  init x := S.init x.1 ∧ x.2 = []
  step x l := (S.step x.1 l).map fun t => (t, events x.1 l t ++ x.2)

/-- The invariant rule for a state and its log. -/
theorem logged_invariant {I : σ → List ε → Prop} (h0 : ∀ s, S.init s → I s [])
    (hstep : ∀ s log l t, S.Reachable s → I s log → S.step s l = some t → I t (events s l t ++ log))
    {x : σ × List ε} (h : (S.logged events).Reachable x) : S.Reachable x.1 ∧ I x.1 x.2 := by
  refine Reach.invariant (S := S.logged events) (I := fun x => S.Reachable x.1 ∧ I x.1 x.2) ?_ ?_ h
  · rintro ⟨s, log⟩ ⟨hs, rfl⟩
    exact ⟨.init hs, h0 s hs⟩
  · rintro ⟨s, log⟩ l _ - ⟨hs, hI⟩ - hstep'
    obtain ⟨t, ht, rfl⟩ := Option.map_eq_some_iff.mp hstep'
    exact ⟨hs.step trivial ht, hstep s log l t hs hI ht⟩

end Logged

/-! ### Evaluating a run -/

/-- Runs the labels `ls` from `s`, if every step is enabled. -/
def exec (S : System σ ℓ) (s : σ) : List ℓ → Option σ
  | [] => some s
  | l :: ls => (S.step s l).bind fun t => S.exec t ls

variable {s t : σ} {ls : List ℓ}

/-- A run that can be executed reaches its last state, under a condition that all its labels meet. -/
theorem reach_of_exec (hs : S.Reach C s) (hC : ∀ l ∈ ls, ∀ s, C s l) (h : S.exec s ls = some t) :
    S.Reach C t := by
  induction ls generalizing s with
  | nil =>
    cases h
    exact hs
  | cons l ls ih =>
    obtain ⟨u, hu, h⟩ := Option.bind_eq_some_iff.mp h
    exact ih (hs.step (hC l List.mem_cons_self s) hu) (fun l' hl' => hC l' (List.mem_cons_of_mem _ hl')) h

theorem reachable_of_exec (hs : S.Reachable s) (h : S.exec s ls = some t) :
    S.Reachable t := reach_of_exec hs (fun _ _ _ => trivial) h

/-- A potential that every step labelled `p` lowers and no step raises bounds how many of them a run
has. -/
theorem countP_le_of_exec {μ : σ → ℕ} {p : ℓ → Bool}
    (hstep : ∀ s l t, S.step s l = some t → (p l).toNat + μ t ≤ μ s)
    (h : S.exec s ls = some t) : ls.countP p + μ t ≤ μ s := by
  induction ls generalizing s with
  | nil =>
    cases h
    exact Nat.le_of_eq (Nat.zero_add _)
  | cons l ls ih =>
    obtain ⟨u, hu, h⟩ := Option.bind_eq_some_iff.mp h
    have hl := hstep s l u hu
    have htail := ih h
    rw [List.countP_cons]
    cases hp : p l
    · rw [hp, Bool.toNat_false] at hl
      simp
      omega
    · rw [hp, Bool.toNat_true] at hl
      simp
      omega

/-- Runs the labels `ls` from `s`, if every step is enabled and meets `C`. -/
def execIf (S : System σ ℓ) (C : σ → ℓ → Prop) [∀ s l, Decidable (C s l)] (s : σ) : List ℓ → Option σ
  | [] => some s
  | l :: ls => if C s l then (S.step s l).bind fun t => S.execIf C t ls else none

theorem reach_of_execIf [∀ s l, Decidable (C s l)] (hs : S.Reach C s)
    (h : S.execIf C s ls = some t) : S.Reach C t := by
  induction ls generalizing s with
  | nil =>
    cases h
    exact hs
  | cons l ls ih =>
    unfold execIf at h
    split at h
    · rename_i hl
      obtain ⟨u, hu, h⟩ := Option.bind_eq_some_iff.mp h
      exact ih (hs.step hl hu) h
    · cases h

section Found

variable {P : σ → Prop} [DecidablePred P] {s : σ} {ls : List ℓ}

/-- A state found by evaluating a run is reached. -/
theorem exists_of_exec (hs : S.init s) (h : (S.exec s ls).any (fun t => decide (P t)) = true) :
    ∃ t, S.Reachable t ∧ P t := by
  obtain ⟨t, ht, hP⟩ := (Option.any_eq_true _ _).mp h
  exact ⟨t, reachable_of_exec (.init hs) ht, of_decide_eq_true hP⟩

theorem exists_of_execIf [∀ s l, Decidable (C s l)] (hs : S.init s)
    (h : (S.execIf C s ls).any (fun t => decide (P t)) = true) : ∃ t, S.Reach C t ∧ P t := by
  obtain ⟨t, ht, hP⟩ := (Option.any_eq_true _ _).mp h
  exact ⟨t, reach_of_execIf (.init hs) ht, of_decide_eq_true hP⟩

end Found

end System
end Transition
