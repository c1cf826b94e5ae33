/-
# What a transaction tells its adapters

The facts about the engine that the block layer builds on: what an instruction
logs and makes the Backing Store path owe, and that the engine hears of a failed
attempt only from its adapters. An attempt is submitted when none is owed, and
the device is degraded only for one that failed.
-/
import Infiniswap.Io.Outcome

namespace Infiniswap
namespace Io

open Threads Transition IoPolicy Instr

variable {s s' : State} {t : Transaction} {x : Instr} {new : List Instr} {answer : Answer} {i : ℕ}
  {rest : List Instr}

/-! ### One instruction -/

section Handlers

variable {t : Transaction} {mode : EngineMode} {spec : Spec} {st : Option Errno}

theorem backingCompleted_not_mem_applyAction (a : IoAction) (st' : Option Errno) :
    .backingCompleted st ∉ applyAction a st' := by
  simp only [applyAction, List.mem_append, List.mem_ite_nil_right, List.mem_singleton, reduceCtorEq,
    and_false, false_or]
  split_ifs <;> simp

theorem backingCompleted_not_mem_handler (report : Bool) (event event' : EngineEvent) (a : IoAction)
    (st' : Option Errno) :
    .backingCompleted st ∉ reportIf report event ++ applyAction a st' ++ [.finishEvent event'] := by
  have hact : .backingCompleted st ∉ applyAction a st' := backingCompleted_not_mem_applyAction a st'
  cases report <;> simp [reportIf, hact]

theorem not_mem_backingCompleted (status : Option Errno) :
    .backingCompleted st ∉ (t.backingCompleted mode spec status).1 := by
  unfold Transaction.backingCompleted
  dsimp only
  split
  · exact backingCompleted_not_mem_handler _ _ _ _ _
  · split
    · simp
    · exact backingCompleted_not_mem_handler false .backingCompleted _ _ _

theorem not_mem_rdmaCompleted (generation : ℕ) (status : Option Errno) (cancelled : Bool) :
    .backingCompleted st ∉ (t.rdmaCompleted spec generation status cancelled).1 := by
  unfold Transaction.rdmaCompleted
  dsimp only
  split
  · exact backingCompleted_not_mem_handler false .rdmaCompleted .rdmaCompleted {} status
  · split <;> exact backingCompleted_not_mem_handler _ _ _ _ _

theorem not_mem_rdmaReleased (generation : ℕ) :
    .backingCompleted st ∉ (t.rdmaReleased spec generation).1 := by
  unfold Transaction.rdmaReleased
  dsimp only
  split
  · simp
  · split
    · cases (t.beginEvent.noteInvariant).1 <;> simp [reportIf]
    · simp

theorem not_mem_finishEvent (event : EngineEvent) : .backingCompleted st ∉ (t.finishEvent event).1 := by
  unfold Transaction.finishEvent
  dsimp only
  split
  · split
    · cases (Transaction.noteInvariant _).1 <;> simp [reportIf]
    · simp
  · simp

end Handlers

/-- The engine itself reports only a submission to the Backing Store that was not accepted. -/
theorem submit_of_perform {st : Option Errno} (h : s.perform x answer = some (new, s'))
    (hy : .backingCompleted st ∈ new) : x = .submitBacking ∧ answer.status ≠ none := by
  cases x with
  | start | register =>
    dsimp only [State.perform] at h
    split at h <;> cases h <;> simp [rejectStart] at hy
  | allocate =>
    dsimp only [State.perform] at h
    split at h
    · cases h
      simp [rejectStart] at hy
    · split at h <;> cases h <;> simp [rejectStart] at hy
  | unregister | settle | reject =>
    cases h
    cases hy
  | submitClaimedBacking =>
    dsimp only [State.perform] at h
    split at h <;> cases h
    simp at hy
  | prepare | submitRdma =>
    dsimp only [State.perform] at h
    split at h
    · cases h
    · split at h <;> cases h <;> simp [failRdmaSubmission] at hy
  | submitBacking =>
    dsimp only [State.perform] at h
    split at h
    · cases h
    · split at h <;> rename_i hst <;> cases h
      · exact ⟨rfl, by rw [hst]; rintro ⟨⟩⟩
      · cases hy
  | backingCompleted | rdmaCompleted | rdmaReleased | finishEvent =>
    obtain ⟨t, ht, he⟩ := Option.map_eq_some_iff.mp h
    rw [← (Prod.mk.inj he).1] at hy
    first
      | exact absurd hy (not_mem_backingCompleted _)
      | exact absurd hy (not_mem_rdmaCompleted _ _ _)
      | exact absurd hy (not_mem_rdmaReleased _)
      | exact absurd hy (not_mem_finishEvent _)
  | _ =>
    obtain ⟨t, ht, he⟩ := Option.map_eq_some_iff.mp h
    cases he
    cases hy

/-! ### One step -/

theorem reachable_step (h : engineSystem.Reachable s) {l : Label} (hs : s.step l = some s') :
    engineSystem.Reachable s' := h.step trivial hs

theorem step_run (hi : s.threads[i]? = some (x :: rest)) (h : s.step (.run i answer) = some s') :
    ∃ new s₁, s.perform x answer = some (new, s₁) ∧
      s' = { s₁ with threads := s.threads.set i (new ++ rest) } := by
  simp only [State.step, hi] at h
  obtain ⟨⟨new, s₁⟩, hp, rfl⟩ := Option.map_eq_some_iff.mp h
  exact ⟨new, s₁, hp, rfl⟩

theorem run_effect (hi : s.threads[i]? = some (x :: rest)) (h : s.step (.run i answer) = some s') :
    s'.log = x.logged ++ s.log ∧
    s'.backingOwed = s.backingOwed + (if x = .submitBacking ∧ answer.status = none then 1 else 0) := by
  obtain ⟨new, s₁, hp, rfl⟩ := step_run hi h
  obtain ⟨hlog, howed, -⟩ := perform_effect hp
  exact ⟨hlog, howed⟩

theorem mem_pending_run (hi : s.threads[i]? = some (x :: rest)) {y : Instr}
    (hy : y ∈ pending (s.threads.set i (new ++ rest))) : y ∈ pending s.threads ∨ y ∈ new :=
  forall_pending_set (P := fun y => y ∈ pending s.threads ∨ y ∈ new) hi (fun _ hz => .inl hz)
    (fun _ hz => .inr hz) y hy

/-- The Backing Store path reported a failure. -/
def State.Failed (s : State) : Prop :=
  ∃ e, .backingResult (some e) ∈ s.log ∨ .backingCompleted (some e) ∈ pending s.threads

theorem State.Failed.before (hi : s.threads[i]? = some (x :: rest)) (h : s.step (.run i answer) = some s')
    (hx : x = .submitBacking → answer.status = none) (hs : s'.Failed) : s.Failed := by
  obtain ⟨new, s₁, hp, rfl⟩ := step_run hi h
  obtain ⟨hlog, -⟩ := perform_effect hp
  obtain ⟨e, hs | hs⟩ := hs
  · rw [show s₁.log = _ from hlog, List.mem_append] at hs
    refine ⟨e, hs.symm.imp_right fun hs => ?_⟩
    have hx : x = .backingCompleted (some e) := by
      cases x <;> simp [Instr.logged] at hs
      rw [hs]
    exact hx ▸ head_mem_pending hi
  · rcases mem_pending_run hi hs with hs | hs
    · exact ⟨e, .inr hs⟩
    · obtain ⟨hsub, hst⟩ := submit_of_perform hp hs
      exact absurd (hx hsub) hst

/-! ### Every run -/

theorem Phase.idle_of_submit (h : Phase s) (hx : .submitBacking ∈ pending s.threads) :
    s.backingOwed = 0 := by
  cases h with
  | @live t h =>
    have hsum := h.backing
    have hle := le_sum_of_mem hx backs
    have hone : t.backingClaim.toNat ≤ 1 := Bool.toNat_le _
    unfold State.weigh at hsum
    have hbacks : backs .submitBacking = 1 := rfl
    omega
  | start h | register h | allocate h | reject _ _ _ h | prepare h | claim _ h | copy _ _ h
  | release _ _ _ h
  | unregister _ h | settle _ h | settled _ h => exact h.idle.1

theorem Phase.early_of_prepare (h : Phase s) (hx : .prepare ∈ pending s.threads) :
    s.backingOwed = 0 := by
  cases h with
  | live h => exact (h.inner _ hx).elim
  | start h | register h | allocate h | reject _ _ _ h | prepare h | claim _ h | copy _ _ h
  | release _ _ _ h
  | unregister _ h | settle _ h | settled _ h => exact h.idle.1

/-- The Backing Store is degraded only for a result of it. -/
theorem Story.failed_of_degraded (h : Story s) (hd : .backingDegraded ∈ s.log) : s.Failed := by
  cases h with
  | early h => rcases h with h | h | h <;> simp [h] at hd
  | rejected pre e hpre hl h => rcases hpre with rfl | rfl <;> rcases hl with rfl | rfl <;> simp [h] at hd
  | @live t h =>
    have hsum := h.degraded
    have hpos := List.count_pos_iff.mpr hd
    have hf : t.policy.failedLocally = true := by
      cases hf : t.policy.failedLocally with
      | true => rfl
      | false => rw [hf, Bool.toNat_false] at hsum; omega
    obtain ⟨hdone, hst⟩ := Bool.and_eq_true_iff.mp hf
    obtain ⟨e, he⟩ := Option.isSome_iff_exists.mp hst
    have htaken := h.taken hdone
    rw [he] at htaken
    exact ⟨e, .inl (mem_of_lastBacking htaken)⟩
  | @concluded pre l r hpre hc h =>
    have hmem : .backingDegraded ∈ l := by
      rw [h, List.mem_append] at hd
      exact hd.resolve_left (by rcases hpre with rfl | rfl | rfl <;> simp)
    have hpos := List.count_pos_iff.mpr hmem
    rw [hc.degraded] at hpos
    cases hf : backingFailed (lastBacking l) with
    | false => rw [hf, Bool.toNat_false] at hpos; cases hpos
    | true =>
      obtain ⟨e, he⟩ := backingFailed_iff.mp hf
      exact ⟨e, .inl (by rw [h]; exact List.mem_append_right _ (mem_of_lastBacking he))⟩

end Io
end Infiniswap
