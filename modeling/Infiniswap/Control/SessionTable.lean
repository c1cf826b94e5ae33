/-
# Holes in the table of sessions

Sessions are created one at a time, and a creation that fails is followed by
the next one. The count of sessions is one more than the last index created,
whether or not the indices below it were. So the table has a hole as soon as a
session is created after a failed creation, and the scan of
`is_fabric_mapping_work`, which reads every session below the count without
asking whether it exists, follows a null pointer there. The sibling loops over
the same indices ask.
-/
import Infiniswap.Control.Connectivity

namespace Infiniswap
namespace Control

open RemoteChunk ChunkModule Transition Threads

variable {f f' : Fabric} {i : ℕ} {s s' : Session} {x : Instr} {next : List Instr} {answer : Answer}

/-- Every index below the count holds a session. -/
def Fabric.Dense (f : Fabric) : Prop := ∀ i < f.sessionCount, (f.sessions i).isSome = true

instance (f : Fabric) : Decidable f.Dense :=
  inferInstanceAs (Decidable (∀ i < f.sessionCount, (f.sessions i).isSome = true))

/-- No session is torn down. -/
def Standing (_ : Fabric) (x : Instr) (_ : Answer) : Prop := ∀ i, x ≠ .destroySession i

/-- No session is torn down, and none is created once a creation has failed. -/
def InOrder (f : Fabric) (x : Instr) (answer : Answer) : Prop :=
  Standing f x answer ∧
    (x = .startNext → answer.allocated = true → ∀ i < f.nextResolveIndex, f.failedSessions i = false)

instance : Decidable (Standing f x answer) :=
  decidable_of_iff (!(x matches .destroySession _)) (by unfold Standing; cases x <;> simp)

instance : Decidable (InOrder f x answer) :=
  inferInstanceAs (Decidable
    (_ ∧ (x = .startNext → answer.allocated = true → ∀ i < f.nextResolveIndex, _ = false)))

/-! ### What a step does to the table -/

/-- What an instruction does to the table of sessions and the record of failed creations. -/
inductive TableStep (f : Fabric) : Instr → Answer → Fabric → Prop
  | kept {x : Instr} {answer : Answer} {f' : Fabric} (hn : f'.nextResolveIndex = f.nextResolveIndex)
      (hc : f'.sessionCount = f.sessionCount) (hf : f'.failedSessions = f.failedSessions)
      (hs : ∀ i, (f'.sessions i).isSome = (f.sessions i).isSome) :
      TableStep f x answer f'
  | failed {answer : Answer} {f' : Fabric} (hn : f'.nextResolveIndex = f.nextResolveIndex + 1)
      (hc : f'.sessionCount = f.sessionCount)
      (hf : f'.failedSessions = Function.update f.failedSessions f.nextResolveIndex true)
      (hs : f'.sessions = f.sessions) (hnone : f.sessions f.nextResolveIndex = none) :
      TableStep f .startNext answer f'
  | created {answer : Answer} {f' : Fabric} (s : Session) (ha : answer.allocated = true)
      (hn : f'.nextResolveIndex = f.nextResolveIndex + 1) (hc : f'.sessionCount = f.nextResolveIndex + 1)
      (hf : f'.failedSessions = f.failedSessions)
      (hs : f'.sessions = Function.update f.sessions f.nextResolveIndex (some s)) :
      TableStep f .startNext answer f'
  | destroyed {answer : Answer} {f' : Fabric} (i : ℕ) : TableStep f (.destroySession i) answer f'

theorem isSome_update_eq {g : ℕ → Option Session} (hi : g i = some s) (j : ℕ) :
    (Function.update g i (some s') j).isSome = (g j).isSome := by
  by_cases hj : j = i
  · rw [hj, Function.update_self, hi]
    rfl
  · rw [Function.update_of_ne hj]

theorem startNextSession_unallocated (ha : answer.allocated = false) :
    (f.startNextSession answer).2.sessions = f.sessions := by
  unfold Fabric.startNextSession
  split
  · rfl
  dsimp only
  split
  · rfl
  rw [if_pos (.inl (by rw [ha]; rfl))]
  unfold Fabric.failUnstartedProvider
  split <;> rfl

/-- **Every instruction does one of these things to the table.** -/
theorem Runs.table {k : ℕ} {rest : List Instr} (hc : Counted f) (h : Runs f k answer x rest next f') :
    TableStep f x answer f' := by
  have hout := h.outcome
  cases h.moves with
  | turn i s s' hi hm hw hq hf =>
    rw [hf]
    exact .kept rfl rfl rfl (isSome_update_eq hi)
  | marks i s hx hi hf =>
    rw [hf, scheduleNextSession_frame]
    exact .kept rfl rfl rfl (isSome_update_eq hi)
  | refreshes =>
    rw [refresh_frame]
    exact .kept rfl rfl rfl fun _ => rfl
  | recovers =>
    rw [scheduleNextSession_frame]
    exact .kept rfl rfl rfl fun _ => rfl
  | loses i =>
    unfold Fabric.markRemoteLost
    split <;> exact .kept rfl rfl rfl fun _ => rfl
  | flags hx hq hf | asks hx hn hq hw hf | completes hl hs hm hp hw hf =>
    rw [hf]
    exact .kept rfl rfl rfl fun _ => rfl
  | reservedSessions =>
    refine .kept rfl rfl rfl fun j => ?_
    dsimp only
    split
    · rw [Option.isSome_map]
    · rfl
  | skips hs hn hsome =>
    -- no session is there before its creation
    obtain ⟨s, hs⟩ := Option.isSome_iff_exists.mp hsome
    exact absurd ((hc.inside hs).trans_le hc.count) (lt_irrefl _)
  | unstarted hs hn hnone hw hq hf =>
    rw [hf]
    exact .failed rfl rfl rfl rfl hnone
  | starts hs hn hnone hp hnext =>
    refine .created _ ?_ rfl (max_eq_right (hc.count.trans (Nat.le_succ _))) rfl rfl
    by_contra ha
    have hsame := startNextSession_unallocated (f := f) (Bool.not_eq_true _ ▸ ha)
    rw [show f.startNextSession answer = _ from Option.some.inj hout] at hsame
    have hthere := congrFun hsame f.nextResolveIndex
    dsimp only at hthere
    rw [Function.update_self, hnone] at hthere
    cases hthere
  | destroys i => exact .destroyed i
  | _ => exact .kept rfl rfl rfl fun _ => rfl

/-! ### The table over whole runs -/

/-- The indices tried so far hold a session exactly where the creation did not fail. -/
structure Charted (f : Fabric) : Prop where
  tried : ∀ i < f.nextResolveIndex, (f.sessions i).isSome = !f.failedSessions i
  fresh : ∀ i, f.nextResolveIndex ≤ i → f.failedSessions i = false

theorem Charted.kept (h : Charted f) (hn : f'.nextResolveIndex = f.nextResolveIndex)
    (hf : f'.failedSessions = f.failedSessions)
    (hs : ∀ i, (f'.sessions i).isSome = (f.sessions i).isSome) : Charted f' := by
  refine ⟨fun i hi => ?_, fun i hi => ?_⟩
  · rw [hs, hf]
    exact h.tried i (hn ▸ hi)
  · rw [hf]
    exact h.fresh i (hn ▸ hi)

/-- A step keeps the table charted, unless it tears a session down. -/
theorem Charted.step (h : Charted f) (ht : TableStep f x answer f') (hx : Standing f x answer) :
    Charted f' := by
  cases ht with
  | kept hn _ hf hs => exact h.kept hn hf hs
  | failed hn _ hf hs hnone =>
    refine ⟨fun i hi => ?_, fun i hi => ?_⟩
    · rw [hs, hf]
      by_cases hin : i = f.nextResolveIndex
      · rw [hin, hnone, Function.update_self]
        rfl
      · rw [Function.update_of_ne hin]
        exact h.tried i (by omega)
    · rw [hf, Function.update_of_ne (by omega)]
      exact h.fresh i (by omega)
  | created s _ hn _ hf hs =>
    refine ⟨fun i hi => ?_, fun i hi => by rw [hf]; exact h.fresh i (by omega)⟩
    rw [hs, hf]
    by_cases hin : i = f.nextResolveIndex
    · rw [hin, Function.update_self, h.fresh _ le_rfl]
      rfl
    · rw [Function.update_of_ne hin]
      exact h.tried i (by omega)
  | destroyed i => exact absurd rfl (hx i)

theorem Outside.table {l : Label} (h : Outside f l f') : f'.nextResolveIndex = f.nextResolveIndex ∧
    f'.sessionCount = f.sessionCount ∧ f'.failedSessions = f.failedSessions ∧
    ∀ i, (f'.sessions i).isSome = (f.sessions i).isSome := by
  cases h with
  | starts | wants => exact ⟨rfl, rfl, rfl, fun _ => rfl⟩
  | works x hx hf | io c r hc hw hf | stops hs hf => rw [hf]; exact ⟨rfl, rfl, rfl, fun _ => rfl⟩
  | beats i s hi | downs i s hi | touches i s s' hi | arrives i s s' x hi =>
    exact ⟨rfl, rfl, rfl, isSome_update_eq hi⟩

theorem charted_of_reach {P : Fabric → Instr → Answer → Prop} (hP : ∀ f x a, P f x a → Standing f x a)
    (hr : fabricSystem.Reach (Performs P) f) : Charted f := by
  refine fabric_invariant (I := Charted) (fun f h => ?_) (fun f _ f' _ h ho => ?_)
    (fun f _ _ _ _ _ _ hr h hx hrun => ?_) hr
  · rw [h.2.2]
    exact ⟨nofun, fun _ _ => rfl⟩
  · obtain ⟨hn, -, hf, hs⟩ := ho.table
    exact h.kept hn hf hs
  · exact (h.step (hrun.table (counted_of_reach hr)) (hP _ _ _ hx)).kept rfl rfl fun _ => rfl

/-- In order, no creation below the count failed. -/
theorem unfailed_of_reach (hr : fabricSystem.Reach (Performs InOrder) f) :
    ∀ i < f.sessionCount, f.failedSessions i = false := by
  refine fabric_invariant (I := fun f => ∀ i < f.sessionCount, f.failedSessions i = false) (fun f h => ?_)
    (fun f _ f' _ h ho => ?_) (fun f _ _ _ _ _ f₁ hr h hx hrun => ?_) hr
  · rw [h.2.2]
    nofun
  · obtain ⟨-, hc, hf, -⟩ := ho.table
    rw [hc, hf]
    exact h
  · have hcount := counted_of_reach hr
    show ∀ i < f₁.sessionCount, f₁.failedSessions i = false
    cases hrun.table hcount with
    | kept _ hc hf _ =>
      rw [hc, hf]
      exact h
    | failed _ hc hf _ _ =>
      intro i hi
      rw [hc] at hi
      have hle := hcount.count
      rw [hf, Function.update_of_ne (by omega)]
      exact h i hi
    | created s ha _ hc hf _ =>
      intro i hi
      rw [hc] at hi
      rw [hf]
      by_cases hin : i = f.nextResolveIndex
      · rw [hin]
        exact (charted_of_reach (fun _ _ _ h => h.1) hr).fresh _ le_rfl
      · exact hx.2 rfl ha i (by omega)
    | destroyed i => exact absurd rfl (hx.1 i)

/-- **The table of sessions is dense** in every run that creates no session after a failed creation.
Before teardown it is dense in no other state: exactly those where no creation below the count
failed. -/
theorem sessions_dense (f : Fabric) :
    (fabricSystem.Reach (Performs InOrder) f → f.Dense) ∧
    (fabricSystem.Reach (Performs Standing) f →
      (f.Dense ↔ ∀ i < f.sessionCount, f.failedSessions i = false)) := by
  have hiff : ∀ {P : Fabric → Instr → Answer → Prop}, (∀ f x a, P f x a → Standing f x a) →
      fabricSystem.Reach (Performs P) f →
      (f.Dense ↔ ∀ i < f.sessionCount, f.failedSessions i = false) := by
    intro P hP hr
    have hcount := counted_of_reach hr
    refine forall₂_congr fun i hi => ?_
    rw [(charted_of_reach hP hr).tried i (hi.trans_le hcount.count), Bool.not_eq_true']
  exact ⟨fun hr => (hiff (fun _ _ _ h => h.1) hr).mpr (unfailed_of_reach hr),
    fun hr => hiff (fun _ _ _ h => h) hr⟩

/-- Two Providers: the second session is created after the handshake of the first. -/
theorem sessions_dense_two :
    ∃ f, fabricSystem.Reach (Performs InOrder) f ∧ f.sessionCount = 2 ∧ f.Dense := by
  have hrun : (fabricSystem.execIf (Performs InOrder) (smallFabric .backed ["p", "q"])
      (runs 0 1 ++ handshake 0 1 1 ++ .start :: runs 5 1)).any (fun f => f.sessionCount = 2) = true := by
    decide +kernel
  obtain ⟨f, hr, hcount⟩ := System.exists_of_execIf (smallFabric_started (by decide) (by decide)) hrun
  exact ⟨f, hr, hcount, (sessions_dense f).1 hr⟩

/-- Three Providers: the first session fails, the second cannot be created, the third can. Then the
scan of the mapping work follows a null pointer. -/
theorem session_missing :
    ∃ f, fabricSystem.Reachable f ∧ f.stopping = false ∧ ¬ f.Dense ∧ f.sessionCount = 3 ∧
    f.mappingScan (List.range f.sessionCount) = none := by
  have hrun : (fabricSystem.exec (smallFabric .backed ["p", "q", "r"])
      [runs 0 1, [.fault 0 .eio], runs 1 4, [.work 0 .failure], runs 2 3,
        [.start, .run 3 { allocated := false }],
        runs 3 2, [.start], runs 4 1].flatten).any
      (fun f => decide (f.stopping = false ∧ ¬ f.Dense ∧ f.sessionCount = 3 ∧
        f.mappingScan (List.range f.sessionCount) = none)) = true := by
    decide +kernel
  exact System.exists_of_exec (smallFabric_started (by decide) (by decide)) hrun

end Control
end Infiniswap
