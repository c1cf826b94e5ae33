/-
# What a step of an operation can do

The post result, the terminal decision, the completion claim and the deadline of
an operation owner, tied to the places of its three handlers. The queue pair
completes only what it took, so a refused post leaves the completion and
deadline handlers idle; the terminal is decided once, and only the handler that
decided it publishes; the completion claim is given up only by the handler that
gives the lease back, and nothing is destroyed before. The deadline fires only
for an accepted operation whose timer nobody cancelled, and the completion comes
once: within these laws no handler takes the branch of an illegal event, and
every step is one of `Moves`, which says what the step changes.
-/
import Infiniswap.Rdma.OperationOwner

namespace Infiniswap
namespace Rdma

variable {c : Option AdapterCall}

/-- The posting thread has not entered its first section. -/
def SubmitPc.fresh : SubmitPc → Bool
  | .post | .enterSucceeded | .enterFailed => true
  | _ => false

/-- Places the posting thread reaches only with an accepted work request. -/
def SubmitPc.accepted : SubmitPc → Bool
  | .enterSucceeded | .arm | .armed | .cancel | .cancelled => true
  | _ => false

/-- Places the posting thread reaches only without one. -/
def SubmitPc.refused : SubmitPc → Bool
  | .post | .enterFailed | .abort | .finish _ true _ => true
  | _ => false

/-- Places of the posting thread after the section of a failed post. -/
def SubmitPc.aborting : SubmitPc → Bool
  | .abort | .finish _ true _ => true
  | _ => false

/-- The completion handler has given the lease back. -/
def CompletionPc.released : CompletionPc → Bool
  | .finish true _ | .destroy | .done => true
  | _ => false

/-- The completion handler is about to give the lease back. -/
def CompletionPc.releasing : CompletionPc → Bool
  | .release _ => true
  | _ => false

/-- The completion handler has decided the terminal and not published it yet. -/
def CompletionPc.publishes : CompletionPc → Bool
  | .cancel _ p _ | .cancelled _ p _ | .retire _ p _ _ => p
  | .publish _ _ => true
  | _ => false

/-- The completion handler took the branch of an illegal event. -/
def CompletionPc.reporting : CompletionPc → Bool
  | .report | .finish false _ => true
  | _ => false

/-- The deadline handler has been through its first section. -/
def DeadlinePc.entered : DeadlinePc → Bool
  | .idle | .enter => false
  | _ => true

/-- The deadline handler took the branch of an illegal event. -/
def DeadlinePc.reporting : DeadlinePc → Bool
  | .report | .finish false => true
  | _ => false

namespace Machine

variable {s t : Machine}

/-- **The invariant of one operation.** -/
structure Inv (s : Machine) : Prop where
  fresh : s.submit.fresh = true → s.owner.postState = .pending
  accepted : s.submit.accepted = true → s.posted = true
  refused : s.submit.refused = true → s.posted = false
  aborting : s.submit.aborting = true → s.owner.postState = .failed
  report : ∀ e a b c, s.submit ≠ .report e a b c
  failed : s.owner.postState = .failed → s.posted = false
  unposted : s.posted = false →
    s.completion = .idle ∧ s.deadline = .idle ∧ s.timer = .idle ∧ s.owner.terminal = .none
  unarmed : s.submit.fresh = true ∨ s.submit = .arm → s.timer = .idle
  unfired : s.timer ≠ .fired → s.deadline = .idle
  idle : s.completion = .idle ↔ s.owner.completionSeen = false
  terminal : s.owner.terminal = .none → s.completion = .idle
  publishes : s.completion.publishes = true → s.owner.terminal = .completion
  deadline : s.deadline = .publish → s.owner.terminal = .deadline
  reporting : s.completion.reporting = false
  claim : s.owner.completionClaim = false →
    s.completion.released = true ∨ (s.owner.postState = .failed ∧ s.submit ≠ .abort)
  destroy : s.submit = .destroy ∨ s.completion = .destroy ∨ s.deadline = .destroy ∨ s.destroyed = true →
    s.owner.completionClaim = false

/-- **The laws of the deadline.** -/
structure Timing (s : Machine) : Prop where
  finishes : ∀ a b c, s.submit = .finish a b c → a = true ∧ b = !s.posted
  entered : s.owner.deadlineSeen = s.deadline.entered
  reporting : s.deadline.reporting = false
  quiet : s.owner.invariantReported = false
  posted : s.submit.fresh = false → s.posted = true → s.owner.postState = .succeeded
  unposted : s.submit.fresh = false → s.posted = false → s.owner.postState = .failed
  arming : s.submit = .arm → s.owner.deadlineState ≠ .cancelled
  cancelling : s.submit = .cancel → s.completion ≠ .idle
  submitCancelled : s.submit = .cancelled → s.timer = .cancelled
  completionCancelled : ∀ a b c, s.completion = .cancelled a b c → s.timer = .cancelled
  cancelled : s.owner.deadlineState = .cancelled → s.timer = .idle ∨ s.timer = .cancelled
  fired : s.timer = .fired → s.deadline ≠ .idle
  armed : s.completion = .idle → s.posted = true → s.submit.fresh = false → s.submit ≠ .arm →
    s.timer = .pending ∨ s.timer = .fired
  decided : s.owner.deadlineSeen = true → s.owner.terminal ≠ .none

/-- **The laws of one operation.** -/
structure Laws (s : Machine) : Prop where
  inv : s.Inv
  timing : s.Timing

theorem laws_init : ({} : Machine).Laws where
  inv :=
    { fresh := fun _ => rfl
      accepted := nofun
      refused := fun _ => rfl
      aborting := nofun
      report := nofun
      failed := nofun
      unposted := fun _ => ⟨rfl, rfl, rfl, rfl⟩
      unarmed := fun _ => rfl
      unfired := fun _ => rfl
      idle := by simp
      terminal := fun _ => rfl
      publishes := nofun
      deadline := nofun
      reporting := rfl
      claim := nofun
      destroy := fun h => by simp at h }
  timing :=
    { finishes := nofun, entered := rfl, reporting := rfl, quiet := rfl, posted := nofun, unposted := nofun
      arming := nofun, cancelling := nofun, submitCancelled := nofun, completionCancelled := nofun
      cancelled := nofun, fired := nofun, armed := nofun, decided := nofun }

/-! ### What a step can do -/

/-- A step of a machine whose handlers report nothing. -/
inductive Moves (s : Machine) : Option AdapterCall → Machine → Prop
  | post (hp : s.submit = .post) (accepted : Bool) : Moves s none
      { s with posted := accepted, submit := if accepted then .enterSucceeded else .enterFailed }
  | overtaken (hp : s.submit = .enterSucceeded) (hc : s.owner.completionSeen = true) : Moves s none
      { s with
        submit := .finish true false true
        owner := { s.owner.beginEvent with postState := .succeeded, deadlineState := .cancelled } }
  | arms (hp : s.submit = .enterSucceeded) (hc : s.owner.completionSeen = false) : Moves s none
      { s with
        submit := .arm
        owner := { s.owner.beginEvent with postState := .succeeded, deadlineState := .arming } }
  | refuses (hp : s.submit = .enterFailed) : Moves s none
      { s with
        submit := .abort
        owner := { s.owner.beginEvent with postState := .failed, deadlineState := .cancelled } }
  | arm (hp : s.submit = .arm) :
      Moves s (some .armDeadline) { s with submit := .armed, timer := .pending }
  | armed (hp : s.submit = .armed) (state : DeadlineState) (hn : state ≠ .cancelled)
      (hs : s.owner.completionSeen = false ∨ s.owner.deadlineSeen = true) : Moves s none
      { s with submit := .finish true false false, owner := { s.owner with deadlineState := state } }
  | cancels (hp : s.submit = .armed) (hc : s.owner.completionSeen = true) : Moves s none
      { s with submit := .cancel, owner := { s.owner with deadlineState := .cancelling } }
  | submitCancel (hp : s.submit = .cancel) (ht : s.timer = .pending) :
      Moves s (some (.cancelDeadline true))
        { s with submit := .cancelled, timer := .cancelled }
  | submitLate (hp : s.submit = .cancel) (ht : s.timer ≠ .pending) :
      Moves s (some (.cancelDeadline false))
        { s with submit := .finish true false false }
  | submitCancelled (hp : s.submit = .cancelled) : Moves s none
      { s with submit := .finish true false true, owner := { s.owner with deadlineState := .cancelled } }
  | abort (hp : s.submit = .abort) :
      Moves s (some .abortUnposted) { s with submit := .finish true true true }
  | submitFinish (b c : Bool) (hp : s.submit = .finish true b c) : Moves s none
      { s with
        submit := if (s.owner.finishEvent true b c).1 then .destroy else .done
        owner := (s.owner.finishEvent true b c).2 }
  | submitDestroy (hp : s.submit = .destroy) : Moves s (some .destroy)
      { s with submit := .done, destroyed := true }
  | complete (status : Option Errno) (hp : s.posted = true) (hc : s.completion = .idle)
      (pc : CompletionPc)
      (hpc : pc = .cancel status (s.owner.terminal = .none) (s.owner.terminal = .deadline) ∨
        pc = .retire status (s.owner.terminal = .none) (s.owner.terminal = .deadline) false) :
      Moves s none
      { s with
        completion := pc
        owner := { s.owner.beginEvent with
          completionSeen := true
          terminal := if s.owner.terminal = .none then .completion else s.owner.terminal } }
  | completionCancel (status : Option Errno) (p l : Bool) (hc : s.completion = .cancel status p l)
      (ht : s.timer = .pending) : Moves s (some (.cancelDeadline true))
      { s with completion := .cancelled status p l, timer := .cancelled }
  | completionLate (status : Option Errno) (p l : Bool) (hc : s.completion = .cancel status p l)
      (ht : s.timer ≠ .pending) : Moves s (some (.cancelDeadline false))
      { s with completion := .retire status p l false }
  | completionCancelled (status : Option Errno) (p l : Bool) (hc : s.completion = .cancelled status p l) :
      Moves s none
      { s with
        completion := .retire status p l true
        owner := { s.owner with deadlineState := .cancelled } }
  | retire (status : Option Errno) (p l d : Bool) (hc : s.completion = .retire status p l d) :
      Moves s (some (.retirePosted status l))
      { s with completion := if p then .publish status d else .release d }
  | publish (status : Option Errno) (d : Bool) (hc : s.completion = .publish status d) :
      Moves s (some (.publishTerminal .completion status)) { s with completion := .release d }
  | release (d : Bool) (hc : s.completion = .release d) :
      Moves s (some .releaseTransferredIo) { s with completion := .finish true d }
  | completionFinish (d : Bool) (hc : s.completion = .finish true d) : Moves s none
      { s with
        completion := if (s.owner.finishEvent false true d).1 then .destroy else .done
        owner := (s.owner.finishEvent false true d).2 }
  | completionDestroy (hc : s.completion = .destroy) : Moves s (some .destroy)
      { s with completion := .done, destroyed := true }
  | expire (ht : s.timer = .pending) : Moves s none { s with timer := .fired, deadline := .enter }
  | decides (hd : s.deadline = .enter) (hc : s.owner.completionSeen = false)
      (hn : s.owner.terminal = .none) :
      Moves s none
      { s with
        deadline := .publish
        owner := { s.owner.beginEvent with
          deadlineSeen := true, deadlineState := .fired, terminal := .deadline } }
  | tooLate (hd : s.deadline = .enter) (hc : s.owner.terminal ≠ .none) : Moves s none
      { s with
        deadline := .finish true
        owner := { s.owner.beginEvent with deadlineSeen := true, deadlineState := .fired } }
  | deadlinePublish (hd : s.deadline = .publish) :
      Moves s (some (.publishTerminal .deadline (some .etimedout))) { s with deadline := .finish true }
  | deadlineFinish (hd : s.deadline = .finish true) : Moves s none
      { s with
        deadline := if (s.owner.finishEvent false false true).1 then .destroy else .done
        owner := (s.owner.finishEvent false false true).2 }
  | deadlineDestroy (hd : s.deadline = .destroy) : Moves s (some .destroy)
      { s with deadline := .done, destroyed := true }

theorem submitStep_moves (hi : s.Inv) (ht : s.Timing) (hs : s.submitStep = some (c, t)) :
    s.Moves c t := by
  unfold submitStep at hs
  split at hs <;> rename_i hp <;> cases hs
  case h_3 =>
    have hf : s.owner.postState = .pending := hi.fresh (by rw [hp]; rfl)
    unfold Owner.postSucceeded
    simp only [Owner.beginEvent, hf, ne_eq, not_true_eq_false, if_false]
    split
    · exact .overtaken hp ‹_›
    · rename_i hc
      exact .arms hp (Bool.eq_false_iff.mpr hc)
  case h_4 =>
    have hf : s.owner.postState = .pending := hi.fresh (by rw [hp]; rfl)
    have hc : s.owner.completionSeen = false :=
      hi.idle.mp (hi.unposted (hi.refused (by rw [hp]; rfl))).1
    have hpf : s.owner.postFailed =
        (.abort, { s.owner.beginEvent with postState := .failed, deadlineState := .cancelled }) := by
      simp [Owner.postFailed, Owner.beginEvent, hf, hc]
    rw [hpf]
    exact .refuses hp
  case h_5 => exact .arm hp
  case h_6 =>
    unfold Owner.deadlineArmed
    split
    · exact .armed hp .fired nofun (.inr ‹_›)
    split
    · exact .cancels hp ‹_›
    · rename_i hc
      exact .armed hp .armed nofun (.inl (Bool.eq_false_iff.mpr hc))
  case h_7 =>
    unfold cancelTimer
    split
    · exact .submitCancel hp ‹_›
    · exact .submitLate hp ‹_›
  case h_8 =>
    have hd : s.owner.deadlineSeen = false := by
      rw [ht.entered, hi.unfired (by rw [ht.submitCancelled hp]; nofun)]
      rfl
    unfold Owner.deadlineCancelled
    rw [if_neg (by simp [hd])]
    exact .submitCancelled hp
  case h_9 => exact .abort hp
  case h_10 => exact absurd hp (hi.report _ _ _ _)
  case h_11 =>
    obtain ⟨rfl, -⟩ := ht.finishes _ _ _ hp
    exact .submitFinish _ _ hp
  case h_12 => exact .submitDestroy hp

theorem completionStep_moves (hi : s.Inv) (hs : s.completionStep = some (c, t)) : s.Moves c t := by
  have hr := hi.reporting
  unfold completionStep at hs
  split at hs <;> rename_i hc <;> cases hs
  case h_3 => rw [hc] at hr; cases hr
  case h_4 =>
    unfold cancelTimer
    split
    · exact .completionCancel _ _ _ hc ‹_›
    · exact .completionLate _ _ _ hc ‹_›
  case h_5 => exact .completionCancelled _ _ _ hc
  case h_6 => exact .retire _ _ _ _ hc
  case h_7 => exact .publish _ _ hc
  case h_8 => exact .release _ hc
  case h_9 complete _ =>
    cases complete with
    | false => rw [hc] at hr; cases hr
    | true => exact .completionFinish _ hc
  case h_10 => exact .completionDestroy hc

/-- A deadline that fires finds an accepted operation whose timer nobody cancelled. -/
theorem providerDeadline_legal (hi : s.Inv) (ht : s.Timing) (hd : s.deadline = .enter) :
    ¬ (s.owner.deadlineSeen = true ∨ s.owner.postState ≠ .succeeded ∨
      s.owner.deadlineState = .cancelled) := by
  have hf : s.timer = .fired := by
    by_contra hne
    rw [hi.unfired hne] at hd
    cases hd
  have hposted : s.posted = true := by
    by_contra hne
    rw [(hi.unposted (by simpa using hne)).2.1] at hd
    cases hd
  have hfresh : s.submit.fresh = false := by
    by_contra hne
    rw [hi.unarmed (.inl (by simpa using hne))] at hf
    cases hf
  rintro (hseen | hpost | hcan)
  · rw [ht.entered, hd] at hseen
    cases hseen
  · exact hpost (ht.posted hfresh hposted)
  · rcases ht.cancelled hcan with h0 | h0 <;> rw [hf] at h0 <;> cases h0

theorem deadlineStep_moves (hi : s.Inv) (ht : s.Timing) (hs : s.deadlineStep = some (c, t)) :
    s.Moves c t := by
  have hr := ht.reporting
  unfold deadlineStep at hs
  split at hs <;> rename_i hd <;> cases hs
  case h_3 =>
    have heq : s.owner.providerDeadline =
        if (!s.owner.completionSeen) = true ∧ s.owner.terminal = .none then
          (.publish, { s.owner.beginEvent with
            deadlineSeen := true, deadlineState := .fired, terminal := .deadline })
        else (.finish true, { s.owner.beginEvent with deadlineSeen := true, deadlineState := .fired }) :=
      if_neg (providerDeadline_legal hi ht hd)
    rw [heq]
    split
    · rename_i hc
      exact .decides hd (by simpa using hc.1) hc.2
    · rename_i hc
      refine .tooLate hd fun hn => hc ⟨?_, hn⟩
      simp [hi.idle.mp (hi.terminal hn)]
  case h_4 => rw [hd] at hr; cases hr
  case h_5 => exact .deadlinePublish hd
  case h_6 d =>
    cases d with
    | false => rw [hd] at hr; cases hr
    | true => exact .deadlineFinish hd
  case h_7 => exact .deadlineDestroy hd

/-- The completion of an accepted work request comes once and to an owner that can take it. -/
theorem rdmaCompleted_moves (hi : s.Inv) (hp : s.posted = true) (hc : s.completion = .idle)
    (status : Option Errno) : s.Moves none { s with
      completion := (s.owner.rdmaCompleted status).1, owner := (s.owner.rdmaCompleted status).2 } := by
  have hlegal : ¬ (s.owner.completionSeen = true ∨ s.owner.postState = .failed) := by
    rintro (hseen | hfail)
    · rw [hi.idle.mp hc] at hseen
      cases hseen
    · rw [hi.failed hfail] at hp
      cases hp
  have heq : s.owner.rdmaCompleted status =
      (if s.owner.deadlineState = .armed then
          .cancel status (s.owner.terminal = .none) (s.owner.terminal = .deadline)
        else .retire status (s.owner.terminal = .none) (s.owner.terminal = .deadline) false,
        { s.owner.beginEvent with
          completionSeen := true
          terminal := if decide (s.owner.terminal = .none) then .completion else s.owner.terminal }) :=
    if_neg hlegal
  simp only [heq, decide_eq_true_eq]
  exact .complete status hp hc _ (by split <;> simp)

/-- **Every step of a machine within its laws is one of `Moves`.** -/
theorem step_moves {e : OpEvent} (hi : s.Inv) (ht : s.Timing) (hs : s.step e = some (c, t)) :
    s.Moves c t := by
  cases e with
  | post accepted =>
    dsimp only [step] at hs
    split at hs
    · cases hs
      exact .post ‹_› accepted
    · cases hs
  | submit => exact submitStep_moves hi ht hs
  | complete status =>
    dsimp only [step] at hs
    split at hs
    · rename_i hp
      cases hs
      exact rdmaCompleted_moves hi hp.1 hp.2 status
    · cases hs
  | completion => exact completionStep_moves hi hs
  | expire =>
    dsimp only [step] at hs
    split at hs
    · cases hs
      exact .expire ‹_›
    · cases hs
  | deadline => exact deadlineStep_moves hi ht hs

end Machine
end Rdma
end Infiniswap
