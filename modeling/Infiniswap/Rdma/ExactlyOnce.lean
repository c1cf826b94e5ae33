/-
# Exactly once: publishing, retiring, releasing, destroying

What the operation owner asks of the transport's adapter over a whole run, kept
in a log of its calls beside the machine. `Called` says how often each call was
made as an equation between the log and the places of the handlers, and every
step keeps each equation. A rank of the places goes down with every step, so
every run ends, and in the state it ends in the equations read: each call once.
-/
import Infiniswap.Lib.Runs
import Infiniswap.Rdma.OwnerClaims

namespace Infiniswap
namespace Rdma

open Transition

/-- The call publishes a terminal. -/
def AdapterCall.publishes : AdapterCall → Bool
  | .publishTerminal _ _ => true
  | _ => false

/-- The call retires the posted work request. -/
def AdapterCall.retires : AdapterCall → Bool
  | .retirePosted _ _ => true
  | _ => false

/-- The call reports an invariant. -/
def AdapterCall.reports : AdapterCall → Bool
  | .invariant _ => true
  | _ => false

namespace Machine

variable {s t : Machine} {log : List AdapterCall}

/-! ### The calls so far -/

/-- The handlers that decided the terminal and have yet to publish it. -/
def publishers (s : Machine) : ℕ := s.completion.publishes.toNat + (decide (s.deadline = .publish)).toNat

/-- The posting thread has aborted an operation the queue pair refused. -/
def aborted (s : Machine) : Bool := decide (s.owner.postState = .failed) && decide (s.submit ≠ .abort)

/-- **The laws of the calls.** How often each call was made, read off the places of the handlers. -/
structure Called (s : Machine) (log : List AdapterCall) : Prop where
  retired : log.countP (·.retires) = s.completion.retired.toNat
  released : log.count .releaseTransferredIo = s.completion.released.toNat
  published : log.countP (·.publishes) + s.publishers = (decide (s.owner.terminal ≠ .none)).toNat
  aborted : log.count .abortUnposted = s.aborted.toNat
  destroyed : log.count .destroy = s.destroyed.toNat
  reported : log.countP (·.reports) = 0

variable {c : Option AdapterCall}

/-- A step whose call accounts for what it changes. -/
theorem Called.step (h : s.Called log)
    (hret : c.toList.countP (·.retires) + s.completion.retired.toNat = t.completion.retired.toNat)
    (hrel : c.toList.count .releaseTransferredIo + s.completion.released.toNat =
      t.completion.released.toNat)
    (hpub : c.toList.countP (·.publishes) + t.publishers + (decide (s.owner.terminal ≠ .none)).toNat =
      s.publishers + (decide (t.owner.terminal ≠ .none)).toNat)
    (habo : c.toList.count .abortUnposted + s.aborted.toNat = t.aborted.toNat)
    (hdes : c.toList.count .destroy + s.destroyed.toNat = t.destroyed.toNat)
    (hrep : c.toList.countP (·.reports) = 0) : t.Called (c.toList ++ log) where
  retired := by rw [List.countP_append, h.retired, hret]
  released := by rw [List.count_append, h.released, hrel]
  published := by
    have := h.published
    rw [List.countP_append]
    omega
  aborted := by rw [List.count_append, h.aborted, habo]
  destroyed := by rw [List.count_append, h.destroyed, hdes]
  reported := by rw [List.countP_append, h.reported, hrep]

theorem Called.submitMove (h : s.Called log) {pc : SubmitPc} {o : Owner} {timer : Timer}
    {posted : Bool} (hc : c = none ∨ c = some .armDeadline ∨ ∃ b, c = some (.cancelDeadline b))
    (hterm : o.terminal = s.owner.terminal)
    (habo : ({ s with submit := pc, owner := o } : Machine).aborted = s.aborted) :
    ({ s with submit := pc, owner := o, timer := timer, posted := posted } : Machine).Called
      (c.toList ++ log) := by
  have habo' :
      ({ s with submit := pc, owner := o, timer := timer, posted := posted } : Machine).aborted =
      s.aborted :=
    habo
  refine h.step ?_ ?_ ?_ ?_ ?_ ?_ <;> rcases hc with rfl | rfl | ⟨b, rfl⟩ <;>
    simp [publishers, hterm, habo', AdapterCall.retires, AdapterCall.publishes, AdapterCall.reports]

/-- **Every step keeps the laws of the calls.** -/
theorem called_moves (hi : s.Inv) (hk : s.Claims) (h : s.Called log) (hm : s.Moves c t) :
    t.Called (c.toList ++ log) := by
  cases hm with
  | post hp a => exact h.submitMove (.inl rfl) rfl (by cases a <;> simp [Machine.aborted, hp])
  | overtaken hp | arms hp | refuses hp =>
    have hpend := hi.fresh (by rw [hp]; rfl)
    exact h.submitMove (.inl rfl) rfl (by simp [Machine.aborted, hpend])
  | arm hp => exact h.submitMove (.inr (.inl rfl)) rfl (by simp [Machine.aborted, hp])
  | armed hp | cancels hp | submitCancelled hp =>
    exact h.submitMove (.inl rfl) rfl (by simp [Machine.aborted, hp])
  | submitCancel hp | submitLate hp =>
    exact h.submitMove (.inr (.inr ⟨_, rfl⟩)) rfl (by simp [Machine.aborted, hp])
  | abort hp =>
    have hfail := hi.aborting (by rw [hp]; rfl)
    refine h.step ?_ ?_ ?_ ?_ ?_ ?_ <;> simp [publishers, Machine.aborted, hp, hfail,
      AdapterCall.retires, AdapterCall.publishes, AdapterCall.reports]
  | submitFinish b d hp =>
    obtain ⟨e, he, -⟩ := finishEvent_cases s.owner true b d
    rw [he]
    exact h.submitMove (.inl rfl) rfl (by cases e <;> simp [Machine.aborted, hp])
  | submitDestroy hp =>
    refine h.step ?_ ?_ ?_ ?_ ?_ ?_ <;> simp [publishers, Machine.aborted, hp,
      hk.undestroyed (.inl hp), AdapterCall.retires, AdapterCall.publishes, AdapterCall.reports]
  | complete status hp hc pc hpc =>
    refine h.step ?_ ?_ ?_ (Nat.zero_add _) ?_ ?_ <;> rcases hpc with rfl | rfl
      <;> by_cases hn : s.owner.terminal = .none <;> simp [publishers, hc, hn, CompletionPc.retired,
      CompletionPc.released, CompletionPc.publishes, add_comm]
  | completionCancel status p l hc | completionLate status p l hc | completionCancelled status p l hc =>
    refine h.step ?_ ?_ ?_ ?_ ?_ ?_
      <;> simp [publishers, Machine.aborted, hc, CompletionPc.retired, CompletionPc.released,
      CompletionPc.publishes, AdapterCall.retires, AdapterCall.publishes, AdapterCall.reports]
  | retire status p l d hc =>
    refine h.step ?_ ?_ ?_ ?_ ?_ ?_ <;> cases p
      <;> simp [publishers, Machine.aborted, hc, CompletionPc.retired, CompletionPc.released,
      CompletionPc.publishes, AdapterCall.retires, AdapterCall.publishes, AdapterCall.reports]
  | publish status d hc | release d hc =>
    refine h.step ?_ ?_ ?_ ?_ ?_ ?_ <;> simp [publishers, Machine.aborted, hc, CompletionPc.retired,
      CompletionPc.released, CompletionPc.publishes, AdapterCall.retires, AdapterCall.publishes,
      AdapterCall.reports, add_comm]
  | completionFinish d hc =>
    obtain ⟨e, he, -⟩ := finishEvent_cases s.owner false true d
    rw [he]
    refine h.step ?_ ?_ ?_ ?_ ?_ ?_ <;> cases e <;> simp [publishers, Machine.aborted, hc,
      CompletionPc.retired, CompletionPc.released, CompletionPc.publishes]
  | completionDestroy hc =>
    refine h.step ?_ ?_ ?_ ?_ ?_ ?_ <;>
      simp [publishers, Machine.aborted, hc, hk.undestroyed (.inr (.inl hc)), CompletionPc.retired,
        CompletionPc.released, CompletionPc.publishes, AdapterCall.retires, AdapterCall.publishes,
        AdapterCall.reports]
  | expire ht' =>
    have hd := hi.unfired (by simp [ht'])
    refine h.step ?_ ?_ ?_ ?_ ?_ ?_ <;> simp [publishers, Machine.aborted, hd]
  | decides hd hc hn =>
    refine h.step ?_ ?_ ?_ (Nat.zero_add _) ?_ ?_ <;> simp [publishers, hd, hn]
  | tooLate hd hn =>
    refine h.step ?_ ?_ ?_ (Nat.zero_add _) ?_ ?_ <;> simp [publishers, hd, hn, Owner.beginEvent]
  | deadlinePublish hd =>
    refine h.step ?_ ?_ ?_ ?_ ?_ ?_ <;> simp [publishers, Machine.aborted, hd, AdapterCall.retires,
      AdapterCall.publishes, AdapterCall.reports, add_comm]
  | deadlineFinish hd =>
    obtain ⟨e, he, -⟩ := finishEvent_cases s.owner false false true
    rw [he]
    refine h.step ?_ ?_ ?_ ?_ ?_ ?_ <;> cases e <;> simp [publishers, Machine.aborted, hd]
  | deadlineDestroy hd =>
    refine h.step ?_ ?_ ?_ ?_ ?_ ?_ <;>
      simp [publishers, Machine.aborted, hd, hk.undestroyed (.inr (.inr hd)), AdapterCall.retires,
        AdapterCall.publishes, AdapterCall.reports]

/-- **The books of an operation**: its laws, its claims and its calls. -/
structure Books (s : Machine) (log : List AdapterCall) : Prop extends Laws s where
  claims : s.Claims
  called : s.Called log

theorem books_init : Books {} [] where
  toLaws := laws_init
  claims :=
    { events := rfl, submit := rfl, completion := rfl, deadline := rfl, destroying := rfl, given := nofun
      awake := fun _ => .inr (.inl rfl) }
  called := { retired := rfl, released := rfl, published := rfl, aborted := rfl, destroyed := rfl,
              reported := rfl }

theorem Books.step (h : s.Books log) {e : OpEvent} (hs : s.step e = some (c, t)) :
    t.Books (c.toList ++ log) :=
  have hm := step_moves h.inv h.timing hs
  { toLaws := laws_moves h.toLaws hm
    claims := claims_moves h.inv h.timing h.claims hm
    called := called_moves h.inv h.claims h.called hm }

/-! ### Every run ends -/

end Machine

/-- The steps the posting thread may still take, those of the timer it may arm included. -/
def SubmitPc.rank : SubmitPc → ℕ
  | .post => 14
  | .enterSucceeded | .enterFailed => 13
  | .arm => 12
  | .armed => 5
  | .cancel => 4
  | .cancelled | .abort | .report _ _ _ _ => 3
  | .finish _ _ _ => 2
  | .destroy => 1
  | .done => 0

def CompletionPc.rank : CompletionPc → ℕ
  | .idle => 8
  | .cancel _ _ _ => 7
  | .cancelled _ _ _ => 6
  | .retire _ _ _ _ => 5
  | .publish _ _ => 4
  | .report | .release _ => 3
  | .finish _ _ => 2
  | .destroy => 1
  | .done => 0

def DeadlinePc.rank : DeadlinePc → ℕ
  | .enter => 5
  | .report | .publish => 4
  | .finish _ => 3
  | .destroy => 1
  | .idle | .done => 0

/-- The steps the handlers and the timer may still take. -/
def Machine.rank (s : Machine) : ℕ :=
  s.submit.rank + s.completion.rank + 6 * s.timer.tick + s.deadline.rank

theorem Machine.cancelTimer_tick (s : Machine) : s.cancelTimer.2.tick ≤ s.timer.tick := by
  unfold cancelTimer
  split
  · exact Nat.zero_le _
  · exact le_rfl

namespace Owner

variable (o : Owner)

theorem postSucceeded_rank : o.postSucceeded.1.rank ≤ 12 := by
  unfold postSucceeded
  dsimp only
  split <;> split <;> simp [SubmitPc.rank]

theorem postFailed_rank : o.postFailed.1.rank ≤ 3 := by
  unfold postFailed
  dsimp only
  split <;> split <;> try split
  all_goals simp [SubmitPc.rank]

theorem deadlineArmed_rank : o.deadlineArmed.1.rank ≤ 4 := by
  unfold deadlineArmed
  split
  · simp [SubmitPc.rank]
  · split <;> simp [SubmitPc.rank]

theorem deadlineCancelled_rank : o.deadlineCancelled.1.rank = 2 := by
  unfold deadlineCancelled
  split <;> rfl

theorem rdmaCompleted_rank (status : Option Errno) : (o.rdmaCompleted status).1.rank ≤ 7 := by
  unfold rdmaCompleted
  dsimp only
  split <;> split <;> simp [CompletionPc.rank]

theorem providerDeadline_rank : o.providerDeadline.1.rank ≤ 4 := by
  unfold providerDeadline
  dsimp only
  split <;> split <;> simp [DeadlinePc.rank]

end Owner

namespace Machine

variable {s t : Machine} {c : Option AdapterCall}

theorem rank_submitStep (hs : s.submitStep = some (c, t)) : t.rank < s.rank := by
  have htick := s.cancelTimer_tick
  have h1 := s.owner.postSucceeded_rank
  have h2 := s.owner.postFailed_rank
  have h3 := s.owner.deadlineArmed_rank
  have h4 := s.owner.deadlineCancelled_rank
  unfold submitStep at hs
  split at hs <;> rename_i hp <;> cases hs <;> simp only [rank, hp] <;> try split
  all_goals first
    | (simp only [show Timer.pending.tick = 1 from rfl, SubmitPc.rank]; omega)
    | (change _ < 13 + _ + _ + _; omega)
    | (change _ < 5 + _ + _ + _; omega)
    | (change _ < 3 + _ + _ + _; omega)

theorem rank_completionStep (hs : s.completionStep = some (c, t)) : t.rank < s.rank := by
  have htick := s.cancelTimer_tick
  unfold completionStep at hs
  split at hs <;> rename_i hc <;> cases hs <;> simp only [rank, hc] <;> try split
  all_goals simp only [CompletionPc.rank]; omega

theorem rank_deadlineStep (hs : s.deadlineStep = some (c, t)) : t.rank < s.rank := by
  have h1 := s.owner.providerDeadline_rank
  unfold deadlineStep at hs
  split at hs <;> rename_i hd <;> cases hs <;> simp only [rank, hd]
  case h_3 => change _ < _ + _ + _ + 5; omega
  all_goals try split
  all_goals simp only [DeadlinePc.rank]; omega

/-- **Every step lowers the rank.** -/
theorem rank_step {e : OpEvent} (hs : s.step e = some (c, t)) : t.rank < s.rank := by
  cases e with
  | post accepted =>
    dsimp only [step] at hs
    split at hs <;> cases hs
    rename_i hp
    cases accepted <;> simp [rank, hp, SubmitPc.rank]
  | submit => exact rank_submitStep hs
  | complete status =>
    dsimp only [step] at hs
    split at hs <;> cases hs
    rename_i hp
    have h1 := s.owner.rdmaCompleted_rank status
    simp only [rank, hp.2]
    change _ < _ + 8 + _ + _
    omega
  | completion => exact rank_completionStep hs
  | expire =>
    dsimp only [step] at hs
    split at hs <;> cases hs
    rename_i hp
    have h1 : Timer.pending.tick = 1 := rfl
    have h2 : Timer.fired.tick = 0 := rfl
    simp only [rank, hp, DeadlinePc.rank, h1, h2]
    omega
  | deadline => exact rank_deadlineStep hs

/-! ### Where a run ends -/

/-- Nothing is left to do but, perhaps, to wait for the completion. -/
structure AtRest (s : Machine) : Prop where
  submit : s.submit = .done
  timer : s.timer ≠ .pending
  completion : s.completion = .idle ∨ s.completion = .done
  deadline : s.deadline = .idle ∨ s.deadline = .done

theorem submit_of_stopped (hp : ∀ a, s.step (.post a) = none) (h : s.step .submit = none) :
    s.submit = .done := by
  have h0 : s.submit ≠ .post := fun h0 => by simpa [step, h0] using hp true
  change s.submitStep = none at h
  unfold submitStep at h
  split at h <;> simp_all

theorem completion_of_stopped (h : s.step .completion = none) :
    s.completion = .idle ∨ s.completion = .done := by
  change s.completionStep = none at h
  unfold completionStep at h
  split at h <;> simp_all

theorem deadline_of_stopped (h : s.step .deadline = none) : s.deadline = .idle ∨ s.deadline = .done := by
  change s.deadlineStep = none at h
  unfold deadlineStep at h
  split at h <;> simp_all

theorem atRest_of_stopped (h : ∀ e, (∀ status, e ≠ .complete status) → s.step e = none) : s.AtRest where
  submit := submit_of_stopped (fun _ => h _ nofun) (h _ nofun)
  timer := fun h0 => by simpa [step, h0] using h .expire nofun
  completion := completion_of_stopped (h _ nofun)
  deadline := deadline_of_stopped (h _ nofun)

variable {log : List AdapterCall}

/-- An accepted operation at rest has published its terminal, by its completion or by its deadline. -/
theorem Books.published_of_atRest (h : s.Books log) (hr : s.AtRest) (hp : s.posted = true) :
    log.countP (·.publishes) = 1 := by
  have hdec : s.owner.terminal ≠ .none := by
    intro hn
    have hidle := h.inv.terminal hn
    -- no completion yet: the timer was armed, nobody cancelled it, so it fired and its handler decided
    have hfired := h.timing.armed hidle hp (by rw [hr.submit]; rfl) (by rw [hr.submit]; nofun)
    have hdone : s.deadline = .done :=
      hr.deadline.resolve_left (h.timing.fired (hfired.resolve_left hr.timer))
    exact h.timing.decided (by rw [h.timing.entered, hdone]; rfl) hn
  have hpub := h.called.published
  have hnone : s.publishers = 0 := by
    unfold publishers
    rcases hr.completion with hc | hc <;> rcases hr.deadline with hd | hd <;>
      simp [hc, hd, CompletionPc.publishes]
  rw [hnone] at hpub
  simpa [hdec] using hpub

/-- When nothing at all is left to do the owner has been destroyed. -/
theorem Books.destroyed_of_atRest (h : s.Books log) (hr : s.AtRest)
    (hc : s.posted = true → s.completion = .done) : s.destroyed = true := by
  have hin : s.owner.activeEvents = 0 := by
    rw [h.claims.events]
    unfold inside
    rcases hr.completion with hc | hc <;> rcases hr.deadline with hd | hd <;>
      simp [hr.submit, hc, hd, SubmitPc.inside, CompletionPc.inside, DeadlinePc.inside]
  have hsub : s.owner.submitClaim = false := by
    rw [h.claims.submit, hr.submit]
    rfl
  have hcomp : s.owner.completionClaim = false := by
    rw [h.claims.completion]
    unfold completionGiven
    cases hp : s.posted with
    | true => simp [hc hp, CompletionPc.over]
    | false => simp [h.timing.unposted (by rw [hr.submit]; rfl) hp, hr.submit, SubmitPc.over]
  have hdl : s.owner.deadlineClaim = false := by
    have := h.claims.deadline
    have hz : s.deadlineHolders = 0 := by
      unfold deadlineHolders
      rcases hr.completion with hc | hc <;> rcases hr.deadline with hd | hd <;>
        simp [hr.submit, hr.timer, hc, hd, SubmitPc.holdsDeadline, CompletionPc.holdsDeadline,
          DeadlinePc.holdsDeadline, Timer.tick]
    rw [hz] at this
    simpa using this
  have hdes : s.owner.destroying = true := by
    by_contra hno
    rcases h.claims.awake (by simpa using hno) with h0 | h0 | h0 | h0 <;> simp_all
  have hders := h.claims.destroying
  unfold destroyers at hders
  cases hd : s.destroyed with
  | true => rfl
  | false =>
    rcases hr.completion with hc | hc <;> rcases hr.deadline with hd' | hd' <;>
      simp [hdes, hr.submit, hc, hd', hd] at hders

/-- Once the owner is destroyed none of its handlers, nor its timer, nor its
completion touches it again. -/
theorem Books.stopped_of_destroyed (h : s.Books log) (hd : s.destroyed = true) (e : OpEvent) :
    s.step e = none := by
  have hders := h.claims.destroying
  have hle := Bool.toNat_le s.owner.destroying
  unfold destroyers at hders
  rw [hd, Bool.toNat_true] at hders
  have hdes : s.owner.destroying = true := by
    by_contra hno
    simp [Bool.eq_false_iff.mpr hno] at hders
  obtain ⟨hsub, hcomp, hdl⟩ := h.claims.given hdes
  have hns : s.submit ≠ .destroy := fun h0 => by simp [h0] at hders; omega
  have hnc : s.completion ≠ .destroy := fun h0 => by simp [h0] at hders; omega
  have hnd : s.deadline ≠ .destroy := fun h0 => by simp [h0] at hders; omega
  have hover : s.submit = .done := SubmitPc.done_of_over (by simpa [hsub] using h.claims.submit) hns
  have hholders := h.claims.deadline
  rw [hdl] at hholders
  unfold deadlineHolders at hholders
  rw [Bool.toNat_false] at hholders
  have htick : s.timer ≠ .pending := fun h0 => by
    rw [h0, show Timer.pending.tick = 1 from rfl] at hholders
    omega
  have hdead : s.deadline = .idle ∨ s.deadline = .done :=
    DeadlinePc.resting (by omega) h.timing.reporting hnd
  have hcompl : s.completion = .done ∨ (s.completion = .idle ∧ s.posted = false) := by
    cases hp : s.posted with
    | false => exact .inr ⟨(h.inv.unposted hp).1, rfl⟩
    | true =>
      have hpost := h.timing.posted (by rw [hover]; rfl) hp
      have hgiven := h.claims.completion
      simp only [hcomp, completionGiven, hpost, reduceCtorEq, decide_false, Bool.false_and,
        Bool.or_false] at hgiven
      exact .inl (CompletionPc.done_of_over (by simpa using hgiven) hnc)
  cases e with
  | post => simp [Machine.step, hover]
  | submit => simp [Machine.step, submitStep, hover]
  | complete =>
    rcases hcompl with h0 | ⟨-, h0⟩ <;> simp [Machine.step, h0]
  | completion => rcases hcompl with h0 | ⟨h0, -⟩ <;> simp [Machine.step, completionStep, h0]
  | expire => simp [Machine.step, htick]
  | deadline => rcases hdead with h0 | h0 <;> simp [Machine.step, deadlineStep, h0]

end Machine

/-- The runs of one operation, with the calls its owner made, newest first. -/
def ownerSystem : System (Machine × List AdapterCall) OpEvent where
  init x := x = ({}, [])
  step x e := (x.1.step e).map fun r => (r.2, r.1.toList ++ x.2)

theorem books_reachable {x : Machine × List AdapterCall} (h : ownerSystem.Reachable x) :
    x.1.Books x.2 := by
  refine h.invariant (I := fun x => x.1.Books x.2) ?_ ?_
  · rintro _ rfl
    exact Machine.books_init
  · rintro ⟨s, log⟩ e y - hb - hs
    obtain ⟨⟨c, t⟩, ht, rfl⟩ := Option.map_eq_some_iff.mp hs
    exact hb.step ht

/-- What the calls made so far say of an operation. -/
structure ExactlyOnce (s : Machine) (log : List AdapterCall) : Prop where
  /-- The terminal is published at most once, and by no operation the queue pair refused. -/
  publishes : log.countP (·.publishes) ≤ s.posted.toNat
  /-- The work request is retired and its I/O released at most once, and only on its completion. -/
  retires : log.countP (·.retires) ≤ s.owner.completionSeen.toNat
  releases : log.count .releaseTransferredIo ≤ s.owner.completionSeen.toNat
  /-- Only a refused operation is aborted, at most once, and it is never completed. -/
  aborts : log.count .abortUnposted ≤ (!s.posted).toNat
  unposted : s.posted = false → s.owner.completionSeen = false
  /-- The owner is destroyed at most once, and nothing touches it afterwards. -/
  destroys : log.count .destroy ≤ 1
  ended : .destroy ∈ log → ∀ e, s.step e = none
  /-- No invariant is reported. -/
  reports : log.countP (·.reports) = 0
  /-- Whether its completion comes or not, an accepted operation publishes its terminal. -/
  published : s.posted = true → (∀ e, (∀ status, e ≠ .complete status) → s.step e = none) →
    log.countP (·.publishes) = 1
  /-- Once nothing is left to happen, everything was done once. -/
  finished : (∀ e, s.step e = none) → log.count .destroy = 1 ∧
    if s.posted then
      log.countP (·.publishes) = 1 ∧ log.countP (·.retires) = 1 ∧ log.count .releaseTransferredIo = 1
    else log.count .abortUnposted = 1

theorem Machine.Books.exactlyOnce {s : Machine} {log : List AdapterCall} (h : s.Books log) :
    ExactlyOnce s log where
  publishes := by
    have hp := h.called.published
    cases hposted : s.posted with
    | true => exact (Nat.le_add_right _ _).trans (hp.le.trans (Bool.toNat_le _))
    | false =>
      rw [(h.inv.unposted hposted).2.2.2] at hp
      exact (Nat.le_add_right _ _).trans hp.le
  retires := by
    rw [h.called.retired]
    cases hc : s.owner.completionSeen with
    | true => exact Bool.toNat_le _
    | false => rw [h.inv.idle.mpr hc]; exact le_rfl
  releases := by
    rw [h.called.released]
    cases hc : s.owner.completionSeen with
    | true => exact Bool.toNat_le _
    | false => rw [h.inv.idle.mpr hc]; exact le_rfl
  aborts := by
    rw [h.called.aborted]
    unfold aborted
    by_cases hf : s.owner.postState = .failed
    · rw [h.inv.failed hf]
      exact Bool.toNat_le _
    · simp [hf]
  unposted := fun hp => h.inv.idle.mp (h.inv.unposted hp).1
  destroys := by
    rw [h.called.destroyed]
    exact Bool.toNat_le _
  ended := fun hd => h.stopped_of_destroyed <| by
    have hpos := List.count_pos_iff.mpr hd
    rw [h.called.destroyed] at hpos
    cases hs : s.destroyed with
    | true => rfl
    | false => rw [hs] at hpos; cases hpos
  reports := h.called.reported
  published := fun hp hstop => h.published_of_atRest (atRest_of_stopped hstop) hp
  finished := fun hstop => by
    have hr := atRest_of_stopped fun e _ => hstop e
    have hc : s.posted = true → s.completion = .done := fun hp =>
      hr.completion.resolve_left fun h0 => by simpa [Machine.step, hp, h0] using hstop (.complete none)
    refine ⟨by rw [h.called.destroyed, h.destroyed_of_atRest hr hc]; rfl, ?_⟩
    cases hp : s.posted with
    | true =>
      refine ⟨h.published_of_atRest hr hp, ?_, ?_⟩
      · rw [h.called.retired, hc hp]; rfl
      · rw [h.called.released, hc hp]; rfl
    | false =>
      have hfail := h.timing.unposted (by rw [hr.submit]; rfl) hp
      simp [h.called.aborted, aborted, hfail, hr.submit]

/-- **The operation owner acts exactly once.** Over every interleaving of the post
result, the completion and the deadline timer: each run is over after at most 22
steps, in every state it passes the calls made so far are at most what one
operation needs, and in the state where it stops they are exactly that. -/
theorem owner_exactly_once (es : List OpEvent) (s : Machine) (log : List AdapterCall)
    (h : ownerSystem.exec ({}, []) es = some (s, log)) : es.length ≤ 22 ∧ ExactlyOnce s log := by
  constructor
  · have hstep : ∀ x e y, ownerSystem.step x e = some y → true.toNat + y.1.rank ≤ x.1.rank := by
      intro x e y hs
      obtain ⟨⟨c, t⟩, ht, rfl⟩ := Option.map_eq_some_iff.mp hs
      have := Machine.rank_step ht
      simp only [Bool.toNat_true]
      omega
    have hbound := System.countP_le_of_exec (p := fun _ => true) hstep h
    rw [List.countP_true] at hbound
    exact (Nat.le_add_right _ _).trans hbound
  · exact (books_reachable (System.reachable_of_exec (.init rfl) h)).exactlyOnce

/-- A completion that overtakes the end of the post: the timer is never armed, and
the posting thread, the last to finish, destroys the owner. -/
theorem overtaking_completion_exactly_once :
    ExactlyOnce { owner := { submitClaim := false, completionClaim := false, deadlineClaim := false,
                             postState := .succeeded, deadlineState := .cancelled, completionSeen := true,
                             destroying := true, terminal := .completion },
                  submit := .done, completion := .done, posted := true, destroyed := true }
      [.destroy, .releaseTransferredIo, .publishTerminal .completion none, .retirePosted none false] :=
  (owner_exactly_once [.post true, .complete none, .completion, .completion, .completion,
    .completion, .submit, .submit, .submit] _ _ (by decide)).2

end Rdma
end Infiniswap
