/-
# The claims on an operation owner

Each claim on the owner is a token that is in one place at a time: the
deadline's starts with the posting thread, goes to the timer when it is armed,
and from there to whoever cancelled the timer or to the handler it fired.
`Claims` says where each token is, as equations between the owner's fields and
the places of the handlers. The owner is destroyed by the handler that gives up
the last of them, and by no other.
-/
import Infiniswap.Rdma.OwnerMoves

namespace Infiniswap
namespace Rdma

/-! ### Where the claims are -/

variable {o : Owner} {timer : Timer}

/-- The posting thread's handler has begun its event and not finished it. -/
def SubmitPc.inside : SubmitPc → ℕ
  | .arm | .armed | .cancel | .cancelled | .abort | .report _ _ _ _ | .finish _ _ _ => 1
  | _ => 0

/-- The posting thread's handler has finished its event. -/
def SubmitPc.over : SubmitPc → Bool
  | .destroy | .done => true
  | _ => false

/-- The posting thread is the one to give up the deadline's claim: before it arms
the timer, after it cancelled it, and when there is no timer to arm. -/
def SubmitPc.holdsDeadline : SubmitPc → ℕ
  | .post | .enterSucceeded | .enterFailed | .arm | .cancelled | .abort | .finish _ _ true => 1
  | _ => 0

def CompletionPc.inside : CompletionPc → ℕ
  | .idle | .destroy | .done => 0
  | _ => 1

def CompletionPc.over : CompletionPc → Bool
  | .destroy | .done => true
  | _ => false

/-- The completion handler cancelled the timer and has yet to give up the deadline's claim. -/
def CompletionPc.holdsDeadline : CompletionPc → ℕ
  | .cancelled _ _ _ | .retire _ _ _ true | .publish _ true | .release true | .finish _ true => 1
  | _ => 0

/-- The completion handler has retired the posted work request. -/
def CompletionPc.retired : CompletionPc → Bool
  | .publish _ _ | .release _ | .finish true _ | .destroy | .done => true
  | _ => false

def DeadlinePc.inside : DeadlinePc → ℕ
  | .report | .publish | .finish _ => 1
  | _ => 0

/-- The deadline handler fired and has yet to give up the deadline's claim. -/
def DeadlinePc.holdsDeadline : DeadlinePc → ℕ
  | .enter | .publish | .finish _ => 1
  | _ => 0

theorem SubmitPc.done_of_over {pc : SubmitPc} (h : pc.over = true) (hne : pc ≠ .destroy) :
    pc = .done := by
  cases pc <;> simp_all [SubmitPc.over]

theorem CompletionPc.done_of_over {pc : CompletionPc} (h : pc.over = true) (hne : pc ≠ .destroy) :
    pc = .done := by
  cases pc <;> simp_all [CompletionPc.over]

theorem DeadlinePc.resting {pc : DeadlinePc} (h : pc.holdsDeadline = 0) (hr : pc.reporting = false)
    (hne : pc ≠ .destroy) : pc = .idle ∨ pc = .done := by
  cases pc <;> simp_all [holdsDeadline, reporting]

/-- The timer holds the deadline's claim. -/
def Timer.tick (timer : Timer) : ℕ := (decide (timer = .pending)).toNat

namespace Machine

variable {s t : Machine}

/-- The handlers that have begun an event and not finished it. -/
def inside (s : Machine) : ℕ := s.submit.inside + s.completion.inside + s.deadline.inside

/-- The places the deadline's claim is in. -/
def deadlineHolders (s : Machine) : ℕ :=
  s.submit.holdsDeadline + s.completion.holdsDeadline + s.timer.tick + s.deadline.holdsDeadline

/-- The completion's claim was given up, by the completion handler or by the abort of a refused post. -/
def completionGiven (s : Machine) : Bool :=
  s.completion.over || (decide (s.owner.postState = .failed) && s.submit.over)

/-- The handlers that destroy the owner, or did. -/
def destroyers (s : Machine) : ℕ :=
  (decide (s.submit = .destroy)).toNat + (decide (s.completion = .destroy)).toNat +
    (decide (s.deadline = .destroy)).toNat + s.destroyed.toNat

/-- **The laws of the claims.** Where each claim is and how many events are open,
as equations between the owner and the places of its handlers. -/
structure Claims (s : Machine) : Prop where
  events : s.owner.activeEvents = s.inside
  submit : s.owner.submitClaim = !s.submit.over
  completion : s.owner.completionClaim = !s.completionGiven
  deadline : s.owner.deadlineClaim.toNat = s.deadlineHolders
  destroying : s.owner.destroying.toNat = s.destroyers
  given : s.owner.destroying = true →
    s.owner.submitClaim = false ∧ s.owner.completionClaim = false ∧ s.owner.deadlineClaim = false
  awake : s.owner.destroying = false → s.owner.activeEvents ≠ 0 ∨ s.owner.submitClaim = true ∨
    s.owner.completionClaim = true ∨ s.owner.deadlineClaim = true

/-- The owner's claims are as before and `k` events were begun. -/
structure SameClaims (o o' : Owner) (k : ℕ) : Prop where
  events : o'.activeEvents = o.activeEvents + k
  submit : o'.submitClaim = o.submitClaim
  completion : o'.completionClaim = o.completionClaim
  deadline : o'.deadlineClaim = o.deadlineClaim
  destroying : o'.destroying = o.destroying

section

variable (h : s.Claims)

include h

/-- A move that gives up no claim, with `k` events begun in it. -/
theorem Claims.move (k : ℕ) (ho : SameClaims s.owner t.owner k) (hin : t.inside = s.inside + k)
    (hover : t.submit.over = s.submit.over) (hgiven : t.completionGiven = s.completionGiven)
    (hhold : t.deadlineHolders = s.deadlineHolders) (hders : t.destroyers = s.destroyers) :
    t.Claims where
  events := by rw [ho.events, hin, h.events]
  submit := by rw [ho.submit, hover, h.submit]
  completion := by rw [ho.completion, hgiven, h.completion]
  deadline := by rw [ho.deadline, hhold, h.deadline]
  destroying := by rw [ho.destroying, hders, h.destroying]
  given := by
    rw [ho.destroying, ho.submit, ho.completion, ho.deadline]
    exact h.given
  awake := by
    rw [ho.destroying, ho.submit, ho.completion, ho.deadline, ho.events]
    exact fun hd => (h.awake hd).imp_left fun h0 => by omega

/-- A move that finishes an event and gives up the claims it names. -/
theorem Claims.finish {a b c d : Bool} (hd : s.owner.finishEvent a b c = (d, o)) (ho : t.owner = o)
    (hin : t.inside + 1 = s.inside) (hover : t.submit.over = (s.submit.over || a))
    (hgiven : t.completionGiven = (s.completionGiven || b))
    (hhold : t.deadlineHolders + c.toNat = s.deadlineHolders)
    (hders : t.destroyers = s.destroyers + d.toNat) : t.Claims := by
  obtain ⟨d', heq, hiff⟩ := finishEvent_cases s.owner a b c
  rw [hd] at heq
  obtain ⟨rfl, rfl⟩ := Prod.mk.inj heq
  have hdl := h.deadline
  have hds := h.destroying
  constructor <;> rw [ho]
  case events => have := h.events; simp only; omega
  case submit => simp only [h.submit, hover, Bool.not_or]
  case completion => simp only [h.completion, hgiven, Bool.not_or]
  case deadline =>
    cases hcl : s.owner.deadlineClaim <;> cases c <;>
      simp only [hcl, Bool.toNat_true, Bool.toNat_false, Bool.not_true, Bool.not_false, Bool.and_self,
        Bool.and_false, Bool.and_true] at hdl hhold ⊢ <;> omega
  case destroying =>
    cases hdes : s.owner.destroying <;> cases d <;> simp_all
  case given =>
    intro h0
    cases d with
    | true => exact ⟨(hiff.mp rfl).2.1, (hiff.mp rfl).2.2.1, (hiff.mp rfl).2.2.2.1⟩
    | false =>
      obtain ⟨h1, h2, h3⟩ := h.given (by simpa using h0)
      simp [h1, h2, h3]
  case awake =>
    intro h0
    obtain ⟨h1, rfl⟩ := Bool.or_eq_false_iff.mp h0
    by_contra hno
    simp only [not_or, not_not, Bool.not_eq_true] at hno
    cases hiff.mpr ⟨hno.1, hno.2.1, hno.2.2.1, hno.2.2.2, h1⟩

theorem Claims.submitMove {pc₀ pc : SubmitPc} {posted : Bool} (k : ℕ) (hp : s.submit = pc₀)
    (ho : SameClaims s.owner o k) (hin : pc.inside = pc₀.inside + k) (hover₀ : pc₀.over = false)
    (hover : pc.over = false)
    (hhold : pc.holdsDeadline + timer.tick = pc₀.holdsDeadline + s.timer.tick) :
    ({ s with submit := pc, owner := o, timer := timer, posted := posted } : Machine).Claims := by
  subst hp
  have hne : pc ≠ .destroy := by rintro rfl; cases hover
  have hne₀ : s.submit ≠ .destroy := fun h0 => by rw [h0] at hover₀; cases hover₀
  refine h.move k ho ?_ (hover.trans hover₀.symm) ?_ ?_ ?_
  · simp only [inside, hin]
    omega
  · simp [completionGiven, hover, hover₀]
  · simp only [deadlineHolders]
    omega
  · simp [destroyers, hne, hne₀]

theorem Claims.completionMove {pc₀ pc : CompletionPc} (k : ℕ) (hp : s.completion = pc₀)
    (ho : SameClaims s.owner o k) (hpost : o.postState = s.owner.postState)
    (hin : pc.inside = pc₀.inside + k) (hover₀ : pc₀.over = false) (hover : pc.over = false)
    (hhold : pc.holdsDeadline + timer.tick = pc₀.holdsDeadline + s.timer.tick) :
    ({ s with completion := pc, owner := o, timer := timer } : Machine).Claims := by
  subst hp
  have hne : pc ≠ .destroy := by rintro rfl; cases hover
  have hne₀ : s.completion ≠ .destroy := fun h0 => by rw [h0] at hover₀; cases hover₀
  refine h.move k ho ?_ rfl ?_ ?_ ?_
  · simp only [inside, hin]
    omega
  · simp [completionGiven, hover, hover₀, hpost]
  · simp only [deadlineHolders]
    omega
  · simp [destroyers, hne, hne₀]

theorem Claims.deadlineMove {pc₀ pc : DeadlinePc} (k : ℕ) (hp : s.deadline = pc₀)
    (ho : SameClaims s.owner o k) (hpost : o.postState = s.owner.postState)
    (hin : pc.inside = pc₀.inside + k) (hne : pc ≠ .destroy) (hne₀ : pc₀ ≠ .destroy)
    (hhold : pc.holdsDeadline + timer.tick = pc₀.holdsDeadline + s.timer.tick) :
    ({ s with deadline := pc, owner := o, timer := timer } : Machine).Claims := by
  subst hp
  refine h.move k ho ?_ rfl ?_ ?_ ?_
  · simp only [inside, hin]
    omega
  · simp [completionGiven, hpost]
  · simp only [deadlineHolders]
    omega
  · simp [destroyers, hne, hne₀]

/-- A handler about to destroy the owner is the only one, and the first. -/
theorem Claims.undestroyed
    (hd : s.submit = .destroy ∨ s.completion = .destroy ∨ s.deadline = .destroy) :
    s.destroyed = false := by
  have hle := h.destroying ▸ Bool.toNat_le s.owner.destroying
  unfold destroyers at hle
  cases hs : s.destroyed with
  | false => rfl
  | true => rcases hd with hd | hd | hd <;> simp [hd, hs] at hle

end

/-- **Every step keeps the laws of the claims.** -/
theorem claims_moves {c : Option AdapterCall} (hi : s.Inv) (ht : s.Timing) (h : s.Claims)
    (hm : s.Moves c t) : t.Claims := by
  cases hm with
  | post hp a => cases a <;> exact h.submitMove 0 hp ⟨rfl, rfl, rfl, rfl, rfl⟩ rfl rfl rfl rfl
  | overtaken hp | arms hp | refuses hp =>
    exact h.submitMove 1 hp ⟨rfl, rfl, rfl, rfl, rfl⟩ rfl rfl rfl rfl
  | arm hp =>
    exact h.submitMove 0 hp ⟨rfl, rfl, rfl, rfl, rfl⟩ rfl rfl rfl (by rw [hi.unarmed (.inr hp)]; rfl)
  | armed hp | cancels hp | submitLate hp | submitCancelled hp | abort hp =>
    exact h.submitMove 0 hp ⟨rfl, rfl, rfl, rfl, rfl⟩ rfl rfl rfl rfl
  | submitCancel hp ht => exact h.submitMove 0 hp ⟨rfl, rfl, rfl, rfl, rfl⟩ rfl rfl rfl (by rw [ht]; rfl)
  | submitDestroy hp =>
    refine h.move 0 ⟨rfl, rfl, rfl, rfl, rfl⟩ ?_ ?_ ?_ ?_ ?_ <;>
      simp [inside, completionGiven, deadlineHolders, destroyers, hp, SubmitPc.inside, SubmitPc.over,
        SubmitPc.holdsDeadline, h.undestroyed (.inl hp)]
    omega
  | submitFinish b d hp =>
    obtain ⟨e, he, -⟩ := finishEvent_cases s.owner true b d
    have hb : decide (s.owner.postState = .failed) = b := by
      rw [ht.post_eq (by rw [hp]; rfl), (ht.finishes _ _ _ hp).2]
      cases s.posted <;> rfl
    rw [he]
    refine h.finish he rfl ?_ ?_ ?_ ?_ ?_ <;> cases e <;> cases d <;>
      simp [inside, completionGiven, deadlineHolders, destroyers, hp, hb, SubmitPc.inside, SubmitPc.over,
        SubmitPc.holdsDeadline] <;> omega
  | complete status hp hc pc hpc =>
    rcases hpc with rfl | rfl <;>
      exact h.completionMove 1 hc ⟨rfl, rfl, rfl, rfl, rfl⟩ rfl rfl rfl rfl rfl
  | completionCancel status p l hc ht =>
    exact h.completionMove 0 hc ⟨rfl, rfl, rfl, rfl, rfl⟩ rfl rfl rfl rfl (by rw [ht]; rfl)
  | completionLate status p l hc | completionCancelled status p l hc =>
    exact h.completionMove 0 hc ⟨rfl, rfl, rfl, rfl, rfl⟩ rfl rfl rfl rfl rfl
  | retire status p l d hc =>
    cases p <;> cases d <;> exact h.completionMove 0 hc ⟨rfl, rfl, rfl, rfl, rfl⟩ rfl rfl rfl rfl rfl
  | publish status d hc | release d hc =>
    cases d <;> exact h.completionMove 0 hc ⟨rfl, rfl, rfl, rfl, rfl⟩ rfl rfl rfl rfl rfl
  | completionFinish d hc =>
    obtain ⟨e, he, -⟩ := finishEvent_cases s.owner false true d
    rw [he]
    refine h.finish he rfl ?_ ?_ ?_ ?_ ?_ <;> cases e <;> cases d
      <;> simp [inside, completionGiven, deadlineHolders, destroyers, hc, CompletionPc.inside,
      CompletionPc.over, CompletionPc.holdsDeadline] <;> omega
  | completionDestroy hc =>
    refine h.move 0 ⟨rfl, rfl, rfl, rfl, rfl⟩ ?_ ?_ ?_ ?_ ?_
      <;> simp [inside, completionGiven, deadlineHolders, destroyers, hc, CompletionPc.inside,
      CompletionPc.over, CompletionPc.holdsDeadline, h.undestroyed (.inr (.inl hc))]
    omega
  | expire ht =>
    exact h.deadlineMove 0 (hi.unfired (by simp [ht])) ⟨rfl, rfl, rfl, rfl, rfl⟩ rfl rfl nofun nofun
      (by rw [ht]; rfl)
  | decides hd | tooLate hd => exact h.deadlineMove 1 hd ⟨rfl, rfl, rfl, rfl, rfl⟩ rfl rfl nofun nofun rfl
  | deadlinePublish hd => exact h.deadlineMove 0 hd ⟨rfl, rfl, rfl, rfl, rfl⟩ rfl rfl nofun nofun rfl
  | deadlineFinish hd =>
    obtain ⟨e, he, -⟩ := finishEvent_cases s.owner false false true
    rw [he]
    refine h.finish he rfl ?_ ?_ ?_ ?_ ?_ <;> cases e <;>
      simp [inside, completionGiven, deadlineHolders, destroyers, hd, DeadlinePc.inside,
        DeadlinePc.holdsDeadline]
    omega
  | deadlineDestroy hd =>
    refine h.move 0 ⟨rfl, rfl, rfl, rfl, rfl⟩ ?_ ?_ ?_ ?_ ?_ <;>
      simp [inside, completionGiven, deadlineHolders, destroyers, hd, DeadlinePc.inside,
        DeadlinePc.holdsDeadline, h.undestroyed (.inr (.inr hd))]

end Machine
end Rdma
end Infiniswap
