/-
# Every step of an operation keeps its laws

A step moves one of the three handlers, and four steps change the timer: it is
armed, cancelled by the posting thread or by the completion handler, or it
fires. What such a move has to respect is stated once for each handler; the
first and last sections, which decide and give up claims, have a lemma each, and
`laws_moves` puts them together.
-/
import Infiniswap.Rdma.OwnerInvariant

namespace Infiniswap
namespace Rdma

variable {pc : SubmitPc} {o : Owner} {destroyed : Bool}

/-- The place is one after the first section of a post with the given result. -/
def SubmitPc.Fits (posted : Bool) : SubmitPc → Prop
  | .arm | .armed | .cancel | .cancelled => posted = true
  | .abort => posted = false
  | .finish a b _ => a = true ∧ b = !posted
  | .destroy | .done => True
  | _ => False

theorem SubmitPc.Fits.spec {posted : Bool} (h : pc.Fits posted) :
    pc.fresh = false ∧ (pc.accepted = true → posted = true) ∧ (pc.refused = true → posted = false) ∧
      (pc.aborting = true → posted = false) ∧ (∀ e a b c, pc ≠ .report e a b c) ∧
      ∀ a b c, pc = .finish a b c → a = true ∧ b = !posted := by
  cases pc with
  | finish a b c => cases b <;> cases posted <;> simp_all [Fits, fresh, accepted, refused, aborting]
  | _ => simp_all [Fits, fresh, accepted, refused, aborting]

/-- The owner's decisions, which only first sections change. -/
structure Owner.SameDecisions (o o' : Owner) : Prop where
  seen : o'.completionSeen = o.completionSeen
  deadlineSeen : o'.deadlineSeen = o.deadlineSeen
  reported : o'.invariantReported = o.invariantReported
  terminal : o'.terminal = o.terminal

namespace Machine

variable {s t : Machine}

/-- Finishing an event gives up the claims it names, and destroys when nothing is left to wait for. -/
theorem finishEvent_cases (o : Owner) (a b c : Bool) : ∃ d : Bool,
    o.finishEvent a b c = (d, { o with
      submitClaim := o.submitClaim && !a
      completionClaim := o.completionClaim && !b
      deadlineClaim := o.deadlineClaim && !c
      activeEvents := o.activeEvents - 1
      destroying := o.destroying || d }) ∧
    (d = true ↔ o.activeEvents - 1 = 0 ∧ (o.submitClaim && !a) = false ∧
      (o.completionClaim && !b) = false ∧
      (o.deadlineClaim && !c) = false ∧ o.destroying = false) := by
  unfold Owner.finishEvent
  dsimp only
  split
  · rename_i h
    exact ⟨true, by simp, by simpa only [Bool.not_eq_true', true_iff] using h⟩
  · rename_i h
    exact ⟨false, by simp, by simpa only [Bool.not_eq_true', Bool.false_eq_true, false_iff] using h⟩

theorem Timing.post_eq (h : s.Timing) (hf : s.submit.fresh = false) :
    s.owner.postState = if s.posted then .succeeded else .failed := by
  cases hp : s.posted
  · exact h.unposted hf hp
  · exact h.posted hf hp

theorem Timing.armed_at (h : s.Timing) (hp : s.submit = pc) (hf : pc.fresh = false) (hne : pc ≠ .arm)
    (hc : s.completion = .idle) (hposted : s.posted = true) :
    s.timer = .pending ∨ s.timer = .fired :=
  h.armed hc hposted (hp ▸ hf) (hp ▸ hne)

/-- Places of the completion handler other than its first are those of an accepted work request
whose terminal is decided. -/
theorem Inv.completing (h : s.Inv) (hc : s.completion ≠ .idle) :
    s.posted = true ∧ s.owner.postState ≠ .failed ∧
    s.owner.completionSeen = true ∧ s.owner.terminal ≠ .none := by
  have hp : s.posted = true := by
    by_contra hno
    exact hc (h.unposted (by simpa using hno)).1
  refine ⟨hp, fun hf => ?_, ?_, fun ht => hc (h.terminal ht)⟩
  · rw [h.failed hf] at hp
    cases hp
  · by_contra hno
    exact hc (h.idle.mpr (by simpa using hno))

/-! ### A handler moves on -/

section

variable (h : s.Laws) (hpc : pc.Fits s.posted) (hsame : s.owner.SameDecisions o)
  (hpost : o.postState = if s.posted then .succeeded else .failed)
  (habort : pc = .abort → s.owner.postState ≠ .failed)
  (harm : pc = .arm → s.timer = .idle ∧ o.deadlineState ≠ .cancelled)
  (hcancel : pc = .cancel → s.completion ≠ .idle) (hcancelled : pc ≠ .cancelled)
  (hstate : o.deadlineState = .cancelled → s.timer = .idle ∨ s.timer = .cancelled)
  (harmed : s.completion = .idle → s.posted = true → pc ≠ .arm → s.timer = .pending ∨
    s.timer = .fired)

include h hpc hsame hpost habort harm hcancel hcancelled hstate harmed

/-- **The posting thread moves on** without touching the timer. -/
theorem Laws.submitMove
    (hclaim : o.completionClaim = false → s.owner.completionClaim = false ∨ s.posted = false ∧
      pc ≠ .abort) (hkept : s.owner.completionClaim = false → o.completionClaim = false)
    (hdestroy : pc = .destroy ∨ destroyed = true → o.completionClaim = false) :
    ({ s with submit := pc, owner := o, destroyed := destroyed } : Machine).Laws := by
  obtain ⟨hi, ht⟩ := h
  obtain ⟨hfresh, haccepted, hrefused, haborting, hreport, hfinish⟩ := hpc.spec
  have hfailed (hp : s.posted = false) : o.postState = .failed := by rw [hpost, hp]; rfl
  refine ⟨
    { hi with
      fresh := fun hf => by simp [hfresh] at hf
      accepted := haccepted
      refused := hrefused
      aborting := fun ha => hfailed (haborting ha)
      report := hreport
      failed := fun hf => ?_
      unposted := fun hu => by rw [hsame.terminal]; exact hi.unposted hu
      unarmed := fun ha => ?_
      idle := by rw [hsame.seen]; exact hi.idle
      terminal := fun h0 => hi.terminal (hsame.terminal ▸ h0)
      publishes := fun hp => hsame.terminal.trans (hi.publishes hp)
      deadline := fun hd => hsame.terminal.trans (hi.deadline hd)
      claim := fun hc => ?_
      destroy := fun hd => ?_ },
    { ht with
      finishes := hfinish
      entered := hsame.deadlineSeen.trans ht.entered
      quiet := hsame.reported.trans ht.quiet
      posted := fun _ hp => by rw [hpost, if_pos (show s.posted = true from hp)]
      unposted := fun _ hp => hfailed hp
      arming := fun ha => (harm ha).2
      cancelling := hcancel
      submitCancelled := fun h0 => absurd h0 hcancelled
      cancelled := hstate
      armed := fun hc hp _ hne => harmed hc hp hne
      decided := fun hd => by rw [hsame.terminal]; exact ht.decided (hsame.deadlineSeen ▸ hd) }⟩
  · show s.posted = false
    by_contra hp
    rw [hpost, if_pos (by simpa using hp)] at hf
    cases hf
  · rcases ha with ha | ha
    · simp [hfresh] at ha
    · exact (harm ha).1
  · rcases hclaim hc with hc | ⟨hp, hne⟩
    · exact (hi.claim hc).imp id fun hf => ⟨hfailed (hi.failed hf.1), fun he => habort he hf.1⟩
    · exact .inr ⟨hfailed hp, hne⟩
  · rcases hd with hd | hd | hd | hd
    · exact hdestroy (.inl hd)
    · exact hkept (hi.destroy (.inr (.inl hd)))
    · exact hkept (hi.destroy (.inr (.inr (.inl hd))))
    · exact hdestroy (.inr hd)

theorem Laws.submitOn (hclaim : o.completionClaim = s.owner.completionClaim)
    (hdestroy : pc ≠ .destroy) : ({ s with submit := pc, owner := o } : Machine).Laws :=
  h.submitMove hpc hsame hpost habort harm hcancel hcancelled hstate harmed
    (fun hc => .inl (hclaim ▸ hc)) (fun hc => hclaim.trans hc)
    (fun hd => hclaim.trans (h.inv.destroy (.inr (.inr (.inr (hd.resolve_left hdestroy))))))

end

variable {status : Option Errno} {state : DeadlineState}

theorem Laws.submitLast (h : s.Laws) {b c : Bool} (hf : s.submit.fresh = false) (hb : b = !s.posted)
    (hstate : state = .cancelled → s.timer = .idle ∨ s.timer = .cancelled)
    (harmed : s.completion = .idle → s.posted = true → s.timer = .pending ∨ s.timer = .fired) :
    ({ s with submit := .finish true b c, owner := { s.owner with deadlineState := state } } :
      Machine).Laws :=
  h.submitOn ⟨rfl, hb⟩ ⟨rfl, rfl, rfl, rfl⟩ (h.timing.post_eq hf) nofun nofun nofun nofun hstate
    (fun h0 h1 _ => harmed h0 h1) rfl nofun

/-- **The completion handler moves on** without touching the timer. -/
theorem Laws.completionMove (h : s.Laws) {pc : CompletionPc} (hs : s.completion ≠ .idle)
    (hpc : pc ≠ .idle) (hreporting : pc.reporting = false)
    (hcancelled : ∀ a b c, pc ≠ .cancelled a b c)
    (hpublishes : pc.publishes = true → s.completion.publishes = true)
    (hsame : s.owner.SameDecisions o) (hpost : o.postState = s.owner.postState)
    (hclaim : o.completionClaim = false → pc.released = true)
    (hkept : s.owner.completionClaim = false → o.completionClaim = false)
    (hdestroy : pc = .destroy ∨ destroyed = true → o.completionClaim = false)
    (hstate : o.deadlineState = s.owner.deadlineState ∨ s.timer = .cancelled) :
    ({ s with completion := pc, owner := o, destroyed := destroyed } : Machine).Laws := by
  obtain ⟨hi, ht⟩ := h
  obtain ⟨hposted, -, hseen, hterm⟩ := hi.completing hs
  refine ⟨
    { hi with
      fresh := fun hf => hpost.trans (hi.fresh hf)
      aborting := fun ha => hpost.trans (hi.aborting ha)
      failed := fun hf => hi.failed (hpost ▸ hf)
      unposted := fun hu => by rw [show s.posted = false from hu] at hposted; cases hposted
      idle := by rw [hsame.seen, hseen]; simp [hpc]
      terminal := fun h0 => absurd (hsame.terminal ▸ h0) hterm
      publishes := fun hp => hsame.terminal.trans (hi.publishes (hpublishes hp))
      deadline := fun hd => hsame.terminal.trans (hi.deadline hd)
      reporting := hreporting
      claim := fun hc => .inl (hclaim hc)
      destroy := fun hd => ?_ },
    { ht with
      entered := hsame.deadlineSeen.trans ht.entered
      quiet := hsame.reported.trans ht.quiet
      posted := fun hf hp => hpost.trans (ht.posted hf hp)
      unposted := fun hf hp => hpost.trans (ht.unposted hf hp)
      arming := fun ha => ?_
      cancelling := fun _ => hpc
      completionCancelled := fun a b c h0 => absurd h0 (hcancelled a b c)
      cancelled := fun h0 => hstate.elim (fun hst => ht.cancelled (hst ▸ h0)) .inr
      armed := fun h0 => absurd h0 hpc
      decided := fun _ => by rw [hsame.terminal]; exact hterm }⟩
  · rcases hd with hd | hd | hd | hd
    · exact hkept (hi.destroy (.inl hd))
    · exact hdestroy (.inl hd)
    · exact hkept (hi.destroy (.inr (.inr (.inl hd))))
    · exact hdestroy (.inr hd)
  · rcases hstate with h0 | h0
    · exact h0 ▸ ht.arming ha
    · rw [hi.unarmed (.inr ha)] at h0
      cases h0

theorem Laws.completionOn (h : s.Laws) {pc : CompletionPc}
    (hs : s.completion ≠ .idle ∧ s.completion.released = false) (hpc : pc ≠ .idle)
    (hreporting : pc.reporting = false) (hcancelled : ∀ a b c, pc ≠ .cancelled a b c)
    (hdestroy : pc ≠ .destroy) (hpublishes : pc.publishes = true → s.completion.publishes = true)
    (hstate : state = s.owner.deadlineState ∨ s.timer = .cancelled) :
    ({ s with completion := pc, owner := { s.owner with deadlineState := state } } : Machine).Laws := by
  refine h.completionMove hs.1 hpc hreporting hcancelled hpublishes
    ⟨rfl, rfl, rfl, rfl⟩ rfl (fun hc => ?_) id
    (fun hd => h.inv.destroy (.inr (.inr (.inr (hd.resolve_left hdestroy))))) hstate
  rcases h.inv.claim hc with hr | hf
  · rw [hs.2] at hr
    cases hr
  · exact absurd hf.1 (h.inv.completing hs.1).2.1

/-- **The deadline handler moves on** once the timer has fired, and publishes no more. -/
theorem Laws.deadlineMove (h : s.Laws) {pc : DeadlinePc} (hs : s.deadline ≠ .idle)
    (hpc : pc ≠ .idle ∧ pc ≠ .publish) (hreporting : pc.reporting = false)
    (hentered : o.deadlineSeen = pc.entered) (hseen : o.completionSeen = s.owner.completionSeen)
    (hreported : o.invariantReported = s.owner.invariantReported)
    (hterm : o.terminal = s.owner.terminal) (hdecided : s.owner.terminal ≠ .none)
    (hpost : o.postState = s.owner.postState) (hclaim : o.completionClaim = s.owner.completionClaim)
    (hdestroy : pc = .destroy ∨ destroyed = true → s.owner.completionClaim = false)
    (hstate : o.deadlineState = s.owner.deadlineState ∨ o.deadlineState = .fired) :
    ({ s with deadline := pc, owner := o, destroyed := destroyed } : Machine).Laws := by
  obtain ⟨hi, ht⟩ := h
  have hfired : s.timer = .fired := by
    by_contra hne
    exact hs (hi.unfired hne)
  refine ⟨
    { hi with
      fresh := fun hf => hpost.trans (hi.fresh hf)
      aborting := fun ha => hpost.trans (hi.aborting ha)
      failed := fun hf => hi.failed (hpost ▸ hf)
      unposted := fun hu => absurd (hi.unposted hu).2.1 hs
      unfired := fun hne => absurd hfired hne
      idle := by rw [hseen]; exact hi.idle
      terminal := fun h0 => hi.terminal (hterm ▸ h0)
      publishes := fun hp => hterm.trans (hi.publishes hp)
      deadline := fun hd => absurd hd hpc.2
      claim := fun hc => by rw [hpost]; exact hi.claim (hclaim ▸ hc)
      destroy := fun hd => hclaim.trans ?_ },
    { ht with
      entered := hentered
      reporting := hreporting
      quiet := hreported.trans ht.quiet
      posted := fun hf hp => hpost.trans (ht.posted hf hp)
      unposted := fun hf hp => hpost.trans (ht.unposted hf hp)
      arming := fun ha => hstate.elim (fun h0 => h0 ▸ ht.arming ha) fun h0 => by rw [h0]; nofun
      cancelled := fun h0 => hstate.elim (fun hst => ht.cancelled (hst ▸ h0)) fun hst => by
        rw [hst] at h0; cases h0
      fired := fun _ => hpc.1
      decided := fun _ => by rw [hterm]; exact hdecided }⟩
  rcases hd with hd | hd | hd
  · exact hi.destroy (.inl hd)
  · exact hi.destroy (.inr (.inl hd))
  · exact hdestroy hd

/-- The posting thread of an accepted operation arms or cancels the timer, which has not fired. -/
theorem Inv.submitTimer (h : s.Inv) {timer : Timer} (hpc : pc = .armed ∨ pc = .cancelled)
    (hs : s.submit.accepted = true) (htimer : s.timer ≠ .fired) :
    ({ s with submit := pc, timer := timer } : Machine).Inv := by
  have hposted := h.accepted hs
  have hsub : s.submit ≠ .destroy := fun hd => by rw [hd] at hs; cases hs
  rcases hpc with rfl | rfl <;> exact
    { h with
      fresh := nofun
      accepted := fun _ => hposted
      refused := nofun
      aborting := nofun
      report := nofun
      unposted := fun hu => by rw [show s.posted = false from hu] at hposted; cases hposted
      unarmed := nofun
      unfired := fun _ => h.unfired htimer
      claim := fun hc => (h.claim hc).imp id fun hf => ⟨hf.1, nofun⟩
      destroy := fun hd => h.destroy (by simpa [hsub] using hd) }

/-! ### First sections, and the timer -/

section

variable (h : s.Laws)

include h

theorem Laws.post (hp : s.submit = .post) (a : Bool) :
    ({ s with posted := a, submit := if a then .enterSucceeded else .enterFailed } :
      Machine).Laws := by
  obtain ⟨hi, ht⟩ := h
  have hun := hi.unposted (hi.refused (by rw [hp]; rfl))
  have hpend := hi.fresh (by rw [hp]; rfl)
  exact ⟨
    { hi with
      fresh := fun _ => hpend
      accepted := by cases a <;> simp [SubmitPc.accepted]
      refused := by cases a <;> simp [SubmitPc.refused]
      aborting := by cases a <;> nofun
      report := by cases a <;> nofun
      failed := fun hf => by rw [hpend] at hf; cases hf
      unposted := fun _ => hun
      unarmed := fun _ => hun.2.2.1
      claim := fun hc => (hi.claim hc).imp id fun hf => by rw [hpend] at hf; cases hf.1
      destroy := fun hd => hi.destroy (by cases a <;> simpa [hp] using hd) },
    { ht with
      finishes := by cases a <;> nofun
      posted := by cases a <;> nofun
      unposted := by cases a <;> nofun
      arming := by cases a <;> nofun
      cancelling := by cases a <;> nofun
      submitCancelled := by cases a <;> nofun
      armed := by cases a <;> nofun }⟩

theorem Laws.arm (hp : s.submit = .arm) :
    ({ s with submit := .armed, timer := .pending } : Machine).Laws := by
  obtain ⟨hi, ht⟩ := h
  have hidle := hi.unarmed (.inr hp)
  refine ⟨hi.submitTimer (.inl rfl) (by rw [hp]; rfl) (by rw [hidle]; nofun),
    { ht with
      finishes := nofun
      posted := fun _ => ht.posted (by rw [hp]; rfl)
      unposted := fun _ => ht.unposted (by rw [hp]; rfl)
      arming := nofun
      cancelling := nofun
      submitCancelled := nofun
      completionCancelled := fun a b c h0 => ?_
      cancelled := fun h0 => absurd h0 (ht.arming hp)
      fired := nofun
      armed := fun _ _ _ _ => .inl rfl }⟩
  have hcancelled := ht.completionCancelled a b c h0
  rw [hidle] at hcancelled
  cases hcancelled

theorem Laws.submitCancel (hp : s.submit = .cancel) (htimer : s.timer = .pending) :
    ({ s with submit := .cancelled, timer := .cancelled } : Machine).Laws := by
  obtain ⟨hi, ht⟩ := h
  exact ⟨hi.submitTimer (.inr rfl) (by rw [hp]; rfl) (by rw [htimer]; nofun),
    { ht with
      finishes := nofun
      posted := fun _ => ht.posted (by rw [hp]; rfl)
      unposted := fun _ => ht.unposted (by rw [hp]; rfl)
      arming := nofun
      cancelling := nofun
      submitCancelled := fun _ => rfl
      completionCancelled := fun _ _ _ _ => rfl
      cancelled := fun _ => .inr rfl
      fired := nofun
      armed := fun h0 => absurd h0 (ht.cancelling hp) }⟩

/-- A completion is seen: it decides the terminal unless the deadline has. -/
theorem Laws.complete (hp : s.posted = true) (hc : s.completion = .idle)
    {pc : CompletionPc}
    (hpc : pc = .cancel status (s.owner.terminal = .none) (s.owner.terminal = .deadline) ∨
      pc = .retire status (s.owner.terminal = .none) (s.owner.terminal = .deadline) false) :
    ({ s with
      completion := pc
      owner := { s.owner.beginEvent with
        completionSeen := true
        terminal := if s.owner.terminal = .none then .completion else s.owner.terminal } } :
      Machine).Laws := by
  obtain ⟨hi, ht⟩ := h
  have hidle : pc ≠ .idle := by rcases hpc with rfl | rfl <;> nofun
  have hterm (h0 : s.owner.terminal ≠ .none) :
      (if s.owner.terminal = .none then .completion else s.owner.terminal) = s.owner.terminal :=
    if_neg h0
  refine ⟨
    { hi with
      unposted := fun hu => by rw [show s.posted = false from hu] at hp; cases hp
      idle := by simp [hidle]
      terminal := fun h0 => ?_
      publishes := fun hpub => if_pos ?_
      deadline := fun hd => (hterm (by rw [hi.deadline hd]; nofun)).trans (hi.deadline hd)
      reporting := by rcases hpc with rfl | rfl <;> rfl
      claim := fun hc' => (hi.claim hc').imp (fun hr => by rw [hc] at hr; cases hr) id
      destroy := fun hd => hi.destroy ?_ },
    { ht with
      cancelling := fun _ => hidle
      completionCancelled := by rcases hpc with rfl | rfl <;> nofun
      armed := fun h0 => absurd h0 hidle
      decided := fun hd => by rw [hterm (ht.decided hd)]; exact ht.decided hd }⟩
  · dsimp only at h0
    split at h0
    · cases h0
    · contradiction
  · rcases hpc with rfl | rfl <;> simpa [CompletionPc.publishes] using hpub
  · rcases hd with hd | hd | hd
    · exact .inl hd
    · rcases hpc with rfl | rfl <;> cases hd
    · exact .inr (.inr hd)

theorem Laws.completionCancel {p l : Bool} (hc : s.completion = .cancel status p l)
    (htimer : s.timer = .pending) :
    ({ s with completion := .cancelled status p l, timer := .cancelled } : Machine).Laws := by
  obtain ⟨hi, ht⟩ := h
  have hs : s.completion ≠ .idle := by rw [hc]; nofun
  have hposted := (hi.completing hs).1
  exact ⟨
    { hi with
      unposted := fun hu => by rw [show s.posted = false from hu] at hposted; cases hposted
      unarmed := fun ha => by rw [hi.unarmed ha] at htimer; cases htimer
      unfired := fun _ => hi.unfired (by rw [htimer]; nofun)
      idle := by rw [← hi.idle, hc]; simp
      terminal := fun h0 => absurd (hi.terminal h0) hs
      publishes := fun hp => hi.publishes (by rw [hc]; exact hp)
      reporting := rfl
      claim := fun h0 => (hi.claim h0).imp (fun hr => by rw [hc] at hr; cases hr) id
      destroy := fun hd => hi.destroy (by simpa [hc] using hd) },
    { ht with
      cancelling := nofun
      submitCancelled := fun _ => rfl
      completionCancelled := fun _ _ _ _ => rfl
      cancelled := fun _ => .inr rfl
      fired := nofun
      armed := nofun }⟩

theorem Laws.expire (htimer : s.timer = .pending) :
    ({ s with timer := .fired, deadline := .enter } : Machine).Laws := by
  obtain ⟨hi, ht⟩ := h
  have hidle : s.deadline = .idle := hi.unfired (by rw [htimer]; nofun)
  exact ⟨
    { hi with
      unposted := fun hu => by rw [(hi.unposted hu).2.2.1] at htimer; cases htimer
      unarmed := fun ha => by rw [hi.unarmed ha] at htimer; cases htimer
      unfired := fun hne => absurd rfl hne
      deadline := nofun
      destroy := fun hd => hi.destroy (by simpa [hidle] using hd) },
    { ht with
      entered := by rw [ht.entered, hidle]; rfl
      reporting := rfl
      submitCancelled := fun h0 => by rw [ht.submitCancelled h0] at htimer; cases htimer
      completionCancelled := fun a b c h0 => by
        rw [ht.completionCancelled a b c h0] at htimer
        cases htimer
      cancelled := fun h0 => by rcases ht.cancelled h0 with h1 | h1 <;> rw [htimer] at h1 <;> cases h1
      fired := nofun
      armed := fun _ _ _ _ => .inr rfl }⟩

/-- The deadline decides the terminal that no completion has. -/
theorem Laws.decide (hd : s.deadline = .enter) (hn : s.owner.terminal = .none) :
    ({ s with
      deadline := .publish
      owner := { s.owner.beginEvent with
        deadlineSeen := true, deadlineState := .fired, terminal := .deadline } } :
      Machine).Laws := by
  obtain ⟨hi, ht⟩ := h
  have hfired : s.timer = .fired := by
    by_contra hne
    rw [hi.unfired hne] at hd
    cases hd
  exact ⟨
    { hi with
      unposted := fun hu => by rw [(hi.unposted hu).2.1] at hd; cases hd
      unfired := fun hne => absurd hfired hne
      terminal := nofun
      publishes := fun hp => by rw [hi.terminal hn] at hp; cases hp
      deadline := fun _ => rfl
      destroy := fun h0 => hi.destroy (by simpa [hd] using h0) },
    { ht with
      entered := rfl
      reporting := rfl
      arming := fun _ => nofun
      cancelled := nofun
      fired := nofun
      decided := nofun }⟩

/-! ### Last sections -/

theorem Laws.submitFinish {b c : Bool} (hp : s.submit = .finish true b c) :
    ({ s with
      submit := if (s.owner.finishEvent true b c).1 then .destroy else .done
      owner := (s.owner.finishEvent true b c).2 } : Machine).Laws := by
  have ht := h.timing
  obtain ⟨e, he, hd⟩ := finishEvent_cases s.owner true b c
  have hb := (ht.finishes _ _ _ hp).2
  rw [he]
  refine h.submitMove (by cases e <;> trivial) ⟨rfl, rfl, rfl, rfl⟩ (ht.post_eq (by rw [hp]; rfl))
    (by cases e <;> nofun) (by cases e <;> nofun) (by cases e <;> nofun) (by cases e <;> nofun)
    ht.cancelled (fun h0 h1 _ => ht.armed_at hp rfl nofun h0 h1)
    (fun hc => ?_) (fun hc => by simp [hc]) (fun h0 => ?_)
  · -- only a failed post gives up the completion claim here
    rcases Bool.and_eq_false_iff.mp hc with hc | hc
    · exact .inl hc
    · exact .inr ⟨by simpa [hb] using hc, by cases e <;> nofun⟩
  · rcases h0 with h0 | h0
    · exact (hd.mp (by cases e <;> [cases h0; rfl])).2.2.1
    · simp [h.inv.destroy (.inr (.inr (.inr h0)))]

theorem Laws.completionFinish {d : Bool} (hc : s.completion = .finish true d) :
    ({ s with
      completion := if (s.owner.finishEvent false true d).1 then .destroy else .done
      owner := (s.owner.finishEvent false true d).2 } : Machine).Laws := by
  obtain ⟨e, he, -⟩ := finishEvent_cases s.owner false true d
  rw [he]
  exact h.completionMove (by rw [hc]; nofun) (by cases e <;> nofun) (by cases e <;> rfl)
    (by cases e <;> nofun) (by cases e <;> nofun) ⟨rfl, rfl, rfl, rfl⟩ rfl
    (fun _ => by cases e <;> rfl) (fun h0 => by simp [h0]) (fun _ => by simp) (.inl rfl)

theorem Laws.deadlineFinish (hd : s.deadline = .finish true) :
    ({ s with
      deadline := if (s.owner.finishEvent false false true).1 then .destroy else .done
      owner := (s.owner.finishEvent false false true).2 } : Machine).Laws := by
  obtain ⟨e, he, hdes⟩ := finishEvent_cases s.owner false false true
  have hseen : s.owner.deadlineSeen = true := by rw [h.timing.entered, hd]; rfl
  rw [he]
  refine h.deadlineMove (by rw [hd]; nofun) (by cases e <;> exact ⟨nofun, nofun⟩)
    (by cases e <;> rfl) (hseen.trans (by cases e <;> rfl)) rfl rfl rfl (h.timing.decided hseen) rfl
    (Bool.and_true _) (fun h0 => ?_) (.inl rfl)
  rcases h0 with h0 | h0
  · have hclaims := hdes.mp (by cases e <;> [cases h0; rfl])
    simpa using hclaims.2.2.1
  · exact h.inv.destroy (.inr (.inr (.inr h0)))

/-! ### Every move keeps the laws -/

/-- **Every step keeps the laws.** -/
theorem laws_moves {c : Option AdapterCall} (hm : s.Moves c t) : t.Laws := by
  have hi := h.inv
  have ht := h.timing
  cases hm with
  | post hp a => exact h.post hp a
  | overtaken hp hc =>
    have hacc := hi.accepted (by rw [hp]; rfl)
    refine h.submitOn ⟨rfl, by rw [hacc]; rfl⟩ ⟨rfl, rfl, rfl, rfl⟩ (by rw [hacc]; rfl)
      nofun nofun nofun nofun (fun _ => .inl (hi.unarmed (.inl (by rw [hp]; rfl))))
      (fun h0 => ?_) rfl nofun
    rw [hi.idle.mp h0] at hc
    cases hc
  | arms hp hc =>
    have hacc := hi.accepted (by rw [hp]; rfl)
    exact h.submitOn hacc ⟨rfl, rfl, rfl, rfl⟩ (by rw [hacc]; rfl) nofun
      (fun _ => ⟨hi.unarmed (.inl (by rw [hp]; rfl)), nofun⟩) nofun nofun nofun
      (fun _ _ h0 => absurd rfl h0) rfl nofun
  | refuses hp =>
    have href := hi.refused (by rw [hp]; rfl)
    have hpend := hi.fresh (by rw [hp]; rfl)
    exact h.submitOn href ⟨rfl, rfl, rfl, rfl⟩ (by rw [href]; rfl)
      (fun _ => by rw [hpend]; nofun) nofun nofun nofun (fun _ => .inl (hi.unposted href).2.2.1)
      (fun _ h0 => by rw [href] at h0; cases h0) rfl nofun
  | arm hp => exact h.arm hp
  | armed hp state hn _ =>
    have hacc := hi.accepted (by rw [hp]; rfl)
    exact h.submitLast (by rw [hp]; rfl) (by rw [hacc]; rfl) (fun h0 => absurd h0 hn)
      (ht.armed_at hp rfl nofun)
  | cancels hp hc =>
    have hacc := hi.accepted (by rw [hp]; rfl)
    refine h.submitOn hacc ⟨rfl, rfl, rfl, rfl⟩ (ht.post_eq (by rw [hp]; rfl)) nofun nofun
      (fun _ h0 => ?_) nofun nofun (fun h0 h1 _ => ht.armed_at hp rfl nofun h0 h1) rfl nofun
    rw [hi.idle.mp h0] at hc
    cases hc
  | submitCancel hp htimer => exact h.submitCancel hp htimer
  | submitLate hp _ =>
    have hacc := hi.accepted (by rw [hp]; rfl)
    exact h.submitLast (by rw [hp]; rfl) (by rw [hacc]; rfl) ht.cancelled
      fun h0 => absurd h0 (ht.cancelling hp)
  | submitCancelled hp =>
    have hacc := hi.accepted (by rw [hp]; rfl)
    exact h.submitLast (by rw [hp]; rfl) (by rw [hacc]; rfl) (fun _ => .inr (ht.submitCancelled hp))
      (ht.armed_at hp rfl nofun)
  | abort hp =>
    have href := hi.refused (by rw [hp]; rfl)
    exact h.submitLast (by rw [hp]; rfl) (by rw [href]; rfl) ht.cancelled
      fun _ h0 => by rw [href] at h0; cases h0
  | submitFinish b d hp => exact h.submitFinish hp
  | submitDestroy hp =>
    exact h.submitMove trivial ⟨rfl, rfl, rfl, rfl⟩ (ht.post_eq (by rw [hp]; rfl)) nofun nofun
      nofun nofun ht.cancelled (fun h0 h1 _ => ht.armed_at hp rfl nofun h0 h1) .inl id
      fun _ => hi.destroy (.inl hp)
  | complete status hp hc pc hpc => exact h.complete hp hc hpc
  | completionCancel status p l hc htimer => exact h.completionCancel hc htimer
  | completionLate status p l hc _ =>
    exact h.completionOn (by rw [hc]; exact ⟨nofun, rfl⟩) nofun rfl nofun nofun
      (by rw [hc]; exact id) (.inl rfl)
  | completionCancelled status p l hc =>
    exact h.completionOn (by rw [hc]; exact ⟨nofun, rfl⟩) nofun rfl nofun nofun
      (by rw [hc]; exact id) (.inr (ht.completionCancelled _ _ _ hc))
  | retire status p l d hc =>
    exact h.completionOn (by rw [hc]; exact ⟨nofun, rfl⟩) (by cases p <;> nofun) (by cases p <;> rfl)
      (by cases p <;> nofun) (by cases p <;> nofun) (by rw [hc]; cases p <;> [nofun; exact id])
      (.inl rfl)
  | publish status d hc | release d hc =>
    exact h.completionOn (by rw [hc]; exact ⟨nofun, rfl⟩) nofun rfl nofun nofun nofun (.inl rfl)
  | completionFinish d hc => exact h.completionFinish hc
  | completionDestroy hc =>
    exact h.completionMove (by rw [hc]; nofun) nofun rfl nofun nofun ⟨rfl, rfl, rfl, rfl⟩ rfl
      (fun _ => rfl) id (fun _ => hi.destroy (.inr (.inl hc))) (.inl rfl)
  | expire htimer => exact h.expire htimer
  | decides hd hc hn => exact h.decide hd hn
  | tooLate hd hc =>
    exact h.deadlineMove (by rw [hd]; nofun) ⟨nofun, nofun⟩ rfl rfl rfl rfl rfl hc rfl rfl
      (fun h0 => hi.destroy (.inr (.inr (.inr (h0.resolve_left nofun))))) (.inr rfl)
  | deadlinePublish hd =>
    exact h.deadlineMove (by rw [hd]; nofun) ⟨nofun, nofun⟩ rfl (by rw [ht.entered, hd]; rfl) rfl rfl
      rfl (by rw [hi.deadline hd]; nofun) rfl rfl
      (fun h0 => hi.destroy (.inr (.inr (.inr (h0.resolve_left nofun))))) (.inl rfl)
  | deadlineFinish hd => exact h.deadlineFinish hd
  | deadlineDestroy hd =>
    have hseen : s.owner.deadlineSeen = true := by rw [ht.entered, hd]; rfl
    exact h.deadlineMove (by rw [hd]; nofun) ⟨nofun, nofun⟩ rfl hseen rfl rfl rfl (ht.decided hseen)
      rfl rfl (fun _ => hi.destroy (.inr (.inr (.inl hd)))) (.inl rfl)

end

end Machine
end Rdma
end Infiniswap
