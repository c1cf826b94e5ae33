/-
# The I/O lease of an RDMA operation

The adapter calls of the operation owner act on the operation's I/O lease: the
terminal is published by resolving it, the transferred pages are released with
it, and an operation that was never posted resolves and releases it at once.
Here the owner's handlers run beside a Remote Chunk module that other callers
use at the same time.

The deadline handler decides the terminal under the owner's lock but resolves
the lease after it. A completion that runs in between skips publishing, and its
release comes before the resolve: the module refuses it and nobody releases the
lease again. In runs where the completion's release never falls into that gap
the lease is resolved once and then released once.
-/
import Infiniswap.RemoteChunk.Represented
import Infiniswap.Rdma.OwnerMoves

namespace Infiniswap
namespace Rdma

open RemoteChunk Transition

/-! ### The transport's adapter -/

variable {c : Option AdapterCall}

/-- The outcome with which `is_rdma_operation_adapter_publish_terminal` resolves the lease. -/
def publishOutcome (terminal : Terminal) (status : Option Errno) : IoOutcome :=
  if terminal = .deadline then .cancelled else if status.isSome then .failure else .success

/-- The status it completes the transaction with, from the result of resolving
the lease. A stale lease fails a Remote-Only operation; a Backed Mode operation
only fails when the lease could not be resolved at all. -/
def publishStatus (remoteOnly remoteLost : Bool) (terminal : Terminal) (status : Option Errno)
    (lease : Except Errno IoResolveResult) : Option Errno :=
  if status.isNone ∧ terminal = .completion ∧ remoteOnly then
    if lease ≠ .ok .current ∨ remoteLost then some .eio else status
  else if status.isNone then
    match lease with
    | .error _ => some .eio
    | .ok _ => status
  else status

/-- A call on the operation's lease, with whether the module reported an invariant during it. -/
inductive LeaseCall
  | resolve (result : Except Errno IoResolveResult) (reported : Bool)
  | release (result : Except Errno Unit) (reported : Bool)
  deriving DecidableEq

/-- The module's record of invariant events changed between `m` and `m'`. -/
def invariantReported (m m' : ChunkModule) : Bool :=
  m'.invariantCount ≠ m.invariantCount || m'.latestInvariant ≠ m.latestInvariant

/-- One operation beside the Remote Chunk module: its handlers, the module with
every caller's lease cells, the operation's calls on its lease and the status its
transaction was completed with. -/
structure OperationRun where
  machine : Machine := {}
  world : World
  log : List LeaseCall := []
  completed : List (Option Errno) := []

namespace OperationRun

variable (s : OperationRun) (a : ℕ)

/-- `is_operation_resolve_lease`. -/
def resolveLease (outcome : IoOutcome) : OperationRun :=
  let r := s.world.module.ioLeaseResolve a (s.world.leases a) outcome
  { s with
    world := s.world.setLease r.2.2 a r.2.1
    log := s.log ++ [.resolve r.1 (invariantReported s.world.module r.2.2)] }

/-- `is_operation_release_lease`. -/
def releaseLease : OperationRun :=
  let r := s.world.module.ioLeaseRelease a (s.world.leases a)
  { s with
    world := s.world.setLease r.2.2 a r.2.1
    log := s.log ++ [.release r.1 (invariantReported s.world.module r.2.2)] }

/-- The effect of an adapter call on the lease and the transaction. -/
def adapter (remoteLost : Bool) : Option AdapterCall → OperationRun
  | some (.publishTerminal terminal status) =>
    let outcome := publishOutcome terminal status
    let lease := (s.world.module.ioLeaseResolve a (s.world.leases a) outcome).1
    let remoteOnly := decide (s.world.module.mode = .remoteOnly)
    { s.resolveLease a outcome with
      completed := s.completed ++ [publishStatus remoteOnly remoteLost terminal status lease] }
  | some .releaseTransferredIo => s.releaseLease a
  | some .abortUnposted => (s.resolveLease a .submissionFailure).releaseLease a
  | _ => s

end OperationRun

/-- A step of the operation, or a call of someone else on the module. -/
inductive RunLabel
  | op (event : OpEvent) (remoteLost : Bool)
  | env (call : Call)

/-- The label is a step of the completion handler. -/
def RunLabel.completes : RunLabel → Bool
  | .op .completion _ => true
  | _ => false

/-- The runs of an operation whose lease, just acquired, is stored at `a`. -/
def operationSystem (a : ℕ) : System OperationRun RunLabel where
  init s :=
    s.machine = {} ∧ s.log = [] ∧ s.completed = [] ∧ ∃ w request mapping, chunkSystem.Reachable w ∧
    w.destroyed = false ∧ w.call (.leaseAcquire request a) = some (.leased (.ok mapping), s.world)
  step s
    | .op event remoteLost => match s.machine.step event with
      | none => none
      | some (call, m) => some ({ s with machine := m }.adapter a remoteLost call)
    | .env call =>
      if s.world.destroyed ∨ call.cell = some a then none
      else (s.world.call call).map fun r => { s with world := r.2 }

/-- The completion handler does not reach its release while the deadline handler
has decided the terminal and not yet resolved the lease. -/
def ReleaseAfterPublish (s : OperationRun) (l : RunLabel) : Prop :=
  l.completes = true ∧ s.machine.completion.releasing = true → s.machine.deadline ≠ .publish

instance (s : OperationRun) (l : RunLabel) : Decidable (ReleaseAfterPublish s l) :=
  inferInstanceAs (Decidable (_ → _))

/-! ### Where the lease is, by the places of the handlers -/

inductive Phase
  | held | resolved | released
  deriving DecidableEq

/-- The adapter calls that work on the lease. -/
def usesLease : Option AdapterCall → Bool
  | some (.publishTerminal _ _) | some .releaseTransferredIo | some .abortUnposted => true
  | _ => false

/-- What an adapter call does to the lease. -/
inductive PhaseStep : Option AdapterCall → Phase → Phase → Prop
  | publish {t status p q} (hp : p = .held) (hq : q = .resolved) :
      PhaseStep (some (.publishTerminal t status)) p q
  | release {p q} (hp : p = .resolved) (hq : q = .released) : PhaseStep (some .releaseTransferredIo) p q
  | abort {p q} (hp : p = .held) (hq : q = .released) : PhaseStep (some .abortUnposted) p q
  | other {c p q} (h : usesLease c = false) (he : q = p) : PhaseStep c p q

namespace Machine

variable {s t : Machine}

/-- The phase of the lease if every handler did what it decided. -/
def leasePhase (s : Machine) : Phase :=
  if s.completion.released = true ∨ (s.owner.postState = .failed ∧ s.submit ≠ .abort) then .released
  else if s.owner.terminal = .none ∨ s.completion.publishes = true ∨ s.deadline = .publish then .held
  else .resolved

theorem leasePhase_held (h1 : s.completion.released = false)
    (h2 : s.owner.postState = .failed → s.submit = .abort)
    (h3 : s.owner.terminal = .none ∨ s.completion.publishes = true ∨ s.deadline = .publish) :
    s.leasePhase = .held := by
  unfold leasePhase
  rw [if_neg, if_pos h3]
  simp only [h1, not_or, not_and, not_not]
  exact ⟨nofun, h2⟩

theorem leasePhase_released
    (h : s.completion.released = true ∨ (s.owner.postState = .failed ∧ s.submit ≠ .abort)) :
    s.leasePhase = .released := if_pos h

theorem leasePhase_resolved (h1 : s.completion.released = false) (h2 : s.owner.postState ≠ .failed)
    (h3 : s.owner.terminal ≠ .none) (h4 : s.completion.publishes = false) (h5 : s.deadline ≠ .publish) :
    s.leasePhase = .resolved := by
  unfold leasePhase
  rw [if_neg (by simp [h1, h2]), if_neg (by simp [h3, h4, h5])]

theorem step_release {e : OpEvent} (hs : s.step e = some (some .releaseTransferredIo, t)) :
    e = .completion := by
  cases e with
  | completion => rfl
  | submit =>
    dsimp only [step, submitStep] at hs
    split at hs <;> cases hs
  | deadline =>
    dsimp only [step, deadlineStep] at hs
    split at hs <;> cases hs
  | _ =>
    dsimp only [step] at hs
    split at hs <;> cases hs

theorem phase_same (hc : usesLease c = false)
    (hr : (t.completion.released = true ∨ (t.owner.postState = .failed ∧ t.submit ≠ .abort)) ↔
      (s.completion.released = true ∨ (s.owner.postState = .failed ∧ s.submit ≠ .abort)))
    (hh : (t.owner.terminal = .none ∨ t.completion.publishes = true ∨ t.deadline = .publish) ↔
      (s.owner.terminal = .none ∨ s.completion.publishes = true ∨ s.deadline = .publish)) :
    PhaseStep c s.leasePhase t.leasePhase := by
  refine .other hc ?_
  unfold leasePhase
  simp only [hr, hh]

/-- **A step of the handlers moves the lease by its adapter call only.** -/
theorem phase_moves (h : s.Laws) (hgap : s.deadline = .publish → s.completion.released = false)
    (hrel : c = some .releaseTransferredIo → s.deadline ≠ .publish) (hm : s.Moves c t) :
    PhaseStep c s.leasePhase t.leasePhase ∧ (t.deadline = .publish → t.completion.released = false) := by
  have hi := h.inv
  have hacc (ha : s.submit.accepted = true) : s.owner.postState ≠ .failed := fun hf => by
    have hp := hi.accepted ha
    rw [hi.failed hf] at hp
    cases hp
  cases hm with
  | post hp | refuses hp =>
    have hpend := hi.fresh (by rw [hp]; rfl)
    exact ⟨phase_same rfl (by simp [hpend]) Iff.rfl, hgap⟩
  | overtaken hp | arms hp | arm hp | armed hp | cancels hp | submitCancel hp | submitLate hp
  | submitCancelled hp =>
    have hne := hacc (by rw [hp]; rfl)
    exact ⟨phase_same rfl (by simp [hne]) Iff.rfl, hgap⟩
  | abort hp =>
    -- nothing was posted, so nobody else can have touched the lease
    have hf := hi.aborting (by rw [hp]; rfl)
    have hun := hi.unposted (hi.failed hf)
    exact ⟨.abort (leasePhase_held (by rw [hun.1]; rfl) (fun _ => hp) (.inl hun.2.2.2))
      (leasePhase_released (.inr ⟨hf, (by rintro ⟨⟩)⟩)), hgap⟩
  | submitFinish b d hp =>
    obtain ⟨e, he, -⟩ := finishEvent_cases s.owner true b d
    rw [he]
    exact ⟨phase_same rfl (by cases e <;> simp [hp]) Iff.rfl, hgap⟩
  | submitDestroy hp => exact ⟨phase_same rfl (by simp [hp]) Iff.rfl, hgap⟩
  | complete status hp hc pc hpc =>
    have hreleased : pc.released = false := by rcases hpc with rfl | rfl <;> rfl
    refine ⟨phase_same rfl (by rw [hc, hreleased]; rfl) ?_, fun _ => hreleased⟩
    rw [hc]
    by_cases hn : s.owner.terminal = .none
    · rcases hpc with rfl | rfl <;> simp [hn, CompletionPc.publishes]
    · rcases hpc with rfl | rfl <;> simp [hn, CompletionPc.publishes]
  | completionCancel status p l hc | completionLate status p l hc | completionCancelled status p l hc =>
    exact ⟨phase_same rfl (by rw [hc]; rfl) (by rw [hc]; rfl), fun _ => rfl⟩
  | retire status p l d hc =>
    exact ⟨phase_same rfl (by rw [hc]; cases p <;> rfl) (by rw [hc]; cases p <;> rfl),
      fun _ => by cases p <;> rfl⟩
  | publish status d hc =>
    -- the terminal is the completion's, so the deadline handler does not publish
    obtain ⟨-, hf, -, hterm⟩ := hi.completing (by rw [hc]; rintro ⟨⟩)
    have hd : s.deadline ≠ .publish := fun hd => by
      have hcompletion := hi.publishes (by rw [hc]; rfl)
      rw [hi.deadline hd] at hcompletion
      cases hcompletion
    exact ⟨.publish (leasePhase_held (by rw [hc]; rfl) (fun h0 => absurd h0 hf)
      (.inr (.inl (by rw [hc]; rfl)))) (leasePhase_resolved rfl hf hterm rfl hd), fun _ => rfl⟩
  | release d hc =>
    obtain ⟨-, hf, -, hterm⟩ := hi.completing (by rw [hc]; rintro ⟨⟩)
    have hd := hrel rfl
    exact ⟨.release (leasePhase_resolved (by rw [hc]; rfl) hf hterm (by rw [hc]; rfl) hd)
      (leasePhase_released (.inl rfl)), fun h0 => absurd h0 hd⟩
  | completionFinish d hc =>
    obtain ⟨e, he, -⟩ := finishEvent_cases s.owner false true d
    have hd : s.deadline ≠ .publish := fun h0 => by have := hgap h0; rw [hc] at this; cases this
    rw [he]
    exact ⟨phase_same rfl (by rw [hc]; cases e <;> simp [CompletionPc.released])
      (by rw [hc]; cases e <;> simp [CompletionPc.publishes]), fun h0 => absurd h0 hd⟩
  | completionDestroy hc =>
    have hd : s.deadline ≠ .publish := fun h0 => by have := hgap h0; rw [hc] at this; cases this
    exact ⟨phase_same rfl (by rw [hc]; simp [CompletionPc.released])
      (by rw [hc]; simp [CompletionPc.publishes]), fun h0 => absurd h0 hd⟩
  | expire htimer =>
    have hidle : s.deadline = .idle := hi.unfired (by rw [htimer]; rintro ⟨⟩)
    exact ⟨phase_same rfl Iff.rfl (by simp [hidle]), (by rintro ⟨⟩)⟩
  | decides hd hc hn =>
    exact ⟨phase_same rfl Iff.rfl (by simp [hn]), fun _ => by rw [hi.idle.mpr hc]; rfl⟩
  | deadlinePublish hd =>
    -- the lease is still held: nobody else publishes, and nothing was released
    have hterm := hi.deadline hd
    have hf : s.owner.postState ≠ .failed := fun hf => by
      have hidle := (hi.unposted (hi.failed hf)).2.1
      rw [hd] at hidle
      cases hidle
    have hpub : s.completion.publishes = false := by
      by_contra hp
      have hcompletion := hi.publishes (by simpa using hp)
      rw [hterm] at hcompletion
      cases hcompletion
    exact ⟨.publish (leasePhase_held (hgap hd) (fun h0 => absurd h0 hf) (.inr (.inr hd)))
      (leasePhase_resolved (hgap hd) hf (by simp [hterm]) hpub (by rintro ⟨⟩)), (by rintro ⟨⟩)⟩
  | tooLate hd | deadlineDestroy hd =>
    exact ⟨phase_same rfl Iff.rfl (by simp [hd, Owner.beginEvent]), (by rintro ⟨⟩)⟩
  | deadlineFinish hd =>
    obtain ⟨e, he, -⟩ := finishEvent_cases s.owner false false true
    rw [he]
    exact ⟨phase_same rfl Iff.rfl (by cases e <;> simp [hd]), by cases e <;> rintro ⟨⟩⟩

end Machine

/-! ### The lease cell -/

variable {a : ℕ} {s : OperationRun}

/-- The cell and the calls made so far, in each phase. -/
def InPhase (a : ℕ) (s : OperationRun) : Phase → Prop
  | .held => s.log = [] ∧ (s.world.leases a).state = 0
  | .resolved => (∃ r, s.log = [.resolve (.ok r) false]) ∧ (s.world.leases a).state = 1
  | .released =>
    (∃ r, s.log = [.resolve (.ok r) false, .release (.ok ()) false]) ∧ (s.world.leases a).state = 3

/-- The invariant of an operation beside the module. -/
structure OperationInv (a : ℕ) (s : OperationRun) : Prop where
  machine : s.machine.Laws
  world : WorldInv s.world
  own : s.world.module.Own a (s.world.leases a)
  phase : InPhase a s s.machine.leasePhase
  gap : s.machine.deadline = .publish → s.machine.completion.released = false

theorem setLease_leases (w : World) (m : ChunkModule) (l : IoLease) :
    (w.setLease m a l).leases a = l := by
  unfold World.setLease
  exact Function.update_self a l w.leases

theorem resolveLease_held (outcome : IoOutcome) (hout : outcome ≠ .unset) (hw : WorldInv s.world)
    (ho : s.world.module.Own a (s.world.leases a)) (h : InPhase a s .held) :
    WorldInv (s.resolveLease a outcome).world ∧
      (s.resolveLease a outcome).world.module.Own a ((s.resolveLease a outcome).world.leases a) ∧
      InPhase a (s.resolveLease a outcome) .resolved := by
  obtain ⟨hlog, hstate⟩ := h
  have hv := (hw.leases.ok a ho).validate ho
  have hres : (s.world.leases a).resolved = false := by rw [IoLease.resolved_of_state hstate]; decide
  have heq : s.world.module.ioLeaseResolve a (s.world.leases a) outcome =
      (.ok (if (s.world.module.chunks (s.world.leases a).logicalChunk).mappingGeneration =
          (s.world.leases a).mappingGeneration then .current else .stale),
        { s.world.leases a with state := (s.world.leases a).state ||| 1 },
        s.world.module.resolveValidity (s.world.leases a) outcome) := by
    unfold ChunkModule.ioLeaseResolve
    rw [if_neg hout, hv]
    dsimp only
    rw [if_neg (by simp [hres])]
  have hmod := ChunkModule.resolveValidity_eq (m := s.world.module) (s.world.leases a) outcome
  refine ⟨((leaseResolve_does s.world a outcome).step hw).inv hw, ?_, ⟨?_, ?_⟩⟩
  · unfold OperationRun.resolveLease
    dsimp only
    rw [setLease_leases, heq]
    exact ⟨ho.1, ho.2.1.trans (by rw [World.setLease, hmod]), ho.2.2⟩
  · unfold OperationRun.resolveLease
    dsimp only
    rw [heq, hlog]
    have hquiet : invariantReported s.world.module
        (s.world.module.resolveValidity (s.world.leases a) outcome) = false := by
      rw [hmod]
      simp [invariantReported]
    exact ⟨_, by rw [hquiet]; rfl⟩
  · unfold OperationRun.resolveLease
    dsimp only
    rw [setLease_leases, heq, hstate]
    rfl

theorem releaseLease_resolved (hw : WorldInv s.world) (ho : s.world.module.Own a (s.world.leases a))
    (h : InPhase a s .resolved) :
    WorldInv (s.releaseLease a).world ∧
      (s.releaseLease a).world.module.Own a ((s.releaseLease a).world.leases a) ∧
      InPhase a (s.releaseLease a) .released := by
  obtain ⟨⟨r, hlog⟩, hstate⟩ := h
  have hv := (hw.leases.ok a ho).validate ho
  have hres : (s.world.leases a).resolved = true := by rw [IoLease.resolved_of_state hstate]; decide
  have hrel : (s.world.leases a).released = false := by rw [IoLease.released_of_state hstate]; decide
  obtain ⟨h1, h2⟩ := hw.leases.counted_pos hw.module ⟨ho, hrel⟩
  have heq : s.world.module.ioLeaseRelease a (s.world.leases a) =
      (.ok (), { s.world.leases a with state := (s.world.leases a).state ||| 2 },
        s.world.module.dropLease (s.world.leases a).logicalChunk) := by
    unfold ChunkModule.ioLeaseRelease
    rw [hv]
    dsimp only
    rw [if_neg (by simp [hrel]), if_neg (by simp [hres]), if_neg (by simp [h1, h2])]
  refine ⟨((leaseRelease_does s.world a).step hw).inv hw, ?_, ⟨⟨r, ?_⟩, ?_⟩⟩
  · unfold OperationRun.releaseLease
    dsimp only
    rw [setLease_leases, heq]
    exact ⟨ho.1, ho.2.1, ho.2.2⟩
  · unfold OperationRun.releaseLease
    dsimp only
    rw [heq, hlog]
    simp [invariantReported, ChunkModule.dropLease, ChunkModule.setChunk]
  · unfold OperationRun.releaseLease
    dsimp only
    rw [setLease_leases, heq, hstate]
    rfl

theorem publishOutcome_ne_unset (t : Terminal) (status : Option Errno) :
    publishOutcome t status ≠ .unset := by
  unfold publishOutcome
  split_ifs <;> nofun

theorem adapter_phase {p q : Phase} (remoteLost : Bool) (h : PhaseStep c p q)
    (hw : WorldInv s.world) (ho : s.world.module.Own a (s.world.leases a)) (hp : InPhase a s p) :
    WorldInv (s.adapter a remoteLost c).world ∧
      (s.adapter a remoteLost c).world.module.Own a ((s.adapter a remoteLost c).world.leases a) ∧
      InPhase a (s.adapter a remoteLost c) q := by
  cases h with
  | publish h1 h2 =>
    subst h1 h2
    obtain ⟨hw', ho', hp'⟩ := resolveLease_held _ (publishOutcome_ne_unset _ _) hw ho hp
    exact ⟨hw', ho', hp'⟩
  | release h1 h2 =>
    subst h1 h2
    exact releaseLease_resolved hw ho hp
  | abort h1 h2 =>
    subst h1 h2
    obtain ⟨hw', ho', hp'⟩ := resolveLease_held .submissionFailure nofun hw ho hp
    exact releaseLease_resolved hw' ho' hp'
  | other h he =>
    subst he
    have hsame : s.adapter a remoteLost c = s := by
      unfold OperationRun.adapter
      split <;> simp_all [usesLease]
    rw [hsame]
    exact ⟨hw, ho, hp⟩

theorem adapter_machine (c : Option AdapterCall) (remoteLost : Bool) :
    (s.adapter a remoteLost c).machine = s.machine := by
  unfold OperationRun.adapter
  split <;> rfl

/-- **Every step keeps the operation's invariant**, if the completion's release stays out of the gap. -/
theorem operation_inv (h : (operationSystem a).Reach ReleaseAfterPublish s) : OperationInv a s := by
  refine System.Reach.invariant (S := operationSystem a) ?_ ?_ h
  · rintro s ⟨hm, hlog, -, w, request, mapping, hw, hd, hcall⟩
    have hI := world_inv hw
    have hI' := call_inv hI hcall
    dsimp only [World.call] at hcall
    split at hcall
    · cases hcall
    rename_i l t m' hacq
    have hworld : s.world = w.setLease m' a l := by
      have := Option.some.inj hcall
      exact (congrArg Prod.snd this).symm
    obtain ⟨k, hk, -, -, -, -, -, -, rfl, -, rfl⟩ := ChunkModule.ioLeaseAcquire_ok hacq
    have hcell : s.world.leases a = w.module.newIoLease request a k := by rw [hworld, setLease_leases]
    refine ⟨hm ▸ Machine.laws_init, hI', ?_, ?_, ?_⟩
    · rw [hcell, hworld]
      exact ⟨rfl, rfl, rfl⟩
    · rw [hm]
      exact ⟨hlog, by rw [hcell]; rfl⟩
    · rw [hm]
      nofun
  · intro s l t _ hI hC hs
    cases l with
    | op e remoteLost =>
      dsimp only [operationSystem] at hs
      split at hs
      · cases hs
      rename_i c m hstep
      cases hs
      have hmoves := Machine.step_moves hI.machine.inv hI.machine.timing hstep
      have hrel : c = some .releaseTransferredIo → s.machine.deadline ≠ .publish := by
        rintro rfl
        cases Machine.step_release hstep
        cases hmoves with
        | release d hc => exact hC ⟨rfl, by rw [hc]; rfl⟩
      obtain ⟨hp, hgap⟩ := Machine.phase_moves hI.machine hI.gap hrel hmoves
      obtain ⟨hw, ho, hq⟩ :=
        adapter_phase (s := { s with machine := m }) remoteLost hp hI.world hI.own hI.phase
      refine ⟨?_, hw, ho, ?_, ?_⟩ <;> rw [adapter_machine]
      · exact Machine.laws_moves hI.machine hmoves
      · exact hq
      · exact hgap
    | env c =>
      dsimp only [operationSystem] at hs
      split at hs
      · cases hs
      rename_i hn
      push Not at hn
      obtain ⟨⟨r, w'⟩, hcall, rfl⟩ := Option.map_eq_some_iff.mp hs
      obtain ⟨hleases, hid⟩ := ((call_does hI.world hcall).step hI.world).frame hI.world hn.2
      refine ⟨hI.machine, call_inv hI.world hcall, ?_, ?_, hI.gap⟩
      · show w'.module.Own a (w'.leases a)
        rw [hleases, ChunkModule.Own, hid]
        exact hI.own
      · have := hI.phase
        cases hph : s.machine.leasePhase <;> rw [hph] at this <;> simpa only [InPhase, hleases] using this

theorem OperationInv.released (hI : OperationInv a s) (hd : s.machine.destroyed = true) :
    InPhase a s .released := by
  have hclaim := hI.machine.inv.destroy (.inr (.inr (.inr hd)))
  have hphase := hI.phase
  rwa [Machine.leasePhase_released (hI.machine.inv.claim hclaim)] at hphase

theorem InPhase.uncounted (hp : InPhase a s .released) (hw : WorldInv s.world) :
    s.world.module.activeIoLeases = {b | b ≠ a ∧ s.world.module.Live b (s.world.leases b)}.ncard ∧
      ∀ i < s.world.module.chunkCount, (s.world.module.chunks i).activeIoLeases =
        {b | b ≠ a ∧ s.world.module.Live b (s.world.leases b) ∧
          (s.world.leases b).logicalChunk = i}.ncard := by
  have hnot : ¬ s.world.module.Live a (s.world.leases a) := fun hl => by
    have := hl.2
    rw [IoLease.released_of_state hp.2] at this
    exact absurd this (by decide)
  have hne : ∀ b, s.world.module.Live b (s.world.leases b) → b ≠ a := fun b hb hba => hnot (hba ▸ hb)
  constructor
  · obtain ⟨live, hlive, hcard⟩ := hw.leases.card hw.module
    rw [hcard, ← Set.ncard_coe_finset]
    congr 1
    ext b
    simp only [Finset.mem_coe, hlive, Set.mem_ofPred_eq]
    exact ⟨fun hb => ⟨hne b hb, hb⟩, fun hb => hb.2⟩
  · intro i hi
    obtain ⟨live, hlive, hcount⟩ := hw.leases.counted
    rw [hcount i hi, ← Set.ncard_coe_finset]
    congr 1
    ext b
    simp only [Finset.coe_filter, hlive, Set.mem_ofPred_eq]
    exact ⟨fun hb => ⟨hne b hb.1, hb⟩, fun hb => hb.2⟩

/-- **The lease of an operation is resolved once and then released once**, in every run whose
completion never releases while the deadline has decided and not yet resolved. When the operation is
destroyed both have happened, neither reported an invariant, and no count includes the lease. -/
theorem operation_lease_lifecycle (h : (operationSystem a).Reach ReleaseAfterPublish s) :
    (s.log = [] ∨ (∃ r, s.log = [.resolve (.ok r) false]) ∨
      ∃ r, s.log = [.resolve (.ok r) false, .release (.ok ()) false]) ∧
    (s.machine.destroyed = true →
      (∃ r, s.log = [.resolve (.ok r) false, .release (.ok ()) false]) ∧
      s.world.module.activeIoLeases = {b | b ≠ a ∧ s.world.module.Live b (s.world.leases b)}.ncard ∧
      ∀ i < s.world.module.chunkCount, (s.world.module.chunks i).activeIoLeases =
        {b | b ≠ a ∧ s.world.module.Live b (s.world.leases b) ∧
          (s.world.leases b).logicalChunk = i}.ncard) := by
  have hI := operation_inv h
  refine ⟨?_, fun hd => ?_⟩
  · have hphase := hI.phase
    cases hph : s.machine.leasePhase <;> rw [hph] at hphase
    · exact .inl hphase.1
    · exact .inr (.inl hphase.1)
    · exact .inr (.inr hphase.1)
  · have hrel := hI.released hd
    exact ⟨hrel.1, hrel.uncounted hI.world⟩

/-! ### The gap of the deadline handler -/

/-- The module of one mapped chunk. -/
def mappedWorld : World := (chunkSystem.exec oneChunkWorld oneChunkCalls).getD oneChunkWorld

theorem mappedWorld_reachable : chunkSystem.Reachable mappedWorld :=
  System.reachable_of_exec (.init oneChunkWorld_fresh)
    (show chunkSystem.exec oneChunkWorld oneChunkCalls = some mappedWorld from rfl)

/-- A write of one sector has acquired its lease there. -/
def leasedOperation : OperationRun :=
  { world := ((mappedWorld.call (.leaseAcquire sectorWrite 0)).map Prod.snd).getD mappedWorld }

theorem leasedOperation_init : (operationSystem 0).init leasedOperation :=
  ⟨rfl, rfl, rfl, mappedWorld, sectorWrite, mappedWorld.module.transportMapping 0 0,
    mappedWorld_reachable, rfl, rfl⟩

/-- The deadline decides, the completion releases, then the deadline resolves. -/
def gapEvents : List RunLabel :=
  [.post true, .submit, .submit, .submit, .expire, .deadline, .complete none, .completion,
    .completion, .deadline, .deadline, .submit, .completion, .completion].map fun e => .op e false

theorem deadline_gap_leaks_lease : ∃ s, (operationSystem 0).Reachable s ∧ s.machine.destroyed = true ∧
    s.log = [.release (.error .eperm) true, .resolve (.ok .current) false] ∧
    s.world.module.Live 0 (s.world.leases 0) ∧ s.world.module.activeIoLeases = 1 ∧
    (s.world.module.chunks 0).activeIoLeases = 1 := by
  obtain ⟨s, hs, hrest⟩ :
      ∃ s, (operationSystem 0).exec leasedOperation gapEvents = some s ∧ s.machine.destroyed = true ∧
      s.log = [.release (.error .eperm) true, .resolve (.ok .current) false] ∧
      s.world.module.Live 0 (s.world.leases 0) ∧ s.world.module.activeIoLeases = 1 ∧
      (s.world.module.chunks 0).activeIoLeases = 1 := ⟨_, rfl, by decide⟩
  exact ⟨s, System.reachable_of_exec (.init leasedOperation_init) hs, hrest⟩

/-- The deadline decides and resolves, and only then does the completion release. -/
def lateEvents : List RunLabel :=
  [.post true, .submit, .submit, .submit, .submit, .expire, .deadline, .complete none, .deadline,
    .completion, .completion, .deadline, .completion, .completion].map fun e => .op e false

theorem operation_lease_lifecycle_late : ∃ s : OperationRun, s.machine.destroyed = true ∧
    (∃ r, s.log = [.resolve (.ok r) false, .release (.ok ()) false]) ∧
    s.world.module.activeIoLeases = {b | b ≠ 0 ∧ s.world.module.Live b (s.world.leases b)}.ncard := by
  obtain ⟨s, hs, hd⟩ :
      ∃ s, (operationSystem 0).execIf ReleaseAfterPublish leasedOperation lateEvents = some s ∧
      s.machine.destroyed = true := ⟨_, rfl, by decide⟩
  obtain ⟨-, hdestroyed⟩ :=
    operation_lease_lifecycle (System.reach_of_execIf (.init leasedOperation_init) hs)
  obtain ⟨hlog, hcount, -⟩ := hdestroyed hd
  exact ⟨s, hd, hlog, hcount⟩

end Rdma
end Infiniswap
