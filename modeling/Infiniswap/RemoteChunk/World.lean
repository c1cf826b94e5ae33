/-
# The Remote Chunk module under its callers

The module with the storage its callers own: lease cells by address and the
eviction waits that sleep outside the lock. A `Call` is one operation with its
arguments; the environment's choices (clock, random draws, allocation) are
arguments too. Callers may pass any claims and any lease address, and may
write a cell that holds no live lease with anything but a lease of this
module: the header's contract that lease storage is single-use and
address-bound.
-/
import Mathlib.Data.Set.Card
import Infiniswap.Lib.Runs
import Infiniswap.RemoteChunk.Leases

namespace Infiniswap
namespace RemoteChunk

open ChunkModule Transition Counting

variable {config : Config} {capacity : ℕ}

/-- The module, its callers' lease cells and the eviction waits that are asleep. -/
structure World where
  module : ChunkModule
  leases : ℕ → IoLease
  waiters : List (EvictionClaim × ℕ)
  destroyed : Bool

/-- An operation with its arguments. -/
inductive Call
  | quiesce
  | destroy
  | observe (provider : ProviderHandle) (observation : ProviderObservation)
  | hotPolicySnapshot
  | hotPolicySet (policy : HotPolicy)
  | noteActivity (logicalStart chunkCount : ℕ) (kind : ActivityKind)
  | nextMapping (draws : ℕ → ℕ)
  | mappingFinish (claim : MappingClaim) (action : MappingFinishAction) (provider : ProviderHandle)
      (grants : GrantArg)
  | activityQuery (provider : ProviderHandle) (providerChunks : List ℕ)
  | evictionBegin (provider : ProviderHandle) (providerChunks : List ℕ) (claimOut : EvictionClaim)
  | evictionWait (claim : EvictionClaim) (deadline now : ℕ)
  | evictionWake (waiter now : ℕ)
  | evictionFinish (claim : EvictionClaim)
  | providerFailed (provider : ProviderHandle)
  | leaseAcquire (request : IoRequest) (storage : ℕ)
  | leaseResolve (storage : ℕ) (outcome : IoOutcome)
  | leaseRelease (storage : ℕ)
  | snapshot (allocated : Bool)
  | writeCell (storage : ℕ) (content : IoLease)

/-- The lease cell a call works on. -/
def Call.cell : Call → Option ℕ
  | .leaseAcquire _ a | .leaseResolve a _ | .leaseRelease a | .writeCell a _ => some a
  | _ => none

/-- What an operation returns to its caller. -/
inductive Reply
  | status (result : Except Errno Unit)
  | observed (result : ObservationResult)
  | policy (value : HotPolicy)
  | needed (result : Except Errno Bool)
  | next (result : NextMappingResult) (request : Option MappingRequest)
  | finished (result : MappingFinishResult)
  | activity (result : Except Errno (List ProviderActivity))
  | begun (result : Except Errno EvictionClaim)
  | waited (result : WaitResult)
  | failed (result : ProviderFailureResult) (facts : ProviderFailureFacts)
  | leased (result : Except Errno TransportMapping)
  | resolved (result : Except Errno IoResolveResult)
  | snapshot (result : Except Errno Snapshot)
  | written

namespace World

variable (w : World)

def setModule (m : ChunkModule) : World := { w with module := m }

/-- The world after the lease operation on the cell at `storage`. -/
def setLease (m : ChunkModule) (storage : ℕ) (l : IoLease) : World :=
  { w with module := m, leases := Function.update w.leases storage l }

@[simp] theorem setLease_self (m : ChunkModule) (a : ℕ) (l : IoLease) : (w.setLease m a l).leases a = l :=
  Function.update_self ..

/-- One call on a module that has not been destroyed. -/
def call : Call → Option (Reply × World)
  | .quiesce => some (.status w.module.moduleQuiesce.1, w.setModule w.module.moduleQuiesce.2)
  | .destroy =>
    let (result, m) := w.module.moduleDestroy
    some (.status result, { w with module := m, destroyed := decide (result = .ok ()) })
  | .observe p o =>
    some (.observed (w.module.providerObserve p o).1, w.setModule (w.module.providerObserve p o).2)
  | .hotPolicySnapshot => some (.policy w.module.hotPolicySnapshot, w)
  | .hotPolicySet policy => match w.module.hotPolicySet policy with
    | .error e => some (.needed (.error e), w)
    | .ok (needed, m) => some (.needed (.ok needed), w.setModule m)
  | .noteActivity start count kind => match w.module.noteActivity start count kind with
    | .error e => some (.needed (.error e), w)
    | .ok (needed, m) => some (.needed (.ok needed), w.setModule m)
  | .nextMapping draws =>
    let r := w.module.nextMapping draws
    some (.next r.1 r.2.1, w.setModule r.2.2)
  | .mappingFinish c action p grants =>
    let r := w.module.mappingFinish c action p grants
    some (.finished r.1, w.setModule r.2)
  | .activityQuery p pcs => some (.activity (w.module.providerActivityQuery p pcs), w)
  | .evictionBegin p pcs out => match w.module.evictionBegin p pcs out with
    | .error e => some (.begun (.error e), w)
    | .ok (c, m) => some (.begun (.ok c), w.setModule m)
  | .evictionWait c deadline now => match w.module.evictionWaitBegin c deadline now with
    | (.done status, m) => some (.waited (.done status), w.setModule m)
    | (.waiting, m) =>
      some (.waited .waiting, { w with module := m, waiters := (c, deadline) :: w.waiters })
  | .evictionWake i now => match w.waiters[i]? with
    | none => none
    | some (c, deadline) => match w.module.evictionWaitResume c deadline now with
      | (.done status, m) =>
        some (.waited (.done status), { w with module := m, waiters := w.waiters.eraseIdx i })
      | (.waiting, m) => some (.waited .waiting, w.setModule m)
  | .evictionFinish c =>
    some (.status (w.module.evictionFinish c).1, w.setModule (w.module.evictionFinish c).2)
  | .providerFailed p =>
    let r := w.module.providerFailed p
    some (.failed r.1 r.2.1, w.setModule r.2.2)
  | .leaseAcquire request a => match w.module.ioLeaseAcquire request a (w.leases a) with
    | .error e => some (.leased (.error e), w)
    | .ok (l, t, m) => some (.leased (.ok t), w.setLease m a l)
  | .leaseResolve a outcome =>
    let r := w.module.ioLeaseResolve a (w.leases a) outcome
    some (.resolved r.1, w.setLease r.2.2 a r.2.1)
  | .leaseRelease a =>
    let r := w.module.ioLeaseRelease a (w.leases a)
    some (.status r.1, w.setLease r.2.2 a r.2.1)
  | .snapshot allocated => some (.snapshot (w.module.snapshotTake allocated), w)
  | .writeCell a content =>
    -- the callers' contract: a live lease is not overwritten and none is forged
    if w.module.Live a (w.leases a) ∨ w.module.Own a content then none
    else some (.written, { w with leases := Function.update w.leases a content })

end World

/-- The module just created, with lease cells that hold none of its leases. -/
def World.Fresh (w : World) : Prop :=
  (∃ config capacity identity now handles,
    moduleCreate config capacity true identity now = .ok (w.module, handles)) ∧
    (∀ a, ¬ w.module.Own a (w.leases a)) ∧ w.waiters = [] ∧ w.destroyed = false

/-- Every finite sequence of calls on a created module. -/
def chunkSystem : System World Call where
  init := World.Fresh
  step w c := if w.destroyed then none else (w.call c).map Prod.snd

/-! ### The run invariant -/

/-- What holds of the module and its callers' storage between calls. -/
structure WorldInv (w : World) : Prop where
  module : w.module.Inv
  leases : w.module.LeaseStore w.leases
  waits : w.module.activeEvictionWaits = w.waiters.length

theorem Config.validate_ok (h : config.validate capacity = .ok ()) :
    (config.mode = .backed ∨ config.mode = .remoteOnly) ∧ config.chunkCount ≠ 0 ∧
      config.chunkCount ≤ maxChunks ∧ config.placementSampleSize ≠ 0 := by
  unfold Config.validate at h
  split at h
  · cases h
  rename_i hc
  split at h
  · cases h
  split at h
  · cases h
  rename_i hr
  unfold Config.rosterValidate at hr
  split at hr
  · cases hr
  split at hr
  · cases hr
  rename_i hs
  push Not at hc hs
  refine ⟨?_, hc.2.1, hc.2.2, hs.1⟩
  by_cases hb : config.mode = .backed
  · exact .inl hb
  · exact .inr (hc.1 hb)

theorem newModule_inv {identity : ℕ} (now : ℕ) (hv : config.validate capacity = .ok ())
    (hid : identity ≠ 0) : (newModule config identity now).Inv := by
  obtain ⟨hmode, hpos, hle, hsample⟩ := Config.validate_ok hv
  exact
    { count_pos := Nat.pos_of_ne_zero hpos
      count_le := hle
      mode := hmode
      identity := hid
      handle := fun i hi => by
        show (rosterProvider identity config.providers i).handle = _
        rw [rosterProvider, List.getElem?_eq_getElem hi]
        rfl
      sample := fun _ => hsample
      chunk := fun i _ =>
        { mappingId := by simp [newModule]
          evictionId := by simp [newModule]
          mappingId_le := le_rfl
          evictionId_le := le_rfl
          transition_le := le_rfl
          transition_ne := fun h => by simp [newModule] at h
          generation_le := le_rfl
          generation_ne := fun h => absurd h (not_assigned_of_unmapped rfl)
          provider := fun h => absurd rfl h
          backed := fun h => by cases h }
      assigned := (count_eq_zero fun _ _ => not_assigned_of_unmapped rfl).symm
      usable := (count_eq_zero fun _ _ h => by cases h).symm
      claim := .inl ⟨rfl, rfl, fun i _ h => by cases h⟩
      batch := fun i _ j _ h _ => by cases h
      evictions := by
        refine (Finset.card_eq_zero.mpr (Finset.eq_empty_iff_forall_notMem.mpr fun x hx => ?_)).symm
        obtain ⟨i, -, he, -⟩ := mem_tags.mp hx
        cases he
      place := fun i _ j _ h => absurd h (not_assigned_of_unmapped rfl)
      leases := by simp [newModule]
      leases_le := Nat.zero_le _
      valid := fun s hs => by
        have h0 : (0 : BitVec bitsPerWord).getLsbD (s % bitsPerWord) = true := hs
        simp at h0 }

theorem moduleCreate_ok {identity now : ℕ} {m : ChunkModule} {handles : List ProviderHandle}
    (h : moduleCreate config capacity true identity now = .ok (m, handles)) :
    config.validate capacity = .ok () ∧ identity ≠ 0 ∧ m = newModule config identity now := by
  unfold moduleCreate at h
  split at h
  · cases h
  rename_i hv
  split_ifs at h with h1 h2
  cases h
  push Not at h2
  exact ⟨hv, h2.1, rfl⟩

/-- What a configuration creates, under identity 1. -/
def createdWorld (config : Config) : World :=
  { module := newModule config 1 0, leases := fun _ => {}, waiters := [], destroyed := false }

theorem createdWorld_fresh (hv : config.validate capacity = .ok ()) :
    (createdWorld config).Fresh := by
  have hcreate : ∃ handles,
      moduleCreate config capacity true 1 0 = .ok (newModule config 1 0, handles) := by
    rw [moduleCreate, hv]
    exact ⟨_, rfl⟩
  exact ⟨⟨config, capacity, 1, 0, hcreate⟩,
    fun a h => absurd (show (0 : ℕ) = leaseMagic from h.1) (by decide), rfl, rfl⟩

theorem fresh_unassigned {w : World} (h : w.Fresh) (k : ℕ) : ¬ (w.module.chunks k).assigned := by
  obtain ⟨⟨config, capacity, identity, now, handles, hcreate⟩, -⟩ := h
  obtain ⟨-, -, hm⟩ := moduleCreate_ok hcreate
  rw [hm]
  exact not_assigned_of_unmapped rfl

theorem fresh_inv {w : World} (h : w.Fresh) : WorldInv w := by
  obtain ⟨⟨config, capacity, identity, now, handles, hcreate⟩, hnone, hw, -⟩ := h
  obtain ⟨hv, hid, hm⟩ := moduleCreate_ok hcreate
  refine ⟨by rw [hm]; exact newModule_inv now hv hid,
    ⟨fun a ha => absurd ha (hnone a), ∅, fun a => ?_, ?_⟩, ?_⟩
  · simpa using fun h : w.module.Live a (w.leases a) => hnone a h.1
  · rw [hm]
    intro i _
    rfl
  · rw [hm, hw]
    rfl

/-! ### What a call can do -/

/-- The effect of a call: a control step on the module, a change of the
waiters, a lease acquired, resolved or released, or a cell written by its owner. -/
inductive CallStep (w : World) : Call → World → Prop
  | control {c m} (hs : ControlStep w.module m) (destroyed : Bool) :
      CallStep w c { w with module := m, destroyed := destroyed }
  | waits {c} (ws : List (EvictionClaim × ℕ)) :
      CallStep w c { w with module := w.module.setEvictionWaits ws.length, waiters := ws }
  | acquire {request a k} (hk : w.module.requestChunk request = .ok k)
      (hprev : (w.leases a).magic = 0) (hs : (w.module.chunks k).state = .mapped)
      (hv : request.direction = .read →
        w.module.validityTest request.sector (request.bytes / sectorBytes) = true)
      (hmax : w.module.activeIoLeases ≠ u32Max) :
      CallStep w (.leaseAcquire request a)
        (w.setLease (w.module.grantLease request k) a (w.module.newIoLease request a k))
  | resolve {a outcome} (ho : w.module.Own a (w.leases a)) (hr : (w.leases a).resolved = false) :
      CallStep w (.leaseResolve a outcome) (w.setLease (w.module.resolveValidity (w.leases a) outcome) a
        { w.leases a with state := (w.leases a).state ||| 1 })
  | release {a} (hl : w.module.Live a (w.leases a)) (hr : (w.leases a).resolved = true)
      (hz : (w.module.chunks (w.leases a).logicalChunk).activeIoLeases ≠ 0) :
      CallStep w (.leaseRelease a) (w.setLease (w.module.dropLease (w.leases a).logicalChunk) a
        { w.leases a with state := (w.leases a).state ||| 2 })
  | write {a content} (hlive : ¬ w.module.Live a (w.leases a))
      (hown : ¬ w.module.Own a content) :
      CallStep w (.writeCell a content) { w with leases := Function.update w.leases a content }

namespace CallStep

variable {w : World} {c : Call}

theorem refl : CallStep w c w := .control (.refl _) w.destroyed

theorem module {m : ChunkModule} (hs : ControlStep w.module m) : CallStep w c (w.setModule m) :=
  .control hs w.destroyed

end CallStep

theorem CallStep.inv {w w' : World} {c : Call} (h : WorldInv w) (hs : CallStep w c w') : WorldInv w' := by
  cases hs with
  | control hs d =>
    exact ⟨hs.inv h.module, h.leases.evolves (hs.evolves h.module), hs.waits.trans h.waits⟩
  | waits ws => exact ⟨h.module.congr rfl, h.leases.evolves (.of_core (.refl _)), rfl⟩
  | acquire hk hprev hst _ hmax =>
    exact ⟨inv_grantLease h.module (requestChunk_ok hk).2.1 hmax,
      h.leases.acquire h.module hk hst hprev, h.waits⟩
  | @resolve a outcome ho hr =>
    have hok := h.leases.ok a ho
    refine ⟨inv_resolveValidity h.module hok.chunk_lt hok.sector hok.fits hok.current,
      h.leases.resolve outcome ho hr, ?_⟩
    show (w.module.resolveValidity (w.leases a) outcome).activeEvictionWaits = _
    rw [resolveValidity_eq]
    exact h.waits
  | @release a hl hr hz =>
    exact ⟨inv_dropLease h.module (h.leases.ok a hl.1).chunk_lt hz, h.leases.release hl hr, h.waits⟩
  | write hlive hown =>
    exact ⟨h.module, h.leases.rewrite rfl rfl rfl rfl rfl
      ⟨fun hc => absurd hc.1 hown, fun hc => absurd hc hlive⟩ (fun hc => absurd hc hown)
      (fun hc => absurd hc.1 hown), h.waits⟩

theorem CallStep.frame {w w' : World} {c : Call} {a : ℕ} (h : WorldInv w) (hs : CallStep w c w')
    (hcell : c.cell ≠ some a) : w'.leases a = w.leases a ∧ w'.module.identity = w.module.identity := by
  have hother : ∀ {b l}, c.cell = some b → Function.update w.leases b l a = w.leases a := fun hb =>
    Function.update_of_ne (fun he => hcell (by rw [hb, he])) _ _
  cases hs with
  | control hs d => exact ⟨rfl, (hs.evolves h.module).identity⟩
  | waits ws => exact ⟨rfl, rfl⟩
  | acquire => exact ⟨hother rfl, rfl⟩
  | @resolve b outcome =>
    refine ⟨hother rfl, ?_⟩
    show (w.module.resolveValidity (w.leases b) outcome).identity = _
    rw [resolveValidity_eq]
  | release | write => exact ⟨hother rfl, rfl⟩

end RemoteChunk
end Infiniswap
