/-
# The data of the Remote Chunk module

The records of `is_remote_chunk.c` and its header: logical Remote Chunks, the
Provider roster, the caller-held claims and leases (their decoded internal
form), and the module itself. Arrays are functions of the index beside the
module's own element count; `unsigned` counters and identifiers are natural
numbers, with the source's explicit limit checks kept in the operations.

An enumeration the source starts at 1 has the extra value `unset` for the
zero of freshly cleared storage, which the operations reject.
-/
import Infiniswap.Lib.Bitmap

namespace Infiniswap

variable {provider : ProviderHandle}

/-- The error codes the Consumer's control plane and data path return; `other` are codes that only
come from below and are passed on. -/
inductive Errno
  | einval | erange | enospc | enomem | estale | ebusy | eshutdown | eoverflow | eopnotsupp | enoent
  | enxio | enodata | ealready | eperm | etimedout | eio | enotconn | eagain
  | other (code : ℕ)
  deriving DecidableEq

namespace RemoteChunk

/-! ### Limits -/

/-- `IS_REMOTE_CHUNK_ID_MAX`, the largest 64-bit identifier. -/
def idMax : ℕ := 2 ^ 64 - 1

/-- `IS_REMOTE_CHUNK_U32_MAX`, the largest `unsigned int`. -/
def u32Max : ℕ := 2 ^ 32 - 1

def activityMax : ℕ := 2 ^ 63 - 1

def maxChunks : ℕ := 128

def maxProviders : ℕ := 64

def providerIdMax : ℕ := 63

def placementWeightMin : ℕ := 1

def placementWeightMax : ℕ := 1000

def hotWeightMax : ℕ := 1000000

def sectorBytes : ℕ := 512

def sectorsPerChunk : ℕ := 2 ^ 21

def bitsPerWord : ℕ := 64

def claimMagic : ℕ := 0x49534348434c4149

def evictionMagic : ℕ := 0x4953434845564943

def leaseMagic : ℕ := 0x495343484c454153

/-! ### Enumerations -/

inductive Mode
  | unset | backed | remoteOnly
  deriving DecidableEq

inductive ActivityKind
  | unset | read | write
  deriving DecidableEq

inductive IoDirection
  | unset | read | write
  deriving DecidableEq

inductive IoOutcome
  | unset | success | failure | cancelled | submissionFailure
  deriving DecidableEq

inductive IoResolveResult
  | none | current | stale
  deriving DecidableEq

inductive InvariantEvent
  | none | leaseReleaseBeforeResolve | leaseDuplicateResolve | leaseDuplicateRelease
  | evictionFinishActiveLeases | moduleDuplicateQuiesce | moduleDestroyActive
  deriving DecidableEq

inductive MappingPool
  | unset | opportunistic | committed
  deriving DecidableEq

inductive MappingFinishAction
  | unset | commit | abort
  deriving DecidableEq

inductive MappingTerminalAction
  | none | commit | abort | providerFailure
  deriving DecidableEq

inductive ProviderExclusion
  | none | unhealthy | identity | version | capability | pool | rail | zeroCapacity
  deriving DecidableEq

inductive ChunkState
  | unmapped | mapping | mapped | evicting
  deriving DecidableEq

/-! ### Handles, policies and observations -/

/-- The stable identity of one Memory Provider connection epoch. -/
structure ProviderHandle where
  word0 : ℕ := 0
  word1 : ℕ := 0
  deriving DecidableEq

def ProviderHandle.wellFormed (h : ProviderHandle) : Bool := h.word0 != 0 && h.word1 != 0

structure HotPolicy where
  threshold : ℕ
  readWeight : ℕ
  writeWeight : ℕ
  deriving DecidableEq

def HotPolicy.valid (p : HotPolicy) : Bool :=
  p.threshold != 0 && p.threshold ≤ activityMax &&
    p.readWeight != 0 && p.readWeight ≤ hotWeightMax &&
    p.writeWeight != 0 && p.writeWeight ≤ hotWeightMax

structure ProviderConfig where
  identifier : String
  placementWeight : ℕ
  deriving DecidableEq

structure Config where
  mode : Mode
  chunkCount : ℕ
  hotPolicy : HotPolicy
  providers : List ProviderConfig
  placementSampleSize : ℕ
  placementSeed : ℕ
  deriving DecidableEq

structure ProviderObservation where
  sequence : ℕ
  availableChunks : ℕ
  exclusion : ProviderExclusion
  placementEligible : Bool
  deriving DecidableEq

structure ProviderFailureFacts where
  affectedChunks : ℕ := 0
  assignedChunks : ℕ := 0
  usableChunks : ℕ := 0
  mappingChunks : ℕ := 0
  evictingChunks : ℕ := 0
  activeIoLeases : ℕ := 0
  deriving DecidableEq

/-! ### Chunks and Providers -/

/-- One logical Remote Chunk. -/
structure Chunk where
  state : ChunkState := .unmapped
  provider : ProviderHandle := {}
  providerChunk : ℕ := 0
  remoteAddress : ℕ := 0
  remoteKey : ℕ := 0
  activity : ℕ := 0
  mappingGeneration : ℕ := 0
  mappingClaimId : ℕ := 0
  evictionClaimId : ℕ := 0
  transitionGeneration : ℕ := 0
  activeIoLeases : ℕ := 0
  deriving DecidableEq

/-- A chunk that holds Provider capacity: mapped, or mapped and being evicted. -/
def Chunk.assigned (c : Chunk) : Prop := c.state = .mapped ∨ c.state = .evicting

instance (c : Chunk) : Decidable c.assigned := inferInstanceAs (Decidable (_ ∨ _))

/-- Where a chunk is placed. -/
def Chunk.place (c : Chunk) : ProviderHandle × ℕ × ℕ × ℕ :=
  (c.provider, c.providerChunk, c.remoteAddress, c.remoteKey)

/-- One roster entry. -/
structure Provider where
  handle : ProviderHandle := {}
  failureFacts : ProviderFailureFacts := {}
  identifier : String := ""
  placementWeight : ℕ := 0
  reportedAvailableChunks : ℕ := 0
  observationAssignedChunks : ℕ := 0
  observationDebitedChunks : ℕ := 0
  observationSequence : ℕ := 0
  exclusion : ProviderExclusion := .none
  placementEligible : Bool := false
  hasObservation : Bool := false
  failed : Bool := false
  deriving DecidableEq

/-! ### Caller-held claims and leases, decoded -/

structure MappingClaim where
  magic : ℕ := 0
  moduleIdentity : ℕ := 0
  provider : ProviderHandle := {}
  claimId : ℕ := 0
  transitionGeneration : ℕ := 0
  batchDigest : ℕ := 0
  chunkCount : ℕ := 0
  capacityDebit : ℕ := 0
  deriving DecidableEq

structure EvictionClaim where
  magic : ℕ := 0
  moduleIdentity : ℕ := 0
  provider : ProviderHandle := {}
  claimId : ℕ := 0
  transitionGeneration : ℕ := 0
  batchDigest : ℕ := 0
  chunkCount : ℕ := 0
  deriving DecidableEq

/-- An I/O lease. Bit 0 of `state` is `RESOLVED`, bit 1 is `RELEASED`. -/
structure IoLease where
  magic : ℕ := 0
  moduleIdentity : ℕ := 0
  storageIdentity : ℕ := 0
  leaseId : ℕ := 0
  mappingGeneration : ℕ := 0
  sector : ℕ := 0
  sectorCount : ℕ := 0
  logicalChunk : ℕ := 0
  direction : IoDirection := .unset
  state : ℕ := 0
  deriving DecidableEq

def IoLease.resolved (l : IoLease) : Bool := l.state.testBit 0

def IoLease.released (l : IoLease) : Bool := l.state.testBit 1

theorem IoLease.resolved_of_state {l : IoLease} {n : ℕ} (h : l.state = n) : l.resolved = n.testBit 0 := by
  rw [resolved, h]

theorem IoLease.released_of_state {l : IoLease} {n : ℕ} (h : l.state = n) : l.released = n.testBit 1 := by
  rw [released, h]

theorem IoLease.released_or (l : IoLease) (n : ℕ) :
    IoLease.released { l with state := l.state ||| n } = (l.released || n.testBit 1) := Nat.testBit_or ..

structure IoRequest where
  direction : IoDirection
  sector : ℕ
  bytes : ℕ
  deriving DecidableEq

/-- The transport mapping captured for the lifetime of an accepted lease. -/
structure TransportMapping where
  provider : ProviderHandle := {}
  remoteAddress : ℕ := 0
  remoteKey : ℕ := 0
  providerChunk : ℕ := 0
  logicalChunk : ℕ := 0
  deriving DecidableEq

structure MappingGrant where
  logicalChunk : ℕ
  providerChunk : ℕ
  remoteAddress : ℕ
  remoteKey : ℕ
  deriving DecidableEq

/-- The `grants`, `grant_count` argument pair: a null pointer with any count, or an array. -/
inductive GrantArg
  | null (count : ℕ)
  | array (grants : List MappingGrant)
  deriving DecidableEq

def GrantArg.count : GrantArg → ℕ
  | null n => n
  | array gs => gs.length

structure MappingRequest where
  provider : ProviderHandle
  pool : MappingPool
  logicalChunk : ℕ
  claim : MappingClaim
  deriving DecidableEq

/-! ### The module -/

/-- `struct is_remote_chunk_module`. The lock is implicit: every operation is
one locked section. -/
structure ChunkModule where
  chunks : ℕ → Chunk
  providers : ℕ → Provider
  validSectors : Bitmap bitsPerWord
  mode : Mode
  chunkCount : ℕ
  providerCount : ℕ
  placementSampleSize : ℕ
  placementSeed : ℕ
  placementRngState : ℕ
  hotPolicy : HotPolicy
  identity : ℕ
  nextMappingClaimId : ℕ := 0
  nextEvictionClaimId : ℕ := 0
  nextTransitionGeneration : ℕ := 0
  nextMappingGeneration : ℕ := 0
  nextIoLeaseId : ℕ := 0
  invariantCount : ℕ := 0
  activeMappingClaim : MappingClaim := {}
  lastMappingTerminalClaim : MappingClaim := {}
  lastMappingTerminalAction : MappingTerminalAction := .none
  latestInvariant : InvariantEvent := .none
  activeMappingClaims : ℕ := 0
  activeEvictionClaims : ℕ := 0
  activeEvictionWaits : ℕ := 0
  activeIoLeases : ℕ := 0
  assignedChunks : ℕ := 0
  usableChunks : ℕ := 0
  quiescing : Bool := false

namespace ChunkModule

variable (m : ChunkModule)

/-- Sector `s` of the device is marked valid in Remote Chunk memory. -/
def sectorValid (s : ℕ) : Bool := m.validSectors.get s

/-- `is_remote_chunk_validity_update` on the module's bitmap. -/
def validityUpdate (firstSector sectorCount : ℕ) (valid : Bool) : ChunkModule :=
  { m with validSectors := m.validSectors.updateRange firstSector sectorCount valid }

/-- `is_remote_chunk_validity_test` on the module's bitmap. -/
def validityTest (firstSector sectorCount : ℕ) : Bool :=
  m.validSectors.testRange firstSector sectorCount

theorem sectorValid_validityUpdate (first count : ℕ) (b : Bool) (s : ℕ) :
    (m.validityUpdate first count b).sectorValid s =
      if first ≤ s ∧ s < first + count then b else m.sectorValid s :=
  Bitmap.get_updateRange (by decide) _ _ _ _ _

theorem sectorValid_of_updated (m' : ChunkModule) {first count : ℕ} {b : Bool}
    (h : m'.validSectors = m.validSectors.updateRange first count b) (s : ℕ) :
    m'.sectorValid s = if first ≤ s ∧ s < first + count then b else m.sectorValid s := by
  rw [sectorValid, h]
  exact sectorValid_validityUpdate m first count b s

theorem validityTest_iff (first count : ℕ) :
    m.validityTest first count = true ↔ ∀ s, first ≤ s → s < first + count → m.sectorValid s = true :=
  Bitmap.testRange_iff (by decide) _ _ _

/-- `is_remote_chunk_note_invariant_locked`. -/
def noteInvariant (event : InvariantEvent) : ChunkModule :=
  { m with
    invariantCount := if m.invariantCount ≠ idMax then m.invariantCount + 1 else m.invariantCount
    latestInvariant := event }

/-! ### Roster lookup -/

/-- `is_remote_chunk_provider_roster_index_locked`; `none` is `-ESTALE`. -/
def providerRosterIndex (provider : ProviderHandle) : Option ℕ :=
  (List.range m.providerCount).find? fun i => (m.providers i).handle = provider

/-- `is_remote_chunk_provider_index_locked`: a failed Provider is stale too. -/
def providerIndex (provider : ProviderHandle) : Option ℕ :=
  match m.providerRosterIndex provider with
  | none => none
  | some i => if (m.providers i).failed then none else some i

def providerValid (provider : ProviderHandle) : Bool := (m.providerIndex provider).isSome

theorem providerRosterIndex_some {i : ℕ} (h : m.providerRosterIndex provider = some i) :
    i < m.providerCount ∧ (m.providers i).handle = provider := by
  obtain ⟨hp, hi, -⟩ := List.find?_range_eq_some.mp h
  exact ⟨List.mem_range.mp hi, by simpa using hp⟩

theorem providerRosterIndex_none (h : m.providerRosterIndex provider = none) :
    ∀ i < m.providerCount, (m.providers i).handle ≠ provider := by
  intro i hi
  simpa using List.find?_eq_none.mp h i (List.mem_range.mpr hi)

theorem providerIndex_some {i : ℕ} (h : m.providerIndex provider = some i) :
    m.providerRosterIndex provider = some i ∧ (m.providers i).failed = false := by
  unfold providerIndex at h
  cases hr : m.providerRosterIndex provider with
  | none => simp [hr] at h
  | some j =>
    simp only [hr] at h
    split at h
    · cases h
    · rename_i hf
      cases h
      exact ⟨rfl, Bool.eq_false_iff.mpr hf⟩

theorem providerValid_iff :
    m.providerValid provider = true ↔
      ∃ i, m.providerRosterIndex provider = some i ∧ (m.providers i).failed = false := by
  constructor
  · intro h
    obtain ⟨i, hi⟩ := Option.isSome_iff_exists.mp h
    exact ⟨i, m.providerIndex_some hi⟩
  · rintro ⟨i, hi, hf⟩
    simp [providerValid, providerIndex, hi, hf]

end ChunkModule
end RemoteChunk
end Infiniswap
