/-
# Eviction, Provider failure and I/O leases

Eviction closes lease admission for a batch of a Provider's chunks, waits for
the leases on them to drain and resets the chunks; the failure of a Provider
epoch resets every chunk it holds at once. I/O leases pin a chunk's mapping
for one transfer and carry the sector-validity protocol: a write clears its
sectors when it is leased and sets them when it resolves with success under
the mapping generation it was leased on.

An eviction wait gives up the lock while it sleeps, so it is two operations:
`evictionWaitBegin` up to the first sleep and `evictionWaitResume` for each
later pass of its loop.
-/
import Infiniswap.RemoteChunk.Mapping

namespace Infiniswap
namespace RemoteChunk

structure ProviderActivity where
  providerChunk : ℕ
  activity : ℕ
  deriving DecidableEq

inductive ProviderFailureResult
  | applied | duplicate | staleEpoch | invalid | exhausted
  deriving DecidableEq

/-- A pass of the wait loop ends the wait or goes on sleeping. -/
inductive WaitResult
  | done (status : Except Errno Unit)
  | waiting
  deriving DecidableEq

namespace ChunkModule

variable (m : ChunkModule)

/-! ### Eviction claims -/

def evictionMember (c : EvictionClaim) (i : ℕ) : Prop :=
  (m.chunks i).state = .evicting ∧ (m.chunks i).transitionGeneration = c.transitionGeneration ∧
    (m.chunks i).provider = c.provider

instance (c : EvictionClaim) (i : ℕ) : Decidable (m.evictionMember c i) :=
  inferInstanceAs (Decidable (_ ∧ _))

/-- `is_remote_chunk_eviction_claim_validate_locked`. -/
def evictionClaimValidate (c : EvictionClaim) : Except Errno Unit :=
  let named := fun i => (m.chunks i).evictionClaimId = c.claimId
  if c.magic ≠ evictionMagic ∨ c.claimId = 0 ∨ c.transitionGeneration = 0 ∨ c.chunkCount = 0 then
    .error .einval
  else if c.moduleIdentity ≠ m.identity then .error .estale
  else if !m.providerValid c.provider then .error .estale
  else if c.chunkCount > m.chunkCount then .error .einval
  else if ∃ i < m.chunkCount, named i ∧ ¬ m.evictionMember c i then .error .estale
  else if Nat.count named m.chunkCount ≠ c.chunkCount ∨
      batchDigest (fun i => named i) m.chunkCount ≠ c.batchDigest then .error .estale
  else .ok ()

/-- `is_remote_chunk_find_provider_chunk_locked`; `none` is `-ENOENT`. -/
def findProviderChunk (provider : ProviderHandle) (providerChunk : ℕ) (requireUsable : Bool) : Option ℕ :=
  (List.range m.chunkCount).find? fun i =>
    (m.chunks i).assigned && (!requireUsable || (m.chunks i).state = .mapped) &&
      (m.chunks i).providerChunk = providerChunk && (m.chunks i).provider = provider

/-- The lookup loop of `is_remote_chunk_provider_activity_query`. -/
def queryChunks (provider : ProviderHandle) : List ℕ → List ℕ → Except Errno (List ProviderActivity)
  | _, [] => .ok []
  | previous, pc :: pcs =>
    if pc ∈ previous then .error .einval
    else match m.findProviderChunk provider pc false with
      | none => .error .enoent
      | some i => match queryChunks provider (previous ++ [pc]) pcs with
        | .error e => .error e
        | .ok rest => .ok (⟨pc, (m.chunks i).activity⟩ :: rest)

/-- `is_remote_chunk_provider_activity_query`. -/
def providerActivityQuery (provider : ProviderHandle) (providerChunks : List ℕ) :
    Except Errno (List ProviderActivity) :=
  if providerChunks = [] ∨ providerChunks.length > m.chunkCount then .error .einval
  else if m.mode ≠ .backed then .error .eopnotsupp
  else if !m.providerValid provider then .error .estale
  else m.queryChunks provider [] providerChunks

/-- The selection loop of `is_remote_chunk_eviction_begin`: the logical chunks of the batch. -/
def selectChunks (provider : ProviderHandle) : List ℕ → List ℕ → Except Errno (List ℕ)
  | selected, [] => .ok selected
  | selected, pc :: pcs =>
    match m.findProviderChunk provider pc true with
    | none => .error .enoent
    | some i => if i ∈ selected then .error .einval else selectChunks provider (i :: selected) pcs

/-- The claim `is_remote_chunk_eviction_begin` builds for the selected chunks. -/
def newEvictionClaim (provider : ProviderHandle) (selected : List ℕ) (chunkCount : ℕ) : EvictionClaim :=
  { magic := evictionMagic
    moduleIdentity := m.identity
    provider := provider
    claimId := m.nextEvictionClaimId + 1
    transitionGeneration := m.nextTransitionGeneration + 1
    batchDigest := batchDigest (fun i => i ∈ selected) m.chunkCount
    chunkCount := chunkCount }

/-- Marks the selected chunks as evicting under the claim. -/
def evictChunks (c : EvictionClaim) (selected : List ℕ) : ChunkModule :=
  { m with chunks := fun i =>
      if i < m.chunkCount ∧ i ∈ selected then
        { m.chunks i with
          state := .evicting
          evictionClaimId := c.claimId
          transitionGeneration := c.transitionGeneration }
      else m.chunks i }

/-- The state after eviction of the selected chunks began. -/
def beginEviction (provider : ProviderHandle) (selected : List ℕ) (chunkCount : ℕ) : ChunkModule :=
  { (m.mappingTerminalSupersede.evictChunks (m.newEvictionClaim provider selected chunkCount) selected) with
    nextEvictionClaimId := m.nextEvictionClaimId + 1
    nextTransitionGeneration := m.nextTransitionGeneration + 1
    usableChunks := m.usableChunks - chunkCount
    activeEvictionClaims := m.activeEvictionClaims + 1 }

/-- `is_remote_chunk_eviction_begin`; `claimOut` is what the claim storage holds before the call. -/
def evictionBegin (provider : ProviderHandle) (providerChunks : List ℕ) (claimOut : EvictionClaim) :
    Except Errno (EvictionClaim × ChunkModule) :=
  let chunkCount := providerChunks.length
  if providerChunks = [] ∨ chunkCount > m.chunkCount then .error .einval
  else if m.mode ≠ .backed then .error .eopnotsupp
  else if m.quiescing then .error .eshutdown
  else if !m.providerValid provider then .error .estale
  else if m.evictionClaimValidate claimOut = .ok () then .error .ebusy
  else match m.selectChunks provider [] providerChunks with
    | .error e => .error e
    | .ok selected =>
      if m.nextEvictionClaimId = idMax ∨ m.nextTransitionGeneration = idMax ∨
          m.usableChunks < chunkCount ∨ m.activeEvictionClaims = u32Max then .error .eoverflow
      else .ok (m.newEvictionClaim provider selected chunkCount,
        m.beginEviction provider selected chunkCount)

/-- `is_remote_chunk_eviction_drained_locked`. -/
def evictionDrained (c : EvictionClaim) : Bool :=
  decide (∀ i < m.chunkCount, (m.chunks i).evictionClaimId = c.claimId → (m.chunks i).activeIoLeases = 0)

/-- One pass of the wait loop at time `now`. -/
def evictionWaitCheck (c : EvictionClaim) (deadline now : ℕ) : WaitResult :=
  match m.evictionClaimValidate c with
  | .error e => .done (.error e)
  | .ok () =>
    if m.evictionDrained c then .done (.ok ())
    else if now = idMax then .done (.error .eio)
    else if now ≥ deadline then .done (.error .etimedout)
    else .waiting

/-- The module with `n` waits counted. -/
def setEvictionWaits (n : ℕ) : ChunkModule := { m with activeEvictionWaits := n }

/-- A pass of the wait loop by a waiter already counted; a finished wait is no longer counted. -/
def evictionWaitResume (c : EvictionClaim) (deadline now : ℕ) : WaitResult × ChunkModule :=
  match m.evictionWaitCheck c deadline now with
  | .done status => (.done status, m.setEvictionWaits (m.activeEvictionWaits - 1))
  | .waiting => (.waiting, m)

/-- `is_remote_chunk_eviction_wait` up to its first sleep. -/
def evictionWaitBegin (c : EvictionClaim) (deadline now : ℕ) : WaitResult × ChunkModule :=
  if deadline = 0 then (.done (.error .einval), m)
  else match m.evictionClaimValidate c with
    | .error e => (.done (.error e), m)
    | .ok () =>
      if m.activeEvictionWaits = u32Max then (.done (.error .eoverflow), m)
      else (m.setEvictionWaits (m.activeEvictionWaits + 1)).evictionWaitResume c deadline now

/-! ### Resetting mappings -/

/-- A chunk cleared of its mapping, under a new mapping generation. -/
def resetChunk (generation : ℕ) (resetActivity : Bool) (c : Chunk) : Chunk :=
  { c with
    mappingGeneration := generation
    provider := {}
    providerChunk := 0
    remoteAddress := 0
    remoteKey := 0
    mappingClaimId := 0
    evictionClaimId := 0
    transitionGeneration := 0
    activity := if resetActivity then 0 else c.activity
    state := .unmapped }

/-- `is_remote_chunk_reset_mapping_locked`. -/
def resetMapping (logicalChunk : ℕ) (resetActivity : Bool) : ChunkModule :=
  { m with
    chunks := fun i =>
      if i = logicalChunk then
        resetChunk (m.nextMappingGeneration + 1) resetActivity (m.chunks logicalChunk)
      else m.chunks i
    validSectors := m.validSectors.updateRange (logicalChunk * sectorsPerChunk) sectorsPerChunk false
    nextMappingGeneration := m.nextMappingGeneration + 1 }

/-- The reset loop over the first `n` chunks: those that satisfy `p` are reset in index order. -/
def resetWhere (p : Chunk → Prop) [DecidablePred p] (resetActivity : Bool) : ℕ → ChunkModule
  | 0 => m
  | n + 1 =>
    let m := resetWhere p resetActivity n
    if p (m.chunks n) then m.resetMapping n resetActivity else m

/-- The state after the eviction was finished. -/
def finishEviction (c : EvictionClaim) : ChunkModule :=
  { (m.resetWhere (fun chunk => chunk.evictionClaimId = c.claimId) true m.chunkCount) with
    assignedChunks := m.assignedChunks - c.chunkCount
    activeEvictionClaims := m.activeEvictionClaims - 1 }

/-- `is_remote_chunk_eviction_finish`. -/
def evictionFinish (c : EvictionClaim) : Except Errno Unit × ChunkModule :=
  match m.evictionClaimValidate c with
  | .error e => (.error e, m)
  | .ok () =>
    if !m.evictionDrained c then (.error .ebusy, m.noteInvariant .evictionFinishActiveLeases)
    else if m.nextMappingGeneration > idMax - c.chunkCount ∨ m.assignedChunks < c.chunkCount ∨
        m.activeEvictionClaims = 0 then (.error .eoverflow, m)
    else (.ok (), m.finishEviction c)

/-! ### Provider failure -/

/-- The chunk holds capacity or a reservation on the Provider. -/
def held (provider : ProviderHandle) (c : Chunk) : Prop := c.state ≠ .unmapped ∧ c.provider = provider

instance (provider : ProviderHandle) : DecidablePred (held provider) :=
  fun c => inferInstanceAs (Decidable (c.state ≠ .unmapped ∧ c.provider = provider))

/-- What the counting loop of `is_remote_chunk_provider_failed` finds, the lease
sum in `unsigned int` arithmetic. -/
def failureFacts (provider : ProviderHandle) : ProviderFailureFacts :=
  let counted := fun (p : Chunk → Bool) =>
    Nat.count (fun i => held provider (m.chunks i) ∧ p (m.chunks i)) m.chunkCount
  { affectedChunks := counted fun _ => true
    assignedChunks := counted fun c => c.assigned
    usableChunks := counted fun c => c.state = .mapped
    mappingChunks := counted fun c => c.state = .mapping
    evictingChunks := counted fun c => c.state = .evicting
    activeIoLeases := (∑ i ∈ Finset.range m.chunkCount,
      if held provider (m.chunks i) then (m.chunks i).activeIoLeases else 0) % 2 ^ 32 }

/-- Mapping claims of the Provider: its mapping chunks whose claim id no earlier chunk carries. -/
def failedMappingClaims (provider : ProviderHandle) : ℕ :=
  Nat.count (fun i => (held provider (m.chunks i) ∧ (m.chunks i).state = .mapping) ∧
    ∀ j < i, (m.chunks j).mappingClaimId ≠ (m.chunks i).mappingClaimId) m.chunkCount

/-- Eviction claims of the Provider, counted the same way. -/
def failedEvictionClaims (provider : ProviderHandle) : ℕ :=
  Nat.count (fun i => (held provider (m.chunks i) ∧ (m.chunks i).state = .evicting) ∧
    ∀ j < i, (m.chunks j).evictionClaimId ≠ (m.chunks i).evictionClaimId) m.chunkCount

/-- The defensive guard of `is_remote_chunk_provider_failed`. -/
def failureExhausted (provider : ProviderHandle) : Prop :=
  m.nextMappingGeneration > idMax - (m.failureFacts provider).affectedChunks ∨
    m.assignedChunks < (m.failureFacts provider).assignedChunks ∨
    m.usableChunks < (m.failureFacts provider).usableChunks ∨
    m.activeMappingClaims < m.failedMappingClaims provider ∨
    m.activeEvictionClaims < m.failedEvictionClaims provider ∨
    m.nextTransitionGeneration = idMax ∨
    (m.failedMappingClaims provider ≠ 0 ∧
      (m.activeMappingClaim.wellFormed = false ∨ m.activeMappingClaim.provider ≠ provider))

instance (provider : ProviderHandle) : Decidable (m.failureExhausted provider) :=
  inferInstanceAs (Decidable (_ ∨ _))

/-- The module with the active claim recorded as ended by a Provider failure, if the Provider held it. -/
def failRecord (provider : ProviderHandle) : ChunkModule :=
  if m.failedMappingClaims provider ≠ 0 then m.mappingTerminalRecord m.activeMappingClaim .providerFailure
  else m

/-- The transition of a Provider failure that passed the guard. -/
def failProvider (provider : ProviderHandle) (index : ℕ) : ChunkModule :=
  { (((m.failRecord provider).resetWhere (held provider) false m.chunkCount).setProvider index
      { m.providers index with
        failed := true
        placementEligible := false
        exclusion := .unhealthy
        failureFacts := m.failureFacts provider }) with
    nextTransitionGeneration := m.nextTransitionGeneration + 1
    assignedChunks := m.assignedChunks - (m.failureFacts provider).assignedChunks
    usableChunks := m.usableChunks - (m.failureFacts provider).usableChunks
    activeMappingClaims := m.activeMappingClaims - m.failedMappingClaims provider
    activeEvictionClaims := m.activeEvictionClaims - m.failedEvictionClaims provider }

/-- `is_remote_chunk_provider_failed`. -/
def providerFailed (provider : ProviderHandle) :
    ProviderFailureResult × ProviderFailureFacts × ChunkModule :=
  if !provider.wellFormed then (.invalid, {}, m)
  else match m.providerRosterIndex provider with
    | none => (.staleEpoch, {}, m)
    | some index =>
      if (m.providers index).failed then (.duplicate, (m.providers index).failureFacts, m)
      else if m.failureExhausted provider then (.exhausted, {}, m)
      else (.applied, m.failureFacts provider, m.failProvider provider index)

/-! ### I/O leases -/

/-- `is_remote_chunk_lease_validate_locked` for lease storage at address `storage`. -/
def leaseValidate (storage : ℕ) (l : IoLease) : Except Errno Unit :=
  if l.magic ≠ leaseMagic ∨ l.leaseId = 0 ∨ l.mappingGeneration = 0 ∨ l.sectorCount = 0 ∨
      l.storageIdentity ≠ storage then .error .einval
  else if l.moduleIdentity ≠ m.identity then .error .estale
  else if l.leaseId > m.nextIoLeaseId ∨ l.mappingGeneration > m.nextMappingGeneration ∨
      l.logicalChunk ≥ m.chunkCount ∨ l.sector / sectorsPerChunk ≠ l.logicalChunk ∨
      l.sectorCount > sectorsPerChunk - l.sector % sectorsPerChunk ∨
      (l.direction ≠ .read ∧ l.direction ≠ .write) ∨ l.state ≥ 4 ∨
      (l.released ∧ !l.resolved) then .error .einval
  else .ok ()

/-- The lease `is_remote_chunk_io_lease_acquire` writes to the storage. -/
def newIoLease (request : IoRequest) (storage : ℕ) (logicalChunk : ℕ) : IoLease :=
  { magic := leaseMagic
    moduleIdentity := m.identity
    storageIdentity := storage
    leaseId := m.nextIoLeaseId + 1
    mappingGeneration := (m.chunks logicalChunk).mappingGeneration
    sector := request.sector
    sectorCount := request.bytes / sectorBytes
    logicalChunk := logicalChunk
    direction := request.direction
    state := 0 }

/-- The transport mapping of a chunk for an access at `sector`. -/
def transportMapping (sector logicalChunk : ℕ) : TransportMapping :=
  let chunk := m.chunks logicalChunk
  { provider := chunk.provider
    remoteAddress := (chunk.remoteAddress + sector % sectorsPerChunk * sectorBytes) % 2 ^ 64
    remoteKey := chunk.remoteKey
    providerChunk := chunk.providerChunk
    logicalChunk := logicalChunk }

/-- Counts one more lease on a chunk and clears the validity a write is about to overwrite. -/
def grantLease (request : IoRequest) (logicalChunk : ℕ) : ChunkModule :=
  { m with
    chunks := fun i =>
      if i = logicalChunk then
        { m.chunks logicalChunk with activeIoLeases := (m.chunks logicalChunk).activeIoLeases + 1 }
      else m.chunks i
    validSectors :=
      if request.direction = .write then
        m.validSectors.updateRange request.sector (request.bytes / sectorBytes) false
      else m.validSectors
    nextIoLeaseId := m.nextIoLeaseId + 1
    activeIoLeases := m.activeIoLeases + 1 }

/-- The argument checks of `is_remote_chunk_io_lease_acquire`: the logical
chunk, in the `unsigned int` of the source, that holds the whole request. -/
def requestChunk (request : IoRequest) : Except Errno ℕ :=
  if (request.direction ≠ .read ∧ request.direction ≠ .write) ∨ request.bytes = 0 ∨
      request.bytes % sectorBytes ≠ 0 then .error .einval
  else
    let sectorCount := request.bytes / sectorBytes
    if request.sector > idMax - (sectorCount - 1) then .error .erange
    else
      let lastSector := request.sector + sectorCount - 1
      let logicalChunk := request.sector / sectorsPerChunk % 2 ^ 32
      if logicalChunk ≥ m.chunkCount ∨ lastSector / sectorsPerChunk ≠ logicalChunk then .error .erange
      else .ok logicalChunk

/-- `is_remote_chunk_io_lease_acquire`; `previous` is what the lease storage holds before the call. -/
def ioLeaseAcquire (request : IoRequest) (storage : ℕ) (previous : IoLease) :
    Except Errno (IoLease × TransportMapping × ChunkModule) :=
  match m.requestChunk request with
  | .error e => .error e
  | .ok logicalChunk =>
    let chunk := m.chunks logicalChunk
    if m.quiescing then .error .eshutdown
    else if previous.magic ≠ 0 ∧ previous.magic ≠ leaseMagic then .error .einval
    else if previous.magic = leaseMagic ∧ previous.storageIdentity ≠ storage then .error .einval
    else if previous.magic = leaseMagic then .error (if previous.released then .ealready else .ebusy)
    else if chunk.state ≠ .mapped then .error .enxio
    else if request.direction = .read ∧ !m.validityTest request.sector (request.bytes / sectorBytes) then
      .error .enodata
    else if m.nextIoLeaseId = idMax ∨ m.activeIoLeases = u32Max ∨ chunk.activeIoLeases = u32Max then
      .error .eoverflow
    else .ok (m.newIoLease request storage logicalChunk, m.transportMapping request.sector logicalChunk,
      m.grantLease request logicalChunk)

/-- The validity a resolved lease leaves: a write under its current mapping
generation marks its sectors by its outcome. -/
def resolveValidity (l : IoLease) (outcome : IoOutcome) : ChunkModule :=
  if (m.chunks l.logicalChunk).mappingGeneration = l.mappingGeneration ∧ l.direction = .write then
    m.validityUpdate l.sector l.sectorCount (outcome = .success)
  else m

/-- `is_remote_chunk_io_lease_resolve` on the lease stored at `storage`. -/
def ioLeaseResolve (storage : ℕ) (l : IoLease) (outcome : IoOutcome) :
    Except Errno IoResolveResult × IoLease × ChunkModule :=
  if outcome = .unset then (.error .einval, l, m)
  else match m.leaseValidate storage l with
    | .error e => (.error e, l, m)
    | .ok () =>
      if l.resolved then (.error .ealready, l, m.noteInvariant .leaseDuplicateResolve)
      else
        let current := (m.chunks l.logicalChunk).mappingGeneration = l.mappingGeneration
        (.ok (if current then .current else .stale), { l with state := l.state ||| 1 },
          m.resolveValidity l outcome)

/-- Counts one lease less on a chunk. -/
def dropLease (logicalChunk : ℕ) : ChunkModule :=
  { (m.setChunk logicalChunk
      { m.chunks logicalChunk with activeIoLeases := (m.chunks logicalChunk).activeIoLeases - 1 }) with
    activeIoLeases := m.activeIoLeases - 1 }

/-- `is_remote_chunk_io_lease_release` on the lease stored at `storage`. -/
def ioLeaseRelease (storage : ℕ) (l : IoLease) : Except Errno Unit × IoLease × ChunkModule :=
  match m.leaseValidate storage l with
  | .error e => (.error e, l, m)
  | .ok () =>
    if l.released then (.error .ealready, l, m.noteInvariant .leaseDuplicateRelease)
    else if !l.resolved then (.error .eperm, l, m.noteInvariant .leaseReleaseBeforeResolve)
    else if (m.chunks l.logicalChunk).activeIoLeases = 0 ∨ m.activeIoLeases = 0 then
      (.error .einval, l, m)
    else (.ok (), { l with state := l.state ||| 2 }, m.dropLease l.logicalChunk)

end ChunkModule
end RemoteChunk
end Infiniswap
