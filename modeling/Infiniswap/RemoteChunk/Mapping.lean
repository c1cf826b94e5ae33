/-
# Placing and mapping Remote Chunks

Mapping claims, Provider placement and the two ends of a mapping:
`is_remote_chunk_next_mapping` reserves one logical chunk on a chosen Provider
under a claim, `is_remote_chunk_mapping_finish` commits the claim with the
Provider's grants or aborts it.

Placement draws from the module's seeded generator, or from the kernel's when
no seed is configured; `draws k` is the value of the kernel's `k`-th accepted draw.
-/
import Infiniswap.RemoteChunk.Lifecycle

namespace Infiniswap
namespace RemoteChunk

def digestOffset : ℕ := 1469598103934665603

def digestPrime : ℕ := 1099511628211

/-- `is_remote_chunk_batch_digest`, in 64-bit arithmetic. -/
def batchDigest (selected : ℕ → Bool) : ℕ → ℕ
  | 0 => digestOffset
  | n + 1 =>
    let digest := batchDigest selected n
    if selected n then ((digest ^^^ (n + 1)) * digestPrime) % 2 ^ 64 else digest

theorem batchDigest_congr {selected selected' : ℕ → Bool} :
    ∀ {n : ℕ}, (∀ i < n, selected i = selected' i) → batchDigest selected n = batchDigest selected' n
  | 0, _ => rfl
  | n + 1, h => by
    unfold batchDigest
    rw [batchDigest_congr fun i hi => h i (by omega), h n (by omega)]

/-- `is_remote_chunk_mapping_claim_well_formed`. -/
def MappingClaim.wellFormed (c : MappingClaim) : Bool :=
  c.magic == claimMagic && c.moduleIdentity != 0 && c.provider.wellFormed && c.claimId != 0 &&
    c.transitionGeneration != 0 && c.chunkCount != 0 && c.capacityDebit == c.chunkCount

inductive NextMappingResult
  | request | noHotRange | pendingProviderFacts | noEligibleCapacity | insufficientCapacity | complete
  | claimActive | shutdown | invalidInput
  deriving DecidableEq

inductive MappingFinishResult
  | committed | aborted | duplicate | stale | conflict | invalid | invalidGrant | exhausted | shutdown
  deriving DecidableEq

namespace ChunkModule

variable (m : ChunkModule)

/-- Replaces chunk `i`. -/
def setChunk (i : ℕ) (c : Chunk) : ChunkModule :=
  { m with chunks := fun j => if j = i then c else m.chunks j }

/-- The chunk belongs to the claim `(claimId, transitionGeneration, provider)` as a mapping chunk. -/
def mappingMember (c : MappingClaim) (i : ℕ) : Prop :=
  (m.chunks i).state = .mapping ∧ (m.chunks i).transitionGeneration = c.transitionGeneration ∧
    (m.chunks i).provider = c.provider

instance (c : MappingClaim) (i : ℕ) : Decidable (m.mappingMember c i) :=
  inferInstanceAs (Decidable (_ ∧ _))

/-- `is_remote_chunk_mapping_claim_active_locked`. -/
def mappingClaimActive (c : MappingClaim) : Bool :=
  let named := fun i => (m.chunks i).mappingClaimId = c.claimId
  c = m.activeMappingClaim && m.providerValid c.provider && c.chunkCount ≤ m.chunkCount &&
    decide (∀ i < m.chunkCount, named i → m.mappingMember c i) &&
    Nat.count named m.chunkCount == c.chunkCount &&
    batchDigest (fun i => named i) m.chunkCount == c.batchDigest

/-- `is_remote_chunk_mapping_terminal_supersede_locked`. -/
def mappingTerminalSupersede : ChunkModule :=
  { m with lastMappingTerminalClaim := {}, lastMappingTerminalAction := .none }

/-- `is_remote_chunk_mapping_terminal_record_locked`. -/
def mappingTerminalRecord (c : MappingClaim) (action : MappingTerminalAction) : ChunkModule :=
  { m with lastMappingTerminalClaim := c, lastMappingTerminalAction := action, activeMappingClaim := {} }

/-! ### Placement -/

/-- `is_remote_chunk_random_below_locked`: the value and the generator state after it. -/
def randomBelow (rng limit draw : ℕ) : ℕ × ℕ :=
  if limit = 0 then (0, rng)
  else if m.placementSeed = 0 then (draw % limit, rng)
  else
    let rng := (rng * 6364136223846793005 + 1) % 2 ^ 64
    ((rng >>> 33) % limit, rng)

/-- The first position of the candidates at which the running weight exceeds `pick`. -/
def weightedPosition (pick : ℕ) : List ℕ → ℕ → ℕ → Option ℕ
  | [], _, _ => none
  | c :: cs, cursor, index =>
    let cursor := cursor + (m.providers c).placementWeight
    if pick < cursor then some index else weightedPosition pick cs cursor (index + 1)

/-- Draws `k` more candidates without replacement, by weight. -/
def sampleProviders (draws : ℕ → ℕ) : ℕ → ℕ → List ℕ → List ℕ → List ℕ × ℕ
  | 0, rng, _, sampled => (sampled, rng)
  | k + 1, rng, candidates, sampled =>
    let totalWeight := (candidates.map fun c => (m.providers c).placementWeight).sum
    let (pick, rng) := m.randomBelow rng totalWeight (draws sampled.length)
    let selected := (m.weightedPosition pick candidates 0 0).getD 0
    let last := candidates.getD (candidates.length - 1) 0
    sampleProviders draws k rng (candidates.set selected last).dropLast
      (sampled ++ [candidates.getD selected 0])

/-- The better of two sampled candidates: more available chunks, then the lower roster index. -/
def betterCandidate (chosen candidate : ℕ) : ℕ :=
  let best := m.providerEffectiveAvailable (m.providers chosen)
  let available := m.providerEffectiveAvailable (m.providers candidate)
  if available > best ∨ (available = best ∧ candidate < chosen) then candidate else chosen

/-- `is_remote_chunk_choose_provider_locked` on the eligible roster indices. -/
def chooseProvider (draws : ℕ → ℕ) (eligible : List ℕ) : ℕ × ℕ :=
  let (sampled, rng) :=
    m.sampleProviders draws (min m.placementSampleSize eligible.length) m.placementRngState eligible []
  (sampled.tail.foldl m.betterCandidate (sampled.headD 0), rng)

/-! ### Reserving a chunk -/

/-- The claim `is_remote_chunk_mapping_claim_create_locked` builds for one chunk. -/
def newMappingClaim (provider : ProviderHandle) (logicalChunk : ℕ) : MappingClaim :=
  { magic := claimMagic
    moduleIdentity := m.identity
    provider := provider
    claimId := m.nextMappingClaimId + 1
    transitionGeneration := m.nextTransitionGeneration + 1
    batchDigest := batchDigest (fun i => i = logicalChunk) m.chunkCount
    chunkCount := 1
    capacityDebit := 1 }

/-- The state after the claim was created: chunk `logicalChunk` is reserved for it. -/
def reserveChunk (provider : ProviderHandle) (logicalChunk : ℕ) : ChunkModule :=
  let claim := m.newMappingClaim provider logicalChunk
  { (m.mappingTerminalSupersede.setChunk logicalChunk
      { m.chunks logicalChunk with
        state := .mapping
        provider := provider
        mappingClaimId := claim.claimId
        transitionGeneration := claim.transitionGeneration }) with
    nextMappingClaimId := m.nextMappingClaimId + 1
    nextTransitionGeneration := m.nextTransitionGeneration + 1
    activeMappingClaim := claim
    activeMappingClaims := m.activeMappingClaims + 1 }

/-- `is_remote_chunk_mapping_claim_create_locked`. -/
def mappingClaimCreate (provider : ProviderHandle) (logicalChunk : ℕ) :
    Except Errno (MappingClaim × ChunkModule) :=
  if m.quiescing then .error .eshutdown
  else if !m.providerValid provider then .error .estale
  else if m.activeMappingClaims ≠ 0 then .error .ebusy
  else if logicalChunk ≥ m.chunkCount then .error .erange
  else if (m.chunks logicalChunk).state ≠ .unmapped then .error .ebusy
  else if m.nextMappingClaimId = idMax ∨ m.nextTransitionGeneration = idMax then .error .eoverflow
  else .ok (m.newMappingClaim provider logicalChunk, m.reserveChunk provider logicalChunk)

/-- A chunk the next mapping may take: unmapped and, in Backed Mode, hot. -/
def mappingCandidate (remoteOnly : Bool) (i : ℕ) : Bool :=
  (m.chunks i).state = .unmapped && (remoteOnly || (m.chunks i).activity ≥ m.hotPolicy.threshold)

/-- The roster still lacks facts about a live Provider. -/
def providerPending (i : ℕ) : Bool := !(m.providers i).failed && !(m.providers i).hasObservation

/-- Roster indices with capacity to offer, in roster order. -/
def eligibleProviders : List ℕ :=
  (List.range m.providerCount).filter fun i =>
    !(m.providers i).failed && (m.providers i).hasObservation &&
      m.providerEffectiveAvailable (m.providers i) != 0

/-- The capacity live, observed Providers offer together. -/
def aggregateAvailable : ℕ :=
  ∑ i ∈ Finset.range m.providerCount,
    if !(m.providers i).failed && (m.providers i).hasObservation then
      m.providerEffectiveAvailable (m.providers i) else 0

/-- The module with the placement generator moved on. -/
def setPlacementRng (rng : ℕ) : ChunkModule := { m with placementRngState := rng }

/-- Chooses a Provider for the chunk and claims it; the generator has moved even
when the claim is refused. -/
def placeChunk (draws : ℕ → ℕ) (remoteOnly : Bool) (logicalChunk : ℕ) :
    NextMappingResult × Option MappingRequest × ChunkModule :=
  let choice := m.chooseProvider draws m.eligibleProviders
  let provider := (m.providers choice.1).handle
  match (m.setPlacementRng choice.2).mappingClaimCreate provider logicalChunk with
  | .error e =>
    (if e = .eshutdown then .shutdown else if e = .ebusy then .claimActive else .invalidInput, none,
      m.setPlacementRng choice.2)
  | .ok (claim, m') =>
    (.request,
      some ⟨provider, if remoteOnly then .committed else .opportunistic, logicalChunk, claim⟩, m')

/-- `is_remote_chunk_next_mapping`. -/
def nextMapping (draws : ℕ → ℕ) : NextMappingResult × Option MappingRequest × ChunkModule :=
  let remoteOnly := decide (m.mode = .remoteOnly)
  let pending := decide (∃ i < m.providerCount, m.providerPending i = true)
  if m.quiescing then (.shutdown, none, m)
  else if m.activeMappingClaims ≠ 0 then (.claimActive, none, m)
  else if remoteOnly && pending then (.pendingProviderFacts, none, m)
  else if remoteOnly && m.usableChunks == m.chunkCount then (.complete, none, m)
  else match (List.range m.chunkCount).find? (m.mappingCandidate remoteOnly) with
    | none => (if remoteOnly then .invalidInput else .noHotRange, none, m)
    | some logicalChunk =>
      if remoteOnly && m.assignedChunks == 0 && m.aggregateAvailable < m.chunkCount then
        (.insufficientCapacity, none, m)
      else if m.eligibleProviders = [] then
        (if pending then .pendingProviderFacts else .noEligibleCapacity, none, m)
      else m.placeChunk draws remoteOnly logicalChunk

/-! ### Finishing a mapping -/

/-- The per-grant checks of `is_remote_chunk_mapping_grants_shape_valid`;
`previous` are the grants already checked. -/
def grantsWellShaped (previous : List MappingGrant) : List MappingGrant → Bool
  | [] => true
  | g :: gs =>
    g.logicalChunk < m.chunkCount && g.remoteAddress != 0 && g.remoteKey != 0 &&
      g.remoteAddress ≤ idMax - (sectorsPerChunk * sectorBytes - 1) &&
      !(previous.any fun q => q.logicalChunk = g.logicalChunk) &&
      !(previous.any fun q => q.providerChunk = g.providerChunk) &&
      grantsWellShaped (previous ++ [g]) gs

/-- `is_remote_chunk_mapping_grants_shape_valid`. -/
def mappingGrantsShapeValid (c : MappingClaim) : GrantArg → Bool
  | .null _ => false
  | .array gs =>
    gs.length == c.chunkCount && gs.length == c.capacityDebit && m.grantsWellShaped [] gs &&
      batchDigest (fun i => gs.any fun g => g.logicalChunk = i) m.chunkCount == c.batchDigest

/-- `is_remote_chunk_mapping_grants_available_locked`. -/
def mappingGrantsAvailable (c : MappingClaim) (gs : List MappingGrant) : Bool :=
  gs.all fun g =>
    m.mappingMember c g.logicalChunk && (m.chunks g.logicalChunk).mappingClaimId == c.claimId &&
      decide (∀ i < m.chunkCount, ¬ ((m.chunks i).assigned ∧
        (m.chunks i).providerChunk = g.providerChunk ∧ (m.chunks i).provider = c.provider))

/-- `is_remote_chunk_mapping_grants_match_terminal_locked`. -/
def mappingGrantsMatchTerminal (c : MappingClaim) (gs : List MappingGrant) : Bool :=
  gs.all fun g =>
    let chunk := m.chunks g.logicalChunk
    chunk.state = .mapped && chunk.provider = c.provider && chunk.providerChunk = g.providerChunk &&
      chunk.remoteAddress = g.remoteAddress && chunk.remoteKey = g.remoteKey

/-- One iteration of the commit loop: the chunk is mapped with no valid sector. -/
def commitGrant (g : MappingGrant) : ChunkModule :=
  { m with
    chunks := fun i =>
      if i = g.logicalChunk then
        { m.chunks g.logicalChunk with
          providerChunk := g.providerChunk
          remoteAddress := g.remoteAddress
          remoteKey := g.remoteKey
          mappingGeneration := m.nextMappingGeneration + 1
          mappingClaimId := 0
          transitionGeneration := 0
          state := .mapped }
      else m.chunks i
    validSectors := m.validSectors.updateRange (g.logicalChunk * sectorsPerChunk) sectorsPerChunk false
    nextMappingGeneration := m.nextMappingGeneration + 1 }

/-- The abort loop: every chunk the claim names is unmapped again. -/
def abortChunks (claimId : ℕ) : ChunkModule :=
  { m with chunks := fun i =>
      if i < m.chunkCount ∧ (m.chunks i).mappingClaimId = claimId then
        { m.chunks i with
          provider := {}, mappingClaimId := 0, transitionGeneration := 0, state := .unmapped }
      else m.chunks i }

/-- The state after the claim was aborted. -/
def abortMapping (c : MappingClaim) : ChunkModule :=
  { (m.abortChunks c.claimId) with
    activeMappingClaims := m.activeMappingClaims - 1 }.mappingTerminalRecord c .abort

/-- The state after the claim was committed with the grants. -/
def commitMapping (c : MappingClaim) (gs : List MappingGrant) : ChunkModule :=
  { (gs.foldl commitGrant m) with
    assignedChunks := m.assignedChunks + c.capacityDebit
    usableChunks := m.usableChunks + c.capacityDebit
    activeMappingClaims := m.activeMappingClaims - 1 }.mappingTerminalRecord c .commit

/-- The grants behind a non-null pointer. -/
def grantList : GrantArg → List MappingGrant
  | .null _ => []
  | .array gs => gs

/-- The answer to a `provider` argument that is not the claim's Provider. -/
def otherProviderResult (provider : ProviderHandle) : MappingFinishResult :=
  if m.providerValid provider then .conflict else .stale

/-- A finish that repeats the last terminal claim changes nothing. -/
def mappingFinishRepeated (c : MappingClaim) (action : MappingFinishAction) (provider : ProviderHandle)
    (grants : GrantArg) : MappingFinishResult :=
  if provider ≠ c.provider then m.otherProviderResult provider
  else if action = .commit ∧ !m.mappingGrantsShapeValid c grants then .invalidGrant
  else
    let terminal : MappingTerminalAction := if action = .commit then .commit else .abort
    if terminal ≠ m.lastMappingTerminalAction ∨
        (terminal = .commit ∧ !m.mappingGrantsMatchTerminal c (grantList grants)) then .conflict
    else .duplicate

/-- The terminal transition of an active claim. -/
def mappingFinishActive (c : MappingClaim) (action : MappingFinishAction) (provider : ProviderHandle)
    (grants : GrantArg) : MappingFinishResult × ChunkModule :=
  if provider ≠ c.provider then (m.otherProviderResult provider, m)
  else if action = .commit ∧ !m.mappingGrantsShapeValid c grants then (.invalidGrant, m)
  else if action = .commit ∧ m.quiescing then (.shutdown, m)
  else if m.activeMappingClaims = 0 then (.invalid, m)
  else if action = .abort then (.aborted, m.abortMapping c)
  else if !m.mappingGrantsAvailable c (grantList grants) then (.invalidGrant, m)
  else if m.nextMappingGeneration > idMax - grants.count ∨ m.assignedChunks > u32Max - c.capacityDebit ∨
      m.usableChunks > u32Max - c.capacityDebit then (.exhausted, m)
  else (.committed, m.commitMapping c (grantList grants))

/-- `is_remote_chunk_mapping_finish`. -/
def mappingFinish (c : MappingClaim) (action : MappingFinishAction) (provider : ProviderHandle)
    (grants : GrantArg) : MappingFinishResult × ChunkModule :=
  if !provider.wellFormed || !c.wellFormed || c.chunkCount > m.chunkCount then (.invalid, m)
  else if action = .abort ∧ grants ≠ .null 0 then (.invalid, m)
  else if action ≠ .commit ∧ action ≠ .abort then (.invalid, m)
  else if c.moduleIdentity ≠ m.identity ∨ !m.providerValid c.provider then (.stale, m)
  else if c = m.lastMappingTerminalClaim then (m.mappingFinishRepeated c action provider grants, m)
  else if c.claimId > m.nextMappingClaimId ∨ c.transitionGeneration > m.nextTransitionGeneration then
    (.invalid, m)
  else if !m.mappingClaimActive c then (.stale, m)
  else m.mappingFinishActive c action provider grants

end ChunkModule
end RemoteChunk
end Infiniswap
