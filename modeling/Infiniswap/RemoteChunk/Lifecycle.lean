/-
# Creating, observing and destroying a Remote Chunk module

`is_remote_chunk_module_create` with its configuration checks, quiesce and
destroy, Provider observations, the hot-range policy and access activity, and
the diagnostic snapshot. Operations whose failures leave the module untouched
return `Except`; the others return their result beside the module.
-/
import Mathlib.Data.Nat.Count
import Mathlib.Algebra.BigOperators.Group.Finset.Basic
import Infiniswap.RemoteChunk.Types

namespace Infiniswap
namespace RemoteChunk

/-! ### Configuration -/

/-- `is_remote_chunk_identifier_character_valid`. -/
def identifierCharacterValid (character : Char) (first : Bool) : Bool :=
  let alphaNumeric := ('a' ≤ character && character ≤ 'z') || ('A' ≤ character && character ≤ 'Z') ||
    ('0' ≤ character && character ≤ '9')
  alphaNumeric || (!first && (character == '.' || character == '_' || character == '-'))

/-- The identifier's characters are valid, the first one by the stricter rule. -/
def identifierCharactersValid : List Char → Bool → Bool
  | [], _ => true
  | c :: cs, first => identifierCharacterValid c first && identifierCharactersValid cs false

/-- `is_remote_chunk_provider_identifier_valid`: not empty, terminated within the buffer. -/
def providerIdentifierValid (identifier : String) : Bool :=
  identifier ≠ "" && identifier.toList.length ≤ providerIdMax &&
    identifierCharactersValid identifier.toList true

/-- The roster loop of `is_remote_chunk_roster_validate`; `previous` are the
entries already checked. -/
def rosterEntriesValidate (previous : List ProviderConfig) : List ProviderConfig → Except Errno Unit
  | [] => .ok ()
  | p :: ps =>
    if !providerIdentifierValid p.identifier then .error .einval
    else if p.placementWeight < placementWeightMin ∨ p.placementWeight > placementWeightMax then
      .error .erange
    else if previous.any fun q => q.identifier = p.identifier then .error .einval
    else rosterEntriesValidate (previous ++ [p]) ps

/-- `is_remote_chunk_roster_validate`. -/
def Config.rosterValidate (config : Config) : Except Errno Unit :=
  if config.providers.length > maxProviders then .error .einval
  else if config.placementSampleSize = 0 ∨ config.placementSampleSize > maxProviders then .error .erange
  else if config.providers = [] then
    if config.mode = .remoteOnly then .error .einval else .ok ()
  else if config.placementSampleSize > config.providers.length then .error .erange
  else rosterEntriesValidate [] config.providers

/-- The checks `is_remote_chunk_module_create` makes before it allocates.
`handleCapacity` is the size of the caller's handle array. -/
def Config.validate (config : Config) (handleCapacity : ℕ) : Except Errno Unit :=
  if (config.mode ≠ .backed ∧ config.mode ≠ .remoteOnly) ∨ config.chunkCount = 0 ∨
      config.chunkCount > maxChunks then .error .einval
  else if !config.hotPolicy.valid then .error .erange
  else match config.rosterValidate with
    | .error e => .error e
    | .ok () => if config.providers ≠ [] ∧ handleCapacity < config.providers.length then .error .enospc
      else .ok ()

/-- The roster entry created for `config.providers[index]`. -/
def rosterProvider (identity : ℕ) (providers : List ProviderConfig) (index : ℕ) : Provider :=
  match providers[index]? with
  | none => {}
  | some p =>
    { handle := ⟨identity, index + 1⟩
      identifier := p.identifier
      placementWeight := p.placementWeight }

/-- The module `is_remote_chunk_module_create` publishes. -/
def newModule (config : Config) (identity monotonicNs : ℕ) : ChunkModule :=
  let rng := if config.placementSeed ≠ 0 then config.placementSeed else identity ^^^ monotonicNs
  { chunks := fun _ => {}
    providers := rosterProvider identity config.providers
    validSectors := fun _ => 0
    mode := config.mode
    chunkCount := config.chunkCount
    providerCount := config.providers.length
    placementSampleSize := config.placementSampleSize
    placementSeed := config.placementSeed
    placementRngState := if rng = 0 then identity else rng
    hotPolicy := config.hotPolicy
    identity := identity }

/-- `is_remote_chunk_module_create`. The environment supplies whether each
allocation and initialisation succeeds, the identity taken from the global
counter (0 when exhausted) and the clock that seeds an unseeded generator. -/
def moduleCreate (config : Config) (handleCapacity : ℕ) (allocated : Bool) (identity monotonicNs : ℕ) :
    Except Errno (ChunkModule × List ProviderHandle) :=
  match config.validate handleCapacity with
  | .error e => .error e
  | .ok () =>
    if !allocated then .error .enomem
    else if identity = 0 ∨ identity = idMax then .error .eoverflow
    else .ok (newModule config identity monotonicNs,
      (List.range config.providers.length).map fun i =>
        (rosterProvider identity config.providers i).handle)

namespace ChunkModule

variable (m : ChunkModule)

/-- `is_remote_chunk_module_quiesce`. -/
def moduleQuiesce : Except Errno Unit × ChunkModule :=
  if m.quiescing then (.error .ealready, m.noteInvariant .moduleDuplicateQuiesce)
  else (.ok (), { m with quiescing := true })

/-- `is_remote_chunk_module_destroy`; a refused destroy leaves the module quiescing. -/
def moduleDestroy : Except Errno Unit × ChunkModule :=
  let m := { m with quiescing := true }
  if m.activeMappingClaims ≠ 0 ∨ m.activeEvictionClaims ≠ 0 ∨ m.activeEvictionWaits ≠ 0 ∨
      m.activeIoLeases ≠ 0 then
    (.error .ebusy, m.noteInvariant .moduleDestroyActive)
  else (.ok (), m)

/-! ### Capacity -/

/-- Assigned chunks of a Provider (`is_remote_chunk_provider_debits_locked`, `assigned_out`). -/
def providerAssigned (provider : ProviderHandle) : ℕ :=
  Nat.count (fun i => (m.chunks i).assigned ∧ (m.chunks i).provider = provider) m.chunkCount

/-- Mapping chunks of a Provider (`is_remote_chunk_provider_debits_locked`, `mapping_out`). -/
def providerMapping (provider : ProviderHandle) : ℕ :=
  Nat.count (fun i => (m.chunks i).state = .mapping ∧ (m.chunks i).provider = provider) m.chunkCount

/-- `is_remote_chunk_reconcile_available`. -/
def reconcileAvailable (reportedAvailable observedDebits currentDebits : ℕ) : ℕ :=
  if currentDebits ≥ observedDebits then
    let newDebits := currentDebits - observedDebits
    if reportedAvailable > newDebits then reportedAvailable - newDebits else 0
  else if reportedAvailable > u32Max - (observedDebits - currentDebits) then u32Max
  else reportedAvailable + observedDebits - currentDebits

/-- `is_remote_chunk_provider_effective_available_locked`. -/
def providerEffectiveAvailable (p : Provider) : ℕ :=
  if p.failed || !p.hasObservation || !p.placementEligible then 0
  else reconcileAvailable p.reportedAvailableChunks p.observationDebitedChunks
    (m.providerAssigned p.handle + m.providerMapping p.handle)

/-- `is_remote_chunk_provider_diagnostic_available_locked`. -/
def providerDiagnosticAvailable (p : Provider) : ℕ :=
  if p.failed || !p.hasObservation || !p.placementEligible then 0
  else reconcileAvailable p.reportedAvailableChunks p.observationAssignedChunks
    (m.providerAssigned p.handle)

/-! ### Observations -/

inductive ObservationResult
  | applied | stale | duplicate | conflict | invalid | staleEpoch | shutdown
  deriving DecidableEq

/-- `is_remote_chunk_provider_observation_valid`. -/
def observationValid (o : ProviderObservation) : Bool :=
  if o.placementEligible then o.availableChunks > 0 && o.exclusion == .none
  else if o.exclusion = .none then false
  else if o.exclusion = .zeroCapacity then o.availableChunks == 0
  else true

/-- `is_remote_chunk_provider_observation_equal`. -/
def observationEqual (p : Provider) (o : ProviderObservation) : Bool :=
  p.observationSequence == o.sequence && p.reportedAvailableChunks == o.availableChunks &&
    p.exclusion == o.exclusion && p.placementEligible == o.placementEligible

/-- Replaces roster entry `i`. -/
def setProvider (i : ℕ) (p : Provider) : ChunkModule :=
  { m with providers := fun j => if j = i then p else m.providers j }

/-- `is_remote_chunk_provider_observe`. -/
def providerObserve (provider : ProviderHandle) (o : ProviderObservation) :
    ObservationResult × ChunkModule :=
  if !provider.wellFormed || !observationValid o then (.invalid, m)
  else if m.quiescing then (.shutdown, m)
  else match m.providerIndex provider with
    | none => (.staleEpoch, m)
    | some i =>
      let p := m.providers i
      if p.hasObservation ∧ o.sequence < p.observationSequence then (.stale, m)
      else if p.hasObservation ∧ o.sequence = p.observationSequence then
        (if observationEqual p o then .duplicate else .conflict, m)
      else
        let assigned := m.providerAssigned provider
        let mapping := m.providerMapping provider
        (.applied, m.setProvider i
          { p with
            reportedAvailableChunks := o.availableChunks
            observationAssignedChunks := assigned
            observationDebitedChunks := assigned + mapping
            observationSequence := o.sequence
            exclusion := o.exclusion
            placementEligible := o.placementEligible
            hasObservation := true })

/-! ### Hot-range policy and activity -/

/-- `is_remote_chunk_hot_policy_snapshot`. -/
def hotPolicySnapshot : HotPolicy := m.hotPolicy

/-- `is_remote_chunk_hot_policy_set`; the result is `mapping_needed`. -/
def hotPolicySet (policy : HotPolicy) : Except Errno (Bool × ChunkModule) :=
  if !policy.valid then .error .erange
  else if m.quiescing then .error .eshutdown
  else
    let needed := m.mode = .backed ∧ ∃ i < m.chunkCount,
      (m.chunks i).state = .unmapped ∧ (m.chunks i).activity ≥ policy.threshold
    .ok (needed, { m with hotPolicy := policy })

/-- Adds an access weight to a chunk, saturating. -/
def addActivity (weight : ℕ) (c : Chunk) : Chunk :=
  { c with activity := if c.activity > activityMax - weight then activityMax else c.activity + weight }

/-- `is_remote_chunk_note_activity`; the result is `mapping_needed`. -/
def noteActivity (logicalStart chunkCount : ℕ) (kind : ActivityKind) :
    Except Errno (Bool × ChunkModule) :=
  if chunkCount = 0 ∨ (kind ≠ .read ∧ kind ≠ .write) then .error .einval
  else if logicalStart ≥ m.chunkCount ∨ chunkCount > m.chunkCount - logicalStart then .error .erange
  else if m.quiescing then .error .eshutdown
  else if m.mode ≠ .backed then .error .eopnotsupp
  else
    let weight := if kind = .write then m.hotPolicy.writeWeight else m.hotPolicy.readWeight
    let chunks := fun i =>
      if logicalStart ≤ i ∧ i < logicalStart + chunkCount then addActivity weight (m.chunks i)
      else m.chunks i
    let needed := ∃ i < logicalStart + chunkCount, logicalStart ≤ i ∧
      (chunks i).state = .unmapped ∧ (chunks i).activity ≥ m.hotPolicy.threshold
    .ok (needed, { m with chunks := chunks })

/-! ### Snapshot -/

structure ProviderSnapshot where
  provider : ProviderHandle
  identifier : String
  placementWeight : ℕ
  assignedChunks : ℕ
  usableChunks : ℕ
  reportedAvailableChunks : ℕ
  diagnosticAvailableChunks : ℕ
  observationAssignedChunks : ℕ
  observationSequence : ℕ
  exclusion : ProviderExclusion
  placementEligible : Bool
  hasObservation : Bool
  failed : Bool

structure PlacementSnapshot where
  provider : ProviderHandle
  logicalChunk : ℕ
  usable : Bool

structure Snapshot where
  mode : Mode
  chunkCount : ℕ
  assignedChunks : ℕ
  usableChunks : ℕ
  mappingChunks : ℕ
  evictingChunks : ℕ
  activeMappingClaims : ℕ
  activeEvictionClaims : ℕ
  hotRanges : ℕ
  mappingCandidates : ℕ
  activeIoLeases : ℕ
  invariantCount : ℕ
  latestInvariant : InvariantEvent
  quiescing : Bool
  hotPolicy : HotPolicy
  placementSampleSize : ℕ
  placementSeed : ℕ
  providers : List ProviderSnapshot
  placements : List PlacementSnapshot

/-- The first roster entry with the chunk's Provider
(`is_remote_chunk_snapshot_provider_index`) is entry `i`. -/
def snapshotPlacedAt (i : ℕ) (c : Chunk) : Prop := m.providerRosterIndex c.provider = some i

instance (i : ℕ) (c : Chunk) : Decidable (m.snapshotPlacedAt i c) :=
  inferInstanceAs (Decidable (_ = _))

def providerSnapshot (i : ℕ) : ProviderSnapshot :=
  let p := m.providers i
  { provider := p.handle
    identifier := p.identifier
    placementWeight := p.placementWeight
    assignedChunks :=
      Nat.count (fun j => (m.chunks j).assigned ∧ m.snapshotPlacedAt i (m.chunks j)) m.chunkCount
    usableChunks := Nat.count
      (fun j => (m.chunks j).state = .mapped ∧ m.snapshotPlacedAt i (m.chunks j)) m.chunkCount
    reportedAvailableChunks := p.reportedAvailableChunks
    diagnosticAvailableChunks := m.providerDiagnosticAvailable p
    observationAssignedChunks := p.observationAssignedChunks
    observationSequence := p.observationSequence
    exclusion := p.exclusion
    placementEligible := p.placementEligible
    hasObservation := p.hasObservation
    failed := p.failed }

/-- The sum of the chunks' lease counters, in the `unsigned int` of the loop. -/
def derivedActiveIoLeases : ℕ :=
  (∑ i ∈ Finset.range m.chunkCount, (m.chunks i).activeIoLeases) % 2 ^ 32

/-- `is_remote_chunk_snapshot_take`: refused when an assigned chunk's Provider is
not in the roster or a counter disagrees with the chunks. -/
def snapshotTake (allocated : Bool) : Except Errno Snapshot :=
  if !allocated then .error .enomem
  else
    let assigned := (List.range m.chunkCount).filter fun i => (m.chunks i).assigned
    if assigned.any fun i => (m.providerRosterIndex (m.chunks i).provider).isNone then .error .einval
    else
      let derivedAssigned := Nat.count (fun i => (m.chunks i).assigned) m.chunkCount
      let derivedUsable := Nat.count (fun i => (m.chunks i).state = .mapped) m.chunkCount
      if derivedAssigned ≠ m.assignedChunks ∨ derivedUsable ≠ m.usableChunks ∨
          m.derivedActiveIoLeases ≠ m.activeIoLeases then .error .einval
      else .ok
        { mode := m.mode
          chunkCount := m.chunkCount
          assignedChunks := m.assignedChunks
          usableChunks := m.usableChunks
          mappingChunks := Nat.count (fun i => (m.chunks i).state = .mapping) m.chunkCount
          evictingChunks := Nat.count (fun i => (m.chunks i).state = .evicting) m.chunkCount
          activeMappingClaims := m.activeMappingClaims
          activeEvictionClaims := m.activeEvictionClaims
          hotRanges := Nat.count (fun i => (m.chunks i).activity ≥ m.hotPolicy.threshold) m.chunkCount
          mappingCandidates := Nat.count (fun i => (m.chunks i).activity ≥ m.hotPolicy.threshold ∧
            (m.chunks i).state = .unmapped) m.chunkCount
          activeIoLeases := m.activeIoLeases
          invariantCount := m.invariantCount
          latestInvariant := m.latestInvariant
          quiescing := m.quiescing
          hotPolicy := m.hotPolicy
          placementSampleSize := m.placementSampleSize
          placementSeed := m.placementSeed
          providers := (List.range m.providerCount).map m.providerSnapshot
          placements := assigned.map fun i =>
            ⟨(m.chunks i).provider, i, (m.chunks i).state = .mapped⟩ }

end ChunkModule
end RemoteChunk
end Infiniswap
