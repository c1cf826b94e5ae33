/-
# The module's representation invariant

`Inv` ties the module's counters and claims to its chunks: what is assigned,
usable, being mapped and being evicted is what the counters say; a mapping
claim reserves one chunk; the chunks of an eviction share its Provider; two
assigned chunks never name the same chunk of a Provider; only assigned chunks
have valid sectors. Every control step keeps it (`ControlStep.inv`).
-/
import Infiniswap.Lib.Counting
import Infiniswap.RemoteChunk.Transitions

namespace Infiniswap
namespace RemoteChunk
namespace ChunkModule

open Counting

variable {m m' : ChunkModule}

variable {c : Chunk} {k : ℕ}

/-- What the record of one chunk satisfies. -/
structure ChunkOk (m : ChunkModule) (c : Chunk) : Prop where
  mappingId : c.mappingClaimId ≠ 0 ↔ c.state = .mapping
  evictionId : c.evictionClaimId ≠ 0 ↔ c.state = .evicting
  mappingId_le : c.mappingClaimId ≤ m.nextMappingClaimId
  evictionId_le : c.evictionClaimId ≤ m.nextEvictionClaimId
  transition_le : c.transitionGeneration ≤ m.nextTransitionGeneration
  transition_ne : c.state = .mapping ∨ c.state = .evicting → c.transitionGeneration ≠ 0
  generation_le : c.mappingGeneration ≤ m.nextMappingGeneration
  generation_ne : c.assigned → c.mappingGeneration ≠ 0
  provider : c.state ≠ .unmapped → m.providerValid c.provider = true
  backed : c.state = .evicting → m.mode = .backed

/-- No mapping claim is active. -/
structure NoClaim (m : ChunkModule) : Prop where
  count : m.activeMappingClaims = 0
  cleared : m.activeMappingClaim = {}
  mapping : ∀ i < m.chunkCount, (m.chunks i).state ≠ .mapping

/-- The active mapping claim reserves exactly chunk `k`. -/
structure ClaimedFor (m : ChunkModule) (k : ℕ) : Prop where
  count : m.activeMappingClaims = 1
  lt : k < m.chunkCount
  mapping : ∀ i < m.chunkCount, (m.chunks i).state = .mapping ↔ i = k
  claim : m.activeMappingClaim =
    { magic := claimMagic
      moduleIdentity := m.identity
      provider := (m.chunks k).provider
      claimId := (m.chunks k).mappingClaimId
      transitionGeneration := (m.chunks k).transitionGeneration
      batchDigest := batchDigest (fun i => i = k) m.chunkCount
      chunkCount := 1
      capacityDebit := 1 }
  superseded : m.lastMappingTerminalClaim = {}

/-- The chunk is being evicted. -/
def evicting (m : ChunkModule) (i : ℕ) : Prop := (m.chunks i).state = .evicting

instance (m : ChunkModule) : DecidablePred m.evicting :=
  fun i => inferInstanceAs (Decidable ((m.chunks i).state = .evicting))

/-- The part of the representation invariant about mappings and claims. -/
structure MapInv (m : ChunkModule) : Prop where
  count_pos : 0 < m.chunkCount
  count_le : m.chunkCount ≤ maxChunks
  mode : m.mode = .backed ∨ m.mode = .remoteOnly
  identity : m.identity ≠ 0
  handle : ∀ i < m.providerCount, (m.providers i).handle = ⟨m.identity, i + 1⟩
  sample : m.providerCount ≠ 0 → m.placementSampleSize ≠ 0
  chunk : ∀ i < m.chunkCount, m.ChunkOk (m.chunks i)
  assigned : m.assignedChunks = Nat.count (fun i => (m.chunks i).assigned) m.chunkCount
  usable : m.usableChunks = Nat.count (fun i => (m.chunks i).state = .mapped) m.chunkCount
  claim : m.NoClaim ∨ ∃ k, m.ClaimedFor k
  batch : ∀ i < m.chunkCount, ∀ j < m.chunkCount, m.evicting i →
    (m.chunks j).evictionClaimId = (m.chunks i).evictionClaimId →
    (m.chunks j).transitionGeneration = (m.chunks i).transitionGeneration ∧
      (m.chunks j).provider = (m.chunks i).provider
  evictions : m.activeEvictionClaims =
    (tags m.evicting (fun i => (m.chunks i).evictionClaimId) m.chunkCount).card
  place : ∀ i < m.chunkCount, ∀ j < m.chunkCount, (m.chunks i).assigned → (m.chunks j).assigned →
    (m.chunks i).provider = (m.chunks j).provider →
    (m.chunks i).providerChunk = (m.chunks j).providerChunk → i = j

/-- **The representation invariant.** -/
structure Inv (m : ChunkModule) : Prop extends MapInv m where
  leases : m.activeIoLeases = ∑ i ∈ Finset.range m.chunkCount, (m.chunks i).activeIoLeases
  leases_le : m.activeIoLeases ≤ u32Max
  valid : ∀ s, m.sectorValid s = true →
    s / sectorsPerChunk < m.chunkCount ∧ (m.chunks (s / sectorsPerChunk)).assigned

/-! ### The invariant only sees the mapping state -/

theorem ChunkOk.core (h : m.ChunkOk c) : m.core.ChunkOk { c with activity := 0 } := { h with }

theorem ChunkOk.of_core (h : m.core.ChunkOk { c with activity := 0 }) : m.ChunkOk c := { h with }

theorem ClaimedFor.core (h : m.ClaimedFor k) : m.core.ClaimedFor k := { h with }

theorem ClaimedFor.of_core (h : m.core.ClaimedFor k) : m.ClaimedFor k := { h with }

theorem Inv.core (h : m.Inv) : m.core.Inv :=
  { h with
    chunk := fun i hi => (h.chunk i hi).core
    claim := h.claim.imp (fun h => { h with }) fun ⟨k, hk⟩ => ⟨k, hk.core⟩ }

theorem Inv.of_core (h : m.core.Inv) : m.Inv :=
  { h with
    chunk := fun i hi => (h.chunk i hi).of_core
    claim := h.claim.imp (fun h => { h with }) fun ⟨k, hk⟩ => ⟨k, hk.of_core⟩ }

theorem Inv.congr (h : m.Inv) (hc : m'.core = m.core) : m'.Inv :=
  .of_core (hc ▸ h.core)

/-- What is left of the module when leases and sector validity are forgotten. -/
def mapping (m : ChunkModule) : ChunkModule :=
  { m with
    chunks := fun i => { m.chunks i with activeIoLeases := 0 }
    validSectors := fun _ => 0
    nextIoLeaseId := 0
    activeIoLeases := 0
    invariantCount := 0
    latestInvariant := .none }

theorem ChunkOk.mapping_iff : m.mapping.ChunkOk { c with activeIoLeases := 0 } ↔ m.ChunkOk c :=
  ⟨fun h => { h with }, fun h => { h with }⟩

theorem ClaimedFor.mapping_iff : m.mapping.ClaimedFor k ↔ m.ClaimedFor k :=
  ⟨fun h => { h with }, fun h => { h with }⟩

theorem MapInv.mapping_iff : m.mapping.MapInv ↔ m.MapInv := by
  constructor
  · intro h
    exact { h with
      chunk := fun i hi => ChunkOk.mapping_iff.mp (h.chunk i hi)
      claim := h.claim.imp (fun h => { h with }) fun ⟨k, hk⟩ => ⟨k, ClaimedFor.mapping_iff.mp hk⟩ }
  · intro h
    exact { h with
      chunk := fun i hi => ChunkOk.mapping_iff.mpr (h.chunk i hi)
      claim := h.claim.imp (fun h => { h with }) fun ⟨k, hk⟩ => ⟨k, ClaimedFor.mapping_iff.mpr hk⟩ }

theorem MapInv.congr (h : m.MapInv) (hc : m'.mapping = m.mapping) : m'.MapInv :=
  MapInv.mapping_iff.mp (hc ▸ MapInv.mapping_iff.mpr h)

/-! ### Parts -/

theorem ChunkOk.mono (h : m.ChunkOk c) (h1 : m.nextMappingClaimId ≤ m'.nextMappingClaimId)
    (h2 : m.nextEvictionClaimId ≤ m'.nextEvictionClaimId)
    (h3 : m.nextTransitionGeneration ≤ m'.nextTransitionGeneration)
    (h4 : m.nextMappingGeneration ≤ m'.nextMappingGeneration) (h5 : m'.mode = m.mode)
    (h6 : c.state ≠ .unmapped → m.providerValid c.provider = true → m'.providerValid c.provider = true) :
    m'.ChunkOk c :=
  { h with
    mappingId_le := h.mappingId_le.trans h1
    evictionId_le := h.evictionId_le.trans h2
    transition_le := h.transition_le.trans h3
    generation_le := h.generation_le.trans h4
    provider := fun hs => h6 hs (h.provider hs)
    backed := fun hs => h5.trans (h.backed hs) }

theorem ChunkOk.evictionId_eq_zero (h : m.ChunkOk c) (hs : c.state ≠ .evicting) :
    c.evictionClaimId = 0 := by
  by_contra hne
  exact hs (h.evictionId.mp hne)

theorem ChunkOk.mappingId_eq_zero (h : m.ChunkOk c) (hs : c.state ≠ .mapping) :
    c.mappingClaimId = 0 := by
  by_contra hne
  exact hs (h.mappingId.mp hne)

/-- A claim counted as active reserves some chunk. -/
theorem Inv.claimed (h : m.Inv) (hc : m.activeMappingClaims ≠ 0) : ∃ k, m.ClaimedFor k :=
  h.claim.resolve_left fun h0 => hc h0.count

theorem Inv.noClaim (h : m.Inv) (hc : m.activeMappingClaims = 0) : m.NoClaim := by
  rcases h.claim with h0 | ⟨k, hk⟩
  · exact h0
  · have := hk.count
    omega

theorem ClaimedFor.named_iff (hI : m.Inv) (h : m.ClaimedFor k) {i : ℕ} (hi : i < m.chunkCount) :
    (m.chunks i).mappingClaimId = (m.chunks k).mappingClaimId ↔ i = k := by
  refine ⟨fun he => ?_, fun he => by rw [he]⟩
  have hk : (m.chunks k).mappingClaimId ≠ 0 :=
    (hI.chunk k h.lt).mappingId.mpr ((h.mapping k h.lt).mpr rfl)
  rw [← he] at hk
  exact (h.mapping i hi).mp ((hI.chunk i hi).mappingId.mp hk)

theorem not_assigned_of_mapping (h : c.state = .mapping) : ¬ c.assigned := by
  simp [Chunk.assigned, h]

theorem not_assigned_of_unmapped (h : c.state = .unmapped) : ¬ c.assigned := by
  simp [Chunk.assigned, h]

theorem Inv.rosterIndex_eq (h : m.Inv) {p : ProviderHandle} {i : ℕ} (hi : i < m.providerCount)
    (hp : (m.providers i).handle = p) : m.providerRosterIndex p = some i := by
  cases hr : m.providerRosterIndex p with
  | none => exact absurd hp (m.providerRosterIndex_none hr i hi)
  | some j =>
    obtain ⟨hj, hjp⟩ := m.providerRosterIndex_some hr
    rw [h.handle j hj, ← hp, h.handle i hi] at hjp
    have : j = i := by simpa using hjp
    rw [this]

theorem Inv.wellFormed (h : m.Inv) {p : ProviderHandle} (hp : m.providerValid p = true) :
    p.wellFormed = true := by
  obtain ⟨i, hi, -⟩ := m.providerValid_iff.mp hp
  obtain ⟨hlt, rfl⟩ := m.providerRosterIndex_some hi
  rw [h.handle i hlt]
  simp [ProviderHandle.wellFormed, h.identity]

end ChunkModule
end RemoteChunk
end Infiniswap
