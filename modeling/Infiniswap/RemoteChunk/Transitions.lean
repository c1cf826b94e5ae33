/-
# What a control operation can do

Every operation of the module other than the lease operations and the eviction
wait either leaves the module's mapping state alone (`core`) or makes one of
six transitions under its guard: reserve a chunk, abort or commit a mapping,
begin or finish an eviction, fail a Provider. `ControlStep` says so once; what
the module keeps is then proved per transition and not per operation.
-/
import Infiniswap.RemoteChunk.Eviction

namespace Infiniswap
namespace RemoteChunk
namespace ChunkModule

variable {m m' : ChunkModule}

/-- The mapping state of the module: what is left when activity, observations,
policy, the placement generator and the diagnostics are forgotten. -/
def core (m : ChunkModule) : ChunkModule :=
  { m with
    chunks := fun i => { m.chunks i with activity := 0 }
    providers := fun i => { handle := (m.providers i).handle, failed := (m.providers i).failed }
    placementRngState := 0
    hotPolicy := ⟨0, 0, 0⟩
    invariantCount := 0
    latestInvariant := .none
    activeEvictionWaits := 0
    quiescing := false }

theorem core_setProvider {i : ℕ} {p : Provider} (hh : p.handle = (m.providers i).handle)
    (hf : p.failed = (m.providers i).failed) : (m.setProvider i p).core = m.core := by
  have : ∀ j, (if j = i then p else m.providers j).handle = (m.providers j).handle ∧
      (if j = i then p else m.providers j).failed = (m.providers j).failed := by
    intro j
    by_cases h : j = i
    · rw [if_pos h, h]; exact ⟨hh, hf⟩
    · rw [if_neg h]; exact ⟨rfl, rfl⟩
  simp only [core, setProvider, this]

theorem core_activity {f : ℕ → Chunk}
    (h : ∀ i, { f i with activity := 0 } = { m.chunks i with activity := 0 }) :
    core { m with chunks := f } = m.core := by
  simp only [core, h]

/-- A transition of the module's mapping state, with its guard. -/
inductive ControlStep (m : ChunkModule) : ChunkModule → Prop
  | quiet {m' : ChunkModule} (h : m'.core = m.core)
      (hw : m'.activeEvictionWaits = m.activeEvictionWaits) : ControlStep m m'
  | reserve {m' : ChunkModule} (p : ProviderHandle) (k : ℕ) (hp : m.providerValid p = true)
      (hc : m.activeMappingClaims = 0) (hk : k < m.chunkCount) (hs : (m.chunks k).state = .unmapped)
      (h : m'.core = (m.reserveChunk p k).core) (hw : m'.activeEvictionWaits = m.activeEvictionWaits) :
      ControlStep m m'
  | abort (c : MappingClaim) (ha : m.mappingClaimActive c = true) (hc : m.activeMappingClaims ≠ 0) :
      ControlStep m (m.abortMapping c)
  | commit (c : MappingClaim) (gs : List MappingGrant) (ha : m.mappingClaimActive c = true)
      (hc : m.activeMappingClaims ≠ 0) (hs : m.mappingGrantsShapeValid c (.array gs) = true)
      (hg : m.mappingGrantsAvailable c gs = true) : ControlStep m (m.commitMapping c gs)
  | evictBegin (p : ProviderHandle) (pcs selected : List ℕ) (hm : m.mode = .backed)
      (hp : m.providerValid p = true) (hne : pcs ≠ []) (hsel : m.selectChunks p [] pcs = .ok selected)
      (hu : pcs.length ≤ m.usableChunks) : ControlStep m (m.beginEviction p selected pcs.length)
  | evictFinish (c : EvictionClaim) (hv : m.evictionClaimValidate c = .ok ())
      (hd : m.evictionDrained c = true) : ControlStep m (m.finishEviction c)
  | fail (p : ProviderHandle) (i : ℕ) (hi : m.providerRosterIndex p = some i)
      (hf : (m.providers i).failed = false) (hg : ¬ m.failureExhausted p) :
      ControlStep m (m.failProvider p i)

theorem ControlStep.refl (m : ChunkModule) : ControlStep m m := .quiet rfl rfl

/-! ### Claims that are given -/

theorem mappingClaimCreate_ok {p : ProviderHandle} {k : ℕ} {c : MappingClaim}
    (h : m.mappingClaimCreate p k = .ok (c, m')) :
    m.quiescing = false ∧ m.providerValid p = true ∧ m.activeMappingClaims = 0 ∧ k < m.chunkCount ∧
      (m.chunks k).state = .unmapped ∧ c = m.newMappingClaim p k ∧ m' = m.reserveChunk p k := by
  unfold mappingClaimCreate at h
  split_ifs at h with h1 h2 h3 h4 h5 h6
  cases h
  exact ⟨Bool.eq_false_iff.mpr h1, by simpa using h2, not_not.mp h3, by omega, not_not.mp h5, rfl, rfl⟩

theorem evictionBegin_ok {p : ProviderHandle} {pcs : List ℕ} {out c : EvictionClaim}
    (h : m.evictionBegin p pcs out = .ok (c, m')) :
    m.quiescing = false ∧ m.mode = .backed ∧ m.providerValid p = true ∧ pcs ≠ [] ∧
      pcs.length ≤ m.usableChunks ∧ ∃ selected, m.selectChunks p [] pcs = .ok selected ∧
        c = m.newEvictionClaim p selected pcs.length ∧
        m' = m.beginEviction p selected pcs.length := by
  unfold evictionBegin at h
  dsimp only at h
  split at h
  · cases h
  rename_i h1
  split at h
  · cases h
  rename_i h2
  split at h
  · cases h
  rename_i h3
  split at h
  · cases h
  rename_i h4
  split at h
  · cases h
  split at h
  · cases h
  rename_i selected hsel
  split at h
  · cases h
  rename_i h6
  cases h
  push Not at h1 h6
  exact ⟨Bool.eq_false_iff.mpr h3,
    not_not.mp h2, by simpa using h4, h1.1, h6.2.2.1, selected, hsel, rfl, rfl⟩

end ChunkModule
end RemoteChunk
end Infiniswap
