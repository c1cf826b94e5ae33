/-
# Lease storage and the module's lease counters

Lease records live in caller-owned storage at an address the record names, so
a copy at another address is not a lease. `Own` says that the cell at an
address holds a lease of this module, `Live` that it is not released yet.
`LeaseStore` ties the cells to the module: every lease is one the module could
have written, and each chunk counts the live leases on it.

A lease whose mapping generation is still the chunk's pins the mapping: no
control step changes where such a chunk is placed (`Evolves`).
-/
import Infiniswap.RemoteChunk.Reset

namespace Infiniswap
namespace RemoteChunk
namespace ChunkModule

open Counting

variable {m m' : ChunkModule}

/-! ### What control steps do to placed chunks -/

variable {i k a : ℕ} {r : IoRequest} {l : IoLease} {leases : ℕ → IoLease}

/-- Chunk `i` kept its generation, with its placement if it had one, or got a fresh generation. -/
def ChunkEvolves (m m' : ChunkModule) (i : ℕ) : Prop :=
  ((m'.chunks i).mappingGeneration = (m.chunks i).mappingGeneration ∧
      ((m'.chunks i).assigned ↔ (m.chunks i).assigned) ∧
      ((m.chunks i).assigned → (m'.chunks i).place = (m.chunks i).place)) ∨
    m.nextMappingGeneration < (m'.chunks i).mappingGeneration

/-- How control steps change the module, as leases see it. -/
structure Evolves (m m' : ChunkModule) : Prop where
  chunkCount : m'.chunkCount = m.chunkCount
  identity : m'.identity = m.identity
  mode : m'.mode = m.mode
  leaseId : m'.nextIoLeaseId = m.nextIoLeaseId
  generation_le : m.nextMappingGeneration ≤ m'.nextMappingGeneration
  activeIoLeases : m'.activeIoLeases = m.activeIoLeases
  leases : ∀ i, (m'.chunks i).activeIoLeases = (m.chunks i).activeIoLeases
  chunk : ∀ i < m.chunkCount, ChunkEvolves m m' i
  valid : ∀ s, m'.sectorValid s = true → m.sectorValid s = true ∧
    (m'.chunks (s / sectorsPerChunk)).mappingGeneration =
      (m.chunks (s / sectorsPerChunk)).mappingGeneration

theorem ChunkEvolves.same (h : m'.chunks i = m.chunks i) : ChunkEvolves m m' i :=
  Or.inl ⟨by rw [h], by rw [h], fun _ => by rw [h]⟩

theorem Evolves.refl (m : ChunkModule) : Evolves m m where
  chunkCount := rfl
  identity := rfl
  mode := rfl
  leaseId := rfl
  generation_le := le_rfl
  activeIoLeases := rfl
  leases := fun _ => rfl
  chunk := fun _ _ => .same rfl
  valid := fun _ h => ⟨h, rfl⟩

/-- Only the mapping state matters. -/
theorem Evolves.of_core (h : Evolves m.core m'.core) : Evolves m m' :=
  { h with chunk := fun i hi => h.chunk i hi }

theorem Evolves.core (h : Evolves m m') : Evolves m.core m'.core :=
  { h with chunk := fun i hi => h.chunk i hi }

theorem ResetTo.evolves {P : Chunk → Prop} [DecidablePred P] {ra : Bool} (hI : m.Inv)
    (h : ResetTo m m' P ra) : Evolves m m' where
  chunkCount := h.chunkCount
  identity := h.identity
  mode := h.mode
  leaseId := h.leaseId
  generation_le := by rw [h.generation]; omega
  activeIoLeases := h.leases
  leases := fun i => by
    rw [h.chunks]
    split <;> rfl
  chunk := fun i hi => by
    by_cases hp : P (m.chunks i)
    · refine Or.inr ?_
      rw [h.chunk_in hi hp]
      show m.nextMappingGeneration < m.resetGeneration P i
      rw [resetGeneration]
      omega
    · exact .same (h.chunk_out hp)
  valid := fun s hs => by
    obtain ⟨hv, hp⟩ := (h.valid s).mp hs
    rw [h.chunk_out fun hP => hp ⟨(hI.valid s hv).1, hP⟩]
    exact ⟨hv, rfl⟩

theorem field_set_same {τ : Type*} (f : Chunk → τ) {c : Chunk}
    (hset : ∀ i, m'.chunks i = if i = k then c else m.chunks i) (h : f c = f (m.chunks k)) :
    f (m'.chunks i) = f (m.chunks i) := by
  by_cases hik : i = k
  · rw [hik, set_self hset, h]
  · rw [set_other hset hik]

/-- One chunk that is not assigned before or after changes nothing a lease sees. -/
theorem evolves_set_unassigned {c : Chunk}
    (hset : ∀ i, m'.chunks i = if i = k then c else m.chunks i) (h0 : ¬ (m.chunks k).assigned)
    (h1 : ¬ c.assigned) (hg : c.mappingGeneration = (m.chunks k).mappingGeneration) :
    ChunkEvolves m m' i := by
  by_cases hik : i = k
  · subst hik
    refine Or.inl ?_
    rw [set_self hset]
    exact ⟨hg, ⟨fun h => absurd h h1, fun h => absurd h h0⟩, fun h => absurd h h0⟩
  · exact .same (set_other hset hik)

/-- **A control step keeps every placement or gives the chunk a fresh generation.** -/
theorem ControlStep.evolves (hI : m.Inv) (h : ControlStep m m') : Evolves m m' := by
  cases h with
  | quiet hc _ => exact .of_core (hc ▸ .refl _)
  | reserve p k hp hc hk hs h _ =>
    suffices he : Evolves m (m.reserveChunk p k) from .of_core (h ▸ he.core)
    have hset := reserveChunk_chunks (m := m) p k
    exact { Evolves.refl m with
      leases := fun i => field_set_same (·.activeIoLeases) hset rfl
      chunk := fun i _ => evolves_set_unassigned hset (not_assigned_of_unmapped hs)
        (not_assigned_of_mapping rfl) rfl
      valid := fun s hv => ⟨hv, field_set_same (·.mappingGeneration) hset rfl⟩ }
  | abort c ha hc =>
    obtain ⟨k, hk⟩ := hI.claimed hc
    have hset := abortMapping_chunks hI ha hk
    have hmapping : ¬ (m.chunks k).assigned := not_assigned_of_mapping ((hk.mapping k hk.lt).mpr rfl)
    exact { Evolves.refl m with
      leases := fun i => field_set_same (·.activeIoLeases) hset rfl
      chunk := fun i _ => evolves_set_unassigned hset hmapping (not_assigned_of_unmapped rfl) rfl
      valid := fun s hv => ⟨hv, field_set_same (·.mappingGeneration) hset rfl⟩ }
  | commit c gs ha hc hs hg =>
    obtain ⟨k, g, hk, rfl, hgk, -⟩ := commit_grant hI ha hc hs hg
    have hset := commitMapping_chunks (m := m) (c := c) hgk
    have hmapping : ¬ (m.chunks k).assigned := not_assigned_of_mapping ((hk.mapping k hk.lt).mpr rfl)
    refine { Evolves.refl m with
      generation_le := Nat.le_succ _
      leases := fun i => field_set_same (·.activeIoLeases) hset rfl
      chunk := fun i _ => ?_
      valid := fun s hv => ?_ }
    · by_cases hik : i = k
      · refine Or.inr ?_
        rw [hik, set_self hset]
        exact Nat.lt_succ_self _
      · exact .same (set_other hset hik)
    · rw [sectorValid_of_updated m (m.commitMapping c [g]) rfl] at hv
      split at hv
      · cases hv
      · have hne : s / sectorsPerChunk ≠ k := by
          intro h
          have := (hI.valid s hv).2
          rw [h] at this
          exact hmapping this
        rw [set_other hset hne]
        exact ⟨hv, rfl⟩
  | evictBegin p pcs selected hm _ hne hsel _ =>
    have hch := beginEviction_chunk (n := pcs.length) hsel
    exact { Evolves.refl m with
      leases := fun i => (hch i).2.1
      chunk := fun i _ => Or.inl ⟨(hch i).1, (hch i).2.2.2, fun _ => (hch i).2.2.1⟩
      valid := fun s hv => ⟨hv, (hch _).1⟩ }
  | evictFinish c hv _ => exact (finishEviction_resetTo hv).evolves hI
  | fail p i hi _ _ => exact (failProvider_resetTo hI p i).evolves hI

/-! ### The lease operations on the module -/

theorem sector_chunk_eq {first count s : ℕ} (hfit : count ≤ sectorsPerChunk - first % sectorsPerChunk)
    (h1 : first ≤ s) (h2 : s < first + count) : s / sectorsPerChunk = first / sectorsPerChunk := by
  have hpos : 0 < sectorsPerChunk := by decide
  have hdm := Nat.div_add_mod first sectorsPerChunk
  have hlt := Nat.mod_lt first hpos
  rw [← mem_chunk_iff, Nat.mul_comm]
  omega

theorem requestChunk_ok (h : m.requestChunk r = .ok k) :
    (r.direction = .read ∨ r.direction = .write) ∧ k < m.chunkCount ∧ r.sector / sectorsPerChunk = k ∧
      r.bytes / sectorBytes ≠ 0 ∧
      r.bytes / sectorBytes ≤ sectorsPerChunk - r.sector % sectorsPerChunk := by
  unfold requestChunk at h
  dsimp only at h
  split_ifs at h with h1 h2 h3
  cases h
  push Not at h1 h3
  have hpos : 0 < sectorsPerChunk := by decide
  have hcount : r.bytes / sectorBytes ≠ 0 := by
    intro h0
    have hle : sectorBytes ≤ r.bytes :=
      Nat.le_of_dvd (Nat.pos_of_ne_zero h1.2.1) (Nat.dvd_of_mod_eq_zero h1.2.2)
    exact absurd h0 (Nat.pos_iff_ne_zero.mp (Nat.div_pos hle (by decide)))
  -- the truncated quotient is below the last sector's chunk only if nothing was truncated
  have hle : r.sector / sectorsPerChunk ≤ (r.sector + r.bytes / sectorBytes - 1) / sectorsPerChunk :=
    Nat.div_le_div_right (Nat.le_sub_one_of_lt (Nat.lt_add_of_pos_right (Nat.pos_of_ne_zero hcount)))
  have hmod : r.sector / sectorsPerChunk % 2 ^ 32 ≤ r.sector / sectorsPerChunk := Nat.mod_le _ _
  have heq : r.sector / sectorsPerChunk % 2 ^ 32 = r.sector / sectorsPerChunk := by
    rw [h3.2] at hle
    omega
  refine ⟨?_, h3.1, heq.symm, hcount, ?_⟩
  · by_cases hr : r.direction = .read
    · exact .inl hr
    · exact .inr (h1.1 hr)
  · have hlast := h3.2
    rw [heq] at hlast
    have hlt := Nat.lt_mul_div_succ (r.sector + r.bytes / sectorBytes - 1) hpos
    rw [hlast] at hlt
    have hdm := Nat.div_add_mod r.sector sectorsPerChunk
    have hexp : sectorsPerChunk * (r.sector / sectorsPerChunk + 1) = sectorsPerChunk *
        (r.sector / sectorsPerChunk) + sectorsPerChunk := by rw [Nat.mul_add, Nat.mul_one]
    omega

theorem ioLeaseAcquire_ok {previous : IoLease} {t : TransportMapping}
    (h : m.ioLeaseAcquire r a previous = .ok (l, t, m')) :
    ∃ k, m.requestChunk r = .ok k ∧ m.quiescing = false ∧ previous.magic = 0 ∧
      (m.chunks k).state = .mapped ∧
      (r.direction = .read → m.validityTest r.sector (r.bytes / sectorBytes) = true) ∧
      m.nextIoLeaseId ≠ idMax ∧ m.activeIoLeases ≠ u32Max ∧ l = m.newIoLease r a k ∧
      t = m.transportMapping r.sector k ∧ m' = m.grantLease r k := by
  unfold ioLeaseAcquire at h
  split at h
  · cases h
  rename_i k hk
  dsimp only at h
  split_ifs at h with h1 h2 h3 h4 h5 h6 h7
  cases h
  push Not at h2 h5 h6 h7
  refine ⟨k, hk, by simpa using h1, ?_, h5, fun hr => by simpa using h6 hr, h7.1, h7.2.1, rfl, rfl, rfl⟩
  by_contra hne
  exact h4 (h2 hne)

theorem mapping_of_leases {n : ℕ}
    (hset : ∀ i, m'.chunks i = if i = k then { m.chunks k with activeIoLeases := n } else m.chunks i)
    (hrest : { m' with chunks := m.chunks }.mapping = m.mapping) : m'.mapping = m.mapping := by
  have hch : (fun i => ({ m'.chunks i with activeIoLeases := 0 } : Chunk)) =
      fun i => { m.chunks i with activeIoLeases := 0 } := by
    funext i
    rw [hset]
    split
    · rename_i h; rw [h]
    · rfl
  rw [← hrest, mapping, hch]
  rfl

theorem grantLease_mapping (r : IoRequest) (k : ℕ) : (m.grantLease r k).mapping = m.mapping :=
  mapping_of_leases (fun _ => rfl) rfl

theorem dropLease_mapping (k : ℕ) : (m.dropLease k).mapping = m.mapping :=
  mapping_of_leases (fun _ => rfl) rfl

theorem resolveValidity_eq (l : IoLease) (outcome : IoOutcome) : m.resolveValidity l outcome =
    { m with validSectors := (m.resolveValidity l outcome).validSectors } := by
  unfold resolveValidity
  split <;> rfl

theorem grantLease_valid (r : IoRequest) (k s : ℕ) : (m.grantLease r k).sectorValid s =
    if r.direction = .write ∧ r.sector ≤ s ∧ s < r.sector + r.bytes / sectorBytes then false
    else m.sectorValid s := by
  by_cases hw : r.direction = .write
  · rw [sectorValid_of_updated m (m.grantLease r k) (if_pos hw)]
    simp [hw]
  · rw [if_neg fun h => hw h.1]
    show Bitmap.get (if r.direction = .write then _ else m.validSectors) s = _
    rw [if_neg hw]
    rfl

theorem resolveValidity_valid (l : IoLease) (outcome : IoOutcome) (s : ℕ) :
    (m.resolveValidity l outcome).sectorValid s =
      if (m.chunks l.logicalChunk).mappingGeneration = l.mappingGeneration ∧ l.direction = .write ∧
          l.sector ≤ s ∧ s < l.sector + l.sectorCount then decide (outcome = .success)
      else m.sectorValid s := by
  unfold resolveValidity
  by_cases hc : (m.chunks l.logicalChunk).mappingGeneration = l.mappingGeneration ∧ l.direction = .write
  · rw [if_pos hc, sectorValid_validityUpdate]
    simp [hc.1, hc.2]
  · rw [if_neg hc, if_neg fun h => hc ⟨h.1, h.2.1⟩]

theorem grantLease_chunks (r : IoRequest) (k i : ℕ) : (m.grantLease r k).chunks i = if i = k then
    { m.chunks k with activeIoLeases := (m.chunks k).activeIoLeases + 1 } else m.chunks i := rfl

theorem inv_grantLease (hI : m.Inv) (hk : k < m.chunkCount) (hmax : m.activeIoLeases ≠ u32Max) :
    (m.grantLease r k).Inv := by
  have hset := grantLease_chunks (m := m) r k
  refine { toMapInv := hI.toMapInv.congr (grantLease_mapping r k),
           leases := ?_, leases_le := ?_, valid := ?_ }
  · show m.activeIoLeases + 1 = _
    rw [hI.leases]
    refine (sum_bump hk ?_ fun i hi => ?_).symm
    · rw [set_self hset]
    · rw [set_other hset hi]
  · have := hI.leases_le
    show m.activeIoLeases + 1 ≤ u32Max
    omega
  · intro s hs
    rw [grantLease_valid] at hs
    split at hs
    · cases hs
    · obtain ⟨hlt, ha⟩ := hI.valid s hs
      refine ⟨hlt, ?_⟩
      rwa [Chunk.assigned, field_set_same (·.state) hset rfl]

theorem dropLease_chunks (k i : ℕ) : (m.dropLease k).chunks i = if i = k then
    { m.chunks k with activeIoLeases := (m.chunks k).activeIoLeases - 1 } else m.chunks i := rfl

theorem inv_dropLease (hI : m.Inv) (hk : k < m.chunkCount) (hpos : (m.chunks k).activeIoLeases ≠ 0) :
    (m.dropLease k).Inv := by
  have hset := dropLease_chunks (m := m) k
  refine { toMapInv := hI.toMapInv.congr (dropLease_mapping k), leases := ?_, leases_le := ?_, valid := ?_ }
  · show m.activeIoLeases - 1 = _
    have hsum : ∑ i ∈ Finset.range m.chunkCount, (m.chunks i).activeIoLeases =
        (∑ i ∈ Finset.range m.chunkCount, ((m.dropLease k).chunks i).activeIoLeases) + 1 := by
      refine sum_bump hk ?_ fun i hi => ?_
      · rw [set_self hset]
        show (m.chunks k).activeIoLeases = (m.chunks k).activeIoLeases - 1 + 1
        omega
      · rw [set_other hset hi]
    rw [hI.leases, hsum]
    rfl
  · have := hI.leases_le
    show m.activeIoLeases - 1 ≤ u32Max
    omega
  · intro s hs
    obtain ⟨hlt, ha⟩ := hI.valid s hs
    refine ⟨hlt, ?_⟩
    rwa [Chunk.assigned, field_set_same (·.state) hset rfl]

theorem inv_resolveValidity (hI : m.Inv) {outcome : IoOutcome} (hlt : l.logicalChunk < m.chunkCount)
    (hsec : l.sector / sectorsPerChunk = l.logicalChunk)
    (hfit : l.sectorCount ≤ sectorsPerChunk - l.sector % sectorsPerChunk)
    (hcur : (m.chunks l.logicalChunk).mappingGeneration = l.mappingGeneration →
      (m.chunks l.logicalChunk).assigned) : (m.resolveValidity l outcome).Inv := by
  have heq := resolveValidity_eq (m := m) l outcome
  refine { toMapInv := hI.toMapInv.congr ?_, leases := ?_, leases_le := ?_, valid := ?_ }
  · rw [heq]; rfl
  · rw [heq]; exact hI.leases
  · rw [heq]; exact hI.leases_le
  · intro s hs
    rw [resolveValidity_valid] at hs
    rw [heq]
    split at hs
    · rename_i hc
      have hs' : s / sectorsPerChunk = l.logicalChunk := by
        rw [← hsec]
        exact sector_chunk_eq hfit hc.2.2.1 hc.2.2.2
      rw [hs']
      exact ⟨hlt, hcur hc.1⟩
    · exact hI.valid s hs

/-! ### Lease storage -/

/-- The cell at address `a` holds a lease of the module. -/
def Own (m : ChunkModule) (a : ℕ) (l : IoLease) : Prop :=
  l.magic = leaseMagic ∧ l.moduleIdentity = m.identity ∧ l.storageIdentity = a

instance (m : ChunkModule) (a : ℕ) (l : IoLease) : Decidable (m.Own a l) :=
  inferInstanceAs (Decidable (_ ∧ _))

/-- The cell holds a lease that has not been released. -/
def Live (m : ChunkModule) (a : ℕ) (l : IoLease) : Prop := m.Own a l ∧ l.released = false

instance (m : ChunkModule) (a : ℕ) (l : IoLease) : Decidable (m.Live a l) :=
  inferInstanceAs (Decidable (_ ∧ _))

/-- What a lease of the module satisfies. -/
structure LeaseOk (m : ChunkModule) (l : IoLease) : Prop where
  id_ne : l.leaseId ≠ 0
  id_le : l.leaseId ≤ m.nextIoLeaseId
  generation_ne : l.mappingGeneration ≠ 0
  generation_le : l.mappingGeneration ≤ m.nextMappingGeneration
  count_ne : l.sectorCount ≠ 0
  chunk_lt : l.logicalChunk < m.chunkCount
  sector : l.sector / sectorsPerChunk = l.logicalChunk
  fits : l.sectorCount ≤ sectorsPerChunk - l.sector % sectorsPerChunk
  direction : l.direction = .read ∨ l.direction = .write
  state : l.state = 0 ∨ l.state = 1 ∨ l.state = 3
  current : (m.chunks l.logicalChunk).mappingGeneration = l.mappingGeneration →
    (m.chunks l.logicalChunk).assigned

/-- The lease cells agree with the module. -/
structure LeaseStore (m : ChunkModule) (leases : ℕ → IoLease) : Prop where
  ok : ∀ a, m.Own a (leases a) → m.LeaseOk (leases a)
  counted : ∃ live : Finset ℕ, (∀ a, a ∈ live ↔ m.Live a (leases a)) ∧
    ∀ i < m.chunkCount,
      (m.chunks i).activeIoLeases = (live.filter fun a => (leases a).logicalChunk = i).card

theorem LeaseOk.validate (h : m.LeaseOk l) (ho : m.Own a l) :
    m.leaseValidate a l = .ok () := by
  obtain ⟨hmagic, hid, hst⟩ := ho
  have hstate : l.state < 4 ∧ ¬ (l.released = true ∧ (!l.resolved) = true) := by
    rcases h.state with hs | hs | hs <;>
      rw [hs, IoLease.released_of_state hs, IoLease.resolved_of_state hs] <;> decide
  unfold leaseValidate
  rw [if_neg, if_neg, if_neg]
  · push Not
    refine ⟨h.id_le, h.generation_le, h.chunk_lt, h.sector, h.fits, fun hr => ?_, by omega, ?_⟩
    · exact h.direction.resolve_left hr
    · intro h1 h2
      exact hstate.2 ⟨h1, h2⟩
  · exact not_not.mpr hid
  · push Not
    exact ⟨hmagic, h.id_ne, h.generation_ne, h.count_ne, hst⟩

theorem own_of_validate (h : m.leaseValidate a l = .ok ()) : m.Own a l := by
  unfold leaseValidate at h
  split_ifs at h with h1 h2
  push Not at h1
  exact ⟨h1.1, not_not.mp h2, h1.2.2.2.2⟩

theorem LeaseOk.evolves (h : m.LeaseOk l) (he : Evolves m m') : m'.LeaseOk l :=
  { h with
    id_le := he.leaseId ▸ h.id_le
    generation_le := h.generation_le.trans he.generation_le
    chunk_lt := he.chunkCount ▸ h.chunk_lt
    current := fun hc => by
      rcases he.chunk l.logicalChunk h.chunk_lt with ⟨hg, ha, -⟩ | hfresh
      · exact ha.mpr (h.current (hg.symm.trans hc))
      · have := h.generation_le
        omega }

/-- Control steps keep the lease cells in agreement. -/
theorem LeaseStore.evolves (h : m.LeaseStore leases) (he : Evolves m m') :
    m'.LeaseStore leases := by
  have hown : ∀ a, m'.Own a (leases a) ↔ m.Own a (leases a) := fun a => by rw [Own, Own, he.identity]
  obtain ⟨live, hlive, hcount⟩ := h.counted
  refine ⟨fun a ha => (h.ok a ((hown a).mp ha)).evolves he, live, fun a => ?_, fun i hi => ?_⟩
  · rw [hlive, Live, Live, hown]
  · rw [he.leases]
    exact hcount i (he.chunkCount ▸ hi)

theorem LeaseStore.card (h : m.LeaseStore leases) (hI : m.Inv) :
    ∃ live : Finset ℕ, (∀ a, a ∈ live ↔ m.Live a (leases a)) ∧ m.activeIoLeases = live.card := by
  obtain ⟨live, hlive, hcount⟩ := h.counted
  refine ⟨live, hlive, ?_⟩
  rw [hI.leases, Finset.card_eq_sum_card_fiberwise (f := fun a => (leases a).logicalChunk)
    (t := Finset.range m.chunkCount)]
  · exact Finset.sum_congr rfl fun i hi => hcount i (Finset.mem_range.mp hi)
  · intro a ha
    exact Finset.mem_coe.mpr (Finset.mem_range.mpr (h.ok a ((hlive a).mp ha).1).chunk_lt)

theorem LeaseStore.counted_pos (h : m.LeaseStore leases) (hI : m.Inv) (ha : m.Live a (leases a)) :
    (m.chunks (leases a).logicalChunk).activeIoLeases ≠ 0 ∧ m.activeIoLeases ≠ 0 := by
  obtain ⟨live, hlive, hcount⟩ := h.counted
  have hlt := (h.ok a ha.1).chunk_lt
  have hchunk : (m.chunks (leases a).logicalChunk).activeIoLeases ≠ 0 := by
    rw [hcount _ hlt]
    exact Finset.card_ne_zero_of_mem (Finset.mem_filter.mpr ⟨(hlive a).mpr ha, rfl⟩)
  refine ⟨hchunk, fun h0 => hchunk ?_⟩
  have hsum := hI.leases
  rw [h0] at hsum
  exact Finset.sum_eq_zero_iff.mp hsum.symm _ (Finset.mem_range.mpr hlt)

/-! ### The lease operations on the cells -/

theorem LeaseOk.mono (h : m.LeaseOk l) (hid : m.nextIoLeaseId ≤ m'.nextIoLeaseId)
    (hg : m'.nextMappingGeneration = m.nextMappingGeneration) (hn : m'.chunkCount = m.chunkCount)
    (hc : ∀ i, (m'.chunks i).mappingGeneration = (m.chunks i).mappingGeneration ∧
      (m'.chunks i).state = (m.chunks i).state) : m'.LeaseOk l :=
  { h with
    id_le := h.id_le.trans hid
    generation_le := hg ▸ h.generation_le
    chunk_lt := hn ▸ h.chunk_lt
    current := fun hcur => by
      rw [Chunk.assigned, (hc _).2]
      exact h.current ((hc _).1.symm.trans hcur) }

theorem newIoLease_ok (hI : m.Inv) (hr : m.requestChunk r = .ok k)
    (hs : (m.chunks k).state = .mapped) : (m.grantLease r k).LeaseOk (m.newIoLease r a k) := by
  obtain ⟨hd, hk, hsec, hne, hfit⟩ := requestChunk_ok hr
  have hassigned : (m.chunks k).assigned := .inl hs
  have hset := grantLease_chunks (m := m) r k
  exact
    { id_ne := Nat.succ_ne_zero _
      id_le := le_rfl
      generation_ne := (hI.chunk k hk).generation_ne hassigned
      generation_le := (hI.chunk k hk).generation_le
      count_ne := hne
      chunk_lt := hk
      sector := hsec
      fits := hfit
      direction := hd
      state := .inl rfl
      current := fun _ => by
        show ((m.grantLease r k).chunks k).assigned
        rw [set_self hset]
        exact hassigned }

theorem LeaseStore.acquire (h : m.LeaseStore leases) (hI : m.Inv) (hr : m.requestChunk r = .ok k)
    (hs : (m.chunks k).state = .mapped) (hprev : (leases a).magic = 0) :
    (m.grantLease r k).LeaseStore (Function.update leases a (m.newIoLease r a k)) := by
  have hset := grantLease_chunks (m := m) r k
  have hnot : ¬ m.Own a (leases a) := by
    rintro ⟨hm, -⟩
    rw [hprev] at hm
    exact absurd hm (by decide)
  obtain ⟨live, hlive, hcount⟩ := h.counted
  have ha : a ∉ live := fun hmem => hnot ((hlive a).mp hmem).1
  refine ⟨fun b hb => ?_, insert a live, fun b => ?_, fun i hi => ?_⟩
  · by_cases hba : b = a
    · subst hba
      rw [Function.update_self]
      exact newIoLease_ok hI hr hs
    · rw [Function.update_of_ne hba] at hb ⊢
      refine (h.ok b hb).mono (Nat.le_succ _) rfl rfl fun i => ?_
      exact ⟨field_set_same (·.mappingGeneration) hset rfl, field_set_same (·.state) hset rfl⟩
  · by_cases hba : b = a
    · subst hba
      rw [Function.update_self]
      simp only [Finset.mem_insert_self, true_iff]
      exact ⟨⟨rfl, rfl, rfl⟩, Nat.zero_testBit 1⟩
    · rw [Function.update_of_ne hba, Finset.mem_insert]
      exact ⟨fun hb => (hlive b).mp (hb.resolve_left hba), fun hb => .inr ((hlive b).mpr hb)⟩
  · have hrest :
        (live.filter fun b => (Function.update leases a (m.newIoLease r a k) b).logicalChunk = i) =
        live.filter fun b => (leases b).logicalChunk = i := by
      refine Finset.filter_congr fun b hb => ?_
      rw [Function.update_of_ne]
      rintro rfl
      exact ha hb
    have hnew : (m.newIoLease r a k).logicalChunk = k := rfl
    rw [Finset.filter_insert, Function.update_self, hrest, hnew]
    by_cases hik : i = k
    · subst hik
      rw [set_self hset,
        if_pos rfl, Finset.card_insert_of_notMem fun hm => ha (Finset.mem_filter.mp hm).1]
      exact congrArg (· + 1) (hcount i hi)
    · rw [set_other hset hik, if_neg fun h : k = i => hik h.symm]
      exact hcount i hi

theorem LeaseStore.rewrite (h : m.LeaseStore leases) (hc : m'.chunks = m.chunks)
    (hn : m'.chunkCount = m.chunkCount) (hid : m'.identity = m.identity)
    (hlid : m'.nextIoLeaseId = m.nextIoLeaseId)
    (hg : m'.nextMappingGeneration = m.nextMappingGeneration)
    (hlive' : m.Live a l ↔ m.Live a (leases a)) (hok : m.Own a l → m.LeaseOk l)
    (hchunk : m.Live a l → l.logicalChunk = (leases a).logicalChunk) :
    m'.LeaseStore (Function.update leases a l) := by
  have hown : ∀ b l, m'.Own b l ↔ m.Own b l := fun b l => by rw [Own, Own, hid]
  have hmono : ∀ {l}, m.LeaseOk l → m'.LeaseOk l := fun hl =>
    hl.mono hlid.ge hg hn fun i => by rw [hc]; exact ⟨rfl, rfl⟩
  obtain ⟨live, hlive, hcount⟩ := h.counted
  refine ⟨fun b hb => ?_, live, fun b => ?_, fun i hi => ?_⟩
  · by_cases hba : b = a
    · subst hba
      rw [Function.update_self] at hb ⊢
      exact hmono (hok ((hown b l).mp hb))
    · rw [Function.update_of_ne hba] at hb ⊢
      exact hmono (h.ok b ((hown b _).mp hb))
  · by_cases hba : b = a
    · subst hba
      rw [Function.update_self, hlive, ← hlive', Live, Live, hown]
    · rw [Function.update_of_ne hba, hlive, Live, Live, hown]
  · rw [hc, hcount i (hn ▸ hi)]
    congr 1
    refine Finset.filter_congr fun b hb => ?_
    by_cases hba : b = a
    · subst hba
      rw [Function.update_self, hchunk (hlive'.mpr ((hlive b).mp hb))]
    · rw [Function.update_of_ne hba]

theorem LeaseOk.resolve (h : m.LeaseOk l) (hr : l.resolved = false) :
    m.LeaseOk { l with state := l.state ||| 1 } ∧ l.state = 0 := by
  have h0 : l.state = 0 := by
    rcases h.state with hs | hs | hs
    · exact hs
    · rw [IoLease.resolved_of_state hs] at hr; exact absurd hr (by decide)
    · rw [IoLease.resolved_of_state hs] at hr; exact absurd hr (by decide)
  exact ⟨{ h with state := .inr (.inl (by simp [h0])) }, h0⟩

theorem LeaseStore.resolve (h : m.LeaseStore leases) (outcome : IoOutcome) (ho : m.Own a (leases a))
    (hr : (leases a).resolved = false) :
    (m.resolveValidity (leases a) outcome).LeaseStore
      (Function.update leases a { leases a with state := (leases a).state ||| 1 }) := by
  obtain ⟨hok, h0⟩ := (h.ok a ho).resolve hr
  have heq := resolveValidity_eq (m := m) (leases a) outcome
  have hrel : ({ leases a with state := (leases a).state ||| 1 } : IoLease).released =
      (leases a).released := by
    rw [IoLease.released_of_state (n := 1) (by simp [h0]), IoLease.released_of_state h0]
    decide
  refine h.rewrite (by rw [heq]) (by rw [heq]) (by rw [heq]) (by rw [heq]) (by rw [heq]) ?_ (fun _ => hok)
    fun _ => rfl
  rw [Live, Live, hrel]
  rfl

theorem LeaseStore.release (h : m.LeaseStore leases) (hl : m.Live a (leases a))
    (hr : (leases a).resolved = true) :
    (m.dropLease (leases a).logicalChunk).LeaseStore
      (Function.update leases a { leases a with state := (leases a).state ||| 2 }) := by
  have hok := h.ok a hl.1
  have h1 : (leases a).state = 1 := by
    rcases hok.state with hs | hs | hs
    · rw [IoLease.resolved_of_state hs] at hr; exact absurd hr (by decide)
    · exact hs
    · exact absurd hl.2 (by rw [IoLease.released_of_state hs]; decide)
  have hset := dropLease_chunks (m := m) (leases a).logicalChunk
  have hmono : ∀ {l}, m.LeaseOk l → (m.dropLease (leases a).logicalChunk).LeaseOk l := fun hl =>
    hl.mono le_rfl rfl rfl fun i =>
      ⟨field_set_same (·.mappingGeneration) hset rfl, field_set_same (·.state) hset rfl⟩
  obtain ⟨live, hlive, hcount⟩ := h.counted
  refine ⟨fun b hb => ?_, live.erase a, fun b => ?_, fun i hi => ?_⟩
  · by_cases hba : b = a
    · subst hba
      rw [Function.update_self]
      exact hmono { hok with state := .inr (.inr (by simp [h1])) }
    · rw [Function.update_of_ne hba] at hb ⊢
      exact hmono (h.ok b hb)
  · by_cases hba : b = a
    · subst hba
      rw [Function.update_self]
      simp only [Finset.mem_erase, ne_eq, not_true_eq_false, false_and, false_iff]
      rintro ⟨-, hrel⟩
      rw [IoLease.released_of_state (n := 3) (by simp [h1])] at hrel
      exact absurd hrel (by decide)
    · rw [Function.update_of_ne hba, Finset.mem_erase]
      exact ⟨fun hb => (hlive b).mp hb.2, fun hb => ⟨hba, (hlive b).mpr hb⟩⟩
  · have hrest : ((live.erase a).filter fun b =>
          (Function.update leases a
            { leases a with state := (leases a).state ||| 2 } b).logicalChunk = i) =
        (live.filter fun b => (leases b).logicalChunk = i).erase a := by
      ext b
      simp only [Finset.mem_filter, Finset.mem_erase]
      constructor
      · rintro ⟨⟨hba, hb⟩, he⟩
        rw [Function.update_of_ne hba] at he
        exact ⟨hba, hb, he⟩
      · rintro ⟨hba, hb, he⟩
        rw [Function.update_of_ne hba]
        exact ⟨⟨hba, hb⟩, he⟩
    rw [hrest]
    by_cases hik : i = (leases a).logicalChunk
    · have hmem : a ∈ live.filter fun b => (leases b).logicalChunk = (leases a).logicalChunk :=
        Finset.mem_filter.mpr ⟨(hlive a).mpr hl, rfl⟩
      rw [hik, set_self hset, Finset.card_erase_of_mem hmem, ← hcount _ hok.chunk_lt]
    · rw [set_other hset hik, Finset.erase_eq_of_notMem fun hm => hik (Finset.mem_filter.mp hm).2.symm]
      exact hcount i hi

end ChunkModule
end RemoteChunk
end Infiniswap
