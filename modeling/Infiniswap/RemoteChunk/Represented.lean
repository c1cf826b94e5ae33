/-
# What the counters of a Remote Chunk module mean

The representation invariant in the terms of a reader of the module: each
counter is the number of the things it counts, in every world that calls on a
created module can reach. The lease counter is an `unsigned int`; a run that
holds 2³² − 1 leases meets its limit long before an identifier is exhausted.
-/
import Infiniswap.RemoteChunk.Calls

namespace Infiniswap
namespace RemoteChunk

open ChunkModule Transition Counting

variable {w : World} {n : ℕ}

theorem ChunkModule.ClaimedFor.active {m : ChunkModule} (hI : m.Inv) {k : ℕ} (h : m.ClaimedFor k) :
    m.mappingClaimActive m.activeMappingClaim = true := by
  have hs : (m.chunks k).state = .mapping := (h.mapping k h.lt).mpr rfl
  have hpos := hI.count_pos
  have hnamed : ∀ i < m.chunkCount, (m.chunks i).mappingClaimId = m.activeMappingClaim.claimId ↔
      i = k := by
    intro i hi
    rw [h.claim]
    exact h.named_iff hI hi
  have hmember : m.mappingMember m.activeMappingClaim k := by
    rw [h.claim]
    exact ⟨hs, rfl, rfl⟩
  simp only [mappingClaimActive, Bool.and_eq_true, decide_eq_true_eq, beq_iff_eq]
  refine ⟨⟨⟨⟨⟨trivial, ?_⟩, ?_⟩, fun i hi hn => (hnamed i hi).mp hn ▸ hmember⟩, ?_⟩, ?_⟩
  · rw [h.claim]
    exact (hI.chunk k h.lt).provider (by simp [hs])
  · rw [h.claim]
    exact hpos
  · rw [count_eq_one h.lt hnamed, h.claim]
  · have hdigest : batchDigest (fun i => decide
        ((m.chunks i).mappingClaimId = m.activeMappingClaim.claimId)) m.chunkCount =
        batchDigest (fun i => decide (i = k)) m.chunkCount :=
      batchDigest_congr fun i hi => by simp [hnamed i hi]
    rw [hdigest, h.claim]

/-- What the counters and claims of a world mean, in terms of its chunks and lease cells. -/
structure World.Represented (w : World) : Prop where
  assigned : w.module.assignedChunks = Nat.count (fun i => (w.module.chunks i).state = .mapped ∨
    (w.module.chunks i).state = .evicting) w.module.chunkCount
  usable : w.module.usableChunks =
    Nat.count (fun i => (w.module.chunks i).state = .mapped) w.module.chunkCount
  oneClaim : w.module.activeMappingClaims ≤ 1
  noClaim : w.module.activeMappingClaims = 0 →
    ∀ i < w.module.chunkCount, (w.module.chunks i).state ≠ .mapping
  claim : w.module.activeMappingClaims = 1 →
    w.module.mappingClaimActive w.module.activeMappingClaim = true ∧
      ∀ i < w.module.chunkCount,
        (w.module.chunks i).mappingClaimId = w.module.activeMappingClaim.claimId ↔
        (w.module.chunks i).state = .mapping
  evictions : w.module.activeEvictionClaims = Set.ncard {id | ∃ i < w.module.chunkCount,
    (w.module.chunks i).state = .evicting ∧ (w.module.chunks i).evictionClaimId = id}
  leases : w.module.activeIoLeases =
    ∑ i ∈ Finset.range w.module.chunkCount, (w.module.chunks i).activeIoLeases
  unreleased : {a | w.module.Live a (w.leases a)}.Finite ∧
    w.module.activeIoLeases = {a | w.module.Live a (w.leases a)}.ncard
  provider : ∀ i < w.module.chunkCount, (w.module.chunks i).state ≠ .unmapped →
    ∃ j < w.module.providerCount, (w.module.providers j).handle = (w.module.chunks i).provider ∧
      (w.module.providers j).failed = false
  remoteOnly : w.module.mode = .remoteOnly →
    ∀ i < w.module.chunkCount, (w.module.chunks i).state ≠ .evicting

theorem WorldInv.represented (h : WorldInv w) : w.Represented := by
  have hI := h.module
  obtain ⟨live, hlive, hcard⟩ := h.leases.card hI
  have hset : {a | w.module.Live a (w.leases a)} = ↑live := by
    ext a
    exact (hlive a).symm
  exact
    { assigned := hI.assigned
      usable := hI.usable
      oneClaim := by
        rcases hI.claim with h0 | ⟨k, hk⟩
        · rw [h0.count]; omega
        · exact hk.count.le
      noClaim := fun h0 => (hI.noClaim h0).mapping
      claim := fun h1 => by
        obtain ⟨k, hk⟩ := hI.claimed (by omega)
        refine ⟨hk.active hI, fun i hi => ?_⟩
        rw [hk.mapping i hi, hk.claim]
        exact hk.named_iff hI hi
      evictions := by
        rw [hI.evictions, ← Set.ncard_coe_finset]
        congr 1
        ext x
        exact mem_tags
      leases := hI.leases
      unreleased := by
        rw [hset, Set.ncard_coe_finset]
        exact ⟨live.finite_toSet, hcard⟩
      provider := fun i hi hs => by
        obtain ⟨j, hj, hf⟩ := w.module.providerValid_iff.mp ((hI.chunk i hi).provider hs)
        obtain ⟨hlt, hh⟩ := w.module.providerRosterIndex_some hj
        exact ⟨j, hlt, hh, by simpa using hf⟩
      remoteOnly := fun hm i hi hs => by
        have := (hI.chunk i hi).backed hs
        rw [hm] at this
        cases this }

/-- **The representation invariant.** In every world a run reaches the counters and claims mean what
they say, a snapshot that can allocate succeeds, and a call takes a defensive branch only when an
identifier is exhausted or 2³² − 1 leases or waits are outstanding. -/
theorem chunk_module_represented {w : World} (h : chunkSystem.Reachable w) :
    w.Represented ∧ (∃ s, w.module.snapshotTake true = .ok s) ∧
      (∀ a, w.module.leaseValidate a (w.leases a) = .ok () → (w.leases a).resolved = true →
        (w.leases a).released = false → (w.module.ioLeaseRelease a (w.leases a)).1 = .ok ()) ∧
      (w.module.IdsLast → w.module.activeIoLeases < u32Max → w.module.activeEvictionWaits < u32Max →
        ∀ c r w', w.call c = some (r, w') → ¬ r.Defensive) :=
  have hI := world_inv h
  ⟨hI.represented, snapshotTake_ok hI.module, fun _ hv hres hrel => release_ok hI hv hres hrel,
    fun hids hl hw _ _ _ hc => call_not_defensive hI hids hl hw hc⟩

/-! ### The lease counter at its limit -/

/-- A Remote-Only device of one chunk and one Provider. -/
def oneChunkConfig : Config :=
  { mode := .remoteOnly
    chunkCount := 1
    hotPolicy := ⟨1, 1, 1⟩
    providers := [⟨"p", 1⟩]
    placementSampleSize := 1
    placementSeed := 1 }

def oneChunkWorld : World := createdWorld oneChunkConfig

/-- The calls that map the chunk. -/
def oneChunkCalls : List Call :=
  [.observe ⟨1, 1⟩ ⟨1, 1, .none, true⟩,
   .nextMapping fun _ => 0,
   .mappingFinish ⟨claimMagic, 1, ⟨1, 1⟩, 1, 1, batchDigest (fun i => i = 0) 1, 1, 1⟩ .commit ⟨1, 1⟩
     (.array [⟨0, 0, 1, 1⟩])]

theorem oneChunkWorld_fresh : oneChunkWorld.Fresh :=
  createdWorld_fresh (show oneChunkConfig.validate 1 = .ok () by decide)

/-- The chunk is mapped and `n` leases on it are outstanding, the cells from `n` on unused. -/
structure Leased (n : ℕ) (w : World) : Prop where
  reachable : chunkSystem.Reachable w
  count : w.module.chunkCount = 1
  state : (w.module.chunks 0).state = .mapped
  quiescing : w.module.quiescing = false
  mappingClaim : w.module.nextMappingClaimId = 1
  evictionClaim : w.module.nextEvictionClaimId = 0
  transition : w.module.nextTransitionGeneration = 1
  generation : w.module.nextMappingGeneration = 1
  lease : w.module.nextIoLeaseId = n
  total : w.module.activeIoLeases = n
  waits : w.module.activeEvictionWaits = 0
  destroyed : w.destroyed = false
  cells : ∀ a, n ≤ a → (w.leases a).magic = 0

theorem leased_zero : ∃ w, Leased 0 w := by
  obtain ⟨w, hw, hl, h1, h2, h3, h4, h5, h6, h7, h8, h9, h10, h11⟩ :
      ∃ w, chunkSystem.exec oneChunkWorld oneChunkCalls = some w ∧ w.leases = oneChunkWorld.leases ∧
      w.module.chunkCount = 1 ∧ (w.module.chunks 0).state = .mapped ∧ w.module.quiescing = false ∧
      w.module.nextMappingClaimId = 1 ∧ w.module.nextEvictionClaimId = 0 ∧
      w.module.nextTransitionGeneration = 1 ∧ w.module.nextMappingGeneration = 1 ∧
      w.module.nextIoLeaseId = 0 ∧ w.module.activeIoLeases = 0 ∧ w.module.activeEvictionWaits = 0 ∧
      w.destroyed = false :=
    ⟨_, rfl, rfl, by decide⟩
  refine ⟨w, System.reachable_of_exec (.init oneChunkWorld_fresh) hw, h1, h2, h3, h4, h5, h6, h7,
    h8, h9, h10, h11, ?_⟩
  intro a _
  rw [hl]
  rfl

/-- Chunk 0 as the target of a one-sector write. -/
def sectorWrite : IoRequest := ⟨.write, 0, 512⟩

theorem Leased.requestChunk (h : Leased n w) : w.module.requestChunk sectorWrite = .ok 0 := by
  unfold ChunkModule.requestChunk
  rw [h.count]
  decide

theorem Leased.acquire (h : Leased n w) :
    w.module.ioLeaseAcquire sectorWrite n (w.leases n) =
      if w.module.nextIoLeaseId = idMax ∨ w.module.activeIoLeases = u32Max ∨
          (w.module.chunks 0).activeIoLeases = u32Max then .error .eoverflow
      else .ok (w.module.newIoLease sectorWrite n 0, w.module.transportMapping 0 0,
        w.module.grantLease sectorWrite 0) := by
  have hmagic := h.cells n le_rfl
  unfold ioLeaseAcquire
  rw [h.requestChunk]
  dsimp only
  rw [if_neg (by simp [h.quiescing]), if_neg (by simp [hmagic]), if_neg (by simp [hmagic, leaseMagic]),
    if_neg (by simp [hmagic, leaseMagic]), if_neg (by simp [h.state]), if_neg (by simp [sectorWrite])]
  rfl

theorem Leased.idsLast (h : Leased n w) (hn : n ≤ u32Max) : w.module.IdsLast := by
  refine ⟨?_, ?_, ?_, ?_, ?_⟩
  · rw [h.mappingClaim]; decide
  · rw [h.evictionClaim]; decide
  · rw [h.transition]; decide
  · rw [h.generation, h.count]; decide
  · rw [h.lease]
    exact hn.trans_lt (by decide)

/-- One more lease fits as long as the counter is below its limit. -/
theorem Leased.succ (h : Leased n w) (hn : n < u32Max) : ∃ w', Leased (n + 1) w' := by
  have hid := (h.idsLast hn.le).lease
  have hchunk := (world_inv h.reachable).module.chunk_leases_le (k := 0) (by rw [h.count]; decide)
  rw [h.total] at hchunk
  have hcall := h.acquire
  rw [if_neg (by rw [h.total]; omega)] at hcall
  refine ⟨w.setLease (w.module.grantLease sectorWrite 0) n (w.module.newIoLease sectorWrite n 0),
    h.reachable.step (l := .leaseAcquire sectorWrite n) trivial ?_, h.count, h.state, h.quiescing,
    h.mappingClaim, h.evictionClaim, h.transition, h.generation, congrArg (· + 1) h.lease,
    congrArg (· + 1) h.total, h.waits, h.destroyed, fun a ha => ?_⟩
  · show (if w.destroyed then none else (w.call (.leaseAcquire sectorWrite n)).map Prod.snd) = _
    rw [if_neg (by simp [h.destroyed])]
    dsimp only [World.call]
    rw [hcall]
    rfl
  · show (Function.update w.leases n _ a).magic = 0
    rw [Function.update_of_ne (by omega)]
    exact h.cells a (by omega)

theorem exists_leased : ∀ n, n ≤ u32Max → ∃ w, Leased n w
  | 0, _ => leased_zero
  | n + 1, hn => by
    obtain ⟨w, hw⟩ := exists_leased n (by omega)
    exact hw.succ (by omega)

/-- With 2³² − 1 leases outstanding and every identifier far from exhausted, an acquire overflows. -/
theorem lease_counter_overflows : ∃ w, chunkSystem.Reachable w ∧ w.module.IdsLast ∧ w.destroyed = false ∧
    ∃ c r w', w.call c = some (r, w') ∧ r.Defensive := by
  obtain ⟨w, h⟩ := exists_leased u32Max le_rfl
  have hcall := h.acquire
  rw [if_pos (.inr (.inl h.total))] at hcall
  refine ⟨w, h.reachable, h.idsLast le_rfl, h.destroyed, .leaseAcquire sectorWrite u32Max,
    .leased (.error .eoverflow), w, ?_, rfl⟩
  dsimp only [World.call]
  rw [hcall]

/-- A mapped chunk with three leases outstanding. -/
theorem chunk_module_represented_three : ∃ w : World, w.module.activeIoLeases = 3 ∧ w.Represented ∧
    ∀ c r w', w.call c = some (r, w') → ¬ r.Defensive := by
  obtain ⟨w, h⟩ := exists_leased 3 (by decide)
  obtain ⟨hr, -, -, hd⟩ := chunk_module_represented h.reachable
  refine ⟨w, h.total, hr, hd (h.idsLast (by decide)) ?_ ?_⟩
  · rw [h.total]; decide
  · rw [h.waits]; decide

end RemoteChunk
end Infiniswap
