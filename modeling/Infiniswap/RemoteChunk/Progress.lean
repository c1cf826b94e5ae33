/-
# Calls that succeed

When the guards of an operation hold, the operation goes through: a hot
unmapped chunk is reserved, the active claim can be committed with a good
grant or aborted, usable chunks can be evicted and a drained eviction can be
finished. With them a run can be continued for as long as identifiers last,
and to the end of the mapping generations (`exists_exhausted`).
-/
import Infiniswap.RemoteChunk.Stability

namespace Infiniswap
namespace RemoteChunk
namespace ChunkModule

open Counting

variable {m : ChunkModule}

/-! ### Mapping -/

variable {k : ℕ}

/-- A Backed module with a hot unmapped chunk and capacity to offer reserves the first such chunk. -/
theorem nextMapping_reserves (hI : m.Inv) (hmap : m.nextMappingClaimId < idMax)
    (htrans : m.nextTransitionGeneration < idMax) (hq : m.quiescing = false) (hm : m.mode = .backed)
    (hc : m.activeMappingClaims = 0)
    (hfind : (List.range m.chunkCount).find? (m.mappingCandidate false) = some k)
    (hne : m.eligibleProviders ≠ []) (draws : ℕ → ℕ) :
    ∃ i ∈ m.eligibleProviders, ∃ rng, m.nextMapping draws =
      (.request, some ⟨(m.providers i).handle, .opportunistic, k,
        m.newMappingClaim (m.providers i).handle k⟩,
        (m.setPlacementRng rng).reserveChunk (m.providers i).handle k) := by
  have hcount : m.providerCount ≠ 0 := fun h0 => hne (by simp [eligibleProviders, h0])
  have hmem := chooseProvider_mem draws hne (hI.sample hcount)
  have hk := List.mem_range.mp (List.mem_of_find?_eq_some hfind)
  have hs := List.find?_some hfind
  simp only [mappingCandidate, Bool.and_eq_true, decide_eq_true_eq] at hs
  have hcreate :=
    mappingClaimCreate_isOk (m := m.setPlacementRng (m.chooseProvider draws m.eligibleProviders).2)
    (p := (m.providers (m.chooseProvider draws m.eligibleProviders).1).handle) hmap htrans hq
    (eligible_valid hI hmem) hc hk hs.1
  refine ⟨_, hmem, (m.chooseProvider draws m.eligibleProviders).2, ?_⟩
  unfold nextMapping
  dsimp only
  rw [if_neg (by simp [hq]), if_neg (by simp [hc]), if_neg (by simp [hm]), if_neg (by simp [hm])]
  have hbacked : decide (m.mode = .remoteOnly) = false := by simp [hm]
  rw [hbacked, hfind]
  dsimp only
  rw [if_neg (by simp), if_neg hne, placeChunk, hcreate]
  rfl

/-- The active claim gets past every check of a finish up to its terminal transition. -/
theorem mappingFinish_active (hI : m.Inv) (hk : m.ClaimedFor k) {action : MappingFinishAction}
    {grants : GrantArg} (hact : action = .commit ∨ action = .abort)
    (hnull : action = .abort → grants = .null 0) :
    m.mappingFinish m.activeMappingClaim action m.activeMappingClaim.provider grants =
      m.mappingFinishActive m.activeMappingClaim action m.activeMappingClaim.provider grants := by
  have hstate : (m.chunks k).state = .mapping := (hk.mapping k hk.lt).mpr rfl
  have hok := hI.chunk k hk.lt
  have hprov : m.activeMappingClaim.provider = (m.chunks k).provider := by rw [hk.claim]
  have hvalid : m.providerValid m.activeMappingClaim.provider = true :=
    hprov ▸ hok.provider (by simp [hstate])
  have hcount : m.activeMappingClaim.chunkCount = 1 := by rw [hk.claim]
  have hid : m.activeMappingClaim.claimId = (m.chunks k).mappingClaimId := by rw [hk.claim]
  have htr : m.activeMappingClaim.transitionGeneration = (m.chunks k).transitionGeneration := by
    rw [hk.claim]
  have hne : m.activeMappingClaim ≠ m.lastMappingTerminalClaim := by
    rw [hk.superseded]
    intro h0
    exact hok.mappingId.mpr hstate (hid.symm.trans (by rw [h0]))
  have hpos := hI.count_pos
  have hle := hok.mappingId_le
  have hle' := hok.transition_le
  unfold mappingFinish
  rw [if_neg (by simp [hI.wellFormed hvalid, hk.wellFormed hI, hcount]; omega),
    if_neg (fun h => h.2 (hnull h.1)), if_neg (fun h => hact.elim h.1 h.2),
    if_neg (by rw [hk.claim] at hvalid ⊢; simp [hvalid]), if_neg hne, if_neg (by omega),
    if_neg (by simp [hk.active hI])]

/-- **The active mapping claim can be aborted.** -/
theorem mappingFinish_aborts (hI : m.Inv) (hk : m.ClaimedFor k) :
    m.mappingFinish m.activeMappingClaim .abort m.activeMappingClaim.provider (.null 0) =
      (.aborted, m.abortMapping m.activeMappingClaim) := by
  have hcount := hk.count
  rw [mappingFinish_active hI hk (.inr rfl) fun _ => rfl, mappingFinishActive, if_neg (by simp),
    if_neg (by simp), if_neg (by simp), if_neg (by omega), if_pos rfl]

/-- **The active mapping claim can be committed** with a grant for its chunk at a free place. -/
theorem mappingFinish_commits (hI : m.Inv) (hk : m.ClaimedFor k) (hq : m.quiescing = false)
    {g : MappingGrant} (hgk : g.logicalChunk = k) (hkey : g.remoteKey ≠ 0)
    (haddr : g.remoteAddress ≠ 0)
    (hfit : g.remoteAddress ≤ idMax - (sectorsPerChunk * sectorBytes - 1))
    (hfree : ∀ i < m.chunkCount, ¬ ((m.chunks i).assigned ∧
      (m.chunks i).providerChunk = g.providerChunk ∧ (m.chunks i).provider = (m.chunks k).provider))
    (hroom : m.nextMappingGeneration < idMax) :
    m.mappingFinish m.activeMappingClaim .commit m.activeMappingClaim.provider (.array [g]) =
      (.committed, m.commitMapping m.activeMappingClaim [g]) := by
  have hlt : g.logicalChunk < m.chunkCount := hgk ▸ hk.lt
  have hcount := hk.count
  have hshape : m.mappingGrantsShapeValid m.activeMappingClaim (.array [g]) = true := by
    rw [hk.claim]
    have hdig : batchDigest (fun i => [g].any fun g => g.logicalChunk = i) m.chunkCount =
        batchDigest (fun i => i = k) m.chunkCount :=
      batchDigest_congr fun i _ => by simp [hgk, eq_comm]
    simp only [mappingGrantsShapeValid, hdig]
    simp [grantsWellShaped, hlt, hkey, haddr, hfit]
  have hstate : (m.chunks k).state = .mapping := (hk.mapping k hk.lt).mpr rfl
  have havail : m.mappingGrantsAvailable m.activeMappingClaim [g] = true := by
    rw [hk.claim]
    simp only [mappingGrantsAvailable, List.all_cons, List.all_nil, Bool.and_true, mappingMember,
      hgk, hstate, Bool.and_eq_true, decide_eq_true_eq, beq_iff_eq, true_and]
    exact hfree
  have hdebit : m.activeMappingClaim.capacityDebit = 1 := by rw [hk.claim]
  have hassigned := hI.assigned_le
  have husable := hI.usable_le
  have hn := hI.count_le
  rw [mappingFinish_active hI hk (.inl rfl) (by rintro ⟨⟩), mappingFinishActive, if_neg (by simp),
    if_neg (by simp [hshape]), if_neg (by simp [hq]), if_neg (by omega), if_neg (by rintro ⟨⟩),
    if_neg (by simp [grantList, havail]), if_neg]
  · rfl
  · rw [hdebit]
    simp only [GrantArg.count, List.length_singleton]
    unfold u32Max
    unfold maxChunks at hn
    omega

/-! ### Eviction -/

theorem selectChunks_isOk {p : ProviderHandle} : ∀ {pcs selected : List ℕ}, pcs.Nodup →
    (∀ pc ∈ pcs, ∃ k, m.findProviderChunk p pc true = some k) →
    (∀ pc ∈ pcs, ∀ k ∈ selected, (m.chunks k).providerChunk ≠ pc) →
    ∃ selected', m.selectChunks p selected pcs = .ok selected'
  | [], selected, _, _, _ => ⟨selected, rfl⟩
  | pc :: pcs, selected, hd, hfound, hnew => by
    obtain ⟨k, hk⟩ := hfound pc List.mem_cons_self
    have hplace := (findProviderChunk_some hk).2.2.2.1
    have hnot : k ∉ selected := fun h => hnew pc List.mem_cons_self k h hplace
    obtain ⟨hpc, hd⟩ := List.nodup_cons.mp hd
    unfold selectChunks
    rw [hk]
    dsimp only
    rw [if_neg hnot]
    refine selectChunks_isOk hd (fun q hq => hfound q (List.mem_cons_of_mem _ hq)) fun q hq j hj => ?_
    rcases List.mem_cons.mp hj with rfl | hj
    · rw [hplace]
      rintro rfl
      exact hpc hq
    · exact hnew q (List.mem_cons_of_mem _ hq) j hj

/-- **Usable chunks of a valid Provider can be evicted** into cleared claim storage. -/
theorem evictionBegin_begins (hI : m.Inv) {p : ProviderHandle} {pcs : List ℕ} (hq : m.quiescing = false)
    (hm : m.mode = .backed) (hp : m.providerValid p = true) (hne : pcs ≠ []) (hd : pcs.Nodup)
    (hfound : ∀ pc ∈ pcs, ∃ k, m.findProviderChunk p pc true = some k)
    (hids : m.nextEvictionClaimId < idMax) (htrans : m.nextTransitionGeneration < idMax) :
    ∃ selected, m.selectChunks p [] pcs = .ok selected ∧ pcs.length ≤ m.usableChunks ∧
      m.evictionBegin p pcs {} =
        .ok (m.newEvictionClaim p selected pcs.length, m.beginEviction p selected pcs.length) := by
  have hnew : ∀ pc ∈ pcs, ∀ k ∈ ([] : List ℕ), (m.chunks k).providerChunk ≠ pc := by simp
  obtain ⟨selected, hsel⟩ := selectChunks_isOk hd hfound hnew
  have hu := batch_usable hsel hI
  have hn := hI.count_le
  have hle := hI.usable_le
  have hclaims := hI.evictions_le
  refine ⟨selected, hsel, hu, ?_⟩
  have hout : m.evictionClaimValidate {} ≠ .ok () := fun h => (evictionClaimValidate_ok h).1 rfl
  unfold evictionBegin
  dsimp only
  rw [if_neg (by simp [hne]; omega), if_neg (by simp [hm]), if_neg (by simp [hq]), if_neg (by simp [hp]),
    if_neg hout, hsel]
  dsimp only
  rw [if_neg]
  unfold u32Max
  unfold maxChunks at hn
  omega

end ChunkModule

open ChunkModule Transition Counting

/-! ### To the end of the mapping generations -/

/-- The roster entry of the Backed device's Provider after its observation. -/
def backedEntry : Provider :=
  { handle := ⟨1, 1⟩
    identifier := "p"
    placementWeight := 1
    reportedAvailableChunks := 3
    observationSequence := 1
    placementEligible := true
    hasObservation := true }

/-- The claim under which chunk 0 is being evicted. -/
def backedEviction : EvictionClaim :=
  ⟨evictionMagic, 1, ⟨1, 1⟩, 1, 2, batchDigest (fun i => i = 0) 3, 1⟩

/-- The Backed device with chunk 0 held in an eviction, chunks 1 and 2 mapped as `mapped` says, and its
identifiers at the given values. -/
structure Stage (mapped : ℕ → Prop) (mappingId evictionId transition generation : ℕ) (w : World) :
    Prop where
  reachable : chunkSystem.Reachable w
  destroyed : w.destroyed = false
  quiescing : w.module.quiescing = false
  mode : w.module.mode = .backed
  count : w.module.chunkCount = 3
  providers : w.module.providerCount = 1
  entry : w.module.providers 0 = backedEntry
  policy : w.module.hotPolicy = ⟨1, 1, 1⟩
  claims : w.module.activeMappingClaims = 0
  leases : w.module.activeIoLeases = 0
  held : (w.module.chunks 0).state = .evicting ∧ (w.module.chunks 0).providerChunk = 0
  claim : w.module.evictionClaimValidate backedEviction = .ok ()
  placed : ∀ k, k = 1 ∨ k = 2 → mapped k → (w.module.chunks k).state = .mapped ∧
    (w.module.chunks k).provider = ⟨1, 1⟩ ∧ (w.module.chunks k).providerChunk = k
  free : ∀ k, k = 1 ∨ k = 2 → ¬ mapped k → (w.module.chunks k).state = .unmapped
  nextMapping : w.module.nextMappingClaimId = mappingId
  nextEviction : w.module.nextEvictionClaimId = evictionId
  nextTransition : w.module.nextTransitionGeneration = transition
  nextGeneration : w.module.nextMappingGeneration = generation

theorem stage_zero : ∃ w, Stage (fun _ => False) 1 1 2 1 w := by
  obtain ⟨w, hw, h1, h2, h3, h4, h5, h6, h7, h8, h9, h10, h11, h12, h13, h14, h15, h16⟩ :
      ∃ w, chunkSystem.exec backedWorld (backedCalls ++ [.evictionBegin ⟨1, 1⟩ [0] {}]) = some w ∧
      w.module.providers 0 = backedEntry ∧ w.destroyed = false ∧ w.module.quiescing = false ∧
      w.module.mode = .backed ∧ w.module.chunkCount = 3 ∧ w.module.providerCount = 1 ∧
      w.module.hotPolicy = ⟨1, 1, 1⟩ ∧ w.module.activeMappingClaims = 0 ∧ w.module.activeIoLeases = 0 ∧
      ((w.module.chunks 0).state = .evicting ∧ (w.module.chunks 0).providerChunk = 0) ∧
      w.module.evictionClaimValidate backedEviction = .ok () ∧
      ((w.module.chunks 1).state = .unmapped ∧ (w.module.chunks 2).state = .unmapped) ∧
      w.module.nextMappingClaimId = 1 ∧ w.module.nextEvictionClaimId = 1 ∧
      w.module.nextTransitionGeneration = 2 ∧ w.module.nextMappingGeneration = 1 :=
    ⟨_, rfl, by decide⟩
  exact ⟨w, System.reachable_of_exec (.init backedWorld_fresh) hw, h2, h3,
    h4, h5, h6, h1, h7, h8, h9, h10, h11,
    fun _ _ hm => hm.elim, by rintro k (rfl | rfl) -; exacts [h12.1, h12.2], h13, h14, h15, h16⟩

theorem held_call {w w' : World} {c : Call} {r : Reply} (h : chunkSystem.Reachable w)
    (hd : w.destroyed = false) (hv : w.module.evictionClaimValidate backedEviction = .ok ())
    (hcall : w.call c = some (r, w')) (hp : w'.module.providerValid ⟨1, 1⟩ = true)
    (hnot : c ≠ .evictionFinish backedEviction) :
    chunkSystem.Reachable w' ∧ w'.module.evictionClaimValidate backedEviction = .ok () :=
  ⟨reachable_call h hd hcall,
    (call_does (world_inv h) hcall).validates (world_inv h) hv hp fun hc => hnot hc.1⟩

namespace Stage

variable {mapped : ℕ → Prop} {a e t g : ℕ} {w : World}

theorem leases_eq_zero (h : Stage mapped a e t g w) (hk : k < 3) :
    (w.module.chunks k).activeIoLeases = 0 := by
  have hle := (world_inv h.reachable).module.chunk_leases_le (k := k) (by rw [h.count]; exact hk)
  rw [h.leases] at hle
  omega

theorem valid (h : Stage mapped a e t g w) : w.module.providerValid ⟨1, 1⟩ = true :=
  (evictionClaimValidate_ok h.claim).2.2.1

theorem eligible (h : Stage mapped a e t g w) (hk : k = 1 ∨ k = 2) (hf : ¬ mapped k) :
    w.module.eligibleProviders = [0] := by
  have hI := (world_inv h.reachable).module
  have hmap : w.module.providerMapping ⟨1, 1⟩ = 0 :=
    count_eq_zero fun i hi hc => (hI.noClaim h.claims).mapping i hi hc.1
  have hassigned : w.module.providerAssigned ⟨1, 1⟩ < 3 := by
    have hlt := count_lt (n := 3) (k := k) (q := fun _ => True)
      (p := fun i => (w.module.chunks i).assigned ∧ (w.module.chunks i).provider = ⟨1, 1⟩) (by omega)
      (fun _ _ _ => trivial) trivial fun hc => not_assigned_of_unmapped (h.free k hk hf) hc.1
    rw [Nat.count_true] at hlt
    rw [providerAssigned, h.count]
    exact hlt
  have havail : w.module.providerEffectiveAvailable backedEntry ≠ 0 := by
    show reconcileAvailable 3 0 (w.module.providerAssigned ⟨1, 1⟩ + w.module.providerMapping ⟨1, 1⟩) ≠ 0
    rw [hmap, reconcileAvailable, if_pos (Nat.zero_le _)]
    dsimp only
    rw [if_pos (by omega)]
    omega
  rw [eligibleProviders, h.providers]
  simpa [List.range_succ, h.entry, backedEntry] using havail

/-- Chunks 1 and 2 are hot. -/
def Hot (w : World) : Prop := ∀ k, k = 1 ∨ k = 2 → 1 ≤ (w.module.chunks k).activity

/-- The chunks after a write to chunks 1 and 2 was noted. -/
def heated (m : ChunkModule) (i : ℕ) : Chunk :=
  if 1 ≤ i ∧ i < 1 + 2 then ChunkModule.addActivity 1 (m.chunks i) else m.chunks i

section

variable (h : Stage mapped a e t g w)

include h

theorem heat : ∃ w', Stage mapped a e t g w' ∧ Hot w' := by
  obtain ⟨needed, hnote⟩ : ∃ needed, w.module.noteActivity 1 2 .write =
      .ok (needed, { w.module with chunks := heated w.module }) := by
    unfold noteActivity
    rw [if_neg (by decide), if_neg (by rw [h.count]; decide), if_neg (by simp [h.quiescing]),
      if_neg (by simp [h.mode])]
    simp only [h.policy]
    exact ⟨_, rfl⟩
  have hcall : w.call (.noteActivity 1 2 .write) =
      some (.needed (.ok needed), w.setModule { w.module with chunks := heated w.module }) := by
    dsimp only [World.call]
    rw [hnote]
  obtain ⟨hreach, hvalid⟩ := held_call h.reachable h.destroyed h.claim hcall h.valid nofun
  have hchunk :
      ∀ k, k = 1 ∨ k = 2 → (w.setModule { w.module with chunks := heated w.module }).module.chunks k =
      ChunkModule.addActivity 1 (w.module.chunks k) := fun k hk => if_pos (by omega)
  refine ⟨_, { h with
    reachable := hreach
    claim := hvalid
    placed := fun k hk hm => ?_
    free := fun k hk hm => ?_ }, fun k hk => ?_⟩
  · rw [hchunk k hk]
    exact h.placed k hk hm
  · rw [hchunk k hk]
    exact h.free k hk hm
  · rw [hchunk k hk]
    show 1 ≤ (if (w.module.chunks k).activity > activityMax - 1 then activityMax
      else (w.module.chunks k).activity + 1)
    unfold activityMax
    split <;> omega

theorem reserve (hhot : Hot w) (hk : k = 1 ∨ k = 2) (hf : ¬ mapped k) (hfirst : k = 2 → mapped 1)
    (ha : a < idMax) (ht : t < idMax) :
    ∃ rng, chunkSystem.Reachable (w.setModule ((w.module.setPlacementRng rng).reserveChunk ⟨1, 1⟩ k)) ∧
      ((w.module.setPlacementRng rng).reserveChunk ⟨1, 1⟩ k).evictionClaimValidate backedEviction =
        .ok () := by
  have hfind : (List.range w.module.chunkCount).find? (w.module.mappingCandidate false) = some k := by
    have hc : ∀ i, w.module.mappingCandidate false i = (decide
        ((w.module.chunks i).state = .unmapped) && decide ((w.module.chunks i).activity ≥ 1)) := by
      intro i
      simp [mappingCandidate, h.policy]
    have h0 : w.module.mappingCandidate false 0 = false := by simp [hc, h.held.1]
    have hkc : w.module.mappingCandidate false k = true := by simp [hc, h.free k hk hf, hhot k hk]
    rw [h.count]
    rcases hk with rfl | rfl
    · simp [List.range_succ, h0, hkc]
    · have h1 : w.module.mappingCandidate false 1 = false := by
        simp [hc, (h.placed 1 (.inl rfl) (hfirst rfl)).1]
      simp [List.range_succ, h0, h1, hkc]
  have helig := h.eligible hk hf
  obtain ⟨i, hi, rng, hnext⟩ := nextMapping_reserves (world_inv h.reachable).module
    (by rw [h.nextMapping]; exact ha) (by rw [h.nextTransition]; exact ht) h.quiescing h.mode
    h.claims hfind (by simp [helig]) fun _ => 0
  obtain rfl : i = 0 := by simpa [helig] using hi
  have hcall : w.call (.nextMapping fun _ => 0) = some (.next (w.module.nextMapping fun _ => 0).1
    (w.module.nextMapping fun _ => 0).2.1, w.setModule (w.module.nextMapping fun _ => 0).2.2) := rfl
  rw [hnext, h.entry] at hcall
  exact ⟨rng, held_call h.reachable h.destroyed h.claim hcall h.valid (by rintro ⟨⟩)⟩

theorem commit {rng : ℕ} (hk : k = 1 ∨ k = 2) (hf : ¬ mapped k) {m₁ : ChunkModule}
    (hm₁ : m₁ = (w.module.setPlacementRng rng).reserveChunk ⟨1, 1⟩ k)
    (hreach : chunkSystem.Reachable (w.setModule m₁))
    (hv : m₁.evictionClaimValidate backedEviction = .ok ()) (hg : g < idMax) :
    chunkSystem.Reachable (w.setModule (m₁.commitMapping m₁.activeMappingClaim [⟨k, k, 1, 1⟩])) ∧
      (m₁.commitMapping m₁.activeMappingClaim [⟨k, k, 1, 1⟩]).evictionClaimValidate backedEviction =
        .ok () := by
  have hI := (world_inv hreach).module
  have hset : ∀ i, m₁.chunks i = if i = k then _ else w.module.chunks i := fun _ => by rw [hm₁]; rfl
  have hmapping : (m₁.chunks k).state = .mapping := by rw [set_self hset]
  have hcount : m₁.chunkCount = 3 := by rw [hm₁]; exact h.count
  have hclaims : m₁.activeMappingClaims = 1 := by rw [hm₁]; exact congrArg (· + 1) h.claims
  obtain ⟨j, hj⟩ := hI.claimed (show m₁.activeMappingClaims ≠ 0 by omega)
  obtain rfl : k = j := (hj.mapping k (show k < m₁.chunkCount by omega)).mp hmapping
  have hfree : ∀ i < m₁.chunkCount, ¬ ((m₁.chunks i).assigned ∧ (m₁.chunks i).providerChunk = k ∧
      (m₁.chunks i).provider = (m₁.chunks k).provider) := by
    rintro i hi ⟨hia, hipc, -⟩
    have hik : i ≠ k := by
      rintro rfl
      exact not_assigned_of_mapping hmapping hia
    rw [set_other hset hik] at hia hipc
    obtain rfl | h12 : i = 0 ∨ (i = 1 ∨ i = 2) := by omega
    · have := h.held.2
      omega
    · by_cases hmi : mapped i
      · have := (h.placed i h12 hmi).2.2
        omega
      · exact not_assigned_of_unmapped (h.free i h12 hmi) hia
  have hcommit := mappingFinish_commits hI hj (g := ⟨k, k, 1, 1⟩)
    (by rw [World.setModule, hm₁]; exact h.quiescing) rfl one_ne_zero one_ne_zero
    (show 1 ≤ idMax - (sectorsPerChunk * sectorBytes - 1) by decide) hfree
    (by rw [World.setModule, hm₁]; exact h.nextGeneration ▸ hg)
  have hcall : (w.setModule m₁).call (.mappingFinish m₁.activeMappingClaim .commit
      m₁.activeMappingClaim.provider (.array [⟨k, k, 1, 1⟩])) = some (.finished .committed,
        w.setModule (m₁.commitMapping m₁.activeMappingClaim [⟨k, k, 1, 1⟩])) := by
    dsimp only [World.call, World.setModule] at hcommit ⊢
    rw [hcommit]
  exact held_call hreach h.destroyed hv hcall (by rw [World.setModule, hm₁]; exact h.valid) (by rintro ⟨⟩)

theorem map (hhot : Hot w) (hk : k = 1 ∨ k = 2) (hf : ¬ mapped k) (hfirst : k = 2 → mapped 1)
    (ha : a < idMax) (ht : t < idMax) (hg : g < idMax) :
    ∃ w', Stage (fun i => mapped i ∨ i = k) (a + 1) e (t + 1) (g + 1) w' ∧ Hot w' := by
  obtain ⟨rng, hreach₁, hv₁⟩ := h.reserve hhot hk hf hfirst ha ht
  generalize hm₁ : (w.module.setPlacementRng rng).reserveChunk ⟨1, 1⟩ k = m₁ at hreach₁ hv₁
  obtain ⟨hreach₂, hv₂⟩ := h.commit hk hf hm₁.symm hreach₁ hv₁ hg
  have hset₁ : ∀ i, m₁.chunks i = if i = k then { w.module.chunks k with
      state := .mapping, provider := ⟨1, 1⟩, mappingClaimId := w.module.nextMappingClaimId + 1,
      transitionGeneration := w.module.nextTransitionGeneration + 1 } else w.module.chunks i :=
    fun _ => by rw [← hm₁]; rfl
  have hset₂ := commitMapping_chunks (m := m₁) (c := m₁.activeMappingClaim) (g := ⟨k, k, 1, 1⟩) rfl
  have hself := set_self hset₂
  rw [set_self hset₁] at hself
  have hother : ∀ i, i ≠ k → (m₁.commitMapping m₁.activeMappingClaim [⟨k, k, 1, 1⟩]).chunks i =
      w.module.chunks i := fun i hik => (set_other hset₂ hik).trans (set_other hset₁ hik)
  have hclaims : m₁.activeMappingClaims = 1 := by rw [← hm₁]; exact congrArg (· + 1) h.claims
  refine ⟨_,
    { reachable := hreach₂
      destroyed := h.destroyed
      quiescing := by rw [← hm₁]; exact h.quiescing
      mode := by rw [← hm₁]; exact h.mode
      count := by rw [← hm₁]; exact h.count
      providers := by rw [← hm₁]; exact h.providers
      entry := by rw [← hm₁]; exact h.entry
      policy := by rw [← hm₁]; exact h.policy
      claims := congrArg (· - 1) hclaims
      leases := by rw [← hm₁]; exact h.leases
      held := by rw [World.setModule, hother 0 (by omega)]; exact h.held
      claim := hv₂
      placed := fun i hi hm => ?_
      free := fun i hi hm => ?_
      nextMapping := by rw [← hm₁]; exact congrArg (· + 1) h.nextMapping
      nextEviction := by rw [← hm₁]; exact h.nextEviction
      nextTransition := by rw [← hm₁]; exact congrArg (· + 1) h.nextTransition
      nextGeneration := by rw [← hm₁]; exact congrArg (· + 1) h.nextGeneration }, fun i hi => ?_⟩
  · by_cases hik : i = k
    · rw [hik, World.setModule, hself]
      exact ⟨rfl, rfl, rfl⟩
    · rw [World.setModule, hother i hik]
      exact h.placed i hi (hm.resolve_right hik)
  · push Not at hm
    rw [World.setModule, hother i hm.2]
    exact h.free i hi hm.1
  · by_cases hik : i = k
    · rw [hik, World.setModule, hself]
      exact hhot k hk
    · rw [World.setModule, hother i hik]
      exact hhot i hi

theorem beginEvict (h1 : mapped 1) (h2 : mapped 2) (he : e < idMax) (ht : t < idMax) :
    ∃ selected, w.module.selectChunks ⟨1, 1⟩ [] [1, 2] = .ok selected ∧ 2 ≤ w.module.usableChunks ∧
      w.call (.evictionBegin ⟨1, 1⟩ [1, 2] {}) =
        some (.begun (.ok (w.module.newEvictionClaim ⟨1, 1⟩ selected 2)),
        w.setModule (w.module.beginEviction ⟨1, 1⟩ selected 2)) := by
  have hI := (world_inv h.reachable).module
  have hfound : ∀ pc ∈ [1, 2], ∃ k, w.module.findProviderChunk ⟨1, 1⟩ pc true = some k := by
    intro pc hpc
    have hpc' : pc = 1 ∨ pc = 2 := by simpa using hpc
    have hm : mapped pc := by rcases hpc' with rfl | rfl <;> assumption
    obtain ⟨hs, hp, hplace⟩ := h.placed pc hpc' hm
    exact ⟨pc, (findProviderChunk_iff hI).mpr ⟨by rw [h.count]; omega, hs, hp, hplace⟩⟩
  obtain ⟨selected, hsel, hu, hbegin⟩ := evictionBegin_begins hI h.quiescing h.mode h.valid (by simp)
    (by decide) hfound (by rw [h.nextEviction]; exact he) (by rw [h.nextTransition]; exact ht)
  refine ⟨selected, hsel, hu, ?_⟩
  dsimp only [World.call]
  rw [hbegin]
  rfl

theorem evict (h1 : mapped 1) (h2 : mapped 2) (he : e < idMax) (ht : t < idMax)
    (hg : g + 2 ≤ idMax) : ∃ w', Stage (fun _ => False) a (e + 1) (t + 1) (g + 2) w' := by
  have hI := (world_inv h.reachable).module
  obtain ⟨selected, hsel, hu, hcall₁⟩ := h.beginEvict h1 h2 he ht
  obtain ⟨hreach₁, hv₁⟩ := held_call h.reachable h.destroyed h.claim hcall₁ h.valid nofun
  have hclaim : (w.module.beginEviction ⟨1, 1⟩ selected 2).evictionClaimValidate
      (w.module.newEvictionClaim ⟨1, 1⟩ selected 2) = .ok () :=
    beginEviction_validates hI h.valid (List.cons_ne_nil 1 [2]) hsel hu
  have hchunk := beginEviction_chunk (n := 2) hsel
  have hdrained : (w.module.beginEviction ⟨1, 1⟩ selected 2).evictionDrained
      (w.module.newEvictionClaim ⟨1, 1⟩ selected 2) = true := by
    simp only [evictionDrained, decide_eq_true_eq]
    intro i hi _
    exact (hchunk i).2.1.trans (h.leases_eq_zero (h.count ▸ hi))
  have hfinish := evictionFinish_drained (world_inv hreach₁).module hclaim hdrained
  have hgen : (w.module.beginEviction ⟨1, 1⟩ selected 2).nextMappingGeneration = g := h.nextGeneration
  rw [if_neg (by rw [World.setModule, hgen]; show ¬ g > idMax - 2; omega)] at hfinish
  have hcall₂ : (w.setModule (w.module.beginEviction ⟨1, 1⟩ selected 2)).call
      (.evictionFinish (w.module.newEvictionClaim ⟨1, 1⟩ selected 2)) =
      some (.status (.ok ()), w.setModule ((w.module.beginEviction ⟨1, 1⟩ selected 2).finishEviction
      (w.module.newEvictionClaim ⟨1, 1⟩ selected 2))) := by
    dsimp only [World.call, World.setModule] at hfinish ⊢
    rw [hfinish]
  have hold : 1 ≤ w.module.nextEvictionClaimId := by
    obtain ⟨k, hk, hid⟩ := evictionClaim_named h.claim
    exact (show _ = 1 from hid) ▸ (hI.chunk k hk).evictionId_le
  have hother : Call.evictionFinish (w.module.newEvictionClaim ⟨1, 1⟩ selected 2) ≠
      .evictionFinish backedEviction := by
    intro hc
    have hid : w.module.nextEvictionClaimId + 1 = 1 :=
      congrArg EvictionClaim.claimId (Call.evictionFinish.inj hc)
    omega
  obtain ⟨hreach₂, hv₂⟩ := held_call hreach₁ h.destroyed hv₁ hcall₂
    (by rw [World.setModule, finishEviction_frame]; exact h.valid) hother
  rw [World.setModule, finishEviction_frame] at hreach₂ hv₂
  have hreset := finishEviction_resetTo hclaim
  have hnamed : ∀ k < 3, ((w.module.beginEviction ⟨1, 1⟩ selected 2).chunks k).evictionClaimId =
      w.module.nextEvictionClaimId + 1 ↔ k ∈ selected := fun k hk =>
    beginEviction_named hI (by rw [h.count]; exact hk)
  have h0 : 0 ∉ selected := fun hin => by
    have hs := ((mem_batch hI hsel).mp hin).2.1
    rw [h.held.1] at hs
    cases hs
  have hchunk0 : ((w.module.beginEviction ⟨1, 1⟩ selected 2).finishEviction
      (w.module.newEvictionClaim ⟨1, 1⟩ selected 2)).chunks 0 = w.module.chunks 0 :=
    (hreset.chunk_out fun hid => h0 ((hnamed 0 (by omega)).mp hid)).trans (if_neg fun hin => h0 hin.2)
  refine ⟨_,
    { reachable := hreach₂
      destroyed := h.destroyed
      quiescing := h.quiescing
      mode := h.mode
      count := h.count
      providers := h.providers
      entry := h.entry
      policy := h.policy
      claims := h.claims
      leases := h.leases
      held := by rw [hchunk0]; exact h.held
      claim := hv₂
      placed := fun _ _ hm => hm.elim
      free := fun k hk _ => ?_
      nextMapping := h.nextMapping
      nextEviction := congrArg (· + 1) h.nextEviction
      nextTransition := congrArg (· + 1) h.nextTransition
      nextGeneration := ?_ }⟩
  · have hm : mapped k := by rcases hk with rfl | rfl <;> assumption
    obtain ⟨hs, hp, hplace⟩ := h.placed k hk hm
    have hlt : k < w.module.chunkCount := by rw [h.count]; omega
    have hin := (mem_batch hI hsel).mpr ⟨hlt, hs, hp, by rw [hplace]; simpa using hk⟩
    rw [hreset.chunk_in hlt ((hnamed k (by omega)).mpr hin)]
    rfl
  · have hcount := (evictionClaimValidate_ok hclaim).2.2.2.2
    rw [hreset.generation, hgen, hcount]
    rfl

end

/-- A whole cycle: both chunks are heated, mapped and evicted. -/
theorem cycle (h : Stage (fun _ => False) a e t g w) (ha : a + 2 ≤ idMax) (he : e < idMax)
    (ht : t + 3 ≤ idMax) (hg : g + 4 ≤ idMax) :
    ∃ w', Stage (fun _ => False) (a + 2) (e + 1) (t + 3) (g + 4) w' := by
  obtain ⟨w₁, h₁, hhot₁⟩ := h.heat
  obtain ⟨w₂, h₂, hhot₂⟩ := h₁.map hhot₁ (.inl rfl) id (by simp) (by omega) (by omega) (by omega)
  obtain ⟨w₃, h₃, -⟩ :=
    h₂.map hhot₂ (.inr rfl) (by simp) (fun _ => .inr rfl) (by omega) (by omega) (by omega)
  exact h₃.evict (.inl (.inr rfl)) (.inr rfl) he (by omega) (by omega)

end Stage

/-- The generations are used up faster than the other identifiers. -/
theorem exists_stage : ∀ n, 4 * n + 3 ≤ idMax →
    ∃ w, Stage (fun _ => False) (1 + 2 * n) (1 + n) (2 + 3 * n) (1 + 4 * n) w
  | 0, _ => stage_zero
  | n + 1, hn => by
    obtain ⟨w, h⟩ := exists_stage n (by omega)
    exact h.cycle (by omega) (by omega) (by omega) (by omega)

/-- **Mapping generations can be exhausted** while chunk 0 waits, drained, for its eviction to be
finished. -/
theorem exists_exhausted : ∃ mapped a e t w, Stage mapped a e t idMax w ∧ t < idMax ∧ mapped 1 := by
  obtain ⟨w, h⟩ := exists_stage (2 ^ 62 - 1) (by decide)
  obtain ⟨w₁, h₁, hhot₁⟩ := h.heat
  obtain ⟨w₂, h₂, hhot₂⟩ := h₁.map hhot₁ (.inl rfl) id (by simp) (by decide) (by decide) (by decide)
  obtain ⟨w₃, h₃, -⟩ :=
    h₂.map hhot₂ (.inr rfl) (by simp) (fun _ => .inr rfl) (by decide) (by decide) (by decide)
  exact ⟨_, _, _, _, w₃, h₃, by decide, .inl (.inr rfl)⟩

end RemoteChunk
end Infiniswap
