/-
# Resetting chunks keeps the invariant

Eviction finish and Provider failure run one loop that resets the chunks
satisfying a predicate, each under a fresh mapping generation. `ResetTo` is
what the loop and the counter updates around it amount to; it keeps the
invariant when it takes whole eviction batches (`ResetTo.inv`).
-/
import Infiniswap.RemoteChunk.Preservation

namespace Infiniswap
namespace RemoteChunk
namespace ChunkModule

open Counting

variable {m m' : ChunkModule}

/-! ### The reset loop -/

variable {i : ℕ} {c : EvictionClaim}

theorem mem_chunk_iff (k s : ℕ) :
    k * sectorsPerChunk ≤ s ∧ s < k * sectorsPerChunk + sectorsPerChunk ↔ s / sectorsPerChunk = k := by
  have hpos : 0 < sectorsPerChunk := by decide
  rw [Nat.div_eq_iff hpos]
  omega

/-- The generation the reset loop gives chunk `i`. -/
def resetGeneration (m : ChunkModule) (p : Chunk → Prop) [DecidablePred p] (i : ℕ) : ℕ :=
  m.nextMappingGeneration + Nat.count (fun j => p (m.chunks j)) i + 1

section Reset

variable (m) (p : Chunk → Prop) [DecidablePred p] (ra : Bool)

theorem resetWhere_frame : ∀ n, m.resetWhere p ra n =
    { m with
      chunks := (m.resetWhere p ra n).chunks
      validSectors := (m.resetWhere p ra n).validSectors
      nextMappingGeneration := (m.resetWhere p ra n).nextMappingGeneration }
  | 0 => rfl
  | n + 1 => by
    have ih := resetWhere_frame n
    unfold resetWhere
    dsimp only
    split
    · rw [ih]; rfl
    · exact ih

theorem resetWhere_spec : ∀ n,
    (∀ i, (m.resetWhere p ra n).chunks i =
      if i < n ∧ p (m.chunks i) then resetChunk (m.resetGeneration p i) ra (m.chunks i) else m.chunks i) ∧
    (m.resetWhere p ra n).nextMappingGeneration =
      m.nextMappingGeneration + Nat.count (fun j => p (m.chunks j)) n ∧
    (∀ s, (m.resetWhere p ra n).sectorValid s = true ↔
      m.sectorValid s = true ∧ ¬ (s / sectorsPerChunk < n ∧ p (m.chunks (s / sectorsPerChunk))))
  | 0 => by simp [resetWhere]
  | n + 1 => by
    obtain ⟨hc, hg, hv⟩ := resetWhere_spec n
    have hcn : (m.resetWhere p ra n).chunks n = m.chunks n := by rw [hc, if_neg (by simp)]
    have hstep : m.resetWhere p ra (n + 1) =
        if p (m.chunks n) then (m.resetWhere p ra n).resetMapping n ra else m.resetWhere p ra n := by
      rw [← hcn]; rfl
    rw [hstep, Nat.count_succ]
    by_cases hp : p (m.chunks n)
    · rw [if_pos hp, if_pos hp]
      refine ⟨fun i => ?_, ?_, fun s => ?_⟩
      · show (if i = n then resetChunk ((m.resetWhere p ra n).nextMappingGeneration + 1) ra
          ((m.resetWhere p ra n).chunks n) else (m.resetWhere p ra n).chunks i) = _
        by_cases hin : i = n
        · subst hin
          rw [if_pos rfl, if_pos ⟨by omega, hp⟩, hg, hcn]
          rfl
        · rw [if_neg hin, hc]
          have : i < n + 1 ∧ p (m.chunks i) ↔ i < n ∧ p (m.chunks i) := by
            constructor <;> rintro ⟨h1, h2⟩ <;> exact ⟨by omega, h2⟩
          simp only [this]
      · show (m.resetWhere p ra n).nextMappingGeneration + 1 = _
        rw [hg]
        omega
      · rw [sectorValid_of_updated (m.resetWhere p ra n) ((m.resetWhere p ra n).resetMapping n ra) rfl]
        by_cases hsn : s / sectorsPerChunk = n
        · rw [if_pos ((mem_chunk_iff n s).mpr hsn), hsn]
          simp [hp]
        · rw [if_neg fun h => hsn ((mem_chunk_iff n s).mp h), hv]
          have : s / sectorsPerChunk < n + 1 ↔ s / sectorsPerChunk < n := by omega
          simp only [this]
    · rw [if_neg hp, if_neg hp]
      have hsame (i : ℕ) : i < n + 1 ∧ p (m.chunks i) ↔ i < n ∧ p (m.chunks i) := by
        constructor <;> rintro ⟨h1, h2⟩
        · have : i ≠ n := by rintro rfl; exact hp h2
          exact ⟨by omega, h2⟩
        · exact ⟨by omega, h2⟩
      refine ⟨fun i => ?_, by rw [hg]; omega, fun s => ?_⟩
      · rw [hc]
        simp only [hsame]
      · rw [hv, hsame]

end Reset

/-- `m'` is `m` with the chunks that satisfy `P` reset and taken out of the counters. -/
structure ResetTo (m m' : ChunkModule) (P : Chunk → Prop) [DecidablePred P] (ra : Bool) : Prop where
  chunkCount : m'.chunkCount = m.chunkCount
  providerCount : m'.providerCount = m.providerCount
  mode : m'.mode = m.mode
  identity : m'.identity = m.identity
  sample : m'.placementSampleSize = m.placementSampleSize
  handle : ∀ i, (m'.providers i).handle = (m.providers i).handle
  mappingId : m'.nextMappingClaimId = m.nextMappingClaimId
  evictionId : m'.nextEvictionClaimId = m.nextEvictionClaimId
  transition : m.nextTransitionGeneration ≤ m'.nextTransitionGeneration
  leaseId : m'.nextIoLeaseId = m.nextIoLeaseId
  leases : m'.activeIoLeases = m.activeIoLeases
  chunks : ∀ i, m'.chunks i =
    if i < m.chunkCount ∧ P (m.chunks i) then resetChunk (m.resetGeneration P i) ra (m.chunks i)
      else m.chunks i
  generation : m'.nextMappingGeneration =
    m.nextMappingGeneration + Nat.count (fun j => P (m.chunks j)) m.chunkCount
  valid : ∀ s, m'.sectorValid s = true ↔
    m.sectorValid s = true ∧ ¬ (s / sectorsPerChunk < m.chunkCount ∧ P (m.chunks (s / sectorsPerChunk)))
  assigned : m'.assignedChunks =
    m.assignedChunks - Nat.count (fun i => (m.chunks i).assigned ∧ P (m.chunks i)) m.chunkCount
  usable : m'.usableChunks =
    m.usableChunks - Nat.count (fun i => (m.chunks i).state = .mapped ∧ P (m.chunks i)) m.chunkCount
  evictions : m'.activeEvictionClaims = m.activeEvictionClaims -
    (tags (fun i => m.evicting i ∧ P (m.chunks i))
      (fun i => (m.chunks i).evictionClaimId) m.chunkCount).card

namespace ResetTo

variable {P : Chunk → Prop} [DecidablePred P] {ra : Bool} (h : ResetTo m m' P ra)

include h

theorem chunk_in (hi : i < m.chunkCount) (hp : P (m.chunks i)) :
    m'.chunks i = resetChunk (m.resetGeneration P i) ra (m.chunks i) := by
  rw [h.chunks, if_pos ⟨hi, hp⟩]

theorem chunk_out (hp : ¬ P (m.chunks i)) : m'.chunks i = m.chunks i := by
  rw [h.chunks, if_neg fun hc => hp hc.2]

theorem chunk_kept (hi : i < m.chunkCount) (hs : (m'.chunks i).state ≠ .unmapped) :
    ¬ P (m.chunks i) ∧ m'.chunks i = m.chunks i := by
  have hp : ¬ P (m.chunks i) := by
    intro hp
    rw [h.chunk_in hi hp] at hs
    exact hs rfl
  exact ⟨hp, h.chunk_out hp⟩

theorem resetGeneration_le (hi : i < m.chunkCount) (hp : P (m.chunks i)) :
    m.resetGeneration P i ≤ m'.nextMappingGeneration := by
  have h1 : Nat.count (fun j => P (m.chunks j)) (i + 1) ≤
      Nat.count (fun j => P (m.chunks j)) m.chunkCount :=
    Nat.count_monotone _ hi
  rw [Nat.count_succ, if_pos hp] at h1
  rw [h.generation, resetGeneration]
  omega

/-- A counter of chunks in some non-unmapped state loses exactly the reset ones. -/
theorem count_state {S : Chunk → Prop} [DecidablePred S] (hS : ∀ c, c.state = .unmapped → ¬ S c) :
    Nat.count (fun i => S (m'.chunks i)) m'.chunkCount =
      Nat.count (fun i => S (m.chunks i)) m.chunkCount -
        Nat.count (fun i => S (m.chunks i) ∧ P (m.chunks i)) m.chunkCount := by
  have hsplit : Nat.count (fun i => S (m.chunks i)) m.chunkCount =
      Nat.count (fun i => S (m'.chunks i)) m.chunkCount +
        Nat.count (fun i => S (m.chunks i) ∧ P (m.chunks i)) m.chunkCount := by
    refine count_split (fun i hi => ?_) fun i hi hs hp => ?_
    · by_cases hp : P (m.chunks i)
      · rw [h.chunk_in hi hp]
        simp [hp, hS _ (rfl : (resetChunk (m.resetGeneration P i) ra (m.chunks i)).state = .unmapped)]
      · rw [h.chunk_out hp]; simp [hp]
    · rw [h.chunk_in hi hp.2] at hs
      exact hS _ rfl hs
  rw [h.chunkCount, hsplit]
  omega

/-- **Resetting whole batches keeps the invariant.** -/
theorem inv (hI : m.Inv)
    (hclosed : ∀ i < m.chunkCount, ∀ j < m.chunkCount, m.evicting i → P (m.chunks i) →
      (m.chunks j).evictionClaimId = (m.chunks i).evictionClaimId → P (m.chunks j))
    (hvalid : ∀ i < m.chunkCount, ¬ P (m.chunks i) → (m.chunks i).state ≠ .unmapped →
      m'.providerValid (m.chunks i).provider = true)
    (hclaim : m'.NoClaim ∨ ∃ k, m'.ClaimedFor k) : m'.Inv where
  count_pos := h.chunkCount ▸ hI.count_pos
  count_le := h.chunkCount ▸ hI.count_le
  mode := h.mode ▸ hI.mode
  identity := h.identity ▸ hI.identity
  handle := fun i hi => by rw [h.handle, h.identity]; exact hI.handle i (h.providerCount ▸ hi)
  sample := by rw [h.providerCount, h.sample]; exact hI.sample
  chunk := fun i hi => by
    rw [h.chunkCount] at hi
    by_cases hp : P (m.chunks i)
    · rw [h.chunk_in hi hp]
      exact
        { mappingId := by simp [resetChunk]
          evictionId := by simp [resetChunk]
          mappingId_le := Nat.zero_le _
          evictionId_le := Nat.zero_le _
          transition_le := Nat.zero_le _
          transition_ne := fun hs => by simp [resetChunk] at hs
          generation_le := h.resetGeneration_le hi hp
          generation_ne := fun _ => Nat.succ_ne_zero _
          provider := fun hs => absurd rfl hs
          backed := fun hs => by simp [resetChunk] at hs }
    · rw [h.chunk_out hp]
      exact (hI.chunk i hi).mono h.mappingId.ge h.evictionId.ge h.transition (by rw [h.generation]; omega)
        h.mode fun hs _ => hvalid i hi hp hs
  assigned := by
    rw [h.assigned, hI.assigned]
    exact (h.count_state fun _ => not_assigned_of_unmapped).symm
  usable := by
    rw [h.usable, hI.usable]
    exact (h.count_state (S := fun c => c.state = .mapped) fun c hc => by simp [hc]).symm
  claim := hclaim
  batch := fun i hi j hj he hid => by
    rw [h.chunkCount] at hi hj
    obtain ⟨hpi, hi'⟩ := h.chunk_kept hi (by rw [show (m'.chunks i).state = .evicting from he]; simp)
    rw [evicting, hi'] at he
    have hpj : ¬ P (m.chunks j) := by
      intro hpj
      rw [h.chunk_in hj hpj, hi'] at hid
      exact (hI.chunk i hi).evictionId.mpr he hid.symm
    rw [hi', h.chunk_out hpj] at hid ⊢
    exact hI.batch i hi j hj he hid
  evictions := by
    have hunion : tags m.evicting (fun i => (m.chunks i).evictionClaimId) m.chunkCount =
        tags m'.evicting (fun i => (m'.chunks i).evictionClaimId) m.chunkCount ∪
          tags (fun i => m.evicting i ∧ P (m.chunks i))
            (fun i => (m.chunks i).evictionClaimId) m.chunkCount := by
      ext x
      simp only [Finset.mem_union, mem_tags]
      constructor
      · rintro ⟨i, hi, he, rfl⟩
        by_cases hp : P (m.chunks i)
        · exact .inr ⟨i, hi, ⟨he, hp⟩, rfl⟩
        · exact .inl ⟨i, hi, by rw [evicting, h.chunk_out hp]; exact he, by rw [h.chunk_out hp]⟩
      · rintro (⟨i, hi, he, rfl⟩ | ⟨i, hi, he, rfl⟩)
        · obtain ⟨-, hi'⟩ := h.chunk_kept hi (by rw [show (m'.chunks i).state = .evicting from he]; simp)
          rw [evicting, hi'] at he
          exact ⟨i, hi, he, by rw [hi']⟩
        · exact ⟨i, hi, he.1, rfl⟩
    -- a batch is reset as a whole, so no id is left on both sides
    have hdisj : Disjoint (tags m'.evicting (fun i => (m'.chunks i).evictionClaimId) m.chunkCount)
        (tags (fun i => m.evicting i ∧ P (m.chunks i))
          (fun i => (m.chunks i).evictionClaimId) m.chunkCount) := by
      rw [Finset.disjoint_left]
      intro x hx hx'
      obtain ⟨i, hi, he, rfl⟩ := mem_tags.mp hx
      obtain ⟨j, hj, hej, hid⟩ := mem_tags.mp hx'
      obtain ⟨hpi, hi'⟩ := h.chunk_kept hi (by rw [show (m'.chunks i).state = .evicting from he]; simp)
      rw [hi'] at hid
      exact hpi (hclosed j hj i hi hej.1 hej.2 hid.symm)
    rw [h.evictions, hI.evictions, hunion, Finset.card_union_of_disjoint hdisj, h.chunkCount]
    omega
  place := fun i hi j hj ai aj hp hc => by
    rw [h.chunkCount] at hi hj
    have hstate : ∀ {c : Chunk}, c.assigned → c.state ≠ .unmapped :=
      fun ha hs => not_assigned_of_unmapped hs ha
    have hi' := (h.chunk_kept hi (hstate ai)).2
    have hj' := (h.chunk_kept hj (hstate aj)).2
    rw [hi'] at ai hp hc
    rw [hj'] at aj hp hc
    exact hI.place i hi j hj ai aj hp hc
  leases := by
    rw [h.leases, hI.leases, h.chunkCount]
    refine Finset.sum_congr rfl fun i hi => ?_
    by_cases hp : P (m.chunks i)
    · rw [h.chunk_in (Finset.mem_range.mp hi) hp]; rfl
    · rw [h.chunk_out hp]
  leases_le := h.leases ▸ hI.leases_le
  valid := fun s hs => by
    obtain ⟨hv, hp⟩ := (h.valid s).mp hs
    obtain ⟨hlt, ha⟩ := hI.valid s hv
    rw [h.chunkCount, h.chunk_out fun hP => hp ⟨hlt, hP⟩]
    exact ⟨hlt, ha⟩

end ResetTo

/-! ### Finishing an eviction -/

theorem evictionClaimValidate_iff :
    m.evictionClaimValidate c = .ok () ↔
      c.magic = evictionMagic ∧ c.claimId ≠ 0 ∧ c.transitionGeneration ≠ 0 ∧ c.chunkCount ≠ 0 ∧
      c.moduleIdentity = m.identity ∧ m.providerValid c.provider = true ∧ c.chunkCount ≤ m.chunkCount ∧
      (∀ i < m.chunkCount, (m.chunks i).evictionClaimId = c.claimId → m.evictionMember c i) ∧
      Nat.count (fun i => (m.chunks i).evictionClaimId = c.claimId) m.chunkCount = c.chunkCount ∧
      batchDigest (fun i => (m.chunks i).evictionClaimId = c.claimId) m.chunkCount = c.batchDigest := by
  unfold evictionClaimValidate
  dsimp only
  constructor
  · intro h
    split_ifs at h with h1 h2 h3 h4 h5 h6
    push Not at h1 h5 h6
    exact ⟨h1.1, h1.2.1, h1.2.2.1, h1.2.2.2, not_not.mp h2, by simpa using h3, by omega, h5, h6⟩
  · rintro ⟨h1, h2, h3, h4, h5, h6, h7, h8, h9, h10⟩
    rw [if_neg (by simp [h1, h2, h3, h4]), if_neg (by simp [h5]), if_neg (by simp [h6]),
      if_neg (by omega), if_neg (by push Not; exact h8), if_neg (by simp [h9, h10])]

theorem evictionClaimValidate_ok (h : m.evictionClaimValidate c = .ok ()) :
    c.claimId ≠ 0 ∧ c.chunkCount ≠ 0 ∧ m.providerValid c.provider = true ∧
      (∀ i < m.chunkCount, (m.chunks i).evictionClaimId = c.claimId → m.evictionMember c i) ∧
      Nat.count (fun i => (m.chunks i).evictionClaimId = c.claimId) m.chunkCount = c.chunkCount := by
  obtain ⟨-, hid, -, hne, -, hp, -, hmem, hcount, -⟩ := evictionClaimValidate_iff.mp h
  exact ⟨hid, hne, hp, hmem, hcount⟩

theorem evictionClaim_named (h : m.evictionClaimValidate c = .ok ()) :
    ∃ k < m.chunkCount, (m.chunks k).evictionClaimId = c.claimId := by
  obtain ⟨-, hne, -, -, hcount⟩ := evictionClaimValidate_ok h
  by_contra hnone
  push Not at hnone
  exact hne (hcount.symm.trans (count_eq_zero hnone))

theorem Inv.evictionClaims_ne (hI : m.Inv) (h : m.evictionClaimValidate c = .ok ()) :
    m.activeEvictionClaims ≠ 0 := by
  obtain ⟨k, hk, hid⟩ := evictionClaim_named h
  rw [hI.evictions, Finset.card_ne_zero]
  exact ⟨_, mem_tags.mpr ⟨k, hk, ((evictionClaimValidate_ok h).2.2.2.1 k hk hid).1, rfl⟩⟩

theorem finishEviction_resetTo (hv : m.evictionClaimValidate c = .ok ()) :
    ResetTo m (m.finishEviction c) (fun chunk => chunk.evictionClaimId = c.claimId) true := by
  obtain ⟨-, -, -, hmem, hcount⟩ := evictionClaimValidate_ok hv
  have hframe := resetWhere_frame m (fun chunk => chunk.evictionClaimId = c.claimId) true m.chunkCount
  obtain ⟨hchunks, hgen, hvalid⟩ :=
    resetWhere_spec m (fun chunk => chunk.evictionClaimId = c.claimId) true m.chunkCount
  refine
    { chunkCount := by rw [finishEviction, hframe]
      providerCount := by rw [finishEviction, hframe]
      mode := by rw [finishEviction, hframe]
      identity := by rw [finishEviction, hframe]
      sample := by rw [finishEviction, hframe]
      handle := fun i => by rw [finishEviction, hframe]
      mappingId := by rw [finishEviction, hframe]
      evictionId := by rw [finishEviction, hframe]
      transition := by rw [finishEviction, hframe]
      leaseId := by rw [finishEviction, hframe]
      leases := by rw [finishEviction, hframe]
      chunks := hchunks
      generation := hgen
      valid := hvalid
      assigned := ?_
      usable := ?_
      evictions := ?_ }
  · -- the claim names evicting chunks only, as many as it says
    show m.assignedChunks - c.chunkCount = _
    rw [← hcount]
    congr 1
    refine count_congr fun i hi => ?_
    exact ⟨fun h => ⟨.inr (hmem i hi h).1, h⟩, fun h => h.2⟩
  · show (m.resetWhere _ true m.chunkCount).usableChunks = _
    rw [hframe, count_eq_zero, Nat.sub_zero]
    rintro i hi ⟨hm, hid⟩
    rw [(hmem i hi hid).1] at hm
    cases hm
  · show m.activeEvictionClaims - 1 = _
    have hsingle : tags (fun i => m.evicting i ∧ (m.chunks i).evictionClaimId = c.claimId)
        (fun i => (m.chunks i).evictionClaimId) m.chunkCount = {c.claimId} := by
      ext x
      rw [mem_tags, Finset.mem_singleton]
      constructor
      · rintro ⟨i, -, hi, rfl⟩
        exact hi.2
      · rintro rfl
        obtain ⟨i, hi, hid⟩ := evictionClaim_named hv
        exact ⟨i, hi, ⟨(hmem i hi hid).1, hid⟩, hid⟩
    rw [hsingle, Finset.card_singleton]

theorem finishEviction_frame (m : ChunkModule) (c : EvictionClaim) : m.finishEviction c =
    { m with
      chunks := (m.finishEviction c).chunks
      validSectors := (m.finishEviction c).validSectors
      nextMappingGeneration := (m.finishEviction c).nextMappingGeneration
      assignedChunks := m.assignedChunks - c.chunkCount
      activeEvictionClaims := m.activeEvictionClaims - 1 } := by
  have hframe := resetWhere_frame m (fun chunk => chunk.evictionClaimId = c.claimId) true m.chunkCount
  unfold finishEviction
  rw [hframe]

theorem finishEviction_providers (m : ChunkModule) (c : EvictionClaim) :
    (m.finishEviction c).providers = m.providers := by
  rw [finishEviction_frame]

theorem inv_evictFinish (hI : m.Inv) (hv : m.evictionClaimValidate c = .ok ()) :
    (m.finishEviction c).Inv := by
  have hr := finishEviction_resetTo hv
  obtain ⟨hne, -, -, hmem, -⟩ := evictionClaimValidate_ok hv
  have hframe := resetWhere_frame m (fun chunk => chunk.evictionClaimId = c.claimId) true m.chunkCount
  have hprov : (m.finishEviction c).providerValid = m.providerValid := by rw [finishEviction, hframe]; rfl
  refine hr.inv hI (fun i _ j _ _ hp hid => hid.trans hp)
    (fun i hi _ hs => by rw [hprov]; exact (hI.chunk i hi).provider hs) ?_
  have hmap : ∀ i < m.chunkCount, ((m.finishEviction c).chunks i).state = .mapping ↔
      (m.chunks i).state = .mapping := by
    intro i hi
    by_cases hp : (m.chunks i).evictionClaimId = c.claimId
    · rw [hr.chunk_in hi hp, (hmem i hi hp).1]; simp [resetChunk]
    · rw [hr.chunk_out hp]
  rcases hI.claim with h0 | ⟨k, hk⟩
  · left
    refine ⟨?_, ?_, fun i hi h => h0.mapping i (hr.chunkCount ▸ hi) ((hmap i (hr.chunkCount ▸ hi)).mp h)⟩
    · rw [finishEviction, hframe]; exact h0.count
    · rw [finishEviction, hframe]; exact h0.cleared
  · right
    have hks : ¬ (m.chunks k).evictionClaimId = c.claimId := by
      intro h
      have := (hmem k hk.lt h).1
      rw [(hk.mapping k hk.lt).mpr rfl] at this
      cases this
    refine ⟨k, ?_, hr.chunkCount ▸ hk.lt, fun i hi => ?_, ?_, ?_⟩
    · rw [finishEviction, hframe]; exact hk.count
    · exact (hmap i (hr.chunkCount ▸ hi)).trans (hk.mapping i (hr.chunkCount ▸ hi))
    · rw [hr.chunk_out hks, hr.chunkCount, hr.identity, ← hk.claim, finishEviction, hframe]
    · rw [finishEviction, hframe]; exact hk.superseded

/-! ### Failing a Provider -/

theorem failRecord_eq (m : ChunkModule) (p : ProviderHandle) : m.failRecord p =
    { m with
      activeMappingClaim := (m.failRecord p).activeMappingClaim
      lastMappingTerminalClaim := (m.failRecord p).lastMappingTerminalClaim
      lastMappingTerminalAction := (m.failRecord p).lastMappingTerminalAction } := by
  unfold failRecord
  split <;> rfl

/-- The failure count of mapping claims: 1 if the Provider holds the active claim. -/
theorem failedMappingClaims_claimed (hI : m.Inv) {k : ℕ} (hk : m.ClaimedFor k) (p : ProviderHandle) :
    m.failedMappingClaims p = if (m.chunks k).provider = p then 1 else 0 := by
  have hs : (m.chunks k).state = .mapping := (hk.mapping k hk.lt).mpr rfl
  split
  · rename_i hp
    refine count_eq_one hk.lt fun i hi => ⟨fun h => (hk.mapping i hi).mp h.1.2, ?_⟩
    rintro rfl
    refine ⟨⟨⟨by simp [hs], hp⟩, hs⟩, fun j hj he => ?_⟩
    have := (hk.named_iff hI (by omega)).mp he
    omega
  · rename_i hp
    refine count_eq_zero fun i hi h => hp ?_
    rw [← (hk.mapping i hi).mp h.1.2]
    exact h.1.1.2

theorem failedMappingClaims_noClaim (h0 : m.NoClaim) (p : ProviderHandle) : m.failedMappingClaims p = 0 :=
  count_eq_zero fun i hi h => h0.mapping i hi h.1.2

/-- The failure count of eviction claims: the distinct ids on the Provider's evicting chunks. -/
theorem failedEvictionClaims_eq (hI : m.Inv) (p : ProviderHandle) : m.failedEvictionClaims p =
    (tags (fun i => m.evicting i ∧ held p (m.chunks i)) (fun i => (m.chunks i).evictionClaimId)
      m.chunkCount).card := by
  have hcl : ∀ i < m.chunkCount, ∀ j < m.chunkCount,
      held p (m.chunks i) ∧ (m.chunks i).state = .evicting →
      (m.chunks j).evictionClaimId = (m.chunks i).evictionClaimId →
      held p (m.chunks j) ∧ (m.chunks j).state = .evicting := by
    intro i hi j hj hp hid
    have hj' : (m.chunks j).state = .evicting :=
      (hI.chunk j hj).evictionId.mp (hid ▸ (hI.chunk i hi).evictionId.mpr hp.2)
    exact ⟨⟨by simp [hj'], (hI.batch i hi j hj hp.2 hid).2.trans hp.1.2⟩, hj'⟩
  rw [failedEvictionClaims, count_first_eq_card hcl]
  exact congrArg _ (tags_congr (fun i _ => and_comm) fun _ _ _ => rfl)

theorem failProvider_resetTo (hI : m.Inv) (p : ProviderHandle) (i : ℕ) :
    ResetTo m (m.failProvider p i) (held p) false := by
  have hrec := failRecord_eq m p
  have hframe := resetWhere_frame (m.failRecord p) (held p) false m.chunkCount
  obtain ⟨hchunks, hgen, hvalid⟩ := resetWhere_spec (m.failRecord p) (held p) false m.chunkCount
  have hc : (m.failRecord p).chunks = m.chunks := by rw [hrec]
  have hg : (m.failRecord p).nextMappingGeneration = m.nextMappingGeneration := by rw [hrec]
  have hv : (m.failRecord p).sectorValid = m.sectorValid := by rw [hrec]; rfl
  refine
    { chunkCount := ?_
      providerCount := ?_
      mode := ?_
      identity := ?_
      sample := ?_
      handle := fun j => ?_
      mappingId := ?_
      evictionId := ?_
      transition := Nat.le_succ _
      leaseId := ?_
      leases := ?_
      chunks := fun j => ?_
      generation := ?_
      valid := fun s => ?_
      assigned := ?_
      usable := ?_
      evictions := ?_ }
  any_goals
    rw [failProvider, hframe, hrec]
    rfl
  · rw [failProvider, hframe, hrec]
    show (if j = i then _ else m.providers j).handle = (m.providers j).handle
    split
    · rename_i h; rw [h]
    · rfl
  · show ((m.failRecord p).resetWhere (held p) false m.chunkCount).chunks j = _
    rw [hchunks, hc, resetGeneration, hg, hc]
    rfl
  · show ((m.failRecord p).resetWhere (held p) false m.chunkCount).nextMappingGeneration = _
    rw [hgen, hg, hc]
  · show ((m.failRecord p).resetWhere (held p) false m.chunkCount).sectorValid s = true ↔ _
    rw [hvalid, hv, hc]
  · show m.assignedChunks - (m.failureFacts p).assignedChunks = _
    congr 1
    exact count_congr fun j _ => by simp [and_comm]
  · show m.usableChunks - (m.failureFacts p).usableChunks = _
    congr 1
    exact count_congr fun j _ => by simp [and_comm]
  · show m.activeEvictionClaims - m.failedEvictionClaims p = _
    rw [failedEvictionClaims_eq hI]

theorem failProvider_providers (m : ChunkModule) (p : ProviderHandle) (i j : ℕ) :
    (m.failProvider p i).providers j = if j = i then
      { m.providers i with
        failed := true, placementEligible := false, exclusion := .unhealthy,
          failureFacts := m.failureFacts p }
      else m.providers j := by
  show (if j = i then _ else ((m.failRecord p).resetWhere (held p) false m.chunkCount).providers j) = _
  rw [resetWhere_frame, failRecord_eq]

theorem failProvider_valid (hI : m.Inv) {p q : ProviderHandle}
    (hi : m.providerRosterIndex p = some i) (hne : q ≠ p) (hq : m.providerValid q = true) :
    (m.failProvider p i).providerValid q = true := by
  have hr := failProvider_resetTo hI p i
  obtain ⟨j, hj, hf⟩ := m.providerValid_iff.mp hq
  obtain ⟨-, hpi⟩ := m.providerRosterIndex_some hi
  obtain ⟨-, hqj⟩ := m.providerRosterIndex_some hj
  have hji : j ≠ i := by
    rintro rfl
    exact hne (hqj.symm.trans hpi)
  refine (providerValid_iff _).mpr ⟨j, ?_, ?_⟩
  · rw [← hj, providerRosterIndex, providerRosterIndex, hr.providerCount]
    simp only [hr.handle]
  · rw [← hf, failProvider_providers, if_neg hji]

theorem failProvider_invalid (hI : m.Inv) {p : ProviderHandle}
    (hi : m.providerRosterIndex p = some i) :
    (m.failProvider p i).providerValid p = false := by
  have hr := failProvider_resetTo hI p i
  refine Bool.eq_false_iff.mpr fun hv => ?_
  obtain ⟨j, hj, hf⟩ := (providerValid_iff _).mp hv
  have hji : j = i := by
    rw [providerRosterIndex, hr.providerCount] at hj
    simp only [hr.handle] at hj
    exact Option.some.inj (hj.symm.trans hi)
  rw [failProvider_providers, if_pos hji] at hf
  cases hf

theorem inv_fail (hI : m.Inv) {p : ProviderHandle} (hi : m.providerRosterIndex p = some i) :
    (m.failProvider p i).Inv := by
  have hr := failProvider_resetTo hI p i
  refine hr.inv hI (fun i hi j hj he hp hid => ?_) (fun j hj hp hs => ?_) ?_
  · have hb := (hI.batch i hi j hj he hid).2
    have hj' : (m.chunks j).state = .evicting :=
      (hI.chunk j hj).evictionId.mp (hid ▸ (hI.chunk i hi).evictionId.mpr he)
    exact ⟨by simp [hj'], hb.trans hp.2⟩
  · exact failProvider_valid hI hi (fun h => hp ⟨hs, h⟩) ((hI.chunk j hj).provider hs)
  · have hmap : ∀ j < m.chunkCount, ((m.failProvider p i).chunks j).state = .mapping ↔
        (m.chunks j).state = .mapping ∧ (m.chunks j).provider ≠ p := by
      intro j hj
      by_cases hp : held p (m.chunks j)
      · rw [hr.chunk_in hj hp]
        simp [resetChunk, hp.2]
      · rw [hr.chunk_out hp]
        exact ⟨fun h => ⟨h, fun hpp => hp ⟨by simp [h], hpp⟩⟩, fun h => h.1⟩
    have hclaims : (m.failProvider p i).activeMappingClaims =
        m.activeMappingClaims - m.failedMappingClaims p := rfl
    have hactive : (m.failProvider p i).activeMappingClaim = (m.failRecord p).activeMappingClaim := by
      show ((m.failRecord p).resetWhere (held p) false m.chunkCount).activeMappingClaim = _
      rw [resetWhere_frame]
    have hlast : (m.failProvider p i).lastMappingTerminalClaim =
        (m.failRecord p).lastMappingTerminalClaim := by
      show ((m.failRecord p).resetWhere (held p) false m.chunkCount).lastMappingTerminalClaim = _
      rw [resetWhere_frame]
    rcases hI.claim with h0 | ⟨k, hk⟩
    · left
      have hz := failedMappingClaims_noClaim h0 p
      refine ⟨by rw [hclaims, h0.count, hz], ?_, fun j hj h => ?_⟩
      · rw [hactive, failRecord, if_neg (by simp [hz]), h0.cleared]
      · exact h0.mapping j (hr.chunkCount ▸ hj) ((hmap j (hr.chunkCount ▸ hj)).mp h).1
    · have hz := failedMappingClaims_claimed hI hk p
      by_cases hp : (m.chunks k).provider = p
      · -- the failed Provider held the claim
        left
        rw [if_pos hp] at hz
        refine ⟨by rw [hclaims, hk.count, hz], ?_, fun j hj h => ?_⟩
        · rw [hactive, failRecord, if_pos (by simp [hz])]; rfl
        · obtain ⟨h1, h2⟩ := (hmap j (hr.chunkCount ▸ hj)).mp h
          rw [(hk.mapping j (hr.chunkCount ▸ hj)).mp h1] at h2
          exact h2 hp
      · right
        rw [if_neg hp] at hz
        have hkout : ¬ held p (m.chunks k) := fun h => hp h.2
        refine ⟨k, by rw [hclaims, hk.count, hz], hr.chunkCount ▸ hk.lt, fun j hj => ?_, ?_, ?_⟩
        · rw [hmap j (hr.chunkCount ▸ hj), hk.mapping j (hr.chunkCount ▸ hj)]
          refine ⟨fun h => h.1, ?_⟩
          rintro rfl
          exact ⟨rfl, hp⟩
        · rw [hr.chunk_out hkout, hr.chunkCount, hr.identity, hactive, failRecord, if_neg (by simp [hz]),
            hk.claim]
        · rw [hlast, failRecord, if_neg (by simp [hz]), hk.superseded]

/-- **Every control step keeps the representation invariant.** -/
theorem ControlStep.inv (hI : m.Inv) (h : ControlStep m m') : m'.Inv := by
  cases h with
  | quiet hc _ => exact hI.congr hc
  | reserve p k hp hc hk hs h _ => exact (inv_reserve hI hp hc hk hs).congr h
  | abort c ha hc => exact inv_abort hI ha hc
  | commit c gs ha hc hs hg => exact inv_commit hI ha hc hs hg
  | evictBegin p pcs selected hm _ hne hsel _ => exact inv_evictBegin hsel hI hm hne
  | evictFinish c hv _ => exact inv_evictFinish hI hv
  | fail p i hi _ _ => exact inv_fail hI hi

theorem ControlStep.waits (h : ControlStep m m') : m'.activeEvictionWaits = m.activeEvictionWaits := by
  cases h with
  | quiet _ hw => exact hw
  | reserve p k _ _ _ _ _ hw => exact hw
  | abort c _ _ => rfl
  | commit c gs ha hc hs hg =>
    show (gs.foldl commitGrant m).activeEvictionWaits = _
    clear ha hs hg
    induction gs generalizing m with
    | nil => rfl
    | cons g gs ih => exact ih (m := m.commitGrant g) hc
  | evictBegin => rfl
  | evictFinish c _ _ => rw [finishEviction, resetWhere_frame]
  | fail p i _ _ _ => rw [failProvider, resetWhere_frame, failRecord_eq]; rfl

end ChunkModule
end RemoteChunk
end Infiniswap
