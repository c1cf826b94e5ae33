/-
# The module's defensive branches

The operations guard every counter they change: against identifier
exhaustion, against counters that disagree with the chunks, and against the
limits of `unsigned int` counters. In every reachable world the second kind
never fires; what is left are exhausted identifiers and 2³² − 1 outstanding
leases or waits.
-/
import Mathlib.Algebra.Order.BigOperators.Group.Finset
import Infiniswap.RemoteChunk.Placement
import Infiniswap.RemoteChunk.World

namespace Infiniswap
namespace RemoteChunk

open ChunkModule Transition Counting

namespace ChunkModule

variable {m m' : ChunkModule}

variable {p : ProviderHandle} {k : ℕ} {c : EvictionClaim}

/-- No identifier of the module is exhausted by its next operation. -/
structure IdsLast (m : ChunkModule) : Prop where
  mappingClaim : m.nextMappingClaimId < idMax
  evictionClaim : m.nextEvictionClaimId < idMax
  transition : m.nextTransitionGeneration < idMax
  generation : m.nextMappingGeneration + m.chunkCount ≤ idMax
  lease : m.nextIoLeaseId < idMax

/-! ### Placement -/

theorem eligible_valid (hI : m.Inv) {i : ℕ} (h : i ∈ m.eligibleProviders) :
    m.providerValid (m.providers i).handle = true := by
  obtain ⟨hi, hp⟩ := List.mem_filter.mp h
  simp only [Bool.and_eq_true, Bool.not_eq_true'] at hp
  exact m.providerValid_iff.mpr ⟨i, hI.rosterIndex_eq (List.mem_range.mp hi) rfl, hp.1.1⟩

/-! ### No operation meets a counter that disagrees with the chunks -/

theorem mappingClaimCreate_isOk (hmap : m.nextMappingClaimId < idMax)
    (htrans : m.nextTransitionGeneration < idMax) (hq : m.quiescing = false)
    (hp : m.providerValid p = true) (hc : m.activeMappingClaims = 0) (hk : k < m.chunkCount)
    (hs : (m.chunks k).state = .unmapped) :
    m.mappingClaimCreate p k = .ok (m.newMappingClaim p k, m.reserveChunk p k) := by
  unfold mappingClaimCreate
  rw [if_neg (by simp [hq]), if_neg (by simp [hp]), if_neg (by omega), if_neg (by omega),
    if_neg (by simp [hs]), if_neg (by omega)]

theorem placeChunk_request {draws : ℕ → ℕ} {remoteOnly : Bool} (hI : m.Inv) (hids : m.IdsLast)
    (hq : m.quiescing = false) (hc : m.activeMappingClaims = 0) (hk : k < m.chunkCount)
    (hs : (m.chunks k).state = .unmapped) (hne : m.eligibleProviders ≠ []) :
    (m.placeChunk draws remoteOnly k).1 = .request := by
  have hcount : m.providerCount ≠ 0 := by
    intro h0
    exact hne (by simp [eligibleProviders, h0])
  have hmem := chooseProvider_mem draws hne (hI.sample hcount)
  have hok :=
    mappingClaimCreate_isOk (m := m.setPlacementRng (m.chooseProvider draws m.eligibleProviders).2)
    (p := (m.providers (m.chooseProvider draws m.eligibleProviders).1).handle) hids.mappingClaim
    hids.transition hq (eligible_valid hI hmem) hc hk hs
  unfold placeChunk
  dsimp only
  rw [hok]

/-- A Remote-Only module with no claim in flight and a chunk not yet usable has an unmapped chunk. -/
theorem exists_unmapped (hI : m.Inv) (hr : m.mode = .remoteOnly) (hc : m.activeMappingClaims = 0)
    (hu : m.usableChunks ≠ m.chunkCount) : ∃ i < m.chunkCount, (m.chunks i).state = .unmapped := by
  by_contra hno
  push Not at hno
  refine hu (hI.usable.trans ?_)
  rw [Nat.count_iff_forall.mpr]
  intro i hi
  cases hs : (m.chunks i).state with
  | unmapped => exact absurd hs (hno i hi)
  | mapping => exact absurd hs ((hI.noClaim hc).mapping i hi)
  | evicting =>
    have := (hI.chunk i hi).backed hs
    rw [hr] at this
    cases this
  | mapped => rfl

theorem nextMapping_ne_invalidInput {draws : ℕ → ℕ} (hI : m.Inv) (hids : m.IdsLast) :
    (m.nextMapping draws).1 ≠ .invalidInput := by
  unfold nextMapping
  dsimp only
  split
  · nofun
  rename_i hq
  split
  · nofun
  rename_i hc
  push Not at hc
  split
  · nofun
  split
  · nofun
  rename_i hu
  split
  · rename_i hfind
    split
    · rename_i hr
      simp only [decide_eq_true_eq] at hr
      obtain ⟨i, hi, hs⟩ := exists_unmapped hI hr hc (by simpa [hr] using hu)
      have := List.find?_eq_none.mp hfind i (List.mem_range.mpr hi)
      simp [mappingCandidate, hs, hr] at this
    · nofun
  · rename_i k hfind
    have hk := List.mem_range.mp (List.mem_of_find?_eq_some hfind)
    have hs := List.find?_some hfind
    simp only [mappingCandidate, Bool.and_eq_true, decide_eq_true_eq] at hs
    split
    · nofun
    split
    · split <;> nofun
    rename_i hne
    rw [placeChunk_request hI hids (by simpa using hq) hc hk hs.1 hne]
    nofun

theorem Inv.assigned_le (hI : m.Inv) : m.assignedChunks ≤ m.chunkCount := by
  rw [hI.assigned]
  exact Nat.count_le _

theorem Inv.usable_le (hI : m.Inv) : m.usableChunks ≤ m.chunkCount := by
  rw [hI.usable]
  exact Nat.count_le _

theorem shapeValid_count {c : MappingClaim} {grants : GrantArg}
    (h : m.mappingGrantsShapeValid c grants = true) : grants.count = c.chunkCount := by
  cases grants with
  | null n => cases h
  | array gs =>
    simp only [mappingGrantsShapeValid, Bool.and_eq_true, beq_iff_eq] at h
    exact h.1.1.1

theorem mappingFinish_ne_exhausted {c : MappingClaim} {action : MappingFinishAction}
    {grants : GrantArg} (hI : m.Inv) (hids : m.IdsLast) :
    (m.mappingFinish c action p grants).1 ≠ .exhausted := by
  have hassigned := hI.assigned_le
  have husable := hI.usable_le
  have hn := hI.count_le
  have hpos := hI.count_pos
  have hgen := hids.generation
  unfold mappingFinish
  split
  · nofun
  split
  · nofun
  split
  · nofun
  rename_i hkind
  split
  · nofun
  split
  · unfold mappingFinishRepeated otherProviderResult
    dsimp only
    split_ifs <;> nofun
  split
  · nofun
  split
  · nofun
  rename_i hactive
  have hc : c = m.activeMappingClaim := mappingClaimActive_eq (by simpa using hactive)
  unfold mappingFinishActive otherProviderResult
  split
  · split <;> nofun
  split
  · nofun
  rename_i hshape
  split
  · nofun
  split
  · nofun
  rename_i hclaims
  obtain ⟨k, hk⟩ := hI.claimed hclaims
  have hcount : c.chunkCount = 1 := by rw [hc, hk.claim]
  have hdebit : c.capacityDebit = 1 := by rw [hc, hk.claim]
  split
  · nofun
  rename_i habort
  split
  · nofun
  have hcommit : action = .commit := by
    by_contra hne
    exact hkind ⟨hne, habort⟩
  have hgrants : grants.count = c.chunkCount := by
    refine shapeValid_count (m := m) ?_
    by_contra hno
    exact hshape ⟨hcommit, by simpa using hno⟩
  split
  · rename_i hover
    unfold idMax at hover hgen
    unfold u32Max at hover
    unfold maxChunks at hn
    omega
  · nofun

theorem Inv.evictions_le (hI : m.Inv) : m.activeEvictionClaims ≤ m.chunkCount := by
  rw [hI.evictions]
  calc (tags m.evicting (fun i => (m.chunks i).evictionClaimId) m.chunkCount).card
      ≤ ((Finset.range m.chunkCount).filter m.evicting).card := Finset.card_image_le
    _ ≤ (Finset.range m.chunkCount).card := Finset.card_filter_le _ _
    _ = m.chunkCount := Finset.card_range _

theorem selectChunks_ne_eoverflow : ∀ {pcs selected : List ℕ},
    m.selectChunks p selected pcs ≠ .error .eoverflow
  | [], _ => nofun
  | pc :: pcs, selected => by
    unfold selectChunks
    split
    · nofun
    split
    · nofun
    · exact selectChunks_ne_eoverflow

theorem evictionBegin_ne_eoverflow {pcs : List ℕ} {out : EvictionClaim} (hI : m.Inv)
    (hids : m.IdsLast) : m.evictionBegin p pcs out ≠ .error .eoverflow := by
  have h1 := hids.evictionClaim
  have h2 := hids.transition
  have h3 := hI.evictions_le
  have h4 := hI.count_le
  unfold evictionBegin
  dsimp only
  split
  · nofun
  split
  · nofun
  split
  · nofun
  split
  · nofun
  split
  · nofun
  split
  · rename_i e he
    intro hc
    cases hc
    exact selectChunks_ne_eoverflow he
  rename_i selected hsel
  -- the selected chunks are usable and different, so the counter covers them
  have husable := batch_usable hsel hI
  rw [if_neg]
  · nofun
  · unfold idMax at *
    unfold u32Max maxChunks at *
    omega

theorem evictionClaimValidate_ne_eoverflow :
    m.evictionClaimValidate c ≠ .error .eoverflow := by
  unfold evictionClaimValidate
  dsimp only
  split_ifs <;> nofun

theorem evictionWaitResume_ne_eoverflow (c : EvictionClaim) (deadline now : ℕ) :
    (m.evictionWaitResume c deadline now).1 ≠ .done (.error .eoverflow) := by
  unfold evictionWaitResume evictionWaitCheck
  cases hv : m.evictionClaimValidate c with
  | error e =>
    intro hc
    cases hc
    exact evictionClaimValidate_ne_eoverflow hv
  | ok _ =>
    dsimp only
    split
    · rename_i status hs
      split_ifs at hs <;> cases hs <;> nofun
    · nofun

theorem evictionWaitBegin_ne_eoverflow (c : EvictionClaim) (deadline now : ℕ)
    (hw : m.activeEvictionWaits < u32Max) :
    (m.evictionWaitBegin c deadline now).1 ≠ .done (.error .eoverflow) := by
  unfold evictionWaitBegin
  split
  · nofun
  split
  · rename_i e he
    intro hc
    cases hc
    exact evictionClaimValidate_ne_eoverflow he
  rw [if_neg (by omega)]
  exact evictionWaitResume_ne_eoverflow c deadline now

section

variable (hI : m.Inv)

include hI

theorem evictionFinish_drained (hv : m.evictionClaimValidate c = .ok ())
    (hd : m.evictionDrained c = true) : m.evictionFinish c =
      if m.nextMappingGeneration > idMax - c.chunkCount then (.error .eoverflow, m)
      else (.ok (), m.finishEviction c) := by
  obtain ⟨-, -, -, hmem, hcount⟩ := evictionClaimValidate_ok hv
  have hassigned : c.chunkCount ≤ m.assignedChunks := by
    rw [← hcount, hI.assigned]
    exact count_mono fun i hi h => .inr (hmem i hi h).1
  have hclaims := hI.evictionClaims_ne hv
  unfold evictionFinish
  rw [hv]
  dsimp only
  rw [if_neg (by simp [hd])]
  by_cases hroom : m.nextMappingGeneration > idMax - c.chunkCount
  · rw [if_pos hroom, if_pos (.inl hroom)]
  · rw [if_neg hroom, if_neg (by omega)]

theorem evictionFinish_ne_eoverflow (hids : m.IdsLast) :
    (m.evictionFinish c).1 ≠ .error .eoverflow := by
  have hgen := hids.generation
  cases hv : m.evictionClaimValidate c with
  | error e =>
    unfold evictionFinish
    rw [hv]
    rintro ⟨⟩
    exact evictionClaimValidate_ne_eoverflow hv
  | ok =>
    by_cases hd : m.evictionDrained c = true
    · have hle : c.chunkCount ≤ m.chunkCount := (evictionClaimValidate_ok hv).2.2.2.2 ▸ Nat.count_le _
      rw [evictionFinish_drained hI hv hd, if_neg (by omega)]
      nofun
    · unfold evictionFinish
      rw [hv]
      dsimp only
      rw [if_pos (by simpa using hd)]
      nofun

theorem ClaimedFor.wellFormed (hk : m.ClaimedFor k) :
    m.activeMappingClaim.wellFormed = true := by
  have hstate : (m.chunks k).state = .mapping := (hk.mapping k hk.lt).mpr rfl
  have hok := hI.chunk k hk.lt
  rw [hk.claim]
  simp [MappingClaim.wellFormed, hI.identity, hI.wellFormed (hok.provider (by simp [hstate])),
    hok.mappingId.mpr hstate, hok.transition_ne (.inl hstate)]

/-- Failing a Provider never meets counters below what the Provider holds: the report is refused for
want of generations only. -/
theorem failureExhausted_iff : m.failureExhausted p ↔
    m.nextMappingGeneration > idMax - (m.failureFacts p).affectedChunks ∨
    m.nextTransitionGeneration = idMax := by
  have hassigned : (m.failureFacts p).assignedChunks ≤ m.assignedChunks := by
    rw [hI.assigned]
    exact count_mono fun i _ h => by simpa using h.2
  have husable : (m.failureFacts p).usableChunks ≤ m.usableChunks := by
    rw [hI.usable]
    exact count_mono fun i _ h => by simpa using h.2
  have hevict : m.failedEvictionClaims p ≤ m.activeEvictionClaims := by
    rw [failedEvictionClaims_eq hI, hI.evictions]
    refine Finset.card_le_card fun x hx => ?_
    obtain ⟨i, hi, he, rfl⟩ := mem_tags.mp hx
    exact mem_tags.mpr ⟨i, hi, he.1, rfl⟩
  have hmap : m.failedMappingClaims p ≤ m.activeMappingClaims ∧ (m.failedMappingClaims p ≠ 0 →
      m.activeMappingClaim.wellFormed = true ∧ m.activeMappingClaim.provider = p) := by
    rcases hI.claim with h0 | ⟨k, hk⟩
    · rw [failedMappingClaims_noClaim h0]
      exact ⟨Nat.zero_le _, fun h => absurd rfl h⟩
    · rw [failedMappingClaims_claimed hI hk, hk.count]
      refine ⟨by split <;> omega, fun hne => ⟨hk.wellFormed hI, ?_⟩⟩
      by_contra hp
      rw [hk.claim] at hp
      rw [if_neg hp] at hne
      exact hne rfl
  unfold failureExhausted
  constructor
  · rintro (h | h | h | h | h | h | ⟨h, h'⟩)
    · exact .inl h
    · omega
    · omega
    · omega
    · omega
    · exact .inr h
    · obtain ⟨h1, h2⟩ := hmap.2 h
      simp [h1, h2] at h'
  · rintro (h | h)
    · exact .inl h
    · exact .inr (.inr (.inr (.inr (.inr (.inl h)))))

theorem not_failureExhausted (hids : m.IdsLast) : ¬ m.failureExhausted p := by
  have hgen := hids.generation
  have htrans := hids.transition
  have haff : (m.failureFacts p).affectedChunks ≤ m.chunkCount := Nat.count_le _
  rw [failureExhausted_iff hI]
  omega

theorem providerFailed_ne_exhausted (hids : m.IdsLast) :
    (m.providerFailed p).1 ≠ .exhausted := by
  unfold providerFailed
  split
  · nofun
  split
  · nofun
  split
  · nofun
  rw [if_neg (not_failureExhausted hI hids)]
  nofun

theorem Inv.chunk_leases_le (hk : k < m.chunkCount) :
    (m.chunks k).activeIoLeases ≤ m.activeIoLeases := by
  rw [hI.leases]
  exact Finset.single_le_sum (f := fun i => (m.chunks i).activeIoLeases) (fun _ _ => Nat.zero_le _)
    (Finset.mem_range.mpr hk)

end

theorem requestChunk_ne_eoverflow {r : IoRequest} : m.requestChunk r ≠ .error .eoverflow := by
  unfold requestChunk
  dsimp only
  split_ifs <;> nofun

theorem ioLeaseAcquire_ne_eoverflow {r : IoRequest} {a : ℕ} {previous : IoLease} (hI : m.Inv)
    (hids : m.IdsLast) (hl : m.activeIoLeases < u32Max) :
    m.ioLeaseAcquire r a previous ≠ .error .eoverflow := by
  have hid := hids.lease
  unfold ioLeaseAcquire
  split
  · rename_i e he
    intro hc
    cases hc
    exact requestChunk_ne_eoverflow he
  rename_i k hk
  have hle := hI.chunk_leases_le (requestChunk_ok hk).2.1
  dsimp only
  split
  · nofun
  split
  · nofun
  split
  · nofun
  split
  · split <;> nofun
  split
  · nofun
  split
  · nofun
  rw [if_neg (by omega)]
  nofun

/-- **A snapshot never finds a counter that disagrees with the chunks.** -/
theorem snapshotTake_ok (hI : m.Inv) : ∃ s, m.snapshotTake true = .ok s := by
  have hleases : m.derivedActiveIoLeases = m.activeIoLeases := by
    have := hI.leases_le
    rw [derivedActiveIoLeases, ← hI.leases]
    unfold u32Max at this
    exact Nat.mod_eq_of_lt (by omega)
  unfold snapshotTake
  rw [if_neg (by decide)]
  dsimp only
  rw [if_neg, if_neg]
  · exact ⟨_, rfl⟩
  · rw [hI.assigned, hI.usable, hleases]
    simp
  · simp only [List.any_filter, List.any_eq_true, List.mem_range, not_exists, not_and, Bool.and_eq_true,
      decide_eq_true_eq]
    intro i hi ha
    have hs : (m.chunks i).state ≠ .unmapped := fun hs => not_assigned_of_unmapped hs ha
    obtain ⟨j, hj, -⟩ := m.providerValid_iff.mp ((hI.chunk i hi).provider hs)
    simp [hj]

theorem snapshotTake_ne_einval {allocated : Bool} (hI : m.Inv) :
    m.snapshotTake allocated ≠ .error .einval := by
  cases allocated with
  | false => nofun
  | true =>
    obtain ⟨s, hs⟩ := snapshotTake_ok hI
    rw [hs]
    nofun

end ChunkModule

/-! ### Replies of the defensive branches -/

/-- The reply of a branch that answers exhaustion or a counter that disagrees with the chunks. -/
def Reply.Defensive : Reply → Prop
  | .status result => result = .error .eoverflow
  | .next result _ => result = .invalidInput
  | .finished result => result = .exhausted
  | .begun result => result = .error .eoverflow
  | .waited result => result = .done (.error .eoverflow)
  | .failed result _ => result = .exhausted
  | .leased result => result = .error .eoverflow
  | .snapshot result => result = .error .einval
  | .observed _ | .policy _ | .needed _ | .activity _ | .resolved _ | .written => False

theorem moduleQuiesce_ne_eoverflow (m : ChunkModule) : m.moduleQuiesce.1 ≠ .error .eoverflow := by
  unfold moduleQuiesce
  split <;> nofun

theorem moduleDestroy_ne_eoverflow (m : ChunkModule) : m.moduleDestroy.1 ≠ .error .eoverflow := by
  unfold moduleDestroy
  dsimp only
  split_ifs <;> nofun

theorem ioLeaseRelease_ne_eoverflow (m : ChunkModule) (a : ℕ) (l : IoLease) :
    (m.ioLeaseRelease a l).1 ≠ .error .eoverflow := by
  unfold ioLeaseRelease leaseValidate
  split_ifs <;> nofun

/-- **While identifiers last and lease and wait counters have room, no call takes a defensive branch.** -/
theorem call_not_defensive {w w' : World} {c : Call} {r : Reply} (h : WorldInv w)
    (hids : w.module.IdsLast) (hl : w.module.activeIoLeases < u32Max)
    (hw : w.module.activeEvictionWaits < u32Max) (hc : w.call c = some (r, w')) :
    ¬ r.Defensive := by
  have hI := h.module
  cases c with
  | quiesce => cases hc; exact moduleQuiesce_ne_eoverflow _
  | destroy => cases hc; exact moduleDestroy_ne_eoverflow _
  | observe p o | hotPolicySnapshot => cases hc; exact id
  | hotPolicySet policy | noteActivity start count kind =>
    dsimp only [World.call] at hc
    split at hc <;> (cases hc; exact id)
  | nextMapping draws => cases hc; exact nextMapping_ne_invalidInput hI hids
  | mappingFinish claim action p grants => cases hc; exact mappingFinish_ne_exhausted hI hids
  | activityQuery p pcs => cases hc; exact id
  | evictionBegin p pcs out =>
    dsimp only [World.call] at hc
    split at hc
    · rename_i e he
      cases hc
      rintro ⟨⟩
      exact evictionBegin_ne_eoverflow hI hids he
    · cases hc; nofun
  | evictionWait claim deadline now =>
    have hne := evictionWaitBegin_ne_eoverflow claim deadline now hw
    dsimp only [World.call] at hc
    split at hc
    · rename_i he
      rw [he] at hne
      cases hc
      exact hne
    · cases hc; nofun
  | evictionWake i now =>
    dsimp only [World.call] at hc
    split at hc
    · cases hc
    rename_i claim deadline _
    have hne := evictionWaitResume_ne_eoverflow (m := w.module) claim deadline now
    split at hc
    · rename_i he
      rw [he] at hne
      cases hc
      exact hne
    · cases hc; nofun
  | evictionFinish claim => cases hc; exact evictionFinish_ne_eoverflow hI hids
  | providerFailed p => cases hc; exact providerFailed_ne_exhausted hI hids
  | leaseAcquire request a =>
    dsimp only [World.call] at hc
    split at hc
    · rename_i e he
      cases hc
      rintro ⟨⟩
      exact ioLeaseAcquire_ne_eoverflow hI hids hl he
    · cases hc; nofun
  | leaseResolve a outcome => cases hc; exact id
  | leaseRelease a => cases hc; exact ioLeaseRelease_ne_eoverflow _ _ _
  | snapshot allocated => cases hc; exact snapshotTake_ne_einval hI
  | writeCell a content =>
    dsimp only [World.call] at hc
    split at hc
    · cases hc
    · cases hc; exact id

/-- A lease that validates and was resolved is released: its counters are never already zero. -/
theorem release_ok {w : World} (h : WorldInv w) {a : ℕ}
    (hv : w.module.leaseValidate a (w.leases a) = .ok ()) (hres : (w.leases a).resolved = true)
    (hrel : (w.leases a).released = false) : (w.module.ioLeaseRelease a (w.leases a)).1 = .ok () := by
  obtain ⟨h1, h2⟩ := h.leases.counted_pos h.module ⟨own_of_validate hv, hrel⟩
  unfold ioLeaseRelease
  rw [hv]
  dsimp only
  rw [if_neg (by simp [hrel]), if_neg (by simp [hres]), if_neg (by simp [h1, h2])]

end RemoteChunk
end Infiniswap
