/-
# Mapping claims and the beginning of an eviction keep the invariant

The transitions of a mapping claim change a single chunk, so what they keep
about all chunks is stated once for an arbitrary replacement of chunk `k`. An
eviction begins with a batch of chunks that its selection loop finds.
-/
import Infiniswap.RemoteChunk.Invariant

namespace Infiniswap
namespace RemoteChunk
namespace ChunkModule

open Counting

variable {m m' : ChunkModule}

/-! ### Replacing one chunk -/

section OneChunk

variable {k : ℕ} {c : Chunk} (hset : ∀ i, m'.chunks i = if i = k then c else m.chunks i)
  (hn : m'.chunkCount = m.chunkCount)

include hset

variable {p : ProviderHandle}

theorem set_self : m'.chunks k = c := by rw [hset, if_pos rfl]

theorem set_other {i : ℕ} (hi : i ≠ k) : m'.chunks i = m.chunks i := by rw [hset, if_neg hi]

include hn

theorem count_set_same {P : Chunk → Prop} [DecidablePred P] (h : P c ↔ P (m.chunks k)) :
    Nat.count (fun i => P (m'.chunks i)) m'.chunkCount =
      Nat.count (fun i => P (m.chunks i)) m.chunkCount := by
  rw [hn]
  refine count_congr fun i _ => ?_
  by_cases hi : i = k
  · rw [hi, set_self hset, h]
  · rw [set_other hset hi]

theorem count_set_succ {P : Chunk → Prop} [DecidablePred P] (hk : k < m.chunkCount)
    (h0 : ¬ P (m.chunks k)) (h1 : P c) :
    Nat.count (fun i => P (m'.chunks i)) m'.chunkCount =
      Nat.count (fun i => P (m.chunks i)) m.chunkCount + 1 := by
  rw [hn, ← count_eq_one (p := fun i => i = k) hk fun i _ => Iff.rfl]
  refine count_split (fun i _ => ?_) fun i _ hP hik => ?_
  · by_cases hi : i = k
    · rw [hi, set_self hset]; simp [h1]
    · rw [set_other hset hi]; simp [hi]
  · rw [hik] at hP; exact h0 hP

theorem leases_set_same (h : c.activeIoLeases = (m.chunks k).activeIoLeases) :
    ∑ i ∈ Finset.range m'.chunkCount, (m'.chunks i).activeIoLeases =
      ∑ i ∈ Finset.range m.chunkCount, (m.chunks i).activeIoLeases := by
  rw [hn]
  refine Finset.sum_congr rfl fun i _ => ?_
  by_cases hi : i = k
  · rw [hi, set_self hset, h]
  · rw [set_other hset hi]

theorem batch_set (hI : m.Inv) (h1 : c.state ≠ .evicting) (hc : c.evictionClaimId = 0) :
    ∀ i < m'.chunkCount, ∀ j < m'.chunkCount, m'.evicting i →
      (m'.chunks j).evictionClaimId = (m'.chunks i).evictionClaimId →
      (m'.chunks j).transitionGeneration = (m'.chunks i).transitionGeneration ∧
        (m'.chunks j).provider = (m'.chunks i).provider := by
  rw [hn]
  intro i hi j hj he hid
  have hik : i ≠ k := by
    rintro rfl
    rw [evicting, set_self hset] at he
    exact h1 he
  rw [evicting, set_other hset hik] at he
  have hjk : j ≠ k := by
    rintro rfl
    rw [set_self hset, set_other hset hik, hc] at hid
    exact (hI.chunk i hi).evictionId.mpr he hid.symm
  rw [set_other hset hik, set_other hset hjk] at hid ⊢
  exact hI.batch i hi j hj he hid

theorem evictions_set (h0 : (m.chunks k).state ≠ .evicting) (h1 : c.state ≠ .evicting) :
    tags m'.evicting (fun i => (m'.chunks i).evictionClaimId) m'.chunkCount =
      tags m.evicting (fun i => (m.chunks i).evictionClaimId) m.chunkCount := by
  rw [hn]
  have hiff : ∀ i, m'.evicting i ↔ m.evicting i := by
    intro i
    by_cases hi : i = k
    · rw [hi, evicting, evicting, set_self hset]; simp [h0, h1]
    · rw [evicting, evicting, set_other hset hi]
  refine tags_congr (fun i _ => hiff i) fun i _ he => ?_
  have hik : i ≠ k := by
    rintro rfl
    exact h0 ((hiff i).mp he)
  rw [set_other hset hik]

theorem place_set_unassigned (hI : m.Inv) (h1 : ¬ c.assigned) :
    ∀ i < m'.chunkCount, ∀ j < m'.chunkCount, (m'.chunks i).assigned → (m'.chunks j).assigned →
      (m'.chunks i).provider = (m'.chunks j).provider →
      (m'.chunks i).providerChunk = (m'.chunks j).providerChunk → i = j := by
  rw [hn]
  intro i hi j hj ai aj hp hc
  have hne : ∀ x, (m'.chunks x).assigned → x ≠ k := by
    rintro x hx rfl
    rw [set_self hset] at hx
    exact h1 hx
  have hi' := set_other hset (hne i ai)
  have hj' := set_other hset (hne j aj)
  rw [hi'] at ai hp hc
  rw [hj'] at aj hp hc
  exact hI.place i hi j hj ai aj hp hc

theorem valid_set_unassigned (hI : m.Inv) (hv : ∀ s, m'.sectorValid s = true → m.sectorValid s = true)
    (h0 : ¬ (m.chunks k).assigned) :
    ∀ s, m'.sectorValid s = true →
      s / sectorsPerChunk < m'.chunkCount ∧ (m'.chunks (s / sectorsPerChunk)).assigned := by
  rw [hn]
  intro s hs
  obtain ⟨hlt, ha⟩ := hI.valid s (hv s hs)
  refine ⟨hlt, ?_⟩
  rwa [set_other hset]
  intro hk
  rw [hk] at ha
  exact h0 ha

end OneChunk

/-! ### Mapping claims -/

theorem reserveChunk_chunks (p : ProviderHandle) (k i : ℕ) : (m.reserveChunk p k).chunks i = if i = k then
    { m.chunks k with
      state := .mapping, provider := p, mappingClaimId := m.nextMappingClaimId + 1,
      transitionGeneration := m.nextTransitionGeneration + 1 } else m.chunks i := rfl

theorem inv_reserve (hI : m.Inv) {k : ℕ} (hp : m.providerValid p = true)
    (hc : m.activeMappingClaims = 0) (hk : k < m.chunkCount) (hs : (m.chunks k).state = .unmapped) :
    (m.reserveChunk p k).Inv := by
  have h0 := hI.noClaim hc
  have hold := hI.chunk k hk
  have hset := reserveChunk_chunks (m := m) p k
  have hua := not_assigned_of_unmapped hs
  have hnev : (m.chunks k).state ≠ .evicting := by simp [hs]
  have hev := hold.evictionId_eq_zero hnev
  refine { hI with
    chunk := fun i hi => ?_
    assigned := ?_
    usable := ?_
    claim := .inr ⟨k, ?_⟩
    batch := batch_set hset rfl hI (by simp) hev
    evictions := hI.evictions.trans (congrArg _ (evictions_set hset rfl hnev (by simp)).symm)
    place := place_set_unassigned hset rfl hI (not_assigned_of_mapping rfl)
    leases := hI.leases.trans (leases_set_same hset rfl rfl).symm
    valid := valid_set_unassigned hset rfl hI (fun _ h => h) hua }
  · by_cases hik : i = k
    · subst hik
      rw [set_self hset]
      exact
        { mappingId := by simp
          evictionId := by simp [hev]
          mappingId_le := le_rfl
          evictionId_le := hold.evictionId_le
          transition_le := le_rfl
          transition_ne := fun _ => by simp
          generation_le := hold.generation_le
          generation_ne := fun h => absurd h (not_assigned_of_mapping rfl)
          provider := fun _ => hp
          backed := fun h => by simp at h }
    · rw [set_other hset hik]
      exact (hI.chunk i hi).mono (Nat.le_succ _) le_rfl (Nat.le_succ _) le_rfl rfl fun _ h => h
  · refine hI.assigned.trans (count_set_same (P := Chunk.assigned) hset rfl ?_).symm
    simp [Chunk.assigned, hs]
  · refine hI.usable.trans (count_set_same (P := fun c => c.state = .mapped) hset rfl ?_).symm
    simp [hs]
  · refine ⟨by show m.activeMappingClaims + 1 = 1; omega, hk, fun i hi => ?_, ?_, rfl⟩
    · by_cases hik : i = k
      · rw [hik, set_self hset]; simp
      · rw [set_other hset hik]
        exact ⟨fun h => absurd h (h0.mapping i hi), fun h => absurd h hik⟩
    · rw [set_self hset]; rfl

variable {c : MappingClaim}

theorem mappingClaimActive_eq (h : m.mappingClaimActive c = true) :
    c = m.activeMappingClaim := by
  simp only [mappingClaimActive, Bool.and_eq_true, decide_eq_true_eq] at h
  exact h.1.1.1.1.1

section

variable (hI : m.Inv) (ha : m.mappingClaimActive c = true)

include hI ha

theorem abortMapping_chunks {k : ℕ} (hk : m.ClaimedFor k) (i : ℕ) :
    (m.abortMapping c).chunks i = if i = k then
      { m.chunks k with
        provider := {}, mappingClaimId := 0, transitionGeneration := 0, state := .unmapped }
      else m.chunks i := by
  have hid : c.claimId = (m.chunks k).mappingClaimId := by rw [mappingClaimActive_eq ha, hk.claim]
  show (if i < m.chunkCount ∧ (m.chunks i).mappingClaimId = c.claimId then _ else _) = _
  by_cases hik : i = k
  · rw [if_pos hik, if_pos ⟨hik ▸ hk.lt, by rw [hid, hik]⟩, hik]
  · rw [if_neg hik, if_neg]
    rintro ⟨hi, he⟩
    exact hik ((hk.named_iff hI hi).mp (he.trans hid))

theorem inv_abort (hc : m.activeMappingClaims ≠ 0) : (m.abortMapping c).Inv := by
  obtain ⟨k, hk⟩ := hI.claimed hc
  have hset := abortMapping_chunks hI ha hk
  have hold := hI.chunk k hk.lt
  have hs : (m.chunks k).state = .mapping := (hk.mapping k hk.lt).mpr rfl
  have hua := not_assigned_of_mapping hs
  have hnev : (m.chunks k).state ≠ .evicting := by simp [hs]
  have hev := hold.evictionId_eq_zero hnev
  refine { hI with
    chunk := fun i hi => ?_
    assigned := ?_
    usable := ?_
    claim := .inl ⟨?_, rfl, fun i hi => ?_⟩
    batch := batch_set hset rfl hI (by simp) hev
    evictions := hI.evictions.trans (congrArg _ (evictions_set hset rfl hnev (by simp)).symm)
    place := place_set_unassigned hset rfl hI (not_assigned_of_unmapped rfl)
    leases := hI.leases.trans (leases_set_same hset rfl rfl).symm
    valid := valid_set_unassigned hset rfl hI (fun _ h => h) hua }
  · by_cases hik : i = k
    · subst hik
      rw [set_self hset]
      exact
        { mappingId := by simp
          evictionId := by simp [hev]
          mappingId_le := Nat.zero_le _
          evictionId_le := hold.evictionId_le
          transition_le := Nat.zero_le _
          transition_ne := fun h => by simp at h
          generation_le := hold.generation_le
          generation_ne := fun h => absurd h (not_assigned_of_unmapped rfl)
          provider := fun h => by simp at h
          backed := fun h => by simp at h }
    · rw [set_other hset hik]
      exact (hI.chunk i hi).mono le_rfl le_rfl le_rfl le_rfl rfl fun _ h => h
  · refine hI.assigned.trans (count_set_same (P := Chunk.assigned) hset rfl ?_).symm
    simp [Chunk.assigned, hs]
  · refine hI.usable.trans (count_set_same (P := fun c => c.state = .mapped) hset rfl ?_).symm
    simp [hs]
  · show m.activeMappingClaims - 1 = 0
    rw [hk.count]
  · by_cases hik : i = k
    · rw [hik, set_self hset]; simp
    · rw [set_other hset hik]
      exact fun h => hik ((hk.mapping i hi).mp h)

/-- A well-shaped, available batch for an active claim is one grant for the reserved chunk. -/
theorem commit_grant {gs : List MappingGrant} (hc : m.activeMappingClaims ≠ 0)
    (hs : m.mappingGrantsShapeValid c (.array gs) = true)
    (hg : m.mappingGrantsAvailable c gs = true) :
    ∃ k g, m.ClaimedFor k ∧ gs = [g] ∧ g.logicalChunk = k ∧
      ∀ i < m.chunkCount, (m.chunks i).assigned → (m.chunks i).provider = (m.chunks k).provider →
        (m.chunks i).providerChunk ≠ g.providerChunk := by
  obtain ⟨k, hk⟩ := hI.claimed hc
  have hc : c = m.activeMappingClaim := mappingClaimActive_eq ha
  simp only [mappingGrantsShapeValid, Bool.and_eq_true, beq_iff_eq] at hs
  have hlen : gs.length = 1 := by rw [hs.1.1.1, hc, hk.claim]
  obtain ⟨g, rfl⟩ := List.length_eq_one_iff.mp hlen
  have hwell := hs.1.2
  simp only [grantsWellShaped, Bool.and_eq_true, decide_eq_true_eq] at hwell
  simp only [mappingGrantsAvailable, List.all_cons, List.all_nil, Bool.and_true, Bool.and_eq_true,
    decide_eq_true_eq] at hg
  have hgk : g.logicalChunk = k := (hk.mapping _ hwell.1.1.1.1.1.1).mp hg.1.1.1
  refine ⟨k, g, hk, rfl, hgk, fun i hi hassigned hp hpc => hg.2 i hi ⟨hassigned, hpc, ?_⟩⟩
  rw [hp, hc, hk.claim]

end

theorem commitMapping_chunks {g : MappingGrant} {k : ℕ} (hgk : g.logicalChunk = k) (i : ℕ) :
    (m.commitMapping c [g]).chunks i = if i = k then
      { m.chunks k with
        providerChunk := g.providerChunk, remoteAddress := g.remoteAddress, remoteKey := g.remoteKey,
        mappingGeneration := m.nextMappingGeneration + 1, mappingClaimId := 0, transitionGeneration := 0,
        state := .mapped } else m.chunks i := by
  rw [← hgk]
  rfl

theorem inv_commit (hI : m.Inv) {gs : List MappingGrant} (ha : m.mappingClaimActive c = true)
    (hc : m.activeMappingClaims ≠ 0) (hshape : m.mappingGrantsShapeValid c (.array gs) = true)
    (hg : m.mappingGrantsAvailable c gs = true) : (m.commitMapping c gs).Inv := by
  obtain ⟨k, g, hk, rfl, hgk, hfree⟩ := commit_grant hI ha hc hshape hg
  have hdebit : c.capacityDebit = 1 := by rw [mappingClaimActive_eq ha, hk.claim]
  have hset := commitMapping_chunks (m := m) (c := c) hgk
  have hold := hI.chunk k hk.lt
  have hs : (m.chunks k).state = .mapping := (hk.mapping k hk.lt).mpr rfl
  have hua := not_assigned_of_mapping hs
  have hnev : (m.chunks k).state ≠ .evicting := by simp [hs]
  have hev := hold.evictionId_eq_zero hnev
  have hval : ∀ s, (m.commitMapping c [g]).sectorValid s = true → m.sectorValid s = true := by
    intro s h
    have h' := (sectorValid_of_updated m (m.commitMapping c [g]) rfl s).symm.trans h
    split at h'
    · cases h'
    · exact h'
  refine { hI with
    chunk := fun i hi => ?_
    assigned := ?_
    usable := ?_
    claim := .inl ⟨?_, rfl, fun i hi => ?_⟩
    batch := batch_set hset rfl hI (by simp) hev
    evictions := hI.evictions.trans (congrArg _ (evictions_set hset rfl hnev (by simp)).symm)
    place := ?_
    leases := hI.leases.trans (leases_set_same hset rfl rfl).symm
    valid := valid_set_unassigned hset rfl hI hval hua }
  · by_cases hik : i = k
    · subst hik
      rw [set_self hset]
      exact
        { mappingId := by simp
          evictionId := by simp [hev]
          mappingId_le := Nat.zero_le _
          evictionId_le := hold.evictionId_le
          transition_le := Nat.zero_le _
          transition_ne := fun h => by simp at h
          generation_le := le_rfl
          generation_ne := fun _ => Nat.succ_ne_zero _
          provider := fun _ => hold.provider (by simp [hs])
          backed := fun h => by simp at h }
    · rw [set_other hset hik]
      exact (hI.chunk i hi).mono le_rfl le_rfl le_rfl (Nat.le_succ _) rfl fun _ h => h
  · show m.assignedChunks + c.capacityDebit = _
    rw [hdebit, hI.assigned]
    exact (count_set_succ (P := Chunk.assigned) hset rfl hk.lt hua (.inl rfl)).symm
  · show m.usableChunks + c.capacityDebit = _
    rw [hdebit, hI.usable]
    exact (count_set_succ (P := fun c => c.state = .mapped) hset rfl hk.lt (by simp [hs]) rfl).symm
  · show m.activeMappingClaims - 1 = 0
    rw [hk.count]
  · by_cases hik : i = k
    · rw [hik, set_self hset]; simp
    · rw [set_other hset hik]
      exact fun h => hik ((hk.mapping i hi).mp h)
  · -- the grant's Provider chunk was held by no assigned chunk of the Provider
    intro i hi j hj ai aj hp hpc
    by_cases hik : i = k
    · by_cases hjk : j = k
      · rw [hik, hjk]
      · rw [hik, set_self hset, set_other hset hjk] at hp hpc
        rw [set_other hset hjk] at aj
        exact absurd hpc.symm (hfree j hj aj hp.symm)
    · by_cases hjk : j = k
      · rw [hjk, set_self hset, set_other hset hik] at hp hpc
        rw [set_other hset hik] at ai
        exact absurd hpc (hfree i hi ai hp)
      · rw [set_other hset hik, set_other hset hjk] at hp hpc
        rw [set_other hset hik] at ai
        rw [set_other hset hjk] at aj
        exact hI.place i hi j hj ai aj hp hpc

/-! ### Beginning an eviction -/

theorem findProviderChunk_some {pc i : ℕ} {usable : Bool}
    (h : m.findProviderChunk p pc usable = some i) :
    i < m.chunkCount ∧ (m.chunks i).assigned ∧ (usable = true → (m.chunks i).state = .mapped) ∧
      (m.chunks i).providerChunk = pc ∧ (m.chunks i).provider = p := by
  obtain ⟨hp, hi, -⟩ := List.find?_range_eq_some.mp h
  simp only [Bool.and_eq_true, Bool.or_eq_true, Bool.not_eq_true', decide_eq_true_eq] at hp
  refine ⟨List.mem_range.mp hi, hp.1.1.1, fun hu => ?_, hp.1.2, hp.2⟩
  exact hp.1.1.2.resolve_left (by simp [hu])

/-- A chunk the eviction of a Provider's chunks may take. -/
def Evictable (m : ChunkModule) (p : ProviderHandle) (i : ℕ) : Prop :=
  i < m.chunkCount ∧ (m.chunks i).state = .mapped ∧ (m.chunks i).provider = p

theorem selectChunks_spec : ∀ {pcs selected selected' : List ℕ},
    m.selectChunks p selected pcs = .ok selected' → selected.Nodup → (∀ i ∈ selected, m.Evictable p i) →
    selected'.Nodup ∧ (∀ i ∈ selected', m.Evictable p i) ∧ selected'.length = selected.length + pcs.length
  | [], selected, selected', h, hd, hq => by
    cases h
    exact ⟨hd, hq, by simp⟩
  | pc :: pcs, selected, selected', h, hd, hq => by
    unfold selectChunks at h
    split at h
    · cases h
    rename_i i hfind
    split at h
    · cases h
    rename_i hnot
    obtain ⟨hi, -, hm, -, hp⟩ := findProviderChunk_some hfind
    have hq' : ∀ j ∈ i :: selected, m.Evictable p j := by
      intro j hj
      rcases List.mem_cons.mp hj with rfl | hj
      · exact ⟨hi, hm rfl, hp⟩
      · exact hq j hj
    obtain ⟨hd', hq'', hlen⟩ := selectChunks_spec h (List.nodup_cons.mpr ⟨hnot, hd⟩) hq'
    refine ⟨hd', hq'', ?_⟩
    rw [hlen, List.length_cons, List.length_cons]
    omega

section BeginEviction

variable {i n : ℕ} {pcs selected : List ℕ}

theorem beginEviction_in (hi : i < m.chunkCount) (his : i ∈ selected) :
    (m.beginEviction p selected n).chunks i = { m.chunks i with
      state := .evicting, evictionClaimId := m.nextEvictionClaimId + 1,
      transitionGeneration := m.nextTransitionGeneration + 1 } :=
  if_pos ⟨hi, his⟩

theorem beginEviction_out (his : i ∉ selected) :
    (m.beginEviction p selected n).chunks i = m.chunks i :=
  if_neg fun h => his h.2

theorem beginEviction_named (hI : m.Inv) (hi : i < m.chunkCount) :
    ((m.beginEviction p selected n).chunks i).evictionClaimId = m.nextEvictionClaimId + 1 ↔
      i ∈ selected := by
  by_cases his : i ∈ selected
  · rw [beginEviction_in hi his]
    exact iff_of_true rfl his
  · rw [beginEviction_out his]
    have hle := (hI.chunk i hi).evictionId_le
    exact iff_of_false (by omega) his

variable (hsel : m.selectChunks p [] pcs = .ok selected)

include hsel

theorem batch_spec :
    selected.Nodup ∧ (∀ i ∈ selected, m.Evictable p i) ∧ selected.length = pcs.length := by
  simpa using selectChunks_spec hsel List.nodup_nil (by simp)

theorem batch_usable (hI : m.Inv) : pcs.length ≤ m.usableChunks := by
  obtain ⟨hd, hq, hlen⟩ := batch_spec hsel
  rw [hI.usable, ← hlen, ← count_mem hd fun i hi => (hq i hi).1]
  exact count_mono fun i _ hi => (hq i hi).2.1

theorem beginEviction_chunk (i : ℕ) :
    ((m.beginEviction p selected n).chunks i).mappingGeneration = (m.chunks i).mappingGeneration ∧
      ((m.beginEviction p selected n).chunks i).activeIoLeases = (m.chunks i).activeIoLeases ∧
      ((m.beginEviction p selected n).chunks i).place = (m.chunks i).place ∧
      (((m.beginEviction p selected n).chunks i).assigned ↔ (m.chunks i).assigned) := by
  by_cases his : i ∈ selected
  · obtain ⟨hi, hs, -⟩ := (batch_spec hsel).2.1 i his
    rw [beginEviction_in hi his]
    exact ⟨rfl, rfl, rfl, by simp [Chunk.assigned, hs]⟩
  · rw [beginEviction_out his]
    exact ⟨rfl, rfl, rfl, Iff.rfl⟩

theorem beginEviction_chunkOk (hI : m.Inv) (hm : m.mode = .backed) (hi : i < m.chunkCount) :
    (m.beginEviction p selected n).ChunkOk ((m.beginEviction p selected n).chunks i) := by
  have hold := hI.chunk i hi
  by_cases his : i ∈ selected
  · have hstate := ((batch_spec hsel).2.1 i his).2.1
    rw [beginEviction_in hi his]
    exact
      { mappingId := by simp [hold.mappingId_eq_zero (by simp [hstate])]
        evictionId := by simp
        mappingId_le := hold.mappingId_le
        evictionId_le := le_rfl
        transition_le := le_rfl
        transition_ne := fun _ => Nat.succ_ne_zero _
        generation_le := hold.generation_le
        generation_ne := fun _ => hold.generation_ne (.inl hstate)
        provider := fun _ => hold.provider (by simp [hstate])
        backed := fun _ => hm }
  · rw [beginEviction_out his]
    exact hold.mono le_rfl (Nat.le_succ _) (Nat.le_succ _) le_rfl rfl fun _ h => h

/-- The selected chunks stop being usable. -/
theorem beginEviction_usable (hI : m.Inv) : m.usableChunks - pcs.length =
    Nat.count (fun i => ((m.beginEviction p selected n).chunks i).state = .mapped) m.chunkCount := by
  obtain ⟨hd, hq, hlen⟩ := batch_spec hsel
  have hsplit : Nat.count (fun i => (m.chunks i).state = .mapped) m.chunkCount =
      Nat.count (fun i => ((m.beginEviction p selected n).chunks i).state = .mapped) m.chunkCount +
        Nat.count (fun i => i ∈ selected) m.chunkCount := by
    refine count_split (fun i _ => ?_) fun i hi hmi his => ?_
    · by_cases his : i ∈ selected
      · simp [his, (hq i his).2.1]
      · rw [beginEviction_out his]; simp [his]
    · rw [beginEviction_in hi his] at hmi
      simp at hmi
  rw [count_mem hd fun i hi => (hq i hi).1, hlen] at hsplit
  rw [hI.usable, hsplit]
  omega

theorem beginEviction_mapping : ((m.beginEviction p selected n).chunks i).state = .mapping ↔
    (m.chunks i).state = .mapping := by
  by_cases his : i ∈ selected
  · obtain ⟨hi, hs, -⟩ := (batch_spec hsel).2.1 i his
    rw [beginEviction_in hi his, hs]
    simp
  · rw [beginEviction_out his]

theorem beginEviction_claim (hI : m.Inv) :
    (m.beginEviction p selected n).NoClaim ∨ ∃ k, (m.beginEviction p selected n).ClaimedFor k := by
  rcases hI.claim with h0 | ⟨k, hk⟩
  · exact .inl ⟨h0.count, h0.cleared, fun i hi h => h0.mapping i hi ((beginEviction_mapping hsel).mp h)⟩
  · have hks : k ∉ selected := by
      intro h
      have hs := ((batch_spec hsel).2.1 k h).2.1
      rw [(hk.mapping k hk.lt).mpr rfl] at hs
      cases hs
    refine .inr ⟨k, hk.count, hk.lt,
      fun i hi => (beginEviction_mapping hsel).trans (hk.mapping i hi), ?_, rfl⟩
    rw [beginEviction_out hks]
    exact hk.claim

theorem beginEviction_batch (hI : m.Inv) {j : ℕ} (hi : i < m.chunkCount) (hj : j < m.chunkCount)
    (he : (m.beginEviction p selected n).evicting i)
    (hid : ((m.beginEviction p selected n).chunks j).evictionClaimId =
      ((m.beginEviction p selected n).chunks i).evictionClaimId) :
    ((m.beginEviction p selected n).chunks j).transitionGeneration =
        ((m.beginEviction p selected n).chunks i).transitionGeneration ∧
      ((m.beginEviction p selected n).chunks j).provider =
        ((m.beginEviction p selected n).chunks i).provider := by
  have hq := (batch_spec hsel).2.1
  by_cases his : i ∈ selected
  · have hjs := (beginEviction_named hI hj).mp (hid.trans ((beginEviction_named hI hi).mpr his))
    rw [beginEviction_in hi his, beginEviction_in hj hjs]
    exact ⟨rfl, (hq j hjs).2.2.trans (hq i his).2.2.symm⟩
  · have hjs : j ∉ selected := fun hjs =>
      his ((beginEviction_named hI hi).mp (hid.symm.trans ((beginEviction_named hI hj).mpr hjs)))
    rw [evicting, beginEviction_out his] at he
    rw [beginEviction_out his, beginEviction_out hjs] at hid ⊢
    exact hI.batch i hi j hj he hid

/-- One new id, carried by the selected chunks only. -/
theorem beginEviction_evictions (hI : m.Inv) (hne : pcs ≠ []) : m.activeEvictionClaims + 1 =
    (tags (m.beginEviction p selected n).evicting
      (fun i => ((m.beginEviction p selected n).chunks i).evictionClaimId) m.chunkCount).card := by
  obtain ⟨-, hq, hlen⟩ := batch_spec hsel
  have hnotin : m.nextEvictionClaimId + 1 ∉
      tags m.evicting (fun i => (m.chunks i).evictionClaimId) m.chunkCount := by
    intro h
    obtain ⟨i, hi, -, he⟩ := mem_tags.mp h
    have := (hI.chunk i hi).evictionId_le
    omega
  rw [hI.evictions, ← Finset.card_insert_of_notMem hnotin]
  congr 1
  ext x
  simp only [Finset.mem_insert, mem_tags]
  constructor
  · rintro (rfl | ⟨i, hi, he, rfl⟩)
    · obtain ⟨i, his⟩ := List.exists_mem_of_length_pos
        (show 0 < selected.length by rw [hlen]; exact List.length_pos_of_ne_nil hne)
      have hi := (hq i his).1
      exact ⟨i, hi, by rw [evicting, beginEviction_in hi his], by rw [beginEviction_in hi his]⟩
    · have his : i ∉ selected := fun h => by
        have := (hq i h).2.1
        rw [show (m.chunks i).state = .evicting from he] at this
        cases this
      exact ⟨i, hi, by rw [evicting, beginEviction_out his]; exact he, by rw [beginEviction_out his]⟩
  · rintro ⟨i, hi, he, rfl⟩
    by_cases his : i ∈ selected
    · exact .inl (by rw [beginEviction_in hi his])
    · rw [evicting, beginEviction_out his] at he
      exact .inr ⟨i, hi, he, by rw [beginEviction_out his]⟩

theorem inv_evictBegin (hI : m.Inv) (hm : m.mode = .backed) (hne : pcs ≠ []) :
    (m.beginEviction p selected pcs.length).Inv := by
  have hch := beginEviction_chunk (n := pcs.length) hsel
  refine { hI with
    chunk := fun i hi => beginEviction_chunkOk hsel hI hm hi
    assigned := hI.assigned.trans (count_congr fun i _ => (hch i).2.2.2.symm)
    usable := beginEviction_usable hsel hI
    claim := beginEviction_claim hsel hI
    batch := fun i hi j hj => beginEviction_batch hsel hI hi hj
    evictions := beginEviction_evictions hsel hI hne
    place := fun i hi j hj ai aj hpi hci => ?_
    leases := hI.leases.trans (Finset.sum_congr rfl fun i _ => (hch i).2.1.symm)
    valid := fun s hs => ⟨(hI.valid s hs).1, (hch _).2.2.2.mpr (hI.valid s hs).2⟩ }
  have hplace (k : ℕ) := Prod.ext_iff.mp (hch k).2.2.1
  refine hI.place i hi j hj ((hch i).2.2.2.mp ai) ((hch j).2.2.2.mp aj) ?_ ?_
  · exact (hplace i).1.symm.trans (hpi.trans (hplace j).1)
  · exact (congrArg Prod.fst (hplace i).2).symm.trans (hci.trans (congrArg Prod.fst (hplace j).2))

end BeginEviction

end ChunkModule
end RemoteChunk
end Infiniswap
