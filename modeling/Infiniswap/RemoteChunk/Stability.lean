/-
# Mappings are stable under leases, and evictions drain

What a caller may rely on while it holds a lease or an eviction claim, over any
run of calls by anyone. A leased chunk keeps its mapping until the lease is
released or the chunk's Provider fails. A batch being evicted stays evicting
and closed to leases until the eviction is finished or the Provider fails, and
the finish succeeds only when no lease on the batch is left.
-/
import Infiniswap.RemoteChunk.Represented

namespace Infiniswap
namespace RemoteChunk

open ChunkModule Transition

variable {w w' w₁ w₂ : World} {c : Call} {r : Reply} {k a : ℕ} {m : ChunkModule}
  {claim : EvictionClaim} {p : ProviderHandle} {pcs selected : List ℕ}

/-- `w'` is reached from `w` by further calls. -/
def World.Later (w w' : World) : Prop := (chunkSystem.startAt w).Reachable w'

theorem World.Later.keeps {I : World → Prop} (hw : chunkSystem.Reachable w) (h : w.Later w')
    (h0 : I w) (hstep : ∀ u c r v, WorldInv u → Does u c r v → I u → I v) :
    chunkSystem.Reachable w' ∧ I w' := by
  refine System.Reach.invariant_from hw h0 (fun u c v hu hI _ hs => ?_) h
  obtain ⟨r, -, hd⟩ := step_does (world_inv hu) hs
  exact hstep u c r v (world_inv hu) hd hI

/-! ### A leased chunk -/

/-- The chunk holds capacity in `m'` under the mapping it has in `m`. -/
structure Pinned (m m' : ChunkModule) (k : ℕ) : Prop where
  assigned : (m'.chunks k).assigned
  generation : (m'.chunks k).mappingGeneration = (m.chunks k).mappingGeneration
  place : (m'.chunks k).place = (m.chunks k).place

/-- **A call leaves a leased chunk's mapping alone while its Provider is valid.** -/
theorem Does.pinned (hI : WorldInv w) (h : Does w c r w') (hk : k < w.module.chunkCount)
    (ha : (w.module.chunks k).assigned) (hl : (w.module.chunks k).activeIoLeases ≠ 0)
    (hp : w'.module.providerValid (w.module.chunks k).provider = true) :
    Pinned w.module w'.module k := by
  cases h.chunk hI hk with
  | same activity leases he => exact ⟨he ▸ ha, by rw [he], by rw [he]; rfl⟩
  | reserved p hs => exact absurd ha (not_assigned_of_unmapped hs)
  | aborted hs | committed hs => exact absurd ha (not_assigned_of_mapping hs)
  | evictionBegun hs he => exact ⟨he ▸ .inr rfl, by rw [he], by rw [he]; rfl⟩
  | evicted _ _ hdrained => exact absurd hdrained hl
  | failed hheld hinvalid =>
    rw [hheld.2, hinvalid] at hp
    cases hp

/-- **A cell that holds a live lease handed out before the call held it before the call.** -/
theorem Does.cell (hI : WorldInv w) (h : Does w c r w') (hlive : w'.module.Live a (w'.leases a))
    (hid : (w'.leases a).leaseId ≤ w.module.nextIoLeaseId) :
    w.module.Live a (w.leases a) ∧ ∃ state, w'.leases a = { w.leases a with state := state } := by
  have hident := (h.grows hI).identity
  have hsame : w'.leases a = w.leases a → w.module.Live a (w.leases a) ∧
      ∃ state, w'.leases a = { w.leases a with state := state } := fun he =>
    ⟨⟨⟨he ▸ hlive.1.1, by rw [← he, hlive.1.2.1, hident], he ▸ hlive.1.2.2⟩, he ▸ hlive.2⟩, _, he⟩
  have hother : ∀ {b l}, a ≠ b → Function.update w.leases b l a = w.leases a := fun hab =>
    Function.update_of_ne hab _ _
  cases h with
  | @leased request b k hk =>
    by_cases hab : a = b
    · subst hab
      rw [World.setLease_self] at hid
      exact absurd hid (Nat.not_succ_le_self _)
    · exact hsame (hother hab)
  | @resolved b outcome ho hr =>
    by_cases hab : a = b
    · subst hab
      rw [World.setLease_self] at hlive ⊢
      refine ⟨⟨ho, ?_⟩, _, rfl⟩
      have hrel := hlive.2
      rw [IoLease.released_or] at hrel
      exact (Bool.or_eq_false_iff.mp hrel).1
    · exact hsame (hother hab)
  | @released b hl hr =>
    by_cases hab : a = b
    · subst hab
      rw [World.setLease_self] at hlive
      have hrel := hlive.2
      rw [IoLease.released_or] at hrel
      exact absurd (Bool.or_eq_false_iff.mp hrel).2 (by decide)
    · exact hsame (hother hab)
  | @written b content hnl hown =>
    by_cases hab : a = b
    · subst hab
      dsimp only at hlive
      rw [Function.update_self] at hlive
      exact absurd hlive.1 hown
    · exact hsame (hother hab)
  | _ => exact hsame rfl

/-! ### A batch being evicted -/

theorem ChunkModule.evictionClaimValidate_unique {c c' : EvictionClaim}
    (h : m.evictionClaimValidate c = .ok ()) (h' : m.evictionClaimValidate c' = .ok ())
    (hid : c'.claimId = c.claimId) : c' = c := by
  obtain ⟨hm, -, -, -, hi, -, -, hmem, hcount, hdig⟩ := evictionClaimValidate_iff.mp h
  obtain ⟨hm', -, -, -, hi', -, -, hmem', hcount', hdig'⟩ := evictionClaimValidate_iff.mp h'
  rw [hid] at hmem' hcount' hdig'
  obtain ⟨k, hk, hnamed⟩ := evictionClaim_named h
  obtain ⟨-, ht, hp⟩ := hmem k hk hnamed
  obtain ⟨-, ht', hp'⟩ := hmem' k hk hnamed
  cases c
  cases c'
  simp_all

/-- **No call gives a chunk the id of an eviction begun before.** -/
theorem Does.named_before (hI : WorldInv w) (h : Does w c r w') {id : ℕ} (h0 : id ≠ 0)
    (hle : id ≤ w.module.nextEvictionClaimId) (hk : k < w.module.chunkCount)
    (hid : (w'.module.chunks k).evictionClaimId = id) :
    (w.module.chunks k).evictionClaimId = id := by
  cases h.chunk hI hk with
  | same _ _ he | reserved _ _ he | aborted _ he | committed _ _ he => rwa [he] at hid
  | evictionBegun _ he =>
    rw [he] at hid
    simp only at hid
    omega
  | evicted _ _ _ _ he | failed _ _ _ he =>
    rw [he] at hid
    exact absurd hid.symm h0

section

variable (hI : WorldInv w) (h : Does w c r w') (hv : w.module.evictionClaimValidate claim = .ok ())
  (hp : w'.module.providerValid claim.provider = true)

include hI h hv hp

/-- **A call other than its finish keeps a member of a valid eviction claim while the Provider is
valid.** -/
theorem Does.named_after (hnot : ¬ (c = .evictionFinish claim ∧ r = .status (.ok ())))
    (hk : k < w.module.chunkCount) (hid : (w.module.chunks k).evictionClaimId = claim.claimId) :
    (w'.module.chunks k).evictionClaimId = claim.claimId ∧ w'.module.evictionMember claim k := by
  obtain ⟨-, -, -, hmem, -⟩ := evictionClaimValidate_ok hv
  obtain ⟨hst, htr, hpr⟩ := hmem k hk hid
  cases h.chunk hI hk with
  | same activity leases he =>
    rw [evictionMember, he]
    exact ⟨hid, hst, htr, hpr⟩
  | reserved _ hs | aborted hs | committed hs | evictionBegun hs => simp [hst] at hs
  | evicted hv' hid' =>
    have heq := evictionClaimValidate_unique hv hv' (hid'.symm.trans hid)
    exact absurd ⟨by rw [heq], rfl⟩ hnot
  | failed hheld hinvalid =>
    rw [← hpr, hheld.2, hinvalid] at hp
    cases hp

/-- **A call other than its finish keeps an eviction claim valid while the Provider is valid.** -/
theorem Does.validates (hnot : ¬ (c = .evictionFinish claim ∧ r = .status (.ok ()))) :
    w'.module.evictionClaimValidate claim = .ok () := by
  have hg := h.grows hI
  obtain ⟨h1, h2, h3, h4, h5, -, h7, -, hcount, hdig⟩ := evictionClaimValidate_iff.mp hv
  obtain ⟨j, hj, hjid⟩ := evictionClaim_named hv
  have hle : claim.claimId ≤ w.module.nextEvictionClaimId := hjid ▸ (hI.module.chunk j hj).evictionId_le
  have hnamed : ∀ k < w.module.chunkCount, (w'.module.chunks k).evictionClaimId = claim.claimId ↔
      (w.module.chunks k).evictionClaimId = claim.claimId := fun k hk =>
    ⟨h.named_before hI h2 hle hk, fun hid => (h.named_after hI hv hp hnot hk hid).1⟩
  refine evictionClaimValidate_iff.mpr
    ⟨h1, h2, h3, h4, h5.trans hg.identity.symm, hp, hg.chunkCount ▸ h7, fun k hk hid => ?_, ?_, ?_⟩
  · rw [hg.chunkCount] at hk
    exact (h.named_after hI hv hp hnot hk ((hnamed k hk).mp hid)).2
  · rw [hg.chunkCount, ← hcount]
    exact Counting.count_congr hnamed
  · rw [hg.chunkCount, ← hdig]
    exact batchDigest_congr fun k hk => decide_eq_decide.mpr (hnamed k hk)

end

/-! ### Beginning an eviction -/

theorem ChunkModule.findProviderChunk_iff (hI : m.Inv) {pc : ℕ} :
    m.findProviderChunk p pc true = some k ↔
      k < m.chunkCount ∧ (m.chunks k).state = .mapped ∧ (m.chunks k).provider = p ∧
        (m.chunks k).providerChunk = pc := by
  constructor
  · intro h
    obtain ⟨hk, -, hs, hpc, hp⟩ := findProviderChunk_some h
    exact ⟨hk, hs rfl, hp, hpc⟩
  · rintro ⟨hk, hs, hp, hpc⟩
    cases hf : m.findProviderChunk p pc true with
    | none =>
      have := List.find?_eq_none.mp hf k (List.mem_range.mpr hk)
      simp [Chunk.assigned, hs, hp, hpc] at this
    | some j =>
      obtain ⟨hj, hja, -, hjpc, hjp⟩ := findProviderChunk_some hf
      rw [hI.place j hj k hk hja (.inl hs) (hjp.trans hp.symm) (hjpc.trans hpc.symm)]

theorem ChunkModule.mem_selectChunks :
    ∀ {pcs selected selected' : List ℕ}, m.selectChunks p selected pcs = .ok selected' → ∀ k,
      k ∈ selected' ↔ k ∈ selected ∨ ∃ pc ∈ pcs, m.findProviderChunk p pc true = some k
  | [], selected, selected', h, k => by
    cases h
    simp
  | pc :: pcs, selected, selected', h, k => by
    unfold selectChunks at h
    split at h
    · cases h
    rename_i i hfind
    split at h
    · cases h
    rw [mem_selectChunks h k]
    simp only [List.mem_cons, exists_eq_or_imp, hfind, Option.some.injEq, eq_comm (a := i)]
    tauto

theorem ChunkModule.mem_batch (hI : m.Inv) (hsel : m.selectChunks p [] pcs = .ok selected) :
    k ∈ selected ↔
      k < m.chunkCount ∧ (m.chunks k).state = .mapped ∧ (m.chunks k).provider = p ∧
        (m.chunks k).providerChunk ∈ pcs := by
  simp only [mem_selectChunks hsel, List.not_mem_nil, false_or, findProviderChunk_iff hI]
  constructor
  · rintro ⟨pc, hpc, hk, hs, hp, rfl⟩
    exact ⟨hk, hs, hp, hpc⟩
  · rintro ⟨hk, hs, hp, hpc⟩
    exact ⟨_, hpc, hk, hs, hp, rfl⟩

/-- **The claim an eviction returns validates.** -/
theorem ChunkModule.beginEviction_validates (hI : m.Inv) (hp : m.providerValid p = true)
    (hne : pcs ≠ []) (hsel : m.selectChunks p [] pcs = .ok selected)
    (hu : pcs.length ≤ m.usableChunks) :
    (m.beginEviction p selected pcs.length).evictionClaimValidate
      (m.newEvictionClaim p selected pcs.length) = .ok () := by
  obtain ⟨hnodup, hq, hlen⟩ := batch_spec hsel
  have hnamed : ∀ k < m.chunkCount, ((m.beginEviction p selected pcs.length).chunks k).evictionClaimId =
      m.nextEvictionClaimId + 1 ↔ k ∈ selected := fun k hk => beginEviction_named hI hk
  refine evictionClaimValidate_iff.mpr ⟨rfl, Nat.succ_ne_zero _, Nat.succ_ne_zero _, ?_, rfl, hp,
    hu.trans hI.usable_le, fun i hi hn => ?_, ?_, ?_⟩
  · exact fun h => hne (List.length_eq_zero_iff.mp h)
  · have hin := (hnamed i hi).mp hn
    rw [evictionMember, beginEviction_in (m := m) hi hin]
    exact ⟨rfl, rfl, (hq i hin).2.2⟩
  · show _ = pcs.length
    rw [← hlen, ← Counting.count_mem hnodup fun i hi => (hq i hi).1]
    exact Counting.count_congr hnamed
  · exact batchDigest_congr fun i hi => decide_eq_decide.mpr (hnamed i hi)

/-! ### Whole runs -/

/-- As long as the cell holds the lease and the Provider is valid, the run has not moved the chunk. -/
theorem lease_run (hw : chunkSystem.Reachable w₁) (hlive₁ : w₁.module.Live a (w₁.leases a))
    (ha : (w₁.module.chunks (w₁.leases a).logicalChunk).assigned) (h : w₁.Later w₂)
    (hlive : w₂.module.Live a (w₂.leases a)) (hid : (w₂.leases a).leaseId = (w₁.leases a).leaseId)
    (hp : w₂.module.providerValid (w₁.module.chunks (w₁.leases a).logicalChunk).provider = true) :
    Pinned w₁.module w₂.module (w₁.leases a).logicalChunk := by
  have hok := (world_inv hw).leases.ok a hlive₁.1
  generalize hk : (w₁.leases a).logicalChunk = k at *
  let I := fun u : World => w₁.module.Grows u.module ∧ (u.module.Live a (u.leases a) →
    (u.leases a).leaseId = (w₁.leases a).leaseId →
    u.module.providerValid (w₁.module.chunks k).provider = true →
    Pinned w₁.module u.module k ∧ (u.leases a).logicalChunk = k)
  suffices hI : I w₂ from (hI.2 hlive hid hp).1
  refine (System.Reach.invariant_from (I := I) hw ⟨.refl _, fun _ _ _ => ⟨⟨ha, rfl, rfl⟩, hk⟩⟩ ?_ h).2
  rintro u c v hu ⟨hg, hpin⟩ - hs
  have hIu := world_inv hu
  obtain ⟨r, -, hd⟩ := step_does hIu hs
  have hguv := hd.grows hIu
  refine ⟨hg.trans hguv, fun hlv hidv hpv => ?_⟩
  have hold : (v.leases a).leaseId ≤ u.module.nextIoLeaseId := by
    rw [hidv]
    exact hok.id_le.trans hg.leaseId
  obtain ⟨hlu, state, he⟩ := hd.cell hIu hlv hold
  obtain ⟨hpinu, hku⟩ := hpin hlu (by rw [← hidv, he]) (hguv.valid hpv)
  have hcounted := (hIu.leases.counted_pos hIu.module hlu).1
  rw [hku] at hcounted
  have hprov : (u.module.chunks k).provider = (w₁.module.chunks k).provider :=
    congrArg Prod.fst hpinu.place
  have hstep := hd.pinned hIu (by rw [hg.chunkCount]; exact hk ▸ hok.chunk_lt) hpinu.assigned hcounted
    (hprov ▸ hpv)
  exact ⟨⟨hstep.assigned, hstep.generation.trans hpinu.generation, hstep.place.trans hpinu.place⟩,
    by rw [he]; exact hku⟩

/-- The call finishes the eviction. -/
def Finishes (claim : EvictionClaim) (w : World) (c : Call) : Prop :=
  c = .evictionFinish claim ∧ ∃ w', w.call c = some (.status (.ok ()), w')

/-- As long as the eviction is not finished and the Provider is valid, the claim validates and the
batch is the one it was begun for. -/
theorem eviction_run (hw : chunkSystem.Reachable w₁)
    (hv : w₁.module.evictionClaimValidate claim = .ok ())
    (h : (chunkSystem.startAt w₁).Reach (fun u c => ¬ Finishes claim u c) w₂)
    (hp : w₂.module.providerValid claim.provider = true) :
    w₂.module.evictionClaimValidate claim = .ok () ∧ ∀ k < w₁.module.chunkCount,
      (w₁.module.chunks k).evictionClaimId = claim.claimId →
        (w₂.module.chunks k).evictionClaimId = claim.claimId := by
  let I := fun u : World => w₁.module.Grows u.module ∧ (u.module.providerValid claim.provider = true →
    u.module.evictionClaimValidate claim = .ok () ∧ ∀ k < w₁.module.chunkCount,
      (w₁.module.chunks k).evictionClaimId = claim.claimId →
        (u.module.chunks k).evictionClaimId = claim.claimId)
  suffices hI : I w₂ from hI.2 hp
  refine (System.Reach.invariant_from (I := I) hw ⟨.refl _, fun _ => ⟨hv, fun _ _ hk => hk⟩⟩ ?_ h).2
  rintro u c v hu ⟨hg, hbatch⟩ hnot hs
  have hIu := world_inv hu
  obtain ⟨r, hcall, hd⟩ := step_does hIu hs
  have hguv := hd.grows hIu
  refine ⟨hg.trans hguv, fun hpv => ?_⟩
  obtain ⟨hvu, hin⟩ := hbatch (hguv.valid hpv)
  have hnot' : ¬ (c = .evictionFinish claim ∧ r = .status (.ok ())) := fun hf =>
    hnot ⟨hf.1, v, by rw [hcall, hf.2]⟩
  exact ⟨hd.validates hIu hvu hpv hnot', fun k hk hid =>
    (hd.named_after hIu hvu hpv hnot' (hg.chunkCount ▸ hk) (hin k hk hid)).1⟩

theorem lease_mapped (hI : WorldInv w) {request : IoRequest} {t : TransportMapping}
    (h : w.call (.leaseAcquire request a) = some (.leased (.ok t), w')) :
    (w.module.chunks t.logicalChunk).state = .mapped := by
  cases call_does hI h with
  | refused hr | answered hr => cases hr
  | leased _ _ _ hs => exact hs

/-- A granted lease pins its chunk until it is released or the Provider fails. -/
theorem lease_stable (h : chunkSystem.Reachable w) (hd : w.destroyed = false) {request : IoRequest}
    {t : TransportMapping} (hcall : w.call (.leaseAcquire request a) = some (.leased (.ok t), w₁))
    (hlater : w₁.Later w₂) (hlive : w₂.module.Live a (w₂.leases a))
    (hid : (w₂.leases a).leaseId = (w₁.leases a).leaseId)
    (hp : w₂.module.providerValid t.provider = true) :
    Pinned w₁.module w₂.module t.logicalChunk := by
  have hw₁ := reachable_call h hd hcall
  cases call_does (world_inv h) hcall with
  | refused hr | answered hr => cases hr
  | @leased _ _ j hreq _ _ hst =>
    have hcell :=
      World.setLease_self w (w.module.grantLease request j) a (w.module.newIoLease request a j)
    have hchunk : ((w.setLease (w.module.grantLease request j) a
        (w.module.newIoLease request a j)).leases a).logicalChunk = j := by rw [hcell]; rfl
    have hset := grantLease_chunks (m := w.module) request j
    have hprov : ((w.module.grantLease request j).chunks j).provider = (w.module.chunks j).provider :=
      field_set_same (·.provider) hset rfl
    have hpin := lease_run hw₁ (a := a)
      (by rw [hcell]; exact ⟨⟨rfl, rfl, rfl⟩, (IoLease.released_of_state rfl).trans (Nat.zero_testBit 1)⟩)
      (by rw [hchunk]; exact .inl ((field_set_same (·.state) hset rfl).trans hst)) hlater hlive hid
      (by rw [hchunk, World.setLease, hprov]; exact hp)
    rwa [hchunk] at hpin

theorem finish_ok (hI : WorldInv w) (h : Finishes claim w c) :
    w.module.evictionClaimValidate claim = .ok () ∧ w.module.evictionDrained claim = true := by
  obtain ⟨rfl, w', hcall⟩ := h
  cases call_does hI hcall with
  | refused hr | answered hr => cases hr
  | evictionFinished hv hd => exact ⟨hv, hd⟩

/-- From its begin to its finish, or to the failure of its Provider, an eviction keeps its batch. -/
theorem eviction_stable (h : chunkSystem.Reachable w) (hd : w.destroyed = false)
    {out : EvictionClaim}
    (hcall : w.call (.evictionBegin p pcs out) = some (.begun (.ok claim), w₁))
    (hrun : (chunkSystem.startAt w₁).Reach (fun u c => ¬ Finishes claim u c) w₂)
    (hopen : w₂.module.providerValid p = true ∨ ∃ w₃ c, w₂.Later w₃ ∧ Finishes claim w₃ c)
    (hk : k < w.module.chunkCount) (hs : (w.module.chunks k).state = .mapped)
    (hkp : (w.module.chunks k).provider = p) (hpc : (w.module.chunks k).providerChunk ∈ pcs) :
    (w₂.module.chunks k).state = .evicting := by
  have hI := world_inv h
  have hw₁ := reachable_call h hd hcall
  obtain ⟨hw₂, hg⟩ := run_grows hw₁ hrun
  cases call_does hI hcall with
  | refused hr | answered hr => cases hr
  | @evictionBegun _ _ selected _ _ _ hpv hne hsel hu =>
    have hp₂ : w₂.module.providerValid p = true := by
      rcases hopen with hp | ⟨w₃, c, hlater, hfin⟩
      · exact hp
      · -- a finish that succeeds later finds the Provider valid, so it is valid here
        obtain ⟨hw₃, hg₃⟩ := run_grows hw₂ hlater
        exact hg₃.valid (evictionClaimValidate_ok (finish_ok (world_inv hw₃) hfin).1).2.2.1
    have hin := (mem_batch hI.module hsel).mpr ⟨hk, hs, hkp, hpc⟩
    obtain ⟨hv₂, hkept⟩ := eviction_run hw₁ (beginEviction_validates hI.module hpv hne hsel hu) hrun hp₂
    have hid := hkept k hk ((beginEviction_named hI.module hk).mpr hin)
    exact ((evictionClaimValidate_ok hv₂).2.2.2.1 k (hg.chunkCount.symm ▸ hk) hid).1

/-- **Mapping stability under leases and eviction drain.** In every run: while a lease is unreleased
and its Provider has not failed its chunk keeps Provider, provider chunk, address, key and generation;
from the begin of an eviction to its finish, and as long as its Provider has not failed, no chunk of
the batch returns to mapped and none is leased; and the finish succeeds only when no lease on a chunk
of the batch is unreleased. -/
theorem mapping_stable {w : World} (h : chunkSystem.Reachable w) (hd : w.destroyed = false) :
    (∀ request a t w₁ w₂, w.call (.leaseAcquire request a) = some (.leased (.ok t), w₁) → w₁.Later w₂ →
      w₂.module.Live a (w₂.leases a) → (w₂.leases a).leaseId = (w₁.leases a).leaseId →
      w₂.module.providerValid t.provider = true →
      (w₂.module.chunks t.logicalChunk).place = (w₁.module.chunks t.logicalChunk).place ∧
        (w₂.module.chunks t.logicalChunk).mappingGeneration =
          (w₁.module.chunks t.logicalChunk).mappingGeneration) ∧
    (∀ p pcs out claim w₁ w₂, w.call (.evictionBegin p pcs out) = some (.begun (.ok claim), w₁) →
      (chunkSystem.startAt w₁).Reach (fun u c => ¬ Finishes claim u c) w₂ →
      (w₂.module.providerValid p = true ∨ ∃ w₃ c, w₂.Later w₃ ∧ Finishes claim w₃ c) →
      ∀ k < w.module.chunkCount, (w.module.chunks k).state = .mapped → (w.module.chunks k).provider = p →
        (w.module.chunks k).providerChunk ∈ pcs →
        (w₂.module.chunks k).state = .evicting ∧
          ∀ request a t w₃, w₂.call (.leaseAcquire request a) = some (.leased (.ok t), w₃) →
            t.logicalChunk ≠ k) ∧
    (∀ claim, Finishes claim w (.evictionFinish claim) → ∀ a, w.module.Live a (w.leases a) →
      (w.module.chunks (w.leases a).logicalChunk).evictionClaimId ≠ claim.claimId) := by
  have hI := world_inv h
  refine ⟨fun request a t w₁ w₂ hcall hlater hlive hid hp => ?_,
    fun p pcs out claim w₁ w₂ hcall hrun hopen k hk hs hkp hpc => ?_, fun claim hfin a hlive hid => ?_⟩
  · have hpin := lease_stable h hd hcall hlater hlive hid hp
    exact ⟨hpin.place, hpin.generation⟩
  · have hst := eviction_stable h hd hcall hrun hopen hk hs hkp hpc
    have hw₂ := (run_grows (reachable_call h hd hcall) hrun).1
    refine ⟨hst, fun request a t w₃ hlease hkt => ?_⟩
    have hmapped := lease_mapped (world_inv hw₂) hlease
    rw [hkt, hst] at hmapped
    cases hmapped
  · have hdr := (finish_ok hI hfin).2
    simp only [evictionDrained, decide_eq_true_eq] at hdr
    exact (hI.leases.counted_pos hI.module hlive).1 (hdr _ (hI.leases.ok a hlive.1).chunk_lt hid)

/-- A Backed device of three chunks and one Provider. -/
def backedConfig : Config :=
  { mode := .backed
    chunkCount := 3
    hotPolicy := ⟨1, 1, 1⟩
    providers := [⟨"p", 1⟩]
    placementSampleSize := 1
    placementSeed := 1 }

def backedWorld : World := createdWorld backedConfig

theorem backedWorld_fresh : backedWorld.Fresh :=
  createdWorld_fresh (show backedConfig.validate 1 = .ok () by decide)

/-- The claim on chunk `k` under id `n` and transition generation `t`. -/
def backedClaim (k n t : ℕ) : MappingClaim :=
  ⟨claimMagic, 1, ⟨1, 1⟩, n, t, batchDigest (fun i => i = k) 3, 1, 1⟩

/-- The calls that map chunk 0. -/
def backedCalls : List Call :=
  [.observe ⟨1, 1⟩ ⟨1, 3, .none, true⟩, .noteActivity 0 1 .write, .nextMapping fun _ => 0,
   .mappingFinish (backedClaim 0 1 1) .commit ⟨1, 1⟩ (.array [⟨0, 0, 1, 1⟩])]

/-- The eviction of a leased chunk begins; the lease keeps its place. -/
theorem mapping_stable_evicting : ∃ w₁ w₂ : World, w₁.Later w₂ ∧ (w₁.module.chunks 0).state = .mapped ∧
    (w₂.module.chunks 0).state = .evicting ∧ (w₂.module.chunks 0).place = (w₁.module.chunks 0).place := by
  obtain ⟨w, t, w₁, w₂, hw, hcall, hlater, hd, hlive, hid, hp, ht, hs₁, hs₂⟩ :
      ∃ w t w₁ w₂, chunkSystem.exec backedWorld backedCalls = some w ∧
      w.call (.leaseAcquire sectorWrite 1) = some (.leased (.ok t), w₁) ∧
      (chunkSystem.startAt w₁).exec w₁ [.evictionBegin ⟨1, 1⟩ [0] {}] = some w₂ ∧ w.destroyed = false ∧
      w₂.module.Live 1 (w₂.leases 1) ∧ (w₂.leases 1).leaseId = (w₁.leases 1).leaseId ∧
      w₂.module.providerValid t.provider = true ∧ t.logicalChunk = 0 ∧
      (w₁.module.chunks 0).state = .mapped ∧ (w₂.module.chunks 0).state = .evicting :=
    ⟨_, _, _, _, rfl, rfl, rfl, by decide⟩
  have hlater' : w₁.Later w₂ := System.reachable_of_exec (.init rfl) hlater
  have hstable := (mapping_stable (System.reachable_of_exec (.init backedWorld_fresh) hw) hd).1
    sectorWrite 1 t w₁ w₂ hcall hlater' hlive hid hp
  rw [ht] at hstable
  exact ⟨w₁, w₂, hlater', hs₁, hs₂, hstable.1⟩

end RemoteChunk
end Infiniswap
