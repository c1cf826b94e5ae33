/-
# Quiescing drains the module, and destroy is exact

Once the module quiesces nothing opens a mapping claim, an eviction claim or a
lease, and what is still open can be closed by the call that normally closes
it: the mapping claim is aborted, a drained eviction is finished, a lease is
resolved and released. The one exception is an eviction when the mapping
generations are used up. A destroy succeeds exactly when nothing is open.
-/
import Infiniswap.RemoteChunk.Progress

namespace Infiniswap
namespace RemoteChunk

open ChunkModule Transition Counting

/-! ### Nothing is opened -/

variable {w : World}

/-- No more claims or leases are open in `m'` than in `m`, and it still quiesces. -/
structure ChunkModule.Less (m m' : ChunkModule) : Prop where
  quiescing : m'.quiescing = true
  mappings : m'.activeMappingClaims ≤ m.activeMappingClaims
  evictions : m'.activeEvictionClaims ≤ m.activeEvictionClaims
  leases : m'.activeIoLeases ≤ m.activeIoLeases

theorem ChunkModule.Less.of_facts {m m' : ChunkModule} (hq : m.quiescing = true)
    (h : m'.facts = m.facts) : m.Less m' := by
  have h1 : m'.facts.quiescing = m.facts.quiescing := by rw [h]
  have h2 : m'.facts.activeMappingClaims = m.facts.activeMappingClaims := by rw [h]
  have h3 : m'.facts.activeEvictionClaims = m.facts.activeEvictionClaims := by rw [h]
  have h4 : m'.facts.activeIoLeases = m.facts.activeIoLeases := by rw [h]
  exact ⟨h1.trans hq, h2.le, h3.le, h4.le⟩

theorem ChunkModule.failProvider_frame (m : ChunkModule) (p : ProviderHandle) (i : ℕ) :
    (m.failProvider p i).quiescing = m.quiescing ∧
    (m.failProvider p i).activeIoLeases = m.activeIoLeases := by
  show ((m.failRecord p).resetWhere (held p) false m.chunkCount).quiescing = _ ∧
    ((m.failRecord p).resetWhere (held p) false m.chunkCount).activeIoLeases = _
  rw [resetWhere_frame, failRecord_eq]
  exact ⟨rfl, rfl⟩

/-- **A quiescing module opens nothing.** -/
theorem Does.less {w' : World} {c : Call} {r : Reply} (h : Does w c r w')
    (hq : w.module.quiescing = true) :
    w.module.Less w'.module := by
  have hopen : w.module.quiescing ≠ false := by simp [hq]
  cases h with
  | refused _ hm => exact .of_facts hq hm
  | quiesced hf | reserved hf | committed hf | evictionBegun hf | leased _ hf => exact absurd hf hopen
  | aborted => exact ⟨hq, Nat.sub_le _ _, le_rfl, le_rfl⟩
  | @evictionFinished c =>
    rw [World.setModule, finishEviction_frame]
    exact ⟨hq, le_rfl, Nat.sub_le _ _, le_rfl⟩
  | @failed p i =>
    obtain ⟨hquiet, hleases⟩ := w.module.failProvider_frame p i
    exact ⟨hquiet.trans hq, Nat.sub_le _ _, Nat.sub_le _ _, hleases.le⟩
  | @resolved a outcome =>
    rw [World.setLease, resolveValidity_eq]
    exact ⟨hq, le_rfl, le_rfl, le_rfl⟩
  | released => exact ⟨hq, le_rfl, le_rfl, Nat.sub_le _ _⟩
  | destroyRefused | destroyed => exact ⟨rfl, le_rfl, le_rfl, le_rfl⟩
  | _ => exact ⟨hq, le_rfl, le_rfl, le_rfl⟩

theorem quiescing_later {w₁ u : World} (h : chunkSystem.Reachable w) (hd : w.destroyed = false)
    (hcall : w.call .quiesce = some (.status (.ok ()), w₁)) (hlater : w₁.Later u) :
    u.module.quiescing = true := by
  have hq : w₁.module.quiescing = true := by
    cases call_does (world_inv h) hcall with
    | refused hr | answered hr => cases hr
    | quiesced => rfl
  exact (World.Later.keeps (I := fun u => u.module.quiescing = true) (reachable_call h hd hcall) hlater hq
    fun u c r v _ hdoes hqu => (hdoes.less hqu).quiescing).2

/-! ### What is open can be closed -/

namespace ChunkModule

variable {m : ChunkModule}

theorem mappingClaimActive_claimed (hI : m.Inv) {c : MappingClaim} (h : m.mappingClaimActive c = true) :
    ∃ k, m.ClaimedFor k := by
  refine hI.claim.resolve_left fun h0 => ?_
  have hvalid := h
  simp only [mappingClaimActive, Bool.and_eq_true] at hvalid
  have hp := hvalid.1.1.1.1.2
  rw [mappingClaimActive_eq h, h0.cleared] at hp
  exact absurd (hI.wellFormed hp) (by decide)

/-- The claim under which chunk `k` is being evicted. -/
def openEviction (m : ChunkModule) (k : ℕ) : EvictionClaim :=
  ⟨evictionMagic, m.identity, (m.chunks k).provider, (m.chunks k).evictionClaimId,
    (m.chunks k).transitionGeneration,
    batchDigest (fun i => (m.chunks i).evictionClaimId = (m.chunks k).evictionClaimId) m.chunkCount,
    Nat.count (fun i => (m.chunks i).evictionClaimId = (m.chunks k).evictionClaimId) m.chunkCount⟩

/-- **Every chunk being evicted belongs to a claim that is still good.** -/
theorem openEviction_validates (hI : m.Inv) {k : ℕ} (hk : k < m.chunkCount)
    (hs : (m.chunks k).state = .evicting) :
    m.evictionClaimValidate (m.openEviction k) = .ok () := by
  have hok := hI.chunk k hk
  have hid : (m.chunks k).evictionClaimId ≠ 0 := hok.evictionId.mpr hs
  refine evictionClaimValidate_iff.mpr ⟨rfl, hid, hok.transition_ne (.inr hs), fun h0 => ?_, rfl,
    hok.provider (by simp [hs]), Nat.count_le _, fun i hi he => ?_, rfl, rfl⟩
  · exact count_eq_zero_iff.mp h0 k hk rfl
  · have he' : (m.chunks i).evictionClaimId = (m.chunks k).evictionClaimId := he
    have hi' : (m.chunks i).evictionClaimId ≠ 0 := he'.symm ▸ hid
    exact ⟨(hI.chunk i hi).evictionId.mp hi', hI.batch k hk i hi hs he'⟩

end ChunkModule

theorem abort_closes (hI : WorldInv w) {c : MappingClaim} (h : w.module.mappingClaimActive c = true) :
    ∃ w', w.call (.mappingFinish c .abort c.provider (.null 0)) = some (.finished .aborted, w') ∧
      w'.module.activeMappingClaims = 0 := by
  obtain ⟨k, hk⟩ := mappingClaimActive_claimed hI.module h
  have habort := mappingFinish_aborts hI.module hk
  rw [← mappingClaimActive_eq h] at habort
  refine ⟨w.setModule (w.module.abortMapping c), ?_, ?_⟩
  · dsimp only [World.call]
    rw [habort]
  · show w.module.activeMappingClaims - 1 = 0
    rw [hk.count]

theorem finish_closes (hI : WorldInv w) {c : EvictionClaim}
    (hv : w.module.evictionClaimValidate c = .ok ()) (hd : w.module.evictionDrained c = true)
    (hgen : w.module.nextMappingGeneration ≤ idMax - c.chunkCount) :
    ∃ w', w.call (.evictionFinish c) = some (.status (.ok ()), w') ∧
      w'.module.activeEvictionClaims + 1 = w.module.activeEvictionClaims := by
  have hfinish := evictionFinish_drained hI.module hv hd
  rw [if_neg (by omega)] at hfinish
  refine ⟨w.setModule (w.module.finishEviction c), ?_, ?_⟩
  · dsimp only [World.call]
    rw [hfinish]
  · have hne := hI.module.evictionClaims_ne hv
    show w.module.activeEvictionClaims - 1 + 1 = _
    omega

theorem finish_refused (hI : WorldInv w) {c : EvictionClaim}
    (hv : w.module.evictionClaimValidate c = .ok ()) (hd : w.module.evictionDrained c = true)
    (hgen : idMax - c.chunkCount < w.module.nextMappingGeneration) :
    w.call (.evictionFinish c) = some (.status (.error .eoverflow), w) := by
  have hfinish := evictionFinish_drained hI.module hv hd
  rw [if_pos hgen] at hfinish
  dsimp only [World.call]
  rw [hfinish]
  rfl

theorem resolve_closes (hI : WorldInv w) {a : ℕ} (hl : w.module.Live a (w.leases a))
    (hr : (w.leases a).resolved = false) {outcome : IoOutcome} (ho : outcome ≠ .unset) :
    ∃ result w', w.call (.leaseResolve a outcome) = some (.resolved (.ok result), w') ∧
      w'.module.Live a (w'.leases a) ∧ (w'.leases a).resolved = true := by
  have hok := hI.leases.ok a hl.1
  have hstate : (w.leases a).state = 0 := (hok.resolve hr).2
  refine ⟨if (w.module.chunks (w.leases a).logicalChunk).mappingGeneration =
      (w.leases a).mappingGeneration then .current else .stale,
    w.setLease (w.module.resolveValidity (w.leases a) outcome) a
      { w.leases a with state := (w.leases a).state ||| 1 }, ?_, ?_, ?_⟩
  · dsimp only [World.call, ioLeaseResolve]
    rw [if_neg ho, hok.validate hl.1]
    dsimp only
    rw [if_neg (by simp [hr])]
  · rw [World.setLease_self]
    refine ⟨⟨hl.1.1, ?_, hl.1.2.2⟩, ?_⟩
    · rw [World.setLease, resolveValidity_eq]
      exact hl.1.2.1
    · rw [IoLease.released_or, hl.2]
      rfl
  · have h1 : (w.leases a).state ||| 1 = 1 := by rw [hstate]; rfl
    rw [World.setLease_self]
    exact IoLease.resolved_of_state (n := 1) h1

theorem release_closes (hI : WorldInv w) {a : ℕ} (hl : w.module.Live a (w.leases a))
    (hr : (w.leases a).resolved = true) :
    ∃ w', w.call (.leaseRelease a) = some (.status (.ok ()), w') ∧
      w'.module.activeIoLeases + 1 = w.module.activeIoLeases := by
  obtain ⟨hchunk, hcount⟩ := hI.leases.counted_pos hI.module hl
  refine ⟨w.setLease (w.module.dropLease (w.leases a).logicalChunk) a
    { w.leases a with state := (w.leases a).state ||| 2 }, ?_, ?_⟩
  · dsimp only [World.call, ioLeaseRelease]
    rw [(hI.leases.ok a hl.1).validate hl.1]
    dsimp only
    rw [if_neg (by simp [hl.2]), if_neg (by simp [hr]), if_neg (by simp [hchunk, hcount])]
  · show w.module.activeIoLeases - 1 + 1 = _
    omega

/-! ### Destroy -/

/-- Nothing is open: no chunk is being mapped or evicted, no waiter sleeps and no lease is unreleased. -/
structure Idle (w : World) : Prop where
  mapping : ∀ k < w.module.chunkCount, (w.module.chunks k).state ≠ .mapping
  evicting : ∀ k < w.module.chunkCount, (w.module.chunks k).state ≠ .evicting
  waiters : w.waiters = []
  leases : ∀ a, ¬ w.module.Live a (w.leases a)

/-- The counters are zero exactly when nothing is open. -/
theorem idle_iff (hI : WorldInv w) : Idle w ↔ w.module.activeMappingClaims = 0 ∧
    w.module.activeEvictionClaims = 0 ∧ w.module.activeEvictionWaits = 0 ∧
    w.module.activeIoLeases = 0 := by
  obtain ⟨live, hlive, hcard⟩ := hI.leases.card hI.module
  constructor
  · intro h
    refine ⟨by_contra fun hne => ?_, ?_, by rw [hI.waits, h.waiters]; rfl, ?_⟩
    · obtain ⟨k, hk⟩ := hI.module.claimed hne
      exact h.mapping k hk.lt ((hk.mapping k hk.lt).mpr rfl)
    · rw [hI.module.evictions, Finset.card_eq_zero, Finset.eq_empty_iff_forall_notMem]
      intro x hx
      obtain ⟨k, hk, hs, -⟩ := mem_tags.mp hx
      exact h.evicting k hk hs
    · rw [hcard, Finset.card_eq_zero, Finset.eq_empty_iff_forall_notMem]
      exact fun a ha => h.leases a ((hlive a).mp ha)
  · rintro ⟨hm, he, hw, hl⟩
    rw [hI.module.evictions, Finset.card_eq_zero, Finset.eq_empty_iff_forall_notMem] at he
    rw [hcard, Finset.card_eq_zero, Finset.eq_empty_iff_forall_notMem] at hl
    rw [hI.waits] at hw
    exact ⟨(hI.module.noClaim hm).mapping, fun k hk hs => he _ (mem_tags.mpr ⟨k, hk, hs, rfl⟩),
      List.length_eq_zero_iff.mp hw, fun a ha => hl a ((hlive a).mpr ha)⟩

/-- **A destroy succeeds exactly when nothing is open.** -/
theorem destroy_iff (hI : WorldInv w) :
    (∃ w', w.call .destroy = some (.status (.ok ()), w')) ↔ Idle w := by
  rw [idle_iff hI]
  constructor
  · rintro ⟨w', hcall⟩
    cases call_does hI hcall with
    | refused hr | answered hr => cases hr
    | destroyed hm he hw hl => exact ⟨hm, he, hw, hl⟩
  · rintro ⟨hm, he, hw, hl⟩
    have hdestroy : w.module.moduleDestroy = (.ok (), { w.module with quiescing := true }) :=
      if_neg (by simp [hm, he, hw, hl])
    refine ⟨{ w with module := { w.module with quiescing := true }, destroyed := true }, ?_⟩
    dsimp only [World.call]
    rw [hdestroy]
    rfl

/-- **Quiescing drains and destroy is exact.** In every reachable world: a quiesced module stays
quiescing, and then no call opens a claim or a lease. What is open can be closed from any world: the
active mapping claim is aborted, every chunk being evicted belongs to a good claim, a drained eviction
is finished while mapping generations remain and refused with EOVERFLOW once they are used up, a lease
is resolved and, once resolved, released. A destroy succeeds exactly when no claim, wait or lease is
open. -/
theorem quiesce_drains {w : World} (h : chunkSystem.Reachable w) (hd : w.destroyed = false) :
    (∀ w₁ u, w.call .quiesce = some (.status (.ok ()), w₁) → w₁.Later u → u.module.quiescing = true) ∧
    (w.module.quiescing = true → ∀ c r w', w.call c = some (r, w') → w.module.Less w'.module) ∧
    (w.module.activeMappingClaims ≠ 0 → ∃ c, w.module.mappingClaimActive c = true) ∧
    (∀ c, w.module.mappingClaimActive c = true →
      ∃ w', w.call (.mappingFinish c .abort c.provider (.null 0)) = some (.finished .aborted, w') ∧
        w'.module.activeMappingClaims = 0) ∧
    (∀ k < w.module.chunkCount, (w.module.chunks k).state = .evicting →
      ∃ c, w.module.evictionClaimValidate c = .ok () ∧ c.claimId = (w.module.chunks k).evictionClaimId) ∧
    (∀ c, w.module.evictionClaimValidate c = .ok () → w.module.evictionDrained c = true →
      w.module.nextMappingGeneration ≤ idMax - c.chunkCount →
      ∃ w', w.call (.evictionFinish c) = some (.status (.ok ()), w') ∧
        w'.module.activeEvictionClaims + 1 = w.module.activeEvictionClaims) ∧
    (∀ c, w.module.evictionClaimValidate c = .ok () → w.module.evictionDrained c = true →
      idMax - c.chunkCount < w.module.nextMappingGeneration →
      w.call (.evictionFinish c) = some (.status (.error .eoverflow), w)) ∧
    (∀ a, w.module.Live a (w.leases a) → (w.leases a).resolved = false → ∀ outcome, outcome ≠ .unset →
      ∃ result w', w.call (.leaseResolve a outcome) = some (.resolved (.ok result), w') ∧
        w'.module.Live a (w'.leases a) ∧ (w'.leases a).resolved = true) ∧
    (∀ a, w.module.Live a (w.leases a) → (w.leases a).resolved = true →
      ∃ w', w.call (.leaseRelease a) = some (.status (.ok ()), w') ∧
        w'.module.activeIoLeases + 1 = w.module.activeIoLeases) ∧
    ((∃ w', w.call .destroy = some (.status (.ok ()), w')) ↔ Idle w) := by
  have hI := world_inv h
  refine ⟨fun w₁ u hcall hlater => quiescing_later h hd hcall hlater,
    fun hq c r w' hcall => (call_does hI hcall).less hq, fun hne => ?_,
    fun c hc => abort_closes hI hc, fun k hk hs => ⟨_, openEviction_validates hI.module hk hs, rfl⟩,
    fun c hv hdr hgen => finish_closes hI hv hdr hgen,
    fun c hv hdr hgen => finish_refused hI hv hdr hgen,
    fun a hl hr outcome ho => resolve_closes hI hl hr ho, fun a hl hr => release_closes hI hl hr,
    destroy_iff hI⟩
  obtain ⟨k, hk⟩ := hI.module.claimed hne
  exact ⟨_, hk.active hI.module⟩

/-- Chunk 0 is leased, chunk 1 is being evicted and chunk 2 being mapped when the module quiesces. -/
def openCalls : List Call :=
  backedCalls ++ [.noteActivity 1 1 .write, .nextMapping fun _ => 0,
    .mappingFinish (backedClaim 1 2 2) .commit ⟨1, 1⟩ (.array [⟨1, 1, 1, 1⟩]),
    .leaseAcquire sectorWrite 1, .evictionBegin ⟨1, 1⟩ [1] {}, .noteActivity 2 1 .write,
    .nextMapping fun _ => 0, .quiesce]

/-- It cannot be destroyed, but each of the three can be closed. -/
theorem quiesce_drains_open : ∃ w : World, chunkSystem.Reachable w ∧ w.module.quiescing = true ∧
    (∃ c w', w.call (.mappingFinish c .abort c.provider (.null 0)) = some (.finished .aborted, w') ∧
      w.module.activeMappingClaims = 1 ∧ w'.module.activeMappingClaims = 0) ∧
    (∃ c w', w.call (.evictionFinish c) = some (.status (.ok ()), w') ∧
      w.module.activeEvictionClaims = 1 ∧ w'.module.activeEvictionClaims = 0) ∧
    (∃ result w₁ w₂, w.call (.leaseResolve 1 .success) = some (.resolved (.ok result), w₁) ∧
      w₁.call (.leaseRelease 1) = some (.status (.ok ()), w₂) ∧
      w.module.activeIoLeases = 1 ∧ w₂.module.activeIoLeases = 0) ∧
    ¬ ∃ w', w.call .destroy = some (.status (.ok ()), w') := by
  obtain ⟨w, hw, hd, hq, hm, he, hl, hk, hs, hlive, hres, hv, hdr, hgen⟩ :
      ∃ w, chunkSystem.exec backedWorld openCalls = some w ∧ w.destroyed = false ∧
      w.module.quiescing = true ∧ w.module.activeMappingClaims = 1 ∧ w.module.activeEvictionClaims = 1 ∧
      w.module.activeIoLeases = 1 ∧ 1 < w.module.chunkCount ∧ (w.module.chunks 1).state = .evicting ∧
      w.module.Live 1 (w.leases 1) ∧ (w.leases 1).resolved = false ∧
      w.module.evictionClaimValidate ⟨evictionMagic, 1, ⟨1, 1⟩, 1, 3,
        batchDigest (fun i => i = 1) 3, 1⟩ = .ok () ∧
      w.module.evictionDrained ⟨evictionMagic, 1, ⟨1, 1⟩, 1, 3, batchDigest (fun i => i = 1) 3, 1⟩ =
        true ∧
      w.module.nextMappingGeneration ≤ 3 :=
    ⟨_, rfl, by decide⟩
  have hreach := System.reachable_of_exec (.init backedWorld_fresh) hw
  obtain ⟨-, hless, hclaim, habort, -, hfinish, -, hresolve, -, hdestroy⟩ := quiesce_drains hreach hd
  obtain ⟨c, hc⟩ := hclaim (by omega)
  obtain ⟨w₁, hcall₁, h₁⟩ := habort c hc
  obtain ⟨w₂, hcall₂, h₂⟩ := hfinish _ hv hdr (hgen.trans (by decide))
  obtain ⟨result, w₃, hcall₃, hlive₃, hres₃⟩ := hresolve 1 hlive hres .success nofun
  have hkept := (hless hq _ _ _ hcall₃).leases
  have hd₃ : w₃.destroyed = false := by
    cases call_does (world_inv hreach) hcall₃ with
    | refused hr | answered hr => cases hr
    | resolved => exact hd
  obtain ⟨-, -, -, -, -, -, -, -, hrelease, -⟩ := quiesce_drains (reachable_call hreach hd hcall₃) hd₃
  obtain ⟨w₄, hcall₄, h₄⟩ := hrelease 1 hlive₃ hres₃
  exact ⟨w, hreach, hq, ⟨c, w₁, hcall₁, hm, h₁⟩, ⟨_, w₂, hcall₂, he, by omega⟩,
    ⟨result, w₃, w₄, hcall₃, hcall₄, hl, by omega⟩, fun h => (hdestroy.mp h).evicting 1 hk hs⟩

/-- With the mapping generations used up, a drained eviction of a quiesced module cannot be finished. -/
theorem quiesced_eviction_exhausted : ∃ w w₁ : World, chunkSystem.Reachable w ∧ w.destroyed = false ∧
    w.call .quiesce = some (.status (.ok ()), w₁) ∧
    w₁.module.evictionClaimValidate backedEviction = .ok () ∧
    w₁.module.evictionDrained backedEviction = true ∧
    w₁.call (.evictionFinish backedEviction) = some (.status (.error .eoverflow), w₁) := by
  obtain ⟨mapped, a, e, t, w, h, -, -⟩ := exists_exhausted
  have hcall : w.call .quiesce =
      some (.status (.ok ()), w.setModule { w.module with quiescing := true }) := by
    dsimp only [World.call, moduleQuiesce]
    rw [if_neg (by simp [h.quiescing])]
  have hdrained : ({ w.module with quiescing := true } : ChunkModule).evictionDrained
      backedEviction = true := by
    simp only [evictionDrained, decide_eq_true_eq]
    exact fun k hk _ => h.leases_eq_zero (h.count ▸ hk)
  have hgen : idMax - backedEviction.chunkCount < w.module.nextMappingGeneration := by
    rw [h.nextGeneration]
    decide
  exact ⟨w, _, h.reachable, h.destroyed, hcall, h.claim, hdrained,
    finish_refused (world_inv (reachable_call h.reachable h.destroyed hcall)) h.claim hdrained hgen⟩

end RemoteChunk
end Infiniswap
