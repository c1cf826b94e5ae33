/-
# Placement and address translation are injective

An assigned chunk lies in the region one commit granted for it, and a grant is
accepted only if its gigabyte does not wrap around. A lease translates the
sectors of a request that lies in one logical chunk to addresses of that
region, by their offset in the chunk. No two assigned chunks share a region, so
no two leased sectors share a place at a Provider.
-/
import Infiniswap.RemoteChunk.Stability

namespace Infiniswap
namespace RemoteChunk

open ChunkModule Transition

variable {w w' : World} {k a : ℕ} {request : IoRequest} {t : TransportMapping}

/-- The bytes of a logical chunk, and of the region a grant gives. -/
def chunkBytes : ℕ := 2 ^ 30

/-- Chunk `g.logicalChunk` lies where an earlier commit granted it. -/
def Granted (g : MappingGrant) (w : World) : Prop :=
  ∃ u v claim, chunkSystem.Reachable u ∧
    u.call (.mappingFinish claim .commit claim.provider (.array [g])) = some (.finished .committed, v) ∧
    v.Later w ∧ (w.module.chunks g.logicalChunk).place =
      (claim.provider, g.providerChunk, g.remoteAddress, g.remoteKey)

/-- Chunk `k` lies where a commit granted it, in a region that does not wrap around. -/
def Placed (k : ℕ) (w : World) : Prop :=
  ∃ g, Granted g w ∧ g.logicalChunk = k ∧ g.remoteAddress + chunkBytes ≤ 2 ^ 64

/-- What a commit grants does not wrap around, and becomes the place of the chunk. -/
theorem Does.commits {claim : MappingClaim} {p : ProviderHandle} {g : MappingGrant}
    (hI : WorldInv w)
    (h : Does w (.mappingFinish claim .commit p (.array [g])) (.finished .committed) w')
    (hk : k < w.module.chunkCount) (hgk : g.logicalChunk = k) :
    p = claim.provider ∧ g.remoteAddress + chunkBytes ≤ 2 ^ 64 ∧
      (w'.module.chunks k).place = (claim.provider, g.providerChunk, g.remoteAddress, g.remoteKey) := by
  cases h with
  | refused hr | answered hr => cases hr
  | committed _ hact hc hs hg =>
    obtain ⟨j, g', hj, hg', hgj, -⟩ := commit_grant hI.module hact hc hs hg
    obtain rfl := (List.cons.inj hg').1
    obtain rfl : j = k := hgj.symm.trans hgk
    have hprov : (w.module.chunks j).provider = claim.provider := by
      rw [mappingClaimActive_eq hact, hj.claim]
    simp only [mappingGrantsShapeValid, grantsWellShaped, Bool.and_eq_true, decide_eq_true_eq] at hs
    have hfit := hs.1.2.1.1.1.2
    refine ⟨rfl, ?_, ?_⟩
    · simp only [chunkBytes, idMax, sectorsPerChunk, sectorBytes] at hfit ⊢
      omega
    · rw [World.setModule, set_self (commitMapping_chunks hgk)]
      exact congrArg (·, g.providerChunk, g.remoteAddress, g.remoteKey) hprov

theorem World.Later.step {w'' : World} {c : Call} (h : w.Later w')
    (hs : chunkSystem.step w' c = some w'') :
    w.Later w'' :=
  System.Reach.step h trivial hs

/-- A call keeps every assigned chunk where it was granted. -/
theorem Does.placed {c : Call} {r : Reply} (hw : chunkSystem.Reachable w)
    (hs : chunkSystem.step w c = some w') (hcall : w.call c = some (r, w')) (h : Does w c r w')
    (hk : k < w.module.chunkCount) (hg : (w.module.chunks k).assigned → Placed k w)
    (ha : (w'.module.chunks k).assigned) : Placed k w' := by
  have hI := world_inv hw
  -- a chunk that keeps its place keeps its grant
  have hkeep : (w.module.chunks k).assigned → (w'.module.chunks k).place = (w.module.chunks k).place →
      Placed k w' := by
    intro hold hplace
    obtain ⟨g, ⟨u, v, claim, hu, hcommit, hlater, hp⟩, rfl, hfit⟩ := hg hold
    exact ⟨g, ⟨u, v, claim, hu, hcommit, hlater.step hs, hplace.trans hp⟩, rfl, hfit⟩
  cases h.chunk hI hk with
  | same _ _ he => rw [he] at ha; exact hkeep ha (by rw [he]; rfl)
  | reserved _ _ he => rw [he] at ha; exact absurd ha (not_assigned_of_mapping rfl)
  | aborted _ he => rw [he] at ha; exact absurd ha (not_assigned_of_unmapped rfl)
  | @committed claim p g _ hgk _ =>
    subst hgk
    obtain ⟨rfl, hfit, hp⟩ := h.commits hI hk rfl
    exact ⟨g, ⟨w, w', claim, hw, hcall, .init rfl, hp⟩, rfl, hfit⟩
  | evictionBegun hst he => exact hkeep (.inl hst) (by rw [he]; rfl)
  | evicted _ _ _ _ he | failed _ _ _ he => rw [he] at ha; exact absurd ha (not_assigned_of_unmapped rfl)

/-- The run lemma: in every reachable world every assigned chunk lies where a commit granted it. -/
theorem placed_run (h : chunkSystem.Reachable w) :
    ∀ k < w.module.chunkCount, (w.module.chunks k).assigned → Placed k w := by
  refine System.Reach.invariant (S := chunkSystem)
    (I := fun w => ∀ k < w.module.chunkCount, (w.module.chunks k).assigned → Placed k w)
    (fun w hw k _ ha => absurd ha (fresh_unassigned hw k)) ?_ h
  intro u c v hu hg _ hs k hk ha
  obtain ⟨r, hcall, hd⟩ := step_does (world_inv hu) hs
  rw [(hd.grows (world_inv hu)).chunkCount] at hk
  exact hd.placed hu hs hcall hk (hg k hk) ha

theorem Granted.address {g : MappingGrant} (h : Granted g w) :
    (w.module.chunks g.logicalChunk).remoteAddress = g.remoteAddress := by
  obtain ⟨_, _, _, -, -, -, hplace⟩ := h
  exact congrArg (fun x : ProviderHandle × ℕ × ℕ × ℕ => x.2.2.1) hplace

/-! ### Leased sectors -/

theorem ChunkModule.requestChunk_bytes {m : ChunkModule} (h : m.requestChunk request = .ok k) :
    request.bytes = request.bytes / sectorBytes * sectorBytes := by
  unfold requestChunk at h
  dsimp only at h
  split_ifs at h with h1
  push Not at h1
  exact (Nat.div_mul_cancel (Nat.dvd_of_mod_eq_zero h1.2.2)).symm

theorem lease_returns (hI : WorldInv w)
    (h : w.call (.leaseAcquire request a) = some (.leased (.ok t), w')) :
    w.module.requestChunk request = .ok t.logicalChunk ∧
      (w.module.chunks t.logicalChunk).state = .mapped ∧
      t = w.module.transportMapping request.sector t.logicalChunk := by
  cases call_does hI h with
  | refused hr | answered hr => cases hr
  | leased hk _ _ hs => exact ⟨hk, hs, rfl⟩

theorem ChunkModule.requestChunk_inside {m : ChunkModule} (h : m.requestChunk request = .ok k) :
    k < m.chunkCount ∧ k * sectorsPerChunk ≤ request.sector ∧
      request.sector + request.bytes / sectorBytes ≤ (k + 1) * sectorsPerChunk := by
  obtain ⟨-, hk, hsec, -, hfit⟩ := requestChunk_ok h
  have hdm := Nat.div_add_mod request.sector sectorsPerChunk
  have hlt := Nat.mod_lt request.sector (show 0 < sectorsPerChunk by decide)
  rw [hsec, Nat.mul_comm] at hdm
  rw [Nat.add_mul, Nat.one_mul]
  exact ⟨hk, by omega, by omega⟩

/-- The address of a lease is that of the first sector in the region, and the bytes of the request
end inside the region. -/
theorem lease_range (hw : chunkSystem.Reachable w)
    (h : w.call (.leaseAcquire request a) = some (.leased (.ok t), w')) :
    t.remoteAddress = (w.module.chunks t.logicalChunk).remoteAddress +
        request.sector % sectorsPerChunk * sectorBytes ∧
      t.remoteAddress + request.bytes ≤ (w.module.chunks t.logicalChunk).remoteAddress + chunkBytes ∧
      (w.module.chunks t.logicalChunk).remoteAddress + chunkBytes ≤ 2 ^ 64 := by
  have hI := world_inv hw
  obtain ⟨hk, hs, ht⟩ := lease_returns hI h
  obtain ⟨-, hlt, -, hne, hfit⟩ := requestChunk_ok hk
  obtain ⟨g, hgrant, hgk, hwrap⟩ := placed_run hw _ hlt (.inl hs)
  have haddr := hgrant.address
  rw [hgk] at haddr
  have hbytes := requestChunk_bytes hk
  have hmul := Nat.mul_le_mul_right sectorBytes hfit
  have hmod := Nat.mod_lt request.sector (show 0 < sectorsPerChunk by decide)
  rw [Nat.sub_mul] at hmul
  have hoff : request.sector % sectorsPerChunk * sectorBytes + request.bytes ≤ chunkBytes := by
    have hle := Nat.mul_le_mul_right sectorBytes hmod.le
    have hregion : sectorsPerChunk * sectorBytes = chunkBytes := by decide
    omega
  have hpos : 0 < request.bytes := by
    rw [hbytes]
    exact Nat.mul_pos (Nat.pos_of_ne_zero hne) (by decide)
  rw [← haddr] at hwrap
  have hval : t.remoteAddress = (w.module.chunks t.logicalChunk).remoteAddress +
      request.sector % sectorsPerChunk * sectorBytes := by
    refine (congrArg TransportMapping.remoteAddress ht).trans (Nat.mod_eq_of_lt ?_)
    omega
  exact ⟨hval, by omega, hwrap⟩

/-- Where sector `s` of a leased request is accessed: the Provider, its chunk, and the offset of the
sector's bytes in the region of that chunk. -/
def World.located (w : World) (request : IoRequest) (t : TransportMapping) (s : ℕ) :
    ProviderHandle × ℕ × ℕ :=
  (t.provider, t.providerChunk, t.remoteAddress + (s - request.sector) * sectorBytes -
    (w.module.chunks t.logicalChunk).remoteAddress)

/-- A leased sector is accessed where its chunk is placed, at its offset in the chunk. -/
theorem located_eq (hw : chunkSystem.Reachable w)
    (h : w.call (.leaseAcquire request a) = some (.leased (.ok t), w')) {s : ℕ}
    (h1 : request.sector ≤ s) (h2 : s < request.sector + request.bytes / sectorBytes) :
    t.logicalChunk = s / sectorsPerChunk ∧ w.located request t s =
      ((w.module.chunks t.logicalChunk).provider, (w.module.chunks t.logicalChunk).providerChunk,
        s % sectorsPerChunk * sectorBytes) := by
  obtain ⟨hk, -, ht⟩ := lease_returns (world_inv hw) h
  obtain ⟨-, -, hsec, -, hfit⟩ := requestChunk_ok hk
  have hs : s / sectorsPerChunk = t.logicalChunk := (sector_chunk_eq hfit h1 h2).trans hsec
  have hoff : request.sector % sectorsPerChunk + (s - request.sector) = s % sectorsPerChunk := by
    have hd1 := Nat.div_add_mod s sectorsPerChunk
    have hd2 := Nat.div_add_mod request.sector sectorsPerChunk
    rw [hs] at hd1
    rw [hsec] at hd2
    omega
  refine ⟨hs.symm, ?_⟩
  have hp := congrArg TransportMapping.provider ht
  have hpc := congrArg TransportMapping.providerChunk ht
  rw [World.located, (lease_range hw h).1, ← hoff, Nat.add_mul, hp, hpc, Nat.add_assoc,
    Nat.add_sub_cancel_left]
  rfl

/-- A sector is determined by its place at a Provider, even against a lease granted earlier and
still held. -/
theorem located_injective {w₁ w₁' w₂ w₂' : World} {r₁ r₂ : IoRequest} {a₁ a₂ : ℕ}
    {t₁ t₂ : TransportMapping} (hw₁ : chunkSystem.Reachable w₁) (hw₂ : chunkSystem.Reachable w₂)
    (h₁ : w₁.call (.leaseAcquire r₁ a₁) = some (.leased (.ok t₁), w₁'))
    (h₂ : w₂.call (.leaseAcquire r₂ a₂) = some (.leased (.ok t₂), w₂'))
    (hplace : t₁.logicalChunk < w₂.module.chunkCount)
    (hsame : w₂.module.providerValid t₁.provider = true →
      (w₂.module.chunks t₁.logicalChunk).assigned ∧
      (w₂.module.chunks t₁.logicalChunk).place = (w₁.module.chunks t₁.logicalChunk).place)
    {s₁ s₂ : ℕ} (hl₁ : r₁.sector ≤ s₁) (hu₁ : s₁ < r₁.sector + r₁.bytes / sectorBytes)
    (hl₂ : r₂.sector ≤ s₂) (hu₂ : s₂ < r₂.sector + r₂.bytes / sectorBytes)
    (he : w₁.located r₁ t₁ s₁ = w₂.located r₂ t₂ s₂) : s₁ = s₂ := by
  have hI₂ := (world_inv hw₂).module
  obtain ⟨hk₂, hs₂, ht₂⟩ := lease_returns (world_inv hw₂) h₂
  have hlt₂ := (requestChunk_ok hk₂).2.1
  obtain ⟨hc₁, he₁⟩ := located_eq hw₁ h₁ hl₁ hu₁
  obtain ⟨hc₂, he₂⟩ := located_eq hw₂ h₂ hl₂ hu₂
  rw [he₁, he₂] at he
  obtain ⟨hp, hpc, hoff⟩ : _ ∧ _ ∧ _ := by simpa only [Prod.mk.injEq] using he
  -- the Provider of the second lease is valid, so the chunk of the first is where it was
  have ht₁ : t₁.provider = (w₁.module.chunks t₁.logicalChunk).provider :=
    congrArg TransportMapping.provider (lease_returns (world_inv hw₁) h₁).2.2
  have hvalid : w₂.module.providerValid t₁.provider = true := by
    rw [ht₁, hp]
    exact (hI₂.chunk _ hlt₂).provider (by simp [hs₂])
  obtain ⟨ha, hpl⟩ := hsame hvalid
  have hprov :
      (w₂.module.chunks t₁.logicalChunk).provider = (w₁.module.chunks t₁.logicalChunk).provider :=
    congrArg Prod.fst hpl
  have hchunk : (w₂.module.chunks t₁.logicalChunk).providerChunk =
      (w₁.module.chunks t₁.logicalChunk).providerChunk :=
    congrArg (fun x : ProviderHandle × ℕ × ℕ × ℕ => x.2.1) hpl
  have hk : t₁.logicalChunk = t₂.logicalChunk :=
    hI₂.place _ hplace _ hlt₂ ha (.inl hs₂) (hprov.trans hp) (hchunk.trans hpc)
  have hmod : s₁ % sectorsPerChunk = s₂ % sectorsPerChunk := Nat.eq_of_mul_eq_mul_right (by decide) hoff
  rw [← Nat.div_add_mod s₁ sectorsPerChunk, ← Nat.div_add_mod s₂ sectorsPerChunk, hmod, ← hc₁, ← hc₂, hk]

theorem lease_place (hI : WorldInv w)
    (h : w.call (.leaseAcquire request a) = some (.leased (.ok t), w')) :
    (w'.module.chunks t.logicalChunk).place = (w.module.chunks t.logicalChunk).place := by
  have hk := (requestChunk_ok (lease_returns hI h).1).2.1
  cases (call_does hI h).chunk hI hk with
  | same _ _ he => rw [he]; rfl

/-- **Injective placement and address translation.** In every reachable world no two assigned chunks
share Provider and provider chunk. A lease is granted only on whole sectors inside one logical chunk of
the device, and the bytes it may access lie in the gigabyte granted for that chunk, below the end of
the address space. Two sectors leased from one world, or one leased while a lease of the other is
still held, are accessed at different places. -/
theorem translation_injective {w : World} (h : chunkSystem.Reachable w) :
    (∀ i < w.module.chunkCount, ∀ j < w.module.chunkCount,
      (w.module.chunks i).assigned → (w.module.chunks j).assigned →
      (w.module.chunks i).provider = (w.module.chunks j).provider →
      (w.module.chunks i).providerChunk = (w.module.chunks j).providerChunk → i = j) ∧
    (∀ request a t w', w.call (.leaseAcquire request a) = some (.leased (.ok t), w') →
      t.logicalChunk < w.module.chunkCount ∧ t.logicalChunk * sectorsPerChunk ≤ request.sector ∧
      request.sector + request.bytes / sectorBytes ≤ (t.logicalChunk + 1) * sectorsPerChunk ∧
      request.bytes = request.bytes / sectorBytes * sectorBytes ∧
      ∃ g, Granted g w ∧ g.logicalChunk = t.logicalChunk ∧ g.remoteAddress ≤ t.remoteAddress ∧
        t.remoteAddress + request.bytes ≤ g.remoteAddress + chunkBytes ∧
        g.remoteAddress + chunkBytes ≤ 2 ^ 64) ∧
    (∀ r₁ a₁ t₁ w₁ r₂ a₂ t₂ w₂, w.call (.leaseAcquire r₁ a₁) = some (.leased (.ok t₁), w₁) →
      w.call (.leaseAcquire r₂ a₂) = some (.leased (.ok t₂), w₂) →
      ∀ s₁ s₂, r₁.sector ≤ s₁ → s₁ < r₁.sector + r₁.bytes / sectorBytes →
        r₂.sector ≤ s₂ → s₂ < r₂.sector + r₂.bytes / sectorBytes → s₁ ≠ s₂ →
        w.located r₁ t₁ s₁ ≠ w.located r₂ t₂ s₂) ∧
    ∀ r₁ a₁ t₁ w₁ u r₂ a₂ t₂ v, w.destroyed = false →
      w.call (.leaseAcquire r₁ a₁) = some (.leased (.ok t₁), w₁) → w₁.Later u →
      u.module.Live a₁ (u.leases a₁) → (u.leases a₁).leaseId = (w₁.leases a₁).leaseId →
      u.call (.leaseAcquire r₂ a₂) = some (.leased (.ok t₂), v) →
      ∀ s₁ s₂, r₁.sector ≤ s₁ → s₁ < r₁.sector + r₁.bytes / sectorBytes →
        r₂.sector ≤ s₂ → s₂ < r₂.sector + r₂.bytes / sectorBytes → s₁ ≠ s₂ →
        w.located r₁ t₁ s₁ ≠ u.located r₂ t₂ s₂ := by
  have hI := world_inv h
  refine ⟨hI.module.place, fun request a t w' hcall => ?_,
    fun r₁ a₁ t₁ w₁ r₂ a₂ t₂ w₂ h₁ h₂ s₁ s₂ hl₁ hu₁ hl₂ hu₂ hne he => ?_,
    fun r₁ a₁ t₁ w₁ u r₂ a₂ t₂ v hd h₁ hlater hlive hid h₂ s₁ s₂ hl₁ hu₁ hl₂ hu₂ hne he => ?_⟩
  · obtain ⟨hk, hs, -⟩ := lease_returns hI hcall
    obtain ⟨hlt, hlo, hhi⟩ := requestChunk_inside hk
    obtain ⟨g, hgrant, hgk, hwrap⟩ := placed_run h _ hlt (.inl hs)
    obtain ⟨haddr, hend, -⟩ := lease_range h hcall
    rw [← hgk, hgrant.address] at haddr hend
    exact ⟨hlt, hlo, hhi, requestChunk_bytes hk, g, hgrant, hgk, haddr ▸ Nat.le_add_right _ _, hend,
      hwrap⟩
  · obtain ⟨hk, hs, -⟩ := lease_returns hI h₁
    exact hne (located_injective h h h₁ h₂ (requestChunk_ok hk).2.1
      (fun _ => ⟨.inl hs, rfl⟩) hl₁ hu₁ hl₂ hu₂ he)
  · obtain ⟨hu, hg⟩ := run_grows (reachable_call h hd h₁) hlater
    have hcount := hg.chunkCount.trans ((call_does hI h₁).grows hI).chunkCount
    refine hne (located_injective h hu h₁ h₂ ?_ (fun hp => ?_) hl₁ hu₁ hl₂ hu₂ he)
    · rw [hcount]
      exact (requestChunk_ok (lease_returns hI h₁).1).2.1
    · have hpin := lease_stable h hd h₁ hlater hlive hid hp
      exact ⟨hpin.assigned, hpin.place.trans (lease_place hI h₁)⟩

/-- A write of the second sector. -/
def secondWrite : IoRequest := { sectorWrite with sector := 1 }

/-- The first two sectors of a mapped chunk are accessed at different places. -/
theorem translation_injective_mapped : ∃ (w w₁ w₂ : World) (t₁ t₂ : TransportMapping),
    w.call (.leaseAcquire sectorWrite 1) = some (.leased (.ok t₁), w₁) ∧
    w.call (.leaseAcquire secondWrite 2) = some (.leased (.ok t₂), w₂) ∧
    w.located sectorWrite t₁ 0 ≠ w.located secondWrite t₂ 1 := by
  obtain ⟨w, t₁, t₂, w₁, w₂, hw, h₁, h₂⟩ :
      ∃ w t₁ t₂ w₁ w₂, chunkSystem.exec backedWorld backedCalls = some w ∧
      w.call (.leaseAcquire sectorWrite 1) = some (.leased (.ok t₁), w₁) ∧
      w.call (.leaseAcquire secondWrite 2) = some (.leased (.ok t₂), w₂) := ⟨_, _, _, _, _, rfl, rfl, rfl⟩
  have hreach := System.reachable_of_exec (.init backedWorld_fresh) hw
  exact ⟨w, w₁, w₂, t₁, t₂, h₁, h₂, (translation_injective hreach).2.2.1 _ _ _ _ _ _ _ _ h₁ h₂ 0 1
    (by decide) (by decide) (by decide) (by decide) (by decide)⟩

end RemoteChunk
end Infiniswap
