/-
# A claim acts at most once

The module remembers its last terminal claim only; every older claim is told
from a live one by its id, which is never given out twice. A mapping claim is
retired when it is not the active claim any more and its id has been handed
out, an eviction claim when no chunk carries its id. No call revives a retired
claim, and finishing one changes nothing.

A claim knows its chunks by a digest only. For a single chunk that is enough:
the multiplier is odd, so one step of the digest can be undone, and only a grant
for the claimed chunk has the digest of the claim (`oneChunk_grant`).
-/
import Infiniswap.RemoteChunk.Stability

namespace Infiniswap
namespace RemoteChunk

open ChunkModule Transition

/-! ### Mapping claims -/

variable {w w' : World} {c : Call} {r : Reply} {claim : EvictionClaim} {m : ChunkModule}

/-- The claim was handed out and is not the active one. -/
structure MappingRetired (claim : MappingClaim) (m : ChunkModule) : Prop where
  id_ne : claim.claimId ≠ 0
  id_le : claim.claimId ≤ m.nextMappingClaimId
  inactive : m.activeMappingClaim ≠ claim

theorem ChunkModule.failProvider_activeClaim (m : ChunkModule) (p : ProviderHandle) (i : ℕ) :
    (m.failProvider p i).activeMappingClaim =
      if m.failedMappingClaims p ≠ 0 then {} else m.activeMappingClaim := by
  show ((m.failRecord p).resetWhere (held p) false m.chunkCount).activeMappingClaim = _
  rw [resetWhere_frame, failRecord]
  split <;> rfl

/-- The active claim is kept, cleared, or a new one under a fresh id. -/
theorem Does.activeClaim (hI : WorldInv w) (h : Does w c r w') :
    w'.module.activeMappingClaim = w.module.activeMappingClaim ∨ w'.module.activeMappingClaim = {} ∨
      w'.module.activeMappingClaim.claimId = w.module.nextMappingClaimId + 1 := by
  cases h with
  | @refused _ _ m _ hm =>
    have hc : m.facts.activeMappingClaim = w.module.facts.activeMappingClaim := by rw [hm]
    exact .inl hc
  | reserved => exact .inr (.inr rfl)
  | aborted => exact .inr (.inl rfl)
  | committed _ hact hc hs hg =>
    obtain ⟨_, g, -, rfl, -⟩ := commit_grant hI.module hact hc hs hg
    exact .inr (.inl rfl)
  | evictionFinished => exact .inl (by rw [World.setModule, finishEviction_frame])
  | failed =>
    rw [World.setModule, failProvider_activeClaim]
    split
    · exact .inr (.inl rfl)
    · exact .inl rfl
  | resolved => rw [World.setLease, resolveValidity_eq]; exact .inl rfl
  | _ => exact .inl rfl

/-- **No call revives a retired mapping claim.** -/
theorem Does.mappingRetired {claim : MappingClaim} (hI : WorldInv w) (h : Does w c r w')
    (hret : MappingRetired claim w.module) : MappingRetired claim w'.module := by
  refine ⟨hret.id_ne, hret.id_le.trans (h.grows hI).mappingId, fun he => ?_⟩
  rcases h.activeClaim hI with h0 | h0 | h0
  · exact hret.inactive (h0.symm.trans he)
  · exact hret.id_ne (by rw [← he, h0])
  · have := hret.id_le
    rw [he] at h0
    omega

/-- The call ends the mapping claim: it finishes it with success or fails its Provider. -/
def MappingEnds (claim : MappingClaim) (c : Call) (r : Reply) : Prop :=
  r.succeeded = true ∧
    ((∃ action p grants, c = .mappingFinish claim action p grants) ∨ c = .providerFailed claim.provider)

/-- A claim that ends is retired. -/
theorem Does.mappingEnds {claim : MappingClaim} (hI : WorldInv w) (h : Does w c r w')
    (h0 : claim.claimId ≠ 0) (hle : claim.claimId ≤ w.module.nextMappingClaimId)
    (hends : MappingEnds claim c r) : MappingRetired claim w'.module := by
  refine ⟨h0, hle.trans (h.grows hI).mappingId, fun he => ?_⟩
  have hcleared : ({} : MappingClaim) ≠ claim := fun hc => h0 (by rw [← hc])
  obtain ⟨hr, ⟨action, p, grants, rfl⟩ | rfl⟩ := hends
  · cases h with
    | refused hr' => rw [hr] at hr'; cases hr'
    | answered hc => cases hc
    | aborted => exact hcleared he
    | committed _ hact hc hs hg =>
      obtain ⟨k, g, hk, rfl, -⟩ := commit_grant hI.module hact hc hs hg
      exact hcleared he
  · cases h with
    | refused hr' => rw [hr] at hr'; cases hr'
    | answered hc => cases hc
    | failed hi _ _ =>
      rw [World.setModule, failProvider_activeClaim] at he
      split at he
      · exact hcleared he
      · rename_i hz
        -- the claim is still active, so its Provider holds the reserved chunk
        rcases hI.module.claim with hno | ⟨k, hk⟩
        · exact hcleared (hno.cleared ▸ he)
        · rw [failedMappingClaims_claimed hI.module hk, if_pos (by rw [← he, hk.claim])] at hz
          exact hz (by decide)

theorem ChunkModule.mappingFinish_inactive {claim : MappingClaim} (h : m.activeMappingClaim ≠ claim)
    (action : MappingFinishAction) (p : ProviderHandle) (grants : GrantArg) :
    (m.mappingFinish claim action p grants).2 = m := by
  have hact : m.mappingClaimActive claim = false := by
    refine Bool.eq_false_iff.mpr fun hc => h ?_
    exact (mappingClaimActive_eq hc).symm
  unfold mappingFinish
  simp only [hact, Bool.not_false, if_true]
  split_ifs <;> rfl

/-! ### Eviction claims -/

/-- The claim was handed out and no chunk carries its id. -/
structure EvictionRetired (claim : EvictionClaim) (m : ChunkModule) : Prop where
  id_ne : claim.claimId ≠ 0
  id_le : claim.claimId ≤ m.nextEvictionClaimId
  unnamed : ∀ k < m.chunkCount, (m.chunks k).evictionClaimId ≠ claim.claimId

/-- **No call revives a retired eviction claim.** -/
theorem Does.evictionRetired (hI : WorldInv w) (h : Does w c r w')
    (hret : EvictionRetired claim w.module) : EvictionRetired claim w'.module := by
  have hg := h.grows hI
  refine ⟨hret.id_ne, hret.id_le.trans hg.evictionId, fun k hk hid => ?_⟩
  rw [hg.chunkCount] at hk
  exact hret.unnamed k hk (h.named_before hI hret.id_ne hret.id_le hk hid)

theorem EvictionRetired.invalid (h : EvictionRetired claim m) :
    m.evictionClaimValidate claim ≠ .ok () := fun hv => by
  obtain ⟨k, hk, hid⟩ := evictionClaim_named hv
  exact h.unnamed k hk hid

/-- The call ends the eviction claim: it finishes it or fails its Provider. -/
def EvictionEnds (claim : EvictionClaim) (c : Call) (r : Reply) : Prop :=
  r.succeeded = true ∧ (c = .evictionFinish claim ∨ c = .providerFailed claim.provider)

/-- A claim in use validates until it is retired. -/
def EvictionIssued (claim : EvictionClaim) (m : ChunkModule) : Prop :=
  m.evictionClaimValidate claim = .ok () ∨ EvictionRetired claim m

/-- A valid claim whose call ends it is retired. -/
theorem Does.evictionEnds (hI : WorldInv w) (h : Does w c r w')
    (hv : w.module.evictionClaimValidate claim = .ok ()) (hends : EvictionEnds claim c r) :
    EvictionRetired claim w'.module := by
  have hg := h.grows hI
  obtain ⟨hid0, -, -, hmem, -⟩ := evictionClaimValidate_ok hv
  obtain ⟨j, hj, hjid⟩ := evictionClaim_named hv
  have hle : claim.claimId ≤ w.module.nextEvictionClaimId := hjid ▸ (hI.module.chunk j hj).evictionId_le
  refine ⟨hid0, hle.trans hg.evictionId, fun k hk hid => ?_⟩
  rw [hg.chunkCount] at hk
  -- a chunk that carries the id after the call carried it before, so the call reset it
  have hbefore := h.named_before hI hid0 hle hk hid
  obtain ⟨hr, rfl | rfl⟩ := hends
  · cases h with
    | refused hr' => rw [hr] at hr'; cases hr'
    | answered hc => cases hc
    | evictionFinished hv' _ =>
      rw [World.setModule, (finishEviction_resetTo hv').chunk_in hk hbefore] at hid
      exact hid0 hid.symm
  · cases h with
    | refused hr' => rw [hr] at hr'; cases hr'
    | answered hc => cases hc
    | failed hi _ _ =>
      obtain ⟨hst, -, hpr⟩ := hmem k hk hbefore
      rw [World.setModule, (failProvider_resetTo hI.module _ _).chunk_in hk ⟨by simp [hst], hpr⟩] at hid
      exact hid0 hid.symm

theorem ChunkModule.evictionFinish_invalid (h : m.evictionClaimValidate claim ≠ .ok ()) :
    (m.evictionFinish claim).2 = m := by
  unfold evictionFinish
  split
  · rfl
  · rename_i hv
    exact absurd hv h

/-- A claim handed out stays valid or is retired for good. -/
theorem Does.evictionIssued (hI : WorldInv w) (h : Does w c r w')
    (hi : EvictionIssued claim w.module) : EvictionIssued claim w'.module := by
  rcases hi with hv | hret
  · by_cases hends : EvictionEnds claim c r
    · exact .inr (h.evictionEnds hI hv hends)
    · refine .inl (h.validates hI hv (not_not.mp fun hp => hends ?_) fun hf => hends
        ⟨by rw [hf.2]; rfl, .inl hf.1⟩)
      have hinv := h.invalidates hI (evictionClaimValidate_ok hv).2.2.1 (Bool.eq_false_iff.mpr hp)
      exact ⟨hinv.2, .inr hinv.1⟩
  · exact .inr (h.evictionRetired hI hret)

/-! ### Whole runs -/

/-- Finishing a mapping claim after it ended changes nothing. -/
theorem mapping_claim_once {w₁ w₂ w₃ w₄ w₅ : World} (h : chunkSystem.Reachable w)
    (hd : w.destroyed = false) {draws : ℕ → ℕ} {req : MappingRequest}
    (hissue : w.call (.nextMapping draws) = some (.next .request (some req), w₁))
    (h₁₂ : w₁.Later w₂) (hd₂ : w₂.destroyed = false) (hend : w₂.call c = some (r, w₃))
    (hends : MappingEnds req.claim c r) (h₃₄ : w₃.Later w₄) {action : MappingFinishAction}
    {p : ProviderHandle} {grants : GrantArg} {r' : Reply}
    (hcall : w₄.call (.mappingFinish req.claim action p grants) = some (r', w₅)) :
    w₅ = w₄ := by
  have hw₁ := reachable_call h hd hissue
  have hid : req.claim.claimId ≠ 0 ∧ req.claim.claimId ≤ w₁.module.nextMappingClaimId := by
    cases call_does (world_inv h) hissue with
    | refused hr | answered hr => cases hr
    | reserved => exact ⟨Nat.succ_ne_zero _, le_rfl⟩
  obtain ⟨hw₂, hg⟩ := run_grows hw₁ h₁₂
  have hret := (call_does (world_inv hw₂) hend).mappingEnds (world_inv hw₂) hid.1
    (hid.2.trans hg.mappingId) hends
  obtain ⟨-, hret₄⟩ := h₃₄.keeps (I := fun u => MappingRetired req.claim u.module)
    (reachable_call hw₂ hd₂ hend) hret fun u c r v hu hdoes hi => hdoes.mappingRetired hu hi
  cases hcall
  rw [mappingFinish_inactive hret₄.inactive]
  rfl

/-- Finishing an eviction claim after it ended changes nothing. -/
theorem eviction_claim_once {w₁ w₂ w₃ w₄ w₅ : World} (h : chunkSystem.Reachable w)
    (hd : w.destroyed = false) {p : ProviderHandle} {pcs : List ℕ} {out : EvictionClaim}
    (hissue : w.call (.evictionBegin p pcs out) = some (.begun (.ok claim), w₁)) (h₁₂ : w₁.Later w₂)
    (hd₂ : w₂.destroyed = false) (hend : w₂.call c = some (r, w₃)) (hends : EvictionEnds claim c r)
    (h₃₄ : w₃.Later w₄) {r' : Reply} (hcall : w₄.call (.evictionFinish claim) = some (r', w₅)) :
    w₅ = w₄ := by
  have hw₁ := reachable_call h hd hissue
  have hissued : EvictionIssued claim w₁.module := by
    cases call_does (world_inv h) hissue with
    | refused hr | answered hr => cases hr
    | evictionBegun _ _ hp hne hsel hu =>
      exact .inl (beginEviction_validates (world_inv h).module hp hne hsel hu)
  obtain ⟨hw₂, hissued₂⟩ := h₁₂.keeps (I := fun u => EvictionIssued claim u.module) hw₁ hissued
    fun u c r v hu hdoes hi => hdoes.evictionIssued hu hi
  have hI₂ := world_inv hw₂
  have hret : EvictionRetired claim w₃.module := by
    rcases hissued₂ with hv | hret
    · exact (call_does hI₂ hend).evictionEnds hI₂ hv hends
    · exact (call_does hI₂ hend).evictionRetired hI₂ hret
  obtain ⟨-, hret₄⟩ := h₃₄.keeps (I := fun u => EvictionRetired claim u.module)
    (reachable_call hw₂ hd₂ hend) hret fun u c r v hu hdoes hi => hdoes.evictionRetired hu hi
  cases hcall
  rw [evictionFinish_invalid hret₄.invalid]
  rfl

/-- A mapping claim of another module instance is refused before anything else is looked at. -/
theorem ChunkModule.mappingFinish_foreign {claim : MappingClaim}
    (hf : claim.moduleIdentity ≠ m.identity) (action : MappingFinishAction) (p : ProviderHandle)
    (grants : GrantArg) : (m.mappingFinish claim action p grants).2 = m := by
  unfold mappingFinish
  split_ifs with h1 h2 h3 h4
  all_goals first
    | rfl
    | exact absurd (.inl hf) h4

/-- **Claims act at most once.** After a mapping claim the module issued was committed or aborted or its
Provider failed, and after an eviction claim was finished or its Provider failed, no later finish with
that claim, in any world reached by any further calls, changes anything. A finish that does not report
success changes nothing but diagnostics, and a claim of another module instance never has an effect. -/
theorem claims_act_once {w : World} (h : chunkSystem.Reachable w) (hd : w.destroyed = false) :
    (∀ draws req w₁ w₂ c r w₃ w₄, w.call (.nextMapping draws) = some (.next .request (some req), w₁) →
      w₁.Later w₂ → w₂.destroyed = false → w₂.call c = some (r, w₃) → MappingEnds req.claim c r →
      w₃.Later w₄ → ∀ action p grants r' w₅,
        w₄.call (.mappingFinish req.claim action p grants) = some (r', w₅) → w₅ = w₄) ∧
    (∀ p pcs out claim w₁ w₂ c r w₃ w₄,
      w.call (.evictionBegin p pcs out) = some (.begun (.ok claim), w₁) →
      w₁.Later w₂ → w₂.destroyed = false → w₂.call c = some (r, w₃) → EvictionEnds claim c r →
      w₃.Later w₄ → ∀ r' w₅, w₄.call (.evictionFinish claim) = some (r', w₅) → w₅ = w₄) ∧
    (∀ claim action p grants r w', w.call (.mappingFinish claim action p grants) = some (r, w') →
      (r.succeeded = false → w.Same w') ∧ (claim.moduleIdentity ≠ w.module.identity → w' = w)) ∧
    (∀ claim r w', w.call (.evictionFinish claim) = some (r, w') →
      (r.succeeded = false → w.Same w') ∧ (claim.moduleIdentity ≠ w.module.identity → w' = w)) := by
  have hI := world_inv h
  refine ⟨fun draws req w₁ w₂ c r w₃ w₄ hissue h₁₂ hd₂ hend hends h₃₄ action p grants r' w₅ hcall =>
      mapping_claim_once h hd hissue h₁₂ hd₂ hend hends h₃₄ hcall,
    fun p pcs out claim w₁ w₂ c r w₃ w₄ hissue h₁₂ hd₂ hend hends h₃₄ r' w₅ hcall =>
      eviction_claim_once h hd hissue h₁₂ hd₂ hend hends h₃₄ hcall,
    fun claim action p grants r w' hcall => ⟨fun hr => ?_, fun hf => ?_⟩,
    fun claim r w' hcall => ⟨fun hr => ?_, fun hf => ?_⟩⟩
  · refine (call_does hI hcall).same_of_refused hr nofun nofun fun hw => ?_
    cases hcall
    cases hw
  · cases hcall
    rw [mappingFinish_foreign hf]
    rfl
  · refine (call_does hI hcall).same_of_refused hr nofun nofun fun hw => ?_
    cases hcall
    cases hw
  · cases hcall
    rw [evictionFinish_invalid fun hv => hf (evictionClaimValidate_iff.mp hv).2.2.2.2.1]
    rfl

/-- A mapping committed, evicted and mapped again: the first claim, finished once more, does nothing. -/
theorem claims_act_once_remapped : ∃ w₄ w₅ : World, ∃ r', chunkSystem.Reachable w₄ ∧
    w₄.module.nextMappingClaimId = 2 ∧
    w₄.call (.mappingFinish (backedClaim 0 1 1) .abort ⟨1, 1⟩ (.null 0)) = some (r', w₅) ∧ w₅ = w₄ := by
  obtain ⟨w, req, w₁, r, w₃, w₄, r', w₅, hw, hissue, hend, hlater, hcall, hreq, hd, hd₁, hr, hd₃, hid⟩ :
      ∃ w req w₁ r w₃ w₄ r' w₅, chunkSystem.exec backedWorld (backedCalls.take 2) = some w ∧
      w.call (.nextMapping fun _ => 0) = some (.next .request (some req), w₁) ∧
      w₁.call (.mappingFinish (backedClaim 0 1 1) .commit ⟨1, 1⟩ (.array [⟨0, 0, 1, 1⟩])) = some (r, w₃) ∧
      (chunkSystem.startAt w₃).exec w₃ [.evictionBegin ⟨1, 1⟩ [0] {},
        .evictionFinish ⟨evictionMagic, 1, ⟨1, 1⟩, 1, 2, batchDigest (fun i => i = 0) 3, 1⟩,
        .noteActivity 0 1 .write, .nextMapping fun _ => 0] = some w₄ ∧
      w₄.call (.mappingFinish (backedClaim 0 1 1) .abort ⟨1, 1⟩ (.null 0)) = some (r', w₅) ∧
      req.claim = backedClaim 0 1 1 ∧ w.destroyed = false ∧ w₁.destroyed = false ∧ r.succeeded = true ∧
      w₃.destroyed = false ∧ w₄.module.nextMappingClaimId = 2 :=
    ⟨_, _, _, _, _, _, _, _, rfl, rfl, rfl, rfl, rfl, by decide⟩
  have hreach := System.reachable_of_exec (.init backedWorld_fresh) hw
  have hlater' : w₃.Later w₄ := System.reachable_of_exec (.init rfl) hlater
  have hw₄ := (run_grows (reachable_call (reachable_call hreach hd hissue) hd₁ hend) hlater').1
  refine ⟨w₄, w₅, r', hw₄, hid, hcall, ?_⟩
  exact (claims_act_once hreach hd).1 _ req w₁ w₁ _ r w₃ w₄ hissue (.init rfl) hd₁ hend
    ⟨hr, .inl ⟨_, _, _, by rw [hreq]⟩⟩ hlater' .abort ⟨1, 1⟩ (.null 0) r' w₅ (by rw [hreq]; exact hcall)

/-! ### The digest of one chunk -/

/-- Chunks before the selected one leave the offset, and chunks after it leave the digest. -/
theorem batchDigest_single {k : ℕ} : ∀ {n : ℕ}, batchDigest (fun i => i = k) n =
    if k < n then ((digestOffset ^^^ (k + 1)) * digestPrime) % 2 ^ 64 else digestOffset
  | 0 => rfl
  | n + 1 => by
    rw [batchDigest, batchDigest_single]
    by_cases hn : n = k
    · subst hn
      simp
    · have hiff : k < n + 1 ↔ k < n := by omega
      simp only [hn, hiff, decide_false, Bool.false_eq_true, if_false]

/-- **The digest tells single chunks apart.** -/
theorem batchDigest_injective {n j k : ℕ} (hn : n < 2 ^ 32) (hj : j < n) (hk : k < n)
    (h : batchDigest (fun i => i = j) n = batchDigest (fun i => i = k) n) : j = k := by
  rw [batchDigest_single, batchDigest_single, if_pos hj, if_pos hk] at h
  have hodd : Nat.gcd (2 ^ 64) digestPrime = 1 := by decide +kernel
  have hcancel : digestOffset ^^^ (j + 1) ≡ digestOffset ^^^ (k + 1) [MOD 2 ^ 64] :=
    Nat.ModEq.cancel_right_of_coprime hodd h
  have hlt {i : ℕ} (hi : i < n) : digestOffset ^^^ (i + 1) < 2 ^ 64 :=
    Nat.xor_lt_two_pow (by decide) (by omega)
  have hxor := Nat.ModEq.eq_of_lt_of_lt hcancel (hlt hj) (hlt hk)
  exact Nat.succ.inj (Nat.xor_right_inj.mp hxor)

/-- **A claim on one chunk is filled by its chunk only**, because no other single chunk has its digest. -/
theorem oneChunk_grant {m : ChunkModule} (hn : m.chunkCount < 2 ^ 32) {k : ℕ} (hk : k < m.chunkCount) :
    (∀ (c : MappingClaim) (grants : GrantArg), c.chunkCount = 1 →
      c.batchDigest = batchDigest (fun i => i = k) m.chunkCount →
        m.mappingGrantsShapeValid c grants = true →
        ∃ g, grants = .array [g] ∧ g.logicalChunk = k) ∧
    ∀ j < m.chunkCount, batchDigest (fun i => i = j) m.chunkCount =
      batchDigest (fun i => i = k) m.chunkCount → j = k := by
  refine ⟨fun c grants hcount hdigest h => ?_, fun j hj => batchDigest_injective hn hj hk⟩
  cases grants with
  | null n => cases h
  | array gs =>
    simp only [mappingGrantsShapeValid, Bool.and_eq_true, beq_iff_eq] at h
    obtain ⟨⟨⟨hlength, -⟩, hshaped⟩, hd⟩ := h
    obtain ⟨g, rfl⟩ := List.length_eq_one_iff.mp (hlength.trans hcount)
    simp only [grantsWellShaped, Bool.and_eq_true, decide_eq_true_eq] at hshaped
    have hg : g.logicalChunk < m.chunkCount := hshaped.1.1.1.1.1.1
    refine ⟨g, rfl, batchDigest_injective hn hg hk ?_⟩
    rw [← hdigest, ← hd]
    exact batchDigest_congr fun i _ => by simp [eq_comm]

/-- The claim that is made on the last chunk of three takes a grant for it, and for no other chunk. -/
theorem oneChunk_grant_last :
    backedWorld.module.mappingGrantsShapeValid (backedWorld.module.newMappingClaim ⟨1, 1⟩ 2)
      (.array [⟨2, 0, 1, 1⟩]) = true ∧
    ∀ grants, backedWorld.module.mappingGrantsShapeValid
        (backedWorld.module.newMappingClaim ⟨1, 1⟩ 2) grants = true →
      ∃ g, grants = .array [g] ∧ g.logicalChunk = 2 := by
  refine ⟨by decide +kernel, fun grants h => ?_⟩
  have hlast := oneChunk_grant (m := backedWorld.module) (k := 2) (by decide) (by decide)
  exact hlast.1 _ grants rfl rfl h

end RemoteChunk
end Infiniswap
