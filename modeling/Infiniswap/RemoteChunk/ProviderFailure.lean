/-
# The failure of a Provider is exact and final

A report that a Provider failed unmaps exactly the chunks the Provider holds or
is being mapped to, takes out of each counter exactly what those chunks
contributed and touches nothing else. From then on the roster entry is frozen:
a repeated report returns the first facts, and no call acts on the Provider.

The report is refused, with nothing changed, only when the module has no
transition or mapping generations left for it.
-/
import Infiniswap.RemoteChunk.Progress

namespace Infiniswap
namespace RemoteChunk

open ChunkModule Transition Counting

variable {p : ProviderHandle} {c : Call} {w : World} {i : ℕ} {r : Reply}

/-- What the report of the failure of `p` does. -/
structure FailureEffect (p : ProviderHandle) (w w' : World) : Prop where
  unmapped : ∀ k < w.module.chunkCount, held p (w.module.chunks k) →
    (w'.module.chunks k).state = .unmapped ∧ (w'.module.chunks k).provider = {} ∧
      w.module.nextMappingGeneration < (w'.module.chunks k).mappingGeneration ∧
      ∀ s, s / sectorsPerChunk = k → w'.module.sectorValid s = false
  kept : ∀ k < w.module.chunkCount, ¬ held p (w.module.chunks k) →
    w'.module.chunks k = w.module.chunks k ∧
    ∀ s, s / sectorsPerChunk = k → w'.module.sectorValid s = w.module.sectorValid s
  leased : ∀ k, (w'.module.chunks k).activeIoLeases = (w.module.chunks k).activeIoLeases
  assigned : w'.module.assignedChunks + Nat.count (fun k => (w.module.chunks k).assigned ∧
    (w.module.chunks k).provider = p) w.module.chunkCount = w.module.assignedChunks
  usable : w'.module.usableChunks + Nat.count (fun k => (w.module.chunks k).state = .mapped ∧
    (w.module.chunks k).provider = p) w.module.chunkCount = w.module.usableChunks
  mappingClaims : w'.module.activeMappingClaims +
    (tags (fun k => (w.module.chunks k).state = .mapping ∧ (w.module.chunks k).provider = p)
      (fun k => (w.module.chunks k).mappingClaimId) w.module.chunkCount).card =
    w.module.activeMappingClaims
  evictionClaims : w'.module.activeEvictionClaims +
    (tags (fun k => (w.module.chunks k).state = .evicting ∧ (w.module.chunks k).provider = p)
      (fun k => (w.module.chunks k).evictionClaimId) w.module.chunkCount).card =
    w.module.activeEvictionClaims
  roster : ∀ j, (w.module.providers j).handle ≠ p → w'.module.providers j = w.module.providers j
  cells : w'.leases = w.leases
  total : w'.module.activeIoLeases = w.module.activeIoLeases
  waiters : w'.waiters = w.waiters ∧ w'.module.activeEvictionWaits = w.module.activeEvictionWaits

namespace ChunkModule

variable {m : ChunkModule}

/-- The failure count of mapping claims: the distinct ids on the Provider's mapping chunks. -/
theorem failedMappingClaims_eq (hI : m.Inv) (p : ProviderHandle) : m.failedMappingClaims p =
    (tags (fun k => (m.chunks k).state = .mapping ∧ (m.chunks k).provider = p)
      (fun k => (m.chunks k).mappingClaimId) m.chunkCount).card := by
  have hcl : ∀ i < m.chunkCount, ∀ j < m.chunkCount,
      held p (m.chunks i) ∧ (m.chunks i).state = .mapping →
      (m.chunks j).mappingClaimId = (m.chunks i).mappingClaimId →
      held p (m.chunks j) ∧ (m.chunks j).state = .mapping := by
    intro i hi j hj hp hid
    have hj' : (m.chunks j).state = .mapping :=
      (hI.chunk j hj).mappingId.mp (hid ▸ (hI.chunk i hi).mappingId.mpr hp.2)
    rcases hI.claim with h0 | ⟨k, hk⟩
    · exact absurd hj' (h0.mapping j hj)
    · rw [(hk.mapping j hj).mp hj', ← (hk.mapping i hi).mp hp.2]
      exact hp
  rw [failedMappingClaims, count_first_eq_card hcl]
  refine congrArg _ (tags_congr (fun i _ => ?_) fun _ _ _ => rfl)
  exact ⟨fun h => ⟨h.2, h.1.2⟩, fun h => ⟨⟨by simp [h.1], h.2⟩, h.1⟩⟩

theorem held_iff {c : Chunk} (hs : c.state ≠ .unmapped) : held p c ↔ c.provider = p :=
  ⟨fun h => h.2, fun h => ⟨hs, h⟩⟩

theorem count_held {S : Chunk → Prop} [DecidablePred S] (hS : ∀ c, S c → c.state ≠ .unmapped)
    (p : ProviderHandle) :
    Nat.count (fun k => S (m.chunks k) ∧ held p (m.chunks k)) m.chunkCount =
        Nat.count (fun k => S (m.chunks k) ∧ (m.chunks k).provider = p) m.chunkCount ∧
      Nat.count (fun k => S (m.chunks k) ∧ (m.chunks k).provider = p) m.chunkCount ≤
        Nat.count (fun k => S (m.chunks k)) m.chunkCount :=
  ⟨count_congr fun _ _ => and_congr_right fun h => held_iff (hS _ h), count_mono fun _ _ h => h.1⟩

end ChunkModule

/-- **The effect of a report that is applied.** -/
theorem failProvider_effect (hI : w.module.Inv) (hi : w.module.providerRosterIndex p = some i)
    (hf : (w.module.providers i).failed = false) (hg : ¬ w.module.failureExhausted p) :
    FailureEffect p w (w.setModule (w.module.failProvider p i)) := by
  have hr := failProvider_resetTo hI p i
  have hassigned := count_held (m := w.module) (S := Chunk.assigned)
    (fun c h hu => not_assigned_of_unmapped hu h) p
  have husable := count_held (m := w.module) (S := fun c => c.state = .mapped) (fun c h => by simp [h]) p
  have hev := failedEvictionClaims_eq hI p
  have htags : tags (fun k => w.module.evicting k ∧ held p (w.module.chunks k))
      (fun k => (w.module.chunks k).evictionClaimId) w.module.chunkCount =
        tags (fun k => (w.module.chunks k).state = .evicting ∧ (w.module.chunks k).provider = p)
          (fun k => (w.module.chunks k).evictionClaimId) w.module.chunkCount :=
    tags_congr (fun k _ => and_congr_right fun h => held_iff (by rw [show _ = _ from h]; nofun))
      fun _ _ _ => rfl
  have hexact := hg
  unfold failureExhausted at hexact
  push Not at hexact
  obtain ⟨-, -, -, hmc, hec, -, -⟩ := hexact
  exact
    { unmapped := fun k hk hheld => by
        have hin := hr.chunk_in hk hheld
        refine ⟨by rw [World.setModule, hin]; rfl, by rw [World.setModule, hin]; rfl, ?_, fun s hs => ?_⟩
        · rw [World.setModule, hin]
          show _ < w.module.resetGeneration (held p) k
          unfold resetGeneration
          omega
        · refine Bool.eq_false_iff.mpr fun hv => ((hr.valid s).mp hv).2 ?_
          rw [hs]
          exact ⟨hk, hheld⟩
      kept := fun k hk hheld => ⟨hr.chunk_out hheld, fun s hs => Bool.eq_iff_iff.mpr ((hr.valid s).trans
        ⟨fun hv => hv.1, fun hv => ⟨hv, fun hn => hheld (hs ▸ hn.2)⟩⟩)⟩
      leased := fun k => by
        rw [World.setModule, hr.chunks k]
        split <;> rfl
      assigned := by
        rw [World.setModule, hr.assigned, hassigned.1]
        have := hI.assigned
        omega
      usable := by
        rw [World.setModule, hr.usable, husable.1]
        have := hI.usable
        omega
      mappingClaims := by
        rw [← failedMappingClaims_eq hI]
        exact Nat.sub_add_cancel hmc
      evictionClaims := by
        rw [← htags, ← hev]
        exact Nat.sub_add_cancel hec
      roster := fun j hj => by
        rw [World.setModule, failProvider_providers, if_neg]
        rintro rfl
        exact hj (w.module.providerRosterIndex_some hi).2
      cells := rfl
      total := hr.leases
      waiters := ⟨rfl, (ControlStep.fail p i hi hf hg).waits⟩ }

/-! ### After the report -/

/-- The roster entry of a failed Provider never changes again. -/
theorem Does.frozen {w' : World} (hI : WorldInv w) (h : Does w c r w')
    (hf : (w.module.providers i).failed = true) : w'.module.providers i = w.module.providers i := by
  cases h.roster hI i with
  | same he => exact he
  | observed hi =>
    have hnf := (w.module.providerIndex_some hi).2
    rw [hf] at hnf
    cases hnf
  | failed _ hnf =>
    rw [hf] at hnf
    cases hnf

/-- The call, by its reply, assigned, claimed, evicted, observed or leased something on Provider `p`. -/
def ActsOn (p : ProviderHandle) : Call → Reply → Prop
  | .observe q _, .observed .applied => q = p
  | .nextMapping _, .next .request (some request) => request.provider = p
  | .mappingFinish claim _ q _, .finished .committed => claim.provider = p ∨ q = p
  | .mappingFinish claim _ q _, .finished .aborted => claim.provider = p ∨ q = p
  | .evictionBegin q _ _, .begun (.ok _) => q = p
  | .evictionFinish claim, .status (.ok _) => claim.provider = p
  | .leaseAcquire _ _, .leased (.ok t) => t.provider = p
  | _, _ => False

theorem ActsOn.succeeded (h : ActsOn p c r) :
    r.succeeded = true ∧ c.query = false := by
  unfold ActsOn at h
  split at h
  all_goals first
    | exact ⟨rfl, rfl⟩
    | exact h.elim

theorem ChunkModule.mappingClaimActive_valid {m : ChunkModule} {c : MappingClaim}
    (h : m.mappingClaimActive c = true) : m.providerValid c.provider = true := by
  simp only [mappingClaimActive, Bool.and_eq_true] at h
  exact h.1.1.1.1.2

/-- **No call acts on a Provider that is not valid.** -/
theorem Does.not_actsOn {w' : World} (hI : WorldInv w) (h : Does w c r w')
    (hp : w.module.providerValid p = false) : ¬ ActsOn p c r := by
  intro hact
  obtain ⟨hr, hq⟩ := hact.succeeded
  suffices hv : w.module.providerValid p = true by
    rw [hp] at hv
    cases hv
  cases h with
  | refused hr' => rw [hr] at hr'; cases hr'
  | answered hc => rw [hq] at hc; cases hc
  | observed hi => exact (show _ = p from hact) ▸ Option.isSome_iff_exists.mpr ⟨_, hi⟩
  | reserved _ _ hv => exact (show _ = p from hact) ▸ hv
  | aborted ha | committed _ ha => exact (or_self_iff.mp hact) ▸ mappingClaimActive_valid ha
  | evictionBegun _ _ hv => exact (show _ = p from hact) ▸ hv
  | evictionFinished hv => exact (show _ = p from hact) ▸ (evictionClaimValidate_ok hv).2.2.1
  | leased hk _ _ hs =>
    exact (show _ = p from hact) ▸ (hI.module.chunk _ (requestChunk_ok hk).2.1).provider (by simp [hs])
  | _ => exact hact.elim

/-- What a report does about a Provider of the roster. -/
theorem ChunkModule.providerFailed_roster {m : ChunkModule} (hI : m.Inv) (hi : i < m.providerCount)
    (hp : (m.providers i).handle = p) : m.providerFailed p =
      if (m.providers i).failed then (.duplicate, (m.providers i).failureFacts, m)
      else if m.failureExhausted p then (.exhausted, {}, m)
      else (.applied, m.failureFacts p, m.failProvider p i) := by
  have hwf : p.wellFormed = true := by
    rw [← hp, hI.handle i hi]
    simp [ProviderHandle.wellFormed, hI.identity]
  unfold providerFailed
  rw [if_neg (by simp [hwf]), hI.rosterIndex_eq hi hp]

/-- The identifiers do not suffice for the report. -/
theorem report_refused (hI : WorldInv w) (hi : i < w.module.providerCount)
    (hp : (w.module.providers i).handle = p) (hf : (w.module.providers i).failed = false)
    (hex : w.module.failureExhausted p) :
    w.call (.providerFailed p) = some (.failed .exhausted {}, w) := by
  dsimp only [World.call]
  rw [providerFailed_roster hI.module hi hp, if_neg (by simp [hf]), if_pos hex]
  rfl

/-- **Provider failure is exact and final.** While transition and mapping generations are left, the
report that a roster Provider failed is applied with exactly its effect; in every later world a repeated
report changes nothing and returns the first report's facts, no call acts on the Provider, and no chunk
is held by it. With the generations used up the report is refused as EXHAUSTED and changes nothing. -/
theorem providerFailure_exact {w : World} (h : chunkSystem.Reachable w) (hd : w.destroyed = false) {i : ℕ}
    (hi : i < w.module.providerCount) (hf : (w.module.providers i).failed = false) :
    (w.module.nextTransitionGeneration ≠ idMax →
      w.module.nextMappingGeneration ≤
        idMax - (w.module.failureFacts (w.module.providers i).handle).affectedChunks →
      ∃ w', w.call (.providerFailed (w.module.providers i).handle) =
          some (.failed .applied (w.module.failureFacts (w.module.providers i).handle), w') ∧
        FailureEffect (w.module.providers i).handle w w' ∧
        ∀ u, w'.Later u →
          u.call (.providerFailed (w.module.providers i).handle) =
            some (.failed .duplicate (w.module.failureFacts (w.module.providers i).handle), u) ∧
          (∀ c r v, u.call c = some (r, v) → ¬ ActsOn (w.module.providers i).handle c r) ∧
          ∀ k < u.module.chunkCount, ¬ held (w.module.providers i).handle (u.module.chunks k)) ∧
    (w.module.nextTransitionGeneration = idMax ∨
      idMax - (w.module.failureFacts (w.module.providers i).handle).affectedChunks <
        w.module.nextMappingGeneration →
      w.call (.providerFailed (w.module.providers i).handle) = some (.failed .exhausted {}, w)) := by
  have hI := world_inv h
  generalize hp : (w.module.providers i).handle = p at *
  refine ⟨fun htrans hgen => ?_,
    fun hused => report_refused hI hi hp hf ((failureExhausted_iff hI.module).mpr hused.symm)⟩
  have hroster := hI.module.rosterIndex_eq hi hp
  have hex : ¬ w.module.failureExhausted p := by
    rw [failureExhausted_iff hI.module]
    omega
  have hcall : w.call (.providerFailed p) =
      some (.failed .applied (w.module.failureFacts p), w.setModule (w.module.failProvider p i)) := by
    dsimp only [World.call]
    rw [providerFailed_roster hI.module hi hp, if_neg (by simp [hf]), if_neg hex]
  refine ⟨_, hcall, failProvider_effect hI.module hroster hf hex, fun u hlater => ?_⟩
  have hw' := reachable_call h hd hcall
  have hentry := failProvider_providers w.module p i i
  rw [if_pos rfl] at hentry
  -- the entry written by the report is the one found now
  obtain ⟨hu, hfrozen⟩ := World.Later.keeps
    (I := fun u => u.module.providers i = (w.module.failProvider p i).providers i) hw' hlater rfl
    fun u c r v huI hdoes he => (hdoes.frozen huI (by rw [he, hentry])).trans he
  have hgrow := (run_grows hw' hlater).2
  have hIu := world_inv hu
  have hiu : i < u.module.providerCount := by
    rw [hgrow.providerCount]
    exact (failProvider_resetTo hI.module p i).providerCount ▸ hi
  have hhandle : (u.module.providers i).handle = p := by rw [hfrozen, hentry]; exact hp
  have hfailed : (u.module.providers i).failed = true := by rw [hfrozen, hentry]
  have hinvalid : u.module.providerValid p = false := by
    refine Bool.eq_false_iff.mpr fun hv => ?_
    have hv' := hgrow.valid hv
    rw [World.setModule, failProvider_invalid hI.module hroster] at hv'
    cases hv'
  refine ⟨?_, fun c r v hc => (call_does hIu hc).not_actsOn hIu hinvalid, fun k hk hheld => ?_⟩
  · dsimp only [World.call]
    rw [providerFailed_roster hIu.module hiu hhandle, if_pos hfailed, hfrozen, hentry]
    rfl
  · have hv := (hIu.module.chunk k hk).provider hheld.1
    rw [hheld.2, hinvalid] at hv
    cases hv

/-- The Provider of a mapped chunk fails: the chunk is unmapped and its sectors are invalid. -/
theorem providerFailure_exact_mapped : ∃ w w' : World, (w.module.chunks 0).state = .mapped ∧
    (w.module.chunks 0).provider = ⟨1, 1⟩ ∧ FailureEffect ⟨1, 1⟩ w w' ∧
    (w'.module.chunks 0).state = .unmapped := by
  obtain ⟨w, hw, hd, hi, hf, hh, ht, hg, hn, hs, hp⟩ :
      ∃ w, chunkSystem.exec backedWorld backedCalls = some w ∧ w.destroyed = false ∧
      0 < w.module.providerCount ∧ (w.module.providers 0).failed = false ∧
      (w.module.providers 0).handle = ⟨1, 1⟩ ∧ w.module.nextTransitionGeneration ≠ idMax ∧
      w.module.nextMappingGeneration = 1 ∧ w.module.chunkCount = 3 ∧ (w.module.chunks 0).state = .mapped ∧
      (w.module.chunks 0).provider = ⟨1, 1⟩ := ⟨_, rfl, by decide⟩
  have haff :
      (w.module.failureFacts (w.module.providers 0).handle).affectedChunks ≤ w.module.chunkCount :=
    Nat.count_le _
  obtain ⟨w', -, heffect, -⟩ :=
    (providerFailure_exact (System.reachable_of_exec (.init backedWorld_fresh) hw) hd hi hf).1 ht
    (by rw [hg]; unfold idMax; omega)
  rw [hh] at heffect
  exact ⟨w, w', hs, hp, heffect, (heffect.unmapped 0 (by omega) ⟨by simp [hs], hp⟩).1⟩

/-- With the mapping generations used up, the report that the Provider of a mapped chunk failed is
refused and the chunk stays mapped. -/
theorem failure_report_exhausted : ∃ w : World, chunkSystem.Reachable w ∧ w.destroyed = false ∧
    0 < w.module.providerCount ∧ (w.module.providers 0).failed = false ∧ 1 < w.module.chunkCount ∧
    (w.module.chunks 1).state = .mapped ∧ (w.module.chunks 1).provider = (w.module.providers 0).handle ∧
    w.call (.providerFailed (w.module.providers 0).handle) = some (.failed .exhausted {}, w) := by
  obtain ⟨mapped, a, e, t, w, h, -, hm⟩ := exists_exhausted
  have hI := world_inv h.reachable
  obtain ⟨hs, hp, -⟩ := h.placed 1 (.inl rfl) hm
  have hhandle : (w.module.providers 0).handle = ⟨1, 1⟩ := by rw [h.entry]; rfl
  have hi : 0 < w.module.providerCount := by rw [h.providers]; decide
  have hn : 1 < w.module.chunkCount := by rw [h.count]; decide
  have haff : (w.module.failureFacts ⟨1, 1⟩).affectedChunks ≠ 0 := fun h0 =>
    count_eq_zero_iff.mp h0 1 hn ⟨⟨by simp [hs], hp⟩, rfl⟩
  have hex : w.module.failureExhausted ⟨1, 1⟩ := by
    rw [failureExhausted_iff hI.module, h.nextGeneration]
    unfold idMax
    omega
  have hf : (w.module.providers 0).failed = false := by rw [h.entry]; rfl
  refine ⟨w, h.reachable, h.destroyed, hi, hf, hn, hs, hp.trans hhandle.symm, ?_⟩
  exact report_refused hI hi rfl hf (hhandle ▸ hex)

end RemoteChunk
end Infiniswap
