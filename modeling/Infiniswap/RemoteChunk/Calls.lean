/-
# What each call does, with its reply

`Does w c r w'` lists the outcomes of a call `c` in the world `w`: refused with
nothing changed but diagnostics and the placement generator, answered without
an effect, or one of the module's transitions with the guards it passed. What
the module does over whole runs is proved from these cases.
-/
import Infiniswap.RemoteChunk.Defensive

namespace Infiniswap
namespace RemoteChunk

open ChunkModule Transition

variable {m m' : ChunkModule} {r : Reply} {p : ProviderHandle} {w' : World} {k : ℕ}

/-- The reply reports success. A wait that goes to sleep has not replied yet. -/
def Reply.succeeded : Reply → Bool
  | .status r => r.isOk
  | .observed r => r = .applied
  | .policy _ => true
  | .needed r => r.isOk
  | .next r _ => r = .request
  | .finished r => r = .committed || r = .aborted
  | .activity r => r.isOk
  | .begun r => r.isOk
  | .waited (.done r) => r.isOk
  | .waited .waiting => false
  | .failed r _ => r = .applied
  | .leased r => r.isOk
  | .resolved r => r.isOk
  | .snapshot r => r.isOk
  | .written => true

/-- The call answers without changing anything, if it does not sleep. -/
def Call.query : Call → Bool
  | .hotPolicySnapshot | .activityQuery _ _ | .evictionWait _ _ _ | .snapshot _ => true
  | _ => false

namespace ChunkModule

/-- The module without its invariant diagnostics and the state of the placement generator. -/
def facts (m : ChunkModule) : ChunkModule :=
  { m with invariantCount := 0, latestInvariant := .none, placementRngState := 0 }

theorem facts_chunks (h : m'.facts = m.facts) : m'.chunks = m.chunks := by
  have hc := congrArg chunks h
  exact hc

theorem facts_validSectors (h : m'.facts = m.facts) : m'.validSectors = m.validSectors := by
  have hv := congrArg validSectors h
  exact hv

/-- The roster entry an applied observation writes. -/
def observedProvider (m : ChunkModule) (i : ℕ) (p : ProviderHandle) (o : ProviderObservation) :
    Provider :=
  { m.providers i with
    reportedAvailableChunks := o.availableChunks
    observationAssignedChunks := m.providerAssigned p
    observationDebitedChunks := m.providerAssigned p + m.providerMapping p
    observationSequence := o.sequence
    exclusion := o.exclusion
    placementEligible := o.placementEligible
    hasObservation := true }

end ChunkModule

/-- The outcomes of a call. -/
inductive Does (w : World) : Call → Reply → World → Prop
  | refused {c} {r : Reply} {m : ChunkModule} (hr : r.succeeded = false) (hm : m.facts = w.module.facts) :
      Does w c r (w.setModule m)
  | answered {c} {r : Reply} (hc : c.query = true) : Does w c r w
  | quiesced (hq : w.module.quiescing = false) :
      Does w .quiesce (.status (.ok ())) (w.setModule { w.module with quiescing := true })
  | destroyRefused
      (hbusy : ¬ (w.module.activeMappingClaims = 0 ∧ w.module.activeEvictionClaims = 0 ∧
        w.module.activeEvictionWaits = 0 ∧ w.module.activeIoLeases = 0)) :
      Does w .destroy (.status (.error .ebusy))
        { w with
          module := ({ w.module with quiescing := true } : ChunkModule).noteInvariant .moduleDestroyActive
          destroyed := false }
  | destroyed (hmap : w.module.activeMappingClaims = 0) (hev : w.module.activeEvictionClaims = 0)
      (hwait : w.module.activeEvictionWaits = 0) (hl : w.module.activeIoLeases = 0) :
      Does w .destroy (.status (.ok ()))
        { w with module := { w.module with quiescing := true }, destroyed := true }
  | observed {p : ProviderHandle} {o} {i : ℕ} (hi : w.module.providerIndex p = some i)
      (hseq : (w.module.providers i).hasObservation = true →
        (w.module.providers i).observationSequence < o.sequence) :
      Does w (.observe p o) (.observed .applied)
        (w.setModule (w.module.setProvider i (w.module.observedProvider i p o)))
  | policySet {policy needed} :
      Does w (.hotPolicySet policy) (.needed (.ok needed))
        (w.setModule { w.module with hotPolicy := policy })
  | noted {start count : ℕ} {kind needed f}
      (hf : ∀ i, ∃ activity, f i = { w.module.chunks i with activity := activity }) :
      Does w (.noteActivity start count kind) (.needed (.ok needed))
        (w.setModule { w.module with chunks := f })
  | reserved {draws} {i k rng : ℕ} {pool} (hq : w.module.quiescing = false)
      (hi : i ∈ w.module.eligibleProviders)
      (hv : w.module.providerValid (w.module.providers i).handle = true)
      (hc : w.module.activeMappingClaims = 0) (hk : k < w.module.chunkCount)
      (hs : (w.module.chunks k).state = .unmapped) :
      Does w (.nextMapping draws) (.next .request (some ⟨(w.module.providers i).handle, pool, k,
          w.module.newMappingClaim (w.module.providers i).handle k⟩))
        (w.setModule ((w.module.setPlacementRng rng).reserveChunk (w.module.providers i).handle k))
  | aborted {c} (ha : w.module.mappingClaimActive c = true)
      (hc : w.module.activeMappingClaims ≠ 0) :
      Does w (.mappingFinish c .abort c.provider (.null 0)) (.finished .aborted)
        (w.setModule (w.module.abortMapping c))
  | committed {c gs} (hq : w.module.quiescing = false)
      (ha : w.module.mappingClaimActive c = true) (hc : w.module.activeMappingClaims ≠ 0)
      (hs : w.module.mappingGrantsShapeValid c (.array gs) = true)
      (hg : w.module.mappingGrantsAvailable c gs = true) :
      Does w (.mappingFinish c .commit c.provider (.array gs)) (.finished .committed)
        (w.setModule (w.module.commitMapping c gs))
  | evictionBegun {p : ProviderHandle} {pcs selected out} (hq : w.module.quiescing = false)
      (hm : w.module.mode = .backed) (hp : w.module.providerValid p = true) (hne : pcs ≠ [])
      (hsel : w.module.selectChunks p [] pcs = .ok selected)
      (hu : pcs.length ≤ w.module.usableChunks) :
      Does w (.evictionBegin p pcs out) (.begun (.ok (w.module.newEvictionClaim p selected pcs.length)))
        (w.setModule (w.module.beginEviction p selected pcs.length))
  | evictionFinished {c} (hv : w.module.evictionClaimValidate c = .ok ())
      (hd : w.module.evictionDrained c = true) :
      Does w (.evictionFinish c) (.status (.ok ())) (w.setModule (w.module.finishEviction c))
  | slept {c} {deadline now : ℕ} (hv : w.module.evictionClaimValidate c = .ok ()) :
      Does w (.evictionWait c deadline now) (.waited .waiting)
        { w with
          module := w.module.setEvictionWaits (w.module.activeEvictionWaits + 1)
          waiters := (c, deadline) :: w.waiters }
  | woke {i now : ℕ} {status} (hi : i < w.waiters.length) :
      Does w (.evictionWake i now) (.waited (.done status))
        { w with
          module := w.module.setEvictionWaits (w.module.activeEvictionWaits - 1)
          waiters := w.waiters.eraseIdx i }
  | failed {p : ProviderHandle} {i : ℕ} (hi : w.module.providerRosterIndex p = some i)
      (hf : (w.module.providers i).failed = false) (hg : ¬ w.module.failureExhausted p) :
      Does w (.providerFailed p) (.failed .applied (w.module.failureFacts p))
        (w.setModule (w.module.failProvider p i))
  | leased {request} {a k : ℕ} (hk : w.module.requestChunk request = .ok k)
      (hq : w.module.quiescing = false) (hprev : (w.leases a).magic = 0)
      (hs : (w.module.chunks k).state = .mapped)
      (hv : request.direction = .read →
        w.module.validityTest request.sector (request.bytes / sectorBytes) = true)
      (hmax : w.module.activeIoLeases ≠ u32Max) :
      Does w (.leaseAcquire request a) (.leased (.ok (w.module.transportMapping request.sector k)))
        (w.setLease (w.module.grantLease request k) a (w.module.newIoLease request a k))
  | resolved {a : ℕ} {outcome} (ho : w.module.Own a (w.leases a))
      (hr : (w.leases a).resolved = false) :
      Does w (.leaseResolve a outcome)
        (.resolved (.ok (if (w.module.chunks (w.leases a).logicalChunk).mappingGeneration =
          (w.leases a).mappingGeneration then .current else .stale)))
        (w.setLease (w.module.resolveValidity (w.leases a) outcome) a
          { w.leases a with state := (w.leases a).state ||| 1 })
  | released {a : ℕ} (hl : w.module.Live a (w.leases a)) (hr : (w.leases a).resolved = true)
      (hz : (w.module.chunks (w.leases a).logicalChunk).activeIoLeases ≠ 0) :
      Does w (.leaseRelease a) (.status (.ok ()))
        (w.setLease (w.module.dropLease (w.leases a).logicalChunk) a
        { w.leases a with state := (w.leases a).state ||| 2 })
  | written {a : ℕ} {content} (hlive : ¬ w.module.Live a (w.leases a))
      (hown : ¬ w.module.Own a content) :
      Does w (.writeCell a content) .written { w with leases := Function.update w.leases a content }

namespace Does

variable {w : World} {c : Call}

theorem same (hr : r.succeeded = false) : Does w c r w := .refused hr rfl

theorem sameCell (a : ℕ) (hr : r.succeeded = false) (hm : m.facts = w.module.facts) :
    Does w c r (w.setLease m a (w.leases a)) := by
  have hw : w.setLease m a (w.leases a) = w.setModule m := by
    rw [World.setLease, Function.update_eq_self]
    rfl
  exact hw ▸ .refused hr hm

end Does

/-! ### The outcomes of each operation -/

section Outcomes

variable (w : World)

theorem quiesce_does : Does w .quiesce (.status w.module.moduleQuiesce.1)
    (w.setModule w.module.moduleQuiesce.2) := by
  unfold moduleQuiesce
  split
  · exact .refused rfl rfl
  · rename_i hq
    exact .quiesced (Bool.eq_false_iff.mpr hq)

theorem destroy_does : Does w .destroy (.status w.module.moduleDestroy.1)
    { w with
      module := w.module.moduleDestroy.2, destroyed := decide (w.module.moduleDestroy.1 = .ok ()) } := by
  unfold moduleDestroy
  dsimp only
  split
  · rename_i h
    exact .destroyRefused fun h0 => by simp [h0] at h
  · rename_i h
    push Not at h
    exact .destroyed h.1 h.2.1 h.2.2.1 h.2.2.2

theorem observe_does (p : ProviderHandle) (o : ProviderObservation) :
    Does w (.observe p o) (.observed (w.module.providerObserve p o).1)
      (w.setModule (w.module.providerObserve p o).2) := by
  unfold providerObserve
  dsimp only
  split
  · exact .refused rfl rfl
  split
  · exact .refused rfl rfl
  split
  · exact .refused rfl rfl
  rename_i i hi
  split
  · exact .refused rfl rfl
  rename_i hlt
  split
  · refine .refused ?_ rfl
    split <;> rfl
  · rename_i heq
    exact .observed hi fun hobs => by
      have h1 : ¬ o.sequence < _ := fun h => hlt ⟨hobs, h⟩
      have h2 : o.sequence ≠ _ := fun h => heq ⟨hobs, h⟩
      omega

theorem noteActivity_ok {start count : ℕ} {kind : ActivityKind} {needed : Bool}
    (h : m.noteActivity start count kind = .ok (needed, m')) :
    ∃ f, (∀ i, ∃ activity, f i = { m.chunks i with activity := activity }) ∧
      m' = { m with chunks := f } := by
  unfold noteActivity at h
  split at h
  · cases h
  split at h
  · cases h
  split at h
  · cases h
  split at h
  · cases h
  cases h
  refine ⟨_, fun i => ?_, rfl⟩
  split
  · exact ⟨_, rfl⟩
  · exact ⟨(m.chunks i).activity, rfl⟩

theorem placeChunk_does (hI : w.module.Inv) (draws : ℕ → ℕ) (remoteOnly : Bool) (k : ℕ)
    (hne : w.module.eligibleProviders ≠ []) :
    Does w (.nextMapping draws) (.next (w.module.placeChunk draws remoteOnly k).1
      (w.module.placeChunk draws remoteOnly k).2.1)
        (w.setModule (w.module.placeChunk draws remoteOnly k).2.2) := by
  have hsample : w.module.placementSampleSize ≠ 0 := hI.sample fun h0 => by
    simp [eligibleProviders, h0] at hne
  have hmem := chooseProvider_mem draws hne hsample
  unfold placeChunk
  dsimp only
  split
  · refine .refused ?_ rfl
    split_ifs <;> rfl
  · rename_i hc
    obtain ⟨hq, hp, h0, hk, hs, rfl, rfl⟩ := mappingClaimCreate_ok hc
    exact .reserved hq hmem hp h0 hk hs

theorem nextMapping_does (hI : w.module.Inv) (draws : ℕ → ℕ) :
    Does w (.nextMapping draws) (.next (w.module.nextMapping draws).1 (w.module.nextMapping draws).2.1)
      (w.setModule (w.module.nextMapping draws).2.2) := by
  unfold nextMapping
  dsimp only
  split
  · exact .refused rfl rfl
  split
  · exact .refused rfl rfl
  split
  · exact .refused rfl rfl
  split
  · exact .refused rfl rfl
  split
  · refine .refused ?_ rfl
    split_ifs <;> rfl
  split
  · exact .refused rfl rfl
  split
  · refine .refused ?_ rfl
    split_ifs <;> rfl
  rename_i hne
  exact placeChunk_does w hI draws _ _ hne

theorem otherProviderResult_refuses (p : ProviderHandle) :
    (Reply.finished (w.module.otherProviderResult p)).succeeded = false := by
  unfold otherProviderResult
  split <;> rfl

theorem mappingFinishRepeated_refuses (c : MappingClaim) (action : MappingFinishAction)
    (p : ProviderHandle) (grants : GrantArg) :
    (Reply.finished (w.module.mappingFinishRepeated c action p grants)).succeeded = false := by
  unfold mappingFinishRepeated
  split
  · exact otherProviderResult_refuses w p
  split
  · rfl
  dsimp only
  generalize (if action = .commit then MappingTerminalAction.commit else .abort) = terminal
  split <;> rfl

theorem mappingFinishActive_does {c : MappingClaim} {action : MappingFinishAction}
    {grants : GrantArg} (ha : w.module.mappingClaimActive c = true)
    (hact : action = .commit ∨ action = .abort) (hnull : action = .abort → grants = .null 0) :
    Does w (.mappingFinish c action p grants)
      (.finished (w.module.mappingFinishActive c action p grants).1)
      (w.setModule (w.module.mappingFinishActive c action p grants).2) := by
  unfold mappingFinishActive
  split_ifs with h1 h2 h3 h4 h5 h6 h7
  · exact .refused (otherProviderResult_refuses w p) rfl
  iterate 3 exact .refused rfl rfl
  · obtain rfl := not_not.mp h1
    rw [hnull h5, h5]
    exact .aborted ha h4
  · exact .refused rfl rfl
  · exact .refused rfl rfl
  · obtain rfl := not_not.mp h1
    have hcommit : action = .commit := hact.resolve_right h5
    simp only [hcommit, true_and, Bool.not_eq_true', Bool.not_eq_false] at h2 h3
    rw [hcommit]
    cases grants with
    | null n => simp [mappingGrantsShapeValid] at h2
    | array gs => exact .committed (by simpa using h3) ha h4 h2 (by simpa [grantList] using h6)

theorem mappingFinish_does (c : MappingClaim) (action : MappingFinishAction) (p : ProviderHandle)
    (grants : GrantArg) :
    Does w (.mappingFinish c action p grants) (.finished (w.module.mappingFinish c action p grants).1)
      (w.setModule (w.module.mappingFinish c action p grants).2) := by
  unfold mappingFinish
  split_ifs with h1 h2 h3 h4 h5 h6 h7
  iterate 4 exact .refused rfl rfl
  · exact .refused (mappingFinishRepeated_refuses w c action p grants) rfl
  · exact .refused rfl rfl
  · exact .refused rfl rfl
  · refine mappingFinishActive_does w (by simpa using h7) ?_ fun h => not_not.mp fun hn => h2 ⟨h, hn⟩
    by_contra hne
    exact h3 ⟨fun h => hne (.inl h), fun h => hne (.inr h)⟩

theorem evictionWait_does (c : EvictionClaim) (deadline now : ℕ) {r : WaitResult}
    (h : w.module.evictionWaitBegin c deadline now = (r, m)) :
    (r = .waiting → Does w (.evictionWait c deadline now) (.waited .waiting)
      { w with module := m, waiters := (c, deadline) :: w.waiters }) ∧
    (∀ status, r = .done status →
      Does w (.evictionWait c deadline now) (.waited (.done status)) (w.setModule m)) := by
  unfold evictionWaitBegin at h
  split at h
  · cases h
    refine ⟨nofun, fun status hs => ?_⟩
    cases hs
    exact .refused rfl rfl
  split at h
  · cases h
    refine ⟨nofun, fun status hs => ?_⟩
    cases hs
    exact .refused rfl rfl
  rename_i hv
  split at h
  · cases h
    refine ⟨nofun, fun status hs => ?_⟩
    cases hs
    exact .refused rfl rfl
  unfold evictionWaitResume at h
  split at h
  · rename_i st _
    cases h
    refine ⟨nofun, fun status hs => ?_⟩
    cases hs
    -- the waiter that never slept is counted and taken off again
    cases st with
    | error e => exact .refused rfl rfl
    | ok => exact .answered rfl
  · cases h
    exact ⟨fun _ => .slept hv, nofun⟩

theorem evictionWake_does {c : EvictionClaim} {i deadline : ℕ} (now : ℕ) {r : WaitResult}
    (hi : w.waiters[i]? = some (c, deadline))
    (h : w.module.evictionWaitResume c deadline now = (r, m)) :
    (r = .waiting → Does w (.evictionWake i now) (.waited .waiting) (w.setModule m)) ∧
    (∀ status, r = .done status → Does w (.evictionWake i now) (.waited (.done status))
      { w with module := m, waiters := w.waiters.eraseIdx i }) := by
  have hlt : i < w.waiters.length := (List.getElem?_eq_some_iff.mp hi).1
  unfold evictionWaitResume at h
  split at h
  · cases h
    refine ⟨nofun, fun status hs => ?_⟩
    cases hs
    exact .woke hlt
  · cases h
    exact ⟨fun _ => .refused rfl rfl, nofun⟩

theorem evictionFinish_does (c : EvictionClaim) :
    Does w (.evictionFinish c) (.status (w.module.evictionFinish c).1)
      (w.setModule (w.module.evictionFinish c).2) := by
  unfold evictionFinish
  split
  · exact .refused rfl rfl
  · rename_i hv
    split_ifs with hd hov
    · exact .refused rfl rfl
    · exact .refused rfl rfl
    · exact .evictionFinished hv (by simpa using hd)

theorem providerFailed_does (p : ProviderHandle) :
    Does w (.providerFailed p) (.failed (w.module.providerFailed p).1 (w.module.providerFailed p).2.1)
      (w.setModule (w.module.providerFailed p).2.2) := by
  unfold providerFailed
  split
  · exact .refused rfl rfl
  split
  · exact .refused rfl rfl
  rename_i i hi
  split
  · exact .refused rfl rfl
  rename_i hf
  split
  · exact .refused rfl rfl
  · rename_i hg
    exact .failed hi (by simpa using hf) hg

theorem leaseResolve_does (a : ℕ) (outcome : IoOutcome) :
    Does w (.leaseResolve a outcome) (.resolved (w.module.ioLeaseResolve a (w.leases a) outcome).1)
      (w.setLease (w.module.ioLeaseResolve a (w.leases a) outcome).2.2 a
        (w.module.ioLeaseResolve a (w.leases a) outcome).2.1) := by
  unfold ioLeaseResolve
  split
  · exact .sameCell a rfl rfl
  split
  · exact .sameCell a rfl rfl
  rename_i hv
  split
  · exact .sameCell a rfl rfl
  · rename_i hr
    exact .resolved (own_of_validate hv) (by simpa using hr)

theorem leaseRelease_does (a : ℕ) :
    Does w (.leaseRelease a) (.status (w.module.ioLeaseRelease a (w.leases a)).1)
      (w.setLease (w.module.ioLeaseRelease a (w.leases a)).2.2 a
        (w.module.ioLeaseRelease a (w.leases a)).2.1) := by
  unfold ioLeaseRelease
  split
  · exact .sameCell a rfl rfl
  rename_i hv
  split
  · exact .sameCell a rfl rfl
  rename_i hrel
  split
  · exact .sameCell a rfl rfl
  rename_i hres
  split
  · exact .sameCell a rfl rfl
  rename_i hz
  push Not at hz
  exact .released ⟨own_of_validate hv, by simpa using hrel⟩ (by simpa using hres) hz.1

end Outcomes

variable {w : World} {c : Call}

/-- **Every call has one of these outcomes.** -/
theorem call_does {w w' : World} (hI : WorldInv w) (hc : w.call c = some (r, w')) :
    Does w c r w' := by
  cases c with
  | quiesce => cases hc; exact quiesce_does w
  | destroy => cases hc; exact destroy_does w
  | observe p o => cases hc; exact observe_does w p o
  | hotPolicySnapshot => cases hc; exact .answered rfl
  | hotPolicySet policy =>
    dsimp only [World.call, hotPolicySet] at hc
    split_ifs at hc
    · cases hc; exact .refused rfl rfl
    · cases hc; exact .refused rfl rfl
    · cases hc; exact .policySet
  | noteActivity start count kind =>
    dsimp only [World.call] at hc
    split at hc
    · cases hc; exact .same rfl
    · rename_i hs
      obtain ⟨f, hf, rfl⟩ := noteActivity_ok hs
      cases hc; exact .noted hf
  | nextMapping draws => cases hc; exact nextMapping_does w hI.module draws
  | mappingFinish claim action p grants => cases hc; exact mappingFinish_does w claim action p grants
  | activityQuery p pcs =>
    cases hc
    cases hq : w.module.providerActivityQuery p pcs with
    | error e => exact .same rfl
    | ok rows => exact .answered rfl
  | evictionBegin p pcs out =>
    dsimp only [World.call] at hc
    split at hc
    · cases hc; exact .same rfl
    · rename_i hs
      obtain ⟨hq, hm, hp, hne, hu, selected, hsel, rfl, rfl⟩ := evictionBegin_ok hs
      cases hc; exact .evictionBegun hq hm hp hne hsel hu
  | evictionWait claim deadline now =>
    dsimp only [World.call] at hc
    split at hc
    · rename_i hs
      cases hc; exact (evictionWait_does w claim deadline now hs).2 _ rfl
    · rename_i hs
      cases hc; exact (evictionWait_does w claim deadline now hs).1 rfl
  | evictionWake i now =>
    dsimp only [World.call] at hc
    split at hc
    · cases hc
    rename_i hi
    split at hc
    · rename_i hs
      cases hc; exact (evictionWake_does w now hi hs).2 _ rfl
    · rename_i hs
      cases hc; exact (evictionWake_does w now hi hs).1 rfl
  | evictionFinish claim => cases hc; exact evictionFinish_does w claim
  | providerFailed p => cases hc; exact providerFailed_does w p
  | leaseAcquire request a =>
    dsimp only [World.call] at hc
    split at hc
    · cases hc; exact .same rfl
    · rename_i hs
      obtain ⟨k, hk, hq, hprev, hst, hv, -, hmax, rfl, rfl, rfl⟩ := ioLeaseAcquire_ok hs
      cases hc; exact .leased hk hq hprev hst hv hmax
  | leaseResolve a outcome => cases hc; exact leaseResolve_does w a outcome
  | leaseRelease a => cases hc; exact leaseRelease_does w a
  | snapshot allocated =>
    cases hc
    cases hq : w.module.snapshotTake allocated with
    | error e => exact .same rfl
    | ok s => exact .answered rfl
  | writeCell a content =>
    dsimp only [World.call] at hc
    split at hc
    · cases hc
    · rename_i hn
      push Not at hn
      cases hc; exact .written hn.1 hn.2

theorem Does.step (hI : WorldInv w) (h : Does w c r w') :
    CallStep w c w' := by
  cases h with
  | @refused _ _ m _ hm =>
    have hcore : m.facts.core = w.module.facts.core := congrArg core hm
    have hwaits : m.facts.activeEvictionWaits = w.module.facts.activeEvictionWaits :=
      congrArg activeEvictionWaits hm
    exact .module (.quiet hcore hwaits)
  | answered => exact .refl
  | quiesced => exact .module (.quiet rfl rfl)
  | destroyRefused | destroyed =>
    refine .control ?_ _
    exact .quiet rfl rfl
  | observed => exact .module (.quiet (core_setProvider rfl rfl) rfl)
  | policySet => exact .module (.quiet rfl rfl)
  | noted hf =>
    refine .module (.quiet (core_activity fun i => ?_) rfl)
    obtain ⟨activity, hactivity⟩ := hf i
    rw [hactivity]
  | reserved _ _ hv hc hk hs => exact .module (.reserve _ _ hv hc hk hs rfl rfl)
  | aborted ha hc => exact .module (.abort _ ha hc)
  | committed _ ha hc hs hg => exact .module (.commit _ _ ha hc hs hg)
  | evictionBegun _ hm hp hne hsel hu => exact .module (.evictBegin _ _ _ hm hp hne hsel hu)
  | evictionFinished hv hd => exact .module (.evictFinish _ hv hd)
  | @slept claim deadline now _ =>
    have hs := CallStep.waits (w := w) (c := .evictionWait claim deadline now)
      ((claim, deadline) :: w.waiters)
    rwa [List.length_cons, ← hI.waits] at hs
  | @woke i now _ hi =>
    have hs := CallStep.waits (w := w) (c := .evictionWake i now) (w.waiters.eraseIdx i)
    rwa [List.length_eraseIdx_of_lt hi, ← hI.waits] at hs
  | failed hi hf hg => exact .module (.fail _ _ hi hf hg)
  | leased hk _ hprev hs hv hmax => exact .acquire hk hprev hs hv hmax
  | resolved ho hr => exact .resolve ho hr
  | released hl hr hz => exact .release hl hr hz
  | written hlive hown => exact .write hlive hown

/-- **Every call keeps the world's invariant.** -/
theorem call_inv (h : WorldInv w) (hc : w.call c = some (r, w')) :
    WorldInv w' := ((call_does h hc).step h).inv h

/-- The run lemma: the invariant holds in every reachable world. -/
theorem world_inv (h : chunkSystem.Reachable w) : WorldInv w := by
  refine System.Reach.invariant (S := chunkSystem) (fun w hw => fresh_inv hw) ?_ h
  intro s c t _ hI _ hs
  have hs' : (if s.destroyed then none else (s.call c).map Prod.snd) = some t := hs
  split at hs'
  · cases hs'
  · obtain ⟨⟨r, w'⟩, hcall, rfl⟩ := Option.map_eq_some_iff.mp hs'
    exact call_inv hI hcall

theorem step_does (hI : WorldInv w) (h : chunkSystem.step w c = some w') :
    ∃ r, w.call c = some (r, w') ∧ Does w c r w' := by
  have h' : (if w.destroyed then none else (w.call c).map Prod.snd) = some w' := h
  split at h'
  · cases h'
  · obtain ⟨⟨r, w''⟩, hcall, rfl⟩ := Option.map_eq_some_iff.mp h'
    exact ⟨r, hcall, call_does hI hcall⟩

theorem reachable_call (h : chunkSystem.Reachable w) (hd : w.destroyed = false)
    (hc : w.call c = some (r, w')) : chunkSystem.Reachable w' := by
  refine h.step (l := c) trivial ?_
  show (if w.destroyed then none else (w.call c).map Prod.snd) = some w'
  rw [if_neg (by simp [hd]), hc]
  rfl

theorem call_config (hI : WorldInv w) (h : w.call c = some (r, w')) :
    w'.module.chunkCount = w.module.chunkCount ∧ w'.module.identity = w.module.identity := by
  cases (call_does hI h).step hI with
  | control hs => exact ⟨(hs.evolves hI.module).chunkCount, (hs.evolves hI.module).identity⟩
  | waits | acquire => exact ⟨rfl, rfl⟩
  | @resolve a outcome =>
    exact ⟨by rw [World.setLease, resolveValidity_eq], by rw [World.setLease, resolveValidity_eq]⟩
  | release | write => exact ⟨rfl, rfl⟩

/-- The worlds differ in diagnostics and the placement generator only. -/
structure World.Same (w w' : World) : Prop where
  facts : w'.module.facts = w.module.facts
  leases : w'.leases = w.leases
  waiters : w'.waiters = w.waiters
  destroyed : w'.destroyed = w.destroyed

/-- **A call that does not report success leaves the world as it was**, but for a destroy and a wait
that sleeps or wakes up. -/
theorem Does.same_of_refused (h : Does w c r w') (hr : r.succeeded = false)
    (hdestroy : c ≠ .destroy) (hwake : ∀ i now, c ≠ .evictionWake i now)
    (hsleep : r ≠ .waited .waiting) : w.Same w' := by
  cases h with
  | refused _ hm => exact ⟨hm, rfl, rfl, rfl⟩
  | answered => exact ⟨rfl, rfl, rfl, rfl⟩
  | destroyRefused => exact absurd rfl hdestroy
  | slept => exact absurd rfl hsleep
  | woke => exact absurd rfl (hwake _ _)
  | _ => cases hr

/-! ### What only grows -/

/-- The configuration is kept, identifiers are never taken back and a failed Provider stays failed. -/
structure ChunkModule.Grows (m m' : ChunkModule) : Prop where
  chunkCount : m'.chunkCount = m.chunkCount
  providerCount : m'.providerCount = m.providerCount
  identity : m'.identity = m.identity
  handle : ∀ i, (m'.providers i).handle = (m.providers i).handle
  failed : ∀ i, (m.providers i).failed = true → (m'.providers i).failed = true
  mappingId : m.nextMappingClaimId ≤ m'.nextMappingClaimId
  evictionId : m.nextEvictionClaimId ≤ m'.nextEvictionClaimId
  leaseId : m.nextIoLeaseId ≤ m'.nextIoLeaseId

theorem ChunkModule.Grows.refl (m : ChunkModule) : m.Grows m :=
  ⟨rfl, rfl, rfl, fun _ => rfl, fun _ h => h, le_rfl, le_rfl, le_rfl⟩

theorem ChunkModule.Grows.trans {m'' : ChunkModule} (h : m.Grows m') (h' : m'.Grows m'') :
    m.Grows m'' :=
  ⟨h'.chunkCount.trans h.chunkCount, h'.providerCount.trans h.providerCount, h'.identity.trans h.identity,
    fun i => (h'.handle i).trans (h.handle i), fun i hf => h'.failed i (h.failed i hf),
    h.mappingId.trans h'.mappingId, h.evictionId.trans h'.evictionId, h.leaseId.trans h'.leaseId⟩

theorem ChunkModule.Grows.rosterIndex (h : m.Grows m') (p : ProviderHandle) :
    m'.providerRosterIndex p = m.providerRosterIndex p := by
  simp only [providerRosterIndex, h.providerCount, h.handle]

theorem ChunkModule.Grows.valid (h : m.Grows m') (hp : m'.providerValid p = true) :
    m.providerValid p = true := by
  obtain ⟨i, hi, hf⟩ := m'.providerValid_iff.mp hp
  refine m.providerValid_iff.mpr ⟨i, h.rosterIndex p ▸ hi, Bool.eq_false_iff.mpr fun hft => ?_⟩
  rw [h.failed i hft] at hf
  cases hf

theorem ChunkModule.Grows.of_facts (h : m'.facts = m.facts) : m.Grows m' := by
  have hg : m.Grows m.facts := { Grows.refl m with }
  rw [← h] at hg
  exact { hg with }

/-- One roster entry is replaced, under the same handle and not revived. -/
theorem ChunkModule.Grows.setProvider {i : ℕ} {p : Provider}
    (hh : p.handle = (m.providers i).handle) (hf : (m.providers i).failed = true → p.failed = true) :
    m.Grows (m.setProvider i p) := by
  refine { Grows.refl m with handle := fun j => ?_, failed := fun j hj => ?_ }
  · show (if j = i then p else m.providers j).handle = _
    by_cases hji : j = i
    · rw [if_pos hji, hh, hji]
    · rw [if_neg hji]
  · show (if j = i then p else m.providers j).failed = true
    by_cases hji : j = i
    · rw [if_pos hji]
      exact hf (hji ▸ hj)
    · rw [if_neg hji]
      exact hj

theorem Does.grows (hI : WorldInv w) (h : Does w c r w') :
    w.module.Grows w'.module := by
  have hrefl := Grows.refl w.module
  cases h with
  | refused _ hm => exact .of_facts hm
  | observed => exact .setProvider rfl id
  | reserved => exact { hrefl with mappingId := Nat.le_succ _ }
  | committed _ hact hc hs hg =>
    obtain ⟨_, g, -, rfl, -⟩ := commit_grant hI.module hact hc hs hg
    exact { hrefl with }
  | evictionBegun => exact { hrefl with evictionId := Nat.le_succ _ }
  | @evictionFinished claim hv _ =>
    have hreset := finishEviction_resetTo hv
    refine ⟨hreset.chunkCount, hreset.providerCount, hreset.identity, hreset.handle, fun i hf => ?_,
      hreset.mappingId.ge, hreset.evictionId.ge, hreset.leaseId.ge⟩
    rw [World.setModule, finishEviction_providers]
    exact hf
  | @failed p i hi hf _ =>
    have hreset := failProvider_resetTo hI.module p i
    refine ⟨hreset.chunkCount, hreset.providerCount, hreset.identity, hreset.handle, fun j hj => ?_,
      hreset.mappingId.ge, hreset.evictionId.ge, hreset.leaseId.ge⟩
    rw [World.setModule, failProvider_providers]
    by_cases hji : j = i
    · rw [if_pos hji]
    · rw [if_neg hji]
      exact hj
  | leased => exact { hrefl with leaseId := Nat.le_succ _ }
  | resolved => rw [World.setLease, resolveValidity_eq]; exact { hrefl with }
  | _ => exact { hrefl with }

/-- Along a run from a reachable world the module only grows. -/
theorem run_grows {C : World → Call → Prop} (hw : chunkSystem.Reachable w)
    (h : (chunkSystem.startAt w).Reach C w') :
    chunkSystem.Reachable w' ∧ w.module.Grows w'.module := by
  refine System.Reach.invariant_from (I := fun u => w.module.Grows u.module) hw (.refl _)
    (fun u c v hu hg _ hs => ?_) h
  obtain ⟨r, -, hd⟩ := step_does (world_inv hu) hs
  exact hg.trans (hd.grows (world_inv hu))

/-! ### What a call does to one roster entry -/

/-- The outcomes of a call for roster entry `i`, which is `entry'` afterwards. -/
inductive RosterStep (m : ChunkModule) (i : ℕ) (entry' : Provider) : Call → Reply → Prop
  | same {c : Call} {r : Reply} (h : entry' = m.providers i) : RosterStep m i entry' c r
  | observed {p : ProviderHandle} {o} (hi : m.providerIndex p = some i)
      (hseq : (m.providers i).hasObservation = true → (m.providers i).observationSequence < o.sequence)
      (h : entry' = m.observedProvider i p o) : RosterStep m i entry' (.observe p o) (.observed .applied)
  | failed {p : ProviderHandle} (hi : m.providerRosterIndex p = some i)
      (hf : (m.providers i).failed = false)
      (h : entry' = { m.providers i with
        failed := true, placementEligible := false, exclusion := .unhealthy,
        failureFacts := m.failureFacts p }) :
      RosterStep m i entry' (.providerFailed p) (.failed .applied (m.failureFacts p))

/-- **Every call does one of these things to a roster entry.** -/
theorem Does.roster (hI : WorldInv w) (h : Does w c r w') (i : ℕ) :
    RosterStep w.module i (w'.module.providers i) c r := by
  cases h with
  | @refused _ _ m _ hm =>
    have hp : m.facts.providers = w.module.facts.providers := by rw [hm]
    exact .same (congrFun hp i)
  | @observed p o j hj hseq =>
    by_cases hij : i = j
    · subst hij
      exact .observed hj hseq (if_pos rfl)
    · exact .same (if_neg hij)
  | committed _ hact hc hs hg =>
    obtain ⟨_, g, -, rfl, -⟩ := commit_grant hI.module hact hc hs hg
    exact .same rfl
  | evictionFinished => exact .same (by rw [World.setModule, finishEviction_providers])
  | @failed p j hj hf _ =>
    have hset := failProvider_providers w.module p j i
    by_cases hij : i = j
    · subst hij
      exact .failed hj hf (hset.trans (if_pos rfl))
    · exact .same (hset.trans (if_neg hij))
  | resolved => exact .same (by rw [World.setLease, resolveValidity_eq])
  | _ => exact .same rfl

/-- Only the report of its failure makes a valid Provider invalid. -/
theorem Does.invalidates (hI : WorldInv w) (h : Does w c r w')
    (hv : w.module.providerValid p = true) (hv' : w'.module.providerValid p = false) :
    c = .providerFailed p ∧ r.succeeded = true := by
  obtain ⟨i, hi, hf⟩ := w.module.providerValid_iff.mp hv
  have hgone : (w'.module.providers i).failed = true := by
    by_contra hne
    rw [providerValid_iff _ |>.mpr ⟨i, (h.grows hI).rosterIndex p ▸ hi, Bool.eq_false_iff.mpr hne⟩] at hv'
    cases hv'
  cases h.roster hI i with
  | same he => rw [he, hf] at hgone; cases hgone
  | observed _ _ he =>
    rw [he] at hgone
    exact absurd (hf.symm.trans hgone) (by decide)
  | @failed q hq _ _ =>
    have hpq : p = q :=
      (w.module.providerRosterIndex_some hi).2.symm.trans (w.module.providerRosterIndex_some hq).2
    exact ⟨by rw [hpq], rfl⟩

/-! ### What a call does to one chunk -/

/-- The outcomes of a call for chunk `k`, which is `chunk'` afterwards. -/
inductive ChunkStep (m m' : ChunkModule) (k : ℕ) (chunk' : Chunk) : Call → Reply → Prop
  | same {c : Call} {r : Reply} (activity leases : ℕ)
      (h : chunk' = { m.chunks k with activity := activity, activeIoLeases := leases }) :
      ChunkStep m m' k chunk' c r
  | reserved {draws} {r : Reply} (p : ProviderHandle) (hs : (m.chunks k).state = .unmapped)
      (h : chunk' = { m.chunks k with
        state := .mapping, provider := p, mappingClaimId := m.nextMappingClaimId + 1,
        transitionGeneration := m.nextTransitionGeneration + 1 }) :
      ChunkStep m m' k chunk' (.nextMapping draws) r
  | aborted {claim} {p : ProviderHandle} {grants}
      (hs : (m.chunks k).state = .mapping)
      (h : chunk' = { m.chunks k with
        provider := {}, mappingClaimId := 0, transitionGeneration := 0, state := .unmapped }) :
      ChunkStep m m' k chunk' (.mappingFinish claim .abort p grants) (.finished .aborted)
  | committed {claim} {p : ProviderHandle} {g}
      (hs : (m.chunks k).state = .mapping) (hg : g.logicalChunk = k)
      (h : chunk' = { m.chunks k with
        providerChunk := g.providerChunk, remoteAddress := g.remoteAddress, remoteKey := g.remoteKey,
        mappingGeneration := m.nextMappingGeneration + 1, mappingClaimId := 0, transitionGeneration := 0,
        state := .mapped }) :
      ChunkStep m m' k chunk' (.mappingFinish claim .commit p (.array [g])) (.finished .committed)
  | evictionBegun {p : ProviderHandle} {pcs out claim}
      (hs : (m.chunks k).state = .mapped)
      (h : chunk' = { m.chunks k with
        state := .evicting, evictionClaimId := m.nextEvictionClaimId + 1,
        transitionGeneration := m.nextTransitionGeneration + 1 }) :
      ChunkStep m m' k chunk' (.evictionBegin p pcs out) (.begun (.ok claim))
  | evicted {claim} (hv : m.evictionClaimValidate claim = .ok ())
      (hid : (m.chunks k).evictionClaimId = claim.claimId) (hl : (m.chunks k).activeIoLeases = 0)
      (generation : ℕ) (h : chunk' = resetChunk generation true (m.chunks k)) :
      ChunkStep m m' k chunk' (.evictionFinish claim) (.status (.ok ()))
  | failed {p : ProviderHandle} {facts} (hheld : held p (m.chunks k))
      (hp : m'.providerValid p = false) (generation : ℕ)
      (h : chunk' = resetChunk generation false (m.chunks k)) :
      ChunkStep m m' k chunk' (.providerFailed p) (.failed .applied facts)

theorem ChunkStep.of_eq {chunk' : Chunk} (h : chunk' = m.chunks k) :
    ChunkStep m m' k chunk' c r := .same _ _ h

/-- **Every call does one of these things to a chunk.** -/
theorem Does.chunk (hI : WorldInv w) (h : Does w c r w') (hk : k < w.module.chunkCount) :
    ChunkStep w.module w'.module k (w'.module.chunks k) c r := by
  cases h with
  | refused _ hm => exact .of_eq (congrFun (facts_chunks hm) k)
  | noted hf =>
    obtain ⟨activity, he⟩ := hf k
    exact .same activity _ he
  | @reserved _ i j rng _ _ _ _ _ _ hs =>
    by_cases hkj : k = j
    · subst hkj
      exact .reserved (w.module.providers i).handle hs (if_pos rfl)
    · exact .of_eq (if_neg hkj)
  | aborted hact hc =>
    obtain ⟨j, hj⟩ := hI.module.claimed hc
    have hset := abortMapping_chunks hI.module hact hj
    by_cases hkj : k = j
    · subst hkj
      exact .aborted ((hj.mapping k hk).mpr rfl) (set_self hset)
    · exact .of_eq (set_other hset hkj)
  | @committed claim gs _ hact hc hs hg =>
    obtain ⟨j, g, hj, rfl, hgj, -⟩ := commit_grant hI.module hact hc hs hg
    have hset := commitMapping_chunks (m := w.module) (c := claim) hgj
    by_cases hkj : k = j
    · subst hkj
      exact .committed ((hj.mapping k hk).mpr rfl) hgj (set_self hset)
    · exact .of_eq (set_other hset hkj)
  | @evictionBegun p pcs selected _ _ _ _ _ hsel _ =>
    by_cases hin : k ∈ selected
    · exact .evictionBegun ((batch_spec hsel).2.1 k hin).2.1 (beginEviction_in hk hin)
    · exact .of_eq (beginEviction_out hin)
  | @evictionFinished claim hv hd =>
    have hreset := finishEviction_resetTo hv
    by_cases hid : (w.module.chunks k).evictionClaimId = claim.claimId
    · simp only [evictionDrained, decide_eq_true_eq] at hd
      exact .evicted hv hid (hd k hk hid) _ (hreset.chunk_in hk hid)
    · exact .of_eq (hreset.chunk_out hid)
  | @failed p i hi _ _ =>
    have hreset := failProvider_resetTo hI.module p i
    by_cases hheld : held p (w.module.chunks k)
    · exact .failed hheld (failProvider_invalid hI.module hi) _ (hreset.chunk_in hk hheld)
    · exact .of_eq (hreset.chunk_out hheld)
  | @leased request a j _ _ _ _ _ _ =>
    by_cases hkj : k = j
    · subst hkj
      exact .same _ _ (if_pos rfl)
    · exact .of_eq (if_neg hkj)
  | resolved => exact .of_eq (by rw [World.setLease, resolveValidity_eq])
  | @released a _ _ _ =>
    by_cases hkj : k = (w.leases a).logicalChunk
    · rw [hkj]
      exact .same _ _ (if_pos rfl)
    · exact .of_eq (if_neg hkj)
  | _ => exact .of_eq rfl

/-! ### What a control call does to a mapping -/

/-- The mapping of chunk `k` and the validity of its sectors are as before. -/
structure ChunkModule.Kept (m m' : ChunkModule) (k : ℕ) : Prop where
  assigned : (m.chunks k).assigned
  generation : (m'.chunks k).mappingGeneration = (m.chunks k).mappingGeneration
  place : (m'.chunks k).place = (m.chunks k).place
  valid : ∀ s, s / sectorsPerChunk = k → m'.sectorValid s = m.sectorValid s

theorem ChunkModule.Kept.of_eq (hc : m'.chunks k = m.chunks k)
    (hv : m'.validSectors = m.validSectors) (ha : (m'.chunks k).assigned) : m.Kept m' k :=
  ⟨hc ▸ ha, by rw [hc], by rw [hc], fun s _ => by rw [sectorValid, hv]; rfl⟩

/-- A chunk that holds capacity after a reset held it before and was not reset. -/
theorem ChunkModule.ResetTo.kept {P : Chunk → Prop} [DecidablePred P] {ra : Bool}
    (h : ResetTo m m' P ra) (hk : k < m.chunkCount) (ha : (m'.chunks k).assigned) :
    m.Kept m' k := by
  obtain ⟨hp, hc⟩ := h.chunk_kept hk fun hs => not_assigned_of_unmapped hs ha
  refine ⟨hc ▸ ha, by rw [hc], by rw [hc], fun s hs => Bool.eq_iff_iff.mpr ?_⟩
  rw [h.valid s, hs]
  exact ⟨fun hv => hv.1, fun hv => ⟨hv, fun hn => hp hn.2⟩⟩

/-- **A chunk that holds capacity after a control call held it before, with the same mapping and
validity, unless the call committed its mapping.** -/
theorem Does.kept (hI : WorldInv w) (h : Does w c r w') (hcell : c.cell = none)
    (hk : k < w.module.chunkCount) (ha : (w'.module.chunks k).assigned) :
    w.module.Kept w'.module k ∨ ∃ claim g, c = .mappingFinish claim .commit claim.provider (.array [g]) ∧
      r = .finished .committed ∧ g.logicalChunk = k ∧
      ∀ s, s / sectorsPerChunk = k → w'.module.sectorValid s = false := by
  cases h with
  | refused hr hm => exact .inl (.of_eq (congrFun (facts_chunks hm) k) (facts_validSectors hm) ha)
  | answered hr | quiesced hq | destroyRefused hm | destroyed | observed hi hseq
  | policySet => exact .inl (.of_eq rfl rfl ha)
  | @noted _ _ _ _ f hf =>
    obtain ⟨activity, he⟩ := hf k
    have ha' : (f k).assigned := ha
    rw [he] at ha'
    refine .inl ⟨ha', ?_, ?_, fun _ _ => rfl⟩
    · show (f k).mappingGeneration = _
      rw [he]
    · show (f k).place = _
      rw [he]
      rfl
  | @reserved _ i j rng _ _ _ _ _ _ hs =>
    have hset := reserveChunk_chunks (m := w.module.setPlacementRng rng) (w.module.providers i).handle j
    by_cases hkj : k = j
    · subst hkj
      exact absurd ha (by rw [World.setModule, set_self hset]; exact not_assigned_of_mapping rfl)
    · exact .inl (.of_eq (set_other hset hkj) rfl ha)
  | aborted hact hc =>
    obtain ⟨j, hj⟩ := hI.module.claimed hc
    have hset := abortMapping_chunks hI.module hact hj
    by_cases hkj : k = j
    · subst hkj
      exact absurd ha (by rw [World.setModule, set_self hset]; exact not_assigned_of_unmapped rfl)
    · exact .inl (.of_eq (set_other hset hkj) rfl ha)
  | @committed claim gs _ hact hc hs hg =>
    obtain ⟨j, g, hj, rfl, hgj, -⟩ := commit_grant hI.module hact hc hs hg
    have hset := commitMapping_chunks (m := w.module) (c := claim) hgj
    have hvalid := sectorValid_of_updated w.module (w.module.commitMapping claim [g]) rfl
    simp only [mem_chunk_iff] at hvalid
    by_cases hkj : k = j
    · exact .inr ⟨claim, g, rfl, rfl, hgj.trans hkj.symm, fun s hs' => by
        rw [World.setModule, hvalid, if_pos (by rw [hs', hkj, hgj])]⟩
    · have hck := set_other hset hkj
      refine .inl
        ⟨hck ▸ ha, congrArg Chunk.mappingGeneration hck, congrArg Chunk.place hck, fun s hs' => ?_⟩
      rw [World.setModule, hvalid, if_neg (by rw [hs', hgj]; exact hkj)]
  | evictionBegun _ _ _ _ hsel _ =>
    obtain ⟨hg, -, hp, hiff⟩ := beginEviction_chunk hsel k
    exact .inl ⟨hiff.mp ha, hg, hp, fun _ _ => rfl⟩
  | evictionFinished hv _ => exact .inl ((finishEviction_resetTo hv).kept hk ha)
  | slept | woke => exact .inl (.of_eq rfl rfl ha)
  | failed hi _ _ => exact .inl ((failProvider_resetTo hI.module _ _).kept hk ha)
  | leased | resolved | released | written => cases hcell

end RemoteChunk
end Infiniswap
