/-
# Planning a Remote-Only reservation

A Remote-Only device is reserved chunk by chunk: each request for the next
mapping claims the lowest unmapped chunk for a Provider with capacity left, and
the plan is complete when every chunk is mapped. The first claim needs the
Providers to offer enough for the whole device together. From there on a claim
takes one chunk off what is unmapped and at most one off what is offered, a
commit takes nothing off either, so what is offered stays enough (`Covered`)
and the plan cannot run out of capacity on its way.
-/
import Infiniswap.RemoteChunk.Capacity
import Infiniswap.RemoteChunk.Shutdown

namespace Infiniswap
namespace RemoteChunk

open ChunkModule Transition Counting

namespace ChunkModule

variable {m m' : ChunkModule}

/-! ### The answers of one request -/

variable {draws : ℕ → ℕ} {w w' : World} {c : Call} {r : Reply}

theorem placeChunk_result (draws : ℕ → ℕ) (remoteOnly : Bool) (k : ℕ) :
    (m.placeChunk draws remoteOnly k).1 ∈
      [NextMappingResult.request, .shutdown, .claimActive, .invalidInput] := by
  unfold placeChunk
  dsimp only
  split
  · split_ifs <;> simp
  · simp

/-- **A plan is complete** when no claim is active, every live Provider was observed and all chunks
are mapped. -/
theorem nextMapping_complete (hI : m.Inv) (hm : m.mode = .remoteOnly) (hq : m.quiescing = false)
    (draws : ℕ → ℕ) :
    (m.nextMapping draws).1 = .complete ↔ m.activeMappingClaims = 0 ∧
      (∀ i < m.providerCount, (m.providers i).failed = false → (m.providers i).hasObservation = true) ∧
      ∀ k < m.chunkCount, (m.chunks k).state = .mapped := by
  have husable : m.usableChunks = m.chunkCount ↔ ∀ k < m.chunkCount, (m.chunks k).state = .mapped := by
    rw [hI.usable]
    exact Nat.count_iff_forall
  have hpending : (∃ i < m.providerCount, m.providerPending i = true) ↔
      ¬ ∀ i < m.providerCount, (m.providers i).failed = false →
        (m.providers i).hasObservation = true := by
    simp [providerPending]
  rw [← husable]
  have hro : decide (m.mode = .remoteOnly) = true := decide_eq_true hm
  unfold nextMapping
  dsimp only
  rw [if_neg (by simp [hq]), hro]
  by_cases hc : m.activeMappingClaims = 0
  · rw [if_neg (not_not_intro hc)]
    by_cases hp : ∃ i < m.providerCount, m.providerPending i = true
    · rw [if_pos (by simpa using hp)]
      exact ⟨nofun, fun h => absurd h.2.1 (hpending.mp hp)⟩
    · rw [if_neg (by simpa using hp)]
      by_cases hu : m.usableChunks = m.chunkCount
      · rw [if_pos (by simpa using hu)]
        exact ⟨fun _ => ⟨hc, not_not.mp fun h => hp (hpending.mpr h), hu⟩, fun _ => rfl⟩
      · rw [if_neg (by simpa using hu)]
        refine ⟨fun h => ?_, fun h => absurd h.2.2 hu⟩
        exfalso
        split at h
        · cases h
        · split at h
          · cases h
          split at h
          · split at h <;> cases h
          · have hr := placeChunk_result (m := m) draws true ‹ℕ›
            rw [h] at hr
            simp at hr
  · rw [if_pos hc]
    exact ⟨nofun, fun h => absurd h.1 hc⟩

/-- **A claim names the lowest unmapped chunk**, and the first one needs capacity for the whole device. -/
theorem nextMapping_request (hm : m.mode = .remoteOnly) (h : (m.nextMapping draws).1 = .request) :
    (∃ request, (m.nextMapping draws).2.1 = some request ∧ request.logicalChunk < m.chunkCount ∧
      (m.chunks request.logicalChunk).state = .unmapped ∧
      ∀ j < request.logicalChunk, (m.chunks j).state ≠ .unmapped) ∧
    (m.assignedChunks = 0 → m.chunkCount ≤ m.aggregateAvailable) := by
  have hro : decide (m.mode = .remoteOnly) = true := decide_eq_true hm
  unfold nextMapping at h ⊢
  dsimp only at h ⊢
  rw [hro] at h ⊢
  split at h
  · cases h
  split at h
  · cases h
  split at h
  · cases h
  split at h
  · cases h
  rename_i hq hc hp hu
  rw [if_neg hq, if_neg hc, if_neg hp, if_neg hu]
  split at h
  · cases h
  rename_i k hfind
  split at h
  · cases h
  rename_i hagg
  split at h
  · split at h <;> cases h
  rename_i hne
  rw [if_neg hagg, if_neg hne]
  refine ⟨?_, fun h0 => ?_⟩
  · obtain ⟨hk, hlt, hlow⟩ := List.find?_range_eq_some.mp hfind
    simp only [mappingCandidate, Bool.true_or, Bool.and_true, decide_eq_true_eq] at hk hlow
    unfold placeChunk at h ⊢
    dsimp only at h ⊢
    split at h
    · split_ifs at h
    · refine ⟨_, rfl, List.mem_range.mp hlt, hk, fun j hj hs => ?_⟩
      have := hlow j hj
      simp [hs] at this
  · simpa [h0] using hagg

theorem nextMapping_shortage (hI : m.Inv) (hm : m.mode = .remoteOnly)
    (h : (m.nextMapping draws).1 = .insufficientCapacity ∨
      (m.nextMapping draws).1 = .noEligibleCapacity) :
    (∀ k < m.chunkCount, (m.chunks k).state = .unmapped) ∨
      m.eligibleProviders = [] ∧ ∃ k < m.chunkCount, (m.chunks k).state = .unmapped := by
  have hro : decide (m.mode = .remoteOnly) = true := decide_eq_true hm
  unfold nextMapping at h
  dsimp only at h
  rw [hro] at h
  split at h
  · simp at h
  split at h
  · simp at h
  rename_i hc
  split at h
  · simp at h
  split at h
  · simp at h
  split at h
  · simp at h
  rename_i k hfind
  split at h
  · -- no claim is active and no chunk is assigned
    rename_i hagg
    simp only [Bool.true_and, Bool.and_eq_true, beq_iff_eq, decide_eq_true_eq] at hagg
    left
    intro j hj
    have hnone : m.NoClaim := by
      rcases hI.claim with hn | ⟨i, hi⟩
      · exact hn
      · exact absurd (hi.count.symm.trans (not_not.mp hc)) (by decide)
    have hassigned := count_eq_zero_iff.mp (hI.assigned.symm.trans hagg.1) j hj
    have hmapping := hnone.mapping j hj
    cases hs : (m.chunks j).state <;> simp_all [Chunk.assigned]
  split at h
  · rename_i hne
    obtain ⟨hk, hlt, -⟩ := List.find?_range_eq_some.mp hfind
    simp only [mappingCandidate, Bool.true_or, Bool.and_true, decide_eq_true_eq] at hk
    exact .inr ⟨hne, k, List.mem_range.mp hlt, hk⟩
  · have hr := placeChunk_result (m := m) draws true k
    rcases h with h | h <;> rw [h] at hr <;> simp at hr

/-! ### Offered capacity against unmapped chunks -/

/-- The chunks still to be mapped. -/
def unmapped (m : ChunkModule) : ℕ := Nat.count (fun k => (m.chunks k).state = .unmapped) m.chunkCount

/-- Each further debit takes at most one chunk off what an observation offers. -/
theorem reconcileAvailable_add (reported observed current debits : ℕ) :
    reconcileAvailable reported observed current ≤
      reconcileAvailable reported observed (current + debits) + debits := by
  unfold reconcileAvailable
  dsimp only
  split_ifs <;> omega

/-- So further debits take at most their sum off what a roster offers together. -/
theorem aggregateAvailable_add (hp : m'.providers = m.providers)
    (hn : m'.providerCount = m.providerCount) (further : ℕ → ℕ)
    (h : ∀ i < m.providerCount, m'.debits (m.providers i).handle =
      m.debits (m.providers i).handle + further i) :
    m.aggregateAvailable ≤ m'.aggregateAvailable + ∑ i ∈ Finset.range m.providerCount, further i := by
  unfold aggregateAvailable
  rw [hn, hp, ← Finset.sum_add_distrib]
  refine Finset.sum_le_sum fun i hi => ?_
  have hd := h i (Finset.mem_range.mp hi)
  unfold providerEffectiveAvailable
  rw [show m'.providerAssigned _ + m'.providerMapping _ = _ from hd]
  split_ifs
  · exact Nat.zero_le _
  · exact reconcileAvailable_add _ _ _ _
  · exact Nat.zero_le _

/-- Capacity that is offered is offered by an eligible Provider. -/
theorem eligible_of_aggregate (h : m.aggregateAvailable ≠ 0) : m.eligibleProviders ≠ [] := by
  intro hnil
  refine h (Finset.sum_eq_zero fun i hi => ?_)
  have hnot := List.filter_eq_nil_iff.mp hnil i (List.mem_range.mpr (Finset.mem_range.mp hi))
  by_cases hlive : (!(m.providers i).failed && (m.providers i).hasObservation) = true
  · rw [if_pos hlive]
    simpa [hlive] using hnot
  · rw [if_neg hlive]

/-- A started plan: some chunk is taken and enough is offered for those that are not. -/
structure Covered (m : ChunkModule) : Prop where
  started : ∃ k < m.chunkCount, (m.chunks k).state ≠ .unmapped
  enough : m.unmapped ≤ m.aggregateAvailable

/-- A covered plan does not run out of capacity. -/
theorem Covered.no_shortage (hI : m.Inv) (hm : m.mode = .remoteOnly) (h : m.Covered) (draws : ℕ → ℕ) :
    (m.nextMapping draws).1 ≠ .insufficientCapacity ∧ (m.nextMapping draws).1 ≠ .noEligibleCapacity := by
  rw [← not_or]
  intro hshort
  obtain ⟨k, hk, hs⟩ := h.started
  rcases nextMapping_shortage hI hm hshort with hall | ⟨hnone, j, hj, hfree⟩
  · exact hs (hall k hk)
  · refine eligible_of_aggregate (fun h0 => ?_) hnone
    have hcount : m.unmapped = 0 := Nat.le_zero.mp (h0 ▸ h.enough)
    exact count_eq_zero_iff.mp hcount j hj hfree

end ChunkModule

/-! ### The plan over whole runs -/

/-- Calls that end the module's life. -/
def Call.closes : Call → Bool
  | .quiesce | .destroy => true
  | _ => false

/-- Calls that take from a plan what it counted on: a Provider's facts change, or a chunk is given
back. -/
def Call.disturbs : Call → Bool
  | .observe _ _ | .providerFailed _ | .mappingFinish _ .abort _ _ | .evictionFinish _ => true
  | _ => false

theorem Does.open (hI : WorldInv w) (h : Does w c r w') :
    w'.module.mode = w.module.mode ∧
      (c.closes = false → w'.module.quiescing = w.module.quiescing ∧ w'.destroyed = w.destroyed) := by
  cases h with
  | @refused _ _ m _ hm =>
    have hmode : m.facts.mode = w.module.facts.mode := by rw [hm]
    have hq : m.facts.quiescing = w.module.facts.quiescing := by rw [hm]
    exact ⟨hmode, fun _ => ⟨hq, rfl⟩⟩
  | quiesced | destroyRefused | destroyed => exact ⟨rfl, nofun⟩
  | committed _ hact hcl hs hg =>
    obtain ⟨_, g, -, rfl, -⟩ := commit_grant hI.module hact hcl hs hg
    exact ⟨rfl, fun _ => ⟨rfl, rfl⟩⟩
  | evictionFinished =>
    rw [World.setModule, finishEviction_frame]
    exact ⟨rfl, fun _ => ⟨rfl, rfl⟩⟩
  | @failed p i =>
    exact ⟨(failProvider_resetTo hI.module p i).mode, fun _ => ⟨(w.module.failProvider_frame p i).1, rfl⟩⟩
  | resolved =>
    rw [World.setLease, resolveValidity_eq]
    exact ⟨rfl, fun _ => ⟨rfl, rfl⟩⟩
  | _ => exact ⟨rfl, fun _ => ⟨rfl, rfl⟩⟩

theorem open_of_run (h : chunkSystem.Reach (fun _ c => c.closes = false) w) :
    w.module.quiescing = false ∧ w.destroyed = false := by
  refine System.Reach.invariant (I := fun w => w.module.quiescing = false ∧ w.destroyed = false)
    (fun w hw => ?_) (fun w c w' hr hopen hc hs => ?_) h
  · obtain ⟨⟨config, capacity, identity, now, handles, hcreate⟩, -, -, hd⟩ := hw
    obtain ⟨-, -, hm⟩ := moduleCreate_ok hcreate
    refine ⟨?_, hd⟩
    rw [hm]
    rfl
  · obtain ⟨r, -, hd⟩ := step_does (world_inv hr.reachable) hs
    obtain ⟨hq, hdest⟩ := (hd.open (world_inv hr.reachable)).2 hc
    exact ⟨hq.trans hopen.1, hdest.trans hopen.2⟩

theorem unmapped_of_no_claim (h : chunkSystem.Reachable w) (h0 : w.module.nextMappingClaimId = 0) :
    ∀ k < w.module.chunkCount, (w.module.chunks k).state = .unmapped := by
  refine System.Reach.invariant (I := fun w => w.module.nextMappingClaimId = 0 →
    ∀ k < w.module.chunkCount, (w.module.chunks k).state = .unmapped) (fun w hw _ k _ => ?_)
    (fun w c w' hr ih _ hs h0 k hk => ?_) h h0
  · obtain ⟨⟨config, capacity, identity, now, handles, hcreate⟩, -⟩ := hw
    obtain ⟨-, -, hm⟩ := moduleCreate_ok hcreate
    rw [hm]
    rfl
  · have hI := world_inv hr
    obtain ⟨r, -, hd⟩ := step_does hI hs
    have hg := hd.grows hI
    rw [hg.chunkCount] at hk
    have hfree := ih (Nat.le_zero.mp (h0 ▸ hg.mappingId)) k hk
    have hid := ((world_inv (.step hr trivial hs)).module.chunk k (hg.chunkCount ▸ hk)).mappingId_le
    cases hd.chunk hI hk with
    | same _ _ he => rw [he]; exact hfree
    | reserved _ _ he => rw [he, h0] at hid; exact absurd hid (Nat.not_succ_le_zero _)
    | aborted _ he => rw [he]
    | committed hst | evictionBegun hst => exact absurd (hfree.symm.trans hst) nofun
    | evicted _ _ _ _ he | failed _ _ _ he => rw [he]; rfl

/-- Beside reservations, an undisturbed plan keeps each chunk taken or free, and by whom. -/
theorem Does.undisturbed (hI : WorldInv w) (h : Does w c r w') (hc : c.disturbs = false)
    (hnext : ∀ draws, c ≠ .nextMapping draws) {k : ℕ} (hk : k < w.module.chunkCount) :
    ((w'.module.chunks k).state = .unmapped ↔ (w.module.chunks k).state = .unmapped) ∧
      (w'.module.chunks k).provider = (w.module.chunks k).provider := by
  cases h.chunk hI hk with
  | same _ _ he => rw [he]; exact ⟨Iff.rfl, rfl⟩
  | reserved => exact absurd rfl (hnext _)
  | committed hst _ he | evictionBegun hst he => rw [he]; simp [hst]
  | aborted | evicted | failed => cases hc

theorem Does.roster_undisturbed (hI : WorldInv w) (h : Does w c r w') (hc : c.disturbs = false) :
    w'.module.providers = w.module.providers := by
  funext i
  cases h.roster hI i with
  | same he => exact he
  | observed | failed => cases hc

/-- **A claim keeps a plan covered**: one chunk fewer is unmapped, and one debit more is counted. -/
theorem ChunkModule.Covered.reserve {m : ChunkModule} (hI : m.Inv) {i k rng : ℕ}
    (hk : k < m.chunkCount) (hs : (m.chunks k).state = .unmapped)
    (henough : m.unmapped ≤ m.aggregateAvailable) (hi : i < m.providerCount) :
    ((m.setPlacementRng rng).reserveChunk (m.providers i).handle k).Covered := by
  set m' := (m.setPlacementRng rng).reserveChunk (m.providers i).handle k with hm'
  have hset : ∀ j, m'.chunks j = if j = k then _ else m.chunks j := fun _ => rfl
  refine ⟨⟨k, hk, by rw [set_self hset]; nofun⟩, ?_⟩
  have hback : ∀ j, m.chunks j = if j = k then m.chunks k else m'.chunks j := by
    intro j
    by_cases hj : j = k
    · rw [if_pos hj, hj]
    · rw [if_neg hj, set_other hset hj]
  have hfewer : m.unmapped = m'.unmapped + 1 :=
    count_set_succ (P := fun c => c.state = .unmapped) hback rfl hk (by rw [set_self hset]; nofun) hs
  have hdebits : ∀ j < m.providerCount, m'.debits (m.providers j).handle =
      m.debits (m.providers j).handle + if j = i then 1 else 0 := by
    intro j hj
    rw [debits_eq, debits_eq]
    have h0 : ¬ held (m.providers j).handle (m.chunks k) := fun hh => hh.1 hs
    by_cases hji : j = i
    · rw [if_pos hji, hji]
      exact count_set_succ (P := held (m.providers i).handle) hset rfl hk (hji ▸ h0) ⟨nofun, rfl⟩
    · rw [if_neg hji]
      refine count_set_same (P := held (m.providers j).handle) hset rfl
        ⟨fun hh => absurd hh.2 fun he => hji ?_, fun hh => absurd hh h0⟩
      have he' : (m.providers i).handle = (m.providers j).handle := he
      rw [hI.handle i hi, hI.handle j hj] at he'
      simpa using (congrArg ProviderHandle.word1 he').symm
  have hroster : m'.providers = m.providers := rfl
  have hoffer := aggregateAvailable_add hroster rfl _ hdebits
  rw [Finset.sum_ite_eq' (Finset.range m.providerCount) i fun _ => 1,
    if_pos (Finset.mem_range.mpr hi)] at hoffer
  omega

/-- **An undisturbed plan stays covered.** -/
theorem Does.covered (hI : WorldInv w) (h : Does w c r w') (hc : c.disturbs = false)
    (hcov : w.module.Covered) : w'.module.Covered := by
  have hg := h.grows hI
  have hroster := h.roster_undisturbed hI hc
  by_cases hnext : ∀ draws, c ≠ .nextMapping draws
  · -- nothing is taken or given back
    have hsame : ∀ k < w.module.chunkCount, _ := fun k hk => h.undisturbed hI hc hnext hk
    obtain ⟨k, hk, hs⟩ := hcov.started
    refine ⟨⟨k, hg.chunkCount ▸ hk, fun hf => hs ((hsame k hk).1.mp hf)⟩, ?_⟩
    have hcount : w'.module.unmapped = w.module.unmapped := by
      unfold unmapped
      rw [hg.chunkCount]
      exact count_congr fun j hj => (hsame j hj).1
    have hoffer := aggregateAvailable_add hroster hg.providerCount (fun _ => 0) fun i _ => by
      rw [debits_eq, debits_eq, hg.chunkCount]
      exact count_congr fun j hj => by rw [held, held, ne_eq, (hsame j hj).1, (hsame j hj).2]
    rw [hcount]
    exact hcov.enough.trans (by simpa using hoffer)
  · push Not at hnext
    obtain ⟨draws, rfl⟩ := hnext
    cases h with
    | @refused _ _ m _ hm =>
      have hfacts : m.facts.Covered := by rw [hm]; exact ⟨hcov.started, hcov.enough⟩
      exact ⟨hfacts.started, hfacts.enough⟩
    | answered hq => cases hq
    | reserved _ hi _ _ hk hs =>
      exact .reserve hI.module hk hs hcov.enough (List.mem_range.mp (List.mem_filter.mp hi).1)

/-- A request from a device with no chunk assigned starts a covered plan. -/
theorem covered_of_first (hI : WorldInv w) (hm : w.module.mode = .remoteOnly)
    (hreq : (w.module.nextMapping draws).1 = .request) (h0 : w.module.assignedChunks = 0) :
    (w.module.nextMapping draws).2.2.Covered := by
  have henough : w.module.unmapped ≤ w.module.aggregateAvailable :=
    (Nat.count_le _).trans ((nextMapping_request hm hreq).2 h0)
  have hclaimed : ∀ {request w'}, Does w (.nextMapping draws) (.next .request request) w' →
      w'.module.Covered := by
    intro request w' hd
    cases hd with
    | refused hr | answered hr => cases hr
    | reserved _ hi _ _ hk hs =>
      exact .reserve hI.module hk hs henough (List.mem_range.mp (List.mem_filter.mp hi).1)
  have hd := nextMapping_does w hI.module draws
  rw [hreq] at hd
  exact hclaimed hd

/-- **Planning a Remote-Only reservation.** A request completes the plan exactly when no claim is active,
every live Provider was observed and all chunks are mapped. A claim names the lowest unmapped chunk. With
nothing assigned, as before the first claim, it needs capacity for the whole device, and from there on a
plan whose observations stay and whose claims are committed never runs out of capacity. -/
theorem remoteOnly_planning {w : World} (h : chunkSystem.Reach (fun _ c => c.closes = false) w)
    (hm : w.module.mode = .remoteOnly) (draws : ℕ → ℕ) :
    ((w.module.nextMapping draws).1 = .complete ↔ w.module.activeMappingClaims = 0 ∧
      (∀ i < w.module.providerCount, (w.module.providers i).failed = false →
        (w.module.providers i).hasObservation = true) ∧
      ∀ k < w.module.chunkCount, (w.module.chunks k).state = .mapped) ∧
    (w.module.nextMappingClaimId = 0 → w.module.assignedChunks = 0) ∧
    ((w.module.nextMapping draws).1 = .request →
      (∃ request, (w.module.nextMapping draws).2.1 = some request ∧
        request.logicalChunk < w.module.chunkCount ∧
        (w.module.chunks request.logicalChunk).state = .unmapped ∧
        ∀ j < request.logicalChunk, (w.module.chunks j).state ≠ .unmapped) ∧
      (w.module.assignedChunks = 0 → w.module.chunkCount ≤ w.module.aggregateAvailable ∧
        ∀ v, (chunkSystem.startAt (w.setModule (w.module.nextMapping draws).2.2)).Reach
            (fun _ c => c.disturbs = false) v →
          ∀ draws', (v.module.nextMapping draws').1 ≠ .insufficientCapacity ∧
            (v.module.nextMapping draws').1 ≠ .noEligibleCapacity)) := by
  have hI := world_inv h.reachable
  refine ⟨nextMapping_complete hI.module hm (open_of_run h).1 draws, fun hid => ?_, fun hreq => ?_⟩
  · rw [hI.module.assigned]
    exact count_eq_zero fun k hk => not_assigned_of_unmapped (unmapped_of_no_claim h.reachable hid k hk)
  obtain ⟨hlow, hfirst⟩ := nextMapping_request hm hreq
  refine ⟨hlow, fun h0 => ⟨hfirst h0, fun v hv draws' => ?_⟩⟩
  have hstart : chunkSystem.Reachable (w.setModule (w.module.nextMapping draws).2.2) :=
    reachable_call (c := .nextMapping draws) h.reachable (open_of_run h).2 rfl
  have hmode : (w.setModule (w.module.nextMapping draws).2.2).module.mode = .remoteOnly :=
    ((nextMapping_does w hI.module draws).open hI).1.trans hm
  obtain ⟨hr, hcov, hvm⟩ := System.Reach.invariant_from
    (I := fun u => u.module.Covered ∧ u.module.mode = .remoteOnly) hstart
    ⟨covered_of_first hI hm hreq h0, hmode⟩ (fun u c u' hu hinv hc hs => by
      obtain ⟨r, -, hd⟩ := step_does (world_inv hu) hs
      exact ⟨hd.covered (world_inv hu) hc hinv.1, (hd.open (world_inv hu)).1.trans hinv.2⟩) hv
  exact hcov.no_shortage (world_inv hr).module hvm draws'

/-- A Remote-Only device of two chunks and two Providers. -/
def pairConfig : Config :=
  { oneChunkConfig with chunkCount := 2, providers := [⟨"p", 1⟩, ⟨"q", 1⟩] }

/-- Each Provider has room for one chunk: the first request starts the plan. -/
theorem remoteOnly_planning_started : ∃ w, chunkSystem.Reach (fun _ c => c.closes = false) w ∧
    w.module.mode = .remoteOnly ∧ w.module.chunkCount = 2 ∧ w.module.nextMappingClaimId = 0 ∧
    (w.module.nextMapping fun _ => 0).1 = .request ∧ w.module.chunkCount ≤ w.module.aggregateAvailable ∧
    ∀ v, (chunkSystem.startAt (w.setModule (w.module.nextMapping fun _ => 0).2.2)).Reach
        (fun _ c => c.disturbs = false) v →
      ∀ draws', (v.module.nextMapping draws').1 ≠ .insufficientCapacity ∧
        (v.module.nextMapping draws').1 ≠ .noEligibleCapacity := by
  obtain ⟨w, hw, hm, hn, hid, hreq⟩ : ∃ w, chunkSystem.exec (createdWorld pairConfig)
      [.observe ⟨1, 1⟩ ⟨1, 1, .none, true⟩, .observe ⟨1, 2⟩ ⟨1, 1, .none, true⟩] = some w ∧
      w.module.mode = .remoteOnly ∧ w.module.chunkCount = 2 ∧ w.module.nextMappingClaimId = 0 ∧
      (w.module.nextMapping fun _ => 0).1 = .request := ⟨_, rfl, by decide⟩
  have hr : chunkSystem.Reach (fun _ c => c.closes = false) w :=
    System.reach_of_exec (.init (createdWorld_fresh (show pairConfig.validate 2 = .ok () by decide)))
      (by simp [Call.closes]) hw
  obtain ⟨-, hfree, hplan⟩ := remoteOnly_planning hr hm fun _ => 0
  obtain ⟨henough, hnever⟩ := (hplan hreq).2 (hfree hid)
  exact ⟨w, hr, hm, hn, hid, hreq, henough, hnever⟩

end RemoteChunk
end Infiniswap
