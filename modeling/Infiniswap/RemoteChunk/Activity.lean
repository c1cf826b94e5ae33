/-
# Hot Ranges

The activity of a chunk is a saturating sum over the history of the device. A
run is logged newest event first: the weight that was in force at each note of
an access, and the chunks of each completed eviction. A failed Provider leaves
the activity of its chunks as it was; an eviction forgets it.
-/
import Infiniswap.RemoteChunk.Stability

namespace Infiniswap
namespace RemoteChunk

open ChunkModule Transition

variable {w w' : World} {c : Call} {r : Reply} {log : List ActivityEvent} {k : ℕ}

/-- The weight of an access under the policy. -/
def HotPolicy.weight (policy : HotPolicy) (kind : ActivityKind) : ℕ :=
  if kind = .write then policy.writeWeight else policy.readWeight

/-- An event that decides the activity of chunks. -/
inductive ActivityEvent
  | noted (logicalStart chunkCount weight : ℕ)
  | evicted (chunks : List ℕ)

/-- The chunks that a completed eviction unmaps. -/
def ChunkModule.evictedBy (m : ChunkModule) (claim : EvictionClaim) : List ℕ :=
  (List.range m.chunkCount).filter fun i => (m.chunks i).evictionClaimId = claim.claimId

/-- The events of a call that replied `r`. -/
def callActivity (w : World) (c : Call) (r : Reply) : List ActivityEvent :=
  match c, r with
  | .noteActivity start count kind, .needed (.ok _) =>
    [.noted start count (w.module.hotPolicy.weight kind)]
  | .evictionFinish claim, .status (.ok ()) => [.evicted (w.module.evictedBy claim)]
  | _, _ => []

/-- The events of a step of a run. -/
def activityEvents (w : World) (c : Call) (_ : World) : List ActivityEvent :=
  match w.call c with
  | none => []
  | some (r, _) => callActivity w c r

/-- The sum of the weights noted for chunk `k` since its last completed eviction. -/
def activitySince (k : ℕ) : List ActivityEvent → ℕ
  | [] => 0
  | .noted start count weight :: log =>
    (if start ≤ k ∧ k < start + count then weight else 0) + activitySince k log
  | .evicted chunks :: log => if k ∈ chunks then 0 else activitySince k log

/-- The weights fit, and the activity of every chunk is what the log says. -/
structure ActivityLog (w : World) (log : List ActivityEvent) : Prop where
  policy : w.module.hotPolicy.valid = true
  activity : ∀ k < w.module.chunkCount,
    (w.module.chunks k).activity = min activityMax (activitySince k log)

/-! ### One call -/

theorem weight_le {policy : HotPolicy} (h : policy.valid = true) (kind : ActivityKind) :
    policy.weight kind ≤ activityMax := by
  simp only [HotPolicy.valid, Bool.and_eq_true, decide_eq_true_eq] at h
  have hmax : hotWeightMax ≤ activityMax := by decide
  unfold HotPolicy.weight
  split <;> omega

theorem noteActivity_eq {m m' : ChunkModule} {start count : ℕ} {kind : ActivityKind} {needed : Bool}
    (h : m.noteActivity start count kind = .ok (needed, m')) :
    m' = { m with chunks := fun i =>
      if start ≤ i ∧ i < start + count then addActivity (m.hotPolicy.weight kind) (m.chunks i)
        else m.chunks i } ∧
    start + count ≤ m.chunkCount ∧ m.mode = .backed ∧
    (needed = true ↔ ∃ i, start ≤ i ∧ i < start + count ∧ (m'.chunks i).state = .unmapped ∧
      m.hotPolicy.threshold ≤ (m'.chunks i).activity) := by
  unfold noteActivity at h
  split at h
  · cases h
  split at h
  · cases h
  split at h
  · cases h
  split at h
  · cases h
  rename_i hrange _ hmode
  cases h
  refine ⟨rfl, by omega, by simpa using hmode, ?_⟩
  rw [decide_eq_true_iff]
  constructor
  · rintro ⟨i, hlt, hle, hs, ha⟩
    exact ⟨i, hle, hlt, hs, ha⟩
  · rintro ⟨i, hle, hlt, hs, ha⟩
    exact ⟨i, hlt, hle, hs, ha⟩

theorem addActivity_min {weight sum : ℕ} {chunk : Chunk} (hw : weight ≤ activityMax)
    (h : chunk.activity = min activityMax sum) :
    (addActivity weight chunk).activity = min activityMax (weight + sum) := by
  unfold addActivity
  dsimp only
  split <;> omega

theorem activity_quiet (hI : WorldInv w) (h : Does w c r w') (hc : callActivity w c r = []) (k : ℕ) :
    (w'.module.chunks k).activity = (w.module.chunks k).activity := by
  cases h with
  | refused _ hm => rw [World.setModule, facts_chunks hm]
  | noted | evictionFinished => cases hc
  | @reserved _ _ j rng =>
    exact field_set_same (·.activity) (reserveChunk_chunks (m := w.module.setPlacementRng rng) _ j) rfl
  | aborted hact hclaim =>
    obtain ⟨j, hj⟩ := hI.module.claimed hclaim
    exact field_set_same (·.activity) (abortMapping_chunks hI.module hact hj) rfl
  | committed _ hact hclaim hs hg =>
    obtain ⟨j, g, hj, rfl, hgj, -⟩ := commit_grant hI.module hact hclaim hs hg
    exact field_set_same (·.activity) (commitMapping_chunks hgj) rfl
  | @evictionBegun p pcs selected =>
    show (if k < w.module.chunkCount ∧ k ∈ selected then _ else w.module.chunks k).activity = _
    split <;> rfl
  | @failed p i hi =>
    have hreset := failProvider_resetTo hI.module p i
    by_cases hheld : k < w.module.chunkCount ∧ held p (w.module.chunks k)
    · rw [World.setModule, hreset.chunk_in hheld.1 hheld.2]
      rfl
    · rw [World.setModule, hreset.chunks, if_neg hheld]
  | @leased request a j => exact field_set_same (·.activity) (grantLease_chunks request j) rfl
  | resolved => rw [World.setLease, resolveValidity_eq]
  | released => exact field_set_same (·.activity) (dropLease_chunks _) rfl
  | _ => rfl

/-- The policy is the one that was set last, and only a valid one is set. -/
theorem policy_valid (hI : WorldInv w) (hcall : w.call c = some (r, w'))
    (h : w.module.hotPolicy.valid = true) : w'.module.hotPolicy.valid = true := by
  cases call_does hI hcall with
  | refused _ hm =>
    have hp := congrArg (fun m => m.hotPolicy.valid) hm
    exact hp.trans h
  | @policySet policy =>
    dsimp only [World.call, hotPolicySet] at hcall
    split_ifs at hcall with hvalid hq
    · cases hcall
    · cases hcall
    · have hvalid : policy.valid = true := by simpa using hvalid
      exact hvalid
  | committed _ hact hclaim hs hg =>
    obtain ⟨_, g, -, rfl, -⟩ := commit_grant hI.module hact hclaim hs hg
    exact h
  | evictionFinished =>
    rw [World.setModule, finishEviction, resetWhere_frame]
    exact h
  | failed =>
    rw [World.setModule, failProvider, resetWhere_frame, failRecord_eq]
    exact h
  | resolved =>
    rw [World.setLease, resolveValidity_eq]
    exact h
  | _ => exact h

/-- **Every call keeps the activities and the log in agreement.** -/
theorem activityLog_step (hI : WorldInv w) (hcall : w.call c = some (r, w')) (h : ActivityLog w log) :
    ActivityLog w' (callActivity w c r ++ log) := by
  refine ⟨policy_valid hI hcall h.policy, fun k hk => ?_⟩
  rw [(call_config hI hcall).1] at hk
  have hk' := h.activity k hk
  have hdoes := call_does hI hcall
  have hquiet : callActivity w c r = [] →
      (w'.module.chunks k).activity = min activityMax (activitySince k (callActivity w c r ++ log)) := by
    intro hnil
    rw [activity_quiet hI hdoes hnil, hnil, List.nil_append, hk']
  cases hdoes with
  | @noted start count kind needed f =>
    simp only [callActivity, List.cons_append, List.nil_append, activitySince]
    dsimp only [World.call] at hcall
    split at hcall
    · cases hcall
    rename_i m' hnote
    cases hcall
    rw [(noteActivity_eq hnote).1]
    show (if start ≤ k ∧ k < start + count then addActivity _ (w.module.chunks k)
      else w.module.chunks k).activity = _
    split
    · exact addActivity_min (weight_le h.policy kind) hk'
    · rw [Nat.zero_add, hk']
  | @evictionFinished claim hv =>
    simp only [callActivity, List.cons_append, List.nil_append, activitySince, evictedBy, List.mem_filter,
      List.mem_range, decide_eq_true_eq]
    rw [World.setModule, (finishEviction_resetTo hv).chunks]
    split
    · rw [Nat.min_zero]
      rfl
    · exact hk'
  | refused hr =>
    apply hquiet
    unfold callActivity
    split
    · cases hr
    · cases hr
    · rfl
  | answered hc =>
    apply hquiet
    unfold callActivity
    split
    · cases hc
    · cases hc
    · rfl
  | _ => exact hquiet rfl

/-! ### Whole runs -/

theorem fresh_activityLog (h : w.Fresh) : ActivityLog w [] := by
  obtain ⟨⟨config, capacity, identity, now, handles, hcreate⟩, -⟩ := h
  obtain ⟨hv, -, hm⟩ := moduleCreate_ok hcreate
  refine ⟨?_, fun k _ => by rw [hm]; rfl⟩
  rw [hm]
  unfold Config.validate at hv
  split at hv
  · cases hv
  split at hv
  · cases hv
  rename_i hpolicy
  simpa [newModule] using hpolicy

/-- A chunk that is unmapped and hot is found by the next mapping. -/
theorem nextMapping_ne_noHotRange {m : ChunkModule} {i : ℕ} (hi : i < m.chunkCount)
    (hs : (m.chunks i).state = .unmapped) (ha : m.hotPolicy.threshold ≤ (m.chunks i).activity)
    (draws : ℕ → ℕ) : (m.nextMapping draws).1 ≠ .noHotRange := by
  have hcand : ∀ remoteOnly, m.mappingCandidate remoteOnly i = true := by
    intro remoteOnly
    simp [mappingCandidate, hs, ha]
  have hfound : ∀ remoteOnly, (List.range m.chunkCount).find? (m.mappingCandidate remoteOnly) ≠ none := by
    intro remoteOnly hnone
    exact absurd (hcand remoteOnly) (List.find?_eq_none.mp hnone i (List.mem_range.mpr hi))
  unfold nextMapping
  dsimp only
  split
  · simp
  split
  · simp
  split
  · simp
  split
  · simp
  split
  · rename_i hnone
    exact absurd hnone (hfound _)
  split
  · simp
  split
  · split <;> simp
  unfold placeChunk
  dsimp only
  split
  · split_ifs <;> simp
  · simp

/-- **Hot Ranges.** In every run the activity of a chunk is the smaller of the saturation bound and
the sum of the weights in force at the notes that cover it since its last completed eviction. A note
that is taken reports that a mapping is needed exactly if it leaves a chunk it covers unmapped at or
above the threshold, and then the next mapping does not say that there is no Hot Range. -/
theorem hotRange_accounting (h : (chunkSystem.logged activityEvents).Reachable (w, log)) :
    (∀ k < w.module.chunkCount, (w.module.chunks k).activity = min activityMax (activitySince k log)) ∧
    ∀ start count kind needed w',
      w.call (.noteActivity start count kind) = some (.needed (.ok needed), w') →
      (needed = true ↔ ∃ i, start ≤ i ∧ i < start + count ∧ (w'.module.chunks i).state = .unmapped ∧
        w'.module.hotPolicy.threshold ≤ (w'.module.chunks i).activity) ∧
      (needed = true → ∀ draws, (w'.module.nextMapping draws).1 ≠ .noHotRange) := by
  have hrun : chunkSystem.Reachable w ∧ ActivityLog w log := by
    refine System.logged_invariant (I := ActivityLog) (fun _ => fresh_activityLog) ?_ h
    intro w log c w' hw hlog hs
    have hI := world_inv hw
    obtain ⟨r, hcall, -⟩ := step_does hI hs
    rw [activityEvents, hcall]
    exact activityLog_step hI hcall hlog
  refine ⟨hrun.2.activity, fun start count kind needed w' hcall => ?_⟩
  dsimp only [World.call] at hcall
  split at hcall
  · cases hcall
  rename_i m' hnote
  cases hcall
  obtain ⟨hm, hrange, -, hneeded⟩ := noteActivity_eq hnote
  have hpolicy : m'.hotPolicy = w.module.hotPolicy := by rw [hm]
  have hcount : m'.chunkCount = w.module.chunkCount := by rw [hm]
  rw [World.setModule, hpolicy]
  refine ⟨hneeded, fun htrue draws => ?_⟩
  obtain ⟨i, -, hlt, hs, ha⟩ := hneeded.mp htrue
  exact nextMapping_ne_noHotRange (by omega) hs (hpolicy ▸ ha) draws

/-- Chunk 0 is mapped, noted again and evicted, and then noted once more: the last note alone counts. -/
theorem hotRange_accounting_evicted : ∃ w log, (chunkSystem.logged activityEvents).Reachable (w, log) ∧
    activitySince 0 log = 1 ∧ (w.module.chunks 0).activity = 1 := by
  obtain ⟨⟨w, log⟩, hx, hsince, hcount⟩ :
      ∃ x, (chunkSystem.logged activityEvents).exec (backedWorld, []) (backedCalls ++
        [.noteActivity 0 2 .read, .evictionBegin ⟨1, 1⟩ [0] {},
          .evictionFinish ⟨evictionMagic, 1, ⟨1, 1⟩, 1, 2, batchDigest (fun i => i = 0) 3, 1⟩,
          .noteActivity 0 1 .write]) = some x ∧
      activitySince 0 x.2 = 1 ∧ x.1.module.chunkCount = 3 := ⟨_, rfl, by decide⟩
  have hreach : (chunkSystem.logged activityEvents).Reachable (w, log) :=
    System.reachable_of_exec (.init (s := (backedWorld, [])) ⟨backedWorld_fresh, rfl⟩) hx
  have hactivity :=
    (hotRange_accounting hreach).1 0 (by rw [show w.module.chunkCount = 3 from hcount]; decide)
  rw [show activitySince 0 log = 1 from hsince] at hactivity
  exact ⟨w, log, hreach, hsince, hactivity⟩

end RemoteChunk
end Infiniswap
