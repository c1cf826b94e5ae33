/-
# The plan of a reconciliation

A reconciliation under pressure asks the Consumers for assigned chunks. Once they
have released as many, the Opportunistic Pool is within the target, provided that
nothing of it is in quarantine or that the idle chunks alone restore the Host Reserve.
A chunk in quarantine is allocated and cannot be freed, and the plan, which counts
assigned chunks only, does not make up for it.
-/
import Infiniswap.Memory.HostReserve

namespace Infiniswap
namespace Memory

open Counting Transition

variable {w w' : World} {c : Connection} {a : Adapters} {i : ℕ}

/-- A request of a Consumer to release chunks, and what the adapters answer during it. -/
structure PressureRelease where
  owner : Owner
  ids : List ℕ
  adapters : Adapters

/-- The Consumers release chunks for pressure, one request after the other; every request succeeds. -/
def World.releasesForPressure (w : World) : List PressureRelease → Option World
  | [] => some w
  | r :: rs =>
    match w.release (some r.owner) (some r.ids) (some .pressure) r.adapters with
    | (w, .ok) => releasesForPressure w rs
    | _ => none

/-- How many chunks the requests name. -/
def released (rs : List PressureRelease) : ℕ := (rs.map (·.ids.length)).sum

/-- **The plan is sufficient**: if the reconciliation succeeds and the Consumers release as many
chunks as it asks for, then the Opportunistic Pool is within its target. -/
def Restores (w : World) (a : Adapters) : Prop :=
  ∀ w' plan bytes target rs w'', w.reconcile a = some (w', .ok, plan) → a.available = some bytes →
    w.target bytes = some target → w'.releasesForPressure rs = some w'' →
    released rs = plan.assignedReclaimNeeded → w''.allocated .opportunistic ≤ target

/-! ### Releases -/

theorem pressure_releaseSlot (h : Accounted w) (hi : i < w.chunkCapacity)
    (howner : (w.chunks i).owner = some c.owner) (hpool : (w.chunks i).pool ≠ some .committed) :
    (w.releaseSlot c .pressure i).allocated .opportunistic + 1 = w.allocated .opportunistic ∧
      (w.releaseSlot c .pressure i).assigned .opportunistic + 1 = w.assigned .opportunistic := by
  obtain ⟨address, registration, adapter, pool, hchunk⟩ := (h.shape i).of_owner howner
  have hopportunistic : pool = .opportunistic := by
    rw [hchunk] at hpool
    cases pool with
    | opportunistic => rfl
    | committed => exact absurd rfl hpool
  subst hopportunistic
  have hassigned := (count_released .pressure hi hchunk c.owner .opportunistic).1
  rw [if_pos rfl, ← h.assigned] at hassigned
  have hle := h.assigned_le .opportunistic
  have hslot : w.releaseSlot c .pressure i =
      w.released c i address registration .opportunistic .pressure := by
    rw [World.releaseSlot, hchunk]
    rfl
  have hpositive : 0 < w.allocated .opportunistic := by omega
  have hallocated :
      (w.released c i address registration .opportunistic .pressure).allocated .opportunistic + 1 =
      w.allocated .opportunistic := allocated_released .pressure hpositive .opportunistic
  have haccounted := h.released .pressure hi hchunk
  rw [hslot]
  refine ⟨by simpa using hallocated, ?_⟩
  rw [haccounted.assigned]
  exact hassigned

theorem pressure_releaseSlots : ∀ {ids : List ℕ} {w : World}, Accounted w → Releasable w c ids →
    (∀ i ∈ ids, (w.chunks i).pool ≠ some .committed) →
    Accounted (w.releaseSlots c .pressure ids) ∧
      (w.releaseSlots c .pressure ids).allocated .opportunistic + ids.length = w.allocated .opportunistic
  | [], w, h, _, _ => ⟨h, rfl⟩
  | i :: ids, w, h, hr, hpool => by
    obtain ⟨hi, howner⟩ := hr.owned i List.mem_cons_self
    obtain ⟨hpi, hpool⟩ := List.forall_mem_cons.mp hpool
    have htail : ∀ j ∈ ids, ((w.releaseSlot c .pressure i).chunks j).pool ≠ some .committed := by
      intro j hj
      have hne : j ≠ i := ne_of_mem_of_not_mem hj (List.nodup_cons.mp hr.nodup).1
      rw [releaseSlot_chunks_ne hne]
      exact hpool j hj
    obtain ⟨h', hallocated⟩ :=
      pressure_releaseSlots (h.releaseSlot .pressure hi howner) (hr.tail .pressure) htail
    refine ⟨h', ?_⟩
    have hone := (pressure_releaseSlot h hi howner hpi).1
    rw [List.length_cons]
    change ((w.releaseSlot c .pressure i).releaseSlots c .pressure ids).allocated .opportunistic + _ = _
    omega

/-- **What the Consumers release is not allocated any more.** -/
theorem releasesForPressure_allocated : ∀ {rs : List PressureRelease} {w w' : World}, Accounted w →
    w.releasesForPressure rs = some w' →
    w'.allocated .opportunistic + released rs = w.allocated .opportunistic
  | [], _, _, _, hrun => by
    cases hrun
    rfl
  | r :: rs, w, w', h, hrun => by
    unfold World.releasesForPressure at hrun
    split at hrun
    · rename_i w₁ hrelease
      obtain ⟨c, hc, hcheck, rfl⟩ := release_ok h hrelease
      obtain ⟨-, -, howned⟩ := checkRelease_ok hcheck
      obtain ⟨h₁, hallocated⟩ := pressure_releaseSlots h (releasable_checked hc hcheck)
        fun i hi => (howned i hi).2.2 rfl
      have htail := releasesForPressure_allocated h₁ hrun
      rw [released, List.map_cons, List.sum_cons]
      rw [released] at htail
      omega
    · cases hrun

theorem release_single (h : Accounted w) (hi : i < w.chunkCapacity) {owner : Owner}
    (howner : (w.chunks i).owner = some owner) (hpool : (w.chunks i).pool ≠ some .committed)
    (hc : w.findConnection owner = some c) (hd : a.deregister i = true) :
    w.release (some owner) (some [i]) (some .pressure) a = (w.releaseSlot c .pressure i, .ok) := by
  have hcheck : w.checkRelease owner .pressure [] [i] = .ok () := by
    unfold World.checkRelease
    rw [if_neg (by push Not; exact ⟨hi, howner⟩), if_neg fun hprotected => hpool hprotected.2,
      if_neg (by simp)]
    rfl
  have hchunk := releaseChunk_of_owned (h.shape i) ((find_owner hc).2.symm ▸ howner) .pressure a
  rw [if_pos hd] at hchunk
  unfold World.release
  dsimp only
  rw [if_neg (by simp), hc]
  dsimp only
  rw [hcheck]
  dsimp only
  rw [World.releaseEach, hchunk]
  rfl

/-- **The Consumers can release any number of assigned chunks for pressure.** -/
theorem exists_releases : ∀ {n : ℕ} {w : World}, Accounted w → n ≤ w.assigned .opportunistic →
    ∃ rs w', w.releasesForPressure rs = some w' ∧ released rs = n
  | 0, w, _, _ => ⟨[], w, rfl, rfl⟩
  | n + 1, w, h, hn => by
    -- some slot holds an assigned chunk
    obtain ⟨i, hi, hassigned⟩ : ∃ i < w.chunkCapacity, Chunk.Assigned .opportunistic (w.chunks i) := by
      by_contra hnone
      push Not at hnone
      have hzero : w.count (Chunk.Assigned .opportunistic) = 0 := count_eq_zero hnone
      rw [h.assigned, hzero] at hn
      omega
    obtain ⟨owner, howner⟩ := Option.isSome_iff_exists.mp hassigned.1
    have hpool : (w.chunks i).pool ≠ some .committed := by
      rw [hassigned.2]
      nofun
    obtain ⟨c, hmem, hco⟩ := List.mem_map.mp (h.connected i hi owner howner)
    have hc : w.findConnection owner = some c := by
      rw [World.findConnection, ← hco]
      exact h.toRoster.find hmem
    have hone := (pressure_releaseSlot h hi (hco.symm ▸ howner) hpool).2
    obtain ⟨rs, w', hrun, hlength⟩ :=
      exists_releases (n := n) (h.releaseSlot .pressure hi (hco.symm ▸ howner)) (by omega)
    refine ⟨⟨owner, [i], { available := none }⟩ :: rs, w', ?_, ?_⟩
    · unfold World.releasesForPressure
      rw [release_single h hi howner hpool hc rfl]
      exact hrun
    · rw [released, List.map_cons, List.sum_cons]
      rw [released] at hlength
      rw [hlength]
      exact Nat.add_comm 1 n

/-! ### The plan -/

/-- **When the plan of a reconciliation is sufficient.** In every state that the manager reaches and
for every reading of the available memory, what the plan asks for brings the Opportunistic Pool
within its target exactly if no chunk of the pool is in quarantine, or if the reading and the idle
chunks cover the Host Reserve. -/
theorem pressure_plan_iff (h : system.Reachable w) {bytes : ℕ} (ha : a.available = some bytes) :
    Restores w a ↔ w.quarantinedOpportunistic = 0 ∨
    w.config.hostReserveGib ≤ bytes / chunkBytes + w.idle := by
  have haccounted := accounted_reachable h
  have hallocated := allocated_opportunistic haccounted
  change _ = _ + w.quarantinedOpportunistic + _ at hallocated
  have hmax := haccounted.max .opportunistic
  have htarget := target_eq w bytes
  constructor
  · intro hrestores
    by_contra hcondition
    rw [not_or, Nat.not_le] at hcondition
    obtain ⟨⟨w', result, plan⟩, hr, haccounted'⟩ := haccounted.reconcile a
    replace haccounted' : Accounted w' := haccounted'
    -- the target is below what is allocated, so nothing is grown and the reconciliation succeeds
    have hok : result = .ok := by
      rcases reconcile_cases haccounted hr with ⟨hnone, -⟩ | ⟨bytes', target, ha', htarget', hcases⟩
      · cases ha.symm.trans hnone
      · cases ha.symm.trans ha'
        cases htarget.symm.trans htarget'
        rcases hcases with ⟨hgrows, -⟩ | ⟨-, hok, -⟩
        · omega
        · exact hok
    subst hok
    obtain ⟨bytes', target, ha', htarget', hsteady, hleft, hneeded⟩ := reconcile_ok haccounted hr
    cases ha.symm.trans ha'
    cases htarget.symm.trans htarget'
    obtain ⟨rs, w'', hrun, hreleased⟩ := exists_releases (n := plan.assignedReclaimNeeded) haccounted'
      (by rw [hsteady.assigned]; omega)
    have hwithin := hrestores w' plan bytes _ rs w'' hr ha htarget hrun hreleased
    have hafter := releasesForPressure_allocated haccounted' hrun
    omega
  · intro hcondition w' plan bytes' target rs w'' hr ha' htarget' hrun hreleased
    cases ha.symm.trans ha'
    cases htarget.symm.trans htarget'
    obtain ⟨bytes', target, ha', htarget', hsteady, hleft, hneeded⟩ := reconcile_ok haccounted hr
    cases ha.symm.trans ha'
    cases htarget.symm.trans htarget'
    obtain ⟨r, hr', haccounted'⟩ := haccounted.reconcile a
    cases hr.symm.trans hr'
    replace haccounted' : Accounted w' := haccounted'
    have hafter := releasesForPressure_allocated haccounted' hrun
    omega

theorem pressure_plan_sample : ∃ w, system.Reachable w ∧ w.quarantinedOpportunistic = 0 ∧
    Restores w { available := some 0 } := by
  obtain ⟨w, hreach, hquarantined⟩ : ∃ w, system.Reachable w ∧ w.quarantinedOpportunistic = 0 :=
    exists_sample pressedRun (by decide +kernel)
  exact ⟨w, hreach, hquarantined, (pressure_plan_iff hreach rfl).mpr (.inl hquarantined)⟩

/-- The first of two chunks is left in quarantine, and the Consumer gets two others. -/
def quarantineRun : List Label :=
  [.connect [97] (some 1) 1 (fun _ => 3) true,
    .acquire (some 1) (some .opportunistic) 2 (some 7) (some 2)
      { available := some (8 * chunkBytes), register := fun i => i = 0, deregister := fun i => i ≠ 0 },
    .acquire (some 1) (some .opportunistic) 2 (some 7) (some 2) { available := some (8 * chunkBytes) }]

/-- With a Host Reserve of two the target is one chunk. The Consumer releases the one chunk that the
plan asks for, and the pool is still above the target; if it released both, it would not be. -/
theorem pressure_plan_insufficient : ∃ w w' w'' v plan rs, system.Reachable w ∧
    w.reconcile { available := some 0 } = some (w', .ok, plan) ∧ w.target 0 = some 1 ∧
    w'.releasesForPressure rs = some w'' ∧ released rs = plan.assignedReclaimNeeded ∧
    w''.allocated .opportunistic = 2 ∧
    w'.releasesForPressure [⟨1, [1, 2], { available := none }⟩] = some v ∧
    v.allocated .opportunistic = 1 := by
  obtain ⟨w, hreach, htarget, hend⟩ : ∃ w, system.Reachable w ∧ w.target 0 = some 1 ∧
      (w.reconcile { available := some 0 }).any fun r =>
        decide (r.2.1 = .ok) && decide (r.2.2.assignedReclaimNeeded = 1) &&
          ((r.1.releasesForPressure [⟨1, [1], { available := none }⟩]).any fun w =>
            w.allocated .opportunistic = 2) &&
          (r.1.releasesForPressure [⟨1, [1, 2], { available := none }⟩]).any fun w =>
            w.allocated .opportunistic = 1 :=
    System.exists_of_exec (s := { config := ⟨2, fun _ => 3⟩, chunkCapacity := 6 })
      ⟨⟨2, fun _ => 3⟩, rfl⟩
      (show (system.exec _ quarantineRun).any _ = true by decide +kernel)
  simp only [Bool.and_eq_true, decide_eq_true_eq, Option.any_eq_true] at hend
  obtain ⟨⟨w', result, plan⟩, hr, ⟨⟨hok, hneeded⟩, w'', hreleases, hallocated⟩, v, hboth, hv⟩ := hend
  cases hok
  exact ⟨w, w', w'', v, plan, _, hreach, hr, htarget, hreleases, hneeded.symm, hallocated, hboth, hv⟩

end Memory
end Infiniswap
