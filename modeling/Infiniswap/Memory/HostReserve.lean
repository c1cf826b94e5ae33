/-
# The Host Reserve

A call allocates chunks only where the reading of the host's memory covers them
and the Host Reserve. A reconciliation brings the Opportunistic Pool to its target,
or as near as the chunks that are assigned or in quarantine allow, and asks for the
assigned chunks above the target; there is always a slot for a chunk that it grows.
-/
import Infiniswap.Memory.Admission
import Infiniswap.Memory.Separation

namespace Infiniswap
namespace Memory

open Counting Transition

variable {w w' : World} {pool : Pool} {ps : List Pending} {a : Adapters} {i : ℕ}

/-! ### What a call allocates -/

variable {plan : ReconcileResult}

/-- The call allocates no chunk, or the reading covers what it allocates and the Host Reserve. -/
def Covered (w w' : World) (a : Adapters) : Prop :=
  ∃ k, w'.addresses = w.addresses + k ∧
    (k = 0 ∨ ∃ bytes, a.available = some bytes ∧ (k + w.config.hostReserveGib) * chunkBytes ≤ bytes)

theorem covered_of_addresses (h : w'.addresses = w.addresses) (a : Adapters) : Covered w w' a :=
  ⟨0, h, .inl rfl⟩

theorem covered_of_le {n bytes : ℕ} (hle : w.addresses ≤ w'.addresses)
    (hn : w'.addresses ≤ w.addresses + n) (ha : a.available = some bytes)
    (hreserve : w.config.hostReserveGib + n ≤ bytes / chunkBytes) : Covered w w' a := by
  refine ⟨w'.addresses - w.addresses, by omega, .inr ⟨bytes, ha, ?_⟩⟩
  refine (Nat.le_div_iff_mul_le (by decide)).mp ?_
  omega

theorem allocatePending_addresses (a : Adapters) : ∀ (ps : List Pending) (w : World),
    w.addresses ≤ (w.allocatePending a ps).1.addresses ∧
      (w.allocatePending a ps).1.addresses ≤ w.addresses + ps.countP (·.newlyAllocated)
  | [], w => ⟨Nat.le_refl _, Nat.le_refl _⟩
  | p :: ps, w => by
    have hskip := allocatePending_addresses a ps w
    have hnext := allocatePending_addresses a ps
      (({ w.record [.allocated w.addresses] with addresses := w.addresses + 1 } : World).record
      [.cleared w.addresses])
    rw [List.countP_cons]
    unfold World.allocatePending
    dsimp only
    split
    · exact ⟨hskip.1, hskip.2.trans (by omega)⟩
    rename_i hnew
    have hnew : p.newlyAllocated = true := by simpa using hnew
    rw [if_pos hnew]
    split
    · exact ⟨Nat.le_refl _, Nat.le_add_right _ _⟩
    split
    · exact ⟨Nat.le_succ _, by change w.addresses + 1 ≤ _; omega⟩
    · exact ⟨Nat.le_of_succ_le hnext.1, hnext.2.trans (by change w.addresses + 1 + _ ≤ _; omega)⟩

theorem commitPending_addresses (c : Connection) (pool : Pool) (adapter : ℕ) :
    ∀ (ps : List Pending) (w : World),
    (w.commitPending c pool adapter ps).1.addresses = w.addresses
  | [], _ => rfl
  | p :: ps, w => by
    rw [commitPending_cons]
    exact commitPending_addresses c pool adapter ps (w.commit c pool adapter p)

theorem populate_addresses (w : World) (c : Connection) (pool : Pool) (adapter : ℕ) (a : Adapters)
    (ps : List Pending) :
    (w.populate c pool adapter a ps).1.addresses = (w.allocatePending a ps).1.addresses := by
  have hrollback (w : World) (ps : List Pending) (failure : Failure) :
      (w.rollbackPending pool adapter a ps failure).1.addresses = w.addresses := by
    rw [rollbackPending_eq]
    split <;> exact rolledBack_addresses _ _ _ _ _
  unfold World.populate
  generalize w.allocatePending a ps = r
  obtain ⟨w₁, ps₁, failure⟩ := r
  cases failure with
  | some failure => exact hrollback w₁ ps₁ failure
  | none =>
    have hregisters := registerPending_spec a ps₁ w₁
    dsimp only
    generalize w₁.registerPending a ps₁ = r at hregisters ⊢
    obtain ⟨w₂, ps₂, failure⟩ := r
    cases failure with
    | some failure => exact (hrollback w₂ ps₂ failure).trans hregisters.addresses
    | none => exact (commitPending_addresses c pool adapter ps₂ w₂).trans hregisters.addresses

theorem checkPending_reserve {count : ℕ} (h : w.checkPending pool count a ps = none) :
    ps.countP (·.newlyAllocated) = 0 ∨ ∃ bytes, a.available = some bytes ∧
      w.config.hostReserveGib + ps.countP (·.newlyAllocated) ≤ bytes / chunkBytes := by
  unfold World.checkPending at h
  dsimp only at h
  split at h
  · cases h
  split at h
  · cases h
  split at h
  · exact .inl ‹_›
  split at h
  · cases h
  · rename_i bytes ha
    split at h
    · cases h
    · exact .inr ⟨bytes, ha, Nat.le_of_not_lt ‹_›⟩

/-- **A request allocates only what the host can spare.** -/
theorem covered_acquire (w : World) (owner : Option Owner) (pool : Option Pool) (count : ℕ)
    (adapter grantCapacity : Option ℕ) (a : Adapters) :
    Covered w (w.acquire owner pool count adapter grantCapacity a).1 a := by
  generalize hr : w.acquire owner pool count adapter grantCapacity a = r
  obtain ⟨w', r⟩ := r
  rcases acquire_cases hr with ⟨f, -, -, rfl | ⟨rfl, -⟩⟩ |
    ⟨_, c, pool', adapter', -, -, -, -, -, hcheck, hpopulate⟩
  · exact covered_of_addresses rfl a
  · exact covered_of_addresses rfl a
  · have heq := populate_addresses w c pool' adapter' a (w.select pool' count)
    obtain ⟨hle, hge⟩ := allocatePending_addresses a (w.select pool' count) w
    rw [hpopulate] at heq
    rw [← heq] at hle hge
    rcases checkPending_reserve hcheck with hzero | ⟨bytes, ha, hreserve⟩
    · rw [hzero] at hge
      exact covered_of_addresses (Nat.le_antisymm hge hle) a
    · exact covered_of_le hle hge ha hreserve

/-! ### Reconciliation -/

/-- The opportunistic chunks in quarantine. -/
def World.quarantinedOpportunistic (w : World) : ℕ := w.count (Chunk.QuarantinedIn .opportunistic)

/-- **The target of a reconciliation**: what the host has above its reserve, the allocated chunks
counted as available, within the maximum of the pool. -/
theorem target_eq (w : World) (bytes : ℕ) : w.target bytes = some (min (w.config.maxGib .opportunistic)
    (bytes / chunkBytes + w.allocated .opportunistic - w.config.hostReserveGib)) := by
  unfold World.target
  dsimp only
  split
  · rename_i hreserve
    rw [Nat.sub_eq_zero_of_le hreserve, Nat.min_zero]
    rfl
  · rename_i hreserve
    rw [subtract_of_le (Nat.le_of_not_le hreserve)]
    change some (if _ ≤ _ then _ else _) = _
    split_ifs with hmax
    · rw [Nat.min_eq_left hmax]
    · rw [Nat.min_eq_right (Nat.le_of_not_le hmax)]

/-- What a reconciliation leaves alone. -/
structure Steady (w w' : World) : Prop where
  config : w'.config = w.config
  chunkCapacity : w'.chunkCapacity = w.chunkCapacity
  assigned : w'.assigned = w.assigned
  quarantined : w'.quarantinedOpportunistic = w.quarantinedOpportunistic

theorem Steady.refl (w : World) : Steady w w := ⟨rfl, rfl, rfl, rfl⟩

theorem Steady.trans {w₁ w₂ w₃ : World} (h : Steady w₁ w₂) (h' : Steady w₂ w₃) : Steady w₁ w₃ where
  config := h'.config.trans h.config
  chunkCapacity := h'.chunkCapacity.trans h.chunkCapacity
  assigned := h'.assigned.trans h.assigned
  quarantined := h'.quarantined.trans h.quarantined

theorem steady_reclaim (h : Accounted w) (hi : i < w.chunkCapacity)
    (hreusable : (w.chunks i).reusable .opportunistic = true) : Steady w (w.reclaim i) := by
  refine ⟨rfl, rfl, rfl, ?_⟩
  obtain ⟨-, address, hchunk⟩ := (reusable_iff (h.shape i)).mp hreusable
  have hover : w.Overwrites (w.reclaim i) i {} := ⟨hi, rfl, rfl⟩
  have hcount := hover.count (Chunk.QuarantinedIn .opportunistic)
  rw [hchunk] at hcount
  simpa [World.quarantinedOpportunistic] using hcount

/-- **How much the loop reclaims**: as many chunks as it is told to, or all that are idle. -/
theorem reclaimUnassigned_amount : ∀ {slots : List ℕ} {w : World}, Accounted w → slots.Nodup →
    (∀ i ∈ slots, i < w.chunkCapacity) → ∀ reclaim done, ∃ w',
      w.reclaimUnassigned slots reclaim done =
        some (w', done + min reclaim (slots.countP fun i => (w.chunks i).reusable .opportunistic)) ∧
      Accounted w' ∧ Steady w w' ∧ w'.addresses = w.addresses ∧
      w'.allocated .opportunistic +
        min reclaim (slots.countP fun i => (w.chunks i).reusable .opportunistic) =
        w.allocated .opportunistic
  | [], w, h, _, _, reclaim, done => ⟨w, by simp [World.reclaimUnassigned], h, .refl w, rfl, by simp⟩
  | i :: slots, w, h, hnodup, hslots, reclaim, done => by
    obtain ⟨hi, hslots⟩ := List.forall_mem_cons.mp hslots
    obtain ⟨hnot, hnodup⟩ := List.nodup_cons.mp hnodup
    rw [reclaimUnassigned_cons (h.shape i) fun hreusable => (h.reclaim hi hreusable).1, List.countP_cons]
    by_cases hzero : reclaim = 0
    · rw [if_pos hzero, hzero]
      exact ⟨w, by simp, h, .refl w, rfl, by simp⟩
    rw [if_neg hzero]
    by_cases hreusable : (w.chunks i).reusable .opportunistic = true
    · obtain ⟨hpositive, hreclaimed⟩ := h.reclaim hi hreusable
      have hcount : (slots.countP fun j => ((w.reclaim i).chunks j).reusable .opportunistic) =
          slots.countP fun j => (w.chunks j).reusable .opportunistic := by
        refine List.countP_congr fun j hj => ?_
        have hne : j ≠ i := ne_of_mem_of_not_mem hj hnot
        rw [show (w.reclaim i).chunks j = w.chunks j from Function.update_of_ne hne _ _]
      obtain ⟨w', heq, h', hsteady, haddresses, hallocated⟩ :=
        reclaimUnassigned_amount hreclaimed hnodup hslots (reclaim - 1) (done + 1)
      rw [hcount] at heq hallocated
      have hone : (w.reclaim i).allocated .opportunistic + 1 = w.allocated .opportunistic := by
        have hdecrease := decrease_add (f := w.allocated) (p := .opportunistic)
          (q := .opportunistic) fun _ => hpositive
        rwa [if_pos rfl] at hdecrease
      refine ⟨w', ?_, h', (steady_reclaim h hi hreusable).trans hsteady, haddresses, ?_⟩
      · rw [if_pos hreusable, if_pos hreusable, heq]
        congr 2
        omega
      · rw [if_pos hreusable]
        omega
    · rw [if_neg hreusable, if_neg hreusable]
      exact reclaimUnassigned_amount h hnodup hslots reclaim done

theorem countP_idle (w : World) :
    ((List.range w.chunkCapacity).countP fun i => (w.chunks i).reusable .opportunistic) = w.idle := by
  rw [List.countP_eq_length_filter, length_filter_range]
  rfl

/-- How the allocation of chunks fails. -/
theorem allocatePending_failure (a : Adapters) : ∀ (ps : List Pending) (w : World) {f : Failure},
    (w.allocatePending a ps).2.2 = some f → f.result = .allocationFailed ∨ f.result = .touchFailed
  | [], _, _, h => by cases h
  | p :: ps, w, f, h => by
    unfold World.allocatePending at h
    dsimp only at h
    split at h
    · exact allocatePending_failure a ps w h
    split at h
    · cases h
      exact .inl rfl
    split at h
    · cases h
      exact .inr rfl
    · exact allocatePending_failure a ps _ h

section

variable (h : Accounted w)

include h

/-- **How growth ends.** There is a slot for every chunk of the room that the pool has left. -/
theorem allocateUnassigned_result {count : ℕ} (hroom : count ≤ w.room .opportunistic) (a : Adapters) :
    (w.allocateUnassigned count a).2 ≠ .poolExhausted ∧
    (w.allocateUnassigned count a).1.addresses ≤ w.addresses + count ∧
    w.addresses ≤ (w.allocateUnassigned count a).1.addresses ∧
    ((w.allocateUnassigned count a).2 = .ok → Steady w (w.allocateUnassigned count a).1 ∧
      (w.allocateUnassigned count a).1.allocated .opportunistic =
        w.allocated .opportunistic + count) := by
  unfold World.allocateUnassigned
  split
  · rename_i hzero
    exact ⟨(by rintro ⟨⟩), Nat.le_add_right _ _, Nat.le_refl _, fun _ => ⟨.refl w, by rw [hzero]; rfl⟩⟩
  split
  · exact ⟨(by rintro ⟨⟩), Nat.le_add_right _ _, Nat.le_refl _, (by rintro ⟨⟩)⟩
  dsimp only
  have hlength : ((w.emptySlots count).map newPending).length = count := by
    have hempty : Nat.count (fun i => (w.chunks i).address.isNone = true) w.chunkCapacity = w.empty := rfl
    rw [List.length_map, World.emptySlots, length_firstSlots, hempty, empty_eq h]
    omega
  split
  · exact absurd hlength ‹_›
  have hselected := selected_emptySlots h.shape .opportunistic count
  have hallocates : Allocates w _ ((w.emptySlots count).map newPending) _ _ := allocatePending_spec a _ w
  have hnewly : ∀ p ∈ (w.allocatePending a ((w.emptySlots count).map newPending)).2.1,
      p.newlyAllocated = true :=
    fun _ hp => newlyAllocated_of_newPending a hp
  have hfailure := fun f => allocatePending_failure a ((w.emptySlots count).map newPending) w (f := f)
  obtain ⟨hle, hge⟩ := allocatePending_addresses a ((w.emptySlots count).map newPending) w
  have hnew : ((w.emptySlots count).map newPending).countP (·.newlyAllocated) ≤ count :=
    List.countP_le_length.trans hlength.le
  generalize hr : w.allocatePending a _ = r
  obtain ⟨w₁, ps₁, failure⟩ := r
  replace hr : w.allocatePending a ((w.emptySlots count).map newPending) = (w₁, ps₁, failure) := hr
  rw [hr] at hallocates hfailure hnewly hle hge
  cases failure with
  | some failure =>
    dsimp only
    rw [freeUnassigned_addresses]
    refine ⟨?_, hge.trans (by omega), hle, fun hok => ?_⟩
    · rcases hfailure failure rfl with hf | hf <;> rw [hf] <;> rintro ⟨⟩
    · rcases hfailure failure rfl with hf | hf <;> rw [hf] at hok <;> cases hok
  | none =>
    have hsame := sameTable_of_manager hallocates.manager
    have hs₁ := (hselected.of_plans hallocates.plans).of_sameTable hsame
    obtain ⟨hin, hout, -, haddresses, -⟩ := placeUnassigned_slots (w := w₁) hs₁.nodup
    have hcapacity : (w₁.placeUnassigned ps₁).chunkCapacity = w.chunkCapacity := by
      rw [placeUnassigned_eq]
      exact hsame.chunkCapacity
    dsimp only
    refine ⟨(by rintro ⟨⟩), haddresses.le.trans (hge.trans (by omega)), hle.trans haddresses.ge,
      fun _ => ⟨⟨?_, hcapacity, ?_, ?_⟩, ?_⟩⟩
    · rw [placeUnassigned_eq]
      exact hsame.config
    · rw [placeUnassigned_eq]
      exact hsame.assigned
    · rw [World.quarantinedOpportunistic, World.quarantinedOpportunistic, World.count, World.count]
      dsimp only
      rw [hcapacity]
      refine count_congr fun j _ => ?_
      by_cases hj : j ∈ ps₁.map (·.index)
      · -- the slot was empty, and it is idle now
        obtain ⟨p, hp, rfl⟩ := List.mem_map.mp hj
        have hempty : w₁.chunks p.index = {} := by
          cases hs₁.fits p hp with
          | new _ _ hchunk => exact hchunk
          | same _ hold | converted _ hold => cases hold.symm.trans (hnewly p hp)
        rw [hin p hp, ← hsame.chunks, hempty]
        simp [Chunk.QuarantinedIn]
      · rw [hout j hj, hsame.chunks]
    · rw [placeUnassigned_allocated, increase, if_pos rfl, hsame.allocated]

theorem reclaimed_all {reclaim n : ℕ}
    (hr : w.reclaimUnassigned (List.range w.chunkCapacity) reclaim 0 = some (w', n)) :
    Steady w w' ∧ w'.addresses = w.addresses ∧ w'.allocated .opportunistic +
      min reclaim ((List.range w.chunkCapacity).countP fun i => (w.chunks i).reusable .opportunistic) =
        w.allocated .opportunistic := by
  obtain ⟨w₂, heq, -, hsteady, haddresses, hamount⟩ :=
    reclaimUnassigned_amount h List.nodup_range (fun i hi => List.mem_range.mp hi) reclaim 0
  cases hr.symm.trans heq
  exact ⟨hsteady, haddresses, hamount⟩

/-- **The cases of a reconciliation**: it cannot read the memory of the host, it grows the pool, or
it reclaims. -/
theorem reconcile_cases {result : MemoryResult} (hr : w.reconcile a = some (w', result, plan)) :
    (a.available = none ∧ w' = w.reject .accountingFailed ∧ result = .accountingFailed) ∨
    ∃ bytes target, a.available = some bytes ∧ w.target bytes = some target ∧
      (w.allocated .opportunistic < target ∧
          w.allocateUnassigned (target - w.allocated .opportunistic) a = (w', result) ∧
          plan.assignedReclaimNeeded = 0 ∨
        target ≤ w.allocated .opportunistic ∧ result = .ok ∧
          plan.assignedReclaimNeeded = w.assigned .opportunistic - target ∧
          ∃ n, w.reclaimUnassigned (List.range w.chunkCapacity)
            (w.allocated .opportunistic - max target (w.assigned .opportunistic)) 0 = some (w', n)) := by
  unfold World.reconcile at hr
  cases ha : a.available with
  | none =>
    rw [ha] at hr
    cases hr
    exact .inl ⟨rfl, rfl, rfl⟩
  | some bytes =>
    rw [ha] at hr
    refine .inr ⟨bytes, _, rfl, target_eq w bytes, ?_⟩
    dsimp only at hr
    rw [target_eq] at hr
    generalize min (w.config.maxGib .opportunistic) _ = target at hr ⊢
    dsimp only [Option.bind_eq_bind, Option.bind_some] at hr
    split at hr
    · rename_i hgrows
      rw [subtract_of_le hgrows.le] at hr
      dsimp only [Option.bind_some] at hr
      refine .inl ⟨hgrows, ?_⟩
      generalize w.allocateUnassigned (target - w.allocated .opportunistic) a = r at hr ⊢
      obtain ⟨w₁, result₁⟩ := r
      cases result₁ <;> cases hr <;> exact ⟨rfl, rfl⟩
    · rename_i hgrows
      have hdesired : (if target < w.assigned .opportunistic then w.assigned .opportunistic else target) =
          max target (w.assigned .opportunistic) := by
        split_ifs <;> omega
      have hle : max target (w.assigned .opportunistic) ≤ w.allocated .opportunistic :=
        Nat.max_le.mpr ⟨Nat.le_of_not_lt hgrows, h.assigned_le .opportunistic⟩
      rw [hdesired, subtract_of_le hle] at hr
      dsimp only [Option.bind_some] at hr
      obtain ⟨⟨w₁, n⟩, hreclaim, hr⟩ := Option.bind_eq_some_iff.mp hr
      have hsteady := (reclaimed_all h hreclaim).1
      dsimp only at hr
      rw [hsteady.assigned] at hr
      refine .inr ⟨Nat.le_of_not_lt hgrows, ?_⟩
      split at hr
      · rename_i hneeded
        rw [subtract_of_le hneeded.le] at hr
        cases hr
        exact ⟨rfl, rfl, _, hreclaim⟩
      · rename_i hneeded
        cases hr
        exact ⟨rfl, (Nat.sub_eq_zero_of_le (Nat.le_of_not_lt hneeded)).symm, _, hreclaim⟩

/-- **What a reconciliation that succeeds leaves**: the Opportunistic Pool is at its target, or as
near as the chunks that are assigned or in quarantine allow, and the plan asks for what is assigned
above the target. -/
theorem reconcile_ok (hr : w.reconcile a = some (w', .ok, plan)) :
    ∃ bytes target, a.available = some bytes ∧ w.target bytes = some target ∧ Steady w w' ∧
      w'.allocated .opportunistic = max target (w.assigned .opportunistic + w.quarantinedOpportunistic) ∧
      plan.assignedReclaimNeeded = w.assigned .opportunistic - target := by
  have hallocated := allocated_opportunistic h
  change _ = _ + w.quarantinedOpportunistic + _ at hallocated
  rcases reconcile_cases h hr with ⟨-, -, hfailed⟩ | ⟨bytes, target, ha, htarget, hcases⟩
  · cases hfailed
  refine ⟨bytes, target, ha, htarget, ?_⟩
  rcases hcases with ⟨hgrows, hgrow, hplan⟩ | ⟨hle, -, hplan, n, hreclaim⟩
  · have hmax : target ≤ w.config.maxGib .opportunistic := by
      rw [target_eq] at htarget
      cases htarget
      exact Nat.min_le_left _ _
    obtain ⟨-, -, -, hok⟩ := allocateUnassigned_result h
      (show target - w.allocated .opportunistic ≤ w.room .opportunistic by rw [World.room]; omega) a
    rw [hgrow] at hok
    obtain ⟨hsteady, hgrown⟩ : Steady w w' ∧ w'.allocated .opportunistic = _ := hok rfl
    exact ⟨hsteady, by omega, by omega⟩
  · obtain ⟨hsteady, -, hamount⟩ := reclaimed_all h hreclaim
    rw [countP_idle] at hamount
    exact ⟨hsteady, by omega, hplan⟩

/-- A reconciliation allocates only what the host can spare, and there is a slot for it. -/
theorem covered_reconcile {result : MemoryResult} (hr : w.reconcile a = some (w', result, plan)) :
    Covered w w' a ∧ result ≠ .poolExhausted := by
  rcases reconcile_cases h hr with ⟨-, rfl, rfl⟩ | ⟨bytes, target, ha, htarget, hcases⟩
  · exact ⟨covered_of_addresses rfl a, (by rintro ⟨⟩)⟩
  rcases hcases with ⟨hgrows, hgrow, -⟩ | ⟨-, rfl, -, n, hreclaim⟩
  · rw [target_eq] at htarget
    cases htarget
    have hroom :
        min (w.config.maxGib .opportunistic) (bytes / chunkBytes + w.allocated .opportunistic -
        w.config.hostReserveGib) - w.allocated .opportunistic ≤ w.room .opportunistic := by
      rw [World.room]
      omega
    obtain ⟨hresult, hge, hle, -⟩ := allocateUnassigned_result h hroom a
    rw [hgrow] at hresult hge hle
    exact ⟨covered_of_le hle hge ha (by omega), hresult⟩
  · exact ⟨covered_of_addresses (reclaimed_all h hreclaim).2.1 a, (by rintro ⟨⟩)⟩

end

/-- **The Host Reserve on growth and shrink.** In every state that the manager reaches, a request
and a reconciliation allocate chunks only if the reading covers them and the Host Reserve. A
reconciliation never lacks a slot; one that succeeds leaves the Opportunistic Pool at the larger of
its target and the chunks that are assigned or in quarantine, and asks for the assigned chunks above
the target. -/
theorem host_reserve (h : system.Reachable w) :
    (∀ owner pool count adapter grantCapacity a,
      Covered w (w.acquire owner pool count adapter grantCapacity a).1 a) ∧
    ∀ a, ∃ w' result plan, w.reconcile a = some (w', result, plan) ∧ Covered w w' a ∧
      result ≠ .poolExhausted ∧
      (result = .ok → ∃ bytes target, a.available = some bytes ∧ w.target bytes = some target ∧
        w'.assigned .opportunistic = w.assigned .opportunistic ∧
        w'.quarantinedOpportunistic = w.quarantinedOpportunistic ∧
        w'.allocated .opportunistic =
          max target (w'.assigned .opportunistic + w'.quarantinedOpportunistic) ∧
        plan.assignedReclaimNeeded = w'.assigned .opportunistic - target) := by
  have ha := accounted_reachable h
  refine ⟨covered_acquire w, fun a => ?_⟩
  obtain ⟨⟨w', result, plan⟩, hr, -⟩ := ha.reconcile a
  obtain ⟨hcovered, hresult⟩ := covered_reconcile ha hr
  refine ⟨w', result, plan, hr, hcovered, hresult, ?_⟩
  rintro rfl
  obtain ⟨bytes, target, havailable, htarget, hsteady, hallocated, hplan⟩ := reconcile_ok ha hr
  refine ⟨bytes, target, havailable, htarget, congrFun hsteady.assigned _, hsteady.quarantined, ?_, ?_⟩
  · rw [hsteady.assigned, hsteady.quarantined]
    exact hallocated
  · rw [hsteady.assigned]
    exact hplan

/-- A Consumer has two opportunistic chunks. -/
def pressedRun : List Label :=
  [.connect [97] (some 1) 1 (fun _ => 2) true,
    .acquire (some 1) (some .opportunistic) 2 (some 7) (some 2) { available := some (8 * chunkBytes) }]

theorem host_reserve_sample : ∃ w w' plan, system.Reachable w ∧
    w.reconcile { available := some 0 } = some (w', .ok, plan) ∧ w'.allocated .opportunistic = 2 ∧
    plan.assignedReclaimNeeded = 1 := by
  obtain ⟨w, hreach, htarget, hassigned, hquarantined, hend⟩ : ∃ w, system.Reachable w ∧
      w.target 0 = some 1 ∧ w.assigned .opportunistic = 2 ∧ w.quarantinedOpportunistic = 0 ∧
      (w.reconcile { available := some 0 }).any fun r => r.2.1 = .ok :=
    exists_sample pressedRun (by decide +kernel)
  obtain ⟨r, hr, hok⟩ := (Option.any_eq_true _ _).mp hend
  obtain ⟨w', result, plan, heq, -, -, hplan⟩ := (host_reserve hreach).2 { available := some 0 }
  cases hr.symm.trans heq
  replace hok : result = .ok := of_decide_eq_true hok
  obtain ⟨_, target, hbytes, htarget', hsame, hsame', hallocated, hneeded⟩ := hplan hok
  cases hbytes
  cases htarget.symm.trans htarget'
  rw [hsame, hassigned] at hallocated hneeded
  rw [hsame', hquarantined] at hallocated
  exact ⟨w, w', plan, hreach, by rw [heq, hok], hallocated, hneeded⟩

end Memory
end Infiniswap
