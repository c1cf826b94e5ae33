/-
# Accounting under host pressure

A reconciliation keeps the accounts as well, so they are right in every state that
the manager reaches: the counters are the counts of the table, the limits are
kept, and no difference of counters wraps around.
-/
import Infiniswap.Memory.Accounting

namespace Infiniswap
namespace Memory

open Counting Transition

variable {w w' : World} {i : ℕ} {c : Connection} {p : Pending} {ps : List Pending} {a : Adapters}

/-! ### Growth -/

/-- An idle chunk is placed in an empty slot. -/
def World.place (w : World) (p : Pending) : World :=
  { w with
    chunks := Function.update w.chunks p.index
      { w.chunks p.index with address := p.address, pool := some .opportunistic }
    allocated := increase w.allocated .opportunistic 1 }

theorem placeUnassigned_frame (f : Pool → ℕ) : ∀ (ps : List Pending) (w : World),
    ({ w with allocated := f } : World).placeUnassigned ps = { w.placeUnassigned ps with allocated := f }
  | [], _ => rfl
  | p :: ps, w => placeUnassigned_frame f ps
      (w.setChunk p.index { w.chunks p.index with address := p.address, pool := some .opportunistic })

theorem place_overwrites (hi : p.index < w.chunkCapacity) {address : ℕ} (hchunk : w.chunks p.index = {})
    (haddress : p.address = some address) : w.Overwrites (w.place p) p.index (idleChunk address) := by
  refine ⟨hi, ?_, rfl⟩
  rw [World.place, hchunk, haddress]
  rfl

theorem Accounted.place (h : Accounted w) (hi : p.index < w.chunkCapacity) {address : ℕ}
    (hchunk : w.chunks p.index = {}) (haddress : p.address = some address)
    (hroom : w.allocated .opportunistic < w.config.maxGib .opportunistic) :
    Accounted (w.place p) := by
  have hover := place_overwrites hi hchunk haddress
  refine h.overwrite hover (h.toTally.overwrite hover (.idle address) (fun q => ?_) ?_)
    (by rw [hchunk]) rfl rfl rfl rfl fun q => ?_
  · rw [hchunk]
    simp only [allocated_empty, allocated_idle, if_false, World.place, increase, add_zero]
    split_ifs <;> rfl
  · rw [hchunk]
    rfl
  · change increase w.allocated .opportunistic 1 q ≤ _
    rw [increase]
    split_ifs with hq
    · rw [hq]
      exact hroom
    · exact h.max q

theorem Accounted.placeUnassigned :
    ∀ {ps : List Pending} {w : World}, Accounted w → (ps.map (·.index)).Nodup →
    (∀ p ∈ ps, p.index < w.chunkCapacity ∧ w.chunks p.index = {} ∧ p.address.isSome = true) →
    w.allocated .opportunistic + ps.length ≤ w.config.maxGib .opportunistic →
    Accounted { w.placeUnassigned ps with allocated := increase w.allocated .opportunistic ps.length }
  | [], w, h, _, _, _ => by
    have hcounter : increase w.allocated .opportunistic 0 = w.allocated := by
      funext q
      simp [increase]
    rw [List.length_nil, hcounter]
    exact h
  | p :: ps, w, h, hnodup, hps, hroom => by
    obtain ⟨hi, hchunk, haddress⟩ := hps p List.mem_cons_self
    obtain ⟨address, haddress⟩ := Option.isSome_iff_exists.mp haddress
    obtain ⟨hp, hnodup⟩ := List.nodup_cons.mp hnodup
    rw [List.length_cons] at hroom ⊢
    have hplace := h.place hi hchunk haddress (by omega)
    have htail : ∀ q ∈ ps, q.index < (w.place p).chunkCapacity ∧ (w.place p).chunks q.index = {} ∧
        q.address.isSome = true := by
      intro q hq
      obtain ⟨hqi, hqc, hqa⟩ := hps q (List.mem_cons_of_mem _ hq)
      have hne : q.index ≠ p.index := ne_of_mem_of_not_mem (List.mem_map_of_mem hq) hp
      exact ⟨hqi, (Function.update_of_ne hne _ _).trans hqc, hqa⟩
    have hrest : (w.place p).allocated .opportunistic + ps.length ≤
        (w.place p).config.maxGib .opportunistic := by
      change increase w.allocated .opportunistic 1 .opportunistic + ps.length ≤
        w.config.maxGib .opportunistic
      rw [increase, if_pos rfl]
      omega
    have ih := Accounted.placeUnassigned hplace hnodup htail hrest
    have hcounter : increase (w.place p).allocated .opportunistic ps.length =
        increase w.allocated .opportunistic (ps.length + 1) := by
      rw [Nat.add_comm, ← increase_increase]
      rfl
    rw [hcounter] at ih
    have hframe : (w.place p).placeUnassigned ps =
        { w.placeUnassigned (p :: ps) with allocated := increase w.allocated .opportunistic 1 } :=
      placeUnassigned_frame (increase w.allocated .opportunistic 1) ps
        (w.setChunk p.index { w.chunks p.index with address := p.address, pool := some .opportunistic })
    rw [hframe] at ih
    exact ih

theorem freeUnassigned_sameTable : ∀ (ps : List Pending) (w : World), w.SameTable (w.freeUnassigned ps)
  | [], w => .refl w
  | p :: ps, w => (w.sameTable_record (p.address.toList.map .freed)).trans (freeUnassigned_sameTable ps _)

theorem placeUnassigned_eq : ∀ (ps : List Pending) (w : World),
    w.placeUnassigned ps = { w with chunks := (w.placeUnassigned ps).chunks }
  | [], _ => rfl
  | p :: ps, w => placeUnassigned_eq ps
      (w.setChunk p.index { w.chunks p.index with address := p.address, pool := some .opportunistic })

theorem placeUnassigned_allocated (ps : List Pending) (w : World) :
    (w.placeUnassigned ps).allocated = w.allocated := by
  rw [placeUnassigned_eq]

theorem selected_emptySlots (h : ∀ i, Shape (w.chunks i)) (pool : Pool) (n : ℕ) :
    Selected w pool ((w.emptySlots n).map newPending) := by
  refine ⟨?_, fun p hp => ?_, fun p hp => ?_⟩
  · rw [List.map_map]
    change ((w.emptySlots n).map id).Nodup
    rw [List.map_id]
    exact nodup_firstSlots _ _ _
  · obtain ⟨i, hi, rfl⟩ := List.mem_map.mp hp
    exact (mem_firstSlots hi).1
  · obtain ⟨i, hi, rfl⟩ := List.mem_map.mp hp
    exact .new rfl rfl ((address_isNone_iff (h i)).mp (mem_firstSlots hi).2)

/-- **Growth keeps the accounts**, wherever it fails. -/
theorem Accounted.allocateUnassigned (h : Accounted w) {count : ℕ}
    (hroom : w.allocated .opportunistic + count ≤ w.config.maxGib .opportunistic) (a : Adapters) :
    Accounted (w.allocateUnassigned count a).1 := by
  unfold World.allocateUnassigned
  split
  · exact h
  split
  · exact (w.sameTable_reject _).accounted h
  dsimp only
  split
  · exact (w.sameTable_reject _).accounted h
  rename_i hlength
  rw [not_not] at hlength
  have hs := selected_emptySlots h.shape .opportunistic count
  have hallocates : Allocates w _ ((w.emptySlots count).map newPending) _ _ := allocatePending_spec a _ w
  generalize hr : w.allocatePending a _ = r
  obtain ⟨w₁, ps₁, failure⟩ := r
  rw [show w.allocatePending a ((w.emptySlots count).map newPending) =
    (w₁, ps₁, failure) from hr] at hallocates
  have hsame := sameTable_of_manager hallocates.manager
  have hlength₁ : ps₁.length = count := (additional_of_plans hallocates.plans).2.trans hlength
  have hs₁ := (hs.of_plans hallocates.plans).of_sameTable hsame
  cases failure with
  | some failure =>
    exact ((w₁.sameTable_reject failure.rejection).trans (freeUnassigned_sameTable ps₁ _)).accounted
      (hsame.accounted h)
  | none =>
    dsimp only
    rw [placeUnassigned_allocated, ← hlength₁]
    refine Accounted.placeUnassigned (hsame.accounted h) hs₁.nodup (fun p hp => ?_) ?_
    · have hnew : p.newlyAllocated = true := by
        have hplan : p.plan ∈ ((w.emptySlots count).map newPending).map Pending.plan :=
          hallocates.plans ▸ List.mem_map_of_mem hp
        obtain ⟨q, hq, hplan⟩ := List.mem_map.mp hplan
        obtain ⟨i, -, rfl⟩ := List.mem_map.mp hq
        exact (congrArg (fun x : ℕ × Bool × Bool => x.2.1) hplan).symm
      refine ⟨hs₁.bound p hp, ?_, hallocates.allocated rfl p hp hnew⟩
      cases hs₁.fits p hp with
      | new _ _ hchunk => exact hchunk
      | same _ hold | converted _ hold => exact absurd hnew (by simp [hold])
    · rw [hsame.allocated, hsame.config, hlength₁]
      exact hroom

/-! ### Reclaim -/

/-- An idle chunk is freed. -/
def World.reclaim (w : World) (i : ℕ) : World :=
  { w.record ((w.chunks i).address.toList.map .freed) with
    chunks := Function.update w.chunks i {}
    allocated := decrease w.allocated .opportunistic 1
    pressureReclaims := w.pressureReclaims + 1 }

theorem Accounted.reclaim (h : Accounted w) (hi : i < w.chunkCapacity)
    (hreusable : (w.chunks i).reusable .opportunistic = true) :
    0 < w.allocated .opportunistic ∧ Accounted (w.reclaim i) := by
  obtain ⟨-, address, hchunk⟩ := (reusable_iff (h.shape i)).mp hreusable
  have hover : w.Overwrites (w.reclaim i) i {} := ⟨hi, rfl, rfl⟩
  have hpositive : 0 < w.allocated .opportunistic := by
    have hcount := hover.count (Chunk.Allocated .opportunistic)
    rw [hchunk, if_pos (allocated_idle.mpr rfl), ← h.allocated] at hcount
    simp only [allocated_empty, if_false] at hcount
    omega
  refine ⟨hpositive, h.overwrite hover (h.toTally.overwrite hover .empty (fun q => ?_) ?_)
    (by rw [hchunk]; rfl) rfl rfl rfl rfl fun q => ?_⟩
  · rw [hchunk]
    simp only [allocated_empty, allocated_idle, if_false, add_zero]
    exact decrease_add fun _ => hpositive
  · rw [hchunk]
    rfl
  · refine le_trans ?_ (h.max q)
    change decrease w.allocated .opportunistic 1 q ≤ w.allocated q
    rw [decrease]
    split_ifs <;> omega

theorem subtract_of_le {m n : ℕ} (h : n ≤ m) : subtract m n = some (m - n) := if_pos h

theorem reclaimUnassigned_cons (hshape : Shape (w.chunks i))
    (hpositive : (w.chunks i).reusable .opportunistic = true → 0 < w.allocated .opportunistic)
    (slots : List ℕ) (reclaim done : ℕ) : w.reclaimUnassigned (i :: slots) reclaim done =
      if reclaim = 0 then some (w, done)
      else if (w.chunks i).reusable .opportunistic then (w.reclaim i).reclaimUnassigned slots
        (reclaim - 1) (done + 1)
      else w.reclaimUnassigned slots reclaim done := by
  have hidle : ((w.chunks i).address.isNone ∨ (w.chunks i).owner.isSome ∨ (w.chunks i).quarantined ∨
      (w.chunks i).pool ≠ some .opportunistic) ↔ ¬(w.chunks i).reusable .opportunistic = true := by
    generalize w.chunks i = x at hshape
    cases hshape with
    | empty => simp
    | idle address => exact iff_of_false (by simp [idleChunk]) (by simp)
    | assigned => exact iff_of_true (by simp [assignedChunk]) (by simp)
    | quarantined => exact iff_of_true (by simp [quarantinedChunk]) (by simp)
  have heq : (fun q => if q = .opportunistic then w.allocated .opportunistic - 1 else w.allocated q) =
      decrease w.allocated .opportunistic 1 := by
    funext q
    rw [decrease]
    split_ifs with hq
    · rw [hq]
    · rfl
  rw [World.reclaimUnassigned]
  by_cases hzero : reclaim = 0
  · rw [if_pos hzero, if_pos hzero]
  rw [if_neg hzero, if_neg hzero]
  by_cases hreusable : (w.chunks i).reusable .opportunistic = true
  · rw [if_neg fun hnot => hidle.mp hnot hreusable, if_pos hreusable,
      subtract_of_le (hpositive hreusable), World.reclaim, ← heq]
    rfl
  · rw [if_pos (hidle.mpr hreusable), if_neg hreusable]

theorem reclaimUnassigned_invariant {I : World → Prop} (haccounted : ∀ w, I w → Accounted w)
    (hstep : ∀ w i, I w → i < w.chunkCapacity → (w.chunks i).reusable .opportunistic = true →
      I (w.reclaim i)) :
    ∀ {slots : List ℕ} {w : World}, I w → (∀ i ∈ slots, i < w.chunkCapacity) →
    ∀ reclaim done, ∃ w' n, w.reclaimUnassigned slots reclaim done = some (w', n) ∧ I w'
  | [], w, h, _, _, done => ⟨w, done, rfl, h⟩
  | i :: slots, w, h, hslots, reclaim, done => by
    obtain ⟨hi, hslots⟩ := List.forall_mem_cons.mp hslots
    have ha := haccounted w h
    rw [reclaimUnassigned_cons (ha.shape i) fun hreusable => (ha.reclaim hi hreusable).1]
    split
    · exact ⟨w, done, rfl, h⟩
    split
    · rename_i hreusable
      have htail := reclaimUnassigned_invariant haccounted hstep (hstep w i h hi hreusable) hslots
        (reclaim - 1) (done + 1)
      exact htail
    · exact reclaimUnassigned_invariant haccounted hstep h hslots reclaim done

/-! ### Reconciliation -/

theorem Accounted.assigned_le (h : Accounted w) (q : Pool) : w.assigned q ≤ w.allocated q := by
  rw [h.assigned, h.allocated]
  refine count_mono fun i _ hi => ?_
  obtain ⟨o, ho⟩ := Option.isSome_iff_exists.mp hi.1
  obtain ⟨address, registration, adapter, q', hchunk⟩ := (h.shape i).of_owner ho
  rw [hchunk] at hi ⊢
  exact allocated_assigned.mpr (assigned_assigned.mp hi)

theorem target_le (w : World) (bytes : ℕ) :
    ∃ target ≤ w.config.maxGib .opportunistic, w.target bytes = some target := by
  unfold World.target
  dsimp only
  split
  · exact ⟨0, Nat.zero_le _, rfl⟩
  · rename_i hreserve
    rw [subtract_of_le (Nat.le_of_not_le hreserve)]
    refine ⟨_, ?_, rfl⟩
    split
    · exact le_rfl
    · exact Nat.le_of_not_le ‹_›

/-- **What a reconciliation keeps**: what growth keeps, and the reclaim of an idle chunk. Its
differences do not wrap around. -/
theorem reconcile_invariant {I : World → Prop} (haccounted : ∀ w, I w → Accounted w) (h : I w)
    (a : Adapters) (hreject : I (w.reject .accountingFailed))
    (hgrow : ∀ count, w.allocated .opportunistic + count ≤ w.config.maxGib .opportunistic →
      I (w.allocateUnassigned count a).1)
    (hstep : ∀ w i, I w → i < w.chunkCapacity → (w.chunks i).reusable .opportunistic = true →
      I (w.reclaim i)) : ∃ r, w.reconcile a = some r ∧ I r.1 := by
  unfold World.reconcile
  cases a.available with
  | none => exact ⟨_, rfl, hreject⟩
  | some bytes =>
    obtain ⟨target, hmax, htarget⟩ := target_le w bytes
    dsimp only
    rw [htarget]
    dsimp only [Option.bind_eq_bind, Option.bind_some]
    split
    · rename_i hgrows
      rw [subtract_of_le hgrows.le]
      have hgrown := hgrow (target - w.allocated .opportunistic) (by omega)
      dsimp only [Option.bind_some]
      generalize w.allocateUnassigned (target - w.allocated .opportunistic) a = r at hgrown ⊢
      obtain ⟨w', result⟩ := r
      cases result <;> exact ⟨_, rfl, hgrown⟩
    · rename_i hgrows
      have hdesired : (if target < w.assigned .opportunistic then w.assigned .opportunistic else target) ≤
          w.allocated .opportunistic := by
        split_ifs
        · exact (haccounted w h).assigned_le .opportunistic
        · exact Nat.le_of_not_lt hgrows
      rw [subtract_of_le hdesired]
      have hslots : ∀ i ∈ List.range w.chunkCapacity, i < w.chunkCapacity :=
        fun i hi => List.mem_range.mp hi
      obtain ⟨w', reclaimed, hreclaim, h'⟩ :=
        reclaimUnassigned_invariant haccounted hstep h hslots (w.allocated .opportunistic - _) 0
      dsimp only [Option.bind_some]
      rw [hreclaim]
      dsimp only [Option.bind_some]
      split
      · rw [subtract_of_le (Nat.le_of_lt ‹_›)]
        exact ⟨_, rfl, h'⟩
      · exact ⟨_, rfl, h'⟩

/-- **A reconciliation keeps the accounts.** -/
theorem Accounted.reconcile (h : Accounted w) (a : Adapters) :
    ∃ r, w.reconcile a = some r ∧ Accounted r.1 :=
  reconcile_invariant (fun _ h => h) h a ((w.sameTable_reject _).accounted h)
    (fun _ hroom => h.allocateUnassigned hroom a) fun _ _ h hi hreusable => (h.reclaim hi hreusable).2

/-! ### Status -/

/-- The idle chunks. -/
def World.idle (w : World) : ℕ := w.count fun c => c.reusable .opportunistic = true

/-- **The allocated chunks of the Opportunistic Pool** are assigned, in quarantine or idle. -/
theorem allocated_opportunistic (h : Accounted w) : w.allocated .opportunistic =
    w.assigned .opportunistic + w.count (Chunk.QuarantinedIn .opportunistic) + w.idle := by
  have hrest : w.count (Chunk.Allocated .opportunistic) = w.count (Chunk.Assigned .opportunistic) +
      w.count fun c => Chunk.QuarantinedIn .opportunistic c ∨ c.reusable .opportunistic = true := by
    refine count_split (fun i _ => ?_) fun i _ => ?_
    · generalize w.chunks i = x, h.shape i = hx
      cases hx <;> simp
    · generalize w.chunks i = x, h.shape i = hx
      cases hx <;> simp
  have hidle :
      (w.count fun c => Chunk.QuarantinedIn .opportunistic c ∨ c.reusable .opportunistic = true) =
      w.count (Chunk.QuarantinedIn .opportunistic) + w.idle := by
    refine count_split (fun i _ => Iff.rfl) fun i _ => ?_
    generalize w.chunks i = x, h.shape i = hx
    cases hx <;> simp
  rw [h.allocated, h.assigned, hrest, hidle, Nat.add_assoc]

/-- What is safe to allocate: the chunks of the host above its reserve. -/
def World.safeNew (w : World) (bytes : ℕ) : ℕ := bytes / chunkBytes - w.config.hostReserveGib

/-- What a pool could still allocate. -/
def World.room (w : World) (q : Pool) : ℕ := w.config.maxGib q - w.allocated q

theorem countP_quarantined (w : World) : ((List.range w.chunkCapacity).countP fun i =>
    (w.chunks i).quarantined && (w.chunks i).pool = some .opportunistic) =
      w.count (Chunk.QuarantinedIn .opportunistic) := by
  rw [List.countP_eq_length_filter, length_filter_range]
  refine count_congr fun i _ => ?_
  rw [Bool.and_eq_true, decide_eq_true_eq]
  exact Iff.rfl

theorem maxGib_le (h : Accounted w) (q : Pool) : w.config.maxGib q ≤ maxRuntimeChunks := by
  have hvalid := h.valid
  unfold Config.valid at hvalid
  rw [Bool.and_eq_true, decide_eq_true_eq, decide_eq_true_eq] at hvalid
  cases q <;> omega

/-- **What the pools could admit**: the idle chunks and what is safe to allocate, within the room of
the pool, which only a chunk that the pool does not count yet takes. -/
theorem poolAvailable_eq (h : Accounted w) (bytes : ℕ) :
    ∃ available, w.poolAvailable bytes = some available ∧
    available .opportunistic = w.idle + min (w.safeNew bytes) (w.room .opportunistic) ∧
    available .committed = min (w.idle + w.safeNew bytes) (w.room .committed) := by
  have hallocated := allocated_opportunistic h
  have hmax := h.max
  have hbound := maxGib_le h
  have hsafe : (if bytes / chunkBytes > w.config.hostReserveGib then
      subtract (bytes / chunkBytes) w.config.hostReserveGib else some 0) = some (w.safeNew bytes) := by
    rw [World.safeNew]
    split_ifs with hreserve
    · exact subtract_of_le hreserve.le
    · rw [Nat.sub_eq_zero_of_le (Nat.le_of_not_lt hreserve)]
  have hidle : w.allocated .opportunistic - w.assigned .opportunistic -
      w.count (Chunk.QuarantinedIn .opportunistic) = w.idle := by omega
  unfold World.poolAvailable
  dsimp only
  rw [hsafe, countP_quarantined, subtract_of_le (h.assigned_le .opportunistic)]
  dsimp only [Option.bind_eq_bind, Option.bind_some]
  rw [subtract_of_le (by omega), subtract_of_le (hmax .opportunistic),
    subtract_of_le (hmax .committed), hidle]
  refine ⟨_, rfl, ?_, ?_⟩
  · have hlt : w.idle + min (w.safeNew bytes) (w.room .opportunistic) < 2 ^ 32 := by
      have := hmax .opportunistic
      have := hbound .opportunistic
      have : maxRuntimeChunks = 128 := rfl
      rw [World.room]
      omega
    have hmin :
      (if w.safeNew bytes < w.room .opportunistic then w.safeNew bytes else w.room .opportunistic) =
        min (w.safeNew bytes) (w.room .opportunistic) := by split_ifs <;> omega
    rw [← Nat.mod_eq_of_lt hlt, ← hmin]
    rfl
  · have hlt : min (w.idle + w.safeNew bytes) (w.room .committed) < 2 ^ 32 := by
      have := hbound .committed
      have : maxRuntimeChunks = 128 := rfl
      rw [World.room]
      omega
    have hmin : (if w.idle + w.safeNew bytes > w.room .committed then w.room .committed
      else w.idle + w.safeNew bytes) =
        min (w.idle + w.safeNew bytes) (w.room .committed) := by split_ifs <;> omega
    rw [← Nat.mod_eq_of_lt hlt, ← hmin]
    rfl

/-- What a Consumer could still be assigned from a pool. -/
def World.remaining (w : World) (c : Connection) (q : Pool) : ℕ :=
  c.maxChunks q - w.assignmentsForConsumer c.consumerId q

theorem withinQuota_eq (h : Accounted w) (hc : c ∈ w.connections) (available : Pool → ℕ) (q : Pool) :
    w.withinQuota c available q = some (min (available q) (w.remaining c q)) := by
  rw [World.withinQuota, subtract_of_le (h.quota c hc q)]
  change some (if available q > w.remaining c q then w.remaining c q else available q) = _
  congr 1
  split_ifs <;> omega

/-- **The status that a connection sees.** -/
theorem consumerStatus_eq (h : Accounted w) (hc : c ∈ w.connections) (available : Pool → ℕ) : ∃ status,
    w.consumerStatus c available = some status ∧
      (∀ q, status.available q = min (available q) (w.remaining c q)) ∧
      status.consumerAssigned = w.assignmentsForConsumer c.consumerId := by
  rw [World.consumerStatus, withinQuota_eq h hc, withinQuota_eq h hc]
  refine ⟨_, rfl, fun q => ?_, rfl⟩
  cases q <;> rfl

theorem getStatus_isSome (h : Accounted w) (owner : Option Owner) (a : Adapters) :
    (w.getStatus owner a).isSome = true := by
  unfold World.getStatus
  cases owner with
  | none =>
    cases a.available with
    | none => rfl
    | some bytes =>
      obtain ⟨available, havailable, -⟩ := poolAvailable_eq h bytes
      dsimp only
      rw [havailable]
      rfl
  | some owner =>
    dsimp only
    cases hc : w.findConnection owner with
    | none => rfl
    | some c =>
      dsimp only
      cases a.available with
      | none => rfl
      | some bytes =>
        obtain ⟨available, havailable, -⟩ := poolAvailable_eq h bytes
        obtain ⟨status, hstatus, -⟩ := consumerStatus_eq h (find_owner hc).1 available
        dsimp only
        rw [havailable]
        dsimp only [Option.bind_eq_bind, Option.bind_some]
        rw [hstatus]
        rfl

/-! ### Runs -/

theorem accounted_create {config : Config} (h : create config = some w) : Accounted w := by
  unfold create at h
  split_ifs at h with hvalid
  cases h
  have hcount (P : Chunk → Prop) [DecidablePred P] (hP : ¬P {}) (n : ℕ) :
      Nat.count (fun _ => P {}) n = 0 :=
    count_eq_zero fun _ _ => hP
  exact
    { shape := fun _ => .empty
      allocated := fun q => (hcount _ (by simp) _).symm
      quarantined := (hcount (fun c => c.quarantined = true) (by simp) _).symm
      owners := List.nodup_nil
      limit := nofun
      agree := nofun
      valid := hvalid
      capacity := rfl
      max := fun _ => Nat.zero_le _
      assigned := fun q => (hcount _ (by simp) _).symm
      connected := nofun
      connection := nofun
      quota := nofun }

/-- **Every call keeps the accounts**, and every call has a result. -/
theorem Accounted.call (h : Accounted w) (l : Label) : ∃ w', w.call l = some w' ∧ Accounted w' := by
  cases l with
  | connect consumerId owner maxConnections maxChunks heap =>
    exact ⟨_, rfl, h.connect consumerId owner maxConnections maxChunks heap⟩
  | disconnect owner a => exact ⟨_, rfl, h.disconnect owner a⟩
  | acquire owner pool count adapter grantCapacity a =>
    exact ⟨_, rfl, h.acquire owner pool count adapter grantCapacity a⟩
  | release owner ids cause a => exact ⟨_, rfl, h.release owner ids cause a⟩
  | reconcile a =>
    obtain ⟨r, hr, haccounted⟩ := h.reconcile a
    exact ⟨r.1, by rw [World.call, hr]; rfl, haccounted⟩
  | getStatus owner a =>
    obtain ⟨r, hr⟩ := Option.isSome_iff_exists.mp (getStatus_isSome h owner a)
    exact ⟨w, by rw [World.call, hr]; rfl, h⟩

theorem accounted_reachable (h : system.Reachable w) : Accounted w := by
  refine System.Reach.invariant (fun w hw => ?_) (fun w l w' _ hw _ hstep => ?_) h
  · obtain ⟨config, hw⟩ := hw
    exact accounted_create hw
  · obtain ⟨w'', hcall, h'⟩ := hw.call l
    cases hcall.symm.trans hstep
    exact h'

/-- The chunks of the table that are assigned to the connections of a Consumer. -/
def World.chunksOfConsumer (w : World) (consumerId : List UInt8) (q : Pool) : ℕ :=
  (w.connections.map fun d =>
    if d.consumerId = consumerId then w.count (Chunk.OwnedBy q d.owner) else 0).sum

theorem chunksOfConsumer_eq (h : Accounted w) (consumerId : List UInt8) (q : Pool) :
    w.chunksOfConsumer consumerId q = w.assignmentsForConsumer consumerId q := by
  rw [World.chunksOfConsumer, World.assignmentsForConsumer]
  refine congrArg List.sum (List.map_congr_left fun d hd => ?_)
  rw [h.connection d hd q]

/-- **Accounting.** In every state that the manager reaches, its counters and those of its
connections are the counts of the table, nobody owns a chunk in quarantine and no call grants it,
the pools and the Consumers are within their limits, and no difference of a status or of a
reconciliation wraps around. -/
theorem memory_accounting (h : system.Reachable w) :
    ((∀ q, w.allocated q = w.count (Chunk.Allocated q)) ∧
      (∀ q, w.assigned q = w.count (Chunk.Assigned q)) ∧
      w.quarantined = w.count fun x => x.quarantined = true) ∧
    (∀ c ∈ w.connections, ∀ q, c.assigned q = w.count (Chunk.OwnedBy q c.owner)) ∧
    (∀ i, (w.chunks i).quarantined = true → (w.chunks i).owner = none ∧
      ∀ owner pool count adapter grantCapacity a w' grants,
        w.acquire owner pool count adapter grantCapacity a = (w', .ok grants) →
          i ∉ grants.map (·.providerChunkId)) ∧
    (∀ q, w.allocated q ≤ w.config.maxGib q) ∧
    (∀ c ∈ w.connections, (∀ q, w.chunksOfConsumer c.consumerId q ≤ c.maxChunks q) ∧
      w.connectionCountForConsumer c.consumerId ≤ c.maxConnections) ∧
    (∀ owner a, (w.getStatus owner a).isSome = true) ∧ ∀ a, (w.reconcile a).isSome = true := by
  have ha := accounted_reachable h
  refine ⟨⟨ha.allocated, ha.assigned, ha.quarantined⟩, ha.connection, fun i hi => ⟨?_, ?_⟩, ha.max,
    fun c hc => ⟨fun q => ?_, ha.limit c hc⟩, getStatus_isSome ha, fun a => ?_⟩
  · generalize w.chunks i = x, ha.shape i = hx at hi
    cases hx with
    | empty | idle | assigned => cases hi
    | quarantined => rfl
  · intro owner pool count adapter grantCapacity a w' grants hacquire hmem
    obtain ⟨g, hg, rfl⟩ := List.mem_map.mp hmem
    rw [(acquire_unassigned ha.shape hacquire hg).2] at hi
    cases hi
  · rw [chunksOfConsumer_eq ha]
    exact ha.quota c hc q
  · obtain ⟨r, hr, -⟩ := ha.reconcile a
    rw [hr]
    rfl

/-- The manager after the calls, from its creation with two chunks in each pool and a Host Reserve of
one. -/
def sampleWorld (calls : List Label) : Option World :=
  system.exec { config := ⟨1, fun _ => 2⟩, chunkCapacity := 4 } calls

theorem exists_sample (calls : List Label) {P : World → Prop} [DecidablePred P]
    (h : (sampleWorld calls).any (fun w => decide (P w)) = true) : ∃ w, system.Reachable w ∧ P w :=
  System.exists_of_exec ⟨⟨1, fun _ => 2⟩, rfl⟩ h

/-- A connection is made, and of two chunks that it asks for, the second is not registered and the
registration of the first is not removed. -/
def cleanupFailedRun : List Label :=
  [.connect [97] (some 1) 1 (fun _ => 2) true,
    .acquire (some 1) (some .committed) 2 (some 7) (some 2)
      { available := some (8 * chunkBytes), register := fun i => i = 0, deregister := fun i => i ≠ 0 }]

theorem memory_accounting_sample : ∃ w, system.Reachable w ∧ w.allocated .committed = 1 ∧
    w.count (Chunk.Allocated .committed) = 1 ∧ (w.count fun x => x.quarantined = true) = 1 := by
  obtain ⟨w, hreach, hend⟩ : ∃ w, system.Reachable w ∧ w.allocated .committed = 1 ∧ w.quarantined = 1 :=
    exists_sample cleanupFailedRun (by decide +kernel)
  obtain ⟨⟨hallocated, -, hquarantined⟩, -⟩ := memory_accounting hreach
  exact ⟨w, hreach, hend.1, (hallocated _).symm.trans hend.1, hquarantined.symm.trans hend.2⟩

end Memory
end Infiniswap
