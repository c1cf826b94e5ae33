/-
# What is advertised is what is admitted

The status of a connection and the admission of a request compute from the table
in different ways: the status from counters and minima, the admission by a
selection of slots and checks on it. Both come to the idle chunks, what the Host
Reserve leaves to allocate, the room of the pool and what is left of the quota.
-/
import Infiniswap.Memory.Pressure

namespace Infiniswap
namespace Memory

open Counting

variable {w : World} {c : Connection} {pool : Pool} {ps : List Pending} {a : Adapters}

/-- No allocation and no registration fails. -/
structure Adapters.Succeeds (a : Adapters) : Prop where
  heap : a.heap = true
  allocate : ∀ i, a.allocate i = true
  touch : ∀ i, a.touch i = true
  register : ∀ i, a.register i = true

/-! ### The loops of a request that nothing stops -/

theorem Adapters.Succeeds.allocatePending (h : a.Succeeds) : ∀ (ps : List Pending) (w : World),
    ∃ w' ps', w.allocatePending a ps = (w', ps', none)
  | [], w => ⟨w, [], rfl⟩
  | p :: ps, w => by
    unfold World.allocatePending
    dsimp only
    rw [h.allocate, h.touch]
    split
    · obtain ⟨w', ps', heq⟩ := Adapters.Succeeds.allocatePending h ps w
      exact ⟨w', p :: ps', by rw [heq]⟩
    · obtain ⟨w', ps', heq⟩ := Adapters.Succeeds.allocatePending h ps
        (({ w.record [.allocated w.addresses] with addresses := w.addresses + 1 } : World).record
        [.cleared w.addresses])
      exact ⟨w', { p with address := some w.addresses } :: ps', by
        rw [if_neg (by decide), if_neg (by decide)]
        exact congrArg (fun r => (r.1, { p with address := some w.addresses } :: r.2.1, r.2.2)) heq⟩

theorem Adapters.Succeeds.registerPending (h : a.Succeeds) : ∀ (ps : List Pending) (w : World),
    ∃ w' ps', w.registerPending a ps = (w', ps', none)
  | [], w => ⟨w, [], rfl⟩
  | p :: ps, w => by
    obtain ⟨w', ps', heq⟩ := Adapters.Succeeds.registerPending h ps
      { w.record (p.address.toList.map (.registered w.registrations ·)) with
      registrations := w.registrations + 1 }
    refine ⟨w', { p with registration := some w.registrations } :: ps', ?_⟩
    rw [World.registerPending, h.register, if_neg (by decide)]
    dsimp only
    rw [heq]

theorem Adapters.Succeeds.populate (h : a.Succeeds) (w : World) (c : Connection) (pool : Pool)
    (adapter : ℕ) (ps : List Pending) :
    ∃ w' grants, w.populate c pool adapter a ps = (w', .ok grants) := by
  obtain ⟨w₁, ps₁, hallocate⟩ := h.allocatePending ps w
  obtain ⟨w₂, ps₂, hregister⟩ := h.registerPending ps₁ w₁
  unfold World.populate
  rw [hallocate]
  dsimp only
  rw [hregister]
  exact ⟨_, _, rfl⟩

/-- **A request is admitted** where it is not empty, within the quota, and passes the checks on what
is selected. -/
theorem acquire_iff (h : a.Succeeds) {owner : Owner} (hc : w.findConnection owner = some c) (pool : Pool)
    {n grantCapacity : ℕ} (hn : n ≤ grantCapacity) (adapter : ℕ)
    (hquota : w.assignmentsForConsumer c.consumerId pool ≤ c.maxChunks pool) :
    (∃ w' grants, w.acquire (some owner) (some pool) n (some adapter) (some grantCapacity) a =
      (w', .ok grants)) ↔
      1 ≤ n ∧ n ≤ w.remaining c pool ∧ w.checkPending pool n a (w.select pool n) = none := by
  have hvalidate : w.validateAcquire c (some pool) n =
      if n ≤ w.remaining c pool then .ok pool else .error ⟨.quotaExceeded, .consumerQuota⟩ := by
    unfold World.validateAcquire World.remaining
    dsimp only
    split_ifs <;> first | rfl | omega
  unfold World.acquire
  dsimp only
  rw [h.heap, hc]
  dsimp only
  rw [hvalidate]
  by_cases hzero : n = 0
  · rw [if_pos (Or.inl hzero)]
    constructor
    · rintro ⟨_, _, heq⟩
      cases heq
    · omega
  rw [if_neg (by omega), if_neg (by decide)]
  by_cases hleft : n ≤ w.remaining c pool
  · rw [if_pos hleft]
    dsimp only
    cases hcheck : w.checkPending pool n a (w.select pool n) with
    | some failure =>
      constructor
      · rintro ⟨_, _, heq⟩
        cases heq
      · rintro ⟨_, _, heq⟩
        cases heq
    | none => exact ⟨fun _ => ⟨by omega, hleft, rfl⟩, fun _ => h.populate w c pool adapter _⟩
  · rw [if_neg hleft]
    constructor
    · rintro ⟨_, _, heq⟩
      cases heq
    · rintro ⟨_, hle, _⟩
      exact absurd hle hleft

/-! ### The slots that a request can take -/

/-- The empty slots. -/
def World.empty (w : World) : ℕ := w.count fun x => x.address.isNone = true

theorem allocated_add_empty (h : Accounted w) :
    w.allocated .opportunistic + w.allocated .committed + w.empty = w.chunkCapacity := by
  have hpools : (w.count fun x => x.address.isSome = true) =
      w.count (Chunk.Allocated .opportunistic) + w.count (Chunk.Allocated .committed) := by
    refine count_split (fun i _ => ?_) fun i _ => ?_
    · generalize w.chunks i = x, h.shape i = hx
      cases hx with
      | empty => simp
      | idle => simp [idleChunk, Chunk.Allocated]
      | assigned _ _ _ _ q => cases q <;> simp [assignedChunk, Chunk.Allocated]
      | quarantined _ _ _ q => cases q <;> simp [quarantinedChunk, Chunk.Allocated]
    · rintro ⟨-, hq⟩ ⟨-, hq'⟩
      cases hq.symm.trans hq'
  have hall : Nat.count (fun _ => True) w.chunkCapacity =
      (w.count fun x => x.address.isSome = true) + w.empty := by
    refine count_split (fun i _ => ?_) fun i _ => ?_
    · change True ↔ (w.chunks i).address.isSome = true ∨ (w.chunks i).address.isNone = true
      cases (w.chunks i).address <;> simp
    · change (w.chunks i).address.isSome = true → ¬(w.chunks i).address.isNone = true
      cases (w.chunks i).address <;> simp
  rw [h.allocated, h.allocated, ← hpools, ← hall, Nat.count_true]

theorem empty_eq (h : Accounted w) : w.empty = w.room .opportunistic + w.room .committed := by
  have hempty := allocated_add_empty h
  have hopportunistic := h.max .opportunistic
  have hcommitted := h.max .committed
  rw [h.capacity] at hempty
  rw [World.room, World.room]
  omega

/-- **What the selection takes, counted.** -/
theorem select_counts (h : Accounted w) (pool : Pool) (n : ℕ) :
    (w.select pool n).length = min n w.idle + min (n - w.idle) w.empty ∧
    (w.select pool n).countP (·.newlyAllocated) = min (n - w.idle) w.empty ∧
    (w.select pool n).countP (fun p => !p.newlyAllocated && !p.convertedFromOpportunistic) =
      if pool = .opportunistic then min n w.idle else 0 := by
  have hidle : (w.idleSlots n).length = min n w.idle := length_firstSlots w _ n
  have hempty : (w.emptySlots (n - (w.idleSlots n).length)).length = min (n - w.idle) w.empty := by
    rw [World.emptySlots, length_firstSlots, hidle]
    change min (n - min n w.idle) w.empty = _
    omega
  rw [select_eq h.shape]
  refine ⟨?_, ?_, ?_⟩
  · rw [List.length_append, List.length_map, List.length_map, hempty, hidle]
  · simp [Function.comp_def, World.reuse, newPending, hempty]
  · cases pool <;> simp [Function.comp_def, World.reuse, newPending, hidle]

/-- **The checks on a selection** are what the status computes. -/
theorem checkPending_iff (h : Accounted w) {bytes : ℕ} (ha : a.available = some bytes)
    {available : Pool → ℕ} (havailable : w.poolAvailable bytes = some available) (pool : Pool)
    (n : ℕ) : w.checkPending pool n a (w.select pool n) = none ↔ n ≤ available pool := by
  obtain ⟨_, heq, hopportunistic, hcommitted⟩ := poolAvailable_eq h bytes
  cases heq.symm.trans havailable
  obtain ⟨hlength, hnew, hsame⟩ := select_counts h pool n
  have hempty := empty_eq h
  have hmax := h.max pool
  unfold World.checkPending
  dsimp only
  rw [hlength, hnew, hsame, ha]
  dsimp only
  unfold World.room at hempty hopportunistic hcommitted
  unfold World.safeNew at hopportunistic hcommitted
  cases pool with
  | opportunistic =>
    rw [if_pos rfl, hopportunistic]
    split_ifs <;> simp only [true_iff, false_iff] <;> omega
  | committed =>
    rw [if_neg (show ¬Pool.committed = .opportunistic by decide), hcommitted]
    split_ifs <;> simp only [true_iff, false_iff] <;> omega

/-! ### The status and the admission -/

/-- **What is advertised is what is admitted.** Where the memory of the host reads the same for both
calls, and nothing is missing that a request needs, a request of a connection is admitted exactly if
it asks for a chunk at least and for no more than its status says; it is then granted as many as it
asked for. -/
theorem available_iff_admitted (h : system.Reachable w) (hc : c ∈ w.connections) (pool : Pool)
    (ha : a.Succeeds) {bytes : ℕ} (hbytes : a.available = some bytes) {b : Adapters}
    (hb : b.available = some bytes) {n grantCapacity : ℕ} (hn : n ≤ grantCapacity) (adapter : ℕ) :
    ∃ status, w.getStatus (some c.owner) b = some (.ok status) ∧
      ((∃ w' grants, w.acquire (some c.owner) (some pool) n (some adapter) (some grantCapacity) a =
          (w', .ok grants)) ↔ 1 ≤ n ∧ n ≤ status.available pool) ∧
      ∀ w' grants, w.acquire (some c.owner) (some pool) n (some adapter) (some grantCapacity) a =
        (w', .ok grants) → grants.length = n := by
  have haccounted := accounted_reachable h
  have hfind : w.findConnection c.owner = some c := haccounted.toRoster.find hc
  obtain ⟨available, havailable, -⟩ := poolAvailable_eq haccounted bytes
  obtain ⟨status, hstatus, hstatusAvailable, -⟩ := consumerStatus_eq haccounted hc available
  refine ⟨status, ?_, ?_, fun _ _ => acquire_length⟩
  · unfold World.getStatus
    dsimp only
    rw [hfind, hb]
    dsimp only
    rw [havailable]
    dsimp only [Option.bind_eq_bind, Option.bind_some]
    rw [hstatus]
    rfl
  · rw [acquire_iff ha hfind pool hn adapter (haccounted.quota c hc pool),
      checkPending_iff haccounted hbytes havailable, hstatusAvailable, le_min_iff,
      and_comm (a := n ≤ w.remaining c pool)]

/-- Two Consumers are connected; one holds a committed chunk, and the host has three chunks above
its reserve. -/
def admissionRun : List Label :=
  [.connect [97] (some 1) 1 (fun _ => 2) true, .connect [98] (some 2) 1 (fun _ => 2) true,
    .acquire (some 1) (some .committed) 1 (some 7) (some 1) { available := some (4 * chunkBytes) }]

/-- It is told of one more committed chunk, is granted one, and refused two. -/
theorem available_iff_admitted_sample : ∃ w c status, system.Reachable w ∧ c ∈ w.connections ∧
    w.getStatus (some c.owner) { available := some (4 * chunkBytes) } = some (.ok status) ∧
    status.available .committed = 1 ∧
    (∃ w' grants, w.acquire (some c.owner) (some .committed) 1 (some 7) (some 2)
      { available := some (4 * chunkBytes) } = (w', .ok grants) ∧ grants.length = 1) ∧
    ¬ ∃ w' grants, w.acquire (some c.owner) (some .committed) 2 (some 7) (some 2)
      { available := some (4 * chunkBytes) } = (w', .ok grants) := by
  obtain ⟨w, hreach, hconnected, hone⟩ : ∃ w, system.Reachable w ∧
      w.connections.head?.any (·.owner = 1) ∧
      (w.getStatus (some 1) { available := some (4 * chunkBytes) }).any fun r =>
        r.toOption.any (·.available .committed = 1) := exists_sample admissionRun (by decide +kernel)
  obtain ⟨c, hc, howner⟩ := (Option.any_eq_true _ _).mp hconnected
  have hmem : c ∈ w.connections := List.mem_of_mem_head? hc
  have hsucceeds : Adapters.Succeeds { available := some (4 * chunkBytes) } :=
    ⟨rfl, fun _ => rfl, fun _ => rfl, fun _ => rfl⟩
  obtain ⟨status, hstatus, hadmit, hlength⟩ := available_iff_admitted hreach hmem .committed hsucceeds rfl
    (b := { available := some (4 * chunkBytes) }) rfl (Nat.le_succ 1) 7
  obtain ⟨status', hstatus', hrefuse, -⟩ := available_iff_admitted hreach hmem .committed hsucceeds rfl
    (b := { available := some (4 * chunkBytes) }) rfl (Nat.le_refl 2) 7
  cases hstatus.symm.trans hstatus'
  have havailable : status.available .committed = 1 := by
    rw [of_decide_eq_true howner] at hstatus
    rw [hstatus] at hone
    exact of_decide_eq_true hone
  obtain ⟨w', grants, hgrant⟩ := hadmit.mpr ⟨le_rfl, havailable.ge⟩
  refine ⟨w, c, status, hreach, hmem, hstatus, havailable,
    ⟨w', grants, hgrant, hlength w' grants hgrant⟩, fun h => ?_⟩
  have htwo := (hrefuse.mp h).2
  omega

end Memory
end Infiniswap
