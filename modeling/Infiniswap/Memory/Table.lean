/-
# The table of chunks

A slot of the table has one of four shapes, and every change that a call makes is
the overwriting of one slot. What a call does to a counter is then what it does to
the count of the slots that the counter stands for.
-/
import Infiniswap.Lib.Counting
import Infiniswap.Memory.Reconcile

namespace Infiniswap
namespace Memory

open Counting Keyed

/-! ### Shapes -/

/-- An idle chunk: allocated, and assigned to nobody. -/
def idleChunk (address : ℕ) : Chunk := { address := some address, pool := some .opportunistic }

/-- A chunk that is assigned to a connection. -/
def assignedChunk (address registration : ℕ) (owner : Owner) (adapter : ℕ) (pool : Pool) : Chunk where
  address := some address
  registration := some registration
  owner := some owner
  registrationAdapter := some adapter
  pool := some pool

/-- A chunk whose registration could not be removed. -/
def quarantinedChunk (address registration adapter : ℕ) (pool : Pool) : Chunk where
  address := some address
  registration := some registration
  registrationAdapter := some adapter
  pool := some pool
  quarantined := true

/-- **The shapes of a slot.** Only the Opportunistic Pool has idle chunks. -/
inductive Shape : Chunk → Prop
  | empty : Shape {}
  | idle (address : ℕ) : Shape (idleChunk address)
  | assigned (address registration : ℕ) (owner : Owner) (adapter : ℕ) (pool : Pool) :
      Shape (assignedChunk address registration owner adapter pool)
  | quarantined (address registration adapter : ℕ) (pool : Pool) :
      Shape (quarantinedChunk address registration adapter pool)

namespace Chunk

variable (p : Pool) (o : Owner) (c : Chunk)

/-- The chunk is allocated in the pool. -/
def Allocated : Prop := c.address.isSome ∧ c.pool = some p

/-- The chunk is assigned from the pool. -/
def Assigned : Prop := c.owner.isSome ∧ c.pool = some p

/-- The chunk is assigned to the owner from the pool. -/
def OwnedBy : Prop := c.owner = some o ∧ c.pool = some p

/-- The chunk is in quarantine, and counts in the pool. -/
def QuarantinedIn : Prop := c.quarantined = true ∧ c.pool = some p

instance : DecidablePred (Chunk.Allocated p) := fun _ => inferInstanceAs (Decidable (_ ∧ _))

instance : DecidablePred (Chunk.Assigned p) := fun _ => inferInstanceAs (Decidable (_ ∧ _))

instance : DecidablePred (Chunk.OwnedBy p o) := fun _ => inferInstanceAs (Decidable (_ ∧ _))

instance : DecidablePred (Chunk.QuarantinedIn p) := fun _ => inferInstanceAs (Decidable (_ ∧ _))

end Chunk

/-! What the predicates say of each shape. -/

section Shapes

variable {p q : Pool} {o o' : Owner} {address registration adapter : ℕ}

@[simp] theorem allocated_empty : Chunk.Allocated p {} ↔ False := by simp [Chunk.Allocated]

@[simp] theorem allocated_idle : Chunk.Allocated p (idleChunk address) ↔ p = .opportunistic := by
  simp [Chunk.Allocated, idleChunk, eq_comm]

@[simp] theorem allocated_assigned :
    Chunk.Allocated p (assignedChunk address registration o adapter q) ↔ p = q := by
  simp [Chunk.Allocated, assignedChunk, eq_comm]

@[simp] theorem allocated_quarantined :
    Chunk.Allocated p (quarantinedChunk address registration adapter q) ↔ p = q := by
  simp [Chunk.Allocated, quarantinedChunk, eq_comm]

@[simp] theorem assigned_empty : Chunk.Assigned p {} ↔ False := by simp [Chunk.Assigned]

@[simp] theorem assigned_idle :
    Chunk.Assigned p (idleChunk address) ↔ False := by simp [Chunk.Assigned, idleChunk]

@[simp] theorem assigned_assigned :
    Chunk.Assigned p (assignedChunk address registration o adapter q) ↔ p = q := by
  simp [Chunk.Assigned, assignedChunk, eq_comm]

@[simp] theorem assigned_quarantined :
    Chunk.Assigned p (quarantinedChunk address registration adapter q) ↔ False := by
  simp [Chunk.Assigned, quarantinedChunk]

@[simp] theorem ownedBy_empty : Chunk.OwnedBy p o {} ↔ False := by simp [Chunk.OwnedBy]

@[simp] theorem ownedBy_assigned :
    Chunk.OwnedBy p o (assignedChunk address registration o' adapter q) ↔ o = o' ∧ p = q := by
  simp [Chunk.OwnedBy, assignedChunk, eq_comm]

@[simp] theorem quarantinedIn_empty : Chunk.QuarantinedIn p {} ↔ False := by simp [Chunk.QuarantinedIn]

@[simp] theorem quarantinedIn_idle : Chunk.QuarantinedIn p (idleChunk address) ↔ False := by
  simp [Chunk.QuarantinedIn, idleChunk]

@[simp] theorem quarantinedIn_assigned :
    Chunk.QuarantinedIn p (assignedChunk address registration o adapter q) ↔ False := by
  simp [Chunk.QuarantinedIn, assignedChunk]

@[simp] theorem quarantinedIn_quarantined :
    Chunk.QuarantinedIn p (quarantinedChunk address registration adapter q) ↔ p = q := by
  simp [Chunk.QuarantinedIn, quarantinedChunk, eq_comm]

@[simp] theorem reusable_empty : Chunk.reusable {} p = false := by simp [Chunk.reusable]

@[simp] theorem reusable_idle : (idleChunk address).reusable p = decide (p = .opportunistic) := by
  cases p <;> simp [Chunk.reusable, idleChunk]

@[simp] theorem reusable_assigned :
    (assignedChunk address registration o adapter q).reusable p = false := by
  simp [Chunk.reusable, assignedChunk]

@[simp] theorem reusable_quarantined :
    (quarantinedChunk address registration adapter q).reusable p = false := by
  simp [Chunk.reusable, quarantinedChunk]

end Shapes

theorem Shape.of_owner {c : Chunk} (h : Shape c) {o : Owner} (ho : c.owner = some o) :
    ∃ address registration adapter pool, c = assignedChunk address registration o adapter pool := by
  cases h with
  | empty => cases ho
  | idle => cases ho
  | assigned address registration owner adapter pool =>
    cases ho
    exact ⟨address, registration, adapter, pool, rfl⟩
  | quarantined => cases ho

theorem reusable_iff {c : Chunk} (h : Shape c) {p : Pool} :
    c.reusable p = true ↔ p = .opportunistic ∧ ∃ address, c = idleChunk address := by
  cases h with
  | empty => simp [idleChunk]
  | idle address =>
    rw [reusable_idle, decide_eq_true_eq]
    exact ⟨fun hp => ⟨hp, address, rfl⟩, And.left⟩
  | assigned =>
    rw [reusable_assigned]
    simp [idleChunk, assignedChunk]
  | quarantined =>
    rw [reusable_quarantined]
    simp [idleChunk, quarantinedChunk]

theorem address_isNone_iff {c : Chunk} (h : Shape c) : c.address.isNone = true ↔ c = {} := by
  cases h <;> simp [idleChunk, assignedChunk, quarantinedChunk]

/-! ### Counts -/

/-- How many slots of the table satisfy a predicate. -/
def World.count (w : World) (P : Chunk → Prop) [DecidablePred P] : ℕ :=
  Nat.count (fun i => P (w.chunks i)) w.chunkCapacity

variable {w w' : World} {i : ℕ} {c : Connection}

/-- Slot `i` is overwritten. -/
structure World.Overwrites (w w' : World) (i : ℕ) (x : Chunk) : Prop where
  index : i < w.chunkCapacity
  chunks : w'.chunks = Function.update w.chunks i x
  chunkCapacity : w'.chunkCapacity = w.chunkCapacity

variable {x : Chunk}

/-- **A slot that is overwritten** is counted as it was before and as it is after. -/
theorem World.Overwrites.count (h : w.Overwrites w' i x) (P : Chunk → Prop) [DecidablePred P] :
    w'.count P + (if P (w.chunks i) then 1 else 0) = w.count P + if P x then 1 else 0 := by
  rw [World.count, World.count, h.chunks, h.chunkCapacity]
  exact count_update P h.index x

/-- The allocated chunks and those in quarantine are counted right, and every slot has one of the
shapes. -/
structure Tally (w : World) : Prop where
  shape : ∀ i, Shape (w.chunks i)
  allocated : ∀ p, w.allocated p = w.count (Chunk.Allocated p)
  quarantined : w.quarantined = w.count fun c => c.quarantined = true

theorem Tally.overwrite (ht : Tally w) (h : w.Overwrites w' i x) (hx : Shape x)
    (hallocated : ∀ p, w'.allocated p + (if Chunk.Allocated p (w.chunks i) then 1 else 0) =
      w.allocated p + if Chunk.Allocated p x then 1 else 0)
    (hquarantined : w'.quarantined + (if (w.chunks i).quarantined = true then 1 else 0) =
      w.quarantined + if x.quarantined = true then 1 else 0) : Tally w' where
  shape j := by
    rw [h.chunks]
    by_cases hj : j = i
    · rw [hj, Function.update_self]
      exact hx
    · rw [Function.update_of_ne hj]
      exact ht.shape j
  allocated p := by
    have hcount := h.count (Chunk.Allocated p)
    have := hallocated p
    rw [ht.allocated p] at this
    omega
  quarantined := by
    have hcount := h.count fun c => c.quarantined = true
    rw [ht.quarantined] at hquarantined
    omega

/-! ### Release of a chunk -/

/-- What is left in the slot of a chunk that was released. -/
def leftover (address : ℕ) (pool : Pool) (cause : ReleaseCause) : Chunk :=
  if cause = .pressure ∨ pool = .committed then {} else idleChunk address

theorem leftover_shape (address : ℕ) (pool : Pool) (cause : ReleaseCause) :
    Shape (leftover address pool cause) := by
  rw [leftover]
  split
  · exact .empty
  · exact .idle address

theorem leftover_owner (address : ℕ) (pool : Pool) (cause : ReleaseCause) :
    (leftover address pool cause).owner = none := by
  rw [leftover]
  split <;> rfl

/-- The manager after a chunk was released. -/
def World.released (w : World) (c : Connection) (i address registration : ℕ) (pool : Pool)
    (cause : ReleaseCause) : World where
  config := w.config
  chunks := Function.update w.chunks i (leftover address pool cause)
  connections := modifyFirst (fun d => d.owner = c.owner)
    (fun d => { d with assigned := decrease d.assigned pool 1 }) w.connections
  chunkCapacity := w.chunkCapacity
  connectionCapacity := w.connectionCapacity
  allocated := if cause = .pressure ∨ pool = .committed then decrease w.allocated pool 1 else w.allocated
  assigned := decrease w.assigned pool 1
  quarantined := w.quarantined
  admissions := w.admissions
  rejections := w.rejections
  pressureReclaims :=
    if pool = .opportunistic ∧ cause = .pressure then w.pressureReclaims + 1 else w.pressureReclaims
  lastRejection := w.lastRejection
  healthy := w.healthy
  addresses := w.addresses
  registrations := w.registrations
  log := (if cause = .pressure ∨ pool = .committed then [.freed address] else []) ++
    [.unassigned c.consumerId address, .deregistered registration true] ++ w.log

/-- **What `release_chunk_locked` does to an assigned chunk.** -/
theorem releaseChunk_eq {address registration adapter : ℕ} {pool : Pool} (cause : ReleaseCause)
    (a : Adapters) (h : w.chunks i = assignedChunk address registration c.owner adapter pool) :
    w.releaseChunk c i cause a =
      if a.deregister i then (w.released c i address registration pool cause, .ok)
      else ((w.record [.deregistered registration false]).reject .cleanupFailed, .cleanupFailed) := by
  unfold World.releaseChunk
  simp only [h, assignedChunk, Option.isSome_some, true_and, Bool.not_eq_true', Option.toList_some,
    List.map_cons, List.map_nil, Option.getD_some, Option.some.injEq]
  by_cases hd : a.deregister i = true
  · rw [if_neg (by simp [hd]), if_pos hd]
    by_cases hfree : cause = .pressure ∨ pool = .committed
    · rw [if_pos hfree]
      simp [World.released, World.record, World.setChunk, World.modifyConnection, leftover, hfree]
    · rw [if_neg hfree]
      have hpool : pool = .opportunistic := by
        cases pool
        · rfl
        · exact absurd (.inr rfl) hfree
      have hcause : cause ≠ .pressure := fun hc => hfree (.inl hc)
      subst hpool
      simp [World.released, World.record, World.setChunk, World.modifyConnection, leftover, hcause,
        idleChunk]
  · rw [if_pos (Bool.eq_false_iff.mpr hd), if_neg hd]

/-- The chunk in slot `i` is released. -/
def World.releaseSlot (w : World) (c : Connection) (cause : ReleaseCause) (i : ℕ) : World :=
  w.released c i ((w.chunks i).address.getD 0) ((w.chunks i).registration.getD 0)
    ((w.chunks i).pool.getD .committed) cause

theorem releaseSlot_chunks_ne {j : ℕ} (hne : j ≠ i) (cause : ReleaseCause) :
    (w.releaseSlot c cause i).chunks j = w.chunks j :=
  Function.update_of_ne hne _ _

/-- The chunks in the slots are released, one after the other. -/
def World.releaseSlots (w : World) (c : Connection) (cause : ReleaseCause) (ids : List ℕ) : World :=
  ids.foldl (fun w i => w.releaseSlot c cause i) w

/-- Different slots whose chunks are assigned to the connection. -/
structure Releasable (w : World) (c : Connection) (ids : List ℕ) : Prop where
  nodup : ids.Nodup
  owned : ∀ i ∈ ids, i < w.chunkCapacity ∧ (w.chunks i).owner = some c.owner

theorem Releasable.tail {ids : List ℕ} (h : Releasable w c (i :: ids)) (cause : ReleaseCause) :
    Releasable (w.releaseSlot c cause i) c ids where
  nodup := (List.nodup_cons.mp h.nodup).2
  owned j hj := by
    have hne : j ≠ i := fun hji => (List.nodup_cons.mp h.nodup).1 (hji ▸ hj)
    obtain ⟨hlt, howner⟩ := h.owned j (List.mem_cons_of_mem _ hj)
    refine ⟨hlt, ?_⟩
    rw [releaseSlot_chunks_ne hne]
    exact howner

theorem releaseSlots_invariant {I : World → Prop} {cause : ReleaseCause}
    (hstep : ∀ w i, I w → i < w.chunkCapacity → (w.chunks i).owner = some c.owner →
      I (w.releaseSlot c cause i)) :
    ∀ {ids : List ℕ} {w : World}, I w → Releasable w c ids → I (w.releaseSlots c cause ids)
  | [], _, h, _ => h
  | i :: ids, w, h, hr => by
    obtain ⟨hlt, howner⟩ := hr.owned i List.mem_cons_self
    have htail := releaseSlots_invariant hstep (hstep w i h hlt howner) (hr.tail cause)
    exact htail

theorem releaseSlots_chunks (cause : ReleaseCause) : ∀ {ids : List ℕ} {w : World}, ids.Nodup → ∀ j,
    (w.releaseSlots c cause ids).chunks j =
      if j ∈ ids then leftover ((w.chunks j).address.getD 0) ((w.chunks j).pool.getD .committed) cause
      else w.chunks j
  | [], _, _, _ => rfl
  | i :: ids, w, hd, j => by
    obtain ⟨hi, hd⟩ := List.nodup_cons.mp hd
    have htail := releaseSlots_chunks cause (w := w.releaseSlot c cause i) hd j
    rw [World.releaseSlots, List.foldl_cons, ← World.releaseSlots]
    by_cases hj : j = i
    · subst hj
      rw [htail, if_neg hi, if_pos List.mem_cons_self]
      exact Function.update_self _ _ _
    · rw [htail, releaseSlot_chunks_ne hj]
      simp only [List.mem_cons, hj, false_or]

theorem releaseChunk_of_owned (h : Shape (w.chunks i)) (ho : (w.chunks i).owner = some c.owner)
    (cause : ReleaseCause) (a : Adapters) : w.releaseChunk c i cause a =
      if a.deregister i then (w.releaseSlot c cause i, .ok)
      else ((w.record [.deregistered ((w.chunks i).registration.getD 0) false]).reject .cleanupFailed,
        .cleanupFailed) := by
  obtain ⟨address, registration, adapter, pool, hchunk⟩ := h.of_owner ho
  rw [releaseChunk_eq cause a hchunk, World.releaseSlot, hchunk]
  rfl

/-- **A release stops at the first chunk that it cannot deregister**, and has released those before. -/
theorem releaseEach_eq {I : World → Prop} (hshape : ∀ w, I w → ∀ i, Shape (w.chunks i))
    {cause : ReleaseCause}
    (hstep : ∀ w i, I w → i < w.chunkCapacity → (w.chunks i).owner = some c.owner →
      I (w.releaseSlot c cause i)) (a : Adapters) :
    ∀ {ids : List ℕ} {w : World}, I w → Releasable w c ids →
    (∀ i ∈ ids, a.deregister i = true) ∧ w.releaseEach c cause a ids = (w.releaseSlots c cause ids, .ok) ∨
    ∃ done i rest, ids = done ++ i :: rest ∧ (∀ j ∈ done, a.deregister j = true) ∧
      a.deregister i = false ∧
      w.releaseEach c cause a ids =
        (((w.releaseSlots c cause done).record
          [.deregistered ((w.chunks i).registration.getD 0) false]).reject .cleanupFailed,
          .cleanupFailed)
  | [], w, _, _ => .inl ⟨nofun, rfl⟩
  | i :: ids, w, h, hr => by
    obtain ⟨hlt, howner⟩ := hr.owned i List.mem_cons_self
    have hchunk := releaseChunk_of_owned (hshape w h i) howner cause a
    by_cases hd : a.deregister i = true
    · rw [if_pos hd] at hchunk
      have htail := hr.tail cause
      rcases releaseEach_eq hshape hstep a (hstep w i h hlt howner) htail with ⟨hall, heq⟩ |
        ⟨done, j, rest, hids, hdone, hj, heq⟩
      · refine .inl ⟨List.forall_mem_cons.mpr ⟨hd, hall⟩, ?_⟩
        rw [World.releaseEach, hchunk]
        exact heq
      · refine .inr ⟨i :: done, j, rest, ?_, List.forall_mem_cons.mpr ⟨hd, hdone⟩, hj, ?_⟩
        · rw [hids, List.cons_append]
        · have hne : j ≠ i := by
            rintro rfl
            exact (List.nodup_cons.mp hr.nodup).1 (hids ▸ List.mem_append_right _ List.mem_cons_self)
          rw [World.releaseEach, hchunk]
          refine heq.trans ?_
          rw [releaseSlot_chunks_ne hne]
          rfl
    · rw [if_neg hd] at hchunk
      refine .inr ⟨[], i, ids, rfl, nofun, Bool.eq_false_iff.mpr hd, ?_⟩
      rw [World.releaseEach, hchunk]
      rfl

theorem releaseChunk_chunks_ne {j : ℕ} (hne : j ≠ i) (cause : ReleaseCause) (a : Adapters) :
    (w.releaseChunk c i cause a).1.chunks j = w.chunks j := by
  unfold World.releaseChunk
  dsimp only
  split
  · rfl
  split <;> simp [World.record, World.setChunk, World.modifyConnection, Function.update_of_ne hne]

theorem disconnectEach_eq (a : Adapters) : ∀ {slots : List ℕ} {w : World}, slots.Nodup →
    w.disconnectEach c a slots =
      w.releaseEach c .disconnect a (slots.filter fun i => (w.chunks i).owner = some c.owner)
  | [], _, _ => rfl
  | i :: slots, w, hd => by
    obtain ⟨hi, hd⟩ := List.nodup_cons.mp hd
    by_cases ho : (w.chunks i).owner = some c.owner
    · rw [World.disconnectEach, if_neg (not_not.mpr ho),
        List.filter_cons_of_pos (by simpa using ho), World.releaseEach]
      have hchunks : ∀ j ∈ slots, (w.releaseChunk c i .disconnect a).1.chunks j = w.chunks j :=
        fun j hj =>
        releaseChunk_chunks_ne (ne_of_mem_of_not_mem hj hi) .disconnect a
      generalize w.releaseChunk c i .disconnect a = r at hchunks ⊢
      obtain ⟨w', result⟩ := r
      have hfilter : (slots.filter fun j => (w'.chunks j).owner = some c.owner) =
          slots.filter fun j => (w.chunks j).owner = some c.owner :=
        List.filter_congr fun j hj => by rw [hchunks j hj]
      cases result with
      | ok =>
        rw [← hfilter]
        exact disconnectEach_eq a hd
      | _ => rfl
    · rw [World.disconnectEach, if_pos ho, List.filter_cons_of_neg (by simpa using ho)]
      exact disconnectEach_eq a hd

end Memory
end Infiniswap
