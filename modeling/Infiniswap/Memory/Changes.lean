/-
# What a call does to the memory

A call of the manager is a row of changes, and each is one of seven: a report or a
change of the connections, a request that is rolled back or granted, a chunk that is
released, growth that is given back or placed in the table, and an idle chunk that is
reclaimed. `call_changes` says so once; what a run keeps is then proved change by
change (`call_invariant`).
-/
import Mathlib.Logic.Relation
import Infiniswap.Memory.Transaction

namespace Infiniswap
namespace Memory

open Keyed Relation Transition

variable {w w' : World} {c : Connection} {a : Adapters} {i : ℕ} {free : Prop} {new : List UInt8 → Prop}

/-- The Consumer and the address of an event that begins or ends an assignment. -/
def Event.use : Event → Option (List UInt8 × ℕ)
  | .assigned id x => some (id, x)
  | .unassigned id x => some (id, x)
  | _ => none

/-- The connection owns the chunk, and has it from the opportunistic pool. -/
def World.borrows (w : World) (o : Owner) (i : ℕ) : Bool :=
  (w.chunks i).owner = some o && (w.chunks i).pool = some .opportunistic

/-- The call hands opportunistic memory of its caller back to the pool without freeing it. -/
def handsBack (w : World) : Label → Bool
  | .release owner ids cause _ =>
    cause ≠ some .pressure && owner.any fun o => (ids.getD []).any (w.borrows o)
  | .disconnect owner _ => owner.any fun o => (List.range w.chunkCapacity).any (w.borrows o)
  | _ => false

theorem World.not_opportunistic {o : Owner} (h : w.borrows o i = false)
    (ho : (w.chunks i).owner = some o) : (w.chunks i).pool ≠ some .opportunistic := by
  simpa [borrows, ho] using h

/-- The Consumer that the call connects. -/
def Label.connects : Label → List UInt8 → Prop
  | .connect consumerId _ _ _ _, id => id = consumerId
  | _, _ => False

/-- The Consumers that are connected. -/
def World.consumers (w : World) : List (List UInt8) := w.connections.map (·.consumerId)

/-- The table and what it holds are as they were. Consumers that come are `new`. -/
structure Quiet (new : List UInt8 → Prop) (w w' : World) : Prop where
  chunks : w'.chunks = w.chunks
  chunkCapacity : w'.chunkCapacity = w.chunkCapacity
  addresses : w'.addresses = w.addresses
  registrations : w'.registrations = w.registrations
  log : ∃ events, w'.log = events ++ w.log ∧ ∀ e ∈ events, e.use = none ∧ e.entry = none
  consumers : ∀ id ∈ w'.consumers, id ∈ w.consumers ∨ new id

/-- One change of the memory. If the call is `free`, what it releases is freed. -/
inductive Change (free : Prop) (new : List UInt8 → Prop) (w : World) : World → Prop
  | quiet {w' : World} (h : Quiet new w w') : Change free new w w'
  | rolledBack {w₀ pool ps events} (hh : InHand w w₀ pool ps events)
      (adapter : ℕ) (a : Adapters) (reason : Rejection) :
      Change free new w ((w₀.reject reason).rolledBack pool adapter a ps)
  | granted {w₀ pool ps events} (hh : InHand w w₀ pool ps events)
      {c : Connection} (hc : c.consumerId ∈ w.consumers) (adapter : ℕ) :
      Change free new w (w₀.grant c pool adapter ps).1
  | released {c : Connection} {cause} {i : ℕ} (hc : c.consumerId ∈ w.consumers)
      (hshape : Shape (w.chunks i)) (hi : i < w.chunkCapacity)
      (howner : (w.chunks i).owner = some c.owner)
      (hfree : free → cause = .pressure ∨ (w.chunks i).pool ≠ some .opportunistic) :
      Change free new w (w.releaseSlot c cause i)
  | returned {w₁ ps events} (hh : InHand w w₁ .opportunistic ps events)
      (hnew : ∀ p ∈ ps, p.newlyAllocated = true) (hnone : registrationsOf ps = []) (reason : Rejection) :
      Change free new w ((w₁.reject reason).freeUnassigned ps)
  | placed {w₁ ps events} (hh : InHand w w₁ .opportunistic ps events)
      (hnew : ∀ p ∈ ps, p.newlyAllocated = true) (hnone : registrationsOf ps = []) (f : Pool → ℕ) :
      Change free new w { w₁.placeUnassigned ps with allocated := f }
  | reclaimed {i : ℕ} (hshape : Shape (w.chunks i)) (hi : i < w.chunkCapacity)
      (hreusable : (w.chunks i).reusable .opportunistic = true) : Change free new w (w.reclaim i)

theorem Change.reject (w : World) (reason : Rejection) : Change free new w (w.reject reason) :=
  .quiet ⟨rfl, rfl, rfl, rfl, ⟨[], rfl, nofun⟩, fun _ hid => .inl hid⟩

/-! ### Admission and growth -/

/-- **How a request ends**: it is refused, or what it has in hand is rolled back or granted. -/
theorem acquire_changes (hshape : ∀ i, Shape (w.chunks i)) {owner : Option Owner}
    {pool : Option Pool} {count : ℕ} {adapter grantCapacity : Option ℕ}
    {r : Except Failure (List Grant)}
    (hacquire : w.acquire owner pool count adapter grantCapacity a = (w', r)) :
    ReflTransGen (Change free new) w w' := by
  rcases acquire_cases hacquire with
    ⟨f, -, -, rfl | ⟨rfl, -⟩⟩ | ⟨_, c, pool', adapter', -, hc, -, -, -, -, hpopulate⟩
  · exact .refl
  · exact .single (.reject w _)
  · obtain ⟨hs, hfresh, hnone⟩ := requested_select hshape pool' count
    obtain ⟨w₀, ps, events, hh, ⟨failure, -, -, heq⟩ | ⟨-, heq⟩⟩ :=
      populate_cases hs hfresh hnone c adapter' a
    · have hrollback := heq.symm.trans hpopulate
      have hchange : Change free new w _ := .rolledBack hh adapter' a failure.rejection
      rw [rollbackPending_eq] at hrollback
      split at hrollback
      · cases hrollback
        exact .single hchange
      · cases hrollback
        exact .tail (.single hchange) (.reject _ _)
    · have hgrant := heq.symm.trans hpopulate
      have hchange : Change free new w _ := .granted hh (List.mem_map_of_mem (find_owner hc).1) adapter'
      rw [hgrant] at hchange
      exact .single hchange

/-- **How growth ends**: it is refused, or what was allocated is freed again or placed in the table. -/
theorem allocateUnassigned_change (hshape : ∀ i, Shape (w.chunks i)) (count : ℕ) (a : Adapters) :
    ReflTransGen (Change free new) w (w.allocateUnassigned count a).1 := by
  unfold World.allocateUnassigned
  split
  · exact .refl
  split
  · exact .single (.reject w _)
  dsimp only
  split
  · exact .single (.reject w _)
  have hs : Requested w .opportunistic ((w.emptySlots count).map newPending) := by
    refine ⟨selected_emptySlots hshape .opportunistic count, fun p hp hold => ?_⟩
    obtain ⟨i, -, rfl⟩ := List.mem_map.mp hp
    cases hold
  have hfresh : freshAddresses ((w.emptySlots count).map newPending) = [] :=
    List.filterMap_eq_nil_iff.mpr fun p hp => by
    obtain ⟨i, -, rfl⟩ := List.mem_map.mp hp
    rfl
  have hnone : registrationsOf ((w.emptySlots count).map newPending) = [] :=
    List.filterMap_eq_nil_iff.mpr fun p hp => by
    obtain ⟨i, -, rfl⟩ := List.mem_map.mp hp
    rfl
  obtain ⟨events, hh, -, hnone₁⟩ := inHand_allocated hs hfresh hnone a
  have hnew : ∀ p ∈ (w.allocatePending a ((w.emptySlots count).map newPending)).2.1,
      p.newlyAllocated = true :=
    fun _ hp => newlyAllocated_of_newPending a hp
  generalize hr : w.allocatePending a _ = r
  obtain ⟨w₁, ps₁, failure⟩ := r
  rw [show w.allocatePending a ((w.emptySlots count).map newPending) =
    (w₁, ps₁, failure) from hr] at hh hnew hnone₁
  cases failure with
  | some failure => exact .single (.returned hh hnew hnone₁ failure.rejection)
  | none => exact .single (.placed hh hnew hnone₁ _)

/-! ### Release -/

theorem consumers_releaseSlot (w : World) (c : Connection) (cause : ReleaseCause) (i : ℕ) :
    (w.releaseSlot c cause i).consumers = w.consumers := by
  refine map_modifyFirst ?_ _
  exact fun _ => rfl

theorem releaseSlots_changes {cause : ReleaseCause} :
    ∀ {ids : List ℕ} {w : World}, Accounted w → Releasable w c ids →
    c.consumerId ∈ w.consumers →
    (free → ∀ i ∈ ids, cause = .pressure ∨ (w.chunks i).pool ≠ some .opportunistic) →
    ReflTransGen (Change free new) w (w.releaseSlots c cause ids) ∧
      (w.releaseSlots c cause ids).consumers = w.consumers
  | [], _, _, _, _, _ => ⟨.refl, rfl⟩
  | i :: ids, w, ha, hr, hc, hfree => by
    obtain ⟨hlt, howner⟩ := hr.owned i List.mem_cons_self
    have hconsumers := consumers_releaseSlot w c cause i
    have hrest (h : free) : ∀ j ∈ ids,
        cause = .pressure ∨ ((w.releaseSlot c cause i).chunks j).pool ≠ some .opportunistic := by
      intro j hj
      rw [releaseSlot_chunks_ne (ne_of_mem_of_not_mem hj (List.nodup_cons.mp hr.nodup).1)]
      exact hfree h j (List.mem_cons_of_mem _ hj)
    obtain ⟨htail, hkept⟩ := releaseSlots_changes (ha.releaseSlot cause hlt howner) (hr.tail cause)
      (hconsumers.symm ▸ hc) hrest
    exact ⟨.head (.released hc (ha.shape i) hlt howner fun h => hfree h i List.mem_cons_self) htail,
      hkept.trans hconsumers⟩

section

variable (ha : Accounted w)

include ha

/-- **A release takes one chunk after the other**, and reports where it stops. -/
theorem releaseEach_changes {cause : ReleaseCause} {ids : List ℕ} (hr : Releasable w c ids)
    (hc : c.consumerId ∈ w.consumers)
    (hfree : free → ∀ i ∈ ids, cause = .pressure ∨ (w.chunks i).pool ≠ some .opportunistic)
    (a : Adapters) :
    ReflTransGen (Change free new) w (w.releaseEach c cause a ids).1 ∧
      (w.releaseEach c cause a ids).1.consumers = w.consumers := by
  rcases releaseEach_eq (I := Accounted) (fun _ h => h.shape)
    (fun _ _ h hi ho => h.releaseSlot cause hi ho) a ha hr with
    ⟨-, heq⟩ | ⟨done, i, rest, rfl, -, -, heq⟩
  · rw [heq]
    exact releaseSlots_changes ha hr hc hfree
  · have hdone : Releasable w c done :=
      ⟨(List.nodup_append.mp hr.nodup).1, fun j hj => hr.owned j (List.mem_append_left _ hj)⟩
    obtain ⟨hreleased, hkept⟩ :=
      releaseSlots_changes ha hdone hc fun h j hj => hfree h j (List.mem_append_left _ hj)
    rw [heq]
    refine ⟨hreleased.tail (.quiet ⟨rfl, rfl, rfl, rfl, ⟨[_], rfl, ?_⟩, fun _ hid => .inl hid⟩), hkept⟩
    exact List.forall_mem_singleton.mpr ⟨rfl, rfl⟩

theorem release_changes (owner : Option Owner) (ids : Option (List ℕ)) (cause : Option ReleaseCause)
    (a : Adapters) : ReflTransGen (Change (handsBack w (.release owner ids cause a) = false) new) w
      (w.release owner ids cause a).1 := by
  unfold World.release
  split
  · rename_i owner ids cause
    split
    · exact .refl
    split
    · exact .refl
    rename_i c hc
    split
    · exact .refl
    · exact .single (.reject w _)
    · rename_i hcheck
      obtain ⟨hmem, hown⟩ := find_owner hc
      have hreleasable := releasable_checked hc hcheck
      refine (releaseEach_changes ha hreleasable (List.mem_map_of_mem hmem) (fun hback i hi => ?_) a).1
      by_cases hpressure : cause = .pressure
      · exact .inl hpressure
      · simp only [handsBack, Option.getD_some, Bool.and_eq_false_iff, decide_eq_false_iff_not,
          not_not, Option.some.injEq, hpressure, false_or, Option.any_some, List.any_eq_false,
          Bool.not_eq_true, ne_eq] at hback
        exact .inr (World.not_opportunistic (hback i hi)
          ((hreleasable.owned i hi).2.trans (congrArg some hown)))
  · exact .refl

theorem disconnect_changes (owner : Option Owner) (a : Adapters) :
    ReflTransGen (Change (handsBack w (.disconnect owner a) = false) new) w (w.disconnect owner a).1 := by
  unfold World.disconnect
  cases owner with
  | none => exact .refl
  | some owner =>
    dsimp only
    cases hc : w.findConnection owner with
    | none => exact .refl
    | some c =>
      obtain ⟨hmem, hown⟩ := find_owner hc
      have hkept (hback : handsBack w (.disconnect (some owner) a) = false) :
          ∀ i ∈ (List.range w.chunkCapacity).filter fun i => (w.chunks i).owner = some c.owner,
            ReleaseCause.disconnect = .pressure ∨ (w.chunks i).pool ≠ some .opportunistic := by
        intro i hi
        obtain ⟨hlt, ho⟩ := List.mem_filter.mp hi
        simp only [handsBack, Option.any_some, List.any_eq_false, Bool.not_eq_true] at hback
        exact .inr (World.not_opportunistic (hback i hlt)
          ((of_decide_eq_true ho).trans (congrArg some hown)))
      obtain ⟨hchanges, -⟩ :=
        releaseEach_changes ha (releasable_owned w c) (List.mem_map_of_mem hmem) hkept a
      dsimp only
      rw [disconnectEach_eq a List.nodup_range]
      generalize w.releaseEach c .disconnect a _ = r at hchanges
      obtain ⟨w', result⟩ := r
      by_cases hok : result = .ok
      · cases hok
        refine hchanges.tail (.quiet ⟨rfl, rfl, rfl, rfl, ⟨[], rfl, nofun⟩, fun id hid => .inl ?_⟩)
        obtain ⟨d, hd, rfl⟩ := List.mem_map.mp hid
        exact List.mem_map_of_mem (mem_of_mem_swapRemove hd)
      · cases result <;> first | exact absurd rfl hok | exact hchanges

/-! ### Calls -/

/-- **Every call is a row of changes.** -/
theorem call_changes {l : Label} (hcall : w.call l = some w') :
    ReflTransGen (Change (handsBack w l = false) l.connects) w w' := by
  cases l with
  | connect consumerId owner maxConnections maxChunks heap =>
    cases hcall
    unfold World.connect
    dsimp only
    split
    · exact .refl
    split_ifs
    · exact .refl
    iterate 4 exact .single (.reject w _)
    all_goals
      refine .single (.quiet ⟨rfl, rfl, rfl, rfl, ⟨[], rfl, nofun⟩, fun id hid => ?_⟩)
      rw [World.consumers, List.map_append] at hid
      exact (List.mem_append.mp hid).imp_right List.mem_singleton.mp
  | disconnect owner a =>
    cases hcall
    exact disconnect_changes ha owner a
  | acquire owner pool count adapter grantCapacity a =>
    cases hcall
    exact acquire_changes ha.shape (r := (w.acquire owner pool count adapter grantCapacity a).2) rfl
  | release owner ids cause a =>
    cases hcall
    exact release_changes ha owner ids cause a
  | reconcile a =>
    obtain ⟨r, hr, -, hchanges⟩ := reconcile_invariant (I := fun v => Accounted v ∧
        ReflTransGen (Change (handsBack w (.reconcile a) = false) (Label.connects (.reconcile a))) w v)
      (fun _ h => h.1) ⟨ha, .refl⟩ a ⟨(w.sameTable_reject _).accounted ha, .single (.reject w _)⟩
      (fun count hroom => ⟨ha.allocateUnassigned hroom a, allocateUnassigned_change ha.shape count a⟩)
      fun v i h hi hreusable =>
        ⟨(h.1.reclaim hi hreusable).2, h.2.tail (.reclaimed (h.1.shape i) hi hreusable)⟩
    rw [World.call, hr] at hcall
    cases hcall
    exact hchanges
  | getStatus owner a =>
    obtain ⟨r, -, rfl⟩ := Option.map_eq_some_iff.mp hcall
    exact .refl

/-- The rule of invariants: what every change keeps, every call keeps. -/
theorem call_invariant {I : World → Prop} {l : Label} (hcall : w.call l = some w') (h : I w)
    (hstep : ∀ v v', I v → Change (handsBack w l = false) l.connects v v' → I v') : I w' := by
  have hchanges := call_changes ha hcall
  clear hcall
  induction hchanges with
  | refl => exact h
  | tail _ hchange ih => exact hstep _ _ ih hchange

end

end Memory
end Infiniswap
