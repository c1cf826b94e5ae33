/-
# Accounts

The counters of the manager are the counts of its table, those of a connection are
the counts of the chunks it owns, and no limit is passed: the maxima of the pools,
the quotas that the connections of a Consumer share, and their number. Releasing
chunks keeps this, wherever it stops, and so do connections that come and go.
-/
import Mathlib.Tactic.Tauto
import Infiniswap.Memory.Table

namespace Infiniswap
namespace Memory

open Counting Keyed Transition

/-! ### Connections -/

variable {l l' : List Connection} {d : Connection} {ids : List ℕ} {owner : Owner}

/-- What a connection was made with. -/
def Connection.terms (c : Connection) : Connection := { c with assigned := fun _ => 0 }

/-- Different owners; a Consumer's connections share their terms and are not more than these allow. -/
structure Roster (l : List Connection) : Prop where
  owners : (l.map (·.owner)).Nodup
  limit : ∀ c ∈ l, l.countP (fun d => d.consumerId = c.consumerId) ≤ c.maxConnections
  agree : ∀ c ∈ l, ∀ d ∈ l, c.consumerId = d.consumerId →
    c.maxConnections = d.maxConnections ∧ c.maxChunks = d.maxChunks

theorem roster_map_terms : Roster (l.map Connection.terms) ↔ Roster l := by
  have howners : (l.map Connection.terms).map (·.owner) = l.map (·.owner) := by
    rw [List.map_map]
    rfl
  have hcount (id : List UInt8) : (l.map Connection.terms).countP (fun d => d.consumerId = id) =
      l.countP fun d => d.consumerId = id := by
    rw [List.countP_map]
    rfl
  constructor
  · intro h
    refine ⟨howners ▸ h.owners, fun c hc => ?_, fun c hc d hd => ?_⟩
    · rw [← hcount]
      exact h.limit c.terms (List.mem_map_of_mem hc)
    · exact h.agree c.terms (List.mem_map_of_mem hc) d.terms (List.mem_map_of_mem hd)
  · intro h
    refine ⟨howners.symm ▸ h.owners, ?_, ?_⟩
    · intro c hc
      obtain ⟨d, hd, rfl⟩ := List.mem_map.mp hc
      rw [hcount]
      exact h.limit d hd
    · intro c hc d hd
      obtain ⟨c', hc', rfl⟩ := List.mem_map.mp hc
      obtain ⟨d', hd', rfl⟩ := List.mem_map.mp hd
      exact h.agree c' hc' d' hd'

theorem Roster.of_terms (h : Roster l) (hterms : l'.map Connection.terms = l.map Connection.terms) :
    Roster l' := by
  rw [← roster_map_terms, hterms]
  exact roster_map_terms.mpr h

theorem Roster.subperm (h : Roster l) (hsub : l'.Subperm l) : Roster l' where
  owners := by
    obtain ⟨m, hperm, hsublist⟩ := hsub
    exact (hperm.map _).nodup_iff.mp ((hsublist.map _).nodup h.owners)
  limit c hc := (hsub.countP_le _).trans (h.limit c (hsub.subset hc))
  agree c hc d hd := h.agree c (hsub.subset hc) d (hsub.subset hd)

theorem owners_of_terms (hterms : l'.map Connection.terms = l.map Connection.terms) :
    l'.map (·.owner) = l.map (·.owner) := by
  have howners := congrArg (List.map (·.owner)) hterms
  rw [List.map_map, List.map_map] at howners
  exact howners

theorem exists_terms (hterms : l'.map Connection.terms = l.map Connection.terms) {e : Connection}
    (he : e ∈ l') : ∃ e' ∈ l, e'.consumerId = e.consumerId ∧ e'.maxChunks = e.maxChunks := by
  have hmem := List.mem_map_of_mem (f := Connection.terms) he
  rw [hterms] at hmem
  obtain ⟨e', he', hsame⟩ := List.mem_map.mp hmem
  exact ⟨e', he', congrArg (·.consumerId) hsame, congrArg (·.maxChunks) hsame⟩

theorem Roster.find (h : Roster l) {c : Connection} (hc : c ∈ l) :
    l.find? (fun d => d.owner = c.owner) = some c := by
  obtain ⟨d, hd⟩ : ∃ d, l.find? (fun d => d.owner = c.owner) = some d := by
    rw [← Option.isSome_iff_exists, List.find?_isSome]
    exact ⟨c, hc, by simp⟩
  have hmem := List.mem_of_find?_eq_some hd
  have howner : d.owner = c.owner := by simpa using List.find?_some hd
  rw [hd, List.inj_on_of_nodup_map h.owners hmem hc howner]

theorem Roster.mem_modify (h : Roster l) {o : Owner} {f : Connection → Connection}
    (hd : d ∈ modifyFirst (fun c => c.owner = o) f l) :
    (d ∈ l ∧ d.owner ≠ o) ∨ ∃ e ∈ l, e.owner = o ∧ d = f e := by
  have hunique : ∀ a ∈ l, ∀ b ∈ l, decide (a.owner = o) = true → decide (b.owner = o) = true → a = b :=
    fun a ha b hb hao hbo => List.inj_on_of_nodup_map h.owners ha hb
      ((of_decide_eq_true hao).trans (of_decide_eq_true hbo).symm)
  rcases mem_modifyFirst_of_unique hunique (List.Nodup.of_map _ h.owners) hd with ⟨hmem, hne⟩ |
    ⟨e, he, rfl⟩
  · exact .inl ⟨hmem, of_decide_eq_false hne⟩
  · have howner : e.owner = o := by simpa using List.find?_some he
    exact .inr ⟨e, List.mem_of_find?_eq_some he, howner, rfl⟩

/-! ### The invariant -/

/-- **Accounting.** -/
structure Accounted (w : World) : Prop extends Tally w, Roster w.connections where
  valid : w.config.valid = true
  capacity : w.chunkCapacity = w.config.maxGib .opportunistic + w.config.maxGib .committed
  max : ∀ p, w.allocated p ≤ w.config.maxGib p
  assigned : ∀ p, w.assigned p = w.count (Chunk.Assigned p)
  connected : ∀ i < w.chunkCapacity, ∀ o, (w.chunks i).owner = some o → o ∈ w.connections.map (·.owner)
  connection : ∀ c ∈ w.connections, ∀ p, c.assigned p = w.count (Chunk.OwnedBy p c.owner)
  quota : ∀ c ∈ w.connections, ∀ p, w.assignmentsForConsumer c.consumerId p ≤ c.maxChunks p

/-- What accounting is about is the same. -/
structure World.SameTable (w w' : World) : Prop where
  config : w'.config = w.config
  chunks : w'.chunks = w.chunks
  connections : w'.connections = w.connections
  chunkCapacity : w'.chunkCapacity = w.chunkCapacity
  allocated : w'.allocated = w.allocated
  assigned : w'.assigned = w.assigned
  quarantined : w'.quarantined = w.quarantined

theorem World.SameTable.refl (w : World) : w.SameTable w := ⟨rfl, rfl, rfl, rfl, rfl, rfl, rfl⟩

theorem World.SameTable.trans {w₁ w₂ w₃ : World} (h : w₁.SameTable w₂) (h' : w₂.SameTable w₃) :
    w₁.SameTable w₃ where
  config := h'.config.trans h.config
  chunks := h'.chunks.trans h.chunks
  connections := h'.connections.trans h.connections
  chunkCapacity := h'.chunkCapacity.trans h.chunkCapacity
  allocated := h'.allocated.trans h.allocated
  assigned := h'.assigned.trans h.assigned
  quarantined := h'.quarantined.trans h.quarantined

theorem World.sameTable_reject (w : World) (reason : Rejection) : w.SameTable (w.reject reason) :=
  ⟨rfl, rfl, rfl, rfl, rfl, rfl, rfl⟩

theorem World.sameTable_record (w : World) (events : List Event) : w.SameTable (w.record events) :=
  ⟨rfl, rfl, rfl, rfl, rfl, rfl, rfl⟩

variable {w w' : World} {i : ℕ} {c : Connection}

theorem World.SameTable.count (h : w.SameTable w') (P : Chunk → Prop) [DecidablePred P] :
    w'.count P = w.count P := by
  rw [World.count, World.count, h.chunks, h.chunkCapacity]

theorem World.SameTable.tally (h : w.SameTable w') (ht : Tally w) : Tally w' where
  shape i := h.chunks ▸ ht.shape i
  allocated p := by rw [h.allocated, h.count, ht.allocated]
  quarantined := by rw [h.quarantined, h.count, ht.quarantined]

theorem World.SameTable.accounted (h : w.SameTable w') (ha : Accounted w) : Accounted w' where
  toTally := h.tally ha.toTally
  toRoster := h.connections.symm ▸ ha.toRoster
  valid := h.config ▸ ha.valid
  capacity := by rw [h.chunkCapacity, h.config, ha.capacity]
  max p := by
    rw [h.allocated, h.config]
    exact ha.max p
  assigned p := by rw [h.assigned, h.count, ha.assigned]
  connected i hi o := by
    rw [h.chunks, h.connections]
    exact ha.connected i (h.chunkCapacity ▸ hi) o
  connection c hc p := by
    rw [h.connections] at hc
    rw [h.count, ha.connection c hc]
  quota c hc p := by
    rw [h.connections] at hc
    rw [World.assignmentsForConsumer, h.connections]
    exact ha.quota c hc p

/-! ### Release -/

theorem decrease_add {f : Pool → ℕ} {p q : Pool} (h : q = p → 0 < f p) :
    decrease f p 1 q + (if q = p then 1 else 0) = f q := by
  rw [decrease]
  split_ifs with hq
  · have := h hq
    subst hq
    omega
  · rfl

theorem assignmentsForConsumer_modify (h : Roster w.connections) (hd : d ∈ w.connections)
    (f : Connection → Connection) (hf : (f d).consumerId = d.consumerId) (id : List UInt8)
    (p : Pool) :
    (w.modifyConnection d.owner f).assignmentsForConsumer id p +
      (if d.consumerId = id then d.assigned p else 0) =
      w.assignmentsForConsumer id p + if d.consumerId = id then (f d).assigned p else 0 := by
  have hsum :=
    sum_modifyFirst (f := f) (fun c => if c.consumerId = id then c.assigned p else 0) (h.find hd)
  rw [hf] at hsum
  exact hsum

theorem Tally.positive (h : Tally w) (hi : i < w.chunkCapacity) {p : Pool}
    (ha : Chunk.Allocated p (w.chunks i)) : 0 < w.allocated p := by
  rw [h.allocated, World.count, Nat.count_eq_card_filter_range, Finset.card_pos]
  exact ⟨i, Finset.mem_filter.mpr ⟨Finset.mem_range.mpr hi, ha⟩⟩

section Released

variable {address registration adapter : ℕ} {pool : Pool} (cause : ReleaseCause)

theorem released_overwrites (hi : i < w.chunkCapacity) :
    w.Overwrites (w.released c i address registration pool cause) i (leftover address pool cause) :=
  ⟨hi, rfl, rfl⟩

theorem count_released (hi : i < w.chunkCapacity)
    (hchunk : w.chunks i = assignedChunk address registration c.owner adapter pool) (o : Owner)
    (p : Pool) :
    (w.released c i address registration pool cause).count (Chunk.Assigned p) +
      (if p = pool then 1 else 0) = w.count (Chunk.Assigned p) ∧
    (w.released c i address registration pool cause).count (Chunk.OwnedBy p o) +
      (if o = c.owner ∧ p = pool then 1 else 0) = w.count (Chunk.OwnedBy p o) := by
  have hover : w.Overwrites (w.released c i address registration pool cause) i
      (leftover address pool cause) :=
    released_overwrites cause hi
  have hassigned := hover.count (Chunk.Assigned p)
  have howned := hover.count (Chunk.OwnedBy p o)
  have hnone : ¬Chunk.Assigned p (leftover address pool cause) ∧
      ¬Chunk.OwnedBy p o (leftover address pool cause) := by
    simp [Chunk.Assigned, Chunk.OwnedBy, leftover_owner]
  simp only [hchunk, hnone, assigned_assigned, ownedBy_assigned, if_false, add_zero] at hassigned howned
  exact ⟨hassigned, howned⟩

theorem allocated_released (hpositive : 0 < w.allocated pool) (p : Pool) :
    (w.released c i address registration pool cause).allocated p + (if p = pool then 1 else 0) =
      w.allocated p + if Chunk.Allocated p (leftover address pool cause) then 1 else 0 := by
  rw [World.released, leftover]
  by_cases hfree : cause = .pressure ∨ pool = .committed
  · simp only [if_pos hfree, allocated_empty, if_false, add_zero]
    exact decrease_add fun _ => hpositive
  · have hpool : pool = .opportunistic := by
      cases pool
      · rfl
      · exact absurd (.inr rfl) hfree
    simp only [if_neg hfree, allocated_idle]
    rw [hpool]

theorem allocated_released_le (p : Pool) :
    (w.released c i address registration pool cause).allocated p ≤ w.allocated p := by
  by_cases hfree : cause = .pressure ∨ pool = .committed
  · simp only [World.released, if_pos hfree, decrease]
    split_ifs
    · exact Nat.sub_le _ _
    · exact le_rfl
  · simp only [World.released, if_neg hfree]
    exact le_rfl

theorem tally_released (h : Tally w) (hi : i < w.chunkCapacity)
    (hchunk : w.chunks i = assignedChunk address registration c.owner adapter pool) :
    Tally (w.released c i address registration pool cause) := by
  have hpositive : 0 < w.allocated pool := h.positive hi <| by
    rw [hchunk, allocated_assigned]
  refine h.overwrite (released_overwrites cause hi) (leftover_shape address pool cause) (fun p => ?_) ?_
  · rw [hchunk]
    simpa only [allocated_assigned] using allocated_released cause hpositive p
  · have hnot : (leftover address pool cause).quarantined = false := by
      rw [leftover]
      split <;> rfl
    rw [hchunk, hnot]
    rfl

/-- **A chunk that is released stays accounted for.** -/
theorem Accounted.released (h : Accounted w) (hi : i < w.chunkCapacity)
    (hchunk : w.chunks i = assignedChunk address registration c.owner adapter pool) :
    Accounted (w.released c i address registration pool cause) := by
  obtain ⟨d, hd, hdo⟩ := List.mem_map.mp (h.connected i hi c.owner (by rw [hchunk]; rfl))
  have hone : 0 < w.count (Chunk.OwnedBy pool c.owner) := by
    have hcount := (count_released cause hi hchunk c.owner pool).2
    rw [if_pos ⟨rfl, rfl⟩] at hcount
    omega
  have hterms : (w.released c i address registration pool cause).connections.map Connection.terms =
      w.connections.map Connection.terms := by
    refine map_modifyFirst ?_ _
    exact fun _ => rfl
  refine
    { toTally := tally_released cause h.toTally hi hchunk
      toRoster := h.toRoster.of_terms hterms
      valid := h.valid
      capacity := h.capacity
      max := fun p => (allocated_released_le cause p).trans (h.max p)
      assigned := fun p => ?_
      connected := fun j hlt o ho => ?_
      connection := fun e he p => ?_
      quota := fun e he p => ?_ }
  · have hp := (count_released cause hi hchunk c.owner p).1
    have hdec := decrease_add (f := w.assigned) (p := pool) (q := p) fun _ => by
      rw [h.assigned pool, ← (count_released cause hi hchunk c.owner pool).1, if_pos rfl]
      omega
    rw [h.assigned p] at hdec
    exact Nat.add_right_cancel (hdec.trans hp.symm)
  · rw [owners_of_terms hterms]
    rw [(released_overwrites cause hi).chunks] at ho
    by_cases hj : j = i
    · rw [hj, Function.update_self, leftover_owner] at ho
      cases ho
    · rw [Function.update_of_ne hj] at ho
      exact h.connected j hlt o ho
  · have hcount := (count_released cause hi hchunk e.owner p).2
    rcases h.toRoster.mem_modify he with ⟨hmem, hne⟩ | ⟨e', he', ho, rfl⟩
    · rw [if_neg fun hc => hne hc.1, ← h.connection e hmem p] at hcount
      exact hcount.symm
    · have hdec := decrease_add (f := e'.assigned) (p := pool) (q := p) fun _ => by
        rw [h.connection e' he' pool, ho]
        exact hone
      simp only [ho, true_and] at hcount
      rw [h.connection e' he' p, ho] at hdec
      simp only [ho]
      exact Nat.add_right_cancel (hdec.trans hcount.symm)
  · obtain ⟨e', he', hid, hmax⟩ := exists_terms hterms he
    have hsum := assignmentsForConsumer_modify h.toRoster hd
      (fun e => { e with assigned := decrease e.assigned pool 1 }) rfl e.consumerId p
    have hle : decrease d.assigned pool 1 p ≤ d.assigned p := by
      rw [decrease]
      split_ifs <;> omega
    have hquota := h.quota e' he' p
    rw [hid, hmax] at hquota
    rw [hdo] at hsum
    have hsame :
        (w.released c i address registration pool cause).assignmentsForConsumer e.consumerId p =
        (w.modifyConnection c.owner fun e => { e with
          assigned := decrease e.assigned pool 1 }).assignmentsForConsumer e.consumerId p := rfl
    rw [hsame]
    dsimp only at hsum
    split_ifs at hsum <;> omega

end Released

section

variable (h : Accounted w) (cause : ReleaseCause)

include h cause

theorem Accounted.releaseSlot (hi : i < w.chunkCapacity) (ho : (w.chunks i).owner = some c.owner) :
    Accounted (w.releaseSlot c cause i) := by
  obtain ⟨address, registration, adapter, pool, hchunk⟩ := (h.shape i).of_owner ho
  rw [World.releaseSlot, hchunk]
  exact h.released cause hi hchunk

theorem Accounted.releaseSlots (hr : Releasable w c ids) :
    Accounted (w.releaseSlots c cause ids) :=
  releaseSlots_invariant (fun _ _ h hi ho => h.releaseSlot cause hi ho) h hr

theorem Accounted.releaseEach (a : Adapters) (hr : Releasable w c ids) :
    Accounted (w.releaseEach c cause a ids).1 := by
  rcases releaseEach_eq (fun _ h => h.shape) (fun _ _ h hi ho => h.releaseSlot cause hi ho) a h hr with
    ⟨-, heq⟩ | ⟨done, i, rest, rfl, -, -, heq⟩
  · rw [heq]
    exact h.releaseSlots cause hr
  · have hdone : Releasable w c done :=
      ⟨(List.nodup_append.mp hr.nodup).1, fun j hj => hr.owned j (List.mem_append_left _ hj)⟩
    rw [heq]
    exact ((World.sameTable_record _ _).trans (World.sameTable_reject _ _)).accounted
      (h.releaseSlots cause hdone)

end

theorem checkRelease_ok {cause : ReleaseCause} : ∀ {seen ids : List ℕ},
    w.checkRelease owner cause seen ids = .ok () → ids.Nodup ∧ (∀ i ∈ ids, i ∉ seen) ∧
      ∀ i ∈ ids, i < w.chunkCapacity ∧ (w.chunks i).owner = some owner ∧
        (cause = .pressure → (w.chunks i).pool ≠ some .committed)
  | _, [], _ => ⟨.nil, nofun, nofun⟩
  | seen, i :: ids, h => by
    unfold World.checkRelease at h
    split_ifs at h with hfound hprotected hseen
    obtain ⟨hnodup, hnew, howned⟩ := checkRelease_ok h
    push Not at hfound
    refine ⟨List.nodup_cons.mpr ⟨fun hi => hnew i hi List.mem_cons_self, hnodup⟩, ?_, ?_⟩
    · refine List.forall_mem_cons.mpr ⟨hseen, fun j hj hmem => hnew j hj (List.mem_cons_of_mem _ hmem)⟩
    · exact List.forall_mem_cons.mpr ⟨⟨hfound.1, hfound.2, fun hc hp => hprotected ⟨hc, hp⟩⟩, howned⟩

theorem find_owner (h : w.findConnection owner = some c) : c ∈ w.connections ∧ c.owner = owner :=
  ⟨List.mem_of_find?_eq_some h, by simpa using List.find?_some h⟩

theorem releasable_checked {cause : ReleaseCause} (hc : w.findConnection owner = some c)
    (hcheck : w.checkRelease owner cause [] ids = .ok ()) : Releasable w c ids := by
  obtain ⟨hnodup, -, howned⟩ := checkRelease_ok hcheck
  refine ⟨hnodup, fun i hi => ⟨(howned i hi).1, ?_⟩⟩
  rw [(find_owner hc).2]
  exact (howned i hi).2.1

theorem Accounted.release (h : Accounted w) (owner : Option Owner) (ids : Option (List ℕ))
    (cause : Option ReleaseCause) (a : Adapters) : Accounted (w.release owner ids cause a).1 := by
  unfold World.release
  split
  · rename_i owner ids cause
    split
    · exact h
    split
    · exact h
    rename_i c hc
    split
    · exact h
    · exact (w.sameTable_reject _).accounted h
    · rename_i hcheck
      exact h.releaseEach cause a (releasable_checked hc hcheck)
  · exact h

/-! ### Connections come and go -/

theorem releasable_owned (w : World) (c : Connection) :
    Releasable w c ((List.range w.chunkCapacity).filter fun i => (w.chunks i).owner = some c.owner) where
  nodup := List.nodup_range.filter _
  owned i hi := by
    obtain ⟨hlt, ho⟩ := List.mem_filter.mp hi
    exact ⟨List.mem_range.mp hlt, of_decide_eq_true ho⟩

theorem Accounted.remove (h : Accounted w) {k : ℕ} (hk : k < w.connections.length)
    (hnone : ∀ i < w.chunkCapacity, (w.chunks i).owner ≠ some w.connections[k].owner) :
    Accounted { w with connections := swapRemove w.connections k } := by
  have hperm := cons_swapRemove_perm hk
  have hsub : (swapRemove w.connections k).Subperm w.connections :=
    (List.sublist_cons_self _ _).subperm.trans hperm.subperm
  refine
    { toTally := ⟨h.shape, h.allocated, h.quarantined⟩
      toRoster := h.toRoster.subperm hsub
      valid := h.valid
      capacity := h.capacity
      max := h.max
      assigned := h.assigned
      connected := fun i hi o ho => ?_
      connection := fun e he p => h.connection e (hsub.subset he) p
      quota := fun e he p => ?_ }
  · have hmem := (hperm.map (·.owner)).mem_iff.mpr (h.connected i hi o ho)
    rcases List.mem_cons.mp hmem with rfl | hmem
    · exact absurd ho (hnone i hi)
    · exact hmem
  · refine le_trans ?_ (h.quota e (hsub.subset he) p)
    have hsum := (hperm.map fun d => if d.consumerId = e.consumerId then d.assigned p else 0).sum_eq
    rw [List.map_cons, List.sum_cons] at hsum
    rw [World.assignmentsForConsumer, World.assignmentsForConsumer, ← hsum]
    exact Nat.le_add_left _ _

theorem releaseSlots_capacity (cause : ReleaseCause) : ∀ (ids : List ℕ) (w : World),
    (w.releaseSlots c cause ids).chunkCapacity = w.chunkCapacity
  | [], _ => rfl
  | _ :: ids, _ => releaseSlots_capacity cause ids _

theorem releaseSlots_owners (cause : ReleaseCause) : ∀ (ids : List ℕ) (w : World),
    (w.releaseSlots c cause ids).connections.map (·.owner) = w.connections.map (·.owner)
  | [], _ => rfl
  | i :: ids, w => by
    refine (releaseSlots_owners cause ids (w.releaseSlot c cause i)).trans (map_modifyFirst ?_ _)
    exact fun _ => rfl

theorem owner_findIdx (hc : w.findConnection owner = some c)
    (howners : l.map (·.owner) = w.connections.map (·.owner)) :
    ∃ hk : w.connections.findIdx (fun c => c.owner = owner) < l.length,
      l[w.connections.findIdx fun c => c.owner = owner].owner = owner := by
  have hfound : w.connections.findIdx (fun c => c.owner = owner) < w.connections.length :=
    List.findIdx_lt_length_of_exists ⟨c, (find_owner hc).1, by simpa using (find_owner hc).2⟩
  have hk : w.connections.findIdx (fun c => c.owner = owner) < l.length := by
    have hlength := congrArg List.length howners
    rw [List.length_map, List.length_map] at hlength
    rwa [hlength]
  have hat := List.getElem_of_eq howners (by rwa [List.length_map])
  rw [List.getElem_map, List.getElem_map] at hat
  refine ⟨hk, hat.trans ?_⟩
  simpa using List.findIdx_getElem (w := hfound)

theorem Accounted.disconnected (h : Accounted w) (hc : w.findConnection owner = some c) :
    let w' := w.releaseSlots c .disconnect
      ((List.range w.chunkCapacity).filter fun i => (w.chunks i).owner = some c.owner)
    Accounted { w' with
      connections := swapRemove w'.connections (w.connections.findIdx fun c => c.owner = owner) } := by
  intro w'
  have hr := releasable_owned w c
  obtain ⟨hk, howner⟩ :=
    owner_findIdx hc (releaseSlots_owners .disconnect _ w : w'.connections.map (·.owner) = _)
  refine (h.releaseSlots .disconnect hr).remove hk fun i hi ho => ?_
  rw [howner, ← (find_owner hc).2, releaseSlots_chunks _ hr.nodup] at ho
  split_ifs at ho with hmem
  · rw [leftover_owner] at ho
    cases ho
  · rw [releaseSlots_capacity] at hi
    exact hmem (List.mem_filter.mpr ⟨List.mem_range.mpr hi, by simpa using ho⟩)

theorem Accounted.disconnect (h : Accounted w) (owner : Option Owner) (a : Adapters) :
    Accounted (w.disconnect owner a).1 := by
  unfold World.disconnect
  split
  · exact h
  rename_i owner
  split
  · exact h
  rename_i c hc
  have hr := releasable_owned w c
  have heach := h.releaseEach .disconnect a hr
  rw [disconnectEach_eq a List.nodup_range]
  rcases releaseEach_eq (fun _ h => h.shape)
    (fun _ _ h hi ho => h.releaseSlot .disconnect hi ho) a h hr with
    ⟨-, heq⟩ | ⟨done, i, rest, -, -, -, heq⟩
  · rw [heq]
    exact h.disconnected hc
  · rw [heq] at heach ⊢
    exact heach

/-- A new connection of an owner that has none, under the terms of the Consumer's other connections. -/
structure Admissible (l : List Connection) (d : Connection) : Prop where
  fresh : d.owner ∉ l.map (·.owner)
  limit : l.countP (fun c => c.consumerId = d.consumerId) < d.maxConnections
  terms : ∀ c ∈ l, c.consumerId = d.consumerId → c.maxConnections = d.maxConnections ∧
    c.maxChunks = d.maxChunks
  assigned : ∀ p, d.assigned p = 0

theorem Roster.append (h : Roster l) (hd : Admissible l d) : Roster (l ++ [d]) where
  owners := by
    rw [List.map_append, List.map_singleton]
    exact List.nodup_append.mpr ⟨h.owners, List.nodup_singleton _, fun a ha b hb => by
      rw [List.mem_singleton.mp hb]
      exact ne_of_mem_of_not_mem ha hd.fresh⟩
  limit c hc := by
    rw [List.countP_append, List.countP_singleton]
    rcases List.mem_append.mp hc with hc | hc
    · by_cases hsame : d.consumerId = c.consumerId
      · have hlimit := hd.limit
        rw [hsame] at hlimit
        rw [(hd.terms c hc hsame.symm).1, if_pos (by simpa using hsame)]
        exact hlimit
      · rw [if_neg (by simpa using hsame)]
        exact h.limit c hc
    · rw [List.mem_singleton.mp hc, if_pos (by simp)]
      exact hd.limit
  agree c hc e he hid := by
    rcases List.mem_append.mp hc with hc | hc <;> rcases List.mem_append.mp he with he | he
    · exact h.agree c hc e he hid
    · rw [List.mem_singleton.mp he] at hid ⊢
      exact hd.terms c hc hid
    · rw [List.mem_singleton.mp hc] at hid ⊢
      obtain ⟨hmax, hchunks⟩ := hd.terms e he hid.symm
      exact ⟨hmax.symm, hchunks.symm⟩
    · rw [List.mem_singleton.mp hc, List.mem_singleton.mp he]
      exact ⟨rfl, rfl⟩

theorem Accounted.append (h : Accounted w) (hd : Admissible w.connections d) (n : ℕ) :
    Accounted { w with connections := w.connections ++ [d], connectionCapacity := n } := by
  have hsum (id : List UInt8) (p : Pool) :
      ({ w with connections := w.connections ++ [d], connectionCapacity := n } :
      World).assignmentsForConsumer id p = w.assignmentsForConsumer id p := by
    simp [World.assignmentsForConsumer, hd.assigned p]
  refine
    { toTally := ⟨h.shape, h.allocated, h.quarantined⟩
      toRoster := h.toRoster.append hd
      valid := h.valid
      capacity := h.capacity
      max := h.max
      assigned := h.assigned
      connected := fun i hi o ho => ?_
      connection := fun c hc p => ?_
      quota := fun c hc p => ?_ }
  · rw [List.map_append]
    exact List.mem_append_left _ (h.connected i hi o ho)
  · rcases List.mem_append.mp hc with hc | hc
    · exact h.connection c hc p
    · rw [List.mem_singleton.mp hc, hd.assigned p]
      refine (count_eq_zero fun i hi howned => ?_).symm
      exact hd.fresh (h.connected i hi d.owner howned.1)
  · rw [hsum]
    rcases List.mem_append.mp hc with hc | hc
    · exact h.quota c hc p
    · rw [List.mem_singleton.mp hc]
      by_cases hother : ∃ e ∈ w.connections, e.consumerId = d.consumerId
      · obtain ⟨e, he, hid⟩ := hother
        have hquota := h.quota e he p
        rwa [hid, (hd.terms e he hid).2] at hquota
      · have hzero : w.assignmentsForConsumer d.consumerId p = 0 := by
          refine List.sum_eq_zero fun x hx => ?_
          obtain ⟨e, he, rfl⟩ := List.mem_map.mp hx
          exact if_neg fun hid => hother ⟨e, he, hid⟩
        rw [hzero]
        exact Nat.zero_le _

theorem Accounted.connect (h : Accounted w) (consumerId : List UInt8) (owner : Option Owner)
    (maxConnections : ℕ) (maxChunks : Pool → ℕ) (heap : Bool) :
    Accounted (w.connect consumerId owner maxConnections maxChunks heap).1 := by
  unfold World.connect
  dsimp only
  split
  · exact h
  rename_i owner
  have hadmissible (hfound : ¬(w.findConnection owner).isSome = true)
      (hlimit : ¬maxConnections ≤ w.connectionCountForConsumer consumerId)
      (hterms : ¬(w.connections.any fun c => c.consumerId = consumerId &&
        (c.maxConnections ≠ maxConnections || c.maxChunks .opportunistic ≠ maxChunks .opportunistic ||
          c.maxChunks .committed ≠ maxChunks .committed)) = true) :
      Admissible w.connections { consumerId, owner, maxConnections, maxChunks } := by
    refine ⟨fun hmem => ?_, Nat.not_le.mp hlimit, fun c hc hid => ?_, fun _ => rfl⟩
    · obtain ⟨c, hc, ho⟩ := List.mem_map.mp hmem
      refine hfound (List.find?_isSome.mpr ⟨c, hc, ?_⟩)
      simpa using ho
    · by_contra hne
      refine hterms (List.any_eq_true.mpr ⟨c, hc, ?_⟩)
      have hpools :
          c.maxChunks .opportunistic = maxChunks .opportunistic →
          c.maxChunks .committed = maxChunks .committed →
          c.maxChunks = maxChunks := fun ho hc => funext fun p => by cases p <;> assumption
      simp only [hid, decide_true, Bool.true_and, ne_eq, Bool.or_eq_true, decide_eq_true_eq]
      tauto
  split_ifs with hvalid hfound hlimit hterms hgrow hfull
  · exact h
  iterate 4 exact (w.sameTable_reject _).accounted h
  · exact h.append (hadmissible hfound hlimit hterms) _
  · exact h.append (hadmissible hfound hlimit hterms) w.connectionCapacity

end Memory
end Infiniswap
