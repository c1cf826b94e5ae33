/-
# Memory and its use

An address names an allocation. The addresses in the table are all different, and
below the next that is allocated; an assignment begins and ends with an event that
names the Consumer and the address. While no opportunistic memory is handed back to
the pool without being freed, nobody has used what is idle.
-/
import Infiniswap.Memory.Changes

namespace Infiniswap
namespace Memory

open Keyed Transition

variable {w w' : World} {c : Connection} {pool : Pool} {p : Pending} {ps : List Pending}
  {a : Adapters} {i : ℕ}

/-! ### The use of memory -/

variable {id : List UInt8} {x : ℕ}

/-- The memory at an address was assigned to the Consumer. -/
def Used (log : List Event) (id : List UInt8) (x : ℕ) : Prop := ∃ e ∈ log, e.use = some (id, x)

theorem used_append {events log : List Event} (hquiet : ∀ e ∈ events, e.use = none)
    (h : Used (events ++ log) id x) : Used log id x := by
  obtain ⟨e, he, huse⟩ := h
  rcases List.mem_append.mp he with he | he
  · cases (hquiet e he).symm.trans huse
  · exact ⟨e, he, huse⟩

/-! ### The invariant -/

/-- **Memory is told apart by its address**, and nobody has used what is idle. -/
structure Separate (w : World) : Prop where
  used : ∀ id x, Used w.log id x → x < w.addresses
  below : ∀ i x, (w.chunks i).address = some x → x < w.addresses
  distinct : ∀ i j x, (w.chunks i).address = some x → (w.chunks j).address = some x → i = j
  idle : ∀ i x, w.chunks i = idleChunk x → ∀ id, ¬Used w.log id x

theorem Separate.quiet (h : Separate w) (hchunks : w'.chunks = w.chunks)
    (haddresses : w.addresses ≤ w'.addresses) (hlog : ∀ id x, Used w'.log id x → Used w.log id x) :
    Separate w' where
  used id x hx := (h.used id x (hlog id x hx)).trans_le haddresses
  below i x hx := (h.below i x (hchunks ▸ hx)).trans_le haddresses
  distinct i j x hi hj := h.distinct i j x (hchunks ▸ hi) (hchunks ▸ hj)
  idle i x hi id hx := h.idle i x (hchunks ▸ hi) id (hlog id x hx)

theorem Separate.clear (h : Separate w) (hchunks : w'.chunks = Function.update w.chunks i {})
    (haddresses : w'.addresses = w.addresses)
    (hlog : ∀ id x, Used w'.log id x → Used w.log id x ∨ (w.chunks i).address = some x) :
    Separate w' := by
  have hslot (j x : ℕ) (hj : (w'.chunks j).address = some x) : j ≠ i ∧ (w.chunks j).address = some x := by
    rw [hchunks] at hj
    by_cases hji : j = i
    · rw [hji, Function.update_self] at hj
      cases hj
    · rw [Function.update_of_ne hji] at hj
      exact ⟨hji, hj⟩
  refine ⟨fun id x hx => ?_, fun j x hj => ?_, fun j k x hj hk => ?_, fun j x hj id hx => ?_⟩
  · rw [haddresses]
    rcases hlog id x hx with hx | hx
    · exact h.used id x hx
    · exact h.below i x hx
  · rw [haddresses]
    exact h.below j x (hslot j x hj).2
  · exact h.distinct j k x (hslot j x hj).2 (hslot k x hk).2
  · obtain ⟨hji, haddress⟩ := hslot j x (hj ▸ rfl)
    rw [hchunks, Function.update_of_ne hji] at hj
    rcases hlog id x hx with hx | hx
    · exact h.idle j x hj id hx
    · exact hji (h.distinct j i x haddress hx)

theorem address_fill (hs : Requested w pool ps)
    (hother : ∀ j, j ∉ ps.map (·.index) → (w'.chunks j).address = (w.chunks j).address)
    (hin : ∀ p ∈ ps, (w'.chunks p.index).address = p.address) {j : ℕ}
    (hj : (w'.chunks j).address = some x) :
    (w.chunks j).address = some x ∨ ∃ p ∈ ps, p.newlyAllocated = true ∧ p.index = j ∧
      p.address = some x := by
  by_cases hmem : j ∈ ps.map (·.index)
  · obtain ⟨p, hp, rfl⟩ := List.mem_map.mp hmem
    rw [hin p hp] at hj
    cases hnew : p.newlyAllocated with
    | true => exact .inr ⟨p, hp, hnew, rfl, hj⟩
    | false => exact .inl ((hs.reused p hp hnew).symm.trans hj)
  · exact .inl (hother j hmem ▸ hj)

theorem distinct_fill (hnodup : (freshAddresses ps).Nodup) {j k : ℕ}
    (hnew : x ∈ freshAddresses ps → (w.chunks j).address ≠ some x ∧ (w.chunks k).address ≠ some x)
    (hdistinct : (w.chunks j).address = some x → (w.chunks k).address = some x → j = k)
    (hj : (w.chunks j).address = some x ∨ ∃ p ∈ ps, p.newlyAllocated = true ∧ p.index = j ∧
      p.address = some x)
    (hk : (w.chunks k).address = some x ∨ ∃ p ∈ ps, p.newlyAllocated = true ∧ p.index = k ∧
      p.address = some x) : j = k := by
  rcases hj with hj | ⟨p, hp, hpn, rfl, hpx⟩
  · rcases hk with hk | ⟨q, hq, hqn, -, hqx⟩
    · exact hdistinct hj hk
    · exact absurd hj (hnew (mem_freshAddresses.mpr ⟨q, hq, hqn, hqx⟩)).1
  · rcases hk with hk | ⟨q, hq, hqn, rfl, hqx⟩
    · exact absurd hk (hnew (mem_freshAddresses.mpr ⟨p, hp, hpn, hpx⟩)).2
    · have heq : p = q :=
        eq_of_nodup_filterMap hnodup hp hq (by rw [if_pos hpn, hpx]) (by rw [if_pos hqn, hqx])
      rw [heq]

/-- **Slots are filled** with memory that is new, or with what they had. -/
theorem Separate.fill (h : Separate w) (hs : Requested w pool ps)
    (hnodup : (freshAddresses ps).Nodup) (haddresses : w.addresses ≤ w'.addresses)
    (hfresh : ∀ x ∈ freshAddresses ps, w.addresses ≤ x ∧ x < w'.addresses)
    (hother : ∀ j, j ∉ ps.map (·.index) → w'.chunks j = w.chunks j)
    (hin : ∀ p ∈ ps, (w'.chunks p.index).address = p.address)
    (hidle : ∀ p ∈ ps, ∀ x, w'.chunks p.index = idleChunk x → p.newlyAllocated = true)
    (hlog : ∀ id x, Used w'.log id x → Used w.log id x ∨ ∃ p ∈ ps, p.address = some x ∧
      w'.chunks p.index ≠ idleChunk x) : Separate w' := by
  have hslot (j x : ℕ) (hj : (w'.chunks j).address = some x) :=
    address_fill hs (fun j hj => congrArg Chunk.address (hother j hj)) hin hj
  have hnew {p : Pending} (hp : p ∈ ps) (hn : p.newlyAllocated = true) {x : ℕ} (hx : p.address = some x) :
      w.addresses ≤ x ∧ x < w'.addresses := hfresh x (mem_freshAddresses.mpr ⟨p, hp, hn, hx⟩)
  have hbelow (j x : ℕ) (hj : (w'.chunks j).address = some x) : x < w'.addresses := by
    rcases hslot j x hj with hold | ⟨p, hp, hn, -, hx⟩
    · exact (h.below j x hold).trans_le haddresses
    · exact (hnew hp hn hx).2
  have hunheld {x : ℕ} (hx : x ∈ freshAddresses ps) (j : ℕ) : (w.chunks j).address ≠ some x :=
    fun hj => absurd (h.below j x hj) (Nat.not_lt.mpr (hfresh x hx).1)
  have hdistinct (j k x : ℕ) (hj : (w'.chunks j).address = some x)
      (hk : (w'.chunks k).address = some x) : j = k :=
    distinct_fill hnodup (fun hx => ⟨hunheld hx j, hunheld hx k⟩) (h.distinct j k x) (hslot j x hj)
      (hslot k x hk)
  refine ⟨fun id x hx => ?_, hbelow, hdistinct, fun j x hj id hx => ?_⟩
  · rcases hlog id x hx with hx | ⟨p, hp, hpx, -⟩
    · exact (h.used id x hx).trans_le haddresses
    · exact hbelow p.index x ((hin p hp).trans hpx)
  · rcases hlog id x hx with hx | ⟨p, hp, hpx, hne⟩
    · by_cases hmem : j ∈ ps.map (·.index)
      · obtain ⟨p, hp, rfl⟩ := List.mem_map.mp hmem
        have hpx : p.address = some x := by
          rw [← hin p hp, hj]
          rfl
        exact absurd (h.used id x hx) (Nat.not_lt.mpr (hnew hp (hidle p hp x hj) hpx).1)
      · exact h.idle j x (hother j hmem ▸ hj) id hx
    · have hpj : p.index = j := hdistinct p.index j x ((hin p hp).trans hpx) (by rw [hj]; rfl)
      exact hne (hpj ▸ hj)

/-! ### Admission -/

theorem Prepared.quiet {events : List Event} (h : Prepared events ps) : ∀ e ∈ events, e.use = none := by
  intro e he
  rcases h.kinds e he with ⟨x, rfl | rfl⟩ | ⟨r, x, rfl⟩ <;> rfl

theorem rollback_quiet : ∀ e ∈ frees (deregistered a ps) ++ deregistrations a ps, e.use = none := by
  intro e he
  rcases List.mem_append.mp he with he | he
  · obtain ⟨x, rfl⟩ := frees_kind he
    rfl
  · obtain ⟨r, ok, rfl⟩ := deregistrations_kind he
    rfl

section InHand

variable {w₀ : World} {events : List Event}

section

variable (hh : InHand w w₀ pool ps events)

include hh

theorem InHand.chunks : w₀.chunks = w.chunks := congrArg Manager.chunks hh.manager

theorem InHand.chunkCapacity : w₀.chunkCapacity = w.chunkCapacity :=
  congrArg Manager.chunkCapacity hh.manager

theorem InHand.connections : w₀.connections = w.connections :=
  congrArg Manager.connections hh.manager

theorem InHand.used (hx : Used w₀.log id x) :
    Used w.log id x := by
  rw [hh.log] at hx
  exact used_append hh.toPrepared.quiet hx

end

theorem Separate.rollback (h : Separate w) (hh : InHand w w₀ pool ps events) (adapter : ℕ) (a : Adapters)
    (reason : Rejection) :
    Separate ((w₀.reject reason).rolledBack pool adapter a ps) := by
  have hsub : (stuck a ps).Sublist ps := List.filter_sublist
  have hs := hh.toRequested.sublist hsub
  have hchunks := quarantineAll_chunks (w := w₀.reject reason) pool adapter hs.nodup
  have hw : (w₀.reject reason).chunks = w.chunks := hh.chunks
  have haddresses : ((w₀.reject reason).rolledBack pool adapter a ps).addresses = w₀.addresses :=
    rolledBack_addresses _ _ _ _ _
  refine h.fill hs (hh.addresses.sublist (hsub.filterMap _)) (haddresses ▸ hh.advanced)
    (fun x hx => ?_) (fun j hj => ?_) (fun p hp => ?_) (fun p hp x hx => ?_) fun id x hx => .inl ?_
  · rw [haddresses]
    exact hh.fresh x ((hsub.filterMap _).subset hx)
  · exact (hchunks.2 j hj).trans (congrFun hw j)
  · obtain ⟨x, r, hx, -, hchunk, -⟩ := quarantineChunk_of_stuck hw hh.toPrepared hh.toRequested hp adapter
    exact (congrArg Chunk.address ((hchunks.1 p hp).trans hchunk)).trans hx.symm
  · obtain ⟨y, r, -, -, hchunk, -⟩ := quarantineChunk_of_stuck hw hh.toPrepared hh.toRequested hp adapter
    cases ((hchunks.1 p hp).trans hchunk).symm.trans hx
  · rw [rolledBack_log] at hx
    exact hh.used (used_append rollback_quiet hx)

theorem commitPending_slots (c : Connection) (pool : Pool) (adapter : ℕ) :
    ∀ {ps : List Pending} {w : World},
    (ps.map (·.index)).Nodup →
      (∀ p ∈ ps, (w.commitPending c pool adapter ps).1.chunks p.index = commitChunk w c pool adapter p) ∧
      (∀ j, j ∉ ps.map (·.index) → (w.commitPending c pool adapter ps).1.chunks j = w.chunks j) ∧
      (∀ g ∈ (w.commitPending c pool adapter ps).2, ∃ p ∈ ps,
        g.address = (commitChunk w c pool adapter p).address) ∧
      (∀ id x, Used (w.commitPending c pool adapter ps).1.log id x →
        Used w.log id x ∨ id = c.consumerId ∧
          ∃ p ∈ ps, (commitChunk w c pool adapter p).address = some x) ∧
      (w.commitPending c pool adapter ps).1.addresses = w.addresses
  | [], _, _ => ⟨nofun, fun _ _ => rfl, nofun, fun _ _ hx => .inl hx, rfl⟩
  | p :: ps, w, hnodup => by
    obtain ⟨hp, hnodup⟩ := List.nodup_cons.mp hnodup
    obtain ⟨hin, hout, hgrants, hlog, haddresses⟩ :=
      commitPending_slots c pool adapter (w := w.commit c pool adapter p) hnodup
    have hsame {q : Pending} (hq : q ∈ ps) :
        commitChunk (w.commit c pool adapter p) c pool adapter q = commitChunk w c pool adapter q := by
      have hne : q.index ≠ p.index := ne_of_mem_of_not_mem (List.mem_map_of_mem hq) hp
      rw [commitChunk, commitChunk,
        show (w.commit c pool adapter p).chunks q.index = w.chunks q.index from
        Function.update_of_ne hne _ _]
    rw [commitPending_cons]
    refine ⟨List.forall_mem_cons.mpr ⟨?_, fun q hq => (hin q hq).trans (hsame hq)⟩, fun j hj => ?_,
      List.forall_mem_cons.mpr ⟨⟨p, List.mem_cons_self, rfl⟩, fun g hg => ?_⟩, fun id x hx => ?_,
      haddresses⟩
    · exact (hout p.index hp).trans (Function.update_self _ _ _)
    · rw [List.map_cons, List.mem_cons, not_or] at hj
      exact (hout j hj.2).trans (Function.update_of_ne hj.1 _ _)
    · obtain ⟨q, hq, haddress⟩ := hgrants g hg
      exact ⟨q, List.mem_cons_of_mem _ hq, haddress.trans (congrArg Chunk.address (hsame hq))⟩
    · rcases hlog id x hx with ⟨e, he, huse⟩ | ⟨hid, q, hq, hqx⟩
      · rcases List.mem_append.mp he with he | he
        · obtain ⟨y, hy, rfl⟩ := List.mem_map.mp he
          cases huse
          exact .inr ⟨rfl, p, List.mem_cons_self, Option.mem_toList.mp hy⟩
        · exact .inl ⟨e, he, huse⟩
      · exact .inr ⟨hid, q, List.mem_cons_of_mem _ hq, (congrArg Chunk.address (hsame hq)).symm.trans hqx⟩

theorem InHand.commit_address (hh : InHand w w₀ pool ps events) (hp : p ∈ ps) (c : Connection)
    (adapter : ℕ) : (commitChunk w₀ c pool adapter p).address = p.address := by
  rw [commitChunk]
  cases hnew : p.newlyAllocated with
  | true => rfl
  | false =>
    rw [hh.chunks]
    exact (hh.reused p hp hnew).symm

theorem Separate.grant (h : Separate w) (hh : InHand w w₀ pool ps events) (c : Connection) (adapter : ℕ) :
    Separate (w₀.grant c pool adapter ps).1 := by
  obtain ⟨hin, hout, -, hlog, haddresses⟩ := commitPending_slots (w := w₀) c pool adapter hh.nodup
  have hadvanced : w.addresses ≤ (w₀.grant c pool adapter ps).1.addresses := haddresses ▸ hh.advanced
  refine h.fill hh.toRequested hh.addresses hadvanced (fun x hx => ?_) (fun j hj => ?_)
    (fun p hp => ?_) (fun p hp x hx => ?_) fun id x hx => ?_
  · exact ⟨(hh.fresh x hx).1, haddresses ▸ (hh.fresh x hx).2⟩
  · exact (hout j hj).trans (congrFun hh.chunks j)
  · exact (congrArg Chunk.address (hin p hp)).trans (hh.commit_address hp c adapter)
  · cases congrArg Chunk.owner ((hin p hp).symm.trans hx)
  · rcases hlog id x hx with hx | ⟨-, p, hp, hpx⟩
    · exact .inl (hh.used hx)
    · refine .inr ⟨p, hp, (hh.commit_address hp c adapter).symm.trans hpx, fun hidle => ?_⟩
      cases congrArg Chunk.owner ((hin p hp).symm.trans hidle)

end InHand

/-! ### Release -/

theorem Separate.releaseSlot (h : Separate w) (hshape : Shape (w.chunks i))
    (howner : (w.chunks i).owner = some c.owner) {cause : ReleaseCause}
    (hfree : cause = .pressure ∨ (w.chunks i).pool ≠ some .opportunistic) :
    Separate (w.releaseSlot c cause i) := by
  obtain ⟨address, registration, adapter, q, hchunk⟩ := hshape.of_owner howner
  have hempty : cause = .pressure ∨ q = .committed := by
    refine hfree.imp_right fun hq => ?_
    rw [hchunk] at hq
    cases q with
    | opportunistic => exact absurd rfl hq
    | committed => rfl
  rw [World.releaseSlot, hchunk]
  refine h.clear (i := i) ?_ rfl fun id x hx => ?_
  · change Function.update w.chunks i (leftover address q cause) = _
    rw [leftover, if_pos hempty]
  · change Used ((if cause = .pressure ∨ q = .committed then [Event.freed address] else []) ++
      [.unassigned c.consumerId address, .deregistered registration true] ++ w.log) id x at hx
    rw [if_pos hempty] at hx
    obtain ⟨e, he, huse⟩ := hx
    simp only [List.cons_append, List.nil_append, List.mem_cons] at he
    rcases he with rfl | rfl | rfl | he
    · cases huse
    · cases huse
      exact .inr (by rw [hchunk]; rfl)
    · cases huse
    · exact .inl ⟨e, he, huse⟩

/-! ### Reconciliation -/

theorem placeUnassigned_slots : ∀ {ps : List Pending} {w : World}, (ps.map (·.index)).Nodup →
    (∀ p ∈ ps, (w.placeUnassigned ps).chunks p.index =
      { w.chunks p.index with address := p.address, pool := some .opportunistic }) ∧
    (∀ j, j ∉ ps.map (·.index) → (w.placeUnassigned ps).chunks j = w.chunks j) ∧
    (w.placeUnassigned ps).log = w.log ∧ (w.placeUnassigned ps).addresses = w.addresses ∧
    (w.placeUnassigned ps).connections = w.connections
  | [], _, _ => ⟨nofun, fun _ _ => rfl, rfl, rfl, rfl⟩
  | p :: ps, w, hnodup => by
    obtain ⟨hp, hnodup⟩ := List.nodup_cons.mp hnodup
    obtain ⟨hin, hout, hlog, haddresses, hconnections⟩ := placeUnassigned_slots (w :=
      w.setChunk p.index { w.chunks p.index with
        address := p.address, pool := some .opportunistic }) hnodup
    refine ⟨List.forall_mem_cons.mpr ⟨?_, fun q hq => ?_⟩, fun j hj => ?_, hlog, haddresses, hconnections⟩
    · exact (hout p.index hp).trans (Function.update_self _ _ _)
    · have hne : q.index ≠ p.index := ne_of_mem_of_not_mem (List.mem_map_of_mem hq) hp
      have hchunk : (w.setChunk p.index { w.chunks p.index with
          address := p.address, pool := some .opportunistic }).chunks q.index = w.chunks q.index :=
        Function.update_of_ne hne _ _
      refine (hin q hq).trans ?_
      rw [hchunk]
    · rw [List.map_cons, List.mem_cons, not_or] at hj
      exact (hout j hj.2).trans (Function.update_of_ne hj.1 _ _)

theorem freeUnassigned_used : ∀ {ps : List Pending} {w : World} {id : List UInt8} {x : ℕ},
    Used (w.freeUnassigned ps).log id x → Used w.log id x
  | [], _, _, _, h => h
  | p :: ps, w, id, x, h => by
    have hquiet : ∀ e ∈ p.address.toList.map Event.freed, e.use = none := by
      intro e he
      obtain ⟨y, -, rfl⟩ := List.mem_map.mp he
      rfl
    exact used_append hquiet (freeUnassigned_used (w := w.record (p.address.toList.map .freed)) h)

theorem freeUnassigned_addresses :
    ∀ (ps : List Pending) (w : World), (w.freeUnassigned ps).addresses = w.addresses
  | [], _ => rfl
  | p :: ps, w => freeUnassigned_addresses ps (w.record (p.address.toList.map .freed))

theorem reclaim_used (hx : Used (w.reclaim i).log id x) : Used w.log id x := by
  refine used_append (fun e he => ?_) hx
  obtain ⟨y, -, rfl⟩ := List.mem_map.mp he
  rfl

/-! ### Runs that hand nothing back -/

theorem separate_create {config : Config} (h : create config = some w) : Separate w := by
  unfold create at h
  split_ifs at h
  cases h
  exact
    { used := fun id x ⟨e, he, _⟩ => by cases he
      below := nofun
      distinct := nofun
      idle := fun i x hi => by cases hi }

/-- **Every change of a call that frees what it releases keeps memory apart.** -/
theorem Separate.change {free : Prop} {new : List UInt8 → Prop} (hfree : free) (h : Separate w)
    (hchange : Change free new w w') : Separate w' := by
  cases hchange with
  | quiet hq =>
    obtain ⟨events, hlog, hevents⟩ := hq.log
    refine h.quiet hq.chunks (Nat.le_of_eq hq.addresses.symm) fun id x hx => ?_
    rw [hlog] at hx
    exact used_append (fun e he => (hevents e he).1) hx
  | rolledBack hh adapter a reason => exact h.rollback hh adapter a reason
  | granted hh _ adapter => exact h.grant hh _ adapter
  | released _ hshape _ howner hpool => exact h.releaseSlot hshape howner (hpool hfree)
  | @returned w₁ ps _ hh _ _ reason =>
    refine h.quiet ?_ ?_ fun id x hx => hh.used (freeUnassigned_used (w := w₁.reject reason) hx)
    · exact (freeUnassigned_sameTable ps (w₁.reject reason)).chunks.trans hh.chunks
    · rw [freeUnassigned_addresses]
      exact hh.advanced
  | @placed w₁ ps _ hh hnew _ f =>
    obtain ⟨hin, hout, hlog, haddresses, -⟩ := placeUnassigned_slots (w := w₁) hh.nodup
    refine h.fill hh.toRequested hh.addresses (haddresses ▸ hh.advanced)
      (fun x hx => ⟨(hh.fresh x hx).1, haddresses ▸ (hh.fresh x hx).2⟩) (fun j hj => ?_)
      (fun p hp => congrArg Chunk.address (hin p hp)) (fun p hp _ _ => hnew p hp) fun id x hx =>
      .inl (hh.used ?_)
    · exact (hout j hj).trans (congrFun hh.chunks j)
    · rw [← hlog]
      exact hx
  | @reclaimed i => exact h.clear (i := i) rfl rfl fun _ _ hx => .inl (reclaim_used hx)

theorem separate_reach (h : system.Reach (fun w l => handsBack w l = false) w) : Separate w := by
  refine System.Reach.invariant (I := Separate) (fun w hw => ?_)
    (fun w l w' hreach hw hback hstep => ?_) h
  · obtain ⟨config, hw⟩ := hw
    exact separate_create hw
  · exact call_invariant (accounted_reachable hreach.reachable) hstep hw fun _ _ hv => hv.change hback

/-- What a request grants is new, or it was idle. -/
theorem grant_unused {w₀ : World} {events : List Event} (h : Separate w)
    (hh : InHand w w₀ pool ps events) (hp : p ∈ ps) (hx : p.address = some x) (id : List UInt8) :
    ¬Used w.log id x := by
  intro hused
  cases hnew : p.newlyAllocated with
  | true =>
    have hfresh := hh.fresh x (mem_freshAddresses.mpr ⟨p, hp, hnew, hx⟩)
    exact absurd (h.used id x hused) (Nat.not_lt.mpr hfresh.1)
  | false =>
    obtain ⟨y, hidle, hy⟩ := hh.toRequested.idle hp hnew
    cases hx.symm.trans hy
    exact h.idle p.index x hidle id hused

end Memory
end Infiniswap
