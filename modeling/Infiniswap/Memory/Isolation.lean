/-
# Isolation between Consumers

A chunk is cleared when it is allocated, and not when it is assigned. What one
Consumer wrote is kept from another where the memory that a connection gives up is
freed, as it is for committed chunks and for those given up to host pressure, and
where there is no other Consumer. An opportunistic chunk that is given up otherwise
stays allocated, and the next request, of whatever Consumer, gets it as it was left.
-/
import Infiniswap.Memory.Separation

namespace Infiniswap
namespace Memory

open Keyed Transition

variable {w w' : World} {c : Connection} {pool : Pool} {p : Pending} {ps : List Pending} {a : Adapters}

/-! ### Runs of one Consumer -/

variable {id : List UInt8}

theorem acquire_granted (hshape : ∀ i, Shape (w.chunks i)) {owner : Owner}
    (hc : w.findConnection owner = some c) {pool : Option Pool} {count : ℕ}
    {adapter grantCapacity : Option ℕ} {grants : List Grant}
    (hacquire : w.acquire (some owner) pool count adapter grantCapacity a = (w', .ok grants)) :
    ∃ pool' adapter' w₀ ps events, pool = some pool' ∧ InHand w w₀ pool' ps events ∧
      (∀ p ∈ ps, p.address.isSome = true) ∧ w₀.grant c pool' adapter' ps = (w', .ok grants) := by
  rcases acquire_cases hacquire with ⟨f, heq, -⟩ |
    ⟨_, c', pool', adapter', howner, hc', hpool, -, -, -, hpopulate⟩
  · cases heq
  · cases howner
    cases hc.symm.trans hc'
    obtain ⟨hs, hfresh, hnone⟩ := requested_select hshape pool' count
    obtain ⟨w₀, ps, events, hh, ⟨failure, -, -, heq⟩ | ⟨hregistered, heq⟩⟩ :=
      populate_cases hs hfresh hnone c adapter' a
    · exact absurd (heq.symm.trans hpopulate) rollbackPending_ne_ok
    · refine ⟨pool', adapter', w₀, ps, events, hpool, hh, fun p hp => ?_, heq.symm.trans hpopulate⟩
      exact hh.address p hp (hregistered p hp).registration

/-- There is one Consumer, and only it has used memory. -/
structure Sole (id : List UInt8) (w : World) : Prop where
  consumers : ∀ k ∈ w.connections.map (·.consumerId), k = id
  used : ∀ other x, Used w.log other x → other = id

/-- The call connects no Consumer but this one. -/
def connectsOnly (id : List UInt8) : Label → Bool
  | .connect consumerId _ _ _ _ => consumerId = id
  | _ => true

theorem used_grant {w₀ : World} {events : List Event} (hh : InHand w w₀ pool ps events)
    (c : Connection) (adapter : ℕ) {x : ℕ} (hx : Used (w₀.grant c pool adapter ps).1.log id x) :
    Used w.log id x ∨ id = c.consumerId := by
  obtain ⟨-, -, -, hlog, -⟩ := commitPending_slots (w := w₀) c pool adapter hh.nodup
  exact (hlog id x hx).imp hh.used And.left

/-- **Every change of a call of this Consumer** leaves it the only one. -/
theorem Sole.change {free : Prop} {new : List UInt8 → Prop} (h : Sole id w)
    (hnew : ∀ k, new k → k = id) (hchange : Change free new w w') : Sole id w' := by
  cases hchange with
  | quiet hq =>
    obtain ⟨events, hlog, hevents⟩ := hq.log
    refine ⟨fun k hk => (hq.consumers k hk).elim (h.consumers k) (hnew k),
      fun other x hx => h.used other x ?_⟩
    rw [hlog] at hx
    exact used_append (fun e he => (hevents e he).1) hx
  | rolledBack hh adapter a reason =>
    refine ⟨fun k hk => h.consumers k ?_, fun other x hx => h.used other x ?_⟩
    · rw [World.rolledBack, World.record, quarantineAll_eq] at hk
      exact (congrArg (List.map (·.consumerId)) hh.connections) ▸ hk
    · rw [rolledBack_log] at hx
      exact hh.used (used_append rollback_quiet hx)
  | @granted w₀ pool ps _ hh c hc adapter =>
    refine ⟨fun k hk => h.consumers k ?_, fun other x hx => ?_⟩
    · have hmap : (w₀.grant c pool adapter ps).1.connections.map (·.consumerId) =
          (w₀.commitPending c pool adapter ps).1.connections.map (·.consumerId) := by
        refine map_modifyFirst ?_ _
        exact fun _ => rfl
      rwa [hmap, (commitPending_assigned c pool adapter ps w₀).2.1, hh.connections] at hk
    · exact (used_grant hh c adapter hx).elim (h.used other x) fun heq => heq.trans (h.consumers _ hc)
  | @released c cause i hc =>
    refine ⟨fun k hk => h.consumers k ((congrArg (k ∈ ·) (consumers_releaseSlot w c cause i)).mp hk),
      fun other x hx => ?_⟩
    obtain ⟨e, he, huse⟩ := hx
    -- the end of the assignment is the only event of a Consumer
    rcases List.mem_append.mp he with he | he
    · rcases List.mem_append.mp he with he | he
      · split at he
        · cases List.mem_singleton.mp he
          cases huse
        · cases he
      · simp only [List.mem_cons, List.not_mem_nil, or_false] at he
        rcases he with rfl | rfl
        · cases huse
          exact h.consumers _ hc
        · cases huse
    · exact h.used other x ⟨e, he, huse⟩
  | @returned w₁ ps _ hh _ _ reason =>
    refine ⟨fun k hk => h.consumers k ?_, fun other x hx => h.used other x ?_⟩
    · rw [(freeUnassigned_sameTable ps (w₁.reject reason)).connections] at hk
      exact (congrArg (List.map (·.consumerId)) hh.connections) ▸ hk
    · exact hh.used (freeUnassigned_used (w := w₁.reject reason) hx)
  | @placed w₁ ps _ hh _ _ f =>
    obtain ⟨-, -, hlog, -, hconnections⟩ := placeUnassigned_slots (w := w₁) hh.nodup
    refine ⟨fun k hk => h.consumers k ?_, fun other x hx => h.used other x (hh.used (hlog ▸ hx))⟩
    exact (congrArg (List.map (·.consumerId)) (hconnections.trans hh.connections)) ▸ hk
  | reclaimed => exact ⟨h.consumers, fun other x hx => h.used other x (reclaim_used hx)⟩

theorem sole_reach (h : system.Reach (fun _ l => connectsOnly id l = true) w) : Sole id w := by
  refine System.Reach.invariant (I := Sole id) (fun w hw => ?_) (fun w l w' hreach hw hl hstep => ?_) h
  · obtain ⟨config, hw⟩ := hw
    unfold create at hw
    split_ifs at hw
    cases hw
    exact ⟨nofun, fun other x ⟨e, he, _⟩ => by cases he⟩
  · refine call_invariant (accounted_reachable hreach.reachable) hstep hw fun _ _ hv =>
      hv.change fun k hk => ?_
    cases l with
    | connect => exact hk.trans (of_decide_eq_true hl)
    | _ => exact hk.elim

/-! ### Isolation -/

/-- **Isolation**: since another Consumer last had the memory, it was allocated or cleared. -/
def Isolated (log : List Event) (id : List UInt8) (x : ℕ) : Prop :=
  ∀ newer e older other, log = newer ++ e :: older → e.use = some (other, x) → other ≠ id →
    .allocated x ∈ newer ∨ .cleared x ∈ newer

theorem isolated_of_unused {log : List Event} {x : ℕ} (h : ∀ other, other ≠ id → ¬Used log other x) :
    Isolated log id x := by
  intro newer e older other hlog huse hne
  refine absurd ⟨e, ?_, huse⟩ (h other hne)
  rw [hlog]
  exact List.mem_append_right _ List.mem_cons_self

/-- What a grant tells of its memory, and who has used it by then. -/
theorem grant_address {w₀ : World} {events : List Event} {adapter : ℕ} {grants : List Grant}
    (hh : InHand w w₀ pool ps events) (haddress : ∀ p ∈ ps, p.address.isSome = true)
    (hgrant : w₀.grant c pool adapter ps = (w', .ok grants)) {g : Grant} (hg : g ∈ grants) :
    ∃ p ∈ ps, ∃ x, g.address = some x ∧ p.address = some x := by
  obtain ⟨-, -, hgrants, -, -⟩ := commitPending_slots (w := w₀) c pool adapter hh.nodup
  cases hgrant
  obtain ⟨p, hp, hgp⟩ := hgrants g hg
  obtain ⟨x, hx⟩ := Option.isSome_iff_exists.mp (haddress p hp)
  exact ⟨p, hp, x, hgp.trans ((hh.commit_address hp c adapter).trans hx), hx⟩

/-- **Isolation.** In a run that hands no opportunistic memory back to the pool without freeing it,
or in which there is only one Consumer, what is granted to a connection was allocated or cleared
since another Consumer last had it. -/
theorem memory_isolation
    (h : system.Reach (fun w l => handsBack w l = false) w ∨
      ∃ id, system.Reach (fun _ l => connectsOnly id l = true) w)
    {owner : Owner} (hc : w.findConnection owner = some c) {pool : Option Pool} {count : ℕ}
    {adapter grantCapacity : Option ℕ} {grants : List Grant}
    (hacquire : w.acquire (some owner) pool count adapter grantCapacity a = (w', .ok grants)) :
    ∀ g ∈ grants, ∃ x, g.address = some x ∧ Isolated w'.log c.consumerId x := by
  intro g hg
  have hreach : system.Reachable w := h.elim (fun h => h.reachable) fun ⟨_, h⟩ => h.reachable
  have ha := accounted_reachable hreach
  obtain ⟨pool', adapter', w₀, ps, events, -, hh, haddress, hgrant⟩ :=
    acquire_granted ha.shape hc hacquire
  obtain ⟨p, hp, x, hgx, hpx⟩ := grant_address hh haddress hgrant hg
  have huses {other : List UInt8} (hused : Used (w₀.grant c pool' adapter' ps).1.log other x) :=
    used_grant hh c adapter' hused
  rw [hgrant] at huses
  refine ⟨x, hgx, isolated_of_unused fun other hne hused => ?_⟩
  rcases huses hused with hused | hsame
  · rcases h with h | ⟨id, h⟩
    · exact grant_unused (separate_reach h) hh hp hpx other hused
    · have hsole := sole_reach h
      have hid : c.consumerId = id := hsole.consumers _ (List.mem_map_of_mem (find_owner hc).1)
      exact hne ((hsole.used other x hused).trans hid.symm)
  · exact hne hsame

/-- Two Consumers connect, and one of them acquires a committed chunk and gives it up. -/
def isolatedRun : List Label :=
  [.connect [97] (some 1) 1 (fun _ => 2) true, .connect [98] (some 2) 1 (fun _ => 2) true,
    .acquire (some 1) (some .committed) 1 (some 7) (some 1) { available := some (8 * chunkBytes) },
    .release (some 1) (some [0]) (some .consumer) { available := none }]

theorem memory_isolation_sample : ∃ w c w' grants, system.Reachable w ∧ w.findConnection 2 = some c ∧
    w.acquire (some 2) (some .committed) 1 (some 7) (some 1)
      { available := some (8 * chunkBytes) } = (w', .ok grants) ∧
    grants ≠ [] ∧ ∀ g ∈ grants, ∃ x, g.address = some x ∧ Isolated w'.log c.consumerId x := by
  obtain ⟨w, hreach, hc, hend⟩ : ∃ w, system.Reach (fun w l => handsBack w l = false) w ∧
      (w.findConnection 2).isSome ∧
      (match w.acquire (some 2) (some .committed) 1 (some 7) (some 1)
        { available := some (8 * chunkBytes) } with
      | (_, .ok grants) => grants ≠ []
      | (_, .error _) => false : Bool) :=
    System.exists_of_execIf (s := { config := ⟨1, fun _ => 2⟩, chunkCapacity := 4 })
      ⟨⟨1, fun _ => 2⟩, rfl⟩
      (show (system.execIf _ _ isolatedRun).any _ = true by decide +kernel)
  obtain ⟨c, hc⟩ := Option.isSome_iff_exists.mp hc
  split at hend
  · rename_i w' grants hacquire
    exact ⟨w, c, w', grants, hreach.reachable, hc, hacquire, of_decide_eq_true hend,
      memory_isolation (.inl hreach) hc hacquire⟩
  · cases hend

/-- Two Consumers connect, and one of them acquires an opportunistic chunk and gives it up. -/
def leakingRun : List Label :=
  [.connect [97] (some 1) 1 (fun _ => 2) true, .connect [98] (some 2) 1 (fun _ => 2) true,
    .acquire (some 1) (some .opportunistic) 1 (some 7) (some 1) { available := some (8 * chunkBytes) },
    .release (some 1) (some [0]) (some .consumer) { available := none }]

/-- The other Consumer is granted the memory as the first has left it. -/
theorem memory_not_isolated : ∃ w c w' grants, system.Reachable w ∧ w.findConnection 2 = some c ∧
    w.acquire (some 2) (some .opportunistic) 1 (some 7) (some 1) { available := some (8 * chunkBytes) } =
      (w', .ok grants) ∧
    ∃ g ∈ grants, ∃ x, g.address = some x ∧ ¬Isolated w'.log c.consumerId x := by
  obtain ⟨w, hreach, hc, hend⟩ : ∃ w, system.Reachable w ∧
      (w.findConnection 2).any (fun c => c.consumerId = [98]) ∧
      (match w.acquire (some 2) (some .opportunistic) 1 (some 7) (some 1)
        { available := some (8 * chunkBytes) } with
      | (w', .ok grants) => grants.any (fun g => g.address = some 0) &&
          w'.log = [.assigned [98] 0, .registered 1 0, .unassigned [97] 0, .deregistered 0 true,
            .assigned [97] 0, .registered 0 0, .cleared 0, .allocated 0]
      | (_, .error _) => false : Bool) := exists_sample leakingRun (by decide +kernel)
  obtain ⟨c, hc, hid⟩ := (Option.any_eq_true _ _).mp hc
  split at hend
  · rename_i w' grants hacquire
    rw [Bool.and_eq_true] at hend
    obtain ⟨hgrants, hlog⟩ := hend
    obtain ⟨g, hg, haddress⟩ := List.any_eq_true.mp hgrants
    refine ⟨w, c, w', grants, hreach, hc, hacquire, g, hg, 0, of_decide_eq_true haddress, fun hi => ?_⟩
    rw [of_decide_eq_true hlog, of_decide_eq_true hid] at hi
    have hcleared :=
      hi [.assigned [98] 0, .registered 1 0] (.unassigned [97] 0) _ [97] rfl rfl (by decide)
    simp at hcleared
  · cases hend

end Memory
end Infiniswap
