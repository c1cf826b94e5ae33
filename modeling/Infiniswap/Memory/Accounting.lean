/-
# The accounts of an admission

An admission keeps the accounts: where it succeeds, where it is rolled back, and
where the rollback leaves chunks in quarantine.
-/
import Infiniswap.Memory.Pending

namespace Infiniswap
namespace Memory

open Counting Keyed

variable {w w' : World} {i : ℕ} {c : Connection} {pool : Pool} {p : Pending} {ps : List Pending}
  {a : Adapters}

variable {count : ℕ} {owner : Option Owner} {adapter grantCapacity : Option ℕ} {grants : List Grant}

theorem sameTable_of_manager (h : w'.toManager = w.toManager) : w.SameTable w' := by
  refine ⟨?_, ?_, ?_, ?_, ?_, ?_, ?_⟩ <;> rw [h]

theorem Accounted.overwrite (h : Accounted w) {x : Chunk} (hover : w.Overwrites w' i x) (ht : Tally w')
    (hold : (w.chunks i).owner = none) (hnew : x.owner = none) (hconfig : w'.config = w.config)
    (hconnections : w'.connections = w.connections) (hassigned : w'.assigned = w.assigned)
    (hmax : ∀ q, w'.allocated q ≤ w.config.maxGib q) : Accounted w' := by
  have hcount (P : Chunk → Prop) [DecidablePred P] (hP : ∀ c : Chunk, c.owner = none → ¬P c) :
      w'.count P = w.count P := by
    have hcount := hover.count P
    rwa [if_neg (hP _ hold), if_neg (hP _ hnew)] at hcount
  refine
    { toTally := ht
      toRoster := hconnections.symm ▸ h.toRoster
      valid := hconfig ▸ h.valid
      capacity := by rw [hover.chunkCapacity, hconfig, h.capacity]
      max := fun q => hconfig ▸ hmax q
      assigned := fun q => ?_
      connected := fun j hj o ho => ?_
      connection := fun d hd q => ?_
      quota := fun d hd q => ?_ }
  · rw [hassigned, h.assigned, hcount]
    rintro d hd ⟨ho, -⟩
    rw [hd] at ho
    cases ho
  · rw [hover.chunks] at ho
    rw [hconnections]
    by_cases hji : j = i
    · rw [hji, Function.update_self, hnew] at ho
      cases ho
    · rw [Function.update_of_ne hji] at ho
      exact h.connected j (hover.chunkCapacity ▸ hj) o ho
  · rw [hconnections] at hd
    rw [h.connection d hd, hcount]
    rintro e he ⟨ho, -⟩
    rw [he] at ho
    cases ho
  · rw [hconnections] at hd
    rw [World.assignmentsForConsumer, hconnections]
    exact h.quota d hd q

theorem Selected.tail (h : Selected w pool (p :: ps)) {x : Chunk} (hover : w.Overwrites w' p.index x) :
    Selected w' pool ps := by
  obtain ⟨hp, hnodup⟩ := List.nodup_cons.mp h.nodup
  refine ⟨hnodup, fun q hq => hover.chunkCapacity ▸ h.bound q (List.mem_cons_of_mem _ hq), fun q hq => ?_⟩
  have hne : q.index ≠ p.index := ne_of_mem_of_not_mem (List.mem_map_of_mem hq) hp
  have hsame : w'.chunks q.index = w.chunks q.index := by rw [hover.chunks, Function.update_of_ne hne]
  cases h.fits q (List.mem_cons_of_mem _ hq) with
  | new h₁ h₂ h₃ => exact .new h₁ h₂ (hsame.trans h₃)
  | same address h₁ h₂ h₃ h₄ => exact .same address h₁ h₂ h₃ (hsame.trans h₄)
  | converted address h₁ h₂ h₃ h₄ => exact .converted address h₁ h₂ h₃ (hsame.trans h₄)

/-! ### Rollback -/

/-- The chunk that a pending chunk becomes in quarantine. -/
def quarantineChunk (w : World) (pool : Pool) (adapter : ℕ) (p : Pending) : Chunk :=
  if p.newlyAllocated then
    { w.chunks p.index with
      address := p.address, pool := some pool, registration := p.registration
      registrationAdapter := some adapter, quarantined := true }
  else
    { w.chunks p.index with
      registration := p.registration, registrationAdapter := some adapter, quarantined := true }

theorem quarantine_eq (w : World) (pool : Pool) (adapter : ℕ) (p : Pending) :
    w.quarantine pool adapter p =
    { w with
      chunks := Function.update w.chunks p.index (quarantineChunk w pool adapter p)
      allocated := if p.newlyAllocated then increase w.allocated pool 1 else w.allocated
      quarantined := w.quarantined + 1 } := by
  rw [World.quarantine, quarantineChunk]
  cases p.newlyAllocated <;> rfl

theorem quarantine_overwrites (hi : p.index < w.chunkCapacity) (adapter : ℕ) :
    w.Overwrites (w.quarantine pool adapter p) p.index (quarantineChunk w pool adapter p) := by
  rw [quarantine_eq]
  exact ⟨hi, rfl, rfl⟩

theorem quarantine_allocated (adapter : ℕ) (q : Pool) : (w.quarantine pool adapter p).allocated q =
    w.allocated q + if p.newlyAllocated = true ∧ q = pool then 1 else 0 := by
  rw [quarantine_eq]
  cases p.newlyAllocated with
  | false => simp
  | true =>
    simp only [if_true, true_and, increase]
    split_ifs <;> rfl

/-- A pending chunk that was registered. -/
structure Registered (p : Pending) : Prop where
  registration : p.registration.isSome = true
  address : p.newlyAllocated = true → p.address.isSome = true

theorem Fits.memory (hfits : Fits w pool p) (hr : Registered p) : ∃ address registration,
    p.registration = some registration ∧
      (p.newlyAllocated = true ∧ w.chunks p.index = {} ∧ p.address = some address ∨
      p.newlyAllocated = false ∧ w.chunks p.index = idleChunk address) := by
  obtain ⟨registration, hreg⟩ := Option.isSome_iff_exists.mp hr.registration
  cases hfits with
  | new hn _ hchunk =>
    obtain ⟨address, haddr⟩ := Option.isSome_iff_exists.mp (hr.address hn)
    exact ⟨address, registration, hreg, .inl ⟨hn, hchunk, haddr⟩⟩
  | same address hn _ _ hchunk | converted address hn _ _ hchunk =>
    exact ⟨address, registration, hreg, .inr ⟨hn, hchunk⟩⟩

/-- In quarantine a chunk keeps its pool, and a new one counts in the pool of the request. -/
theorem quarantineChunk_eq (hfits : Fits w pool p) (hr : Registered p) (adapter : ℕ) :
    ∃ address registration, quarantineChunk w pool adapter p =
      quarantinedChunk address registration adapter
        (if p.newlyAllocated then pool else .opportunistic) := by
  obtain ⟨address, registration, hreg, ⟨hn, hchunk, haddr⟩ | ⟨hn, hchunk⟩⟩ := hfits.memory hr
  · exact ⟨address, registration, by rw [quarantineChunk, hn, hchunk, haddr, hreg]; rfl⟩
  · exact ⟨address, registration, by rw [quarantineChunk, hn, hchunk, hreg]; rfl⟩

/-- **A chunk in quarantine stays accounted for.** -/
theorem Accounted.quarantine (h : Accounted w) (hi : p.index < w.chunkCapacity)
    (hfits : Fits w pool p) (hr : Registered p)
    (hroom : p.newlyAllocated = true → w.allocated pool < w.config.maxGib pool) (adapter : ℕ) :
    Accounted (w.quarantine pool adapter p) := by
  have hover : w.Overwrites (w.quarantine pool adapter p) p.index (quarantineChunk w pool adapter p) :=
    quarantine_overwrites hi adapter
  have hallocated (q : Pool) : (w.quarantine pool adapter p).allocated q =
      w.allocated q + if p.newlyAllocated = true ∧ q = pool then 1 else 0 :=
        quarantine_allocated adapter q
  obtain ⟨address, registration, hchunk⟩ := quarantineChunk_eq hfits hr adapter
  rw [hchunk] at hover
  have hfree : (w.chunks p.index).owner = none ∧ (w.chunks p.index).quarantined = false ∧
      ∀ q, Chunk.Allocated q (w.chunks p.index) ↔ p.newlyAllocated = false ∧ q = .opportunistic := by
    cases hfits with
    | new hn _ hc => simp [hc, hn]
    | same address hn _ _ hc | converted address hn _ _ hc =>
      rw [hc, hn]
      exact ⟨rfl, rfl, fun q => by simp⟩
  refine h.overwrite hover (h.toTally.overwrite hover (.quarantined ..) (fun q => ?_) ?_) hfree.1 rfl
    (by rw [quarantine_eq]) (by rw [quarantine_eq]) (by rw [quarantine_eq]) fun q => ?_
  · rw [hallocated]
    simp only [hfree.2.2, allocated_quarantined]
    cases p.newlyAllocated <;> simp
  · rw [quarantine_eq, hfree.2.1]
    rfl
  · rw [hallocated]
    split_ifs with hn
    · rw [hn.2]
      exact hroom hn.1
    · exact h.max q

/-- The chunks of a request whose deregistration fails. -/
def stuck (a : Adapters) (ps : List Pending) : List Pending :=
  ps.filter fun p => p.registration.isSome && !a.deregister p.index

/-- What a rollback deregisters, latest first. -/
def deregistrations (a : Adapters) (ps : List Pending) : List Event :=
  (ps.filterMap fun p => p.registration.map fun r => .deregistered r (a.deregister p.index)).reverse

/-- What a rollback frees, latest first. -/
def frees (ps : List Pending) : List Event :=
  (ps.filterMap fun p =>
    if p.newlyAllocated && p.registration.isNone then p.address.map .freed else none).reverse

/-- A request after the first loop of its rollback. -/
def deregistered (a : Adapters) (ps : List Pending) : List Pending :=
  ps.map fun p => if a.deregister p.index then { p with registration := none } else p

/-- The chunks are put in quarantine one after the other. -/
def World.quarantineAll (w : World) (pool : Pool) (adapter : ℕ) (ps : List Pending) : World :=
  ps.foldl (fun w p => w.quarantine pool adapter p) w

theorem quarantine_record (w : World) (events : List Event) (pool : Pool) (adapter : ℕ) (p : Pending) :
    (w.record events).quarantine pool adapter p = (w.quarantine pool adapter p).record events := by
  rw [quarantine_eq, quarantine_eq]
  rfl

theorem quarantineAll_record (events : List Event) (pool : Pool) (adapter : ℕ) :
    ∀ (ps : List Pending) (w : World),
    (w.record events).quarantineAll pool adapter ps = (w.quarantineAll pool adapter ps).record events
  | [], _ => rfl
  | p :: ps, w => by
    change ((w.record events).quarantine pool adapter p).quarantineAll pool adapter ps = _
    rw [quarantine_record, quarantineAll_record events pool adapter ps]
    rfl

theorem record_record (w : World) (events events' : List Event) :
    (w.record events).record events' = w.record (events' ++ events) := by
  rw [World.record, World.record, World.record, List.append_assoc]

/-- **The first loop of a rollback.** -/
theorem deregisterPending_eq (pool : Pool) (adapter : ℕ) (a : Adapters) :
    ∀ (ps : List Pending) (w : World),
    w.deregisterPending pool adapter a ps =
      ((w.quarantineAll pool adapter (stuck a ps)).record (deregistrations a ps), deregistered a ps,
        !(stuck a ps).isEmpty)
  | [], _ => rfl
  | p :: ps, w => by
    unfold World.deregisterPending
    split
    · rename_i hnone
      have hstuck : stuck a (p :: ps) = stuck a ps := List.filter_cons_of_neg (by simp [hnone])
      have hevents : deregistrations a (p :: ps) = deregistrations a ps := by
        rw [deregistrations, List.filterMap_cons_none (by rw [hnone]; rfl), ← deregistrations]
      have hp : (if a.deregister p.index then { p with registration := none } else p) = p := by
        split_ifs
        · cases p
          cases hnone
          rfl
        · rfl
      rw [deregisterPending_eq pool adapter a ps, hstuck, hevents]
      dsimp only
      rw [deregistered, deregistered, List.map_cons, hp]
    · rename_i r hr
      have hevents : deregistrations a (p :: ps) =
          deregistrations a ps ++ [.deregistered r (a.deregister p.index)] := by
        rw [deregistrations, List.filterMap_cons_some (by rw [hr]; rfl), List.reverse_cons,
          ← deregistrations]
      split
      · rename_i hfail
        have hfail : a.deregister p.index = false := by simpa using hfail
        have hstuck : stuck a (p :: ps) = p :: stuck a ps := List.filter_cons_of_pos (by simp [hr, hfail])
        dsimp only
        rw [quarantine_record, deregisterPending_eq pool adapter a ps, quarantineAll_record,
          record_record, hstuck, hevents, hfail]
        dsimp only
        rw [deregistered, deregistered, List.map_cons, if_neg (by simp [hfail])]
        rfl
      · rename_i hok
        have hok : a.deregister p.index = true := by simpa using hok
        have hstuck : stuck a (p :: ps) = stuck a ps := List.filter_cons_of_neg (by simp [hok])
        rw [deregisterPending_eq pool adapter a ps, hstuck, hevents, hok, quarantineAll_record,
          record_record]
        dsimp only
        rw [deregistered, deregistered, List.map_cons, if_pos hok]

/-- **The second loop of a rollback.** -/
theorem freePending_eq : ∀ (ps : List Pending) (w : World), w.freePending ps = w.record (frees ps)
  | [], _ => rfl
  | p :: ps, w => by
    unfold World.freePending
    split
    · rename_i hkept
      have hfrees : frees (p :: ps) = frees ps := by
        rw [frees, List.filterMap_cons_none, ← frees]
        rw [if_neg]
        cases hnew : p.newlyAllocated <;> cases hr : p.registration <;> simp_all
      rw [freePending_eq ps w, hfrees]
    · rename_i hnew
      have hnew : (p.newlyAllocated && p.registration.isNone) = true := by simpa using hnew
      have hfrees : frees (p :: ps) = frees ps ++ p.address.toList.map .freed := by
        rw [frees]
        cases haddress : p.address with
        | none =>
          rw [List.filterMap_cons_none (by rw [if_pos hnew, haddress]; rfl), ← frees]
          simp
        | some x =>
          rw [List.filterMap_cons_some (by rw [if_pos hnew, haddress]; rfl), List.reverse_cons, ← frees]
          rfl
      rw [freePending_eq ps, record_record, hfrees]

theorem mem_stuck :
    p ∈ stuck a ps ↔ p ∈ ps ∧ p.registration.isSome = true ∧ a.deregister p.index = false := by
  rw [stuck, List.mem_filter, Bool.and_eq_true, Bool.not_eq_true']

/-- What a rollback does to the manager, before it reports its own failure. -/
def World.rolledBack (w : World) (pool : Pool) (adapter : ℕ) (a : Adapters) (ps : List Pending) : World :=
  (w.quarantineAll pool adapter (stuck a ps)).record (frees (deregistered a ps) ++ deregistrations a ps)

theorem rollbackPending_eq (w : World) (pool : Pool) (adapter : ℕ) (a : Adapters)
    (ps : List Pending) (failure : Failure) :
    w.rollbackPending pool adapter a ps failure =
      if stuck a ps = [] then ((w.reject failure.rejection).rolledBack pool adapter a ps, .error failure)
      else (((w.reject failure.rejection).rolledBack pool adapter a ps).reject .cleanupFailed,
        .error ⟨.cleanupFailed, .cleanupFailed⟩) := by
  rw [World.rollbackPending, deregisterPending_eq]
  dsimp only
  rw [freePending_eq, record_record, ← World.rolledBack]
  cases stuck a ps <;> rfl

theorem Selected.sublist {ps' : List Pending} (h : Selected w pool ps) (hsub : ps'.Sublist ps) :
    Selected w pool ps' where
  nodup := h.nodup.sublist (hsub.map _)
  bound p hp := h.bound p (hsub.subset hp)
  fits p hp := h.fits p (hsub.subset hp)

theorem Accounted.quarantineAll (adapter : ℕ) :
    ∀ {ps : List Pending} {w : World}, Accounted w → Selected w pool ps →
    (∀ q ∈ ps, Registered q) → w.allocated pool + ps.countP (·.newlyAllocated) ≤ w.config.maxGib pool →
    Accounted (w.quarantineAll pool adapter ps)
  | [], _, h, _, _, _ => h
  | p :: ps, w, h, hs, hr, hroom => by
    have hi := hs.bound p List.mem_cons_self
    rw [List.countP_cons] at hroom
    have hquarantine := h.quarantine hi (hs.fits p List.mem_cons_self) (hr p List.mem_cons_self)
      (fun hn => by
        rw [if_pos hn] at hroom
        omega) adapter
    change Accounted ((w.quarantine pool adapter p).quarantineAll pool adapter ps)
    refine Accounted.quarantineAll adapter hquarantine (hs.tail (quarantine_overwrites hi adapter))
      (fun q hq => hr q (List.mem_cons_of_mem _ hq)) ?_
    rw [quarantine_allocated, quarantine_eq]
    simp only [and_true]
    omega

/-- **A rollback keeps the accounts.** -/
theorem Accounted.rollbackPending (h : Accounted w) (hs : Selected w pool ps)
    (hr : ∀ q ∈ ps, q.registration.isSome = true → q.newlyAllocated = true →
      q.address.isSome = true)
    (hroom : w.allocated pool + ps.countP (·.newlyAllocated) ≤ w.config.maxGib pool) (adapter : ℕ)
    (a : Adapters) (failure : Failure) :
    Accounted (w.rollbackPending pool adapter a ps failure).1 := by
  have hreject := w.sameTable_reject failure.rejection
  have hsub : (stuck a ps).Sublist ps := List.filter_sublist
  have hregistered : ∀ q ∈ stuck a ps, Registered q := fun q hq =>
    ⟨(mem_stuck.mp hq).2.1, hr q (hsub.subset hq) (mem_stuck.mp hq).2.1⟩
  have hstuck := (hreject.accounted h).quarantineAll adapter
    ((hs.of_sameTable hreject).sublist hsub) hregistered
    ((Nat.add_le_add_left hsub.countP_le _).trans hroom)
  have hrolled : Accounted ((w.reject failure.rejection).rolledBack pool adapter a ps) :=
    (World.sameTable_record _ _).accounted hstuck
  rw [rollbackPending_eq]
  split
  · exact hrolled
  · exact (World.sameTable_reject _ _).accounted hrolled

/-! ### Commit -/

/-- The chunk that a pending chunk becomes when it is assigned. -/
def commitChunk (w : World) (c : Connection) (pool : Pool) (adapter : ℕ) (p : Pending) : Chunk :=
  { w.chunks p.index with
    address := if p.newlyAllocated then p.address else (w.chunks p.index).address
    pool := some pool
    owner := some c.owner
    registration := p.registration
    registrationAdapter := some adapter }

/-- The chunks that are allocated when a pending chunk is assigned. -/
def commitAllocated (w : World) (pool : Pool) (p : Pending) : Pool → ℕ :=
  if p.convertedFromOpportunistic then increase (decrease w.allocated .opportunistic 1) .committed 1
  else if p.newlyAllocated then increase w.allocated pool 1
  else w.allocated

/-- One turn of the loop that commits. -/
def World.commit (w : World) (c : Connection) (pool : Pool) (adapter : ℕ) (p : Pending) : World :=
  { w with
    chunks := Function.update w.chunks p.index (commitChunk w c pool adapter p)
    allocated := commitAllocated w pool p
    log := (commitChunk w c pool adapter p).address.toList.map (.assigned c.consumerId ·) ++ w.log }

theorem commitPending_cons (c : Connection) (pool : Pool) (adapter : ℕ) (p : Pending)
    (ps : List Pending) (w : World) :
    w.commitPending c pool adapter (p :: ps) =
      (((w.commit c pool adapter p).commitPending c pool adapter ps).1,
        ⟨p.index, (commitChunk w c pool adapter p).address, p.registration, pool⟩ ::
          ((w.commit c pool adapter p).commitPending c pool adapter ps).2) := by
  obtain ⟨index, address, registration, newlyAllocated, converted⟩ := p
  cases converted <;> cases newlyAllocated <;> rfl

theorem commitPending_frame (c : Connection) (pool : Pool) (adapter : ℕ) (f : Pool → ℕ)
    (l : List Connection) (n : ℕ) :
    ∀ (ps : List Pending) (w : World),
      (({ w with assigned := f, connections := l, admissions := n } : World).commitPending c pool
        adapter ps).1 =
        { (w.commitPending c pool adapter ps).1 with assigned := f, connections := l, admissions := n }
  | [], _ => rfl
  | p :: ps, w => by
    rw [commitPending_cons, commitPending_cons]
    exact commitPending_frame c pool adapter f l n ps (w.commit c pool adapter p)

/-- The manager after one chunk was assigned to the connection. -/
def World.assign (w : World) (c : Connection) (pool : Pool) (adapter : ℕ) (p : Pending) : World :=
  { w.commit c pool adapter p with
    assigned := increase w.assigned pool 1
    connections := modifyFirst (fun d => d.owner = c.owner)
      (fun d => { d with assigned := increase d.assigned pool 1 }) w.connections
    admissions := w.admissions + 1 }

theorem commitPending_assigned (c : Connection) (pool : Pool) (adapter : ℕ) :
    ∀ (ps : List Pending) (w : World),
    (w.commitPending c pool adapter ps).1.assigned = w.assigned ∧
      (w.commitPending c pool adapter ps).1.connections = w.connections ∧
      (w.commitPending c pool adapter ps).1.admissions = w.admissions
  | [], _ => ⟨rfl, rfl, rfl⟩
  | p :: ps, w => by
    rw [commitPending_cons]
    exact commitPending_assigned c pool adapter ps (w.commit c pool adapter p)

theorem increase_zero (f : Pool → ℕ) (q : Pool) : increase f q 0 = f := by
  funext r
  simp [increase]

theorem increase_increase (f : Pool → ℕ) (q : Pool) (m n : ℕ) :
    increase (increase f q m) q n = increase f q (m + n) := by
  funext r
  simp only [increase]
  split_ifs <;> omega

/-- **The chunks of a grant are assigned one after the other.** -/
theorem grant_cons (c : Connection) (pool : Pool) (adapter : ℕ) (p : Pending) (ps : List Pending)
    (w : World) :
    (w.grant c pool adapter (p :: ps)).1 = ((w.assign c pool adapter p).grant c pool adapter ps).1 := by
  obtain ⟨hassigned, hconnections, hadmissions⟩ :=
    commitPending_assigned c pool adapter ps (w.commit c pool adapter p)
  have hlist (l : List Connection) :
      modifyFirst (fun d => d.owner = c.owner)
        (fun d => { d with assigned := increase d.assigned pool (p :: ps).length }) l =
      modifyFirst (fun d => d.owner = c.owner)
        (fun d => { d with assigned := increase d.assigned pool ps.length })
        (modifyFirst (fun d => d.owner = c.owner)
          (fun d => { d with assigned := increase d.assigned pool 1 }) l) := by
    rw [modifyFirst_modifyFirst]
    · simp only [Function.comp_def, increase_increase, List.length_cons, Nat.add_comm 1]
    · exact fun _ => rfl
  have hcounter (f : Pool → ℕ) :
      increase f pool (p :: ps).length = increase (increase f pool 1) pool ps.length := by
    rw [increase_increase, List.length_cons, Nat.add_comm]
  have hframe : ((w.assign c pool adapter p).commitPending c pool adapter ps).1 = _ :=
    commitPending_frame c pool adapter _ _ _ ps (w.commit c pool adapter p)
  unfold World.grant
  dsimp only
  rw [commitPending_cons, hframe]
  dsimp only
  generalize ((w.commit c pool adapter p).commitPending c pool adapter ps).1 =
    v at hassigned hconnections hadmissions ⊢
  simp only [World.modifyConnection, hassigned, hconnections, hadmissions]
  rw [hlist, hcounter, List.length_cons, Nat.add_comm ps.length 1, ← Nat.add_assoc]
  rfl

theorem commitChunk_eq (hfits : Fits w pool p) (hr : Registered p) (adapter : ℕ) :
    ∃ address registration,
      commitChunk w c pool adapter p = assignedChunk address registration c.owner adapter pool := by
  obtain ⟨address, registration, hreg, ⟨hn, hchunk, haddr⟩ | ⟨hn, hchunk⟩⟩ := hfits.memory hr
  · exact ⟨address, registration, by rw [commitChunk, hn, hchunk, haddr, hreg]; rfl⟩
  · exact ⟨address, registration, by rw [commitChunk, hn, hchunk, hreg]; rfl⟩

theorem assign_overwrites (hi : p.index < w.chunkCapacity) (adapter : ℕ) :
    w.Overwrites (w.assign c pool adapter p) p.index (commitChunk w c pool adapter p) := ⟨hi, rfl, rfl⟩

/-- What a pending chunk adds to its pool. -/
def Pending.additional (p : Pending) : ℕ :=
  if p.newlyAllocated ∨ p.convertedFromOpportunistic then 1 else 0

theorem assign_allocated (hfits : Fits w pool p)
    (hidle : ∀ address, w.chunks p.index = idleChunk address → 0 < w.allocated .opportunistic)
    (adapter : ℕ) (q : Pool) :
    (w.assign c pool adapter p).allocated q + (if Chunk.Allocated q (w.chunks p.index) then 1 else 0) =
      w.allocated q + if q = pool then 1 else 0 := by
  change commitAllocated w pool p q + _ = _
  rw [commitAllocated]
  cases hfits with
  | new hn hc hchunk =>
    rw [hn, hc, hchunk]
    simp only [Bool.false_eq_true, if_false, if_true, allocated_empty, increase]
    split_ifs <;> rfl
  | same address hn hc hpool hchunk =>
    rw [hn, hc, hchunk, hpool]
    simp only [Bool.false_eq_true, if_false, allocated_idle]
  | converted address hn hc hpool hchunk =>
    have hpositive := hidle address hchunk
    rw [hc, hchunk, hpool]
    simp only [if_true, allocated_idle, increase, decrease]
    cases q with
    | opportunistic =>
      simp only [reduceCtorEq, if_true, if_false]
      omega
    | committed => simp

theorem Fits.unassigned (h : Fits w pool p) :
    (w.chunks p.index).owner = none ∧ (w.chunks p.index).quarantined = false := by
  cases h with
  | new _ _ hchunk => simp [hchunk]
  | same address _ _ _ hchunk | converted address _ _ _ hchunk => simp [hchunk, idleChunk]

theorem count_assign (hi : p.index < w.chunkCapacity) (hfits : Fits w pool p) (hr : Registered p)
    (adapter : ℕ) (o : Owner) (q : Pool) :
    (w.assign c pool adapter p).count (Chunk.Assigned q) =
      w.count (Chunk.Assigned q) + (if q = pool then 1 else 0) ∧
      (w.assign c pool adapter p).count (Chunk.OwnedBy q o) =
        w.count (Chunk.OwnedBy q o) + if o = c.owner ∧ q = pool then 1 else 0 := by
  have hover : w.Overwrites (w.assign c pool adapter p) p.index (commitChunk w c pool adapter p) :=
    assign_overwrites hi adapter
  obtain ⟨address, registration, hchunk⟩ := commitChunk_eq (c := c) hfits hr adapter
  have hassigned := hover.count (Chunk.Assigned q)
  have howned := hover.count (Chunk.OwnedBy q o)
  rw [if_neg (by simp [Chunk.Assigned, hfits.unassigned.1]), hchunk] at hassigned
  rw [if_neg (by simp [Chunk.OwnedBy, hfits.unassigned.1]), hchunk] at howned
  simp only [assigned_assigned, ownedBy_assigned, add_zero] at hassigned howned
  exact ⟨hassigned, howned⟩

theorem tally_assign (h : Tally w) (hi : p.index < w.chunkCapacity) (hfits : Fits w pool p)
    (hr : Registered p) (adapter : ℕ) : Tally (w.assign c pool adapter p) := by
  have hover : w.Overwrites (w.assign c pool adapter p) p.index (commitChunk w c pool adapter p) :=
    assign_overwrites hi adapter
  have hidle (address : ℕ) (hchunk : w.chunks p.index = idleChunk address) :
      0 < w.allocated .opportunistic :=
    h.positive hi (by rw [hchunk, allocated_idle])
  obtain ⟨address, registration, hchunk⟩ := commitChunk_eq (c := c) hfits hr adapter
  rw [hchunk] at hover
  refine h.overwrite hover (.assigned ..) (fun q => ?_) ?_
  · simpa only [allocated_assigned] using assign_allocated hfits hidle adapter q
  · rw [hfits.unassigned.2]
    rfl

theorem assign_allocated_le (hfits : Fits w pool p) (adapter : ℕ) (q : Pool) :
    (w.assign c pool adapter p).allocated q ≤ w.allocated q + if q = pool then p.additional else 0 := by
  change commitAllocated w pool p q ≤ _
  rw [commitAllocated, Pending.additional]
  cases hfits with
  | new hn hc _ =>
    rw [hn, hc]
    simp only [Bool.false_eq_true, if_false, if_true, increase, true_or]
    split_ifs <;> omega
  | same address hn hc _ _ =>
    rw [hn, hc]
    simp
  | converted address hn hc hpool _ =>
    rw [hn, hc, hpool]
    simp only [if_true, increase, decrease, or_true]
    cases q <;> simp

theorem assign_terms (adapter : ℕ) :
    (w.assign c pool adapter p).connections.map Connection.terms =
      w.connections.map Connection.terms := by
  refine map_modifyFirst ?_ _
  exact fun _ => rfl

theorem assign_assignments (h : Roster w.connections)
    (hc : c.terms ∈ w.connections.map Connection.terms) (adapter : ℕ) (id : List UInt8) (q : Pool) :
    (w.assign c pool adapter p).assignmentsForConsumer id q =
      w.assignmentsForConsumer id q + if c.consumerId = id ∧ q = pool then 1 else 0 := by
  obtain ⟨d, hd, hdc⟩ := List.mem_map.mp hc
  have hdo : d.owner = c.owner := congrArg (·.owner) hdc
  have hdi : d.consumerId = c.consumerId := congrArg (·.consumerId) hdc
  have hsum := assignmentsForConsumer_modify h hd
    (fun e => { e with assigned := increase e.assigned pool 1 }) rfl id q
  have hsame : (w.assign c pool adapter p).assignmentsForConsumer id q = (w.modifyConnection c.owner
      fun e => { e with assigned := increase e.assigned pool 1 }).assignmentsForConsumer id q := rfl
  rw [hdo, hdi] at hsum
  rw [hsame]
  simp only [increase] at hsum ⊢
  split_ifs at hsum ⊢ <;> first | omega | tauto

/-- **A chunk that is assigned is accounted for.** -/
theorem Accounted.assign (h : Accounted w) (hc : c.terms ∈ w.connections.map Connection.terms)
    (hi : p.index < w.chunkCapacity) (hfits : Fits w pool p) (hr : Registered p)
    (hroom : w.allocated pool + p.additional ≤ w.config.maxGib pool)
    (hquota : w.assignmentsForConsumer c.consumerId pool < c.maxChunks pool) (adapter : ℕ) :
    Accounted (w.assign c pool adapter p) := by
  obtain ⟨d, hd, hdc⟩ := List.mem_map.mp hc
  have hdo : d.owner = c.owner := congrArg (·.owner) hdc
  have hdi : d.consumerId = c.consumerId := congrArg (·.consumerId) hdc
  have hdm : d.maxChunks = c.maxChunks := congrArg (·.maxChunks) hdc
  have hterms : (w.assign c pool adapter p).connections.map Connection.terms = _ := assign_terms adapter
  refine
    { toTally := tally_assign h.toTally hi hfits hr adapter
      toRoster := h.toRoster.of_terms hterms
      valid := h.valid
      capacity := h.capacity
      max := fun q => ?_
      assigned := fun q => ?_
      connected := fun j hj o ho => ?_
      connection := fun e he q => ?_
      quota := fun e he q => ?_ }
  · refine (assign_allocated_le hfits adapter q).trans ?_
    split_ifs with hq
    · rw [hq]
      exact hroom
    · exact h.max q
  · rw [(count_assign hi hfits hr adapter c.owner q).1, ← h.assigned]
    change increase w.assigned pool 1 q = _
    rw [increase]
    split_ifs <;> rfl
  · rw [owners_of_terms hterms]
    rw [(assign_overwrites hi adapter).chunks] at ho
    by_cases hji : j = p.index
    · rw [hji, Function.update_self] at ho
      cases ho
      exact List.mem_map.mpr ⟨d, hd, hdo⟩
    · rw [Function.update_of_ne hji] at ho
      exact h.connected j hj o ho
  · rw [(count_assign hi hfits hr adapter e.owner q).2]
    rcases h.toRoster.mem_modify he with ⟨hmem, hne⟩ | ⟨e', he', ho, rfl⟩
    · rw [if_neg fun hc => hne hc.1, h.connection e hmem q, add_zero]
    · change increase e'.assigned pool 1 q =
        w.count (Chunk.OwnedBy q e'.owner) + if e'.owner = c.owner ∧ q = pool then 1 else 0
      rw [← h.connection e' he', increase]
      simp only [ho, true_and]
      split_ifs <;> rfl
  · obtain ⟨e', he', hid, hmax⟩ := exists_terms hterms he
    have hquota' := h.quota e' he' q
    rw [hid, hmax] at hquota'
    rw [assign_assignments h.toRoster hc]
    split_ifs with hmine
    · obtain ⟨hide, rfl⟩ := hmine
      have hagree : e.maxChunks = c.maxChunks := by
        rw [← hmax, ← hdm]
        exact (h.toRoster.agree e' he' d hd (hid.trans (hide.symm.trans hdi.symm))).2
      rw [hagree, ← hide]
      omega
    · exact hquota'

theorem grant_nil (w : World) (c : Connection) (pool : Pool) (adapter : ℕ) :
    (w.grant c pool adapter []).1 = w := by
  simp only [World.grant, World.commitPending, World.modifyConnection, List.length_nil,
    increase_zero, Nat.add_zero]
  rw [modifyFirst_of_fixed fun _ => rfl]

/-- **A grant is accounted for.** -/
theorem Accounted.grant (adapter : ℕ) : ∀ {ps : List Pending} {w : World}, Accounted w →
    c.terms ∈ w.connections.map Connection.terms → Selected w pool ps → (∀ p ∈ ps, Registered p) →
    w.allocated pool + (ps.map Pending.additional).sum ≤ w.config.maxGib pool →
    w.assignmentsForConsumer c.consumerId pool + ps.length ≤ c.maxChunks pool →
    Accounted (w.grant c pool adapter ps).1
  | [], w, h, _, _, _, _, _ => by
    rw [grant_nil]
    exact h
  | p :: ps, w, h, hc, hs, hr, hroom, hquota => by
    have hi := hs.bound p List.mem_cons_self
    have hfits := hs.fits p List.mem_cons_self
    rw [List.map_cons, List.sum_cons] at hroom
    rw [List.length_cons] at hquota
    have hassign : Accounted (w.assign c pool adapter p) :=
      h.assign hc hi hfits (hr p List.mem_cons_self) (by omega) (by omega) adapter
    rw [grant_cons]
    refine Accounted.grant adapter hassign ((assign_terms adapter).symm ▸ hc)
      (hs.tail (assign_overwrites hi adapter)) (fun q hq => hr q (List.mem_cons_of_mem _ hq)) ?_ ?_
    · have hle := assign_allocated_le (c := c) hfits adapter pool
      rw [if_pos rfl] at hle
      change _ ≤ w.config.maxGib pool
      omega
    · rw [assign_assignments h.toRoster hc, if_pos ⟨rfl, rfl⟩]
      omega

/-! ### Acquire -/

theorem sum_additional : ∀ ps : List Pending,
    (ps.map Pending.additional).sum +
      ps.countP (fun p => !p.newlyAllocated && !p.convertedFromOpportunistic) = ps.length
  | [] => rfl
  | p :: ps => by
    have ih := sum_additional ps
    rw [List.map_cons, List.sum_cons, List.countP_cons, List.length_cons, Pending.additional]
    cases p.newlyAllocated <;> cases p.convertedFromOpportunistic <;> simp <;> omega

theorem countP_newlyAllocated_le : ∀ ps : List Pending,
    ps.countP (·.newlyAllocated) ≤ (ps.map Pending.additional).sum
  | [] => le_rfl
  | p :: ps => by
    have ih := countP_newlyAllocated_le ps
    rw [List.map_cons, List.sum_cons, List.countP_cons, Pending.additional]
    cases p.newlyAllocated <;> simp <;> omega

theorem additional_of_plans {ps' : List Pending} (h : ps'.map Pending.plan = ps.map Pending.plan) :
    (ps'.map Pending.additional).sum = (ps.map Pending.additional).sum ∧ ps'.length = ps.length := by
  have hlength := congrArg List.length h
  rw [List.length_map, List.length_map] at hlength
  have hmap (l : List Pending) : l.map Pending.additional =
      (l.map Pending.plan).map fun q => if q.2.1 ∨ q.2.2 then 1 else 0 := by
    rw [List.map_map]
    rfl
  rw [hmap, hmap, h]
  exact ⟨rfl, hlength⟩

theorem checkPending_none (h : w.checkPending pool count a ps = none) :
    ps.length = count ∧ w.allocated pool + (ps.map Pending.additional).sum ≤ w.config.maxGib pool := by
  unfold World.checkPending at h
  dsimp only at h
  split_ifs at h with hlength hroom
  · have hsum := sum_additional ps
    omega
  · have hsum := sum_additional ps
    omega

theorem validateAcquire_ok {pool' : Option Pool} (h : w.validateAcquire c pool' count = .ok pool) :
    pool' = some pool ∧ w.assignmentsForConsumer c.consumerId pool + count ≤ c.maxChunks pool := by
  unfold World.validateAcquire at h
  split at h
  · cases h
  · split_ifs at h with hquota
    cases h
    exact ⟨rfl, by omega⟩

theorem Accounted.populate (h : Accounted w) (hc : c ∈ w.connections) (hs : Selected w pool ps)
    (hnone : ∀ p ∈ ps, p.registration = none)
    (hroom : w.allocated pool + (ps.map Pending.additional).sum ≤ w.config.maxGib pool)
    (hquota : w.assignmentsForConsumer c.consumerId pool + ps.length ≤ c.maxChunks pool)
    (adapter : ℕ) (a : Adapters) : Accounted (w.populate c pool adapter a ps).1 := by
  have hallocates := allocatePending_spec a ps w
  unfold World.populate
  generalize w.allocatePending a ps = r at hallocates ⊢
  obtain ⟨w₁, ps₁, failure⟩ := r
  have hsame₁ := sameTable_of_manager hallocates.manager
  obtain ⟨hadditional₁, hlength₁⟩ := additional_of_plans hallocates.plans
  have hs₁ := (hs.of_plans hallocates.plans).of_sameTable hsame₁
  have hroom₁ : w₁.allocated pool + (ps₁.map Pending.additional).sum ≤ w₁.config.maxGib pool := by
    rw [hsame₁.allocated, hsame₁.config, hadditional₁]
    exact hroom
  cases failure with
  | some failure =>
    refine Accounted.rollbackPending (hsame₁.accounted h) hs₁ (fun q hq hr => ?_) ?_ adapter a failure
    · rw [hallocates.registration_none hnone q hq] at hr
      cases hr
    · exact (Nat.add_le_add_left (countP_newlyAllocated_le ps₁) _).trans hroom₁
  | none =>
    have hregisters := registerPending_spec a ps₁ w₁
    dsimp only
    generalize w₁.registerPending a ps₁ = r at hregisters ⊢
    obtain ⟨w₂, ps₂, failure⟩ := r
    have hsame₂ := sameTable_of_manager hregisters.manager
    obtain ⟨hadditional₂, hlength₂⟩ := additional_of_plans hregisters.plans
    have hs₂ := (hs₁.of_plans hregisters.plans).of_sameTable hsame₂
    have hroom₂ : w₂.allocated pool + (ps₂.map Pending.additional).sum ≤ w₂.config.maxGib pool := by
      rw [hsame₂.allocated, hsame₂.config, hadditional₂]
      exact hroom₁
    have haccounted := hsame₂.accounted (hsame₁.accounted h)
    have haddress := hregisters.allocated (hallocates.allocated rfl)
    cases failure with
    | some failure =>
      refine Accounted.rollbackPending haccounted hs₂ (fun q hq _ => haddress q hq) ?_ adapter a failure
      exact (Nat.add_le_add_left (countP_newlyAllocated_le ps₂) _).trans hroom₂
    | none =>
      have hsame := hsame₁.trans hsame₂
      refine haccounted.grant adapter ?_ hs₂
        (fun q hq => ⟨hregisters.registered rfl q hq, haddress q hq⟩) hroom₂ ?_
      · rw [hsame.connections]
        exact List.mem_map_of_mem hc
      · rw [World.assignmentsForConsumer, hsame.connections, hlength₂, hlength₁]
        exact hquota

theorem validateAcquire_error {pool : Option Pool} {f : Failure}
    (h : w.validateAcquire c pool count = .error f) :
    f.result ≠ .cleanupFailed ∧ f.rejection ≠ .cleanupFailed := by
  unfold World.validateAcquire at h
  split at h
  · cases h
    decide
  · split_ifs at h
    cases h
    decide

theorem checkPending_some {f : Failure} (h : w.checkPending pool count a ps = some f) :
    f.result ≠ .cleanupFailed ∧ f.rejection ≠ .cleanupFailed := by
  unfold World.checkPending at h
  dsimp only at h
  split_ifs at h
  · cases h
    decide
  · cases h
    decide
  · split at h
    · cases h
      decide
    · split_ifs at h
      cases h
      decide

/-- **A request is refused**, or it has found its connection, passed the checks, and populates what
was selected. -/
theorem acquire_cases {pool : Option Pool} {r : Except Failure (List Grant)}
    (h : w.acquire owner pool count adapter grantCapacity a = (w', r)) :
    (∃ f, r = .error f ∧ f.result ≠ .cleanupFailed ∧
      (w' = w ∨ w' = w.reject f.rejection ∧ f.rejection ≠ .cleanupFailed)) ∨
    ∃ owner' c pool' adapter', owner = some owner' ∧ w.findConnection owner' = some c ∧
      pool = some pool' ∧
      adapter = some adapter' ∧ w.assignmentsForConsumer c.consumerId pool' + count ≤ c.maxChunks pool' ∧
      w.checkPending pool' count a (w.select pool' count) = none ∧
      w.populate c pool' adapter' a (w.select pool' count) = (w', r) := by
  unfold World.acquire at h
  split at h
  · rename_i owner adapter _
    split at h
    · cases h
      exact .inl ⟨_, rfl, by decide, .inl rfl⟩
    split at h
    · cases h
      exact .inl ⟨_, rfl, by decide, .inl rfl⟩
    split at h
    · cases h
      exact .inl ⟨_, rfl, by decide, .inl rfl⟩
    rename_i c hc
    split at h
    · rename_i f hvalid
      cases h
      obtain ⟨hresult, hreason⟩ := validateAcquire_error hvalid
      exact .inl ⟨f, rfl, hresult, .inr ⟨rfl, hreason⟩⟩
    rename_i pool' hvalid
    obtain ⟨hpool, hquota⟩ := validateAcquire_ok hvalid
    dsimp only at h
    split at h
    · rename_i f hcheck
      cases h
      obtain ⟨hresult, hreason⟩ := checkPending_some hcheck
      exact .inl ⟨f, rfl, hresult, .inr ⟨rfl, hreason⟩⟩
    · rename_i hcheck
      exact .inr ⟨owner, c, pool', adapter, rfl, hc, hpool, rfl, hquota, hcheck, h⟩
  · cases h
    exact .inl ⟨_, rfl, by decide, .inl rfl⟩

/-- **An admission keeps the accounts**, wherever it fails. -/
theorem Accounted.acquire (h : Accounted w) (owner : Option Owner) (pool : Option Pool) (count : ℕ)
    (adapter grantCapacity : Option ℕ) (a : Adapters) :
    Accounted (w.acquire owner pool count adapter grantCapacity a).1 := by
  cases hacquire : w.acquire owner pool count adapter grantCapacity a with
  | mk w' r =>
    rcases acquire_cases hacquire with
      ⟨f, -, -, rfl | ⟨rfl, -⟩⟩ | ⟨owner', c, pool', adapter', -, hc, -, -, hquota, hcheck, hpopulate⟩
    · exact h
    · exact (w.sameTable_reject _).accounted h
    · obtain ⟨hlength, hroom⟩ := checkPending_none hcheck
      have hkept := h.populate (find_owner hc).1 (selected_select h.shape pool' count)
        (fun p hp => registration_select h.shape hp) hroom (hlength.symm ▸ hquota) adapter' a
      rwa [hpopulate] at hkept

/-! ### Grants -/

theorem rollbackPending_ne_ok {adapter : ℕ} {failure : Failure} :
    w.rollbackPending pool adapter a ps failure ≠ (w', .ok grants) := by
  intro h
  unfold World.rollbackPending at h
  dsimp only at h
  split at h <;> cases h

theorem populate_ok {adapter : ℕ} (h : w.populate c pool adapter a ps = (w', .ok grants)) :
    ∃ w₁ ps₁ w₂ ps₂, w.allocatePending a ps = (w₁, ps₁, none) ∧
      w₁.registerPending a ps₁ = (w₂, ps₂, none) ∧
      w₂.grant c pool adapter ps₂ = (w', .ok grants) := by
  unfold World.populate at h
  split at h
  · exact absurd h rollbackPending_ne_ok
  rename_i w₁ ps₁ hallocate
  split at h
  · exact absurd h rollbackPending_ne_ok
  rename_i w₂ ps₂ hregister
  exact ⟨w₁, ps₁, w₂, ps₂, hallocate, hregister, h⟩

theorem commitPending_ids (c : Connection) (pool : Pool) (adapter : ℕ) :
    ∀ (ps : List Pending) (w : World),
    (w.commitPending c pool adapter ps).2.map (·.providerChunkId) = ps.map (·.index)
  | [], _ => rfl
  | p :: ps, w => by
    rw [commitPending_cons, List.map_cons, List.map_cons,
      commitPending_ids c pool adapter ps (w.commit c pool adapter p)]

/-- **The chunks that a call grants** are those it selected. -/
theorem populate_ids {adapter : ℕ} (h : w.populate c pool adapter a ps = (w', .ok grants)) :
    grants.map (·.providerChunkId) = ps.map (·.index) := by
  obtain ⟨w₁, ps₁, w₂, ps₂, hallocate, hregister, hgrant⟩ := populate_ok h
  have hallocates := allocatePending_spec a ps w
  rw [hallocate] at hallocates
  have hregisters := registerPending_spec a ps₁ w₁
  rw [hregister] at hregisters
  have hids : grants.map (·.providerChunkId) = ps₂.map (·.index) := by
    rw [← commitPending_ids c pool adapter ps₂ w₂]
    cases hgrant
    rfl
  have hindex (l : List Pending) : l.map (·.index) = (l.map Pending.plan).map Prod.fst := by
    rw [List.map_map]
    rfl
  rw [hids, hindex, hregisters.plans, hallocates.plans, ← hindex]

theorem acquire_length {pool : Option Pool}
    (hacquire : w.acquire owner pool count adapter grantCapacity a = (w', .ok grants)) :
    grants.length = count := by
  rcases acquire_cases hacquire with ⟨_, heq, -⟩ | ⟨_, _, _, _, -, -, -, -, -, hcheck, hpopulate⟩
  · cases heq
  have hlength := congrArg List.length (populate_ids hpopulate)
  rw [List.length_map, List.length_map] at hlength
  exact hlength.trans (checkPending_none hcheck).1

/-- Nobody owns a chunk that a call is about to grant, and it is not in quarantine. -/
theorem acquire_unassigned (h : ∀ i, Shape (w.chunks i)) {pool : Option Pool}
    (hacquire : w.acquire owner pool count adapter grantCapacity a = (w', .ok grants)) {g : Grant}
    (hg : g ∈ grants) :
    (w.chunks g.providerChunkId).owner = none ∧ (w.chunks g.providerChunkId).quarantined = false := by
  rcases acquire_cases hacquire with ⟨_, heq, -⟩ | ⟨_, _, pool', _, -, -, -, -, -, -, hpopulate⟩
  · cases heq
  have hid : g.providerChunkId ∈ (w.select pool' count).map (·.index) :=
    populate_ids hpopulate ▸ List.mem_map_of_mem hg
  obtain ⟨p, hp, hindex⟩ := List.mem_map.mp hid
  rw [← hindex]
  exact ((selected_select h pool' count).fits p hp).unassigned

end Memory
end Infiniswap
