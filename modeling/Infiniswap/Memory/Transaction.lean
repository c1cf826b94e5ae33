/-
# Admission and release as transactions

A rollback removes the registrations of a request and then frees what it had
allocated. What it did is read off the events of the call: an allocation that was
made is freed and a registration that was made is removed, apart from the chunks
whose deregistration fails, which are kept in quarantine. A release that is not
valid changes nothing but the statistics of rejections, and one that cannot
deregister a chunk has released those before it.
-/
import Infiniswap.Memory.InHand
import Infiniswap.Memory.Pressure

namespace Infiniswap
namespace Memory

open Keyed Transition

variable {w w' : World} {c : Connection} {pool : Pool} {p : Pending} {ps : List Pending} {a : Adapters}

/-! ### Rollback -/

theorem quarantineAll_eq (pool : Pool) (adapter : ℕ) : ∀ (ps : List Pending) (w : World),
    w.quarantineAll pool adapter ps =
      { w with
        chunks := (w.quarantineAll pool adapter ps).chunks
        allocated := increase w.allocated pool (ps.countP (·.newlyAllocated))
        quarantined := w.quarantined + ps.length }
  | [], w => by
    change w = { w with allocated := increase w.allocated pool 0 }
    rw [increase_zero]
  | p :: ps, w => by
    have hallocated :
        increase (w.quarantine pool adapter p).allocated pool (ps.countP (·.newlyAllocated)) =
          increase w.allocated pool ((p :: ps).countP (·.newlyAllocated)) := by
      rw [quarantine_eq, List.countP_cons]
      cases p.newlyAllocated with
      | false => rfl
      | true => exact (increase_increase _ _ _ _).trans (by rw [Nat.add_comm]; rfl)
    have hquarantined : (w.quarantine pool adapter p).quarantined + ps.length =
        w.quarantined + (p :: ps).length := by
      rw [quarantine_eq, List.length_cons]
      exact (Nat.add_right_comm _ _ _).trans (Nat.add_assoc _ _ _)
    have hother (chunks : ℕ → Chunk) (f : Pool → ℕ) (n : ℕ) :
        ({ w.quarantine pool adapter p with
          chunks := chunks, allocated := f, quarantined := n } : World) =
          { w with chunks := chunks, allocated := f, quarantined := n } := by
      rw [quarantine_eq]
    have ih := quarantineAll_eq pool adapter ps (w.quarantine pool adapter p)
    rw [hallocated, hquarantined] at ih
    exact ih.trans (hother _ _ _)

theorem quarantineAll_chunks (pool : Pool) (adapter : ℕ) :
    ∀ {ps : List Pending} {w : World}, (ps.map (·.index)).Nodup →
    (∀ p ∈ ps, (w.quarantineAll pool adapter ps).chunks p.index = quarantineChunk w pool adapter p) ∧
      ∀ j, j ∉ ps.map (·.index) → (w.quarantineAll pool adapter ps).chunks j = w.chunks j
  | [], _, _ => ⟨nofun, fun _ _ => rfl⟩
  | p :: ps, w, hnodup => by
    obtain ⟨hp, hnodup⟩ := List.nodup_cons.mp hnodup
    obtain ⟨hin, hout⟩ := quarantineAll_chunks pool adapter (w := w.quarantine pool adapter p) hnodup
    have hchunks : (w.quarantine pool adapter p).chunks =
        Function.update w.chunks p.index (quarantineChunk w pool adapter p) := by rw [quarantine_eq]
    refine ⟨List.forall_mem_cons.mpr ⟨?_, fun q hq => ?_⟩, fun j hj => ?_⟩
    · refine (hout p.index hp).trans ?_
      rw [hchunks, Function.update_self]
    · have hne : q.index ≠ p.index := ne_of_mem_of_not_mem (List.mem_map_of_mem hq) hp
      refine (hin q hq).trans ?_
      rw [quarantineChunk, quarantineChunk, hchunks, Function.update_of_ne hne]
    · rw [List.map_cons, List.mem_cons, not_or] at hj
      refine (hout j hj.2).trans ?_
      rw [hchunks, Function.update_of_ne hj.1]

theorem rolledBack_addresses (w : World) (pool : Pool) (adapter : ℕ) (a : Adapters) (ps : List Pending) :
    (w.rolledBack pool adapter a ps).addresses = w.addresses := by
  rw [World.rolledBack, World.record, quarantineAll_eq]

theorem mem_deregistrations {r : ℕ} {ok : Bool} : .deregistered r ok ∈ deregistrations a ps ↔
    ∃ p ∈ ps, p.registration = some r ∧ a.deregister p.index = ok := by
  rw [deregistrations, List.mem_reverse, List.mem_filterMap]
  refine exists_congr fun p => and_congr_right fun _ => ?_
  cases p.registration <;> simp

theorem mem_frees {x : ℕ} : .freed x ∈ frees (deregistered a ps) ↔
    ∃ p ∈ ps, p.newlyAllocated = true ∧ p.address = some x ∧ p ∉ stuck a ps := by
  rw [frees, deregistered, List.filterMap_map, List.mem_reverse, List.mem_filterMap]
  refine exists_congr fun p => and_congr_right fun hp => ?_
  simp only [Function.comp_apply, mem_stuck, hp, true_and]
  cases hd : a.deregister p.index <;> cases hr : p.registration <;> cases hn : p.newlyAllocated <;>
    simp [hr, hn]

theorem frees_kind {e : Event} (he : e ∈ frees ps) : ∃ x, e = .freed x := by
  rw [frees, List.mem_reverse] at he
  obtain ⟨p, -, hp⟩ := List.mem_filterMap.mp he
  split at hp
  · obtain ⟨x, -, rfl⟩ := Option.map_eq_some_iff.mp hp
    exact ⟨x, rfl⟩
  · cases hp

theorem deregistrations_kind {e : Event} (he : e ∈ deregistrations a ps) :
    ∃ r ok, e = .deregistered r ok := by
  rw [deregistrations, List.mem_reverse] at he
  obtain ⟨p, -, hp⟩ := List.mem_filterMap.mp he
  obtain ⟨r, -, rfl⟩ := Option.map_eq_some_iff.mp hp
  exact ⟨r, _, rfl⟩

/-! ### The events of a rollback -/

/-- The events of a request that was rolled back. -/
structure Rollback (a : Adapters) (ps : List Pending) (events : List Event) : Prop where
  allocated : ∀ x, .allocated x ∈ events ↔ x ∈ freshAddresses ps
  freed : ∀ x, .freed x ∈ events ↔ ∃ p ∈ ps, p.newlyAllocated = true ∧ p.address = some x ∧ p ∉ stuck a ps
  registered : ∀ r x, .registered r x ∈ events ↔ ∃ p ∈ ps, p.registration = some r ∧ p.address = some x
  deregistered : ∀ r ok, .deregistered r ok ∈ events ↔ ∃ p ∈ ps, p.registration = some r ∧
    a.deregister p.index = ok
  address : ∀ p ∈ ps, p.registration.isSome = true → p.address.isSome = true
  addresses : (freshAddresses ps).Nodup
  registrations : (registrationsOf ps).Nodup

theorem Prepared.rollback {events : List Event} (h : Prepared events ps) (a : Adapters) :
    Rollback a ps (frees (deregistered a ps) ++ deregistrations a ps ++ events) := by
  have hfrees {r : ℕ} {ok : Bool} : .deregistered r ok ∉ frees (deregistered a ps) := fun he => by
    obtain ⟨_, heq⟩ := frees_kind he
    cases heq
  have hderegistrations {x : ℕ} : .freed x ∉ deregistrations a ps := fun he => by
    obtain ⟨_, _, heq⟩ := deregistrations_kind he
    cases heq
  have hfreed {x : ℕ} : .freed x ∉ events := fun he => by
    rcases h.kinds _ he with ⟨_, heq | heq⟩ | ⟨_, _, heq⟩ <;> cases heq
  have hderegistered {r : ℕ} {ok : Bool} : .deregistered r ok ∉ events := fun he => by
    rcases h.kinds _ he with ⟨_, heq | heq⟩ | ⟨_, _, heq⟩ <;> cases heq
  have hold {e : Event} (hx : ∀ x, e ≠ .freed x) (hr : ∀ r ok, e ≠ .deregistered r ok) :
      e ∈ frees (deregistered a ps) ++ deregistrations a ps ++ events ↔ e ∈ events := by
    refine ⟨fun he => ?_, List.mem_append_right _⟩
    rw [List.mem_append, List.mem_append] at he
    rcases he with (he | he) | he
    · obtain ⟨x, heq⟩ := frees_kind he
      exact absurd heq (hx x)
    · obtain ⟨r, ok, heq⟩ := deregistrations_kind he
      exact absurd heq (hr r ok)
    · exact he
  refine ⟨fun x => ?_, fun x => ?_, fun r x => ?_, fun r ok => ?_, h.address, h.addresses,
    h.registrations⟩
  · rw [hold (e := .allocated x) nofun nofun, h.allocated]
  · rw [List.mem_append, List.mem_append, or_iff_left hfreed, or_iff_left hderegistrations, mem_frees]
  · rw [hold (e := .registered r x) nofun nofun, h.registered]
  · rw [List.mem_append, List.mem_append, or_iff_left hderegistered, or_iff_right hfrees,
      mem_deregistrations]

section Rollback

variable {events : List Event}

section

variable (h : Rollback a ps events)

include h

theorem Rollback.allocations (x : ℕ) : .allocated x ∈ events ↔
    .freed x ∈ events ∨ ∃ p ∈ stuck a ps, p.newlyAllocated = true ∧ p.address = some x := by
  rw [h.allocated, h.freed, mem_freshAddresses]
  constructor
  · rintro ⟨p, hp, hnew, hx⟩
    by_cases hstuck : p ∈ stuck a ps
    · exact .inr ⟨p, hstuck, hnew, hx⟩
    · exact .inl ⟨p, hp, hnew, hx, hstuck⟩
  · rintro (⟨p, hp, hnew, hx, -⟩ | ⟨p, hstuck, hnew, hx⟩)
    · exact ⟨p, hp, hnew, hx⟩
    · exact ⟨p, (mem_stuck.mp hstuck).1, hnew, hx⟩

theorem Rollback.not_freed (hp : p ∈ stuck a ps) (hnew : p.newlyAllocated = true) {x : ℕ}
    (hx : p.address = some x) : .freed x ∉ events := by
  rw [h.freed]
  rintro ⟨q, hq, hqnew, hqx, hfree⟩
  have hsame : p = q := eq_of_nodup_filterMap h.addresses (mem_stuck.mp hp).1 hq (by rw [if_pos hnew, hx])
    (by rw [if_pos hqnew, hqx])
  exact hfree (hsame ▸ hp)

theorem Rollback.registrations_iff (r : ℕ) : (∃ x, .registered r x ∈ events) ↔
    .deregistered r true ∈ events ∨ .deregistered r false ∈ events := by
  simp only [h.registered, h.deregistered]
  constructor
  · rintro ⟨x, p, hp, hr, -⟩
    cases hd : a.deregister p.index with
    | true => exact .inl ⟨p, hp, hr, hd⟩
    | false => exact .inr ⟨p, hp, hr, hd⟩
  · rintro (⟨p, hp, hr, -⟩ | ⟨p, hp, hr, -⟩)
    all_goals
      obtain ⟨x, hx⟩ := Option.isSome_iff_exists.mp (h.address p hp (by rw [hr]; rfl))
      exact ⟨x, p, hp, hr, hx⟩

theorem Rollback.failed_iff (r : ℕ) :
    .deregistered r false ∈ events ↔ ∃ p ∈ stuck a ps, p.registration = some r := by
  rw [h.deregistered]
  constructor
  · rintro ⟨p, hp, hr, hd⟩
    exact ⟨p, mem_stuck.mpr ⟨hp, by rw [hr]; rfl, hd⟩, hr⟩
  · rintro ⟨p, hp, hr⟩
    obtain ⟨hp, -, hd⟩ := mem_stuck.mp hp
    exact ⟨p, hp, hr, hd⟩

theorem Rollback.not_removed {r : ℕ} (hr : .deregistered r false ∈ events) :
    .deregistered r true ∉ events := by
  rw [h.deregistered] at hr ⊢
  obtain ⟨p, hp, hpr, hpd⟩ := hr
  rintro ⟨q, hq, hqr, hqd⟩
  cases eq_of_nodup_filterMap h.registrations hp hq hpr hqr
  cases hpd.symm.trans hqd

end

end Rollback

/-! ### A request that fails -/

/-- A call changed nothing but the statistics of rejections, and it freed what it had allocated and
removed what it had registered. -/
structure Undone (w w' : World) (events : List Event) : Prop where
  manager : w'.toManager =
    { w.toManager with rejections := w'.rejections, lastRejection := w'.lastRejection }
  allocations : ∀ x, .allocated x ∈ events ↔ .freed x ∈ events
  registrations : ∀ r, (∃ x, .registered r x ∈ events) ↔ .deregistered r true ∈ events
  deregistrations : ∀ r, .deregistered r false ∉ events

/-- **The call left the chunks `failed` in quarantine**, those whose deregistration failed, and
nothing else. A new one counts in the pool of the request, and a chunk that was reused was idle;
what was allocated for the others is freed, and what was registered for them is removed. -/
structure Quarantines (w w' : World) (pool : Pool) (adapter : ℕ) (failed : List Pending)
    (events : List Event) : Prop where
  nonempty : failed ≠ []
  manager : w'.toManager =
    { w.toManager with
      chunks := w'.chunks
      allocated := increase w.allocated pool (failed.countP (·.newlyAllocated))
      quarantined := w.quarantined + failed.length
      rejections := w.rejections + 2
      lastRejection := .cleanupFailed
      healthy := false }
  slots : (failed.map (·.index)).Nodup
  others : ∀ j, j ∉ failed.map (·.index) → w'.chunks j = w.chunks j
  chunks : ∀ p ∈ failed, ∃ x r, p.address = some x ∧ .registered r x ∈ events ∧
    .deregistered r false ∈ events ∧
    w'.chunks p.index = quarantinedChunk x r adapter (if p.newlyAllocated then pool else .opportunistic) ∧
    if p.newlyAllocated then w.chunks p.index = {} ∧ .allocated x ∈ events ∧ .freed x ∉ events
    else w.chunks p.index = idleChunk x
  deregistered : ∀ r, .deregistered r false ∈ events →
    .deregistered r true ∉ events ∧ ∃ p ∈ failed, (w'.chunks p.index).registration = some r
  allocations : ∀ x, .allocated x ∈ events ↔
    .freed x ∈ events ∨ ∃ p ∈ failed, p.newlyAllocated = true ∧ p.address = some x
  registrations : ∀ r, (∃ x, .registered r x ∈ events) ↔
    .deregistered r true ∈ events ∨ .deregistered r false ∈ events

section Rollback

variable {w₀ : World} {events : List Event} {adapter : ℕ} {failure : Failure}

theorem quarantineAll_manager (h : w₀.toManager = w.toManager) (reason : Rejection) (pool : Pool)
    (adapter : ℕ) (ps : List Pending) :
    ((w₀.reject reason).quarantineAll pool adapter ps).toManager =
      { w.toManager with
        chunks := ((w₀.reject reason).quarantineAll pool adapter ps).chunks
        allocated := increase w.allocated pool (ps.countP (·.newlyAllocated))
        quarantined := w.quarantined + ps.length
        rejections := w.rejections + 1
        lastRejection := reason
        healthy := w.healthy && reason ≠ .cleanupFailed } := by
  rw [← h]
  exact congrArg World.toManager (quarantineAll_eq pool adapter ps (w₀.reject reason))

theorem rolledBack_log (w : World) (pool : Pool) (adapter : ℕ) (a : Adapters) (ps : List Pending) :
    (w.rolledBack pool adapter a ps).log =
      frees (deregistered a ps) ++ deregistrations a ps ++ w.log := by
  rw [World.rolledBack, World.record, quarantineAll_eq]

/-- **A rollback that nothing stops.** -/
theorem rollback_clean (hmanager : w₀.toManager = w.toManager) (hp : Prepared events ps)
    (hreason : failure.rejection ≠ .cleanupFailed) (hstuck : stuck a ps = []) :
    Undone w ((w₀.reject failure.rejection).rolledBack pool adapter a ps)
      (frees (deregistered a ps) ++ deregistrations a ps ++ events) := by
  have hr := hp.rollback a
  have hnone (r : ℕ) :
      .deregistered r false ∉ frees (deregistered a ps) ++ deregistrations a ps ++ events := by
    rw [hr.failed_iff, hstuck]
    rintro ⟨p, hp, -⟩
    cases hp
  refine ⟨?_, fun x => ?_, fun r => ?_, hnone⟩
  · rw [World.rolledBack, hstuck, ← hmanager]
    simp only [World.quarantineAll, List.foldl_nil, World.record, World.reject, ne_eq, hreason,
      not_false_eq_true, decide_true, Bool.and_true]
  · rw [hr.allocations, or_iff_left]
    rw [hstuck]
    rintro ⟨p, hp, -⟩
    cases hp
  · rw [hr.registrations_iff, or_iff_left (hnone r)]

theorem reject_cleanupFailed {m : Manager} (h : w.toManager = m) : (w.reject .cleanupFailed).toManager =
    { m with rejections := m.rejections + 1, lastRejection := .cleanupFailed, healthy := false } := by
  subst h
  simp [World.reject]

theorem quarantineChunk_of_stuck (hchunks : w₀.chunks = w.chunks) (hp : Prepared events ps)
    (hs : Requested w pool ps) (hmem : p ∈ stuck a ps) (adapter : ℕ) :
    ∃ x r, p.address = some x ∧ p.registration = some r ∧
      quarantineChunk w₀ pool adapter p =
        quarantinedChunk x r adapter (if p.newlyAllocated then pool else .opportunistic) ∧
      if p.newlyAllocated then w.chunks p.index = {} else w.chunks p.index = idleChunk x := by
  obtain ⟨hmem, hregistered, -⟩ := mem_stuck.mp hmem
  obtain ⟨r, hr⟩ := Option.isSome_iff_exists.mp hregistered
  obtain ⟨x, hx⟩ := Option.isSome_iff_exists.mp (hp.address p hmem hregistered)
  refine ⟨x, r, hx, hr, ?_⟩
  cases hnew : p.newlyAllocated with
  | true =>
    have hempty : w.chunks p.index = {} := by
      cases hs.fits p hmem with
      | new _ _ hchunk => exact hchunk
      | same _ hold | converted _ hold => cases hold.symm.trans hnew
    refine ⟨?_, hempty⟩
    rw [quarantineChunk, hnew, hchunks, hempty, hx, hr]
    rfl
  | false =>
    obtain ⟨y, hidle, hy⟩ := hs.idle hmem hnew
    cases hx.symm.trans hy
    refine ⟨?_, hidle⟩
    rw [quarantineChunk, hnew, hchunks, hidle, hr]
    rfl

/-- **A rollback that cannot deregister all chunks.** -/
theorem rollback_stuck (hmanager : w₀.toManager = w.toManager) (hp : Prepared events ps)
    (hs : Requested w pool ps) (hstuck : stuck a ps ≠ []) :
    Quarantines w
      (((w₀.reject failure.rejection).rolledBack pool adapter a ps).reject .cleanupFailed) pool adapter
      (stuck a ps) (frees (deregistered a ps) ++ deregistrations a ps ++ events) := by
  have hr := hp.rollback a
  have hs' := hs.sublist (show (stuck a ps).Sublist ps from List.filter_sublist)
  have hchunks := quarantineAll_chunks (w := w₀.reject failure.rejection) pool adapter hs'.nodup
  have hw : (w₀.reject failure.rejection).chunks = w.chunks :=
    show w₀.toManager.chunks = w.toManager.chunks from congrArg Manager.chunks hmanager
  refine ⟨hstuck, ?_, hs'.nodup, fun j hj => ?_, fun p hmem => ?_,
    fun r hfailed => ⟨hr.not_removed hfailed, ?_⟩, hr.allocations, hr.registrations_iff⟩
  · have heq := quarantineAll_manager hmanager failure.rejection pool adapter (stuck a ps)
    exact reject_cleanupFailed (w := (w₀.reject failure.rejection).rolledBack pool adapter a ps) heq
  · exact (hchunks.2 j hj).trans (congrFun hw j)
  · obtain ⟨x, r, hx, hreg, hchunk, hbefore⟩ := quarantineChunk_of_stuck hw hp hs hmem adapter
    obtain ⟨hmem', -, hd⟩ := mem_stuck.mp hmem
    refine ⟨x, r, hx, (hr.registered r x).mpr ⟨p, hmem', hreg, hx⟩,
      (hr.deregistered r false).mpr ⟨p, hmem', hreg, hd⟩, (hchunks.1 p hmem).trans hchunk, ?_⟩
    cases hnew : p.newlyAllocated with
    | true =>
      rw [hnew] at hbefore
      exact ⟨hbefore, (hr.allocated x).mpr (mem_freshAddresses.mpr ⟨p, hmem', hnew, hx⟩),
        hr.not_freed hmem hnew hx⟩
    | false =>
      rw [hnew] at hbefore
      exact hbefore
  · obtain ⟨p, hmem, hreg⟩ := (hr.failed_iff r).mp hfailed
    obtain ⟨x, r', -, hreg', hchunk, -⟩ := quarantineChunk_of_stuck hw hp hs hmem adapter
    cases hreg.symm.trans hreg'
    exact ⟨p, hmem, congrArg Chunk.registration ((hchunks.1 p hmem).trans hchunk)⟩

end Rollback

theorem undone_refl (w : World) : Undone w w [] := ⟨rfl, by simp, by simp, nofun⟩

theorem undone_reject (w : World) {reason : Rejection} (h : reason ≠ .cleanupFailed) :
    Undone w (w.reject reason) [] := by
  refine ⟨?_, by simp, by simp, nofun⟩
  simp [World.reject, h]

/-- **A request that fails** is undone, or it leaves chunks in quarantine. -/
theorem acquire_error (h : ∀ i, Shape (w.chunks i)) {owner : Option Owner} {pool : Option Pool}
    {count : ℕ} {adapter grantCapacity : Option ℕ} {f : Failure}
    (hacquire : w.acquire owner pool count adapter grantCapacity a = (w', .error f)) :
    ∃ events, w'.log = events ++ w.log ∧
      (f.result ≠ .cleanupFailed ∧ Undone w w' events ∨
        f.result = .cleanupFailed ∧ ∃ pool' adapter' failed, pool = some pool' ∧ adapter = some adapter' ∧
          Quarantines w w' pool' adapter' failed events) := by
  rcases acquire_cases hacquire with ⟨f, heq, hresult, hw⟩ |
    ⟨_, c, pool', adapter', -, -, hpool, hadapter, -, -, hpopulate⟩
  · cases heq
    rcases hw with rfl | ⟨rfl, hreason⟩
    · exact ⟨[], rfl, .inl ⟨hresult, undone_refl w'⟩⟩
    · exact ⟨[], rfl, .inl ⟨hresult, undone_reject w hreason⟩⟩
  · obtain ⟨hs, hfresh, hnone⟩ := requested_select h pool' count
    obtain ⟨w₀, ps, events, hhand, ⟨failure, hresult, hreason, heq⟩ | ⟨-, heq⟩⟩ :=
      populate_cases hs hfresh hnone c adapter' a
    rotate_left
    · cases heq.symm.trans hpopulate
    have hrollback := heq.symm.trans hpopulate
    have hlog' : ((w₀.reject failure.rejection).rolledBack pool' adapter' a ps).log =
        frees (deregistered a ps) ++ deregistrations a ps ++ events ++ w.log := by
      rw [rolledBack_log, List.append_assoc _ events, ← hhand.log]
      rfl
    rw [rollbackPending_eq] at hrollback
    split at hrollback
    · rename_i hstuck
      cases hrollback
      exact ⟨_, hlog', .inl ⟨hresult, rollback_clean hhand.manager hhand.toPrepared hreason hstuck⟩⟩
    · rename_i hstuck
      cases hrollback
      exact ⟨_, hlog', .inr ⟨rfl, pool', adapter', _, hpool, hadapter,
        rollback_stuck hhand.manager hhand.toPrepared hhand.toRequested hstuck⟩⟩

/-! ### Release -/

theorem checkRelease_error {owner : Owner} {cause : ReleaseCause} {f : Failure} : ∀ {seen ids : List ℕ},
    w.checkRelease owner cause seen ids = .error f →
      f = ⟨.committedProtected, .committedProtected⟩ ∨
        f.rejection = .none ∧ (f.result = .notFound ∨ f.result = .invalidArgument)
  | _, [], h => by cases h
  | seen, i :: ids, h => by
    unfold World.checkRelease at h
    split at h
    · cases h
      exact .inr ⟨rfl, .inl rfl⟩
    split at h
    · cases h
      exact .inl rfl
    split at h
    · cases h
      exact .inr ⟨rfl, .inr rfl⟩
    · exact checkRelease_error h

/-- A release was stopped at the chunk in slot `i`, which it could not deregister, and has released
the chunks before it in the request. -/
structure Stopped (w w' : World) (c : Connection) (cause : ReleaseCause) (a : Adapters)
    (done : List ℕ) (i : ℕ) : Prop where
  failed : a.deregister i = false
  removed : ∀ j ∈ done, a.deregister j = true
  released : w' = ((w.releaseSlots c cause done).record
    [.deregistered ((w.chunks i).registration.getD 0) false]).reject .cleanupFailed
  chunks : ∀ j, w'.chunks j =
    if j ∈ done then leftover ((w.chunks j).address.getD 0) ((w.chunks j).pool.getD .committed) cause
    else w.chunks j

/-- **A release** is refused without a change but to the statistics of rejections, or is done, or is
stopped. -/
theorem release_cases (h : Accounted w) {owner : Option Owner} {ids : Option (List ℕ)}
    {cause : Option ReleaseCause} {result : MemoryResult}
    (hrelease : w.release owner ids cause a = (w', result)) :
    (result ≠ .ok ∧ result ≠ .cleanupFailed ∧
      (w' = w ∨ result = .committedProtected ∧ w' = w.reject .committedProtected)) ∨
    result = .ok ∨
    result = .cleanupFailed ∧ ∃ owner' c cause' done i rest, owner = some owner' ∧
      w.findConnection owner' = some c ∧
      cause = some cause' ∧ ids = some (done ++ i :: rest) ∧ Stopped w w' c cause' a done i := by
  unfold World.release at hrelease
  split at hrelease
  · rename_i owner ids cause
    split at hrelease
    · cases hrelease
      exact .inl ⟨by decide, by decide, .inl rfl⟩
    split at hrelease
    · cases hrelease
      exact .inl ⟨by decide, by decide, .inl rfl⟩
    rename_i c hc
    split at hrelease
    · rename_i result' hcheck
      cases hrelease
      rcases checkRelease_error hcheck with heq | ⟨-, heq | heq⟩
      · cases heq
      · cases heq
        exact .inl ⟨by decide, by decide, .inl rfl⟩
      · cases heq
        exact .inl ⟨by decide, by decide, .inl rfl⟩
    · rename_i result' reason hreason hcheck
      cases hrelease
      rcases checkRelease_error hcheck with heq | ⟨heq, -⟩
      · cases heq
        exact .inl ⟨by decide, by decide, .inr ⟨rfl, rfl⟩⟩
      · exact absurd heq hreason
    · rename_i hcheck
      have hr := releasable_checked hc hcheck
      rcases releaseEach_eq (I := Accounted) (fun _ h => h.shape)
        (fun _ _ h hi howner => h.releaseSlot cause hi howner) a h hr with
        ⟨-, heq⟩ | ⟨done, i, rest, rfl, hdone, hi, heq⟩
      · cases heq.symm.trans hrelease
        exact .inr (.inl rfl)
      · cases heq.symm.trans hrelease
        refine .inr (.inr
          ⟨rfl, owner, c, cause, done, i, rest, rfl, hc, rfl, rfl, hi, hdone, rfl, fun j => ?_⟩)
        exact releaseSlots_chunks cause (List.nodup_append.mp hr.nodup).1 j
  · cases hrelease
    exact .inl ⟨by decide, by decide, .inl rfl⟩

theorem release_ok (h : Accounted w) {owner : Owner} {ids : List ℕ} {cause : ReleaseCause}
    (hrelease : w.release (some owner) (some ids) (some cause) a = (w', .ok)) :
    ∃ c, w.findConnection owner = some c ∧ w.checkRelease owner cause [] ids = .ok () ∧
      w' = w.releaseSlots c cause ids := by
  unfold World.release at hrelease
  dsimp only at hrelease
  split at hrelease
  · cases hrelease
  split at hrelease
  · cases hrelease
  rename_i c hc
  split at hrelease
  · rename_i result' hcheck
    cases hrelease
    rcases checkRelease_error hcheck with heq | ⟨-, heq | heq⟩ <;> cases heq
  · rename_i result' reason hreason hcheck
    cases hrelease
    rcases checkRelease_error hcheck with heq | ⟨heq, -⟩
    · cases heq
    · exact absurd heq hreason
  · rename_i hcheck
    rcases releaseEach_eq (I := Accounted) (fun _ h => h.shape)
      (fun _ _ h hi howner => h.releaseSlot cause hi howner) a h (releasable_checked hc hcheck) with
      ⟨-, heq⟩ | ⟨done, i, rest, -, -, -, heq⟩
    · cases heq.symm.trans hrelease
      exact ⟨c, hc, hcheck, rfl⟩
    · cases heq.symm.trans hrelease

/-- **Transactions.** From every state that the manager reaches, a request that fails without a
failure of its cleanup is undone; where its cleanup fails, the chunks whose deregistration failed
are left in quarantine, and nothing else. A release that is refused changes nothing but the
statistics of rejections, and these only for a committed chunk that is protected; a release that is
stopped has released the chunks before in the request. -/
theorem memory_transactions (h : system.Reachable w) :
    (∀ owner pool count adapter grantCapacity a w' f,
      w.acquire owner pool count adapter grantCapacity a = (w', .error f) →
      ∃ events, w'.log = events ++ w.log ∧ (f.result ≠ .cleanupFailed → Undone w w' events) ∧
        (f.result = .cleanupFailed → ∃ pool' adapter' failed, pool = some pool' ∧
          adapter = some adapter' ∧ Quarantines w w' pool' adapter' failed events)) ∧
    ∀ owner ids cause a w' result, w.release owner ids cause a = (w', result) →
      (result ≠ .ok → result ≠ .cleanupFailed →
        w' = w ∨ result = .committedProtected ∧ w' = w.reject .committedProtected) ∧
      (result = .cleanupFailed → ∃ owner' c cause' done i rest, owner = some owner' ∧
        w.findConnection owner' = some c ∧ cause = some cause' ∧ ids = some (done ++ i :: rest) ∧
        Stopped w w' c cause' a done i) := by
  have haccounted := accounted_reachable h
  refine ⟨?_, ?_⟩
  · intro owner pool count adapter grantCapacity a w' f hacquire
    obtain ⟨events, hlog, ⟨hresult, hundone⟩ | ⟨hresult, hquarantines⟩⟩ :=
      acquire_error haccounted.shape hacquire
    · exact ⟨events, hlog, fun _ => hundone, fun hcleanup => absurd hcleanup hresult⟩
    · exact ⟨events, hlog, fun hne => absurd hresult hne, fun _ => hquarantines⟩
  · intro owner ids cause a w' result hrelease
    obtain ⟨hok, hcleanup, hsame⟩ | hok | ⟨hcleanup, hstopped⟩ := release_cases haccounted hrelease
    · exact ⟨fun _ _ => hsame, fun hresult => absurd hresult hcleanup⟩
    · exact ⟨fun hne => absurd hok hne, fun hresult => by cases hok.symm.trans hresult⟩
    · exact ⟨fun _ hne => absurd hcleanup hne, fun _ => hstopped⟩

/-- The adapters of a request for two chunks whose second is not registered, and the first not
deregistered. -/
def failingCleanup : Adapters :=
  { available := some (8 * chunkBytes), register := fun i => i = 0, deregister := fun i => i ≠ 0 }

/-- A cleanup that fails is in quarantine for its one chunk, by the theorem. -/
theorem memory_transactions_sample : ∃ w w' f failed events, system.Reachable w ∧
    w.acquire (some 1) (some .committed) 2 (some 7) (some 2) failingCleanup = (w', .error f) ∧
    f.result = .cleanupFailed ∧ Quarantines w w' .committed 7 failed events := by
  obtain ⟨w, hreach, hend⟩ : ∃ w, system.Reachable w ∧
      (match (w.acquire (some 1) (some .committed) 2 (some 7) (some 2) failingCleanup).2 with
      | .error f => f.result = .cleanupFailed
      | .ok _ => false : Bool) :=
    exists_sample [.connect [97] (some 1) 1 (fun _ => 2) true] (by decide +kernel)
  cases hacquire : w.acquire (some 1) (some .committed) 2 (some 7) (some 2) failingCleanup with
  | mk w' r =>
    rw [hacquire] at hend
    cases r with
    | ok => cases hend
    | error f =>
      have hresult := of_decide_eq_true hend
      obtain ⟨events, -, -, hquarantines⟩ := (memory_transactions hreach).1 _ _ _ _ _ _ _ _ hacquire
      obtain ⟨_, _, failed, hpool, hadapter, hquarantines⟩ := hquarantines hresult
      cases hpool
      cases hadapter
      exact ⟨w, w', f, failed, events, hreach, hacquire, hresult, hquarantines⟩

/-- The statistics of rejections change where a cleanup fails, and where a committed chunk is not
given to pressure. -/
theorem rejections_change :
    (∃ w w' f, system.Reachable w ∧
      w.acquire (some 1) (some .committed) 2 (some 7) (some 2) failingCleanup = (w', .error f) ∧
      f.result = .cleanupFailed ∧ w'.rejections ≠ w.rejections) ∧
    ∃ w w', system.Reachable w ∧
      w.release (some 1) (some [0]) (some .pressure) failingCleanup = (w', .committedProtected) ∧
      w'.rejections ≠ w.rejections := by
  refine ⟨?_, ?_⟩
  · obtain ⟨w, hreach, hend⟩ : ∃ w, system.Reachable w ∧
        (match w.acquire (some 1) (some .committed) 2 (some 7) (some 2) failingCleanup with
        | (w', .error f) => f.result = .cleanupFailed ∧ w'.rejections ≠ w.rejections
        | (_, .ok _) => false : Bool) :=
      exists_sample [.connect [97] (some 1) 1 (fun _ => 2) true] (by decide +kernel)
    split at hend
    · rename_i w' f hacquire
      obtain ⟨hresult, hne⟩ := of_decide_eq_true hend
      exact ⟨w, w', f, hreach, hacquire, hresult, hne⟩
    · cases hend
  · obtain ⟨w, hreach, hresult, hne⟩ : ∃ w, system.Reachable w ∧
        (w.release (some 1) (some [0]) (some .pressure) failingCleanup).2 = .committedProtected ∧
        (w.release (some 1) (some [0]) (some .pressure) failingCleanup).1.rejections ≠ w.rejections :=
      exists_sample [.connect [97] (some 1) 1 (fun _ => 2) true, .acquire (some 1) (some .committed)
        1 (some 7) (some 1) { available := some (8 * chunkBytes) }] (by decide +kernel)
    exact ⟨w, _, hreach, Prod.ext rfl hresult, hne⟩

end Memory
end Infiniswap
