/-
# Memory is released once

`is_memory_manager_destroy` removes every registration that is left and, when all
could be removed, frees every chunk; when one could not, it keeps the manager and
may be called again. The events of a run are the entries of a ledger that is sound:
the addresses it holds are those in the table, and the registrations on them are
those in the table. So when a destruction succeeds everything has been given back,
once, and no memory was freed with a registration on it.
-/
import Infiniswap.Memory.Separation

namespace Infiniswap
namespace Memory

open Keyed Ledger Transition

variable {w w' : World} {c : Connection} {pool : Pool} {p : Pending} {ps : List Pending}
  {a : Adapters} {i : ℕ}

/-! ### Destruction -/

namespace World

variable {e : Event} {x : ℕ} {y : Entry ℕ ℕ}

/-- The first loop of `is_memory_manager_destroy`, and whether a registration could not be removed. -/
def deregisterSlots (w : World) (a : Adapters) : List ℕ → World × Bool
  | [] => (w, false)
  | i :: slots =>
    let chunk := w.chunks i
    if chunk.registration.isSome ∧ !a.deregister i then
      let (w, _) :=
        deregisterSlots (w.record (chunk.registration.toList.map (.deregistered · false))) a slots
      (w, true)
    else
      let w := w.record (chunk.registration.toList.map (.deregistered · true))
      deregisterSlots (w.setChunk i { chunk with registration := none, owner := none }) a slots

/-- The second loop of `is_memory_manager_destroy`. -/
def freeSlots (w : World) : List ℕ → World
  | [] => w
  | i :: slots => freeSlots (w.record ((w.chunks i).address.toList.map .freed)) slots

/-- `is_memory_manager_destroy`. -/
def destroy (w : World) (a : Adapters) : World × MemoryResult :=
  match w.deregisterSlots a (List.range w.chunkCapacity) with
  | (w, true) => (w.reject .cleanupFailed, .cleanupFailed)
  | (w, false) => (w.freeSlots (List.range w.chunkCapacity), .ok)

end World

/-- How far the manager is: in use, being destroyed, or gone. -/
inductive Phase
  | running | closing | destroyed
  deriving DecidableEq

/-- The manager from its creation to the end of its destruction. -/
structure Lifetime where
  world : World
  phase : Phase

/-- A call of a manager that is in use, or an attempt to destroy it. -/
inductive LifetimeLabel
  | call (l : Label)
  | destroy (a : Adapters)

/-- The runs in which nothing but its destruction is tried after it was tried once, until it succeeds. -/
def lifetime : System Lifetime LifetimeLabel where
  init s := (∃ c, create c = some s.world) ∧ s.phase = .running
  step s
    | .call l => if s.phase = .running then (s.world.call l).map (⟨·, .running⟩) else none
    | .destroy a =>
      if s.phase = .destroyed then none
      else
        match s.world.destroy a with
        | (w, .ok) => some ⟨w, .destroyed⟩
        | (w, _) => some ⟨w, .closing⟩

/-! ### The ledger of a run -/

/-- The address and the registration in a slot. -/
def World.stake (w : World) (i : ℕ) : Option ℕ × Option ℕ :=
  ((w.chunks i).address, (w.chunks i).registration)

theorem stake_update {v : World} {d : Chunk} (h : v.chunks = Function.update w.chunks i d) :
    v.stake = Function.update w.stake i (d.address, d.registration) := by
  funext j
  rw [World.stake, h]
  by_cases hji : j = i
  · subst hji
    rw [Function.update_self, Function.update_self]
  · rw [Function.update_of_ne hji, Function.update_of_ne hji]
    rfl

/-- **The table is what the ledger says.** -/
structure Linear (w : World) : Prop where
  sound : Sound w.entries
  held : ∀ x, Held w.entries x ↔ ∃ i < w.chunkCapacity, (w.stake i).1 = some x
  bound : ∀ r x, Bound w.entries r x ↔ ∃ i < w.chunkCapacity, w.stake i = (some x, some r)
  distinct : ∀ i < w.chunkCapacity, ∀ j < w.chunkCapacity, ∀ x, (w.stake i).1 = some x →
    (w.stake j).1 = some x → i = j
  backed : ∀ i < w.chunkCapacity, (w.stake i).2.isSome = true → (w.stake i).1.isSome = true
  addresses : ∀ x, .acquire x ∈ w.entries → x < w.addresses
  registrations : ∀ r x, .attach r x ∈ w.entries → r < w.registrations

theorem Linear.same (h : Linear w) (hcapacity : w'.chunkCapacity = w.chunkCapacity)
    (hstake : w'.stake = w.stake) (hentries : w'.entries = w.entries)
    (haddresses : w'.addresses = w.addresses)
    (hregistrations : w'.registrations = w.registrations) : Linear w' := by
  obtain ⟨hsound, hheld, hbound, hdistinct, hbacked, hx, hr⟩ := h
  rw [← hcapacity, ← hstake] at hheld hbound hdistinct hbacked
  rw [← hentries] at hsound hheld hbound hx hr
  rw [← haddresses] at hx
  rw [← hregistrations] at hr
  exact ⟨hsound, hheld, hbound, hdistinct, hbacked, hx, hr⟩

section

variable (h : Linear w) (hi : i < w.chunkCapacity)

include h hi

/-- A slot is lowered to `d`, without a registration, and the entry `e` takes from the ledger what
the slot loses. -/
theorem Linear.lower {d : Option ℕ} {e : Entry ℕ ℕ} (hcapacity : w'.chunkCapacity = w.chunkCapacity)
    (hstake : w'.stake = Function.update w.stake i (d, none))
    (hentries : w'.entries = e :: w.entries) (haddresses : w'.addresses = w.addresses)
    (hregistrations : w'.registrations = w.registrations)
    (hd : ∀ x, d = some x → (w.stake i).1 = some x) (hacquire : ∀ x, .acquire x ≠ e)
    (hattach : ∀ r x, .attach r x ≠ e) (hsound : Sound (e :: w.entries))
    (hheld : ∀ x, Held (e :: w.entries) x ↔ Held w.entries x ∧
      ((w.stake i).1 = some x → d = some x))
    (hbound : ∀ r x, Bound (e :: w.entries) r x ↔ Bound w.entries r x ∧
      w.stake i ≠ (some x, some r)) : Linear w' := by
  have hself : w'.stake i = (d, none) := hstake ▸ Function.update_self i _ _
  have hother {j : ℕ} (hji : j ≠ i) : w'.stake j = w.stake j := hstake ▸ Function.update_of_ne hji _ _
  have hold {j x : ℕ} (hx : (w'.stake j).1 = some x) : (w.stake j).1 = some x := by
    by_cases hji : j = i
    · subst hji
      exact hd x ((congrArg Prod.fst hself).symm.trans hx)
    · exact hother hji ▸ hx
  have hunregistered {j r : ℕ} {y : Option ℕ} (hj : w'.stake j = (y, some r)) : j ≠ i := by
    rintro rfl
    cases hself.symm.trans hj
  refine ⟨hentries ▸ hsound, fun x => ?_, fun r x => ?_, ?_, fun j hj hsome => ?_, fun x hx => ?_,
    fun r x hx => ?_⟩
  · rw [hentries, hcapacity, hheld, h.held]
    constructor
    · rintro ⟨⟨j, hj, hjx⟩, hkept⟩
      by_cases hji : j = i
      · subst hji
        exact ⟨j, hj, (congrArg Prod.fst hself).trans (hkept hjx)⟩
      · exact ⟨j, hj, by rwa [hother hji]⟩
    · rintro ⟨j, hj, hjx⟩
      refine ⟨⟨j, hj, hold hjx⟩, fun hix => ?_⟩
      cases h.distinct j hj i hi x (hold hjx) hix
      exact (congrArg Prod.fst hself).symm.trans hjx
  · rw [hentries, hcapacity, hbound, h.bound]
    constructor
    · rintro ⟨⟨j, hj, hjx⟩, hne⟩
      have hji : j ≠ i := by
        rintro rfl
        exact hne hjx
      exact ⟨j, hj, (hother hji).trans hjx⟩
    · rintro ⟨j, hj, hjx⟩
      have hji := hunregistered hjx
      rw [hother hji] at hjx
      exact ⟨⟨j, hj, hjx⟩,
        fun hix => hji (h.distinct j hj i hi x (congrArg Prod.fst hjx) (congrArg Prod.fst hix))⟩
  · rw [hcapacity]
    exact fun j hj k hk x hjx hkx => h.distinct j hj k hk x (hold hjx) (hold hkx)
  · obtain ⟨r, hr⟩ := Option.isSome_iff_exists.mp hsome
    rw [hother (hunregistered (Prod.ext rfl hr))] at hsome ⊢
    exact h.backed j (hcapacity ▸ hj) hsome
  · rw [hentries] at hx
    rw [haddresses]
    exact h.addresses x ((List.mem_cons.mp hx).resolve_left (hacquire x))
  · rw [hentries] at hx
    rw [hregistrations]
    exact h.registrations r x ((List.mem_cons.mp hx).resolve_left (hattach r x))

/-- **A registration is removed.** -/
theorem Linear.detach {r : ℕ} (hslot : w.stake i = (some x, some r))
    (hcapacity : w'.chunkCapacity = w.chunkCapacity)
    (hstake : w'.stake = Function.update w.stake i (some x, none))
    (hentries : w'.entries = .detach r :: w.entries) (haddresses : w'.addresses = w.addresses)
    (hregistrations : w'.registrations = w.registrations) : Linear w' := by
  have hx : (w.stake i).1 = some x := congrArg Prod.fst hslot
  have hthere : Bound w.entries r x := (h.bound r x).mpr ⟨i, hi, hslot⟩
  obtain ⟨hsound, hheld, hbound⟩ := sound_detaches h.sound [r] (List.nodup_singleton r) fun s hs => by
    rw [List.mem_singleton.mp hs]
    exact ⟨x, hthere⟩
  refine h.lower hi hcapacity hstake hentries haddresses hregistrations
    (fun y hy => hx.trans hy) nofun nofun hsound (fun y => (hheld y).trans ?_) fun s y =>
    (hbound s y).trans (and_congr_right fun hs => ?_)
  · rw [hx]
    exact (and_iff_left id).symm
  · rw [List.mem_singleton, hslot]
    refine not_congr ⟨?_, ?_⟩
    · -- one name stands for one attachment
      rintro rfl
      rw [h.sound.attach_unique hs.1 hthere.1]
    · rintro ⟨⟩
      rfl

/-- **Memory without a registration is freed.** -/
theorem Linear.release (hslot : w.stake i = (some x, none))
    (hcapacity : w'.chunkCapacity = w.chunkCapacity)
    (hstake : w'.stake = Function.update w.stake i (none, none))
    (hentries : w'.entries = .release x :: w.entries) (haddresses : w'.addresses = w.addresses)
    (hregistrations : w'.registrations = w.registrations) : Linear w' := by
  have hx : (w.stake i).1 = some x := congrArg Prod.fst hslot
  have hfree (r : ℕ) : ¬Bound w.entries r x := by
    intro hr
    obtain ⟨j, hj, hjs⟩ := (h.bound r x).mp hr
    cases h.distinct j hj i hi x (congrArg Prod.fst hjs) hx
    cases hjs.symm.trans hslot
  obtain ⟨hsound, hheld, hbound⟩ := sound_releases h.sound [x] (List.nodup_singleton x) fun y hy => by
    rw [List.mem_singleton.mp hy]
    exact ⟨(h.held x).mpr ⟨i, hi, hx⟩, hfree⟩
  refine h.lower hi hcapacity hstake hentries haddresses hregistrations nofun nofun nofun hsound
    (fun y => (hheld y).trans (and_congr_right fun _ => ?_)) fun s y => (hbound s y).trans ?_
  · rw [List.mem_singleton, hx, Option.some.injEq, eq_comm]
    exact (imp_congr_right fun _ => iff_of_false id nofun)
  · rw [hslot]
    exact (and_iff_left nofun).symm

end

theorem Requested.stake (hs : Requested w pool ps) (hp : p ∈ ps) :
    w.stake p.index = (if p.newlyAllocated then none else p.address, none) := by
  cases hnew : p.newlyAllocated with
  | true =>
    cases hs.fits p hp with
    | new _ _ hchunk => rw [World.stake, hchunk]; rfl
    | same _ hold | converted _ hold => cases hnew.symm.trans hold
  | false =>
    obtain ⟨x, hchunk, hx⟩ := hs.idle hp hnew
    rw [World.stake, hchunk, hx]
    rfl

/-- **Slots are filled** with memory that was acquired, and with the registrations on it. -/
theorem Linear.fill (h : Linear w) (hs : Requested w pool ps) (hnodup : (freshAddresses ps).Nodup)
    (hfresh : ∀ x ∈ freshAddresses ps, w.addresses ≤ x)
    (hcapacity : w'.chunkCapacity = w.chunkCapacity)
    (hother : ∀ j, j ∉ ps.map (·.index) → w'.stake j = w.stake j)
    (hin : ∀ p ∈ ps, w'.stake p.index = (p.address, p.registration))
    (hbacked : ∀ p ∈ ps, p.registration.isSome = true → p.address.isSome = true)
    (hsound : Sound w'.entries)
    (hheld : ∀ x, Held w'.entries x ↔ Held w.entries x ∨ x ∈ freshAddresses ps)
    (hbound : ∀ r x, Bound w'.entries r x ↔ Bound w.entries r x ∨ (r, x) ∈ bindings ps)
    (haddresses : ∀ x, .acquire x ∈ w'.entries → x < w'.addresses)
    (hregistrations : ∀ r x, .attach r x ∈ w'.entries → r < w'.registrations) : Linear w' := by
  have hslot {j x : ℕ} (hj : (w'.stake j).1 = some x) :=
    address_fill hs (fun j hj => congrArg Prod.fst (hother j hj))
      (fun p hp => congrArg Prod.fst (hin p hp)) hj
  refine ⟨hsound, fun x => ?_, fun r x => ?_, fun j hj k hk x hjx hkx => ?_, fun j hj hsome => ?_,
    haddresses, hregistrations⟩
  · rw [hheld, h.held, hcapacity, mem_freshAddresses]
    constructor
    · rintro (⟨j, hj, hjx⟩ | ⟨p, hp, -, hx⟩)
      · refine ⟨j, hj, ?_⟩
        by_cases hmem : j ∈ ps.map (·.index)
        · obtain ⟨p, hp, rfl⟩ := List.mem_map.mp hmem
          rw [hs.stake hp] at hjx
          rw [hin p hp]
          split at hjx
          · cases hjx
          · exact hjx
        · rwa [hother j hmem]
      · exact ⟨p.index, hs.bound p hp, by rw [hin p hp]; exact hx⟩
    · rintro ⟨j, hj, hjx⟩
      rcases hslot hjx with hold | ⟨p, hp, hnew, -, hx⟩
      · exact .inl ⟨j, hj, hold⟩
      · exact .inr ⟨p, hp, hnew, hx⟩
  · rw [hbound, h.bound, hcapacity, mem_bindings]
    constructor
    · rintro (⟨j, hj, hjx⟩ | ⟨p, hp, hr, hx⟩)
      · refine ⟨j, hj, ?_⟩
        by_cases hmem : j ∈ ps.map (·.index)
        · obtain ⟨p, hp, rfl⟩ := List.mem_map.mp hmem
          cases congrArg Prod.snd ((hs.stake hp).symm.trans hjx)
        · rwa [hother j hmem]
      · exact ⟨p.index, hs.bound p hp, by rw [hin p hp, hr, hx]⟩
    · rintro ⟨j, hj, hjx⟩
      by_cases hmem : j ∈ ps.map (·.index)
      · obtain ⟨p, hp, rfl⟩ := List.mem_map.mp hmem
        obtain ⟨hx, hr⟩ := Prod.mk.inj ((hin p hp).symm.trans hjx)
        exact .inr ⟨p, hp, hr, hx⟩
      · exact .inl ⟨j, hj, hother j hmem ▸ hjx⟩
  · rw [hcapacity] at hj hk
    -- what is new was not held
    have hunheld (hx : x ∈ freshAddresses ps) {j : ℕ} (hj : j < w.chunkCapacity) :
        (w.chunks j).address ≠ some x := by
      intro hjx
      have hacquired := ((h.held x).mpr ⟨j, hj, hjx⟩).1
      exact absurd (h.addresses x hacquired) (Nat.not_lt.mpr (hfresh x hx))
    exact distinct_fill hnodup (fun hx => ⟨hunheld hx hj, hunheld hx hk⟩) (h.distinct j hj k hk x)
      (hslot hjx) (hslot hkx)
  · by_cases hmem : j ∈ ps.map (·.index)
    · obtain ⟨p, hp, rfl⟩ := List.mem_map.mp hmem
      rw [hin p hp] at hsome ⊢
      exact hbacked p hp hsome
    · rw [hother j hmem] at hsome ⊢
      exact h.backed j (hcapacity ▸ hj) hsome

/-! ### Admission -/

section InHand

variable {w₀ : World} {events : List Event}

theorem Linear.inHand (h : Linear w) (hh : InHand w w₀ pool ps events) : Sound w₀.entries ∧
    (∀ x, Held w₀.entries x ↔ Held w.entries x ∨ x ∈ freshAddresses ps) ∧
    (∀ r x, Bound w₀.entries r x ↔ Bound w.entries r x ∨ (r, x) ∈ bindings ps) ∧
    (∀ x, .acquire x ∈ w₀.entries → x < w₀.addresses) ∧ ∀ r x, .attach r x ∈ w₀.entries →
      r < w₀.registrations := by
  have hnew : ∀ x ∈ (freshAddresses ps).reverse, .acquire x ∉ w.entries := by
    intro x hx hold
    exact absurd (h.addresses x hold) (Nat.not_lt.mpr (hh.fresh x (List.mem_reverse.mp hx)).1)
  obtain ⟨hsound, hheld, hbound⟩ := sound_acquires h.sound _ (List.nodup_reverse.mpr hh.addresses) hnew
  have hnames : ((bindings ps).reverse.map (·.1)).Nodup := by
    rw [List.map_reverse, List.nodup_reverse, map_bindings hh.address]
    exact hh.registrations
  have hattach :
      ∀ b ∈ (bindings ps).reverse, Held ((freshAddresses ps).reverse.map .acquire ++ w.entries) b.2 ∧
      ∀ y, .attach b.1 y ∉ (freshAddresses ps).reverse.map .acquire ++ w.entries := by
    rintro ⟨r, x⟩ hb
    obtain ⟨p, hp, hr, hx⟩ := mem_bindings.mp (List.mem_reverse.mp hb)
    refine ⟨(hheld x).mpr ?_, fun y hy => ?_⟩
    · cases hn : p.newlyAllocated with
      | true => exact .inr (List.mem_reverse.mpr (mem_freshAddresses.mpr ⟨p, hp, hn, hx⟩))
      | false =>
        refine .inl ((h.held x).mpr ⟨p.index, hh.bound p hp, ?_⟩)
        rw [hh.toRequested.stake hp, hn]
        exact hx
    · have hold : .attach r y ∈ w.entries := by simpa using hy
      have hmem : r ∈ registrationsOf ps := List.mem_filterMap.mpr ⟨p, hp, hr⟩
      exact absurd (h.registrations r y hold) (Nat.not_lt.mpr (hh.named r hmem).1)
  obtain ⟨hsound', hheld', hbound'⟩ := sound_attaches hsound _ hnames hattach
  rw [hh.booked]
  refine ⟨hsound', fun x => ?_, fun r x => ?_, fun x hx => ?_, fun r x hr => ?_⟩
  · rw [hheld', hheld, List.mem_reverse]
  · rw [hbound', hbound, List.mem_reverse]
  · have hx : x ∈ freshAddresses ps ∨ .acquire x ∈ w.entries := by simpa using hx
    rcases hx with hx | hx
    · exact (hh.fresh x hx).2
    · exact (h.addresses x hx).trans_le hh.advanced
  · have hr : (r, x) ∈ bindings ps ∨ .attach r x ∈ w.entries := by simpa using hr
    rcases hr with hr | hr
    · obtain ⟨p, hp, hr, -⟩ := mem_bindings.mp hr
      exact (hh.named r (List.mem_filterMap.mpr ⟨p, hp, hr⟩)).2
    · exact (h.registrations r x hr).trans_le hh.issued

/-- What a rollback enters in the ledger: the registrations that it removes, then what it frees. -/
theorem rolledBack_entries (w : World) (pool : Pool) (adapter : ℕ) (a : Adapters) (ps : List Pending) :
    (w.rolledBack pool adapter a ps).entries =
      (freshAddresses (ps.filter fun p =>
          p.registration.isNone || a.deregister p.index)).reverse.map .release ++
        ((registrationsOf (ps.filter fun p => a.deregister p.index)).reverse.map .detach ++
          w.entries) := by
  have hentries : (w.quarantineAll pool adapter (stuck a ps)).entries = w.entries := by
    rw [quarantineAll_eq]
    rfl
  have hfrees : (frees (deregistered a ps)).filterMap Event.entry =
      (freshAddresses (ps.filter fun p =>
        p.registration.isNone || a.deregister p.index)).reverse.map .release := by
    rw [frees, deregistered, freshAddresses, List.filterMap_reverse, List.map_reverse, List.filterMap_map,
      List.filterMap_filterMap, List.map_filterMap, List.filterMap_filter]
    refine congrArg List.reverse (List.filterMap_congr fun p _ => ?_)
    cases hr : p.registration <;> cases hn : p.newlyAllocated <;> cases hd : a.deregister p.index <;>
      cases hx : p.address <;> simp [hr, hn, hd, hx, Event.entry]
  have hderegistrations : (deregistrations a ps).filterMap Event.entry =
      (registrationsOf (ps.filter fun p => a.deregister p.index)).reverse.map .detach := by
    rw [deregistrations, registrationsOf, List.filterMap_reverse, List.map_reverse,
      List.filterMap_filterMap, List.map_filterMap, List.filterMap_filter]
    refine congrArg List.reverse (List.filterMap_congr fun p _ => ?_)
    cases hr : p.registration <;> cases hd : a.deregister p.index <;> simp [Event.entry]
  rw [World.rolledBack, entries_record, List.filterMap_append, hfrees, hderegistrations, hentries,
    List.append_assoc]

theorem rolledBack_keeps (w : World) (pool : Pool) (adapter : ℕ) (a : Adapters) (ps : List Pending) :
    (w.rolledBack pool adapter a ps).chunkCapacity = w.chunkCapacity ∧
      (w.rolledBack pool adapter a ps).registrations = w.registrations := by
  rw [World.rolledBack, World.record, quarantineAll_eq]
  exact ⟨rfl, rfl⟩

section

variable (h : Linear w) (hh : InHand w w₀ pool ps events)

include h hh

theorem Linear.eq_of_fresh {q : Pending} (hp : p ∈ ps) (hq : q ∈ ps)
    (hnew : p.newlyAllocated = true) (hpx : p.address = some x) (hqx : q.address = some x) :
    p = q := by
  have hle : w.addresses ≤ x := (hh.fresh x (mem_freshAddresses.mpr ⟨p, hp, hnew, hpx⟩)).1
  cases hold : q.newlyAllocated with
  | true =>
    exact eq_of_nodup_filterMap hh.addresses hp hq (by rw [if_pos hnew, hpx])
      (by rw [if_pos hold, hqx])
  | false =>
    have hslot : (w.stake q.index).1 = some x := by
      rw [hh.toRequested.stake hq, hold]
      exact hqx
    have hacquired := ((h.held x).mpr ⟨q.index, hh.bound q hq, hslot⟩).1
    exact absurd (h.addresses x hacquired) (Nat.not_lt.mpr hle)

theorem Linear.ledger_rolledBack (adapter : ℕ) (a : Adapters) (reason : Rejection) :
    Sound ((w₀.reject reason).rolledBack pool adapter a ps).entries ∧
      (∀ x, Held ((w₀.reject reason).rolledBack pool adapter a ps).entries x ↔
        Held w.entries x ∨ x ∈ freshAddresses (stuck a ps)) ∧
      ∀ r x, Bound ((w₀.reject reason).rolledBack pool adapter a ps).entries r x ↔
        Bound w.entries r x ∨ (r, x) ∈ bindings (stuck a ps) := by
  obtain ⟨hsound₀, hheld₀, hbound₀, -, -⟩ := h.inHand hh
  have hunheld {p : Pending} (hp : p ∈ ps) (hnew : p.newlyAllocated = true) {x : ℕ}
      (hx : p.address = some x) : ¬Held w.entries x := fun hold =>
    absurd (h.addresses x hold.1)
      (Nat.not_lt.mpr (hh.fresh x (mem_freshAddresses.mpr ⟨p, hp, hnew, hx⟩)).1)
  -- first the registrations are removed
  have hremoved (r : ℕ) : r ∈ (registrationsOf (ps.filter fun p => a.deregister p.index)).reverse ↔
      ∃ p ∈ ps, a.deregister p.index = true ∧ p.registration = some r := by
    rw [List.mem_reverse, registrationsOf, List.mem_filterMap]
    simp only [List.mem_filter, and_assoc]
  obtain ⟨hsound₁, hheld₁, hbound₁⟩ := sound_detaches hsound₀
    (registrationsOf (ps.filter fun p => a.deregister p.index)).reverse
    (List.nodup_reverse.mpr (hh.registrations.sublist (List.filter_sublist.filterMap _))) fun r hr => by
      obtain ⟨p, hp, -, hpr⟩ := (hremoved r).mp hr
      obtain ⟨x, hx⟩ := Option.isSome_iff_exists.mp (hh.address p hp (by rw [hpr]; rfl))
      exact ⟨x, (hbound₀ r x).mpr (.inr (mem_bindings.mpr ⟨p, hp, hpr, hx⟩))⟩
  -- then what has none is freed
  have hfreed (x : ℕ) :
      x ∈ (freshAddresses (ps.filter fun p => p.registration.isNone || a.deregister p.index)).reverse ↔
      ∃ p ∈ ps, p ∉ stuck a ps ∧ p.newlyAllocated = true ∧ p.address = some x := by
    rw [List.mem_reverse, mem_freshAddresses]
    refine exists_congr fun p => ?_
    rw [List.mem_filter, and_assoc, and_congr_right_iff]
    intro hp
    rw [mem_stuck]
    cases p.registration <;> cases a.deregister p.index <;> simp [hp]
  obtain ⟨hsound₂, hheld₂, hbound₂⟩ := sound_releases hsound₁
    (freshAddresses (ps.filter fun p => p.registration.isNone || a.deregister p.index)).reverse
    (List.nodup_reverse.mpr (hh.addresses.sublist (List.filter_sublist.filterMap _))) fun x hx => by
      obtain ⟨p, hp, hfree, hnew, hpx⟩ := (hfreed x).mp hx
      refine ⟨(hheld₁ x).mpr ((hheld₀ x).mpr (.inr (mem_freshAddresses.mpr ⟨p, hp, hnew, hpx⟩))),
        fun r hr => ?_⟩
      obtain ⟨hr, hkept⟩ := (hbound₁ r x).mp hr
      rcases (hbound₀ r x).mp hr with hr | hr
      · exact hunheld hp hnew hpx (h.sound.held_of_bound hr)
      · obtain ⟨q, hq, hqr, hqx⟩ := mem_bindings.mp hr
        cases h.eq_of_fresh hh hp hq hnew hpx hqx
        refine hfree (mem_stuck.mpr ⟨hp, by rw [hqr]; rfl, Bool.eq_false_iff.mpr fun hd => hkept ?_⟩)
        exact (hremoved r).mpr ⟨p, hp, hd, hqr⟩
  rw [rolledBack_entries]
  refine ⟨hsound₂, fun x => ?_, fun r x => ?_⟩
  · refine (hheld₂ x).trans ((and_congr_left' ((hheld₁ x).trans (hheld₀ x))).trans ?_)
    rw [hfreed, mem_freshAddresses, mem_freshAddresses]
    constructor
    · rintro ⟨hold | ⟨p, hp, hnew, hx⟩, hkept⟩
      · exact .inl hold
      · by_cases hstuck : p ∈ stuck a ps
        · exact .inr ⟨p, hstuck, hnew, hx⟩
        · exact absurd ⟨p, hp, hstuck, hnew, hx⟩ hkept
    · rintro (hold | ⟨p, hstuck, hnew, hx⟩)
      · refine ⟨.inl hold, ?_⟩
        rintro ⟨p, hp, -, hnew, hx⟩
        exact hunheld hp hnew hx hold
      · have hp : p ∈ ps := (mem_stuck.mp hstuck).1
        refine ⟨.inr ⟨p, hp, hnew, hx⟩, ?_⟩
        rintro ⟨q, hq, hfree, -, hqx⟩
        cases h.eq_of_fresh hh hp hq hnew hx hqx
        exact hfree hstuck
  · refine (hbound₂ r x).trans ((hbound₁ r x).trans ((and_congr_left' (hbound₀ r x)).trans ?_))
    rw [hremoved, mem_bindings, mem_bindings]
    constructor
    · rintro ⟨hold | ⟨p, hp, hr, hx⟩, hkept⟩
      · exact .inl hold
      · refine .inr ⟨p, mem_stuck.mpr ⟨hp, by rw [hr]; rfl, Bool.eq_false_iff.mpr fun hd => ?_⟩, hr, hx⟩
        exact hkept ⟨p, hp, hd, hr⟩
    · rintro (hold | ⟨p, hstuck, hr, hx⟩)
      · refine ⟨.inl hold, ?_⟩
        rintro ⟨p, hp, -, hr⟩
        exact absurd (h.registrations r x hold.1)
          (Nat.not_lt.mpr (hh.named r (List.mem_filterMap.mpr ⟨p, hp, hr⟩)).1)
      · obtain ⟨hp, -, hd⟩ := mem_stuck.mp hstuck
        refine ⟨.inr ⟨p, hp, hr, hx⟩, ?_⟩
        rintro ⟨q, hq, hqd, hqr⟩
        cases eq_of_nodup_filterMap hh.registrations hp hq hr hqr
        cases hd.symm.trans hqd

/-- **A rollback gives back what it does not put in quarantine.** -/
theorem Linear.rollback (adapter : ℕ) (a : Adapters) (reason : Rejection) :
    Linear ((w₀.reject reason).rolledBack pool adapter a ps) := by
  have hsub : (stuck a ps).Sublist ps := List.filter_sublist
  have hs := hh.toRequested.sublist hsub
  have hchunks := quarantineAll_chunks (w := w₀.reject reason) pool adapter hs.nodup
  have hentries := rolledBack_entries (w₀.reject reason) pool adapter a ps
  obtain ⟨hsound, hheld, hbound⟩ := h.ledger_rolledBack hh adapter a reason
  obtain ⟨-, -, -, hacquired, hattached⟩ := h.inHand hh
  obtain ⟨hcapacity, hregistrations⟩ := rolledBack_keeps (w₀.reject reason) pool adapter a ps
  have haddresses := rolledBack_addresses (w₀.reject reason) pool adapter a ps
  refine h.fill hs (hh.addresses.sublist (hsub.filterMap _))
    (fun x hx => (hh.fresh x ((hsub.filterMap _).subset hx)).1) (hcapacity.trans hh.chunkCapacity)
    (fun j hj => ?_) (fun p hp => ?_) (fun p hp => hh.address p (hsub.subset hp)) hsound hheld
    hbound (fun x hx => ?_) fun r x hr => ?_
  · have hchunk := (hchunks.2 j hj).trans (congrFun hh.chunks j)
    exact congrArg (fun c : Chunk => (c.address, c.registration)) hchunk
  · have hsame : (w₀.reject reason).chunks = w.chunks := hh.chunks
    obtain ⟨x, r, hx, hr, hchunk, -⟩ :=
      quarantineChunk_of_stuck hsame hh.toPrepared hh.toRequested hp adapter
    rw [hx, hr]
    exact congrArg (fun c : Chunk => (c.address, c.registration)) ((hchunks.1 p hp).trans hchunk)
  · rw [hentries] at hx
    rw [haddresses]
    exact hacquired x (by simpa using hx)
  · rw [hentries] at hr
    rw [hregistrations]
    exact hattached r x (by simpa using hr)

end

theorem commitPending_entries (c : Connection) (pool : Pool) (adapter : ℕ) :
    ∀ (ps : List Pending) (w : World),
    (w.commitPending c pool adapter ps).1.entries = w.entries ∧
      (w.commitPending c pool adapter ps).1.chunkCapacity = w.chunkCapacity ∧
      (w.commitPending c pool adapter ps).1.registrations = w.registrations
  | [], _ => ⟨rfl, rfl, rfl⟩
  | p :: ps, w => by
    have hassigned : (w.commit c pool adapter p).entries = w.entries := by
      rw [World.entries, World.commit, List.filterMap_append]
      cases (commitChunk w c pool adapter p).address <;> rfl
    obtain ⟨hentries, hkeeps⟩ := commitPending_entries c pool adapter ps (w.commit c pool adapter p)
    rw [commitPending_cons]
    exact ⟨hentries.trans hassigned, hkeeps⟩

/-- **A grant puts what the request has in hand in the table.** -/
theorem Linear.grant (h : Linear w) (hh : InHand w w₀ pool ps events) (c : Connection) (adapter : ℕ) :
    Linear (w₀.grant c pool adapter ps).1 := by
  obtain ⟨hin, hout, -, -, haddresses⟩ := commitPending_slots (w := w₀) c pool adapter hh.nodup
  obtain ⟨hentries, hcapacity, hregistrations⟩ := commitPending_entries c pool adapter ps w₀
  obtain ⟨hsound, hheld, hbound, hacquired, hattached⟩ := h.inHand hh
  rw [← hentries] at hsound hheld hbound hacquired hattached
  rw [← haddresses] at hacquired
  rw [← hregistrations] at hattached
  refine h.fill hh.toRequested hh.addresses
    (fun x hx => (hh.fresh x hx).1) (hcapacity.trans hh.chunkCapacity) (fun j hj => ?_)
    (fun p hp => ?_) hh.address hsound hheld hbound hacquired hattached
  · exact congrArg (fun c : Chunk => (c.address, c.registration))
      ((hout j hj).trans (congrFun hh.chunks j))
  · have hchunk := congrArg (fun c : Chunk => (c.address, c.registration)) (hin p hp)
    exact hchunk.trans (Prod.ext (hh.commit_address hp c adapter) rfl)

end InHand

/-! ### Release -/

theorem Linear.releaseSlot (h : Linear w) (hshape : Shape (w.chunks i)) (hi : i < w.chunkCapacity)
    (howner : (w.chunks i).owner = some c.owner) (cause : ReleaseCause) :
    Linear (w.releaseSlot c cause i) := by
  obtain ⟨x, r, adapter, q, hchunk⟩ := hshape.of_owner howner
  have hstake : w.stake i = (some x, some r) := by
    rw [World.stake, hchunk]
    rfl
  -- the chunk without its registration, before it is freed
  have hidle : ((w.setChunk i (idleChunk x)).record [.deregistered r true]).stake =
      Function.update w.stake i (some x, none) := stake_update (d := idleChunk x) rfl
  have hdetached : Linear ((w.setChunk i (idleChunk x)).record [.deregistered r true]) :=
    h.detach hi hstake rfl hidle rfl rfl rfl
  have hchunks : (w.releaseSlot c cause i).chunks = Function.update w.chunks i (leftover x q cause) := by
    rw [World.releaseSlot, hchunk]
    rfl
  have hlog :
      (w.releaseSlot c cause i).log =
        (if cause = .pressure ∨ q = .committed then [Event.freed x] else []) ++
      [.unassigned c.consumerId x, .deregistered r true] ++ w.log := by
    rw [World.releaseSlot, hchunk]
    rfl
  by_cases hfree : cause = .pressure ∨ q = .committed
  · have hleft : leftover x q cause = {} := if_pos hfree
    refine hdetached.release (i := i) (x := x) hi ?_ rfl ?_ ?_ rfl rfl
    · rw [hidle, Function.update_self]
    · rw [hidle, Function.update_idem]
      exact stake_update (d := {}) (hchunks.trans (congrArg (Function.update w.chunks i) hleft))
    · rw [World.entries, hlog, if_pos hfree]
      rfl
  · have hleft : leftover x q cause = idleChunk x := if_neg hfree
    refine hdetached.same rfl ?_ ?_ rfl rfl
    · rw [hidle]
      exact stake_update (d := idleChunk x) (hchunks.trans (congrArg (Function.update w.chunks i) hleft))
    · rw [World.entries, hlog, if_neg hfree]
      rfl

/-! ### Reconciliation -/

theorem freeUnassigned_registrations : ∀ (ps : List Pending) (w : World),
    (w.freeUnassigned ps).registrations = w.registrations
  | [], _ => rfl
  | p :: ps, w => freeUnassigned_registrations ps (w.record (p.address.toList.map .freed))

theorem freeUnassigned_entries : ∀ (ps : List Pending) (w : World), (∀ p ∈ ps, p.newlyAllocated = true) →
    (w.freeUnassigned ps).entries = (freshAddresses ps).reverse.map .release ++ w.entries
  | [], _, _ => rfl
  | p :: ps, w, hnew => by
    obtain ⟨hp, hnew⟩ := List.forall_mem_cons.mp hnew
    have ih := freeUnassigned_entries ps (w.record (p.address.toList.map .freed)) hnew
    cases hx : p.address with
    | none =>
      rw [freshAddresses, List.filterMap_cons_none (by rw [if_pos hp, hx])]
      rw [hx] at ih
      rw [World.freeUnassigned, hx]
      exact ih
    | some x =>
      rw [freshAddresses, List.filterMap_cons_some (by rw [if_pos hp, hx]), List.reverse_cons,
        List.map_append, List.append_assoc]
      rw [hx] at ih
      rw [World.freeUnassigned, hx]
      exact ih

section Growth

variable {w₁ : World} {events : List Event}

/-- **Growth that fails gives back what it has acquired**, and the table is as it was. -/
theorem Linear.returned (h : Linear w) (hh : InHand w w₁ .opportunistic ps events)
    (hnew : ∀ p ∈ ps, p.newlyAllocated = true) (hnone : registrationsOf ps = []) (reason : Rejection) :
    Linear ((w₁.reject reason).freeUnassigned ps) := by
  obtain ⟨hsound, hheld, hbound, hacquired, hattached⟩ := h.inHand hh
  rw [bindings_of_registrations hnone] at hbound
  have hunheld {x : ℕ} (hx : x ∈ freshAddresses ps) : ¬Held w.entries x := fun hold =>
    absurd (h.addresses x hold.1) (Nat.not_lt.mpr (hh.fresh x hx).1)
  have hentries := freeUnassigned_entries ps (w₁.reject reason) hnew
  have htable := freeUnassigned_sameTable ps (w₁.reject reason)
  obtain ⟨hsound', hheld', hbound'⟩ :=
    sound_releases hsound _ (List.nodup_reverse.mpr hh.addresses) fun x hx => by
    have hx := List.mem_reverse.mp hx
    refine ⟨(hheld x).mpr (.inr hx), fun r hr => hunheld hx ?_⟩
    exact h.sound.held_of_bound (((hbound r x).mp hr).resolve_right List.not_mem_nil)
  refine h.fill (hh.toRequested.sublist (List.nil_sublist ps)) List.nodup_nil nofun
    (htable.chunkCapacity.trans hh.chunkCapacity) (fun j _ => ?_) nofun nofun (hentries ▸ hsound')
    (fun x => ?_) (fun r x => ?_) (fun x hx => ?_) fun r x hr => ?_
  · exact congrArg (fun c : Chunk => (c.address, c.registration))
      ((congrFun htable.chunks j).trans (congrFun hh.chunks j))
  · rw [hentries]
    refine (hheld' x).trans ((and_congr_left' (hheld x)).trans ?_)
    rw [List.mem_reverse]
    constructor
    · rintro ⟨hx | hx, hkept⟩
      · exact .inl hx
      · exact absurd hx hkept
    · rintro (hx | hx)
      · exact ⟨.inl hx, fun hfresh => hunheld hfresh hx⟩
      · cases hx
  · rw [hentries]
    exact (hbound' r x).trans (hbound r x)
  · rw [hentries] at hx
    rw [freeUnassigned_addresses]
    exact hacquired x (by simpa using hx)
  · rw [hentries] at hr
    rw [freeUnassigned_registrations]
    exact hattached r x (by simpa using hr)

/-- **Growth puts what it has acquired in the table.** -/
theorem Linear.placed (h : Linear w) (hh : InHand w w₁ .opportunistic ps events)
    (hnone : registrationsOf ps = []) (f : Pool → ℕ) :
    Linear { w₁.placeUnassigned ps with allocated := f } := by
  obtain ⟨hin, hout, -, -, -⟩ := placeUnassigned_slots (w := w₁) hh.nodup
  obtain ⟨hsound, hheld, hbound, hacquired, hattached⟩ := h.inHand hh
  have hplaced := placeUnassigned_eq ps w₁
  have hunregistered := List.filterMap_eq_nil_iff.mp hnone
  refine h.fill hh.toRequested hh.addresses (fun x hx => (hh.fresh x hx).1) ?_ (fun j hj => ?_)
    (fun p hp => ?_) hh.address ?_ ?_ ?_ ?_ ?_
  · rw [hplaced]
    exact hh.chunkCapacity
  · exact congrArg (fun c : Chunk => (c.address, c.registration))
      ((hout j hj).trans (congrFun hh.chunks j))
  · have hslot : (w₁.chunks p.index).registration = none := by
      rw [hh.chunks]
      exact congrArg Prod.snd (hh.toRequested.stake hp)
    rw [hunregistered p hp]
    exact (congrArg (fun c : Chunk => (c.address, c.registration)) (hin p hp)).trans (Prod.ext rfl hslot)
  all_goals
    rw [hplaced]
    assumption

end Growth

theorem Linear.reclaim (h : Linear w) (hshape : Shape (w.chunks i)) (hi : i < w.chunkCapacity)
    (hreusable : (w.chunks i).reusable .opportunistic = true) : Linear (w.reclaim i) := by
  obtain ⟨-, x, hidle⟩ := (reusable_iff hshape).mp hreusable
  have hstake : w.stake i = (some x, none) := by
    rw [World.stake, hidle]
    rfl
  have hlog : (w.reclaim i).log = .freed x :: w.log := by
    rw [World.reclaim, hidle]
    rfl
  refine h.release hi hstake rfl (stake_update (d := {}) rfl) ?_ rfl rfl
  rw [World.entries, hlog]
  rfl

/-! ### Runs -/

theorem linear_create {config : Config} (h : create config = some w) : Linear w := by
  unfold create at h
  split_ifs at h
  cases h
  exact
    { sound := trivial
      held := fun x => by simp [Held, World.entries, World.stake]
      bound := fun r x => by simp [Bound, World.entries, World.stake]
      distinct := fun i _ j _ x hi => by cases hi
      backed := fun i _ hi => by cases hi
      addresses := fun x hx => by cases hx
      registrations := fun r x hr => by cases hr }

/-- **Every change keeps the table what the ledger says.** -/
theorem Linear.change {free : Prop} {new : List UInt8 → Prop} (h : Linear w)
    (hchange : Change free new w w') : Linear w' := by
  cases hchange with
  | quiet hq =>
    obtain ⟨events, hlog, hevents⟩ := hq.log
    refine h.same hq.chunkCapacity ?_ ?_ hq.addresses hq.registrations
    · funext i
      rw [World.stake, World.stake, hq.chunks]
    · rw [World.entries, hlog, List.filterMap_append,
        List.filterMap_eq_nil_iff.mpr fun e he => (hevents e he).2]
      rfl
  | rolledBack hh adapter a reason => exact h.rollback hh adapter a reason
  | granted hh _ adapter => exact h.grant hh _ adapter
  | released _ hshape hi howner _ => exact h.releaseSlot hshape hi howner _
  | returned hh hnew hnone reason => exact h.returned hh hnew hnone reason
  | placed hh _ hnone f => exact h.placed hh hnone f
  | reclaimed hshape hi hreusable => exact h.reclaim hshape hi hreusable

/-! ### The end -/

theorem Linear.deregisterSlot (h : Linear w) (hi : i < w.chunkCapacity) :
    Linear ((w.record ((w.chunks i).registration.toList.map (.deregistered · true))).setChunk i
      { w.chunks i with registration := none, owner := none }) := by
  have hupdate : ((w.record ((w.chunks i).registration.toList.map (.deregistered · true))).setChunk i
      { w.chunks i with registration := none, owner := none }).stake =
        Function.update w.stake i ((w.chunks i).address, none) :=
    stake_update (d := { w.chunks i with registration := none, owner := none }) rfl
  cases hr : (w.chunks i).registration with
  | none =>
    rw [hr] at hupdate
    refine h.same rfl ?_ rfl rfl rfl
    rw [hupdate, ← hr]
    exact Function.update_eq_self i w.stake
  | some r =>
    obtain ⟨x, hx⟩ := Option.isSome_iff_exists.mp (h.backed i hi (by rw [World.stake, hr]; rfl))
    have hstake : w.stake i = (some x, some r) := Prod.ext hx hr
    rw [hr, show (w.chunks i).address = some x from hx] at hupdate
    exact h.detach hi hstake rfl hupdate rfl rfl rfl

/-- **The first loop of a destruction**: when it removes every registration, no slot has one. -/
theorem Linear.deregisterSlots (a : Adapters) : ∀ {slots : List ℕ} {w : World}, Linear w →
    (∀ i ∈ slots, i < w.chunkCapacity) →
    Linear (w.deregisterSlots a slots).1 ∧ (w.deregisterSlots a slots).1.chunkCapacity = w.chunkCapacity ∧
      (∀ i, (w.stake i).2 = none → ((w.deregisterSlots a slots).1.stake i).2 = none) ∧
      ((w.deregisterSlots a slots).2 = false →
        ∀ i ∈ slots, ((w.deregisterSlots a slots).1.stake i).2 = none)
  | [], _, h, _ => ⟨h, rfl, fun _ hi => hi, fun _ => nofun⟩
  | i :: slots, w, h, hslots => by
    obtain ⟨hi, hslots⟩ := List.forall_mem_cons.mp hslots
    unfold World.deregisterSlots
    dsimp only
    split
    · have hfailed :
          Linear (w.record ((w.chunks i).registration.toList.map (.deregistered · false))) := by
        refine h.same rfl rfl ?_ rfl rfl
        rw [entries_record]
        cases (w.chunks i).registration <;> rfl
      obtain ⟨hlinear, hcapacity, hnone, -⟩ := Linear.deregisterSlots a hfailed hslots
      exact ⟨hlinear, hcapacity, hnone, nofun⟩
    · obtain ⟨hlinear, hcapacity, hnone, hall⟩ := Linear.deregisterSlots a (h.deregisterSlot hi) hslots
      have hupdate := stake_update (w := w) (i := i)
        (v := (w.record ((w.chunks i).registration.toList.map (.deregistered · true))).setChunk i
          { w.chunks i with registration := none, owner := none })
        (d := { w.chunks i with registration := none, owner := none }) rfl
      refine ⟨hlinear, hcapacity, fun j hj => hnone j ?_,
        fun hok => List.forall_mem_cons.mpr ⟨hnone i ?_, hall hok⟩⟩
      · rw [hupdate]
        by_cases hji : j = i
        · rw [hji, Function.update_self]
        · rw [Function.update_of_ne hji, hj]
      · rw [hupdate, Function.update_self]

theorem freeSlots_entries : ∀ (slots : List ℕ) (w : World),
    (w.freeSlots slots).entries =
      (slots.filterMap fun i => (w.stake i).1).reverse.map .release ++ w.entries
  | [], _ => rfl
  | i :: slots, w => by
    have ih := freeSlots_entries slots (w.record ((w.chunks i).address.toList.map .freed))
    rw [World.freeSlots]
    cases hx : (w.stake i).1 with
    | none =>
      rw [List.filterMap_cons, hx]
      rw [show (w.chunks i).address = none from hx] at ih ⊢
      exact ih
    | some x =>
      rw [List.filterMap_cons, hx]
      dsimp only
      rw [List.reverse_cons, List.map_append, List.append_assoc]
      rw [show (w.chunks i).address = some x from hx] at ih ⊢
      exact ih

/-- **A destruction gives everything back**, or it may be tried again. -/
theorem Linear.destroy (h : Linear w) (a : Adapters) :
    ((w.destroy a).2 = .ok ∧ Sound (w.destroy a).1.entries ∧ (∀ x, ¬Held (w.destroy a).1.entries x) ∧
        ∀ r x, ¬Bound (w.destroy a).1.entries r x) ∨
      (w.destroy a).2 = .cleanupFailed ∧ Linear (w.destroy a).1 := by
  obtain ⟨hlinear, hcapacity, -, hall⟩ := h.deregisterSlots a fun i hi => List.mem_range.mp hi
  unfold World.destroy
  generalize hr : w.deregisterSlots a (List.range w.chunkCapacity) = r at hlinear hcapacity hall
  obtain ⟨w₁, failed⟩ := r
  cases failed with
  | true => exact .inr ⟨rfl, hlinear.same rfl rfl rfl rfl rfl⟩
  | false =>
    have hnone : ∀ i < w₁.chunkCapacity, (w₁.stake i).2 = none := fun i hi =>
      hall rfl i (List.mem_range.mpr (hcapacity ▸ hi))
    have hunbound (r x : ℕ) : ¬Bound w₁.entries r x := by
      intro hr
      obtain ⟨i, hi, hstake⟩ := (hlinear.bound r x).mp hr
      cases (hnone i hi).symm.trans (congrArg Prod.snd hstake)
    have hmem (x : ℕ) : x ∈ ((List.range w₁.chunkCapacity).filterMap fun i => (w₁.stake i).1).reverse ↔
        Held w₁.entries x := by
      rw [List.mem_reverse, List.mem_filterMap, hlinear.held]
      simp only [List.mem_range]
    have hnodup : ((List.range w₁.chunkCapacity).filterMap fun i => (w₁.stake i).1).Nodup := by
      rw [List.Nodup, List.pairwise_filterMap]
      refine List.nodup_range.imp_of_mem fun {i j} hi hj hne x hx y hy hxy => hne ?_
      exact hlinear.distinct i (List.mem_range.mp hi) j (List.mem_range.mp hj) x hx (hxy ▸ hy)
    obtain ⟨hsound, hheld, hbound⟩ := sound_releases hlinear.sound _ (List.nodup_reverse.mpr hnodup)
      fun x hx => ⟨(hmem x).mp hx, fun r => hunbound r x⟩
    refine .inl ⟨rfl, ?_⟩
    rw [freeSlots_entries]
    refine ⟨hsound, fun x hx => ?_, fun r x hr => hunbound r x ((hbound r x).mp hr)⟩
    obtain ⟨hx, hkept⟩ := (hheld x).mp hx
    exact hkept ((hmem x).mpr hx)

/-! ### The ledger and the events -/

theorem entry_injective {e' : Event} (h : e.entry = some y) (h' : e'.entry = some y) : e = e' := by
  unfold Event.entry at h h'
  split at h <;> cases h <;> split at h' <;> cases h' <;> rfl

theorem mem_entries {log : List Event} (h : e.entry = some y) :
    y ∈ log.filterMap Event.entry ↔ e ∈ log := by
  rw [List.mem_filterMap]
  constructor
  · rintro ⟨e', he', hy⟩
    exact entry_injective h hy ▸ he'
  · exact fun he => ⟨e, he, h⟩

theorem count_entries (h : e.entry = some y) : ∀ log : List Event,
    (log.filterMap Event.entry).count y = log.count e
  | [] => rfl
  | d :: log => by
    have ih := count_entries h log
    by_cases hd : d = e
    · rw [hd, List.filterMap_cons_some h, List.count_cons_self, List.count_cons_self, ih]
    · rw [List.count_cons_of_ne hd]
      cases hentry : d.entry with
      | none => rw [List.filterMap_cons_none hentry, ih]
      | some z =>
        have hz : z ≠ y := by
          rintro rfl
          exact hd (entry_injective hentry h)
        rw [List.filterMap_cons_some hentry, List.count_cons_of_ne hz, ih]

/-! ### Lifetimes -/

/-- What holds of a manager at each stage of its life. -/
def Lifetime.Kept (s : Lifetime) : Prop :=
  match s.phase with
  | .running => system.Reachable s.world ∧ Linear s.world
  | .closing => Linear s.world
  | .destroyed =>
    Sound s.world.entries ∧ (∀ x, ¬Held s.world.entries x) ∧ ∀ r x, ¬Bound s.world.entries r x

theorem kept_reachable {s : Lifetime} (h : lifetime.Reachable s) : s.Kept := by
  refine System.Reach.invariant (I := Lifetime.Kept) (fun s hs => ?_) (fun s l t _ hs _ hstep => ?_) h
  · obtain ⟨⟨config, hcreate⟩, hphase⟩ := hs
    rw [Lifetime.Kept, hphase]
    exact ⟨.init ⟨config, hcreate⟩, linear_create hcreate⟩
  · cases l with
    | call l =>
      simp only [lifetime] at hstep
      split at hstep
      · rename_i hphase
        rw [Lifetime.Kept, hphase] at hs
        obtain ⟨hreach, hlinear⟩ := hs
        obtain ⟨w', hcall, rfl⟩ := Option.map_eq_some_iff.mp hstep
        exact ⟨hreach.step trivial hcall,
          call_invariant (accounted_reachable hreach) hcall hlinear fun _ _ hv => hv.change⟩
      · cases hstep
    | destroy a =>
      simp only [lifetime] at hstep
      split at hstep
      · cases hstep
      · rename_i hphase
        have hlinear : Linear s.world := by
          rw [Lifetime.Kept] at hs
          split at hs
          · exact hs.2
          · exact hs
          · contradiction
        have hend := hlinear.destroy a
        generalize s.world.destroy a = r at hend hstep
        obtain ⟨w', result⟩ := r
        rcases hend with ⟨hok, hdone⟩ | ⟨hfailed, hlinear⟩
        · replace hok : result = .ok := hok
          subst hok
          cases hstep
          exact hdone
        · replace hfailed : result = .cleanupFailed := hfailed
          subst hfailed
          cases hstep
          exact hlinear

/-- **Provider resource linearity.** In every run that ends with a destruction that succeeds, every
address that the allocator has returned is released once, every registration that was created is
removed once, and no address is released while a registration on it is alive. -/
theorem resource_linearity {s : Lifetime} (h : lifetime.Reachable s) (hdestroyed : s.phase = .destroyed) :
    (∀ x, .allocated x ∈ s.world.log → s.world.log.count (.freed x) = 1) ∧
      (∀ r x, .registered r x ∈ s.world.log → s.world.log.count (.deregistered r true) = 1) ∧
      ∀ later earlier x, s.world.log = later ++ .freed x :: earlier →
        ∀ r, .registered r x ∈ earlier → .deregistered r true ∈ earlier := by
  have hkept := kept_reachable h
  rw [Lifetime.Kept, hdestroyed] at hkept
  obtain ⟨hsound, hheld, hbound⟩ := hkept
  refine ⟨fun x hx => ?_, fun r x hr => ?_, fun later earlier x hlog r hr => ?_⟩
  · rw [← count_entries (y := .release x) rfl]
    exact hsound.released_once ((mem_entries rfl).mpr hx) (hheld x)
  · rw [← count_entries (y := .detach r) rfl]
    exact hsound.detached_once ((mem_entries rfl).mpr hr) (hbound r x)
  · rw [World.entries, hlog, List.filterMap_append,
      List.filterMap_cons_some (show (Event.freed x).entry = _ from rfl)] at hsound
    by_contra hremoved
    exact hsound.release_free r ⟨(mem_entries rfl).mpr hr, fun hd => hremoved ((mem_entries rfl).mp hd)⟩

/-- A request is rolled back and leaves a chunk in quarantine, another is granted, and the manager
is destroyed at the second attempt. -/
def lifetimeRun : List LifetimeLabel :=
  [.call (.connect [97] (some 1) 1 (fun _ => 2) true),
    .call (.acquire (some 1) (some .committed) 2 (some 7) (some 2)
      { available := some (8 * chunkBytes), register := fun i => i = 0, deregister := fun _ => false }),
    .call (.acquire (some 1) (some .opportunistic) 1 (some 7) (some 1)
      { available := some (8 * chunkBytes) }),
    .destroy { available := none, deregister := fun i => i ≠ 0 }, .destroy { available := none }]

theorem resource_linearity_sample : ∃ s, lifetime.Reachable s ∧ s.phase = .destroyed ∧
    .allocated 0 ∈ s.world.log ∧ s.world.log.count (.freed 0) = 1 ∧
    .registered 0 0 ∈ s.world.log ∧ s.world.log.count (.deregistered 0 true) = 1 := by
  have hrun :
    ((create ⟨0, fun _ => 2⟩).bind fun w => lifetime.exec ⟨w, .running⟩ lifetimeRun).any (fun s =>
      s.phase = .destroyed && decide (.allocated 0 ∈ s.world.log) &&
        decide (.registered 0 0 ∈ s.world.log)) = true := by
    decide +kernel
  obtain ⟨s, hs, hend⟩ := (Option.any_eq_true _ _).mp hrun
  simp only [Bool.and_eq_true, decide_eq_true_eq] at hend
  obtain ⟨⟨hphase, hallocated⟩, hregistered⟩ := hend
  obtain ⟨w, hcreate, hexec⟩ := Option.bind_eq_some_iff.mp hs
  have hreach := System.reachable_of_exec (S := lifetime) (.init ⟨⟨_, hcreate⟩, rfl⟩) hexec
  obtain ⟨hreleased, hremoved, -⟩ := resource_linearity hreach hphase
  exact ⟨s, hreach, hphase, hallocated, hreleased 0 hallocated, hregistered, hremoved 0 0 hregistered⟩

end Memory
end Infiniswap
