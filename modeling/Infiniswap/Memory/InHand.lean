/-
# What a request has in hand

Between its checks and its end a request holds chunks that the table does not
have yet: addresses that it has allocated and registrations that it has made. They
are read off the events of the call, and they are all different.

The events are also the entries of a ledger: an address is acquired and released, a
registration is attached to an address and detached.
-/
import Infiniswap.Lib.Ledger
import Infiniswap.Memory.Accounting

namespace Infiniswap
namespace Memory

open Ledger

variable {w : World} {pool : Pool} {p : Pending} {ps ps' : List Pending}

/-! ### Addresses and registrations -/

/-- The addresses of the new chunks of a request. -/
def freshAddresses (ps : List Pending) : List ℕ :=
  ps.filterMap fun p => if p.newlyAllocated then p.address else none

/-- The registrations of a request. -/
def registrationsOf (ps : List Pending) : List ℕ := ps.filterMap (·.registration)

theorem mem_freshAddresses {x : ℕ} :
    x ∈ freshAddresses ps ↔ ∃ p ∈ ps, p.newlyAllocated = true ∧ p.address = some x := by
  rw [freshAddresses, List.mem_filterMap]
  refine exists_congr fun p => and_congr_right fun _ => ?_
  cases p.newlyAllocated <;> simp

/-! ### Entries of the ledger -/

/-- What an event says of the ownership of memory. -/
def Event.entry : Event → Option (Entry ℕ ℕ)
  | .allocated x => some (.acquire x)
  | .freed x => some (.release x)
  | .registered r x => some (.attach r x)
  | .deregistered r true => some (.detach r)
  | _ => none

/-- The ledger of the memory that the manager has had, latest entry first. -/
def World.entries (w : World) : List (Entry ℕ ℕ) := w.log.filterMap Event.entry

theorem entries_record (w : World) (events : List Event) :
    (w.record events).entries = events.filterMap Event.entry ++ w.entries := List.filterMap_append

@[simp] theorem entries_reject (w : World) (reason : Rejection) :
    (w.reject reason).entries = w.entries := rfl

/-- The registrations of a request with the addresses that they are on. -/
def bindings (ps : List Pending) : List (ℕ × ℕ) :=
  ps.filterMap fun p => p.registration.bind fun r => p.address.map fun x => (r, x)

theorem mem_bindings {r x : ℕ} :
    (r, x) ∈ bindings ps ↔ ∃ p ∈ ps, p.registration = some r ∧ p.address = some x := by
  rw [bindings, List.mem_filterMap]
  refine exists_congr fun p => and_congr_right fun _ => ?_
  cases p.registration <;> cases p.address <;> simp

theorem map_bindings (h : ∀ p ∈ ps, p.registration.isSome = true → p.address.isSome = true) :
    (bindings ps).map (·.1) = registrationsOf ps := by
  rw [bindings, List.map_filterMap]
  refine List.filterMap_congr fun p hp => ?_
  cases hr : p.registration with
  | none => rfl
  | some r =>
    obtain ⟨x, hx⟩ := Option.isSome_iff_exists.mp (h p hp (by rw [hr]; rfl))
    rw [hx]
    rfl

theorem bindings_of_registrations (h : registrationsOf ps = []) : bindings ps = [] := by
  refine List.filterMap_eq_nil_iff.mpr fun p hp => ?_
  rw [List.filterMap_eq_nil_iff.mp h p hp]
  rfl

/-! ### Allocation and registration -/

/-- **The events of the allocation** are those of the addresses that it leaves, which are all
different. -/
theorem allocatePending_log (a : Adapters) : ∀ (ps : List Pending) (w : World), freshAddresses ps = [] →
    ∃ events, (w.allocatePending a ps).1.log = events ++ w.log ∧
      (∀ e ∈ events, ∃ x, e = .allocated x ∨ e = .cleared x) ∧
      events.filterMap Event.entry = (freshAddresses (w.allocatePending a ps).2.1).reverse.map .acquire ∧
      (freshAddresses (w.allocatePending a ps).2.1).Nodup ∧
      w.addresses ≤ (w.allocatePending a ps).1.addresses ∧
      ∀ x ∈ freshAddresses (w.allocatePending a ps).2.1, w.addresses ≤ x ∧
        x < (w.allocatePending a ps).1.addresses := by
  intro ps
  induction ps with
  | nil =>
    exact fun w _ => ⟨[], rfl, by simp, rfl, List.nodup_nil, Nat.le_refl _,
      by simp [World.allocatePending, freshAddresses]⟩
  | cons p ps ih =>
    intro w hfresh
    have htail : freshAddresses ps = [] := by
      rw [freshAddresses, List.filterMap_eq_nil_iff] at hfresh ⊢
      exact fun q hq => hfresh q (List.mem_cons_of_mem _ hq)
    unfold World.allocatePending
    dsimp only
    split
    · rename_i hold
      have heq (l : List Pending) : freshAddresses (p :: l) = freshAddresses l :=
        List.filterMap_cons_none (if_neg (by simpa using hold))
      rw [heq]
      exact ih w htail
    split
    · rw [hfresh]
      exact ⟨[], rfl, by simp, rfl, List.nodup_nil, Nat.le_refl _, by simp⟩
    rename_i hnew _
    have heq (l : List Pending) :
        freshAddresses ({ p with address := some w.addresses } :: l) = w.addresses :: freshAddresses l :=
      List.filterMap_cons_some (if_pos (by simpa using hnew))
    split
    · rw [heq, htail]
      refine ⟨[.allocated w.addresses], rfl, fun e he => ?_, rfl, List.nodup_singleton _,
        Nat.le_succ _, fun x hx => ?_⟩
      · exact ⟨w.addresses, .inl (List.mem_singleton.mp he)⟩
      · cases List.mem_singleton.mp hx
        exact ⟨Nat.le_refl _, Nat.lt_succ_self _⟩
    · obtain ⟨events, hlog, hkind, hentries, hnodup, hle, hbound⟩ := ih
        (({ w.record [.allocated w.addresses] with addresses := w.addresses + 1 } : World).record
          [.cleared w.addresses]) htail
      rw [heq]
      refine ⟨events ++ [.cleared w.addresses, .allocated w.addresses], ?_, fun e he => ?_, ?_, ?_,
        Nat.le_of_succ_le hle, ?_⟩
      · rw [List.append_assoc]
        exact hlog
      · rcases List.mem_append.mp he with he | he
        · exact hkind e he
        · simp only [List.mem_cons, List.not_mem_nil, or_false] at he
          exact ⟨w.addresses, he.symm⟩
      · rw [List.filterMap_append, hentries, List.reverse_cons, List.map_append]
        rfl
      · refine List.nodup_cons.mpr ⟨fun hmem => ?_, hnodup⟩
        exact absurd (hbound _ hmem).1 (Nat.not_succ_le_self _)
      · refine List.forall_mem_cons.mpr ⟨⟨Nat.le_refl _, hle⟩, fun x hx => ?_⟩
        exact ⟨Nat.le_of_succ_le (hbound x hx).1, (hbound x hx).2⟩

theorem allocatePending_reused (a : Adapters) : ∀ (ps : List Pending) (w : World),
    ∀ p ∈ (w.allocatePending a ps).2.1, p.newlyAllocated = false → p ∈ ps
  | [], _, _, hp, _ => hp
  | q :: ps, w, p, hp, hold => by
    unfold World.allocatePending at hp
    dsimp only at hp
    split at hp
    · rcases List.mem_cons.mp hp with rfl | hp
      · exact List.mem_cons_self
      · exact List.mem_cons_of_mem _ (allocatePending_reused a ps w p hp hold)
    split at hp
    · exact hp
    rename_i hnew _
    split at hp
    · rcases List.mem_cons.mp hp with rfl | hp
      · simp [show q.newlyAllocated = false from hold] at hnew
      · exact List.mem_cons_of_mem _ hp
    · rcases List.mem_cons.mp hp with rfl | hp
      · simp [show q.newlyAllocated = false from hold] at hnew
      · exact List.mem_cons_of_mem _ (allocatePending_reused a ps _ p hp hold)

theorem newlyAllocated_of_newPending (a : Adapters) {slots : List ℕ} {w : World}
    (hp : p ∈ (w.allocatePending a (slots.map newPending)).2.1) : p.newlyAllocated = true := by
  by_contra hold
  obtain ⟨i, -, rfl⟩ := List.mem_map.mp (allocatePending_reused a _ w p hp (Bool.eq_false_iff.mpr hold))
  exact hold rfl

/-- **The events of the registration** are those of the registrations that it leaves, which are all
different. -/
theorem registerPending_log (a : Adapters) : ∀ (ps : List Pending) (w : World), registrationsOf ps = [] →
    (∀ p ∈ ps, p.address.isSome = true) →
    (w.registerPending a ps).1.log =
        (bindings (w.registerPending a ps).2.1).reverse.map (fun b => .registered b.1 b.2) ++ w.log ∧
      (registrationsOf (w.registerPending a ps).2.1).Nodup ∧
      w.registrations ≤ (w.registerPending a ps).1.registrations ∧
      ∀ r ∈ registrationsOf (w.registerPending a ps).2.1,
        w.registrations ≤ r ∧ r < (w.registerPending a ps).1.registrations := by
  intro ps
  induction ps with
  | nil =>
    exact fun w _ _ =>
      ⟨rfl, List.nodup_nil, Nat.le_refl _, by simp [World.registerPending, registrationsOf]⟩
  | cons p ps ih =>
    intro w hnone haddress
    have hall := List.filterMap_eq_nil_iff.mp hnone
    have htail : registrationsOf ps = [] :=
      List.filterMap_eq_nil_iff.mpr fun q hq => hall q (List.mem_cons_of_mem _ hq)
    obtain ⟨hp, haddress⟩ := List.forall_mem_cons.mp haddress
    obtain ⟨x, hx⟩ := Option.isSome_iff_exists.mp hp
    unfold World.registerPending
    dsimp only
    split
    · rw [bindings_of_registrations hnone, hnone]
      exact ⟨rfl, List.nodup_nil, Nat.le_refl _, by simp⟩
    · obtain ⟨hlog, hnodup, hle, hbound⟩ :=
        ih { w.record (p.address.toList.map (.registered w.registrations ·)) with
        registrations := w.registrations + 1 } htail haddress
      have hbindings (l : List Pending) :
          bindings ({ p with registration := some w.registrations } :: l) =
          (w.registrations, x) :: bindings l :=
        List.filterMap_cons_some (by simp [hx])
      have hregistrations (l : List Pending) :
          registrationsOf ({ p with registration := some w.registrations } :: l) =
          w.registrations :: registrationsOf l :=
        List.filterMap_cons_some rfl
      have hfirst : (w.record (p.address.toList.map (.registered w.registrations ·))).log =
          .registered w.registrations x :: w.log := by
        rw [hx]
        rfl
      rw [hbindings, hregistrations, List.reverse_cons, List.map_append, List.append_assoc]
      refine ⟨hlog.trans (congrArg _ hfirst), List.nodup_cons.mpr ⟨fun hmem => ?_, hnodup⟩,
        Nat.le_of_succ_le hle, List.forall_mem_cons.mpr ⟨⟨Nat.le_refl _, hle⟩, fun r hr => ?_⟩⟩
      · exact absurd (hbound _ hmem).1 (Nat.not_succ_le_self _)
      · exact ⟨Nat.le_of_succ_le (hbound r hr).1, (hbound r hr).2⟩

/-- What a request has in hand, read off the events that it has caused. -/
structure Prepared (events : List Event) (ps : List Pending) : Prop where
  kinds : ∀ e ∈ events, (∃ x, e = .allocated x ∨ e = .cleared x) ∨ ∃ r x, e = .registered r x
  allocated : ∀ x, .allocated x ∈ events ↔ x ∈ freshAddresses ps
  registered : ∀ r x, .registered r x ∈ events ↔ ∃ p ∈ ps, p.registration = some r ∧ p.address = some x
  address : ∀ p ∈ ps, p.registration.isSome = true → p.address.isSome = true
  addresses : (freshAddresses ps).Nodup
  registrations : (registrationsOf ps).Nodup

/-! ### From the selection to the grant -/

/-- What is selected, with the address of the chunk where it is reused. -/
structure Requested (w : World) (pool : Pool) (ps : List Pending) : Prop extends Selected w pool ps where
  reused : ∀ p ∈ ps, p.newlyAllocated = false → p.address = (w.chunks p.index).address

theorem Requested.idle (h : Requested w pool ps) (hp : p ∈ ps) (hold : p.newlyAllocated = false) :
    ∃ x, w.chunks p.index = idleChunk x ∧ p.address = some x := by
  cases h.fits p hp with
  | new hnew => cases hnew.symm.trans hold
  | same x _ _ _ hchunk
  | converted x _ _ _ hchunk =>
    exact ⟨x, hchunk, (h.reused p hp hold).trans (congrArg Chunk.address hchunk)⟩

theorem Requested.sublist (h : Requested w pool ps) (hsub : ps'.Sublist ps) : Requested w pool ps' where
  toSelected := h.toSelected.sublist hsub
  reused p hp := h.reused p (hsub.subset hp)

theorem requested_select (h : ∀ i, Shape (w.chunks i)) (pool : Pool) (count : ℕ) :
    Requested w pool (w.select pool count) ∧ freshAddresses (w.select pool count) = [] ∧
      registrationsOf (w.select pool count) = [] := by
  refine ⟨⟨selected_select h pool count, fun p hp hold => ?_⟩, ?_, ?_⟩
  · rw [select_eq h] at hp
    rcases List.mem_append.mp hp with hp | hp
    · obtain ⟨i, -, rfl⟩ := List.mem_map.mp hp
      rfl
    · obtain ⟨i, -, rfl⟩ := List.mem_map.mp hp
      cases hold
  · rw [select_eq h]
    refine List.filterMap_eq_nil_iff.mpr fun p hp => ?_
    rcases List.mem_append.mp hp with hp | hp
    · obtain ⟨i, -, rfl⟩ := List.mem_map.mp hp
      rfl
    · obtain ⟨i, -, rfl⟩ := List.mem_map.mp hp
      rfl
  · exact List.filterMap_eq_nil_iff.mpr fun p hp => registration_select h hp

theorem exists_of_prepared
    (h : ps'.map (fun p => (p.plan, p.address)) = ps.map fun p => (p.plan, p.address))
    (hp : p ∈ ps') :
    ∃ q ∈ ps, q.index = p.index ∧ q.newlyAllocated = p.newlyAllocated ∧ q.address = p.address := by
  have hmem : (p.plan, p.address) ∈ ps.map fun p => (p.plan, p.address) :=
    h ▸ List.mem_map_of_mem (f := fun p => (p.plan, p.address)) hp
  obtain ⟨q, hq, heq⟩ := List.mem_map.mp hmem
  obtain ⟨hplan, haddress⟩ := Prod.mk.inj heq
  exact ⟨q, hq, congrArg (·.1) hplan, congrArg (·.2.1) hplan, haddress⟩

theorem freshAddresses_of_prepared
    (h : ps'.map (fun p => (p.plan, p.address)) = ps.map fun p => (p.plan, p.address)) :
    freshAddresses ps' = freshAddresses ps := by
  have heq (l : List Pending) : freshAddresses l =
      (l.map fun p => (p.plan, p.address)).filterMap fun q => if q.1.2.1 then q.2 else none := by
    rw [List.filterMap_map]
    rfl
  rw [heq, heq, h]

/-- **What a request has in hand** when it is rolled back or granted, and what its events say of it. -/
structure InHand (w w₀ : World) (pool : Pool) (ps : List Pending) (events : List Event) : Prop
    extends Prepared events ps, Requested w pool ps where
  advanced : w.addresses ≤ w₀.addresses
  fresh : ∀ x ∈ freshAddresses ps, w.addresses ≤ x ∧ x < w₀.addresses
  manager : w₀.toManager = w.toManager
  log : w₀.log = events ++ w.log
  booked : w₀.entries = (bindings ps).reverse.map (fun b => .attach b.1 b.2) ++
    ((freshAddresses ps).reverse.map .acquire ++ w.entries)
  issued : w.registrations ≤ w₀.registrations
  named : ∀ r ∈ registrationsOf ps, w.registrations ≤ r ∧ r < w₀.registrations

theorem inHand_allocated (hs : Requested w pool ps) (hfresh : freshAddresses ps = [])
    (hnone : registrationsOf ps = []) (a : Adapters) :
    ∃ events, InHand w (w.allocatePending a ps).1 pool (w.allocatePending a ps).2.1 events ∧
      (∀ e ∈ events, ∃ x, e = .allocated x ∨ e = .cleared x) ∧
      registrationsOf (w.allocatePending a ps).2.1 = [] := by
  have hallocates := allocatePending_spec a ps w
  obtain ⟨events, hlog, hkinds, hentries, hnodup, hle, hbound⟩ := allocatePending_log a ps w hfresh
  have hallocated (x : ℕ) : .allocated x ∈ events ↔ x ∈ freshAddresses (w.allocatePending a ps).2.1 := by
    have hentry : .acquire x ∈ events.filterMap Event.entry ↔ .allocated x ∈ events := by
      refine List.mem_filterMap.trans ⟨fun ⟨e, he, hx⟩ => ?_, fun he => ⟨_, he, rfl⟩⟩
      obtain ⟨y, rfl | rfl⟩ := hkinds e he <;> cases hx
      exact he
    rw [← hentry, hentries]
    simp
  have hnone₁ : registrationsOf (w.allocatePending a ps).2.1 = [] := List.filterMap_eq_nil_iff.mpr
    (hallocates.registration_none (List.filterMap_eq_nil_iff.mp hnone))
  have hunregistered := List.filterMap_eq_nil_iff.mp hnone₁
  refine ⟨events, ?_, hkinds, hnone₁⟩
  exact
    { kinds := fun e he => .inl (hkinds e he)
      allocated := hallocated
      registered := fun r x => by
        constructor
        · intro he
          obtain ⟨_, heq | heq⟩ := hkinds _ he <;> cases heq
        · rintro ⟨p, hp, hr, -⟩
          cases (hunregistered p hp).symm.trans hr
      address := fun p hp hr => by
        rw [hunregistered p hp] at hr
        cases hr
      addresses := hnodup
      registrations := hnone₁ ▸ List.nodup_nil
      toSelected := hs.of_plans hallocates.plans
      reused := fun p hp hold => hs.reused p (allocatePending_reused a ps w p hp hold) hold
      advanced := hle
      fresh := hbound
      manager := hallocates.manager
      log := hlog
      booked := by
        rw [bindings_of_registrations hnone₁, World.entries, hlog, List.filterMap_append, hentries]
        rfl
      issued := Nat.le_of_eq hallocates.registrations.symm
      named := fun r hr => by
        rw [hnone₁] at hr
        cases hr }

theorem InHand.register {w₁ : World} {events : List Event} (h : InHand w w₁ pool ps events)
    (hkinds : ∀ e ∈ events, ∃ x, e = .allocated x ∨ e = .cleared x) (hnone : registrationsOf ps = [])
    (haddress : ∀ p ∈ ps, p.address.isSome = true) (a : Adapters) :
    ∃ events', InHand w (w₁.registerPending a ps).1 pool (w₁.registerPending a ps).2.1 events' := by
  have hregisters := registerPending_spec a ps w₁
  obtain ⟨hlog, hnodup, hissued, hnamed⟩ := registerPending_log a ps w₁ hnone haddress
  have hfresh := freshAddresses_of_prepared hregisters.prepared
  have hprepared {p : Pending} (hp : p ∈ (w₁.registerPending a ps).2.1) :=
    exists_of_prepared hregisters.prepared hp
  refine ⟨(bindings (w₁.registerPending a ps).2.1).reverse.map (fun b => .registered b.1 b.2) ++
    events, ?_⟩
  exact
    { kinds := fun e he => by
        rcases List.mem_append.mp he with he | he
        · obtain ⟨b, -, rfl⟩ := List.mem_map.mp he
          exact .inr ⟨_, _, rfl⟩
        · exact .inl (hkinds e he)
      allocated := fun x => by
        rw [List.mem_append, hfresh, ← h.allocated, or_iff_right]
        simp
      registered := fun r x => by
        rw [List.mem_append, or_iff_left, ← mem_bindings]
        · simp
        · intro he
          obtain ⟨_, heq | heq⟩ := hkinds _ he <;> cases heq
      address := fun p hp _ => by
        obtain ⟨q, hq, -, -, hx⟩ := hprepared hp
        rw [← hx]
        exact haddress q hq
      addresses := hfresh.symm ▸ h.addresses
      registrations := hnodup
      toSelected := h.of_plans hregisters.plans
      reused := fun p hp hold => by
        obtain ⟨q, hq, hindex, hnew, hx⟩ := hprepared hp
        rw [← hx, ← hindex]
        exact h.reused q hq (hnew.trans hold)
      advanced := hregisters.addresses.symm ▸ h.advanced
      fresh := fun x hx => by
        rw [hfresh] at hx
        rw [hregisters.addresses]
        exact h.fresh x hx
      manager := hregisters.manager.trans h.manager
      log := by
        rw [List.append_assoc, ← h.log]
        exact hlog
      booked := by
        have hbooked := h.booked
        rw [bindings_of_registrations hnone] at hbooked
        rw [hfresh, World.entries, hlog, List.filterMap_append, List.filterMap_map]
        exact congr_arg₂ _ (congrFun List.filterMap_eq_map' _) hbooked
      issued := h.issued.trans hissued
      named := fun r hr => ⟨h.issued.trans (hnamed r hr).1, (hnamed r hr).2⟩ }

/-- **A request rolls back what it has in hand, or grants it.** -/
theorem populate_cases (hs : Requested w pool ps) (hfresh : freshAddresses ps = [])
    (hnone : registrationsOf ps = []) (c : Connection) (adapter : ℕ) (a : Adapters) :
    ∃ (w₀ : World) (ps₀ : List Pending) (events : List Event), InHand w w₀ pool ps₀ events ∧
      ((∃ failure : Failure, failure.result ≠ .cleanupFailed ∧ failure.rejection ≠ .cleanupFailed ∧
          w.populate c pool adapter a ps = w₀.rollbackPending pool adapter a ps₀ failure) ∨
        (∀ p ∈ ps₀, Registered p) ∧ w.populate c pool adapter a ps = w₀.grant c pool adapter ps₀) := by
  obtain ⟨events, hhand, hkinds, hnone₁⟩ := inHand_allocated hs hfresh hnone a
  have hallocates := allocatePending_spec a ps w
  unfold World.populate
  generalize w.allocatePending a ps = r at hhand hnone₁ hallocates ⊢
  obtain ⟨w₁, ps₁, failure⟩ := r
  cases failure with
  | some failure =>
    obtain ⟨hresult, hreason⟩ := hallocates.result failure rfl
    exact ⟨w₁, ps₁, events, hhand, .inl ⟨failure, hresult, hreason, rfl⟩⟩
  | none =>
    have haddress : ∀ p ∈ ps₁, p.address.isSome = true := by
      intro p hp
      cases hnew : p.newlyAllocated with
      | true => exact hallocates.allocated rfl p hp hnew
      | false =>
        obtain ⟨x, -, hx⟩ := hhand.toRequested.idle hp hnew
        rw [hx]
        rfl
    obtain ⟨events', hhand'⟩ := hhand.register hkinds hnone₁ haddress a
    have hregisters := registerPending_spec a ps₁ w₁
    dsimp only
    generalize w₁.registerPending a ps₁ = r at hhand' hregisters ⊢
    obtain ⟨w₂, ps₂, failure⟩ := r
    cases failure with
    | some failure =>
      obtain ⟨hresult, hreason⟩ := hregisters.result failure rfl
      exact ⟨w₂, ps₂, events', hhand', .inl ⟨failure, hresult, hreason, rfl⟩⟩
    | none =>
      refine ⟨w₂, ps₂, events', hhand',
        .inr ⟨fun p hp => ⟨hregisters.registered rfl p hp, fun _ => ?_⟩, rfl⟩⟩
      exact hhand'.address p hp (hregisters.registered rfl p hp)

end Memory
end Infiniswap
