/-
# The loops of an admission

What the selection takes, and what allocation and registration leave of it. These
loops change nothing of the manager: they number allocations and registrations,
and fill in the records of the pending chunks.
-/
import Infiniswap.Memory.Accounts

namespace Infiniswap
namespace Memory

open Counting Keyed

variable {w w' : World} {pool : Pool} {p : Pending} {ps ps' : List Pending}
  {failure : Option Failure} {a : Adapters}

/-! ### Selection -/

/-- What the slot of a pending chunk holds: nothing, an idle chunk of the pool, or one to convert. -/
inductive Fits (w : World) (pool : Pool) (p : Pending) : Prop
  | new : p.newlyAllocated = true → p.convertedFromOpportunistic = false → w.chunks p.index = {} →
      Fits w pool p
  | same (address : ℕ) :
      p.newlyAllocated = false → p.convertedFromOpportunistic = false → pool = .opportunistic →
      w.chunks p.index = idleChunk address → Fits w pool p
  | converted (address : ℕ) :
      p.newlyAllocated = false → p.convertedFromOpportunistic = true → pool = .committed →
      w.chunks p.index = idleChunk address → Fits w pool p

/-- Different slots of the table that fit. -/
structure Selected (w : World) (pool : Pool) (ps : List Pending) : Prop where
  nodup : (ps.map (·.index)).Nodup
  bound : ∀ p ∈ ps, p.index < w.chunkCapacity
  fits : ∀ p ∈ ps, Fits w pool p

/-- What the selection has decided about a pending chunk. -/
def Pending.plan (p : Pending) : ℕ × Bool × Bool :=
  (p.index, p.newlyAllocated, p.convertedFromOpportunistic)

theorem Fits.of_plan {p p' : Pending} (h : Fits w pool p) (hplan : p'.plan = p.plan) :
    Fits w pool p' := by
  simp only [Pending.plan, Prod.mk.injEq] at hplan
  obtain ⟨hi, hn, hc⟩ := hplan
  cases h with
  | new h₁ h₂ h₃ => exact .new (hn.trans h₁) (hc.trans h₂) (hi ▸ h₃)
  | same address h₁ h₂ h₃ h₄ => exact .same address (hn.trans h₁) (hc.trans h₂) h₃ (hi ▸ h₄)
  | converted address h₁ h₂ h₃ h₄ => exact .converted address (hn.trans h₁) (hc.trans h₂) h₃ (hi ▸ h₄)

theorem Selected.of_plans (h : Selected w pool ps) (hplans : ps'.map Pending.plan = ps.map Pending.plan) :
    Selected w pool ps' := by
  have hindex : ps'.map (·.index) = ps.map (·.index) := by
    have := congrArg (List.map Prod.fst) hplans
    rwa [List.map_map, List.map_map] at this
  have hmem {p : Pending} (hp : p ∈ ps') : ∃ q ∈ ps, p.plan = q.plan := by
    have : p.plan ∈ ps.map Pending.plan := hplans ▸ List.mem_map_of_mem hp
    obtain ⟨q, hq, heq⟩ := List.mem_map.mp this
    exact ⟨q, hq, heq.symm⟩
  refine ⟨hindex ▸ h.nodup, fun p hp => ?_, fun p hp => ?_⟩
  · obtain ⟨q, hq, heq⟩ := hmem hp
    have hi : p.index = q.index := congrArg Prod.fst heq
    exact hi ▸ h.bound q hq
  · obtain ⟨q, hq, heq⟩ := hmem hp
    exact (h.fits q hq).of_plan heq

theorem Selected.of_sameTable (h : Selected w pool ps) (hsame : w.SameTable w') :
    Selected w' pool ps where
  nodup := h.nodup
  bound p hp := hsame.chunkCapacity ▸ h.bound p hp
  fits p hp := by
    cases h.fits p hp with
    | new h₁ h₂ h₃ => exact .new h₁ h₂ (hsame.chunks ▸ h₃)
    | same address h₁ h₂ h₃ h₄ => exact .same address h₁ h₂ h₃ (hsame.chunks ▸ h₄)
    | converted address h₁ h₂ h₃ h₄ => exact .converted address h₁ h₂ h₃ (hsame.chunks ▸ h₄)

theorem mem_firstSlots {q : ℕ → Bool} {n i : ℕ} (h : i ∈ w.firstSlots q n) :
    i < w.chunkCapacity ∧ q i = true := by
  obtain ⟨hi, hq⟩ := List.mem_filter.mp (List.mem_of_mem_take h)
  exact ⟨List.mem_range.mp hi, hq⟩

theorem nodup_firstSlots (w : World) (q : ℕ → Bool) (n : ℕ) : (w.firstSlots q n).Nodup :=
  (List.nodup_range.filter _).sublist (List.take_sublist _ _)

theorem length_firstSlots (w : World) (q : ℕ → Bool) (n : ℕ) :
    (w.firstSlots q n).length = min n (Nat.count (fun i => q i = true) w.chunkCapacity) := by
  rw [World.firstSlots, List.length_take, length_filter_range]

/-- The slots with idle chunks that a request takes. -/
def World.idleSlots (w : World) (n : ℕ) : List ℕ :=
  w.firstSlots (fun i => (w.chunks i).reusable .opportunistic) n

/-- The empty slots that a request takes. -/
def World.emptySlots (w : World) (n : ℕ) : List ℕ := w.firstSlots (fun i => (w.chunks i).address.isNone) n

/-- A pending chunk that reuses the idle chunk in a slot. -/
def World.reuse (w : World) (pool : Pool) (i : ℕ) : Pending where
  index := i
  address := (w.chunks i).address
  convertedFromOpportunistic := pool = .committed

/-- A pending chunk for an empty slot. -/
def newPending (i : ℕ) : Pending where
  index := i
  newlyAllocated := true

theorem firstSlots_congr {q q' : ℕ → Bool} (h : ∀ i, q i = q' i) (n : ℕ) :
    w.firstSlots q n = w.firstSlots q' n := by
  rw [World.firstSlots, World.firstSlots, List.filter_congr fun i _ => h i]

/-- **What the selection takes**: idle chunks, which the Committed Pool converts, and then empty slots. -/
theorem select_eq (h : ∀ i, Shape (w.chunks i)) (pool : Pool) (count : ℕ) :
    w.select pool count = (w.idleSlots count).map (w.reuse pool) ++
      (w.emptySlots (count - (w.idleSlots count).length)).map newPending := by
  -- the slots of the chunks that are reused are not empty
  have hempty (l : List ℕ) (hl : ∀ i ∈ l, (w.chunks i).reusable .opportunistic = true) (f : ℕ → Pending)
      (hf : ∀ i, (f i).index = i) (i : ℕ) :
      ((w.chunks i).address.isNone && !((l.map f).any fun p => p.index = i)) =
        (w.chunks i).address.isNone := by
    cases hn : (w.chunks i).address.isNone with
    | false => rfl
    | true =>
      rw [Bool.true_and, Bool.not_eq_true', List.any_eq_false]
      intro p hp
      obtain ⟨j, hj, rfl⟩ := List.mem_map.mp hp
      rw [hf, decide_eq_true_eq]
      rintro rfl
      obtain ⟨-, address, hidle⟩ := (reusable_iff (h j)).mp (hl j hj)
      rw [hidle] at hn
      cases hn
  have hidle : ∀ i ∈ w.firstSlots (fun i => (w.chunks i).reusable .opportunistic) count,
      (w.chunks i).reusable .opportunistic = true := fun i hi => (mem_firstSlots hi).2
  cases pool with
  | opportunistic =>
    unfold World.select
    simp only [reduceCtorEq, if_false, List.append_nil, List.length_map]
    rw [firstSlots_congr (hempty _ hidle _ ?_)]
    · rfl
    · exact fun _ => rfl
  | committed =>
    have hnone : w.firstSlots (fun i => (w.chunks i).reusable .committed) count = [] := by
      rw [World.firstSlots, List.filter_eq_nil_iff.mpr, List.take_nil]
      intro i _ hr
      cases ((reusable_iff (h i)).mp hr).1
    unfold World.select
    simp only [hnone, if_true, List.map_nil, List.nil_append, List.length_nil, Nat.sub_zero,
      List.length_map]
    rw [firstSlots_congr (hempty _ hidle _ ?_)]
    · rfl
    · exact fun _ => rfl

/-- **The selection fits.** -/
theorem selected_select (h : ∀ i, Shape (w.chunks i)) (pool : Pool) (count : ℕ) :
    Selected w pool (w.select pool count) := by
  have hidle {i : ℕ} (hi : i ∈ w.idleSlots count) : ∃ address, w.chunks i = idleChunk address :=
    ((reusable_iff (h i)).mp (mem_firstSlots hi).2).2
  have hempty {i n : ℕ} (hi : i ∈ w.emptySlots n) : w.chunks i = {} :=
    (address_isNone_iff (h i)).mp (mem_firstSlots hi).2
  rw [select_eq h]
  refine ⟨?_, fun p hp => ?_, fun p hp => ?_⟩
  · rw [List.map_append, List.map_map, List.map_map]
    change ((w.idleSlots count).map id ++ (w.emptySlots _).map id).Nodup
    rw [List.map_id, List.map_id]
    refine List.nodup_append.mpr ⟨nodup_firstSlots _ _ _, nodup_firstSlots _ _ _, fun i hi j hj hij => ?_⟩
    obtain ⟨address, hi'⟩ := hidle hi
    rw [hij, hempty hj] at hi'
    cases hi'
  · rcases List.mem_append.mp hp with hp | hp <;> obtain ⟨i, hi, rfl⟩ := List.mem_map.mp hp <;>
      exact (mem_firstSlots hi).1
  · rcases List.mem_append.mp hp with hp | hp
    · obtain ⟨i, hi, rfl⟩ := List.mem_map.mp hp
      obtain ⟨address, hchunk⟩ := hidle hi
      cases pool with
      | opportunistic => exact .same address rfl rfl rfl hchunk
      | committed => exact .converted address rfl rfl rfl hchunk
    · obtain ⟨i, hi, rfl⟩ := List.mem_map.mp hp
      exact .new rfl rfl (hempty hi)

theorem registration_select (h : ∀ i, Shape (w.chunks i)) {count : ℕ} (hp : p ∈ w.select pool count) :
    p.registration = none := by
  rw [select_eq h] at hp
  rcases List.mem_append.mp hp with hp | hp
  · obtain ⟨i, -, rfl⟩ := List.mem_map.mp hp
    rfl
  · obtain ⟨i, -, rfl⟩ := List.mem_map.mp hp
    rfl

/-! ### Allocation and registration -/

/-- What the loop over the new chunks leaves. -/
structure Allocates (w w' : World) (ps ps' : List Pending) (failure : Option Failure) : Prop where
  manager : w'.toManager = w.toManager
  registrations : w'.registrations = w.registrations
  plans : ps'.map Pending.plan = ps.map Pending.plan
  unregistered : ps'.map (·.registration) = ps.map (·.registration)
  allocated : failure = none → ∀ p ∈ ps', p.newlyAllocated = true → p.address.isSome = true
  result : ∀ f, failure = some f → f.result ≠ .cleanupFailed ∧ f.rejection ≠ .cleanupFailed

theorem Allocates.registration_none (h : Allocates w w' ps ps' failure)
    (hps : ∀ p ∈ ps, p.registration = none) : ∀ p ∈ ps', p.registration = none := by
  intro p hp
  have hmem : p.registration ∈ ps.map (·.registration) := h.unregistered ▸ List.mem_map_of_mem hp
  obtain ⟨q, hq, heq⟩ := List.mem_map.mp hmem
  rw [← heq]
  exact hps q hq

theorem allocatePending_spec (a : Adapters) : ∀ (ps : List Pending) (w : World),
    Allocates w (w.allocatePending a ps).1 ps (w.allocatePending a ps).2.1 (w.allocatePending a ps).2.2
  | [], w => ⟨rfl, rfl, rfl, rfl, nofun, nofun⟩
  | p :: ps, w => by
    unfold World.allocatePending
    dsimp only
    split
    · rename_i hold
      obtain ⟨hm, hr, hp, hu, ha, hf⟩ := allocatePending_spec a ps w
      refine ⟨hm, hr, ?_, ?_, fun hn => List.forall_mem_cons.mpr ⟨fun hnew => ?_, ha hn⟩, hf⟩
      · rw [List.map_cons, List.map_cons, hp]
      · rw [List.map_cons, List.map_cons, hu]
      · rw [hnew] at hold
        cases hold
    split
    · exact ⟨rfl, rfl, rfl, rfl, nofun, fun f hf => by cases hf; decide⟩
    split
    · exact ⟨rfl, rfl, rfl, rfl, nofun, fun f hf => by cases hf; decide⟩
    · obtain ⟨hm, hr, hp, hu, ha, hf⟩ := allocatePending_spec a ps
        (({ w.record [.allocated w.addresses] with addresses := w.addresses + 1 } : World).record
        [.cleared w.addresses])
      refine ⟨hm, hr, ?_, ?_, fun hn => List.forall_mem_cons.mpr ⟨fun _ => rfl, ha hn⟩, hf⟩
      · exact congrArg (List.cons _) hp
      · exact congrArg (List.cons _) hu

/-- What the loop over the registrations leaves: the plans and the addresses are the same. -/
structure Registers (w w' : World) (ps ps' : List Pending) (failure : Option Failure) : Prop where
  manager : w'.toManager = w.toManager
  addresses : w'.addresses = w.addresses
  prepared : ps'.map (fun p => (p.plan, p.address)) = ps.map fun p => (p.plan, p.address)
  registered : failure = none → ∀ p ∈ ps', p.registration.isSome = true
  result : ∀ f, failure = some f → f.result ≠ .cleanupFailed ∧ f.rejection ≠ .cleanupFailed

theorem Registers.plans (h : Registers w w' ps ps' failure) :
    ps'.map Pending.plan = ps.map Pending.plan := by
  have := congrArg (List.map Prod.fst) h.prepared
  rwa [List.map_map, List.map_map] at this

theorem Registers.allocated (h : Registers w w' ps ps' failure)
    (hps : ∀ p ∈ ps, p.newlyAllocated = true → p.address.isSome = true) :
    ∀ p ∈ ps', p.newlyAllocated = true → p.address.isSome = true := by
  intro p hp hn
  have hmem : (p.plan, p.address) ∈ ps.map fun p => (p.plan, p.address) :=
    h.prepared ▸ List.mem_map_of_mem (f := fun p => (p.plan, p.address)) hp
  obtain ⟨q, hq, heq⟩ := List.mem_map.mp hmem
  obtain ⟨hplan, haddress⟩ := Prod.mk.inj heq
  have hnew : q.newlyAllocated = true := by
    have := congrArg (·.2.1) hplan
    exact this.trans hn
  rw [← haddress]
  exact hps q hq hnew

theorem registerPending_spec (a : Adapters) : ∀ (ps : List Pending) (w : World),
    Registers w (w.registerPending a ps).1 ps (w.registerPending a ps).2.1 (w.registerPending a ps).2.2
  | [], w => ⟨rfl, rfl, rfl, nofun, nofun⟩
  | p :: ps, w => by
    unfold World.registerPending
    dsimp only
    split
    · exact ⟨rfl, rfl, rfl, nofun, fun f hf => by cases hf; decide⟩
    · obtain ⟨hm, hr, hp, ha, hf⟩ := registerPending_spec a ps
        { w.record (p.address.toList.map (.registered w.registrations ·)) with
        registrations := w.registrations + 1 }
      refine ⟨hm, hr, ?_, fun hn => List.forall_mem_cons.mpr ⟨rfl, ha hn⟩, hf⟩
      exact congrArg (List.cons _) hp

end Memory
end Infiniswap
