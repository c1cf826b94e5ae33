/-
# Capacity is never over-reserved

The chunks assigned or being mapped to a Provider are the ones it holds, and
only a reservation adds one. A reservation needs effective capacity: what the
last observation reported less what was debited since, computed from a debit
difference that may be negative after evictions. So the chunks a Provider holds
never exceed what it held at its last applied observation plus what that
observation offered.
-/
import Infiniswap.RemoteChunk.Stability

namespace Infiniswap
namespace RemoteChunk

open ChunkModule Transition Counting

namespace ChunkModule

variable {m m' : ChunkModule}

variable {i : ℕ} {w w' w₁ : World} {c : Call} {r : Reply} {p : ProviderHandle}
  {o : ProviderObservation}

/-- The chunks assigned or being mapped to a Provider. -/
def debits (m : ChunkModule) (p : ProviderHandle) : ℕ := m.providerAssigned p + m.providerMapping p

theorem debits_eq (m : ChunkModule) (p : ProviderHandle) :
    m.debits p = Nat.count (fun k => held p (m.chunks k)) m.chunkCount := by
  refine (count_split (fun k _ => ?_) fun k _ ha hm => ?_).symm
  · cases hs : (m.chunks k).state <;> simp [held, Chunk.assigned, hs]
  · exact not_assigned_of_mapping hm.1 ha.1

theorem reconcile_room {reported observed current : ℕ}
    (h : reconcileAvailable reported observed current ≠ 0) : current + 1 ≤ observed + reported := by
  unfold reconcileAvailable at h
  dsimp only at h
  split_ifs at h <;> omega

theorem eligible_room (h : i ∈ m.eligibleProviders) : m.debits (m.providers i).handle + 1 ≤
    (m.providers i).observationDebitedChunks + (m.providers i).reportedAvailableChunks := by
  have hp := (List.mem_filter.mp h).2
  simp only [Bool.and_eq_true, bne_iff_ne, ne_eq] at hp
  obtain ⟨-, hne⟩ := hp
  unfold providerEffectiveAvailable at hne
  split at hne
  · exact absurd rfl hne
  · exact reconcile_room hne

end ChunkModule

/-- A chunk held by a Provider after a call was held by it before, unless the call reserved it. -/
theorem Does.held_before (hI : WorldInv w) (h : Does w c r w')
    (hnext : ∀ draws, c ≠ .nextMapping draws) {k : ℕ} (hk : k < w.module.chunkCount)
    (hheld : held p (w'.module.chunks k)) : held p (w.module.chunks k) := by
  cases h.chunk hI hk with
  | same _ _ he => rwa [he] at hheld
  | reserved => exact absurd rfl (hnext _)
  | aborted _ he => rw [he] at hheld; exact absurd rfl hheld.1
  | committed hs _ he | evictionBegun hs he => rw [he] at hheld; exact ⟨by simp [hs], hheld.2⟩
  | evicted _ _ _ _ he | failed _ _ _ he => rw [he] at hheld; exact absurd rfl hheld.1

theorem Does.debits_le (hI : WorldInv w) (h : Does w c r w')
    (hnext : ∀ draws, c ≠ .nextMapping draws) (p : ProviderHandle) :
    w'.module.debits p ≤ w.module.debits p := by
  rw [debits_eq, debits_eq, (h.grows hI).chunkCount]
  exact count_mono fun k hk hheld => h.held_before hI hnext hk hheld

/-- **Only a reservation adds to what a Provider holds**, one chunk, on an eligible Provider. -/
theorem Does.debits (hI : WorldInv w) (h : Does w c r w') (p : ProviderHandle) :
    w'.module.debits p ≤ w.module.debits p ∨
      w'.module.debits p = w.module.debits p + 1 ∧
        ∃ i ∈ w.module.eligibleProviders, (w.module.providers i).handle = p := by
  have hg := h.grows hI
  by_cases hnext : ∀ draws, c ≠ .nextMapping draws
  · exact .inl (h.debits_le hI hnext p)
  push Not at hnext
  obtain ⟨draws, rfl⟩ := hnext
  rw [debits_eq, debits_eq]
  cases h with
  | refused _ hm =>
    left
    rw [hg.chunkCount, World.setModule, facts_chunks hm]
  | answered hc => cases hc
  | @reserved _ i j rng _ _ hi _ _ hj hs =>
    have hset := reserveChunk_chunks (m := w.module.setPlacementRng rng) (w.module.providers i).handle j
    have h0 : ¬ held p (w.module.chunks j) := fun hh => hh.1 hs
    by_cases hp : (w.module.providers i).handle = p
    · exact .inr ⟨count_set_succ (P := held p) hset rfl hj h0 ⟨(by rintro ⟨⟩), hp⟩, i, hi, hp⟩
    · exact .inl (count_set_same (P := held p) hset rfl
        ⟨fun hh => absurd hh.2 hp, fun hh => absurd hh h0⟩).le

/-! ### The bound over whole runs -/

/-- Entry `i` is within the capacity of its last applied observation. -/
def Within (i : ℕ) (w : World) : Prop :=
  i < w.module.providerCount → (w.module.providers i).failed = false →
    (w.module.providers i).hasObservation = true → w.module.debits (w.module.providers i).handle ≤
      (w.module.providers i).observationDebitedChunks + (w.module.providers i).reportedAvailableChunks

theorem Does.within (hI : WorldInv w) (h : Does w c r w') (hw : Within i w) : Within i w' := by
  have hg := h.grows hI
  intro hi hf hobs
  rw [hg.providerCount] at hi
  cases h.roster hI i with
  | same he =>
    rw [he] at hf hobs ⊢
    have hle := hw hi hf hobs
    rcases h.debits hI (w.module.providers i).handle with hd | ⟨hd, j, hj, hji⟩
    · exact hd.trans hle
    · -- the eligible entry is this one, and it has room
      have hjr := List.mem_range.mp (List.mem_filter.mp hj).1
      obtain rfl : j = i := Option.some.inj
        ((hI.module.rosterIndex_eq hjr hji).symm.trans (hI.module.rosterIndex_eq hi rfl))
      rw [hd]
      exact eligible_room hj
  | @observed p o hip _ he =>
    have hhandle := (w.module.providerRosterIndex_some (w.module.providerIndex_some hip).1).2
    rw [he]
    -- the observation records what the Provider holds now
    have hrec : (w.module.observedProvider i p o).observationDebitedChunks = w.module.debits p := rfl
    have hp : (w.module.observedProvider i p o).handle = p := hhandle
    rw [hrec, hp]
    exact (h.debits_le hI nofun p).trans (Nat.le_add_right _ _)
  | failed _ _ he => rw [he] at hf; cases hf

theorem fresh_within (h : w.Fresh) (i : ℕ) : Within i w := by
  obtain ⟨⟨config, capacity, identity, now, handles, hcreate⟩, -⟩ := h
  obtain ⟨-, -, hm⟩ := moduleCreate_ok hcreate
  intro _ _ hobs
  rw [hm] at hobs
  have hfalse : ∀ ps : List ProviderConfig, (rosterProvider identity ps i).hasObservation = false := by
    intro ps
    unfold rosterProvider
    split <;> rfl
  exact absurd ((hfalse _).symm.trans hobs) (by decide)

/-- The run lemma: every entry is within its capacity in every reachable world. -/
theorem within_run (h : chunkSystem.Reachable w) (i : ℕ) : Within i w := by
  refine System.Reach.invariant (S := chunkSystem) (fun w hw => fresh_within hw i) ?_ h
  intro u c v hu hin _ hs
  obtain ⟨r, -, hd⟩ := step_does (world_inv hu) hs
  exact hd.within (world_inv hu) hin

/-- The call applies an observation of Provider `p`. -/
def Observes (p : ProviderHandle) (w : World) (c : Call) : Prop :=
  ∃ o w', c = .observe p o ∧ w.call c = some (.observed .applied, w')

/-- An applied observation writes the roster entry of its Provider, under a larger sequence number. -/
theorem observe_applied (hI : WorldInv w)
    (h : w.call (.observe p o) = some (.observed .applied, w₁)) :
    ∃ i, w.module.providerIndex p = some i ∧
      ((w.module.providers i).hasObservation = true →
        (w.module.providers i).observationSequence < o.sequence) ∧
      w₁.module.providers i = w.module.observedProvider i p o := by
  cases call_does hI h with
  | refused hr | answered hr => cases hr
  | @observed _ _ i hi hseq => exact ⟨i, hi, hseq, if_pos rfl⟩

/-- The entry an applied observation wrote stays until the next one or the failure of the Provider. -/
theorem observation_run {w₂ : World} (h : chunkSystem.Reachable w₁)
    (hrun : (chunkSystem.startAt w₁).Reach (fun u c => ¬ Observes (w₁.module.providers i).handle u c) w₂)
    (hf : (w₂.module.providers i).failed = false) :
    w₂.module.providers i = w₁.module.providers i := by
  let I := fun u : World => w₁.module.Grows u.module ∧
    ((u.module.providers i).failed = false → u.module.providers i = w₁.module.providers i)
  suffices hI : I w₂ from hI.2 hf
  refine (System.Reach.invariant_from (I := I) h ⟨.refl _, fun _ => rfl⟩ ?_ hrun).2
  rintro u c v hu ⟨hg, hsame⟩ hnot hs
  have hIu := world_inv hu
  obtain ⟨r, hcall, hd⟩ := step_does hIu hs
  refine ⟨hg.trans (hd.grows hIu), fun hfv => ?_⟩
  cases hd.roster hIu i with
  | same he => rw [he] at hfv ⊢; exact hsame hfv
  | @observed p o hip =>
    have hp := (u.module.providerRosterIndex_some (u.module.providerIndex_some hip).1).2
    rw [hg.handle] at hp
    exact absurd ⟨o, v, by rw [hp], hcall⟩ hnot
  | failed _ _ he => rw [he] at hfv; cases hfv

theorem Does.sequence (hI : WorldInv w) (h : Does w c r w') {n : ℕ}
    (hn : (w.module.providers i).hasObservation = true ∧ n ≤ (w.module.providers i).observationSequence) :
    (w'.module.providers i).hasObservation = true ∧ n ≤ (w'.module.providers i).observationSequence := by
  cases h.roster hI i with
  | same he => rwa [he]
  | observed _ hseq he => rw [he]; exact ⟨rfl, hn.2.trans (hseq hn.1).le⟩
  | failed _ _ he => rw [he]; exact hn

theorem ChunkModule.providerObserve_refused {m : ChunkModule}
    (h : (m.providerObserve p o).1 ≠ .applied) : (m.providerObserve p o).2 = m := by
  unfold providerObserve at h ⊢
  dsimp only at h ⊢
  split_ifs at h ⊢
  · rfl
  · rfl
  · split at h
    · rfl
    · split_ifs at h ⊢ <;> first | rfl | exact absurd rfl h

/-- Between an applied observation and the next the Provider stays within what the observation offered. -/
theorem observation_bounds {w₂ : World} (h : chunkSystem.Reachable w) (hd : w.destroyed = false)
    (hcall : w.call (.observe p o) = some (.observed .applied, w₁))
    (hrun : (chunkSystem.startAt w₁).Reach (fun u c => ¬ Observes p u c) w₂)
    (hp : w₂.module.providerValid p = true) :
    w₂.module.debits p ≤ w.module.debits p + o.availableChunks := by
  obtain ⟨i, hi, -, hentry⟩ := observe_applied (world_inv h) hcall
  have hroster := (w.module.providerIndex_some hi).1
  have hw₁ := reachable_call h hd hcall
  have hhandle : (w₁.module.providers i).handle = p := by
    rw [hentry]
    exact (w.module.providerRosterIndex_some hroster).2
  obtain ⟨hw₂, hg⟩ := run_grows hw₁ hrun
  have hg₁ := (call_does (world_inv h) hcall).grows (world_inv h)
  obtain ⟨j, hj, hf⟩ := w₂.module.providerValid_iff.mp hp
  obtain rfl : j = i := by
    rw [hg.rosterIndex, hg₁.rosterIndex, hroster] at hj
    exact (Option.some.inj hj).symm
  have hsame := observation_run hw₁ (by rwa [hhandle]) hf
  have hbound :=
    within_run hw₂ j (w₂.module.providerRosterIndex_some hj).1 hf (by rw [hsame, hentry]; rfl)
  rw [hsame, hhandle, hentry] at hbound
  exact hbound

/-- **Capacity is never over-reserved.** In every reachable world what a Provider that has not failed
holds is at most what it held at its last applied observation and what that observation reported:
as the roster records the two, and as they were at the call of the observation. A later applied
observation carries a larger sequence number, and one that is not applied changes nothing. -/
theorem capacity_bounded {w : World} (h : chunkSystem.Reachable w) (hd : w.destroyed = false) :
    (∀ i < w.module.providerCount, (w.module.providers i).failed = false →
      (w.module.providers i).hasObservation = true → w.module.debits (w.module.providers i).handle ≤
        (w.module.providers i).observationDebitedChunks +
          (w.module.providers i).reportedAvailableChunks) ∧
    (∀ p o w₁ w₂, w.call (.observe p o) = some (.observed .applied, w₁) →
      (chunkSystem.startAt w₁).Reach (fun u c => ¬ Observes p u c) w₂ → w₂.module.providerValid p = true →
      w₂.module.debits p ≤ w.module.debits p + o.availableChunks) ∧
    (∀ p o w₁ u o' v, w.call (.observe p o) = some (.observed .applied, w₁) → w₁.Later u →
      u.call (.observe p o') = some (.observed .applied, v) → o.sequence < o'.sequence) ∧
    ∀ p o r w', w.call (.observe p o) = some (.observed r, w') → r ≠ .applied → w' = w := by
  refine ⟨fun i => within_run h i, fun p o w₁ w₂ hcall hrun hp => observation_bounds h hd hcall hrun hp,
    fun p o w₁ u o' v hcall hlater hcall' => ?_, fun p o r w' hcall hr => ?_⟩
  · obtain ⟨i, hi, -, hentry⟩ := observe_applied (world_inv h) hcall
    obtain ⟨hu, hseq⟩ := World.Later.keeps (reachable_call h hd hcall) hlater
      (I := fun u => (u.module.providers i).hasObservation = true ∧
        o.sequence ≤ (u.module.providers i).observationSequence)
      (by rw [hentry]; exact ⟨rfl, le_rfl⟩) fun u c r v huI hdoes => hdoes.sequence huI
    obtain ⟨j, hj, hlt, -⟩ := observe_applied (world_inv hu) hcall'
    -- the roster index of a handle never changes
    have hg := (call_does (world_inv h) hcall).grows (world_inv h)
    have hgu := (run_grows (reachable_call h hd hcall) hlater).2
    have hij : some j = some i := by
      rw [← (w.module.providerIndex_some hi).1, ← (u.module.providerIndex_some hj).1, hgu.rosterIndex,
        hg.rosterIndex]
    obtain rfl := Option.some.inj hij
    exact hseq.2.trans_lt (hlt hseq.1)
  · have he : (Reply.observed (w.module.providerObserve p o).1,
        w.setModule (w.module.providerObserve p o).2) = (Reply.observed r, w') := Option.some.inj hcall
    obtain ⟨hres, rfl⟩ := Prod.mk.inj he
    rw [providerObserve_refused (by rwa [Reply.observed.inj hres])]
    rfl

/-- A Provider that offered three chunks while it held none, and got one of them. -/
theorem capacity_bounded_mapped : ∃ w : World, chunkSystem.Reachable w ∧ w.module.debits ⟨1, 1⟩ = 1 ∧
    w.module.debits ⟨1, 1⟩ ≤ 0 + 3 := by
  obtain ⟨w, hw, hd, hi, hf, hobs, hh, hdebited, hreported, hdebits⟩ :
      ∃ w, chunkSystem.exec backedWorld backedCalls = some w ∧ w.destroyed = false ∧
      0 < w.module.providerCount ∧ (w.module.providers 0).failed = false ∧
      (w.module.providers 0).hasObservation = true ∧ (w.module.providers 0).handle = ⟨1, 1⟩ ∧
      (w.module.providers 0).observationDebitedChunks = 0 ∧
      (w.module.providers 0).reportedAvailableChunks = 3 ∧ w.module.debits ⟨1, 1⟩ = 1 :=
        ⟨_, rfl, by decide⟩
  have hreach := System.reachable_of_exec (.init backedWorld_fresh) hw
  have hbound := (capacity_bounded hreach hd).1 0 hi hf hobs
  rw [hh, hdebited, hreported] at hbound
  exact ⟨w, hreach, hdebits, hbound⟩

end RemoteChunk
end Infiniswap
