/-
# Power-of-d placement

`is_remote_chunk_choose_provider_locked` draws a few of the eligible Providers
by weight, without replacement, and takes the one with the most chunks to offer.
The draw is a walk over running weights, so the values that select a candidate
are an interval as long as its weight; a candidate that was drawn is overwritten
by the last one and the array shrinks, which leaves the others in some order.
-/
import Mathlib.Order.Interval.Finset.Nat
import Infiniswap.RemoteChunk.Mapping

namespace Infiniswap
namespace RemoteChunk
namespace ChunkModule

variable (m : ChunkModule) (draws : ℕ → ℕ)

/-! ### One draw -/

/-- The weights of the candidates together. -/
def totalWeight (candidates : List ℕ) : ℕ := (candidates.map fun c => (m.providers c).placementWeight).sum

@[simp] theorem totalWeight_nil : m.totalWeight [] = 0 := rfl

@[simp] theorem totalWeight_cons (c : ℕ) (cs : List ℕ) :
    m.totalWeight (c :: cs) = (m.providers c).placementWeight + m.totalWeight cs := List.sum_cons

variable {cs : List ℕ}

/-- A value selects the candidate whose running weight it falls into. -/
theorem weightedPosition_iff {pick j : ℕ} {cursor index : ℕ} (h : cursor ≤ pick) :
    m.weightedPosition pick cs cursor index = some j ↔ ∃ i, j = index + i ∧ i < cs.length ∧
      cursor + m.totalWeight (cs.take i) ≤ pick ∧ pick < cursor + m.totalWeight (cs.take (i + 1)) := by
  induction cs generalizing cursor index with
  | nil => simp [weightedPosition]
  | cons c cs ih =>
    unfold weightedPosition
    dsimp only
    split
    · rename_i hlt
      constructor
      · intro hj
        cases hj
        exact ⟨0, rfl, by simp, by simpa using h, by simpa using hlt⟩
      · rintro ⟨i, rfl, -, hle, -⟩
        cases i with
        | zero => rfl
        | succ i => simp at hle; omega
    · rename_i hge
      rw [ih (by omega)]
      constructor
      · rintro ⟨i, rfl, hi, hle, hlt⟩
        refine ⟨i + 1, by omega, by simpa using hi, ?_, ?_⟩
        · simpa [Nat.add_assoc] using hle
        · simpa [Nat.add_assoc] using hlt
      · rintro ⟨i, rfl, hi, hle, hlt⟩
        cases i with
        | zero => simp at hlt; omega
        | succ i =>
          refine ⟨i, by omega, by simpa using hi, ?_, ?_⟩
          · simpa [Nat.add_assoc] using hle
          · simpa [Nat.add_assoc] using hlt

theorem exists_weightedPosition {pick : ℕ} (cursor index : ℕ)
    (h : pick < cursor + m.totalWeight cs) :
    ∃ j, m.weightedPosition pick cs cursor index = some j ∨ pick < cursor := by
  induction cs generalizing cursor index with
  | nil => exact ⟨0, .inr (by simpa using h)⟩
  | cons c cs ih =>
    unfold weightedPosition
    dsimp only
    split
    · exact ⟨index, .inl rfl⟩
    · rename_i hge
      obtain ⟨j, hj⟩ := ih (cursor + (m.providers c).placementWeight) (index + 1)
        (by simpa [Nat.add_assoc] using h)
      exact ⟨j, .inl (hj.resolve_right hge)⟩

/-- **A candidate is selected by as many values as it has weight.** -/
theorem card_weightedPosition {i : ℕ} (hi : i < cs.length) :
    ((Finset.range (m.totalWeight cs)).filter fun v => m.weightedPosition v cs 0 0 = some i).card =
      (m.providers cs[i]).placementWeight := by
  have hsucc : m.totalWeight (cs.take (i + 1)) =
      m.totalWeight (cs.take i) + (m.providers cs[i]).placementWeight := by
    rw [totalWeight, List.take_succ_eq_append_getElem hi, List.map_append, List.sum_append]
    rfl
  have htotal : m.totalWeight (cs.take (i + 1)) ≤ m.totalWeight cs := by
    conv_rhs => rw [← List.take_append_drop (i + 1) cs]
    unfold totalWeight
    rw [List.map_append, List.sum_append]
    exact Nat.le_add_right _ _
  have hinterval :
      ((Finset.range (m.totalWeight cs)).filter fun v => m.weightedPosition v cs 0 0 = some i) =
      Finset.Ico (m.totalWeight (cs.take i)) (m.totalWeight (cs.take (i + 1))) := by
    ext v
    rw [Finset.mem_filter, Finset.mem_range, Finset.mem_Ico, m.weightedPosition_iff (Nat.zero_le v)]
    constructor
    · rintro ⟨-, k, hk, -, hle, hlt⟩
      obtain rfl : i = k := by omega
      exact ⟨by omega, by omega⟩
    · rintro ⟨hle, hlt⟩
      exact ⟨by omega, i, by omega, hi, by omega, by omega⟩
  rw [hinterval, Nat.card_Ico, hsucc, Nat.add_sub_cancel_left]

/-! ### Drawing without replacement -/

/-- The candidate at a position is overwritten by the last one, and the array shrinks. -/
theorem swapOut_perm {i : ℕ} (hi : i < cs.length) :
    ((cs.set i (cs.getD (cs.length - 1) 0)).dropLast).Perm (cs.eraseIdx i) := by
  obtain ⟨as, l, rfl⟩ : ∃ as l, cs = as ++ [l] :=
    ⟨cs.dropLast, cs.getLast (List.ne_nil_of_length_pos (by omega)),
      (List.dropLast_append_getLast _).symm⟩
  have hlast : (as ++ [l]).getD ((as ++ [l]).length - 1) 0 = l := by simp
  rw [hlast]
  by_cases hlt : i < as.length
  · rw [List.set_append_left _ _ hlt, List.dropLast_concat, List.eraseIdx_append_of_lt_length hlt]
    exact (List.set_perm_cons_eraseIdx hlt l).trans (List.perm_append_singleton _ _).symm
  · obtain rfl : i = as.length := by simp at hi; omega
    rw [List.eraseIdx_append_of_length_le (Nat.le_refl _)]
    simp

/-- The position a draw selects, and the generator after it. -/
def drawnPosition (k : ℕ) (state : ℕ × List ℕ) : ℕ × ℕ :=
  let draw := m.randomBelow state.1 (m.totalWeight state.2) (draws k)
  ((m.weightedPosition draw.1 state.2 0 0).getD 0, draw.2)

/-- The generator and the candidates that are left before draw `k`. -/
def drawState (eligible : List ℕ) : ℕ → ℕ × List ℕ
  | 0 => (m.placementRngState, eligible)
  | k + 1 =>
    let state := drawState eligible k
    let (i, rng) := m.drawnPosition draws k state
    (rng, (state.2.set i (state.2.getD (state.2.length - 1) 0)).dropLast)

/-- The candidate of draw `k`. -/
def drawnProvider (eligible : List ℕ) (k : ℕ) : ℕ :=
  (m.drawState draws eligible k).2.getD (m.drawnPosition draws k (m.drawState draws eligible k)).1 0

/-- The sample of `is_remote_chunk_choose_provider_locked`. -/
def sampledProviders (eligible : List ℕ) : List ℕ :=
  (m.sampleProviders draws (min m.placementSampleSize eligible.length) m.placementRngState eligible []).1

/-- The loop makes the draws one after the other. -/
theorem sampleProviders_eq (eligible : List ℕ) (n : ℕ) (sampled : List ℕ) :
    (m.sampleProviders draws n (m.drawState draws eligible sampled.length).1
      (m.drawState draws eligible sampled.length).2 sampled).1 =
      sampled ++ (List.range n).map fun i => m.drawnProvider draws eligible (sampled.length + i) := by
  induction n generalizing sampled with
  | zero => simp [sampleProviders]
  | succ n ih =>
    have hlen : (sampled ++ [m.drawnProvider draws eligible sampled.length]).length =
        sampled.length + 1 := by simp
    have hnext := ih (sampled ++ [m.drawnProvider draws eligible sampled.length])
    rw [hlen] at hnext
    rw [List.range_succ_eq_map, List.map_cons, List.map_map, List.append_cons]
    refine Eq.trans hnext (congrArg _ (List.map_congr_left fun i _ => ?_))
    show _ = m.drawnProvider draws eligible (sampled.length + (i + 1))
    rw [Nat.add_right_comm, Nat.add_assoc]

theorem drawnPosition_lt (k : ℕ) {state : ℕ × List ℕ} (h : state.2 ≠ []) :
    (m.drawnPosition draws k state).1 < state.2.length := by
  have hpos := List.length_pos_of_ne_nil h
  unfold drawnPosition
  dsimp only
  cases hp :
    m.weightedPosition (m.randomBelow state.1 (m.totalWeight state.2) (draws k)).1 state.2 0 0 with
  | none => exact hpos
  | some j =>
    obtain ⟨i, rfl, hi, -⟩ := (m.weightedPosition_iff (Nat.zero_le _)).mp hp
    simpa using hi

theorem drawState_perm (eligible : List ℕ) {k : ℕ} (hk : k ≤ eligible.length) :
    ((List.range k).map (m.drawnProvider draws eligible) ++ (m.drawState draws eligible k).2).Perm
      eligible := by
  induction k with
  | zero => exact List.Perm.refl _
  | succ k ih =>
    have hperm := ih (by omega)
    have hlen := hperm.length_eq
    rw [List.length_append, List.length_map, List.length_range] at hlen
    have hne : (m.drawState draws eligible k).2 ≠ [] := List.ne_nil_of_length_pos (by omega)
    have hi := m.drawnPosition_lt draws k hne
    refine List.Perm.trans ?_ hperm
    rw [List.range_succ, List.map_append, List.map_singleton, List.append_assoc, List.singleton_append]
    apply List.Perm.append_left
    rw [drawnProvider, List.getD_eq_getElem _ _ hi]
    exact ((swapOut_perm hi).cons _).trans (List.getElem_cons_eraseIdx_perm hi)

/-! ### The best of the sample -/

/-- The candidate offers more than another, or as much at a lower index. -/
def atLeast (c x : ℕ) : Prop :=
  m.providerEffectiveAvailable (m.providers x) < m.providerEffectiveAvailable (m.providers c) ∨
    m.providerEffectiveAvailable (m.providers x) = m.providerEffectiveAvailable (m.providers c) ∧ c ≤ x

theorem atLeast_refl (c : ℕ) : m.atLeast c c := .inr ⟨rfl, le_refl c⟩

theorem atLeast_trans {a b c : ℕ} (hab : m.atLeast a b) (hbc : m.atLeast b c) : m.atLeast a c := by
  unfold atLeast at *
  omega

theorem betterCandidate_atLeast (a b : ℕ) :
    (m.betterCandidate a b = a ∨ m.betterCandidate a b = b) ∧
      m.atLeast (m.betterCandidate a b) a ∧ m.atLeast (m.betterCandidate a b) b := by
  unfold betterCandidate
  dsimp only
  split
  · rename_i h
    refine ⟨.inr rfl, ?_, m.atLeast_refl b⟩
    unfold atLeast
    omega
  · rename_i h
    refine ⟨.inl rfl, m.atLeast_refl a, ?_⟩
    unfold atLeast
    omega

theorem foldl_betterCandidate (c : ℕ) (cs : List ℕ) : cs.foldl m.betterCandidate c ∈ c :: cs ∧
    ∀ x ∈ c :: cs, m.atLeast (cs.foldl m.betterCandidate c) x := by
  induction cs generalizing c with
  | nil => simp [m.atLeast_refl]
  | cons y ys ih =>
    obtain ⟨hmem, hbest⟩ := ih (m.betterCandidate c y)
    obtain ⟨hone, hc, hy⟩ := m.betterCandidate_atLeast c y
    rw [List.foldl_cons]
    have hhead := hbest _ List.mem_cons_self
    constructor
    · rcases List.mem_cons.mp hmem with heq | htail
      · rw [heq]
        rcases hone with hone | hone <;> simp [hone]
      · exact List.mem_cons_of_mem _ (List.mem_cons_of_mem _ htail)
    · intro x hx
      rcases List.mem_cons.mp hx with rfl | hx
      · exact m.atLeast_trans hhead hc
      rcases List.mem_cons.mp hx with rfl | hx
      · exact m.atLeast_trans hhead hy
      · exact hbest x (List.mem_cons_of_mem _ hx)

theorem sampledProviders_eq (eligible : List ℕ) : m.sampledProviders draws eligible =
    (List.range (min m.placementSampleSize eligible.length)).map (m.drawnProvider draws eligible) := by
  have h := m.sampleProviders_eq draws eligible (min m.placementSampleSize eligible.length) []
  simpa [sampledProviders, drawState] using h

/-- **The chosen Provider is the best of the sample.** -/
theorem chooseProvider_best {eligible : List ℕ} (h : m.sampledProviders draws eligible ≠ []) :
    (m.chooseProvider draws eligible).1 ∈ m.sampledProviders draws eligible ∧
      ∀ x ∈ m.sampledProviders draws eligible, m.atLeast (m.chooseProvider draws eligible).1 x := by
  obtain ⟨c, cs, hs⟩ := List.exists_cons_of_ne_nil h
  have hchoice : (m.chooseProvider draws eligible).1 = cs.foldl m.betterCandidate c := by
    unfold chooseProvider
    dsimp only
    rw [show (m.sampleProviders draws _ _ eligible []).1 = c :: cs from hs]
    rfl
  rw [hchoice, hs]
  exact m.foldl_betterCandidate c cs

theorem chooseProvider_mem {m : ChunkModule} {eligible : List ℕ} (hne : eligible ≠ [])
    (hsize : m.placementSampleSize ≠ 0) : (m.chooseProvider draws eligible).1 ∈ eligible := by
  have hpos := List.length_pos_of_ne_nil hne
  have hsample := m.sampledProviders_eq draws eligible
  have hsome : m.sampledProviders draws eligible ≠ [] := by
    refine List.ne_nil_of_length_pos ?_
    rw [hsample, List.length_map, List.length_range]
    omega
  have hmem := (m.chooseProvider_best draws hsome).1
  rw [hsample] at hmem
  exact (m.drawState_perm draws eligible (Nat.min_le_right _ _)).subset (List.mem_append_left _ hmem)

/-! ### The placement choice -/

theorem eligibleProviders_nodup : m.eligibleProviders.Nodup := List.Nodup.filter _ List.nodup_range

theorem randomBelow_lt {rng limit draw : ℕ} (h : 0 < limit) :
    (m.randomBelow rng limit draw).1 < limit := by
  unfold randomBelow
  rw [if_neg (by omega)]
  split <;> exact Nat.mod_lt _ h

/-- The sample of a placement among the eligible Providers. -/
def placementSample : List ℕ := m.sampledProviders draws m.eligibleProviders

/-- The candidates before draw `k`. -/
def candidatesBefore (k : ℕ) : List ℕ := (m.drawState draws m.eligibleProviders k).2

/-- The random value of draw `k`. -/
def drawnValue (k : ℕ) : ℕ :=
  (m.randomBelow (m.drawState draws m.eligibleProviders k).1
    (m.totalWeight (m.candidatesBefore draws k)) (draws k)).1

/-- **Power-of-d placement.** The sample is `min d n` different Providers of the `n` eligible ones.
Before each draw the candidates are those not drawn yet; the value drawn is below their total
weight, selects the candidate at some position, and each position is selected by as many values as
the weight of its candidate. The chosen Provider has the largest effective availability of the
sample, and the lowest index among those. -/
theorem placement_power_of_d (hpos : ∀ i ∈ m.eligibleProviders, 0 < (m.providers i).placementWeight) :
    (m.placementSample draws).length = min m.placementSampleSize m.eligibleProviders.length ∧
    (m.placementSample draws).Nodup ∧ (∀ i ∈ m.placementSample draws, i ∈ m.eligibleProviders) ∧
    (∀ k < (m.placementSample draws).length,
      ((m.placementSample draws).take k ++ m.candidatesBefore draws k).Perm m.eligibleProviders ∧
      m.drawnValue draws k < m.totalWeight (m.candidatesBefore draws k) ∧
      (∃ i, m.weightedPosition (m.drawnValue draws k) (m.candidatesBefore draws k) 0 0 = some i ∧
        (m.placementSample draws)[k]? = (m.candidatesBefore draws k)[i]?) ∧
      ∀ i (hi : i < (m.candidatesBefore draws k).length),
        ((Finset.range (m.totalWeight (m.candidatesBefore draws k))).filter fun v =>
          m.weightedPosition v (m.candidatesBefore draws k) 0 0 = some i).card =
            (m.providers (m.candidatesBefore draws k)[i]).placementWeight) ∧
    (m.placementSample draws ≠ [] →
      (m.chooseProvider draws m.eligibleProviders).1 ∈ m.placementSample draws ∧
        ∀ x ∈ m.placementSample draws, m.atLeast (m.chooseProvider draws m.eligibleProviders).1 x) := by
  have hsample : m.placementSample draws = _ := m.sampledProviders_eq draws m.eligibleProviders
  have hlength :
      (m.placementSample draws).length = min m.placementSampleSize m.eligibleProviders.length := by
    rw [hsample]
    simp
  have hall := m.drawState_perm draws m.eligibleProviders
    (Nat.min_le_right m.placementSampleSize m.eligibleProviders.length)
  rw [← hsample] at hall
  have hnodup := hall.nodup_iff.mpr m.eligibleProviders_nodup
  refine ⟨hlength, hnodup.of_append_left, fun i hi => hall.subset (List.mem_append_left _ hi),
    fun k hk => ?_, m.chooseProvider_best draws⟩
  rw [hlength] at hk
  have hperm := m.drawState_perm draws m.eligibleProviders (k := k) (by omega)
  have htake : (m.placementSample draws).take k =
      (List.range k).map (m.drawnProvider draws m.eligibleProviders) := by
    rw [hsample, ← List.map_take, List.take_range, Nat.min_eq_left (by omega)]
  have hlen := hperm.length_eq
  rw [List.length_append, List.length_map, List.length_range] at hlen
  have hne : m.candidatesBefore draws k ≠ [] :=
    List.ne_nil_of_length_pos (by unfold candidatesBefore; omega)
  -- the candidates that are left have weight, so the value drawn is below their total
  have htotal : 0 < m.totalWeight (m.candidatesBefore draws k) := by
    obtain ⟨c, cs, hcs⟩ := List.exists_cons_of_ne_nil hne
    have hmem : c ∈ m.candidatesBefore draws k := by simp [hcs]
    have hc := hpos c (hperm.subset (List.mem_append_right _ hmem))
    rw [hcs, totalWeight_cons]
    omega
  have hvalue : m.drawnValue draws k < m.totalWeight (m.candidatesBefore draws k) :=
    m.randomBelow_lt htotal
  obtain ⟨i, hi⟩ := m.exists_weightedPosition 0 0 (by rwa [Nat.zero_add])
  have hi := hi.resolve_right (Nat.not_lt_zero _)
  refine ⟨by rw [htake]; exact hperm, hvalue, ⟨i, hi, ?_⟩, fun i hi => m.card_weightedPosition hi⟩
  have hlt := m.drawnPosition_lt draws k hne
  have hdrawn : (m.drawnPosition draws k (m.drawState draws m.eligibleProviders k)).1 = i := by
    show (m.weightedPosition (m.drawnValue draws k) (m.candidatesBefore draws k) 0 0).getD 0 = i
    rw [hi]
    rfl
  rw [hdrawn] at hlt
  rw [hsample, List.getElem?_map, List.getElem?_range hk, Option.map_some, drawnProvider, hdrawn,
    List.getD_eq_getElem _ _ hlt, candidatesBefore, List.getElem?_eq_getElem hlt]

end ChunkModule

/-- Three Providers that offer chunks, of weights 1, 2 and 3, of which two are drawn. -/
def threeProviders : ChunkModule :=
  { newModule ⟨.backed, 1, ⟨1, 1, 1⟩, [⟨"a", 1⟩, ⟨"b", 2⟩, ⟨"c", 3⟩], 2, 1⟩ 1 0 with
    providers := fun i =>
      { handle := ⟨1, i + 1⟩
        placementWeight := i + 1
        reportedAvailableChunks := 4 - i
        placementEligible := true
        hasObservation := true } }

theorem threeProviders_sample : (threeProviders.placementSample id).length = 2 ∧
    (threeProviders.placementSample id).Nodup ∧ ∀ i ∈ threeProviders.placementSample id, i < 3 := by
  have hpos : ∀ i ∈ threeProviders.eligibleProviders, 0 < (threeProviders.providers i).placementWeight :=
    fun i _ => Nat.succ_pos i
  obtain ⟨hlen, hnodup, hmem, -⟩ := threeProviders.placement_power_of_d id hpos
  have heligible : threeProviders.eligibleProviders = [0, 1, 2] := by decide
  rw [heligible] at hlen hmem
  refine ⟨hlen, hnodup, fun i hi => ?_⟩
  have hi := hmem i hi
  simp at hi
  omega

end RemoteChunk
end Infiniswap
