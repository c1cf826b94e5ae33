/-
# Counting the indices of an array that satisfy a predicate

A loop that counts the entries of an array with some property is `Nat.count`.
A counter kept beside the array is then related to it by splitting the
counted predicate into disjoint parts (`count_split`). The number of distinct
tags on the counted entries is a `Finset` image; a loop that counts an entry
only when no earlier one carries its tag computes it (`count_first_eq_card`).

Key theorems: `count_split`, `count_congr`, `count_update`, `count_first_eq_card`.
-/
import Mathlib.Data.Nat.Count
import Mathlib.Algebra.BigOperators.Group.Finset.Basic

namespace Counting

variable {p q r : ℕ → Prop} [DecidablePred p] [DecidablePred q] [DecidablePred r]

variable {n : ℕ}

theorem count_congr (h : ∀ i < n, p i ↔ q i) : Nat.count p n = Nat.count q n := by
  induction n with
  | zero => simp
  | succ n ih =>
    rw [Nat.count_succ, Nat.count_succ, ih fun i hi => h i (by omega)]
    simp only [h n (by omega)]

/-- A predicate that is the disjoint union of two others is counted by the sum. -/
theorem count_split (h : ∀ i < n, p i ↔ q i ∨ r i) (hd : ∀ i < n, q i → ¬ r i) :
    Nat.count p n = Nat.count q n + Nat.count r n := by
  induction n with
  | zero => simp
  | succ n ih =>
    have hn := h n (by omega)
    have hdn := hd n (by omega)
    rw [Nat.count_succ, Nat.count_succ, Nat.count_succ,
      ih (fun i hi => h i (by omega)) (fun i hi => hd i (by omega))]
    by_cases hq : q n <;> by_cases hr : r n <;> simp_all <;> omega

theorem count_eq_zero (h : ∀ i < n, ¬ p i) : Nat.count p n = 0 := by
  rw [Nat.count_eq_card_filter_range, Finset.card_eq_zero, Finset.filter_eq_empty_iff]
  intro i hi
  exact h i (Finset.mem_range.mp hi)

theorem count_eq_zero_iff : Nat.count p n = 0 ↔ ∀ i < n, ¬ p i := by
  refine ⟨fun h i hi hp => ?_, count_eq_zero⟩
  rw [Nat.count_eq_card_filter_range, Finset.card_eq_zero, Finset.filter_eq_empty_iff] at h
  exact h (Finset.mem_range.mpr hi) hp

/-- Exactly one index is counted when exactly one satisfies the predicate. -/
theorem count_eq_one {n k : ℕ} (hk : k < n) (h : ∀ i < n, p i ↔ i = k) : Nat.count p n = 1 := by
  rw [Nat.count_eq_card_filter_range, Finset.card_eq_one]
  refine ⟨k, Finset.ext fun i => ?_⟩
  simp only [Finset.mem_filter, Finset.mem_range, Finset.mem_singleton]
  refine ⟨fun hi => (h i hi.1).mp hi.2, ?_⟩
  rintro rfl
  exact ⟨hk, (h i hk).mpr rfl⟩

/-- The members of a list of different indices are counted by its length. -/
theorem count_mem {l : List ℕ} (hd : l.Nodup) (h : ∀ i ∈ l, i < n) :
    Nat.count (fun i => i ∈ l) n = l.length := by
  rw [Nat.count_eq_card_filter_range, ← List.toFinset_card_of_nodup hd]
  congr 1
  ext i
  simp only [Finset.mem_filter, Finset.mem_range, List.mem_toFinset, and_iff_right_iff_imp]
  exact h i

theorem count_mono (h : ∀ i < n, p i → q i) : Nat.count p n ≤ Nat.count q n := by
  rw [Nat.count_eq_card_filter_range, Nat.count_eq_card_filter_range]
  refine Finset.card_le_card fun i hi => ?_
  simp only [Finset.mem_filter, Finset.mem_range] at hi ⊢
  exact ⟨hi.1, h i hi.1 hi.2⟩

/-- A predicate that misses an index another one counts is counted less often. -/
theorem count_lt {n k : ℕ} (hk : k < n) (h : ∀ i < n, p i → q i) (hq : q k) (hp : ¬ p k) :
    Nat.count p n < Nat.count q n := by
  rw [Nat.count_eq_card_filter_range, Nat.count_eq_card_filter_range]
  refine Finset.card_lt_card ⟨fun i hi => ?_, fun hsub => ?_⟩
  · simp only [Finset.mem_filter, Finset.mem_range] at hi ⊢
    exact ⟨hi.1, h i hi.1 hi.2⟩
  · exact hp (Finset.mem_filter.mp (hsub (Finset.mem_filter.mpr ⟨Finset.mem_range.mpr hk, hq⟩))).2

/-- A sum that differs by `d` at one index differs by `d`. -/
theorem sum_bump {f g : ℕ → ℕ} {n k d : ℕ} (hk : k < n) (hg : g k = f k + d)
    (hne : ∀ i, i ≠ k → g i = f i) :
    ∑ i ∈ Finset.range n, g i = (∑ i ∈ Finset.range n, f i) + d := by
  have hmem : k ∈ Finset.range n := Finset.mem_range.mpr hk
  rw [← Finset.add_sum_erase _ g hmem, ← Finset.add_sum_erase _ f hmem, hg,
    Finset.sum_congr rfl fun i hi => hne i (Finset.ne_of_mem_erase hi)]
  exact Nat.add_right_comm _ _ _

/-! ### Counting the entries of an array -/

section Entries

variable {α : Type*} (P : α → Prop) [DecidablePred P] {f : ℕ → α}

/-- An entry that is overwritten is counted as it was before and as it is after. -/
theorem count_update {n i : ℕ} (hi : i < n) (x : α) :
    Nat.count (fun j => P (Function.update f i x j)) n + (if P (f i) then 1 else 0) =
      Nat.count (fun j => P (f j)) n + if P x then 1 else 0 := by
  induction n with
  | zero => omega
  | succ n ih =>
    rw [Nat.count_succ, Nat.count_succ]
    by_cases hn : i = n
    · subst hn
      have hsame : Nat.count (fun j => P (Function.update f i x j)) i = Nat.count (fun j => P (f j)) i :=
        count_congr fun j hj => by rw [Function.update_of_ne (by omega)]
      rw [hsame, Function.update_self]
      omega
    · have ih := ih (by omega)
      rw [Function.update_of_ne (Ne.symm hn)]
      omega

/-- The slots that a loop collects are those that are counted. -/
theorem length_filter_range (p : ℕ → Bool) (n : ℕ) :
    ((List.range n).filter p).length = Nat.count (fun i => p i = true) n := by
  induction n with
  | zero => rfl
  | succ n ih =>
    rw [List.range_succ, List.filter_append, List.length_append, ih, Nat.count_succ]
    by_cases hp : p n = true <;> simp [hp]

end Entries

/-! ### Distinct tags -/

/-- The tags `f` of the indices below `n` that satisfy `p`. -/
def tags {τ : Type*} [DecidableEq τ] (p : ℕ → Prop) [DecidablePred p] (f : ℕ → τ) (n : ℕ) : Finset τ :=
  ((Finset.range n).filter p).image f

variable {τ : Type*} [DecidableEq τ] {f g : ℕ → τ}

theorem mem_tags {x : τ} : x ∈ tags p f n ↔ ∃ i < n, p i ∧ f i = x := by
  simp [tags, and_assoc]

theorem tags_succ : tags p f (n + 1) = if p n then insert (f n) (tags p f n) else tags p f n := by
  unfold tags
  rw [Finset.range_add_one, Finset.filter_insert]
  split
  · rw [Finset.image_insert]
  · rfl

theorem tags_congr (h : ∀ i < n, p i ↔ q i) (hf : ∀ i < n, p i → f i = g i) :
    tags p f n = tags q g n := by
  ext x
  simp only [mem_tags]
  constructor
  · rintro ⟨i, hi, hp, rfl⟩
    exact ⟨i, hi, (h i hi).mp hp, (hf i hi hp).symm⟩
  · rintro ⟨i, hi, hq, rfl⟩
    exact ⟨i, hi, (h i hi).mpr hq, hf i hi ((h i hi).mpr hq)⟩

/-- **First occurrences count distinct tags**, when an entry that carries the
tag of a counted entry is counted itself. -/
theorem count_first_eq_card (hcl : ∀ i < n, ∀ j < n, p i → f j = f i → p j) :
    Nat.count (fun i => p i ∧ ∀ j < i, f j ≠ f i) n = (tags p f n).card := by
  induction n with
  | zero => simp [tags]
  | succ n ih =>
    rw [Nat.count_succ, tags_succ, ih fun i hi j hj => hcl i (by omega) j (by omega)]
    by_cases hp : p n
    · by_cases hfirst : ∀ j < n, f j ≠ f n
      · rw [if_pos ⟨hp, hfirst⟩, if_pos hp, Finset.card_insert_of_notMem]
        intro hmem
        obtain ⟨j, hj, -, he⟩ := mem_tags.mp hmem
        exact hfirst j hj he
      · rw [if_neg fun h => hfirst h.2, if_pos hp, Finset.insert_eq_of_mem, add_zero]
        push Not at hfirst
        obtain ⟨j, hj, he⟩ := hfirst
        exact mem_tags.mpr ⟨j, hj, hcl n (by omega) j (by omega) hp he, he⟩
    · rw [if_neg fun h => hp h.1, if_neg hp, add_zero]

end Counting
