/-
# Arrays that are searched for a record

A function that looks a record up and then writes through the pointer it found
changes the first match, `modifyFirst`. An array that is kept dense by moving its
last record into the gap is `swapRemove`.

Key definitions: `modifyFirst`, `swapRemove`.
Key theorems: `sum_modifyFirst`, `cons_swapRemove_perm`, `eq_of_nodup_filterMap`.
-/
import Mathlib.Algebra.BigOperators.Group.List.Basic
import Mathlib.Algebra.Ring.Nat
import Mathlib.Data.List.Nodup
import Mathlib.Data.List.Pairwise

namespace Keyed

variable {α β : Type*} {p : α → Bool} {f : α → α} {l : List α} {x y : α}

/-- The list with its first match changed. -/
def modifyFirst (p : α → Bool) (f : α → α) : List α → List α
  | [] => []
  | x :: l => if p x then f x :: l else x :: modifyFirst p f l

/-- What the change keeps of the records that match, it keeps of the list. -/
theorem map_modifyFirst_of_mem {g : α → β} : ∀ {l : List α}, (∀ x ∈ l, p x = true → g (f x) = g x) →
    (modifyFirst p f l).map g = l.map g
  | [], _ => rfl
  | x :: l, h => by
    unfold modifyFirst
    split
    · rename_i hx
      rw [List.map_cons, List.map_cons, h x List.mem_cons_self hx]
    · rw [List.map_cons, List.map_cons,
        map_modifyFirst_of_mem fun y hy => h y (List.mem_cons_of_mem _ hy)]

theorem map_modifyFirst {g : α → β} (h : ∀ x, g (f x) = g x) (l : List α) :
    (modifyFirst p f l).map g = l.map g :=
  map_modifyFirst_of_mem fun x _ _ => h x

/-- Where no two records match, the others are those that do not. -/
theorem mem_modifyFirst_of_unique :
    ∀ {l : List α}, (∀ a ∈ l, ∀ b ∈ l, p a = true → p b = true → a = b) → l.Nodup →
    x ∈ modifyFirst p f l → (x ∈ l ∧ p x = false) ∨ ∃ y, l.find? p = some y ∧ x = f y
  | [], _, _, h => by cases h
  | z :: l, hu, hd, h => by
    unfold modifyFirst at h
    by_cases hz : p z = true
    · rw [if_pos hz] at h
      rcases List.mem_cons.mp h with rfl | h
      · exact .inr ⟨z, by rw [List.find?_cons, hz], rfl⟩
      · refine .inl ⟨List.mem_cons_of_mem _ h, Bool.eq_false_iff.mpr fun hx => ?_⟩
        rw [hu z List.mem_cons_self x (List.mem_cons_of_mem _ h) hz hx] at hd
        exact (List.nodup_cons.mp hd).1 h
    · rw [if_neg hz] at h
      rcases List.mem_cons.mp h with rfl | h
      · exact .inl ⟨List.mem_cons_self, Bool.eq_false_iff.mpr hz⟩
      · have hu' : ∀ a ∈ l, ∀ b ∈ l, p a = true → p b = true → a = b := fun a ha b hb =>
          hu a (List.mem_cons_of_mem _ ha) b (List.mem_cons_of_mem _ hb)
        rcases mem_modifyFirst_of_unique hu' (List.nodup_cons.mp hd).2 h with ⟨h, hx⟩ | ⟨y, hy, rfl⟩
        · exact .inl ⟨List.mem_cons_of_mem _ h, hx⟩
        · refine .inr ⟨y, ?_, rfl⟩
          rw [List.find?_cons, Bool.eq_false_iff.mpr hz]
          exact hy

/-- A sum over the list changes by what the first match changes. -/
theorem sum_modifyFirst (g : α → ℕ) : ∀ {l : List α}, l.find? p = some y →
    ((modifyFirst p f l).map g).sum + g y = (l.map g).sum + g (f y)
  | [], h => by cases h
  | z :: l, h => by
    rw [List.find?_cons] at h
    unfold modifyFirst
    by_cases hz : p z = true
    · rw [hz] at h
      cases h
      rw [if_pos hz, List.map_cons, List.map_cons, List.sum_cons, List.sum_cons]
      omega
    · rw [Bool.eq_false_iff.mpr hz] at h
      have ih := sum_modifyFirst g h
      rw [if_neg hz, List.map_cons, List.map_cons, List.sum_cons, List.sum_cons]
      omega

/-- A change that changes nothing. -/
theorem modifyFirst_of_fixed (h : ∀ x, f x = x) : ∀ l : List α, modifyFirst p f l = l
  | [] => rfl
  | z :: l => by
    simp only [modifyFirst, h, modifyFirst_of_fixed h l, ite_self]

/-- Two changes of the same record are one. -/
theorem modifyFirst_modifyFirst {g : α → α} (h : ∀ x, p (g x) = p x) : ∀ l : List α,
    modifyFirst p f (modifyFirst p g l) = modifyFirst p (f ∘ g) l
  | [] => rfl
  | z :: l => by
    by_cases hz : p z = true
    · simp only [modifyFirst, hz, if_true, h, Function.comp]
    · simp only [modifyFirst, if_neg hz, modifyFirst_modifyFirst h l]

/-- The list without its `k`-th record, whose place the last one takes. -/
def swapRemove (l : List α) (k : ℕ) : List α :=
  match l.getLast? with
  | none => []
  | some last => (l.set k last).dropLast

theorem mem_of_mem_swapRemove {k : ℕ} (h : x ∈ swapRemove l k) : x ∈ l := by
  unfold swapRemove at h
  split at h
  · cases h
  · rename_i last hlast
    rcases List.mem_or_eq_of_mem_set ((List.dropLast_sublist _).subset h) with hmem | rfl
    · exact hmem
    · exact List.mem_of_getLast? hlast

/-- The record that is removed and those that are left, in another order. -/
theorem cons_swapRemove_perm {k : ℕ} (hk : k < l.length) : (l[k] :: swapRemove l k).Perm l := by
  refine .trans (.cons _ ?_) (List.getElem_cons_eraseIdx_perm hk)
  obtain ⟨l', z, rfl⟩ : ∃ l' z, l = l' ++ [z] := by
    rcases List.eq_nil_or_concat l with rfl | ⟨l', z, rfl⟩
    · cases hk
    · exact ⟨l', z, by simp⟩
  rw [swapRemove, List.getLast?_append]
  rw [List.length_append, List.length_singleton] at hk
  by_cases hlast : k < l'.length
  · have hset : ((l' ++ [z]).set k z).dropLast = l'.set k z := by
      rw [List.set_append_left _ _ hlast, List.dropLast_concat]
    simp only [List.getLast?_singleton, Option.some_or, hset]
    rw [List.eraseIdx_append_of_lt_length hlast]
    exact (List.set_perm_cons_eraseIdx hlast z).trans (List.perm_append_singleton _ _).symm
  · have hkl : k = l'.length := by omega
    subst hkl
    have hset : ((l' ++ [z]).set l'.length z).dropLast = l' := by
      rw [List.set_append_right _ _ (Nat.le_refl _)]
      simp
    simp only [List.getLast?_singleton, Option.some_or, hset]
    rw [List.eraseIdx_append_of_length_le (Nat.le_refl _)]
    simp

/-- Records of a list with different keys are told apart by them. -/
theorem eq_of_nodup_filterMap {f : α → Option β} (h : (l.filterMap f).Nodup) {x y : α} (hx : x ∈ l)
    (hy : y ∈ l) {k : β} (hxk : f x = some k) (hyk : f y = some k) : x = y := by
  by_contra hne
  have hpairwise : l.Pairwise fun x y => ∀ k, f x = some k → ∀ k', f y = some k' → k ≠ k' :=
    List.pairwise_filterMap.mp h
  have hsymm : Std.Symm fun x y => ∀ k, f x = some k → ∀ k', f y = some k' → k ≠ k' :=
    ⟨fun _ _ h k hk k' hk' => (h k' hk' k hk).symm⟩
  exact hpairwise.forall hx hy hne k hxk k hyk rfl

end Keyed
