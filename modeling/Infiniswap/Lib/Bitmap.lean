/-
# Bitmaps stored in machine words

A bitmap is an array of `w`-bit words; bit `s` is bit `s % w` of word `s / w`.
A range of bits is set, cleared or tested word by word through a mask that
selects the bits of the word inside the range. The specification is bit by
bit: updating a range changes exactly its bits (`get_updateRange`), and a
tested range is all ones exactly when every bit of it is (`testRange_iff`).

Key definitions: `Bitmap`, `get`, `wordMask`, `updateRange`, `testRange`.
Key theorems: `getLsbD_wordMask`, `get_updateRange`, `testRange_iff`.
-/
import Mathlib.Data.Nat.Bitwise
import Mathlib.Data.BitVec

/-- An array of `w`-bit words. -/
abbrev Bitmap (w : ℕ) := ℕ → BitVec w

namespace Bitmap

variable {w : ℕ}

/-- The `bitCount` lowest bits of a word. -/
def lowBits (w bitCount : ℕ) : BitVec w :=
  if bitCount ≥ w then ~~~0#w else (1#w <<< bitCount) - 1#w

/-- The bits `firstBit ≤ i < lastBit` of a word. -/
def wordRangeMask (w firstBit lastBit : ℕ) : BitVec w :=
  lowBits w lastBit &&& ~~~lowBits w firstBit

/-- The bits of word `word` that lie in the range `first ≤ s < last`. -/
def wordMask (w first last word : ℕ) : BitVec w :=
  let wordFirst := word * w
  let firstBit := if first > wordFirst then first - wordFirst else 0
  let lastBit := if last < wordFirst + w then last - wordFirst else w
  wordRangeMask w firstBit lastBit

/-- Bit `s` of the bitmap. -/
def get (v : Bitmap w) (s : ℕ) : Bool := (v (s / w)).getLsbD (s % w)

/-- Sets or clears the range of `count` bits from `first`, in each word it touches. -/
def updateRange (v : Bitmap w) (first count : ℕ) (valid : Bool) : Bitmap w := fun word =>
  if first / w ≤ word ∧ word ≤ (first + count - 1) / w then
    if valid then v word ||| wordMask w first (first + count) word
    else v word &&& ~~~wordMask w first (first + count) word
  else v word

/-- Tests the range of `count` bits from `first`, stopping at the first word that misses one. -/
def testRange (v : Bitmap w) (first count : ℕ) : Bool :=
  (List.range' (first / w) ((first + count - 1) / w + 1 - first / w)).all fun word =>
    v word &&& wordMask w first (first + count) word == wordMask w first (first + count) word

/-! ### Masks -/

theorem getLsbD_lowBits (k i : ℕ) : (lowBits w k).getLsbD i = (decide (i < w) && decide (i < k)) := by
  unfold lowBits
  split
  · rename_i h
    by_cases hi : i < w
    · simp [hi, Nat.lt_of_lt_of_le hi h]
    · simp [hi]
  · rename_i h
    have hk : k < w := Nat.lt_of_not_ge h
    have h1 : 1 < 2 ^ w := Nat.one_lt_two_pow (by omega)
    have hpow : 2 ^ k < 2 ^ w := Nat.pow_lt_pow_right (by decide) hk
    have hval : ((1#w <<< k) - 1#w) = BitVec.ofNat w (2 ^ k - 1) := by
      apply BitVec.eq_of_toNat_eq
      have hone : (1 : ℕ) ≤ 2 ^ k := Nat.one_le_two_pow
      rw [BitVec.toNat_sub, BitVec.toNat_shiftLeft, BitVec.toNat_ofNat, BitVec.toNat_ofNat,
        Nat.mod_eq_of_lt h1, Nat.one_shiftLeft, Nat.mod_eq_of_lt hpow]
      rw [show 2 ^ w - 1 + 2 ^ k = 2 ^ k - 1 + 2 ^ w by omega, Nat.add_mod_right]
    rw [hval, BitVec.getLsbD_ofNat, Nat.testBit_two_pow_sub_one]

theorem getLsbD_wordRangeMask (a b i : ℕ) :
    (wordRangeMask w a b).getLsbD i = (decide (i < w) && decide (a ≤ i) && decide (i < b)) := by
  rw [wordRangeMask, BitVec.getLsbD_and, BitVec.getLsbD_not, getLsbD_lowBits, getLsbD_lowBits]
  by_cases hi : i < w
  · by_cases ha : a ≤ i
    · simp [hi, ha, Nat.not_lt.mpr ha]
    · simp [hi, ha, Nat.lt_of_not_ge ha]
  · simp [hi]

/-- A word's mask selects the bits whose position in the bitmap is in the range. -/
theorem getLsbD_wordMask (first last word i : ℕ) :
    (wordMask w first last word).getLsbD i =
      (decide (i < w) && decide (first ≤ word * w + i) && decide (word * w + i < last)) := by
  unfold wordMask
  rw [getLsbD_wordRangeMask]
  by_cases hi : i < w
  · simp only [hi, decide_true, Bool.true_and]
    congr 1
    · apply decide_eq_decide.mpr
      split <;> omega
    · apply decide_eq_decide.mpr
      split <;> omega
  · simp [hi]

/-! ### Ranges, bit by bit -/

theorem word_of_mem {first count s : ℕ} (h1 : first ≤ s) (h2 : s < first + count) :
    first / w ≤ s / w ∧ s / w ≤ (first + count - 1) / w :=
  ⟨Nat.div_le_div_right h1, Nat.div_le_div_right (by omega)⟩

/-- **Updating a range changes exactly its bits.** -/
theorem get_updateRange (hw : 0 < w) (v : Bitmap w) (first count : ℕ) (b : Bool) (s : ℕ) :
    get (updateRange v first count b) s =
      if first ≤ s ∧ s < first + count then b else get v s := by
  have hlt : s % w < w := Nat.mod_lt s hw
  have hs : s / w * w + s % w = s := Nat.div_add_mod' s w
  have hbit : (wordMask w first (first + count) (s / w)).getLsbD (s % w) =
      decide (first ≤ s ∧ s < first + count) := by
    rw [getLsbD_wordMask, hs]
    by_cases h1 : first ≤ s <;> by_cases h2 : s < first + count <;> simp [hlt, h1, h2]
  unfold get updateRange
  by_cases hin : first ≤ s ∧ s < first + count
  · rw [if_pos (word_of_mem hin.1 hin.2), if_pos hin]
    cases b <;> simp [hbit, hin]
  · rw [if_neg hin]
    have hbit' : (wordMask w first (first + count) (s / w)).getLsbD (s % w) = false := by
      rw [hbit]; simpa using hin
    split
    · cases b
      · simp only [Bool.false_eq_true, ↓reduceIte, BitVec.getLsbD_and, BitVec.getLsbD_not, hbit']
        simp [hlt]
      · simp only [↓reduceIte, BitVec.getLsbD_or, hbit', Bool.or_false]
    · rfl

/-- A word covers its mask when each selected bit is set. -/
theorem and_mask_eq_iff (x mask : BitVec w) :
    x &&& mask = mask ↔ ∀ i < w, mask.getLsbD i = true → x.getLsbD i = true := by
  constructor
  · intro h i _ hm
    have := congrArg (fun y => y.getLsbD i) h
    simpa [hm] using this
  · intro h
    apply BitVec.eq_of_getLsbD_eq
    intro i hi
    rw [BitVec.getLsbD_and]
    cases hm : mask.getLsbD i with
    | false => simp
    | true => simp [h i hi hm]

/-- **A tested range is valid exactly when each of its bits is.** -/
theorem testRange_iff (hw : 0 < w) (v : Bitmap w) (first count : ℕ) :
    testRange v first count = true ↔ ∀ s, first ≤ s → s < first + count → get v s = true := by
  simp only [testRange, List.all_eq_true, List.mem_range'_1, beq_iff_eq, and_mask_eq_iff,
    getLsbD_wordMask]
  constructor
  · intro h s h1 h2
    have hword := word_of_mem (w := w) h1 h2
    refine h (s / w) ⟨hword.1, by omega⟩ (s % w) (Nat.mod_lt s hw) ?_
    simp [Nat.div_add_mod', Nat.mod_lt s hw, h1, h2]
  · intro h word _ i hi hm
    simp only [hi, decide_true, Bool.true_and, Bool.and_eq_true, decide_eq_true_eq] at hm
    have := h (word * w + i) hm.1 hm.2
    rwa [get, Nat.mul_comm, Nat.mul_add_div hw, Nat.div_eq_of_lt hi, Nat.add_zero, Nat.mul_add_mod,
      Nat.mod_eq_of_lt hi] at this

end Bitmap
