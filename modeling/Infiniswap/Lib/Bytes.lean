/-
# Byte strings read with bounds

Integers in big-endian order, and computations that read a byte string by
position. An access outside the string is a fault, apart from the errors the
computation reports, so that a computation that never faults looks only at
positions inside. What is read inside a string is a slice of it, and the slices
of consecutive fields put together are the string again.

Key definitions: `toBytes`, `ofBytes`, `slice`, `Checked`, `Checked.Gives`, `readBytes`, `readZero`,
`pad`. Key theorems: `ofBytes_toBytes`, `toBytes_ofBytes`, `slice_append`, `Checked.Gives.bind`,
`readBytes_eq`, `flatMap_eq_slice`. -/
import Mathlib.Data.List.GetD
import Mathlib.Data.Nat.ModEq
import Mathlib.Tactic.Ring

namespace Bytes

/-! ### Integers -/

/-- The low `w` bytes of a number, the highest first. -/
def toBytes : ℕ → ℕ → List UInt8
  | 0, _ => []
  | w + 1, n => UInt8.ofNat (n / 256 ^ w) :: toBytes w n

/-- The number bytes stand for, the highest first. -/
def ofBytes (l : List UInt8) : ℕ := l.foldl (fun v b => 256 * v + b.toNat) 0

@[simp] theorem length_toBytes : ∀ w n : ℕ, (toBytes w n).length = w
  | 0, _ => rfl
  | w + 1, n => by rw [toBytes, List.length_cons, length_toBytes]

theorem foldl_bytes : ∀ (l : List UInt8) (v : ℕ),
    l.foldl (fun v b => 256 * v + b.toNat) v = v * 256 ^ l.length + ofBytes l
  | [], v => by simp [ofBytes]
  | b :: l, v => by
    rw [ofBytes, List.foldl_cons, List.foldl_cons, foldl_bytes l, foldl_bytes l, List.length_cons,
      pow_succ]
    ring

theorem ofBytes_cons (b : UInt8) (l : List UInt8) :
    ofBytes (b :: l) = b.toNat * 256 ^ l.length + ofBytes l := by
  rw [ofBytes, List.foldl_cons, foldl_bytes]
  ring

theorem ofBytes_lt : ∀ l : List UInt8, ofBytes l < 256 ^ l.length
  | [] => by simp [ofBytes]
  | b :: l => by
    have hl := ofBytes_lt l
    have hb : b.toNat + 1 ≤ 256 := UInt8.toNat_lt b
    calc ofBytes (b :: l) = b.toNat * 256 ^ l.length + ofBytes l := ofBytes_cons b l
      _ < b.toNat * 256 ^ l.length + 256 ^ l.length := by omega
      _ = (b.toNat + 1) * 256 ^ l.length := by ring
      _ ≤ 256 * 256 ^ l.length := Nat.mul_le_mul_right _ hb
      _ = 256 ^ (b :: l).length := by rw [List.length_cons, pow_succ, mul_comm]

/-- **Reading back the bytes of a number.** -/
theorem ofBytes_toBytes : ∀ w n : ℕ, ofBytes (toBytes w n) = n % 256 ^ w
  | 0, n => by simp [toBytes, ofBytes, Nat.mod_one]
  | w + 1, n => by
    have hb : (UInt8.ofNat (n / 256 ^ w)).toNat = n / 256 ^ w % 256 := UInt8.toNat_ofNat'
    rw [toBytes, ofBytes_cons, ofBytes_toBytes w, length_toBytes, hb, Nat.mod_pow_succ]
    ring

/-- Only the low bytes count. -/
theorem toBytes_add_mul : ∀ w c n : ℕ, toBytes w (c * 256 ^ w + n) = toBytes w n
  | 0, _, _ => rfl
  | w + 1, c, n => by
    have hpos : 0 < 256 ^ w := Nat.pow_pos (by decide)
    have hsplit : c * 256 ^ (w + 1) + n = c * 256 * 256 ^ w + n := by ring
    have hhead : (c * 256 * 256 ^ w + n) / 256 ^ w = c * 256 + n / 256 ^ w := by
      rw [Nat.add_comm, Nat.add_mul_div_right _ _ hpos, Nat.add_comm]
    rw [toBytes, toBytes, hsplit, hhead, toBytes_add_mul w]
    congr 1
    apply UInt8.toNat_inj.mp
    rw [UInt8.toNat_ofNat', UInt8.toNat_ofNat']
    omega

/-- **The bytes of a number that was read are those that were read.** -/
theorem toBytes_ofBytes : ∀ l : List UInt8, toBytes l.length (ofBytes l) = l
  | [] => rfl
  | b :: l => by
    have hpos : 0 < 256 ^ l.length := Nat.pow_pos (by decide)
    have hhead : (b.toNat * 256 ^ l.length + ofBytes l) / 256 ^ l.length = b.toNat := by
      rw [Nat.add_comm, Nat.add_mul_div_right _ _ hpos, Nat.div_eq_of_lt (ofBytes_lt l), Nat.zero_add]
    rw [List.length_cons, toBytes, ofBytes_cons, hhead, toBytes_add_mul, toBytes_ofBytes l]
    congr 1
    exact UInt8.ofNat_toNat

def putU16 (v : UInt16) : List UInt8 := toBytes 2 v.toNat

def putU32 (v : UInt32) : List UInt8 := toBytes 4 v.toNat

def putU64 (v : UInt64) : List UInt8 := toBytes 8 v.toNat

def u16 (l : List UInt8) : UInt16 := UInt16.ofNat (ofBytes l)

def u32 (l : List UInt8) : UInt32 := UInt32.ofNat (ofBytes l)

def u64 (l : List UInt8) : UInt64 := UInt64.ofNat (ofBytes l)

@[simp] theorem length_putU16 (v : UInt16) : (putU16 v).length = 2 := length_toBytes 2 _

@[simp] theorem length_putU32 (v : UInt32) : (putU32 v).length = 4 := length_toBytes 4 _

@[simp] theorem length_putU64 (v : UInt64) : (putU64 v).length = 8 := length_toBytes 8 _

@[simp] theorem u16_putU16 (v : UInt16) : u16 (putU16 v) = v := by
  have hlt : v.toNat < 256 ^ 2 := v.toNat_lt
  rw [u16, putU16, ofBytes_toBytes, Nat.mod_eq_of_lt hlt, UInt16.ofNat_toNat]

@[simp] theorem u32_putU32 (v : UInt32) : u32 (putU32 v) = v := by
  have hlt : v.toNat < 256 ^ 4 := v.toNat_lt
  rw [u32, putU32, ofBytes_toBytes, Nat.mod_eq_of_lt hlt, UInt32.ofNat_toNat]

@[simp] theorem u64_putU64 (v : UInt64) : u64 (putU64 v) = v := by
  have hlt : v.toNat < 256 ^ 8 := v.toNat_lt
  rw [u64, putU64, ofBytes_toBytes, Nat.mod_eq_of_lt hlt, UInt64.ofNat_toNat]

theorem putU16_u16 {l : List UInt8} (h : l.length = 2) : putU16 (u16 l) = l := by
  have hlt := ofBytes_lt l
  rw [h] at hlt
  rw [putU16, u16, UInt16.toNat_ofNat_of_lt' hlt, ← h, toBytes_ofBytes]

theorem putU32_u32 {l : List UInt8} (h : l.length = 4) : putU32 (u32 l) = l := by
  have hlt := ofBytes_lt l
  rw [h] at hlt
  rw [putU32, u32, UInt32.toNat_ofNat_of_lt' hlt, ← h, toBytes_ofBytes]

theorem putU64_u64 {l : List UInt8} (h : l.length = 8) : putU64 (u64 l) = l := by
  have hlt := ofBytes_lt l
  rw [h] at hlt
  rw [putU64, u64, UInt64.toNat_ofNat_of_lt' hlt, ← h, toBytes_ofBytes]

/-! ### Slices -/

/-- The `n` bytes from position `p` on. -/
def slice {α : Type*} (l : List α) (p n : ℕ) : List α := (l.drop p).take n

section Slices

variable {α β : Type*} {l l' : List α} {p n m : ℕ}

theorem slice_all (h : l.length = n) : slice l 0 n = l := by
  rw [slice, List.drop_zero, ← h, List.take_length]

theorem slice_append (l : List α) (p n m : ℕ) : slice l p n ++ slice l (p + n) m = slice l p (n + m) := by
  rw [slice, slice, slice, List.take_add, List.drop_drop]

/-- Two slices that meet are one. -/
theorem slice_join {q : ℕ} (h : p + n = q) : slice l p n ++ slice l q m = slice l p (n + m) := by
  rw [← h, slice_append]

theorem slice_left (h : n = l.length) : slice (l ++ l') 0 n = l := by
  rw [slice, List.drop_zero, h, List.take_left]

/-- A table whose entries stand one after the other is a slice. -/
theorem flatMap_eq_slice (f : β → List α) {w : ℕ} : ∀ {t : List β} {p : ℕ},
    (∀ {i e}, t[i]? = some e → slice l (p + i * w) w = f e) → t.flatMap f = slice l p (t.length * w)
  | [], p, _ => by simp [slice]
  | d :: t, p, h => by
    have hd : slice l p w = f d := by
      have h0 := h (List.getElem?_cons_zero (a := d) (l := t))
      rwa [Nat.zero_mul, Nat.add_zero] at h0
    have ht : t.flatMap f = slice l (p + w) (t.length * w) := by
      refine flatMap_eq_slice f fun {i e} hi => ?_
      have hs := h (List.getElem?_cons_succ.trans hi)
      rwa [Nat.succ_mul, Nat.add_comm (i * w), ← Nat.add_assoc] at hs
    rw [List.flatMap_cons, ← hd, ht, slice_append, List.length_cons, Nat.succ_mul, Nat.add_comm w]

theorem length_flatMap_of_length (f : β → List α) {w : ℕ} : ∀ (t : List β), (∀ e ∈ t, (f e).length = w) →
    (t.flatMap f).length = t.length * w
  | [], _ => by simp
  | d :: t, hw => by
    rw [List.flatMap_cons, List.length_append, hw d List.mem_cons_self, length_flatMap_of_length f t
      fun e he => hw e (List.mem_cons_of_mem _ he), List.length_cons, Nat.succ_mul]
    omega

end Slices

/-! ### Checked computations -/

/-- What a computation on a byte string ends in: an access outside its memory, an error it reports,
or a value. -/
inductive Checked (ε α : Type)
  | fault
  | error (e : ε)
  | ok (a : α)
  deriving DecidableEq

namespace Checked

variable {ε α β : Type}

protected def bind : Checked ε α → (α → Checked ε β) → Checked ε β
  | .fault, _ => .fault
  | .error e, _ => .error e
  | .ok a, f => f a

instance : Monad (Checked ε) where
  pure := .ok
  bind := Checked.bind

@[simp] theorem ok_bind (a : α) (f : α → Checked ε β) : ((.ok a : Checked ε α) >>= f) = f a := rfl

@[simp] theorem error_bind (e : ε) (f : α → Checked ε β) :
    ((.error e : Checked ε α) >>= f) = .error e := rfl

@[simp] theorem pure_eq (a : α) : (pure a : Checked ε α) = .ok a := rfl

variable {x : Checked ε α} {f : α → Checked ε β}

theorem bind_eq_ok {b : β} (h : (x >>= f) = .ok b) :
    ∃ a, x = .ok a ∧ f a = .ok b := by
  cases x with
  | fault => cases h
  | error e => cases h
  | ok a => exact ⟨a, rfl, h⟩

/-- No access outside. -/
def Safe (x : Checked ε α) : Prop := x ≠ .fault

/-- No access outside, and what is returned has the property. -/
def Gives (x : Checked ε α) (P : α → Prop) : Prop := x.Safe ∧ ∀ a, x = .ok a → P a

section Gives

variable {P : α → Prop} {Q : β → Prop}

theorem gives_ok {a : α} (h : P a) : (.ok a : Checked ε α).Gives P :=
  ⟨nofun, fun _ he => Checked.ok.inj he ▸ h⟩

theorem gives_error (e : ε) : (.error e : Checked ε α).Gives P := ⟨nofun, nofun⟩

/-- **The rule for one computation after the other.** -/
theorem Gives.bind (hx : x.Gives P) (hf : ∀ a, P a → (f a).Gives Q) :
    (x >>= f).Gives Q := by
  cases x with
  | fault => exact absurd rfl hx.1
  | error e => exact gives_error e
  | ok a => exact hf a (hx.2 a rfl)

theorem Gives.mono {P' : α → Prop} (hx : x.Gives P) (h : ∀ a, P a → P' a) : x.Gives P' :=
  ⟨hx.1, fun a ha => h a (hx.2 a ha)⟩

end Gives

/-- A safe computation that gives no value reports an error. -/
theorem Safe.error_of_not_ok (hx : x.Safe) (h : ∀ a, x ≠ .ok a) : ∃ e, x = .error e := by
  cases x with
  | fault => exact absurd rfl hx
  | error e => exact ⟨e, rfl⟩
  | ok a => exact absurd rfl (h a)

end Checked

/-! ### Reading -/

section Reading

variable {ε : Type} {l : List UInt8} {p n : ℕ}

def read (l : List UInt8) (p : ℕ) : Checked ε UInt8 :=
  match l[p]? with
  | some b => .ok b
  | none => .fault

def readBytes (l : List UInt8) : ℕ → ℕ → Checked ε (List UInt8)
  | _, 0 => .ok []
  | p, n + 1 => do
    let b ← read l p
    let bs ← readBytes l (p + 1) n
    pure (b :: bs)

def readU16 (l : List UInt8) (p : ℕ) : Checked ε UInt16 := do return u16 (← readBytes l p 2)

def readU32 (l : List UInt8) (p : ℕ) : Checked ε UInt32 := do return u32 (← readBytes l p 4)

def readU64 (l : List UInt8) (p : ℕ) : Checked ε UInt64 := do return u64 (← readBytes l p 8)

/-- Whether the `n` bytes from position `p` on are zero; it looks no further than the first that is
not. -/
def readZero (l : List UInt8) : ℕ → ℕ → Checked ε Bool
  | _, 0 => .ok true
  | p, n + 1 => do
    let b ← read l p
    if b ≠ 0 then pure false else readZero l (p + 1) n

theorem read_eq (h : p < l.length) : (read l p : Checked ε UInt8) = .ok (l.getD p 0) := by
  rw [read, List.getElem?_eq_getElem h, List.getD_eq_getElem l 0 h]

theorem slice_succ (h : p < l.length) : slice l p (n + 1) = l.getD p 0 :: slice l (p + 1) n := by
  rw [slice, List.drop_eq_getElem_cons h, List.take_succ_cons, List.getD_eq_getElem l 0 h, slice]

/-- **What is read inside a string is a slice of it.** -/
theorem readBytes_eq :
    ∀ {n p : ℕ}, p + n ≤ l.length → (readBytes l p n : Checked ε (List UInt8)) = .ok (slice l p n)
  | 0, _, _ => by simp [readBytes, slice]
  | n + 1, p, h => by
    have hp : p < l.length := by omega
    rw [readBytes, read_eq hp, Checked.ok_bind, readBytes_eq (by omega), slice_succ hp]
    rfl

theorem readU16_eq (h : p + 2 ≤ l.length) :
    (readU16 l p : Checked ε UInt16) = .ok (u16 (slice l p 2)) := by
  rw [readU16, readBytes_eq h]
  rfl

theorem readU32_eq (h : p + 4 ≤ l.length) :
    (readU32 l p : Checked ε UInt32) = .ok (u32 (slice l p 4)) := by
  rw [readU32, readBytes_eq h]
  rfl

theorem readU64_eq (h : p + 8 ≤ l.length) :
    (readU64 l p : Checked ε UInt64) = .ok (u64 (slice l p 8)) := by
  rw [readU64, readBytes_eq h]
  rfl

theorem readZero_eq : ∀ {n p : ℕ}, p + n ≤ l.length →
    (readZero l p n : Checked ε Bool) = .ok (decide (slice l p n = List.replicate n 0))
  | 0, _, _ => by simp [readZero, slice]
  | n + 1, p, h => by
    have hp : p < l.length := by omega
    rw [readZero, read_eq hp, Checked.ok_bind, slice_succ hp, List.replicate_succ]
    by_cases hb : l.getD p 0 = 0
    · rw [if_neg (not_not.mpr hb), readZero_eq (by omega), hb]
      simp
    · rw [if_pos hb, decide_eq_false]
      · rfl
      · intro he
        exact hb (List.cons.inj he).1

/-! What a read inside a string finds. -/

theorem length_slice (h : p + n ≤ l.length) : (slice l p n).length = n := by
  rw [slice, List.length_take, List.length_drop]
  omega

theorem read_gives (h : p < l.length) :
    (read l p : Checked ε UInt8).Gives fun b => slice l p 1 = [b] := by
  rw [read_eq h]
  refine Checked.gives_ok ?_
  rw [slice_succ h, slice, List.take_zero]

theorem readU16_gives (h : p + 2 ≤ l.length) :
    (readU16 l p : Checked ε UInt16).Gives fun v => slice l p 2 = putU16 v := by
  rw [readU16_eq h]
  exact Checked.gives_ok (putU16_u16 (length_slice h)).symm

theorem readU32_gives (h : p + 4 ≤ l.length) :
    (readU32 l p : Checked ε UInt32).Gives fun v => slice l p 4 = putU32 v := by
  rw [readU32_eq h]
  exact Checked.gives_ok (putU32_u32 (length_slice h)).symm

theorem readU64_gives (h : p + 8 ≤ l.length) :
    (readU64 l p : Checked ε UInt64).Gives fun v => slice l p 8 = putU64 v := by
  rw [readU64_eq h]
  exact Checked.gives_ok (putU64_u64 (length_slice h)).symm

theorem readZero_gives (h : p + n ≤ l.length) :
    (readZero l p n : Checked ε Bool).Gives fun b => b = true → slice l p n = List.replicate n 0 := by
  rw [readZero_eq h]
  exact Checked.gives_ok of_decide_eq_true

/-! Reading a string that is written field by field: skip the fields before, take the one that is there. -/

section Fields

variable {a : List UInt8} {b : UInt8}

@[simp] theorem read_skip (h : a.length ≤ p) :
    (read (a ++ l) p : Checked ε UInt8) = read l (p - a.length) := by
  rw [read, List.getElem?_append_right h, read]

@[simp] theorem read_cons_zero : (read (b :: l) 0 : Checked ε UInt8) = .ok b := rfl

@[simp] theorem read_cons_succ : (read (b :: l) (p + 1) : Checked ε UInt8) = read l p := rfl

@[simp] theorem readBytes_skip : ∀ {n p : ℕ}, a.length ≤ p →
    (readBytes (a ++ l) p n : Checked ε (List UInt8)) = readBytes l (p - a.length) n
  | 0, _, _ => rfl
  | n + 1, p, h => by
    rw [readBytes, readBytes, read_skip h, readBytes_skip (by omega), Nat.succ_sub h]

theorem readBytes_here (h : n = a.length) :
    (readBytes (a ++ l) 0 n : Checked ε (List UInt8)) = .ok a := by
  rw [readBytes_eq (by rw [List.length_append]; omega), slice_left h]

@[simp] theorem readU16_skip (h : a.length ≤ p) :
    (readU16 (a ++ l) p : Checked ε UInt16) = readU16 l (p - a.length) := by
  rw [readU16, readBytes_skip h, readU16]

@[simp] theorem readU32_skip (h : a.length ≤ p) :
    (readU32 (a ++ l) p : Checked ε UInt32) = readU32 l (p - a.length) := by
  rw [readU32, readBytes_skip h, readU32]

@[simp] theorem readU64_skip (h : a.length ≤ p) :
    (readU64 (a ++ l) p : Checked ε UInt64) = readU64 l (p - a.length) := by
  rw [readU64, readBytes_skip h, readU64]

@[simp] theorem readU16_here (v : UInt16) : (readU16 (putU16 v ++ l) 0 : Checked ε UInt16) = .ok v := by
  rw [readU16, readBytes_here (length_putU16 v).symm, Checked.ok_bind, u16_putU16]
  rfl

@[simp] theorem readU32_here (v : UInt32) : (readU32 (putU32 v ++ l) 0 : Checked ε UInt32) = .ok v := by
  rw [readU32, readBytes_here (length_putU32 v).symm, Checked.ok_bind, u32_putU32]
  rfl

@[simp] theorem readU64_here (v : UInt64) : (readU64 (putU64 v ++ l) 0 : Checked ε UInt64) = .ok v := by
  rw [readU64, readBytes_here (length_putU64 v).symm, Checked.ok_bind, u64_putU64]
  rfl

@[simp] theorem readU32_last (v : UInt32) : (readU32 (putU32 v) 0 : Checked ε UInt32) = .ok v := by
  rw [← List.append_nil (putU32 v), readU32_here]

@[simp] theorem readZero_skip : ∀ {n p : ℕ}, a.length ≤ p →
    (readZero (a ++ l) p n : Checked ε Bool) = readZero l (p - a.length) n
  | 0, _, _ => rfl
  | n + 1, p, h => by
    rw [readZero, readZero, read_skip h, readZero_skip (by omega), Nat.succ_sub h]

@[simp] theorem readZero_cons_succ :
    ∀ {n p : ℕ}, (readZero (b :: l) (p + 1) n : Checked ε Bool) = readZero l p n
  | 0, _ => rfl
  | n + 1, p => by rw [readZero, readZero, read_cons_succ, readZero_cons_succ]

@[simp] theorem readZero_zeros (n : ℕ) :
    (readZero (List.replicate n 0 ++ l) 0 n : Checked ε Bool) = .ok true := by
  rw [readZero_eq (by simp), slice_left (by simp), decide_eq_true rfl]

end Fields

end Reading

/-! ### Arrays of a fixed size -/

/-- The array of size `n` that begins with `l` and is zero afterwards. -/
def pad {α : Type*} [Inhabited α] (n : ℕ) (l : List α) : Vector α n :=
  Vector.ofFn fun i => l.getD i default

theorem toList_pad {α : Type*} [Inhabited α] {n : ℕ} {l : List α} (h : l.length ≤ n) :
    (pad n l).toList = l ++ List.replicate (n - l.length) default := by
  apply List.ext_getElem
  · simp
    omega
  · intro i hi hi'
    simp only [pad, Vector.getElem_toList, Vector.getElem_ofFn]
    by_cases hl : i < l.length
    · rw [List.getD_eq_getElem l _ hl, List.getElem_append_left hl]
    · rw [List.getD_eq_default _ _ (by omega), List.getElem_append_right (by omega),
        List.getElem_replicate]

theorem take_toList_pad {α : Type*} [Inhabited α] {n : ℕ} {l : List α} (h : l.length ≤ n) :
    (pad n l).toList.take l.length = l := by
  rw [toList_pad h, List.take_left]

/-- An array is the array of its own bytes. -/
theorem pad_toList {α : Type*} [Inhabited α] {n : ℕ} (v : Vector α n) : pad n v.toList = v := by
  apply Vector.toList_inj.mp
  rw [toList_pad (by simp)]
  simp

-- the unifier should not look into an array
attribute [irreducible] pad

end Bytes
