/-
# A ledger of resources

A log of what is done with resources, latest entry first. A resource is acquired
once and released once, and in between something may be attached to it, under a
name of its own, and detached again. The log is sound when every entry was allowed
at its time: what is released is held and has nothing attached, what is attached
is attached to something held under a new name, and what is detached is attached.
What is held, and what is attached to what, is read off the log.

Key definitions: `Entry`, `Held`, `Bound`, `Sound`. Key theorems: `sound_acquires`,
`sound_attaches`, `sound_detaches`, `sound_releases`, `Sound.released_once`, `Sound.detached_once`,
`Sound.release_free`. -/
import Mathlib.Data.List.Nodup

namespace Ledger

/-- What is done with resources `α` and with attachments that are named by `β`. -/
inductive Entry (α β : Type*)
  | acquire (x : α)
  | release (x : α)
  | attach (r : β) (x : α)
  | detach (r : β)
  deriving DecidableEq

variable {α β : Type*}

/-- The resource was acquired and not released. -/
def Held (l : List (Entry α β)) (x : α) : Prop := .acquire x ∈ l ∧ .release x ∉ l

/-- The attachment was made to the resource and not removed. -/
def Bound (l : List (Entry α β)) (r : β) (x : α) : Prop := .attach r x ∈ l ∧ .detach r ∉ l

/-- Every entry of the log was allowed when it was made. -/
def Sound : List (Entry α β) → Prop
  | [] => True
  | .acquire x :: l => .acquire x ∉ l ∧ Sound l
  | .release x :: l => (Held l x ∧ ∀ r, ¬Bound l r x) ∧ Sound l
  | .attach r x :: l => (Held l x ∧ ∀ y, .attach r y ∉ l) ∧ Sound l
  | .detach r :: l => (∃ x, Bound l r x) ∧ Sound l

variable {l : List (Entry α β)}

theorem Sound.tail : ∀ {e : Entry α β}, Sound (e :: l) → Sound l
  | .acquire _, h => h.2
  | .release _, h => h.2
  | .attach _ _, h => h.2
  | .detach _, h => h.2

/-! ### What is held and what is attached -/

theorem Sound.acquired_of_released :
    ∀ {l : List (Entry α β)}, Sound l → ∀ {x : α}, .release x ∈ l → .acquire x ∈ l
  | e :: l, h, x, hx => by
    rcases List.mem_cons.mp hx with rfl | hx
    · exact List.mem_cons_of_mem _ h.1.1.1
    · exact List.mem_cons_of_mem _ (h.tail.acquired_of_released hx)

theorem Sound.attached_of_detached :
    ∀ {l : List (Entry α β)}, Sound l → ∀ {r : β}, .detach r ∈ l → ∃ x, .attach r x ∈ l
  | e :: l, h, r, hr => by
    rcases List.mem_cons.mp hr with rfl | hr
    · obtain ⟨x, hx⟩ := h.1
      exact ⟨x, List.mem_cons_of_mem _ hx.1⟩
    · obtain ⟨x, hx⟩ := h.tail.attached_of_detached hr
      exact ⟨x, List.mem_cons_of_mem _ hx⟩

/-- A name stands for one attachment. -/
theorem Sound.attach_unique : ∀ {l : List (Entry α β)}, Sound l → ∀ {r : β} {x y : α}, .attach r x ∈ l →
    .attach r y ∈ l → x = y
  | e :: l, h, r, x, y, hx, hy => by
    rcases List.mem_cons.mp hx with rfl | hold
    · rcases List.mem_cons.mp hy with heq | hy
      · cases heq
        rfl
      · exact absurd hy (h.1.2 y)
    · rcases List.mem_cons.mp hy with rfl | hy
      · exact absurd hold (h.1.2 x)
      · exact h.tail.attach_unique hold hy

/-- Nothing is attached to what is not held. -/
theorem Sound.held_of_bound :
    ∀ {l : List (Entry α β)}, Sound l → ∀ {r : β} {x : α}, Bound l r x → Held l x
  | .acquire y :: l, h, r, x, hb => by
    have hheld := h.tail.held_of_bound (r := r) (x := x) (by simpa [Bound] using hb)
    exact ⟨List.mem_cons_of_mem _ hheld.1, by simpa using hheld.2⟩
  | .release y :: l, h, r, x, hb => by
    have hbound : Bound l r x := by simpa [Bound] using hb
    have hheld := h.tail.held_of_bound hbound
    refine ⟨List.mem_cons_of_mem _ hheld.1, fun hx => ?_⟩
    rcases List.mem_cons.mp hx with heq | hx
    · cases heq
      exact h.1.2 r hbound
    · exact hheld.2 hx
  | .attach s y :: l, h, r, x, hb => by
    by_cases hnew : Entry.attach r x = Entry.attach s y
    · cases hnew
      exact ⟨List.mem_cons_of_mem _ h.1.1.1, by simpa using h.1.1.2⟩
    · have hbound : Bound l r x :=
        ⟨(List.mem_cons.mp hb.1).resolve_left hnew, fun hr => hb.2 (List.mem_cons_of_mem _ hr)⟩
      have hheld := h.tail.held_of_bound hbound
      exact ⟨List.mem_cons_of_mem _ hheld.1, by simpa using hheld.2⟩
  | .detach s :: l, h, r, x, hb => by
    have hbound : Bound l r x := ⟨by simpa using hb.1, fun hr => hb.2 (List.mem_cons_of_mem _ hr)⟩
    have hheld := h.tail.held_of_bound hbound
    exact ⟨List.mem_cons_of_mem _ hheld.1, by simpa using hheld.2⟩

/-! ### Many entries of a kind -/

/-- Different resources that are new are acquired. -/
theorem sound_acquires (h : Sound l) (xs : List α) (hnodup : xs.Nodup) (hnew : ∀ x ∈ xs, .acquire x ∉ l) :
    Sound (xs.map Entry.acquire ++ l) ∧ (∀ x, Held (xs.map Entry.acquire ++ l) x ↔ Held l x ∨ x ∈ xs) ∧
      ∀ r x, Bound (xs.map Entry.acquire ++ l) r x ↔ Bound l r x := by
  refine ⟨?_, fun x => ?_, fun r x => by simp [Bound]⟩
  · induction xs with
    | nil => exact h
    | cons x xs ih =>
      obtain ⟨hx, hnodup⟩ := List.nodup_cons.mp hnodup
      obtain ⟨hfresh, hnew⟩ := List.forall_mem_cons.mp hnew
      refine ⟨fun hmem => ?_, ih hnodup hnew⟩
      rcases List.mem_append.mp hmem with hmem | hmem
      · obtain ⟨y, hy, heq⟩ := List.mem_map.mp hmem
        cases heq
        exact hx hy
      · exact hfresh hmem
  · have hreleased : Entry.release x ∈ xs.map Entry.acquire ++ l ↔ .release x ∈ l := by simp
    have hacquired : Entry.acquire x ∈ xs.map Entry.acquire ++ l ↔ x ∈ xs ∨ .acquire x ∈ l := by simp
    rw [Held, Held, hreleased, hacquired]
    constructor
    · rintro ⟨hx | hx, hr⟩
      · exact .inr hx
      · exact .inl ⟨hx, hr⟩
    · rintro (⟨hx, hr⟩ | hx)
      · exact ⟨.inr hx, hr⟩
      · exact ⟨.inl hx, fun hr => hnew x hx (h.acquired_of_released hr)⟩

/-- Attachments with different names that are new are made to what is held. -/
theorem sound_attaches (h : Sound l) (bs : List (β × α)) (hnodup : (bs.map (·.1)).Nodup)
    (hnew : ∀ b ∈ bs, Held l b.2 ∧ ∀ y, .attach b.1 y ∉ l) :
    Sound (bs.map (fun b => Entry.attach b.1 b.2) ++ l) ∧
      (∀ x, Held (bs.map (fun b => Entry.attach b.1 b.2) ++ l) x ↔ Held l x) ∧
      ∀ r x, Bound (bs.map (fun b => Entry.attach b.1 b.2) ++ l) r x ↔ Bound l r x ∨ (r, x) ∈ bs := by
  have hheld (bs : List (β × α)) (x : α) :
      Held (bs.map (fun b => Entry.attach b.1 b.2) ++ l) x ↔ Held l x := by simp [Held]
  refine ⟨?_, hheld bs, fun r x => ?_⟩
  · induction bs with
    | nil => exact h
    | cons b bs ih =>
      obtain ⟨hb, hnodup⟩ := List.nodup_cons.mp hnodup
      obtain ⟨⟨hx, hfresh⟩, hnew⟩ := List.forall_mem_cons.mp hnew
      refine ⟨⟨(hheld bs b.2).mpr hx, fun y hmem => ?_⟩, ih hnodup hnew⟩
      rcases List.mem_append.mp hmem with hmem | hmem
      · obtain ⟨c, hc, heq⟩ := List.mem_map.mp hmem
        exact hb (List.mem_map.mpr ⟨c, hc, (Entry.attach.inj heq).1⟩)
      · exact hfresh y hmem
  · have hdetached : Entry.detach r ∈ bs.map (fun b => Entry.attach b.1 b.2) ++ l ↔
        .detach r ∈ l := by simp
    have hattached : Entry.attach r x ∈ bs.map (fun b => Entry.attach b.1 b.2) ++ l ↔ (r, x) ∈ bs ∨
        .attach r x ∈ l := by
      rw [List.mem_append, List.mem_map]
      refine or_congr_left ⟨?_, fun hb => ⟨_, hb, rfl⟩⟩
      rintro ⟨b, hb, heq⟩
      cases heq
      exact hb
    rw [Bound, Bound, hdetached, hattached]
    constructor
    · rintro ⟨hx | hx, hr⟩
      · exact .inr hx
      · exact .inl ⟨hx, hr⟩
    · rintro (⟨hx, hr⟩ | hx)
      · exact ⟨.inr hx, hr⟩
      · refine ⟨.inl hx, fun hr => ?_⟩
        obtain ⟨y, hy⟩ := h.attached_of_detached hr
        exact (hnew _ hx).2 y hy

/-- Different attachments are removed. -/
theorem sound_detaches (h : Sound l) (rs : List β) (hnodup : rs.Nodup)
    (hbound : ∀ r ∈ rs, ∃ x, Bound l r x) :
    Sound (rs.map Entry.detach ++ l) ∧ (∀ x, Held (rs.map Entry.detach ++ l) x ↔ Held l x) ∧
      ∀ r x, Bound (rs.map Entry.detach ++ l) r x ↔ Bound l r x ∧ r ∉ rs := by
  have hiff (rs : List β) (r : β) (x : α) : Bound (rs.map Entry.detach ++ l) r x ↔ Bound l r x ∧
      r ∉ rs := by
    simp only [Bound, List.mem_append, List.mem_map, Entry.detach.injEq, exists_eq_right, not_or,
      reduceCtorEq, and_false, exists_false, false_or]
    tauto
  refine ⟨?_, fun x => by simp [Held], hiff rs⟩
  induction rs with
  | nil => exact h
  | cons r rs ih =>
    obtain ⟨hr, hnodup⟩ := List.nodup_cons.mp hnodup
    obtain ⟨⟨x, hx⟩, hbound⟩ := List.forall_mem_cons.mp hbound
    exact ⟨⟨x, (hiff rs r x).mpr ⟨hx, hr⟩⟩, ih hnodup hbound⟩

/-- Different resources are released that are held and have nothing attached. -/
theorem sound_releases (h : Sound l) (xs : List α) (hnodup : xs.Nodup)
    (hfree : ∀ x ∈ xs, Held l x ∧ ∀ r, ¬Bound l r x) :
    Sound (xs.map Entry.release ++ l) ∧ (∀ x, Held (xs.map Entry.release ++ l) x ↔ Held l x ∧ x ∉ xs) ∧
      ∀ r x, Bound (xs.map Entry.release ++ l) r x ↔ Bound l r x := by
  have hiff (xs : List α) (x : α) : Held (xs.map Entry.release ++ l) x ↔ Held l x ∧ x ∉ xs := by
    simp only [Held, List.mem_append, List.mem_map, Entry.release.injEq, exists_eq_right, not_or,
      reduceCtorEq, and_false, exists_false, false_or]
    tauto
  have hbound (xs : List α) (r : β) (x : α) : Bound (xs.map Entry.release ++ l) r x ↔
      Bound l r x := by simp [Bound]
  refine ⟨?_, hiff xs, hbound xs⟩
  induction xs with
  | nil => exact h
  | cons x xs ih =>
    obtain ⟨hx, hnodup⟩ := List.nodup_cons.mp hnodup
    obtain ⟨⟨hheld, hnone⟩, hfree⟩ := List.forall_mem_cons.mp hfree
    exact ⟨⟨(hiff xs x).mpr ⟨hheld, hx⟩, fun r hr => hnone r ((hbound xs r x).mp hr)⟩, ih hnodup hfree⟩

/-! ### What a sound log says -/

section Count

variable [DecidableEq α] [DecidableEq β]

theorem Sound.count_release_le : ∀ {l : List (Entry α β)}, Sound l → ∀ x, l.count (.release x) ≤ 1
  | [], _, _ => Nat.zero_le _
  | e :: l, h, x => by
    by_cases he : e = .release x
    · subst he
      have hzero := List.count_eq_zero.mpr h.1.1.2
      rw [List.count_cons_self]
      omega
    · rw [List.count_cons_of_ne he]
      exact h.tail.count_release_le x

theorem Sound.count_detach_le : ∀ {l : List (Entry α β)}, Sound l → ∀ r, l.count (.detach r) ≤ 1
  | [], _, _ => Nat.zero_le _
  | e :: l, h, r => by
    by_cases he : e = .detach r
    · subst he
      obtain ⟨x, hx⟩ := h.1
      have hzero := List.count_eq_zero.mpr hx.2
      rw [List.count_cons_self]
      omega
    · rw [List.count_cons_of_ne he]
      exact h.tail.count_detach_le r

/-- **What was acquired and is not held was released once.** -/
theorem Sound.released_once (h : Sound l) {x : α} (hx : .acquire x ∈ l) (hheld : ¬Held l x) :
    l.count (.release x) = 1 := by
  have hmem : .release x ∈ l := by
    by_contra hr
    exact hheld ⟨hx, hr⟩
  exact Nat.le_antisymm (h.count_release_le x) (List.count_pos_iff.mpr hmem)

/-- **An attachment that is not there any more was removed once.** -/
theorem Sound.detached_once (h : Sound l) {r : β} {x : α} (hx : .attach r x ∈ l) (hbound : ¬Bound l r x) :
    l.count (.detach r) = 1 := by
  have hmem : .detach r ∈ l := by
    by_contra hr
    exact hbound ⟨hx, hr⟩
  exact Nat.le_antisymm (h.count_detach_le r) (List.count_pos_iff.mpr hmem)

end Count

/-- **Nothing is attached to a resource when it is released.** -/
theorem Sound.release_free :
    ∀ {later earlier : List (Entry α β)} {x : α}, Sound (later ++ .release x :: earlier) →
    ∀ r, ¬Bound earlier r x
  | [], _, _, h => h.1.2
  | _ :: _, _, _, h => h.tail.release_free

end Ledger
