import Mathlib.Data.List.Basic
import Mathlib.Data.List.ModifyLast

/-!
# Lists that spill

A list with `N` slots inside its object and the further ones in a heap array that is
extended by eight slots whenever the next entry would not fit.  The length of the heap
array is a function of the number of entries, so the entry counted last always lies in
one of the slots.
-/

namespace GbStream.Support

structure Growable (α : Type) (N : Nat) where
  count : Nat
  inline : Vector α N
  ptr : List (Option α)
  capacity_eq : ptr.length = 8 * ((count - N + 7) / 8)

namespace Growable

variable {α β : Type} {N : Nat}

def empty [Inhabited α] : Growable α N where
  count := 0
  inline := Vector.replicate N default
  ptr := []
  capacity_eq := by simp

instance [Inhabited α] : Inhabited (Growable α N) := ⟨empty⟩

theorem count_le (g : Growable α N) : g.count ≤ N + g.ptr.length := by
  rw [g.capacity_eq]
  omega

/-- The heap array behind the test for room; new slots hold nothing yet. -/
def reserve (g : Growable α N) : List (Option α) :=
  if g.count ≥ N ∧ g.count - N ≥ g.ptr.length then g.ptr ++ List.replicate 8 none else g.ptr

theorem length_reserve (g : Growable α N) :
    g.reserve.length = 8 * ((g.count + 1 - N + 7) / 8) := by
  have hcapacity := g.capacity_eq
  unfold reserve
  split
  · rw [List.length_append, List.length_replicate]
    omega
  · omega

/-- Store an entry and count it.  Whether the slot is an inline one is decided by the
count, which slot it is by `idx`; `none` is a store outside the array. -/
def storeAt (g : Growable α N) (idx : Nat) (x : α) : Option (Growable α N) :=
  if g.count < N then
    if h : idx < N then
      some ⟨g.count + 1, g.inline.set idx x, g.reserve, g.length_reserve⟩
    else none
  else if N ≤ idx ∧ idx - N < g.reserve.length then
    some
      ⟨g.count + 1, g.inline, g.reserve.set (idx - N) (some x), by
        rw [List.length_set, g.length_reserve]⟩
  else none

def push (g : Growable α N) (x : α) : Growable α N :=
  if h : g.count < N then
    ⟨g.count + 1, g.inline.set g.count x, g.reserve, g.length_reserve⟩
  else
    ⟨g.count + 1, g.inline, g.reserve.set (g.count - N) (some x), by
      rw [List.length_set, g.length_reserve]⟩

def get? (g : Growable α N) (i : Nat) : Option α :=
  if h : i < N then some g.inline[i] else g.ptr[i - N]?.join

def set (g : Growable α N) (i : Nat) (x : α) : Growable α N :=
  if h : i < N then ⟨g.count, g.inline.set i x, g.ptr, g.capacity_eq⟩
  else ⟨g.count, g.inline, g.ptr.set (i - N) (some x), by rw [List.length_set, g.capacity_eq]⟩

/-! ## What the operations do -/

theorem storeAt_count (g : Growable α N) (x : α) : g.storeAt g.count x = some (g.push x) := by
  unfold storeAt push
  by_cases h : g.count < N
  · rw [if_pos h, dif_pos h, dif_pos h]
  · have hlength := g.length_reserve
    rw [if_neg h, dif_neg h, if_pos (by omega)]

@[simp] theorem count_empty [Inhabited α] : (empty : Growable α N).count = 0 := rfl

@[simp] theorem count_push (g : Growable α N) (x : α) : (g.push x).count = g.count + 1 := by
  unfold push
  split <;> rfl

@[simp] theorem count_set (g : Growable α N) (i : Nat) (x : α) : (g.set i x).count = g.count := by
  unfold set
  split <;> rfl

theorem count_of_storeAt {g g' : Growable α N} {idx : Nat} {x : α}
    (h : g.storeAt idx x = some g') : g'.count = g.count + 1 := by
  unfold storeAt at h
  split at h
  · split at h
    · exact Option.some.inj h ▸ rfl
    · cases h
  · split at h
    · exact Option.some.inj h ▸ rfl
    · cases h

/-- Where a store by a foreign index stays inside: at an inline slot before the first
spill, at an existing heap slot behind it. -/
theorem storeAt_isSome {g : Growable α N} {idx : Nat} {x : α} :
    (∃ g', g.storeAt idx x = some g') ↔
      if g.count < N then idx < N
      else N ≤ idx ∧ idx - N < 8 * ((g.count + 1 - N + 7) / 8) := by
  unfold storeAt
  rw [← g.length_reserve]
  split
  · by_cases h : idx < N
    · rw [dif_pos h]
      exact ⟨fun _ => h, fun _ => ⟨_, rfl⟩⟩
    · rw [dif_neg h]
      exact ⟨fun ⟨_, hnone⟩ => (nomatch hnone), fun hlt => absurd hlt h⟩
  · split
    · rename_i h
      exact ⟨fun _ => h, fun _ => ⟨_, rfl⟩⟩
    · rename_i h
      exact ⟨fun ⟨_, hnone⟩ => (nomatch hnone), fun hlt => absurd hlt h⟩

theorem get?_inline {g : Growable α N} {i : Nat} (h : i < N) : g.get? i = some g.inline[i] :=
  dif_pos h

theorem get?_ptr {g : Growable α N} {i : Nat} (h : N ≤ i) : g.get? i = g.ptr[i - N]?.join :=
  dif_neg (Nat.not_lt.mpr h)

theorem join_getElem?_reserve (g : Growable α N) (i : Nat) :
    g.reserve[i]?.join = g.ptr[i]?.join := by
  unfold reserve
  split
  · rcases Nat.lt_or_ge i g.ptr.length with hi | hi
    · rw [List.getElem?_append_left hi]
    · rw [List.getElem?_append_right hi, List.getElem?_replicate, List.getElem?_eq_none hi]
      split <;> rfl
  · rfl

theorem get?_storeAt_of_ne {g g' : Growable α N} {idx i : Nat} {x : α}
    (h : g.storeAt idx x = some g') (hi : i ≠ idx) : g'.get? i = g.get? i := by
  unfold storeAt at h
  by_cases hN : i < N
  · rw [get?_inline hN, get?_inline hN]
    split at h
    · split at h
      · obtain rfl := Option.some.inj h
        simp only [Vector.getElem_set_ne _ _ (Ne.symm hi)]
      · cases h
    · split at h
      · obtain rfl := Option.some.inj h
        rfl
      · cases h
  · rw [get?_ptr (Nat.not_lt.mp hN), get?_ptr (Nat.not_lt.mp hN)]
    split at h
    · split at h
      · obtain rfl := Option.some.inj h
        exact join_getElem?_reserve g _
      · cases h
    · split at h
      · rename_i hidx
        obtain rfl := Option.some.inj h
        rw [List.getElem?_set_ne (by omega)]
        exact join_getElem?_reserve g _
      · cases h

theorem get?_push_of_lt {g : Growable α N} {i : Nat} (h : i < g.count) (x : α) :
    (g.push x).get? i = g.get? i :=
  get?_storeAt_of_ne (storeAt_count g x) (Nat.ne_of_lt h)

theorem get?_push_count (g : Growable α N) (x : α) : (g.push x).get? g.count = some x := by
  have hlength := g.length_reserve
  unfold push get?
  by_cases hcount : g.count < N
  · rw [dif_pos hcount, dif_pos hcount]
    simp
  · rw [dif_neg hcount, dif_neg hcount]
    simp only []
    rw [List.getElem?_set_self (by omega)]
    rfl

theorem get?_set_of_ne {g : Growable α N} {i j : Nat} (h : i ≠ j) (x : α) :
    (g.set j x).get? i = g.get? i := by
  unfold set get?
  by_cases hj : j < N
  · rw [dif_pos hj]
    by_cases hi : i < N
    · rw [dif_pos hi, dif_pos hi]
      simp only []
      rw [Vector.getElem_set_ne _ _ (by omega)]
    · rw [dif_neg hi, dif_neg hi]
  · rw [dif_neg hj]
    by_cases hi : i < N
    · rw [dif_pos hi, dif_pos hi]
    · rw [dif_neg hi, dif_neg hi]
      simp only []
      rw [List.getElem?_set_ne (by omega)]

theorem get?_set_self {g : Growable α N} {i : Nat} (h : i < g.count) (x : α) :
    (g.set i x).get? i = some x := by
  have hcapacity := g.count_le
  unfold set get?
  by_cases hi : i < N
  · rw [dif_pos hi, dif_pos hi]
    simp
  · rw [dif_neg hi, dif_neg hi]
    simp only []
    rw [List.getElem?_set_self (by omega)]
    rfl

/-! ## Lists that show a list -/

structure Shows (R : α → β → Prop) (g : Growable α N) (xs : List β) : Prop where
  count : g.count = xs.length
  entry : ∀ i x, xs[i]? = some x → ∃ a, g.get? i = some a ∧ R a x

theorem Shows.empty [Inhabited α] {R : α → β → Prop} : Shows R (.empty : Growable α N) [] where
  count := rfl
  entry := fun i x h => by simp at h

theorem Shows.imp {R R' : α → β → Prop} {g : Growable α N} {xs : List β} (h : Shows R g xs)
    (himp : ∀ a x, R a x → R' a x) : Shows R' g xs where
  count := h.count
  entry := fun i x hx =>
    let ⟨a, ha, hR⟩ := h.entry i x hx
    ⟨a, ha, himp a x hR⟩

theorem Shows.push {R : α → β → Prop} {g : Growable α N} {xs : List β} {a : α} {x : β}
    (h : Shows R g xs) (hR : R a x) : Shows R (g.push a) (xs ++ [x]) where
  count := by rw [count_push, h.count, List.length_append, List.length_singleton]
  entry := fun i y hy => by
    rcases Nat.lt_or_ge i xs.length with hi | hi
    · rw [List.getElem?_append_left hi] at hy
      obtain ⟨b, hb, hRb⟩ := h.entry i y hy
      exact ⟨b, (get?_push_of_lt (h.count ▸ hi) a).trans hb, hRb⟩
    · obtain rfl : i = xs.length := by
        have hlt := (List.getElem?_eq_some_iff.mp hy).1
        rw [List.length_append, List.length_singleton] at hlt
        omega
      rw [List.getElem?_concat_length, Option.some.injEq] at hy
      subst hy
      exact ⟨a, h.count ▸ get?_push_count g a, hR⟩

theorem Shows.setLast {R : α → β → Prop} {g : Growable α N} {xs : List β} {a : α} {x y : β}
    (h : Shows R g (xs ++ [x])) (hR : R a y) : Shows R (g.set (g.count - 1) a) (xs ++ [y]) where
  count := by
    rw [count_set, h.count, List.length_append, List.length_append]
    rfl
  entry := fun i z hz => by
    have hcount := h.count
    rw [List.length_append, List.length_singleton] at hcount
    rcases Nat.lt_or_ge i xs.length with hi | hi
    · rw [List.getElem?_append_left hi] at hz
      obtain ⟨b, hb, hRb⟩ := h.entry i z (by rwa [List.getElem?_append_left hi])
      exact ⟨b, (get?_set_of_ne (by omega) a).trans hb, hRb⟩
    · obtain rfl : i = xs.length := by
        have hlt := (List.getElem?_eq_some_iff.mp hz).1
        rw [List.length_append, List.length_singleton] at hlt
        omega
      rw [List.getElem?_concat_length, Option.some.injEq] at hz
      subst hz
      refine ⟨a, ?_, hR⟩
      rw [show xs.length = g.count - 1 by omega]
      exact get?_set_self (by omega) a

theorem Shows.last {R : α → β → Prop} {g : Growable α N} {xs : List β} {x : β}
    (h : Shows R g (xs ++ [x])) : ∃ a, g.get? (g.count - 1) = some a ∧ R a x := by
  refine h.entry _ x ?_
  rw [h.count, List.length_append, List.length_singleton, Nat.add_sub_cancel,
    List.getElem?_concat_length]

/-! ## Entries in their slots -/

def Free (g : Growable α N) : Prop := ∀ k, g.count ≤ k → N ≤ k → g.get? k = none

theorem free_empty [Inhabited α] : (empty : Growable α N).Free := fun _ _ hk => get?_ptr hk

theorem Free.push {g : Growable α N} (h : g.Free) (x : α) : (g.push x).Free := by
  intro k hcount hk
  rw [count_push] at hcount
  rw [get?_storeAt_of_ne (storeAt_count g x) (by omega)]
  exact h k (by omega) hk

theorem set_get? {g : Growable α N} {i : Nat} {x : α} (h : g.get? i = some x) : g.set i x = g := by
  unfold set
  by_cases hi : i < N
  · rw [get?_inline hi] at h
    obtain rfl := Option.some.inj h
    simp [hi]
  · rw [get?_ptr (Nat.not_lt.mp hi), Option.join_eq_some_iff] at h
    have hset : g.ptr.set (i - N) (some x) = g.ptr := by
      obtain ⟨hlt, heq⟩ := List.getElem?_eq_some_iff.mp h
      rw [← heq, List.set_getElem_self]
    simp [hi, hset]

theorem set_set (g : Growable α N) (i : Nat) (x y : α) : (g.set i x).set i y = g.set i y := by
  unfold set
  by_cases h : i < N
  · simp [h]
  · simp [h]

/-- All entries have room, and each lies where its number says: in the inline slot of that
number, or behind the inline slots in the heap array. -/
structure Placed (R : α → β → Prop) (g : Growable α N) (xs : List β) : Prop where
  count : g.count = xs.length
  room : g.count ≤ N + g.ptr.length
  inline : ∀ k (hk : k < N) x, xs[k]? = some x → R g.inline[k] x
  heap : ∀ k x, N ≤ k → xs[k]? = some x →
    k - N < g.ptr.length ∧ ∃ a, g.ptr[k - N]? = some (some a) ∧ R a x

theorem placed_iff_shows {R : α → β → Prop} {g : Growable α N} {xs : List β} :
    Placed R g xs ↔ Shows R g xs := by
  constructor
  · intro h
    refine ⟨h.count, fun k x hx => ?_⟩
    by_cases hk : k < N
    · exact ⟨_, get?_inline hk, h.inline k hk x hx⟩
    · obtain ⟨-, a, ha, hR⟩ := h.heap k x (Nat.not_lt.mp hk) hx
      refine ⟨a, ?_, hR⟩
      rw [get?_ptr (Nat.not_lt.mp hk), ha]
      rfl
  · intro h
    refine ⟨h.count, g.count_le, fun k hk x hx => ?_, fun k x hk hx => ?_⟩
    · obtain ⟨a, ha, hR⟩ := h.entry k x hx
      rw [get?_inline hk] at ha
      rwa [Option.some.inj ha]
    · obtain ⟨a, ha, hR⟩ := h.entry k x hx
      rw [get?_ptr hk, Option.join_eq_some_iff] at ha
      exact ⟨(List.getElem?_eq_some_iff.mp ha).1, a, ha, hR⟩

section Placed

variable {R : α → β → Prop} {g : Growable α N} {xs : List β} {a a' : α} {x : β}

theorem Placed.empty [Inhabited α] : Placed R (.empty : Growable α N) [] :=
  placed_iff_shows.mpr .empty

theorem Placed.imp {R' : α → β → Prop} (h : Placed R g xs) (himp : ∀ a x, R a x → R' a x) :
    Placed R' g xs :=
  placed_iff_shows.mpr ((placed_iff_shows.mp h).imp himp)

theorem Placed.push (h : Placed R g xs) (hR : R a x) : Placed R (g.push a) (xs ++ [x]) :=
  placed_iff_shows.mpr ((placed_iff_shows.mp h).push hR)

theorem Placed.entry (h : Placed R g xs) {k : Nat} (hk : k < g.count) :
    ∃ b x, xs[k]? = some x ∧ g.get? k = some b ∧ R b x := by
  have hlt : k < xs.length := h.count ▸ hk
  obtain ⟨b, hb, hR⟩ := (placed_iff_shows.mp h).entry k _ (List.getElem?_eq_getElem hlt)
  exact ⟨b, _, List.getElem?_eq_getElem hlt, hb, hR⟩

theorem Placed.modifyLast {f : β → β} (h : Placed R g xs) (hcount : g.count ≠ 0)
    (ha : g.get? (g.count - 1) = some a) (hR : ∀ y, R a y → R a' (f y)) :
    Placed R (g.set (g.count - 1) a') (xs.modifyLast f) := by
  obtain rfl | ⟨front, y, rfl⟩ := List.eq_nil_or_concat' xs
  · exact absurd h.count hcount
  have hshows := placed_iff_shows.mp h
  obtain ⟨b, hb, hRb⟩ := hshows.last
  obtain rfl : a = b := Option.some.inj (ha.symm.trans hb)
  rw [List.modifyLast_concat]
  exact placed_iff_shows.mpr (hshows.setLast (hR y hRb))

theorem Placed.setLast (h : Placed R g xs) (hcount : g.count ≠ 0)
    (ha : g.get? (g.count - 1) = some a) (hR : ∀ y, R a y → R a' y) :
    Placed R (g.set (g.count - 1) a') xs := by
  have hmodified := h.modifyLast (f := id) hcount ha hR
  obtain rfl | ⟨front, y, rfl⟩ := List.eq_nil_or_concat' xs
  · exact hmodified
  · rwa [List.modifyLast_concat] at hmodified

end Placed

end Growable

end GbStream.Support
