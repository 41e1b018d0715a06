import Mathlib.Data.List.TakeWhile

/-!
# Strings in memory

NUL-terminated strings inside a larger memory: scanning them, reading them, and cutting
them by writing further NUL bytes.
-/

namespace GbStream.Support.CString

/-! ## Scanning -/

/-- How many bytes a loop skips while `p` holds; `none` when it runs out of memory. -/
def scan (p : UInt8 → Bool) : List UInt8 → Option Nat
  | [] => none
  | c :: cs => if p c then (scan p cs).map (· + 1) else some 0

theorem scan_append {p : UInt8 → Bool} (hp : p 0 = false) (junk : List UInt8) (xs : List UInt8) :
    scan p (xs ++ 0 :: junk) = some (xs.takeWhile p).length := by
  induction xs with
  | nil => simp [scan, hp]
  | cons x xs ih =>
      rw [List.cons_append, scan, List.takeWhile_cons, ih]
      by_cases hx : p x <;> simp [hx]

/-! ## Strings -/

/-- The bytes of `w` lie at `ptr`. -/
def Spans (mem : List UInt8) (ptr : Nat) (w : List UInt8) : Prop :=
  ∀ i, i < w.length → mem[ptr + i]? = w[i]?

/-- The string `w` lies at `ptr`, with its terminator. -/
structure IsString (mem : List UInt8) (ptr : Nat) (w : List UInt8) : Prop where
  spans : Spans mem ptr w
  terminator : mem[ptr + w.length]? = some 0
  noNul : 0 ∉ w

/-- The string that a pointer points to. -/
def stringAt (mem : List UInt8) (ptr : Nat) : List UInt8 :=
  (mem.drop ptr).takeWhile fun c => c ≠ 0

theorem spans_append {mem u v : List UInt8} {ptr : Nat} (h : Spans mem ptr (u ++ v)) :
    Spans mem ptr u ∧ Spans mem (ptr + u.length) v := by
  constructor
  · intro i hi
    rw [h i (by rw [List.length_append]; omega), List.getElem?_append_left hi]
  · intro i hi
    rw [Nat.add_assoc, h (u.length + i) (by rw [List.length_append]; omega),
      List.getElem?_append_right (Nat.le_add_right ..), Nat.add_sub_cancel_left]

theorem spans_of_drop {mem w rest : List UInt8} {ptr : Nat} (h : mem.drop ptr = w ++ rest) :
    Spans mem ptr w := by
  intro i hi
  rw [← List.getElem?_drop, h, List.getElem?_append_left hi]

theorem stringAt_eq {mem w : List UInt8} {ptr : Nat} (h : IsString mem ptr w) :
    stringAt mem ptr = w := by
  have hdrop : mem.drop ptr = w ++ 0 :: (mem.drop ptr).drop (w.length + 1) := by
    apply List.ext_getElem?
    intro i
    rw [List.getElem?_drop]
    rcases Nat.lt_trichotomy i w.length with hi | rfl | hi
    · rw [h.spans i hi, List.getElem?_append_left hi]
    · rw [h.terminator, List.getElem?_append_right (Nat.le_refl _), Nat.sub_self]
      rfl
    · rw [List.getElem?_append_right (by omega), List.drop_drop]
      obtain ⟨k, rfl⟩ := Nat.exists_eq_add_of_lt hi
      rw [show w.length + k + 1 - w.length = k + 1 by omega, List.getElem?_cons_succ,
        List.getElem?_drop]
      congr 1
      omega
  have hall : ∀ c ∈ w, decide (c ≠ 0) = true := fun c hc => by
    rw [decide_eq_true_iff]
    rintro rfl
    exact h.noNul hc
  rw [stringAt, hdrop, List.takeWhile_append_of_pos hall]
  simp

/-! ## Writing terminators -/

def nulAt (mem : List UInt8) (positions : List Nat) : List UInt8 :=
  positions.foldl (fun mem i => mem.set i 0) mem

@[simp] theorem nulAt_cons (mem : List UInt8) (i : Nat) (positions : List Nat) :
    nulAt mem (i :: positions) = nulAt (mem.set i 0) positions := rfl

@[simp] theorem length_nulAt (positions : List Nat) :
    ∀ mem : List UInt8, (nulAt mem positions).length = mem.length := by
  induction positions with
  | nil => exact fun _ => rfl
  | cons i positions ih =>
      intro mem
      rw [nulAt_cons, ih, List.length_set]

theorem getElem?_nulAt_of_not_mem (positions : List Nat) :
    ∀ (mem : List UInt8) {i : Nat}, i ∉ positions → (nulAt mem positions)[i]? = mem[i]? := by
  induction positions with
  | nil => exact fun _ _ _ => rfl
  | cons j positions ih =>
      intro mem i hi
      rw [List.mem_cons, not_or] at hi
      rw [nulAt_cons, ih _ hi.2, List.getElem?_set_ne (Ne.symm hi.1)]

theorem getElem?_nulAt_of_nul (positions : List Nat) :
    ∀ (mem : List UInt8) {i : Nat}, mem[i]? = some 0 → (nulAt mem positions)[i]? = some 0 := by
  induction positions with
  | nil => exact fun _ _ h => h
  | cons j positions ih =>
      intro mem i hi
      rw [nulAt_cons]
      apply ih
      by_cases hij : j = i
      · subst hij
        rw [List.getElem?_set_self (List.getElem?_eq_some_iff.mp hi).1]
      · rw [List.getElem?_set_ne hij, hi]

theorem getElem?_nulAt_of_mem (positions : List Nat) :
    ∀ (mem : List UInt8) {i : Nat}, i ∈ positions → i < mem.length →
      (nulAt mem positions)[i]? = some 0 := by
  induction positions with
  | nil => exact fun _ _ h => nomatch h
  | cons j positions ih =>
      intro mem i hi hlt
      rw [nulAt_cons]
      by_cases hrest : i ∈ positions
      · exact ih _ hrest (by rwa [List.length_set])
      · obtain rfl : i = j := (List.mem_cons.mp hi).resolve_right hrest
        rw [getElem?_nulAt_of_not_mem _ _ hrest, List.getElem?_set_self hlt]

/-- Bytes that are followed by a written NUL, and that no written NUL falls into, are a
string. -/
theorem isString_nulAt {mem w : List UInt8} {ptr : Nat} {positions : List Nat}
    (hspans : Spans mem ptr w) (hnul : 0 ∉ w) (hend : ptr + w.length ∈ positions)
    (hlt : ptr + w.length < mem.length)
    (hapart : ∀ i ∈ positions, i < ptr ∨ ptr + w.length ≤ i) :
    IsString (nulAt mem positions) ptr w where
  spans := fun i hi => by
    rw [getElem?_nulAt_of_not_mem _ _ fun hmem => ?_, hspans i hi]
    rcases hapart _ hmem with hbefore | hbehind <;> omega
  terminator := getElem?_nulAt_of_mem _ _ hend hlt
  noNul := hnul

/-! ## Arrays of characters -/

/-- `char[n]` -/
structure CharArray (n : Nat) where
  bytes : List UInt8
  length_eq : bytes.length = n
  deriving DecidableEq, Repr

section CharArray

variable {n : Nat} {a : CharArray n} {w behind : List UInt8}

/-- The string that starts with an array, in front of the memory `behind`. -/
def CharArray.string (a : CharArray n) (behind : List UInt8) : List UInt8 :=
  stringAt (a.bytes ++ behind) 0

/-- The string ends in the array. -/
def CharArray.Terminated (a : CharArray n) : Prop := 0 ∈ a.bytes

instance : Decidable a.Terminated := inferInstanceAs (Decidable (_ ∈ _))

/-- `strncpy` of the string `w` into an array, which gets a terminator only if there is room. -/
def strncpy (w : List UInt8) (n : Nat) : CharArray n where
  bytes := w.take n ++ List.replicate (n - w.length) 0
  length_eq := by
    rw [List.length_append, List.length_take, List.length_replicate]
    omega

/-- The string `w` written with its terminator to the front of an array; what does not fit goes
behind it. -/
def CharArray.write (a : CharArray n) (w : List UInt8) : CharArray n where
  bytes := (w ++ 0 :: a.bytes.drop (w.length + 1)).take n
  length_eq := by
    rw [List.length_take, List.length_append, List.length_cons, List.length_drop, a.length_eq]
    omega

theorem noNul_stringAt (mem : List UInt8) (ptr : Nat) : 0 ∉ stringAt mem ptr := by
  intro hmem
  exact absurd (List.mem_takeWhile_imp hmem) (by simp)

theorem stringAt_zero_append (hw : 0 ∉ w) :
    stringAt (w ++ behind) 0 = w ++ stringAt behind 0 := by
  unfold stringAt
  rw [List.drop_zero, List.drop_zero, List.takeWhile_append_of_pos]
  intro c hc
  rw [decide_eq_true_iff]
  rintro rfl
  exact hw hc

theorem stringAt_zero_cons : stringAt (0 :: behind) 0 = [] := by simp [stringAt]

theorem string_strncpy (hw : 0 ∉ w) (hlen : w.length < n) : (strncpy w n).string behind = w := by
  obtain ⟨k, hk⟩ := Nat.exists_eq_add_of_lt hlen
  have hroom : n - w.length = k + 1 := by omega
  unfold CharArray.string strncpy
  dsimp only
  rw [List.take_of_length_le hlen.le, hroom, List.replicate_succ, List.append_assoc,
    stringAt_zero_append hw, List.cons_append, stringAt_zero_cons, List.append_nil]

theorem string_strncpy_cut (hw : 0 ∉ w) (hlen : n ≤ w.length) :
    (strncpy w n).string behind = w.take n ++ stringAt behind 0 := by
  unfold CharArray.string strncpy
  dsimp only
  rw [Nat.sub_eq_zero_of_le hlen, List.replicate_zero, List.append_nil, stringAt_zero_append]
  exact fun hmem => hw (List.mem_of_mem_take hmem)

theorem terminated_strncpy_iff (hw : 0 ∉ w) : (strncpy w n).Terminated ↔ w.length < n := by
  unfold CharArray.Terminated strncpy
  dsimp only
  rw [List.mem_append, List.mem_replicate]
  constructor
  · rintro (hmem | ⟨hroom, -⟩)
    · exact absurd (List.mem_of_mem_take hmem) hw
    · omega
  · exact fun hlen => .inr ⟨by omega, rfl⟩

theorem terminated_write (hlen : w.length < n) : (a.write w).Terminated := by
  unfold CharArray.Terminated CharArray.write
  obtain ⟨k, hk⟩ := Nat.exists_eq_add_of_lt hlen
  dsimp only
  rw [List.take_append, List.mem_append, show n - w.length = k + 1 by omega, List.take_succ_cons]
  exact .inr (List.mem_cons_self ..)

theorem CharArray.Terminated.string (h : a.Terminated) (behind : List UInt8) :
    a.string behind = stringAt a.bytes 0 ∧ (stringAt a.bytes 0).length < n := by
  obtain ⟨w, rest, hsplit, hw⟩ := List.eq_append_cons_of_mem h
  have hlen := a.length_eq
  unfold CharArray.string
  rw [hsplit, List.length_append, List.length_cons] at hlen
  rw [hsplit, List.append_assoc, List.cons_append, stringAt_zero_append hw,
    stringAt_zero_append hw, stringAt_zero_cons, stringAt_zero_cons, List.append_nil]
  exact ⟨rfl, by omega⟩

end CharArray

end GbStream.Support.CString
