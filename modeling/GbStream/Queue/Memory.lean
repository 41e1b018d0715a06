import GbStream.Support.Bytes
import GbStream.Queue.Invariant

/-!
# The memory of the queue

`nolock_queue_init` computes the size of the memory with `int`s, `UNIT_HEAD` the place of a unit
with `size_t`.
-/

namespace GbStream.Queue

open Support.Bytes

/-! ## Sizes and places -/

/-- An integer as a `size_t`. -/
def asSizeT (n : Int) : Nat := (n % 18446744073709551616).toNat

theorem asSizeT_of_bounds {n : Int} (hlo : 0 ≤ n) (hhi : n < 18446744073709551616) :
    (asSizeT n : Int) = n := by
  rw [asSizeT, Int.emod_eq_of_lt hlo hhi, Int.toNat_of_nonneg hlo]

def unitSizeReal (unitSize : Int32) : Int32 := Int32.ofNat sizeofUnitHead + unitSize

def maxUnitNumReal (maxUnitNum : Int32) : Int32 := maxUnitNum + 2

/-- `unit_size_real * max_unit_num_real` -/
def unitsSize (unitSize maxUnitNum : Int32) : Int32 :=
  unitSizeReal unitSize * maxUnitNumReal maxUnitNum

/-- `mem_size` -/
def requestedSize (unitSize maxUnitNum : Int32) : Nat :=
  asSizeT (sizeofQueueHead + (unitsSize unitSize maxUnitNum).toInt)

/-- `nolock_queue_init` without a key, up to the memory: its size, or the value returned. -/
def queueMemory (calloc : Nat → Bool) (unitSize maxUnitNum : Int32) : Except Int Nat := do
  checkArguments unitSize.toInt maxUnitNum.toInt
  if calloc (requestedSize unitSize maxUnitNum) then .ok (requestedSize unitSize maxUnitNum)
  else .error (-1)

/-- `UNIT_HEAD`, counted from the start of the memory. -/
def unitHead (unitSize offset : Int32) : Nat :=
  sizeofQueueHead + asSizeT ((offset + 1).toInt * (unitSize.toInt + sizeofUnitHead))

/-- `UNIT_DATA` -/
def unitData (unitSize offset : Int32) : Nat := unitHead unitSize offset + sizeofUnitHead

/-! ## When the memory is large enough -/

structure Exact (unitSize maxUnitNum : Int32) : Prop where
  unit : (unitSizeReal unitSize).toInt = sizeofUnitHead + unitSize.toInt
  count : (maxUnitNumReal maxUnitNum).toInt = maxUnitNum.toInt + 2
  product : (unitsSize unitSize maxUnitNum).toInt =
    (unitSizeReal unitSize).toInt * (maxUnitNumReal maxUnitNum).toInt
  size : (requestedSize unitSize maxUnitNum : Int) =
    sizeofQueueHead + (unitsSize unitSize maxUnitNum).toInt

/-- The size is exact, and the units from the sentinel on end in the memory.  The sentinel is
there for every `max_unit_num`: `nolock_queue_init` writes it. -/
structure Enough (unitSize maxUnitNum : Int32) (allocated : Nat) : Prop where
  exact : Exact unitSize maxUnitNum
  units : ∀ offset : Int32, offset = -1 ∨ -1 ≤ offset ∧ offset ≤ maxUnitNum →
    unitData unitSize offset + unitSize.toInt ≤ allocated

variable {calloc : Nat → Bool} {unitSize maxUnitNum offset : Int32} {allocated : Nat}

theorem queueMemory_inv (h : queueMemory calloc unitSize maxUnitNum = .ok allocated) :
    0 < unitSize.toInt ∧ unitSize.toInt ≤ int32Max - sizeofUnitHead ∧
      allocated = requestedSize unitSize maxUnitNum := by
  have hlo := Int32.le_toInt unitSize
  have hhi := Int32.toInt_lt unitSize
  unfold queueMemory checkArguments at h
  split at h
  · cases h
  · split at h
    · cases h
    · next hzero hlarge =>
      simp only [int32Max, sizeofUnitHead] at hlarge ⊢
      change (if _ then _ else _) = _ at h
      split at h
      · cases h
        refine ⟨?_, ?_, rfl⟩ <;> omega
      · cases h

theorem unitSizeReal_toInt (hhi : unitSize.toInt ≤ int32Max - sizeofUnitHead)
    (hlo : 0 < unitSize.toInt) :
    (unitSizeReal unitSize).toInt = sizeofUnitHead + unitSize.toInt := by
  simp only [int32Max, sizeofUnitHead] at hhi ⊢
  rw [unitSizeReal, Int32.toInt_add, show (Int32.ofNat sizeofUnitHead).toInt = 8 by decide]
  exact toS32_of_bounds (by omega) (by omega)

theorem int32Max_eq : (int32Max : Int) = 2147483647 := rfl

theorem exact_of_le (hlo : 0 < unitSize.toInt) (hhi : unitSize.toInt ≤ int32Max - sizeofUnitHead)
    (hmax : -1 ≤ maxUnitNum.toInt)
    (hsize : (sizeofUnitHead + unitSize.toInt) * (maxUnitNum.toInt + 2) ≤ int32Max) :
    Exact unitSize maxUnitNum := by
  have hunit := unitSizeReal_toInt hhi hlo
  have hpos : 1 ≤ (unitSizeReal unitSize).toInt := by omega
  rw [int32Max_eq] at hsize
  rw [← hunit] at hsize
  have hone := Int.mul_le_mul_of_nonneg_right hpos (show 0 ≤ maxUnitNum.toInt + 2 by omega)
  have hnonneg := Int.mul_nonneg (show 0 ≤ (unitSizeReal unitSize).toInt by omega)
    (show 0 ≤ maxUnitNum.toInt + 2 by omega)
  have hcount : (maxUnitNumReal maxUnitNum).toInt = maxUnitNum.toInt + 2 := by
    rw [maxUnitNumReal, Int32.toInt_add, show (2 : Int32).toInt = 2 by decide]
    exact toS32_of_bounds (by omega) (by omega)
  rw [← hcount] at hsize hone hnonneg
  have hproduct : (unitsSize unitSize maxUnitNum).toInt =
      (unitSizeReal unitSize).toInt * (maxUnitNumReal maxUnitNum).toInt := by
    rw [unitsSize, Int32.toInt_mul]
    exact toS32_of_bounds (by omega) (by omega)
  refine ⟨hunit, hcount, hproduct, ?_⟩
  rw [requestedSize, hproduct]
  simp only [sizeofQueueHead]
  exact asSizeT_of_bounds (by omega) (by omega)

theorem unitHead_eq (hlo : 0 < unitSize.toInt) (hoffset : -1 ≤ offset.toInt)
    (hle : offset.toInt ≤ maxUnitNum.toInt)
    (hsize : (sizeofUnitHead + unitSize.toInt) * (maxUnitNum.toInt + 2) ≤ int32Max) :
    (unitHead unitSize offset : Int) =
      sizeofQueueHead + (offset.toInt + 1) * (unitSize.toInt + sizeofUnitHead) := by
  rw [int32Max_eq] at hsize
  obtain ⟨u, hu⟩ : ∃ u : Int, u = unitSize.toInt + sizeofUnitHead := ⟨_, rfl⟩
  have hpos : 1 ≤ u := by omega
  rw [Int.add_comm, ← hu] at hsize
  have hone := Int.mul_le_mul_of_nonneg_right hpos (show 0 ≤ maxUnitNum.toInt + 2 by omega)
  have hmul := Int.mul_le_mul_of_nonneg_left (show offset.toInt + 1 ≤ maxUnitNum.toInt + 2 by omega)
    (show 0 ≤ u by omega)
  have hnonneg := Int.mul_nonneg (show 0 ≤ u by omega) (show 0 ≤ offset.toInt + 1 by omega)
  have hnext : (offset + 1).toInt = offset.toInt + 1 := by
    rw [Int32.toInt_add, show (1 : Int32).toInt = 1 by decide]
    exact toS32_of_bounds (by omega) (by omega)
  have hplace : (asSizeT ((offset + 1).toInt * (unitSize.toInt + sizeofUnitHead)) : Int) =
      (offset.toInt + 1) * u := by
    rw [hnext, ← hu, Int.mul_comm]
    exact asSizeT_of_bounds hnonneg (by omega)
  unfold unitHead
  push_cast
  rw [hplace, hu]

theorem unitData_eq (hlo : 0 < unitSize.toInt) (hoffset : -1 ≤ offset.toInt)
    (hle : offset.toInt ≤ maxUnitNum.toInt)
    (hsize : (sizeofUnitHead + unitSize.toInt) * (maxUnitNum.toInt + 2) ≤ int32Max) :
    (unitData unitSize offset : Int) + unitSize.toInt = sizeofQueueHead +
      (sizeofUnitHead + unitSize.toInt) * (offset.toInt + 2) := by
  unfold unitData
  push_cast
  rw [unitHead_eq hlo hoffset hle hsize]
  ring

theorem enough_iff (hlo : 0 < unitSize.toInt) (hhi : unitSize.toInt ≤ int32Max - sizeofUnitHead) :
    Enough unitSize maxUnitNum (requestedSize unitSize maxUnitNum) ↔
      -1 ≤ maxUnitNum.toInt ∧
        (sizeofUnitHead + unitSize.toInt) * (maxUnitNum.toInt + 2) ≤ int32Max := by
  constructor
  · intro h
    have hexact := h.exact
    have hproduct := hexact.product
    rw [hexact.unit, hexact.count] at hproduct
    have hbound := Int32.toInt_lt (unitsSize unitSize maxUnitNum)
    refine ⟨?_, ?_⟩
    · -- the sentinel alone takes as much as one unit
      have hsentinel := h.units (-1) (.inl rfl)
      have hplace : unitData unitSize (-1) = sizeofQueueHead + sizeofUnitHead := by
        simp [unitData, unitHead, asSizeT]
      rw [hplace, hexact.size, hproduct] at hsentinel
      by_contra hmax
      have hneg := Int.mul_nonpos_of_nonneg_of_nonpos
        (show 0 ≤ (sizeofUnitHead + unitSize.toInt : Int) by omega)
        (show maxUnitNum.toInt + 2 ≤ 0 by omega)
      push_cast at hsentinel
      omega
    · rw [← hproduct, int32Max_eq]
      omega
  · rintro ⟨hmax, hsize⟩
    have hexact := exact_of_le hlo hhi hmax hsize
    refine ⟨hexact, fun offset hrange => ?_⟩
    have hminus : (-1 : Int32).toInt = -1 := by decide
    have hoffset : -1 ≤ offset.toInt ∧ offset.toInt ≤ maxUnitNum.toInt := by
      rcases hrange with rfl | ⟨hfrom, hto⟩
      · exact ⟨hminus.ge, hminus ▸ hmax⟩
      · rw [Int32.le_iff_toInt_le, hminus] at hfrom
        exact ⟨hfrom, Int32.le_iff_toInt_le.mp hto⟩
    have hmul := Int.mul_le_mul_of_nonneg_left
      (show offset.toInt + 2 ≤ maxUnitNum.toInt + 2 by omega)
      (show 0 ≤ (sizeofUnitHead + unitSize.toInt : Int) by omega)
    rw [unitData_eq hlo hoffset.1 hoffset.2 hsize, hexact.size, hexact.product, hexact.unit,
      hexact.count]
    omega

/-- The memory is large enough for what is addressed exactly when the units fit an `int`; only
the size of one unit is checked. -/
theorem queueMemory_enough_iff (h : queueMemory calloc unitSize maxUnitNum = .ok allocated) :
    Enough unitSize maxUnitNum allocated ↔
      -1 ≤ maxUnitNum.toInt ∧
        (sizeofUnitHead + unitSize.toInt) * (maxUnitNum.toInt + 2) ≤ int32Max := by
  obtain ⟨hlo, hhi, rfl⟩ := queueMemory_inv h
  exact enough_iff hlo hhi

/-- A queue of 512 units. -/
theorem queueMemory_enough_iff_512 : Enough 16 512 12364 := by
  have hrun : queueMemory (fun _ => true) 16 512 = .ok 12364 := rfl
  exact (queueMemory_enough_iff hrun).mpr (by decide)

/-- The units take 2 ^ 32 bytes, and 28 are allocated. -/
theorem queueMemory_wrapped :
    queueMemory (fun _ => true) 65528 65534 = .ok 28 ∧ ¬ Enough 65528 65534 28 := by
  refine ⟨rfl, fun h => ?_⟩
  have hsentinel := h.units (-1) (.inl rfl)
  revert hsentinel
  decide

/-! ## The queues whose memory size fits an `int` -/

structure Config.Args (c : Config) (unitSize maxUnitNum : Int32) : Prop where
  unit : unitSize.toInt = c.unitSize
  count : maxUnitNum.toInt = c.maxUnitNum

theorem Config.args_ofNat (c : Config) :
    c.Args (Int32.ofNat c.unitSize) (Int32.ofNat c.maxUnitNum) := by
  have hmem := c.memSize_le
  have hleft := Nat.le_mul_of_pos_right (sizeofUnitHead + c.unitSize)
    (show 0 < c.maxUnitNum + 2 by omega)
  have hright := Nat.le_mul_of_pos_left (c.maxUnitNum + 2)
    (show 0 < sizeofUnitHead + c.unitSize from Nat.add_pos_left (by decide) _)
  unfold memSize at hmem
  simp only [int32Max] at hmem
  exact ⟨Int32.toInt_ofNat_of_lt (by omega), Int32.toInt_ofNat_of_lt (by omega)⟩

variable {c : Config}

theorem Config.Args.size_le (h : c.Args unitSize maxUnitNum) :
    (sizeofUnitHead + unitSize.toInt) * (maxUnitNum.toInt + 2) ≤ int32Max := by
  have hmem := Int.ofNat_le.mpr c.memSize_le
  unfold memSize at hmem
  push_cast at hmem
  rw [h.unit, h.count]
  omega

/-- They get the memory that they need. -/
theorem Config.Args.queueMemory_eq (h : c.Args unitSize maxUnitNum)
    (halloc : calloc (memSize c.unitSize c.maxUnitNum) = true) :
    queueMemory calloc unitSize maxUnitNum = .ok (memSize c.unitSize c.maxUnitNum) := by
  have hunit := c.unitSize_pos
  have hsize : unitSize.toInt ≤ int32Max - sizeofUnitHead := by
    have hle := h.size_le
    have hcount := h.count
    have hunitInt := h.unit
    have hmul := Int.mul_le_mul_of_nonneg_left (show 1 ≤ maxUnitNum.toInt + 2 by omega)
      (show 0 ≤ (sizeofUnitHead + unitSize.toInt : Int) by omega)
    omega
  have hexact := exact_of_le (by rw [h.unit]; omega) hsize (by rw [h.count]; omega) h.size_le
  have hrequested : requestedSize unitSize maxUnitNum = memSize c.unitSize c.maxUnitNum := by
    have hrequested := hexact.size
    rw [hexact.product, hexact.unit, hexact.count, h.unit, h.count] at hrequested
    unfold memSize
    exact_mod_cast hrequested
  unfold queueMemory
  rw [h.unit, h.count, c.checkArguments_eq, hrequested]
  change (if _ then _ else _) = _
  rw [if_pos halloc]

theorem Config.Args.unitHead_eq (h : c.Args unitSize maxUnitNum) (hlow : listEnd ≤ offset.toInt)
    (hhigh : offset.toInt ≤ c.maxUnitNum) :
    (Queue.unitHead unitSize offset : Int) = c.unitHead offset.toInt := by
  have hunit := c.unitSize_pos
  rw [Queue.unitHead_eq (by rw [h.unit]; omega) hlow (by rwa [h.count]) h.size_le, h.unit]
  rfl

end GbStream.Queue
