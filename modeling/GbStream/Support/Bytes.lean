import Mathlib.Data.List.Basic
import Mathlib.Tactic.Ring

/-!
# Byte buffers and integers in memory

A buffer is the list of its bytes, a write is checked against its length, and a
fixed-width integer in memory is the list of its bytes, least significant first.
`htons` and `htonl` swap those bytes, so that a swapped integer lies in memory
most significant byte first.
-/

namespace GbStream.Support.Bytes

/-- Overwrite `bytes` at `offset`; `none` when a byte would fall outside. -/
def writeAt (buf : List UInt8) (offset : Nat) (bytes : List UInt8) :
    Option (List UInt8) :=
  if offset + bytes.length ≤ buf.length then
    some (buf.take offset ++ bytes ++ buf.drop (offset + bytes.length))
  else none

/-- The bytes `[offset, offset + count)`. -/
def slice (buf : List UInt8) (offset count : Nat) : List UInt8 :=
  (buf.drop offset).take count

/-- Copy the first `count` bytes of `src`; `none` when either side is too short. -/
def copyAt (buf : List UInt8) (offset : Nat) (src : List UInt8) (count : Nat) :
    Option (List UInt8) :=
  if count ≤ src.length then writeAt buf offset (src.take count) else none

/-! ## Writes -/

section Write

variable {buf bytes src out : List UInt8} {offset count : Nat}

theorem writeAt_isSome (h : offset + bytes.length ≤ buf.length) :
    ∃ out, writeAt buf offset bytes = some out := by
  rw [writeAt, if_pos h]
  exact ⟨_, rfl⟩

theorem writeAt_inv (h : writeAt buf offset bytes = some out) :
    offset + bytes.length ≤ buf.length ∧
      out = buf.take offset ++ bytes ++ buf.drop (offset + bytes.length) := by
  unfold writeAt at h
  split at h
  · rename_i hfit
    exact ⟨hfit, (Option.some.inj h).symm⟩
  · cases h

theorem length_of_writeAt (h : writeAt buf offset bytes = some out) :
    out.length = buf.length := by
  obtain ⟨hfit, rfl⟩ := writeAt_inv h
  simp only [List.length_append, List.length_take, List.length_drop]
  omega

theorem take_of_writeAt (h : writeAt buf offset bytes = some out) :
    out.take (offset + bytes.length) = buf.take offset ++ bytes := by
  obtain ⟨hfit, rfl⟩ := writeAt_inv h
  have hlen : (buf.take offset ++ bytes).length = offset + bytes.length := by
    simp only [List.length_append, List.length_take]
    omega
  rw [List.take_append_of_le_length hlen.ge, List.take_of_length_le hlen.le]

/-- The suffix that starts with the write: what lies behind it is untouched. -/
theorem drop_of_writeAt (h : writeAt buf offset bytes = some out) :
    out.drop offset = bytes ++ buf.drop (offset + bytes.length) := by
  obtain ⟨hfit, rfl⟩ := writeAt_inv h
  have hlen : (buf.take offset).length = offset := List.length_take_of_le (by omega)
  rw [List.append_assoc, List.drop_left' hlen]

/-- Reading on from a write: the bytes written, then what lay behind them. -/
theorem slice_of_writeAt (h : writeAt buf offset bytes = some out) :
    slice out offset (bytes.length + count) =
      bytes ++ slice buf (offset + bytes.length) count := by
  rw [slice, drop_of_writeAt h, List.take_length_add_append, slice]

theorem drop_after_writeAt {n : Nat} (h : writeAt buf offset bytes = some out)
    (hn : offset + bytes.length ≤ n) : out.drop n = buf.drop n := by
  obtain ⟨k, rfl⟩ := Nat.exists_eq_add_of_le hn
  have hsuffix := congrArg (List.drop (bytes.length + k)) (drop_of_writeAt h)
  rw [List.drop_drop, List.drop_length_add_append, List.drop_drop] at hsuffix
  rw [Nat.add_assoc, hsuffix, Nat.add_assoc]

theorem slice_after_writeAt {n : Nat} (h : writeAt buf offset bytes = some out)
    (hn : offset + bytes.length ≤ n) : slice out n count = slice buf n count := by
  rw [slice, drop_after_writeAt h hn, slice]

theorem copyAt_eq_writeAt (h : count ≤ src.length) :
    copyAt buf offset src count = writeAt buf offset (src.take count) := by
  rw [copyAt, if_pos h]

end Write

/-! ## Integers in memory -/

def htons (v : UInt16) : UInt16 := (v <<< 8) ||| (v >>> 8)

def htonl (v : UInt32) : UInt32 :=
  (v <<< 24) ||| (v <<< 8 &&& (0xff0000 : UInt32)) |||
    (v >>> 8 &&& (0xff00 : UInt32)) ||| (v >>> 24)

def le16 (v : UInt16) : List UInt8 := [v.toUInt8, (v >>> 8).toUInt8]

def le32 (v : UInt32) : List UInt8 :=
  [v.toUInt8, (v >>> 8).toUInt8, (v >>> 16).toUInt8, (v >>> 24).toUInt8]

/-- The value of an integer after it has been stored into a signed 32-bit one. -/
def toS32 (n : Int) : Int := n.bmod (2 ^ 32)

theorem toS32_of_bounds {n : Int} (hlo : -2 ^ 31 ≤ n) (hhi : n < 2 ^ 31) : toS32 n = n := by
  unfold toS32
  rw [Int.bmod_eq_of_le] <;> omega

def be16 (hi lo : UInt8) : Nat := hi.toNat * 256 + lo.toNat

def be32 (b3 b2 b1 b0 : UInt8) : Nat := be16 b3 b2 * 65536 + be16 b1 b0

@[simp] theorem length_le16 (v : UInt16) : (le16 v).length = 2 := rfl

@[simp] theorem length_le32 (v : UInt32) : (le32 v).length = 4 := rfl

theorem le16_htons (v : UInt16) : le16 (htons v) = [(v >>> 8).toUInt8, v.toUInt8] := by
  unfold le16 htons
  congr 1
  · apply UInt8.eq_of_toBitVec_eq
    ext i hi
    simp
  · congr 1
    apply UInt8.eq_of_toBitVec_eq
    ext i hi
    have hge : v.toBitVec.getLsbD (8 + (8 + i)) = false :=
      BitVec.getLsbD_of_ge _ _ (by omega)
    simp [hge]
    omega

theorem eq_of_bits {x y : UInt8}
    (h : ∀ i, i < 8 → x.toBitVec.getLsbD i = y.toBitVec.getLsbD i) : x = y := by
  apply UInt8.eq_of_toBitVec_eq
  ext i hi
  exact h i hi

theorem lt_eight {i : Nat} (hi : i < 8) :
    i = 0 ∨ i = 1 ∨ i = 2 ∨ i = 3 ∨ i = 4 ∨ i = 5 ∨ i = 6 ∨ i = 7 := by
  omega

theorem le32_htonl (v : UInt32) :
    le32 (htonl v) =
      [(v >>> 24).toUInt8, (v >>> 16).toUInt8, (v >>> 8).toUInt8, v.toUInt8] := by
  have h0 : (htonl v).toUInt8 = (v >>> 24).toUInt8 := by
    apply eq_of_bits
    intro i hi
    simp [htonl]
  have h8 : (htonl v >>> 8).toUInt8 = (v >>> 16).toUInt8 := by
    apply eq_of_bits
    intro i hi
    rcases lt_eight hi with rfl | rfl | rfl | rfl | rfl | rfl | rfl | rfl <;> simp [htonl]
  have h16 : (htonl v >>> 16).toUInt8 = (v >>> 8).toUInt8 := by
    apply eq_of_bits
    intro i hi
    rcases lt_eight hi with rfl | rfl | rfl | rfl | rfl | rfl | rfl | rfl <;> simp [htonl]
  have h24 : (htonl v >>> 24).toUInt8 = v.toUInt8 := by
    apply eq_of_bits
    intro i hi
    rcases lt_eight hi with rfl | rfl | rfl | rfl | rfl | rfl | rfl | rfl <;> simp [htonl]
  rw [le32, h0, h8, h16, h24]

theorem be16_bytes (v : UInt16) : be16 (v >>> 8).toUInt8 v.toUInt8 = v.toNat := by
  have hv := v.toNat_lt
  simp only [be16, UInt16.toNat_toUInt8, UInt16.toNat_shiftRight]
  simp [Nat.shiftRight_eq_div_pow]
  omega

theorem be32_bytes (v : UInt32) :
    be32 (v >>> 24).toUInt8 (v >>> 16).toUInt8 (v >>> 8).toUInt8 v.toUInt8 = v.toNat := by
  have hv := v.toNat_lt
  simp only [be32, be16, UInt32.toNat_toUInt8, UInt32.toNat_shiftRight]
  simp [Nat.shiftRight_eq_div_pow]
  omega

/-- The integer that four bytes of memory hold, least significant byte first. -/
def ofLe32 (b0 b1 b2 b3 : UInt8) : UInt32 := UInt32.ofNat (be32 b3 b2 b1 b0)

theorem ofLe32_bytes (v : UInt32) :
    ofLe32 v.toUInt8 (v >>> 8).toUInt8 (v >>> 16).toUInt8 (v >>> 24).toUInt8 = v := by
  rw [ofLe32, be32_bytes, UInt32.ofNat_toNat]

end GbStream.Support.Bytes
