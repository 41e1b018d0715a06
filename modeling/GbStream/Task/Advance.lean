import Mathlib.Data.List.Chain
import Mathlib.Tactic.Tauto
import GbStream.Task.Discarded

/-!
# Time that advances

The clock adds a difference for every record.  The difference is zero in one place only: at
the first stamp that is not zero.  Records in front of it have been timed already when their
stamps are zero.
-/

namespace GbStream.Task

/-- The times of a run of records, one for each stamp. -/
def times (c : Clock) : List Int64 → List UInt64
  | [] => []
  | vPts :: stamps => (c.tick vPts).u64Time :: times (c.tick vPts) stamps

/-- No addition to the time wraps around. -/
def NoWrap (c : Clock) : List Int64 → Prop
  | [] => True
  | vPts :: stamps =>
      c.u64Time.toNat + (c.difference vPts.toUInt64).u64AddTime.toNat < 2 ^ 64 ∧
        NoWrap (c.tick vPts) stamps

/-! ## One stamp -/

theorem Clock.tick_u64Time (c : Clock) (vPts : Int64) :
    (c.tick vPts).u64Time = c.u64Time + (c.difference vPts.toUInt64).u64AddTime := by
  unfold Clock.tick
  show (c.difference vPts.toUInt64).u64Time + _ = _
  have hkept : (c.difference vPts.toUInt64).u64Time = c.u64Time := by
    unfold Clock.difference
    split
    · rfl
    · split
      · rfl
      · rfl
  rw [hkept]

theorem Clock.tick_u64TimestampOld (c : Clock) (vPts : Int64) :
    (c.tick vPts).u64TimestampOld ≠ 0 ↔ c.u64TimestampOld ≠ 0 ∨ vPts ≠ 0 := by
  rw [ne_eq vPts, ← toUInt64_eq_zero]
  unfold Clock.tick Clock.difference
  dsimp only
  split
  · simp_all
  · split
    · simp_all
    · simp_all

theorem Clock.difference_eq_zero {c : Clock} {vPts : Int64} (hadd : c.u64AddTime ≠ 0) :
    (c.difference vPts.toUInt64).u64AddTime = 0 ↔ c.u64TimestampOld = 0 ∧ vPts ≠ 0 := by
  rw [ne_eq vPts, ← toUInt64_eq_zero]
  by_cases hold : c.u64TimestampOld = 0
  · by_cases hzero : vPts.toUInt64 = 0
    · simp [Clock.difference, hold, hzero]
    · simp [Clock.difference, hold, hzero]
  · have hne : (c.difference vPts.toUInt64).u64AddTime ≠ 0 := by
      by_cases hzero : vPts.toUInt64 = 0
      · simp [Clock.difference, hold, hzero]
      · simp only [Clock.difference, if_neg hold, if_neg hzero]
        split
        · exact hadd
        · split
          · decide
          · rename_i hbehind
            intro hequal
            rw [UInt64.sub_eq_iff_eq_add, UInt64.zero_add] at hequal
            rw [hequal, Int.sub_self] at hbehind
            exact hbehind rfl
    exact iff_of_false hne fun h => hold h.1

theorem Clock.tick_advances {c : Clock} {vPts : Int64} (hadd : c.u64AddTime ≠ 0)
    (hwrap : c.u64Time.toNat + (c.difference vPts.toUInt64).u64AddTime.toNat < 2 ^ 64) :
    c.u64Time < (c.tick vPts).u64Time ↔ c.u64TimestampOld ≠ 0 ∨ vPts = 0 := by
  have hmoved : (c.difference vPts.toUInt64).u64AddTime.toNat = 0 ↔
      c.u64TimestampOld = 0 ∧ vPts ≠ 0 := by
    rw [← Clock.difference_eq_zero hadd, ← UInt64.toNat_inj]
    rfl
  have hsum : (c.tick vPts).u64Time.toNat =
      c.u64Time.toNat + (c.difference vPts.toUInt64).u64AddTime.toNat := by
    rw [Clock.tick_u64Time, UInt64.toNat_add, Nat.mod_eq_of_lt hwrap]
  calc
    c.u64Time < (c.tick vPts).u64Time
    _ ↔ c.u64Time.toNat < (c.tick vPts).u64Time.toNat := UInt64.lt_iff_toNat_lt
    _ ↔ ¬ (c.difference vPts.toUInt64).u64AddTime.toNat = 0 := by omega
    _ ↔ c.u64TimestampOld ≠ 0 ∨ vPts = 0 := by rw [hmoved]; tauto

/-! ## A run -/

/-- Behind a record the times rise just if a stamp that is not zero has been seen, or none
is to come. -/
theorem times_rise {c : Clock} {stamps : List Int64} (hadd : c.u64AddTime ≠ 0)
    (hwrap : NoWrap c stamps) :
    (c.u64Time :: times c stamps).IsChain (· < ·) ↔
      c.u64TimestampOld ≠ 0 ∨ ∀ vPts ∈ stamps, vPts = 0 := by
  induction stamps generalizing c with
  | nil => simp [times]
  | cons vPts stamps ih =>
      obtain ⟨hfits, hwrap⟩ := hwrap
      have hrest := ih (c.tick_add_ne_zero vPts) hwrap
      rw [times, List.isChain_cons_cons, hrest, Clock.tick_advances hadd hfits,
        Clock.tick_u64TimestampOld, List.forall_mem_cons]
      tauto

/-- **The time of every record behind the first is later** than that of the record before it,
just if the first stamp is not zero or all of them are. -/
theorem times_strictlyRise (stamps : List Int64) (hwrap : NoWrap {} stamps) :
    (times {} stamps).IsChain (· < ·) ↔
      stamps.head? ≠ some 0 ∨ ∀ vPts ∈ stamps, vPts = 0 := by
  cases stamps with
  | nil => simp [times]
  | cons vPts stamps =>
      have hrest := times_rise (Clock.tick_add_ne_zero {} vPts) hwrap.2
      rw [times, hrest, Clock.tick_u64TimestampOld, List.forall_mem_cons, List.head?_cons]
      simp only [ne_eq, Option.some.injEq]
      tauto

theorem times_strictlyRise_two :
    (times {} [1000, 4600]).IsChain (· < ·) ↔
      [(1000 : Int64), 4600].head? ≠ some 0 ∨ ∀ vPts ∈ [(1000 : Int64), 4600], vPts = 0 :=
  times_strictlyRise [1000, 4600] (by simp only [NoWrap]; decide)

/-- A stamp of zero in front of one that is not. -/
theorem times_stand :
    NoWrap {} [0, 1000] ∧ ¬ (times {} [0, 1000]).IsChain (· < ·) := by
  constructor
  · simp only [NoWrap]
    decide
  · decide

end GbStream.Task
