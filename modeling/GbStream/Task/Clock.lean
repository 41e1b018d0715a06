import GbStream.Task.Record

/-!
# The clock of the send task

`send_rtp_to_client_task` adds up the differences of the time stamps it pops.  The stamps
come from the media server in milliseconds, as two halves; `recv_stream_cb` puts them
together and scales them to 90 kHz.
-/

namespace GbStream.Task

open Support.Bytes Recv

structure Clock where
  u64AddTime : UInt64 := 0
  u64Time : UInt64 := 0
  u64TimestampOld : UInt64 := 0
  deriving DecidableEq, Repr

/-- The difference to the last stamp, as it is found; a stamp before the last one keeps the
difference found before.  The two stamps are compared as signed numbers. -/
def Clock.difference (c : Clock) (vPts : UInt64) : Clock :=
  if c.u64TimestampOld = 0 then
    { c with
      u64AddTime := if vPts = 0 then 3600 else 0
      u64TimestampOld := vPts }
  else if vPts = 0 then { c with u64AddTime := 3600 }
  else
    let behind := vPts.toInt64.toInt - c.u64TimestampOld.toInt64.toInt
    { c with
      u64AddTime :=
        if behind < 0 then c.u64AddTime
        else if behind = 0 then 3600
        else vPts - c.u64TimestampOld
      u64TimestampOld := vPts }

def Clock.tick (c : Clock) (vPts : Int64) : Clock :=
  let c := c.difference vPts.toUInt64
  { c with
    u64Time := c.u64Time + c.u64AddTime
    u64AddTime := if c.u64AddTime = 0 then 3600 else c.u64AddTime }

/-- The times the frames of a run of records are sent with; a record of another type is
freed when it has moved the clock. -/
def videoTimes (c : Clock) : List QueueArgs → List UInt64
  | [] => []
  | record :: records =>
      let c := c.tick record.stCmdHead.vPts
      if isVideo record then c.u64Time :: videoTimes c records else videoTimes c records

/-! ## Words and the integers they stand for -/

theorem toNat_toUInt64 (x : Int64) : (x.toUInt64.toNat : Int) = x.toInt % 18446744073709551616 := by
  have hbits : x.toInt = (x.toUInt64.toNat : Int).bmod (2 ^ 64) := BitVec.toInt_eq_toNat_bmod _
  have hlt := x.toUInt64.toNat_lt
  have hmod := Int.bmod_emod (x := (x.toUInt64.toNat : Int)) (m := 2 ^ 64)
  rw [hbits]
  omega

theorem toNat_ofInt (x : Int) : ((UInt64.ofInt x).toNat : Int) = x % 18446744073709551616 := by
  have hnonneg := Int.emod_nonneg x (show (18446744073709551616 : Int) ≠ 0 by decide)
  have hlt := Int.emod_lt_of_pos x (show (0 : Int) < 18446744073709551616 by decide)
  have hvalue : (UInt64.ofInt x).toNat =
      (x % 18446744073709551616).toNat % 18446744073709551616 := UInt64.toNat_ofNat'
  omega

theorem ofInt_sub_ofInt (x y : Int) :
    UInt64.ofInt x - UInt64.ofInt y = UInt64.ofInt (x - y) := by
  rw [UInt64.sub_eq_iff_eq_add, ← UInt64.ofInt_add, Int.sub_add_cancel]

theorem toUInt64_eq_ofInt (x : Int64) : x.toUInt64 = UInt64.ofInt x.toInt := by
  apply UInt64.toNat_inj.mp
  apply Int.natCast_inj.mp
  rw [toNat_toUInt64, toNat_ofInt]

theorem ofInt_toNat (x : UInt64) : UInt64.ofInt x.toNat = x := by
  have hlt := x.toNat_lt
  apply UInt64.toNat_inj.mp
  apply Int.natCast_inj.mp
  rw [toNat_ofInt]
  omega

/-! ## One stamp -/

theorem Clock.tick_later {c : Clock} {vPts : Int64} (hold : c.u64TimestampOld ≠ 0)
    (hne : vPts.toUInt64 ≠ 0) (hlt : c.u64TimestampOld.toInt64.toInt < vPts.toInt) :
    c.tick vPts =
      { u64AddTime := vPts.toUInt64 - c.u64TimestampOld
        u64Time := c.u64Time + (vPts.toUInt64 - c.u64TimestampOld)
        u64TimestampOld := vPts.toUInt64 } := by
  have hbehind : ¬ vPts.toInt - c.u64TimestampOld.toInt64.toInt < 0 := by omega
  have hnotEqual : ¬ vPts.toInt - c.u64TimestampOld.toInt64.toInt = 0 := by omega
  have hmoved : vPts.toUInt64 - c.u64TimestampOld ≠ 0 := by
    intro hzero
    rw [UInt64.sub_eq_iff_eq_add, UInt64.zero_add] at hzero
    apply hnotEqual
    rw [← hzero]
    exact Int.sub_self _
  simp only [Clock.tick, Clock.difference, if_neg hold, if_neg hne, Int64.toInt64_toUInt64,
    if_neg hbehind, if_neg hnotEqual, if_neg hmoved]

theorem Clock.tick_earlier {c : Clock} {vPts : Int64} (hold : c.u64TimestampOld ≠ 0)
    (hadd : c.u64AddTime ≠ 0) (hne : vPts.toUInt64 ≠ 0)
    (hlt : vPts.toInt < c.u64TimestampOld.toInt64.toInt) :
    c.tick vPts =
      { u64AddTime := c.u64AddTime
        u64Time := c.u64Time + c.u64AddTime
        u64TimestampOld := vPts.toUInt64 } := by
  have hbehind : vPts.toInt - c.u64TimestampOld.toInt64.toInt < 0 := by omega
  simp only [Clock.tick, Clock.difference, if_neg hold, if_neg hne, Int64.toInt64_toUInt64,
    if_pos hbehind, if_neg hadd]

theorem Clock.tick_again {c : Clock} {vPts : Int64} (hold : c.u64TimestampOld ≠ 0)
    (hsame : vPts.toUInt64 = c.u64TimestampOld) :
    c.tick vPts =
      { u64AddTime := 3600, u64Time := c.u64Time + 3600
        u64TimestampOld := c.u64TimestampOld } := by
  have hne : ¬ c.u64TimestampOld = 0 := hold
  simp [Clock.tick, Clock.difference, hsame, hne]

theorem Clock.tick_zero {c : Clock} {vPts : Int64} (hzero : vPts.toUInt64 = 0) :
    c.tick vPts =
      { u64AddTime := 3600, u64Time := c.u64Time + 3600
        u64TimestampOld := c.u64TimestampOld } := by
  by_cases hold : c.u64TimestampOld = 0
  · simp [Clock.tick, Clock.difference, hzero, hold]
  · simp [Clock.tick, Clock.difference, hzero, hold]

theorem Clock.tick_first {c : Clock} {vPts : Int64} (hold : c.u64TimestampOld = 0)
    (hne : vPts.toUInt64 ≠ 0) :
    c.tick vPts =
      { u64AddTime := 3600, u64Time := c.u64Time, u64TimestampOld := vPts.toUInt64 } := by
  simp [Clock.tick, Clock.difference, hold, hne]

end GbStream.Task
