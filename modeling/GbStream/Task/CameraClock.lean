import Mathlib.Data.List.Basic
import GbStream.Task.Clock

/-!
# The clock follows the camera

A stamp of the media server is an unsigned 64-bit number of milliseconds in two halves.
`recv_stream_cb` adds the low half as a signed number, so that a stamp whose low half has
its top bit set is read 2^32 too small.  The times of the frames are the differences of the
stamps as long as two stamps that follow each other are read with the same error.
-/

namespace GbStream.Task

open Support.Bytes Recv

/-! ## What `recv_stream_cb` reads -/

def sourceStamp (h : NetLayer) : Nat :=
  h.iTimeStampHigh.toUInt32.toNat * 2 ^ 32 + h.iTimeStampLow.toUInt32.toNat

def TopBit (t : Nat) : Prop := 2 ^ 31 ≤ t % 2 ^ 32

instance (t : Nat) : Decidable (TopBit t) := inferInstanceAs (Decidable (_ ≤ _))

/-- The stamp that is read for `t`. -/
def readStamp (t : Nat) : Int := t - if TopBit t then 2 ^ 32 else 0

theorem readStamp_cases (t : Nat) :
    (TopBit t ∧ readStamp t = t - 2 ^ 32) ∨ (¬ TopBit t ∧ readStamp t = t) := by
  unfold readStamp
  split
  · rename_i htop
    exact .inl ⟨htop, rfl⟩
  · rename_i htop
    exact .inr ⟨htop, Int.sub_zero _⟩

theorem toInt_toUInt32 (x : Int32) :
    x.toInt = x.toUInt32.toNat - (if 2 ^ 31 ≤ x.toUInt32.toNat then 2 ^ 32 else 0 : Int) := by
  have hbits : x.toInt = (x.toUInt32.toNat : Int).bmod (2 ^ 32) := BitVec.toInt_eq_toNat_bmod _
  have hlt := x.toUInt32.toNat_lt
  rw [hbits, Int.bmod_def]
  split <;> split <;> omega

theorem ofInt_eq_ofInt {x y : Int} :
    UInt64.ofInt x = UInt64.ofInt y ↔ x % 18446744073709551616 = y % 18446744073709551616 := by
  rw [← UInt64.toNat_inj, ← Int.natCast_inj, toNat_ofInt, toNat_ofInt]

theorem ofInt_ne_zero {x : Int}
    (h : -9223372036854775808 ≤ x ∧ x < 9223372036854775808 ∧ x ≠ 0) : UInt64.ofInt x ≠ 0 := by
  intro hzero
  have hvalue := toNat_ofInt x
  rw [hzero] at hvalue
  have hmod : x % 18446744073709551616 = 0 := hvalue.symm
  omega

theorem scaled_emod_eq {a b : Int} (hlo : 90 * a < 90 * b + 18446744073709551616)
    (hhi : 90 * b < 90 * a + 18446744073709551616) :
    90 * a % 18446744073709551616 = 90 * b % 18446744073709551616 ↔ a = b := by
  have hnear : (90 * a - 90 * b).natAbs < (18446744073709551616 : Int).natAbs := by omega
  have hcancel : 90 * a - 90 * b = 0 → a = b := by omega
  constructor
  · intro hmod
    have hdvd := Int.dvd_of_emod_eq_zero (Int.emod_eq_emod_iff_emod_sub_eq_zero.mp hmod)
    exact hcancel (Int.eq_zero_of_dvd_of_natAbs_lt_natAbs hdvd hnear)
  · intro heq
    rw [heq]

theorem vPts_frameRecord (h : NetLayer) (len : Int) (data : List UInt8) :
    (frameRecord h len data).stCmdHead.vPts.toUInt64 =
      UInt64.ofInt (90 * readStamp (sourceStamp h)) := by
  have hstamp : (frameRecord h len data).stCmdHead.vPts.toUInt64 =
    ((h.iTimeStampHigh.toInt64.toUInt64 <<< 32) + h.iTimeStampLow.toInt64.toUInt64) * 90 := rfl
  have hhigh := toNat_toUInt64 h.iTimeStampHigh.toInt64
  have hlow := toNat_toUInt64 h.iTimeStampLow.toInt64
  rw [Int32.toInt_toInt64, toInt_toUInt32] at hhigh hlow
  have hlt := h.iTimeStampLow.toUInt32.toNat_lt
  have hlt' := h.iTimeStampHigh.toUInt32.toNat_lt
  have hshift : h.iTimeStampHigh.toInt64.toUInt64.toNat * 2 ^ 32 % 18446744073709551616 =
      h.iTimeStampHigh.toUInt32.toNat * 2 ^ 32 := by
    split at hhigh <;> omega
  rw [hstamp]
  apply UInt64.toNat_inj.mp
  apply Int.natCast_inj.mp
  rw [UInt64.toNat_mul, UInt64.toNat_add, UInt64.toNat_shiftLeft, toNat_ofInt]
  have h32 : (32 : UInt64).toNat % 64 = 32 := rfl
  have h90 : (90 : UInt64).toNat = 90 := rfl
  rw [h32, h90, Nat.shiftLeft_eq, hshift]
  unfold readStamp sourceStamp
  generalize h.iTimeStampLow.toInt64.toUInt64.toNat = low at hlow ⊢
  generalize h.iTimeStampLow.toUInt32.toNat = l at *
  generalize h.iTimeStampHigh.toUInt32.toNat = u at *
  clear hhigh hshift h32 h90 hstamp
  have htop : TopBit (u * 2 ^ 32 + l) ↔ 2 ^ 31 ≤ l := by
    unfold TopBit
    omega
  by_cases hbit : 2 ^ 31 ≤ l
  · rw [if_pos (htop.mpr hbit)]
    rw [if_pos hbit] at hlow
    omega
  · rw [if_neg (mt htop.mp hbit)]
    rw [if_neg hbit] at hlow
    omega

/-! ## One frame -/

structure InRange (t : Nat) : Prop where
  pos : 0 < t
  lt : 90 * t < 2 ^ 63

section InRange

variable {t : Nat}

theorem readStamp_bounds (h : InRange t) :
    -9223372036854775808 ≤ 90 * readStamp t ∧ 90 * readStamp t < 9223372036854775808 ∧
      90 * readStamp t ≠ 0 := by
  obtain ⟨hpos, hlt⟩ := h
  have hread := readStamp_cases t
  unfold TopBit at hread
  omega

theorem ofInt_readStamp_ne_zero (h : InRange t) : UInt64.ofInt (90 * readStamp t) ≠ 0 := by
  exact ofInt_ne_zero (readStamp_bounds h)

theorem toInt_ofInt_readStamp (h : InRange t) :
    (UInt64.ofInt (90 * readStamp t)).toInt64.toInt = 90 * readStamp t := by
  obtain ⟨hlo, hhi, -⟩ := readStamp_bounds h
  have hbits : (UInt64.ofInt (90 * readStamp t)).toInt64.toInt =
      ((UInt64.ofInt (90 * readStamp t)).toNat : Int).bmod (2 ^ 64) := BitVec.toInt_eq_toNat_bmod _
  rw [hbits, toNat_ofInt, Int.bmod_def]
  split <;> omega

end InRange

/-- The clock when the frame with the stamp `t` has been timed, `gap` milliseconds behind
the frame before it. -/
structure Follows (c : Clock) (gap t : Nat) : Prop where
  old : c.u64TimestampOld = UInt64.ofInt (90 * readStamp t)
  add : c.u64AddTime = UInt64.ofInt (90 * gap)

/-- The frame with the stamp `u` is timed right behind the one with the stamp `t`: both
stamps are read with the same error, or the difference found before is the right one. -/
def Steady (gap t u : Nat) : Prop :=
  (TopBit t ↔ TopBit u) ∨ (¬ TopBit t ∧ TopBit u ∧ u - t < 2 ^ 32 ∧ u - t = gap)

instance (gap t u : Nat) : Decidable (Steady gap t u) := inferInstanceAs (Decidable (_ ∨ _))

section Tick

variable {c : Clock} {gap t u : Nat} {vPts : Int64}

/-- The difference that is found for the next frame, and the clock behind it. -/
theorem Follows.tick (h : Follows c gap t) (ht : InRange t) (hu : InRange u) (hlt : t < u)
    (hgap : InRange gap) (hv : vPts.toUInt64 = UInt64.ofInt (90 * readStamp u)) :
    ∃ d : Int, (c.tick vPts).u64Time = c.u64Time + UInt64.ofInt (90 * d) ∧
      (c.tick vPts).u64AddTime = UInt64.ofInt (90 * d) ∧
      (c.tick vPts).u64TimestampOld = UInt64.ofInt (90 * readStamp u) ∧
      (90 * d % 18446744073709551616 = 90 * (u - t : Nat) % 18446744073709551616 ↔
        Steady gap t u) := by
  have hold : c.u64TimestampOld ≠ 0 := by
    rw [h.old]
    exact ofInt_readStamp_ne_zero ht
  have hne : vPts.toUInt64 ≠ 0 := by
    rw [hv]
    exact ofInt_readStamp_ne_zero hu
  have hcur : vPts.toInt = 90 * readStamp u := by
    rw [← toInt_ofInt_readStamp hu, ← hv, Int64.toInt64_toUInt64]
  have hlast : c.u64TimestampOld.toInt64.toInt = 90 * readStamp t := by
    rw [h.old, toInt_ofInt_readStamp ht]
  obtain ⟨htpos, htlt⟩ := ht
  obtain ⟨hupos, hult⟩ := hu
  obtain ⟨hgpos, hglt⟩ := hgap
  have hreadt := readStamp_cases t
  have hreadu := readStamp_cases u
  rcases lt_trichotomy (readStamp t) (readStamp u) with hlater | hsame | hearlier
  · have hlt' : c.u64TimestampOld.toInt64.toInt < vPts.toInt := by omega
    have hdiff : vPts.toUInt64 - c.u64TimestampOld =
        UInt64.ofInt (90 * (readStamp u - readStamp t)) := by
      rw [hv, h.old, ofInt_sub_ofInt, Int.mul_sub]
    refine ⟨readStamp u - readStamp t, ?_, ?_, ?_, ?_⟩
    · rw [Clock.tick_later hold hne hlt', hdiff]
    · rw [Clock.tick_later hold hne hlt', hdiff]
    · rw [Clock.tick_later hold hne hlt', hv]
    · rw [scaled_emod_eq (by omega) (by omega)]
      unfold Steady TopBit at *
      omega
  · -- equal readings of different stamps are 2^32 apart, and have the same low half
    unfold TopBit at hreadt hreadu
    omega
  · have hlt' : vPts.toInt < c.u64TimestampOld.toInt64.toInt := by omega
    have hadd : c.u64AddTime ≠ 0 := by
      rw [h.add]
      exact ofInt_ne_zero (by omega)
    refine ⟨gap, ?_, ?_, ?_, ?_⟩
    · rw [Clock.tick_earlier hold hadd hne hlt', h.add]
    · rw [Clock.tick_earlier hold hadd hne hlt', h.add]
    · rw [Clock.tick_earlier hold hadd hne hlt', hv]
    · rw [scaled_emod_eq (by omega) (by omega)]
      unfold Steady TopBit at *
      omega

/-- The next frame is timed right exactly when it is steady, and the clock follows on. -/
theorem Follows.next (h : Follows c gap t) (ht : InRange t) (hu : InRange u) (hlt : t < u)
    (hgap : InRange gap) (hv : vPts.toUInt64 = UInt64.ofInt (90 * readStamp u)) :
    ((c.tick vPts).u64Time = c.u64Time + UInt64.ofInt (90 * (u - t : Nat)) ↔ Steady gap t u) ∧
      (Steady gap t u → Follows (c.tick vPts) (u - t) u) := by
  obtain ⟨d, htime, hadd, hold, hsteady⟩ := h.tick ht hu hlt hgap hv
  rw [← ofInt_eq_ofInt] at hsteady
  refine ⟨?_, fun hs => ⟨hold, hadd.trans (hsteady.mpr hs)⟩⟩
  rw [htime, UInt64.add_right_inj]
  exact hsteady

end Tick

/-! ## A recording -/

namespace VideoFrame

def stamp (f : VideoFrame) : Nat := sourceStamp f.stPackage

theorem vPts_record (f : VideoFrame) :
    f.record.stCmdHead.vPts.toUInt64 = UInt64.ofInt (90 * readStamp f.stamp) :=
  vPts_frameRecord f.stPackage f.data.length f.data

end VideoFrame

/-- Every stamp is steady behind the one before it, the first of them behind `t`, which came
`gap` milliseconds behind its own. -/
def AllSteady (gap t : Nat) : List Nat → Prop
  | [] => True
  | u :: us => Steady gap t u ∧ AllSteady (u - t) u us

instance decidableAllSteady (gap t : Nat) (us : List Nat) : Decidable (AllSteady gap t us) :=
  match us with
  | [] => .isTrue trivial
  | u :: us =>
      have := decidableAllSteady (u - t) u us
      inferInstanceAs (Decidable (_ ∧ _))

theorem videoTimes_record (c : Clock) (f : VideoFrame) (frames : List VideoFrame) :
    videoTimes c ((f :: frames).map VideoFrame.record) =
      (c.tick f.record.stCmdHead.vPts).u64Time ::
        videoTimes (c.tick f.record.stCmdHead.vPts) (frames.map VideoFrame.record) := by
  rw [List.map_cons, videoTimes, if_pos f.isVideo_record]

theorem videoTimes_follows (frames : List VideoFrame) :
    ∀ {c : Clock} {gap t : Nat}, Follows c gap t → InRange t → InRange gap →
      (t :: frames.map VideoFrame.stamp).Pairwise (· < ·) →
      (∀ f ∈ frames, InRange f.stamp) →
      (videoTimes c (frames.map VideoFrame.record) =
          frames.map (fun f => c.u64Time + UInt64.ofInt (90 * (f.stamp - t : Nat))) ↔
        AllSteady gap t (frames.map VideoFrame.stamp)) := by
  induction frames with
  | nil =>
      intro c gap t _ _ _ _ _
      exact ⟨fun _ => trivial, fun _ => rfl⟩
  | cons f frames ih =>
      intro c gap t hfollows ht hgap hincreasing hrange
      obtain ⟨hbehind, hincreasing'⟩ := List.pairwise_cons.mp hincreasing
      have hlt : t < f.stamp := hbehind _ List.mem_cons_self
      have hf : InRange f.stamp := hrange f List.mem_cons_self
      have hgap' : InRange (f.stamp - t) := ⟨by omega, by have := hf.lt; omega⟩
      obtain ⟨htime, hfollows'⟩ := hfollows.next ht hf hlt hgap f.vPts_record
      rw [videoTimes_record, List.map_cons, List.cons.injEq, htime, List.map_cons, AllSteady]
      refine and_congr_right fun hsteady => ?_
      rw [← ih (hfollows' hsteady) hf hgap' hincreasing'
        fun g hg => hrange g (List.mem_cons_of_mem _ hg)]
      -- the differences to `t` are those to the stamp of this frame, and that one's
      have hshift : frames.map (fun g => c.u64Time + UInt64.ofInt (90 * (g.stamp - t : Nat))) =
          frames.map (fun g => (c.tick f.record.stCmdHead.vPts).u64Time +
            UInt64.ofInt (90 * (g.stamp - f.stamp : Nat))) := by
        apply List.map_congr_left
        intro g hg
        have hlater : f.stamp < g.stamp :=
          (List.pairwise_cons.mp hincreasing').1 _ (List.mem_map_of_mem hg)
        rw [htime.mpr hsteady, UInt64.add_assoc, ← UInt64.ofInt_add]
        congr 2
        omega
      rw [hshift]

/-- **The times are those of the camera.** -/
theorem videoTimes_camera (first : VideoFrame) (frames : List VideoFrame)
    (hincreasing : ((first :: frames).map VideoFrame.stamp).Pairwise (· < ·))
    (hrange : ∀ f ∈ first :: frames, 0 < f.stamp ∧ 90 * f.stamp < 2 ^ 63) :
    (videoTimes {} ((first :: frames).map VideoFrame.record)).map UInt64.toNat =
        (first :: frames).map (fun f => 90 * (f.stamp - first.stamp)) ↔
      AllSteady 40 first.stamp (frames.map VideoFrame.stamp) := by
  have hrange' : ∀ f ∈ first :: frames, InRange f.stamp := fun f hf =>
    ⟨(hrange f hf).1, (hrange f hf).2⟩
  have hfirst := hrange' first List.mem_cons_self
  have hne : first.record.stCmdHead.vPts.toUInt64 ≠ 0 := by
    rw [first.vPts_record]
    exact ofInt_readStamp_ne_zero hfirst
  have hstart := Clock.tick_first (c := {}) rfl hne
  have hfollows : Follows (Clock.tick {} first.record.stCmdHead.vPts) 40 first.stamp := by
    rw [hstart]
    exact ⟨first.vPts_record, rfl⟩
  rw [← videoTimes_follows frames hfollows hfirst ⟨by decide, by decide⟩ hincreasing
    fun f hf => hrange' f (List.mem_cons_of_mem _ hf)]
  have hzero : (Clock.tick {} first.record.stCmdHead.vPts).u64Time = 0 := by rw [hstart]
  rw [videoTimes_record, hzero, List.map_cons, List.map_cons, List.cons.injEq]
  have hvalues : frames.map (fun f => 90 * (f.stamp - first.stamp)) =
      (frames.map fun f => 0 + UInt64.ofInt (90 * (f.stamp - first.stamp : Nat))).map
        UInt64.toNat := by
    rw [List.map_map]
    apply List.map_congr_left
    intro f hf
    have hlt := (hrange f (List.mem_cons_of_mem _ hf)).2
    apply Int.natCast_inj.mp
    rw [Function.comp, UInt64.zero_add, toNat_ofInt]
    omega
  rw [hvalues]
  constructor
  · rintro ⟨-, htimes⟩
    exact List.map_injective_iff.mpr (fun _ _ => UInt64.toNat_inj.mp) htimes
  · intro htimes
    exact ⟨by simp, congrArg _ htimes⟩

/-- A frame with a stamp. -/
def stampedFrame (high low : UInt32) : VideoFrame where
  stPackage :=
    { readNetLayer [] with
      byDataType := 13, byFrameType := 1
      iTimeStampHigh := high.toInt32, iTimeStampLow := low.toInt32 }
  data := [0]
  video := .inr rfl
  data_ne_nil := List.cons_ne_nil _ _
  length_le := by decide

/-- Two frames at 25 frames a second, the second past the top bit of the low half. -/
theorem videoTimes_camera_two :
    (videoTimes {} ([stampedFrame 0 2147483640, stampedFrame 0 2147483680].map
        VideoFrame.record)).map UInt64.toNat =
      [stampedFrame 0 2147483640, stampedFrame 0 2147483680].map
        (fun f => 90 * (f.stamp - (stampedFrame 0 2147483640).stamp)) ↔
      AllSteady 40 (stampedFrame 0 2147483640).stamp
        ([stampedFrame 0 2147483680].map VideoFrame.stamp) :=
  videoTimes_camera (stampedFrame 0 2147483640) [stampedFrame 0 2147483680] (by decide)
    (by decide)

/-- Ten frames a second, the second frame where the top bit is cleared again. -/
theorem videoTimes_camera_wraps :
    (videoTimes {} ([stampedFrame 0 4294967196, stampedFrame 1 0].map
        VideoFrame.record)).map UInt64.toNat = [0, 386547065640] ∧
      [stampedFrame 0 4294967196, stampedFrame 1 0].map
        (fun f => 90 * (f.stamp - (stampedFrame 0 4294967196).stamp)) = [0, 9000] := by
  decide

end GbStream.Task
