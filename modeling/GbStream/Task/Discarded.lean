import Mathlib.Data.List.Basic
import GbStream.Task.Clock

/-!
# Records that move the clock and are not sent

The loop moves its clock for every record it pops and sends the video frames only.  Two
clocks are run side by side, one over all records and one over the video frames, and are
compared whenever a video frame has been timed.
-/

namespace GbStream.Task

open Recv

/-- The time between any two frames is the same in both runs. -/
def SameGaps (xs ys : List UInt64) : Prop :=
  ∀ (i j : Nat) (a b a' b' : UInt64), xs[i]? = some a → xs[j]? = some b →
    ys[i]? = some a' → ys[j]? = some b' → b - a = b' - a'

/-- Two runs of the same length, compared frame by frame with their first frames. -/
theorem sameGaps_cons {a a' : UInt64} {xs ys : List UInt64} (hlength : xs.length = ys.length) :
    SameGaps (a :: xs) (a' :: ys) ↔ xs = ys.map (· + (a - a')) := by
  have hmove (b b' : UInt64) : b - a = b' - a' ↔ b = b' + (a - a') := by
    rw [UInt64.sub_eq_iff_eq_add]
    constructor
    · rintro rfl
      grind
    · rintro rfl
      grind
  constructor
  · intro h
    apply List.ext_getElem (by rw [List.length_map, hlength])
    intro n hn hn'
    rw [List.length_map] at hn'
    rw [List.getElem_map]
    exact (hmove _ _).mp (h 0 (n + 1) a xs[n] a' ys[n] rfl (List.getElem?_eq_getElem hn) rfl
      (List.getElem?_eq_getElem hn'))
  · rintro rfl
    -- every frame of the first run is `a - a'` behind its frame of the second
    have hat : ∀ (i : Nat) (b b' : UInt64), (a :: ys.map (· + (a - a')))[i]? = some b →
        (a' :: ys)[i]? = some b' → b = b' + (a - a') := by
      intro i b b' hb hb'
      cases i with
      | zero =>
          obtain rfl := Option.some.inj hb
          obtain rfl := Option.some.inj hb'
          grind
      | succ i =>
          rw [List.getElem?_cons_succ] at hb hb'
          rw [List.getElem?_map, hb', Option.map_some] at hb
          exact (Option.some.inj hb).symm
    intro i j b c b' c' hb hc hb' hc'
    rw [hat i b b' hb hb', hat j c c' hc hc']
    grind

/-! ## The condition -/

/-- The stamps rise from `last` on, none of them zero. -/
def Ascending (last : Int64) : List Int64 → Prop
  | [] => True
  | x :: xs => x ≠ 0 ∧ last.toInt < x.toInt ∧ Ascending x xs

instance decidableAscending : ∀ (last : Int64) (xs : List Int64), Decidable (Ascending last xs)
  | _, [] => inferInstanceAs (Decidable True)
  | last, x :: xs =>
      have := decidableAscending x xs
      inferInstanceAs (Decidable (x ≠ 0 ∧ last.toInt < x.toInt ∧ Ascending x xs))

def lastStamp (old vPts : Int64) : Int64 := if vPts = 0 then old else vPts

/-- The other records between two video frames do no harm: their stamps rise from the
earlier frame to the later one.  Without such records a frame that steps back must find the
difference that the video frames alone leave. -/
def Harmless (old : Int64) (fresh : Bool) (gap : List Int64) (vPts : Int64) : Prop :=
  if gap = [] then old ≠ 0 ∧ vPts ≠ 0 ∧ vPts.toInt < old.toInt → fresh = true
  else old ≠ 0 ∧ Ascending old (gap ++ [vPts])

instance (old : Int64) (fresh : Bool) (gap : List Int64) (vPts : Int64) :
    Decidable (Harmless old fresh gap vPts) :=
  inferInstanceAs (Decidable (if gap = [] then _ else _))

/-- The difference found for a frame is the one that the video frames alone leave. -/
def freshAfter (old : Int64) (fresh : Bool) (gap : List Int64) (vPts : Int64) : Bool :=
  if gap = [] then
    if old ≠ 0 ∧ vPts ≠ 0 ∧ vPts.toInt < old.toInt then fresh else true
  else false

/-- Behind a video frame and the stamps `gap` of other records. -/
def UndisturbedFrom (old : Int64) (fresh : Bool) (gap : List Int64) : List QueueArgs → Prop
  | [] => True
  | record :: records =>
      let vPts := record.stCmdHead.vPts
      if isVideo record then
        Harmless old fresh gap vPts ∧
          UndisturbedFrom (lastStamp old vPts) (freshAfter old fresh gap vPts) [] records
      else UndisturbedFrom old fresh (gap ++ [vPts]) records

instance decidableUndisturbedFrom :
    ∀ (old : Int64) (fresh : Bool) (gap : List Int64) (records : List QueueArgs),
      Decidable (UndisturbedFrom old fresh gap records)
  | _, _, _, [] => inferInstanceAs (Decidable True)
  | old, fresh, gap, record :: records =>
      let vPts := record.stCmdHead.vPts
      have :=
        decidableUndisturbedFrom (lastStamp old vPts) (freshAfter old fresh gap vPts) [] records
      have := decidableUndisturbedFrom old fresh (gap ++ [vPts]) records
      inferInstanceAs (Decidable (if isVideo record then _ ∧ _ else _))

/-- In front of the first video frame; `silent` when no stamp but zero has come. -/
def Undisturbed (silent : Bool) : List QueueArgs → Prop
  | [] => True
  | record :: records =>
      let vPts := record.stCmdHead.vPts
      if isVideo record then
        (silent = true ∨ vPts ≠ 0) ∧ UndisturbedFrom vPts silent [] records
      else Undisturbed (silent && vPts = 0) records

instance decidableUndisturbed :
    ∀ (silent : Bool) (records : List QueueArgs), Decidable (Undisturbed silent records)
  | _, [] => inferInstanceAs (Decidable True)
  | silent, record :: records =>
      let vPts := record.stCmdHead.vPts
      have := decidableUndisturbed (silent && vPts = 0) records
      inferInstanceAs (Decidable (if isVideo record then _ ∧ _ else _))

/-! ## Two clocks -/

theorem toUInt64_eq_zero {x : Int64} : x.toUInt64 = 0 ↔ x = 0 := by
  constructor
  · intro h
    rw [← Int64.toInt64_toUInt64 x, h]
    rfl
  · rintro rfl
    rfl

theorem Clock.tick_add_ne_zero (c : Clock) (vPts : Int64) : (c.tick vPts).u64AddTime ≠ 0 := by
  unfold Clock.tick
  dsimp only
  split
  · decide
  · assumption

/-- A clock over all records and one over the video frames, when both have timed a frame. -/
structure Aligned (old : Int64) (fresh : Bool) (c d : Clock) : Prop where
  full : c.u64TimestampOld = old.toUInt64
  video : d.u64TimestampOld = old.toUInt64
  full_add : c.u64AddTime ≠ 0
  video_add : d.u64AddTime ≠ 0
  same_add : fresh = true → c.u64AddTime = d.u64AddTime

section Clocks

variable {c d : Clock} {old vPts : Int64} {fresh : Bool} {gap : List Int64}

theorem foldl_tick_ascending (xs : List Int64) :
    ∀ {c : Clock} {last : Int64}, last ≠ 0 → c.u64TimestampOld = last.toUInt64 →
      Ascending last xs →
      (xs.foldl Clock.tick c).u64Time - (xs.foldl Clock.tick c).u64TimestampOld =
          c.u64Time - c.u64TimestampOld ∧
        (xs.foldl Clock.tick c).u64TimestampOld = (xs.getLastD last).toUInt64 := by
  induction xs with
  | nil => exact fun _ hold _ => ⟨rfl, hold⟩
  | cons x xs ih =>
      intro c last hlast hold hascending
      obtain ⟨hx, hlt, hrest⟩ := hascending
      have htick := @Clock.tick_later c x
        (by rw [hold]; exact mt toUInt64_eq_zero.mp hlast) (mt toUInt64_eq_zero.mp hx)
        (by rw [hold, Int64.toInt64_toUInt64]; exact hlt)
      obtain ⟨htime, hold'⟩ := ih (c := c.tick x) hx (by rw [htick]) hrest
      rw [List.foldl_cons, List.getLastD_cons]
      refine ⟨?_, hold'⟩
      rw [htime, htick]
      grind

theorem Aligned.tick (h : Aligned old fresh c d) (hharmless : Harmless old fresh [] vPts) :
    (c.tick vPts).u64Time - c.u64Time = (d.tick vPts).u64Time - d.u64Time ∧
      Aligned (lastStamp old vPts) (freshAfter old fresh [] vPts) (c.tick vPts) (d.tick vPts) := by
  have hc := Clock.tick_add_ne_zero c vPts
  have hd := Clock.tick_add_ne_zero d vPts
  unfold Harmless at hharmless
  rw [if_pos rfl] at hharmless
  unfold lastStamp freshAfter
  rw [if_pos rfl]
  by_cases hzero : vPts = 0
  · have hzero' := toUInt64_eq_zero.mpr hzero
    rw [if_pos hzero]
    rw [Clock.tick_zero hzero'] at hc ⊢
    rw [Clock.tick_zero hzero'] at hd ⊢
    exact ⟨by grind, ⟨h.full, h.video, hc, hd, fun _ => rfl⟩⟩
  have hne := mt toUInt64_eq_zero.mp hzero
  rw [if_neg hzero]
  by_cases hold : old = 0
  · have hfull : c.u64TimestampOld = 0 := h.full.trans (toUInt64_eq_zero.mpr hold)
    have hvideo : d.u64TimestampOld = 0 := h.video.trans (toUInt64_eq_zero.mpr hold)
    rw [Clock.tick_first hfull hne] at hc ⊢
    rw [Clock.tick_first hvideo hne] at hd ⊢
    exact ⟨by grind, ⟨rfl, rfl, hc, hd, fun _ => rfl⟩⟩
  have hfull : c.u64TimestampOld ≠ 0 := by
    rw [h.full]
    exact mt toUInt64_eq_zero.mp hold
  have hvideo : d.u64TimestampOld ≠ 0 := by
    rw [h.video]
    exact mt toUInt64_eq_zero.mp hold
  have hfullOld : c.u64TimestampOld.toInt64.toInt = old.toInt := by
    rw [h.full, Int64.toInt64_toUInt64]
  have hvideoOld : d.u64TimestampOld.toInt64.toInt = old.toInt := by
    rw [h.video, Int64.toInt64_toUInt64]
  rcases lt_trichotomy vPts.toInt old.toInt with hearlier | hsame | hlater
  · have hfresh := hharmless ⟨hold, hzero, hearlier⟩
    have hadd := h.same_add hfresh
    rw [if_pos ⟨hold, hzero, hearlier⟩]
    rw [Clock.tick_earlier hfull h.full_add hne (by omega)] at hc ⊢
    rw [Clock.tick_earlier hvideo h.video_add hne (by omega)] at hd ⊢
    exact ⟨by grind, ⟨rfl, rfl, hc, hd, fun _ => hadd⟩⟩
  · obtain rfl : vPts = old := Int64.toInt_inj.mp hsame
    rw [if_neg (by omega)]
    rw [Clock.tick_again hfull h.full.symm] at hc ⊢
    rw [Clock.tick_again hvideo h.video.symm] at hd ⊢
    exact ⟨by grind, ⟨h.full, h.video, hc, hd, fun _ => rfl⟩⟩
  · rw [if_neg (by omega)]
    rw [Clock.tick_later hfull hne (by omega)] at hc ⊢
    rw [Clock.tick_later hvideo hne (by omega)] at hd ⊢
    refine ⟨?_, ⟨rfl, rfl, hc, hd, fun _ => ?_⟩⟩
    · rw [h.full, h.video]
      grind
    · rw [h.full, h.video]

theorem Ascending.last (xs : List Int64) :
    ∀ {last : Int64}, Ascending last (xs ++ [vPts]) → vPts ≠ 0 ∧ last.toInt < vPts.toInt := by
  induction xs with
  | nil => exact fun h => ⟨h.1, h.2.1⟩
  | cons x xs ih =>
      intro last h
      obtain ⟨hne, hlt⟩ := ih h.2.2
      exact ⟨hne, by have := h.2.1; omega⟩

theorem Aligned.tickGap (h : Aligned old fresh c d) (hgap : gap ≠ [])
    (hharmless : Harmless old fresh gap vPts) :
    ((gap.foldl Clock.tick c).tick vPts).u64Time - c.u64Time =
        (d.tick vPts).u64Time - d.u64Time ∧
      Aligned (lastStamp old vPts) (freshAfter old fresh gap vPts)
        ((gap.foldl Clock.tick c).tick vPts) (d.tick vPts) := by
  unfold Harmless at hharmless
  rw [if_neg hgap] at hharmless
  obtain ⟨hold, hascending⟩ := hharmless
  obtain ⟨hzero, hlt⟩ := Ascending.last gap hascending
  have hc := Clock.tick_add_ne_zero (gap.foldl Clock.tick c) vPts
  have hd := Clock.tick_add_ne_zero d vPts
  obtain ⟨htime, hlast⟩ := foldl_tick_ascending _ hold h.full hascending
  rw [List.getLastD_concat] at hlast
  simp only [List.foldl_append, List.foldl_cons, List.foldl_nil] at htime hlast
  have hvideo := @Clock.tick_later d vPts
    (by rw [h.video]; exact mt toUInt64_eq_zero.mp hold) (mt toUInt64_eq_zero.mp hzero)
    (by rw [h.video, Int64.toInt64_toUInt64]; exact hlt)
  unfold lastStamp freshAfter
  rw [if_neg hzero, if_neg hgap]
  refine ⟨?_, ⟨hlast, by rw [hvideo], hc, hd, fun hfresh => absurd hfresh (by decide)⟩⟩
  rw [hlast, h.full] at htime
  rw [hvideo, h.video]
  grind

theorem Aligned.next (h : Aligned old fresh c d) (hharmless : Harmless old fresh gap vPts) :
    ((gap.foldl Clock.tick c).tick vPts).u64Time - c.u64Time =
        (d.tick vPts).u64Time - d.u64Time ∧
      Aligned (lastStamp old vPts) (freshAfter old fresh gap vPts)
        ((gap.foldl Clock.tick c).tick vPts) (d.tick vPts) := by
  by_cases hgap : gap = []
  · subst hgap
    exact h.tick hharmless
  · exact h.tickGap hgap hharmless

theorem Aligned.videoTimes (records : List QueueArgs) :
    ∀ {c d : Clock} {old : Int64} {fresh : Bool} {gap : List Int64}, Aligned old fresh c d →
      UndisturbedFrom old fresh gap records →
      videoTimes (gap.foldl Clock.tick c) records =
        (videoTimes d (records.filter isVideo)).map (· + (c.u64Time - d.u64Time)) := by
  induction records with
  | nil => exact fun _ _ => rfl
  | cons record records ih =>
      intro c d old fresh gap h hundisturbed
      rw [UndisturbedFrom] at hundisturbed
      rw [Task.videoTimes]
      by_cases hvideo : isVideo record = true
      · rw [if_pos hvideo] at hundisturbed
        obtain ⟨hharmless, hrest⟩ := hundisturbed
        obtain ⟨htime, haligned⟩ := h.next hharmless
        have htimes := ih haligned hrest
        rw [List.foldl_nil] at htimes
        rw [if_pos hvideo, List.filter_cons_of_pos hvideo, Task.videoTimes, if_pos hvideo,
          List.map_cons, htimes]
        refine List.cons_eq_cons.mpr ⟨by grind, ?_⟩
        congr 1
        funext x
        grind
      · rw [if_neg hvideo] at hundisturbed
        rw [if_neg hvideo, List.filter_cons_of_neg hvideo]
        have htimes := ih h hundisturbed
        rw [List.foldl_append] at htimes
        exact htimes

theorem Clock.tick_old (c : Clock) (hne : vPts ≠ 0) :
    (c.tick vPts).u64TimestampOld = vPts.toUInt64 := by
  have hne' := mt toUInt64_eq_zero.mp hne
  by_cases hold : c.u64TimestampOld = 0
  · simp [Clock.tick, Clock.difference, hold]
  · simp [Clock.tick, Clock.difference, hold, hne']

theorem Aligned.first {silent : Bool} (hsilent : silent = true → c.u64TimestampOld = 0)
    (hallowed : silent = true ∨ vPts ≠ 0) :
    Aligned vPts silent (c.tick vPts) (Clock.tick {} vPts) := by
  have hc := Clock.tick_add_ne_zero c vPts
  have hd := Clock.tick_add_ne_zero {} vPts
  by_cases hzero : vPts = 0
  · obtain rfl : silent = true := by
      rcases hallowed with h | h
      · exact h
      · exact absurd hzero h
    have hzero' := toUInt64_eq_zero.mpr hzero
    rw [Clock.tick_zero hzero'] at hc ⊢
    rw [Clock.tick_zero hzero'] at hd ⊢
    exact ⟨(hsilent rfl).trans hzero'.symm, hzero'.symm, hc, hd, fun _ => rfl⟩
  · refine ⟨Clock.tick_old c hzero, Clock.tick_old {} hzero, hc, hd, fun h => ?_⟩
    have hne := mt toUInt64_eq_zero.mp hzero
    rw [Clock.tick_first (hsilent h) hne, Clock.tick_first rfl hne]

theorem length_videoTimes (c : Clock) (records : List QueueArgs) :
    (videoTimes c records).length = (records.filter isVideo).length := by
  induction records generalizing c with
  | nil => rfl
  | cons record records ih =>
      rw [videoTimes]
      by_cases hvideo : isVideo record = true
      · rw [if_pos hvideo, List.filter_cons_of_pos hvideo, List.length_cons, ih, List.length_cons]
      · rw [if_neg hvideo, List.filter_cons_of_neg hvideo, ih]

theorem length_videoTimes_filter (c d : Clock) (records : List QueueArgs) :
    (videoTimes c records).length = (videoTimes d (records.filter isVideo)).length := by
  rw [length_videoTimes, length_videoTimes, List.filter_filter]
  simp only [Bool.and_self]

end Clocks

theorem Undisturbed.sameGaps (records : List QueueArgs) :
    ∀ {c : Clock} {silent : Bool}, (silent = true → c.u64TimestampOld = 0) →
      Undisturbed silent records →
      SameGaps (videoTimes c records) (videoTimes {} (records.filter isVideo)) := by
  induction records with
  | nil =>
      intro c silent _ _ i j a b a' b' ha
      cases ha
  | cons record records ih =>
      intro c silent hsilent hundisturbed
      rw [Undisturbed] at hundisturbed
      rw [videoTimes]
      by_cases hvideo : isVideo record = true
      · rw [if_pos hvideo] at hundisturbed
        obtain ⟨hallowed, hrest⟩ := hundisturbed
        rw [if_pos hvideo, List.filter_cons_of_pos hvideo, videoTimes, if_pos hvideo,
          sameGaps_cons (length_videoTimes_filter _ _ _)]
        exact Aligned.videoTimes records (Aligned.first hsilent hallowed) hrest
      · rw [if_neg hvideo] at hundisturbed
        rw [if_neg hvideo, List.filter_cons_of_neg hvideo]
        refine ih (fun h => ?_) hundisturbed
        obtain ⟨hs, hzero⟩ := Bool.and_eq_true_iff.mp h
        rw [Clock.tick_zero (toUInt64_eq_zero.mpr (of_decide_eq_true hzero))]
        exact hsilent hs

/-! ## What the other records do to a rising run -/

/-- The video frames rise from stamp to stamp, and no stamp is above `limit`, so low that the
clock cannot come round. -/
structure Rising (limit : Nat) (records : List QueueArgs) : Prop where
  bounded : ∀ r ∈ records, 0 ≤ r.stCmdHead.vPts.toInt ∧ r.stCmdHead.vPts.toInt ≤ limit
  rising : (0 :: (records.filter isVideo).map fun r => r.stCmdHead.vPts.toInt).Pairwise (· < ·)
  short : records.length * (2 * limit + 3600) < 2 ^ 64

/-- A clock whose last stamp and last difference are within the limit. -/
structure Within (limit : Nat) (c : Clock) (last : Int64) : Prop where
  old : c.u64TimestampOld = last.toUInt64
  pos : 0 < last.toInt
  le : last.toInt ≤ limit
  add_ne_zero : c.u64AddTime ≠ 0
  add_le : c.u64AddTime.toNat ≤ limit + 3600

section Drift

variable {limit : Nat} {c : Clock} {last x : Int64}

/-- One record: the time gains on the stamps, unless the stamp is a later one. -/
theorem Within.tick (h : Within limit c last) (hx : 0 ≤ x.toInt) (hle : x.toInt ≤ limit)
    (hlimit : limit < 2 ^ 63) :
    ∃ gain : Nat, (c.tick x).u64Time - (c.tick x).u64TimestampOld =
        c.u64Time - c.u64TimestampOld + UInt64.ofInt gain ∧
      gain ≤ 2 * limit + 3600 ∧ (gain = 0 → x ≠ 0 ∧ last.toInt < x.toInt) ∧
      Within limit (c.tick x) (lastStamp last x) := by
  obtain ⟨hold, hpos, hlast, hadd, haddLe⟩ := h
  have hlastNe : last ≠ 0 := by
    rintro rfl
    exact absurd hpos (by decide)
  have holdNe : c.u64TimestampOld ≠ 0 := by
    rw [hold]
    exact mt toUInt64_eq_zero.mp hlastNe
  have holdInt : c.u64TimestampOld.toInt64.toInt = last.toInt := by
    rw [hold, Int64.toInt64_toUInt64]
  by_cases hzero : x = 0
  · refine ⟨3600, ?_, by omega, by omega, ?_⟩
    · rw [Clock.tick_zero (toUInt64_eq_zero.mpr hzero)]
      change c.u64Time + UInt64.ofInt 3600 - c.u64TimestampOld = _
      grind
    · rw [Clock.tick_zero (toUInt64_eq_zero.mpr hzero), lastStamp, if_pos hzero]
      exact ⟨hold, hpos, hlast, (by decide : (3600 : UInt64) ≠ 0), by change 3600 ≤ _; omega⟩
  have hne := mt toUInt64_eq_zero.mp hzero
  have hxpos : 0 < x.toInt := by
    rcases Int.lt_or_eq_of_le hx with hlt | heq
    · exact hlt
    · exact absurd (Int64.toInt_inj.mp heq.symm) hzero
  rw [lastStamp, if_neg hzero]
  rcases lt_trichotomy x.toInt last.toInt with hearlier | hsame | hlater
  · have htick := Clock.tick_earlier holdNe hadd hne (by omega)
    have hback : x.toUInt64 = last.toUInt64 - UInt64.ofInt (last.toInt - x.toInt) := by
      rw [toUInt64_eq_ofInt, toUInt64_eq_ofInt, ofInt_sub_ofInt]
      congr 1
      omega
    have hgain : ((c.u64AddTime.toNat + (last.toInt - x.toInt).toNat : Nat) : Int) =
        c.u64AddTime.toNat + (last.toInt - x.toInt) := by omega
    refine ⟨c.u64AddTime.toNat + (last.toInt - x.toInt).toNat, ?_, by omega, by omega, ?_⟩
    · rw [htick, hgain, UInt64.ofInt_add, ofInt_toNat, hold, hback]
      grind
    · rw [htick]
      exact ⟨rfl, hxpos, hle, hadd, haddLe⟩
  · obtain rfl : x = last := Int64.toInt_inj.mp hsame
    have htick := Clock.tick_again holdNe hold.symm
    refine ⟨3600, ?_, by omega, by omega, ?_⟩
    · rw [htick]
      change c.u64Time + UInt64.ofInt 3600 - c.u64TimestampOld = _
      grind
    · rw [htick]
      exact ⟨hold, hpos, hlast, (by decide : (3600 : UInt64) ≠ 0), by change 3600 ≤ _; omega⟩
  · have htick := Clock.tick_later holdNe hne (by omega)
    refine ⟨0, ?_, by omega, fun _ => ⟨hzero, hlater⟩, ?_⟩
    · rw [htick]
      change _ = c.u64Time - c.u64TimestampOld + 0
      grind
    · have hmoved := Clock.tick_add_ne_zero c x
      rw [htick] at hmoved ⊢
      refine ⟨rfl, hxpos, hle, hmoved, ?_⟩
      have hdiff : x.toUInt64 - c.u64TimestampOld = UInt64.ofInt (x.toInt - last.toInt) := by
        rw [hold, toUInt64_eq_ofInt, toUInt64_eq_ofInt, ofInt_sub_ofInt]
      have hvalue := toNat_ofInt (x.toInt - last.toInt)
      rw [← hdiff] at hvalue
      change (x.toUInt64 - c.u64TimestampOld).toNat ≤ _
      omega

/-- A run of records: what the time gains on the stamps, and nothing only when they rise. -/
theorem Within.foldl (hlimit : limit < 2 ^ 63) (xs : List Int64) :
    ∀ {c : Clock} {last : Int64}, Within limit c last →
      (∀ x ∈ xs, 0 ≤ x.toInt ∧ x.toInt ≤ limit) →
      ∃ gain : Nat, (xs.foldl Clock.tick c).u64Time - (xs.foldl Clock.tick c).u64TimestampOld =
          c.u64Time - c.u64TimestampOld + UInt64.ofInt gain ∧
        gain ≤ xs.length * (2 * limit + 3600) ∧ (gain = 0 → Ascending last xs) ∧
        ∃ last', Within limit (xs.foldl Clock.tick c) last' := by
  induction xs with
  | nil =>
      intro c last h _
      refine ⟨0, ?_, by omega, fun _ => trivial, last, h⟩
      change _ = _ + (0 : UInt64)
      rw [UInt64.add_zero, List.foldl_nil]
  | cons x xs ih =>
      intro c last h hbounds
      obtain ⟨hx, hle⟩ := hbounds x List.mem_cons_self
      obtain ⟨gain, htime, hgain, hzero, hwithin⟩ := h.tick hx hle hlimit
      obtain ⟨gain', htime', hgain', hzero', hwithin'⟩ :=
        ih hwithin fun y hy => hbounds y (List.mem_cons_of_mem _ hy)
      refine ⟨gain + gain', ?_, ?_, fun hsum => ?_, hwithin'⟩
      · rw [List.foldl_cons, htime', htime, Int.natCast_add, UInt64.ofInt_add, UInt64.add_assoc]
      · rw [List.length_cons, Nat.succ_mul]
        omega
      · obtain ⟨hne, hlt⟩ := hzero (by omega)
        have hrest := hzero' (by omega)
        rw [lastStamp, if_neg hne] at hrest
        exact ⟨hne, hlt, hrest⟩

def Before (limit : Nat) (c : Clock) : Prop :=
  c.u64TimestampOld = 0 ∨ ∃ last, Within limit c last

theorem Before.tick (h : Before limit c) (hlimit : limit < 2 ^ 63) (hx : 0 ≤ x.toInt)
    (hle : x.toInt ≤ limit) :
    Before limit (c.tick x) ∧ (x ≠ 0 → Within limit (c.tick x) x) := by
  rcases h with hold | ⟨last, hwithin⟩
  · by_cases hzero : x = 0
    · rw [Clock.tick_zero (toUInt64_eq_zero.mpr hzero)]
      exact ⟨.inl hold, fun hne => absurd hzero hne⟩
    · have hxpos : 0 < x.toInt := by
        rcases Int.lt_or_eq_of_le hx with hlt | heq
        · exact hlt
        · exact absurd (Int64.toInt_inj.mp heq.symm) hzero
      have hwithin : Within limit (c.tick x) x := by
        rw [Clock.tick_first hold (mt toUInt64_eq_zero.mp hzero)]
        exact ⟨rfl, hxpos, hle, (by decide : (3600 : UInt64) ≠ 0), by change 3600 ≤ _; omega⟩
      exact ⟨.inr ⟨x, hwithin⟩, fun _ => hwithin⟩
  · obtain ⟨-, -, -, -, hwithin'⟩ := hwithin.tick hx hle hlimit
    refine ⟨.inr ⟨_, hwithin'⟩, fun hne => ?_⟩
    rw [lastStamp, if_neg hne] at hwithin'
    exact hwithin'

end Drift

section Converse

variable {limit : Nat}

/-- A rising frame that is as far from the one before it as in the run of the video frames
has only rising stamps between them. -/
theorem Within.harmless {c d : Clock} {old vPts : Int64} {fresh : Bool} {gap : List Int64}
    (hlimit : limit < 2 ^ 63) (haligned : Aligned old fresh c d) (hwithin : Within limit c old)
    (hgap : ∀ x ∈ gap, 0 ≤ x.toInt ∧ x.toInt ≤ limit) (hlt : old.toInt < vPts.toInt)
    (hle : vPts.toInt ≤ limit) (hshort : (gap.length + 1) * (2 * limit + 3600) < 2 ^ 64)
    (htime : ((gap.foldl Clock.tick c).tick vPts).u64Time =
      (d.tick vPts).u64Time + (c.u64Time - d.u64Time)) :
    Harmless old fresh gap vPts := by
  have hpos := hwithin.pos
  have hold : old ≠ 0 := by
    rintro rfl
    exact absurd hpos (by decide)
  have hne : vPts ≠ 0 := by
    rintro rfl
    exact absurd (Int.lt_trans hpos hlt) (by decide)
  have hbounds : ∀ x ∈ gap ++ [vPts], 0 ≤ x.toInt ∧ x.toInt ≤ limit := by
    intro x hx
    rcases List.mem_append.mp hx with hx | hx
    · exact hgap x hx
    · obtain rfl := List.mem_singleton.mp hx
      exact ⟨by omega, hle⟩
  obtain ⟨gain, hgain, hgainLe, hascending, -⟩ := Within.foldl hlimit _ hwithin hbounds
  simp only [List.foldl_append, List.foldl_cons, List.foldl_nil] at hgain
  rw [Clock.tick_old _ hne, htime,
    Clock.tick_later (c := d) (by rw [haligned.video]; exact mt toUInt64_eq_zero.mp hold)
      (mt toUInt64_eq_zero.mp hne) (by rw [haligned.video, Int64.toInt64_toUInt64]; exact hlt),
    haligned.full, haligned.video] at hgain
  have hzero : UInt64.ofInt gain = 0 := by
    dsimp only at hgain
    grind
  have hvalue := toNat_ofInt gain
  rw [hzero] at hvalue
  change (0 : Int) = _ at hvalue
  rw [List.length_append, List.length_singleton] at hgainLe
  unfold Harmless
  split
  · intro hearlier
    omega
  · exact ⟨hold, hascending (by omega)⟩

theorem Within.undisturbed (hlimit : limit < 2 ^ 63) (records : List QueueArgs) :
    ∀ {c d : Clock} {old : Int64} {fresh : Bool} {gap : List Int64}, Aligned old fresh c d →
      Within limit c old →
      (∀ x ∈ gap, 0 ≤ x.toInt ∧ x.toInt ≤ limit) →
      (∀ r ∈ records, 0 ≤ r.stCmdHead.vPts.toInt ∧ r.stCmdHead.vPts.toInt ≤ limit) →
      (old.toInt :: (records.filter isVideo).map fun r => r.stCmdHead.vPts.toInt).Pairwise (· < ·) →
      (gap.length + records.length) * (2 * limit + 3600) < 2 ^ 64 →
      videoTimes (gap.foldl Clock.tick c) records =
        (videoTimes d (records.filter isVideo)).map (· + (c.u64Time - d.u64Time)) →
      UndisturbedFrom old fresh gap records := by
  induction records with
  | nil => exact fun _ _ _ _ _ _ _ => trivial
  | cons record records ih =>
      intro c d old fresh gap haligned hwithin hgap hbounds hrising hshort htimes
      obtain ⟨hx, hle⟩ := hbounds record List.mem_cons_self
      have hbounds' : ∀ r ∈ records, _ := fun r hr => hbounds r (List.mem_cons_of_mem _ hr)
      rw [List.length_cons] at hshort
      rw [videoTimes] at htimes
      rw [UndisturbedFrom]
      by_cases hvideo : isVideo record = true
      · rw [List.filter_cons_of_pos hvideo] at htimes hrising
        rw [if_pos hvideo, videoTimes, if_pos hvideo, List.map_cons, List.cons.injEq] at htimes
        obtain ⟨htime, htimes⟩ := htimes
        rw [List.map_cons] at hrising
        obtain ⟨hbehind, hrising'⟩ := List.pairwise_cons.mp hrising
        have hlt := hbehind _ List.mem_cons_self
        have hfirst : (gap.length + 1) * (2 * limit + 3600) ≤
            (gap.length + (records.length + 1)) * (2 * limit + 3600) :=
          Nat.mul_le_mul_right _ (by omega)
        have hharmless := Within.harmless hlimit haligned hwithin hgap hlt hle
          (Nat.lt_of_le_of_lt hfirst hshort) htime
        obtain ⟨hmoved, haligned'⟩ := haligned.next hharmless
        have hne : record.stCmdHead.vPts ≠ 0 := by
          intro hzero
          rw [hzero] at hlt
          exact absurd (Int.lt_trans hwithin.pos hlt) (by decide)
        rw [if_pos hvideo]
        refine ⟨hharmless, ih haligned' ?_ (fun x hx => by cases hx) hbounds' ?_ ?_ ?_⟩
        · obtain ⟨-, -, -, -, hlast⟩ := Within.foldl hlimit gap hwithin hgap
          rw [lastStamp, if_neg hne]
          exact (Before.tick (.inr hlast) hlimit hx hle).2 hne
        · rw [lastStamp, if_neg hne]
          exact hrising'
        · have hrest : (([] : List Int64).length + records.length) * (2 * limit + 3600) ≤
              (gap.length + (records.length + 1)) * (2 * limit + 3600) :=
            Nat.mul_le_mul_right _ (by rw [List.length_nil]; omega)
          exact Nat.lt_of_le_of_lt hrest hshort
        · rw [List.foldl_nil, htimes]
          congr 1
          funext y
          grind
      · rw [List.filter_cons_of_neg hvideo] at htimes hrising
        rw [if_neg hvideo] at htimes
        rw [if_neg hvideo]
        refine ih haligned hwithin ?_ hbounds' hrising ?_ ?_
        · intro y hy
          rcases List.mem_append.mp hy with hy | hy
          · exact hgap y hy
          · obtain rfl := List.mem_singleton.mp hy
            exact ⟨hx, hle⟩
        · rw [List.length_append, List.length_singleton]
          have hsame : gap.length + 1 + records.length = gap.length + (records.length + 1) := by
            omega
          rw [hsame]
          exact hshort
        · rw [List.foldl_append]
          exact htimes

theorem Before.undisturbed (hlimit : limit < 2 ^ 63) (records : List QueueArgs) :
    ∀ {c : Clock} {silent : Bool}, (silent = true → c.u64TimestampOld = 0) → Before limit c →
      (∀ r ∈ records, 0 ≤ r.stCmdHead.vPts.toInt ∧ r.stCmdHead.vPts.toInt ≤ limit) →
      (0 :: (records.filter isVideo).map fun r => r.stCmdHead.vPts.toInt).Pairwise (· < ·) →
      records.length * (2 * limit + 3600) < 2 ^ 64 →
      SameGaps (videoTimes c records) (videoTimes {} (records.filter isVideo)) →
      Undisturbed silent records := by
  induction records with
  | nil => exact fun _ _ _ _ _ _ => trivial
  | cons record records ih =>
      intro c silent hsilent hbefore hbounds hrising hshort hgaps
      obtain ⟨hx, hle⟩ := hbounds record List.mem_cons_self
      have hbounds' : ∀ r ∈ records, _ := fun r hr => hbounds r (List.mem_cons_of_mem _ hr)
      obtain ⟨hbefore', hwithin⟩ := hbefore.tick hlimit hx hle
      have hshort' : records.length * (2 * limit + 3600) < 2 ^ 64 := by
        rw [List.length_cons, Nat.succ_mul] at hshort
        exact Nat.lt_of_le_of_lt (Nat.le_add_right _ _) hshort
      rw [videoTimes] at hgaps
      rw [Undisturbed]
      by_cases hvideo : isVideo record = true
      · rw [if_pos hvideo]
        rw [List.filter_cons_of_pos hvideo] at hgaps hrising
        rw [if_pos hvideo, videoTimes, if_pos hvideo,
          sameGaps_cons (length_videoTimes_filter _ _ _)] at hgaps
        rw [List.map_cons] at hrising
        obtain ⟨hbehind, hrising'⟩ := List.pairwise_cons.mp hrising
        have hpos := hbehind _ List.mem_cons_self
        have hne : record.stCmdHead.vPts ≠ 0 := by
          intro hzero
          rw [hzero] at hpos
          exact absurd hpos (by decide)
        refine ⟨.inr hne, ?_⟩
        refine Within.undisturbed hlimit records (Aligned.first hsilent (.inr hne)) (hwithin hne)
          (fun x hx => by cases hx) hbounds' hrising' ?_ hgaps
        rw [List.length_nil, Nat.zero_add]
        exact hshort'
      · rw [if_neg hvideo]
        rw [List.filter_cons_of_neg hvideo] at hgaps hrising
        rw [if_neg hvideo] at hgaps
        refine ih (fun h => ?_) hbefore' hbounds' hrising hshort' hgaps
        obtain ⟨hs, hzero⟩ := Bool.and_eq_true_iff.mp h
        rw [Clock.tick_zero (toUInt64_eq_zero.mpr (of_decide_eq_true hzero))]
        exact hsilent hs

end Converse

/-- **When the records that are not sent leave the clock of the video frames alone.** -/
theorem videoTimes_sameGaps (records : List QueueArgs) :
    (Undisturbed true records →
        SameGaps (videoTimes {} records) (videoTimes {} (records.filter isVideo))) ∧
      ∀ limit, Rising limit records →
        (SameGaps (videoTimes {} records) (videoTimes {} (records.filter isVideo)) ↔
          Undisturbed true records) := by
  have henough : Undisturbed true records →
      SameGaps (videoTimes {} records) (videoTimes {} (records.filter isVideo)) :=
    Undisturbed.sameGaps records fun _ => rfl
  refine ⟨henough, fun limit hrising => ⟨fun hgaps => ?_, henough⟩⟩
  cases records with
  | nil => trivial
  | cons record records =>
      have hlimit : limit < 2 ^ 63 := by
        have hshort := hrising.short
        rw [List.length_cons, Nat.succ_mul] at hshort
        omega
      exact Before.undisturbed hlimit _ (fun _ => rfl) (.inl rfl) hrising.bounded hrising.rising
        hrising.short hgaps

/-- The record of one byte with a frame type and the low half of a stamp. -/
def byteRecord (byFrameType : UInt8) (iTimeStampLow : Int32) : QueueArgs :=
  frameRecord { readNetLayer [] with byDataType := 13, byFrameType, iTimeStampLow } 1 [0]

/-- Audio records with stamps between those of the video frames. -/
theorem videoTimes_sameGaps_between :
    let records := [byteRecord 1 1000, byteRecord 4 1010, byteRecord 4 1020, byteRecord 0 1040,
      byteRecord 0 1080, byteRecord 4 1100, byteRecord 0 1120]
    SameGaps (videoTimes {} records) (videoTimes {} (records.filter isVideo)) ∧
      (videoTimes {} records).map UInt64.toNat = [0, 3600, 7200, 10800] := by
  intro records
  exact ⟨(videoTimes_sameGaps records).1 (by decide), by decide⟩

/-- An audio record with the stamp of the video frame in front of it. -/
theorem videoTimes_audio :
    ¬ SameGaps (videoTimes {} [byteRecord 1 1000, byteRecord 4 1000, byteRecord 0 1040])
      (videoTimes {} ([byteRecord 1 1000, byteRecord 4 1000, byteRecord 0 1040].filter
        isVideo)) := by
  intro h
  have hgap := h 0 1 0 7200 0 3600 rfl rfl rfl rfl
  exact absurd hgap (by decide)

end GbStream.Task
