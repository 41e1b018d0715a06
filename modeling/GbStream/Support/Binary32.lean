import Mathlib

/-!
# Quotients of small numbers in single precision

Numbers of at most 24 bits are exact in `binary32`.  Their quotient is rounded, but never
across one half: the mantissas are too short for a carry there.
-/

namespace GbStream.Support.Binary32

open Float.Model Float.Model.UnpackedFloat

/-- A positive number with a mantissa of 24 bits, far from overflow and underflow. -/
structure Normal (m : Nat) (e : Int) : Prop where
  lower : 2 ^ 23 ≤ m
  upper : m < 2 ^ 24
  small : -100 ≤ e
  large : e ≤ 100

theorem log2_eq {m k : Nat} (hlower : 2 ^ k ≤ m) (hupper : m < 2 ^ (k + 1)) : m.log2 = k := by
  have hne : m ≠ 0 := by
    have := Nat.two_pow_pos k
    omega
  exact (Nat.log2_eq_iff hne).mpr ⟨hlower, hupper⟩

theorem Normal.log2 {m : Nat} {e : Int} (h : Normal m e) : m.log2 = 23 :=
  log2_eq h.lower h.upper

theorem Normal.pos {m : Nat} {e : Int} (h : Normal m e) : 0 < m := by
  have := h.lower
  omega

theorem unpackSign_packComponents {spec : Format} {sign exponent mantissa} :
    unpackSign (packComponents spec sign exponent mantissa) = sign.toBitVec := by
  ext i hi
  obtain rfl : i = 0 := by omega
  simp [unpackSign, packComponents, BitVec.getLsbD_eq_getElem, BitVec.getLsbD_append,
    BitVec.getElem_append]

theorem unpack_pack {m : Nat} {e : Int} (h : Normal m e) (hm : 0 < m) :
    UnpackedFloat.unpack .binary32 (UnpackedFloat.pack .binary32 (.finite .positive m e hm)) =
      .finite .positive m e hm := by
  have hlower := h.lower
  have hupper := h.upper
  have hsmall := h.small
  have hlarge := h.large
  have hbias : (Format.exponentBias .binary32 : Int) = 127 := rfl
  unfold UnpackedFloat.pack
  simp only [Format.mantissaBits, h.log2, hbias]
  rw [if_neg (by omega), if_pos trivial]
  unfold UnpackedFloat.unpack
  simp only [unpackMantissa_packComponents, unpackExponent_packComponents,
    unpackSign_packComponents, hbias]
  have hexp : (BitVec.ofNat 8 (e + 127 + (23 : Nat)).toNat).toNat = (e + 150).toNat := by
    rw [BitVec.toNat_ofNat]
    omega
  have hones : ¬ BitVec.ofNat 8 (e + 127 + (23 : Nat)).toNat = -1#8 := by
    intro heq
    rw [heq] at hexp
    have : (-1#8).toNat = 255 := rfl
    omega
  have hzero : ¬ BitVec.ofNat 8 (e + 127 + (23 : Nat)).toNat = 0#8 := by
    intro heq
    rw [heq] at hexp
    have : (0#8).toNat = 0 := rfl
    omega
  rw [if_neg hones, if_neg hzero, hexp]
  have hmant : ((1#1 : BitVec 1) ++ BitVec.ofNat 23 m).toNat = m := by
    rw [BitVec.toNat_append, ← Nat.shiftLeft_add_eq_or_of_lt (BitVec.isLt _), BitVec.toNat_ofNat]
    show 2 ^ 23 + m % 2 ^ 23 = m
    omega
  simp only [hmant]
  congr 1
  omega

/-! ## Rounding -/

theorem roundToNearestEven_bounds (m : Nat) (acc : Accuracy) :
    m ≤ acc.roundToNearestEven m ∧ acc.roundToNearestEven m ≤ m + 1 := by
  have := Nat.mod_lt m (show 0 < 2 by decide)
  cases acc with
  | exact => exact ⟨Nat.le_refl _, Nat.le_succ _⟩
  | inexact o =>
      cases o with
      | lt => exact ⟨Nat.le_refl _, Nat.le_succ _⟩
      | eq =>
          simp only [Accuracy.roundToNearestEven]
          omega
      | gt => exact ⟨Nat.le_succ _, Nat.le_refl _⟩

theorem roundedMantissa_of_roundBit {em : ExtendedMantissa} (h : em.roundBit = false) :
    em.roundedMantissa = em.mantissa := by
  obtain ⟨m, r, s⟩ := em
  cases s
  · cases h
    rfl
  · cases h
    rfl

theorem targetExponent_eq {m : Nat} {e : Int} {k : Nat} (hlog : m.log2 = 23 + k)
    (hsmall : -100 ≤ e) : Format.targetExponent .binary32 (totalExponent m e) = e + k := by
  rw [Format.targetExponent, totalExponent, hlog]
  show max (((23 + k : Nat) : Int) + 1 + e - ((1 + 23 : Nat) : Int)) (-149) = e + k
  omega

theorem shiftToTargetExponent_eq {m : Nat} {e : Int} {k : Nat} (acc : Accuracy)
    (hlog : m.log2 = 23 + k) (hsmall : -100 ≤ e) :
    shiftToTargetExponent .binary32 m e acc =
      (k.repeat ExtendedMantissa.shiftRightOne (ExtendedMantissa.ofMantissaAndAccuracy m acc),
        e + k) := by
  unfold shiftToTargetExponent shiftToExponent
  simp only [targetExponent_eq hlog hsmall]
  rw [show (e + k - e).toNat = k by omega]
  rfl

theorem roundWithAccuracy_eq {m : Nat} {e : Int} {k : Nat} (acc : Accuracy)
    (hlog : m.log2 = 23 + k) (hsmall : -100 ≤ e) {r : Nat}
    (hround : (k.repeat ExtendedMantissa.shiftRightOne
      (ExtendedMantissa.ofMantissaAndAccuracy m acc)).roundedMantissa = r)
    (hr : Normal r (e + k)) :
    roundWithAccuracy .binary32 .positive m e acc = .finite .positive r (e + k) hr.pos := by
  have hne : ¬ r = 0 := by
    have := hr.pos
    omega
  unfold roundWithAccuracy
  simp only [shiftToTargetExponent_eq acc hlog hsmall, hround,
    shiftToTargetExponent_eq (k := 0) .exact hr.log2 hr.small]
  show (if h : r = 0 then _ else _) = _
  rw [dif_neg hne]
  congr 1
  exact Int.add_zero _

/-- The quotient of two mantissas, rounded: only its length in bits decides its exponent. -/
theorem roundWithAccuracy_exponent {q : Nat} {e : Int} (acc : Accuracy) (hlower : 2 ^ 23 ≤ q)
    (hupper : q ≤ 2 ^ 25 - 2) (hcarry : q < 2 ^ 24 → q < 2 ^ 24 - 1) (hsmall : -100 ≤ e)
    (hlarge : e < 100) :
    ∃ (r : Nat) (hr : 0 < r),
      roundWithAccuracy .binary32 .positive q e acc =
        .finite .positive r (e + if q < 2 ^ 24 then 0 else 1) hr ∧
      Normal r (e + if q < 2 ^ 24 then 0 else 1) := by
  by_cases hq : q < 2 ^ 24
  · have hlog : q.log2 = 23 + 0 := log2_eq hlower hq
    have hbounds := roundToNearestEven_bounds q acc
    have hround : (ExtendedMantissa.ofMantissaAndAccuracy q acc).roundedMantissa =
        acc.roundToNearestEven q := by
      cases acc with
      | exact => rfl
      | inexact o => cases o <;> rfl
    have hcarry := hcarry hq
    have hnormal : Normal (acc.roundToNearestEven q) (e + (0 : Nat)) :=
      ⟨by omega, by omega, by omega, by omega⟩
    rw [if_pos hq]
    exact ⟨_, _, roundWithAccuracy_eq acc hlog hsmall hround hnormal, hnormal⟩
  · have hlog : q.log2 = 23 + 1 := log2_eq (by omega) (by omega)
    generalize hem : ExtendedMantissa.shiftRightOne
      (ExtendedMantissa.ofMantissaAndAccuracy q acc) = em
    have hmantissa : em.mantissa = q / 2 := by
      rw [← hem]
      cases acc with
      | exact => rfl
      | inexact o => cases o <;> rfl
    have hbit : em.roundBit = (q % 2 != 0) := by
      rw [← hem]
      cases acc with
      | exact => rfl
      | inexact o => cases o <;> rfl
    have hbounds := roundToNearestEven_bounds em.mantissa em.accuracy
    have hnormal : Normal em.roundedMantissa (e + (1 : Nat)) := by
      refine ⟨?_, ?_, by omega, by omega⟩
      · exact le_trans (by omega) hbounds.1
      · rcases Nat.lt_or_ge q (2 ^ 25 - 2) with hlt | hge
        · exact lt_of_le_of_lt hbounds.2 (by omega)
        · rw [roundedMantissa_of_roundBit, hmantissa]
          · omega
          · rw [hbit, show q % 2 = 0 by omega]
            rfl
    rw [if_neg hq]
    exact ⟨_, _, roundWithAccuracy_eq acc hlog hsmall (by rw [← hem]; rfl) hnormal, hnormal⟩

/-! ## Quotients of small numbers -/

/-- `2 ^ (23 - log2 n)` scales a number of at most 24 bits to the full mantissa. -/
theorem normal_shiftLeft {n : Nat} (hpos : 0 < n) (hlt : n < 2 ^ 24) :
    Normal (n * 2 ^ (23 - n.log2)) (-((23 - n.log2 : Nat) : Int)) := by
  have hne : n ≠ 0 := by omega
  have hlog : n.log2 < 24 := (Nat.log2_lt hne).mpr hlt
  have hself := Nat.log2_self_le hne
  have hself' := Nat.lt_log2_self (n := n)
  have hpow : 2 ^ n.log2 * 2 ^ (23 - n.log2) = 2 ^ 23 := by
    rw [← Nat.pow_add]
    congr 1
    omega
  have hpow' : 2 ^ (n.log2 + 1) * 2 ^ (23 - n.log2) = 2 ^ 24 := by
    rw [← Nat.pow_add]
    congr 1
    omega
  refine ⟨?_, ?_, by omega, by omega⟩
  · rw [← hpow]
    exact Nat.mul_le_mul_right _ hself
  · rw [← hpow']
    exact Nat.mul_lt_mul_of_pos_right hself' (Nat.two_pow_pos _)

theorem unpack_packModel (f : UnpackedFloat) :
    (Float32.Model.pack f).unpack =
      UnpackedFloat.unpack .binary32 (UnpackedFloat.pack .binary32 f) := rfl

structure Exact (n : Nat) (x : UnpackedFloat) (m : Nat) (e : Int) : Prop where
  normal : Normal m e
  small : -23 ≤ e
  large : e ≤ 1
  unpack_eq : x = .finite .positive m e normal.pos
  value : (n : ℚ) = m * 2 ^ e

theorem exact_ofNat_of_lt {n : Nat} (hpos : 0 < n) (hlt : n < 2 ^ 24) :
    ∃ m e, Exact n (Float32.Model.ofNat n).unpack m e := by
  have hnormal := normal_shiftLeft hpos hlt
  have hlog : n.log2 < 24 := (Nat.log2_lt (by omega)).mpr hlt
  have hcompare : compare (n : Int) 0 = .gt := by
    rw [compare_gt_iff_gt]
    omega
  have htarget : (0 - Format.targetExponent .binary32 (totalExponent n 0)).toNat =
      23 - n.log2 := by
    rw [Format.targetExponent, totalExponent]
    show (0 - max (((n.log2 : Nat) : Int) + 1 + 0 - ((1 + 23 : Nat) : Int)) (-149)).toNat = _
    omega
  have hround : UnpackedFloat.ofNat .binary32 n =
      .finite .positive (n * 2 ^ (23 - n.log2)) (-((23 - n.log2 : Nat) : Int)) hnormal.pos := by
    have hexact := roundWithAccuracy_eq (k := 0) .exact hnormal.log2 hnormal.small
      (r := n * 2 ^ (23 - n.log2)) rfl (by simpa using hnormal)
    unfold UnpackedFloat.ofNat UnpackedFloat.ofInt UnpackedFloat.normalize
    simp only [hcompare, UnpackedFloat.round, decreaseExponent, Int.toNat_natCast, htarget,
      Nat.shiftLeft_eq]
    simpa using hexact
  refine ⟨_, _, hnormal, by omega, by omega, ?_, ?_⟩
  · rw [Float32.Model.ofNat, unpack_packModel, hround, unpack_pack hnormal]
  · push_cast
    rw [mul_assoc, ← zpow_natCast, ← zpow_add₀ (by norm_num)]
    simp

/-- A number of at most 24 bits is exact, and the next one, which is even. -/
theorem exact_ofNat {n : Nat} (hpos : 0 < n) (hle : n ≤ 2 ^ 24) :
    ∃ m e, Exact n (Float32.Model.ofNat n).unpack m e := by
  rcases Nat.lt_or_eq_of_le hle with hlt | rfl
  · exact exact_ofNat_of_lt hpos hlt
  · exact ⟨2 ^ 23, 1, ⟨by norm_num, by norm_num, by norm_num, by norm_num⟩, by norm_num,
      by norm_num, by rfl, by norm_num⟩

/-- The quotient of two normal mantissas has 24 or 25 bits, and nothing carries. -/
theorem quotient_bounds {m₁ m₂ : Nat} {e₁ e₂ : Int} (h₁ : Normal m₁ e₁) (h₂ : Normal m₂ e₂) :
    2 ^ 23 ≤ m₁ * 2 ^ 24 / m₂ ∧ m₁ * 2 ^ 24 / m₂ ≤ 2 ^ 25 - 2 ∧
      (m₁ * 2 ^ 24 / m₂ < 2 ^ 24 ↔ m₁ < m₂) ∧
      (m₁ < m₂ → m₁ * 2 ^ 24 / m₂ < 2 ^ 24 - 1) := by
  have hlower₁ := h₁.lower
  have hupper₁ := h₁.upper
  have hlower₂ := h₂.lower
  have hupper₂ := h₂.upper
  have hpos := h₂.pos
  refine ⟨?_, ?_, ?_, ?_⟩
  · apply (Nat.le_div_iff_mul_le hpos).mpr
    omega
  · apply Nat.le_of_lt_succ
    apply (Nat.div_lt_iff_lt_mul hpos).mpr
    omega
  · rw [Nat.div_lt_iff_lt_mul hpos]
    omega
  · intro hlt
    rw [Nat.div_lt_iff_lt_mul hpos]
    omega

theorem div_exponent {m₁ m₂ : Nat} {e₁ e₂ : Int} (h₁ : Normal m₁ e₁) (h₂ : Normal m₂ e₂)
    (hsmall : -50 ≤ e₁ - e₂) (hlarge : e₁ - e₂ ≤ 50) :
    ∃ (r : Nat) (hr : 0 < r),
      UnpackedFloat.div .binary32 (.finite .positive m₁ e₁ h₁.pos)
          (.finite .positive m₂ e₂ h₂.pos) =
        .finite .positive r (e₁ - e₂ - 24 + if m₁ < m₂ then 0 else 1) hr ∧
      Normal r (e₁ - e₂ - 24 + if m₁ < m₂ then 0 else 1) := by
  obtain ⟨hlower, hupper, hlt, hcarry⟩ := quotient_bounds h₁ h₂
  have htarget : min (e₁ - e₂)
      (Format.targetExponent .binary32 (totalExponent m₁ e₁ - totalExponent m₂ e₂)) =
        e₁ - e₂ - 24 := by
    rw [Format.targetExponent, totalExponent, totalExponent, h₁.log2, h₂.log2]
    show min (e₁ - e₂) (max (((23 : Nat) : Int) + 1 + e₁ - (((23 : Nat) : Int) + 1 + e₂) -
      ((1 + 23 : Nat) : Int)) (-149)) = _
    omega
  obtain ⟨r, hr, hround, hnormal⟩ :=
    roundWithAccuracy_exponent (accuracyOfFraction (m₁ * 2 ^ 24 % m₂) m₂) hlower hupper
      (fun h => hcarry (hlt.mp h)) (e := e₁ - e₂ - 24) (by omega) (by omega)
  simp only [hlt] at hround hnormal
  refine ⟨r, hr, ?_, hnormal⟩
  rw [UnpackedFloat.div, divCore]
  simp only [htarget, Nat.shiftLeft_eq]
  rw [show (e₁ - e₂ - (e₁ - e₂ - 24)).toNat = 24 by omega]
  exact hround

/-- `0.5` -/
def half : Float32.Model := Float32.Model.ofScientific 5 (-1)

theorem unpack_half : half.unpack = .finite .positive (2 ^ 23) (-24) (by decide) := by
  rfl

theorem lt_half_iff_exponent {x : Float32.Model} {m : Nat} {e : Int} {hm : 0 < m}
    (hx : x.unpack = .finite .positive m e hm) (h : Normal m e) : x < half ↔ e < -24 := by
  have hlower := h.lower
  show x.unpack.lt half.unpack = true ↔ _
  rw [hx, unpack_half, UnpackedFloat.lt, UnpackedFloat.compare]
  rcases lt_trichotomy e (-24) with hlt | rfl | hgt
  · rw [compare_lt_iff_lt.mpr hlt]
    simp [hlt]
  · rw [compare_eq_iff_eq.mpr rfl]
    rcases Nat.lt_or_ge (2 ^ 23) m with hlt | hge
    · rw [compare_gt_iff_gt.mpr hlt]
      simp
    · rw [compare_eq_iff_eq.mpr (by omega)]
      simp
  · rw [compare_gt_iff_gt.mpr hgt]
    simp
    omega

theorem exponent_lt_iff {m₁ m₂ : Nat} {e₁ e₂ : Int} (h₁ : Normal m₁ e₁) (h₂ : Normal m₂ e₂) :
    (e₁ - e₂ - 24 + if m₁ < m₂ then 0 else 1) < -24 ↔
      2 * ((m₁ : ℚ) * 2 ^ e₁) < m₂ * 2 ^ e₂ := by
  have hvalue : 2 * ((m₁ : ℚ) * 2 ^ e₁) < m₂ * 2 ^ e₂ ↔ (m₁ : ℚ) * 2 ^ (e₁ - e₂ + 1) < m₂ := by
    have hscale : (0 : ℚ) < 2 ^ e₂ := zpow_pos (by norm_num) _
    have hpow : (2 : ℚ) ^ (e₁ - e₂ + 1) * 2 ^ e₂ = 2 * 2 ^ e₁ := by
      rw [← zpow_add₀ (by norm_num), show e₁ - e₂ + 1 + e₂ = 1 + e₁ by omega,
        zpow_add₀ (by norm_num), zpow_one]
    rw [← mul_lt_mul_iff_left₀ hscale (b := (m₁ : ℚ) * 2 ^ (e₁ - e₂ + 1)),
      mul_assoc (m₁ : ℚ), hpow, mul_left_comm]
  rw [hvalue]
  have hlower₁ : (2 ^ 23 : ℚ) ≤ m₁ := by exact_mod_cast h₁.lower
  have hupper₁ : (m₁ : ℚ) < 2 ^ 24 := by exact_mod_cast h₁.upper
  have hlower₂ : (2 ^ 23 : ℚ) ≤ m₂ := by exact_mod_cast h₂.lower
  have hupper₂ : (m₂ : ℚ) < 2 ^ 24 := by exact_mod_cast h₂.upper
  rcases lt_trichotomy (e₁ - e₂ + 1) 0 with hneg | hzero | hpos
  · have hpow : (2 : ℚ) ^ (e₁ - e₂ + 1) ≤ 2 ^ (-1 : Int) :=
      zpow_le_zpow_right₀ (by norm_num) (by omega)
    have hbelow : (m₁ : ℚ) * 2 ^ (e₁ - e₂ + 1) < m₂ := by
      calc (m₁ : ℚ) * 2 ^ (e₁ - e₂ + 1)
          ≤ m₁ * 2 ^ (-1 : Int) := mul_le_mul_of_nonneg_left hpow (by positivity)
        _ < m₂ := by rw [zpow_neg_one]; linarith
    simp only [hbelow, iff_true]
    split <;> omega
  · rw [hzero, zpow_zero, mul_one, Nat.cast_lt]
    split <;> omega
  · have hpow : (2 : ℚ) ^ (1 : Int) ≤ 2 ^ (e₁ - e₂ + 1) :=
      zpow_le_zpow_right₀ (by norm_num) (by omega)
    have habove : ¬ (m₁ : ℚ) * 2 ^ (e₁ - e₂ + 1) < m₂ := by
      rw [not_lt]
      calc (m₂ : ℚ) ≤ m₁ * 2 ^ (1 : Int) := by rw [zpow_one]; linarith
        _ ≤ m₁ * 2 ^ (e₁ - e₂ + 1) := mul_le_mul_of_nonneg_left hpow (by positivity)
    simp only [habove, iff_false]
    split <;> omega

theorem unpack_div (x y : Float32.Model) :
    (x / y).unpack = UnpackedFloat.unpack .binary32
      (UnpackedFloat.pack .binary32 (UnpackedFloat.div .binary32 x.unpack y.unpack)) := rfl

theorem div_lt_half_iff_of_le {p n : Nat} (hp : p ≤ 2 ^ 24) (hpos : 0 < n) (hn : n ≤ 2 ^ 24) :
    Float32.Model.ofNat p / Float32.Model.ofNat n < half ↔ 2 * p < n := by
  obtain ⟨m₂, e₂, h₂⟩ := exact_ofNat hpos hn
  rcases Nat.eq_zero_or_pos p with rfl | hppos
  · have hzero : (Float32.Model.ofNat 0 / Float32.Model.ofNat n).unpack = .zero .positive := by
      rw [unpack_div, h₂.unpack_eq, show (Float32.Model.ofNat 0).unpack = .zero .positive by rfl,
        UnpackedFloat.div]
      rfl
    have hlt : Float32.Model.ofNat 0 / Float32.Model.ofNat n < half := by
      show UnpackedFloat.lt _ _ = true
      rw [hzero, unpack_half]
      rfl
    simp only [hlt, true_iff]
    omega
  · obtain ⟨m₁, e₁, h₁⟩ := exact_ofNat hppos hp
    have hrange := And.intro (And.intro h₁.small h₁.large) (And.intro h₂.small h₂.large)
    obtain ⟨r, hr, hdiv, hnormal⟩ := div_exponent h₁.normal h₂.normal (by omega) (by omega)
    have hunpack := unpack_div (Float32.Model.ofNat p) (Float32.Model.ofNat n)
    rw [h₁.unpack_eq, h₂.unpack_eq, hdiv, unpack_pack hnormal] at hunpack
    rw [lt_half_iff_exponent hunpack hnormal, exponent_lt_iff h₁.normal h₂.normal, ← h₁.value,
      ← h₂.value]
    exact_mod_cast Iff.rfl

/-- **Quotients of small numbers are on the right side of one half.**  The first number that
needs 25 bits is rounded down. -/
theorem div_lt_half_iff {p n : Nat} (hp : p ≤ 2 ^ 24 + 1) (hpos : 0 < n) (hn : n ≤ 2 ^ 24) :
    Float32.Model.ofNat p / Float32.Model.ofNat n < half ↔ 2 * p < n := by
  rcases Nat.lt_or_eq_of_le hp with hlt | rfl
  · exact div_lt_half_iff_of_le (Nat.le_of_lt_succ hlt) hpos hn
  · rw [show Float32.Model.ofNat (2 ^ 24 + 1) = Float32.Model.ofNat (2 ^ 24) by rfl,
      div_lt_half_iff_of_le (Nat.le_refl _) hpos hn]
    omega

end GbStream.Support.Binary32
