import GbStream.Simclist.Rep

/-!
# Finding a position

`list_findpos` picks its way by a quotient in single precision.  Walking from an end finds every
position; walking from the middle finds those on the side that is taken, and the quotient is on
the right side of one half as long as the numbers of the list have 24 bits.
-/

namespace GbStream.Simclist

open Support.Binary32

variable {α : Type} {h : Heap α} {l : ListT} {nodes : List Nat} {els : List (Option α)}

/-- The quotient of `list_findpos`. -/
def quotient (posstart : Int32) (numels : UInt32) : Float32.Model :=
  Float32.Model.ofInt32 (posstart + 1) / Float32.Model.ofUInt32 numels

theorem quotient_eq {posstart : Int32} {numels : UInt32} {p n : Nat}
    (hp : (posstart + 1).toInt = p) (hn : numels.toNat = n) :
    quotient posstart numels = Float32.Model.ofNat p / Float32.Model.ofNat n := by
  have hfirst : Float32.Model.ofInt32 (posstart + 1) = Float32.Model.ofNat p := by
    show Float32.Model.ofInt (posstart + 1).toInt = Float32.Model.ofInt (p : Int)
    rw [hp]
  have hsecond : Float32.Model.ofUInt32 numels = Float32.Model.ofNat n := by
    show Float32.Model.ofNat numels.toNat = _
    rw [hn]
  rw [quotient, hfirst, hsecond]

theorem quotient_zero {p : Nat} (hp : p ≤ 1) :
    ¬ Float32.Model.ofNat p / Float32.Model.ofNat 0 < half ∧
      ¬ Float32.Model.ofNat p / Float32.Model.ofNat 0 ≤ Float32.Model.ofScientific 75 (-2) := by
  rcases Nat.le_one_iff_eq_zero_or_eq_one.mp hp with rfl | rfl
  · decide
  · decide

theorem toInt_toInt32 {pos : UInt32} (hpos : pos.toNat < 2 ^ 31) :
    pos.toInt32.toInt = pos.toNat := by
  have hbits : pos.toInt32.toInt = (pos.toNat : Int).bmod (2 ^ 32) := BitVec.toInt_eq_toNat_bmod _
  rw [hbits, Int.bmod_eq_of_le (by omega) (by omega)]

/-- The position in front of one, where that in front of the first is the head sentinel. -/
theorem toInt_toInt32_pred (pos : UInt32) (hpos : pos.toNat < 2 ^ 31) :
    (pos - 1).toInt32.toInt + 1 = pos.toNat := by
  rcases Nat.eq_zero_or_pos pos.toNat with hzero | hone
  · have heq : pos = 0 := UInt32.toNat_inj.mp hzero
    subst heq
    rfl
  · have hsub : (pos - 1).toNat = pos.toNat - 1 := by
      rw [UInt32.toNat_sub_of_le _ _ (by rw [UInt32.le_iff_toNat_le]; exact hone)]
      rfl
    rw [toInt_toInt32 (by omega), hsub]
    omega

namespace Rep

theorem toInt_numels (hr : Rep h l nodes els) (hlen : nodes.length < 2 ^ 31) :
    l.numels.toInt32.toInt = nodes.length := by
  have hn := hr.numels
  rw [toInt_toInt32 (by omega), hn]

theorem toNat_numels_pred (hr : Rep h l nodes els) (hpos : nodes ≠ []) :
    (l.numels - 1).toNat = nodes.length - 1 := by
  have hn := hr.numels
  have hlt := List.length_pos_iff.mpr hpos
  rw [UInt32.toNat_sub_of_le _ _ (by rw [UInt32.le_iff_toNat_le, hn]; exact hlt), hn]
  rfl

theorem toInt_middle (hr : Rep h l nodes els) (hpos : nodes ≠ []) (hlen : nodes.length < 2 ^ 31) :
    ((l.numels - 1) / 2).toInt32.toInt = ((nodes.length - 1) / 2 : Nat) := by
  have hdiv : ((l.numels - 1) / 2).toNat = (nodes.length - 1) / 2 := by
    rw [UInt32.toNat_div, hr.toNat_numels_pred hpos]
    rfl
  rw [toInt_toInt32 (by omega), hdiv]

theorem chain_mid (hr : Rep h l nodes els) (hpos : nodes ≠ []) :
    ∃ a, l.mid = some a ∧ (chain l nodes)[(nodes.length - 1) / 2 + 1]? = some a := by
  have hlt := List.length_pos_iff.mpr hpos
  have hmid := List.getElem?_eq_getElem (l := nodes) (show (nodes.length - 1) / 2 < _ by omega)
  exact ⟨_, hr.mid.trans hmid, chain_node hmid⟩

end Rep

/-- The walk that is chosen, when the side of the middle is the right one. -/
theorem Rep.listFindpos_of_side (hr : Rep h l nodes els) (hlen : nodes.length < 2 ^ 31)
    {posstart : Int32} {i a : Nat} (hi : posstart.toInt + 1 = i)
    (ha : (chain l nodes)[i]? = some a)
    (hfirst : quotient posstart l.numels < half →
      nodes ≠ [] ∧ i ≤ (nodes.length - 1) / 2 + 1)
    (hsecond : ¬ quotient posstart l.numels < half →
      quotient posstart l.numels ≤ Float32.Model.ofScientific 75 (-2) →
      nodes ≠ [] ∧ (nodes.length - 1) / 2 + 1 ≤ i) :
    listFindpos h l posstart = some (some a) := by
  have hlength := length_chain l nodes
  have hlt := (List.getElem?_eq_some_iff.mp ha).1
  have hn := hr.toInt_numels hlen
  have hrange : ¬ (posstart < -1 ∨ posstart > l.numels.toInt32) := by
    rw [Int32.lt_iff_toInt_lt, gt_iff_lt, Int32.lt_iff_toInt_lt, hn]
    show ¬ (posstart.toInt < -1 ∨ _)
    omega
  unfold listFindpos
  rw [if_neg hrange]
  show (if quotient posstart l.numels ≤ _ then _ else if quotient posstart l.numels < half then _
    else if quotient posstart l.numels ≤ _ then _ else _) = _
  split
  · apply hr.walkNext _ chain_head
    rw [show 0 + rounds (-1) posstart = i by
      unfold rounds
      show 0 + (posstart.toInt - (-1)).toNat = i
      omega]
    exact ha
  · split
    · rename_i hhalf
      obtain ⟨hne, hle⟩ := hfirst hhalf
      obtain ⟨m, hm, hchain⟩ := hr.chain_mid hne
      rw [hm]
      apply hr.walkPrev _ ha
      rw [show i + rounds posstart ((l.numels - 1) / 2).toInt32 = (nodes.length - 1) / 2 + 1 by
        unfold rounds
        rw [hr.toInt_middle hne hlen]
        omega]
      exact hchain
    · split
      · rename_i hhalf hquarter
        obtain ⟨hne, hle⟩ := hsecond hhalf hquarter
        obtain ⟨m, hm, hchain⟩ := hr.chain_mid hne
        rw [hm]
        apply hr.walkNext _ hchain
        rw [show (nodes.length - 1) / 2 + 1 + rounds ((l.numels - 1) / 2).toInt32 posstart = i by
          unfold rounds
          rw [hr.toInt_middle hne hlen]
          omega]
        exact ha
      · apply hr.walkPrev _ ha
        rw [show i + rounds posstart l.numels.toInt32 = nodes.length + 1 by
          unfold rounds
          rw [hn]
          omega]
        exact chain_tail

/-- The largest list for which the quotient is always on the right side. -/
def maxElements : Nat := 2 ^ 24

/-- **Every position is found** in a list that is not too long. -/
theorem Rep.listFindpos (hr : Rep h l nodes els) (hlen : nodes.length ≤ maxElements)
    {posstart : Int32} {i a : Nat} (hi : posstart.toInt + 1 = i)
    (ha : (chain l nodes)[i]? = some a) : Simclist.listFindpos h l posstart = some (some a) := by
  have hlength := length_chain l nodes
  have hlt := (List.getElem?_eq_some_iff.mp ha).1
  have hplus : (posstart + 1).toInt = i := by
    rw [Int32.toInt_add]
    show (posstart.toInt + 1).bmod (2 ^ 32) = i
    unfold maxElements at hlen
    rw [hi, Int.bmod_eq_of_le (by omega) (by omega)]
  have hquotient := quotient_eq hplus hr.numels
  unfold maxElements at hlen
  rcases Nat.eq_zero_or_pos nodes.length with hzero | hpos
  · have hnil := List.length_eq_zero_iff.mp hzero
    rw [hzero] at hquotient
    obtain ⟨hhalf, hquarter⟩ := quotient_zero (p := i) (by omega)
    rw [← hquotient] at hhalf hquarter
    exact hr.listFindpos_of_side (by omega) hi ha (fun h => absurd h hhalf)
      (fun _ h => absurd h hquarter)
  · have hne := List.ne_nil_of_length_pos hpos
    have hside := div_lt_half_iff (p := i) (n := nodes.length) (by omega) hpos hlen
    rw [← hquotient] at hside
    apply hr.listFindpos_of_side (by omega) hi ha
    · intro hhalf
      have := hside.mp hhalf
      exact ⟨hne, by omega⟩
    · intro hhalf _
      have := mt hside.mpr hhalf
      exact ⟨hne, by omega⟩

theorem Rep.listFindpos_node (hr : Rep h l nodes els) (hlen : nodes.length ≤ maxElements)
    {pos : UInt32} {a : Nat} (ha : nodes[pos.toNat]? = some a) :
    Simclist.listFindpos h l pos.toInt32 = some (some a) := by
  have hpos := (List.getElem?_eq_some_iff.mp ha).1
  unfold maxElements at hlen
  apply hr.listFindpos hlen (i := pos.toNat + 1)
  · rw [toInt_toInt32 (by omega)]
    rfl
  · exact chain_node ha

/-! ## The limit -/

/-- One element more, and half of the positions rounds to the half of the list. -/
theorem quotient_limit :
    ¬ quotient 8388607 16777217 ≤ Float32.Model.ofScientific 25 (-2) ∧
      ¬ quotient 8388607 16777217 < half ∧
      quotient 8388607 16777217 ≤ Float32.Model.ofScientific 75 (-2) := by
  decide

/-- The entry in front of the middle is missed there: the walk starts at the middle and has
nowhere to go. -/
theorem Rep.listFindpos_limit (hr : Rep h l nodes els) (hlen : nodes.length = maxElements + 1) :
    Simclist.listFindpos h l 8388607 = some nodes[8388608]? := by
  have hn : l.numels = 16777217 := by
    rw [← UInt32.toNat_inj, hr.numels, hlen]
    rfl
  obtain ⟨hquarter, hhalf, hlast⟩ := quotient_limit
  have hmid := hr.mid
  rw [hlen] at hmid
  unfold Simclist.listFindpos
  rw [hn, if_neg (by decide)]
  show (if quotient 8388607 16777217 ≤ _ then _ else if quotient 8388607 16777217 < half then _
    else if quotient 8388607 16777217 ≤ _ then _ else _) = _
  rw [if_neg hquarter, if_neg hhalf, if_pos hlast, hmid]
  rfl

end GbStream.Simclist
