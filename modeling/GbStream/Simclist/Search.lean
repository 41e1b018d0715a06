import GbStream.Simclist.Drop

/-!
# Looking at a list

Getting an element, searching, iterating and the test of the representation walk along the chain
and change nothing.
-/

namespace GbStream.Simclist

variable {α : Type} {h : Heap α} {l : ListT} {nodes : List Nat} {els : List (Option α)} {a : Nat}

namespace Rep

theorem length_lt_top (hr : Rep h l nodes els) (hb : h.Bounded) : nodes.length + 1 < h.top := by
  have hsubset : chain l nodes ⊆ List.range h.top := by
    intro a ha
    rw [List.mem_range]
    exact hb a (hr.live a (mem_owned_of_chain ha))
  have hle := ((List.nodup_append.mp hr.nodup).1.subperm hsubset).length_le
  rw [length_chain, List.length_range] at hle
  omega

theorem getElem?_els (hr : Rep h l nodes els) {i : Nat} (ha : nodes[i]? = some a) :
    els[i]? = some (h.data a) := by
  rw [← hr.data, List.getElem?_map, ha, Option.map_some]

theorem getNext_chain (hr : Rep h l nodes els) {i : Nat} (ha : (chain l nodes)[i]? = some a)
    (hi : i ≤ nodes.length) : h.getNext (some a) = some (chain l nodes)[i + 1]? := by
  have hlt : i + 1 < (chain l nodes).length := by rw [length_chain]; omega
  have hb := List.getElem?_eq_getElem hlt
  rw [hb]
  exact hr.getNext ha hb

/-! ## Elements by position -/

/-- **`list_get_at` returns the element at a position**, and nothing at the others, of which two
are those of the sentinels. -/
theorem listGetAt (hr : Rep h l nodes els) (hlen : nodes.length ≤ maxElements) (pos : UInt32) :
    Simclist.listGetAt h l pos = some els[pos.toNat]?.join := by
  have hlimit := hlen
  unfold maxElements at hlimit
  rw [Simclist.listGetAt]
  rcases Nat.lt_or_ge pos.toNat nodes.length with hpos | hpos
  · have ha := List.getElem?_eq_getElem hpos
    rw [hr.listFindpos_node hlen ha, Option.bind_eq_bind, Option.bind_some, hr.getElem?_els ha]
    exact hr.getData (mem_chain_of_node (List.mem_of_getElem? ha))
  · rw [List.getElem?_eq_none (by rw [hr.length_els]; exact hpos)]
    have hword := pos.toNat_lt
    have hbits : pos.toInt32.toInt = (pos.toNat : Int).bmod (2 ^ 32) :=
      BitVec.toInt_eq_toNat_bmod _
    rcases Nat.lt_or_ge pos.toNat (2 ^ 31) with hsmall | hbig
    · rw [Int.bmod_eq_of_le (by omega) (by omega)] at hbits
      rcases Nat.lt_or_eq_of_le hpos with hbehind | heq
      · rw [Simclist.listFindpos, if_pos]
        · rfl
        · rw [gt_iff_lt, Int32.lt_iff_toInt_lt, Int32.lt_iff_toInt_lt, hr.toInt_numels (by omega)]
          omega
      · rw [hr.listFindpos hlen (i := nodes.length + 1) (by omega) chain_tail, Option.bind_eq_bind,
          Option.bind_some]
        exact (hr.getData tail_mem_chain).trans (congrArg some hr.tailData)
    · have hneg : pos.toInt32.toInt = pos.toNat - 2 ^ 32 := by
        rw [hbits, Int.bmod_eq_emod, Int.emod_eq_of_lt (by omega) (by omega)]
        split <;> omega
      rcases Nat.lt_or_eq_of_le (Nat.le_sub_one_of_lt hword) with hbefore | heq
      · rw [Simclist.listFindpos, if_pos]
        · rfl
        · left
          rw [Int32.lt_iff_toInt_lt, hneg]
          show _ < (-1 : Int)
          omega
      · rw [hr.listFindpos hlen (i := 0) (by omega) chain_head, Option.bind_eq_bind,
          Option.bind_some]
        exact (hr.getData head_mem_chain).trans (congrArg some hr.headData)

/-! ## Searching -/

/-- The position that `list_locate` returns. -/
def position [DecidableEq α] (els : List (Option α)) (data : Option α) : Int32 :=
  match els.idxOf? data with
  | some i => Int32.ofNat i
  | none => -1

theorem locateFrom [DecidableEq α] (hr : Rep h l nodes els) (data : Option α) (fuel : Nat) :
    ∀ k, k ≤ nodes.length → nodes.length < fuel + k →
      Simclist.locateFrom h l data fuel (chain l nodes)[k + 1]? (Int32.ofNat k) =
        some (match (els.drop k).idxOf? data with
          | some i => Int32.ofNat (k + i)
          | none => -1) := by
  induction fuel with
  | zero =>
      intro k hk hfuel
      omega
  | succ fuel ih =>
      intro k hk hfuel
      unfold Simclist.locateFrom
      rcases Nat.lt_or_eq_of_le hk with hlt | rfl
      · have ha := List.getElem?_eq_getElem hlt
        have hels := hr.getElem?_els ha
        have hne := hr.node_ne_tail (List.mem_of_getElem? ha)
        have hmem := mem_chain_of_node (l := l) (List.mem_of_getElem? ha)
        obtain ⟨hklt, hget⟩ := List.getElem?_eq_some_iff.mp hels
        rw [chain_node ha, if_neg (fun heq => hne (Option.some.inj heq)), hr.getData hmem,
          List.drop_eq_getElem_cons hklt, List.idxOf?_cons, hget]
        simp only [Option.bind_eq_bind, Option.bind_some]
        by_cases hdata : h.data nodes[k] = data
        · rw [if_pos hdata, if_pos (by simpa using hdata)]
          rfl
        · have hsucc : Int32.ofNat k + 1 = Int32.ofNat (k + 1) := (Int32.ofNat_add k 1).symm
          rw [if_neg hdata, if_neg (by simpa using hdata), hr.getNext_chain (chain_node ha) hlt,
            Option.bind_some, hsucc]
          refine (ih (k + 1) hlt (by omega)).trans ?_
          cases (els.drop (k + 1)).idxOf? data with
          | none => rfl
          | some i =>
              show some (Int32.ofNat (k + 1 + i)) = some (Int32.ofNat (k + (i + 1)))
              rw [Nat.add_right_comm, Nat.add_assoc]
      · rw [chain_tail, if_pos rfl, ← hr.length_els, List.drop_length]
        rfl

/-- **`list_locate` finds the first place of an element.** -/
theorem listLocate [DecidableEq α] (hr : Rep h l nodes els) (hb : h.Bounded) (data : Option α) :
    Simclist.listLocate h l data = some (position els data) := by
  have htop := hr.length_lt_top hb
  rw [Simclist.listLocate, hr.getNext_chain chain_head (Nat.zero_le _), Option.bind_eq_bind,
    Option.bind_some]
  refine (hr.locateFrom data (h.top + 1) 0 (Nat.zero_le _) (by omega)).trans ?_
  simp only [List.drop_zero, Nat.zero_add]
  rfl

theorem seekFrom (hr : Rep h l nodes els) {seeker : Option α → Option Bool}
    {accepts : Option α → Bool} (hseeker : ∀ el ∈ els, seeker el = some (accepts el))
    (fuel : Nat) : ∀ k, k ≤ nodes.length → nodes.length < fuel + k →
      Simclist.seekFrom h l seeker fuel (chain l nodes)[k + 1]? =
        some ((els.drop k).find? accepts).join := by
  induction fuel with
  | zero =>
      intro k hk hfuel
      omega
  | succ fuel ih =>
      intro k hk hfuel
      unfold Simclist.seekFrom
      rcases Nat.lt_or_eq_of_le hk with hlt | rfl
      · have ha := List.getElem?_eq_getElem hlt
        have hels := hr.getElem?_els ha
        have hne := hr.node_ne_tail (List.mem_of_getElem? ha)
        have hmem := mem_chain_of_node (l := l) (List.mem_of_getElem? ha)
        obtain ⟨hklt, hget⟩ := List.getElem?_eq_some_iff.mp hels
        rw [chain_node ha, if_neg (fun heq => hne (Option.some.inj heq)), hr.getData hmem,
          List.drop_eq_getElem_cons hklt, List.find?_cons, hget]
        simp only [Option.bind_eq_bind, Option.bind_some,
          hseeker _ (List.mem_of_getElem? hels)]
        cases haccepts : accepts (h.data nodes[k]) with
        | true => rfl
        | false =>
            rw [hr.getNext_chain (chain_node ha) hlt, Option.bind_some]
            exact ih (k + 1) hlt (by omega)
      · rw [chain_tail, if_pos rfl, ← hr.length_els, List.drop_length]
        rfl

/-- **`list_seek` finds the first element that the seeker accepts.** -/
theorem listSeek (hr : Rep h l nodes els) (hb : h.Bounded) {seeker : Option α → Option Bool}
    {accepts : Option α → Bool} (hseeker : ∀ el ∈ els, seeker el = some (accepts el)) :
    Simclist.listSeek h l seeker = some (els.find? accepts).join := by
  have htop := hr.length_lt_top hb
  rw [Simclist.listSeek, hr.getNext_chain chain_head (Nat.zero_le _), Option.bind_eq_bind,
    Option.bind_some]
  exact hr.seekFrom hseeker (h.top + 1) 0 (Nat.zero_le _) (by omega)

/-! ## Iterating -/

theorem listIteratorStart (hr : Rep h l nodes els) (hiter : l.iterActive = false) :
    Simclist.listIteratorStart h l =
      some ({ l with
        iterPos := 0, iterActive := true, iterCurentry := (chain l nodes)[1]? }, 1) := by
  rw [Simclist.listIteratorStart, hiter, if_neg Bool.false_ne_true,
    hr.getNext_chain chain_head (Nat.zero_le _)]
  rfl

/-- The element under the iterator, also once behind the last one, where the tail sentinel has
no element. -/
theorem listIteratorNext (hr : Rep h l nodes els) (hiter : l.iterActive = true) {k : Nat}
    (hk : k ≤ nodes.length) (hentry : l.iterCurentry = (chain l nodes)[k + 1]?) :
    Simclist.listIteratorNext h l = some ({ l with
      iterCurentry := (chain l nodes)[k + 1 + 1]?, iterPos := l.iterPos + 1 }, els[k]?.join) := by
  rw [Simclist.listIteratorNext, hiter, if_neg (fun hnot => hnot rfl), hentry]
  rcases Nat.lt_or_eq_of_le hk with hlt | rfl
  · have ha := List.getElem?_eq_getElem hlt
    have hmem := mem_chain_of_node (l := l) (List.mem_of_getElem? ha)
    rw [chain_node ha, hr.getData hmem, hr.getNext_chain (chain_node ha) hlt, hr.getElem?_els ha]
    rfl
  · have hnext : h.getNext (some l.tailSentinel) = some none := by
      rw [Heap.getNext, hr.deref tail_mem_chain, Option.map_some, hr.tailNext]
    rw [chain_tail, hr.getData tail_mem_chain, hnext, hr.tailData,
      List.getElem?_eq_none (by rw [length_chain]), List.getElem?_eq_none (le_of_eq hr.length_els)]
    rfl

/-! ## The test of the representation -/

theorem repOk_step (hr : Rep h l nodes els) {k : Nat} (ha : (chain l nodes)[k]? = some a)
    (hk : k ≤ nodes.length) :
    ∃ b, (chain l nodes)[k + 1]? = some b ∧ h.getNext (some a) = some (some b) ∧
      h.getPrev (some b) = some (some a) := by
  have hlt : k + 1 < (chain l nodes).length := by rw [length_chain]; omega
  have hb := List.getElem?_eq_getElem hlt
  exact ⟨_, hb, hr.getNext ha hb, hr.getPrev ha hb⟩

theorem toInt_succ {i : Int32} {k : Nat} (hi : i.toInt + 1 = k) (hk : k < 2 ^ 31) :
    (i + 1).toInt = k := by
  rw [Int32.toInt_add]
  show (i.toInt + 1).bmod (2 ^ 32) = k
  rw [hi, Int.bmod_eq_of_le (by omega) (by omega)]

theorem toInt_middle_signed (hr : Rep h l nodes els) (hlen : nodes.length < 2 ^ 31)
    (hpos : nodes ≠ []) : ((l.numels - 1).toInt32 / 2).toInt = ((nodes.length - 1) / 2 : Nat) := by
  have hpred := hr.toNat_numels_pred hpos
  have htwo : (2 : Int32).toInt = 2 := rfl
  rw [Int32.toInt_div_of_ne_right _ _ (by decide), toInt_toInt32 (by omega), hpred, htwo,
    Int.tdiv_eq_ediv_of_nonneg (by omega)]
  rfl

theorem repOkMid (hr : Rep h l nodes els) (hlen : nodes.length < 2 ^ 31) (hpos : nodes ≠ [])
    (fuel : Nat) :
    ∀ (i : Int32) (k : Nat), i.toInt + 1 = k → k ≤ (nodes.length - 1) / 2 + 1 →
      (nodes.length - 1) / 2 + 1 < fuel + k →
      ∃ i', Simclist.repOkMid h l fuel i (chain l nodes)[k]? =
        some (i', (chain l nodes)[(nodes.length - 1) / 2 + 1]?) ∧
          i'.toInt = ((nodes.length - 1) / 2 : Nat) := by
  have hlt := List.length_pos_iff.mpr hpos
  have hmiddle := hr.toInt_middle_signed hlen hpos
  induction fuel with
  | zero =>
      intro i k hi hk hfuel
      omega
  | succ fuel ih =>
      intro i k hi hk hfuel
      unfold Simclist.repOkMid
      rcases Nat.lt_or_eq_of_le hk with hkmid | rfl
      · have ha := List.getElem?_eq_getElem (l := chain l nodes)
          (show k < _ by rw [length_chain]; omega)
        obtain ⟨b, hb, hnext, hprev⟩ := hr.repOk_step ha (by omega)
        have hround : i < (l.numels - 1).toInt32 / 2 := by
          rw [Int32.lt_iff_toInt_lt, hmiddle]
          omega
        rw [if_pos hround, ha, hnext]
        simp only [Option.bind_eq_bind, Option.bind_some, reduceCtorEq, if_false, hprev, ne_eq,
          not_true_eq_false]
        rw [← hb]
        exact ih (i + 1) (k + 1) (by rw [toInt_succ hi (by omega)]; rfl) hkmid (by omega)
      · have hround : ¬ i < (l.numels - 1).toInt32 / 2 := by
          rw [Int32.lt_iff_toInt_lt, hmiddle]
          omega
        rw [if_neg hround]
        exact ⟨i, rfl, by omega⟩

theorem repOkEnd (hr : Rep h l nodes els) (hlen : nodes.length < 2 ^ 31 - 1) (fuel : Nat) :
    ∀ (i : Int32) (k : Nat), i.toInt + 1 = k → k ≤ nodes.length + 1 → nodes.length + 1 < fuel + k →
      ∃ i', Simclist.repOkEnd h fuel i (chain l nodes)[k]? = some (i', some l.tailSentinel) ∧
          i'.toInt = nodes.length := by
  induction fuel with
  | zero =>
      intro i k hi hk hfuel
      omega
  | succ fuel ih =>
      intro i k hi hk hfuel
      unfold Simclist.repOkEnd
      rcases Nat.lt_or_eq_of_le hk with hkend | rfl
      · have ha := List.getElem?_eq_getElem (l := chain l nodes)
          (show k < _ by rw [length_chain]; omega)
        obtain ⟨b, hb, hnext, hprev⟩ := hr.repOk_step ha (by omega)
        rw [ha, hnext]
        simp only [Option.bind_eq_bind, Option.bind_some, reduceCtorEq, if_false, hprev, ne_eq,
          not_true_eq_false]
        rw [← hb]
        exact ih (i + 1) (k + 1) (by rw [toInt_succ hi (by omega)]; rfl) hkend (by omega)
      · have hnext : h.getNext (some l.tailSentinel) = some none := by
          rw [Heap.getNext, hr.deref tail_mem_chain, Option.map_some, hr.tailNext]
        rw [chain_tail, hnext]
        exact ⟨i, rfl, by push_cast at hi; omega⟩

/-- **The representation passes the program's own test.** -/
theorem listRepOk (hr : Rep h l nodes els) (hb : h.Bounded) (hlen : nodes.length ≤ maxElements) :
    Simclist.listRepOk h l = some true := by
  have htop := hr.length_lt_top hb
  have hn := hr.numels
  unfold maxElements at hlen
  have hheadPrev : h.getPrev (some l.headSentinel) = some none := by
    rw [Heap.getPrev, hr.deref head_mem_chain, Option.map_some, hr.headPrev]
  have htailNext : h.getNext (some l.tailSentinel) = some none := by
    rw [Heap.getNext, hr.deref tail_mem_chain, Option.map_some, hr.tailNext]
  obtain ⟨b, hfirst, hheadNext, -⟩ := hr.repOk_step chain_head (Nat.zero_le _)
  have hlastLt : nodes.length < (chain l nodes).length := by rw [length_chain]; omega
  have hlast := List.getElem?_eq_getElem hlastLt
  have htailPrev := hr.getPrev hlast chain_tail
  have hends : l.headSentinel ≠ l.tailSentinel := by
    have hnodup := (List.nodup_append.mp hr.nodup).1
    rw [chain, List.nodup_cons] at hnodup
    exact fun heq => hnodup.1 (List.mem_append_right _ (List.mem_singleton.mpr heq))
  rw [Simclist.listRepOk, hheadPrev, htailNext, hheadNext, htailPrev]
  simp only [Option.bind_eq_bind, Option.bind_some]
  rcases Nat.eq_zero_or_pos nodes.length with hzero | hpos
  · have hnil := List.length_eq_zero_iff.mp hzero
    have hnumels : l.numels = 0 := UInt32.toNat_inj.mp (hn.trans hzero)
    subst hnil
    have hb' : b = l.tailSentinel := Option.some.inj (hfirst.symm.trans chain_tail)
    have hmid : l.mid = none := hr.mid
    have hempty := congrArg some hb'
    rw [if_neg (not_not.mpr ⟨hends, trivial, trivial, .inr ⟨hmid, hempty, rfl⟩, hr.spares⟩),
      if_neg (by rw [hnumels]; decide)]
  · have hne := List.ne_nil_of_length_pos hpos
    have hnumels : l.numels > 0 := by
      rw [gt_iff_lt, UInt32.lt_iff_toNat_lt, hn]
      exact hpos
    obtain ⟨i, hmidLoop, hi⟩ := hr.repOkMid (by omega) hne (h.top + 2) (-1) 0 rfl (Nat.zero_le _)
      (by omega)
    rw [chain_head] at hmidLoop
    obtain ⟨j, hendLoop, hj⟩ := hr.repOkEnd (by omega) (h.top + 2) i ((nodes.length - 1) / 2 + 1)
      (by rw [hi]; rfl) (by omega) (by omega)
    obtain ⟨m, hmid, hchain⟩ := hr.chain_mid hne
    have hiEq : i = (l.numels - 1).toInt32 / 2 := by
      rw [← Int32.toInt_inj, hi, hr.toInt_middle_signed (by omega) hne]
    have hjEq : j = l.numels.toInt32 := by
      rw [← Int32.toInt_inj, hj, hr.toInt_numels (by omega)]
    rw [if_neg (not_not.mpr ⟨hends, trivial, trivial, .inl hnumels, hr.spares⟩),
      if_pos (show l.numels ≥ 1 by rw [ge_iff_le, UInt32.le_iff_toNat_le, hn]; exact hpos),
      hmidLoop, Option.bind_some, if_neg (not_not.mpr ⟨hiEq, hmid.trans hchain.symm⟩), hendLoop,
      Option.bind_some, decide_eq_true ⟨hjEq, rfl⟩]

end Rep

end GbStream.Simclist
