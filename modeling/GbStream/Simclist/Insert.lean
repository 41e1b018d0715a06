import GbStream.Simclist.FindPos

/-!
# Putting an entry in

The new entry is linked between the two that stand at its place, and the middle moves where the
number of entries has changed its half.
-/

namespace GbStream.Simclist

open Support Support.Chain

variable {α : Type} {h : Heap α} {l : ListT} {nodes xs ys : List Nat} {els : List (Option α)}
  {lent p s pos : Nat}

/-- An entry between `p` and `s`. -/
def Heap.link (h : Heap α) (lent p s : Nat) : Heap α :=
  { h with
    next := Function.update (Function.update h.next p (some lent)) lent (some s)
    prev := Function.update (Function.update h.prev lent (some p)) s (some lent) }

theorem Heap.link_next :
    (h.link lent p s).next = Function.update (Function.update h.next p (some lent)) lent (some s) :=
  rfl

theorem Heap.link_prev :
    (h.link lent p s).prev = Function.update (Function.update h.prev lent (some p)) s (some lent) :=
  rfl

theorem Heap.link_eq {β : Type} (hlent : h.live lent = true) (hp : h.live p = true)
    (hs : h.live s = true) (k : Heap α → Option β) :
    (do
      let h ← h.setNext (some p) (some lent)
      let h ← h.setPrev (some lent) (some p)
      let h ← h.setNext (some lent) (some s)
      let h ← h.setPrev (some s) (some lent)
      k h) = k (h.link lent p s) := by
  simp only [Heap.setNext, Heap.setPrev, Heap.deref, hp, if_true, Option.map_some, hlent, hs,
    Option.bind_eq_bind, Option.bind_some]
  rfl

/-- The place of a new entry: the sentinels see to it that there is one on either side. -/
theorem exists_place (l : ListT) (hpos : pos ≤ nodes.length) (lent : Nat) :
    ∃ xs p s ys, xs.length = pos ∧ chain l nodes = xs ++ p :: s :: ys ∧
      chain l (nodes.insertIdx pos lent) = xs ++ p :: lent :: s :: ys := by
  obtain ⟨before, after, hnodes, hlength, hinsert⟩ :=
    List.exists_of_modifyTailIdx (List.cons lent) hpos
  obtain ⟨xs, p, hfront⟩ : ∃ xs p, l.headSentinel :: before = xs ++ [p] :=
    ⟨_, _, (List.dropLast_append_getLast (List.cons_ne_nil _ _)).symm⟩
  obtain ⟨s, ys, hback⟩ :=
    List.exists_cons_of_ne_nil (List.append_ne_nil_of_right_ne_nil after
      (List.cons_ne_nil l.tailSentinel []))
  refine ⟨xs, p, s, ys, ?_, ?_, ?_⟩
  · have hcount := congrArg List.length hfront
    rw [List.length_cons, List.length_append, List.length_singleton] at hcount
    omega
  · calc chain l nodes
      _ = (l.headSentinel :: before) ++ (after ++ [l.tailSentinel]) := by
          rw [chain, hnodes, List.append_assoc, List.cons_append]
      _ = xs ++ p :: s :: ys := by
          rw [hback, hfront, List.append_assoc, List.singleton_append]
  · calc chain l (nodes.insertIdx pos lent)
      _ = (l.headSentinel :: before) ++ lent :: (after ++ [l.tailSentinel]) := by
          rw [chain, List.insertIdx, hinsert, List.append_assoc, List.cons_append, List.cons_append]
      _ = xs ++ p :: lent :: s :: ys := by
          rw [hback, hfront, List.append_assoc, List.singleton_append]

theorem owned_insert_perm (l : ListT) (lent : Nat) (hpos : pos ≤ nodes.length) :
    (owned l (nodes.insertIdx pos lent)).Perm (lent :: owned l nodes) := by
  have hnodes := (List.perm_insertIdx lent nodes hpos).append_right [l.tailSentinel]
  have hchain := (hnodes.cons l.headSentinel).trans (List.Perm.swap ..)
  exact hchain.append_right (l.spareelsArray :: l.spareels)

/-- Linking a loose entry: the list holds its element, and nothing else has changed. -/
theorem Rep.link (hr : Rep h l nodes els) (hpos : pos ≤ nodes.length) (hlive : h.live lent = true)
    (hlent : lent ∉ owned l nodes) {data : Option α} (hdata : h.data lent = data)
    (hlen : nodes.length ≤ maxElements) (hchain : chain l nodes = xs ++ p :: s :: ys)
    (hinsert : chain l (nodes.insertIdx pos lent) = xs ++ p :: lent :: s :: ys) :
    Rep (h.link lent p s)
      { l with numels := l.numels + 1, mid := (nodes.insertIdx pos lent)[nodes.length / 2]? }
      (nodes.insertIdx pos lent) (els.insertIdx pos data) := by
  have hperm := owned_insert_perm l lent hpos
  have hlentChain : lent ∉ chain l nodes := fun hmem => hlent (mem_owned_of_chain hmem)
  have hnodup := hr.nodup
  rw [owned, List.nodup_append] at hnodup
  have hmem : ∀ a ∈ chain l nodes, a ≠ lent := fun a ha heq => hlentChain (heq ▸ ha)
  have hp : p ∈ chain l nodes := by simp [hchain]
  have hs : s ∈ chain l nodes := by simp [hchain]
  have hps : p ≠ s := by
    have hends := hnodup.1
    rw [hchain, List.nodup_append] at hends
    exact fun heq => (List.nodup_cons.mp hends.2.1).1 (by simp [heq])
  exact {
    linked := by
      show Linked _ _ (chain l _)
      rw [hinsert]
      have hlinked := hr.linked
      rw [hchain] at hlinked hlentChain
      apply hlinked.insert (hchain ▸ hnodup.1) hlentChain
      · rw [Heap.link_next, Function.update_of_ne (hmem p hp), Function.update_self]
      · rw [Heap.link_prev, Function.update_of_ne (Ne.symm (hmem s hs)), Function.update_self]
      · rw [Heap.link_next, Function.update_self]
      · rw [Heap.link_prev, Function.update_self]
      · intro a hap han
        rw [Heap.link_next, Function.update_of_ne han, Function.update_of_ne hap]
      · intro a has han
        rw [Heap.link_prev, Function.update_of_ne has, Function.update_of_ne han]
    nodup := hperm.nodup_iff.mpr (List.nodup_cons.mpr ⟨hlent, hr.nodup⟩)
    live := by
      intro a ha
      rcases List.mem_cons.mp (hperm.mem_iff.mp ha) with rfl | ha
      · exact hlive
      · exact hr.live a ha
    data := by
      show (nodes.insertIdx pos lent).map h.data = _
      rw [List.map_insertIdx, hr.data, hdata]
    headData := hr.headData
    tailData := hr.tailData
    headPrev := by
      -- the head sentinel is not the one that stands behind the new entry
      have hhead : l.headSentinel ≠ s := by
        intro heq
        have hsome := (hr.linked.neighbours (i := xs.length) (a := p) (b := s)
          (by simp [hchain]) (by simp [hchain])).2
        rw [← heq, hr.headPrev] at hsome
        cases hsome
      show (h.link lent p s).prev l.headSentinel = none
      rw [Heap.link_prev, Function.update_of_ne hhead,
        Function.update_of_ne (hmem _ head_mem_chain), hr.headPrev]
    tailNext := by
      have htail : l.tailSentinel ≠ p := by
        intro heq
        have hsome := (hr.linked.neighbours (i := xs.length) (a := p) (b := s)
          (by simp [hchain]) (by simp [hchain])).1
        rw [← heq, hr.tailNext] at hsome
        cases hsome
      show (h.link lent p s).next l.tailSentinel = none
      rw [Heap.link_next, Function.update_of_ne (hmem _ tail_mem_chain),
        Function.update_of_ne htail, hr.tailNext]
    mid := by
      rw [List.length_insertIdx_of_le_length hpos, Nat.add_sub_cancel]
    numels := by
      have hn := hr.numels
      unfold maxElements at hlen
      rw [List.length_insertIdx_of_le_length hpos]
      show (l.numels + 1).toNat = _
      rw [UInt32.toNat_add, hn, UInt32.toNat_one]
      exact Nat.mod_eq_of_lt (by omega)
    spares := hr.spares }

theorem Heap.rest_link (hpos : pos ≤ nodes.length) (hp : p ∈ owned l nodes)
    (hs : s ∈ owned l nodes) :
    (h.link lent p s).rest (owned l (nodes.insertIdx pos lent)) =
      h.rest (lent :: owned l nodes) := by
  have hperm := owned_insert_perm l lent hpos
  apply Heap.rest_eq
  · intro a
    rw [hperm.mem_iff]
    rfl
  · intro a hlive ha
    simp only [List.mem_cons, not_or] at ha
    have hap : a ≠ p := fun heq => ha.2 (heq ▸ hp)
    have has : a ≠ s := fun heq => ha.2 (heq ▸ hs)
    refine ⟨rfl, ?_, ?_⟩
    · rw [Heap.link_next, Function.update_of_ne ha.1, Function.update_of_ne hap]
    · rw [Heap.link_prev, Function.update_of_ne has, Function.update_of_ne ha.1]

/-! ## The middle -/

theorem Rep.insertedMid {h' : Heap α} {l' : ListT} {els' : List (Option α)} {pos : UInt32}
    (hr : Rep h' l' (nodes.insertIdx pos.toNat lent) els') (hpos : pos.toNat ≤ nodes.length)
    (hmid : l.mid = nodes[(nodes.length - 1) / 2]?) (hnumels : l.numels = l'.numels) :
    Simclist.insertedMid h' l lent pos = some l'.mid := by
  have hlength := List.length_insertIdx_of_le_length hpos lent
  have hn : l.numels.toNat = nodes.length + 1 := by rw [hnumels, hr.numels, hlength]
  have hmid' : l'.mid = (nodes.insertIdx pos.toNat lent)[nodes.length / 2]? := by
    rw [hr.mid, hlength, Nat.add_sub_cancel]
  have hone : l.numels = 1 ↔ nodes.length = 0 := by
    rw [← UInt32.toNat_inj, hn, UInt32.toNat_one]
    omega
  have hodd : l.numels % 2 ≠ 0 ↔ nodes.length % 2 = 0 := by
    rw [ne_eq, ← UInt32.toNat_inj, UInt32.toNat_mod, hn]
    show ¬ (nodes.length + 1) % 2 = 0 ↔ _
    omega
  have hhalf : ((l.numels - 1) / 2).toNat = nodes.length / 2 := by
    rw [UInt32.toNat_div, UInt32.toNat_sub_of_le _ _ (by rw [UInt32.le_iff_toNat_le, hn]; simp), hn]
    rfl
  have hge : pos ≥ (l.numels - 1) / 2 ↔ nodes.length / 2 ≤ pos.toNat := by
    rw [ge_iff_le, UInt32.le_iff_toNat_le, hhalf]
  have hle : pos ≤ (l.numels - 1) / 2 ↔ pos.toNat ≤ nodes.length / 2 := by
    rw [UInt32.le_iff_toNat_le, hhalf]
  unfold Simclist.insertedMid
  by_cases hzero : nodes.length = 0
  · have hnil := List.length_eq_zero_iff.mp hzero
    have hposZero : pos.toNat = 0 := by omega
    rw [if_pos (hone.mpr hzero), hmid', hposZero, hnil]
    rfl
  · rw [if_neg (mt hone.mp hzero)]
    have hold := List.getElem?_eq_getElem (l := nodes) (show (nodes.length - 1) / 2 < _ by omega)
    have hnew := List.getElem?_eq_getElem (l := nodes.insertIdx pos.toNat lent)
      (show nodes.length / 2 < _ by omega)
    by_cases heven : nodes.length % 2 = 0
    · rw [if_pos (hodd.mpr heven)]
      split
      · -- the old middle is now one entry in front of the middle
        rename_i hpos'
        have hstay : (nodes.insertIdx pos.toNat lent)[(nodes.length - 1) / 2]? = l.mid := by
          rw [List.getElem?_insertIdx_of_lt (by have := hge.mp hpos'; omega), hmid]
        rw [hold] at hmid
        rw [hmid', hnew, hmid]
        apply hr.getNext (i := (nodes.length - 1) / 2 + 1) (chain_node (hstay.trans hmid))
        rw [show (nodes.length - 1) / 2 + 1 + 1 = nodes.length / 2 + 1 by omega]
        exact chain_node hnew
      · rename_i hpos'
        have hlt := mt hge.mpr hpos'
        rw [hmid', List.getElem?_insertIdx_of_gt (by omega), hmid]
        congr 2
        omega
    · rw [if_neg (mt hodd.mp heven)]
      split
      · -- it is one entry behind
        rename_i hpos'
        have hle' := hle.mp hpos'
        have hmoved : (nodes.insertIdx pos.toNat lent)[nodes.length / 2 + 1]? = l.mid := by
          rw [List.getElem?_insertIdx_of_gt (by omega), hmid]
          congr 1
          omega
        rw [hold] at hmid
        rw [hmid', hnew, hmid]
        exact hr.getPrev (chain_node hnew) (chain_node (hmoved.trans hmid))
      · rename_i hpos'
        have hgt := mt hle.mpr hpos'
        rw [hmid', List.getElem?_insertIdx_of_lt (by omega), hmid]
        congr 2
        omega

/-! ## The operation -/

/-- An entry that is not linked is there as long as `malloc` works or a spare one is left. -/
theorem Rep.takeEntry (hr : Rep h l nodes els) (hb : h.Bounded) {mallocFails : Bool}
    (hspare : l.spareels ≠ [] ∨ mallocFails = false) :
    ∃ lent h', Simclist.takeEntry mallocFails h l =
        some (lent, h', { l with spareels := l.spareels.dropLast }) ∧
      Rep h' { l with spareels := l.spareels.dropLast } nodes els ∧ h'.Bounded ∧
      h'.live lent = true ∧ lent ∉ owned { l with spareels := l.spareels.dropLast } nodes ∧
      h'.rest (lent :: owned { l with spareels := l.spareels.dropLast } nodes) =
        h.rest (owned l nodes) := by
  rcases List.eq_nil_or_concat l.spareels with hnil | ⟨spares, lent, hconcat⟩
  · have hfalse : mallocFails = false := hspare.resolve_left (fun hne => hne hnil)
    have hfresh : h.top ∉ owned l nodes := fun hmem => by
      simpa [hb.top_not_live] using hr.live _ hmem
    have hsame : l.spareels.dropLast = l.spareels := by rw [hnil]; rfl
    rw [hsame]
    refine ⟨h.top, h.malloc.2, ?_, ?_, hb.malloc, ?_, hfresh, ?_⟩
    · have hlast : l.spareels.getLast? = none := by rw [hnil]; rfl
      rw [Simclist.takeEntry, hlast, hfalse]
      rfl
    · apply hr.of_outside
      intro a ha
      have hne : a ≠ h.top := fun heq => hfresh (heq ▸ ha)
      refine ⟨?_, rfl, rfl, rfl⟩
      rw [Heap.malloc_live, Function.update_of_ne hne, hr.live a ha]
    · exact Function.update_self ..
    · apply Heap.rest_eq
      · intro a
        rw [List.mem_cons, not_or]
        rcases eq_or_ne a h.top with rfl | hne
        · simp [hb.top_not_live]
        · rw [Heap.malloc_live, Function.update_of_ne hne]
          simp [hne]
      · intro a _ _
        exact ⟨rfl, rfl, rfl⟩
  · rw [List.concat_eq_append] at hconcat
    have hdrop : l.spareels.dropLast = spares := by rw [hconcat, List.dropLast_concat]
    have howned : owned l nodes = chain l nodes ++ l.spareelsArray :: spares ++ [lent] := by
      rw [owned, hconcat, List.append_assoc, List.cons_append]
    have hnodup := hr.nodup
    rw [howned, List.nodup_append] at hnodup
    have hmem : lent ∈ owned l nodes := by simp [howned]
    have hcount := hr.spares
    rw [hconcat, List.length_append, List.length_singleton] at hcount
    rw [hdrop]
    refine ⟨lent, h, ?_, ?_, hb, hr.live lent hmem, ?_, ?_⟩
    · rw [Simclist.takeEntry, hconcat, List.getLast?_concat, List.dropLast_concat]
    · apply hr.withSpares hnodup.1
      · intro a ha
        exact hr.live a (by simp [howned, ha])
      · omega
    · intro hlent
      exact hnodup.2.2 lent hlent lent (List.mem_singleton.mpr rfl) rfl
    · apply Heap.rest_congr
      intro a
      show a ∈ lent :: (chain l nodes ++ l.spareelsArray :: spares) ↔ _
      rw [howned, List.mem_append, List.mem_cons, List.mem_singleton, or_comm]

/-- **`list_insert_at` puts the element in** at its place, and touches nothing else. -/
theorem Rep.listInsertAt (hr : Rep h l nodes els) (hb : h.Bounded)
    (hlen : nodes.length ≤ maxElements) (hiter : l.iterActive = false) {mallocFails : Bool}
    (hspare : l.spareels ≠ [] ∨ mallocFails = false) (data : Option α) {pos : UInt32}
    (hpos : pos.toNat ≤ nodes.length) :
    ∃ lent h' mid, Simclist.listInsertAt mallocFails h l data pos =
        some (h', { l with spareels := l.spareels.dropLast, numels := l.numels + 1, mid }, 1) ∧
      Rep h' { l with spareels := l.spareels.dropLast, numels := l.numels + 1, mid }
        (nodes.insertIdx pos.toNat lent) (els.insertIdx pos.toNat data) ∧ h'.Bounded ∧
      h'.rest (owned { l with spareels := l.spareels.dropLast } (nodes.insertIdx pos.toNat lent)) =
        h.rest (owned l nodes) := by
  obtain ⟨lent, h₁, htake, hr₁, hb₁, hlive, hlent, hrest⟩ := hr.takeEntry hb hspare
  have hrange : ¬ (l.iterActive = true ∨ pos > l.numels) := by
    rw [hiter, gt_iff_lt, UInt32.lt_iff_toNat_lt, hr.numels]
    simpa using hpos
  obtain ⟨xs, p, s, ys, hxs, hchain, hinsert⟩ := exists_place l hpos lent
  have hpIdx : (chain l nodes)[pos.toNat]? = some p := by simp [hchain, ← hxs]
  have hsIdx : (chain l nodes)[pos.toNat + 1]? = some s := by simp [hchain, ← hxs]
  have hpMem := List.mem_of_getElem? hpIdx
  have hsMem := List.mem_of_getElem? hsIdx
  have hlentChain : lent ∉ chain l nodes := fun hmem => hlent (mem_owned_of_chain hmem)
  -- the new entry has its element before it is linked
  have hr₂ : Rep { h₁ with data := Function.update h₁.data lent data }
      { l with spareels := l.spareels.dropLast } nodes els := by
    apply hr₁.of_outside
    intro a ha
    have hne : a ≠ lent := fun heq => hlent (heq ▸ ha)
    exact ⟨hr₁.live a ha, Function.update_of_ne hne .., rfl, rfl⟩
  have hprec := hr₂.listFindpos hlen
    (toInt_toInt32_pred pos (by unfold maxElements at hlen; omega)) hpIdx
  have hsucc := hr₂.getNext hpIdx hsIdx
  have hlinked := hr₂.link hpos hlive hlent (Function.update_self ..) hlen hchain hinsert
  have hmid := hlinked.insertedMid (l := { l with
    spareels := l.spareels.dropLast, numels := l.numels + 1 }) hpos hr.mid rfl
  have hpLive := hr₂.live p (mem_owned_of_chain hpMem)
  have hsLive := hr₂.live s (mem_owned_of_chain hsMem)
  refine ⟨lent, _, _, ?_, hlinked, ?_, ?_⟩
  · rw [Simclist.listInsertAt, if_neg hrange, htake]
    simp only [setData_of_live hlive, Option.bind_eq_bind, Option.bind_some, hprec, hsucc]
    refine (Heap.link_eq (h := { h₁ with data := Function.update h₁.data lent data })
      hlive hpLive hsLive _).trans ?_
    rw [hmid]
    rfl
  · exact hb₁
  · calc _
      _ = Heap.rest { h₁ with data := Function.update h₁.data lent data }
            (lent :: owned { l with spareels := l.spareels.dropLast } nodes) :=
          Heap.rest_link hpos (mem_owned_of_chain hpMem) (mem_owned_of_chain hsMem)
      _ = h₁.rest (lent :: owned { l with spareels := l.spareels.dropLast } nodes) := by
          refine Heap.rest_eq (fun _ => Iff.rfl) fun a _ ha => ?_
          have hne : a ≠ lent := List.ne_of_not_mem_cons ha
          exact ⟨Function.update_of_ne hne .., rfl, rfl⟩
      _ = h.rest (owned l nodes) := hrest

end GbStream.Simclist
