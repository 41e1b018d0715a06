import GbStream.Simclist.Insert

/-!
# Taking an entry out

The middle is moved first, then the entry is unlinked and becomes a spare one or is freed.
-/

namespace GbStream.Simclist

open Support Support.Chain

variable {α : Type} {h : Heap α} {l : ListT} {nodes xs ys : List Nat} {els : List (Option α)}
  {t p s pos : Nat}

/-- The neighbours `p` and `s` of an entry that goes. -/
def Heap.unlink (h : Heap α) (p s : Nat) : Heap α :=
  { h with
    next := Function.update h.next p (some s)
    prev := Function.update h.prev s (some p) }

theorem Heap.unlink_next : (h.unlink p s).next = Function.update h.next p (some s) := rfl

theorem Heap.unlink_prev : (h.unlink p s).prev = Function.update h.prev s (some p) := rfl

theorem Heap.join_eq {β : Type} (hp : h.live p = true) (hs : h.live s = true)
    (k : Heap α → Option β) :
    (do
      let h ← h.setNext (some p) (some s)
      let h ← h.setPrev (some s) (some p)
      k h) = k (h.unlink p s) := by
  simp only [Heap.setNext, Heap.setPrev, Heap.deref, hp, hs, if_true, Option.map_some,
    Option.bind_eq_bind, Option.bind_some]
  rfl

theorem Heap.unlink_eq {β : Type} (ht : h.live t = true) (hp : h.live p = true)
    (hs : h.live s = true) (hprev : h.prev t = some p) (hnext : h.next t = some s) (htp : t ≠ p)
    (k : Heap α → Option β) :
    (do
      let h ← h.setNext (← h.getPrev (some t)) (← h.getNext (some t))
      let h ← h.setPrev (← h.getNext (some t)) (← h.getPrev (some t))
      k h) = k (h.unlink p s) := by
  simp only [Heap.setNext, Heap.setPrev, Heap.getNext, Heap.getPrev, Heap.deref, ht, if_true,
    Option.map_some, hp, hs, hprev, hnext, Function.update_of_ne htp, Option.bind_eq_bind,
    Option.bind_some]
  rfl

theorem exists_neighbours (l : ListT) (ht : nodes[pos]? = some t) :
    ∃ xs p s ys, xs.length = pos ∧ chain l nodes = xs ++ p :: t :: s :: ys ∧
      chain l (nodes.eraseIdx pos) = xs ++ p :: s :: ys := by
  obtain ⟨hpos, rfl⟩ := List.getElem?_eq_some_iff.mp ht
  have hle : pos ≤ (nodes.eraseIdx pos).length := by
    rw [List.length_eraseIdx_of_lt hpos]
    omega
  obtain ⟨xs, p, s, ys, hlength, herase, hchain⟩ := exists_place l hle nodes[pos]
  rw [List.insertIdx_eraseIdx_getElem hpos] at hchain
  exact ⟨xs, p, s, ys, hlength, hchain, herase⟩

theorem owned_erase_perm (ht : nodes[pos]? = some t) :
    (owned l nodes).Perm (t :: owned l (nodes.eraseIdx pos)) := by
  obtain ⟨hpos, rfl⟩ := List.getElem?_eq_some_iff.mp ht
  have hle : pos ≤ (nodes.eraseIdx pos).length := by
    rw [List.length_eraseIdx_of_lt hpos]
    omega
  have hperm := owned_insert_perm l nodes[pos] hle
  rwa [List.insertIdx_eraseIdx_getElem hpos] at hperm

theorem Rep.unlink (hr : Rep h l nodes els) (ht : nodes[pos]? = some t)
    (hchain : chain l nodes = xs ++ p :: t :: s :: ys)
    (herase : chain l (nodes.eraseIdx pos) = xs ++ p :: s :: ys) :
    Rep (h.unlink p s)
      { l with numels := l.numels - 1, mid := (nodes.eraseIdx pos)[(nodes.length - 2) / 2]? }
      (nodes.eraseIdx pos) (els.eraseIdx pos) := by
  have hperm := owned_erase_perm (l := l) ht
  have hpos := (List.getElem?_eq_some_iff.mp ht).1
  have hnodup := hr.nodup
  have hlinked := hr.linked
  have hback : (chain l nodes)[xs.length]? = some p := by simp [hchain]
  have hmid : (chain l nodes)[xs.length + 1]? = some t := by simp [hchain]
  have hfront : (chain l nodes)[xs.length + 1 + 1]? = some s := by
    rw [Nat.add_assoc, hchain, List.getElem?_append_right (Nat.le_add_right ..),
      Nat.add_sub_cancel_left]
    rfl
  rw [owned, List.nodup_append] at hnodup
  exact {
    linked := by
      show Linked _ _ (chain l _)
      rw [herase]
      rw [hchain] at hlinked hnodup
      apply hlinked.remove hnodup.1
      · rw [Heap.unlink_next, Function.update_self]
      · rw [Heap.unlink_prev, Function.update_self]
      · intro a ha
        rw [Heap.unlink_next, Function.update_of_ne ha]
      · intro a ha
        rw [Heap.unlink_prev, Function.update_of_ne ha]
    nodup := (List.nodup_cons.mp (hperm.nodup_iff.mp hr.nodup)).2
    live := by
      intro a ha
      exact hr.live a (hperm.mem_iff.mpr (List.mem_cons_of_mem _ ha))
    data := by
      show (nodes.eraseIdx pos).map h.data = _
      rw [← List.eraseIdx_map, hr.data]
    headData := hr.headData
    tailData := hr.tailData
    headPrev := by
      have hhead : l.headSentinel ≠ s := by
        intro heq
        have hsome := (hlinked.neighbours hmid hfront).2
        rw [← heq, hr.headPrev] at hsome
        cases hsome
      show (h.unlink p s).prev l.headSentinel = none
      rw [Heap.unlink_prev, Function.update_of_ne hhead, hr.headPrev]
    tailNext := by
      have htail : l.tailSentinel ≠ p := by
        intro heq
        have hsome := (hlinked.neighbours hback hmid).1
        rw [← heq, hr.tailNext] at hsome
        cases hsome
      show (h.unlink p s).next l.tailSentinel = none
      rw [Heap.unlink_next, Function.update_of_ne htail, hr.tailNext]
    mid := by
      rw [List.length_eraseIdx_of_lt hpos, Nat.sub_sub]
    numels := by
      rw [List.length_eraseIdx_of_lt hpos]
      exact hr.toNat_numels_pred (List.ne_nil_of_length_pos (by omega))
    spares := hr.spares }

theorem Heap.rest_unlink {own : List Nat} (hp : p ∈ own) (hs : s ∈ own) :
    (h.unlink p s).rest own = h.rest own := by
  refine Heap.rest_eq (fun _ => Iff.rfl) fun a _ ha => ⟨rfl, ?_, ?_⟩
  · have hap : a ≠ p := fun heq => ha (heq ▸ hp)
    rw [Heap.unlink_next, Function.update_of_ne hap]
  · have has : a ≠ s := fun heq => ha (heq ▸ hs)
    rw [Heap.unlink_prev, Function.update_of_ne has]

/-! ## The middle -/

theorem Rep.droppedMid {pos : UInt32} (hr : Rep h l nodes els) (hpos : pos.toNat < nodes.length) :
    Simclist.droppedMid h l pos =
      some (nodes.eraseIdx pos.toNat)[(nodes.length - 2) / 2]? := by
  have hn := hr.numels
  have hmid := hr.mid
  have hold := List.getElem?_eq_getElem (l := nodes) (show (nodes.length - 1) / 2 < _ by omega)
  have hone : l.numels = 1 ↔ nodes.length = 1 := by
    rw [← UInt32.toNat_inj, hn, UInt32.toNat_one]
  have hodd : l.numels % 2 ≠ 0 ↔ nodes.length % 2 = 1 := by
    rw [ne_eq, ← UInt32.toNat_inj, UInt32.toNat_mod, hn]
    show ¬ nodes.length % 2 = 0 ↔ _
    omega
  have hhalf : (l.numels / 2).toNat = nodes.length / 2 := by
    rw [UInt32.toNat_div, hn]
    rfl
  have hge : pos ≥ l.numels / 2 ↔ nodes.length / 2 ≤ pos.toNat := by
    rw [ge_iff_le, UInt32.le_iff_toNat_le, hhalf]
  have hlt : pos < l.numels / 2 ↔ pos.toNat < nodes.length / 2 := by
    rw [UInt32.lt_iff_toNat_lt, hhalf]
  unfold Simclist.droppedMid
  by_cases hparity : nodes.length % 2 = 1
  · rw [if_pos (hodd.mpr hparity)]
    by_cases hsingle : nodes.length = 1
    · have hzero : pos.toNat = 0 := by omega
      rw [if_pos (hone.mpr hsingle), hzero, List.getElem?_eq_none]
      rw [List.length_eraseIdx_of_lt (by omega)]
      omega
    · rw [if_neg (mt hone.mp hsingle)]
      split
      · -- one entry towards the front
        rename_i hpos'
        have hle := hge.mp hpos'
        have hnew := List.getElem?_eq_getElem (l := nodes)
          (show (nodes.length - 2) / 2 < _ by omega)
        rw [List.getElem?_eraseIdx_of_lt (by omega), hnew, hmid, hold]
        apply hr.getPrev (i := (nodes.length - 2) / 2 + 1) (chain_node hnew)
        rw [show (nodes.length - 2) / 2 + 1 + 1 = (nodes.length - 1) / 2 + 1 by omega]
        exact chain_node hold
      · rename_i hpos'
        have hle := mt hge.mpr hpos'
        rw [List.getElem?_eraseIdx_of_ge (by omega), hmid]
        congr 2
        omega
  · rw [if_neg (mt hodd.mp hparity)]
    split
    · -- one entry towards the end
      rename_i hpos'
      have hle := hlt.mp hpos'
      have hnew := List.getElem?_eq_getElem (l := nodes)
        (show (nodes.length - 2) / 2 + 1 < _ by omega)
      rw [List.getElem?_eraseIdx_of_ge (by omega), hnew, hmid, hold]
      apply hr.getNext (chain_node hold)
      rw [show (nodes.length - 1) / 2 + 1 + 1 = (nodes.length - 2) / 2 + 1 + 1 by omega]
      exact chain_node hnew
    · rename_i hpos'
      have hle := mt hlt.mpr hpos'
      rw [List.getElem?_eraseIdx_of_lt (by omega), hmid]
      congr 2
      omega

/-! ## The operations -/

def sparesAfter (spares count : Nat) : Nat := min simclistMaxSpareElems (spares + count)

/-- A loose entry is kept as a spare one or freed; only the spare entries are looked at. -/
theorem Rep.putEntry (hr : Rep h l nodes els) (hb : h.Bounded) (hlive : h.live t = true)
    (ht : t ∉ owned l nodes) :
    ∃ h' spareels,
      (∀ l₀ : ListT, l₀.spareels = l.spareels →
        Simclist.putEntry h l₀ (some t) = some (h', { l₀ with spareels })) ∧
      Rep h' { l with spareels } nodes els ∧ h'.Bounded ∧
      h'.rest (owned { l with spareels } nodes) = h.rest (t :: owned l nodes) ∧
      spareels.length = sparesAfter l.spareels.length 1 := by
  by_cases hroom : l.spareels.length < simclistMaxSpareElems
  · have howned : chain l nodes ++ l.spareelsArray :: (l.spareels ++ [t]) =
        owned l nodes ++ [t] := by
      rw [owned, List.append_assoc, List.cons_append]
    refine ⟨h, l.spareels ++ [t], ?_, ?_, hb, ?_, ?_⟩
    · intro l₀ hspares
      rw [← hspares] at hroom ⊢
      exact if_pos hroom
    · apply hr.withSpares
      · rw [howned, List.nodup_append]
        refine ⟨hr.nodup, List.nodup_singleton t, ?_⟩
        intro a ha b hb' heq
        rw [List.mem_singleton.mp hb'] at heq
        exact ht (heq ▸ ha)
      · intro a ha
        rcases List.mem_append.mp ha with ha | ha
        · exact hr.live a (List.mem_append_right _ (List.mem_cons_of_mem _ ha))
        · rwa [List.mem_singleton.mp ha]
      · rw [List.length_append, List.length_singleton]
        exact hroom
    · apply Heap.rest_congr
      intro a
      show a ∈ chain l nodes ++ l.spareelsArray :: (l.spareels ++ [t]) ↔ _
      rw [howned, List.mem_append, List.mem_singleton, List.mem_cons, or_comm]
    · rw [List.length_append, List.length_singleton, sparesAfter]
      omega
  · have hfree := free_of_live hlive
    refine ⟨{ h with live := Function.update h.live t false }, l.spareels, ?_, ?_, ?_, ?_, ?_⟩
    · intro l₀ hspares
      rw [← hspares] at hroom ⊢
      refine (if_neg hroom).trans ?_
      rw [hfree]
      rfl
    · apply hr.of_outside
      intro a ha
      have hne : a ≠ t := fun heq => ht (heq ▸ ha)
      refine ⟨?_, rfl, rfl, rfl⟩
      show Function.update h.live t false a = true
      rw [Function.update_of_ne hne, hr.live a ha]
    · intro a ha
      rcases eq_or_ne a t with rfl | hne
      · exact hb a hlive
      · apply hb a
        rwa [← Function.update_of_ne hne false h.live]
    · apply Heap.rest_eq
      · intro a
        rw [List.mem_cons, not_or]
        rcases eq_or_ne a t with rfl | hne
        · simp
        · show Function.update h.live t false a = true ∧ _ ↔ _
          rw [Function.update_of_ne hne]
          simp [hne, owned]
      · intro a _ _
        exact ⟨rfl, rfl, rfl⟩
    · have hcount := hr.spares
      rw [sparesAfter]
      omega

theorem Rep.listDropElem (hr : Rep h l nodes els) (hb : h.Bounded) {pos : UInt32}
    (ht : nodes[pos.toNat]? = some t) :
    ∃ h' mid spareels,
      Simclist.listDropElem h l (some t) pos = some (h', { l with mid, spareels }) ∧
      Rep h' { l with mid, spareels, numels := l.numels - 1 } (nodes.eraseIdx pos.toNat)
        (els.eraseIdx pos.toNat) ∧ h'.Bounded ∧
      h'.rest (owned { l with spareels } (nodes.eraseIdx pos.toNat)) = h.rest (owned l nodes) ∧
      spareels.length = sparesAfter l.spareels.length 1 := by
  have hpos := (List.getElem?_eq_some_iff.mp ht).1
  obtain ⟨xs, p, s, ys, hxs, hchain, herase⟩ := exists_neighbours l ht
  have hpIdx : (chain l nodes)[pos.toNat]? = some p := by simp [hchain, ← hxs]
  have htIdx : (chain l nodes)[pos.toNat + 1]? = some t := chain_node ht
  have hsIdx : (chain l nodes)[pos.toNat + 1 + 1]? = some s := by
    rw [← hxs, Nat.add_assoc, hchain, List.getElem?_append_right (Nat.le_add_right ..),
      Nat.add_sub_cancel_left]
    rfl
  have hpMem := mem_owned_of_chain (List.mem_of_getElem? hpIdx)
  have htMem := mem_owned_of_chain (List.mem_of_getElem? htIdx)
  have hsMem := mem_owned_of_chain (List.mem_of_getElem? hsIdx)
  have hprev := (hr.linked.neighbours hpIdx htIdx).2
  have hnext := (hr.linked.neighbours htIdx hsIdx).1
  have hnotOwned := (List.nodup_cons.mp ((owned_erase_perm ht).nodup_iff.mp hr.nodup)).1
  have htp : t ≠ p := by
    have hnodup := (List.nodup_append.mp hr.nodup).1
    rw [hchain] at hnodup
    exact (List.ne_of_not_mem_cons (List.nodup_cons.mp (List.nodup_append.mp hnodup).2.1).1).symm
  have hput := (hr.unlink ht hchain herase).putEntry hb (hr.live t htMem) hnotOwned
  obtain ⟨h', spareels, hput, hr', hb', hrest, hcount⟩ := hput
  refine ⟨h', _, spareels, ?_, hr', hb', ?_, hcount⟩
  · rw [Simclist.listDropElem, if_neg (Option.some_ne_none t), hr.droppedMid hpos]
    simp only [Option.bind_eq_bind, Option.bind_some]
    refine (Heap.unlink_eq (hr.live t htMem) (hr.live p hpMem) (hr.live s hsMem) hprev hnext htp
      _).trans ?_
    exact hput _ rfl
  · rw [← Heap.rest_unlink (h := h) hpMem hsMem]
    exact hrest.trans (Heap.rest_congr fun a => (owned_erase_perm ht).mem_iff.symm)

/-- **`list_delete_at` takes the element out**, and touches nothing else. -/
theorem Rep.listDeleteAt (hr : Rep h l nodes els) (hb : h.Bounded)
    (hlen : nodes.length ≤ maxElements) (hiter : l.iterActive = false) {pos : UInt32}
    (hpos : pos.toNat < nodes.length) :
    ∃ h' mid spareels, Simclist.listDeleteAt h l pos =
        some (h', { l with mid, spareels, numels := l.numels - 1 }, 0) ∧
      Rep h' { l with mid, spareels, numels := l.numels - 1 } (nodes.eraseIdx pos.toNat)
        (els.eraseIdx pos.toNat) ∧ h'.Bounded ∧
      h'.rest (owned { l with spareels } (nodes.eraseIdx pos.toNat)) = h.rest (owned l nodes) ∧
      spareels.length = sparesAfter l.spareels.length 1 := by
  have ht := List.getElem?_eq_getElem hpos
  obtain ⟨h', mid, spareels, hdrop, hr', hb', hrest, hcount⟩ := hr.listDropElem hb ht
  refine ⟨h', mid, spareels, ?_, hr', hb', hrest, hcount⟩
  rw [Simclist.listDeleteAt, if_neg (hr.inRange hiter hpos), hr.listFindpos_node hlen ht,
    Option.bind_eq_bind, Option.bind_some, hdrop]
  rfl

theorem Rep.setData (hr : Rep h l nodes els) (ht : nodes[pos]? = some t) (data : Option α) :
    Rep { h with data := Function.update h.data t data } l nodes (els.set pos data) := by
  obtain ⟨hpos, hget⟩ := List.getElem?_eq_some_iff.mp ht
  have hmem := List.mem_of_getElem? ht
  exact { hr with
    data := by
      rw [← hr.data]
      apply List.ext_getElem
      · simp
      · intro i hi _
        rw [List.length_map] at hi
        rw [List.getElem_map, List.getElem_set, List.getElem_map]
        rcases eq_or_ne pos i with rfl | hne
        · rw [if_pos rfl, hget]
          exact Function.update_self ..
        · rw [if_neg hne]
          refine Function.update_of_ne (fun heq => hne ?_) ..
          exact hr.nodup_nodes.getElem_inj_iff.mp (hget.trans heq.symm)
    headData := (Function.update_of_ne (hr.node_ne_head hmem).symm ..).trans hr.headData
    tailData := (Function.update_of_ne (hr.node_ne_tail hmem).symm ..).trans hr.tailData }

/-- **`list_extract_at` takes the element out and returns it.** -/
theorem Rep.listExtractAt (hr : Rep h l nodes els) (hb : h.Bounded)
    (hlen : nodes.length ≤ maxElements) (hiter : l.iterActive = false) {pos : UInt32}
    (hpos : pos.toNat < nodes.length) :
    ∃ h' mid spareels, Simclist.listExtractAt h l pos =
        some (h', { l with mid, spareels, numels := l.numels - 1 }, els[pos.toNat]?.join) ∧
      Rep h' { l with mid, spareels, numels := l.numels - 1 } (nodes.eraseIdx pos.toNat)
        (els.eraseIdx pos.toNat) ∧ h'.Bounded ∧
      h'.rest (owned { l with spareels } (nodes.eraseIdx pos.toNat)) = h.rest (owned l nodes) ∧
      spareels.length = sparesAfter l.spareels.length 1 := by
  have ht := List.getElem?_eq_getElem hpos
  have hmem := mem_chain_of_node (l := l) (List.mem_of_getElem? ht)
  have hdata : els[pos.toNat]?.join = h.data nodes[pos.toNat] := by
    rw [← hr.data, List.getElem?_map, ht]
    rfl
  obtain ⟨h', mid, spareels, hdrop, hr', hb', hrest, hcount⟩ :=
    (hr.setData ht none).listDropElem hb ht
  rw [List.eraseIdx_set_eq] at hr'
  refine ⟨h', mid, spareels, ?_, hr', hb', ?_, hcount⟩
  · rw [Simclist.listExtractAt, if_neg (hr.inRange hiter hpos), hr.listFindpos_node hlen ht]
    simp only [Option.bind_eq_bind, Option.bind_some, hr.getData hmem,
      setData_of_live (hr.live _ (mem_owned_of_chain hmem)), hdrop, hdata]
  · rw [hrest]
    refine Heap.rest_eq (fun _ => Iff.rfl) fun a _ ha => ⟨?_, rfl, rfl⟩
    have hne : a ≠ nodes[pos.toNat] := fun heq => ha (heq ▸ mem_owned_of_chain hmem)
    exact Function.update_of_ne hne ..

end GbStream.Simclist
