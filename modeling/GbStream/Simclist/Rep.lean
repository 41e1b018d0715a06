import GbStream.Simclist.Entries

/-!
# What a list holds

The entries of a list form a chain between its sentinels; with the spare entries and the array of
these they are the memory that the list owns.
-/

namespace GbStream.Simclist

open Support Support.Chain

variable {α : Type}

def chain (l : ListT) (nodes : List Nat) : List Nat :=
  l.headSentinel :: (nodes ++ [l.tailSentinel])

/-- What the list has from `malloc`. -/
def owned (l : ListT) (nodes : List Nat) : List Nat :=
  chain l nodes ++ l.spareelsArray :: l.spareels

/-- Nothing lives where nothing has been given out. -/
def Heap.Bounded (h : Heap α) : Prop := ∀ a, h.live a = true → a < h.top

/-- Memory that nothing has been given out of. -/
def Heap.unused : Heap α where
  live := fun _ => false
  data := fun _ => none
  next := fun _ => none
  prev := fun _ => none
  top := 0

theorem Heap.bounded_unused : (Heap.unused : Heap α).Bounded :=
  fun _ ha => absurd ha Bool.false_ne_true

/-- What the memory holds beside the addresses `own`. -/
def Heap.rest (h : Heap α) (own : List Nat) (a : Nat) :
    Option (Option α × Option Nat × Option Nat) :=
  if h.live a = true ∧ a ∉ own then some (h.data a, h.next a, h.prev a) else none

/-- **The list `l` holds `els`**, in the entries `nodes`. -/
structure Rep (h : Heap α) (l : ListT) (nodes : List Nat) (els : List (Option α)) : Prop where
  linked : Linked h.next h.prev (chain l nodes)
  nodup : (owned l nodes).Nodup
  live : ∀ a ∈ owned l nodes, h.live a = true
  data : nodes.map h.data = els
  headData : h.data l.headSentinel = none
  tailData : h.data l.tailSentinel = none
  headPrev : h.prev l.headSentinel = none
  tailNext : h.next l.tailSentinel = none
  mid : l.mid = nodes[(nodes.length - 1) / 2]?
  numels : l.numels.toNat = nodes.length
  spares : l.spareels.length ≤ simclistMaxSpareElems

section Rest

variable {h h' : Heap α} {own own' : List Nat} {a : Nat}

theorem Heap.rest_eq_some {x : Option α × Option Nat × Option Nat} :
    h.rest own a = some x ↔
      (h.live a = true ∧ a ∉ own) ∧ (h.data a, h.next a, h.prev a) = x := by
  rw [Heap.rest]
  split
  · rename_i hlive
    simp [hlive]
  · rename_i hlive
    simp [hlive]

/-- The rest is the same when what is live outside is, with the same contents. -/
theorem Heap.rest_eq (hlive : ∀ a, h'.live a = true ∧ a ∉ own' ↔ h.live a = true ∧ a ∉ own)
    (hsame : ∀ a, h.live a = true → a ∉ own →
      h'.data a = h.data a ∧ h'.next a = h.next a ∧ h'.prev a = h.prev a) :
    h'.rest own' = h.rest own := by
  funext a
  by_cases ha : h.live a = true ∧ a ∉ own
  · obtain ⟨hdata, hnext, hprev⟩ := hsame a ha.1 ha.2
    rw [Heap.rest, Heap.rest, if_pos ha, if_pos ((hlive a).mpr ha), hdata, hnext, hprev]
  · rw [Heap.rest, Heap.rest, if_neg ha, if_neg (fun ha' => ha ((hlive a).mp ha'))]

theorem Heap.rest_congr (hmem : ∀ a, a ∈ own' ↔ a ∈ own) : h.rest own' = h.rest own :=
  Heap.rest_eq (fun a => by rw [hmem a]) (fun _ _ _ => ⟨rfl, rfl, rfl⟩)

theorem Heap.outside_of_rest_eq (hrest : h'.rest own' = h.rest own) (hlive : h.live a = true)
    (ha : a ∉ own) : (h'.live a = true ∧ a ∉ own') ∧
      h'.data a = h.data a ∧ h'.next a = h.next a ∧ h'.prev a = h.prev a := by
  have hsome : h'.rest own' a = some (h.data a, h.next a, h.prev a) := by
    rw [hrest, Heap.rest, if_pos ⟨hlive, ha⟩]
  obtain ⟨hlive', heq⟩ := Heap.rest_eq_some.mp hsome
  simp only [Prod.mk.injEq] at heq
  exact ⟨hlive', heq⟩

end Rest

section Writes

variable {h : Heap α} {a : Nat}

theorem setData_of_live (ha : h.live a = true) (data : Option α) :
    h.setData (some a) data = some { h with data := Function.update h.data a data } := by
  rw [Heap.setData, Heap.deref, if_pos ha, Option.map_some]

theorem free_of_live (ha : h.live a = true) :
    h.free (some a) = some { h with live := Function.update h.live a false } := by
  rw [Heap.free, Heap.deref, if_pos ha, Option.map_some]

theorem Heap.malloc_live : h.malloc.2.live = Function.update h.live h.top true := rfl

theorem Heap.Bounded.top_not_live (hb : h.Bounded) : h.live h.top = false := by
  apply Bool.eq_false_iff.mpr
  intro hlive
  exact absurd (hb h.top hlive) (Nat.lt_irrefl _)

theorem Heap.Bounded.malloc (hb : h.Bounded) : h.malloc.2.Bounded := by
  intro a ha
  show a < h.top + 1
  rcases eq_or_ne a h.top with rfl | hne
  · exact Nat.lt_succ_self _
  · rw [Heap.malloc_live, Function.update_of_ne hne] at ha
    exact Nat.lt_succ_of_lt (hb a ha)

end Writes

section Positions

variable {h : Heap α} {l : ListT} {nodes : List Nat} {els : List (Option α)} {a b : Nat}

theorem chain_head : (chain l nodes)[0]? = some l.headSentinel := rfl

theorem chain_tail : (chain l nodes)[nodes.length + 1]? = some l.tailSentinel := by
  rw [chain, List.getElem?_cons_succ, List.getElem?_concat_length]

theorem chain_node {i : Nat} (ha : nodes[i]? = some a) : (chain l nodes)[i + 1]? = some a := by
  obtain ⟨hi, -⟩ := List.getElem?_eq_some_iff.mp ha
  rw [chain, List.getElem?_cons_succ, List.getElem?_append_left hi, ha]

theorem length_chain (l : ListT) (nodes : List Nat) :
    (chain l nodes).length = nodes.length + 2 := by
  simp [chain]

theorem mem_owned_of_chain (ha : a ∈ chain l nodes) : a ∈ owned l nodes :=
  List.mem_append_left _ ha

theorem array_mem_owned : l.spareelsArray ∈ owned l nodes :=
  List.mem_append_right _ (List.mem_cons_self ..)

theorem mem_chain_of_node (ha : a ∈ nodes) : a ∈ chain l nodes :=
  List.mem_cons_of_mem _ (List.mem_append_left _ ha)

theorem head_mem_chain : l.headSentinel ∈ chain l nodes := List.mem_cons_self ..

theorem tail_mem_chain : l.tailSentinel ∈ chain l nodes :=
  List.mem_cons_of_mem _ (List.mem_append_right _ (List.mem_singleton.mpr rfl))

theorem deref_of_live (ha : h.live a = true) : h.deref (some a) = some a := by
  rw [Heap.deref, if_pos ha]

namespace Rep

theorem length_els (hr : Rep h l nodes els) : els.length = nodes.length := by
  rw [← hr.data, List.length_map]

theorem deref (hr : Rep h l nodes els) (ha : a ∈ chain l nodes) : h.deref (some a) = some a :=
  deref_of_live (hr.live a (mem_owned_of_chain ha))

theorem getNext (hr : Rep h l nodes els) {i : Nat} (ha : (chain l nodes)[i]? = some a)
    (hb : (chain l nodes)[i + 1]? = some b) : h.getNext (some a) = some (some b) := by
  rw [Heap.getNext, hr.deref (List.mem_of_getElem? ha), Option.map_some,
    (hr.linked.neighbours ha hb).1]

theorem getPrev (hr : Rep h l nodes els) {i : Nat} (ha : (chain l nodes)[i]? = some a)
    (hb : (chain l nodes)[i + 1]? = some b) : h.getPrev (some b) = some (some a) := by
  rw [Heap.getPrev, hr.deref (List.mem_of_getElem? hb), Option.map_some,
    (hr.linked.neighbours ha hb).2]

theorem getData (hr : Rep h l nodes els) (ha : a ∈ chain l nodes) :
    h.getData (some a) = some (h.data a) := by
  rw [Heap.getData, hr.deref ha, Option.map_some]

theorem walkNext (hr : Rep h l nodes els) (count : Nat) :
    ∀ {i : Nat} {a : Nat}, (chain l nodes)[i]? = some a → (chain l nodes)[i + count]? = some b →
      Simclist.walkNext h count (some a) = some (some b) := by
  induction count with
  | zero =>
      intro i a ha hb
      rw [Nat.add_zero, ha] at hb
      rw [Simclist.walkNext, hb]
  | succ count ih =>
      intro i a ha hb
      have hlen := (List.getElem?_eq_some_iff.mp hb).1
      have hc := List.getElem?_eq_getElem (l := chain l nodes) (show i + 1 < _ by omega)
      rw [Simclist.walkNext, hr.getNext ha hc]
      apply ih hc
      rw [show i + 1 + count = i + (count + 1) by omega, hb]

theorem walkPrev (hr : Rep h l nodes els) (count : Nat) :
    ∀ {i : Nat} {b : Nat}, (chain l nodes)[i]? = some a → (chain l nodes)[i + count]? = some b →
      Simclist.walkPrev h count (some b) = some (some a) := by
  induction count with
  | zero =>
      intro i b ha hb
      rw [Nat.add_zero, ha] at hb
      rw [Simclist.walkPrev, hb]
  | succ count ih =>
      intro i b ha hb
      have hlen := (List.getElem?_eq_some_iff.mp hb).1
      have hc := List.getElem?_eq_getElem (l := chain l nodes) (show i + count < _ by omega)
      rw [Simclist.walkPrev, hr.getPrev hc hb]
      exact ih ha hc

theorem of_outside (hr : Rep h l nodes els) {h' : Heap α}
    (hsame : ∀ a ∈ owned l nodes, h'.live a = true ∧
      h'.data a = h.data a ∧ h'.next a = h.next a ∧ h'.prev a = h.prev a) :
    Rep h' l nodes els where
  linked := hr.linked.congr
    (fun a ha => (hsame a (mem_owned_of_chain (List.dropLast_subset _ ha))).2.2.1)
    (fun a ha => (hsame a (mem_owned_of_chain (List.mem_of_mem_tail ha))).2.2.2)
  nodup := hr.nodup
  live a ha := (hsame a ha).1
  data := by
    rw [← hr.data]
    apply List.map_congr_left
    intro a ha
    exact (hsame a (mem_owned_of_chain (mem_chain_of_node ha))).2.1
  headData := by rw [(hsame _ (mem_owned_of_chain head_mem_chain)).2.1, hr.headData]
  tailData := by rw [(hsame _ (mem_owned_of_chain tail_mem_chain)).2.1, hr.tailData]
  headPrev := by rw [(hsame _ (mem_owned_of_chain head_mem_chain)).2.2.2, hr.headPrev]
  tailNext := by rw [(hsame _ (mem_owned_of_chain tail_mem_chain)).2.2.1, hr.tailNext]
  mid := hr.mid
  numels := hr.numels
  spares := hr.spares

theorem nodup_nodes (hr : Rep h l nodes els) : nodes.Nodup := by
  have hchain := (List.nodup_append.mp hr.nodup).1
  rw [chain, List.nodup_cons, List.nodup_append] at hchain
  exact hchain.2.1

theorem node_ne_head (hr : Rep h l nodes els) (ha : a ∈ nodes) : a ≠ l.headSentinel := by
  have hchain := (List.nodup_append.mp hr.nodup).1
  rw [chain, List.nodup_cons] at hchain
  exact fun heq => hchain.1 (List.mem_append_left _ (heq ▸ ha))

theorem node_ne_tail (hr : Rep h l nodes els) (ha : a ∈ nodes) : a ≠ l.tailSentinel := by
  have hchain := (List.nodup_append.mp hr.nodup).1
  rw [chain, List.nodup_cons, List.nodup_append] at hchain
  exact hchain.2.2.2 a ha _ (List.mem_singleton.mpr rfl)

theorem inRange (hr : Rep h l nodes els) (hiter : l.iterActive = false) {pos : UInt32}
    (hpos : pos.toNat < nodes.length) : ¬ (l.iterActive = true ∨ pos ≥ l.numels) := by
  rw [hiter, ge_iff_le, UInt32.le_iff_toNat_le, hr.numels]
  simpa using hpos

theorem withSpares (hr : Rep h l nodes els) {spareels : List Nat}
    (hnodup : (chain l nodes ++ l.spareelsArray :: spareels).Nodup)
    (hlive : ∀ a ∈ spareels, h.live a = true)
    (hspares : spareels.length ≤ simclistMaxSpareElems) :
    Rep h { l with spareels } nodes els :=
  { hr with
    nodup := hnodup
    live := by
      intro a ha
      rcases List.mem_append.mp ha with ha | ha
      · exact hr.live a (mem_owned_of_chain ha)
      · rcases List.mem_cons.mp ha with rfl | ha
        · exact hr.live _ array_mem_owned
        · exact hlive a ha
    spares := hspares }

theorem frame (hr : Rep h l nodes els) {h' : Heap α} {own own' : List Nat}
    (hout : ∀ a ∈ owned l nodes, a ∉ own) (hrest : h'.rest own' = h.rest own) :
    Rep h' l nodes els ∧ ∀ a ∈ owned l nodes, a ∉ own' := by
  have hsame := fun a ha => Heap.outside_of_rest_eq hrest (hr.live a ha) (hout a ha)
  exact ⟨hr.of_outside fun a ha => ⟨(hsame a ha).1.1, (hsame a ha).2⟩,
    fun a ha => (hsame a ha).1.2⟩

end Rep

end Positions

end GbStream.Simclist
