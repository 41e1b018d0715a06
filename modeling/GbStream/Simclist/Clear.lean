import GbStream.Simclist.Search

/-!
# The life of a list

A list starts with its sentinels.  Clearing keeps some of the entries as spare ones and frees the
others; destroying it gives all of its memory back.
-/

namespace GbStream.Simclist

open Support Support.Chain

variable {α : Type} {h : Heap α} {l : ListT} {nodes : List Nat} {els : List (Option α)} {a : Nat}

/-! ## Freeing several entries -/

/-- The memory with the addresses `as` freed. -/
def Heap.freed (h : Heap α) (as : List Nat) : Heap α :=
  { h with live := fun a => h.live a && decide (a ∉ as) }

theorem Heap.freed_nil : h.freed [] = h := by
  simp [Heap.freed]

theorem Heap.live_freed {as : List Nat} :
    (h.freed as).live a = true ↔ h.live a = true ∧ a ∉ as := by
  simp [Heap.freed]

theorem Heap.Bounded.freed (hb : h.Bounded) (as : List Nat) : (h.freed as).Bounded :=
  fun a ha => hb a (Heap.live_freed.mp ha).1

theorem Heap.free_eq (ha : h.live a = true) : h.free (some a) = some (h.freed [a]) := by
  rw [free_of_live ha]
  congr 2
  funext b
  rcases eq_or_ne b a with rfl | hne
  · simp
  · simp [hne]

theorem Heap.freed_freed (as bs : List Nat) : (h.freed as).freed bs = h.freed (as ++ bs) := by
  simp only [Heap.freed, List.mem_append, not_or, Bool.decide_and, Bool.and_assoc]

theorem Heap.rest_freed {as own : List Nat} : (h.freed as).rest own = h.rest (as ++ own) := by
  apply Heap.rest_eq
  · intro a
    rw [Heap.live_freed, List.mem_append, not_or, and_assoc]
  · intro a _ _
    exact ⟨rfl, rfl, rfl⟩

theorem foldlM_free {as : List Nat} (hnodup : as.Nodup) (hlive : ∀ a ∈ as, h.live a = true) :
    as.foldlM (fun h a => h.free (some a)) h = some (h.freed as) := by
  induction as generalizing h with
  | nil => rw [List.foldlM_nil, Heap.freed_nil]; rfl
  | cons a as ih =>
      obtain ⟨hnot, hnodup⟩ := List.nodup_cons.mp hnodup
      rw [List.foldlM_cons, Heap.free_eq (hlive a (List.mem_cons_self ..)), Option.bind_eq_bind,
        Option.bind_some, ih hnodup, Heap.freed_freed]
      · rfl
      · intro b hb
        have hne : b ≠ a := fun heq => hnot (heq ▸ hb)
        exact Heap.live_freed.mpr
          ⟨hlive b (List.mem_cons_of_mem _ hb), fun hmem => hne (List.mem_singleton.mp hmem)⟩

/-! ## A new list -/

theorem listInit_live : (listInit h).1.live =
    Function.update (Function.update (Function.update h.live h.top true) (h.top + 1) true)
      (h.top + 2) true := rfl

theorem listInit_live_iff :
    (listInit h).1.live a = true ↔ a ∈ [h.top, h.top + 1, h.top + 2] ∨ h.live a = true := by
  simp only [listInit_live, Function.update_apply, List.mem_cons, List.not_mem_nil, or_false]
  by_cases hfirst : a = h.top
  · simp [hfirst]
  · by_cases hsecond : a = h.top + 1
    · simp [hsecond]
    · by_cases hthird : a = h.top + 2
      · simp [hthird]
      · simp [hfirst, hsecond, hthird]

/-- **A new list is empty**, and the memory is otherwise as it was. -/
theorem listInit_rep (hb : h.Bounded) :
    Rep (listInit h).1 (listInit h).2 [] [] ∧ (listInit h).1.Bounded ∧
      (listInit h).1.rest (owned (listInit h).2 []) = h.rest [] := by
  have hne : h.top ≠ h.top + 1 := Nat.ne_of_lt (Nat.lt_succ_self _)
  refine ⟨?_, hb.malloc.malloc.malloc, ?_⟩
  · exact {
      linked := by
        refine linked_cons_cons.mpr ⟨⟨?_, ?_⟩, .singleton _⟩
        · exact (Function.update_of_ne hne ..).trans (Function.update_self ..)
        · exact (Function.update_of_ne hne.symm ..).trans (Function.update_self ..)
      nodup := by
        show [h.top, h.top + 1, h.top + 2].Nodup
        simp
      live := fun a ha => listInit_live_iff.mpr (.inl ha)
      data := rfl
      headData := (Function.update_of_ne hne ..).trans (Function.update_self ..)
      tailData := Function.update_self ..
      headPrev := Function.update_self ..
      tailNext := Function.update_self ..
      mid := rfl
      numels := rfl
      spares := Nat.zero_le _ }
  · apply Heap.rest_eq
    · intro a
      show _ ∧ a ∉ [h.top, h.top + 1, h.top + 2] ↔ _
      rw [listInit_live_iff]
      constructor
      · rintro ⟨hfresh | hlive, hnot⟩
        · exact absurd hfresh hnot
        · exact ⟨hlive, List.not_mem_nil⟩
      · rintro ⟨hlive, -⟩
        have hlt := hb a hlive
        refine ⟨.inr hlive, ?_⟩
        simp only [List.mem_cons, List.not_mem_nil, or_false]
        omega
    · intro a ha _
      have hlt := hb a ha
      have hfirst : a ≠ h.top := by omega
      have hsecond : a ≠ h.top + 1 := by omega
      refine ⟨?_, ?_, ?_⟩
      · exact (Function.update_of_ne hsecond ..).trans (Function.update_of_ne hfirst ..)
      · exact (Function.update_of_ne hsecond ..).trans (Function.update_of_ne hfirst ..)
      · exact (Function.update_of_ne hfirst ..).trans (Function.update_of_ne hsecond ..)

/-! ## Clearing -/

section Loops

variable {after : List Nat}

/-- What the loops of `list_clear` need to know of the entries that are left. -/
structure Left (h : Heap α) (l : ListT) (after : List Nat) : Prop where
  linked : Linked h.next h.prev (after ++ [l.tailSentinel])
  nodup : (after ++ [l.tailSentinel]).Nodup
  live : ∀ a ∈ after ++ [l.tailSentinel], h.live a = true

namespace Left

theorem ne_tail (hleft : Left h l (a :: after)) : a ≠ l.tailSentinel := by
  have hnot := (List.nodup_cons.mp hleft.nodup).1
  exact fun heq => hnot (List.mem_append_right _ (List.mem_singleton.mpr heq))

theorem cons (hleft : Left h l (a :: after)) :
    Left h l after ∧ ∃ b, (after ++ [l.tailSentinel])[0]? = some b ∧
      h.getNext (some a) = some (some b) ∧ h.getPrev (some b) = some (some a) := by
  obtain ⟨b, rest, hb⟩ := List.exists_cons_of_ne_nil
    (List.append_ne_nil_of_right_ne_nil after (List.cons_ne_nil l.tailSentinel []))
  have hlinked := hleft.linked
  rw [List.cons_append, hb] at hlinked
  obtain ⟨⟨hnext, hprev⟩, hlinked⟩ := linked_cons_cons.mp hlinked
  have hlive : ∀ c ∈ after ++ [l.tailSentinel], h.live c = true :=
    fun c hc => hleft.live c (List.mem_cons_of_mem _ hc)
  refine ⟨⟨hb ▸ hlinked, (List.nodup_cons.mp hleft.nodup).2, hlive⟩, b, by rw [hb]; rfl, ?_, ?_⟩
  · rw [Heap.getNext, deref_of_live (hleft.live a (List.mem_cons_self ..)), Option.map_some, hnext]
  · rw [Heap.getPrev, deref_of_live (hlive b (by rw [hb]; exact List.mem_cons_self ..)),
      Option.map_some, hprev]

theorem clearSpare (hleft : Left h l after) (fuel : Nat) (hfuel : after.length < fuel)
    (l₀ : ListT) (hl₀ : l₀.tailSentinel = l.tailSentinel) {room : Nat}
    (hroom : l₀.spareels.length + room = simclistMaxSpareElems) :
    Simclist.clearSpare h l₀ fuel (after ++ [l.tailSentinel])[0]? =
      some ({ l₀ with spareels := l₀.spareels ++ after.take room },
        (after.drop room ++ [l.tailSentinel])[0]?) := by
  induction after generalizing fuel l₀ room with
  | nil =>
      obtain ⟨fuel, rfl⟩ := Nat.exists_eq_succ_of_ne_zero (Nat.ne_zero_of_lt hfuel)
      show Simclist.clearSpare h l₀ (fuel + 1) (some l.tailSentinel) = _
      rw [Simclist.clearSpare, if_neg (fun hand => hand.2 (congrArg some hl₀.symm)), List.take_nil,
        List.drop_nil, List.append_nil]
      rfl
  | cons a after ih =>
      obtain ⟨fuel, rfl⟩ := Nat.exists_eq_succ_of_ne_zero (Nat.ne_zero_of_lt hfuel)
      obtain ⟨hrest, b, hb, hnext, -⟩ := hleft.cons
      have hne : some a ≠ some l₀.tailSentinel := fun heq =>
        hleft.ne_tail ((Option.some.inj heq).trans hl₀)
      show Simclist.clearSpare h l₀ (fuel + 1) (some a) = _
      rw [Simclist.clearSpare]
      cases room with
      | zero =>
          rw [if_neg (by omega), List.take_zero, List.append_nil]
          rfl
      | succ room =>
          rw [if_pos ⟨by omega, hne⟩]
          simp only [hnext, Option.bind_eq_bind, Option.bind_some]
          have hroom' : (l₀.spareels ++ [a]).length + room = simclistMaxSpareElems := by
            rw [List.length_append, List.length_singleton]
            omega
          rw [← hb]
          refine (ih hrest fuel (Nat.lt_of_succ_lt_succ hfuel)
            { l₀ with spareels := l₀.spareels ++ [a] } hl₀ hroom').trans ?_
          simp only [List.append_assoc, List.singleton_append, List.take_succ_cons,
            List.drop_succ_cons]

theorem clearFree (hleft : Left h l after) (fuel : Nat) (hfuel : after.length < fuel)
    (l₀ : ListT) (hl₀ : l₀.tailSentinel = l.tailSentinel) :
    Simclist.clearFree l₀ fuel h (after ++ [l.tailSentinel])[0]? = some (h.freed after) := by
  induction after generalizing fuel h with
  | nil =>
      obtain ⟨fuel, rfl⟩ := Nat.exists_eq_succ_of_ne_zero (Nat.ne_zero_of_lt hfuel)
      show Simclist.clearFree l₀ (fuel + 1) h (some l.tailSentinel) = _
      rw [Simclist.clearFree, hl₀, if_pos rfl, Heap.freed_nil]
  | cons a after ih =>
      obtain ⟨fuel, rfl⟩ := Nat.exists_eq_succ_of_ne_zero (Nat.ne_zero_of_lt hfuel)
      obtain ⟨hrest, b, hb, hnext, hprev⟩ := hleft.cons
      have hne : some a ≠ some l₀.tailSentinel := fun heq =>
        hleft.ne_tail ((Option.some.inj heq).trans hl₀)
      have hnot := (List.nodup_cons.mp hleft.nodup).1
      have hfreed : Left (h.freed [a]) l after := {
        linked := hrest.linked
        nodup := hrest.nodup
        live := by
          intro c hc
          refine Heap.live_freed.mpr ⟨hrest.live c hc, fun hmem => hnot ?_⟩
          rwa [← List.mem_singleton.mp hmem] }
      show Simclist.clearFree l₀ (fuel + 1) h (some a) = _
      rw [Simclist.clearFree, if_neg hne]
      simp only [hnext, hprev, Option.bind_eq_bind, Option.bind_some,
        Heap.free_eq (hleft.live a (List.mem_cons_self ..))]
      rw [← hb, ih hfreed fuel (Nat.lt_of_succ_lt_succ hfuel), Heap.freed_freed]
      rfl

end Left

end Loops

theorem Rep.left (hr : Rep h l nodes els) : Left h l nodes where
  linked := hr.linked.tail
  nodup := (List.nodup_cons.mp (List.nodup_append.mp hr.nodup).1).2
  live a ha := hr.live a (mem_owned_of_chain (List.mem_cons_of_mem _ ha))

theorem owned_clear_perm (l : ListT) (nodes : List Nat) (room : Nat) :
    (owned l nodes).Perm (nodes.drop room ++
      owned { l with spareels := l.spareels ++ nodes.take room } []) := by
  have hnodes := List.take_append_drop room nodes
  rw [List.perm_iff_count]
  intro a
  have hcount := congrArg (List.count a) hnodes
  rw [List.count_append] at hcount
  simp only [owned, chain, List.count_append, List.count_cons, List.nil_append]
  omega

/-- **`list_clear` empties a list**; what does not become a spare entry is freed. -/
theorem Rep.listClear (hr : Rep h l nodes els) (hb : h.Bounded) (hiter : l.iterActive = false) :
    ∃ h' spareels, Simclist.listClear h l =
        some (h', { l with spareels, numels := 0, mid := none }, 0) ∧
      Rep h' { l with spareels, numels := 0, mid := none } [] [] ∧ h'.Bounded ∧
      h'.rest (owned { l with spareels } []) = h.rest (owned l nodes) ∧
      spareels.length = sparesAfter l.spareels.length nodes.length := by
  have htop := hr.length_lt_top hb
  have hspares := hr.spares
  obtain ⟨room, hroom⟩ := Nat.exists_eq_add_of_le hspares
  have hperm := owned_clear_perm l nodes room
  have hnodup := List.nodup_append.mp (hperm.nodup_iff.mp hr.nodup)
  let kept := { l with spareels := l.spareels ++ nodes.take room }
  have hhead : l.headSentinel ∈ owned kept [] := mem_owned_of_chain head_mem_chain
  have htail : l.tailSentinel ∈ owned kept [] := mem_owned_of_chain tail_mem_chain
  -- the entries that are left behind by the first loop are freed by the second
  have hkeep := hr.left.clearSpare (h.top + 1) (by omega) l rfl hroom.symm
  have hafter : Left h l (nodes.drop room) := {
    linked := by
      have hlinked := hr.left.linked
      rw [← List.take_append_drop room nodes, List.append_assoc] at hlinked
      exact hlinked.right_of_append
    nodup := by
      have hdrop := hr.left.nodup
      rw [← List.take_append_drop room nodes, List.append_assoc] at hdrop
      exact (List.nodup_append.mp hdrop).2.1
    live := by
      intro a ha
      refine hr.left.live a ?_
      rw [← List.take_append_drop room nodes, List.append_assoc]
      exact List.mem_append_right _ ha }
  have hfree := hafter.clearFree (h.top + 1) (by rw [List.length_drop]; omega)
    { l with spareels := l.spareels ++ nodes.take room } rfl
  have hlive : ∀ a ∈ owned { l with spareels := l.spareels ++ nodes.take room } [],
      (h.freed (nodes.drop room)).live a = true := by
    intro a ha
    refine Heap.live_freed.mpr ⟨hr.live a ?_, ?_⟩
    · exact hperm.mem_iff.mpr (List.mem_append_right _ ha)
    · exact fun hmem => hnodup.2.2 a hmem a ha rfl
  have hends : l.headSentinel ≠ l.tailSentinel := by
    have hchain := (List.nodup_append.mp hnodup.2.1).1
    rw [chain, List.nodup_cons] at hchain
    exact fun heq => hchain.1 (List.mem_singleton.mpr heq)
  refine ⟨(h.freed (nodes.drop room)).unlink l.headSentinel l.tailSentinel,
    l.spareels ++ nodes.take room, ?_, ?_, ?_, ?_, ?_⟩
  · rw [Simclist.listClear, if_neg (by rw [hiter]; exact Bool.false_ne_true),
      hr.getNext_chain chain_head (Nat.zero_le _)]
    have hfirst : (chain l nodes)[0 + 1]? = (nodes ++ [l.tailSentinel])[0]? := rfl
    simp only [Option.bind_eq_bind, Option.bind_some]
    rw [hfirst, hkeep, Option.bind_some, hfree, Option.bind_some]
    exact (Heap.join_eq (p := l.headSentinel) (s := l.tailSentinel) (hlive _ hhead)
      (hlive _ htail) _).trans rfl
  · exact {
      linked := by
        refine linked_cons_cons.mpr ⟨⟨?_, ?_⟩, .singleton _⟩
        · rw [Heap.unlink_next, Function.update_self]
        · rw [Heap.unlink_prev, Function.update_self]
      nodup := hnodup.2.1
      live := hlive
      data := rfl
      headData := hr.headData
      tailData := hr.tailData
      headPrev := by
        rw [Heap.unlink_prev, Function.update_of_ne hends]
        exact hr.headPrev
      tailNext := by
        rw [Heap.unlink_next, Function.update_of_ne hends.symm]
        exact hr.tailNext
      mid := rfl
      numels := rfl
      spares := by
        rw [List.length_append, List.length_take]
        omega }
  · exact hb.freed _
  · rw [Heap.rest_unlink hhead htail, Heap.rest_freed]
    exact Heap.rest_congr fun a => hperm.mem_iff.symm
  · rw [List.length_append, List.length_take, sparesAfter]
    omega

/-- What `list_destroy` frees behind `list_clear`. -/
def ends (l : ListT) : List Nat := l.spareels ++ [l.spareelsArray, l.headSentinel, l.tailSentinel]

theorem mem_owned_iff : a ∈ owned l nodes ↔ a ∈ ends l ∨ a ∈ nodes := by
  simp only [owned, chain, ends, List.mem_append, List.mem_cons, List.not_mem_nil, or_false]
  tauto

/-- The spare entries, their array and the sentinels are freed, each once. -/
theorem Rep.free_owned (hr : Rep h l nodes els) :
    (do
      let h ← l.spareels.foldlM (fun h a => h.free (some a)) h
      let h ← h.free (some l.spareelsArray)
      let h ← h.free (some l.headSentinel)
      h.free (some l.tailSentinel)) =
      some (h.freed (ends l)) := by
  have hperm : (owned l nodes).Perm (ends l ++ nodes) := by
    rw [List.perm_iff_count]
    intro a
    simp only [owned, chain, ends, List.count_append, List.count_cons, List.count_nil]
    omega
  have hnodup := (List.nodup_append.mp (hperm.nodup_iff.mp hr.nodup)).1
  have hall := foldlM_free hnodup fun a ha =>
    hr.live a (hperm.mem_iff.mpr (List.mem_append_left _ ha))
  rw [ends, List.foldlM_append] at hall
  simp only [List.foldlM_cons, List.foldlM_nil] at hall
  rw [ends, ← hall]
  simp

/-- **`list_destroy` gives all memory of a list back**; while it is iterated over, the entries are
left behind. -/
theorem Rep.listDestroy (hr : Rep h l nodes els) (hb : h.Bounded) :
    ∃ h', Simclist.listDestroy h l = some h' ∧ h'.Bounded ∧
      h'.rest (if l.iterActive then nodes else []) = h.rest (owned l nodes) ∧
      (l.iterActive = true → ∀ a ∈ nodes, h'.live a = true) := by
  cases hiter : l.iterActive with
  | true =>
      refine ⟨_, ?_, hb.freed (ends l), ?_, ?_⟩
      · rw [Simclist.listDestroy, Simclist.listClear, hiter, if_pos rfl]
        exact hr.free_owned
      · rw [if_pos rfl, Heap.rest_freed]
        apply Heap.rest_congr
        intro a
        rw [List.mem_append, mem_owned_iff]
      · intro _ a ha
        refine Heap.live_freed.mpr ⟨hr.live a (mem_owned_of_chain (mem_chain_of_node ha)), ?_⟩
        have hspares := (List.nodup_append.mp hr.nodup).2.2 a (mem_chain_of_node ha)
        simp only [ends, List.mem_append, List.mem_cons, List.not_mem_nil, or_false, not_or]
        refine ⟨fun hmem => ?_, fun heq => ?_, hr.node_ne_head ha, hr.node_ne_tail ha⟩
        · exact hspares a (List.mem_cons_of_mem _ hmem) rfl
        · exact hspares l.spareelsArray (List.mem_cons_self ..) heq
  | false =>
      obtain ⟨h', spareels, hclear, hr', hb', hrest, -⟩ := hr.listClear hb hiter
      refine ⟨_, ?_, hb'.freed (ends { l with spareels }), ?_, ?_⟩
      · rw [Simclist.listDestroy, hclear]
        exact hr'.free_owned
      · rw [if_neg Bool.false_ne_true, Heap.rest_freed, ← hrest]
        apply Heap.rest_congr
        intro a
        rw [List.mem_append, mem_owned_iff]
      · exact fun hactive => absurd hactive Bool.false_ne_true

end GbStream.Simclist
