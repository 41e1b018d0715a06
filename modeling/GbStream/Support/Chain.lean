import Mathlib.Data.List.Chain
import Mathlib.Data.List.Nodup

/-!
# Doubly linked chains

Nodes with a pointer to the next and one to the previous node.  A list of nodes is linked when
neighbours point at each other; putting a node in and taking one out change four and two
pointers.
-/

namespace GbStream.Support.Chain

variable {ι : Type} {next prev next' prev' : ι → Option ι} {l xs ys : List ι} {a b n p s t : ι}

def Linked (next prev : ι → Option ι) (l : List ι) : Prop :=
  l.IsChain fun a b => next a = some b ∧ prev b = some a

theorem linked_cons_cons :
    Linked next prev (a :: b :: l) ↔
      (next a = some b ∧ prev b = some a) ∧ Linked next prev (b :: l) :=
  List.isChain_cons_cons

theorem linked_append_cons :
    Linked next prev (xs ++ a :: ys) ↔ Linked next prev (xs ++ [a]) ∧ Linked next prev (a :: ys) :=
  List.isChain_split

theorem Linked.congr (h : Linked next prev l) (hnext : ∀ a ∈ l.dropLast, next' a = next a)
    (hprev : ∀ a ∈ l.tail, prev' a = prev a) : Linked next' prev' l := by
  induction l with
  | nil => exact .nil
  | cons a l ih =>
      cases l with
      | nil => exact .singleton a
      | cons b l =>
          obtain ⟨⟨hab, hba⟩, hl⟩ := linked_cons_cons.mp h
          rw [linked_cons_cons]
          refine ⟨⟨?_, ?_⟩, ih hl ?_ ?_⟩
          · rw [hnext a (by simp), hab]
          · rw [hprev b (by simp), hba]
          · intro c hc
            exact hnext c (by simp [hc])
          · intro c hc
            exact hprev c (List.mem_cons_of_mem _ hc)

/-! ## Neighbours -/

theorem Linked.neighbours (h : Linked next prev l) {i : Nat} (ha : l[i]? = some a)
    (hb : l[i + 1]? = some b) : next a = some b ∧ prev b = some a := by
  obtain ⟨hi, rfl⟩ := List.getElem?_eq_some_iff.mp ha
  obtain ⟨hi', rfl⟩ := List.getElem?_eq_some_iff.mp hb
  exact List.isChain_iff_getElem.mp h i hi'

/-! ## Putting in and taking out -/

theorem Linked.insert (h : Linked next prev (xs ++ p :: s :: ys))
    (hnodup : (xs ++ p :: s :: ys).Nodup) (hn : n ∉ xs ++ p :: s :: ys)
    (hpn : next' p = some n) (hnp : prev' n = some p) (hns : next' n = some s)
    (hsn : prev' s = some n) (hnext : ∀ a, a ≠ p → a ≠ n → next' a = next a)
    (hprev : ∀ a, a ≠ s → a ≠ n → prev' a = prev a) :
    Linked next' prev' (xs ++ p :: n :: s :: ys) := by
  obtain ⟨hxs, hys⟩ := linked_append_cons.mp h
  have hs := (linked_cons_cons.mp hys).2
  have hdisjoint := List.nodup_append.mp hnodup
  have hpys := List.nodup_cons.mp hdisjoint.2.1
  have hsys := List.nodup_cons.mp hpys.2
  simp only [List.mem_append, List.mem_cons, not_or] at hn hpys
  apply linked_append_cons.mpr
  constructor
  · apply hxs.congr
    · intro a ha
      rw [List.dropLast_concat] at ha
      exact hnext a (fun hap => hdisjoint.2.2 a ha p (by simp) hap) (fun han => hn.1 (han ▸ ha))
    · intro a ha
      rcases List.mem_append.mp (List.mem_of_mem_tail ha) with hax | hap
      · exact hprev a (fun has => hdisjoint.2.2 a hax s (by simp) has) (fun han => hn.1 (han ▸ hax))
      · rw [List.mem_singleton.mp hap]
        exact hprev p hpys.1.1 (Ne.symm hn.2.1)
  · rw [linked_cons_cons, linked_cons_cons]
    refine ⟨⟨hpn, hnp⟩, ⟨hns, hsn⟩, hs.congr ?_ ?_⟩
    · intro a ha
      rcases List.mem_cons.mp (List.dropLast_subset _ ha) with rfl | hay
      · exact hnext a (Ne.symm hpys.1.1) (Ne.symm hn.2.2.1)
      · exact hnext a (fun hap => hpys.1.2 (hap ▸ hay)) (fun han => hn.2.2.2 (han ▸ hay))
    · intro a ha
      exact hprev a (fun has => hsys.1 (has ▸ ha)) (fun han => hn.2.2.2 (han ▸ ha))

theorem Linked.remove (h : Linked next prev (xs ++ p :: t :: s :: ys))
    (hnodup : (xs ++ p :: t :: s :: ys).Nodup) (hps : next' p = some s) (hsp : prev' s = some p)
    (hnext : ∀ a, a ≠ p → next' a = next a) (hprev : ∀ a, a ≠ s → prev' a = prev a) :
    Linked next' prev' (xs ++ p :: s :: ys) := by
  obtain ⟨hxs, hys⟩ := linked_append_cons.mp h
  have hs := (linked_cons_cons.mp (linked_cons_cons.mp hys).2).2
  have hdisjoint := List.nodup_append.mp hnodup
  have hpys := List.nodup_cons.mp hdisjoint.2.1
  have hsys := List.nodup_cons.mp (List.nodup_cons.mp hpys.2).2
  simp only [List.mem_cons, not_or] at hpys
  apply linked_append_cons.mpr
  constructor
  · apply hxs.congr
    · intro a ha
      rw [List.dropLast_concat] at ha
      exact hnext a (fun hap => hdisjoint.2.2 a ha p (by simp) hap)
    · intro a ha
      rcases List.mem_append.mp (List.mem_of_mem_tail ha) with hax | hap
      · exact hprev a (fun has => hdisjoint.2.2 a hax s (by simp) has)
      · rw [List.mem_singleton.mp hap]
        exact hprev p hpys.1.2.1
  · rw [linked_cons_cons]
    refine ⟨⟨hps, hsp⟩, hs.congr ?_ ?_⟩
    · intro a ha
      rcases List.mem_cons.mp (List.dropLast_subset _ ha) with rfl | hay
      · exact hnext a (Ne.symm hpys.1.2.1)
      · exact hnext a (fun hap => hpys.1.2.2 (hap ▸ hay))
    · intro a ha
      exact hprev a (fun has => hsys.1 (has ▸ ha))

end GbStream.Support.Chain
