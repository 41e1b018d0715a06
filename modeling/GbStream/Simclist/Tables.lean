import GbStream.Simclist.Runs
import GbStream.Support.HashTable

/-!
# Tables of lists

The buckets of the program's tables are lists that lie in one memory and hold addresses of nodes.
Each list is worked on by itself; the others stay as they are.
-/

namespace GbStream.Simclist

open Support Support.HashTable

structure Lists where
  heap : Heap Nat
  lists : Nat → ListT

namespace Lists

/-- The loop of `sip_hash_table_init` and `stream_hash_table_init`. -/
def init (heap : Heap Nat) : Nat → Lists
  | 0 => { heap, lists := fun _ => { headSentinel := 0, tailSentinel := 0, spareelsArray := 0 } }
  | len + 1 =>
      let m := init heap len
      let (heap, l) := listInit m.heap
      { heap, lists := Function.update m.lists len l }

/-- `list_seek` in one of the lists; the seekers of the program refuse the null pointer. -/
def seek (m : Lists) (i : Nat) (seeker : Nat → Option Bool) : Option (Option Nat) :=
  listSeek m.heap (m.lists i) fun el => el.elim (some false) seeker

/-- `list_append` to one of the lists; memory is never short. -/
def append (m : Lists) (i a : Nat) : Option Lists :=
  (listAppend false m.heap (m.lists i) (some a)).map fun (heap, l, _) =>
    { heap, lists := Function.update m.lists i l }

/-- `list_delete` from one of the lists. -/
def delete (m : Lists) (i a : Nat) : Option Lists :=
  (listDelete m.heap (m.lists i) (some a)).map fun (heap, l, _) =>
    { heap, lists := Function.update m.lists i l }

def bucketSeq (as : List Nat) (spares : Nat) : Seq Nat := { els := as.map some, spares }

/-- The lists of the table hold the buckets, each in its own entries; `p` says which lists are
those of the table. -/
structure Hold (m : Lists) (p : Nat → Prop) (b : Buckets Nat) (nodes : Nat → List Nat) : Prop where
  holds : ∀ {i}, p i → ∃ spares, Holds m.heap (m.lists i) (nodes i) (bucketSeq (b i) spares)
  apart : ∀ {i j}, p i → p j → i ≠ j →
    ∀ a ∈ owned (m.lists i) (nodes i), a ∉ owned (m.lists j) (nodes j)

variable {m : Lists} {p q : Nat → Prop} {b : Buckets Nat} {nodes : Nat → List Nat} {i : Nat}

theorem Hold.mono (hm : m.Hold p b nodes) (hq : ∀ {i}, q i → p i) : m.Hold q b nodes where
  holds hi := hm.holds (hq hi)
  apart hi hj := hm.apart (hq hi) (hq hj)

/-- **One list has changed**, and with it no other one: what the others own was outside of the
memory that it worked in, and so it is afterwards. -/
theorem Hold.put (hm : m.Hold (fun j => p j ∧ j ≠ i) b nodes) {own : List Nat}
    (hout : ∀ j, p j → j ≠ i → ∀ a ∈ owned (m.lists j) (nodes j), a ∉ own)
    {h' : Heap Nat} {l' : ListT} {nodes' as : List Nat} {spares : Nat}
    (hs : Holds h' l' nodes' (bucketSeq as spares))
    (hrest : h'.rest (owned l' nodes') = m.heap.rest own) :
    Hold { heap := h', lists := Function.update m.lists i l' } p (Function.update b i as)
      (Function.update nodes i nodes') := by
  have hframe : ∀ j, p j → j ≠ i → Rep h' (m.lists j) (nodes j) ((b j).map some) ∧
      ∀ a ∈ owned (m.lists j) (nodes j), a ∉ owned l' nodes' := by
    intro j hj hne
    obtain ⟨spares, hsj⟩ := hm.holds ⟨hj, hne⟩
    exact hsj.rep.frame (hout j hj hne) hrest
  constructor
  · intro j hj
    rcases eq_or_ne j i with rfl | hne
    · simp only [Function.update_self]
      exact ⟨spares, hs⟩
    · simp only [Function.update_of_ne hne]
      obtain ⟨spares, hsj⟩ := hm.holds ⟨hj, hne⟩
      exact ⟨spares, { hsj with rep := (hframe j hj hne).1, bounded := hs.bounded }⟩
  · intro j k hj hk hjk a ha
    rcases eq_or_ne j i with rfl | hji
    · simp only [Function.update_self, Function.update_of_ne hjk.symm] at ha ⊢
      exact fun hmem => (hframe k hk hjk.symm).2 a hmem ha
    · simp only [Function.update_of_ne hji] at ha
      rcases eq_or_ne k i with rfl | hki
      · simp only [Function.update_self]
        exact (hframe j hj hji).2 a ha
      · simp only [Function.update_of_ne hki]
        exact hm.apart ⟨hj, hji⟩ ⟨hk, hki⟩ hjk a ha

theorem Hold.step (hm : m.Hold p b nodes) (hi : p i) (op : Op Nat) (answer : Answer Nat)
    (as : List Nat)
    (hstep : ∀ spares, ∃ spares', (bucketSeq (b i) spares).step op =
      some (bucketSeq as spares', answer)) :
    ∃ h' l' nodes', exec (m.heap, m.lists i) op = some ((h', l'), answer) ∧
      Hold { heap := h', lists := Function.update m.lists i l' } p (Function.update b i as)
        nodes' := by
  obtain ⟨spares, hs⟩ := hm.holds hi
  obtain ⟨spares', hspec⟩ := hstep spares
  obtain ⟨⟨h', l'⟩, hexec, nodes', hs', hrest⟩ :=
    Sim.refines (m.heap.rest (owned (m.lists i) (nodes i))) (m.heap, m.lists i) _ op _ _
      ⟨nodes i, hs, rfl⟩ hspec
  exact ⟨h', l', _, hexec, (hm.mono And.left).put (fun j hj hne => hm.apart hj hi hne) hs' hrest⟩

/-- **A search finds what a search of the bucket finds.** -/
theorem Hold.seek (hm : m.Hold p b nodes) (hi : p i) {seeker : Nat → Option Bool}
    {accepts : Nat → Bool} (hseeker : ∀ a ∈ b i, seeker a = some (accepts a)) :
    m.seek i seeker = some ((b i).find? accepts) := by
  obtain ⟨spares, hs⟩ := hm.holds hi
  have hels : ∀ el ∈ (b i).map some,
      el.elim (some false) seeker = some (el.any accepts) := by
    intro el hel
    obtain ⟨a, ha, rfl⟩ := List.mem_map.mp hel
    exact hseeker a ha
  rw [Lists.seek, hs.rep.listSeek hs.bounded hels]
  show some ((List.map some (b i)).find? fun el => el.any accepts).join = _
  rw [List.find?_map]
  cases hfind : (b i).find? ((fun el : Option Nat => el.any accepts) ∘ some) with
  | none =>
      have hsame : (b i).find? accepts = none := hfind
      rw [hsame]
      rfl
  | some a =>
      have hsame : (b i).find? accepts = some a := hfind
      rw [hsame]
      rfl

/-- **An element is put at the end of its bucket.** -/
theorem Hold.append (hm : m.Hold p b nodes) (hi : p i) (hroom : (b i).length < maxElements)
    (a : Nat) :
    ∃ m' nodes', m.append i a = some m' ∧ m'.Hold p (HashTable.append i a b) nodes' := by
  obtain ⟨h', l', nodes', hexec, hm'⟩ := hm.step hi (.append false (some a)) (.code 1)
    (b i ++ [a]) fun spares => by
      refine ⟨spares - 1, ?_⟩
      show Seq.insert _ _ _ _ = _
      rw [Seq.insert, if_neg (by simp [bucketSeq]), if_neg (by simp),
        if_pos (by simpa [bucketSeq] using hroom), List.insertIdx_length_self]
      simp [bucketSeq]
  refine ⟨_, nodes', ?_, hm'⟩
  rw [Lists.append, withCode_eq_some.mp hexec]
  rfl

/-- **The first place of an element is taken out of its bucket.** -/
theorem Hold.delete (hm : m.Hold p b nodes) (hi : p i) (a : Nat) :
    ∃ m' nodes', m.delete i a = some m' ∧
      m'.Hold p (HashTable.remove i (fun x => x = a) b) nodes' := by
  have herase : ((b i).map some).erase (some a) = ((b i).eraseP fun x => x = a).map some := by
    rw [← List.map_erase (Option.some_injective _), List.erase_eq_eraseP']
    rfl
  rw [List.erase_eq_eraseIdx] at herase
  obtain ⟨answer, hstep⟩ : ∃ code, ∀ spares, ∃ spares',
      (bucketSeq (b i) spares).step (.delete (some a)) =
        some (bucketSeq ((b i).eraseP fun x => x = a) spares', .code code) := by
    cases hidx : ((b i).map some).idxOf? (some a) with
    | none =>
        refine ⟨-1, fun spares => ⟨spares, ?_⟩⟩
        rw [hidx] at herase
        simp only [Seq.step, bucketSeq, hidx]
        rw [← herase]
    | some k =>
        refine ⟨0, fun spares => ⟨sparesAfter spares 1, ?_⟩⟩
        rw [hidx] at herase
        simp only [Seq.step, bucketSeq, hidx, Seq.erase, Option.isSome_none, Bool.false_eq_true,
          if_false]
        rw [← herase]
  obtain ⟨h', l', nodes', hexec, hm'⟩ := hm.step hi _ _ _ hstep
  refine ⟨_, nodes', ?_, hm'⟩
  rw [Lists.delete, withCode_eq_some.mp hexec]
  rfl

/-- **A new table is empty.** -/
theorem hold_init {heap : Heap Nat} (hb : heap.Bounded) (len : Nat) :
    ∃ nodes, (init heap len).heap.Bounded ∧ (init heap len).Hold (· < len) (fun _ => []) nodes := by
  induction len with
  | zero =>
      refine ⟨fun _ => [], hb, fun hi => absurd hi (Nat.not_lt_zero _), fun hi => ?_⟩
      exact absurd hi (Nat.not_lt_zero _)
  | succ len ih =>
      obtain ⟨nodes, hb', hm⟩ := ih
      obtain ⟨hr, hb'', hrest⟩ := listInit_rep hb'
      have hs : Holds (listInit (init heap len).heap).1 (listInit (init heap len).heap).2 []
          (bucketSeq [] 0) := {
        rep := hr
        bounded := hb''
        spares := rfl
        iter := rfl
        size := Nat.zero_le _ }
      have hothers : (init heap len).Hold (fun j => j < len + 1 ∧ j ≠ len) (fun _ => []) nodes :=
        hm.mono fun hj => by omega
      have hput := hothers.put (fun _ _ _ _ _ => List.not_mem_nil) hs hrest
      rw [Function.update_eq_self] at hput
      exact ⟨_, hb'', hput⟩

end Lists

end GbStream.Simclist
