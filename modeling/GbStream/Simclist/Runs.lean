import GbStream.Simclist.Clear
import GbStream.Support.Simulation

/-!
# Runs of a list

What a list is for is told by a sequence of elements.  Whatever the program does with a list, it
answers as the sequence does, its memory is sound, and no other memory is touched.
-/

namespace GbStream.Simclist

open Support

/-! ## The sequence -/

/-- The elements, how many entries are spare, and where the iterator stands. -/
structure Seq (α : Type) where
  els : List (Option α) := []
  spares : Nat := 0
  iter : Option Nat := none

inductive Op (α : Type)
  | insertAt (mallocFails : Bool) (data : Option α) (pos : UInt32)
  | append (mallocFails : Bool) (data : Option α)
  | prepend (mallocFails : Bool) (data : Option α)
  | extractAt (pos : UInt32)
  | deleteAt (pos : UInt32)
  | delete (data : Option α)
  | clear
  | size
  | empty
  | getAt (pos : UInt32)
  | locate (data : Option α)
  | contains (data : Option α)
  | seek (seeker : Option α → Bool)
  | iteratorStart
  | iteratorNext
  | iteratorHasnext
  | iteratorStop

inductive Answer (α : Type)
  | code (r : Int32)
  | element (data : Option α)
  | number (n : UInt32)
  | flag (b : Bool)
  deriving DecidableEq

variable {α : Type}

namespace Seq

/-- An element is put in; without memory it is not, and a list that is full is not spoken of. -/
def insert (s : Seq α) (mallocFails : Bool) (data : Option α) (pos : Nat) :
    Option (Seq α × Answer α) :=
  if s.iter.isSome ∨ s.els.length < pos then some (s, .code (-1))
  else if s.spares = 0 ∧ mallocFails then some (s, .code (-1))
  else if s.els.length < maxElements then
    some ({ s with els := s.els.insertIdx pos data, spares := s.spares - 1 }, .code 1)
  else none

def erase (s : Seq α) (pos : Nat) : Seq α :=
  { s with els := s.els.eraseIdx pos, spares := sparesAfter s.spares 1 }

/-- One operation.  An iterator that has gone past the end can not go on. -/
def step [DecidableEq α] (s : Seq α) : Op α → Option (Seq α × Answer α)
  | .insertAt mallocFails data pos => s.insert mallocFails data pos.toNat
  | .append mallocFails data => s.insert mallocFails data s.els.length
  | .prepend mallocFails data => s.insert mallocFails data 0
  | .extractAt pos =>
      some (if s.iter.isSome ∨ s.els.length ≤ pos.toNat then (s, .element none)
        else (s.erase pos.toNat, .element s.els[pos.toNat]?.join))
  | .deleteAt pos =>
      some (if s.iter.isSome ∨ s.els.length ≤ pos.toNat then (s, .code (-1))
        else (s.erase pos.toNat, .code 0))
  | .delete data =>
      some (match s.els.idxOf? data with
        | none => (s, .code (-1))
        | some i => if s.iter.isSome then (s, .code (-1)) else (s.erase i, .code 0))
  | .clear =>
      some (if s.iter.isSome then (s, .code (-1))
        else ({ s with els := [], spares := sparesAfter s.spares s.els.length }, .code 0))
  | .size => some (s, .number (UInt32.ofNat s.els.length))
  | .empty => some (s, .flag s.els.isEmpty)
  | .getAt pos => some (s, .element s.els[pos.toNat]?.join)
  | .locate data => some (s, .code (Rep.position s.els data))
  | .contains data => some (s, .flag (decide (data ∈ s.els)))
  | .seek seeker => some (s, .element (s.els.find? seeker).join)
  | .iteratorStart =>
      some (if s.iter.isSome then (s, .code 0) else ({ s with iter := some 0 }, .code 1))
  | .iteratorNext =>
      match s.iter with
      | none => some (s, .element none)
      | some k =>
          if k ≤ s.els.length then
            some ({ s with iter := some (k + 1) }, .element s.els[k]?.join)
          else none
  | .iteratorHasnext => some (s, .flag (s.iter.any fun k => k < s.els.length))
  | .iteratorStop =>
      some (if s.iter.isSome then ({ s with iter := none }, .code 1) else (s, .code 0))

end Seq

/-! ## The list -/

def withCode (r : Option (Heap α × ListT × Int32)) : Option ((Heap α × ListT) × Answer α) :=
  r.map fun (h, l, r) => ((h, l), .code r)

theorem withCode_eq_some {r : Option (Heap α × ListT × Int32)} {c : Heap α × ListT} {code : Int32} :
    withCode r = some (c, .code code) ↔ r = some (c.1, c.2, code) := by
  rw [withCode, Option.map_eq_some_iff]
  constructor
  · intro h
    obtain ⟨⟨h, l, r⟩, heq, hcode⟩ := h
    cases hcode
    exact heq
  · intro h
    exact ⟨_, h, rfl⟩

/-- The functions of the list, called for the operations. -/
def exec [DecidableEq α] (s : Heap α × ListT) : Op α → Option ((Heap α × ListT) × Answer α)
  | .insertAt mallocFails data pos => withCode (listInsertAt mallocFails s.1 s.2 data pos)
  | .append mallocFails data => withCode (listAppend mallocFails s.1 s.2 data)
  | .prepend mallocFails data => withCode (listPrepend mallocFails s.1 s.2 data)
  | .extractAt pos => (listExtractAt s.1 s.2 pos).map fun (h, l, data) => ((h, l), .element data)
  | .deleteAt pos => withCode (listDeleteAt s.1 s.2 pos)
  | .delete data => withCode (listDelete s.1 s.2 data)
  | .clear => withCode (listClear s.1 s.2)
  | .size => some (s, .number (listSize s.2))
  | .empty => some (s, .flag (listEmpty s.2))
  | .getAt pos => (listGetAt s.1 s.2 pos).map fun data => (s, .element data)
  | .locate data => (listLocate s.1 s.2 data).map fun pos => (s, .code pos)
  | .contains data => (listContains s.1 s.2 data).map fun b => (s, .flag b)
  | .seek seeker => (listSeek s.1 s.2 fun el => seeker el).map fun data => (s, .element data)
  | .iteratorStart => (listIteratorStart s.1 s.2).map fun (l, r) => ((s.1, l), .code r)
  | .iteratorNext => (listIteratorNext s.1 s.2).map fun (l, data) => ((s.1, l), .element data)
  | .iteratorHasnext => some (s, .flag (listIteratorHasnext s.2))
  | .iteratorStop => some ((s.1, (listIteratorStop s.2).1), .code (listIteratorStop s.2).2)

/-! ## What relates them -/

def Iterates (l : ListT) (nodes : List Nat) : Option Nat → Prop
  | none => l.iterActive = false
  | some k => l.iterActive = true ∧ l.iterPos.toNat = k ∧ k ≤ nodes.length + 1 ∧
      l.iterCurentry = (chain l nodes)[k + 1]?

/-- The list holds the sequence, in the entries `nodes`. -/
structure Holds (h : Heap α) (l : ListT) (nodes : List Nat) (s : Seq α) : Prop where
  rep : Rep h l nodes s.els
  bounded : h.Bounded
  spares : l.spareels.length = s.spares
  iter : Iterates l nodes s.iter
  size : nodes.length ≤ maxElements

/-- The list holds the sequence, and the memory beside it is `rest`. -/
def Sim (rest : Nat → Option (Option α × Option Nat × Option Nat)) (c : Heap α × ListT)
    (s : Seq α) : Prop :=
  ∃ nodes, Holds c.1 c.2 nodes s ∧ c.1.rest (owned c.2 nodes) = rest

variable {rest : Nat → Option (Option α × Option Nat × Option Nat)} {h : Heap α} {l : ListT}
  {nodes : List Nat} {s s' : Seq α} {b b' : Answer α}

namespace Holds

theorem iterActive (hs : Holds h l nodes s) : l.iterActive = s.iter.isSome := by
  have hiter := hs.iter
  cases hcase : s.iter with
  | none => rw [hcase] at hiter; exact hiter
  | some k => rw [hcase] at hiter; exact hiter.1

theorem length_els (hs : Holds h l nodes s) : s.els.length = nodes.length := hs.rep.length_els

theorem iterates_none (hs : Holds h l nodes s) (hiter : ¬ s.iter.isSome) :
    l.iterActive = false ∧ s.iter = none := by
  have hnone : s.iter = none := by simpa using hiter
  rw [hs.iterActive, hnone]
  exact ⟨rfl, rfl⟩

end Holds

namespace Sim

theorem insert (hs : Sim rest (h, l) s) {mallocFails : Bool} {data : Option α} {pos : UInt32}
    {p : Nat} (hp : pos.toNat = p) (hins : s.insert mallocFails data p = some (s', b)) :
    ∃ c, withCode (listInsertAt mallocFails h l data pos) = some (c, b) ∧ Sim rest c s' := by
  obtain ⟨nodes, hs, hrest⟩ := hs
  subst hp
  have hgt : pos > l.numels ↔ s.els.length < pos.toNat := by
    rw [gt_iff_lt, UInt32.lt_iff_toNat_lt, hs.rep.numels, hs.length_els]
  unfold Seq.insert at hins
  split at hins
  · rename_i hrefused
    cases hins
    refine ⟨(h, l), ?_, nodes, hs, hrest⟩
    rw [listInsertAt, if_pos]
    · rfl
    · rw [hs.iterActive, hgt]
      exact hrefused
  · rename_i hrefused
    rw [not_or] at hrefused
    obtain ⟨hiter, hnone⟩ := hs.iterates_none hrefused.1
    split at hins
    · -- there is no entry for the element
      rename_i hmemory
      cases hins
      have hspares : l.spareels = [] := List.length_eq_zero_iff.mp (hs.spares.trans hmemory.1)
      refine ⟨(h, l), ?_, nodes, hs, hrest⟩
      rw [listInsertAt, if_neg (by rw [hiter, hgt]; simpa using hrefused.2), takeEntry, hspares]
      simp only [List.getLast?_nil, hmemory.2, if_true]
      rfl
    · rename_i hmemory
      split at hins
      · rename_i hroom
        cases hins
        rw [hs.length_els] at hroom hrefused
        have hspare : l.spareels ≠ [] ∨ mallocFails = false := by
          rcases not_and_or.mp hmemory with hspares | hworks
          · left
            intro hnil
            exact hspares (by rw [← hs.spares, hnil]; rfl)
          · exact .inr (Bool.eq_false_iff.mpr hworks)
        have hpos : pos.toNat ≤ nodes.length := Nat.le_of_not_lt hrefused.2
        obtain ⟨lent, h', mid, heq, hr', hb', hrest'⟩ :=
          hs.rep.listInsertAt hs.bounded hroom.le hiter hspare data hpos
        rw [heq]
        refine ⟨_, rfl, nodes.insertIdx pos.toNat lent, ?_, hrest'.trans hrest⟩
        exact {
          rep := hr'
          bounded := hb'
          spares := by
            show l.spareels.dropLast.length = s.spares - 1
            rw [List.length_dropLast, hs.spares]
          iter := by
            show Iterates _ _ s.iter
            rw [hnone]
            exact hiter
          size := by
            rw [List.length_insertIdx_of_le_length hpos]
            exact hroom }
      · cases hins

theorem erase (hs : Holds h l nodes s) (hrest : h.rest (owned l nodes) = rest)
    (hiter : ¬ s.iter.isSome) {h' : Heap α} {mid : Option Nat} {spareels : List Nat} {p : Nat}
    (hr : Rep h' { l with mid, spareels, numels := l.numels - 1 } (nodes.eraseIdx p)
      (s.els.eraseIdx p)) (hb : h'.Bounded)
    (hrest' : h'.rest (owned { l with spareels } (nodes.eraseIdx p)) = h.rest (owned l nodes))
    (hspares : spareels.length = sparesAfter l.spareels.length 1) :
    Sim rest (h', { l with mid, spareels, numels := l.numels - 1 }) (s.erase p) := by
  obtain ⟨hiter, hnone⟩ := hs.iterates_none hiter
  refine ⟨nodes.eraseIdx p, ?_, hrest'.trans hrest⟩
  exact {
    rep := hr
    bounded := hb
    spares := by
      show spareels.length = sparesAfter s.spares 1
      rw [hspares, hs.spares]
    iter := by
      show Iterates _ _ s.iter
      rw [hnone]
      exact hiter
    size := (List.length_eraseIdx_le nodes p).trans hs.size }

variable [DecidableEq α]

theorem deleteAt (hs : Sim rest (h, l) s) (pos : UInt32)
    (hstep : s.step (.deleteAt pos) = some (s', b)) :
    ∃ c, exec (h, l) (.deleteAt pos) = some (c, b) ∧ Sim rest c s' := by
  obtain ⟨nodes, hs, hrest⟩ := hs
  have hge : pos ≥ l.numels ↔ s.els.length ≤ pos.toNat := by
    rw [ge_iff_le, UInt32.le_iff_toNat_le, hs.rep.numels, hs.length_els]
  simp only [Seq.step] at hstep
  split at hstep
  · rename_i hrefused
    cases hstep
    refine ⟨(h, l), ?_, nodes, hs, hrest⟩
    rw [exec, listDeleteAt, if_pos]
    · rfl
    · rw [hs.iterActive, hge]
      exact hrefused
  · rename_i hallowed
    rw [not_or, Nat.not_le, hs.length_els] at hallowed
    cases hstep
    obtain ⟨h', mid, spareels, heq, hr', hb', hrest', hspares⟩ := hs.rep.listDeleteAt hs.bounded
      hs.size (hs.iterates_none hallowed.1).1 hallowed.2
    rw [exec, heq]
    exact ⟨_, rfl, erase hs hrest hallowed.1 hr' hb' hrest' hspares⟩

theorem extractAt (hs : Sim rest (h, l) s) {pos : UInt32}
    (hstep : s.step (.extractAt pos) = some (s', b)) :
    ∃ c, exec (h, l) (.extractAt pos) = some (c, b) ∧ Sim rest c s' := by
  obtain ⟨nodes, hs, hrest⟩ := hs
  have hge : pos ≥ l.numels ↔ s.els.length ≤ pos.toNat := by
    rw [ge_iff_le, UInt32.le_iff_toNat_le, hs.rep.numels, hs.length_els]
  simp only [Seq.step] at hstep
  split at hstep
  · rename_i hrefused
    cases hstep
    refine ⟨(h, l), ?_, nodes, hs, hrest⟩
    rw [exec, listExtractAt, if_pos]
    · rfl
    · rw [hs.iterActive, hge]
      exact hrefused
  · rename_i hallowed
    rw [not_or, Nat.not_le, hs.length_els] at hallowed
    cases hstep
    obtain ⟨h', mid, spareels, heq, hr', hb', hrest', hspares⟩ := hs.rep.listExtractAt hs.bounded
      hs.size (hs.iterates_none hallowed.1).1 hallowed.2
    rw [exec, heq]
    exact ⟨_, rfl, erase hs hrest hallowed.1 hr' hb' hrest' hspares⟩

theorem clear (hs : Sim rest (h, l) s) (hstep : s.step .clear = some (s', b)) :
    ∃ c, exec (h, l) .clear = some (c, b) ∧ Sim rest c s' := by
  obtain ⟨nodes, hs, hrest⟩ := hs
  simp only [Seq.step] at hstep
  split at hstep
  · rename_i hrefused
    cases hstep
    refine ⟨(h, l), ?_, nodes, hs, hrest⟩
    rw [exec, listClear, if_pos (by rw [hs.iterActive]; exact hrefused)]
    rfl
  · rename_i hallowed
    cases hstep
    obtain ⟨hiter, hnone⟩ := hs.iterates_none hallowed
    obtain ⟨h', spareels, heq, hr', hb', hrest', hspares⟩ := hs.rep.listClear hs.bounded hiter
    rw [exec, heq]
    refine ⟨_, rfl, [], ?_, hrest'.trans hrest⟩
    exact {
      rep := hr'
      bounded := hb'
      spares := by
        show spareels.length = sparesAfter s.spares s.els.length
        rw [hspares, hs.spares, hs.length_els]
      iter := by
        show Iterates _ _ s.iter
        rw [hnone]
        exact hiter
      size := Nat.zero_le _ }

theorem position_of_idxOf? {els : List (Option α)} {data : Option α} {i : Nat}
    (hi : els.idxOf? data = some i) (hlen : els.length ≤ maxElements) :
    i < els.length ∧ (Rep.position els data).toUInt32.toNat = i ∧ ¬ Rep.position els data < 0 := by
  obtain ⟨hlt, -⟩ := List.findIdx?_eq_some_iff_getElem.mp hi
  unfold maxElements at hlen
  have hposition : Rep.position els data = Int32.ofNat i := by rw [Rep.position, hi]
  rw [hposition]
  refine ⟨hlt, ?_, ?_⟩
  · show (BitVec.ofNat 32 i).toNat = i
    rw [BitVec.toNat_ofNat]
    exact Nat.mod_eq_of_lt (by omega)
  · have hsize : Int32.size = 2 ^ 32 := rfl
    rw [Int32.lt_iff_toInt_lt, Int32.toInt_ofNat', hsize, Int.bmod_eq_of_le (by omega) (by omega)]
    show ¬ (i : Int) < 0
    omega

theorem zero_le_position {els : List (Option α)} {data : Option α}
    (hlen : els.length ≤ maxElements) : 0 ≤ Rep.position els data ↔ data ∈ els := by
  cases hi : els.idxOf? data with
  | none =>
      have hposition : Rep.position els data = -1 := by rw [Rep.position, hi]
      rw [hposition]
      exact ⟨fun h => absurd h (by decide), fun h => absurd h (List.idxOf?_eq_none_iff.mp hi)⟩
  | some i =>
      have hmem : data ∈ els := by
        rw [← List.isSome_idxOf?, hi]
        rfl
      exact ⟨fun _ => hmem, fun _ => Int32.not_lt.mp (position_of_idxOf? hi hlen).2.2⟩

theorem delete (hs : Sim rest (h, l) s) {data : Option α}
    (hstep : s.step (.delete data) = some (s', b)) :
    ∃ c, exec (h, l) (.delete data) = some (c, b) ∧ Sim rest c s' := by
  have hsim := hs
  obtain ⟨nodes, hs, hrest⟩ := hs
  have hlocate := hs.rep.listLocate hs.bounded data
  rw [exec, listDelete, hlocate, Option.bind_eq_bind, Option.bind_some]
  simp only [Seq.step, Option.some.injEq] at hstep
  cases hi : s.els.idxOf? data with
  | none =>
      rw [hi] at hstep
      cases hstep
      have hposition : Rep.position s.els data = -1 := by rw [Rep.position, hi]
      rw [hposition, if_pos (by decide)]
      exact ⟨(h, l), rfl, hsim⟩
  | some i =>
      have hsize := hs.size
      rw [← hs.length_els] at hsize
      obtain ⟨hlt, htoNat, hneg⟩ := position_of_idxOf? hi hsize
      rw [if_neg hneg]
      simp only [hi] at hstep
      by_cases hiter : s.iter.isSome
      · rw [if_pos hiter] at hstep
        cases hstep
        obtain ⟨c, hexec, hc⟩ := deleteAt hsim (Rep.position s.els data).toUInt32
          (congrArg some (if_pos (.inl hiter)))
        rw [withCode_eq_some.mp hexec]
        exact ⟨c, rfl, hc⟩
      · rw [if_neg hiter] at hstep
        cases hstep
        obtain ⟨c, hexec, hc⟩ := deleteAt hsim (Rep.position s.els data).toUInt32
          (congrArg some (if_neg (by rw [htoNat, not_or, Nat.not_le]; exact ⟨hiter, hlt⟩)))
        rw [htoNat] at hc
        rw [withCode_eq_some.mp hexec]
        exact ⟨c, rfl, hc⟩

theorem query (hs : Sim rest (h, l) s) {op : Op α} {b : Answer α}
    (hspec : s.step op = some (s, b)) (hanswer : exec (h, l) op = some ((h, l), b))
    (hstep : s.step op = some (s', b')) :
    ∃ c, exec (h, l) op = some (c, b') ∧ Sim rest c s' := by
  rw [hspec] at hstep
  cases hstep
  exact ⟨(h, l), hanswer, hs⟩

theorem iteratorStart (hs : Sim rest (h, l) s) (hstep : s.step .iteratorStart = some (s', b)) :
    ∃ c, exec (h, l) .iteratorStart = some (c, b) ∧ Sim rest c s' := by
  have hsim := hs
  obtain ⟨nodes, hs, hrest⟩ := hs
  simp only [Seq.step] at hstep
  split at hstep
  · rename_i hactive
    cases hstep
    refine ⟨(h, l), ?_, hsim⟩
    rw [exec, listIteratorStart, if_pos (hs.iterActive.trans hactive)]
    rfl
  · rename_i hactive
    cases hstep
    rw [exec, hs.rep.listIteratorStart (hs.iterates_none hactive).1]
    refine ⟨_, rfl, nodes, ?_, hrest⟩
    exact { hs with
      rep := { hs.rep with }
      iter := ⟨rfl, rfl, Nat.zero_le _, rfl⟩ }

theorem iteratorNext (hs : Sim rest (h, l) s) (hstep : s.step .iteratorNext = some (s', b)) :
    ∃ c, exec (h, l) .iteratorNext = some (c, b) ∧ Sim rest c s' := by
  have hsim := hs
  obtain ⟨nodes, hs, hrest⟩ := hs
  have hactive := hs.iterActive
  have hiter := hs.iter
  have hsize := hs.size
  unfold maxElements at hsize
  cases hcase : s.iter with
  | none =>
      simp only [Seq.step, hcase] at hstep
      cases hstep
      refine ⟨(h, l), ?_, hsim⟩
      rw [exec, listIteratorNext, if_pos (by rw [hactive, hcase]; exact Bool.false_ne_true)]
      rfl
  | some k =>
      rw [hcase] at hiter
      simp only [Seq.step, hcase] at hstep
      split at hstep
      · rename_i hk
        rw [hs.length_els] at hk
        cases hstep
        rw [exec, hs.rep.listIteratorNext hiter.1 hk hiter.2.2.2]
        refine ⟨_, rfl, nodes, ?_, hrest⟩
        exact { hs with
          rep := { hs.rep with }
          iter := by
            refine ⟨hiter.1, ?_, Nat.succ_le_succ hk, rfl⟩
            show (l.iterPos + 1).toNat = k + 1
            rw [UInt32.toNat_add, hiter.2.1, UInt32.toNat_one]
            exact Nat.mod_eq_of_lt (by omega) }
      · cases hstep

theorem iteratorStop (hs : Sim rest (h, l) s) (hstep : s.step .iteratorStop = some (s', b)) :
    ∃ c, exec (h, l) .iteratorStop = some (c, b) ∧ Sim rest c s' := by
  have hsim := hs
  obtain ⟨nodes, hs, hrest⟩ := hs
  have hactive := hs.iterActive
  simp only [Seq.step] at hstep
  split at hstep
  · rename_i hcase
    cases hstep
    rw [exec, listIteratorStop, if_neg (by rw [hactive]; exact not_not.mpr hcase)]
    refine ⟨_, rfl, nodes, ?_, hrest⟩
    exact { hs with
      rep := { hs.rep with }
      iter := rfl }
  · rename_i hcase
    cases hstep
    refine ⟨(h, l), ?_, hsim⟩
    rw [exec, listIteratorStop, if_pos (by rw [hactive]; exact hcase)]

/-- **A list refines its sequence.** -/
theorem refines (rest : Nat → Option (Option α × Option Nat × Option Nat)) :
    Simulation.Refines (Sim rest) exec (Seq.step (α := α)) := by
  intro c s op s' b hs hstep
  obtain ⟨h, l⟩ := c
  have hsim : Sim rest (h, l) s := hs
  obtain ⟨nodes, hholds, -⟩ := hs
  have hrep := hholds.rep
  have hnumels : l.numels.toNat = s.els.length := by rw [hrep.numels, hholds.length_els]
  have hsize := hholds.size
  cases op with
  | insertAt mallocFails data pos => exact hsim.insert rfl hstep
  | append mallocFails data => exact hsim.insert hnumels hstep
  | prepend mallocFails data => exact hsim.insert rfl hstep
  | extractAt pos => exact hsim.extractAt hstep
  | deleteAt pos => exact hsim.deleteAt pos hstep
  | delete data => exact hsim.delete hstep
  | clear => exact hsim.clear hstep
  | size =>
      refine hsim.query rfl ?_ hstep
      rw [exec, listSize, ← hnumels, UInt32.ofNat_toNat]
  | empty =>
      refine hsim.query rfl ?_ hstep
      have hzero : l.numels = 0 ↔ s.els = [] := by
        rw [← UInt32.toNat_inj, hnumels]
        exact List.length_eq_zero_iff
      have hempty : decide (s.els = []) = s.els.isEmpty := by cases s.els <;> rfl
      rw [exec, listEmpty, decide_eq_decide.mpr hzero, hempty]
  | getAt pos => exact hsim.query rfl (by rw [exec, hrep.listGetAt hsize]; rfl) hstep
  | locate data => exact hsim.query rfl (by rw [exec, hrep.listLocate hholds.bounded]; rfl) hstep
  | contains data =>
      refine hsim.query rfl ?_ hstep
      rw [exec, listContains, hrep.listLocate hholds.bounded, Option.map_some, Option.map_some,
        decide_eq_decide.mpr (zero_le_position (hrep.length_els ▸ hsize))]
  | seek seeker =>
      refine hsim.query rfl ?_ hstep
      rw [exec, hrep.listSeek hholds.bounded fun _ _ => rfl]
      rfl
  | iteratorStart => exact hsim.iteratorStart hstep
  | iteratorNext => exact hsim.iteratorNext hstep
  | iteratorHasnext =>
      refine hsim.query rfl ?_ hstep
      have hiter := hholds.iter
      rw [exec, listIteratorHasnext, hholds.iterActive]
      cases hcase : s.iter with
      | none => rfl
      | some k =>
          rw [hcase] at hiter
          have hlt : l.iterPos < l.numels ↔ k < s.els.length := by
            rw [UInt32.lt_iff_toNat_lt, hnumels, hiter.2.1]
          rw [Option.isSome_some, Bool.true_and, Option.any_some, decide_eq_decide.mpr hlt]
  | iteratorStop => exact hsim.iteratorStop hstep

end Sim

/-! ## The life of a list -/

theorem Sim.listInit (hb : h.Bounded) :
    Sim (h.rest []) (Simclist.listInit h) ({} : Seq α) := by
  obtain ⟨hr, hb', hrest⟩ := listInit_rep hb
  refine ⟨[], ?_, hrest⟩
  exact {
    rep := hr
    bounded := hb'
    spares := rfl
    iter := rfl
    size := Nat.zero_le _ }

variable [DecidableEq α] {ops : List (Op α)} {answers : List (Answer α)}

/-- **Every run of a list** answers as the sequence does.  What it leaves passes the program's own
test, and the memory beside it is what it was. -/
theorem run_answers (hb : h.Bounded)
    (hrun : Simulation.run Seq.step ({} : Seq α) ops = some (s, answers)) :
    ∃ h' l' nodes, Simulation.run exec (listInit h) ops = some ((h', l'), answers) ∧
      Rep h' l' nodes s.els ∧ listRepOk h' l' = some true ∧
      h'.rest (owned l' nodes) = h.rest [] := by
  obtain ⟨⟨h', l'⟩, hexec, nodes, hs, hrest⟩ :=
    (Sim.refines (h.rest [])).run (Sim.listInit hb) hrun
  exact ⟨h', l', nodes, hexec, hs.rep, hs.rep.listRepOk hs.bounded hs.size, hrest⟩

/-- A list that is filled, searched, iterated over and made shorter. -/
theorem run_answers_some :
    let ops : List (Op Nat) :=
      [.append false (some 1), .append false (some 2), .prepend false (some 0), .getAt 1,
        .delete (some 1), .delete (some 7), .iteratorStart, .iteratorNext, .deleteAt 0,
        .iteratorHasnext, .iteratorStop, .extractAt 0, .size]
    let answers : List (Answer Nat) :=
      [.code 1, .code 1, .code 1, .element (some 1), .code 0, .code (-1), .code 1,
        .element (some 0), .code (-1), .flag true, .code 1, .element (some 0), .number 1]
    ∃ (h : Heap Nat) (l : ListT) (nodes : List Nat),
      Simulation.run exec (listInit Heap.unused) ops = some ((h, l), answers) ∧
      Rep h l nodes [some 2] ∧ listRepOk h l = some true ∧
      h.rest (owned l nodes) = Heap.unused.rest [] := by
  intro ops answers
  exact run_answers Heap.bounded_unused
    (rfl : Simulation.run Seq.step ({} : Seq Nat) ops =
      some ({ els := [some 2], spares := 2, iter := none }, answers))

/-- **Destroyed after any run, a list has given back all that it had from `malloc`**, with the
exception of its entries when it was being iterated over. -/
theorem run_destroy (hb : h.Bounded)
    (hrun : Simulation.run Seq.step ({} : Seq α) ops = some (s, answers)) :
    ∃ h' l' nodes h'', Simulation.run exec (listInit h) ops = some ((h', l'), answers) ∧
      listDestroy h' l' = some h'' ∧ nodes.length = s.els.length ∧
      h''.rest (if s.iter.isSome then nodes else []) = h.rest [] ∧
      (s.iter.isSome → ∀ a ∈ nodes, h''.live a = true ∧ h.live a = false) := by
  obtain ⟨⟨h', l'⟩, hexec, nodes, hs, hrest⟩ :=
    (Sim.refines (h.rest [])).run (Sim.listInit hb) hrun
  obtain ⟨h'', hdestroy, -, hrest', hleft⟩ := hs.rep.listDestroy hs.bounded
  rw [hs.iterActive] at hrest' hleft
  refine ⟨h', l', nodes, h'', hexec, hdestroy, hs.length_els.symm, hrest'.trans hrest, ?_⟩
  intro hiter a ha
  refine ⟨hleft hiter a ha, Bool.eq_false_iff.mpr fun hlive => ?_⟩
  -- what was live before is live and outside the list
  have hout := Heap.outside_of_rest_eq (hrest'.trans hrest) hlive List.not_mem_nil
  rw [if_pos hiter] at hout
  exact hout.1.2 ha

/-- A list with two entries and one that was taken out, while it is iterated over and when it is
not any more. -/
theorem run_destroy_some :
    let ops : List (Op Nat) :=
      [.append false (some 1), .append false (some 2), .append false (some 3), .deleteAt 1,
        .iteratorStart]
    (∃ (answers : List (Answer Nat)) (h : Heap Nat) (l : ListT) (nodes : List Nat) (h' : Heap Nat),
      Simulation.run exec (listInit Heap.unused) ops = some ((h, l), answers) ∧
      listDestroy h l = some h' ∧ nodes.length = 2 ∧ h'.rest nodes = Heap.unused.rest [] ∧
      ∀ a ∈ nodes, h'.live a = true) ∧
    ∃ (answers : List (Answer Nat)) (h : Heap Nat) (l : ListT) (h' : Heap Nat),
      Simulation.run exec (listInit Heap.unused) (ops ++ [.iteratorStop]) =
        some ((h, l), answers) ∧
      listDestroy h l = some h' ∧ h'.rest [] = Heap.unused.rest [] := by
  intro ops
  constructor
  · obtain ⟨h, l, nodes, h', hrun, hdestroy, hlen, hrest, hleft⟩ :=
      run_destroy Heap.bounded_unused (rfl : Simulation.run Seq.step ({} : Seq Nat) ops =
        some ({ els := [some 1, some 3], spares := 1, iter := some 0 }, _))
    exact ⟨_, h, l, nodes, h', hrun, hdestroy, hlen, hrest, fun a ha => (hleft rfl a ha).1⟩
  · obtain ⟨h, l, nodes, h', hrun, hdestroy, -, hrest, -⟩ :=
      run_destroy Heap.bounded_unused
        (rfl : Simulation.run Seq.step ({} : Seq Nat) (ops ++ [.iteratorStop]) =
          some ({ els := [some 1, some 3], spares := 1, iter := none }, _))
    exact ⟨_, h, l, h', hrun, hdestroy, hrest⟩

/-! ## How long a list can be -/

omit [DecidableEq α] in
/-- Lists of all these lengths can be made, with one element after the other put in front. -/
theorem exists_rep_length (data : Option α) {n : Nat} (hn : n ≤ maxElements + 1) :
    ∃ (h : Heap α) (l : ListT) (nodes : List Nat) (els : List (Option α)), Rep h l nodes els ∧
      h.Bounded ∧ l.iterActive = false ∧ nodes.length = n := by
  induction n with
  | zero =>
      obtain ⟨hr, hb, -⟩ := listInit_rep (Heap.bounded_unused (α := α))
      exact ⟨_, _, [], [], hr, hb, rfl, rfl⟩
  | succ n ih =>
      obtain ⟨h, l, nodes, els, hr, hb, hiter, hlen⟩ := ih (Nat.le_of_succ_le hn)
      have hfront : (0 : UInt32).toNat ≤ nodes.length := Nat.zero_le _
      obtain ⟨lent, h', mid, -, hr', hb', -⟩ := hr.listInsertAt hb
        (by rw [hlen]; exact Nat.le_of_succ_le_succ hn) hiter (.inr (rfl : false = false)) data
        hfront
      refine ⟨h', _, _, _, hr', hb', hiter, ?_⟩
      rw [List.length_insertIdx_of_le_length hfront, hlen]

omit [DecidableEq α] in
/-- **`list_findpos` is right about every position of every list of up to `2 ^ 24` elements, and
wrong about one of every list that is one element longer.** -/
theorem Rep.listFindpos_exact {els : List (Option α)} (hr : Rep h l nodes els) :
    (nodes.length ≤ maxElements → ∀ pos : UInt32, pos.toNat < nodes.length →
      Simclist.listFindpos h l pos.toInt32 = some nodes[pos.toNat]?) ∧
    (nodes.length = maxElements + 1 →
      Simclist.listFindpos h l 8388607 ≠ some nodes[8388607]?) := by
  constructor
  · intro hlen pos hpos
    have ha := List.getElem?_eq_getElem hpos
    rw [ha]
    exact hr.listFindpos_node hlen ha
  · intro hlen heq
    unfold maxElements at hlen
    rw [hr.listFindpos_limit hlen] at heq
    have hidx := (List.getElem?_inj (by omega) hr.nodup_nodes).mp (Option.some.inj heq)
    exact absurd hidx (by decide)

/-- All positions of a list of seven elements, from the head, from the middle on both sides and from
the tail; and a list that is too long. -/
theorem Rep.listFindpos_exact_seven :
    (∃ (h : Heap Nat) (l : ListT) (nodes : List Nat), nodes.length = 7 ∧
      ∀ pos : UInt32, pos.toNat < 7 →
        Simclist.listFindpos h l pos.toInt32 = some nodes[pos.toNat]?) ∧
    ∃ (h : Heap Nat) (l : ListT) (nodes : List Nat), nodes.length = maxElements + 1 ∧
      Simclist.listFindpos h l 8388607 ≠ some nodes[8388607]? := by
  constructor
  · obtain ⟨h, l, nodes, els, hr, -, -, hlen⟩ :=
      exists_rep_length (some 7) (show 7 ≤ maxElements + 1 by decide)
    refine ⟨h, l, nodes, hlen, fun pos hpos => ?_⟩
    exact hr.listFindpos_exact.1 (by rw [hlen]; decide) pos (by rwa [hlen])
  · obtain ⟨h, l, nodes, els, hr, -, -, hlen⟩ := exists_rep_length (some 7) (Nat.le_refl _)
    exact ⟨h, l, nodes, hlen, hr.listFindpos_exact.2 hlen⟩

end GbStream.Simclist
