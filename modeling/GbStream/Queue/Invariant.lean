import Mathlib.Data.List.Infix
import Mathlib.Tactic.Ring
import GbStream.Queue.LfQueue

/-!
# The counting invariant of the queue

The pusher takes the slots in turn, so push number `k` lies in slot `k % (max + 1)`; the
list head after `k` pops is the slot of push `k - 1`.  A push has counted itself in
`w_len` before it takes a slot, and a pop leaves `w_len` as its last step.  Hence the
slot of a running push is none of the slots between the head and the tail of the list.
-/

namespace GbStream.Queue

open Support.Transition

variable {c : Config}

/-! ## Slots -/

theorem Config.checkArguments_eq (c : Config) :
    checkArguments c.unitSize c.maxUnitNum = .ok () := by
  have hunit := c.unitSize_pos
  have hmax := c.maxUnitNum_pos
  have hmem := c.memSize_le
  have hsize : c.unitSize * 1 ≤ c.unitSize * (c.maxUnitNum + 2) :=
    Nat.mul_le_mul_left _ (by omega)
  simp only [memSize, sizeofQueueHead, sizeofUnitHead, int32Max, Nat.add_mul] at hmem
  rw [checkArguments, if_neg (by omega), if_neg]
  simp only [int32Max, sizeofUnitHead]
  omega

/-- Two slots do not overlap. -/
theorem Config.unitHead_disjoint (c : Config) {i j : Int} (h : i < j) :
    c.unitHead i + (sizeofUnitHead + c.unitSize) ≤ c.unitHead j := by
  have hmul : (i + 1 + 1) * (c.unitSize + sizeofUnitHead : Int) ≤
      (j + 1) * (c.unitSize + sizeofUnitHead) :=
    Int.mul_le_mul_of_nonneg_right (by omega) (by omega)
  rw [Int.add_mul (i + 1)] at hmul
  unfold Config.unitHead
  omega

/-- The slots from `-1` to `max_unit_num` lie in the memory of the queue. -/
theorem Config.unitHead_fits (c : Config) {i : Int} (hlow : listEnd ≤ i)
    (hhigh : i ≤ c.maxUnitNum) :
    sizeofQueueHead ≤ c.unitHead i ∧
      c.unitHead i + (sizeofUnitHead + c.unitSize) ≤ memSize c.unitSize c.maxUnitNum := by
  have hlow' : (-1 : Int) ≤ i := hlow
  have hnonneg : 0 ≤ (i + 1) * (c.unitSize + sizeofUnitHead : Int) :=
    Int.mul_nonneg (by omega) (by omega)
  have hmul : (i + 1 + 1) * (c.unitSize + sizeofUnitHead : Int) ≤
      (c.maxUnitNum + 2) * (c.unitSize + sizeofUnitHead) :=
    Int.mul_le_mul_of_nonneg_right (by omega) (by omega)
  rw [Int.add_mul (i + 1)] at hmul
  have hmem : (memSize c.unitSize c.maxUnitNum : Int) =
      sizeofQueueHead + (c.maxUnitNum + 2) * (c.unitSize + sizeofUnitHead) := by
    unfold memSize
    push_cast
    ring
  unfold Config.unitHead
  omega

/-- The list head after `k` pops: the slot in front of the first one, then the slots
of the pushes in turn. -/
def Config.slot (c : Config) : Nat → Int
  | 0 => listEnd
  | k + 1 => (k % (c.maxUnitNum + 1) : Nat)

theorem Config.slot_range (c : Config) (k : Nat) :
    listEnd ≤ c.slot k ∧ c.slot k ≤ c.maxUnitNum := by
  cases k with
  | zero =>
      change (-1 : Int) ≤ -1 ∧ (-1 : Int) ≤ c.maxUnitNum
      omega
  | succ k =>
      have hlt : k % (c.maxUnitNum + 1) < c.maxUnitNum + 1 := Nat.mod_lt k (by omega)
      change (-1 : Int) ≤ (k % (c.maxUnitNum + 1) : Nat) ∧
        ((k % (c.maxUnitNum + 1) : Nat) : Int) ≤ c.maxUnitNum
      omega

theorem Config.slot_succ_ne_listEnd (c : Config) (k : Nat) : c.slot (k + 1) ≠ listEnd := by
  change ((k % (c.maxUnitNum + 1) : Nat) : Int) ≠ -1
  omega

theorem Config.slot_ne (c : Config) {j k : Nat} (hjk : j < k) (hk : k ≤ j + c.maxUnitNum) :
    c.slot j ≠ c.slot k := by
  obtain ⟨k, rfl⟩ := Nat.exists_eq_add_one_of_ne_zero (Nat.ne_zero_of_lt hjk)
  cases j with
  | zero => exact (c.slot_succ_ne_listEnd k).symm
  | succ j =>
      intro heq
      have hmod : j % (c.maxUnitNum + 1) = k % (c.maxUnitNum + 1) := Int.ofNat_inj.mp heq
      have hdiff := Nat.sub_mod_eq_zero_of_mod_eq hmod.symm
      rw [Nat.mod_eq_of_lt (by omega)] at hdiff
      omega

/-! ## How far a call has come -/

/-- Counted in `w_len`. -/
def Push.reserved : Push c → Nat
  | .idle | .loadWLen .. | .casWLen .. => 0
  | _ => 1

/-- Behind the move of `w_tail`. -/
def Push.allocated : Push c → Nat
  | .idle | .loadWLen .. | .casWLen .. | .loadWTail .. | .casWTail .. => 0
  | _ => 1

def Push.flagged : Push c → Nat
  | .idle | .loadWLen .. | .casWLen .. | .loadWTail .. | .casWTail .. | .loadUseFlag ..
  | .storeNext .. | .storeUseFlag .. => 0
  | _ => 1

/-- Linked behind the last unit of the list. -/
def Push.linked : Push c → Nat
  | .casPTail .. | .addRLen .. => 1
  | _ => 0

/-- Behind the move of `p_tail`. -/
def Push.tailed : Push c → Nat
  | .addRLen .. => 1
  | _ => 0

/-- Counted out of `r_len`. -/
def Pop.taken : Pop c → Nat
  | .idle | .loadRLen | .casRLen .. => 0
  | _ => 1

/-- Behind the move of `p_head`. -/
def Pop.advanced : Pop c → Nat
  | .loadNextData .. | .copyUnit .. | .loadNextFlag .. | .clearUseFlag .. | .subWLen .. => 1
  | _ => 0

def Pop.cleared : Pop c → Nat
  | .subWLen .. => 1
  | _ => 0

/-! ## The invariant -/

/-- What the pusher knows of its locals, `pushed` pushes being complete.  Its slot is
the next one in turn; the tail of the list is the slot of the push before it. -/
def Push.Ok (q : LfQueue c) (pushed : Nat) : Push c → Prop
  | .idle | .loadWLen _ | .loadWTail _ => True
  | .casWLen _ wLen => wLen < c.maxUnitNum
  | .casWTail _ oldWTail => oldWTail = q.wTail
  | .loadUseFlag _ wTail | .storeNext _ wTail => wTail = c.slot (pushed + 1)
  | .storeUseFlag _ wTail | .copyUnit _ wTail =>
      wTail = c.slot (pushed + 1) ∧ q.next wTail = listEnd
  | .loadPTail unit wTail tryTimes =>
      wTail = c.slot (pushed + 1) ∧ q.next wTail = listEnd ∧ q.data wTail = unit ∧
        tryTimes = 0
  | .testNext .. | .loadNext .. => False
  | .casNext unit wTail _ oldPTail pTail =>
      wTail = c.slot (pushed + 1) ∧ q.next wTail = listEnd ∧ q.data wTail = unit ∧
        oldPTail = c.slot pushed ∧ pTail = c.slot pushed
  | .casPTail unit wTail oldPTail =>
      wTail = c.slot (pushed + 1) ∧ q.data wTail = unit ∧ oldPTail = c.slot pushed
  | .addRLen unit => q.data (c.slot (pushed + 1)) = unit

/-- What the popper knows of its locals, `popped` pops being complete. -/
def Pop.Ok (q : LfQueue c) (pushed : List c.UnitData) (popped : Nat) : Pop c → Prop
  | .idle | .loadRLen | .loadPHead => True
  | .casRLen rLen => 0 < rLen ∧ rLen ≤ q.rLen
  | .loadNext pHead | .loadNextData pHead => pHead = c.slot popped
  | .casPHead pHead next | .copyUnit pHead next =>
      pHead = c.slot popped ∧ next = c.slot (popped + 1)
  | .loadNextFlag pHead unit => pHead = c.slot popped ∧ pushed[popped]? = some unit
  | .clearUseFlag next unit => next = c.slot (popped + 1) ∧ pushed[popped]? = some unit
  | .subWLen unit => pushed[popped]? = some unit

structure Inv (s : State c) : Prop where
  wLen : s.queue.wLen + s.popped.length = s.pushed.length + s.producer.reserved
  wLen_le : s.queue.wLen ≤ c.maxUnitNum
  rLen : s.queue.rLen + s.popped.length + s.consumer.taken = s.pushed.length
  rLen_nonneg : 0 ≤ s.queue.rLen
  wTail : c.slot (s.pushed.length + s.producer.allocated + 1) =
    s.queue.wTail % (c.maxUnitNum + 1)
  wTail_range : 0 ≤ s.queue.wTail ∧ s.queue.wTail ≤ c.maxUnitNum + 1
  pHead : s.queue.pHead = c.slot (s.popped.length + s.consumer.advanced)
  pTail : s.queue.pTail = c.slot (s.pushed.length + s.producer.tailed)
  next : ∀ k, s.popped.length ≤ k → k < s.pushed.length + s.producer.linked →
    s.queue.next (c.slot k) = c.slot (k + 1)
  nextEnd : s.queue.next (c.slot (s.pushed.length + s.producer.linked)) = listEnd
  data : ∀ k unit, s.popped.length ≤ k → s.pushed[k]? = some unit →
    s.queue.data (c.slot (k + 1)) = unit
  useFlag : ∀ k, (∀ j, s.popped.length + s.consumer.cleared ≤ j →
      j < s.pushed.length + s.producer.flagged → c.slot (j + 1) ≠ c.slot (k + 1)) →
    s.queue.useFlag (c.slot (k + 1)) = false
  popped : s.popped <+: s.pushed
  producerOk : s.producer.Ok s.queue s.pushed.length
  consumerOk : s.consumer.Ok s.queue s.pushed s.popped.length

theorem inv_init : Inv ({ queue := nolockQueueInit c } : State c) where
  wLen := rfl
  wLen_le := Int.natCast_nonneg _
  rLen := rfl
  rLen_nonneg := Int.le_refl _
  wTail := by simp [Config.slot, nolockQueueInit, Push.allocated]
  wTail_range := ⟨Int.le_refl _, Int.natCast_nonneg (c.maxUnitNum + 1)⟩
  pHead := rfl
  pTail := rfl
  next := fun k _ hk => absurd hk (Nat.not_lt_zero k)
  nextEnd := by simp [nolockQueueInit, Config.slot, Push.linked]
  data := fun k unit _ hk => by simp at hk
  useFlag := fun _ _ => rfl
  popped := List.prefix_refl _
  producerOk := trivial
  consumerOk := trivial

/-! ## The steps of the pusher -/

section Producer

variable {q : LfQueue c} {pop : Pop c} {pushed popped : List c.UnitData} {unit : c.UnitData}

/-- A push that is counted in `w_len` keeps its slot at most `max` places behind the
slot that a running pop still reads. -/
theorem Inv.room {s : State c} (h : Inv s) (hreserved : s.producer.reserved = 1) :
    s.pushed.length + 1 ≤ s.popped.length + c.maxUnitNum := by
  have hlen := h.wLen
  have hle := h.wLen_le
  rw [hreserved] at hlen
  omega

/-- The slot of a running push is no slot between the list head and the tail. -/
theorem Inv.slot_ne {s : State c} (h : Inv s) (hreserved : s.producer.reserved = 1) {k : Nat}
    (hlow : s.popped.length ≤ k) (hhigh : k ≤ s.pushed.length) :
    c.slot k ≠ c.slot (s.pushed.length + 1) :=
  c.slot_ne (by omega) (by have := h.room hreserved; omega)

theorem Inv.useFlag_next {s : State c} (h : Inv s) (hreserved : s.producer.reserved = 1)
    (hflagged : s.producer.flagged = 0) :
    s.queue.useFlag (c.slot (s.pushed.length + 1)) = false := by
  refine h.useFlag _ fun j hlow hhigh => ?_
  exact h.slot_ne hreserved (by omega) (by omega)

theorem Inv.casWTail {oldWTail : Int}
    (h : Inv ⟨q, .casWTail unit oldWTail, pop, pushed, popped⟩) :
    Inv ⟨{ q with wTail := oldWTail % (c.maxUnitNum + 1) + 1 },
      .loadUseFlag unit (oldWTail % (c.maxUnitNum + 1)), pop, pushed, popped⟩ := by
  have hold : oldWTail = q.wTail := h.producerOk
  have hslot : c.slot (pushed.length + 1) = q.wTail % (c.maxUnitNum + 1) := h.wTail
  have hrange := c.slot_range (pushed.length + 1)
  have hnonneg : 0 ≤ q.wTail % ((c.maxUnitNum : Int) + 1) := Int.emod_nonneg _ (by omega)
  subst hold
  exact
    { h with
      wTail := by
        change ((pushed.length + 1) % (c.maxUnitNum + 1) : Nat) =
          (q.wTail % (c.maxUnitNum + 1) + 1) % (c.maxUnitNum + 1)
        rw [← hslot]
        change _ = ((pushed.length % (c.maxUnitNum + 1) : Nat) + 1 : Int) % _
        push_cast
        rw [Int.emod_add_emod]
      wTail_range := by
        simp only []
        omega
      producerOk := hslot.symm }

theorem Inv.storeNext {wTail : Int}
    (h : Inv ⟨q, .storeNext unit wTail, pop, pushed, popped⟩) :
    Inv ⟨{ q with next := Function.update q.next wTail listEnd }, .storeUseFlag unit wTail,
      pop, pushed, popped⟩ := by
  obtain rfl : wTail = c.slot (pushed.length + 1) := h.producerOk
  exact
    { h with
      next := fun k hlow hhigh => by
        have hk : k < pushed.length := hhigh
        exact (Function.update_of_ne (h.slot_ne rfl hlow hk.le) ..).trans (h.next k hlow hhigh)
      nextEnd := by
        have hpopped : popped.length ≤ pushed.length := h.popped.length_le
        exact (Function.update_of_ne (h.slot_ne rfl hpopped (Nat.le_refl _)) ..).trans h.nextEnd
      producerOk := ⟨rfl, Function.update_self ..⟩ }

theorem Inv.storeUseFlag {wTail : Int}
    (h : Inv ⟨q, .storeUseFlag unit wTail, pop, pushed, popped⟩) :
    Inv ⟨{ q with useFlag := Function.update q.useFlag wTail true }, .copyUnit unit wTail,
      pop, pushed, popped⟩ := by
  obtain ⟨rfl, hnext⟩ : wTail = c.slot (pushed.length + 1) ∧ q.next wTail = listEnd :=
    h.producerOk
  have hlen : popped.length + pop.taken ≤ pushed.length := by
    have hcount := h.rLen
    have hnonneg := h.rLen_nonneg
    simp only [] at hcount hnonneg
    omega
  have hcleared : pop.cleared ≤ pop.taken := by cases pop <;> simp [Pop.cleared, Pop.taken]
  exact
    { h with
      useFlag := fun k hk => by
        have hother : c.slot (k + 1) ≠ c.slot (pushed.length + 1) := fun heq =>
          hk pushed.length (by simp only []; omega) (Nat.lt_succ_self _) heq.symm
        refine (Function.update_of_ne hother ..).trans (h.useFlag k fun j hlow hhigh => ?_)
        exact hk j hlow (Nat.lt_succ_of_lt hhigh)
      producerOk := ⟨rfl, hnext⟩ }

theorem Inv.copyUnit {wTail : Int}
    (h : Inv ⟨q, .copyUnit unit wTail, pop, pushed, popped⟩) :
    Inv ⟨{ q with data := Function.update q.data wTail unit }, .loadPTail unit wTail 0,
      pop, pushed, popped⟩ := by
  obtain ⟨rfl, hnext⟩ : wTail = c.slot (pushed.length + 1) ∧ q.next wTail = listEnd :=
    h.producerOk
  exact
    { h with
      data := fun k other hlow hother => by
        have hk : k < pushed.length := (List.getElem?_eq_some_iff.mp hother).1
        exact (Function.update_of_ne (h.slot_ne rfl (Nat.le_succ_of_le hlow) hk) ..).trans
          (h.data k other hlow hother)
      producerOk := ⟨rfl, hnext, Function.update_self .., rfl⟩ }

/-- The swap of the last link never fails: only the pusher writes links. -/
theorem Inv.casNext_eq {wTail oldPTail pTail : Int} {tryTimes : Nat}
    (h : Inv ⟨q, .casNext unit wTail tryTimes oldPTail pTail, pop, pushed, popped⟩) :
    q.next pTail = listEnd := by
  obtain ⟨-, -, -, -, hpTail⟩ := h.producerOk
  rw [hpTail]
  exact h.nextEnd

theorem Inv.casNext {wTail oldPTail pTail : Int} {tryTimes : Nat}
    (h : Inv ⟨q, .casNext unit wTail tryTimes oldPTail pTail, pop, pushed, popped⟩) :
    Inv ⟨{ q with next := Function.update q.next pTail wTail },
      .casPTail unit wTail oldPTail, pop, pushed, popped⟩ := by
  have hok : Push.Ok q pushed.length (.casNext unit wTail tryTimes oldPTail pTail) := h.producerOk
  obtain ⟨rfl, hnext, hdata, rfl, rfl⟩ := hok
  have hpopped : popped.length ≤ pushed.length := h.popped.length_le
  exact
    { h with
      next := fun k hlow hhigh => by
        change k < pushed.length + 1 at hhigh
        rcases Nat.lt_succ_iff_lt_or_eq.mp hhigh with hk | rfl
        · have hroom : pushed.length + 1 ≤ popped.length + c.maxUnitNum := h.room rfl
          have hne : c.slot k ≠ c.slot pushed.length := c.slot_ne hk (by
            have : popped.length ≤ k := hlow
            omega)
          exact (Function.update_of_ne hne ..).trans (h.next k hlow hk)
        · exact Function.update_self ..
      nextEnd := by
        have hne := h.slot_ne rfl hpopped (Nat.le_refl _)
        exact (Function.update_of_ne hne.symm ..).trans hnext
      producerOk := ⟨rfl, hdata, rfl⟩ }

theorem Inv.casPTail {wTail oldPTail : Int}
    (h : Inv ⟨q, .casPTail unit wTail oldPTail, pop, pushed, popped⟩) :
    q.pTail = oldPTail ∧
      Inv ⟨{ q with pTail := wTail }, .addRLen unit, pop, pushed, popped⟩ := by
  have hok : Push.Ok q pushed.length (.casPTail unit wTail oldPTail) := h.producerOk
  obtain ⟨rfl, hdata, rfl⟩ := hok
  exact ⟨h.pTail, { h with pTail := rfl, producerOk := hdata }⟩

theorem Inv.addRLen (h : Inv ⟨q, .addRLen unit, pop, pushed, popped⟩) :
    Inv ⟨{ q with rLen := q.rLen + 1 }, .idle, pop, pushed ++ [unit], popped⟩ := by
  have hlength : (pushed ++ [unit]).length = pushed.length + 1 := by simp
  have hrLen := h.rLen
  have hnonneg := h.rLen_nonneg
  have hwLen := h.wLen
  have hgrow : ∀ {k : Nat} {other : c.UnitData}, pushed[k]? = some other →
      (pushed ++ [unit])[k]? = some other := by
    intro k other hk
    rw [List.getElem?_append_left (List.getElem?_eq_some_iff.mp hk).1]
    exact hk
  exact
    { wLen := by
        rw [hlength]
        exact h.wLen
      wLen_le := h.wLen_le
      rLen := by
        simp only [hlength] at hrLen ⊢
        omega
      rLen_nonneg := by
        simp only [] at hnonneg ⊢
        omega
      wTail := by
        rw [hlength]
        exact h.wTail
      wTail_range := h.wTail_range
      pHead := h.pHead
      pTail := by
        rw [hlength]
        exact h.pTail
      next := by
        rw [hlength]
        exact h.next
      nextEnd := by
        rw [hlength]
        exact h.nextEnd
      data := fun k other hlow hother => by
        rcases Nat.lt_or_ge k pushed.length with hk | hk
        · rw [List.getElem?_append_left hk] at hother
          exact h.data k other hlow hother
        · have hlast : k < pushed.length + 1 :=
            hlength ▸ (List.getElem?_eq_some_iff.mp hother).1
          obtain rfl : k = pushed.length := by omega
          rw [List.getElem?_concat_length, Option.some.injEq] at hother
          exact hother ▸ h.producerOk
      useFlag := by
        rw [hlength]
        exact h.useFlag
      popped := h.popped.trans (List.prefix_append _ _)
      producerOk := trivial
      consumerOk := by
        cases pop with
        | idle | loadRLen | loadPHead => trivial
        | casRLen rLen =>
            obtain ⟨hpos, hle⟩ := h.consumerOk
            exact ⟨hpos, Int.le_trans hle (by simp only []; omega)⟩
        | loadNext | loadNextData | casPHead | copyUnit => exact h.consumerOk
        | loadNextFlag | clearUseFlag => exact ⟨h.consumerOk.1, hgrow h.consumerOk.2⟩
        | subWLen => exact hgrow h.consumerOk }

/-- **One step of the pusher.** -/
theorem Inv.stepProducer {s : State c} (h : Inv s) : Inv s.stepProducer := by
  obtain ⟨q, push, pop, pushed, popped⟩ := s
  simp only [State.stepProducer]
  cases push with
  | idle => simpa [Push.step] using h
  | loadWLen unit =>
      simp only [Push.step]
      split
      · simpa using ({ h with producerOk := trivial } : Inv ⟨q, .idle, pop, pushed, popped⟩)
      · rename_i hlen
        simpa using ({ h with producerOk := not_le.mp hlen } :
          Inv ⟨q, .casWLen unit q.wLen, pop, pushed, popped⟩)
  | casWLen unit wLen =>
      have hlen : wLen < c.maxUnitNum := h.producerOk
      have hcount := h.wLen
      simp only [Push.step]
      split
      · rename_i heq
        subst heq
        simpa using ({ h with
          wLen := by
            simp only [Push.reserved] at hcount ⊢
            omega
          wLen_le := hlen
          producerOk := trivial } :
          Inv ⟨{ q with wLen := q.wLen + 1 }, .loadWTail unit, pop, pushed, popped⟩)
      · simpa using ({ h with producerOk := trivial } :
          Inv ⟨q, .loadWLen unit, pop, pushed, popped⟩)
  | loadWTail unit =>
      simpa [Push.step] using ({ h with producerOk := rfl } :
        Inv ⟨q, .casWTail unit q.wTail, pop, pushed, popped⟩)
  | casWTail unit oldWTail =>
      have hold : q.wTail = oldWTail := Eq.symm h.producerOk
      simpa [Push.step, hold] using h.casWTail
  | loadUseFlag unit wTail =>
      have hfree : q.useFlag wTail = false := by
        obtain rfl : wTail = c.slot (pushed.length + 1) := h.producerOk
        exact h.useFlag_next rfl rfl
      simpa [Push.step, hfree] using ({ h with producerOk := h.producerOk } :
        Inv ⟨q, .storeNext unit wTail, pop, pushed, popped⟩)
  | storeNext unit wTail => simpa [Push.step] using h.storeNext
  | storeUseFlag unit wTail => simpa [Push.step] using h.storeUseFlag
  | copyUnit unit wTail => simpa [Push.step] using h.copyUnit
  | loadPTail unit wTail tryTimes =>
      obtain ⟨hslot, hnext, hdata, rfl⟩ := h.producerOk
      simpa [Push.step] using
        ({ h with producerOk := ⟨hslot, hnext, hdata, h.pTail, h.pTail⟩ } :
          Inv ⟨q, .casNext unit wTail 1 q.pTail q.pTail, pop, pushed, popped⟩)
  | testNext | loadNext => exact h.producerOk.elim
  | casNext unit wTail tryTimes oldPTail pTail =>
      simpa [Push.step, h.casNext_eq] using h.casNext
  | casPTail unit wTail oldPTail => simpa [Push.step, h.casPTail.1] using h.casPTail.2
  | addRLen unit => simpa [Push.step] using h.addRLen

end Producer

end GbStream.Queue
