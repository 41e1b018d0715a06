import Mathlib.Data.List.Chain
import GbStream.Queue.Invariant

/-!
# The queue is a bounded FIFO
-/

namespace GbStream.Queue

open Support.Transition

variable {c : Config} {q : LfQueue c} {push : Push c} {pushed popped : List c.UnitData}

/-! ## The steps of the popper -/

theorem Inv.popped_lt {s : State c} (h : Inv s) (htaken : s.consumer.taken = 1) :
    s.popped.length < s.pushed.length := by
  have hcount := h.rLen
  have hnonneg := h.rLen_nonneg
  rw [htaken] at hcount
  omega

theorem Inv.casRLen {rLen : Int} (h : Inv ⟨q, push, .casRLen rLen, pushed, popped⟩)
    (heq : q.rLen = rLen) :
    Inv ⟨{ q with rLen := rLen - 1 }, push, .loadPHead, pushed, popped⟩ := by
  obtain ⟨hpos, -⟩ : 0 < rLen ∧ rLen ≤ q.rLen := h.consumerOk
  have hcount : q.rLen + popped.length + 0 = pushed.length := h.rLen
  exact
    { h with
      rLen := by
        change rLen - 1 + popped.length + 1 = pushed.length
        omega
      rLen_nonneg := by
        change 0 ≤ rLen - 1
        omega
      consumerOk := trivial }

/-- The link behind the list head leads to the unit that is popped next. -/
theorem Inv.next_popped {s : State c} (h : Inv s) (htaken : s.consumer.taken = 1) :
    s.queue.next (c.slot s.popped.length) = c.slot (s.popped.length + 1) :=
  h.next _ (Nat.le_refl _) (Nat.lt_of_lt_of_le (h.popped_lt htaken) (Nat.le_add_right ..))

theorem Inv.casPHead {pHead next : Int}
    (h : Inv ⟨q, push, .casPHead pHead next, pushed, popped⟩) :
    q.pHead = pHead ∧
      Inv ⟨{ q with pHead := next }, push, .loadNextData pHead, pushed, popped⟩ := by
  have hok : Pop.Ok q pushed popped.length (.casPHead pHead next) := h.consumerOk
  obtain ⟨rfl, rfl⟩ := hok
  exact ⟨h.pHead, { h with pHead := rfl, consumerOk := rfl }⟩

theorem Inv.copyOut {pHead next : Int}
    (h : Inv ⟨q, push, .copyUnit pHead next, pushed, popped⟩) :
    Inv ⟨q, push, .loadNextFlag pHead (q.data next), pushed, popped⟩ := by
  have hok : Pop.Ok q pushed popped.length (.copyUnit pHead next) := h.consumerOk
  obtain ⟨rfl, rfl⟩ := hok
  have hlt : popped.length < pushed.length := h.popped_lt rfl
  have hunit : pushed[popped.length]? = some pushed[popped.length] :=
    List.getElem?_eq_getElem hlt
  have hdata : q.data (c.slot (popped.length + 1)) = pushed[popped.length] :=
    h.data _ _ (Nat.le_refl _) hunit
  exact { h with consumerOk := ⟨rfl, hdata ▸ hunit⟩ }

theorem Inv.clearUseFlag {next : Int} {unit : c.UnitData}
    (h : Inv ⟨q, push, .clearUseFlag next unit, pushed, popped⟩) :
    Inv ⟨{ q with useFlag := Function.update q.useFlag next false }, push, .subWLen unit,
      pushed, popped⟩ := by
  have hok : Pop.Ok q pushed popped.length (.clearUseFlag next unit) := h.consumerOk
  obtain ⟨rfl, hunit⟩ := hok
  exact
    { h with
      useFlag := fun k hk => by
        by_cases hslot : c.slot (k + 1) = c.slot (popped.length + 1)
        · rw [hslot]
          exact Function.update_self ..
        · refine (Function.update_of_ne hslot ..).trans (h.useFlag k fun j hlow hhigh => ?_)
          rcases Nat.eq_or_lt_of_le hlow with rfl | hlow
          · exact fun heq => hslot heq.symm
          · exact hk j hlow hhigh
      consumerOk := hunit }

theorem prefix_concat {α : Type} {xs ys : List α} {y : α} (h : xs <+: ys)
    (hy : ys[xs.length]? = some y) : xs ++ [y] <+: ys := by
  obtain ⟨rest, rfl⟩ := h
  rw [List.getElem?_append_right (Nat.le_refl _), Nat.sub_self] at hy
  obtain ⟨rest, rfl⟩ : ∃ rest', rest = y :: rest' := by
    cases rest with
    | nil => simp at hy
    | cons y' rest => exact ⟨rest, by simpa using hy⟩
  exact ⟨rest, by simp⟩

theorem Inv.subWLen {unit : c.UnitData}
    (h : Inv ⟨q, push, .subWLen unit, pushed, popped⟩) :
    Inv ⟨{ q with wLen := q.wLen - 1 }, push, .idle, pushed, popped ++ [unit]⟩ := by
  have hlength : (popped ++ [unit]).length = popped.length + 1 := by simp
  have hwLen : q.wLen + popped.length = pushed.length + push.reserved := h.wLen
  have hwLen_le : q.wLen ≤ c.maxUnitNum := h.wLen_le
  have hrLen : q.rLen + popped.length + 1 = pushed.length := h.rLen
  exact
    { h with
      wLen := by
        change q.wLen - 1 + (popped ++ [unit]).length = pushed.length + push.reserved
        omega
      wLen_le := by
        change q.wLen - 1 ≤ c.maxUnitNum
        omega
      rLen := by
        change q.rLen + (popped ++ [unit]).length + 0 = pushed.length
        omega
      pHead := by
        rw [hlength]
        exact h.pHead
      next := fun k hlow => by
        rw [hlength] at hlow
        exact h.next k (Nat.le_of_succ_le hlow)
      data := fun k other hlow => by
        rw [hlength] at hlow
        exact h.data k other (Nat.le_of_succ_le hlow)
      useFlag := by
        rw [hlength]
        exact h.useFlag
      popped := prefix_concat h.popped h.consumerOk
      consumerOk := trivial }

/-- **One step of the popper.** -/
theorem Inv.stepConsumer {s : State c} (h : Inv s) : Inv s.stepConsumer := by
  obtain ⟨q, push, pop, pushed, popped⟩ := s
  simp only [State.stepConsumer]
  cases pop with
  | idle => simpa [Pop.step] using h
  | loadRLen =>
      simp only [Pop.step]
      split
      · simpa using ({ h with consumerOk := trivial } : Inv ⟨q, push, .idle, pushed, popped⟩)
      · rename_i hlen
        simpa using ({ h with consumerOk := ⟨not_le.mp hlen, Int.le_refl _⟩ } :
          Inv ⟨q, push, .casRLen q.rLen, pushed, popped⟩)
  | casRLen rLen =>
      simp only [Pop.step]
      split
      · rename_i heq
        simpa using h.casRLen heq
      · simpa using ({ h with consumerOk := trivial } :
          Inv ⟨q, push, .loadRLen, pushed, popped⟩)
  | loadPHead =>
      simpa [Pop.step] using ({ h with consumerOk := h.pHead } :
        Inv ⟨q, push, .loadNext q.pHead, pushed, popped⟩)
  | loadNext pHead =>
      obtain rfl : pHead = c.slot popped.length := h.consumerOk
      simpa [Pop.step] using ({ h with consumerOk := ⟨rfl, h.next_popped rfl⟩ } :
        Inv ⟨q, push, .casPHead _ (q.next (c.slot popped.length)), pushed, popped⟩)
  | casPHead pHead next => simpa [Pop.step, h.casPHead.1] using h.casPHead.2
  | loadNextData pHead =>
      obtain rfl : pHead = c.slot popped.length := h.consumerOk
      simpa [Pop.step] using ({ h with consumerOk := ⟨rfl, h.next_popped rfl⟩ } :
        Inv ⟨q, push, .copyUnit _ (q.next (c.slot popped.length)), pushed, popped⟩)
  | copyUnit pHead next => simpa [Pop.step] using h.copyOut
  | loadNextFlag pHead unit =>
      have hok : Pop.Ok q pushed popped.length (.loadNextFlag pHead unit) := h.consumerOk
      obtain ⟨rfl, hunit⟩ := hok
      simpa [Pop.step] using ({ h with consumerOk := ⟨h.next_popped rfl, hunit⟩ } :
        Inv ⟨q, push, .clearUseFlag (q.next (c.slot popped.length)) unit, pushed, popped⟩)
  | clearUseFlag next unit => simpa [Pop.step] using h.clearUseFlag
  | subWLen unit => simpa [Pop.step] using h.subWLen

/-! ## Every run -/

theorem Inv.step {s s' : State c} {move : Move c} (h : Inv s) (hstep : Step s move s') :
    Inv s' := by
  cases hstep with
  | callPush unit hidle =>
      obtain ⟨q, push, pop, pushed, popped⟩ := s
      obtain rfl : push = .idle := hidle
      exact { h with producerOk := trivial }
  | callPop hidle =>
      obtain ⟨q, push, pop, pushed, popped⟩ := s
      obtain rfl : pop = .idle := hidle
      exact { h with consumerOk := trivial }
  | producer => exact h.stepProducer
  | consumer => exact h.stepConsumer

theorem inv_of_reachable {s : State c} (h : (spsc c).Reachable s) : Inv s :=
  h.invariant
    (fun s hinit => by
      obtain rfl : s = { queue := nolockQueueInit c } := hinit
      exact inv_init)
    fun _ _ _ hinv _ hstep => hinv.step hstep

/-! ## The queue as its two users see it -/

/-- The slot a push has taken and not yet linked into the list. -/
def Push.slot? : Push c → Option Int
  | .loadUseFlag _ wTail | .storeNext _ wTail | .storeUseFlag _ wTail | .copyUnit _ wTail
  | .loadPTail _ wTail _ | .testNext _ wTail _ _ _ | .loadNext _ wTail _ _ _
  | .casNext _ wTail _ _ _ => some wTail
  | _ => none

/-- The slots whose link or data a running pop is still going to use. -/
def Pop.needs : Pop c → List Int
  | .loadNext pHead | .loadNextData pHead | .loadNextFlag pHead _ => [pHead]
  | .casPHead pHead next | .copyUnit pHead next => [pHead, next]
  | .clearUseFlag next _ => [next]
  | _ => []

/-- `slots` hold the units that are pushed and not popped, each linked to the next.
The first of them is the list head if the pop of its unit is under way behind the move
of `p_head`, and is linked behind the list head otherwise. -/
structure State.Undelivered (s : State c) (slots : List Int) : Prop where
  data : slots.map s.queue.data = s.pushed.drop s.popped.length
  links : (if s.consumer.advanced = 0 then s.queue.pHead :: slots else slots).IsChain
    fun slot next => s.queue.next slot = next
  head : s.consumer.advanced ≠ 0 → slots.head? = some s.queue.pHead

theorem Inv.isChain_slots {s : State c} (h : Inv s) (count : Nat) :
    ∀ {k : Nat}, s.popped.length ≤ k → k + count ≤ s.pushed.length + 1 →
      ((List.range' k count).map c.slot).IsChain fun slot next => s.queue.next slot = next := by
  induction count with
  | zero => exact fun _ _ => .nil
  | succ count ih =>
      intro k hlow hhigh
      rw [List.range'_succ, List.map_cons]
      cases count with
      | zero => exact .singleton _
      | succ count =>
          have htail := ih (k := k + 1) (by omega) (by omega)
          rw [List.range'_succ, List.map_cons] at htail ⊢
          exact .cons_cons (h.next k hlow (by omega)) htail

theorem Inv.undelivered {s : State c} (h : Inv s) :
    s.Undelivered
      ((List.range' (s.popped.length + 1) (s.pushed.length - s.popped.length)).map c.slot) := by
  have hlen := h.popped.length_le
  have hpHead := h.pHead
  refine ⟨?_, ?_, fun hadvanced => ?_⟩
  · refine List.ext_getElem? fun i => ?_
    rw [List.map_map, List.getElem?_map, List.getElem?_drop]
    rcases Nat.lt_or_ge i (s.pushed.length - s.popped.length) with hi | hi
    · have hunit : s.pushed[s.popped.length + i]? = some (s.pushed[s.popped.length + i]) :=
        List.getElem?_eq_getElem (by omega)
      have hdata := h.data _ _ (Nat.le_add_right _ i) hunit
      rw [List.getElem?_range' hi, hunit, Option.map_some, Function.comp_apply, Nat.one_mul,
        Nat.add_right_comm, hdata]
    · rw [List.getElem?_eq_none (by simpa using hi), List.getElem?_eq_none (by omega)]
      rfl
  · split
    · rename_i hadvanced
      rw [hpHead, hadvanced, Nat.add_zero, ← List.map_cons, ← List.range'_succ]
      exact h.isChain_slots _ (Nat.le_refl _) (by omega)
    · exact h.isChain_slots _ (by omega) (by omega)
  · have htaken : s.consumer.taken = 1 ∧ s.consumer.advanced = 1 := by
      revert hadvanced
      cases s.consumer <;> simp [Pop.taken, Pop.advanced]
    have hlt := h.popped_lt htaken.1
    obtain ⟨count, hcount⟩ : ∃ count, s.pushed.length - s.popped.length = count + 1 :=
      ⟨_, (Nat.succ_pred_eq_of_pos (by omega)).symm⟩
    rw [hcount, List.range'_succ, List.map_cons, List.head?_cons, hpHead, htaken.2]

theorem Push.reserved_of_slot? {slot : Int} (h : push.slot? = some slot) :
    push.reserved = 1 := by
  cases push <;> simp_all [Push.slot?, Push.reserved]

theorem Inv.slot?_eq {s : State c} (h : Inv s) {slot : Int} (hslot : s.producer.slot? = some slot) :
    slot = c.slot (s.pushed.length + 1) := by
  have hok := h.producerOk
  generalize s.producer = push at hok hslot
  cases push with
  | loadUseFlag | storeNext => exact Option.some.inj hslot ▸ hok
  | storeUseFlag | copyUnit | loadPTail | casNext => exact Option.some.inj hslot ▸ hok.1
  | testNext | loadNext => exact hok.elim
  | _ => cases hslot

theorem Inv.needs_eq {s : State c} (h : Inv s) {slot : Int} (hslot : slot ∈ s.consumer.needs) :
    slot = c.slot s.popped.length ∨
      slot = c.slot (s.popped.length + 1) ∧ s.popped.length < s.pushed.length := by
  have hok := h.consumerOk
  have hlt := h.popped_lt
  generalize s.consumer = pop at hok hlt hslot
  cases pop with
  | loadNext | loadNextData =>
      exact .inl ((List.mem_singleton.mp hslot).trans hok)
  | loadNextFlag => exact .inl ((List.mem_singleton.mp hslot).trans hok.1)
  | casPHead | copyUnit =>
      rcases List.mem_pair.mp hslot with rfl | rfl
      · exact .inl hok.1
      · exact .inr ⟨hok.2, hlt rfl⟩
  | clearUseFlag => exact .inr ⟨(List.mem_singleton.mp hslot).trans hok.1, hlt rfl⟩
  | _ => cases hslot

/-- **The queue is a bounded FIFO.**  In every interleaving of the steps of a pusher and
a popper: the popped units are a prefix of the pushed ones; at most `max_unit_num` units
are in between; the slot a push has taken is neither the list head nor used by a running
pop nor the slot of an undelivered unit; and the first slot that the search tries is
free. -/
theorem spsc_fifo (c : Config) {s : State c} (h : (spsc c).Reachable s) :
    s.popped <+: s.pushed ∧
      s.pushed.length ≤ s.popped.length + c.maxUnitNum ∧
      (∀ slot, s.producer.slot? = some slot →
        slot ≠ s.queue.pHead ∧ slot ∉ s.consumer.needs ∧
          ∃ slots, s.Undelivered slots ∧ slot ∉ slots) ∧
      ∀ unit wTail, s.producer = .loadUseFlag unit wTail →
        s.stepProducer.producer = .storeNext unit wTail := by
  have hinv := inv_of_reachable h
  have hpopped := hinv.popped.length_le
  refine ⟨hinv.popped, ?_, fun slot hslot => ?_, fun unit wTail hproducer => ?_⟩
  · have hlen := hinv.wLen
    have hle := hinv.wLen_le
    omega
  · have hreserved := Push.reserved_of_slot? hslot
    have hfree : ∀ k, s.popped.length ≤ k → k ≤ s.pushed.length →
        slot ≠ c.slot k := fun k hlow hhigh =>
      hinv.slot?_eq hslot ▸ (hinv.slot_ne hreserved hlow hhigh).symm
    refine ⟨?_, fun hneeds => ?_, _, hinv.undelivered, fun hmem => ?_⟩
    · rw [hinv.pHead]
      refine hfree _ (Nat.le_add_right ..) ?_
      have hlt := hinv.popped_lt
      revert hlt
      cases s.consumer <;> simp [Pop.taken, Pop.advanced] <;> omega
    · rcases hinv.needs_eq hneeds with heq | ⟨heq, hlt⟩
      · exact hfree _ (Nat.le_refl _) hpopped heq
      · exact hfree _ (Nat.le_succ _) hlt heq
    · obtain ⟨k, hk, heq⟩ := List.mem_map.mp hmem
      rw [List.mem_range'_1] at hk
      exact hfree k (by omega) (by omega) heq.symm
  · have hslot : wTail = c.slot (s.pushed.length + 1) :=
      hinv.slot?_eq (by rw [hproducer]; rfl)
    have hunused := hinv.useFlag_next (by rw [hproducer]; rfl) (by rw [hproducer]; rfl)
    rw [← hslot] at hunused
    simp [State.stepProducer, hproducer, Push.step, hunused]

theorem reachable_called {s : State c} (h : (spsc c).Reachable s) (unit : c.UnitData)
    (hproducer : s.producer = .idle) (hconsumer : s.consumer = .idle) :
    (spsc c).Reachable { s with producer := .loadWLen unit, consumer := .loadRLen } :=
  .step (a := .callPop) (.step (a := .callPush unit) h trivial (.callPush unit hproducer)) trivial
    (.callPop (s := { s with producer := .loadWLen unit }) hconsumer)

/-- Steps of the two parties in turn, `true` for the pusher. -/
def State.run (s : State c) (turns : List Bool) : State c :=
  turns.foldl (fun s producer => if producer then s.stepProducer else s.stepConsumer) s

theorem reachable_run {s : State c} (h : (spsc c).Reachable s) (turns : List Bool) :
    (spsc c).Reachable (s.run turns) := by
  induction turns generalizing s with
  | nil => exact h
  | cons producer turns ih =>
      cases producer with
      | true => exact ih (.step h trivial .producer)
      | false => exact ih (.step h trivial .consumer)

/-- A queue of two bytes.  Behind a push of 7, a push of 8 and a pop run in turn: both are under
way, and then both have returned. -/
theorem spsc_fifo_turns :
    let c : Config := ⟨1, 2, by decide, by decide, by decide⟩
    let turns : List Bool := (List.replicate 6 [true, false]).flatten
    let first : State c :=
      State.run { queue := nolockQueueInit c, producer := .loadWLen #v[7], consumer := .loadRLen }
        (false :: List.replicate 12 true)
    let s := State.run { first with producer := .loadWLen #v[8], consumer := .loadRLen } turns
    s.producer.slot? = some 1 ∧ s.consumer.needs = [-1, 0] ∧
      (1 ≠ s.queue.pHead ∧ 1 ∉ s.consumer.needs ∧ ∃ slots, s.Undelivered slots ∧ 1 ∉ slots) ∧
      (s.run (turns ++ [true])).pushed = [#v[7], #v[8]] ∧
      (s.run (turns ++ [true])).popped = [#v[7]] ∧
      (s.run (turns ++ [true])).popped <+: (s.run (turns ++ [true])).pushed := by
  intro c turns first s
  have hcalledFirst :=
    reachable_called (s := { queue := nolockQueueInit c }) (.init rfl) #v[7] rfl rfl
  have hfirst : (spsc c).Reachable first := reachable_run hcalledFirst _
  have hcalled := reachable_called hfirst #v[8] (by decide +kernel) (by decide +kernel)
  have hs : (spsc c).Reachable s := reachable_run hcalled turns
  have hslot : s.producer.slot? = some 1 := by decide +kernel
  obtain ⟨-, -, hfree, -⟩ := spsc_fifo c hs
  obtain ⟨horder, -⟩ := spsc_fifo c (reachable_run hs (turns ++ [true]))
  exact ⟨hslot, by decide +kernel, hfree 1 hslot, by decide +kernel, by decide +kernel, horder⟩

end GbStream.Queue
