import GbStream.Queue.Fifo

/-!
# Frames that the length test admits

`recv_stream_cb` reads the length of the queue, tears the connection down when the queue is
full, and otherwise makes a record and pushes it without a look at the result.  The length is
`r_len`, which a pop lowers first; the push tests `w_len`, which a pop lowers last.
-/

namespace GbStream.Queue

open Support.Transition Support.Transition.System

inductive Caller (c : Config)
  | idle
  | testLen (unit : c.UnitData)
  | allocate (unit : c.UnitData)
  | pushing (unit : c.UnitData)
  | closed

/-- The callback and the queue; `lost` are the units of the pushes that have been refused. -/
structure Handover (c : Config) where
  state : State c
  caller : Caller c := .idle
  lost : List c.UnitData := []

inductive HandoverMove (c : Config)
  | frame (unit : c.UnitData)
  | callback
  | callPop
  | consumer

variable {c : Config}

/-- One step of `nolock_queue_push` for `unit`; its result is not looked at. -/
def Handover.push (s : Handover c) (unit : c.UnitData) : Handover c :=
  let (_, producer, result) := s.state.producer.step s.state.queue
  match producer, result with
  | .idle, some _ => { s with state := s.state.stepProducer, caller := .idle }
  | .idle, none =>
      { state := s.state.stepProducer, caller := .idle, lost := s.lost ++ [unit] }
  | _, _ => { s with state := s.state.stepProducer }

/-- One step of the callback.  The bound of its test is the number of units of the queue. -/
def Handover.stepCallback (s : Handover c) : Handover c :=
  match s.caller with
  | .idle | .closed => s
  | .testLen unit =>
      if nolockQueueLen s.state.queue ≥ c.maxUnitNum then { s with caller := .closed }
      else { s with caller := .allocate unit }
  | .allocate unit =>
      { s with state := { s.state with producer := .loadWLen unit }, caller := .pushing unit }
  | .pushing unit => s.push unit

inductive HandoverStep : Handover c → HandoverMove c → Handover c → Prop
  | frame {s : Handover c} (unit : c.UnitData) (h : s.caller = .idle) :
      HandoverStep s (.frame unit) { s with caller := .testLen unit }
  | callback {s : Handover c} : HandoverStep s .callback s.stepCallback
  | callPop {s : Handover c} (h : s.state.consumer = .idle) :
      HandoverStep s .callPop { s with state := { s.state with consumer := .loadRLen } }
  | consumer {s : Handover c} : HandoverStep s .consumer { s with state := s.state.stepConsumer }

/-- The push is about to test whether there is room while the consumer is inside a pop of the
full queue: one that has been counted out of the length, which is one below the number of units,
and has not given its unit back. -/
def Handover.InsideFullPop (s : Handover c) : Prop :=
  (∃ unit, s.caller = .pushing unit) ∧ (∃ unit, s.state.producer = .loadWLen unit) ∧
    s.state.consumer.taken = 1 ∧ nolockQueueLen s.state.queue + 1 = c.maxUnitNum

/-- The condition on a step. -/
def Handover.Meets (s : Handover c) : HandoverMove c → Prop
  | .callback => ¬ s.InsideFullPop
  | .frame _ | .callPop | .consumer => True

/-! ## The steps of a call -/

section Steps

variable {q : LfQueue c}

theorem Push.step_idle {push : Push c} (h : (push.step q).2.1 = .idle) :
    push = .idle ∨ (∃ unit, push = .loadWLen unit ∧ c.maxUnitNum ≤ q.wLen) ∨
      ∃ unit, push = .addRLen unit := by
  cases push with
  | idle => exact .inl rfl
  | addRLen unit => exact .inr (.inr ⟨unit, rfl⟩)
  | loadWLen unit =>
      refine .inr (.inl ⟨unit, rfl, ?_⟩)
      by_contra hroom
      simp [Push.step, hroom] at h
  | casWLen unit wLen => simp only [Push.step] at h; split at h <;> cases h
  | loadWTail unit => cases h
  | casWTail unit oldWTail => simp only [Push.step] at h; split at h <;> cases h
  | loadUseFlag unit wTail => simp only [Push.step] at h; split at h <;> cases h
  | storeNext unit wTail => cases h
  | storeUseFlag unit wTail => cases h
  | copyUnit unit wTail => cases h
  | loadPTail unit wTail tryTimes => simp only [Push.step] at h; split at h <;> cases h
  | testNext unit wTail tryTimes oldPTail pTail =>
      simp only [Push.step] at h
      split at h <;> cases h
  | loadNext unit wTail tryTimes oldPTail pTail => cases h
  | casNext unit wTail tryTimes oldPTail pTail => simp only [Push.step] at h; split at h <;> cases h
  | casPTail unit wTail oldPTail => cases h

theorem Push.step_rLen (push : Push c) :
    (push.step q).1.rLen = q.rLen ∨ ∃ unit, push = .addRLen unit := by
  cases push with
  | addRLen unit => exact .inr ⟨unit, rfl⟩
  | idle => exact .inl rfl
  | loadWLen unit => left; simp only [Push.step]; split <;> rfl
  | casWLen unit wLen => left; simp only [Push.step]; split <;> rfl
  | loadWTail unit => exact .inl rfl
  | casWTail unit oldWTail => left; simp only [Push.step]; split <;> rfl
  | loadUseFlag unit wTail => left; simp only [Push.step]; split <;> rfl
  | storeNext unit wTail => exact .inl rfl
  | storeUseFlag unit wTail => exact .inl rfl
  | copyUnit unit wTail => exact .inl rfl
  | loadPTail unit wTail tryTimes => left; simp only [Push.step]; split <;> rfl
  | testNext unit wTail tryTimes oldPTail pTail => left; simp only [Push.step]; split <;> rfl
  | loadNext unit wTail tryTimes oldPTail pTail => exact .inl rfl
  | casNext unit wTail tryTimes oldPTail pTail => left; simp only [Push.step]; split <;> rfl
  | casPTail unit wTail oldPTail => left; simp only [Push.step]; split <;> rfl

theorem Push.step_reserved {push : Push c} (h : (push.step q).2.1.reserved = 0) :
    (push.step q).2.1 = .idle ∨ push.reserved = 0 := by
  cases push with
  | idle => exact .inl rfl
  | addRLen unit => exact .inl rfl
  | loadWLen unit => exact .inr rfl
  | casWLen unit wLen => exact .inr rfl
  | loadWTail unit => cases h
  | casWTail unit oldWTail => simp only [Push.step] at h; split at h <;> cases h
  | loadUseFlag unit wTail => simp only [Push.step] at h; split at h <;> cases h
  | storeNext unit wTail => cases h
  | storeUseFlag unit wTail => cases h
  | copyUnit unit wTail => cases h
  | loadPTail unit wTail tryTimes => simp only [Push.step] at h; split at h <;> cases h
  | testNext unit wTail tryTimes oldPTail pTail =>
      simp only [Push.step] at h
      split at h <;> cases h
  | loadNext unit wTail tryTimes oldPTail pTail => cases h
  | casNext unit wTail tryTimes oldPTail pTail => simp only [Push.step] at h; split at h <;> cases h
  | casPTail unit wTail oldPTail => cases h

theorem Pop.step_rLen (pop : Pop c) : (pop.step q).1.rLen ≤ q.rLen := by
  cases pop with
  | casRLen rLen =>
      simp only [Pop.step]
      split
      · rename_i heq
        show rLen - 1 ≤ q.rLen
        omega
      · exact Int.le_refl _
  | loadRLen => simp only [Pop.step]; split <;> exact Int.le_refl _
  | casPHead pHead next => simp only [Pop.step]; split <;> exact Int.le_refl _
  | idle => exact Int.le_refl _
  | loadPHead => exact Int.le_refl _
  | loadNext pHead => exact Int.le_refl _
  | loadNextData pHead => exact Int.le_refl _
  | copyUnit pHead next => exact Int.le_refl _
  | loadNextFlag pHead unit => exact Int.le_refl _
  | clearUseFlag next unit => exact Int.le_refl _
  | subWLen unit => exact Int.le_refl _

end Steps

/-! ## The invariant -/

/-- A frame that has been admitted, and is not counted in `w_len` yet. -/
def Handover.Admitted (s : Handover c) : Prop :=
  (∃ unit, s.caller = .allocate unit) ∨
    (∃ unit, s.caller = .pushing unit) ∧ s.state.producer.reserved = 0

structure HandoverInv (s : Handover c) : Prop where
  inv : Inv s.state
  idle : (∀ unit, s.caller ≠ .pushing unit) → s.state.producer = .idle
  busy : ∀ unit, s.caller = .pushing unit → s.state.producer ≠ .idle
  admitted : s.Admitted → s.state.queue.rLen < c.maxUnitNum

section Handover

variable {s s' : Handover c} {unit : c.UnitData}

theorem HandoverInv.of_idle (inv : Inv s.state) (hidle : s.state.producer = .idle)
    (hcaller : s.caller = .idle ∨ s.caller = .closed ∨ ∃ unit, s.caller = .testLen unit) :
    HandoverInv s := by
  refine ⟨inv, fun _ => hidle, fun unit hpushing => ?_, ?_⟩
  · rcases hcaller with h | h | ⟨other, h⟩ <;> rw [hpushing] at h <;> cases h
  · rintro (⟨unit, hcase⟩ | ⟨⟨unit, hcase⟩, -⟩)
    · rcases hcaller with h | h | ⟨other, h⟩ <;> rw [hcase] at h <;> cases h
    · rcases hcaller with h | h | ⟨other, h⟩ <;> rw [hcase] at h <;> cases h

/-- A step of the push goes on, ends it, or is the test that refuses it. -/
inductive PushStep (s : Handover c) (unit : c.UnitData) : Handover c → Prop
  | goesOn (hbusy : s.state.stepProducer.producer ≠ .idle)
      (hlen : s.state.stepProducer.queue.rLen = s.state.queue.rLen)
      (hreserved : s.state.stepProducer.producer.reserved = 0 → s.state.producer.reserved = 0) :
      PushStep s unit { s with state := s.state.stepProducer }
  | done (other : c.UnitData) (hproducer : s.state.producer = .addRLen other)
      (hidle : s.state.stepProducer.producer = .idle) :
      PushStep s unit { s with state := s.state.stepProducer, caller := .idle }
  | refused (other : c.UnitData) (hproducer : s.state.producer = .loadWLen other)
      (hfull : c.maxUnitNum ≤ s.state.queue.wLen)
      (hidle : s.state.stepProducer.producer = .idle) :
      PushStep s unit
        { state := s.state.stepProducer, caller := .idle, lost := s.lost ++ [unit] }

theorem HandoverInv.push_cases (h : HandoverInv s) (hcaller : s.caller = .pushing unit) :
    PushStep s unit (s.push unit) := by
  have hbusy := h.busy unit hcaller
  by_cases hidle : s.state.stepProducer.producer = .idle
  · rcases Push.step_idle hidle with hnone | ⟨other, hproducer, hfull⟩ | ⟨other, hproducer⟩
    · exact absurd hnone hbusy
    · have hpush : s.push unit =
          { state := s.state.stepProducer, caller := .idle, lost := s.lost ++ [unit] } := by
        simp only [Handover.push, hproducer, Push.step, if_pos hfull]
      rw [hpush]
      exact .refused other hproducer hfull hidle
    · have hpush : s.push unit = { s with state := s.state.stepProducer, caller := .idle } := by
        simp only [Handover.push, hproducer, Push.step]
      rw [hpush]
      exact .done other hproducer hidle
  · have hpush : s.push unit = { s with state := s.state.stepProducer } := by
      unfold Handover.push
      dsimp only
      split
      · rename_i hnext _
        exact absurd hnext hidle
      · rename_i hnext _
        exact absurd hnext hidle
      · rfl
    rw [hpush]
    refine .goesOn hidle ?_ fun hreserved => (Push.step_reserved hreserved).resolve_left hidle
    refine (Push.step_rLen s.state.producer).resolve_right ?_
    rintro ⟨other, hproducer⟩
    refine hidle ?_
    simp only [State.stepProducer, hproducer, Push.step]

theorem HandoverInv.push (h : HandoverInv s) (hcaller : s.caller = .pushing unit) :
    HandoverInv (s.push unit) := by
  have hinv := h.inv.stepProducer
  have hcases := h.push_cases hcaller
  generalize s.push unit = s' at hcases ⊢
  cases hcases with
  | goesOn hbusy hlen hreserved =>
      refine ⟨hinv, fun hnot => absurd hcaller (hnot unit), fun _ _ => hbusy, ?_⟩
      rintro (⟨other, hallocate⟩ | ⟨hpushing, hzero⟩)
      · rw [hcaller] at hallocate
        cases hallocate
      · show s.state.stepProducer.queue.rLen < _
        rw [hlen]
        exact h.admitted (.inr ⟨⟨unit, hcaller⟩, hreserved hzero⟩)
  | done other hproducer hidle => exact .of_idle hinv hidle (.inl rfl)
  | refused other hproducer hfull hidle => exact .of_idle hinv hidle (.inl rfl)

theorem HandoverInv.stepCallback (h : HandoverInv s) : HandoverInv s.stepCallback := by
  unfold Handover.stepCallback
  cases hcaller : s.caller with
  | idle => exact h
  | closed => exact h
  | testLen unit =>
      have hidle : s.state.producer = .idle := h.idle (by simp [hcaller])
      dsimp only
      split
      · exact .of_idle h.inv hidle (.inr (.inl rfl))
      · rename_i hlen
        exact ⟨h.inv, fun _ => hidle, (fun _ hpushing => nomatch hpushing),
          fun _ => Int.not_le.mp hlen⟩
  | allocate unit =>
      have hidle : s.state.producer = .idle := h.idle (by simp [hcaller])
      have hlt := h.admitted (.inl ⟨unit, hcaller⟩)
      exact ⟨h.inv.step (.callPush unit hidle), fun hnot => absurd rfl (hnot unit),
        (fun _ _ hnone => nomatch hnone), fun _ => hlt⟩
  | pushing unit => exact h.push hcaller

theorem HandoverInv.consumer (h : HandoverInv s) :
    HandoverInv { s with state := s.state.stepConsumer } where
  inv := h.inv.stepConsumer
  idle := h.idle
  busy := h.busy
  admitted := fun hadmitted => (Pop.step_rLen s.state.consumer).trans_lt (h.admitted hadmitted)

theorem HandoverInv.step (h : HandoverInv s) {move : HandoverMove c}
    (hstep : HandoverStep s move s') : HandoverInv s' := by
  cases hstep with
  | frame unit hcaller =>
      exact .of_idle h.inv (h.idle (by simp [hcaller])) (.inr (.inr ⟨unit, rfl⟩))
  | callback => exact h.stepCallback
  | callPop hidle => exact ⟨h.inv.step (.callPop hidle), h.idle, h.busy, h.admitted⟩
  | consumer => exact h.consumer

end Handover

/-! ## A frame that is lost -/

/-- The own steps that a push counted in `w_len` still has to make. -/
def Push.left : Push c → Nat
  | .loadWTail .. => 10
  | .casWTail .. => 9
  | .loadUseFlag .. => 8
  | .storeNext .. => 7
  | .storeUseFlag .. => 6
  | .copyUnit .. => 5
  | .loadPTail .. => 4
  | .casNext .. => 3
  | .casPTail .. => 2
  | .addRLen .. => 1
  | .idle | .loadWLen .. | .casWLen .. | .testNext .. | .loadNext .. => 0

section Refusal

variable {s : Handover c} {unit : c.UnitData}

end Refusal

end GbStream.Queue
