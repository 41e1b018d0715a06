import Mathlib.Logic.Function.Basic
import GbStream.Rtp.FirstPacket
import GbStream.Support.Transition

/-!
# The loop over the clients while the list changes

`pack_ps_rtp_and_add_node` walks over the list of clients without the lock of the node.
Between any two of its statements the event loop may set the delete flag of a client or append
a client.  The loop counts with the length that the list had at the start of the frame.
-/

namespace GbStream.Rtp

open Support.Bytes Support.Transition

/-! ## The loop -/

/-- The statement that is next.  Inside a round of the loop over the clients there is a client,
given by its address. -/
inductive Place where
  | nextPacket
  | nextClient
  | testDelete (pClientNode : Nat)
  | unlink (pClientNode : Nat)
  | release (pClientNode : Nat)
  | offer (pClientNode : Nat)
  | returned
  deriving DecidableEq, Repr

/-- The variables of the function and the clients of the node, with what has happened so far:
the packets, the clients at the start of the frame, those appended since, those linked when the
pass of the packet began, those visited in it, those seen with the flag set, and those freed. -/
structure LoopState where
  rtpInfo : RtpInfo
  buf : List UInt8
  listClientNodeHead : List Nat
  client : Nat → ClientNode
  clientListSize : Int
  tmpListSize : Int := 0
  i : Int := 0
  place : Place := .nextPacket
  packets : List RtpPacket := []
  atStart : List Nat
  appended : List Nat := []
  passClients : List Nat := []
  visited : List Nat := []
  seenFlagged : List Nat := []
  freed : List Nat := []

def listGetAt (clients : List Nat) (pos : Int) : Option Nat :=
  if 0 ≤ pos then clients[pos.toNat]? else none

/-- The function behind the call of `list_size`. -/
def LoopState.start (rtpInfoVideo : RtpInfo) (frame : PsFrame) (clients : List Nat)
    (client : Nat → ClientNode) : LoopState :=
  { rtpInfo :=
      setRtpPack1 rtpInfoVideo frame.rtpDataBufPreSize frame.dataSize frame.timeStamp.toUInt32 true
    buf := frame.dataPtr
    listClientNodeHead := clients
    client
    clientListSize := clients.length
    place := if frame.dataSize > 3 then .nextPacket else .returned
    atStart := clients }

/-- One statement of the function, in frame `number`; `none` where it reads outside the buffer
or uses the null pointer or a client that has been freed. -/
def sendStep (number : Nat) (frameType : Int) (s : LoopState) : Option LoopState :=
  match s.place with
  | .nextPacket => do
      let (rtpInfo, buf, size) ← getRtpPsPack s.rtpInfo s.buf
      match size with
      | none => some { s with rtpInfo, buf, place := .returned }
      | some rtpSize =>
          let packet : RtpPacket :=
            { frame := number, frameType, index := s.packets.length
              bytes := slice buf rtpInfo.pRTP rtpSize }
          some
            { s with
              rtpInfo, buf
              i := 0
              tmpListSize := s.clientListSize
              place := .nextClient
              packets := s.packets ++ [packet]
              passClients := s.listClientNodeHead.filter (· ∈ s.atStart)
              visited := [] }
  | .nextClient =>
      if s.tmpListSize = 0 then some { s with place := .nextPacket }
      else
        match listGetAt s.listClientNodeHead s.i with
        | none => none
        | some pClientNode => some { s with place := .testDelete pClientNode }
  | .testDelete pClientNode =>
      if pClientNode ∈ s.freed then none
      else if (s.client pClientNode).iDeleteFlag = 1 then
        some { s with place := .unlink pClientNode, seenFlagged := s.seenFlagged ++ [pClientNode] }
      else some { s with place := .offer pClientNode }
  | .unlink pClientNode =>
      some
        { s with
          listClientNodeHead := s.listClientNodeHead.erase pClientNode
          place := .release pClientNode }
  | .release pClientNode =>
      if pClientNode ∈ s.freed then none
      else
        some
          { s with
            clientListSize := s.clientListSize - 1
            tmpListSize := s.tmpListSize - 1
            i := s.i - 1 + 1
            place := .nextClient
            visited := s.visited ++ [pClientNode]
            freed := s.freed ++ [pClientNode] }
  | .offer pClientNode =>
      if pClientNode ∈ s.freed then none
      else
        match s.packets.getLast? with
        | none => none
        | some packet =>
            some
              { s with
                client :=
                  Function.update s.client pClientNode
                    ((s.client pClientNode).offer packet frameType)
                tmpListSize := s.tmpListSize - 1
                i := s.i + 1
                place := .nextClient
                visited := s.visited ++ [pClientNode] }
  | .returned => none

/-- What happens next: a statement of the function, or the event loop sets a flag or appends a
client. -/
inductive LoopEvent where
  | send
  | setDeleteFlag (pClientNode : Nat)
  | append (pClientNode : Nat)
  deriving DecidableEq, Repr

def LoopState.setDeleteFlag (s : LoopState) (pClientNode : Nat) : LoopState :=
  { s with
    client :=
      Function.update s.client pClientNode { s.client pClientNode with iDeleteFlag := 1 } }

def LoopState.append (s : LoopState) (pClientNode : Nat) : Option LoopState :=
  if pClientNode ∈ s.atStart ∨ pClientNode ∈ s.appended then none
  else
    some
      { s with
        listClientNodeHead := s.listClientNodeHead ++ [pClientNode]
        client := Function.update s.client pClientNode {}
        appended := s.appended ++ [pClientNode] }

def loopStep (number : Nat) (frameType : Int) (s : LoopState) : LoopEvent → Option LoopState
  | .send => sendStep number frameType s
  | .setDeleteFlag pClientNode => some (s.setDeleteFlag pClientNode)
  | .append pClientNode => s.append pClientNode

/-- The runs from the state `start`. -/
def clientLoop (number : Nat) (frameType : Int) (start : LoopState) :
    System LoopState LoopEvent where
  init s := s = start
  step s event s' := loopStep number frameType s event = some s'

/-! ## Places -/

def Place.InPass : Place → Prop
  | .nextPacket | .returned => False
  | _ => True

def Place.current : Place → Option Nat
  | .testDelete pClientNode | .unlink pClientNode | .offer pClientNode => some pClientNode
  | _ => none

def Place.held : Place → List Nat
  | .release pClientNode => [pClientNode]
  | _ => []

def Place.condemned : Place → List Nat
  | .unlink pClientNode | .release pClientNode => [pClientNode]
  | _ => []

theorem Place.mem_held {place : Place} {p : Nat} (hp : p ∈ place.held) : p ∈ place.condemned := by
  cases place with
  | release q => exact hp
  | nextPacket => cases hp
  | nextClient => cases hp
  | testDelete q => cases hp
  | unlink q => cases hp
  | offer q => cases hp
  | returned => cases hp

theorem Place.held_of_not_inPass {place : Place} (h : ¬ place.InPass) : place.held = [] := by
  cases place with
  | nextPacket => rfl
  | returned => rfl
  | nextClient => exact absurd trivial h
  | testDelete q => exact absurd trivial h
  | unlink q => exact absurd trivial h
  | release q => exact absurd trivial h
  | offer q => exact absurd trivial h

theorem Place.mem_condemned {place : Place} {p : Nat} (hp : p ∈ place.condemned) :
    p ∈ place.held ∨ place.current = some p := by
  cases place with
  | unlink q =>
      obtain rfl := List.mem_singleton.mp hp
      exact .inr rfl
  | release q => exact .inl hp
  | nextPacket => cases hp
  | nextClient => cases hp
  | testDelete q => cases hp
  | offer q => cases hp
  | returned => cases hp

/-! ## What a statement does -/

section Steps

variable {s s' : LoopState} {number : Nat} {frameType : Int}

inductive SendStep (number : Nat) (frameType : Int) (s : LoopState) : LoopState → Prop
  | frameOver (rtpInfo : RtpInfo) (buf : List UInt8) (hplace : s.place = .nextPacket)
      (hnone : getRtpPsPack s.rtpInfo s.buf = some (rtpInfo, buf, none)) :
      SendStep number frameType s { s with rtpInfo, buf, place := .returned }
  | packet (rtpInfo : RtpInfo) (buf : List UInt8) (rtpSize : Nat) (hplace : s.place = .nextPacket)
      (hsize : getRtpPsPack s.rtpInfo s.buf = some (rtpInfo, buf, some rtpSize)) :
      SendStep number frameType s
        { s with
          rtpInfo, buf
          i := 0
          tmpListSize := s.clientListSize
          place := .nextClient
          packets := s.packets ++
            [{ frame := number, frameType, index := s.packets.length
               bytes := slice buf rtpInfo.pRTP rtpSize }]
          passClients := s.listClientNodeHead.filter (· ∈ s.atStart)
          visited := [] }
  | passOver (hplace : s.place = .nextClient) (hzero : s.tmpListSize = 0) :
      SendStep number frameType s { s with place := .nextPacket }
  | fetch (p : Nat) (hplace : s.place = .nextClient) (hne : s.tmpListSize ≠ 0)
      (hget : listGetAt s.listClientNodeHead s.i = some p) :
      SendStep number frameType s { s with place := .testDelete p }
  | flagged (p : Nat) (hplace : s.place = .testDelete p) (hlive : p ∉ s.freed)
      (hflag : (s.client p).iDeleteFlag = 1) :
      SendStep number frameType s { s with place := .unlink p, seenFlagged := s.seenFlagged ++ [p] }
  | unflagged (p : Nat) (hplace : s.place = .testDelete p) (hlive : p ∉ s.freed)
      (hflag : (s.client p).iDeleteFlag ≠ 1) :
      SendStep number frameType s { s with place := .offer p }
  | unlink (p : Nat) (hplace : s.place = .unlink p) :
      SendStep number frameType s
        { s with listClientNodeHead := s.listClientNodeHead.erase p, place := .release p }
  | release (p : Nat) (hplace : s.place = .release p) (hlive : p ∉ s.freed) :
      SendStep number frameType s
        { s with
          clientListSize := s.clientListSize - 1
          tmpListSize := s.tmpListSize - 1
          i := s.i - 1 + 1
          place := .nextClient
          visited := s.visited ++ [p]
          freed := s.freed ++ [p] }
  | offer (p : Nat) (packet : RtpPacket) (hplace : s.place = .offer p) (hlive : p ∉ s.freed)
      (hlast : s.packets.getLast? = some packet) :
      SendStep number frameType s
        { s with
          client := Function.update s.client p ((s.client p).offer packet frameType)
          tmpListSize := s.tmpListSize - 1
          i := s.i + 1
          place := .nextClient
          visited := s.visited ++ [p] }

theorem sendStep_cases (hstep : sendStep number frameType s = some s') :
    SendStep number frameType s s' := by
  cases hplace : s.place with
  | nextPacket =>
      simp only [sendStep, hplace, Option.bind_eq_bind, Option.bind_eq_some_iff] at hstep
      obtain ⟨⟨rtpInfo, buf, size⟩, hsize, hstep⟩ := hstep
      cases size with
      | none =>
          obtain rfl := Option.some.inj hstep
          exact .frameOver rtpInfo buf hplace hsize
      | some rtpSize =>
          obtain rfl := Option.some.inj hstep
          exact .packet rtpInfo buf rtpSize hplace hsize
  | nextClient =>
      simp only [sendStep, hplace] at hstep
      by_cases hzero : s.tmpListSize = 0
      · rw [if_pos hzero] at hstep
        obtain rfl := Option.some.inj hstep
        exact .passOver hplace hzero
      · rw [if_neg hzero] at hstep
        cases hget : listGetAt s.listClientNodeHead s.i with
        | none =>
            rw [hget] at hstep
            cases hstep
        | some p =>
            rw [hget] at hstep
            obtain rfl := Option.some.inj hstep
            exact .fetch p hplace hzero hget
  | testDelete p =>
      simp only [sendStep, hplace] at hstep
      by_cases hfreed : p ∈ s.freed
      · rw [if_pos hfreed] at hstep
        cases hstep
      · rw [if_neg hfreed] at hstep
        by_cases hflag : (s.client p).iDeleteFlag = 1
        · rw [if_pos hflag] at hstep
          obtain rfl := Option.some.inj hstep
          exact .flagged p hplace hfreed hflag
        · rw [if_neg hflag] at hstep
          obtain rfl := Option.some.inj hstep
          exact .unflagged p hplace hfreed hflag
  | unlink p =>
      simp only [sendStep, hplace] at hstep
      obtain rfl := Option.some.inj hstep
      exact .unlink p hplace
  | release p =>
      simp only [sendStep, hplace] at hstep
      by_cases hfreed : p ∈ s.freed
      · rw [if_pos hfreed] at hstep
        cases hstep
      · rw [if_neg hfreed] at hstep
        obtain rfl := Option.some.inj hstep
        exact .release p hplace hfreed
  | offer p =>
      simp only [sendStep, hplace] at hstep
      by_cases hfreed : p ∈ s.freed
      · rw [if_pos hfreed] at hstep
        cases hstep
      · rw [if_neg hfreed] at hstep
        cases hlast : s.packets.getLast? with
        | none =>
            rw [hlast] at hstep
            cases hstep
        | some packet =>
            rw [hlast] at hstep
            obtain rfl := Option.some.inj hstep
            exact .offer p packet hplace hfreed hlast
  | returned =>
      simp only [sendStep, hplace] at hstep
      cases hstep

theorem SendStep.client_eq (h : SendStep number frameType s s') {p : Nat}
    (hplace : s.place ≠ .offer p) : s'.client p = s.client p := by
  cases h with
  | offer q packet hoffer hlive hlast =>
      refine Function.update_of_ne ?_ _ _
      rintro rfl
      exact hplace hoffer
  | _ => rfl

theorem SendStep.iDeleteFlag_eq (h : SendStep number frameType s s') (p : Nat) :
    (s'.client p).iDeleteFlag = (s.client p).iDeleteFlag := by
  cases h with
  | offer q packet hoffer hlive hlast =>
      show (Function.update s.client q _ p).iDeleteFlag = _
      by_cases hpq : p = q
      · rw [hpq, Function.update_self, ClientNode.iDeleteFlag_offer]
      · rw [Function.update_of_ne hpq]
  | _ => rfl

theorem SendStep.seen_kept (h : SendStep number frameType s s') {p : Nat} (hp : p ∈ s.seenFlagged) :
    p ∈ s'.seenFlagged := by
  cases h with
  | flagged q hplace hlive hflag => exact List.mem_append_left _ hp
  | _ => exact hp

theorem setDeleteFlag_sent (p q : Nat) :
    ((s.setDeleteFlag q).client p).sent = (s.client p).sent := by
  show (Function.update s.client q _ p).sent = _
  by_cases hpq : p = q
  · subst hpq
    rw [Function.update_self]
  · rw [Function.update_of_ne hpq]

theorem append_cases {q : Nat} (hstep : s.append q = some s') :
    (q ∉ s.atStart ∧ q ∉ s.appended) ∧
      s' =
        { s with
          listClientNodeHead := s.listClientNodeHead ++ [q]
          client := Function.update s.client q {}
          appended := s.appended ++ [q] } := by
  unfold LoopState.append at hstep
  split at hstep
  · cases hstep
  · rename_i hnew
    obtain rfl := Option.some.inj hstep
    exact ⟨not_or.mp hnew, rfl⟩

end Steps

end GbStream.Rtp
