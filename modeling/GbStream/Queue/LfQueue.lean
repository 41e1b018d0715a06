import Mathlib.Logic.Function.Basic
import GbStream.Support.Transition

/-!
# The lock-free frame queue

`lf_queue.c`, one step per access to the shared memory: a load, a store, a
compare-and-swap, a fetch-and-add or the copy of a unit.  One party pushes and one party
pops; which of them steps next is free.
-/

namespace GbStream.Queue

open Support.Transition

def int32Max : Nat := 2147483647
def sizeofUnitHead : Nat := 8
def sizeofQueueHead : Nat := 28
def listEnd : Int := -1

/-- The refusals of `nolock_queue_init` before it asks for memory.  `unit_size` is
compared as a `size_t`, so that a negative size counts as a large one. -/
def checkArguments (unitSize maxUnitNum : Int) : Except Int Unit :=
  if unitSize = 0 ∨ maxUnitNum = 0 then .error (-2)
  else if unitSize % 18446744073709551616 > int32Max - sizeofUnitHead then .error (-3)
  else .ok ()

def memSize (unitSize maxUnitNum : Nat) : Nat :=
  sizeofQueueHead + (sizeofUnitHead + unitSize) * (maxUnitNum + 2)

/-- The arguments of a queue whose memory size fits an `int`. -/
structure Config where
  unitSize : Nat
  maxUnitNum : Nat
  unitSize_pos : 0 < unitSize
  maxUnitNum_pos : 0 < maxUnitNum
  memSize_le : memSize unitSize maxUnitNum ≤ int32Max

/-- `UNIT_HEAD`: the slots follow the queue head, the slot `-1` first. -/
def Config.unitHead (c : Config) (offset : Int) : Int :=
  sizeofQueueHead + (offset + 1) * (c.unitSize + sizeofUnitHead)

abbrev Config.UnitData (c : Config) := Vector UInt8 c.unitSize

/-- The queue memory.  `next`, `useFlag` and `data` are indexed by the slot. -/
structure LfQueue (c : Config) where
  pHead : Int
  pTail : Int
  wTail : Int := 0
  wLen : Int := 0
  rLen : Int := 0
  next : Int → Int
  useFlag : Int → Bool := fun _ => false
  data : Int → c.UnitData := fun _ => Vector.replicate c.unitSize 0

/-- The queue of `nolock_queue_init`; `calloc` clears the memory. -/
def nolockQueueInit (c : Config) : LfQueue c where
  pHead := listEnd
  pTail := listEnd
  next := Function.update (fun _ => 0) listEnd listEnd

def nolockQueueLen {c : Config} (q : LfQueue c) : Int := q.rLen

/-! ## The two calls, step by step -/

/-- Where a call of `nolock_queue_push` stands, with the locals it still needs.  Each
constructor is named after the access that comes next. -/
inductive Push (c : Config)
  | idle
  | loadWLen (unit : c.UnitData)
  | casWLen (unit : c.UnitData) (wLen : Int)
  | loadWTail (unit : c.UnitData)
  | casWTail (unit : c.UnitData) (oldWTail : Int)
  | loadUseFlag (unit : c.UnitData) (wTail : Int)
  | storeNext (unit : c.UnitData) (wTail : Int)
  | storeUseFlag (unit : c.UnitData) (wTail : Int)
  | copyUnit (unit : c.UnitData) (wTail : Int)
  | loadPTail (unit : c.UnitData) (wTail : Int) (tryTimes : Nat)
  | testNext (unit : c.UnitData) (wTail : Int) (tryTimes : Nat) (oldPTail pTail : Int)
  | loadNext (unit : c.UnitData) (wTail : Int) (tryTimes : Nat) (oldPTail pTail : Int)
  | casNext (unit : c.UnitData) (wTail : Int) (tryTimes : Nat) (oldPTail pTail : Int)
  | casPTail (unit : c.UnitData) (wTail : Int) (oldPTail : Int)
  | addRLen (unit : c.UnitData)
  deriving DecidableEq

/-- Where a call of `nolock_queue_pop` stands; `pHead` is the slot of its `u_head`. -/
inductive Pop (c : Config)
  | idle
  | loadRLen
  | casRLen (rLen : Int)
  | loadPHead
  | loadNext (pHead : Int)
  | casPHead (pHead next : Int)
  | loadNextData (pHead : Int)
  | copyUnit (pHead next : Int)
  | loadNextFlag (pHead : Int) (unit : c.UnitData)
  | clearUseFlag (next : Int) (unit : c.UnitData)
  | subWLen (unit : c.UnitData)
  deriving DecidableEq

variable {c : Config}

/-- One step of the pusher; the last component is the unit of a push that succeeds. -/
def Push.step (q : LfQueue c) : Push c → LfQueue c × Push c × Option c.UnitData
  | .idle => (q, .idle, none)
  | .loadWLen unit =>
      if q.wLen ≥ c.maxUnitNum then (q, .idle, none) else (q, .casWLen unit q.wLen, none)
  | .casWLen unit wLen =>
      if q.wLen = wLen then ({ q with wLen := wLen + 1 }, .loadWTail unit, none)
      else (q, .loadWLen unit, none)
  | .loadWTail unit => (q, .casWTail unit q.wTail, none)
  | .casWTail unit oldWTail =>
      let wTail := oldWTail % (c.maxUnitNum + 1)
      if q.wTail = oldWTail then
        ({ q with wTail := wTail + 1 }, .loadUseFlag unit wTail, none)
      else (q, .loadWTail unit, none)
  | .loadUseFlag unit wTail =>
      if q.useFlag wTail then (q, .loadWTail unit, none) else (q, .storeNext unit wTail, none)
  | .storeNext unit wTail =>
      ({ q with next := Function.update q.next wTail listEnd }, .storeUseFlag unit wTail, none)
  | .storeUseFlag unit wTail =>
      ({ q with useFlag := Function.update q.useFlag wTail true }, .copyUnit unit wTail, none)
  | .copyUnit unit wTail =>
      ({ q with data := Function.update q.data wTail unit }, .loadPTail unit wTail 0, none)
  | .loadPTail unit wTail tryTimes =>
      if tryTimes + 1 ≥ 3 then
        (q, .testNext unit wTail (tryTimes + 1) q.pTail q.pTail, none)
      else (q, .casNext unit wTail (tryTimes + 1) q.pTail q.pTail, none)
  | .testNext unit wTail tryTimes oldPTail pTail =>
      if q.next pTail ≠ listEnd then (q, .loadNext unit wTail tryTimes oldPTail pTail, none)
      else (q, .casNext unit wTail tryTimes oldPTail pTail, none)
  | .loadNext unit wTail tryTimes oldPTail pTail =>
      (q, .testNext unit wTail tryTimes oldPTail (q.next pTail), none)
  | .casNext unit wTail tryTimes oldPTail pTail =>
      if q.next pTail = listEnd then
        ({ q with next := Function.update q.next pTail wTail },
          .casPTail unit wTail oldPTail, none)
      else (q, .loadPTail unit wTail tryTimes, none)
  | .casPTail unit wTail oldPTail =>
      (if q.pTail = oldPTail then { q with pTail := wTail } else q, .addRLen unit, none)
  | .addRLen unit => ({ q with rLen := q.rLen + 1 }, .idle, some unit)

/-- One step of the popper; the last component is the unit of a pop that succeeds. -/
def Pop.step (q : LfQueue c) : Pop c → LfQueue c × Pop c × Option c.UnitData
  | .idle => (q, .idle, none)
  | .loadRLen => if q.rLen ≤ 0 then (q, .idle, none) else (q, .casRLen q.rLen, none)
  | .casRLen rLen =>
      if q.rLen = rLen then ({ q with rLen := rLen - 1 }, .loadPHead, none)
      else (q, .loadRLen, none)
  | .loadPHead => (q, .loadNext q.pHead, none)
  | .loadNext pHead => (q, .casPHead pHead (q.next pHead), none)
  | .casPHead pHead next =>
      if q.pHead = pHead then ({ q with pHead := next }, .loadNextData pHead, none)
      else (q, .loadPHead, none)
  | .loadNextData pHead => (q, .copyUnit pHead (q.next pHead), none)
  | .copyUnit pHead next => (q, .loadNextFlag pHead (q.data next), none)
  | .loadNextFlag pHead unit => (q, .clearUseFlag (q.next pHead) unit, none)
  | .clearUseFlag next unit =>
      ({ q with useFlag := Function.update q.useFlag next false }, .subWLen unit, none)
  | .subWLen unit => ({ q with wLen := q.wLen - 1 }, .idle, some unit)

/-! ## The two parties -/

/-- The shared memory, where the two parties stand, and the units of the pushes and
of the pops that have succeeded so far. -/
structure State (c : Config) where
  queue : LfQueue c
  producer : Push c := .idle
  consumer : Pop c := .idle
  pushed : List c.UnitData := []
  popped : List c.UnitData := []

/-- The call of a function by a party that is in none, or the next step of a party. -/
inductive Move (c : Config)
  | callPush (unit : c.UnitData)
  | callPop
  | producer
  | consumer

def State.stepProducer (s : State c) : State c :=
  let (queue, producer, unit) := s.producer.step s.queue
  { s with queue, producer, pushed := s.pushed ++ unit.toList }

def State.stepConsumer (s : State c) : State c :=
  let (queue, consumer, unit) := s.consumer.step s.queue
  { s with queue, consumer, popped := s.popped ++ unit.toList }

inductive Step : State c → Move c → State c → Prop
  | callPush {s : State c} (unit : c.UnitData) (h : s.producer = .idle) :
      Step s (.callPush unit) { s with producer := .loadWLen unit }
  | callPop {s : State c} (h : s.consumer = .idle) :
      Step s .callPop { s with consumer := .loadRLen }
  | producer {s : State c} : Step s .producer s.stepProducer
  | consumer {s : State c} : Step s .consumer s.stepConsumer

/-- The queue of one producer and one consumer. -/
def spsc (c : Config) : System (State c) (Move c) where
  init s := s = { queue := nolockQueueInit c }
  step := Step

end GbStream.Queue
