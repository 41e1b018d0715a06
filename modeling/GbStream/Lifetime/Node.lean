import GbStream.Stream.Node
import GbStream.Recv.NetLayer
import GbStream.Support.Transition

/-!
# The life of a stream node

A node is shared by the event loop, whose callbacks run one at a time, and by its send task,
which runs beside them.  One step is one access to what they share; what is done under the lock
of a bucket is one step.  How a key finds its bucket is a matter of the table; here a node is in
its bucket or not.
-/

namespace GbStream.Lifetime

open Support.HashTable Support.Transition Call Recv
open GbStream.Stream (Client Key newClient)

/-! ## Nodes -/

/-- The callbacks that a live bufferevent has: `connect_event_cb`, then
`recv_cmd_from_hbserver`, then `recv_stream_cb`. -/
inductive Phase
  | connecting
  | command
  | stream
  deriving DecidableEq, Repr

/-- What `send_rtp_to_client_task` does next. -/
inductive TaskPc
  /-- The test of `uGetStreamThreadStartFlag` at the top of the loop. -/
  | top
  /-- The test of `list_size`. -/
  | clients
  /-- `uRtpClientNodeSendDataThreadFlag = 2`, with the list found empty. -/
  | exit
  | length
  | pop
  /-- `pack_ps_rtp_and_add_node` -/
  | send
  /-- The test behind `ERR`. -/
  | leave
  | wait
  /-- What is done under the lock in the end. -/
  | clean
  deriving DecidableEq, Repr

/-- What the event loop does next in a callback: in `recv_stream_cb` with an end packet up to
`release`, then what is left for `recv_stream_err_cb` and the others once they have freed the
bufferevent. -/
inductive LoopPc
  | clients (stPackage : NetLayer)
  | sendFlag (stPackage : NetLayer)
  | start (stPackage : NetLayer)
  | setP (stPackage : NetLayer)
  | queue (stPackage : NetLayer)
  | started (stPackage : NetLayer)
  | drop (stPackage : NetLayer)
  | length
  | push
  | freeBev
  | ended
  | unlink
  | free
  | release
  | errEnded
  | destroy
  deriving DecidableEq, Repr

/-- `STREAM_NODE_OBJ`: `bev` is the live bufferevent whose callbacks get the node as their
argument, `loop` where the event loop is, if it is in one of them, `queueStreamData` the length
of the queue, `linked` whether the node is in its bucket.  `freed` counts its `free`, `failed`
says that its source connection has failed, `evicted` are the clients destroyed before that
without a delete flag, `late` those added after the send task has found no client. -/
structure StreamNode where
  key : Key
  listClientNodeHead : List Client := []
  uRtpClientNodeSendDataThreadFlag : Nat := 0
  uGetStreamThreadStartFlag : Nat := 0
  uRtspPlayFlag : Nat := 0
  queueStreamData : Nat := 0
  bev : Option Phase := none
  loop : Option LoopPc := none
  task : Option TaskPc := none
  linked : Bool := true
  freed : Nat := 0
  failed : Bool := false
  evicted : List Client := []
  late : List Client := []
  deriving Repr

namespace StreamNode

def evict (clients : List Client) (n : StreamNode) : StreamNode :=
  { n with
    evicted := n.evicted ++ if n.failed then [] else clients.filter fun c => c.iDeleteFlag ≠ 1 }

def destoryClientList (n : StreamNode) : StreamNode :=
  { n.evict n.listClientNodeHead with listClientNodeHead := [] }

/-- `clear_rtp_data_from_queue`, `nolock_queue_destroy` and `free`. -/
def release (n : StreamNode) : StreamNode :=
  { n with queueStreamData := 0, freed := n.freed + 1 }

def delNodeFromStreamHashTable (n : StreamNode) : StreamNode := { n with linked := false }

def destroy (n : StreamNode) : StreamNode :=
  n.delNodeFromStreamHashTable.destoryClientList.release

/-! ## The event loop -/

def deserted (n : StreamNode) : Bool :=
  n.uRtpClientNodeSendDataThreadFlag = 2 ∨ n.task = some .exit

/-- The client of a `PLAY`, at the address `id` if it is a new one. -/
def addClient (iUseRtcpFlag : Bool) (id : Nat) (m : SipEntry) (n : StreamNode) : StreamNode :=
  match seek Client.callId m.toSipNode.callId n.listClientNodeHead with
  | some _ => n
  | none =>
      let pClientNode := newClient iUseRtcpFlag id m
      { n with
        listClientNodeHead := n.listClientNodeHead ++ [pClientNode]
        late := if n.deserted then n.late ++ [pClientNode] else n.late }

/-- `connect` is whether a bufferevent can be made and begins to connect. -/
def playRtspVideoFromHbserver (connect : Bool) (n : StreamNode) : StreamNode :=
  if n.uRtspPlayFlag = 1 then n
  else if connect then { n with bev := some .connecting, uRtspPlayFlag := 1 }
  else n

def play (iUseRtcpFlag : Bool) (id : Nat) (m : SipEntry) (connect : Bool) (n : StreamNode) :
    StreamNode :=
  (n.addClient iUseRtcpFlag id m).playRtspVideoFromHbserver connect

def setDeleteFlag (id : Nat) (n : StreamNode) : StreamNode :=
  { n with
    listClientNodeHead :=
      n.listClientNodeHead.map fun c => if c.id = id then { c with iDeleteFlag := 1 } else c }

def stop (m : SipEntry) (n : StreamNode) : StreamNode :=
  match seek Client.callId m.toSipNode.callId n.listClientNodeHead with
  | none => n
  | some pClientNode => n.setDeleteFlag pClientNode.id

/-- A call of a callback of the bufferevent; the packets before an end packet change nothing
that is shared. -/
inductive Callback
  /-- Whether the event is `BEV_EVENT_CONNECTED`. -/
  | connectEventCb (connected : Bool)
  /-- Whether the answer contains `SUCCESS`, and whether `nolock_queue_init` returns 0. -/
  | recvCmdFromHbserver (success queueInit : Bool)
  | recvStreamCb (stPackage : NetLayer)
  | recvStreamErrCb
  deriving DecidableEq, Repr

/-- A callback is called; where it ends the connection, `bufferevent_free` is its first step. -/
def enter (n : StreamNode) : Callback → Option StreamNode
  | .connectEventCb connected =>
      if n.bev ≠ some .connecting then none
      else if connected then some { n with bev := some .command }
      else some { n with bev := none, failed := true, loop := some .destroy }
  | .recvCmdFromHbserver success queueInit =>
      if n.bev ≠ some .command then none
      else if success then
        if queueInit then some { n with bev := some .stream, queueStreamData := 0 }
        else some { n with bev := none, loop := some .destroy }
      else some { n with bev := none, failed := true, loop := some .destroy }
  | .recvStreamCb stPackage =>
      if n.bev ≠ some .stream ∨ stPackage.byBlockEndFlag = 0 then none
      else some { n with loop := some (.clients stPackage) }
  | .recvStreamErrCb =>
      if n.bev ≠ some .command ∧ n.bev ≠ some .stream then none
      else some { n with bev := none, failed := true, loop := some .errEnded }

def goTo (pc : LoopPc) (n : StreamNode) : StreamNode := { n with loop := some pc }

def leave (n : StreamNode) : StreamNode := { n with loop := none }

/-- A callback goes on; `success` is whether the `stpool_task_set_p` or the `nolock_queue_push`
of the step returns 0. -/
def loopStep (success : Bool) (n : StreamNode) : LoopPc → StreamNode
  | .clients stPackage =>
      if n.listClientNodeHead = [] then n.goTo .freeBev else n.goTo (.sendFlag stPackage)
  | .sendFlag stPackage =>
      if n.uRtpClientNodeSendDataThreadFlag = 2 then n.goTo .freeBev
      else n.goTo (.start stPackage)
  | .start stPackage =>
      if n.uRtpClientNodeSendDataThreadFlag = 0 ∧ stPackage.byFrameType = 1 then
        n.goTo (.setP stPackage)
      else n.goTo (.drop stPackage)
  | .setP stPackage =>
      if success then n.goTo (.queue stPackage)
      -- the node stays in its bucket, and its bufferevent lives on
      else n.destoryClientList.release.leave
  | .queue stPackage => { n.goTo (.started stPackage) with task := some .top }
  | .started stPackage =>
      { n.goTo (.drop stPackage) with uRtpClientNodeSendDataThreadFlag := 1 }
  | .drop stPackage =>
      if n.uRtpClientNodeSendDataThreadFlag = 0 ∨ stPackage.byDataType ≠ 13 then n.leave
      else n.goTo .length
  | .length => if 512 ≤ n.queueStreamData then n.goTo .freeBev else n.goTo .push
  | .push =>
      if success then { n.leave with queueStreamData := n.queueStreamData + 1 } else n.leave
  | .freeBev => { n.goTo .ended with bev := none }
  | .ended =>
      if n.uRtpClientNodeSendDataThreadFlag = 0 then n.goTo .unlink else n.goTo .release
  | .unlink => n.delNodeFromStreamHashTable.destoryClientList.goTo .free
  | .free => n.release.leave
  | .release => { n.leave with uGetStreamThreadStartFlag := 2 }
  | .errEnded =>
      if n.uRtpClientNodeSendDataThreadFlag = 0 then n.goTo .destroy else n.goTo .release
  | .destroy => n.destroy.leave

/-! ## The send task -/

def sendRtpToClientTask (n : StreamNode) : TaskPc → StreamNode
  | .top =>
      if n.uGetStreamThreadStartFlag = 2 then { n with task := some .leave }
      else { n with task := some .clients }
  | .clients =>
      if n.listClientNodeHead = [] then { n with task := some .exit }
      else { n with task := some .length }
  | .exit => { n with uRtpClientNodeSendDataThreadFlag := 2, task := some .leave }
  | .length =>
      if 15 < n.queueStreamData then { n with task := some .pop } else { n with task := some .top }
  | .pop => { n with queueStreamData := n.queueStreamData - 1, task := some .send }
  | .send => { n with task := some .top }
  | .leave =>
      if n.uRtpClientNodeSendDataThreadFlag = 2 then { n with task := some .wait }
      else { n with task := some .clean }
  | .wait => if n.uGetStreamThreadStartFlag = 2 then { n with task := some .clean } else n
  | .clean => { n.destroy with task := none }

def delOneClientNode (pClientNode : Client) (n : StreamNode) : StreamNode :=
  { n.evict [pClientNode] with listClientNodeHead := n.listClientNodeHead.erase pClientNode }

/-! ## Steps -/

inductive Act
  | play (iUseRtcpFlag : Bool) (m : SipEntry) (connect : Bool)
  | stop (m : SipEntry)
  /-- `udp_rtcp_recv_cb` with `EV_TIMEOUT`. -/
  | timeout (pClientNode : Client)
  | callback (c : Callback)
  | loop (success : Bool)
  | task
  | delClient (pClientNode : Client)
  deriving DecidableEq, Repr

def Act.begins : Act → Bool
  | .play .. | .stop _ | .timeout _ | .callback _ => true
  | .loop _ | .task | .delClient _ => false

/-- What is done with the node; `id` is the next free address. -/
def act (n : StreamNode) (id : Nat) : Act → Option StreamNode
  | .play iUseRtcpFlag m connect =>
      if n.linked ∧ n.key = m.toSipNode.key then some (n.play iUseRtcpFlag id m connect) else none
  | .stop m => if n.linked ∧ n.key = m.toSipNode.key then some (n.stop m) else none
  | .timeout pClientNode =>
      if pClientNode ∈ n.listClientNodeHead then some (n.setDeleteFlag pClientNode.id) else none
  | .callback c => n.enter c
  | .loop success => n.loop.map (n.loopStep success)
  | .task => n.task.map n.sendRtpToClientTask
  | .delClient pClientNode =>
      if n.task = some .send ∧ pClientNode ∈ n.listClientNodeHead ∧ pClientNode.iDeleteFlag = 1 then
        some (n.delOneClientNode pClientNode)
      else none

end StreamNode

/-! ## Runs -/

/-- The nodes that have been made and the next free address. -/
structure State where
  nodes : List StreamNode := []
  next : Nat := 0
  deriving Repr

def State.Idle (s : State) : Prop := ∀ n ∈ s.nodes, n.loop = none

instance (s : State) : Decidable s.Idle := inferInstanceAs (Decidable (∀ n ∈ s.nodes, _))

inductive Event
  /-- A `PLAY` that finds no node. -/
  | create (iUseRtcpFlag : Bool) (m : SipEntry) (connect : Bool)
  | act (i : Nat) (a : StreamNode.Act)
  deriving DecidableEq, Repr

def State.exec (s : State) : Event → Option State
  | .create iUseRtcpFlag m connect =>
      if s.Idle ∧ ∀ n ∈ s.nodes, ¬(n.linked ∧ n.key = m.toSipNode.key) then
        let pStreamNode : StreamNode := { key := m.toSipNode.key }
        some
          { nodes := s.nodes ++ [pStreamNode.play iUseRtcpFlag s.next m connect]
            next := s.next + 1 }
      else none
  | .act i a =>
      if a.begins ∧ ¬s.Idle then none
      else
        s.nodes[i]?.bind fun n =>
          (n.act s.next a).map fun n => { nodes := s.nodes.set i n, next := s.next + 1 }

def system : System State Event where
  init := fun s => s = {}
  step := fun s e s' => s.exec e = some s'

/-- A condition on what is done with a node, as a condition on events. -/
def State.allows (ok : StreamNode → StreamNode.Act → Bool) (s : State) : Event → Bool
  | .create .. => true
  | .act i a => s.nodes[i]?.all fun n => ok n a

section Runs

variable {s s' : State} {e : Event}

/-- What an event does with the node `i`. -/
structure State.Acts (s : State) (i : Nat) (a : StreamNode.Act) (n n' : StreamNode) (s' : State) :
    Prop where
  node : s.nodes[i]? = some n
  idle : a.begins = true → n.loop = none
  act : n.act s.next a = some n'
  nodes : s'.nodes = s.nodes.set i n'

/-- **What an event can do**: it makes a node, or does something with one node. -/
theorem exec_cases (hexec : s.exec e = some s') :
    (∃ iUseRtcpFlag m connect, e = .create iUseRtcpFlag m connect ∧
        s'.nodes = s.nodes ++
          [({ key := m.toSipNode.key } : StreamNode).play iUseRtcpFlag s.next m connect]) ∨
      ∃ i a n n', e = .act i a ∧ s.Acts i a n n' s' := by
  cases e with
  | create iUseRtcpFlag m connect =>
    obtain ⟨-, heq⟩ := Option.ite_none_right_eq_some.mp hexec
    obtain rfl := Option.some.inj heq
    exact .inl ⟨_, _, _, rfl, rfl⟩
  | act i a =>
    obtain ⟨hbegins, hexec⟩ := Option.ite_none_left_eq_some.mp hexec
    obtain ⟨n, hn, hexec⟩ := Option.bind_eq_some_iff.mp hexec
    obtain ⟨n', hact, rfl⟩ := Option.map_eq_some_iff.mp hexec
    refine .inr ⟨i, a, n, n', rfl, hn, fun ha => ?_, hact, rfl⟩
    have hidle : s.Idle := by_contra fun hbusy => hbegins ⟨ha, hbusy⟩
    exact hidle n (List.mem_of_getElem? hn)

/-- What holds of a new node and is kept by everything that is done with it holds of every node
in every state that a run reaches. -/
theorem forall_reachable {ok : StreamNode → StreamNode.Act → Bool} {P : StreamNode → Prop}
    (hcreate : ∀ iUseRtcpFlag id m connect,
      P (({ key := m.toSipNode.key } : StreamNode).play iUseRtcpFlag id m connect))
    (hact : ∀ n id a n', P n → ok n a = true → (a.begins = true → n.loop = none) →
      n.act id a = some n' → P n')
    (hs : system.ReachableWith (fun s e => s.allows ok e = true) s) : ∀ n ∈ s.nodes, P n := by
  induction hs with
  | init hinit =>
    obtain rfl := hinit
    exact fun n hn => absurd hn List.not_mem_nil
  | step _ hok hexec ih =>
    rcases exec_cases hexec with ⟨iUseRtcpFlag, m, connect, rfl, hnodes⟩ | ⟨i, a, n, n', rfl, h⟩
    · intro x hx
      rw [hnodes] at hx
      rcases List.mem_append.mp hx with hx | hx
      · exact ih x hx
      · rw [List.mem_singleton.mp hx]
        exact hcreate _ _ _ _
    · have hok : ok n a = true := by simpa [State.allows, h.node] using hok
      intro x hx
      rw [h.nodes] at hx
      rcases List.mem_or_eq_of_mem_set hx with hx | rfl
      · exact ih x hx
      · exact hact n _ a x (ih n (List.mem_of_getElem? h.node)) hok h.idle h.act

end Runs

end GbStream.Lifetime
