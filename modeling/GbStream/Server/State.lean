import GbStream.Call.SipTable
import GbStream.Stream.Node
import GbStream.Support.Transition

/-!
# The server

The SIP side, the stream side and the pair of bufferevents between them.  What one side writes
waits in the input of the other until its read callback runs; a callback that is due runs once,
however much has been written.  The send task of a node and the sockets of the calls are part
of the state as far as calls are concerned.
-/

namespace GbStream.Server

open Support.Bytes Support.CString Support.HashTable Support.Transition Call GbStream.Stream
open Rtp hiding StreamNode

/-! ## State -/

/-- What the configuration fixes: the two tables and whether RTCP is used. -/
structure Config where
  sipHashing : SipHashing
  hashing : Hashing
  iUseRtcpFlag : Bool

/-- What `start_sip_moudle` sets up. -/
def config (iUseRtcpFlag : Bool) : Config where
  sipHashing := ⟨bkdrHash, 1000⟩
  hashing := ⟨bkdrHash, 1000⟩
  iUseRtcpFlag := iUseRtcpFlag

/-- `SIP_STREAM_MSG_ARGS_OBJ` of a `STOP`, with the memory behind it. -/
structure Message where
  cCallId : CharArray 32
  beyond : List UInt8
  deriving DecidableEq, Repr

def Message.callId (m : Message) : List UInt8 := m.cCallId.string m.beyond

/-- `toStream` is the input of `sip_stream_msg_pair[1]`; that of `sip_stream_msg_pair[0]` is
never read, and `sipArg` is its callback argument.  `sockets` are the open sockets of the calls,
each with the address of the node it was opened for.  The last fields record what has happened:
the nodes that `INVITE`s have made, in the order of their addresses, and the last line of the
answers; the records written and read; the calls of the clients that have timed out; and whether
a socket has been closed that was not open or not the call's own. -/
structure State where
  sip : SipTable := {}
  toStream : List SipEntry := []
  streamDue : Bool := false
  sipArg : Option Message := none
  sipDue : Bool := false
  stream : Stream.State := {}
  sockets : Int32 → Option Nat := fun _ => none
  made : List SipEntry := []
  answered : List (Nat × List UInt8) := []
  written : List SipEntry := []
  processed : List SipEntry := []
  timedOut : List Nat := []
  closedTwice : Bool := false

/-! ## Sockets -/

def clientSockets (c : Client) : List Int32 :=
  [c.iUdpVideoFd, c.iUdpRtcpSockFd].filter fun fd => 0 < fd

def nodeSockets (n : SipNode) : List Int32 :=
  [n.iUdpSendStreamSockFd, n.iUdpRtcpSockFd].filter fun fd => 0 < fd

def State.opened (call : Nat) (fds : List Int32) (s : State) : State :=
  { s with sockets := fun fd => if fd ∈ fds then some call else s.sockets fd }

/-- `close`, where a call destroys its client. -/
def State.close (call : Nat) (s : State) (fd : Int32) : State :=
  { s with
    sockets := Function.update s.sockets fd none
    closedTwice := s.closedTwice || s.sockets fd != some call }

/-- `destory_client_list` and `del_one_client_node`, once the client is out of the list. -/
def State.destroyClient (s : State) (c : Client) : State :=
  (clientSockets c).foldl (State.close c.call) s

/-! ## Callbacks -/

variable (cfg : Config)

/-- `bufferevent_write` of a copy of a node. -/
def State.writeToStream (m : SipEntry) (s : State) : State :=
  { s with toStream := s.toStream ++ [m], streamDue := true, written := s.written ++ [m] }

/-- The last line of the body of a `200 OK`: `y=%u` and two line ends. -/
def yLine (pSipNode : SipNode) : List UInt8 :=
  [0x79, 0x3d] ++ (toString pSipNode.u32Ssrc.toNat).toList.map (fun c => UInt8.ofNat c.toNat) ++
    [0x0d, 0x0a, 0x0d, 0x0a]

def invite (pSipMsg : Invite) (sockets : Sockets) (s : State) : State :=
  let (sip, pSipNode, opened) :=
    insertNodeToSipHashTable cfg.sipHashing (paraseInvite pSipMsg) sockets s.sip
  let s := { s with sip, answered := s.answered ++ [(pSipNode.id, yLine pSipNode.toSipNode)] }
  match opened with
  | none => s
  | some _ =>
      { s.opened pSipNode.id (nodeSockets pSipNode.toSipNode) with made := s.made ++ [pSipNode] }

def withCmdType (enumCmdType : CmdType) (n : SipEntry) : SipEntry :=
  { n with toSipNode := { n.toSipNode with enumCmdType } }

def ack (number : Text) (s : State) : State :=
  match findNodeFromSipHashTable cfg.sipHashing (paraseAckBye number).callId s.sip with
  | none => s
  | some pSipNode =>
      { s with sip := setCmdType .play pSipNode s.sip }.writeToStream (withCmdType .play pSipNode)

def bye (number : Text) (s : State) : State :=
  match findNodeFromSipHashTable cfg.sipHashing (paraseAckBye number).callId s.sip with
  | none => s
  | some pSipNode =>
      { s with
        sip := delNodeFromSipHashTable pSipNode (setCmdType .stop pSipNode s.sip) }.writeToStream
          (withCmdType .stop pSipNode)

/-- `stream_read_cb` reads one record, or nothing into a cleared one. -/
def streamReadCb (s : State) : State :=
  match s.toStream with
  | [] => { s with streamDue := false }
  | m :: toStream =>
      { s with
        toStream, streamDue := false, processed := s.processed ++ [m]
        stream := Stream.streamReadCb cfg.hashing cfg.iUseRtcpFlag m s.stream }

/-- The message that `udp_rtcp_recv_cb` writes for a client. -/
def timeoutMessage (pClientNode : Client) (beyond : List UInt8) : Message where
  cCallId := strncpy pClientNode.callId 32
  beyond := beyond

/-- A timeout in `udp_rtcp_recv_cb`: the new message takes the place of the argument. -/
def udpRtcpRecvCb (pStreamNode : StreamNode) (pClientNode : Client) (beyond : List UInt8)
    (s : State) : State :=
  let message := timeoutMessage pClientNode beyond
  { s with
    stream :=
      s.stream.modifyNode pStreamNode.id fun n =>
        n.modifyClient pClientNode.id fun c => { c with iDeleteFlag := 1 }
    sipArg := some message, sipDue := true
    timedOut := s.timedOut ++ [pClientNode.call] }

def sipPairReadCb (s : State) : State :=
  match s.sipArg with
  | none => { s with sipDue := false }
  | some pRecvFromStreamBevArg =>
      match findNodeFromSipHashTable cfg.sipHashing pRecvFromStreamBevArg.callId s.sip with
      | none => { s with sipDue := false }
      | some pSipNode => { s with sip := delNodeFromSipHashTable pSipNode s.sip, sipDue := false }

/-! ## The send task -/

def startFrame (pStreamNode : StreamNode) (frame : PsFrame) (s : State) : State :=
  { s with
    stream :=
      s.stream.modifyNode pStreamNode.id fun n =>
        { n with
          rtpInfoVideo :=
            setRtpPack1 n.rtpInfoVideo frame.rtpDataBufPreSize frame.dataSize
              frame.timeStamp.toUInt32 true
          frameBuf := frame.dataPtr } }

/-- The next packet is offered to the clients that are not to be deleted. -/
def nextPacket (frame index : Nat) (frameType : Int) (n : StreamNode) : StreamNode :=
  match getRtpPsPack n.rtpInfoVideo n.frameBuf with
  | some (rtpInfo, buf, some rtpSize) =>
      let packet : RtpPacket := { frame, frameType, index, bytes := slice buf rtpInfo.pRTP rtpSize }
      { n with
        rtpInfoVideo := rtpInfo
        frameBuf := buf
        listClientNodeHead :=
          n.listClientNodeHead.map fun c =>
            if c.iDeleteFlag = 1 then c
            else { c with toClientNode := c.toClientNode.offer packet frameType } }
  | _ => n

/-- `del_one_client_node` -/
def delClient (pStreamNode : StreamNode) (pClientNode : Client) (s : State) : State :=
  { s with
    stream :=
      s.stream.modifyNode pStreamNode.id fun n =>
        { n with
          listClientNodeHead :=
            n.listClientNodeHead.eraseP fun c => c.id = pClientNode.id } }.destroyClient pClientNode

/-- The end of a node, by whichever party: it is taken out of the table and its clients are
destroyed. -/
def delNode (pStreamNode : StreamNode) (s : State) : State :=
  pStreamNode.listClientNodeHead.foldl State.destroyClient
    { s with stream := delNodeFromStreamHashTable pStreamNode s.stream }

/-! ## Runs -/

inductive Event
  | invite (pSipMsg : Invite) (sockets : Sockets)
  | ack (number : Text)
  | bye (number : Text)
  | streamReadCb
  | timeout (pStreamNode : StreamNode) (pClientNode : Client) (beyond : List UInt8)
  | sipPairReadCb
  | startFrame (pStreamNode : StreamNode) (frame : PsFrame)
  | sendPacket (pStreamNode : StreamNode) (frame index : Nat) (frameType : Int)
  | delClient (pStreamNode : StreamNode) (pClientNode : Client)
  | delNode (pStreamNode : StreamNode)

def State.step (s : State) : Event → State
  | .invite pSipMsg sockets => invite cfg pSipMsg sockets s
  | .ack number => ack cfg number s
  | .bye number => bye cfg number s
  | .streamReadCb => streamReadCb cfg s
  | .timeout pStreamNode pClientNode beyond => udpRtcpRecvCb pStreamNode pClientNode beyond s
  | .sipPairReadCb => sipPairReadCb cfg s
  | .startFrame pStreamNode frame => startFrame pStreamNode frame s
  | .sendPacket pStreamNode frame index frameType =>
      { s with
        stream := s.stream.modifyNode pStreamNode.id (nextPacket frame index frameType) }
  | .delClient pStreamNode pClientNode => delClient pStreamNode pClientNode s
  | .delNode pStreamNode => delNode pStreamNode s

/-- Sockets that the operating system opens are not open before, and none of them is 0. -/
def Fresh (s : State) (sockets : Sockets) : Prop :=
  0 < sockets.iUdpSendStreamSockFd ∧ s.sockets sockets.iUdpSendStreamSockFd = none ∧
    if cfg.iUseRtcpFlag then
      0 < sockets.iUdpRtcpSockFd ∧ s.sockets sockets.iUdpRtcpSockFd = none ∧
        sockets.iUdpRtcpSockFd ≠ sockets.iUdpSendStreamSockFd
    else sockets.iUdpRtcpSockFd = 0

/-- When an event can happen: a callback is due, a node is in the table and a client in its list;
only clients with the delete flag are deleted one by one. -/
def Legal (s : State) : Event → Prop
  | .invite _ sockets => Fresh cfg s sockets
  | .ack _ | .bye _ => True
  | .streamReadCb => s.streamDue = true
  | .sipPairReadCb => s.sipDue = true
  | .timeout n c _ => Holds s.stream.table n ∧ c ∈ n.listClientNodeHead
  | .startFrame n _ | .sendPacket n _ _ _ | .delNode n => Holds s.stream.table n
  | .delClient n c => Holds s.stream.table n ∧ c ∈ n.listClientNodeHead ∧ c.iDeleteFlag = 1

def system : System State Event where
  init := fun s => s = {}
  step := fun s e s' => Legal cfg s e ∧ s' = s.step cfg e

theorem reachable_step {cfg : Config} {ok : State → Event → Prop} {s : State}
    (hs : (system cfg).ReachableWith ok s) (e : Event) (hok : ok s e) (hlegal : Legal cfg s e) :
    (system cfg).ReachableWith ok (s.step cfg e) :=
  .step hs hok ⟨hlegal, rfl⟩

/-! ## One camera -/

section Camera

variable {cfg : Config} {s : State}

/-- The first node in the bucket of a camera without a name. -/
def camera (cfg : Config) (s : State) : StreamNode :=
  (s.stream.table (cfg.hashing.bucket ([], 0, 0))).headD
    (createStreamNode 0 0 (newSipNode 0 0 {} ⟨0, 0, 0, 0⟩))

/-- The client of the camera behind `k` others. -/
def viewer (cfg : Config) (s : State) (k : Nat) : Client :=
  ((camera cfg s).listClientNodeHead.drop k).headD
    (newClient false 0 (newSipNode 0 0 {} ⟨0, 0, 0, 0⟩))

theorem headD_mem {α : Type} {l : List α} (h : 0 < l.length) (a : α) : l.headD a ∈ l := by
  cases l with
  | nil => exact absurd h (Nat.lt_irrefl 0)
  | cons b l => exact List.mem_cons_self

theorem holds_camera (h : 0 < (s.stream.table (cfg.hashing.bucket ([], 0, 0))).length) :
    Holds s.stream.table (camera cfg s) :=
  ⟨_, headD_mem h _⟩

theorem viewer_mem {k : Nat} (h : k < (camera cfg s).listClientNodeHead.length) :
    viewer cfg s k ∈ (camera cfg s).listClientNodeHead := by
  refine List.mem_of_mem_drop (headD_mem ?_ _)
  rw [List.length_drop]
  exact Nat.sub_pos_of_lt h

end Camera

/-! ## Where everything comes from -/

/-- A client that is in the list of a node. -/
def State.Live (s : State) (c : Client) : Prop :=
  ∃ n, Holds s.stream.table n ∧ c ∈ n.listClientNodeHead

/-- A copy of a node that an `INVITE` has made, with any command. -/
def CopyOf (made : List SipEntry) (n : SipEntry) : Prop :=
  ∃ x, made[n.id]? = some x ∧ n = withCmdType n.enumCmdType x

def asMade (c : Client) : Client := { c with toClientNode := {} }

@[simp] theorem asMade_id (c : Client) : (asMade c).id = c.id := rfl
@[simp] theorem asMade_call (c : Client) : (asMade c).call = c.call := rfl

/-- A client that `PLAY` has made for such a node. -/
def ClientOf (cfg : Config) (made : List SipEntry) (c : Client) : Prop :=
  ∃ x, made[c.call]? = some x ∧ asMade c = newClient cfg.iUseRtcpFlag c.id x

structure ClientsSound (cfg : Config) (made : List SipEntry) (next : Nat) (n : StreamNode) :
    Prop where
  ids : (n.listClientNodeHead.map Client.id).Nodup
  address : ∀ c ∈ n.listClientNodeHead, c.id < next
  clientOf : ∀ c ∈ n.listClientNodeHead, ClientOf cfg made c

/-- The tables are in order, and every node, message and client belongs to a call. -/
structure Sound (cfg : Config) (s : State) : Prop where
  sip : s.sip.Placed
  stream : s.stream.Placed
  made : s.made.length = s.sip.next
  nodes : ∀ n, Holds s.sip.buckets n → CopyOf s.made n
  messages : ∀ m ∈ s.toStream, CopyOf s.made m
  clients : ∀ n, Holds s.stream.table n → ClientsSound cfg s.made s.stream.next n

section Sound

variable {cfg : Config} {s : State} {n x : StreamNode} {c : Client} {made : List SipEntry}
  {next : Nat}

theorem CopyOf.append {m : SipEntry} (h : CopyOf made m) (made' : List SipEntry) :
    CopyOf (made ++ made') m := by
  obtain ⟨x, hx, hm⟩ := h
  exact ⟨x, by rw [List.getElem?_append_left (List.getElem?_eq_some_iff.mp hx).1, hx], hm⟩

theorem ClientOf.append (h : ClientOf cfg made c) (made' : List SipEntry) :
    ClientOf cfg (made ++ made') c := by
  obtain ⟨x, hx, hc⟩ := h
  exact ⟨x, by rw [List.getElem?_append_left (List.getElem?_eq_some_iff.mp hx).1, hx], hc⟩

theorem CopyOf.withCmdType {m : SipEntry} (h : CopyOf made m) (enumCmdType : CmdType) :
    CopyOf made (withCmdType enumCmdType m) := by
  obtain ⟨x, hx, hm⟩ := h
  refine ⟨x, hx, ?_⟩
  rw [hm]
  rfl

theorem CopyOf.newClient {m : SipEntry} (h : CopyOf made m) (id : Nat) :
    ClientOf cfg made (newClient cfg.iUseRtcpFlag id m) := by
  obtain ⟨x, hx, hm⟩ := h
  refine ⟨x, hx, ?_⟩
  rw [hm]
  rfl

theorem ClientsSound.append (h : ClientsSound cfg made next n) (made' : List SipEntry) :
    ClientsSound cfg (made ++ made') next n :=
  ⟨h.ids, h.address, fun c hc => (h.clientOf c hc).append made'⟩

theorem ClientsSound.next_le (h : ClientsSound cfg made next n) {next' : Nat}
    (hle : next ≤ next') : ClientsSound cfg made next' n :=
  ⟨h.ids, fun c hc => (h.address c hc).trans_le hle, h.clientOf⟩

theorem ClientsSound.map (h : ClientsSound cfg made next n) {f : Client → Client}
    (hf : ∀ c, asMade (f c) = asMade c)
    (hlist : x.listClientNodeHead = n.listClientNodeHead.map f) :
    ClientsSound cfg made next x := by
  have hid : ∀ c, (f c).id = c.id := fun c => by rw [← asMade_id, hf, asMade_id]
  have hcall : ∀ c, (f c).call = c.call := fun c => by rw [← asMade_call, hf, asMade_call]
  refine ⟨?_, fun c hc => ?_, fun c hc => ?_⟩
  · rw [hlist, List.map_map]
    have hsame : Client.id ∘ f = Client.id := funext hid
    rw [hsame]
    exact h.ids
  · rw [hlist] at hc
    obtain ⟨y, hy, rfl⟩ := List.mem_map.mp hc
    rw [hid]
    exact h.address y hy
  · rw [hlist] at hc
    obtain ⟨y, hy, rfl⟩ := List.mem_map.mp hc
    obtain ⟨x, hx, hclient⟩ := h.clientOf y hy
    refine ⟨x, by rw [hcall, hx], ?_⟩
    rw [hf, hid, hclient]

theorem ClientsSound.sublist (h : ClientsSound cfg made next n)
    (hsub : x.listClientNodeHead.Sublist n.listClientNodeHead) : ClientsSound cfg made next x where
  ids := h.ids.sublist (hsub.map Client.id)
  address := fun c hc => h.address c (hsub.subset hc)
  clientOf := fun c hc => h.clientOf c (hsub.subset hc)

theorem ClientsSound.snoc (h : ClientsSound cfg made next n) (hc : ClientOf cfg made c)
    (hid : next ≤ c.id) {next' : Nat} (hid' : c.id < next')
    (hlist : x.listClientNodeHead = n.listClientNodeHead ++ [c]) :
    ClientsSound cfg made next' x := by
  have hlt : ∀ y ∈ n.listClientNodeHead, y.id < c.id := fun y hy => (h.address y hy).trans_le hid
  refine ⟨?_, fun y hy => ?_, fun y hy => ?_⟩
  · rw [hlist, List.map_append, List.map_singleton, List.nodup_append]
    refine ⟨h.ids, List.nodup_singleton _, fun i hi j hj => ?_⟩
    obtain ⟨y, hy, rfl⟩ := List.mem_map.mp hi
    rw [List.mem_singleton.mp hj]
    exact (hlt y hy).ne
  · rw [hlist, List.mem_append, List.mem_singleton] at hy
    rcases hy with hy | rfl
    · exact (hlt y hy).trans hid'
    · exact hid'
  · rw [hlist, List.mem_append, List.mem_singleton] at hy
    rcases hy with hy | rfl
    · exact h.clientOf y hy
    · exact hc

/-! ### The steps -/

theorem sound_init : Sound cfg {} where
  sip := Call.placed_init
  stream := Stream.placed_init
  made := rfl
  nodes := fun _ ⟨_, hn⟩ => absurd hn List.not_mem_nil
  messages := fun _ hm => absurd hm List.not_mem_nil
  clients := fun _ ⟨_, hn⟩ => absurd hn List.not_mem_nil

theorem nodes_modifyNode {P : StreamNode → Prop} {t : Stream.State} {id : Nat}
    {f : StreamNode → StreamNode} (hall : ∀ n, Holds t.table n → P n) (hf : ∀ n, P n → P (f n)) :
    ∀ n, Holds (t.modifyNode id f).table n → P n := by
  intro n hn
  obtain ⟨y, hy, rfl⟩ := holds_modify.mp hn
  split
  · exact hf y (hall y hy)
  · exact hall y hy

/-- The client that a message finds: by its key, then by its Call-ID. -/
def clientOf (h : Hashing) (m : SipEntry) (t : Stream.State) : Option Client :=
  (findNodeFromStreamHashTable (h.getStreamHashValue (hashSource m.key)) m t).bind fun n =>
    findClientNode n m.toSipNode.callId

/-- The node that a `PLAY` comes to. -/
def IsNodeOf (h : Hashing) (m : SipEntry) (t : Stream.State) (n : StreamNode) : Prop :=
  findNodeFromStreamHashTable (h.getStreamHashValue (hashSource m.key)) m t = some n ∨
    findNodeFromStreamHashTable (h.getStreamHashValue (hashSource m.key)) m t = none ∧
      n = createStreamNode t.next (h.getStreamHashValue (hashSource m.key)) m

/-- What holds of every node behind a record that `stream_read_cb` reads. -/
theorem nodes_streamReadCb {P Q : StreamNode → Prop} {h : Hashing} {iUseRtcpFlag : Bool}
    {t : Stream.State} (ht : t.Placed) (m : SipEntry) (hall : ∀ n, Holds t.table n → P n)
    (hnew : ∀ n, n.listClientNodeHead = [] → IsNodeOf h m t n → P n) (hsame : ∀ n, P n → Q n)
    (hplay : ∀ n id, IsNodeOf h m t n → clientOf h m t = none → m.enumCmdType = .play →
      t.next ≤ id → id < (Stream.streamReadCb h iUseRtcpFlag m t).next → P n →
        Q { n with listClientNodeHead := n.listClientNodeHead ++ [newClient iUseRtcpFlag id m] })
    (hstop : ∀ n id, P n → Q (n.modifyClient id fun c => { c with iDeleteFlag := 1 })) :
    ∀ n, Holds (Stream.streamReadCb h iUseRtcpFlag m t).table n → Q n := by
  unfold Stream.streamReadCb at hplay ⊢
  intro y hy
  rcases hcmd : m.enumCmdType with _ | _ | _
  all_goals rw [hcmd] at hy hplay
  all_goals dsimp only at hy hplay
  · exact hsame y (hall y hy)
  · obtain ⟨-, n, id, hwhich, hle, -, hadded, -, hholds⟩ := ht.play h iUseRtcpFlag m
    have hn : P n := by
      rcases hwhich with hfind | ⟨hnone, rfl⟩
      · exact hall n ⟨_, (mem_of_seek hfind).1⟩
      · exact hnew _ rfl (.inr ⟨hnone, rfl⟩)
    rcases (hholds y).mp hy with rfl | ⟨hy, -⟩
    · rcases hclient : findClientNode n m.toSipNode.callId with _ | c
      · rw [StreamNode.withClient, hclient]
        refine hplay n id hwhich ?_ rfl hle (hadded hclient).1 hn
        unfold clientOf
        rcases hwhich with hfind | ⟨hnone, -⟩
        · rw [hfind]
          exact hclient
        · rw [hnone]
          rfl
      · rw [StreamNode.withClient, hclient]
        exact hsame n hn
    · exact hsame y (hall y hy)
  · obtain ⟨-, -, -, ⟨hkept, -⟩ | ⟨n, c, hfind, -, hholds⟩⟩ := ht.stop h m
    · rw [hkept] at hy
      exact hsame y (hall y hy)
    · rcases (hholds y).mp hy with rfl | ⟨hy, -⟩
      · exact hstop n c.id (hall n ⟨_, (mem_of_seek hfind).1⟩)
      · exact hsame y (hall y hy)

theorem invite_cases (cfg : Config) (pSipMsg : Invite) (sockets : Sockets) (s : State) :
    (∃ n, findNodeFromSipHashTable cfg.sipHashing (paraseInvite pSipMsg).callId s.sip = some n ∧
        invite cfg pSipMsg sockets s =
          { s with answered := s.answered ++ [(n.id, yLine n.toSipNode)] }) ∨
      findNodeFromSipHashTable cfg.sipHashing (paraseInvite pSipMsg).callId s.sip = none ∧
        ∃ n : SipEntry,
          n = newSipNode s.sip.next (cfg.sipHashing.uHashValue (paraseInvite pSipMsg).callId)
            (paraseInvite pSipMsg) sockets ∧
          invite cfg pSipMsg sockets s =
            { s.opened n.id (nodeSockets n.toSipNode) with
              sip := s.sip.inserted cfg.sipHashing (paraseInvite pSipMsg) sockets
              made := s.made ++ [n]
              answered := s.answered ++ [(n.id, yLine n.toSipNode)] } := by
  unfold invite insertNodeToSipHashTable
  dsimp only
  rcases hfind : findNodeFromSipHashTable cfg.sipHashing (paraseInvite pSipMsg).callId s.sip
    with _ | n
  · exact .inr ⟨rfl, _, rfl, rfl⟩
  · exact .inl ⟨n, rfl, rfl⟩

theorem ack_cases (cfg : Config) (number : Text) (s : State) :
    findNodeFromSipHashTable cfg.sipHashing (paraseAckBye number).callId s.sip = none ∧
        ack cfg number s = s ∨
      ∃ m, findNodeFromSipHashTable cfg.sipHashing (paraseAckBye number).callId s.sip = some m ∧
        ack cfg number s =
          { s with sip := setCmdType .play m s.sip }.writeToStream (withCmdType .play m) := by
  unfold ack
  rcases findNodeFromSipHashTable cfg.sipHashing (paraseAckBye number).callId s.sip with _ | m
  · exact .inl ⟨rfl, rfl⟩
  · exact .inr ⟨m, rfl, rfl⟩

theorem bye_cases (cfg : Config) (number : Text) (s : State) :
    findNodeFromSipHashTable cfg.sipHashing (paraseAckBye number).callId s.sip = none ∧
        bye cfg number s = s ∨
      ∃ m, findNodeFromSipHashTable cfg.sipHashing (paraseAckBye number).callId s.sip = some m ∧
        bye cfg number s =
          { s with
            sip := delNodeFromSipHashTable m (setCmdType .stop m s.sip) }.writeToStream
              (withCmdType .stop m) := by
  unfold bye
  rcases findNodeFromSipHashTable cfg.sipHashing (paraseAckBye number).callId s.sip with _ | m
  · exact .inl ⟨rfl, rfl⟩
  · exact .inr ⟨m, rfl, rfl⟩

theorem sipPairReadCb_cases (cfg : Config) (s : State) :
    (∀ arg, s.sipArg = some arg → findNodeFromSipHashTable cfg.sipHashing arg.callId s.sip = none) ∧
        sipPairReadCb cfg s = { s with sipDue := false } ∨
      ∃ arg m, s.sipArg = some arg ∧
        findNodeFromSipHashTable cfg.sipHashing arg.callId s.sip = some m ∧
        sipPairReadCb cfg s =
          { s with sip := delNodeFromSipHashTable m s.sip, sipDue := false } := by
  unfold sipPairReadCb
  rcases s.sipArg with _ | arg
  · exact .inl ⟨fun _ harg => (by cases harg), rfl⟩
  · dsimp only
    rcases hfind : findNodeFromSipHashTable cfg.sipHashing arg.callId s.sip with _ | m
    · exact .inl ⟨fun _ harg => (by rw [← Option.some.inj harg, hfind]), rfl⟩
    · exact .inr ⟨arg, m, rfl, hfind, rfl⟩

theorem foldl_destroyClient (clients : List Client) :
    ∀ s : State, ∃ sockets closedTwice,
      clients.foldl State.destroyClient s = { s with sockets, closedTwice } := by
  have hclose : ∀ (call : Nat) (fds : List Int32) (s : State), ∃ sockets closedTwice,
      fds.foldl (State.close call) s = { s with sockets, closedTwice } := by
    intro call fds
    induction fds with
    | nil => exact fun s => ⟨s.sockets, s.closedTwice, rfl⟩
    | cons fd fds ih =>
        intro s
        obtain ⟨sockets, closedTwice, heq⟩ := ih (s.close call fd)
        exact ⟨sockets, closedTwice, heq⟩
  induction clients with
  | nil => exact fun s => ⟨s.sockets, s.closedTwice, rfl⟩
  | cons c clients ih =>
      intro s
      obtain ⟨sockets, closedTwice, heq⟩ := hclose c.call (clientSockets c) s
      obtain ⟨sockets', closedTwice', heq'⟩ := ih (s.destroyClient c)
      refine ⟨sockets', closedTwice', ?_⟩
      rw [List.foldl_cons, heq', State.destroyClient, heq]

theorem delClient_eq (n : StreamNode) (c : Client) (s : State) :
    ∃ sockets closedTwice, delClient n c s =
      { s with
        stream :=
          s.stream.modifyNode n.id fun n =>
            { n with listClientNodeHead := n.listClientNodeHead.eraseP fun x => x.id = c.id }
        sockets, closedTwice } :=
  foldl_destroyClient [c] { s with stream := _ }

theorem delNode_eq (n : StreamNode) (s : State) :
    ∃ sockets closedTwice, delNode n s =
      { s with stream := delNodeFromStreamHashTable n s.stream, sockets, closedTwice } :=
  foldl_destroyClient n.listClientNodeHead { s with stream := _ }

/-- What the send task does to the clients and to the node of a packet. -/
theorem nextPacket_clients (frame index : Nat) (frameType : Int) (n : StreamNode) :
    ∃ f : Client → Client, (∀ c, asMade (f c) = asMade c) ∧
      (nextPacket frame index frameType n).listClientNodeHead = n.listClientNodeHead.map f := by
  unfold nextPacket
  split
  · refine ⟨_, fun c => ?_, rfl⟩
    split <;> rfl
  · exact ⟨id, fun _ => rfl, (List.map_id _).symm⟩

theorem keeps_nextPacket (frame index : Nat) (frameType : Int) :
    Keeps (nextPacket frame index frameType) := by
  refine ⟨fun n => ?_, fun n => ?_⟩ <;> unfold nextPacket <;> split <;> rfl

theorem ClientsSound.modifyClient (h : ClientsSound cfg made next n) (id : Nat) :
    ClientsSound cfg made next (n.modifyClient id fun c => { c with iDeleteFlag := 1 }) := by
  refine h.map (fun c => ?_) rfl
  split <;> rfl

theorem holds_setCmdType {t : SipTable} {m y : SipEntry} (ht : t.Placed) (hm : Holds t.buckets m)
    (enumCmdType : CmdType) :
    Holds (setCmdType enumCmdType m t).buckets y ↔
      y = withCmdType enumCmdType m ∨ Holds t.buckets y ∧ y ≠ m :=
  ht.distinct.holds_modify hm

theorem stopped {t : SipTable} {m : SipEntry} (ht : t.Placed) (hm : Holds t.buckets m) :
    (delNodeFromSipHashTable m (setCmdType .stop m t)).Placed ∧
      ∀ y, Holds (delNodeFromSipHashTable m (setCmdType .stop m t)).buckets y ↔
        Holds t.buckets y ∧ y ≠ m := by
  have hplaced := ht.setCmdType (n := m) .stop
  have hm' : Holds (setCmdType .stop m t).buckets (withCmdType .stop m) :=
    (holds_setCmdType ht hm .stop).mpr (.inl rfl)
  have hdel : ∀ y, Holds (delNodeFromSipHashTable m (setCmdType .stop m t)).buckets y ↔
      Holds (setCmdType .stop m t).buckets y ∧ y ≠ withCmdType .stop m :=
    fun y => hplaced.holds_delNode hm'
  refine ⟨SipTable.Placed.delNode (n := withCmdType .stop m) hplaced hm', fun y => ?_⟩
  rw [hdel, holds_setCmdType ht hm]
  constructor
  · rintro ⟨heq | hy, hne⟩
    · exact absurd heq hne
    · exact hy
  · rintro ⟨hy, hne⟩
    refine ⟨.inr ⟨hy, hne⟩, ?_⟩
    rintro rfl
    exact hne (ht.distinct hy hm rfl)

theorem Sound.writeToStream (hs : Sound cfg s) {m : SipEntry} (hm : CopyOf s.made m) :
    Sound cfg (s.writeToStream m) := by
  refine ⟨hs.sip, hs.stream, hs.made, hs.nodes, fun y hy => ?_, hs.clients⟩
  rcases List.mem_append.mp hy with hy | hy
  · exact hs.messages y hy
  · rw [List.mem_singleton.mp hy]
    exact hm

theorem Sound.ack (hs : Sound cfg s) (number : Text) : Sound cfg (ack cfg number s) := by
  rcases ack_cases cfg number s with ⟨-, heq⟩ | ⟨m, hfind, heq⟩
  · rw [heq]
    exact hs
  · rw [heq]
    have hm := holds_of_find hfind
    have hcopy := (hs.nodes m hm).withCmdType .play
    refine Sound.writeToStream ?_ hcopy
    refine ⟨hs.sip.setCmdType .play, hs.stream, hs.made, fun y hy => ?_, hs.messages, hs.clients⟩
    rcases (holds_setCmdType hs.sip hm .play).mp hy with rfl | ⟨hy, -⟩
    · exact hcopy
    · exact hs.nodes y hy

theorem Sound.bye (hs : Sound cfg s) (number : Text) : Sound cfg (bye cfg number s) := by
  rcases bye_cases cfg number s with ⟨-, heq⟩ | ⟨m, hfind, heq⟩
  · rw [heq]
    exact hs
  · rw [heq]
    have hm := holds_of_find hfind
    obtain ⟨hplaced, hholds⟩ := stopped hs.sip hm
    refine Sound.writeToStream ?_ ((hs.nodes m hm).withCmdType .stop)
    exact ⟨hplaced, hs.stream, hs.made, fun y hy => hs.nodes y ((hholds y).mp hy).1, hs.messages,
      hs.clients⟩

theorem Sound.sipPairReadCb (hs : Sound cfg s) : Sound cfg (sipPairReadCb cfg s) := by
  rcases sipPairReadCb_cases cfg s with ⟨-, heq⟩ | ⟨arg, m, -, hfind, heq⟩
  · rw [heq]
    exact ⟨hs.sip, hs.stream, hs.made, hs.nodes, hs.messages, hs.clients⟩
  · rw [heq]
    have hm := holds_of_find hfind
    exact ⟨hs.sip.delNode hm, hs.stream, hs.made,
      fun y hy => hs.nodes y ((hs.sip.holds_delNode hm).mp hy).1, hs.messages, hs.clients⟩

theorem streamReadCb_nil (hread : s.toStream = []) :
    streamReadCb cfg s = { s with streamDue := false } := by
  unfold Server.streamReadCb
  rw [hread]

theorem streamReadCb_cons {m : SipEntry} {toStream : List SipEntry}
    (hread : s.toStream = m :: toStream) :
    streamReadCb cfg s =
      { s with
        toStream, streamDue := false, processed := s.processed ++ [m]
        stream := Stream.streamReadCb cfg.hashing cfg.iUseRtcpFlag m s.stream } := by
  unfold Server.streamReadCb
  rw [hread]

theorem placed_streamReadCb {t : Stream.State} (ht : t.Placed) (h : Hashing) (iUseRtcpFlag : Bool)
    (m : SipEntry) :
    (Stream.streamReadCb h iUseRtcpFlag m t).Placed ∧
      t.next ≤ (Stream.streamReadCb h iUseRtcpFlag m t).next := by
  unfold Stream.streamReadCb
  split
  · obtain ⟨hplaced, n, id, -, hle, hle', -⟩ := ht.play h iUseRtcpFlag m
    exact ⟨hplaced, hle.trans hle'⟩
  · obtain ⟨hplaced, hnext, -⟩ := ht.stop h m
    exact ⟨hplaced, hnext.ge⟩
  · exact ⟨ht, Nat.le_refl _⟩

theorem Sound.streamReadCb (hs : Sound cfg s) : Sound cfg (streamReadCb cfg s) := by
  rcases hread : s.toStream with _ | ⟨m, toStream⟩
  · rw [streamReadCb_nil hread]
    exact ⟨hs.sip, hs.stream, hs.made, hs.nodes, hs.messages, hs.clients⟩
  · rw [streamReadCb_cons hread]
    have hmessages : ∀ m' ∈ m :: toStream, CopyOf s.made m' := hread ▸ hs.messages
    have hm := hmessages m List.mem_cons_self
    obtain ⟨hplaced, hnext⟩ := placed_streamReadCb hs.stream cfg.hashing cfg.iUseRtcpFlag m
    have hclients : ∀ n,
        Holds (Stream.streamReadCb cfg.hashing cfg.iUseRtcpFlag m s.stream).table n →
          ClientsSound cfg s.made
            (Stream.streamReadCb cfg.hashing cfg.iUseRtcpFlag m s.stream).next n := by
      refine nodes_streamReadCb hs.stream m hs.clients ?_ (fun n hn => hn.next_le hnext) ?_ ?_
      · intro n hempty _
        refine ⟨?_, ?_, ?_⟩ <;> rw [hempty]
        · exact List.nodup_nil
        · exact fun c hc => absurd hc List.not_mem_nil
        · exact fun c hc => absurd hc List.not_mem_nil
      · exact fun n id _ _ _ hle hlt hn => hn.snoc (hm.newClient id) hle hlt rfl
      · exact fun n id hn => (hn.modifyClient id).next_le hnext
    exact ⟨hs.sip, hplaced, hs.made, hs.nodes,
      fun m' hm' => hmessages m' (List.mem_cons_of_mem _ hm'), hclients⟩

/-- **Every step** keeps the state sound. -/
theorem Sound.step (hs : Sound cfg s) {e : Event} (hlegal : Legal cfg s e) :
    Sound cfg (s.step cfg e) := by
  cases e with
  | invite pSipMsg sockets =>
      rcases invite_cases cfg pSipMsg sockets s with ⟨n, -, heq⟩ | ⟨-, n, hn, heq⟩
      · rw [State.step, heq]
        exact ⟨hs.sip, hs.stream, hs.made, hs.nodes, hs.messages, hs.clients⟩
      · rw [State.step, heq]
        refine ⟨hs.sip.inserted _ _, hs.stream, ?_, fun y hy => ?_, fun m hm => ?_, fun y hy => ?_⟩
        · rw [List.length_append, hs.made]
          rfl
        · rcases holds_append.mp hy with hy | rfl
          · exact (hs.nodes y hy).append _
          · rw [← hn]
            have hid : n.id = s.made.length := by rw [hn, hs.made]; rfl
            refine ⟨n, ?_, rfl⟩
            rw [hid]
            exact List.getElem?_concat_length
        · exact (hs.messages m hm).append _
        · exact (hs.clients y hy).append _
  | ack number => exact hs.ack number
  | bye number => exact hs.bye number
  | streamReadCb => exact hs.streamReadCb
  | timeout n c beyond =>
      refine ⟨hs.sip, hs.stream.modifyNode ?_ n.id (Nat.le_refl _), hs.made, hs.nodes, hs.messages,
        nodes_modifyNode hs.clients fun n hn => hn.modifyClient c.id⟩
      exact ⟨fun _ => rfl, fun _ => rfl⟩
  | sipPairReadCb => exact hs.sipPairReadCb
  | startFrame n frame =>
      refine ⟨hs.sip, hs.stream.modifyNode ?_ n.id (Nat.le_refl _), hs.made, hs.nodes, hs.messages,
        nodes_modifyNode hs.clients fun n hn => ⟨hn.ids, hn.address, hn.clientOf⟩⟩
      exact ⟨fun _ => rfl, fun _ => rfl⟩
  | sendPacket n frame index frameType =>
      refine ⟨hs.sip, hs.stream.modifyNode (keeps_nextPacket _ _ _) n.id (Nat.le_refl _), hs.made,
        hs.nodes, hs.messages, nodes_modifyNode hs.clients fun n hn => ?_⟩
      obtain ⟨f, hf, hlist⟩ := nextPacket_clients frame index frameType n
      exact hn.map hf hlist
  | delClient n c =>
      obtain ⟨sockets, closedTwice, heq⟩ := delClient_eq n c s
      rw [State.step, heq]
      refine ⟨hs.sip, hs.stream.modifyNode ?_ n.id (Nat.le_refl _), hs.made, hs.nodes, hs.messages,
        nodes_modifyNode hs.clients fun n hn => hn.sublist List.eraseP_sublist⟩
      exact ⟨fun _ => rfl, fun _ => rfl⟩
  | delNode n =>
      obtain ⟨sockets, closedTwice, heq⟩ := delNode_eq n s
      rw [State.step, heq]
      exact ⟨hs.sip, hs.stream.delNode hlegal, hs.made, hs.nodes, hs.messages,
        fun y hy => hs.clients y ((hs.stream.holds_delNode hlegal).mp hy).1⟩

/-- **Every run** keeps the state sound. -/
theorem sound_reachable {ok : State → Event → Prop} (hs : (system cfg).ReachableWith ok s) :
    Sound cfg s := by
  refine hs.invariant (fun s hinit => ?_) fun s e s' hall _ hstep => ?_
  · obtain rfl : s = {} := hinit
    exact sound_init
  · obtain ⟨hlegal, rfl⟩ := hstep
    exact hall.step hlegal

end Sound

/-! ## Two calls -/

section TwoCalls

variable {ok : State → Event → Prop}

theorem reachable_read {cfg : Config} {s : State} (hs : (system cfg).ReachableWith ok s)
    (e : Event) (hok : ok s e) (hlegal : Legal cfg s e)
    (hread : ok (s.step cfg e) .streamReadCb) (hdue : (s.step cfg e).streamDue = true) :
    (system cfg).ReachableWith ok ((s.step cfg e).step cfg .streamReadCb) :=
  reachable_step (reachable_step hs e hok hlegal) .streamReadCb hread hdue

theorem sockets_firstInvite (pSipMsg : Call.Invite) {fd : Int32} (hrtp : fd ≠ 7) (hrtcp : fd ≠ 8) :
    (State.step (config true) {} (.invite pSipMsg ⟨7, 20000, 8, 20001⟩)).sockets fd = none := by
  rcases invite_cases (config true) pSipMsg ⟨7, 20000, 8, 20001⟩ {} with
    ⟨n, -, heq⟩ | ⟨-, n, rfl, heq⟩
  · rw [State.step, heq]
  · rw [State.step, heq]
    refine if_neg fun hmem => ?_
    have hpair : fd ∈ [(7 : Int32), 8] := (List.mem_filter.mp hmem).1
    simp [hrtp, hrtcp] at hpair

/-- Two calls, whose sockets the operating system opens one behind the other. -/
theorem reachable_twoInvites (hok : ∀ s pSipMsg sockets, ok s (.invite pSipMsg sockets))
    (pSipMsg pSipMsg' : Call.Invite) :
    (system (config true)).ReachableWith ok
      ((State.step (config true) {} (.invite pSipMsg ⟨7, 20000, 8, 20001⟩)).step (config true)
        (.invite pSipMsg' ⟨9, 20002, 10, 20003⟩)) := by
  have hfirst : (system (config true)).ReachableWith ok
      (State.step (config true) {} (.invite pSipMsg ⟨7, 20000, 8, 20001⟩)) :=
    reachable_step (.init rfl) _ (hok ..) ⟨by decide, rfl, by decide, rfl, by decide⟩
  refine reachable_step hfirst _ (hok ..) ⟨by decide, ?_, by decide, ?_, by decide⟩
  · exact sockets_firstInvite pSipMsg (by decide) (by decide)
  · exact sockets_firstInvite pSipMsg (by decide) (by decide)

end TwoCalls

end GbStream.Server
