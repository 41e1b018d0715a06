import GbStream.Support.HashTable
import GbStream.Call.SipNode

/-!
# The table of calls

`sip_hash.c`: calls are found by the string that their `cCallId` is read as, and that string
goes on behind a field that a Call-ID fills.
-/

namespace GbStream.Call

open Support.Bytes Support.CString Support.HashTable

/-- A string: bytes without a NUL. -/
abbrev Text := {w : List UInt8 // 0 ∉ w}

/-! ## Hashing and numbers -/

/-- `BKDR_hash`, the function that `ChooseHashFunc` is called with. -/
def bkdrHash (str : List UInt8) : UInt32 :=
  str.foldl (fun hash c => hash * 131 + c.toInt8.toInt32.toUInt32) 0 &&& 0x7FFFFFFF

/-- The digits that `atoi` reads. -/
def digits (w : List UInt8) : Nat :=
  (w.takeWhile fun c => 0x30 ≤ c ∧ c ≤ 0x39).foldl (fun n c => n * 10 + (c.toNat - 0x30)) 0

/-- `atoi`: the number is read as a `long`, which is cut at its bounds, and converted. -/
def atoi (w : List UInt8) : Int32 :=
  let w := w.dropWhile fun c => c = 0x20 ∨ 0x09 ≤ c ∧ c ≤ 0x0d
  match w with
  | 0x2d :: w => Int32.ofInt (max (-2 ^ 63) (-(digits w : Int)))
  | 0x2b :: w => Int32.ofInt (min (2 ^ 63 - 1) (digits w))
  | w => Int32.ofInt (min (2 ^ 63 - 1) (digits w))

/-! ## What a request says -/

/-- `SIP_DEV_ARGS_OBJ` -/
structure SipDevArgs where
  cSsrc : CharArray 16 := strncpy [] 16
  cCallId : CharArray 32 := strncpy [] 32
  cDevSn : CharArray 32 := strncpy [] 32
  cPushIp : CharArray 16 := strncpy [] 16
  iPushPort : Int32 := 0
  cDevId : CharArray 128 := strncpy [] 128
  iDevChnl : Int32 := 0
  iStreamType : Int32 := 0
  cStreamSourceIp : CharArray 16 := strncpy [] 16
  iStreamSourcePort : Int32 := 0

namespace SipDevArgs

variable (a : SipDevArgs)

def behindStreamSourceIp : List UInt8 := SipNode.int a.iStreamSourcePort
def behindDevId : List UInt8 :=
  SipNode.int a.iDevChnl ++ SipNode.int a.iStreamType ++ a.cStreamSourceIp.bytes ++
    a.behindStreamSourceIp
def behindPushIp : List UInt8 := SipNode.int a.iPushPort ++ a.cDevId.bytes ++ a.behindDevId
def behindDevSn : List UInt8 := a.cPushIp.bytes ++ a.behindPushIp
def behindCallId : List UInt8 := a.cDevSn.bytes ++ a.behindDevSn
def behindSsrc : List UInt8 := a.cCallId.bytes ++ a.behindCallId

/-- The string that `a.cCallId` is read as. -/
def callId : List UInt8 := a.cCallId.string a.behindCallId

end SipDevArgs

/-- An `INVITE`: its Call-ID, the user name of its SDP text, and the other fields as
`parase_invite` fills them. -/
structure Invite where
  number : Text
  pUserName : Text
  cSsrc : CharArray 16
  cPushIp : CharArray 16
  iPushPort : Int32
  cDevId : CharArray 128
  iStreamType : Int32
  cStreamSourceIp : CharArray 16
  iStreamSourcePort : Int32

/-- The record is cleared before; the channel is never set. -/
def paraseInvite (pSipMsg : Invite) : SipDevArgs where
  cSsrc := pSipMsg.cSsrc
  cCallId := strncpy pSipMsg.number 32
  cDevSn := strncpy pSipMsg.pUserName 32
  cPushIp := pSipMsg.cPushIp
  iPushPort := pSipMsg.iPushPort
  cDevId := pSipMsg.cDevId
  iStreamType := pSipMsg.iStreamType
  cStreamSourceIp := pSipMsg.cStreamSourceIp
  iStreamSourcePort := pSipMsg.iStreamSourcePort

def paraseAckBye (number : Text) : SipDevArgs := { cCallId := strncpy number 32 }

/-- The sockets and ports of a call, as `udp_bind_local_port` leaves them. -/
structure Sockets where
  iUdpSendStreamSockFd : Int32
  iUdpSendStreamPort : Int32
  iUdpRtcpSockFd : Int32
  iUdpRtcpListenPort : Int32
  deriving DecidableEq, Repr

/-! ## The table -/

/-- The chosen hash function and the length of the table. -/
structure SipHashing where
  pHashFunc : List UInt8 → UInt32
  uHashTableLen : UInt32

def SipHashing.uHashValue (h : SipHashing) (pCallId : List UInt8) : UInt32 :=
  h.pHashFunc pCallId % h.uHashTableLen

/-- The table and the next free address. -/
structure SipTable where
  buckets : Buckets SipEntry := fun _ => []
  next : Nat := 0

def SipEntry.callId (n : SipEntry) : List UInt8 := n.toSipNode.callId

/-- The node that is made for an `INVITE`. -/
def newSipNode (id : Nat) (uHashValue : UInt32) (a : SipDevArgs) (sockets : Sockets) :
    SipEntry where
  id := id
  u32Ssrc := (atoi (a.cSsrc.string a.behindSsrc)).toUInt32
  cSipDevSn := strncpy (a.cDevSn.string a.behindDevSn) 32
  cDevId := strncpy (a.cDevId.string a.behindDevId) 128
  cCallId := strncpy a.callId 32
  cStreamSourceIp := strncpy (a.cStreamSourceIp.string a.behindStreamSourceIp) 16
  iStreamSourcePort := a.iStreamSourcePort
  iDevChnl := a.iDevChnl
  iStreamType := a.iStreamType
  cPushIp := strncpy (a.cPushIp.string a.behindPushIp) 16
  iPushPort := a.iPushPort
  iSipNodeHashValue := uHashValue.toInt32
  iUdpSendStreamSockFd := sockets.iUdpSendStreamSockFd
  iUdpSendStreamPort := sockets.iUdpSendStreamPort
  iUdpRtcpSockFd := sockets.iUdpRtcpSockFd
  iUdpRtcpListenPort := sockets.iUdpRtcpListenPort

variable (h : SipHashing)

def findNodeFromSipHashTable (pCallId : List UInt8) (t : SipTable) : Option SipEntry :=
  seek SipEntry.callId pCallId (t.buckets (h.uHashValue pCallId).toNat)

/-- `sockets` are those that `udp_bind_local_port` opens, if it is called. -/
def insertNodeToSipHashTable (pSipDevInfo : SipDevArgs) (sockets : Sockets) (t : SipTable) :
    SipTable × SipEntry × Option Sockets :=
  match findNodeFromSipHashTable h pSipDevInfo.callId t with
  | some pSipNode => (t, pSipNode, none)
  | none =>
      let uHashValue := h.uHashValue pSipDevInfo.callId
      let pSipNode := newSipNode t.next uHashValue pSipDevInfo sockets
      ({ buckets := append uHashValue.toNat pSipNode t.buckets, next := t.next + 1 }, pSipNode,
        some sockets)

def delNodeFromSipHashTable (pSipNode : SipEntry) (t : SipTable) : SipTable :=
  { t with
    buckets :=
      remove pSipNode.iSipNodeHashValue.toUInt32.toNat (fun n => n.id = pSipNode.id) t.buckets }

/-- `pSipNode->enumCmdType = ...` -/
def setCmdType (enumCmdType : CmdType) (pSipNode : SipEntry) (t : SipTable) : SipTable :=
  { t with
    buckets :=
      modify (fun n => n.id = pSipNode.id)
        (fun n => { n with toSipNode := { n.toSipNode with enumCmdType } }) t.buckets }

/-! ## Requests -/

inductive Request
  | invite (pSipMsg : Invite) (sockets : Sockets)
  | ack (number : Text)
  | bye (number : Text)
  /-- `sip_pair_read_cb` for a client that `udp_rtcp_recv_cb` has given up; `beyond` is the memory
  behind the message. -/
  | timeout (number : Text) (beyond : List UInt8)

/-- What a request comes upon: the node it finds or makes, and the sockets it opens. -/
structure Answer where
  pSipNode : Option Nat
  opened : Option Sockets
  deriving DecidableEq, Repr

/-- The string that the Call-ID of a timed-out client is looked up as: it has been copied into
the node, into the client and into the message. -/
def timeoutCallId (number : Text) (beyond : List UInt8) : List UInt8 :=
  (strncpy number 32).string beyond

def handle (t : SipTable) : Request → SipTable × Answer
  | .invite pSipMsg sockets =>
      let (t, pSipNode, opened) := insertNodeToSipHashTable h (paraseInvite pSipMsg) sockets t
      (t, { pSipNode := some pSipNode.id, opened })
  | .ack number =>
      match findNodeFromSipHashTable h (paraseAckBye number).callId t with
      | none => (t, { pSipNode := none, opened := none })
      | some pSipNode =>
          (setCmdType .play pSipNode t, { pSipNode := some pSipNode.id, opened := none })
  | .bye number =>
      match findNodeFromSipHashTable h (paraseAckBye number).callId t with
      | none => (t, { pSipNode := none, opened := none })
      | some pSipNode =>
          (delNodeFromSipHashTable pSipNode (setCmdType .stop pSipNode t),
            { pSipNode := some pSipNode.id, opened := none })
  | .timeout number beyond =>
      match findNodeFromSipHashTable h (timeoutCallId number beyond) t with
      | none => (t, { pSipNode := none, opened := none })
      | some pSipNode =>
          (delNodeFromSipHashTable pSipNode t, { pSipNode := some pSipNode.id, opened := none })

/-- A run, with its answers. -/
def answers (t : SipTable) : List Request → List Answer
  | [] => []
  | request :: requests => (handle h t request).2 :: answers (handle h t request).1 requests

/-! ## Where the nodes lie -/

def SipEntry.place (n : SipEntry) : Nat × Nat := (n.id, n.iSipNodeHashValue.toUInt32.toNat)

/-- Every node lies in the bucket that it is removed from, whatever its Call-ID is read as. -/
structure SipTable.Placed (t : SipTable) : Prop where
  wellFormed : WellFormed Prod.snd SipEntry.place t.buckets
  distinct : Distinct SipEntry.id t.buckets
  address : ∀ {n}, Holds t.buckets n → n.id < t.next

section Placed

variable {h : SipHashing} {t : SipTable} {n x : SipEntry} {callId : List UInt8}

theorem holds_of_find (hfind : findNodeFromSipHashTable h callId t = some n) :
    Holds t.buckets n := ⟨_, (mem_of_seek hfind).1⟩

theorem placed_init : SipTable.Placed {} where
  wellFormed := wellFormed_empty
  distinct := fun _ _ ⟨_, hn⟩ => absurd hn List.not_mem_nil
  address := fun ⟨_, hn⟩ => absurd hn List.not_mem_nil

def SipTable.inserted (h : SipHashing) (a : SipDevArgs) (sockets : Sockets) (t : SipTable) :
    SipTable :=
  { buckets :=
      append (h.uHashValue a.callId).toNat (newSipNode t.next (h.uHashValue a.callId) a sockets)
        t.buckets
    next := t.next + 1 }

theorem SipTable.Placed.inserted (ht : t.Placed) (a : SipDevArgs) (sockets : Sockets) :
    (t.inserted h a sockets).Placed := by
  have hplace : (newSipNode t.next (h.uHashValue a.callId) a sockets).place =
      (t.next, (h.uHashValue a.callId).toNat) := by
    unfold SipEntry.place newSipNode
    dsimp only
    rw [UInt32.toUInt32_toInt32]
  have hfresh : ∀ y, Holds t.buckets y → y.id ≠ t.next := fun y hy => (ht.address hy).ne
  have habsent : find Prod.snd SipEntry.place
      (newSipNode t.next (h.uHashValue a.callId) a sockets).place t.buckets = none := by
    rw [ht.wellFormed.find_eq_none_iff, hplace]
    intro y hy heq
    exact hfresh y hy (congrArg Prod.fst heq)
  have hwf := ht.wellFormed.append habsent
  rw [hplace] at hwf
  refine ⟨hwf, ht.distinct.append hfresh, fun hy => ?_⟩
  rcases holds_append.mp hy with hy | rfl
  · exact (ht.address hy).trans (Nat.lt_succ_self _)
  · exact Nat.lt_succ_self _

theorem SipTable.Placed.setCmdType (ht : t.Placed) (enumCmdType : CmdType) :
    (setCmdType enumCmdType n t).Placed := by
  refine ⟨ht.wellFormed.modify fun _ => rfl, ht.distinct.modify fun _ => rfl, fun hy => ?_⟩
  obtain ⟨z, hz, rfl⟩ := holds_modify.mp hy
  have hlt := ht.address hz
  split <;> exact hlt

theorem SipTable.Placed.holds_delNode (ht : t.Placed) (hn : Holds t.buckets n) :
    Holds (delNodeFromSipHashTable n t).buckets x ↔ Holds t.buckets x ∧ x ≠ n :=
  ht.distinct.holds_remove ht.wellFormed hn rfl

theorem SipTable.Placed.delNode (ht : t.Placed) (hn : Holds t.buckets n) :
    (delNodeFromSipHashTable n t).Placed where
  wellFormed := ht.wellFormed.remove
  distinct := fun _ _ hx hx' =>
    ht.distinct ((ht.holds_delNode hn).mp hx).1 ((ht.holds_delNode hn).mp hx').1
  address := fun hx => ht.address ((ht.holds_delNode hn).mp hx).1

/-- The command of a node changes neither its address nor what it is found by. -/
theorem map_id_find_setCmdType (enumCmdType : CmdType) :
    (findNodeFromSipHashTable h callId (setCmdType enumCmdType n t)).map SipEntry.id =
      (findNodeFromSipHashTable h callId t).map SipEntry.id := by
  have hkey : ∀ x : SipEntry, (if decide (x.id = n.id) = true then
      { x with toSipNode := { x.toSipNode with enumCmdType } } else x).callId = x.callId := by
    intro x
    split <;> rfl
  unfold findNodeFromSipHashTable Call.setCmdType Support.HashTable.modify
  dsimp only
  rw [seek_map hkey, Option.map_map]
  congr 1
  funext x
  simp only [Function.comp]
  split <;> rfl

end Placed

end GbStream.Call
