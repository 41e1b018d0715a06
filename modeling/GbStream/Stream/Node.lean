import GbStream.Support.HashTable
import GbStream.Call.SipNode
import GbStream.Rtp.Send

/-!
# The table of stream nodes

`stream_hash.c` and the two commands of `stream_read_cb`.  The table maps a device, a channel
and a stream type to a node with its clients.
-/

namespace GbStream.Stream

open Support.Bytes Support.CString Support.HashTable Call Rtp

/-! ## Nodes and clients -/

/-- `RTP_CLIENT_TRANSPORT_OBJ` at the address `id`; `call` is the address of the SIP node that the
message it was made for was copied from. -/
structure Client extends ClientNode where
  id : Nat
  call : Nat
  cCallId : CharArray 32
  u32Ssrc : UInt32
  iUdpVideoFd : Int32
  iUdpRtcpSockFd : Int32
  deriving DecidableEq, Repr

/-- The string that `cCallId` is read as; the pointer behind it is null. -/
def Client.callId (c : Client) : List UInt8 := c.cCallId.string (List.replicate 8 0)

/-- `STREAM_NODE_OBJ` at the address `id`, with the buffer of the frame its send task is at. -/
structure StreamNode where
  id : Nat
  uStreamNodeHashValue : UInt32
  cDevId : CharArray 128
  cDevIp : CharArray 16
  iDevPort : Int32
  iDevChnl : Int32
  iStreamType : Int32
  rtpInfoVideo : RtpInfo
  frameBuf : List UInt8 := []
  listClientNodeHead : List Client := []

abbrev Key := List UInt8 × Int32 × Int32

/-- What `find_dev_id_chnl_stream_key` compares. -/
def StreamNode.key (n : StreamNode) : Key :=
  (n.cDevId.string (n.cDevIp.bytes ++ SipNode.int n.iDevPort ++ SipNode.int n.iDevChnl ++
    SipNode.int n.iStreamType), n.iDevChnl, n.iStreamType)

end GbStream.Stream

namespace GbStream.Call

/-- The device, the channel and the stream type that a message asks for. -/
def SipNode.key (n : SipNode) : Stream.Key := (n.devId, n.iDevChnl, n.iStreamType)

end GbStream.Call

namespace GbStream.Stream

open Support.Bytes Support.CString Support.HashTable Call Rtp

/-! ## The table -/

/-- The chosen hash function and the length of the table. -/
structure Hashing where
  pHashFunc : List UInt8 → UInt32
  uStreamHashTableLen : UInt32

/-- `%d` -/
def decimal (n : Int32) : List UInt8 := (toString n.toInt).toList.map fun c => UInt8.ofNat c.toNat

/-- The string in `cHashSource`, where `snprintf` cuts it. -/
def hashSource (k : Key) : List UInt8 :=
  (k.1 ++ [0x5f] ++ decimal k.2.1 ++ [0x5f] ++ decimal k.2.2).take 127

def Hashing.getStreamHashValue (h : Hashing) (pKey : List UInt8) : UInt32 :=
  h.pHashFunc pKey % h.uStreamHashTableLen

def Hashing.bucket (h : Hashing) (k : Key) : Nat := (h.getStreamHashValue (hashSource k)).toNat

/-- The table, the next free address, and for every client that has been added the message that
added it, its node and its address. -/
structure State where
  table : Buckets StreamNode := fun _ => []
  next : Nat := 0
  added : List (SipEntry × Nat × Nat) := []

def createStreamNode (id : Nat) (uHashValue : UInt32) (pSipNode : SipEntry) : StreamNode where
  id := id
  uStreamNodeHashValue := uHashValue
  cDevId := strncpy pSipNode.devId 128
  iDevChnl := pSipNode.iDevChnl
  iStreamType := pSipNode.iStreamType
  cDevIp :=
    strncpy
      (pSipNode.cStreamSourceIp.string
        (SipNode.int pSipNode.iStreamSourcePort ++ SipNode.int pSipNode.iSipNodeHashValue)) 16
  iDevPort := pSipNode.iStreamSourcePort
  rtpInfoVideo := rtpInfoInit 96 pSipNode.u32Ssrc

def findNodeFromStreamHashTable (uHashValue : UInt32) (pSipNode : SipEntry) (s : State) :
    Option StreamNode :=
  seek StreamNode.key pSipNode.key (s.table uHashValue.toNat)

def insertNodeToStreamHashTable (uHashValue : UInt32) (pSipNode : SipEntry) (s : State) :
    State × StreamNode :=
  match findNodeFromStreamHashTable uHashValue pSipNode s with
  | some pStreamNode => (s, pStreamNode)
  | none =>
      let pStreamNode := createStreamNode s.next uHashValue pSipNode
      ({ s with table := append uHashValue.toNat pStreamNode s.table, next := s.next + 1 },
        pStreamNode)

def delNodeFromStreamHashTable (pStreamNode : StreamNode) (s : State) : State :=
  { s with
    table :=
      remove pStreamNode.uStreamNodeHashValue.toNat (fun n => n.id = pStreamNode.id) s.table }

def findClientNode (pStreamNode : StreamNode) (pCallId : List UInt8) : Option Client :=
  seek Client.callId pCallId pStreamNode.listClientNodeHead

def State.modifyNode (id : Nat) (f : StreamNode → StreamNode) (s : State) : State :=
  { s with table := modify (fun n => n.id = id) f s.table }

def StreamNode.modifyClient (id : Nat) (f : Client → Client) (n : StreamNode) : StreamNode :=
  { n with listClientNodeHead := n.listClientNodeHead.map fun c => if c.id = id then f c else c }

/-! ## The commands -/

/-- The client that `PLAY` allocates. -/
def newClient (iUseRtcpFlag : Bool) (id : Nat) (stSipNode : SipEntry) : Client where
  id := id
  call := stSipNode.id
  cCallId := strncpy stSipNode.toSipNode.callId 32
  u32Ssrc := stSipNode.u32Ssrc
  iUdpVideoFd := stSipNode.iUdpSendStreamSockFd
  iUdpRtcpSockFd := if iUseRtcpFlag then stSipNode.iUdpRtcpSockFd else 0

variable (h : Hashing) (iUseRtcpFlag : Bool)

def play (stSipNode : SipEntry) (s : State) : State :=
  let uHashValue := h.getStreamHashValue (hashSource stSipNode.key)
  let (s, pStreamNode) := insertNodeToStreamHashTable uHashValue stSipNode s
  match findClientNode pStreamNode stSipNode.toSipNode.callId with
  | some _ => s
  | none =>
      let pClientNode := newClient iUseRtcpFlag s.next stSipNode
      { s.modifyNode pStreamNode.id fun n =>
          { n with listClientNodeHead := n.listClientNodeHead ++ [pClientNode] } with
        next := s.next + 1
        added := s.added ++ [(stSipNode, pStreamNode.id, pClientNode.id)] }

def stop (stSipNode : SipEntry) (s : State) : State :=
  let uHashValue := h.getStreamHashValue (hashSource stSipNode.key)
  match findNodeFromStreamHashTable uHashValue stSipNode s with
  | none => s
  | some pStreamNode =>
      match findClientNode pStreamNode stSipNode.toSipNode.callId with
      | none => s
      | some pClientNode =>
          s.modifyNode pStreamNode.id fun n =>
            n.modifyClient pClientNode.id fun c => { c with iDeleteFlag := 1 }

/-- `stream_read_cb`, once it has read a record. -/
def streamReadCb (stSipNode : SipEntry) (s : State) : State :=
  match stSipNode.enumCmdType with
  | .play => play h iUseRtcpFlag stSipNode s
  | .stop => stop h stSipNode s
  | .unset => s

/-! ## Where the nodes lie -/

def StreamNode.place (n : StreamNode) : Nat × Nat := (n.id, n.uStreamNodeHashValue.toNat)

/-- Every node lies in the bucket that it is removed from, whatever its key is read as. -/
structure State.Placed (s : State) : Prop where
  wellFormed : WellFormed Prod.snd StreamNode.place s.table
  distinct : Distinct StreamNode.id s.table
  address : ∀ {n}, Holds s.table n → n.id < s.next

section Placed

variable {s : State} {n x : StreamNode} {m : SipEntry} {f : StreamNode → StreamNode}

theorem placed_init : State.Placed {} where
  wellFormed := wellFormed_empty
  distinct := fun _ _ ⟨_, hn⟩ => absurd hn List.not_mem_nil
  address := fun ⟨_, hn⟩ => absurd hn List.not_mem_nil

structure Keeps (f : StreamNode → StreamNode) : Prop where
  id : ∀ n, (f n).id = n.id
  place : ∀ n, (f n).place = n.place

theorem State.Placed.modifyNode (hs : s.Placed) (hf : Keeps f) (id : Nat) {next : Nat}
    (hnext : s.next ≤ next) {added : List (SipEntry × Nat × Nat)} :
    State.Placed { s.modifyNode id f with next := next, added := added } where
  wellFormed := hs.wellFormed.modify hf.place
  distinct := hs.distinct.modify hf.id
  address := by
    intro x hx
    obtain ⟨n, hn, rfl⟩ := holds_modify.mp hx
    have hlt := (hs.address hn).trans_le hnext
    split
    · rw [hf.id]
      exact hlt
    · exact hlt

theorem State.Placed.holds_modifyNode (hs : s.Placed) (hn : Holds s.table n) :
    Holds (s.modifyNode n.id f).table x ↔ x = f n ∨ Holds s.table x ∧ x ≠ n :=
  hs.distinct.holds_modify hn

theorem State.Placed.holds_delNode (hs : s.Placed) (hn : Holds s.table n) :
    Holds (delNodeFromStreamHashTable n s).table x ↔ Holds s.table x ∧ x ≠ n :=
  hs.distinct.holds_remove hs.wellFormed hn rfl

theorem State.Placed.delNode (hs : s.Placed) (hn : Holds s.table n) :
    (delNodeFromStreamHashTable n s).Placed where
  wellFormed := hs.wellFormed.remove
  distinct := fun _ _ hx hx' =>
    hs.distinct ((hs.holds_delNode hn).mp hx).1 ((hs.holds_delNode hn).mp hx').1
  address := fun hx => hs.address ((hs.holds_delNode hn).mp hx).1

/-- **The node of a message**: the one that is found, or a new one. -/
theorem State.Placed.insertNode (hs : s.Placed) (uHashValue : UInt32) (m : SipEntry) :
    ∃ s' n, insertNodeToStreamHashTable uHashValue m s = (s', n) ∧ s'.Placed ∧
      Holds s'.table n ∧ s.next ≤ s'.next ∧ s'.added = s.added ∧
      (findNodeFromStreamHashTable uHashValue m s = some n ∧ s' = s ∨
        findNodeFromStreamHashTable uHashValue m s = none ∧
          n = createStreamNode s.next uHashValue m ∧
          ∀ x, Holds s'.table x ↔ Holds s.table x ∨ x = n) := by
  unfold insertNodeToStreamHashTable
  rcases hfind : findNodeFromStreamHashTable uHashValue m s with _ | n
  · have hplace : (createStreamNode s.next uHashValue m).place = (s.next, uHashValue.toNat) := rfl
    have hfresh : ∀ y, Holds s.table y → y.id ≠ s.next := fun y hy => (hs.address hy).ne
    have habsent : find Prod.snd StreamNode.place (createStreamNode s.next uHashValue m).place
        s.table = none := by
      rw [hs.wellFormed.find_eq_none_iff, hplace]
      intro y hy heq
      exact hfresh y hy (congrArg Prod.fst heq)
    refine ⟨_, _, rfl, ⟨hs.wellFormed.append habsent, hs.distinct.append hfresh, fun hy => ?_⟩,
      holds_append.mpr (.inr rfl), Nat.le_succ _, rfl, .inr ⟨rfl, rfl, fun x => holds_append⟩⟩
    rcases holds_append.mp hy with hy | rfl
    · exact (hs.address hy).trans (Nat.lt_succ_self _)
    · exact Nat.lt_succ_self _
  · exact ⟨s, n, rfl, hs, ⟨_, (mem_of_seek hfind).1⟩, Nat.le_refl _, rfl, .inl ⟨rfl, rfl⟩⟩

/-- The clients of the node of a `PLAY`. -/
def StreamNode.withClient (iUseRtcpFlag : Bool) (id : Nat) (m : SipEntry) (n : StreamNode) :
    StreamNode :=
  match findClientNode n m.toSipNode.callId with
  | some _ => n
  | none => { n with listClientNodeHead := n.listClientNodeHead ++ [newClient iUseRtcpFlag id m] }

/-- **`PLAY`**: the node that is found, or a new one, gets a client unless it has one. -/
theorem State.Placed.play (hs : s.Placed) (h : Hashing) (iUseRtcpFlag : Bool) (m : SipEntry) :
    (play h iUseRtcpFlag m s).Placed ∧ ∃ n id,
      (findNodeFromStreamHashTable (h.getStreamHashValue (hashSource m.key)) m s = some n ∨
        findNodeFromStreamHashTable (h.getStreamHashValue (hashSource m.key)) m s = none ∧
          n = createStreamNode s.next (h.getStreamHashValue (hashSource m.key)) m) ∧
      s.next ≤ id ∧ id ≤ (Stream.play h iUseRtcpFlag m s).next ∧
      (findClientNode n m.toSipNode.callId = none →
        id < (Stream.play h iUseRtcpFlag m s).next ∧
          (Stream.play h iUseRtcpFlag m s).added = s.added ++ [(m, n.id, id)]) ∧
      (findClientNode n m.toSipNode.callId ≠ none →
        (Stream.play h iUseRtcpFlag m s).added = s.added) ∧
      ∀ x, Holds (Stream.play h iUseRtcpFlag m s).table x ↔
        x = n.withClient iUseRtcpFlag id m ∨ Holds s.table x ∧ x ≠ n := by
  obtain ⟨s', n, hinsert, hs', hn, hnext, hadded, hcases⟩ :=
    hs.insertNode (h.getStreamHashValue (hashSource m.key)) m
  have hwhich : findNodeFromStreamHashTable (h.getStreamHashValue (hashSource m.key)) m s =
      some n ∨ findNodeFromStreamHashTable (h.getStreamHashValue (hashSource m.key)) m s = none ∧
        n = createStreamNode s.next (h.getStreamHashValue (hashSource m.key)) m := by
    rcases hcases with ⟨hfound, -⟩ | ⟨hnone, hnew, -⟩
    · exact .inl hfound
    · exact .inr ⟨hnone, hnew⟩
  have hothers : ∀ x, Holds s'.table x ∧ x ≠ n ↔ Holds s.table x ∧ x ≠ n := by
    intro x
    rcases hcases with ⟨-, rfl⟩ | ⟨-, -, hholds⟩
    · exact Iff.rfl
    · rw [hholds]
      exact and_congr_left fun hne => or_iff_left hne
  have hsame : ∀ x, Holds s'.table x ↔ x = n ∨ Holds s'.table x ∧ x ≠ n := by
    intro x
    by_cases hxn : x = n
    · simp only [hxn, hn, true_or]
    · simp only [hxn, false_or, ne_eq, not_false_eq_true, and_true]
  unfold Stream.play
  dsimp only
  rw [hinsert]
  dsimp only
  rcases hclient : findClientNode n m.toSipNode.callId with _ | c
  · dsimp only
    refine ⟨?_, n, s'.next, hwhich, hnext, Nat.le_succ _,
      fun _ => ⟨Nat.lt_succ_self _, by rw [hadded]; rfl⟩, fun hsome => absurd hclient hsome,
      fun x => ?_⟩
    · refine hs'.modifyNode ?_ _ (Nat.le_succ _)
      exact ⟨fun _ => rfl, fun _ => rfl⟩
    · rw [StreamNode.withClient, hclient, ← hothers x]
      exact hs'.holds_modifyNode hn
  · refine ⟨hs', n, s'.next, hwhich, hnext, Nat.le_refl _, fun hnone => ?_, fun _ => hadded,
      fun x => ?_⟩
    · rw [hclient] at hnone
      cases hnone
    · rw [StreamNode.withClient, hclient, ← hothers x]
      exact hsame x

theorem State.Placed.added_subset_play (hs : s.Placed) (h : Hashing) (iUseRtcpFlag : Bool)
    (m : SipEntry) : s.added ⊆ (Stream.play h iUseRtcpFlag m s).added := by
  obtain ⟨-, n, id, -, -, -, hnew, hkept, -⟩ := hs.play h iUseRtcpFlag m
  by_cases hclient : findClientNode n m.toSipNode.callId = none
  · rw [(hnew hclient).2]
    exact List.subset_append_left _ _
  · rw [hkept hclient]
    exact List.Subset.refl _

/-- **`STOP`**: the delete flag of a client is set, or nothing happens. -/
theorem State.Placed.stop (hs : s.Placed) (h : Hashing) (m : SipEntry) :
    (stop h m s).Placed ∧ (Stream.stop h m s).next = s.next ∧
      (Stream.stop h m s).added = s.added ∧
      (Stream.stop h m s = s ∧
          (∀ n c, findNodeFromStreamHashTable (h.getStreamHashValue (hashSource m.key)) m s =
            some n → findClientNode n m.toSipNode.callId ≠ some c) ∨
        ∃ n c, findNodeFromStreamHashTable (h.getStreamHashValue (hashSource m.key)) m s = some n ∧
          findClientNode n m.toSipNode.callId = some c ∧
          ∀ x, Holds (Stream.stop h m s).table x ↔
            x = n.modifyClient c.id (fun c => { c with iDeleteFlag := 1 }) ∨
              Holds s.table x ∧ x ≠ n) := by
  unfold Stream.stop
  dsimp only
  rcases hfind : findNodeFromStreamHashTable (h.getStreamHashValue (hashSource m.key)) m s
    with _ | n
  · exact ⟨hs, rfl, rfl, .inl ⟨rfl, fun n c hn => by cases hn⟩⟩
  · dsimp only
    rcases hclient : findClientNode n m.toSipNode.callId with _ | c
    · refine ⟨hs, rfl, rfl, .inl ⟨rfl, fun n' c hn => ?_⟩⟩
      rw [← Option.some.inj hn, hclient]
      exact Option.some_ne_none c |>.symm
    · dsimp only
      refine ⟨?_, rfl, rfl, .inr ⟨n, c, rfl, hclient, fun x => ?_⟩⟩
      · refine hs.modifyNode ?_ _ (Nat.le_refl _)
        exact ⟨fun _ => rfl, fun _ => rfl⟩
      · exact hs.holds_modifyNode ⟨_, (mem_of_seek hfind).1⟩

end Placed

end GbStream.Stream
