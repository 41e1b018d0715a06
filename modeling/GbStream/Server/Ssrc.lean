import GbStream.Server.State
import GbStream.Stream.Rtcp
import GbStream.Call.CallMap

/-!
# The SSRC of a call

A node packs its frames with the SSRC of the call it was made for, and offers the same packets
to all of its clients.  The reports of a client name the SSRC of its own call.
-/

namespace GbStream.Server

open Support.Bytes Support.CString Support.HashTable Support.Transition Call GbStream.Stream
open Rtp hiding StreamNode

/-- Every packet and every report of a client names the SSRC of the node of its call, which is
the one in the answer to the call. -/
structure Agrees (s : State) (c : Client) (x : SipEntry) : Prop where
  packets : ∀ p ∈ c.sent, slice p.bytes 8 4 = rtpWriteUint32 x.u32Ssrc
  reports : ∀ datagram, udpSendRtcpTimer c = some datagram →
    slice datagram 4 4 = rtpWriteUint32 x.u32Ssrc ∧ slice datagram 32 4 = rtpWriteUint32 x.u32Ssrc
  nodes : ∀ n, Holds s.sip.buckets n → n.id = c.call → n.u32Ssrc = x.u32Ssrc
  answered : (c.call, yLine x.toSipNode) ∈ s.answered ∧
    ∀ line, (c.call, line) ∈ s.answered → line = yLine x.toSipNode

/-- The condition on a step: a `PLAY` joins a node that is there only with the SSRC that the node
packs with. -/
def SameSsrc (cfg : Config) (s : State) : Event → Prop
  | .streamReadCb =>
      ∀ m toStream n, s.toStream = m :: toStream → m.enumCmdType = .play →
        findNodeFromStreamHashTable (cfg.hashing.getStreamHashValue (hashSource m.key)) m s.stream =
            some n →
          findClientNode n m.toSipNode.callId = none → m.u32Ssrc = n.rtpInfoVideo.rtpHdr.ssrc
  | _ => True

/-! ## Packets -/

structure NodeAgrees (n : StreamNode) : Prop where
  clients : ∀ c ∈ n.listClientNodeHead, c.u32Ssrc = n.rtpInfoVideo.rtpHdr.ssrc
  packets : ∀ c ∈ n.listClientNodeHead, ∀ p ∈ c.sent,
    slice p.bytes 8 4 = rtpWriteUint32 n.rtpInfoVideo.rtpHdr.ssrc

section Packets

variable {n : StreamNode} {rtpInfo next : RtpInfo} {buf out : List UInt8} {rtpSize : Nat}

theorem slice_ssrc (h : RtpHeader) (payload : List UInt8) :
    slice (h.toBytes ++ payload) 8 4 = rtpWriteUint32 h.ssrc := rfl

/-- **A packet** carries the SSRC of the node. -/
theorem ssrc_getRtpPsPack (hpack : getRtpPsPack rtpInfo buf = some (next, out, some rtpSize)) :
    next.rtpHdr.ssrc = rtpInfo.rtpHdr.ssrc ∧
      slice (slice out next.pRTP rtpSize) 8 4 = rtpWriteUint32 rtpInfo.rtpHdr.ssrc := by
  unfold getRtpPsPack at hpack
  split at hpack
  · cases hpack
  · split at hpack
    · cases hpack
    · obtain ⟨out', hwrite, heq⟩ := Option.map_eq_some_iff.mp hpack
      rw [Prod.mk.injEq, Prod.mk.injEq, Option.some.injEq] at heq
      obtain ⟨rfl, rfl, rfl⟩ := heq
      refine ⟨rfl, ?_⟩
      have hslice : slice out' rtpInfo.advance.pRTP
          (rtpInfo.nextHeader.toBytes.length +
            (rtpInfo.advance.endPtr - rtpInfo.advance.start)) =
          rtpInfo.nextHeader.toBytes ++ _ := slice_of_writeAt hwrite
      calc
        slice (slice out' rtpInfo.advance.pRTP _) 8 4 =
            slice (rtpInfo.nextHeader.toBytes ++ _) 8 4 :=
          congrArg (fun bytes => slice bytes 8 4) hslice
        _ = rtpWriteUint32 rtpInfo.nextHeader.ssrc := slice_ssrc _ _

theorem mem_sent_offer {c : ClientNode} {packet p : RtpPacket} {frameType : Int}
    (hp : p ∈ (c.offer packet frameType).sent) : p ∈ c.sent ∨ p = packet := by
  unfold ClientNode.offer at hp
  split at hp
  · rw [List.mem_append, List.mem_singleton] at hp
    exact hp
  · split at hp <;> exact .inl hp

theorem NodeAgrees.nextPacket (h : NodeAgrees n) (frame index : Nat) (frameType : Int) :
    NodeAgrees (nextPacket frame index frameType n) := by
  unfold Server.nextPacket
  split
  · rename_i rtpInfo buf rtpSize hpack
    obtain ⟨hssrc, hbytes⟩ := ssrc_getRtpPsPack hpack
    refine ⟨fun c hc => ?_, fun c hc p hp => ?_⟩
    · obtain ⟨y, hy, rfl⟩ := List.mem_map.mp hc
      rw [hssrc, ← h.clients y hy]
      split <;> rfl
    · obtain ⟨y, hy, rfl⟩ := List.mem_map.mp hc
      dsimp only
      rw [hssrc]
      split at hp
      · exact h.packets y hy p hp
      · rcases mem_sent_offer hp with hp | rfl
        · exact h.packets y hy p hp
        · exact hbytes
  · exact h

theorem NodeAgrees.startFrame (h : NodeAgrees n) (frame : PsFrame) :
    NodeAgrees
      { n with
        rtpInfoVideo :=
          setRtpPack1 n.rtpInfoVideo frame.rtpDataBufPreSize frame.dataSize
            frame.timeStamp.toUInt32 true
        frameBuf := frame.dataPtr } :=
  ⟨h.clients, h.packets⟩

theorem NodeAgrees.sublist (h : NodeAgrees n) {clients : List Client}
    (hsub : clients.Sublist n.listClientNodeHead) :
    NodeAgrees { n with listClientNodeHead := clients } :=
  ⟨fun c hc => h.clients c (hsub.subset hc), fun c hc => h.packets c (hsub.subset hc)⟩

theorem NodeAgrees.snoc (h : NodeAgrees n) {iUseRtcpFlag : Bool} {id : Nat} {m : SipEntry}
    (hssrc : m.u32Ssrc = n.rtpInfoVideo.rtpHdr.ssrc) :
    NodeAgrees
      { n with
        listClientNodeHead := n.listClientNodeHead ++ [newClient iUseRtcpFlag id m] } := by
  refine ⟨fun c hc => ?_, fun c hc p hp => ?_⟩
  · rcases List.mem_append.mp hc with hc | hc
    · exact h.clients c hc
    · rw [List.mem_singleton.mp hc]
      exact hssrc
  · rcases List.mem_append.mp hc with hc | hc
    · exact h.packets c hc p hp
    · rw [List.mem_singleton.mp hc] at hp
      exact absurd hp List.not_mem_nil

theorem NodeAgrees.modifyClient (h : NodeAgrees n) (id : Nat) :
    NodeAgrees (n.modifyClient id fun c => { c with iDeleteFlag := 1 }) := by
  refine ⟨fun c hc => ?_, fun c hc p hp => ?_⟩
  · obtain ⟨y, hy, rfl⟩ := List.mem_map.mp hc
    have hy := h.clients y hy
    split <;> exact hy
  · obtain ⟨y, hy, rfl⟩ := List.mem_map.mp hc
    have hy := h.packets y hy
    split at hp <;> exact hy p hp

end Packets

/-! ## Runs -/

/-- Every node agrees with its clients, and every call has been answered with its SSRC. -/
structure Ssrcs (s : State) : Prop where
  nodes : ∀ n, Holds s.stream.table n → NodeAgrees n
  made : ∀ i x, s.made[i]? = some x → (i, yLine x.toSipNode) ∈ s.answered
  answered : ∀ i line, (i, line) ∈ s.answered →
    ∃ x, s.made[i]? = some x ∧ line = yLine x.toSipNode

section Runs

variable {cfg : Config} {s : State}

theorem ssrcs_init : Ssrcs {} where
  nodes := fun _ ⟨_, hn⟩ => absurd hn List.not_mem_nil
  made := fun _ _ hx => by cases hx
  answered := fun _ _ h => absurd h List.not_mem_nil

theorem Ssrcs.invite (hs : Ssrcs s) (hsound : Sound cfg s) (pSipMsg : Invite)
    (sockets : Sockets) : Ssrcs (invite cfg pSipMsg sockets s) := by
  rcases invite_cases cfg pSipMsg sockets s with ⟨n, hfind, heq⟩ | ⟨-, n, hn, heq⟩
  · rw [heq]
    refine ⟨hs.nodes, fun i x hx => List.mem_append_left _ (hs.made i x hx), fun i line hline => ?_⟩
    rcases List.mem_append.mp hline with hline | hline
    · exact hs.answered i line hline
    · obtain ⟨rfl, rfl⟩ := Prod.mk.injEq .. ▸ List.mem_singleton.mp hline
      obtain ⟨x, hx, hcopy⟩ := hsound.nodes n (holds_of_find hfind)
      refine ⟨x, hx, ?_⟩
      rw [hcopy]
      rfl
  · rw [heq]
    have hid : n.id = s.made.length := by
      rw [hn, hsound.made]
      rfl
    refine ⟨hs.nodes, fun i x hx => ?_, fun i line hline => ?_⟩
    · rcases Nat.lt_or_ge i s.made.length with hlt | hge
      · rw [List.getElem?_append_left hlt] at hx
        exact List.mem_append_left _ (hs.made i x hx)
      · have hlast := (List.getElem?_eq_some_iff.mp hx).1
        rw [List.length_append, List.length_singleton] at hlast
        obtain rfl : i = s.made.length := by omega
        rw [List.getElem?_concat_length] at hx
        obtain rfl := Option.some.inj hx
        refine List.mem_append_right _ ?_
        rw [hid]
        exact List.mem_cons_self
    · rcases List.mem_append.mp hline with hline | hline
      · obtain ⟨x, hx, hy⟩ := hs.answered i line hline
        refine ⟨x, ?_, hy⟩
        rw [List.getElem?_append_left (List.getElem?_eq_some_iff.mp hx).1, hx]
      · obtain ⟨rfl, rfl⟩ := Prod.mk.injEq .. ▸ List.mem_singleton.mp hline
        refine ⟨n, ?_, rfl⟩
        rw [hid]
        exact List.getElem?_concat_length

/-- The node of a record has the SSRC of the record, or the condition says so. -/
theorem Ssrcs.streamReadCb (hs : Ssrcs s) (hsound : Sound cfg s)
    (hok : SameSsrc cfg s .streamReadCb) : Ssrcs (streamReadCb cfg s) := by
  rcases hread : s.toStream with _ | ⟨m, toStream⟩
  · rw [streamReadCb_nil hread]
    exact ⟨hs.nodes, hs.made, hs.answered⟩
  · rw [streamReadCb_cons hread]
    have hnodes : ∀ n,
        Holds (Stream.streamReadCb cfg.hashing cfg.iUseRtcpFlag m s.stream).table n →
          NodeAgrees n := by
      refine nodes_streamReadCb hsound.stream m hs.nodes ?_ (fun _ h => h) ?_
        fun n id h => h.modifyClient id
      · intro n hempty _
        refine ⟨?_, ?_⟩ <;> rw [hempty] <;> exact fun c hc => absurd hc List.not_mem_nil
      · intro n id hnode hclient hplay _ _ h
        refine h.snoc ?_
        rcases hnode with hfind | ⟨-, rfl⟩
        · unfold clientOf at hclient
          rw [hfind] at hclient
          exact hok m toStream n hread hplay hfind hclient
        · rfl
    exact ⟨hnodes, hs.made, hs.answered⟩

theorem Ssrcs.step (hs : Ssrcs s) (hsound : Sound cfg s) {e : Event} (hlegal : Legal cfg s e)
    (hok : SameSsrc cfg s e) : Ssrcs (s.step cfg e) := by
  cases e with
  | invite pSipMsg sockets => exact hs.invite hsound pSipMsg sockets
  | ack number =>
      rcases ack_cases cfg number s with ⟨-, heq⟩ | ⟨m, -, heq⟩
      · rw [State.step, heq]
        exact hs
      · rw [State.step, heq]
        exact ⟨hs.nodes, hs.made, hs.answered⟩
  | bye number =>
      rcases bye_cases cfg number s with ⟨-, heq⟩ | ⟨m, -, heq⟩
      · rw [State.step, heq]
        exact hs
      · rw [State.step, heq]
        exact ⟨hs.nodes, hs.made, hs.answered⟩
  | streamReadCb => exact hs.streamReadCb hsound hok
  | timeout n c beyond =>
      exact ⟨nodes_modifyNode hs.nodes fun n h => h.modifyClient c.id, hs.made, hs.answered⟩
  | sipPairReadCb =>
      rcases sipPairReadCb_cases cfg s with ⟨-, heq⟩ | ⟨arg, m, -, -, heq⟩
      · rw [State.step, heq]
        exact ⟨hs.nodes, hs.made, hs.answered⟩
      · rw [State.step, heq]
        exact ⟨hs.nodes, hs.made, hs.answered⟩
  | startFrame n frame =>
      exact ⟨nodes_modifyNode hs.nodes fun n h => h.startFrame frame, hs.made, hs.answered⟩
  | sendPacket n frame index frameType =>
      exact ⟨nodes_modifyNode hs.nodes fun n h => h.nextPacket frame index frameType, hs.made,
        hs.answered⟩
  | delClient n c =>
      obtain ⟨sockets, closedTwice, heq⟩ := delClient_eq n c s
      rw [State.step, heq]
      exact ⟨nodes_modifyNode hs.nodes fun n h => h.sublist List.eraseP_sublist, hs.made,
        hs.answered⟩
  | delNode n =>
      obtain ⟨sockets, closedTwice, heq⟩ := delNode_eq n s
      rw [State.step, heq]
      exact ⟨fun y hy => hs.nodes y ((hsound.stream.holds_delNode hlegal).mp hy).1, hs.made,
        hs.answered⟩

structure Agreeing (cfg : Config) (s : State) : Prop where
  sound : Sound cfg s
  ssrcs : Ssrcs s

theorem agreeing_reachable (hs : (system cfg).ReachableWith (SameSsrc cfg) s) :
    Agreeing cfg s := by
  refine hs.invariant (fun s hinit => ?_) fun s e s' hall hok hstep => ?_
  · obtain rfl : s = {} := hinit
    exact ⟨sound_init, ssrcs_init⟩
  · obtain ⟨hlegal, rfl⟩ := hstep
    exact ⟨hall.sound.step hlegal, hall.ssrcs.step hall.sound hlegal hok⟩

/-- **Every client agrees with its call**, in a run in which no `PLAY` joins a node with another
SSRC. -/
theorem agrees_reachable (cfg : Config) {s : State}
    (hs : (system cfg).ReachableWith (SameSsrc cfg) s) :
    ∀ c, s.Live c → ∃ x, s.made[c.call]? = some x ∧ Agrees s c x := by
  obtain ⟨hsound, hssrcs⟩ := agreeing_reachable hs
  rintro c ⟨n, hn, hc⟩
  obtain ⟨x, hx, hmade⟩ := (hsound.clients n hn).clientOf c hc
  have hssrc : c.u32Ssrc = x.u32Ssrc := congrArg Client.u32Ssrc hmade
  have hnode := hssrcs.nodes n hn
  refine ⟨x, hx, fun p hp => ?_, fun datagram hsent => ?_, fun y hy hid => ?_, hssrcs.made _ _ hx,
    fun line hline => ?_⟩
  · rw [← hssrc, hnode.clients c hc]
    exact hnode.packets c hc p hp
  · rw [udpSendRtcpTimer_eq] at hsent
    split at hsent
    · obtain rfl := Option.some.inj hsent
      rw [← hssrc]
      exact ⟨rfl, rfl⟩
    · cases hsent
  · obtain ⟨z, hz, hcopy⟩ := hsound.nodes y hy
    rw [hid, hx] at hz
    obtain rfl := Option.some.inj hz
    rw [hcopy]
    rfl
  · obtain ⟨z, hz, hline⟩ := hssrcs.answered _ _ hline
    rw [hx] at hz
    rw [hline, Option.some.inj hz]

end Runs

/-- An `INVITE` with the SSRC text `cSsrc`. -/
def inviteWith (number cSsrc : Text) : Invite :=
  { inviteOf number number with cSsrc := strncpy cSsrc 16 }

theorem sameSsrc_of {cfg : Config} {s : State}
    (hall : ∀ m ∈ s.toStream,
      (findNodeFromStreamHashTable (cfg.hashing.getStreamHashValue (hashSource m.key)) m
        s.stream).all (fun n => n.rtpInfoVideo.rtpHdr.ssrc = m.u32Ssrc) = true) :
    SameSsrc cfg s .streamReadCb := by
  intro m toStream n hread _ hfind _
  have hm : m ∈ s.toStream := by
    rw [hread]
    exact List.mem_cons_self
  have hssrc := hall m hm
  rw [hfind] at hssrc
  exact (of_decide_eq_true hssrc).symm

def shortFrame : PsFrame where
  dataPtr := List.replicate 16 0
  dataSize := 4
  timeStamp := 3600
  rtpDataBufPreSize := 12

/-- A key frame of the camera in one packet. -/
def keyFrame (cfg : Config) (frame : Nat) (s : State) : State :=
  let s := s.step cfg (.startFrame (camera cfg s) shortFrame)
  s.step cfg (.sendPacket (camera cfg s) frame 0 1)

theorem reachable_keyFrame {cfg : Config} {ok : State → Event → Prop} {s : State}
    (hs : (system cfg).ReachableWith ok s) (hstart : ∀ s n, ok s (.startFrame n shortFrame))
    (hsend : ∀ s n frame, ok s (.sendPacket n frame 0 1)) (frame : Nat)
    (h : 0 < (s.stream.table (cfg.hashing.bucket ([], 0, 0))).length) :
    (system cfg).ReachableWith ok (keyFrame cfg frame s) ∧
      0 < ((keyFrame cfg frame s).stream.table (cfg.hashing.bucket ([], 0, 0))).length := by
  have hkept : ∀ (t : Stream.State) id f, ((t.modifyNode id f).table
      (cfg.hashing.bucket ([], 0, 0))).length = (t.table (cfg.hashing.bucket ([], 0, 0))).length :=
    fun t id f => List.length_map ..
  let s₁ := s.step cfg (.startFrame (camera cfg s) shortFrame)
  have h₁ : (system cfg).ReachableWith ok s₁ := reachable_step hs _ (hstart ..) (holds_camera h)
  have hlength : 0 < (s₁.stream.table (cfg.hashing.bucket ([], 0, 0))).length :=
    h.trans_eq (hkept ..).symm
  exact ⟨reachable_step h₁ _ (hsend ..) (holds_camera hlength), hlength.trans_eq (hkept ..).symm⟩

/-- Two calls of one camera with the same SSRC.  The first key frame opens the gates of their
clients, and the second is sent to them. -/
theorem agrees_reachable_sent :
    let cfg := config true
    let x : Text := ⟨[0x61], by decide⟩
    let y : Text := ⟨[0x62], by decide⟩
    let ssrc : Text := ⟨[0x31], by decide⟩
    let s := State.step cfg {} (.invite (inviteWith x ssrc) ⟨7, 20000, 8, 20001⟩)
    let s := s.step cfg (.invite (inviteWith y ssrc) ⟨9, 20002, 10, 20003⟩)
    let s := (s.step cfg (.ack x)).step cfg .streamReadCb
    let s := (s.step cfg (.ack y)).step cfg .streamReadCb
    let s := keyFrame cfg 1 (keyFrame cfg 0 s)
    let c := viewer cfg s 1
    s.Live c ∧ c.sent.length = 1 ∧ ∃ x, s.made[c.call]? = some x ∧ Agrees s c x := by
  intro cfg x y ssrc s₁ s₂ s₄ s₆ s c
  have h₂ : (system cfg).ReachableWith (SameSsrc cfg) s₂ :=
    reachable_twoInvites (fun _ _ _ => trivial) ..
  have h₄ : (system cfg).ReachableWith (SameSsrc cfg) s₄ :=
    reachable_read h₂ (.ack x) trivial trivial (sameSsrc_of (by decide +kernel))
      (by decide +kernel)
  have h₆ : (system cfg).ReachableWith (SameSsrc cfg) s₆ :=
    reachable_read h₄ (.ack y) trivial trivial (sameSsrc_of (by decide +kernel))
      (by decide +kernel)
  obtain ⟨h₇, hlength⟩ := reachable_keyFrame h₆ (fun _ _ => trivial) (fun _ _ _ => trivial) 0
    (by decide +kernel)
  have hs : (system cfg).ReachableWith (SameSsrc cfg) s :=
    (reachable_keyFrame h₇ (fun _ _ => trivial) (fun _ _ _ => trivial) 1 hlength).1
  have hlive : s.Live c := ⟨_, holds_camera (by decide +kernel), viewer_mem (by decide +kernel)⟩
  exact ⟨hlive, by decide +kernel, agrees_reachable cfg hs c hlive⟩

/-- Two calls of one camera with different SSRCs: the second client is sent packets with the SSRC
of the first call. -/
theorem agrees_otherSsrc :
    ¬ ∀ s, (system (config true)).Reachable s →
      ∀ c, s.Live c → ∃ x, s.made[c.call]? = some x ∧ Agrees s c x := by
  intro hall
  let cfg := config true
  let x : Text := ⟨[0x61], by decide⟩
  let y : Text := ⟨[0x62], by decide⟩
  let s₁ := State.step cfg {} (.invite (inviteWith x ⟨[0x31], by decide⟩) ⟨7, 20000, 8, 20001⟩)
  let s₂ := s₁.step cfg (.invite (inviteWith y ⟨[0x32], by decide⟩) ⟨9, 20002, 10, 20003⟩)
  let s₄ := (s₂.step cfg (.ack x)).step cfg .streamReadCb
  let s₆ := (s₄.step cfg (.ack y)).step cfg .streamReadCb
  have h₂ : (system cfg).Reachable s₂ := reachable_twoInvites (fun _ _ _ => trivial) ..
  have h₄ : (system cfg).Reachable s₄ :=
    reachable_read h₂ (.ack x) trivial trivial trivial (by decide +kernel)
  have h₆ : (system cfg).Reachable s₆ :=
    reachable_read h₄ (.ack y) trivial trivial trivial (by decide +kernel)
  let s := keyFrame cfg 1 (keyFrame cfg 0 s₆)
  obtain ⟨h₇, hlength⟩ := reachable_keyFrame h₆ (fun _ _ => trivial) (fun _ _ _ => trivial) 0
    (by decide +kernel)
  have hs : (system cfg).Reachable s :=
    (reachable_keyFrame h₇ (fun _ _ => trivial) (fun _ _ _ => trivial) 1 hlength).1
  let c := viewer cfg s 1
  have hlive : s.Live c := ⟨_, holds_camera (by decide +kernel), viewer_mem (by decide +kernel)⟩
  obtain ⟨z, hz, hagrees⟩ := hall s hs c hlive
  have hssrc : (s.made[c.call]?).map (fun z => z.u32Ssrc) = some 2 := by decide +kernel
  have hsent : c.sent.map (fun p => slice p.bytes 8 4) = [[0, 0, 0, 1]] := by decide +kernel
  rw [hz, Option.map_some, Option.some.injEq] at hssrc
  have hmem : ([0, 0, 0, 1] : List UInt8) ∈ c.sent.map (fun p => slice p.bytes 8 4) := by
    rw [hsent]
    exact List.mem_singleton_self _
  obtain ⟨p, hp, hbytes⟩ := List.mem_map.mp hmem
  have hpacket := hagrees.packets p hp
  rw [hbytes, hssrc] at hpacket
  revert hpacket
  decide

end GbStream.Server
