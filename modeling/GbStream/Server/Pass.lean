import GbStream.Rtp.FirstPacket
import GbStream.Server.State

/-!
# The packets of a frame, one after another

Between two packets of a frame the server may do anything else.  Where nothing else happens, its
steps leave the clients of the node as `pack_ps_rtp_and_add_node` does.
-/

namespace GbStream.Server

open Support.Bytes Support.HashTable Support.Transition GbStream.Stream
open Rtp hiding StreamNode

variable {frame : Nat} {frameType : Int}

/-- The packets `index`, `index + 1` and so on of a frame. -/
def nextPackets (frame : Nat) (frameType : Int) (index : Nat) : Nat → StreamNode → StreamNode
  | 0, n => n
  | count + 1, n =>
      nextPackets frame frameType (index + 1) count (nextPacket frame index frameType n)

def sendNodes (n : StreamNode) : List ClientNode := n.listClientNodeHead.map Client.toClientNode

theorem sendNodes_nextPacket (frame index : Nat) (frameType : Int) {n : StreamNode}
    {rtpInfo : RtpInfo} {buf : List UInt8} {rtpSize : Nat}
    (hkeep : ∀ c ∈ sendNodes n, c.iDeleteFlag ≠ 1)
    (hcall : getRtpPsPack n.rtpInfoVideo n.frameBuf = some (rtpInfo, buf, some rtpSize)) :
    let packet : RtpPacket := { frame, frameType, index, bytes := slice buf rtpInfo.pRTP rtpSize }
    let n' := nextPacket frame index frameType n
    n'.rtpInfoVideo = rtpInfo ∧ n'.frameBuf = buf ∧
      sendNodes n' = (sendNodes n).map (·.offer packet frameType) := by
  intro packet n'
  have hn' : n' = { n with
      rtpInfoVideo := rtpInfo, frameBuf := buf
      listClientNodeHead := n.listClientNodeHead.map fun c =>
        if c.iDeleteFlag = 1 then c
        else { c with toClientNode := c.toClientNode.offer packet frameType } } := by
    show nextPacket frame index frameType n = _
    unfold nextPacket
    rw [hcall]
  rw [hn']
  refine ⟨rfl, rfl, ?_⟩
  unfold sendNodes
  rw [List.map_map, List.map_map]
  apply List.map_congr_left
  intro c hc
  have hne : c.iDeleteFlag ≠ 1 := hkeep c.toClientNode (List.mem_map_of_mem hc)
  simp only [Function.comp_apply, if_neg hne]

theorem rtpInfo_of_done {rtpInfo rtpInfo' : RtpInfo} {buf buf' : List UInt8}
    (h : getRtpPsPack rtpInfo buf = some (rtpInfo', buf', none)) : rtpInfo' = rtpInfo := by
  unfold getRtpPsPack at h
  split at h
  · cases h
    rfl
  · split at h
    · cases h
    · obtain ⟨_, -, heq⟩ := Option.map_eq_some_iff.mp h
      cases heq

theorem sendLoop_nextPackets (fuel : Nat) :
    ∀ {n : StreamNode} {packets packets' : List RtpPacket} {pass pass' : ClientPass}
      {rtpInfo : RtpInfo}, pass.listClientNodeHead = sendNodes n →
      pass.clientListSize = pass.listClientNodeHead.length →
      (∀ c ∈ sendNodes n, c.iDeleteFlag ≠ 1) →
      sendLoop frame frameType fuel n.rtpInfoVideo n.frameBuf packets pass =
        some (rtpInfo, packets', pass') →
      ∃ count, packets'.length = packets.length + count ∧
        (nextPackets frame frameType packets.length count n).rtpInfoVideo = rtpInfo ∧
        sendNodes (nextPackets frame frameType packets.length count n) =
          pass'.listClientNodeHead := by
  induction fuel with
  | zero =>
      intro _ _ _ _ _ _ _ _ _ h
      cases h
  | succ fuel ih =>
      intro n packets packets' pass pass' rtpInfo hclients hsize hkeep h
      obtain ⟨⟨rtpInfo₁, buf₁, size⟩, hcall, h⟩ := Option.bind_eq_some_iff.mp h
      cases size with
      | none =>
          obtain ⟨rfl, rfl, rfl⟩ : rtpInfo₁ = rtpInfo ∧ packets = packets' ∧ pass = pass' := by
            simpa using h
          exact ⟨0, rfl, (rtpInfo_of_done hcall).symm, hclients.symm⟩
      | some rtpSize =>
          obtain ⟨pass₁, hvisits, hrest⟩ := Option.bind_eq_some_iff.mp h
          obtain ⟨hrtpInfo, hbuf, hnodes⟩ :=
            sendNodes_nextPacket frame packets.length frameType hkeep hcall
          -- every client is offered the packet
          have hpass := visitClients_eq
            { frame, frameType, index := packets.length, bytes := slice buf₁ rtpInfo₁.pRTP rtpSize }
            frameType pass.listClientNodeHead [] pass.clientListSize pass.freed
            (hclients ▸ hkeep)
          rw [List.nil_append, ← hsize] at hpass
          obtain rfl := Option.some.inj (hpass.symm.trans hvisits)
          have hkeep' : ∀ c ∈ sendNodes (nextPacket frame packets.length frameType n),
              c.iDeleteFlag ≠ 1 := by
            intro c hc
            rw [hnodes] at hc
            obtain ⟨y, hy, rfl⟩ := List.mem_map.mp hc
            rw [ClientNode.iDeleteFlag_offer]
            exact hkeep y hy
          rw [← hclients] at hnodes
          rw [← hrtpInfo, ← hbuf] at hrest
          obtain ⟨count, hcount, hinfo, hlist⟩ :=
            ih (by rw [hnodes, hrtpInfo, hbuf]; rfl) (by simp [hsize]) hkeep' hrest
          rw [List.length_append, List.length_singleton] at hcount hinfo hlist
          exact ⟨count + 1, by omega, hinfo, hlist⟩

def packetEvents (frame : Nat) (frameType : Int) (index : Nat) : Nat → StreamNode → List Event
  | 0, _ => []
  | count + 1, n =>
      .sendPacket n frame index frameType ::
        packetEvents frame frameType (index + 1) count (nextPacket frame index frameType n)

/-- The node behind `setRtpPack1`. -/
def started (pack : PsFrame) (n : StreamNode) : StreamNode :=
  { n with
    rtpInfoVideo :=
      setRtpPack1 n.rtpInfoVideo pack.rtpDataBufPreSize pack.dataSize pack.timeStamp.toUInt32 true
    frameBuf := pack.dataPtr }

/-- The steps of the send task for a frame of `count` packets. -/
def frameEvents (n : StreamNode) (pack : PsFrame) (frame : Nat) (frameType : Int) (count : Nat) :
    List Event :=
  .startFrame n pack :: packetEvents frame frameType 0 count (started pack n)

section Runs

variable {cfg : Config} {s : State} {n : StreamNode}

theorem holds_modifyNode_self {t : Stream.State} (hn : Holds t.table n)
    (f : StreamNode → StreamNode) : Holds (t.modifyNode n.id f).table (f n) :=
  holds_modify.mpr ⟨n, hn, (if_pos (decide_eq_true rfl)).symm⟩

theorem reachable_packetEvents (frame : Nat) (frameType : Int) (count : Nat) :
    ∀ {index : Nat} {s : State} {n : StreamNode}, (system cfg).Reachable s →
      Holds s.stream.table n →
      let s' := (packetEvents frame frameType index count n).foldl (State.step cfg) s
      (system cfg).Reachable s' ∧
        Holds s'.stream.table (nextPackets frame frameType index count n) := by
  induction count with
  | zero => exact fun hs hn => ⟨hs, hn⟩
  | succ count ih =>
      intro index s n hs hn
      exact ih (reachable_step hs (.sendPacket n frame index frameType) trivial hn)
        (holds_modifyNode_self hn _)

/-- **A frame that nothing comes in between.**  The steps of the send task leave the node with the
clients that `pack_ps_rtp_and_add_node` leaves, each sent the same packets. -/
theorem packPsRtpAndAddNode_steps (hs : (system cfg).Reachable s) (hn : Holds s.stream.table n)
    (hkeep : ∀ c ∈ sendNodes n, c.iDeleteFlag ≠ 1) {node node' : Rtp.StreamNode}
    (hinfo : node.rtpInfoVideo = n.rtpInfoVideo) (hclients : node.listClientNodeHead = sendNodes n)
    {pack : PsFrame} (hsize : pack.dataSize > 3)
    (h : packPsRtpAndAddNode node pack frameType = some node') :
    ∃ count n', let s' := (frameEvents n pack node.frames frameType count).foldl (State.step cfg) s
      (system cfg).Reachable s' ∧ Holds s'.stream.table n' ∧
        n'.rtpInfoVideo = node'.rtpInfoVideo ∧ sendNodes n' = node'.listClientNodeHead ∧
        node'.packets.length = node.packets.length + count := by
  rw [packPsRtpAndAddNode, if_pos hsize] at h
  obtain ⟨⟨rtpInfo, packets, pass⟩, hloop, hnode⟩ := Option.bind_eq_some_iff.mp h
  obtain rfl := Option.some.inj hnode
  rw [hinfo] at hloop
  obtain ⟨count, hcount, hinfo', hlist⟩ :=
    sendLoop_nextPackets (n := started pack n) (pack.dataSize + 1) hclients rfl hkeep hloop
  obtain ⟨hs', hn'⟩ := reachable_packetEvents node.frames frameType count
    (reachable_step hs (.startFrame n pack) trivial hn) (holds_modifyNode_self hn (started pack))
  refine ⟨count, _, hs', hn', hinfo', hlist, ?_⟩
  rw [List.length_append, hcount, List.length_nil, Nat.zero_add]

end Runs

end GbStream.Server
