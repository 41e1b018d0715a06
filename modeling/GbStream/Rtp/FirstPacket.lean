import GbStream.Rtp.Fragment
import GbStream.Rtp.Send

/-!
# The first packet of a viewer

The gate `iSendIframeFlag` of a client is opened by the first packet of an I frame, but
that packet itself is not sent.  What a client receives is therefore a run of packets
without gaps that starts one packet behind the start of an I frame.
-/

namespace GbStream.Rtp

/-! ## One packet and one frame -/

section Clients

variable (packet : RtpPacket) (frameType : Int)

/-- The pass over clients none of which is to be deleted, from the position behind
`visited`. -/
theorem visitClients_eq (rest : List ClientNode) :
    ∀ (visited : List ClientNode) (clientListSize : Nat) (freed : List ClientNode),
      (∀ client ∈ rest, client.iDeleteFlag ≠ 1) →
      visitClients packet frameType rest.length
          ⟨visited ++ rest, clientListSize, visited.length, freed⟩ =
        some ⟨visited ++ rest.map (·.offer packet frameType), clientListSize,
          visited.length + rest.length, freed⟩ := by
  induction rest with
  | nil => exact fun _ _ _ _ => rfl
  | cons client rest ih =>
      intro visited clientListSize freed hkeep
      have hclient : client.iDeleteFlag ≠ 1 := hkeep client List.mem_cons_self
      have hvisit : visitClient packet frameType
          ⟨visited ++ client :: rest, clientListSize, visited.length, freed⟩ =
          some ⟨(visited ++ [client.offer packet frameType]) ++ rest, clientListSize,
            (visited ++ [client.offer packet frameType]).length, freed⟩ := by
        simp [visitClient, hclient]
      have hrest := ih (visited ++ [client.offer packet frameType]) clientListSize freed
        fun other hother => hkeep other (List.mem_cons_of_mem _ hother)
      rw [List.length_cons, visitClients, hvisit]
      simp only [Option.bind_eq_bind, Option.bind_some, hrest]
      simp [Nat.add_comm, Nat.add_left_comm]

@[simp] theorem ClientNode.iDeleteFlag_offer (client : ClientNode) :
    (client.offer packet frameType).iDeleteFlag = client.iDeleteFlag := by
  unfold ClientNode.offer
  split
  · rfl
  · split <;> rfl

end Clients

def ClientNode.offers (client : ClientNode) (packets : List RtpPacket) : ClientNode :=
  packets.foldl (fun client packet => client.offer packet packet.frameType) client

@[simp] theorem ClientNode.offers_nil (client : ClientNode) : client.offers [] = client := rfl

@[simp] theorem ClientNode.offers_cons (client : ClientNode) (packet : RtpPacket)
    (packets : List RtpPacket) :
    client.offers (packet :: packets) = (client.offer packet packet.frameType).offers packets := rfl

theorem ClientNode.offers_append (client : ClientNode) (packets packets' : List RtpPacket) :
    client.offers (packets ++ packets') = (client.offers packets).offers packets' :=
  List.foldl_append

@[simp] theorem ClientNode.iDeleteFlag_offers (packets : List RtpPacket) :
    ∀ client : ClientNode, (client.offers packets).iDeleteFlag = client.iDeleteFlag := by
  induction packets with
  | nil => exact fun _ => rfl
  | cons packet packets ih =>
      intro client
      rw [ClientNode.offers_cons, ih, ClientNode.iDeleteFlag_offer]

def placed (frame : Nat) (frameType : Int) (first : Nat) (packets : List (List UInt8)) :
    List RtpPacket :=
  (packets.zipIdx first).map fun (bytes, index) => { frame, frameType, index, bytes }

theorem sendLoop_eq (frame : Nat) (frameType : Int) (fuel : Nat) :
    ∀ (packets : List RtpPacket) (pass : ClientPass) {rtpInfo last : RtpInfo}
      {buf lastBuf : List UInt8} {drained : List (List UInt8)},
      drainPacks fuel rtpInfo buf = some (drained, last, lastBuf) →
      pass.clientListSize = pass.listClientNodeHead.length →
      (∀ client ∈ pass.listClientNodeHead, client.iDeleteFlag ≠ 1) →
      ∃ i, sendLoop frame frameType fuel rtpInfo buf packets pass =
        some (last, packets ++ placed frame frameType packets.length drained,
          ⟨pass.listClientNodeHead.map
              (·.offers (placed frame frameType packets.length drained)),
            pass.clientListSize, i, pass.freed⟩) := by
  induction fuel with
  | zero =>
      intro packets pass rtpInfo last buf lastBuf drained hdrain
      cases hdrain
  | succ fuel ih =>
      intro packets pass rtpInfo last buf lastBuf drained hdrain hsize hkeep
      simp only [drainPacks, Option.bind_eq_bind, Option.bind_eq_some_iff] at hdrain
      obtain ⟨⟨rtpInfo', buf', size⟩, hpack, hdrain⟩ := hdrain
      cases size with
      | none =>
          simp only [Option.some.injEq, Prod.mk.injEq] at hdrain
          obtain ⟨rfl, rfl, rfl⟩ := hdrain
          refine ⟨pass.i, ?_⟩
          simp [sendLoop, hpack, placed]
      | some rtpSize =>
          obtain ⟨⟨drained', last', lastBuf'⟩, hdrain', heq⟩ := Option.bind_eq_some_iff.mp hdrain
          simp only [Option.some.injEq, Prod.mk.injEq] at heq
          obtain ⟨rfl, rfl, rfl⟩ := heq
          let packet : RtpPacket :=
            { frame, frameType, index := packets.length
              bytes := Support.Bytes.slice buf' rtpInfo'.pRTP rtpSize }
          have hvisit := visitClients_eq packet frameType
            pass.listClientNodeHead [] pass.clientListSize pass.freed hkeep
          simp only [List.nil_append, List.length_nil, Nat.zero_add] at hvisit
          obtain ⟨i, hloop⟩ := ih (packets ++ [packet])
            ⟨pass.listClientNodeHead.map (·.offer packet frameType),
              pass.clientListSize, pass.listClientNodeHead.length, pass.freed⟩ hdrain'
            (by simpa using hsize) (by simpa using hkeep)
          refine ⟨i, ?_⟩
          simp only [sendLoop, hpack, Option.bind_eq_bind, Option.bind_some, hsize, packet]
            at hvisit hloop ⊢
          rw [hvisit, Option.bind_some, hloop]
          simp [placed, Function.comp_def]

/-- A frame as the send task passes it on, with the type it is passed with. -/
structure VideoFrame extends PsFrame where
  frameType : Int
  valid : toPsFrame.Valid

/-- How many packets the frame gives; nothing is sent of up to three bytes. -/
def VideoFrame.packetCount (frame : VideoFrame) : Nat :=
  if frame.dataSize > 3 then packCount frame.dataSize else 0

structure VideoFrame.Packets (frame : VideoFrame) (packets : List RtpPacket) : Prop where
  length : packets.length = frame.packetCount
  place : ∀ (k : Nat) (packet : RtpPacket), packets[k]? = some packet →
    packet.frameType = frame.frameType ∧ packet.index = k

theorem placed_packets (frame : VideoFrame) (number : Nat) {drained : List (List UInt8)}
    (hlength : drained.length = frame.packetCount) :
    frame.Packets (placed number frame.frameType 0 drained) := by
  refine ⟨by simpa [placed] using hlength, fun k packet hpacket => ?_⟩
  simp only [placed, List.getElem?_map, List.getElem?_zipIdx, Option.map_eq_some_iff] at hpacket
  obtain ⟨_, ⟨bytes, _, rfl⟩, rfl⟩ := hpacket
  exact ⟨rfl, Nat.zero_add k⟩

variable {ssrc : UInt32}

structure StreamNode.Idle (ssrc : UInt32) (node : StreamNode) : Prop where
  hdr : Video ssrc node.rtpInfoVideo.rtpHdr
  keep : ∀ client ∈ node.listClientNodeHead, client.iDeleteFlag ≠ 1

theorem packPsRtpAndAddNode_spec {node : StreamNode} (hidle : node.Idle ssrc)
    (frame : VideoFrame) :
    ∃ (node' : StreamNode) (packets : List RtpPacket),
      packPsRtpAndAddNode node frame.toPsFrame frame.frameType = some node' ∧
      frame.Packets packets ∧ node'.Idle ssrc ∧
      node'.packets = node.packets ++ packets ∧
      node'.listClientNodeHead = node.listClientNodeHead.map (·.offers packets) := by
  by_cases hsize : frame.dataSize > 3
  · have hseq : node.rtpInfoVideo.rtpHdr.seqNo.toNat =
        node.rtpInfoVideo.rtpHdr.seqNo.toNat % 65536 :=
      (Nat.mod_eq_of_lt node.rtpInfoVideo.rtpHdr.seqNo.toNat_lt).symm
    obtain ⟨drained, last, lastBuf, hpack, hdrained, hdr, -⟩ :=
      packFrame_spec frame.valid hidle.hdr hseq
    have hlength : drained.length = frame.packetCount := by
      rw [VideoFrame.packetCount, if_pos hsize]
      simpa using congrArg List.length hdrained
    obtain ⟨i, hloop⟩ := sendLoop_eq node.frames frame.frameType (frame.dataSize + 1)
      [] ⟨node.listClientNodeHead, node.listClientNodeHead.length, 0, node.freed⟩ hpack rfl
      hidle.keep
    refine ⟨
      { rtpInfoVideo := last, frames := node.frames + 1, freed := node.freed
        listClientNodeHead := node.listClientNodeHead.map
          (·.offers (placed node.frames frame.frameType 0 drained))
        packets := node.packets ++ placed node.frames frame.frameType 0 drained },
      placed node.frames frame.frameType 0 drained, ?_,
      placed_packets frame node.frames hlength, ⟨hdr, ?_⟩, rfl, rfl⟩
    · rw [packPsRtpAndAddNode, if_pos hsize]
      simp only [hloop, Option.bind_eq_bind, Option.bind_some, List.nil_append,
        List.length_nil]
    · simpa using hidle.keep
  · refine ⟨_, [], if_neg hsize, ⟨?_, fun k packet hpacket => ?_⟩, ⟨hidle.hdr, hidle.keep⟩,
      (List.append_nil _).symm, ?_⟩
    · rw [VideoFrame.packetCount, if_neg hsize, List.length_nil]
    · simp at hpacket
    · simp

/-! ## Runs -/

/-- What happens to a stream node between two frames or by one. -/
inductive Event
  | join
  | frame (frame : VideoFrame)

def step (node : StreamNode) : Event → Option StreamNode
  | .join => some (listAppendClient node)
  | .frame frame => packPsRtpAndAddNode node frame.toPsFrame frame.frameType

def run (node : StreamNode) (events : List Event) : Option StreamNode := events.foldlM step node

def framesOf : List Event → List VideoFrame
  | [] => []
  | .join :: events => framesOf events
  | .frame frame :: events => frame :: framesOf events

/-- How many clients join. -/
def joins : List Event → Nat
  | [] => 0
  | .join :: events => joins events + 1
  | .frame _ :: events => joins events

/-- The frames behind the join of client `i`. -/
def framesAfter : List Event → Nat → List VideoFrame
  | [], _ => []
  | .join :: events, 0 => framesOf events
  | .join :: events, i + 1 => framesAfter events i
  | .frame _ :: events, i => framesAfter events i

theorem listAppendClient_idle {node : StreamNode} (hidle : node.Idle ssrc) :
    (listAppendClient node).Idle ssrc := by
  refine ⟨hidle.hdr, fun client hclient => ?_⟩
  rcases List.mem_append.mp hclient with hold | hnew
  · exact hidle.keep client hold
  · obtain rfl := List.mem_singleton.mp hnew
    decide

/-- A run offers the packets of its frames to the clients that are there at its start,
and to a client that joins the packets of the frames behind its join. -/
theorem run_spec (events : List Event) :
    ∀ {node : StreamNode}, node.Idle ssrc →
      ∃ (node' : StreamNode) (packets : List (List RtpPacket)) (joined : List ClientNode),
        run node events = some node' ∧
        List.Forall₂ VideoFrame.Packets (framesOf events) packets ∧
        node'.packets = node.packets ++ packets.flatten ∧
        node'.listClientNodeHead =
          node.listClientNodeHead.map (·.offers packets.flatten) ++ joined ∧
        joined.length = joins events ∧
        ∀ i client, joined[i]? = some client →
          ∃ behind, behind <:+ packets ∧
            List.Forall₂ VideoFrame.Packets (framesAfter events i) behind ∧
            client = ({} : ClientNode).offers behind.flatten := by
  induction events with
  | nil =>
      intro node _
      exact ⟨node, [], [], rfl, .nil, by simp, by simp, rfl, fun i client h => by simp at h⟩
  | cons event events ih =>
      intro node hidle
      cases event with
      | join =>
          obtain ⟨node', packets, joined, hrun, hpackets, hall, hclients, hjoined, hnew⟩ :=
            ih (listAppendClient_idle hidle)
          refine ⟨node', packets, ({} : ClientNode).offers packets.flatten :: joined, ?_, hpackets,
            hall, ?_, congrArg Nat.succ hjoined, ?_⟩
          · simpa [run, step] using hrun
          · rw [hclients]
            simp [listAppendClient]
          · intro i client hclient
            cases i with
            | zero =>
                refine ⟨packets, List.suffix_refl _, hpackets, ?_⟩
                simpa using hclient.symm
            | succ i => exact hnew i client hclient
      | frame frame =>
          obtain ⟨node₁, first, hpack, hfirst, hidle₁, hall₁, hclients₁⟩ :=
            packPsRtpAndAddNode_spec hidle frame
          obtain ⟨node', packets, joined, hrun, hpackets, hall, hclients, hjoined, hnew⟩ :=
            ih hidle₁
          refine ⟨node', first :: packets, joined, ?_, .cons hfirst hpackets, ?_, ?_, hjoined, ?_⟩
          · simpa [run, step, hpack] using hrun
          · rw [hall, hall₁, List.flatten_cons, List.append_assoc]
          · rw [hclients, hclients₁, List.map_map]
            simp only [List.flatten_cons, ClientNode.offers_append, Function.comp_def]
          · intro i client hclient
            obtain ⟨behind, hsuffix, hbehind, heq⟩ := hnew i client hclient
            exact ⟨behind, hsuffix.trans (List.suffix_cons _ _), hbehind, heq⟩

/-! ## One client -/

theorem ClientNode.sent_offers_of_open (packets : List RtpPacket) :
    ∀ client : ClientNode, client.iSendIframeFlag = 1 →
      (client.offers packets).sent = client.sent ++ packets := by
  induction packets with
  | nil => exact fun _ _ => (List.append_nil _).symm
  | cons packet packets ih =>
      intro client hopen
      have hoffer : client.offer packet packet.frameType =
          { client with sent := client.sent ++ [packet] } := if_pos hopen
      rw [ClientNode.offers_cons, hoffer,
        ih { client with sent := client.sent ++ [packet] } hopen, List.append_assoc]
      rfl

theorem ClientNode.sent_offers (packets : List RtpPacket) :
    (({} : ClientNode).offers packets).sent =
      (packets.dropWhile fun packet => packet.frameType ≠ 1).tail := by
  induction packets with
  | nil => rfl
  | cons packet packets ih =>
      rw [ClientNode.offers_cons]
      by_cases htype : packet.frameType = 1
      · have hoffer : ({} : ClientNode).offer packet packet.frameType =
            { iSendIframeFlag := 1 } := by simp [ClientNode.offer, htype]
        rw [hoffer, ClientNode.sent_offers_of_open _ _ rfl]
        simp [htype]
      · have hoffer : ({} : ClientNode).offer packet packet.frameType = {} := by
          simp [ClientNode.offer, htype]
        rw [hoffer, ih]
        simp [htype]

/-- The first packet, if there is one, starts an I frame. -/
def StartsIFrame (packets : List RtpPacket) : Prop :=
  ∀ packet, packets.head? = some packet → packet.frameType = 1 ∧ packet.index = 0

/-- No I frame is among the frames, or the first of them is a single packet that no
other frame than an I frame follows.  Frames of up to three bytes do not count. -/
def FirstIFrameFits (frames : List VideoFrame) : Prop :=
  match (frames.filter fun frame => frame.dataSize > 3).dropWhile
      fun frame => frame.frameType ≠ 1 with
  | [] => True
  | frame :: frames =>
      frame.dataSize ≤ 1400 ∧ ∀ next, frames.head? = some next → next.frameType = 1

theorem VideoFrame.packetCount_pos {frame : VideoFrame} (hsize : frame.dataSize > 3) :
    0 < frame.packetCount := by
  rw [VideoFrame.packetCount, if_pos hsize]
  unfold packCount
  omega

theorem flatten_filter {frames : List VideoFrame} {packets : List (List RtpPacket)}
    (h : List.Forall₂ VideoFrame.Packets frames packets) :
    ∃ packets', packets'.flatten = packets.flatten ∧
      List.Forall₂ VideoFrame.Packets (frames.filter fun frame => frame.dataSize > 3) packets' := by
  induction h with
  | nil => exact ⟨[], rfl, .nil⟩
  | @cons frame first frames packets hfirst _ ih =>
      obtain ⟨packets', hflatten, hpackets'⟩ := ih
      by_cases hsize : frame.dataSize > 3
      · refine ⟨first :: packets', by rw [List.flatten_cons, hflatten, List.flatten_cons], ?_⟩
        rw [List.filter_cons_of_pos (by simpa using hsize)]
        exact .cons hfirst hpackets'
      · have hempty : first = [] := by
          rw [← List.length_eq_zero_iff, hfirst.length, VideoFrame.packetCount, if_neg hsize]
        refine ⟨packets', by rw [hflatten, hempty, List.flatten_cons, List.nil_append], ?_⟩
        rw [List.filter_cons_of_neg (by simpa using hsize)]
        exact hpackets'

theorem head?_flatten {frames : List VideoFrame} {packets : List (List RtpPacket)}
    (h : List.Forall₂ VideoFrame.Packets frames packets)
    (hsize : ∀ frame ∈ frames, frame.dataSize > 3) :
    StartsIFrame packets.flatten ↔ ∀ next, frames.head? = some next → next.frameType = 1 := by
  cases h with
  | nil => simp [StartsIFrame]
  | @cons frame first frames packets hfirst _ =>
      obtain ⟨packet, rest, rfl⟩ : ∃ packet rest, first = packet :: rest := by
        have hpos := VideoFrame.packetCount_pos (hsize frame List.mem_cons_self)
        rw [← hfirst.length] at hpos
        exact List.exists_cons_of_length_pos hpos
      obtain ⟨htype, hindex⟩ := hfirst.place 0 packet rfl
      simp [StartsIFrame, htype, hindex]

theorem dropWhile_packets {frame : VideoFrame} {packets : List RtpPacket}
    (h : frame.Packets packets) (htype : frame.frameType ≠ 1) (rest : List RtpPacket) :
    (packets ++ rest).dropWhile (fun packet => packet.frameType ≠ 1) =
      rest.dropWhile fun packet => packet.frameType ≠ 1 := by
  refine List.dropWhile_append_of_pos fun packet hpacket => ?_
  obtain ⟨k, hk⟩ := List.getElem?_of_mem hpacket
  rw [(h.place k packet hk).1]
  simpa using htype

/-- What is behind the first packet of the first I frame starts an I frame exactly if
that I frame has no second packet and the next frame is an I frame. -/
theorem startsIFrame_tail {frames : List VideoFrame} {packets : List (List RtpPacket)}
    (h : List.Forall₂ VideoFrame.Packets frames packets)
    (hsize : ∀ frame ∈ frames, frame.dataSize > 3) :
    StartsIFrame (packets.flatten.dropWhile fun packet => packet.frameType ≠ 1).tail ↔
      match frames.dropWhile fun frame => frame.frameType ≠ 1 with
      | [] => True
      | frame :: frames =>
          frame.dataSize ≤ 1400 ∧ ∀ next, frames.head? = some next → next.frameType = 1 := by
  induction h with
  | nil => simp [StartsIFrame]
  | @cons frame first frames packets hfirst hrest ih =>
      have hsize' : ∀ frame ∈ frames, frame.dataSize > 3 := fun other hother =>
        hsize other (List.mem_cons_of_mem _ hother)
      by_cases htype : frame.frameType = 1
      · have hpos := VideoFrame.packetCount_pos (hsize frame List.mem_cons_self)
        have hcount : first.length = packCount frame.dataSize := by
          rw [hfirst.length, VideoFrame.packetCount, if_pos (hsize frame List.mem_cons_self)]
        rw [← hfirst.length] at hpos
        obtain ⟨packet, more, rfl⟩ := List.exists_cons_of_length_pos hpos
        have hpacket := hfirst.place 0 packet rfl
        rw [List.flatten_cons, List.cons_append,
          List.dropWhile_cons_of_neg (by simp [hpacket.1, htype]),
          List.dropWhile_cons_of_neg (by simp [htype]), List.tail_cons]
        simp only []
        cases more with
        | nil =>
            have hfits : frame.dataSize ≤ 1400 := by
              simp only [List.length_singleton, packCount] at hcount
              omega
            rw [List.nil_append, head?_flatten hrest hsize']
            exact ⟨fun hnext => ⟨hfits, hnext⟩, fun hnext => hnext.2⟩
        | cons second more =>
            have hcut : ¬ frame.dataSize ≤ 1400 := by
              simp only [List.length_cons, packCount] at hcount
              omega
            have hsecond := (hfirst.place 1 second rfl).2
            simp [StartsIFrame, hsecond, hcut]
      · rw [List.flatten_cons, dropWhile_packets hfirst htype,
          List.dropWhile_cons_of_pos (by simpa using htype)]
        exact ih hsize'

theorem startsIFrame_iff {frames : List VideoFrame} {packets : List (List RtpPacket)}
    (h : List.Forall₂ VideoFrame.Packets frames packets) :
    StartsIFrame (packets.flatten.dropWhile fun packet => packet.frameType ≠ 1).tail ↔
      FirstIFrameFits frames := by
  obtain ⟨packets', hflatten, hpackets'⟩ := flatten_filter h
  rw [← hflatten, startsIFrame_tail hpackets' fun frame hframe => by
    simpa using (List.mem_filter.mp hframe).2]
  rfl

theorem streamNodeInit_idle (ssrc : UInt32) : (streamNodeInit ssrc).Idle ssrc :=
  ⟨⟨rfl, rfl, rfl, rfl, rfl, rfl⟩, fun _ h => by cases h⟩

/-- What client `i` has received: from the packets of the frames behind its join, all
but the ones before the first I frame and the first packet of that frame. -/
theorem run_sent (ssrc : UInt32) (events : List Event) :
    ∃ node, run (streamNodeInit ssrc) events = some node ∧
      node.listClientNodeHead.length = joins events ∧
      ∀ i client, node.listClientNodeHead[i]? = some client →
        ∃ behind : List (List RtpPacket), behind.flatten <:+ node.packets ∧
          List.Forall₂ VideoFrame.Packets (framesAfter events i) behind ∧
          client.sent =
            (behind.flatten.dropWhile fun packet => packet.frameType ≠ 1).tail := by
  obtain ⟨node, packets, joined, hrun, -, hall, hclients, hjoined, hnew⟩ :=
    run_spec events (streamNodeInit_idle ssrc)
  have hclients' : node.listClientNodeHead = joined := hclients
  have hall' : node.packets = packets.flatten := hall
  refine ⟨node, hrun, hclients' ▸ hjoined, fun i client hclient => ?_⟩
  obtain ⟨behind, ⟨front, rfl⟩, hbehind, rfl⟩ := hnew i client (hclients' ▸ hclient)
  refine ⟨behind, ?_, hbehind, ClientNode.sent_offers _⟩
  rw [hall', List.flatten_append]
  exact List.suffix_append _ _

/-- **Where a viewer starts.**  In every run of frames and joins every client has
received a run of the packets of the stream without gaps; the first of them is the first
packet of an I frame exactly if the first I frame behind its join fits in one packet and
is followed by no other frame than an I frame. -/
theorem run_firstPacket (ssrc : UInt32) (events : List Event) :
    ∃ node, run (streamNodeInit ssrc) events = some node ∧
      node.listClientNodeHead.length = joins events ∧
      ∀ i client, node.listClientNodeHead[i]? = some client →
        (client.sent <:+: node.packets ∧ StartsIFrame client.sent ↔
          FirstIFrameFits (framesAfter events i)) := by
  obtain ⟨node, hrun, hjoins, hsent⟩ := run_sent ssrc events
  refine ⟨node, hrun, hjoins, fun i client hclient => ?_⟩
  obtain ⟨behind, hsuffix, hbehind, heq⟩ := hsent i client hclient
  have hgapless : client.sent <:+: node.packets := by
    rw [heq]
    exact ((List.tail_suffix _).trans
      ((List.dropWhile_suffix _).trans hsuffix)).isInfix
  rw [← startsIFrame_iff hbehind, ← heq]
  exact ⟨fun h => h.2, fun h => ⟨hgapless, h⟩⟩

/-- A viewer joins, then an I frame of two packets comes: the second one is the first
that the viewer gets. -/
theorem run_firstPacket_cut :
    ∃ events : List Event, events.length = 2 ∧
      ¬ ∃ node, run (streamNodeInit 7) events = some node ∧
        ∀ (i : Nat) (client : ClientNode), node.listClientNodeHead[i]? = some client →
          client.sent <:+: node.packets ∧ StartsIFrame client.sent := by
  let cut : VideoFrame :=
    { dataPtr := List.replicate 1421 0, dataSize := 1401, timeStamp := 0
      rtpDataBufPreSize := 20, frameType := 1
      valid := ⟨by decide, by rw [List.length_replicate]; decide, by decide⟩ }
  refine ⟨[.join, .frame cut], rfl, fun ⟨node, hrun, hstart⟩ => ?_⟩
  obtain ⟨node', hrun', hjoins, hsent⟩ := run_sent 7 [.join, .frame cut]
  obtain rfl : node = node' := Option.some.inj (hrun.symm.trans hrun')
  obtain ⟨client, hclient⟩ : ∃ client, node.listClientNodeHead[0]? = some client :=
    ⟨_, List.getElem?_eq_getElem (by rw [hjoins]; decide)⟩
  obtain ⟨behind, -, hbehind, heq⟩ := hsent 0 client hclient
  have hfits : FirstIFrameFits [cut] :=
    (startsIFrame_iff hbehind).mp (heq ▸ (hstart 0 client hclient).2)
  have hlarge : ¬ cut.dataSize ≤ 1400 := by decide
  exact hlarge hfits.1

end GbStream.Rtp
