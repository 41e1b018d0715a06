import GbStream.Rtp.Pack

/-!
# Sending packets to the clients

`pack_ps_rtp_and_add_node`: every packet of a frame is offered to the clients of the
node while it lies in the buffer.
-/

namespace GbStream.Rtp

open Support.Bytes

/-- A datagram, with its place in the stream: the number of its frame, the type the
frame was passed with, and its number in the frame. -/
structure RtpPacket where
  frame : Nat
  frameType : Int
  index : Nat
  bytes : List UInt8
  deriving DecidableEq, Repr

/-- A client of the node, with the datagrams that `sendto` was called with for it. -/
structure ClientNode where
  iDeleteFlag : Int := 0
  iSendIframeFlag : Int := 0
  sent : List RtpPacket := []
  deriving DecidableEq, Repr

/-- A client that is not to be deleted: the packet is sent, or the gate is opened. -/
def ClientNode.offer (packet : RtpPacket) (frameType : Int) (client : ClientNode) : ClientNode :=
  if client.iSendIframeFlag = 1 then { client with sent := client.sent ++ [packet] }
  else if frameType = 1 then { client with iSendIframeFlag := 1 }
  else client

/-- The clients during the pass of one packet, with the position of the next one and
the clients that were deleted. -/
structure ClientPass where
  listClientNodeHead : List ClientNode
  clientListSize : Nat
  i : Nat := 0
  freed : List ClientNode := []

/-- One round of the loop over the clients; `none` is the use of the null pointer that
`list_get_at` returns behind the end. -/
def visitClient (packet : RtpPacket) (frameType : Int) (pass : ClientPass) : Option ClientPass :=
  match pass.listClientNodeHead[pass.i]? with
  | none => none
  | some client =>
      if client.iDeleteFlag = 1 then
        -- `--i` and `++i` leave the position where the next client moves up to
        some
          { pass with
            listClientNodeHead := pass.listClientNodeHead.eraseIdx pass.i
            clientListSize := pass.clientListSize - 1
            freed := pass.freed ++ [client] }
      else
        some
          { pass with
            listClientNodeHead :=
              pass.listClientNodeHead.set pass.i (client.offer packet frameType)
            i := pass.i + 1 }

/-- The loop over the clients, counted by `tmp_list_size`. -/
def visitClients (packet : RtpPacket) (frameType : Int) : Nat → ClientPass → Option ClientPass
  | 0, pass => some pass
  | tmpListSize + 1, pass => do
      let pass ← visitClient packet frameType pass
      visitClients packet frameType tmpListSize pass

/-- The packets of a frame, each with a pass over the clients, until
`get_rtp_ps_pack` returns the null pointer. -/
def sendLoop (frame : Nat) (frameType : Int) :
    Nat → RtpInfo → List UInt8 → List RtpPacket → ClientPass →
      Option (RtpInfo × List RtpPacket × ClientPass)
  | 0, _, _, _, _ => none
  | fuel + 1, rtpInfo, buf, packets, pass => do
      let (rtpInfo, buf, size) ← getRtpPsPack rtpInfo buf
      match size with
      | none => some (rtpInfo, packets, pass)
      | some rtpSize => do
          let packet : RtpPacket :=
            { frame, frameType, index := packets.length
              bytes := slice buf rtpInfo.pRTP rtpSize }
          let pass ← visitClients packet frameType pass.clientListSize { pass with i := 0 }
          sendLoop frame frameType fuel rtpInfo buf (packets ++ [packet]) pass

/-- What the send task uses of a stream node, with the packets made so far and the
number of the next frame. -/
structure StreamNode where
  rtpInfoVideo : RtpInfo
  listClientNodeHead : List ClientNode := []
  freed : List ClientNode := []
  frames : Nat := 0
  packets : List RtpPacket := []

/-- A node as `create_stream_node` leaves it. -/
def streamNodeInit (u32Ssrc : UInt32) : StreamNode :=
  { rtpInfoVideo := rtpInfoInit 96 u32Ssrc }

def packPsRtpAndAddNode (pStreamNode : StreamNode) (frame : PsFrame) (frameType : Int) :
    Option StreamNode :=
  if frame.dataSize > 3 then do
    let rtpInfo :=
      setRtpPack1 pStreamNode.rtpInfoVideo frame.rtpDataBufPreSize frame.dataSize
        frame.timeStamp.toUInt32 true
    let (rtpInfo, packets, pass) ←
      sendLoop pStreamNode.frames frameType (frame.dataSize + 1) rtpInfo frame.dataPtr []
        { listClientNodeHead := pStreamNode.listClientNodeHead
          clientListSize := pStreamNode.listClientNodeHead.length
          freed := pStreamNode.freed }
    some
      { rtpInfoVideo := rtpInfo, listClientNodeHead := pass.listClientNodeHead
        freed := pass.freed, frames := pStreamNode.frames + 1
        packets := pStreamNode.packets ++ packets }
  else some { pStreamNode with frames := pStreamNode.frames + 1 }

/-- `PLAY` of a new call. -/
def listAppendClient (pStreamNode : StreamNode) : StreamNode :=
  { pStreamNode with listClientNodeHead := pStreamNode.listClientNodeHead ++ [{}] }

end GbStream.Rtp
