import GbStream.Support.Bytes

/-!
# RTP packetisation

The packetiser of `rtp_pack.c`.  The pointers of `rtp_info_t` are offsets into the
buffer of the frame that `set_rtp_pack1` was last called for; a header is written in
front of the piece of the frame it belongs to, over bytes that were sent before.
-/

namespace GbStream.Rtp

open Support.Bytes

def rtpVersion : BitVec 2 := 2
def maxRtpPacketSize : Nat := 1400

structure NalMsg where
  eoFrame : Bool := false
  type : UInt8 := 0
  start : Nat := 0
  endPtr : Nat := 0
  size : Nat := 0
  deriving DecidableEq, Repr

structure RtpHeader where
  csrcLen : BitVec 4 := 0
  extension : BitVec 1 := 0
  padding : BitVec 1 := 0
  version : BitVec 2 := 0
  payload : BitVec 7 := 0
  marker : BitVec 1 := 0
  seqNo : UInt16 := 0
  timestamp : UInt32 := 0
  ssrc : UInt32 := 0
  deriving DecidableEq, Repr

structure RtpInfo where
  nal : NalMsg := {}
  rtpHdr : RtpHeader := {}
  hdrLen : Nat := 0
  pRTP : Nat := 0
  start : Nat := 0
  endPtr : Nat := 0
  sBit : Bool := false
  eBit : Bool := false
  fuFlag : Bool := false
  beginNAL : Bool := false
  deriving DecidableEq, Repr

/-- The two bytes copied out of the structure, then the numbers byte by byte. -/
def RtpHeader.toBytes (h : RtpHeader) : List UInt8 :=
  [UInt8.ofBitVec (h.version ++ h.padding ++ h.extension ++ h.csrcLen),
    UInt8.ofBitVec (h.marker ++ h.payload),
    (h.seqNo >>> 8).toUInt8, h.seqNo.toUInt8,
    (h.timestamp >>> 24).toUInt8, (h.timestamp >>> 16).toUInt8,
    (h.timestamp >>> 8).toUInt8, h.timestamp.toUInt8,
    (h.ssrc >>> 24).toUInt8, (h.ssrc >>> 16).toUInt8,
    (h.ssrc >>> 8).toUInt8, h.ssrc.toUInt8]

@[simp] theorem RtpHeader.length_toBytes (h : RtpHeader) : h.toBytes.length = 12 := rfl

def rtpInfoInit (payload : Int) (u32Ssrc : UInt32) : RtpInfo :=
  { rtpHdr :=
      { payload := BitVec.ofInt 7 payload, ssrc := u32Ssrc, version := rtpVersion
        seqNo := 0, timestamp := 0 } }

def setRtpPack1 (rtpInfo : RtpInfo) (psDataBuf psDataSize : Nat) (timeStamp : UInt32)
    (endOfFrame : Bool) : RtpInfo :=
  let nal : NalMsg :=
    { start := psDataBuf, size := psDataSize, eoFrame := endOfFrame, type := 0
      endPtr := psDataBuf + psDataSize }
  let rtpHdr := { rtpInfo.rtpHdr with timestamp := timeStamp }
  let fuFlag := decide (nal.size > maxRtpPacketSize)
  { rtpInfo with
    nal, rtpHdr, fuFlag, sBit := fuFlag, eBit := false
    start := nal.start, endPtr := nal.start, beginNAL := true }

def RtpInfo.nextStart (rtpInfo : RtpInfo) : Nat :=
  if rtpInfo.beginNAL then rtpInfo.start else rtpInfo.endPtr

/-- Where it ends: after 1400 bytes or with the frame.  `bytes_left` is an `HB_S32`. -/
def RtpInfo.nextEnd (rtpInfo : RtpInfo) : Nat :=
  let bytesLeft := toS32 (rtpInfo.nal.endPtr - rtpInfo.nextStart)
  if bytesLeft > maxRtpPacketSize then rtpInfo.nextStart + maxRtpPacketSize
  else (rtpInfo.nextStart + bytesLeft).toNat

/-- `e_bit` behind the test for the last packet of a frame that is cut. -/
def RtpInfo.nextEBit (rtpInfo : RtpInfo) : Bool :=
  if rtpInfo.fuFlag ∧ rtpInfo.nextEnd = rtpInfo.nal.endPtr then true else rtpInfo.eBit

def RtpInfo.nextHeader (rtpInfo : RtpInfo) : RtpHeader :=
  { rtpInfo.rtpHdr with
    marker :=
      if rtpInfo.fuFlag ∧ ¬ rtpInfo.nextEBit then 0
      else if rtpInfo.nal.eoFrame then 1 else 0 }

def nextSeqNo (seqNo : UInt16) : UInt16 := if seqNo < 65535 then seqNo + 1 else 0

/-- `rtp_info_t` behind a packet: its header lies in the twelve bytes before the
payload, its sequence number is used up. -/
def RtpInfo.advance (rtpInfo : RtpInfo) : RtpInfo :=
  let cp := rtpInfo.nextStart - 12
  let hdrLen := 12
  { rtpInfo with
    beginNAL := false, endPtr := rtpInfo.nextEnd, eBit := rtpInfo.nextEBit, pRTP := cp
    rtpHdr := { rtpInfo.nextHeader with seqNo := nextSeqNo rtpInfo.rtpHdr.seqNo }
    hdrLen, start := cp + hdrLen }

/-- The next packet.  The outer `none` is a write outside the buffer; the last
component is the packet size, `none` for the null pointer at the end of the frame. -/
def getRtpPsPack (rtpInfo : RtpInfo) (buf : List UInt8) :
    Option (RtpInfo × List UInt8 × Option Nat) :=
  if rtpInfo.endPtr = rtpInfo.nal.endPtr then some (rtpInfo, buf, none)
  else if rtpInfo.nextStart < 12 then none
  else
    let next := rtpInfo.advance
    (writeAt buf next.pRTP rtpInfo.nextHeader.toBytes).map fun buf =>
      (next, buf, some (next.hdrLen + (next.endPtr - next.start)))

/-- Calls of `get_rtp_ps_pack` until it returns the null pointer, with the packets as
the buffer holds them when each call returns. -/
def drainPacks : Nat → RtpInfo → List UInt8 →
    Option (List (List UInt8) × RtpInfo × List UInt8)
  | 0, _, _ => none
  | fuel + 1, rtpInfo, buf => do
      let (rtpInfo, buf, size) ← getRtpPsPack rtpInfo buf
      match size with
      | none => some ([], rtpInfo, buf)
      | some rtpSize => do
          let (packets, last) ← drainPacks fuel rtpInfo buf
          some (slice buf rtpInfo.pRTP rtpSize :: packets, last)

/-- A PS frame as the send task hands it over: its buffer, how many bytes lie in
front of it there, its size and its time stamp. -/
structure PsFrame where
  dataPtr : List UInt8
  dataSize : Nat
  timeStamp : UInt64
  rtpDataBufPreSize : Nat

/-- The packets of one frame.  Every call of `get_rtp_ps_pack` before the null pointer
sends at least one byte, so that the loop needs no more calls than there are bytes,
and one more. -/
def packFrame (rtpInfo : RtpInfo) (frame : PsFrame) :
    Option (List (List UInt8) × RtpInfo × List UInt8) :=
  drainPacks (frame.dataSize + 1)
    (setRtpPack1 rtpInfo frame.rtpDataBufPreSize frame.dataSize
      frame.timeStamp.toUInt32 true)
    frame.dataPtr

/-- The packets of a run of frames, frame by frame. -/
def packFrames (rtpInfo : RtpInfo) : List PsFrame → Option (List (List (List UInt8)) × RtpInfo)
  | [] => some ([], rtpInfo)
  | frame :: frames => do
      let (packets, rtpInfo, _) ← packFrame rtpInfo frame
      let (rest, rtpInfo) ← packFrames rtpInfo frames
      some (packets :: rest, rtpInfo)

end GbStream.Rtp
