import GbStream.Stream.Node

/-!
# RTCP reports

`rtcp_pack.c`: the sender report and the source description of a client, which
`udp_send_rtcp_timer` sends as one datagram.
-/

namespace GbStream.Stream

open Support.Bytes

structure RtcpHeader where
  v : BitVec 2 := 2
  p : BitVec 1 := 0
  rc : BitVec 5
  pt : UInt8
  length : UInt16
  deriving DecidableEq, Repr

def rtcpSr : UInt8 := 200
def rtcpSdes : UInt8 := 202

def rtpWriteUint32 (val : UInt32) : List UInt8 :=
  [(val >>> 24).toUInt8, (val >>> 16).toUInt8, (val >>> 8).toUInt8, val.toUInt8]

def nboWriteRtcpHeader (header : RtcpHeader) : List UInt8 :=
  [UInt8.ofBitVec (header.v ++ header.p ++ header.rc), header.pt,
    (header.length >>> 8).toUInt8, header.length.toUInt8]

/-- The report is written at `ptr` where it fits into the rest of the buffer; its length is
returned in either case. -/
def rtcpSrPack (pClientNode : Client) (buf : List UInt8) (ptr : Nat) :
    Option (List UInt8 × Nat) :=
  let header : RtcpHeader := { pt := rtcpSr, rc := 0, length := 6 }
  let size := (header.length.toNat + 1) * 4
  if buf.length - ptr < size then some (buf, size)
  else do
    let ntp : UInt64 := 0x09a7ec8009a7fa90
    let buf ← writeAt buf ptr
      (nboWriteRtcpHeader header ++ rtpWriteUint32 pClientNode.u32Ssrc ++
        rtpWriteUint32 (ntp >>> 32).toUInt32 ++ rtpWriteUint32 ntp.toUInt32 ++
        rtpWriteUint32 162007200 ++ rtpWriteUint32 16436 ++ rtpWriteUint32 20971520)
    some (buf, size)

/-- An item is written where it fits into `bytes`. -/
def rtcpSdesAppendItem (buf : List UInt8) (ptr bytes : Nat) (pCname : List UInt8) :
    Option (List UInt8 × Nat) :=
  let size := pCname.length + 2
  if size ≤ bytes then
    (writeAt buf ptr ([1, UInt8.ofNat pCname.length] ++ pCname)).map fun buf => (buf, size)
  else some (buf, size)

/-- `"fibernetwork"` -/
def cname : List UInt8 :=
  [0x66, 0x69, 0x62, 0x65, 0x72, 0x6e, 0x65, 0x74, 0x77, 0x6f, 0x72, 0x6b]

def rtcpSdesPack (pClientNode : Client) (buf : List UInt8) (ptr : Nat) :
    Option (List UInt8 × Nat) := do
  let bytes := buf.length - ptr
  let (buf, n) ← rtcpSdesAppendItem buf (ptr + 8) (bytes - 8) cname
  if bytes < 8 + n then some (buf, 8 + n)
  else
    let header : RtcpHeader :=
      { pt := rtcpSdes, rc := 1, length := UInt16.ofNat ((n + 4 + 3) / 4) }
    let buf ← writeAt buf ptr
      (nboWriteRtcpHeader header ++ rtpWriteUint32 pClientNode.u32Ssrc)
    some (buf, (header.length.toNat + 1) * 4)

/-- The datagram that `udp_send_rtcp_timer` sends, once frames are sent to the client. -/
def udpSendRtcpTimer (pClientNode : Client) : Option (List UInt8) :=
  if pClientNode.iSendIframeFlag = 1 then do
    let cRtcpBuf := List.replicate 512 0
    let (cRtcpBuf, iSrLen) ← rtcpSrPack pClientNode cRtcpBuf 0
    let (cRtcpBuf, iSdesLen) ← rtcpSdesPack pClientNode cRtcpBuf iSrLen
    some (cRtcpBuf.take (iSrLen + iSdesLen))
  else none

set_option maxRecDepth 4000 in
theorem udpSendRtcpTimer_eq (c : Client) :
    udpSendRtcpTimer c =
      if c.iSendIframeFlag = 1 then
        some
          ([0x80, 200, 0, 6] ++ rtpWriteUint32 c.u32Ssrc ++
            [0x09, 0xa7, 0xec, 0x80, 0x09, 0xa7, 0xfa, 0x90, 0x09, 0xa8, 0x08, 0xa0,
              0, 0, 0x40, 0x34, 1, 0x40, 0, 0] ++
            [0x81, 202, 0, 5] ++ rtpWriteUint32 c.u32Ssrc ++ [1, 12] ++ cname ++ [0, 0])
      else none := by
  rfl

end GbStream.Stream
