import GbStream.Support.Bytes

/-!
# The packets of the media server

The 28 header bytes of `NET_LAYER` as they lie on the wire, and packets with a payload.
-/

namespace GbStream.Recv

open Support.Bytes

def packageExtraLen : Nat := 28

/-- The fields of `NET_LAYER` in front of `cBuffer`. -/
structure NetLayer where
  iActLength : Int32
  byProtocolType : UInt8
  byProtocolVer : UInt8
  byDataType : UInt8
  byFrameType : UInt8
  iTimeStampHigh : Int32
  iTimeStampLow : Int32
  iVodFilePercent : Int32
  iVodCurFrameNo : Int32
  byBlockHeadFlag : UInt8
  byBlockEndFlag : UInt8
  byReserved1 : UInt8
  byReserved2 : UInt8
  deriving DecidableEq, Repr

def NetLayer.toBytes (h : NetLayer) : List UInt8 :=
  le32 h.iActLength.toUInt32 ++
    [h.byProtocolType, h.byProtocolVer, h.byDataType, h.byFrameType] ++
    le32 h.iTimeStampHigh.toUInt32 ++ le32 h.iTimeStampLow.toUInt32 ++
    le32 h.iVodFilePercent.toUInt32 ++ le32 h.iVodCurFrameNo.toUInt32 ++
    [h.byBlockHeadFlag, h.byBlockEndFlag, h.byReserved1, h.byReserved2]

/-- The header at the front of a buffer, as `evbuffer_copyout` of 28 bytes fills it. -/
def readNetLayer (bytes : List UInt8) : NetLayer :=
  let byte (i : Nat) : UInt8 := bytes.getD i 0
  let word (i : Nat) : Int32 :=
    (ofLe32 (byte i) (byte (i + 1)) (byte (i + 2)) (byte (i + 3))).toInt32
  { iActLength := word 0, byProtocolType := byte 4, byProtocolVer := byte 5
    byDataType := byte 6, byFrameType := byte 7, iTimeStampHigh := word 8
    iTimeStampLow := word 12, iVodFilePercent := word 16, iVodCurFrameNo := word 20
    byBlockHeadFlag := byte 24, byBlockEndFlag := byte 25, byReserved1 := byte 26
    byReserved2 := byte 27 }

@[simp] theorem NetLayer.length_toBytes (h : NetLayer) : h.toBytes.length = packageExtraLen := rfl

theorem readNetLayer_toBytes (h : NetLayer) (rest : List UInt8) :
    readNetLayer (h.toBytes ++ rest) = h := by
  simp [readNetLayer, NetLayer.toBytes, le32, ofLe32_bytes]

/-- A packet whose length field counts its header and its payload. -/
structure Packet where
  header : NetLayer
  payload : List UInt8
  iActLength_eq : header.iActLength.toInt = packageExtraLen + payload.length

def Packet.toBytes (p : Packet) : List UInt8 := p.header.toBytes ++ p.payload

/-- The bytes of a run of packets on the wire. -/
def wire (packets : List Packet) : List UInt8 := packets.flatMap Packet.toBytes

/-- The payloads of a run of packets. -/
def payloads (packets : List Packet) : List UInt8 := packets.flatMap Packet.payload

@[simp] theorem Packet.length_toBytes (p : Packet) :
    p.toBytes.length = packageExtraLen + p.payload.length := by
  simp [Packet.toBytes]

/-- The length field of a packet, where it is compared with a `size_t`. -/
theorem Packet.iActLength_emod (p : Packet) :
    p.header.iActLength.toInt % 2 ^ 64 = (packageExtraLen + p.payload.length : Nat) := by
  have hlt := p.header.iActLength.toInt_lt
  rw [p.iActLength_eq] at hlt ⊢
  push_cast
  omega

end GbStream.Recv
