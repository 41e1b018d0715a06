import GbStream.Support.Bytes

/-!
# The program-stream multiplexer

The packed header structures of `ps.c`, the functions that fill them, and
`ps_process`.  Every structure is laid out as the compiler lays it out: no
padding, integers least significant byte first, the first bit-field of a unit in
its low bits.  Offsets into the output are naturals; only the length that
`ps_process` reports goes through a 32-bit signed integer.
-/

namespace GbStream.Ps

open Support.Bytes

def markerBit : UInt8 := 1
def videoStream : UInt8 := 0xe0
def audioStream : UInt8 := 0xc0
def ptsDtsFlag : UInt8 := 3
def psPesPplLength : Nat := 13
def maxPesPacketLength : Nat := 0xffff - psPesPplLength

inductive EsFrameType where
  | frameP
  | frameI
  | frameAudio
  deriving DecidableEq, Repr

/-- The fields of `PS_FRAME_INFO_OBJ` that `ps_process` updates. -/
structure PsFrameInfo where
  audFrameNumber : UInt32 := 0
  audTimestamp : UInt32 := 0
  deriving DecidableEq, Repr

/-! ## Header structures -/

structure PsPackHeader where
  psc : UInt32 := 0
  scrb1 : UInt16 := 0
  scrb2 : UInt16 := 0
  scre : UInt16 := 0
  pmr : UInt16 := 0
  mb : UInt8 := 0
  psl : BitVec 3 := 0
  res : BitVec 5 := 0

structure PsSystemHeader where
  shsc : UInt32 := 0
  hl : UInt16 := 0
  m1 : UInt8 := 0
  rbd : UInt16 := 0
  uc1 : UInt8 := 0
  uc2 : UInt8 := 0
  uc3 : UInt8 := 0
  vsi : UInt8 := 0
  vpbsb : UInt16 := 0
  asi : UInt8 := 0
  apbsb : UInt16 := 0

structure PsMapHeader where
  pscp1 : UInt8 := 0
  pscp : UInt16 := 0
  msi : UInt8 := 0
  psml : UInt16 := 0
  uc1 : UInt8 := 0
  uc2 : UInt8 := 0
  psil : UInt16 := 0
  esml : UInt16 := 0
  vst : UInt8 := 0
  vesi : UInt8 := 0
  vesil : UInt16 := 0
  fill1 : UInt16 := 0
  fill2 : UInt16 := 0
  fill3 : UInt16 := 0
  ast : UInt8 := 0
  aesi : UInt8 := 0
  aesil : UInt16 := 0
  s32crc : UInt32 := 0

structure PsPesHeader where
  m1 : UInt16 := 0
  pscp : UInt8 := 0
  si : UInt8 := 0
  ppl : UInt16 := 0
  ooc : BitVec 1 := 0
  ct : BitVec 1 := 0
  dai : BitVec 1 := 0
  pp : BitVec 1 := 0
  psc : BitVec 2 := 0
  ff : BitVec 2 := 0
  pef : BitVec 1 := 0
  pcf : BitVec 1 := 0
  acif : BitVec 1 := 0
  dtmf : BitVec 1 := 0
  erf : BitVec 1 := 0
  ef : BitVec 1 := 0
  pdf : BitVec 2 := 0
  phdl : UInt8 := 0
  ptsp : UInt8 := 0
  pts : UInt32 := 0
  dtsp : UInt8 := 0
  dts : UInt32 := 0

def PsPackHeader.toBytes (h : PsPackHeader) : List UInt8 :=
  le32 h.psc ++ le16 h.scrb1 ++ le16 h.scrb2 ++ le16 h.scre ++ le16 h.pmr ++
    [h.mb, UInt8.ofBitVec (h.res ++ h.psl)]

def PsSystemHeader.toBytes (h : PsSystemHeader) : List UInt8 :=
  le32 h.shsc ++ le16 h.hl ++ [h.m1] ++ le16 h.rbd ++
    [h.uc1, h.uc2, h.uc3, h.vsi] ++ le16 h.vpbsb ++ [h.asi] ++ le16 h.apbsb

def PsMapHeader.toBytes (h : PsMapHeader) : List UInt8 :=
  [h.pscp1] ++ le16 h.pscp ++ [h.msi] ++ le16 h.psml ++ [h.uc1, h.uc2] ++
    le16 h.psil ++ le16 h.esml ++ [h.vst, h.vesi] ++ le16 h.vesil ++
    le16 h.fill1 ++ le16 h.fill2 ++ le16 h.fill3 ++ [h.ast, h.aesi] ++
    le16 h.aesil ++ le32 h.s32crc

/-- The sixteen flag bits between `ppl` and `phdl`, `ooc` lowest. -/
def PsPesHeader.flags (h : PsPesHeader) : UInt16 :=
  UInt16.ofBitVec (h.pdf ++ h.ef ++ h.erf ++ h.dtmf ++ h.acif ++ h.pcf ++ h.pef ++
    h.ff ++ h.psc ++ h.pp ++ h.dai ++ h.ct ++ h.ooc)

def PsPesHeader.toBytes (h : PsPesHeader) : List UInt8 :=
  le16 h.m1 ++ [h.pscp, h.si] ++ le16 h.ppl ++ le16 h.flags ++ [h.phdl, h.ptsp] ++
    le32 h.pts ++ [h.dtsp] ++ le32 h.dts

@[simp] theorem PsPackHeader.length_toBytes (h : PsPackHeader) :
    h.toBytes.length = 14 := rfl

@[simp] theorem PsSystemHeader.length_toBytes (h : PsSystemHeader) :
    h.toBytes.length = 18 := rfl

@[simp] theorem PsMapHeader.length_toBytes (h : PsMapHeader) :
    h.toBytes.length = 30 := rfl

@[simp] theorem PsPesHeader.length_toBytes (h : PsPesHeader) :
    h.toBytes.length = 19 := rfl

/-! ## Filling the headers -/

/-- The part `ps_pes_video_init` and `ps_pes_audio_init` share. -/
def psPesInit (streamId : UInt8) (h : PsPesHeader) : PsPesHeader :=
  { h with
    m1 := 0, pscp := 1, si := streamId, ff := 2, psc := 0, pp := 0, dai := 1, ct := 0
    ooc := 0, pdf := BitVec.ofNat 2 ptsDtsFlag.toNat, ef := 0, erf := 0, dtmf := 0
    acif := 0, pcf := 0, pef := 0, phdl := 10 }

def psPesVideoInit : PsPesHeader → PsPesHeader := psPesInit videoStream

def psPesAudioInit : PsPesHeader → PsPesHeader := psPesInit audioStream

/-- `ps_dts` and `ps_pts`: a four-bit prefix and 33 bits of time stamp, cut into
3, 15 and 15 bits with a marker bit behind each. -/
def psTimeStamp (flag : UInt8) (ullTimeStamp : UInt64) : UInt8 × UInt32 :=
  let ucp : UInt8 := flag <<< 3
  let ucp := ucp ||| (ullTimeStamp >>> 30 &&& (0x7 : UInt64)).toUInt8
  let ucp := ucp <<< 1 ||| markerBit
  let pul := (0 : UInt32) <<< 15
  let pul := pul ||| (ullTimeStamp >>> 15 &&& (0x7FFF : UInt64)).toUInt32
  let pul := pul <<< 1 ||| markerBit.toUInt32
  let pul := pul <<< 15
  let pul := pul ||| (ullTimeStamp &&& (0x7FFF : UInt64)).toUInt32
  let pul := pul <<< 1 ||| markerBit.toUInt32
  (ucp, pul)

def psDts : UInt64 → UInt8 × UInt32 := psTimeStamp 1

def psPts : UInt64 → UInt8 × UInt32 := psTimeStamp ptsDtsFlag

def psPackheaderMake (ullTimeStamp : UInt64) (h : PsPackHeader) : PsPackHeader :=
  let usTmp := (1 : UInt16) <<< 3
  let usTmp := usTmp ||| (ullTimeStamp >>> 30 &&& (0x07 : UInt64)).toUInt16
  let usTmp := usTmp <<< 1 ||| markerBit.toUInt16
  let scrb1 := usTmp <<< 10 ||| (ullTimeStamp >>> 20 &&& (0x03FF : UInt64)).toUInt16
  let usTmp := (ullTimeStamp >>> 15 &&& (0x1F : UInt64)).toUInt16
  let usTmp := usTmp <<< 1 ||| markerBit.toUInt16
  let scrb2 := usTmp <<< 10 ||| (ullTimeStamp >>> 5 &&& (0x03FF : UInt64)).toUInt16
  let usTmp := (ullTimeStamp &&& (0x1F : UInt64)).toUInt16
  let usTmp := usTmp <<< 1 ||| markerBit.toUInt16
  let scre := usTmp <<< 10 ||| markerBit.toUInt16
  { h with
    psc := htonl 0x01BA, scrb1 := htons scrb1, scrb2 := htons scrb2, scre := htons scre
    pmr := htons 0x0199, mb := 0x9F, res := 0x1F, psl := 0x00 }

/-- Every field but `fill1`, `fill2` and `fill3`, which the caller sets. -/
def psMapheaderVideoMake (h : PsMapHeader) : PsMapHeader :=
  { h with
    pscp1 := 0x00, pscp := htons 0x01, msi := 0xBC, psml := htons 0x18, uc1 := 0xE1
    uc2 := 0xFF, psil := htons 0x00, esml := htons 0x08, vst := 0x1B
    vesi := videoStream, vesil := htons 0x06, ast := 0x90, aesi := audioStream
    aesil := htons 0x00, s32crc := htonl 0x2EB90F3D }

def psSystemheaderMake (h : PsSystemHeader) : PsSystemHeader :=
  { h with
    shsc := htonl 0x01BB, hl := htons 0x0C, m1 := 0x80, rbd := htons 0xCCF5
    uc1 := 0x04, uc2 := 0xE1, uc3 := 0x7F, vsi := 0xE0, vpbsb := htons 0xE0E8
    asi := 0xC0, apbsb := htons 0xC020 }

/-- The video and the audio branch do the same: `iTime` passes through the 32-bit
`ulPTS` and `ulDTS` on its way into the two time stamps. -/
def psPesheaderMake (h : PsPesHeader) (frameLen : Nat) (iTime : UInt64) : PsPesHeader :=
  let ulDTS : UInt32 := iTime.toUInt32
  let ulPTS : UInt32 := iTime.toUInt32
  let pts := psPts ulPTS.toUInt64
  let dts := psDts ulDTS.toUInt64
  let ppl : UInt16 :=
    if frameLen > maxPesPacketLength then 0xFFFF
    else UInt16.ofNat (frameLen + psPesPplLength)
  { h with
    ptsp := pts.1, pts := htonl pts.2, dtsp := dts.1, dts := htonl dts.2
    ppl := htons ppl }

/-! ## `ps_process` -/

/-- `uiTmpLen`: how much of the rest of the frame the next PES packet takes. -/
def pesPayloadLength (frameLen : Nat) : Nat :=
  if frameLen > maxPesPacketLength then maxPesPacketLength else frameLen

theorem pesPayloadLength_pos {frameLen : Nat} (h : 0 < frameLen) :
    0 < pesPayloadLength frameLen := by
  unfold pesPayloadLength
  split
  · decide
  · exact h

theorem pesPayloadLength_eq_min (frameLen : Nat) :
    pesPayloadLength frameLen = min maxPesPacketLength frameLen := by
  unfold pesPayloadLength
  split <;> omega

/-- One PES packet at `uioffset`: its header, then the payload copied from
`pSrcbuf`.  Every field of the header is set, so that what the buffer held at
this place does not matter. -/
def psPesPacket (init : PsPesHeader → PsPesHeader) (iTime : UInt64) (frameLen : Nat)
    (pPsData : List UInt8) (uioffset : Nat) (pSrcbuf : List UInt8) :
    Option (List UInt8) := do
  let pPesheader := psPesheaderMake (init {}) frameLen iTime
  let pPsData ← writeAt pPsData uioffset pPesheader.toBytes
  copyAt pPsData (uioffset + 19) pSrcbuf (pesPayloadLength frameLen)

/-- The `while` loop of the video branch: the packets lie one behind the other. -/
def psVideoLoop (iTime : UInt64) (frameLen : Nat) (pPsData : List UInt8)
    (uioffset : Nat) (pSrcbuf : List UInt8) : Option (List UInt8 × Nat) :=
  if h : frameLen > 0 then do
    let uiTmpLen := pesPayloadLength frameLen
    let pPsData ← psPesPacket psPesVideoInit iTime frameLen pPsData uioffset pSrcbuf
    psVideoLoop iTime (frameLen - uiTmpLen) pPsData (uioffset + 19 + uiTmpLen)
      (pSrcbuf.drop uiTmpLen)
  else
    some (pPsData, uioffset)
termination_by frameLen
decreasing_by
  have := pesPayloadLength_pos h
  omega

/-- The `while` loop of the audio branch: `uioffset` is reset for every packet. -/
def psAudioLoop (iTime : UInt64) (frameLen : Nat) (pPsData : List UInt8)
    (uioffset : Nat) (pSrcbuf : List UInt8) : Option (List UInt8 × Nat) :=
  if h : frameLen > 0 then do
    let uiTmpLen := pesPayloadLength frameLen
    let pPsData ← psPesPacket psPesAudioInit iTime frameLen pPsData 0 pSrcbuf
    psAudioLoop iTime (frameLen - uiTmpLen) pPsData (19 + uiTmpLen)
      (pSrcbuf.drop uiTmpLen)
  else
    some (pPsData, uioffset)
termination_by frameLen
decreasing_by
  have := pesPayloadLength_pos h
  omega

def psIFrameHeaders (pPsData : List UInt8) (uioffset : Nat) :
    Option (List UInt8 × Nat) := do
  let pSystemheader := psSystemheaderMake {}
  let pPsData ← writeAt pPsData uioffset pSystemheader.toBytes
  let uioffset := uioffset + 18
  let pMapheader :=
    { psMapheaderVideoMake {} with
      fill1 := htons 0x0A04, fill2 := htons 0x656E, fill3 := htons 0x6700 }
  let pPsData ← writeAt pPsData uioffset pMapheader.toBytes
  some (pPsData, uioffset + 30)

/-- The new frame information, the output buffer and `*p_ps_data_len`; `none` when
the frame or the output buffer is too short for what is read or written. -/
def psProcess (pPsInfo : PsFrameInfo) (pSrcbuf : List UInt8) (frameLen : Nat)
    (frameType : EsFrameType) (pPsData : List UInt8) (iTime : UInt64) :
    Option (PsFrameInfo × List UInt8 × Int) :=
  match frameType with
  | .frameI => do
      let pPsData ← writeAt pPsData 0 (psPackheaderMake iTime {}).toBytes
      let (pPsData, uioffset) ← psIFrameHeaders pPsData 14
      let (pPsData, uioffset) ← psVideoLoop iTime frameLen pPsData uioffset pSrcbuf
      some (pPsInfo, pPsData, toS32 uioffset)
  | .frameP => do
      let pPsData ← writeAt pPsData 0 (psPackheaderMake iTime {}).toBytes
      let (pPsData, uioffset) ← psVideoLoop iTime frameLen pPsData 14 pSrcbuf
      some (pPsInfo, pPsData, toS32 uioffset)
  | .frameAudio => do
      let (pPsData, uioffset) ← psAudioLoop iTime frameLen pPsData 0 pSrcbuf
      some ({ audFrameNumber := pPsInfo.audFrameNumber + 1
              audTimestamp := pPsInfo.audTimestamp + 320 }, pPsData, toS32 uioffset)

end GbStream.Ps
