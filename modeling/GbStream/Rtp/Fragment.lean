import GbStream.Rtp.Pack

/-!
# Fragmentation is lossless

`get_rtp_ps_pack` writes each header over the end of the packet before it.  The
invariant `Sending` says why nothing is lost: before the packet `k` the buffer is
untouched from the start of piece `k` onwards, and the header of packet `k` ends
where piece `k` starts.
-/

namespace GbStream.Rtp

open Support.Bytes

/-! ## Reading a packet -/

structure RtpFields where
  version : Nat
  padding : Nat
  extension : Nat
  csrcCount : Nat
  marker : Nat
  payloadType : Nat
  seqNo : Nat
  timestamp : Nat
  ssrc : Nat
  deriving DecidableEq, Repr

/-- The twelve header bytes of a packet without CSRC list, and its payload. -/
def readRtp : List UInt8 → Option (RtpFields × List UInt8)
  | b0 :: b1 :: s1 :: s0 :: t3 :: t2 :: t1 :: t0 :: c3 :: c2 :: c1 :: c0 :: payload =>
      some
        ({ version := b0.toNat / 64, padding := b0.toNat / 32 % 2
           extension := b0.toNat / 16 % 2, csrcCount := b0.toNat % 16
           marker := b1.toNat / 128, payloadType := b1.toNat % 128
           seqNo := be16 s1 s0, timestamp := be32 t3 t2 t1 t0, ssrc := be32 c3 c2 c1 c0 },
          payload)
  | _ => none

/-- What `rtp_info_init` fixes in every header: version 2, no padding, extension or
CSRC, payload type 96. -/
structure Video (ssrc : UInt32) (h : RtpHeader) : Prop where
  version : h.version = 2
  padding : h.padding = 0
  extension : h.extension = 0
  csrcLen : h.csrcLen = 0
  payload : h.payload = 96
  ssrc : h.ssrc = ssrc

theorem readRtp_toBytes {ssrc : UInt32} {h : RtpHeader} (hvideo : Video ssrc h)
    (payload : List UInt8) :
    readRtp (h.toBytes ++ payload) =
      some
        ({ version := 2, padding := 0, extension := 0, csrcCount := 0
           marker := h.marker.toNat, payloadType := 96, seqNo := h.seqNo.toNat
           timestamp := h.timestamp.toNat, ssrc := ssrc.toNat }, payload) := by
  have hfirst : UInt8.ofBitVec (h.version ++ h.padding ++ h.extension ++ h.csrcLen) = 0x80 := by
    rw [hvideo.version, hvideo.padding, hvideo.extension, hvideo.csrcLen]
    decide
  have hsecond : (UInt8.ofBitVec (h.marker ++ h.payload)).toNat = h.marker.toNat * 128 + 96 := by
    rw [hvideo.payload]
    generalize h.marker = m
    revert m
    decide
  have hmarker : h.marker.toNat < 2 := h.marker.isLt
  simp only [RtpHeader.toBytes, List.cons_append, List.nil_append, readRtp, be16_bytes,
    be32_bytes, hvideo.ssrc, hfirst, hsecond]
  congr 3 <;> first | rfl | omega

/-! ## The state of the loop -/

/-- A frame whose bytes lie in its buffer, with room for a header before them. -/
structure PsFrame.Valid (frame : PsFrame) : Prop where
  room : 12 ≤ frame.rtpDataBufPreSize
  fits : frame.rtpDataBufPreSize + frame.dataSize ≤ frame.dataPtr.length
  size_lt : frame.dataSize < 2 ^ 31

def packCount (dataSize : Nat) : Nat := (dataSize + 1399) / 1400

/-- Piece `k` of a frame: the bytes `[1400 k, min (1400 (k + 1)) N)`. -/
def PsFrame.piece (frame : PsFrame) (k : Nat) : List UInt8 :=
  slice frame.dataPtr (frame.rtpDataBufPreSize + 1400 * k)
    (min (1400 * (k + 1)) frame.dataSize - 1400 * k)

/-- The header packet `k` of a frame should carry when it is number `seqNo` of the
stream. -/
def PsFrame.fields (frame : PsFrame) (ssrc : UInt32) (seqNo k : Nat) : RtpFields where
  version := 2
  padding := 0
  extension := 0
  csrcCount := 0
  marker := if k + 1 = packCount frame.dataSize then 1 else 0
  payloadType := 96
  seqNo := seqNo % 65536
  timestamp := frame.timeStamp.toNat % 2 ^ 32
  ssrc := ssrc.toNat

variable {ssrc : UInt32} {seq : Nat} {frame : PsFrame} {rtpInfo : RtpInfo} {buf : List UInt8}

/-- The packetiser inside a frame, `k` packets sent, the next one numbered `seq + k`. -/
structure Sending (ssrc : UInt32) (seq : Nat) (frame : PsFrame) (k : Nat)
    (rtpInfo : RtpInfo) (buf : List UInt8) : Prop where
  hdr : Video ssrc rtpInfo.rtpHdr
  timestamp : rtpInfo.rtpHdr.timestamp = frame.timeStamp.toUInt32
  seqNo : rtpInfo.rtpHdr.seqNo.toNat = (seq + k) % 65536
  eoFrame : rtpInfo.nal.eoFrame = true
  nalEnd : rtpInfo.nal.endPtr = frame.rtpDataBufPreSize + frame.dataSize
  fuFlag : rtpInfo.fuFlag = decide (frame.dataSize > maxRtpPacketSize)
  eBit : 1400 * k < frame.dataSize → rtpInfo.eBit = false
  endPtr : rtpInfo.endPtr =
    frame.rtpDataBufPreSize + min (1400 * k) frame.dataSize
  start : rtpInfo.beginNAL = true → rtpInfo.start = rtpInfo.endPtr
  length : buf.length = frame.dataPtr.length
  untouched : ∀ count, slice buf rtpInfo.endPtr count = slice frame.dataPtr rtpInfo.endPtr count

theorem sending_setRtpPack1 (frame : PsFrame) (hdr : Video ssrc rtpInfo.rtpHdr)
    (hseq : rtpInfo.rtpHdr.seqNo.toNat = seq % 65536) :
    Sending ssrc seq frame 0
      (setRtpPack1 rtpInfo frame.rtpDataBufPreSize frame.dataSize
        frame.timeStamp.toUInt32 true) frame.dataPtr where
  hdr := ⟨hdr.version, hdr.padding, hdr.extension, hdr.csrcLen, hdr.payload, hdr.ssrc⟩
  timestamp := rfl
  seqNo := hseq
  eoFrame := rfl
  nalEnd := rfl
  fuFlag := rfl
  eBit := fun _ => rfl
  endPtr := by simp [setRtpPack1]
  start := fun _ => rfl
  length := rfl
  untouched := fun _ => rfl

theorem toNat_nextSeqNo (v : UInt16) : (nextSeqNo v).toNat = (v.toNat + 1) % 65536 := by
  have hv := v.toNat_lt
  unfold nextSeqNo
  split
  · rw [UInt16.toNat_add]
    rfl
  · rename_i h
    rw [UInt16.not_lt, UInt16.le_iff_toNat_le] at h
    rw [show (65535 : UInt16).toNat = 65535 from rfl] at h
    rw [show v.toNat = 65535 by omega]
    rfl

namespace Sending

variable {k : Nat}

theorem endPtr_eq (h : Sending ssrc seq frame k rtpInfo buf) (hk : 1400 * k < frame.dataSize) :
    rtpInfo.endPtr = frame.rtpDataBufPreSize + 1400 * k := by
  rw [h.endPtr, Nat.min_eq_left hk.le]

theorem nextStart_eq (h : Sending ssrc seq frame k rtpInfo buf)
    (hk : 1400 * k < frame.dataSize) :
    rtpInfo.nextStart = frame.rtpDataBufPreSize + 1400 * k := by
  unfold RtpInfo.nextStart
  split
  · rename_i hbegin
    rw [h.start hbegin, h.endPtr_eq hk]
  · exact h.endPtr_eq hk

theorem nextEnd_eq (h : Sending ssrc seq frame k rtpInfo buf) (hvalid : frame.Valid)
    (hk : 1400 * k < frame.dataSize) :
    rtpInfo.nextEnd =
      frame.rtpDataBufPreSize + min (1400 * (k + 1)) frame.dataSize := by
  have hsize := hvalid.size_lt
  have hleft : toS32 (rtpInfo.nal.endPtr - rtpInfo.nextStart) =
      (frame.dataSize : Int) - 1400 * k := by
    rw [h.nalEnd, h.nextStart_eq hk, toS32_of_bounds] <;> push_cast <;> omega
  unfold RtpInfo.nextEnd
  dsimp only
  rw [hleft, h.nextStart_eq hk]
  split
  · rename_i hlong
    have hcut : (frame.dataSize : Int) - 1400 * k > 1400 := hlong
    have hmax : maxRtpPacketSize = 1400 := rfl
    omega
  · rename_i hshort
    have hrest : ¬ (frame.dataSize : Int) - 1400 * k > 1400 := hshort
    omega

theorem nextEnd_eq_nalEnd (h : Sending ssrc seq frame k rtpInfo buf) (hvalid : frame.Valid)
    (hk : 1400 * k < frame.dataSize) :
    rtpInfo.nextEnd = rtpInfo.nal.endPtr ↔ k + 1 = packCount frame.dataSize := by
  rw [h.nextEnd_eq hvalid hk, h.nalEnd]
  unfold packCount
  omega

theorem nextEBit_eq (h : Sending ssrc seq frame k rtpInfo buf) (hvalid : frame.Valid)
    (hk : 1400 * k < frame.dataSize) :
    rtpInfo.nextEBit = (rtpInfo.fuFlag && decide (k + 1 = packCount frame.dataSize)) := by
  unfold RtpInfo.nextEBit
  rw [h.eBit hk]
  by_cases hfu : rtpInfo.fuFlag = true
  · by_cases hlast : k + 1 = packCount frame.dataSize
    · rw [if_pos ⟨hfu, (h.nextEnd_eq_nalEnd hvalid hk).mpr hlast⟩]
      simp [hfu, hlast]
    · rw [if_neg fun hc => hlast ((h.nextEnd_eq_nalEnd hvalid hk).mp hc.2)]
      simp [hlast]
  · simp [hfu]

theorem nextHeader_marker (h : Sending ssrc seq frame k rtpInfo buf) (hvalid : frame.Valid)
    (hk : 1400 * k < frame.dataSize) :
    rtpInfo.nextHeader.marker.toNat = if k + 1 = packCount frame.dataSize then 1 else 0 := by
  have hsingle : rtpInfo.fuFlag = false → k + 1 = packCount frame.dataSize := by
    rw [h.fuFlag, decide_eq_false_iff_not]
    simp only [maxRtpPacketSize, packCount]
    omega
  simp only [RtpInfo.nextHeader, h.nextEBit_eq hvalid hk, h.eoFrame]
  cases hfu : rtpInfo.fuFlag with
  | true => by_cases hlast : k + 1 = packCount frame.dataSize <;> simp [hlast]
  | false => simp [hsingle hfu]

theorem slice_eq (h : Sending ssrc seq frame k rtpInfo buf) {n count : Nat}
    (hn : rtpInfo.endPtr ≤ n) : slice buf n count = slice frame.dataPtr n count := by
  have hwhole := h.untouched (n - rtpInfo.endPtr + count)
  have hdrop := congrArg (List.drop (n - rtpInfo.endPtr)) hwhole
  simp only [slice, List.drop_take, List.drop_drop] at hdrop ⊢
  rw [show rtpInfo.endPtr + (n - rtpInfo.endPtr) = n by omega,
    Nat.add_sub_cancel_left] at hdrop
  exact hdrop

theorem nextHeader_video (h : Sending ssrc seq frame k rtpInfo buf) :
    Video ssrc rtpInfo.nextHeader :=
  ⟨h.hdr.version, h.hdr.padding, h.hdr.extension, h.hdr.csrcLen, h.hdr.payload, h.hdr.ssrc⟩

end Sending

theorem getRtpPsPack_done {k : Nat} (h : Sending ssrc seq frame k rtpInfo buf)
    (hk : frame.dataSize ≤ 1400 * k) :
    getRtpPsPack rtpInfo buf = some (rtpInfo, buf, none) := by
  rw [getRtpPsPack, if_pos]
  rw [h.endPtr, h.nalEnd, Nat.min_eq_right hk]

/-- **One packet.**  Packet `k` reads as the header of the stream with piece `k` behind
it, and marks the end of the frame exactly when nothing is left. -/
theorem getRtpPsPack_step {k : Nat} (hvalid : frame.Valid)
    (h : Sending ssrc seq frame k rtpInfo buf) (hk : 1400 * k < frame.dataSize) :
    ∃ (rtpInfo' : RtpInfo) (buf' : List UInt8) (rtpSize : Nat),
      getRtpPsPack rtpInfo buf = some (rtpInfo', buf', some rtpSize) ∧
      Sending ssrc seq frame (k + 1) rtpInfo' buf' ∧
      readRtp (slice buf' rtpInfo'.pRTP rtpSize) =
        some (frame.fields ssrc (seq + k) k, frame.piece k) := by
  have hroom := hvalid.room
  have hfits := hvalid.fits
  have hstart := h.nextStart_eq hk
  have hend := h.nextEnd_eq hvalid hk
  have hne : rtpInfo.endPtr ≠ rtpInfo.nal.endPtr := by
    rw [h.endPtr_eq hk, h.nalEnd]
    omega
  have hfront : rtpInfo.advance.pRTP + rtpInfo.nextHeader.toBytes.length ≤ buf.length := by
    rw [RtpHeader.length_toBytes, h.length]
    change rtpInfo.nextStart - 12 + 12 ≤ _
    omega
  obtain ⟨buf', hwrite⟩ := writeAt_isSome hfront
  have hpRTP : rtpInfo.advance.pRTP + 12 = frame.rtpDataBufPreSize + 1400 * k := by
    change rtpInfo.nextStart - 12 + 12 = _
    omega
  have hsize : rtpInfo.advance.hdrLen + (rtpInfo.advance.endPtr - rtpInfo.advance.start) =
      12 + (min (1400 * (k + 1)) frame.dataSize - 1400 * k) := by
    change 12 + (rtpInfo.nextEnd - (rtpInfo.nextStart - 12 + 12)) = _
    omega
  refine ⟨rtpInfo.advance, buf',
    rtpInfo.advance.hdrLen + (rtpInfo.advance.endPtr - rtpInfo.advance.start), ?_, ?_, ?_⟩
  · rw [getRtpPsPack, if_neg hne, if_neg (by omega)]
    simp only [hwrite, Option.map_some]
  · exact
      { hdr :=
          ⟨h.hdr.version, h.hdr.padding, h.hdr.extension, h.hdr.csrcLen, h.hdr.payload,
            h.hdr.ssrc⟩
        timestamp := h.timestamp
        seqNo := by
          change (nextSeqNo rtpInfo.rtpHdr.seqNo).toNat = _
          rw [toNat_nextSeqNo, h.seqNo]
          omega
        eoFrame := h.eoFrame
        nalEnd := h.nalEnd
        fuFlag := h.fuFlag
        eBit := fun hlt => by
          change rtpInfo.nextEBit = false
          rw [h.nextEBit_eq hvalid hk]
          have hnotlast : k + 1 ≠ packCount frame.dataSize := by
            unfold packCount
            omega
          simp [hnotlast]
        endPtr := hend
        start := fun hbegin => by cases hbegin
        length := (length_of_writeAt hwrite).trans h.length
        untouched := fun count => by
          change slice buf' rtpInfo.nextEnd count = slice _ rtpInfo.nextEnd count
          rw [slice_after_writeAt hwrite (by rw [RtpHeader.length_toBytes]; omega)]
          exact h.slice_eq (by rw [h.endPtr_eq hk]; omega) }
  · -- the payload starts where the header ends, in bytes no call has touched
    rw [hsize, ← RtpHeader.length_toBytes rtpInfo.nextHeader, slice_of_writeAt hwrite,
      RtpHeader.length_toBytes, hpRTP, readRtp_toBytes h.nextHeader_video,
      h.nextHeader_marker hvalid hk, h.slice_eq (h.endPtr_eq hk).le]
    unfold PsFrame.fields
    congr 3
    · exact h.seqNo
    · change rtpInfo.rtpHdr.timestamp.toNat = _
      rw [h.timestamp, UInt64.toNat_toUInt32]

/-! ## Whole frames and whole streams -/

theorem drainPacks_sending (hvalid : frame.Valid) (left : Nat) :
    ∀ (fuel : Nat) {k : Nat} {rtpInfo : RtpInfo} {buf : List UInt8}, left < fuel →
      k + left = packCount frame.dataSize → Sending ssrc seq frame k rtpInfo buf →
      ∃ (packets : List (List UInt8)) (last : RtpInfo) (lastBuf : List UInt8),
        drainPacks fuel rtpInfo buf = some (packets, last, lastBuf) ∧
        packets.map readRtp =
          (List.range' k left).map
            (fun j => some (frame.fields ssrc (seq + j) j, frame.piece j)) ∧
        Sending ssrc seq frame (packCount frame.dataSize) last lastBuf := by
  induction left with
  | zero =>
      intro fuel k rtpInfo buf hfuel hleft h
      obtain ⟨fuel, rfl⟩ := Nat.exists_eq_add_one_of_ne_zero hfuel.ne'
      have hk : frame.dataSize ≤ 1400 * k := by
        unfold packCount at hleft
        omega
      refine ⟨[], rtpInfo, buf, ?_, rfl, hleft ▸ h⟩
      simp only [drainPacks, getRtpPsPack_done h hk, Option.bind_eq_bind, Option.bind_some]
  | succ left ih =>
      intro fuel k rtpInfo buf hfuel hleft h
      obtain ⟨fuel, rfl⟩ := Nat.exists_eq_add_one_of_ne_zero (Nat.ne_zero_of_lt hfuel)
      have hk : 1400 * k < frame.dataSize := by
        unfold packCount at hleft
        omega
      obtain ⟨rtpInfo', buf', rtpSize, hpack, h', hread⟩ := getRtpPsPack_step hvalid h hk
      obtain ⟨packets, last, lastBuf, hdrain, hpackets, hlast⟩ :=
        ih fuel (by omega) (by omega) h'
      refine ⟨slice buf' rtpInfo'.pRTP rtpSize :: packets, last, lastBuf, ?_, ?_, hlast⟩
      · simp only [drainPacks, hpack, hdrain, Option.bind_eq_bind, Option.bind_some]
      · rw [List.map_cons, hread, hpackets, List.range'_succ, List.map_cons]

theorem packCount_le (dataSize : Nat) : packCount dataSize ≤ dataSize := by
  unfold packCount
  omega

/-- **One frame.**  Its packets are its pieces in order, and the header fields that
`rtp_info_init` fixed are kept for the next frame. -/
theorem packFrame_spec (hvalid : frame.Valid) (hdr : Video ssrc rtpInfo.rtpHdr)
    (hseq : rtpInfo.rtpHdr.seqNo.toNat = seq % 65536) :
    ∃ (packets : List (List UInt8)) (last : RtpInfo) (lastBuf : List UInt8),
      packFrame rtpInfo frame = some (packets, last, lastBuf) ∧
      packets.map readRtp =
        (List.range (packCount frame.dataSize)).map
          (fun k => some (frame.fields ssrc (seq + k) k, frame.piece k)) ∧
      Video ssrc last.rtpHdr ∧
      last.rtpHdr.seqNo.toNat = (seq + packCount frame.dataSize) % 65536 := by
  have hcount := packCount_le frame.dataSize
  obtain ⟨packets, last, lastBuf, hdrain, hpackets, hlast⟩ :=
    drainPacks_sending hvalid (packCount frame.dataSize) (frame.dataSize + 1)
      (by omega) (Nat.zero_add _) (sending_setRtpPack1 frame hdr hseq)
  rw [← List.range_eq_range'] at hpackets
  exact ⟨packets, last, lastBuf, hdrain, hpackets, hlast.hdr, hlast.seqNo⟩

/-- The packets in front of frame `i`. -/
def packetsBefore (frames : List PsFrame) (i : Nat) : Nat :=
  ((frames.take i).map fun frame => packCount frame.dataSize).sum

theorem packFrames_spec (frames : List PsFrame) :
    ∀ (seq : Nat) {rtpInfo : RtpInfo}, (∀ frame ∈ frames, frame.Valid) →
      Video ssrc rtpInfo.rtpHdr → rtpInfo.rtpHdr.seqNo.toNat = seq % 65536 →
      ∃ (packets : List (List (List UInt8))) (last : RtpInfo),
        packFrames rtpInfo frames = some (packets, last) ∧
        packets.length = frames.length ∧
        ∀ (i : Nat) (frame : PsFrame) (framePackets : List (List UInt8)),
          frames[i]? = some frame → packets[i]? = some framePackets →
          framePackets.map readRtp =
            (List.range (packCount frame.dataSize)).map
              (fun k => some
                (frame.fields ssrc (seq + packetsBefore frames i + k) k, frame.piece k)) := by
  induction frames with
  | nil =>
      intro seq rtpInfo _ _ _
      exact ⟨[], rtpInfo, rfl, rfl, fun i frame framePackets hframe => by simp at hframe⟩
  | cons frame frames ih =>
      intro seq rtpInfo hvalid hdr hseq
      obtain ⟨packets, last, lastBuf, hpack, hpackets, hdr', hseq'⟩ :=
        packFrame_spec (hvalid frame List.mem_cons_self) hdr hseq
      obtain ⟨rest, last', hrest, hlength, hspec⟩ :=
        ih (seq + packCount frame.dataSize) (fun f hf => hvalid f (List.mem_cons_of_mem _ hf)) hdr'
          hseq'
      refine ⟨packets :: rest, last', ?_, congrArg Nat.succ hlength, ?_⟩
      · simp only [packFrames, hpack, hrest, Option.bind_eq_bind, Option.bind_some]
      · intro i frame' framePackets hframe hpacketsAt
        cases i with
        | zero =>
            obtain rfl : frame = frame' := by simpa using hframe
            obtain rfl : packets = framePackets := by simpa using hpacketsAt
            exact hpackets
        | succ i =>
            rw [List.getElem?_cons_succ] at hframe hpacketsAt
            have hnumber : seq + packCount frame.dataSize + packetsBefore frames i =
                seq + packetsBefore (frame :: frames) (i + 1) := by
              simp only [packetsBefore, List.take_succ_cons, List.map_cons, List.sum_cons]
              omega
            rw [← hnumber]
            exact hspec i frame' framePackets hframe hpacketsAt

/-- **Fragmentation is lossless.**  The frames of a stream of payload type 96, each of
more than three bytes, come out as `⌈N / 1400⌉` packets each; packet `k` of a frame
reads as the fixed header fields, the time stamp of the frame, the marker bit of the
last packet and the next sequence number of the stream, with the bytes
`[1400 k, min (1400 (k + 1)) N)` of the frame as its payload. -/
theorem packFrames_lossless (ssrc : UInt32) (frames : List PsFrame)
    (hvalid : ∀ frame ∈ frames, frame.Valid ∧ 3 < frame.dataSize) :
    ∃ (packets : List (List (List UInt8))) (last : RtpInfo),
      packFrames (rtpInfoInit 96 ssrc) frames = some (packets, last) ∧
      packets.length = frames.length ∧
      ∀ (i : Nat) (frame : PsFrame) (framePackets : List (List UInt8)),
        frames[i]? = some frame → packets[i]? = some framePackets →
        framePackets.length = (frame.dataSize + 1399) / 1400 ∧
        ∀ (k : Nat) (packet : List UInt8), framePackets[k]? = some packet →
          readRtp packet =
            some
              ({ version := 2, padding := 0, extension := 0, csrcCount := 0
                 marker := if k + 1 = framePackets.length then 1 else 0
                 payloadType := 96, seqNo := (packetsBefore frames i + k) % 65536
                 timestamp := frame.timeStamp.toNat % 2 ^ 32, ssrc := ssrc.toNat },
                slice frame.dataPtr (frame.rtpDataBufPreSize + 1400 * k)
                  (min (1400 * (k + 1)) frame.dataSize - 1400 * k)) := by
  have hinit : Video ssrc (rtpInfoInit 96 ssrc).rtpHdr := ⟨rfl, rfl, rfl, rfl, rfl, rfl⟩
  obtain ⟨packets, last, hpack, hlength, hspec⟩ :=
    packFrames_spec frames 0 (fun frame hf => (hvalid frame hf).1) hinit rfl
  refine ⟨packets, last, hpack, hlength, ?_⟩
  intro i frame framePackets hframe hpackets
  have hmap := hspec i frame framePackets hframe hpackets
  have hcount : framePackets.length = packCount frame.dataSize := by
    simpa using congrArg List.length hmap
  refine ⟨hcount, fun k packet hpacket => ?_⟩
  have hk : k < packCount frame.dataSize :=
    hcount ▸ (List.getElem?_eq_some_iff.mp hpacket).1
  have hread := congrArg (·[k]?) hmap
  simp only [List.getElem?_map, hpacket, List.getElem?_range hk, Option.map_some,
    Nat.zero_add, Option.some.injEq] at hread
  rw [hread, hcount]
  rfl

theorem packFrames_lossless_two :
    ∃ (packets : List (List (List UInt8))) (last : RtpInfo),
      packFrames (rtpInfoInit 96 7)
          [⟨List.replicate 1434 5, 1414, 9, 20⟩, ⟨List.replicate 30 6, 4, 99, 20⟩] =
        some (packets, last) ∧
      (packets.map fun framePackets => framePackets.length) = [2, 1] := by
  obtain ⟨packets, last, hpack, hlength, hspec⟩ :=
    packFrames_lossless 7
      [⟨List.replicate 1434 5, 1414, 9, 20⟩, ⟨List.replicate 30 6, 4, 99, 20⟩] (by
        intro frame hframe
        simp only [List.mem_cons, List.not_mem_nil, or_false] at hframe
        rcases hframe with rfl | rfl <;>
          exact ⟨⟨by decide, by rw [List.length_replicate]; decide, by decide⟩, by decide⟩)
  refine ⟨packets, last, hpack, ?_⟩
  obtain ⟨first, second, rfl⟩ : ∃ first second, packets = [first, second] :=
    List.length_eq_two.mp hlength
  have hfirst := (hspec 0 _ first rfl rfl).1
  have hsecond := (hspec 1 _ second rfl rfl).1
  simp [hfirst, hsecond]

end GbStream.Rtp
