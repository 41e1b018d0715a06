import GbStream.Rtp.FirstPacket
import GbStream.Task.Clock
import GbStream.Task.PsBuffer
import GbStream.Task.Viewer

/-!
# The send task of a stream

`send_rtp_to_client_task` takes the records of the queue one by one: it moves its clock,
multiplexes a video frame into `pPsData` and sends the packets of it to the clients of the node.
-/

namespace GbStream.Task

open Support.Bytes Ps Rtp Recv

/-- What lives from one round of the loop to the next, with the stream node. -/
structure SendTask where
  clock : Clock := {}
  stPsInfo : PsFrameInfo := {}
  pPsData : List UInt8 := List.replicate psDataSize 0
  pStreamNode : StreamNode

/-- The last argument of `pack_ps_rtp_and_add_node`. -/
def frameTypeArg (frameType : EsFrameType) : Int := if frameType = .frameI then 1 else 0

/-- `pPsData` behind `pack_ps_rtp_and_add_node`: the headers of the packets lie in it. -/
def psDataBehind (rtpInfo : RtpInfo) (frame : PsFrame) : List UInt8 :=
  if frame.dataSize > 3 then
    match packFrame rtpInfo frame with
    | some (_, _, buf) => buf
    | none => frame.dataPtr
  else frame.dataPtr

/-- What is done with a record; `none` is a write outside `pPsData`. -/
def SendTask.sendRecord (t : SendTask) (stQueueOut : QueueArgs) : Option SendTask :=
  let clock := t.clock.tick stQueueOut.stCmdHead.vPts
  match psFrameType stQueueOut.stCmdHead.dataType with
  | none => some { t with clock }
  | some frameType => do
      let (stPsInfo, pPsData, iPsDataLen) ←
        psProcessRecord t.stPsInfo stQueueOut frameType t.pPsData clock.u64Time
      let frame : PsFrame :=
        { dataPtr := pPsData, dataSize := (iPsDataLen % 2 ^ 32).toNat, timeStamp := clock.u64Time
          rtpDataBufPreSize := stQueueOut.iDataPreBufSize.toNat }
      let pStreamNode ← packPsRtpAndAddNode t.pStreamNode frame (frameTypeArg frameType)
      some
        { clock, stPsInfo, pPsData := psDataBehind t.pStreamNode.rtpInfoVideo frame
          pStreamNode }

/-- The pictures in a run of records, timed by the clock of the task. -/
def pictures (c : Clock) : List QueueArgs → List Picture
  | [] => []
  | record :: records =>
      let c := c.tick record.stCmdHead.vPts
      match psFrameType record.stCmdHead.dataType with
      | none => pictures c records
      | some frameType =>
          ⟨frameType, c.u64Time.toNat % 2 ^ 32, record.data⟩ :: pictures c records

theorem pictures_append (records records' : List QueueArgs) :
    ∀ c : Clock, pictures c (records ++ records') =
      pictures c records ++
        pictures (records.foldl (fun c record => c.tick record.stCmdHead.vPts) c) records' := by
  induction records with
  | nil => exact fun _ => rfl
  | cons record records ih =>
      intro c
      simp only [List.cons_append, pictures, List.foldl_cons, ih]
      cases psFrameType record.stCmdHead.dataType <;> rfl

/-- The size of the largest frame of a type that `pPsData` has room for. -/
def maxDataLength (frameType : EsFrameType) : Nat :=
  if frameType = .frameI then 705049 else 705097

/-- A record as the receive callback makes it, of a frame that is not too large. -/
structure Sendable (record : QueueArgs) : Prop where
  preBufSize : record.iDataPreBufSize = ((record.data.length / 1400 + 1) * 20 + 1400 : Nat)
  cmdLength : record.stCmdHead.cmdLength = record.data.length
  fits : ∀ frameType, psFrameType record.stCmdHead.dataType = some frameType →
    record.data.length ≤ maxDataLength frameType

theorem psFrameType_ne_audio {dataType : DataType} {frameType : EsFrameType}
    (h : psFrameType dataType = some frameType) : frameType ≠ .frameAudio := by
  cases dataType <;> cases h <;> decide

/-! ## The program stream in `pPsData` -/

theorem length_programStream (frameType : EsFrameType) (iTime : UInt64) (data : List UInt8) :
    (programStream frameType iTime data).length = psExtent frameType data.length := by
  rw [programStream, List.length_append, length_videoHeaders, length_pesStream, psExtent]
  omega

section Length

variable {iTime : UInt64} {buf buf' src : List UInt8}

theorem length_psVideoLoop (frameLen : Nat) :
    ∀ {buf buf' src : List UInt8} {offset offset' : Nat},
      psVideoLoop iTime frameLen buf offset src = some (buf', offset') →
      buf'.length = buf.length := by
  induction frameLen using Nat.strong_induction_on with
  | _ frameLen ih =>
      intro buf buf' src offset offset' h
      rw [psVideoLoop] at h
      split at h
      · rename_i hpos
        simp only [Option.bind_eq_bind, Option.bind_eq_some_iff] at h
        obtain ⟨buf₁, hpacket, hrest⟩ := h
        have hpayload := pesPayloadLength_pos hpos
        calc buf'.length
            = buf₁.length := ih _ (by omega) hrest
          _ = buf.length := (psPesPacket_some hpacket).2
      · cases h
        rfl

theorem length_psProcess {pPsInfo pPsInfo' : PsFrameInfo} {frameLen : Nat}
    {frameType : EsFrameType} {psDataLen : Int} (hvideo : frameType ≠ .frameAudio)
    (h : psProcess pPsInfo src frameLen frameType buf iTime = some (pPsInfo', buf', psDataLen)) :
    buf'.length = buf.length := by
  cases frameType with
  | frameAudio => exact absurd rfl hvideo
  | frameP =>
      simp only [psProcess, Option.bind_eq_bind, Option.bind_eq_some_iff, Option.some.injEq,
        Prod.mk.injEq, Prod.exists] at h
      obtain ⟨buf₁, hpack, buf₂, offset, hloop, -, rfl, -⟩ := h
      exact (length_psVideoLoop _ hloop).trans (length_of_writeAt hpack)
  | frameI =>
      simp only [psProcess, psIFrameHeaders, Option.bind_eq_bind, Option.bind_eq_some_iff,
        Option.some.injEq, Prod.mk.injEq, Prod.exists] at h
      obtain ⟨buf₁, hpack, buf₂, offset, ⟨buf₃, hsystem, buf₄, hmap, rfl, -⟩, buf₅, offset', hloop,
        -, rfl, -⟩ := h
      calc buf₅.length
          = buf₄.length := length_psVideoLoop _ hloop
        _ = buf₃.length := length_of_writeAt hmap
        _ = buf₁.length := length_of_writeAt hsystem
        _ = buf.length := length_of_writeAt hpack

end Length

theorem Sendable.psProcessRecord {record : QueueArgs} (h : Sendable record)
    {frameType : EsFrameType} (htype : psFrameType record.stCmdHead.dataType = some frameType)
    (stPsInfo : PsFrameInfo) {pPsData : List UInt8} (hsize : pPsData.length = psDataSize)
    (u64Time : UInt64) :
    ∃ psData : List UInt8, Task.psProcessRecord stPsInfo record frameType pPsData u64Time =
        some (stPsInfo, psData, ((psExtent frameType record.data.length : Nat) : Int)) ∧
      psData.length = psDataSize ∧
      slice psData record.iDataPreBufSize.toNat (psExtent frameType record.data.length) =
        programStream frameType u64Time record.data := by
  have hpre : record.iDataPreBufSize.toNat = (record.data.length / 1400 + 1) * 20 + 1400 := by
    rw [h.preBufSize]
    rfl
  have hmax := h.fits frameType htype
  have hroom : record.iDataPreBufSize.toNat + psExtent frameType record.data.length ≤
      psDataSize := by
    rw [hpre]
    unfold psExtent psDataSize
    unfold maxDataLength at hmax
    split at hmax <;> rename_i hI <;> simp only [hI, if_true, if_false] <;> omega
  have hdrop : (pPsData.drop record.iDataPreBufSize.toNat).length =
      psDataSize - record.iDataPreBufSize.toNat := by
    rw [List.length_drop, hsize]
  have hvideo := psFrameType_ne_audio htype
  obtain ⟨buf, hprocess, htake⟩ := psProcess_video_stream stPsInfo u64Time hvideo
    (le_refl record.data.length) (by unfold psExtent psDataSize at hroom; omega)
    (by rw [hdrop]; unfold psExtent at hroom; omega)
  have hlength := length_psProcess hvideo hprocess
  rw [List.take_length] at htake
  have hfront : (pPsData.take record.iDataPreBufSize.toNat).length =
      record.iDataPreBufSize.toNat := by
    rw [List.length_take, hsize]
    omega
  refine ⟨pPsData.take record.iDataPreBufSize.toNat ++ buf, ?_, ?_, ?_⟩
  · rw [Task.psProcessRecord, h.cmdLength, Int.toNat_natCast, hprocess]
    rfl
  · rw [List.length_append, hfront, hlength, hdrop]
    omega
  · rw [slice, List.drop_append_of_le_length (le_of_eq hfront.symm),
      List.drop_eq_nil_of_le (le_of_eq hfront), List.nil_append]
    exact htake

/-! ## One record -/

/-- The task between two rounds, with no client to be deleted; the next packet has the number of
the packets that have been sent. -/
structure SendTask.Ready (ssrc : UInt32) (t : SendTask) : Prop where
  size : t.pPsData.length = psDataSize
  idle : t.pStreamNode.Idle ssrc
  seqNo : t.pStreamNode.rtpInfoVideo.rtpHdr.seqNo.toNat = t.pStreamNode.packets.length % 65536

/-- The packets of a frame, the first of which is number `seq` of its stream. -/
structure Carries (ssrc : UInt32) (seq : Nat) (picture : Picture) (packets : List RtpPacket) :
    Prop where
  ne_nil : packets ≠ []
  frameType : ∀ packet ∈ packets, packet.frameType = frameTypeArg picture.frameType
  read : ∀ rest, watch ssrc seq (packets.map RtpPacket.bytes ++ rest) =
    (watch ssrc (seq + packets.length) rest).map (picture :: ·)

theorem map_bytes_placed (frame : Nat) (frameType : Int) (first : Nat)
    (packets : List (List UInt8)) :
    (placed frame frameType first packets).map RtpPacket.bytes = packets := by
  rw [placed, List.map_map]
  exact List.zipIdx_map_fst first packets

theorem watch_cons {ssrc : UInt32} {seq seq' stamp : Nat} {ps : List UInt8} {picture : Picture}
    {datagrams rest : List (List UInt8)} (hread : readPicture stamp ps = some picture)
    (hstreams : depacketise ssrc seq none datagrams =
      (depacketise ssrc seq' none rest).map ((stamp, ps) :: ·)) :
    watch ssrc seq datagrams = (watch ssrc seq' rest).map (picture :: ·) := by
  unfold watch
  rw [hstreams]
  cases depacketise ssrc seq' none rest with
  | none => rfl
  | some streams =>
      simp only [Option.map_some, Option.bind_some, List.mapM_cons, hread, Option.bind_eq_bind,
        Option.pure_def]
      exact Option.map_eq_bind.symm

theorem watch_frame {ssrc : UInt32} {seq : Nat} {frame : PsFrame} {frameType : EsFrameType}
    (hvideo : frameType ≠ .frameAudio) {data : List UInt8}
    (hframe : slice frame.dataPtr frame.rtpDataBufPreSize frame.dataSize =
      programStream frameType frame.timeStamp data) {datagrams : List (List UInt8)}
    (hpos : 0 < frame.dataSize)
    (hread : datagrams.map readRtp = (List.range (packCount frame.dataSize)).map
      (fun j => some (frame.fields ssrc (seq + j) j, frame.piece j)))
    (rest : List (List UInt8)) :
    watch ssrc seq (datagrams ++ rest) = (watch ssrc (seq + datagrams.length) rest).map
      (⟨frameType, frame.timeStamp.toNat % 2 ^ 32, data⟩ :: ·) := by
  have hlength : datagrams.length = packCount frame.dataSize := by
    have hcount := congrArg List.length hread
    rwa [List.length_map, List.length_map, List.length_range] at hcount
  have hstreams := depacketise_frame rest hpos hread
  rw [hframe, ← hlength] at hstreams
  exact watch_cons (readPicture_programStream hvideo _ _ data) hstreams

variable {ssrc : UInt32} {t : SendTask} {record : QueueArgs}

/-- **The packets of a frame**, with what is left behind them. -/
theorem packPsRtpAndAddNode_sends {node : StreamNode} (hidle : node.Idle ssrc) {seq : Nat}
    (hseq : node.rtpInfoVideo.rtpHdr.seqNo.toNat = seq % 65536) {frame : PsFrame}
    (hvalid : frame.Valid) (hsize : frame.dataSize > 3) (frameType : Int) :
    ∃ (node' : StreamNode) (packets : List RtpPacket),
      packPsRtpAndAddNode node frame frameType = some node' ∧ node'.Idle ssrc ∧
      node'.rtpInfoVideo.rtpHdr.seqNo.toNat = (seq + packets.length) % 65536 ∧
      node'.packets = node.packets ++ packets ∧
      node'.listClientNodeHead = node.listClientNodeHead.map (·.offers packets) ∧
      (∀ packet ∈ packets, packet.frameType = frameType) ∧
      (packets.map RtpPacket.bytes).map readRtp = (List.range (packCount frame.dataSize)).map
        (fun j => some (frame.fields ssrc (seq + j) j, frame.piece j)) ∧
      (psDataBehind node.rtpInfoVideo frame).length = frame.dataPtr.length := by
  obtain ⟨drained, last, lastBuf, hdrain, hread, hlast⟩ :=
    drainPacks_sending hvalid (packCount frame.dataSize) (frame.dataSize + 1)
      (Nat.lt_succ_of_le (packCount_le frame.dataSize)) (Nat.zero_add _)
      (sending_setRtpPack1 frame hidle.hdr hseq)
  obtain ⟨i, hloop⟩ := sendLoop_eq node.frames frameType (frame.dataSize + 1) []
    ⟨node.listClientNodeHead, node.listClientNodeHead.length, 0, node.freed⟩ hdrain rfl hidle.keep
  have hcount : drained.length = packCount frame.dataSize := by
    simpa using congrArg List.length hread
  have hpack : packFrame node.rtpInfoVideo frame = some (drained, last, lastBuf) := hdrain
  refine ⟨
    { rtpInfoVideo := last, frames := node.frames + 1, freed := node.freed
      listClientNodeHead := node.listClientNodeHead.map
        (·.offers (placed node.frames frameType 0 drained))
      packets := node.packets ++ placed node.frames frameType 0 drained },
    placed node.frames frameType 0 drained, ?_, ⟨hlast.hdr, ?_⟩, ?_, rfl, rfl, ?_, ?_, ?_⟩
  · rw [packPsRtpAndAddNode, if_pos hsize]
    simp only [hloop, Option.bind_eq_bind, Option.bind_some, List.nil_append, List.length_nil]
  · simpa using hidle.keep
  · have hplaced : (placed node.frames frameType 0 drained).length = drained.length := by
      rw [placed, List.length_map, List.length_zipIdx]
    rw [hplaced, hcount]
    exact hlast.seqNo
  · intro packet hpacket
    rw [placed, List.mem_map] at hpacket
    obtain ⟨_, -, rfl⟩ := hpacket
    rfl
  · rw [map_bytes_placed, hread, List.range_eq_range']
  · rw [psDataBehind, if_pos hsize, hpack]
    exact hlast.length

theorem SendTask.sendRecord_video {frameType : EsFrameType}
    (htype : psFrameType record.stCmdHead.dataType = some frameType) {stPsInfo : PsFrameInfo}
    {pPsData : List UInt8} {iPsDataLen : Int} {node : StreamNode} {frame : PsFrame}
    (hprocess : psProcessRecord t.stPsInfo record frameType t.pPsData
      (t.clock.tick record.stCmdHead.vPts).u64Time = some (stPsInfo, pPsData, iPsDataLen))
    (hframe : frame =
      { dataPtr := pPsData, dataSize := (iPsDataLen % 2 ^ 32).toNat
        timeStamp := (t.clock.tick record.stCmdHead.vPts).u64Time
        rtpDataBufPreSize := record.iDataPreBufSize.toNat })
    (hpack : packPsRtpAndAddNode t.pStreamNode frame (frameTypeArg frameType) = some node) :
    t.sendRecord record =
      some
        { clock := t.clock.tick record.stCmdHead.vPts, stPsInfo
          pPsData := psDataBehind t.pStreamNode.rtpInfoVideo frame, pStreamNode := node } := by
  subst hframe
  rw [SendTask.sendRecord, htype]
  simp only [hprocess, hpack, Option.bind_eq_bind, Option.bind_some]

/-- **A video frame is sent** to every client, and its packets carry it. -/
theorem SendTask.Ready.sendRecord (h : t.Ready ssrc) (hsend : Sendable record)
    {frameType : EsFrameType} (htype : psFrameType record.stCmdHead.dataType = some frameType) :
    ∃ (t' : SendTask) (packets : List RtpPacket), t.sendRecord record = some t' ∧
      t'.Ready ssrc ∧ t'.clock = t.clock.tick record.stCmdHead.vPts ∧
      t'.pStreamNode.packets = t.pStreamNode.packets ++ packets ∧
      t'.pStreamNode.listClientNodeHead =
        t.pStreamNode.listClientNodeHead.map (·.offers packets) ∧
      Carries ssrc t.pStreamNode.packets.length
        ⟨frameType, t'.clock.u64Time.toNat % 2 ^ 32, record.data⟩ packets := by
  have hvideo := psFrameType_ne_audio htype
  obtain ⟨psData, hprocess, hlength, hslice⟩ := hsend.psProcessRecord htype t.stPsInfo h.size
    (t.clock.tick record.stCmdHead.vPts).u64Time
  -- the program stream lies in the buffer
  have hinside := congrArg List.length hslice
  rw [length_programStream, slice, List.length_take, List.length_drop, hlength] at hinside
  have hextent : 14 ≤ psExtent frameType record.data.length := by
    unfold psExtent
    omega
  have hpre : 12 ≤ record.iDataPreBufSize.toNat := by
    rw [hsend.preBufSize, Int.toNat_natCast]
    omega
  have hlen : ((psExtent frameType record.data.length : Int) % 2 ^ 32).toNat =
      psExtent frameType record.data.length := by
    unfold psDataSize at hinside
    omega
  let frame : PsFrame :=
    { dataPtr := psData, dataSize := psExtent frameType record.data.length
      timeStamp := (t.clock.tick record.stCmdHead.vPts).u64Time
      rtpDataBufPreSize := record.iDataPreBufSize.toNat }
  have hvalid : frame.Valid := {
    room := hpre
    fits := by
      show record.iDataPreBufSize.toNat + psExtent frameType record.data.length ≤ psData.length
      rw [hlength]
      omega
    size_lt := by
      show psExtent frameType record.data.length < 2 ^ 31
      unfold psDataSize at hinside
      omega }
  have hsize : frame.dataSize > 3 := by
    show psExtent frameType record.data.length > 3
    omega
  obtain ⟨node, packets, hpack, hidle, hseq, hpackets, hclients, htypes, hread, hbehind⟩ :=
    packPsRtpAndAddNode_sends h.idle h.seqNo hvalid hsize (frameTypeArg frameType)
  have hcount : packets.length = packCount frame.dataSize := by
    simpa using congrArg List.length hread
  refine ⟨
    { clock := t.clock.tick record.stCmdHead.vPts, stPsInfo := t.stPsInfo
      pPsData := psDataBehind t.pStreamNode.rtpInfoVideo frame, pStreamNode := node },
    packets, ?_, ⟨hbehind.trans hlength, hidle, ?_⟩, rfl, hpackets, hclients, ?_⟩
  · refine SendTask.sendRecord_video htype hprocess ?_ hpack
    rw [hlen]
  · rw [hseq, hpackets, List.length_append]
  · exact {
      ne_nil := by
        rintro rfl
        unfold packCount at hcount
        simp at hcount
        omega
      frameType := htypes
      read := by
        intro rest
        have hwatch := watch_frame hvideo hslice (by omega) hread rest
        rwa [List.length_map] at hwatch }

theorem SendTask.sendRecord_other (htype : psFrameType record.stCmdHead.dataType = none) :
    t.sendRecord record = some { t with clock := t.clock.tick record.stCmdHead.vPts } := by
  rw [SendTask.sendRecord, htype]

end GbStream.Task
