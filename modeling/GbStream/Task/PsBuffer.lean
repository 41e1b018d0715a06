import GbStream.Task.Record

/-!
# The program-stream buffer of the send task

`send_rtp_to_client_task` multiplexes every video frame into one buffer of 512 RTP
packets, behind as many bytes as the record of the frame keeps free for RTP headers.
-/

namespace GbStream.Task

open Support.Bytes Ps Recv

/-- The bytes `calloc` gives for `pPsData`. -/
def psDataSize : Nat := 512 * 1400

/-- The call of `ps_process` for a record, at `pPsData + iRtpDataBufPreSize`; `none` when
it writes outside `pPsData`. -/
def psProcessRecord (stPsInfo : PsFrameInfo) (stQueueOut : QueueArgs) (frameType : EsFrameType)
    (pPsData : List UInt8) (u64Time : UInt64) : Option (PsFrameInfo × List UInt8 × Int) := do
  let iRtpDataBufPreSize := stQueueOut.iDataPreBufSize.toNat
  let (stPsInfo, psData, iPsDataLen) ←
    psProcess stPsInfo stQueueOut.data stQueueOut.stCmdHead.cmdLength.toNat frameType
      (pPsData.drop iRtpDataBufPreSize) u64Time
  some (stPsInfo, pPsData.take iRtpDataBufPreSize ++ psData, iPsDataLen)

/-! ## Where `ps_process` stops writing -/

/-- The last position a video frame of `len` bytes takes in the buffer of `ps_process`. -/
def psExtent (frameType : EsFrameType) (len : Nat) : Nat :=
  14 + (if frameType = .frameI then 48 else 0) + len + 19 * ((len + 65521) / 65522)

section Extent

variable {iTime : UInt64} {buf buf' src bytes : List UInt8} {offset count : Nat}

theorem writeAt_some (h : writeAt buf offset bytes = some buf') :
    offset + bytes.length ≤ buf.length ∧ buf'.length = buf.length :=
  ⟨(writeAt_inv h).1, length_of_writeAt h⟩

theorem copyAt_some (h : copyAt buf offset src count = some buf') :
    offset + count ≤ buf.length ∧ buf'.length = buf.length := by
  unfold copyAt at h
  split at h
  · rename_i hcount
    obtain ⟨hfit, hlength⟩ := writeAt_some h
    rw [List.length_take, Nat.min_eq_left hcount] at hfit
    exact ⟨hfit, hlength⟩
  · cases h

theorem psPesPacket_some {init : PsPesHeader → PsPesHeader} {frameLen : Nat}
    (h : psPesPacket init iTime frameLen buf offset src = some buf') :
    offset + 19 + pesPayloadLength frameLen ≤ buf.length ∧ buf'.length = buf.length := by
  unfold psPesPacket at h
  simp only [Option.bind_eq_bind, Option.bind_eq_some_iff] at h
  obtain ⟨buf₁, hheader, hcopy⟩ := h
  obtain ⟨-, hlength₁⟩ := writeAt_some hheader
  obtain ⟨hfit, hlength⟩ := copyAt_some hcopy
  rw [hlength₁] at hfit hlength
  exact ⟨hfit, hlength⟩

theorem psVideoLoop_some (frameLen : Nat) :
    ∀ {buf buf' src : List UInt8} {offset offset' : Nat}, 0 < frameLen →
      psVideoLoop iTime frameLen buf offset src = some (buf', offset') →
      offset + frameLen + 19 * ((frameLen + 65521) / 65522) ≤ buf.length := by
  induction frameLen using Nat.strong_induction_on with
  | _ frameLen ih =>
      intro buf buf' src offset offset' hpos h
      rw [psVideoLoop, dif_pos hpos] at h
      simp only [Option.bind_eq_bind, Option.bind_eq_some_iff] at h
      obtain ⟨buf₁, hpacket, hrest⟩ := h
      obtain ⟨hfit, hlength⟩ := psPesPacket_some hpacket
      have hpayload := pesPayloadLength_eq_min frameLen
      simp only [maxPesPacketLength, psPesPplLength] at hpayload
      rcases Nat.eq_zero_or_pos (frameLen - pesPayloadLength frameLen) with hlast | hmore
      · omega
      · have hbound := ih (frameLen - pesPayloadLength frameLen) (by omega) hmore hrest
        omega

theorem psProcess_isSome_iff (pPsInfo : PsFrameInfo) {frameType : EsFrameType}
    (hvideo : frameType ≠ .frameAudio) (hpos : src ≠ []) :
    (psProcess pPsInfo src src.length frameType buf iTime).isSome ↔
      psExtent frameType src.length ≤ buf.length := by
  have hlen : 0 < src.length := List.length_pos_iff.mpr hpos
  constructor
  · intro h
    obtain ⟨⟨info, out, len⟩, h⟩ := Option.isSome_iff_exists.mp h
    cases frameType with
    | frameI =>
        simp only [psProcess, Option.bind_eq_bind, Option.bind_eq_some_iff] at h
        obtain ⟨buf₁, hpack, ⟨buf₂, offset₂⟩, hheaders, ⟨buf₃, offset₃⟩, hloop, -⟩ := h
        simp only [psIFrameHeaders, Option.bind_eq_bind, Option.bind_eq_some_iff] at hheaders
        obtain ⟨buf₄, hsystem, buf₅, hmap, heq⟩ := hheaders
        obtain ⟨rfl, rfl⟩ := Prod.mk.inj (Option.some.inj heq)
        have hbound := psVideoLoop_some _ hlen hloop
        rw [(writeAt_some hmap).2, (writeAt_some hsystem).2, (writeAt_some hpack).2] at hbound
        rw [psExtent, if_pos rfl]
        omega
    | frameP =>
        simp only [psProcess, Option.bind_eq_bind, Option.bind_eq_some_iff] at h
        obtain ⟨buf₁, hpack, ⟨buf₃, offset₃⟩, hloop, -⟩ := h
        have hbound := psVideoLoop_some _ hlen hloop
        rw [(writeAt_some hpack).2] at hbound
        rw [psExtent, if_neg (by decide)]
        omega
    | frameAudio => exact absurd rfl hvideo
  · intro h
    obtain ⟨buf', hprocess, -⟩ := psProcess_video_holds pPsInfo iTime hvideo (Nat.le_refl _)
      (show (videoHeaders frameType iTime).length +
          (pesStream videoStream iTime (src.take src.length)).length ≤ buf.length by
        rw [length_videoHeaders, length_pesStream, List.take_length]
        exact le_trans (by rw [psExtent]; omega) h)
    rw [hprocess]
    rfl

end Extent

/-! ## The frames that fit -/

namespace VideoFrame

/-- The size of the largest frame that fits behind the bytes its record keeps free. -/
def maxLength (f : VideoFrame) : Nat := if f.frameType = .frameI then 705049 else 705097

theorem iDataPreBufSize_record (f : VideoFrame) :
    f.record.iDataPreBufSize.toNat = (f.data.length / 1400 + 1) * 20 + 1400 := by
  have hdiv : (f.data.length : Int).tdiv 1400 = (f.data.length / 1400 : Nat) :=
    Int.ofNat_tdiv f.data.length 1400
  simp only [record, frameRecord, hdiv]
  omega

/-- The call stays inside `pPsData` exactly when the bytes kept free, the headers and the
frame fit together. -/
theorem psProcessRecord_isSome_iff (f : VideoFrame) (stPsInfo : PsFrameInfo)
    {pPsData : List UInt8} (u64Time : UInt64) (hsize : pPsData.length = psDataSize) :
    (psProcessRecord stPsInfo f.record f.frameType pPsData u64Time).isSome ↔
      (f.data.length / 1400 + 1) * 20 + 1400 + psExtent f.frameType f.data.length ≤ psDataSize := by
  have hcall : (psProcessRecord stPsInfo f.record f.frameType pPsData u64Time).isSome =
      (psProcess stPsInfo f.data f.data.length f.frameType
        (pPsData.drop f.record.iDataPreBufSize.toNat) u64Time).isSome := by
    unfold psProcessRecord
    simp only [Option.bind_eq_bind]
    rw [show f.record.data = f.data from rfl,
      show f.record.stCmdHead.cmdLength.toNat = f.data.length from rfl]
    cases psProcess stPsInfo f.data f.data.length f.frameType
      (pPsData.drop f.record.iDataPreBufSize.toNat) u64Time <;> rfl
  rw [hcall, psProcess_isSome_iff stPsInfo f.frameType_ne_audio f.data_ne_nil, List.length_drop,
    iDataPreBufSize_record, hsize]
  have hpos : 0 < psExtent f.frameType f.data.length := by
    unfold psExtent
    omega
  omega

end VideoFrame

/-- **The frames whose program stream fits.** -/
theorem psProcessRecord_inside (f : VideoFrame) (stPsInfo : PsFrameInfo) (pPsData : List UInt8)
    (u64Time : UInt64) (hsize : pPsData.length = psDataSize) :
    (psProcessRecord stPsInfo f.record f.frameType pPsData u64Time).isSome ↔
      f.data.length ≤ f.maxLength := by
  rw [f.psProcessRecord_isSome_iff stPsInfo u64Time hsize]
  unfold psExtent VideoFrame.maxLength psDataSize
  split
  · omega
  · omega

/-- A frame of `len` zero bytes. -/
def zeroFrame (byFrameType : UInt8) (len : Nat) (hvideo : byFrameType = 0 ∨ byFrameType = 1)
    (hpos : 0 < len) (hle : len ≤ sourceBufferSize) : VideoFrame where
  stPackage := { readNetLayer [] with byFrameType }
  data := List.replicate len 0
  video := hvideo
  data_ne_nil := List.ne_nil_of_length_pos (by rw [List.length_replicate]; exact hpos)
  length_le := by
    rw [List.length_replicate]
    exact hle

/-- The largest I frame that fits, and one byte more. -/
theorem psProcessRecord_inside_largest :
    (psProcessRecord {} (zeroFrame 1 705049 (.inr rfl) (by decide) (by decide)).record .frameI
        (List.replicate psDataSize 0) 0).isSome ∧
      ¬ (psProcessRecord {} (zeroFrame 1 705050 (.inr rfl) (by decide) (by decide)).record .frameI
        (List.replicate psDataSize 0) 0).isSome := by
  constructor
  · apply (psProcessRecord_inside (zeroFrame 1 705049 (.inr rfl) (by decide) (by decide)) {}
      (List.replicate psDataSize 0) 0 List.length_replicate).mpr
    exact List.length_replicate.le
  · intro hsome
    have hle := (psProcessRecord_inside (zeroFrame 1 705050 (.inr rfl) (by decide) (by decide)) {}
      (List.replicate psDataSize 0) 0 List.length_replicate).mp hsome
    have hlength : (zeroFrame 1 705050 (.inr rfl) (by decide) (by decide)).data.length = 705050 :=
      List.length_replicate
    rw [hlength] at hle
    exact absurd hle (by decide)

/-- An I frame as large as the reassembly buffer. -/
theorem psProcessRecord_overflow :
    psProcessRecord {} (zeroFrame 1 sourceBufferSize (.inr rfl) (by decide) (by decide)).record
      .frameI (List.replicate psDataSize 0) 0 = none := by
  have hfits := VideoFrame.psProcessRecord_isSome_iff
    (zeroFrame 1 sourceBufferSize (.inr rfl) (by decide) (by decide)) {} 0
    (List.length_replicate : (List.replicate psDataSize (0 : UInt8)).length = psDataSize)
  rw [← Option.not_isSome_iff_eq_none]
  intro hsome
  have hbound := hfits.mp hsome
  rw [show (zeroFrame 1 sourceBufferSize (.inr rfl) (by decide) (by decide)).data.length =
    1048576 from List.length_replicate] at hbound
  unfold psExtent psDataSize at hbound
  omega

end GbStream.Task
