import GbStream.Ps.Process

/-!
# A reference demultiplexer and the video round trip

The demultiplexer knows the program-stream format and nothing about `ps.c`: it
finds its way by the start codes and the length fields alone.  The round trip goes
through `pesStream`, the bytes of the PES packets as one list: the loop of
`ps_process` writes it, and the demultiplexer cuts it into the pieces of the frame.
-/

namespace GbStream.Ps

open Support.Bytes

/-! ## Demultiplexing -/

def readPackHeader : List UInt8 → Option (List UInt8)
  | 0 :: 0 :: 1 :: 0xBA :: rest => if 10 ≤ rest.length then some (rest.drop 10) else none
  | _ => none

/-- A section with start code `00 00 01 id`, skipped by its 16-bit length field. -/
def readSection (id : UInt8) : List UInt8 → Option (List UInt8)
  | 0 :: 0 :: 1 :: sid :: l1 :: l0 :: rest =>
      if sid = id ∧ be16 l1 l0 ≤ rest.length then some (rest.drop (be16 l1 l0)) else none
  | _ => none

/-- One PES packet of the stream `id`: its payload and what follows.  The packet
ends where `PES_packet_length` says, the payload starts behind the optional fields
that `PES_header_data_length` counts. -/
def readPes (id : UInt8) : List UInt8 → Option (List UInt8 × List UInt8)
  | 0 :: 0 :: 1 :: sid :: l1 :: l0 :: _ :: _ :: hdl :: rest =>
      if sid = id ∧ 3 + hdl.toNat ≤ be16 l1 l0 ∧ be16 l1 l0 ≤ 3 + rest.length then
        some ((rest.take (be16 l1 l0 - 3)).drop hdl.toNat, rest.drop (be16 l1 l0 - 3))
      else none
  | _ => none

theorem readPes_length {id : UInt8} {bytes payload rest : List UInt8}
    (h : readPes id bytes = some (payload, rest)) : rest.length < bytes.length := by
  unfold readPes at h
  split at h
  · split at h
    · obtain ⟨-, rfl⟩ := Prod.mk.inj (Option.some.inj h)
      simp only [List.length_drop, List.length_cons]
      omega
    · cases h
  · cases h

def demuxPes (id : UInt8) (bytes : List UInt8) : Option (List (List UInt8)) :=
  if bytes = [] then some []
  else
    match _h : readPes id bytes with
    | none => none
    | some (payload, rest) => (demuxPes id rest).map (payload :: ·)
termination_by bytes.length
decreasing_by exact readPes_length _h

/-- For an I frame, the system header (0x1BB) and the program stream map (0x1BC). -/
def readSystemSections : EsFrameType → List UInt8 → Option (List UInt8)
  | .frameI, bytes => readSection 0xBB bytes >>= readSection 0xBC
  | _, bytes => some bytes

/-- The payloads of a video frame: a pack header, the system sections, then 0xE0 PES
packets only. -/
def demuxVideo (frameType : EsFrameType) (bytes : List UInt8) :
    Option (List (List UInt8)) := do
  let bytes ← readPackHeader bytes
  let bytes ← readSystemSections frameType bytes
  demuxPes 0xE0 bytes

/-! ## The bytes of the PES packets -/

/-- The header `ps_process` puts before the rest of a frame, `frameLen` bytes. -/
def pesHeader (streamId : UInt8) (iTime : UInt64) (frameLen : Nat) : PsPesHeader :=
  psPesheaderMake (psPesInit streamId {}) frameLen iTime

def pesStream (streamId : UInt8) (iTime : UInt64) (frame : List UInt8) : List UInt8 :=
  if _h : frame = [] then []
  else
    (pesHeader streamId iTime frame.length).toBytes ++ frame.take maxPesPacketLength ++
      pesStream streamId iTime (frame.drop maxPesPacketLength)
termination_by frame.length
decreasing_by
  have := List.length_pos_iff.mpr _h
  simp only [List.length_drop, maxPesPacketLength, psPesPplLength]
  omega

def pesPayloads (frame : List UInt8) : List (List UInt8) :=
  if _h : frame = [] then []
  else frame.take maxPesPacketLength :: pesPayloads (frame.drop maxPesPacketLength)
termination_by frame.length
decreasing_by
  have := List.length_pos_iff.mpr _h
  simp only [List.length_drop, maxPesPacketLength, psPesPplLength]
  omega

section Stream

variable {streamId : UInt8} {iTime : UInt64} {frame : List UInt8}

@[simp] theorem pesStream_nil : pesStream streamId iTime [] = [] := by
  rw [pesStream, dif_pos rfl]

theorem pesStream_of_ne_nil (streamId : UInt8) (iTime : UInt64) (h : frame ≠ []) :
    pesStream streamId iTime frame =
      (pesHeader streamId iTime frame.length).toBytes ++ frame.take maxPesPacketLength ++
        pesStream streamId iTime (frame.drop maxPesPacketLength) := by
  rw [pesStream, dif_neg h]

@[simp] theorem pesPayloads_nil : pesPayloads [] = [] := by
  rw [pesPayloads, dif_pos rfl]

theorem pesPayloads_of_ne_nil (h : frame ≠ []) :
    pesPayloads frame =
      frame.take maxPesPacketLength :: pesPayloads (frame.drop maxPesPacketLength) := by
  rw [pesPayloads, dif_neg h]

theorem flatten_pesPayloads (frame : List UInt8) : (pesPayloads frame).flatten = frame := by
  induction frame using pesPayloads.induct with
  | case1 => simp
  | case2 frame hne ih =>
      rw [pesPayloads_of_ne_nil hne, List.flatten_cons, ih, List.take_append_drop]

theorem ne_nil_of_mem_pesPayloads {payload : List UInt8} (h : payload ∈ pesPayloads frame) :
    payload ≠ [] := by
  induction frame using pesPayloads.induct with
  | case1 => simp at h
  | case2 frame hne ih =>
      rw [pesPayloads_of_ne_nil hne, List.mem_cons] at h
      rcases h with rfl | h
      · have hpos := List.length_pos_iff.mpr hne
        rw [← List.length_pos_iff, List.length_take]
        exact Nat.lt_min.mpr ⟨by decide, hpos⟩
      · exact ih h

theorem length_pesStream (frame : List UInt8) :
    (pesStream streamId iTime frame).length =
      frame.length + 19 * ((frame.length + 65521) / 65522) := by
  induction frame using pesPayloads.induct with
  | case1 => simp
  | case2 frame hne ih =>
      have hpos := List.length_pos_iff.mpr hne
      rw [pesStream_of_ne_nil _ _ hne, List.length_append, List.length_append,
        PsPesHeader.length_toBytes, ih, List.length_take, List.length_drop]
      simp only [maxPesPacketLength, psPesPplLength]
      omega

/-! ## Demultiplexing the packets -/

/-- `PES_packet_length` counts the 13 header bytes behind it and the payload. -/
theorem pesHeader_ppl (streamId : UInt8) (iTime : UInt64) (frameLen : Nat) :
    ∃ v : UInt16, (pesHeader streamId iTime frameLen).ppl = htons v ∧
      v.toNat = 13 + min maxPesPacketLength frameLen := by
  refine ⟨_, rfl, ?_⟩
  split
  · rename_i h
    rw [Nat.min_eq_left (by omega)]
    rfl
  · rename_i h
    rw [Nat.min_eq_right (by omega)]
    simp only [maxPesPacketLength, psPesPplLength] at h ⊢
    have hlt : frameLen + 13 < UInt16.size := Nat.lt_of_le_of_lt (Nat.add_le_add_right
      (Nat.le_of_not_lt h) 13) (by decide)
    rw [UInt16.toNat_ofNat_of_lt' hlt, Nat.add_comm]

/-- The demultiplexer cuts one packet off: the length fields agree with what the
header and the copied piece occupy. -/
theorem readPes_pesHeader (frameLen : Nat) (payload rest : List UInt8)
    (hlen : payload.length = min maxPesPacketLength frameLen) :
    readPes streamId ((pesHeader streamId iTime frameLen).toBytes ++ payload ++ rest) =
      some (payload, rest) := by
  obtain ⟨v, hppl, hv⟩ := pesHeader_ppl streamId iTime frameLen
  have hbytes : ∃ f1 f2 : UInt8, ∃ tail : List UInt8, tail.length = 10 ∧
      (pesHeader streamId iTime frameLen).toBytes =
        0 :: 0 :: 1 :: streamId :: (v >>> 8).toUInt8 :: v.toUInt8 :: f1 :: f2 :: 10 ::
          tail := by
    let h := pesHeader streamId iTime frameLen
    refine ⟨h.flags.toUInt8, (h.flags >>> 8).toUInt8,
      [h.ptsp] ++ le32 h.pts ++ [h.dtsp] ++ le32 h.dts, rfl, ?_⟩
    rw [PsPesHeader.toBytes, hppl, le16_htons, show h.m1 = 0 from rfl,
      show h.pscp = 1 from rfl, show h.si = streamId from rfl, show h.phdl = 10 from rfl,
      show le16 0 = [0, 0] by decide]
    rfl
  obtain ⟨f1, f2, tail, htail, hbytes⟩ := hbytes
  rw [hbytes]
  simp only [List.cons_append]
  rw [readPes, be16_bytes, hv, ← hlen, show (10 : UInt8).toNat = 10 from rfl]
  have hdata : (tail ++ payload ++ rest).take (13 + payload.length - 3) = tail ++ payload := by
    rw [List.take_left']
    simp only [List.length_append]
    omega
  have hrest : (tail ++ payload ++ rest).drop (13 + payload.length - 3) = rest := by
    rw [List.drop_left']
    simp only [List.length_append]
    omega
  rw [if_pos, hdata, hrest]
  · rw [List.drop_left' htail]
  · refine ⟨rfl, by omega, ?_⟩
    simp only [List.length_append]
    omega

theorem demuxPes_nil (id : UInt8) : demuxPes id [] = some [] := by
  rw [demuxPes, if_pos rfl]

theorem demuxPes_cons {id : UInt8} {bytes payload rest : List UInt8}
    (h : readPes id bytes = some (payload, rest)) :
    demuxPes id bytes = (demuxPes id rest).map (payload :: ·) := by
  have hne : bytes ≠ [] := by
    rintro rfl
    simp [readPes] at h
  rw [demuxPes, if_neg hne]
  split
  · rename_i heq
    rw [h] at heq
    cases heq
  · rename_i heq
    rw [h] at heq
    cases heq
    rfl

theorem demuxPes_pesStream (frame : List UInt8) :
    demuxPes streamId (pesStream streamId iTime frame) = some (pesPayloads frame) := by
  induction frame using pesPayloads.induct with
  | case1 => simp [demuxPes_nil]
  | case2 frame hne ih =>
      rw [pesStream_of_ne_nil _ _ hne, pesPayloads_of_ne_nil hne,
        demuxPes_cons (readPes_pesHeader frame.length _ _ (List.length_take ..)), ih]
      rfl

end Stream

/-! ## What `ps_process` writes -/

section Write

variable {buf src : List UInt8} {uioffset frameLen : Nat} {iTime : UInt64}

/-- `buf` holds `out` at its start. -/
def Holds (buf out : List UInt8) : Prop :=
  out.length ≤ buf.length ∧ buf.take out.length = out

theorem Holds.nil (buf : List UInt8) : Holds buf [] := by
  simp [Holds]

theorem Holds.writeAt {out : List UInt8} (h : Holds buf out) (bytes : List UInt8)
    (hroom : out.length + bytes.length ≤ buf.length) :
    ∃ buf', writeAt buf out.length bytes = some buf' ∧ buf'.length = buf.length ∧
      Holds buf' (out ++ bytes) := by
  obtain ⟨buf', hw⟩ := writeAt_isSome hroom
  refine ⟨buf', hw, length_of_writeAt hw, ?_, ?_⟩
  · rw [length_of_writeAt hw, List.length_append]
    exact hroom
  · rw [List.length_append, take_of_writeAt hw, h.2]

theorem psPesPacket_holds (streamId : UInt8) (iTime : UInt64) {out : List UInt8} (h : Holds buf out)
    (hsrc : frameLen ≤ src.length)
    (hroom : out.length + 19 + min maxPesPacketLength frameLen ≤ buf.length) :
    ∃ buf', psPesPacket (psPesInit streamId) iTime frameLen buf out.length src = some buf' ∧
      buf'.length = buf.length ∧
      Holds buf' (out ++ (pesHeader streamId iTime frameLen).toBytes ++
        src.take (min maxPesPacketLength frameLen)) := by
  obtain ⟨buf₁, hw₁, hlen₁, hholds₁⟩ := h.writeAt
    (pesHeader streamId iTime frameLen).toBytes (by rw [PsPesHeader.length_toBytes]; omega)
  have hpiece : (src.take (min maxPesPacketLength frameLen)).length =
      min maxPesPacketLength frameLen := by
    rw [List.length_take]
    omega
  obtain ⟨buf₂, hw₂, hlen₂, hholds₂⟩ := hholds₁.writeAt
    (src.take (min maxPesPacketLength frameLen))
    (by rw [hpiece, List.length_append, PsPesHeader.length_toBytes]; omega)
  refine ⟨buf₂, ?_, by omega, hholds₂⟩
  rw [List.length_append, PsPesHeader.length_toBytes] at hw₂
  unfold psPesPacket
  simp only [pesPayloadLength_eq_min]
  rw [show psPesheaderMake (psPesInit streamId {}) frameLen iTime =
    pesHeader streamId iTime frameLen from rfl, hw₁, Option.bind_eq_bind, Option.bind_some,
    copyAt_eq_writeAt (by omega), hw₂]

theorem take_frame (src : List UInt8) (frameLen : Nat) :
    (src.take frameLen).take maxPesPacketLength = src.take (min maxPesPacketLength frameLen) := by
  rw [List.take_take]

theorem drop_frame (src : List UInt8) (frameLen : Nat) :
    (src.take frameLen).drop maxPesPacketLength =
      (src.drop (min maxPesPacketLength frameLen)).take
        (frameLen - min maxPesPacketLength frameLen) := by
  rw [List.drop_take]
  rcases Nat.le_total maxPesPacketLength frameLen with hle | hle
  · rw [Nat.min_eq_left hle]
  · rw [Nat.min_eq_right hle]
    simp [hle]

/-- The loop appends the PES packets of the frame to what the buffer holds. -/
theorem psVideoLoop_holds (iTime : UInt64) (frameLen : Nat) :
    ∀ {buf out src : List UInt8}, Holds buf out → frameLen ≤ src.length →
      out.length + (pesStream videoStream iTime (src.take frameLen)).length ≤ buf.length →
      ∃ buf', psVideoLoop iTime frameLen buf out.length src =
          some (buf', out.length + (pesStream videoStream iTime (src.take frameLen)).length) ∧
        buf'.length = buf.length ∧
        Holds buf' (out ++ pesStream videoStream iTime (src.take frameLen)) := by
  induction frameLen using Nat.strong_induction_on with
  | _ frameLen ih =>
  intro buf out src h hsrc hroom
  rcases Nat.eq_zero_or_pos frameLen with rfl | hpos
  · rw [psVideoLoop, dif_neg (by omega)]
    simpa using h
  · -- the first packet, then the induction hypothesis on what is left of the frame
    have hframe : (src.take frameLen).length = frameLen := by
      rw [List.length_take]
      omega
    have hne : src.take frameLen ≠ [] := by
      rw [← List.length_pos_iff, hframe]
      exact hpos
    set n := min maxPesPacketLength frameLen with hn
    have hnpos : 0 < n := Nat.lt_min.mpr ⟨by decide, hpos⟩
    have hpiece : (src.take frameLen).take maxPesPacketLength = src.take n := take_frame ..
    have hrest : (src.take frameLen).drop maxPesPacketLength =
        (src.drop n).take (frameLen - n) := drop_frame ..
    have hpieceLen : (src.take n).length = n := by
      rw [List.length_take]
      omega
    have hstream := pesStream_of_ne_nil videoStream iTime hne
    rw [hframe, hpiece, hrest] at hstream
    have hlen := congrArg List.length hstream
    rw [List.length_append, List.length_append, PsPesHeader.length_toBytes, hpieceLen]
      at hlen
    obtain ⟨buf₁, hpacket, hlen₁, hholds₁⟩ :=
      psPesPacket_holds videoStream iTime h hsrc (by omega)
    have hout : (out ++ (pesHeader videoStream iTime frameLen).toBytes ++
        src.take n).length = out.length + 19 + n := by
      rw [List.length_append, List.length_append, PsPesHeader.length_toBytes, hpieceLen]
    obtain ⟨buf₂, hloop, hlen₂, hholds₂⟩ :=
      ih (frameLen - n) (by omega) hholds₁
        (show frameLen - n ≤ (src.drop n).length by rw [List.length_drop]; omega)
        (by rw [hout]; omega)
    refine ⟨buf₂, ?_, by omega, ?_⟩
    · rw [psVideoLoop, dif_pos hpos, show psPesVideoInit = psPesInit videoStream from rfl,
        hpacket]
      simp only [Option.bind_eq_bind, Option.bind_some, pesPayloadLength_eq_min, ← hn]
      rw [hout] at hloop
      rw [hloop, hlen, Nat.add_assoc, Nat.add_assoc, Nat.add_assoc]
    · rw [hstream]
      simpa only [List.append_assoc] using hholds₂

def iFrameHeaders : List UInt8 :=
  (psSystemheaderMake {}).toBytes ++
    { psMapheaderVideoMake {} with
      fill1 := htons 0x0A04, fill2 := htons 0x656E, fill3 := htons 0x6700 }.toBytes

@[simp] theorem length_iFrameHeaders : iFrameHeaders.length = 48 := rfl

theorem psIFrameHeaders_holds {out : List UInt8} (h : Holds buf out)
    (hroom : out.length + 48 ≤ buf.length) :
    ∃ buf', psIFrameHeaders buf out.length = some (buf', out.length + 48) ∧
      buf'.length = buf.length ∧ Holds buf' (out ++ iFrameHeaders) := by
  obtain ⟨buf₁, hw₁, hlen₁, hholds₁⟩ := h.writeAt
    (psSystemheaderMake {}).toBytes (by rw [PsSystemHeader.length_toBytes]; omega)
  obtain ⟨buf₂, hw₂, hlen₂, hholds₂⟩ := hholds₁.writeAt
    { psMapheaderVideoMake {} with
      fill1 := htons 0x0A04, fill2 := htons 0x656E, fill3 := htons 0x6700 }.toBytes
    (by rw [PsMapHeader.length_toBytes, List.length_append,
      PsSystemHeader.length_toBytes]; omega)
  refine ⟨buf₂, ?_, by omega, ?_⟩
  · rw [List.length_append, PsSystemHeader.length_toBytes] at hw₂
    unfold psIFrameHeaders
    simp only [hw₁, hw₂, Option.bind_eq_bind, Option.bind_some]
  · rw [List.append_assoc] at hholds₂
    exact hholds₂

end Write

/-! ## The round trip -/

theorem readPackHeader_psPackheaderMake (iTime : UInt64) (rest : List UInt8) :
    readPackHeader ((psPackheaderMake iTime {}).toBytes ++ rest) = some rest := by
  have hbytes : ∃ tail : List UInt8, tail.length = 10 ∧
      (psPackheaderMake iTime {}).toBytes = 0 :: 0 :: 1 :: 0xBA :: tail := by
    refine ⟨(psPackheaderMake iTime {}).toBytes.drop 4, rfl, ?_⟩
    have hpsc : le32 (psPackheaderMake iTime {}).psc = [0, 0, 1, 0xBA] := by
      change le32 (htonl 0x01BA) = _
      decide
    rw [PsPackHeader.toBytes, hpsc]
    rfl
  obtain ⟨tail, htail, hbytes⟩ := hbytes
  rw [hbytes]
  simp only [List.cons_append]
  rw [readPackHeader, if_pos (by rw [List.length_append]; omega), List.drop_left' htail]

theorem readSystemSections_iFrameHeaders (rest : List UInt8) :
    readSystemSections .frameI (iFrameHeaders ++ rest) = some rest := by
  have hbytes : ∃ sys psm : List UInt8, sys.length = 12 ∧ psm.length = 24 ∧
      iFrameHeaders = 0 :: 0 :: 1 :: 0xBB :: 0 :: 12 :: (sys ++
        (0 :: 0 :: 1 :: 0xBC :: 0 :: 24 :: psm)) := by
    refine ⟨(iFrameHeaders.drop 6).take 12, iFrameHeaders.drop 24, rfl, rfl, ?_⟩
    decide
  obtain ⟨sys, psm, hsys, hpsm, hbytes⟩ := hbytes
  rw [hbytes]
  simp only [List.cons_append, List.append_assoc]
  rw [readSystemSections, readSection, if_pos]
  · rw [show be16 0 12 = 12 from rfl, List.drop_left' hsys]
    simp only [Option.bind_eq_bind, Option.bind_some]
    rw [readSection, if_pos]
    · rw [show be16 0 24 = 24 from rfl, List.drop_left' hpsm]
    · refine ⟨rfl, ?_⟩
      rw [show be16 0 24 = 24 from rfl, List.length_append]
      omega
  · refine ⟨rfl, ?_⟩
    rw [show be16 0 12 = 12 from rfl, List.length_append]
    omega

def videoHeaders (frameType : EsFrameType) (iTime : UInt64) : List UInt8 :=
  (psPackheaderMake iTime {}).toBytes ++ if frameType = .frameI then iFrameHeaders else []

theorem length_videoHeaders (frameType : EsFrameType) (iTime : UInt64) :
    (videoHeaders frameType iTime).length = 14 + if frameType = .frameI then 48 else 0 := by
  cases frameType <;> rfl

theorem psProcess_video_holds (pPsInfo : PsFrameInfo) {src buf : List UInt8} {frameLen : Nat}
    {frameType : EsFrameType} (iTime : UInt64) (hvideo : frameType ≠ .frameAudio)
    (hsrc : frameLen ≤ src.length)
    (hroom : (videoHeaders frameType iTime).length +
      (pesStream videoStream iTime (src.take frameLen)).length ≤ buf.length) :
    ∃ buf', psProcess pPsInfo src frameLen frameType buf iTime =
        some (pPsInfo, buf', toS32 (((videoHeaders frameType iTime).length +
          (pesStream videoStream iTime (src.take frameLen)).length : Nat) : Int)) ∧
      Holds buf' (videoHeaders frameType iTime ++
        pesStream videoStream iTime (src.take frameLen)) := by
  have hpack : (psPackheaderMake iTime {}).toBytes.length = 14 := rfl
  rw [length_videoHeaders] at hroom ⊢
  obtain ⟨buf₁, hw₁, hlen₁, hholds₁⟩ := (Holds.nil buf).writeAt
    (psPackheaderMake iTime {}).toBytes (by rw [hpack, List.length_nil]; omega)
  rw [List.nil_append] at hholds₁
  rw [List.length_nil] at hw₁
  cases frameType with
  | frameI =>
      rw [if_pos rfl] at hroom ⊢
      obtain ⟨buf₂, hw₂, hlen₂, hholds₂⟩ := psIFrameHeaders_holds hholds₁
        (by rw [hpack]; omega)
      obtain ⟨buf₃, hw₃, hlen₃, hholds₃⟩ := psVideoLoop_holds iTime frameLen
        hholds₂ hsrc (by rw [List.length_append, hpack, length_iFrameHeaders]; omega)
      refine ⟨buf₃, ?_, hholds₃⟩
      rw [List.length_append, hpack, length_iFrameHeaders] at hw₃
      rw [hpack] at hw₂
      simp only [psProcess, hw₁, hw₂, hw₃, Option.bind_eq_bind, Option.bind_some]
  | frameP =>
      rw [if_neg (by decide)] at hroom ⊢
      obtain ⟨buf₃, hw₃, hlen₃, hholds₃⟩ := psVideoLoop_holds iTime frameLen
        hholds₁ hsrc (by rw [hpack]; omega)
      refine ⟨buf₃, ?_, ?_⟩
      · rw [hpack] at hw₃
        simp only [psProcess, hw₁, hw₃, Option.bind_eq_bind, Option.bind_some]
      · rw [videoHeaders, if_neg (by decide), List.append_nil]
        exact hholds₃
  | frameAudio => exact absurd rfl hvideo

theorem readSystemSections_headers (frameType : EsFrameType) (rest : List UInt8) :
    readSystemSections frameType
        ((if frameType = .frameI then iFrameHeaders else []) ++ rest) = some rest := by
  cases frameType with
  | frameI => exact readSystemSections_iFrameHeaders rest
  | frameP => rfl
  | frameAudio => rfl

theorem demuxVideo_stream (frameType : EsFrameType) (iTime : UInt64) (frame : List UInt8) :
    demuxVideo frameType (videoHeaders frameType iTime ++ pesStream videoStream iTime frame) =
      some (pesPayloads frame) := by
  rw [demuxVideo, videoHeaders, List.append_assoc, readPackHeader_psPackheaderMake,
    Option.bind_eq_bind, Option.bind_some, readSystemSections_headers, Option.bind_some]
  exact demuxPes_pesStream frame

/-- The first `*p_ps_data_len` bytes are the headers and the PES packets. -/
theorem psProcess_video_stream (pPsInfo : PsFrameInfo) {src buf : List UInt8} {frameLen : Nat}
    {frameType : EsFrameType} (iTime : UInt64) (hvideo : frameType ≠ .frameAudio)
    (hsrc : frameLen ≤ src.length)
    (hlen : 14 + (if frameType = .frameI then 48 else 0) + frameLen +
      19 * ((frameLen + 65521) / 65522) < 2 ^ 31)
    (hroom : 14 + (if frameType = .frameI then 48 else 0) + frameLen +
      19 * ((frameLen + 65521) / 65522) ≤ buf.length) :
    ∃ buf' : List UInt8,
      psProcess pPsInfo src frameLen frameType buf iTime =
        some (pPsInfo, buf', ((14 + (if frameType = .frameI then 48 else 0) + frameLen +
          19 * ((frameLen + 65521) / 65522) : Nat) : Int)) ∧
      buf'.take (14 + (if frameType = .frameI then 48 else 0) + frameLen +
          19 * ((frameLen + 65521) / 65522)) =
        videoHeaders frameType iTime ++ pesStream videoStream iTime (src.take frameLen) := by
  have htotal : (videoHeaders frameType iTime).length +
      (pesStream videoStream iTime (src.take frameLen)).length =
        14 + (if frameType = .frameI then 48 else 0) + frameLen +
          19 * ((frameLen + 65521) / 65522) := by
    rw [length_videoHeaders, length_pesStream, List.length_take, Nat.min_eq_left hsrc]
    omega
  obtain ⟨buf', hprocess, hholds⟩ := psProcess_video_holds pPsInfo iTime hvideo hsrc
    (htotal.le.trans hroom)
  refine ⟨buf', ?_, ?_⟩
  · rw [hprocess, htotal, toS32_of_bounds (by omega) (by exact_mod_cast hlen)]
  · have htake := hholds.2
    rw [List.length_append, htotal] at htake
    exact htake

/-- **The video round trip.**  The first `*p_ps_data_len` bytes that `ps_process`
writes demultiplex, to the last byte, into non-empty pieces that make up the frame. -/
theorem psProcess_video_roundTrip (pPsInfo : PsFrameInfo) (src buf : List UInt8)
    (frameLen : Nat) (frameType : EsFrameType) (iTime : UInt64)
    (hvideo : frameType ≠ .frameAudio)
    (hsrc : frameLen ≤ src.length)
    (hlen : 14 + (if frameType = .frameI then 48 else 0) + frameLen +
      19 * ((frameLen + 65521) / 65522) < 2 ^ 31)
    (hroom : 14 + (if frameType = .frameI then 48 else 0) + frameLen +
      19 * ((frameLen + 65521) / 65522) ≤ buf.length) :
    ∃ (buf' : List UInt8) (psDataLen : Nat) (payloads : List (List UInt8)),
      psProcess pPsInfo src frameLen frameType buf iTime =
        some (pPsInfo, buf', (psDataLen : Int)) ∧
      psDataLen = 14 + (if frameType = .frameI then 48 else 0) + frameLen +
        19 * ((frameLen + 65521) / 65522) ∧
      demuxVideo frameType (buf'.take psDataLen) = some payloads ∧
      payloads.flatten = src.take frameLen ∧
      ∀ payload ∈ payloads, payload ≠ [] := by
  obtain ⟨buf', hprocess, htake⟩ := psProcess_video_stream pPsInfo iTime hvideo hsrc hlen hroom
  refine ⟨buf', _, pesPayloads (src.take frameLen), hprocess, rfl, ?_,
    flatten_pesPayloads _, fun payload => ne_nil_of_mem_pesPayloads⟩
  rw [htake]
  exact demuxVideo_stream frameType iTime (src.take frameLen)

/-- An I frame that takes two PES packets. -/
theorem psProcess_video_roundTrip_twoPackets :
    ∃ (buf' : List UInt8) (psDataLen : Nat) (payloads : List (List UInt8)),
      psProcess {} (List.replicate 65523 1) 65523 .frameI (List.replicate 65623 0) 90000 =
        some ({}, buf', (psDataLen : Int)) ∧
      psDataLen = 65623 ∧
      demuxVideo .frameI (buf'.take psDataLen) = some payloads ∧
      payloads.flatten = List.replicate 65523 1 ∧
      ∀ payload ∈ payloads, payload ≠ [] := by
  have hsrc : 65523 ≤ (List.replicate 65523 (1 : UInt8)).length := by
    rw [List.length_replicate]
  have hroom : 14 + (if EsFrameType.frameI = .frameI then 48 else 0) + 65523 +
      19 * ((65523 + 65521) / 65522) ≤ (List.replicate 65623 (0 : UInt8)).length := by
    rw [List.length_replicate]
    decide
  obtain ⟨buf', psDataLen, payloads, hprocess, hlen, hread, hflatten, hne⟩ :=
    psProcess_video_roundTrip {} (List.replicate 65523 1) (List.replicate 65623 0) 65523 .frameI
      90000 (by decide) hsrc (by decide) hroom
  rw [List.take_replicate] at hflatten
  exact ⟨buf', psDataLen, payloads, hprocess, hlen, hread, hflatten, hne⟩

end GbStream.Ps
