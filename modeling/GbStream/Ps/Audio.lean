import GbStream.Ps.Demux

/-!
# The audio branch

The loop of the audio branch puts every PES packet at the start of the buffer, so that the last
one is all that is left of a frame.
-/

namespace GbStream.Ps

open Support.Bytes

variable {pPsInfo : PsFrameInfo} {frame buf src : List UInt8} {uioffset frameLen : Nat}
  {iTime : UInt64}

/-! ## The last piece of a frame -/

def lastPayload (frame : List UInt8) : List UInt8 := (pesPayloads frame).getLastD []

theorem pesPayloads_of_le (hne : frame ≠ []) (hle : frame.length ≤ maxPesPacketLength) :
    pesPayloads frame = [frame] := by
  rw [pesPayloads_of_ne_nil hne, List.take_of_length_le hle, List.drop_of_length_le hle,
    pesPayloads_nil]

theorem lastPayload_of_le (hle : frame.length ≤ maxPesPacketLength) :
    lastPayload frame = frame := by
  rcases eq_or_ne frame [] with rfl | hne
  · simp [lastPayload]
  · rw [lastPayload, pesPayloads_of_le hne hle]
    rfl

theorem lastPayload_drop (hlt : maxPesPacketLength < frame.length) :
    lastPayload frame = lastPayload (frame.drop maxPesPacketLength) := by
  have hne : frame ≠ [] := by
    rw [← List.length_pos_iff]
    omega
  have hrest : frame.drop maxPesPacketLength ≠ [] := by
    rw [← List.length_pos_iff, List.length_drop]
    omega
  rw [lastPayload, pesPayloads_of_ne_nil hne, lastPayload, pesPayloads_of_ne_nil hrest]
  rfl

theorem length_lastPayload_le (frame : List UInt8) :
    (lastPayload frame).length ≤ maxPesPacketLength := by
  induction frame using pesPayloads.induct with
  | case1 => simp [lastPayload]
  | case2 frame hne ih =>
      rcases Nat.lt_or_ge maxPesPacketLength frame.length with hlt | hle
      · rw [lastPayload_drop hlt]
        exact ih
      · rw [lastPayload_of_le hle]
        exact hle

/-- Of a frame that needs two packets, the last one holds less than all. -/
theorem lastPayload_eq_iff : lastPayload frame = frame ↔ frame.length ≤ maxPesPacketLength := by
  constructor
  · intro heq
    have hle := length_lastPayload_le frame
    rwa [heq] at hle
  · exact lastPayload_of_le

/-! ## What the loop leaves -/

theorem psAudioLoop_holds (iTime : UInt64) (frameLen : Nat) :
    ∀ {buf src : List UInt8} (uioffset : Nat), 0 < frameLen → frameLen ≤ src.length →
      19 + min maxPesPacketLength frameLen ≤ buf.length →
      ∃ buf', psAudioLoop iTime frameLen buf uioffset src =
          some (buf', 19 + (lastPayload (src.take frameLen)).length) ∧
        Holds buf'
          ((pesHeader audioStream iTime (lastPayload (src.take frameLen)).length).toBytes ++
            lastPayload (src.take frameLen)) := by
  induction frameLen using Nat.strong_induction_on with
  | _ frameLen ih =>
  intro buf src uioffset hpos hsrc hroom
  have hframe : (src.take frameLen).length = frameLen := by
    rw [List.length_take]
    omega
  obtain ⟨buf₁, hpacket, hlen₁, hholds₁⟩ :=
    psPesPacket_holds audioStream iTime (Holds.nil buf) hsrc (by simpa using hroom)
  rw [List.nil_append] at hholds₁
  set n := min maxPesPacketLength frameLen with hn
  have hloop : psAudioLoop iTime frameLen buf uioffset src =
      psAudioLoop iTime (frameLen - n) buf₁ (19 + n) (src.drop n) := by
    rw [psAudioLoop, dif_pos hpos, show psPesAudioInit = psPesInit audioStream from rfl]
    rw [List.length_nil] at hpacket
    rw [hpacket]
    simp only [Option.bind_eq_bind, Option.bind_some, pesPayloadLength_eq_min, ← hn]
  rw [hloop]
  rcases Nat.lt_or_ge maxPesPacketLength frameLen with hlt | hle
  · have hrest : (src.take frameLen).drop maxPesPacketLength =
        (src.drop n).take (frameLen - n) := drop_frame ..
    rw [lastPayload_drop (by omega), hrest]
    have hnpos : 0 < n := Nat.lt_min.mpr ⟨by decide, hpos⟩
    exact ih (frameLen - n) (by omega) _ (by omega) (by rw [List.length_drop]; omega) (by omega)
  · have hall : n = frameLen := by omega
    rw [lastPayload_of_le (by omega), hframe, hall, Nat.sub_self, psAudioLoop, dif_neg (by omega)]
    rw [hall] at hholds₁
    exact ⟨buf₁, rfl, hholds₁⟩

theorem demuxPes_packet (streamId : UInt8) (iTime : UInt64) {payload : List UInt8}
    (hle : payload.length ≤ maxPesPacketLength) :
    demuxPes streamId ((pesHeader streamId iTime payload.length).toBytes ++ payload) =
      some [payload] := by
  have hread : readPes streamId ((pesHeader streamId iTime payload.length).toBytes ++ payload) =
      some (payload, []) := by
    rw [← List.append_nil (_ ++ payload)]
    exact readPes_pesHeader payload.length payload [] (Nat.min_eq_right hle).symm
  rw [demuxPes_cons hread, demuxPes_nil]
  rfl

/-- The first `*p_ps_data_len` bytes are one packet with the last piece of the frame. -/
theorem psProcess_audio_last (pPsInfo : PsFrameInfo) (iTime : UInt64) (hpos : 0 < frameLen)
    (hsrc : frameLen ≤ src.length) (hroom : 19 + min maxPesPacketLength frameLen ≤ buf.length) :
    ∃ buf', psProcess pPsInfo src frameLen .frameAudio buf iTime =
        some ({ audFrameNumber := pPsInfo.audFrameNumber + 1
                audTimestamp := pPsInfo.audTimestamp + 320 }, buf',
          ((19 + (lastPayload (src.take frameLen)).length : Nat) : Int)) ∧
      demuxPes 0xC0 (buf'.take (19 + (lastPayload (src.take frameLen)).length)) =
        some [lastPayload (src.take frameLen)] := by
  obtain ⟨buf', hloop, hlen, hholds⟩ := psAudioLoop_holds iTime frameLen 0 hpos hsrc hroom
  have hle := length_lastPayload_le (src.take frameLen)
  refine ⟨buf', ?_, ?_⟩
  · simp only [psProcess, hloop, Option.bind_eq_bind, Option.bind_some]
    simp only [maxPesPacketLength, psPesPplLength] at hle
    rw [toS32_of_bounds (by omega) (by omega)]
  · rw [List.length_append, PsPesHeader.length_toBytes] at hholds
    rw [hholds]
    exact demuxPes_packet audioStream iTime hle

/-! ## The round trip -/

/-- The first `*p_ps_data_len` bytes written are 0xC0 PES packets whose payloads make up the
frame. -/
def RoundTrip (result : Option (PsFrameInfo × List UInt8 × Int)) (frame : List UInt8) : Prop :=
  ∃ info buf, ∃ psDataLen : Nat, ∃ payloads, result = some (info, buf, (psDataLen : Int)) ∧
    demuxPes 0xC0 (buf.take psDataLen) = some payloads ∧ payloads.flatten = frame

theorem psProcess_audio_iff_last (pPsInfo : PsFrameInfo) (src buf : List UInt8) (frameLen : Nat)
    (iTime : UInt64) (hpos : 0 < frameLen) (hsrc : frameLen ≤ src.length)
    (hroom : 19 + min maxPesPacketLength frameLen ≤ buf.length) :
    RoundTrip (psProcess pPsInfo src frameLen .frameAudio buf iTime) (src.take frameLen) ↔
      lastPayload (src.take frameLen) = src.take frameLen := by
  obtain ⟨buf', hprocess, hdemux⟩ := psProcess_audio_last pPsInfo iTime hpos hsrc hroom
  rw [hprocess]
  constructor
  · rintro ⟨info', buf'', psDataLen, payloads, hresult, hdemux', hflatten⟩
    obtain ⟨-, hrest⟩ := Prod.mk.inj (Option.some.inj hresult)
    obtain ⟨rfl, hlen⟩ := Prod.mk.inj hrest
    rw [← Int.ofNat.inj hlen, hdemux] at hdemux'
    obtain rfl := Option.some.inj hdemux'
    simpa using hflatten
  · intro hlast
    exact ⟨_, buf', _, _, rfl, hdemux, by simpa using hlast⟩

/-- **The audio round trip.**  It holds exactly for the frames that fit into one PES packet. -/
theorem psProcess_audio_roundTrip_iff (pPsInfo : PsFrameInfo) (src buf : List UInt8)
    (frameLen : Nat) (iTime : UInt64) (hpos : 1 ≤ frameLen) (hsrc : frameLen ≤ src.length)
    (hroom : 19 + min maxPesPacketLength frameLen ≤ buf.length) :
    RoundTrip (psProcess pPsInfo src frameLen .frameAudio buf iTime) (src.take frameLen) ↔
      frameLen ≤ maxPesPacketLength := by
  rw [psProcess_audio_iff_last pPsInfo src buf frameLen iTime hpos hsrc hroom,
    lastPayload_eq_iff, List.length_take, Nat.min_eq_left hsrc]

/-- Three bytes of audio. -/
theorem psProcess_audio_roundTrip_iff_three :
    RoundTrip (psProcess {} [1, 2, 3] 3 .frameAudio (List.replicate 22 0) 90000) [1, 2, 3] :=
  (psProcess_audio_roundTrip_iff {} [1, 2, 3] (List.replicate 22 0) 3 90000 (by decide)
    (by decide) (by decide)).mpr (by decide)

/-- One byte more than a packet holds, with room for both packets: that byte is all that is left. -/
theorem psProcess_audio_overwritten :
    ¬ RoundTrip (psProcess {} (List.replicate 65523 7) 65523 .frameAudio
      (List.replicate 65561 0) 90000) (List.replicate 65523 7) := by
  have hiff := psProcess_audio_iff_last {} (List.replicate 65523 7) (List.replicate 65561 0) 65523
    90000 (by decide) (by rw [List.length_replicate]) (by rw [List.length_replicate]; decide)
  rw [List.take_of_length_le (by rw [List.length_replicate])] at hiff
  rw [hiff, lastPayload_eq_iff, List.length_replicate]
  decide

end GbStream.Ps
