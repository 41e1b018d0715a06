import GbStream.Ps.Demux
import GbStream.Rtp.Fragment

/-!
# What a viewer reads

A viewer has the datagrams of a stream and nothing else.  It puts their payloads together up to
the next marker bit and takes the frame out of the program stream that it gets.  The reader here
is written apart from the code of the sender.
-/

namespace GbStream.Task

open Support.Bytes Ps Rtp

/-- The header of datagram number `seq` of a source. -/
def videoFields (ssrc : UInt32) (seq stamp marker : Nat) : RtpFields where
  version := 2
  padding := 0
  extension := 0
  csrcCount := 0
  marker := marker
  payloadType := 96
  seqNo := seq % 65536
  timestamp := stamp
  ssrc := ssrc.toNat

/-- The program streams in the datagrams of one source, which are numbered from `seq` on; all
datagrams of a program stream have its time stamp, and the last one has the marker bit.  `got` is
what has come of a program stream before. -/
def depacketise (ssrc : UInt32) :
    Nat → Option (Nat × List UInt8) → List (List UInt8) → Option (List (Nat × List UInt8))
  | _, got, [] => if got = none then some [] else none
  | seq, got, datagram :: datagrams =>
      match readRtp datagram with
      | none => none
      | some (h, payload) =>
          let (stamp, bytes) := got.getD (h.timestamp, [])
          if h = videoFields ssrc seq stamp h.marker then
            if h.marker = 1 then
              (depacketise ssrc (seq + 1) none datagrams).map ((stamp, bytes ++ payload) :: ·)
            else depacketise ssrc (seq + 1) (some (stamp, bytes ++ payload)) datagrams
          else none

structure Picture where
  frameType : EsFrameType
  stamp : Nat
  data : List UInt8
  deriving DecidableEq, Repr

def readPicture (stamp : Nat) (ps : List UInt8) : Option Picture :=
  match demuxVideo .frameI ps with
  | some payloads => some ⟨.frameI, stamp, payloads.flatten⟩
  | none => (demuxVideo .frameP ps).map fun payloads => ⟨.frameP, stamp, payloads.flatten⟩

/-- The frames in the datagrams of one source, which are numbered from `seq` on. -/
def watch (ssrc : UInt32) (seq : Nat) (datagrams : List (List UInt8)) : Option (List Picture) :=
  (depacketise ssrc seq none datagrams).bind fun streams =>
    streams.mapM fun (stamp, ps) => readPicture stamp ps

/-- The bytes that `ps_process` makes of a frame. -/
def programStream (frameType : EsFrameType) (iTime : UInt64) (data : List UInt8) : List UInt8 :=
  videoHeaders frameType iTime ++ pesStream videoStream iTime data

theorem readSection_of_readPes {id id' : UInt8} {bytes payload rest : List UInt8} (hne : id ≠ id')
    (h : readPes id bytes = some (payload, rest)) : readSection id' bytes = none := by
  unfold readPes at h
  split at h
  · split at h
    · rename_i hid
      rw [readSection, if_neg]
      exact fun hand => hne (hid.1.symm.trans hand.1)
    · cases h
  · cases h

theorem readSection_pesStream (iTime : UInt64) (data : List UInt8) :
    readSection 0xBB (pesStream videoStream iTime data) = none := by
  rcases eq_or_ne data [] with rfl | hne
  · rw [pesStream_nil]
    rfl
  · rw [pesStream_of_ne_nil _ _ hne]
    exact readSection_of_readPes (by decide) (readPes_pesHeader _ _ _ (List.length_take ..))

/-- **The frame is read back from its program stream.** -/
theorem readPicture_programStream {frameType : EsFrameType} (hvideo : frameType ≠ .frameAudio)
    (stamp : Nat) (iTime : UInt64) (data : List UInt8) :
    readPicture stamp (programStream frameType iTime data) = some ⟨frameType, stamp, data⟩ := by
  cases frameType with
  | frameAudio => exact absurd rfl hvideo
  | frameI =>
      rw [readPicture, programStream, demuxVideo_stream]
      exact congrArg (fun data => some (Picture.mk .frameI stamp data)) (flatten_pesPayloads data)
  | frameP =>
      have hnot : demuxVideo .frameI (programStream .frameP iTime data) = none := by
        rw [programStream, videoHeaders, if_neg (by decide), List.append_nil, demuxVideo,
          readPackHeader_psPackheaderMake]
        simp only [Option.bind_eq_bind, Option.bind_some, readSystemSections,
          readSection_pesStream, Option.bind_none]
      rw [readPicture, hnot, programStream, demuxVideo_stream]
      exact congrArg (fun data => some (Picture.mk .frameP stamp data)) (flatten_pesPayloads data)

/-! ## The datagrams of a frame -/

section Frame

variable {ssrc : UInt32} {seq : Nat} {frame : PsFrame}

theorem slice_append (buf : List UInt8) (offset m n : Nat) :
    slice buf offset m ++ slice buf (offset + m) n = slice buf offset (m + n) := by
  rw [slice, slice, slice, List.take_add, List.drop_drop]

theorem flatten_pieces (frame : PsFrame) (k : Nat) :
    ((List.range k).map frame.piece).flatten =
      slice frame.dataPtr frame.rtpDataBufPreSize (min (1400 * k) frame.dataSize) := by
  induction k with
  | zero => simp [slice]
  | succ k ih =>
      rw [List.range_succ, List.map_append, List.flatten_append, ih, List.map_singleton,
        List.flatten_singleton, PsFrame.piece]
      rcases Nat.le_total frame.dataSize (1400 * k) with hle | hlt
      · have hcount : min (1400 * (k + 1)) frame.dataSize - 1400 * k = 0 := by omega
        rw [hcount, Nat.min_eq_right hle, Nat.min_eq_right (by omega), slice, slice, List.take_zero,
          List.append_nil]
      · rw [Nat.min_eq_left hlt, slice_append]
        congr 1
        omega

theorem fields_eq (frame : PsFrame) (ssrc : UInt32) (seq k : Nat) :
    frame.fields ssrc seq k =
      videoFields ssrc seq (frame.timeStamp.toNat % 2 ^ 32)
        (if k + 1 = packCount frame.dataSize then 1 else 0) :=
  rfl

/-- What a viewer has behind the datagrams of a frame, by induction on those that are left. -/
theorem depacketise_pieces (rest : List (List UInt8)) (left : Nat) :
    ∀ {k : Nat} {got : Option (Nat × List UInt8)} {bytes : List UInt8}
      {datagrams : List (List UInt8)}, k + (left + 1) = packCount frame.dataSize →
      got.getD (frame.timeStamp.toNat % 2 ^ 32, []) = (frame.timeStamp.toNat % 2 ^ 32, bytes) →
      datagrams.map readRtp = (List.range' k (left + 1)).map
        (fun j => some (frame.fields ssrc (seq + j) j, frame.piece j)) →
      depacketise ssrc (seq + k) got (datagrams ++ rest) =
        (depacketise ssrc (seq + packCount frame.dataSize) none rest).map
          ((frame.timeStamp.toNat % 2 ^ 32,
            bytes ++ ((List.range' k (left + 1)).map frame.piece).flatten) :: ·) := by
  induction left with
  | zero =>
      intro k got bytes datagrams hk hgot hread
      obtain ⟨datagram, rfl⟩ : ∃ datagram, datagrams = [datagram] :=
        List.length_eq_one_iff.mp (by simpa using congrArg List.length hread)
      have hdatagram : readRtp datagram = some (frame.fields ssrc (seq + k) k, frame.piece k) :=
        List.head_eq_of_cons_eq hread
      have hlast : k + 1 = packCount frame.dataSize := hk
      rw [fields_eq, if_pos hlast] at hdatagram
      simp only [List.singleton_append, depacketise, hdatagram]
      have hstamp : (videoFields ssrc (seq + k) (frame.timeStamp.toNat % 2 ^ 32) 1).timestamp =
        frame.timeStamp.toNat % 2 ^ 32 := rfl
      rw [hstamp, hgot]
      simp only [videoFields, if_true, Nat.add_assoc, hlast, Nat.zero_add, List.range'_one,
        List.map_singleton, List.flatten_singleton]
  | succ left ih =>
      intro k got bytes datagrams hk hgot hread
      obtain ⟨datagram, datagrams, rfl⟩ : ∃ datagram rest, datagrams = datagram :: rest :=
        List.exists_cons_of_length_eq_add_one (by simpa using congrArg List.length hread)
      rw [List.range'_succ, List.map_cons, List.map_cons] at hread
      obtain ⟨hdatagram, htail⟩ := List.cons.inj hread
      rw [fields_eq, if_neg (by omega)] at hdatagram
      simp only [List.cons_append, depacketise, hdatagram]
      have hstamp : (videoFields ssrc (seq + k) (frame.timeStamp.toNat % 2 ^ 32) 0).timestamp =
        frame.timeStamp.toNat % 2 ^ 32 := rfl
      rw [hstamp, hgot]
      have hmarker : (videoFields ssrc (seq + k) (frame.timeStamp.toNat % 2 ^ 32) 0).marker ≠ 1 :=
        Nat.zero_ne_one
      have hsame : videoFields ssrc (seq + k) (frame.timeStamp.toNat % 2 ^ 32) 0 =
          videoFields ssrc (seq + k) (frame.timeStamp.toNat % 2 ^ 32)
            (videoFields ssrc (seq + k) (frame.timeStamp.toNat % 2 ^ 32) 0).marker := rfl
      simp only [if_neg hmarker]
      have hpieces : List.range' k (left + 1 + 1) = k :: List.range' (k + 1) (left + 1) :=
        List.range'_succ
      rw [if_pos hsame, Nat.add_assoc, ih (by omega) rfl htail, hpieces, List.map_cons,
        List.flatten_cons, List.append_assoc]

/-- **A frame comes whole.** -/
theorem depacketise_frame {datagrams : List (List UInt8)} (rest : List (List UInt8))
    (hpos : 0 < frame.dataSize)
    (hread : datagrams.map readRtp = (List.range (packCount frame.dataSize)).map
      (fun j => some (frame.fields ssrc (seq + j) j, frame.piece j))) :
    depacketise ssrc seq none (datagrams ++ rest) =
      (depacketise ssrc (seq + packCount frame.dataSize) none rest).map
        ((frame.timeStamp.toNat % 2 ^ 32,
          slice frame.dataPtr frame.rtpDataBufPreSize frame.dataSize) :: ·) := by
  have hcount : frame.dataSize ≤ 1400 * packCount frame.dataSize ∧
      0 < packCount frame.dataSize := by
    unfold packCount
    omega
  obtain ⟨left, hleft⟩ := Nat.exists_eq_add_one_of_ne_zero hcount.2.ne'
  rw [List.range_eq_range', hleft] at hread
  have hpieces := flatten_pieces frame (packCount frame.dataSize)
  rw [Nat.min_eq_right hcount.1, List.range_eq_range', hleft] at hpieces
  have hnone : (none : Option (Nat × List UInt8)).getD (frame.timeStamp.toNat % 2 ^ 32, []) =
      (frame.timeStamp.toNat % 2 ^ 32, []) := rfl
  have hframe := depacketise_pieces rest left (by rw [Nat.zero_add, hleft]) hnone hread
  rw [hpieces] at hframe
  exact hframe

end Frame

end GbStream.Task
