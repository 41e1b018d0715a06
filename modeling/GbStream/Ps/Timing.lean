import GbStream.Ps.Demux

/-!
# The clocks of a frame

A pack header carries a system clock reference, a PES header a PTS and a DTS.  The reader
takes them out of the bytes by the layout of the format, 33 bits in three groups with a marker
bit behind each.
-/

namespace GbStream.Ps

open Support.Bytes

/-! ## Reading -/

/-- A PTS or a DTS: the four bits in front, the 33 bits, and whether every marker bit is 1. -/
structure TimeStamp where
  code : Nat
  base : Nat
  markers : Bool
  deriving DecidableEq, Repr

structure ClockReference where
  code : Nat
  base : Nat
  extension : Nat
  markers : Bool
  deriving DecidableEq, Repr

def readTimeStamp (b0 b1 b2 b3 b4 : UInt8) : TimeStamp :=
  let bits := b0.toNat * 2 ^ 32 + be32 b1 b2 b3 b4
  { code := bits / 2 ^ 36
    base := bits / 2 ^ 33 % 2 ^ 3 * 2 ^ 30 + bits / 2 ^ 17 % 2 ^ 15 * 2 ^ 15 + bits / 2 % 2 ^ 15
    markers := bits / 2 ^ 32 % 2 = 1 ∧ bits / 2 ^ 16 % 2 = 1 ∧ bits % 2 = 1 }

def readClockReference : List UInt8 → Option ClockReference
  | 0 :: 0 :: 1 :: 0xBA :: b0 :: b1 :: b2 :: b3 :: b4 :: b5 :: _ =>
      let bits := be16 b0 b1 * 2 ^ 32 + be32 b2 b3 b4 b5
      some
        { code := bits / 2 ^ 46
          base :=
            bits / 2 ^ 43 % 2 ^ 3 * 2 ^ 30 + bits / 2 ^ 27 % 2 ^ 15 * 2 ^ 15 +
              bits / 2 ^ 11 % 2 ^ 15
          extension := bits / 2 % 2 ^ 9
          markers :=
            bits / 2 ^ 42 % 2 = 1 ∧ bits / 2 ^ 26 % 2 = 1 ∧ bits / 2 ^ 10 % 2 = 1 ∧ bits % 2 = 1 }
  | _ => none

def readTimeStamps : List UInt8 → Option (TimeStamp × TimeStamp)
  | _ :: _ :: _ :: _ :: _ :: _ :: _ :: flags :: hdl :: p0 :: p1 :: p2 :: p3 :: p4 :: d0 :: d1 ::
        d2 :: d3 :: d4 :: _ =>
      if flags.toNat / 2 ^ 6 = 3 ∧ 10 ≤ hdl.toNat then
        some (readTimeStamp p0 p1 p2 p3 p4, readTimeStamp d0 d1 d2 d3 d4)
      else none
  | _ => none

def pesTimeStamps (id : UInt8) (bytes : List UInt8) : Option (List (TimeStamp × TimeStamp)) :=
  if bytes = [] then some []
  else
    match _h : readPes id bytes with
    | none => none
    | some (_, rest) =>
        (readTimeStamps bytes).bind fun stamps => (pesTimeStamps id rest).map (stamps :: ·)
termination_by bytes.length
decreasing_by exact readPes_length _h

/-- The clocks of a video frame: that of the pack header, and those of every PES header. -/
def frameClocks (frameType : EsFrameType) (bytes : List UInt8) :
    Option (ClockReference × List (TimeStamp × TimeStamp)) := do
  let clockReference ← readClockReference bytes
  let bytes ← readPackHeader bytes
  let bytes ← readSystemSections frameType bytes
  let stamps ← pesTimeStamps 0xE0 bytes
  some (clockReference, stamps)

/-- Every clock of the frame is the time `iTime`, in 33 bits. -/
def OneClock (iTime : UInt64) (frameType : EsFrameType) (bytes : List UInt8) : Prop :=
  ∃ clockReference stamps, frameClocks frameType bytes = some (clockReference, stamps) ∧
    clockReference =
      { code := 1, base := iTime.toNat % 2 ^ 33, extension := 0, markers := true } ∧
    ∀ s ∈ stamps,
      s.1 = { code := 3, base := iTime.toNat % 2 ^ 33, markers := true } ∧
        s.2 = { code := 1, base := iTime.toNat % 2 ^ 33, markers := true }

/-! ## The bits that are written -/

theorem shiftLeft_or {v w k size : Nat} (hv : v * 2 ^ k < size) (hw : w < 2 ^ k) :
    v <<< k % size ||| w = v * 2 ^ k + w := by
  rw [← Nat.shiftLeft_eq] at hv
  rw [Nat.mod_eq_of_lt hv, ← Nat.shiftLeft_add_eq_or_of_lt hw, Nat.shiftLeft_eq]

theorem toNat_bits (t k mask : UInt64) (i n : Nat) (hk : k.toNat % 64 = i)
    (hmask : mask.toNat = 2 ^ n - 1) : (t >>> k &&& mask).toNat = t.toNat / 2 ^ i % 2 ^ n := by
  rw [UInt64.toNat_and, UInt64.toNat_shiftRight, hk, hmask, Nat.and_two_pow_sub_one_eq_mod,
    Nat.shiftRight_eq_div_pow]

theorem toNat_low_bits (t mask : UInt64) (n : Nat) (hmask : mask.toNat = 2 ^ n - 1) :
    (t &&& mask).toNat = t.toNat % 2 ^ n := by
  rw [UInt64.toNat_and, hmask, Nat.and_two_pow_sub_one_eq_mod]

theorem toNat_psTimeStamp_fst (flag : UInt8) (hflag : flag.toNat < 16) (t : UInt64) :
    (psTimeStamp flag t).1.toNat = flag.toNat * 2 ^ 4 + t.toNat / 2 ^ 30 % 2 ^ 3 * 2 + 1 := by
  have hbits : (t >>> 30 &&& (0x7 : UInt64)).toUInt8.toNat = t.toNat / 2 ^ 30 % 2 ^ 3 := by
    rw [UInt64.toNat_toUInt8, toNat_bits t 30 0x7 30 3 rfl rfl]
    omega
  have h3 : (3 : UInt8).toNat % 8 = 3 := rfl
  have h1 : (1 : UInt8).toNat % 8 = 1 := rfl
  have hmarker : markerBit.toNat = 1 := rfl
  simp only [psTimeStamp, UInt8.toNat_or, UInt8.toNat_shiftLeft, hbits, h3, h1, hmarker]
  simp (disch := omega) only [shiftLeft_or]
  omega

theorem toNat_psTimeStamp_snd (flag : UInt8) (t : UInt64) :
    (psTimeStamp flag t).2.toNat =
      t.toNat / 2 ^ 15 % 2 ^ 15 * 2 ^ 17 + 2 ^ 16 + t.toNat % 2 ^ 15 * 2 + 1 := by
  have hhigh : (t >>> 15 &&& (0x7FFF : UInt64)).toUInt32.toNat = t.toNat / 2 ^ 15 % 2 ^ 15 := by
    rw [UInt64.toNat_toUInt32, toNat_bits t 15 0x7FFF 15 15 rfl rfl]
    omega
  have hlow : (t &&& (0x7FFF : UInt64)).toUInt32.toNat = t.toNat % 2 ^ 15 := by
    rw [UInt64.toNat_toUInt32, toNat_low_bits t 0x7FFF 15 rfl]
    omega
  have h15 : (15 : UInt32).toNat % 32 = 15 := rfl
  have h1 : (1 : UInt32).toNat % 32 = 1 := rfl
  have h0 : (0 : UInt32).toNat = 0 := rfl
  have hmarker : markerBit.toUInt32.toNat = 1 := rfl
  simp only [psTimeStamp, UInt32.toNat_or, UInt32.toNat_shiftLeft, hhigh, hlow, h15, h1, h0,
    hmarker]
  simp (disch := omega) only [shiftLeft_or]
  omega

/-! ## The bytes of a time stamp -/

theorem timeStampBits {code a x y bits : Nat} (ha : a < 2 ^ 3) (hx : x < 2 ^ 15) (hy : y < 2 ^ 15)
    (hbits : bits = (code * 2 ^ 4 + a * 2 + 1) * 2 ^ 32 + (x * 2 ^ 17 + 2 ^ 16 + y * 2 + 1)) :
    bits / 2 ^ 36 = code ∧
      (bits / 2 ^ 33 % 2 ^ 3 = a ∧ bits / 2 ^ 17 % 2 ^ 15 = x ∧ bits / 2 % 2 ^ 15 = y) ∧
      bits / 2 ^ 32 % 2 = 1 ∧ bits / 2 ^ 16 % 2 = 1 ∧ bits % 2 = 1 := by
  omega

theorem timeStamp_groups (t : Nat) :
    t % 2 ^ 33 = t / 2 ^ 30 % 2 ^ 3 * 2 ^ 30 + t / 2 ^ 15 % 2 ^ 15 * 2 ^ 15 + t % 2 ^ 15 := by
  omega

theorem readTimeStamp_psTimeStamp (flag : UInt8) (hflag : flag.toNat < 16) (t : UInt64) :
    let v := (psTimeStamp flag t).2
    readTimeStamp (psTimeStamp flag t).1 (v >>> 24).toUInt8 (v >>> 16).toUInt8 (v >>> 8).toUInt8
        v.toUInt8 =
      { code := flag.toNat, base := t.toNat % 2 ^ 33, markers := true } := by
  intro v
  have hfst := toNat_psTimeStamp_fst flag hflag t
  have hsnd : v.toNat = _ := toNat_psTimeStamp_snd flag t
  simp only [readTimeStamp, be32_bytes, hfst, hsnd, TimeStamp.mk.injEq, decide_eq_true_eq]
  have hlt (n k : Nat) : n % 2 ^ k < 2 ^ k := Nat.mod_lt _ (Nat.two_pow_pos k)
  obtain ⟨hcode, ⟨ha, hx, hy⟩, hmarkers⟩ := timeStampBits (hlt _ 3) (hlt _ 15) (hlt _ 15) rfl
  refine ⟨hcode, ?_, hmarkers⟩
  rw [ha, hx, hy, ← timeStamp_groups]

/-! ## The headers -/

theorem toNat_clockWord {high low : UInt16} (hhigh : high.toNat < 2 ^ 5)
    (hlow : low.toNat < 2 ^ 10) :
    ((high <<< 1 ||| markerBit.toUInt16) <<< 10 ||| low).toNat =
      high.toNat * 2 ^ 11 + 2 ^ 10 + low.toNat := by
  have h10 : (10 : UInt16).toNat % 16 = 10 := rfl
  have h1 : (1 : UInt16).toNat % 16 = 1 := rfl
  have hmarker : markerBit.toUInt16.toNat = 1 := rfl
  simp only [UInt16.toNat_or, UInt16.toNat_shiftLeft, h10, h1, hmarker]
  simp (disch := omega) only [shiftLeft_or]
  omega

theorem toNat_bits16 (t k mask : UInt64) (i n : Nat) (hk : k.toNat % 64 = i)
    (hmask : mask.toNat = 2 ^ n - 1) (hn : n ≤ 10) :
    (t >>> k &&& mask).toUInt16.toNat = t.toNat / 2 ^ i % 2 ^ n := by
  have hlt : t.toNat / 2 ^ i % 2 ^ n < 2 ^ n := Nat.mod_lt _ (Nat.two_pow_pos n)
  have hle : 2 ^ n ≤ 2 ^ 10 := Nat.pow_le_pow_right (by decide) hn
  rw [UInt64.toNat_toUInt16, toNat_bits t k mask i n hk hmask, Nat.mod_eq_of_lt (by omega)]

theorem clock_groups (t : Nat) :
    t % 2 ^ 33 =
      t / 2 ^ 30 % 2 ^ 3 * 2 ^ 30 + (t / 2 ^ 20 % 2 ^ 10 * 2 ^ 5 + t / 2 ^ 15 % 2 ^ 5) * 2 ^ 15 +
        (t / 2 ^ 5 % 2 ^ 10 * 2 ^ 5 + t % 2 ^ 5) := by
  omega

theorem clockWords (a b c d e : Nat) :
    ((2 ^ 3 + a) * 2 ^ 11 + 2 ^ 10 + b) * 2 ^ 32 +
        ((c * 2 ^ 11 + 2 ^ 10 + d) * 65536 + (e * 2 ^ 11 + 2 ^ 10 + 1)) =
      2 ^ 46 + a * 2 ^ 43 + 2 ^ 42 + (b * 2 ^ 5 + c) * 2 ^ 27 + 2 ^ 26 + (d * 2 ^ 5 + e) * 2 ^ 11 +
        2 ^ 10 + 1 := by
  omega

theorem clockBits {a x y bits : Nat} (ha : a < 2 ^ 3) (hx : x < 2 ^ 15) (hy : y < 2 ^ 15)
    (hbits : bits =
      2 ^ 46 + a * 2 ^ 43 + 2 ^ 42 + x * 2 ^ 27 + 2 ^ 26 + y * 2 ^ 11 + 2 ^ 10 + 1) :
    bits / 2 ^ 46 = 1 ∧
      (bits / 2 ^ 43 % 2 ^ 3 = a ∧ bits / 2 ^ 27 % 2 ^ 15 = x ∧ bits / 2 ^ 11 % 2 ^ 15 = y) ∧
      bits / 2 % 2 ^ 9 = 0 ∧
      bits / 2 ^ 42 % 2 = 1 ∧ bits / 2 ^ 26 % 2 = 1 ∧ bits / 2 ^ 10 % 2 = 1 ∧ bits % 2 = 1 := by
  omega

theorem readClockReference_psPackheaderMake (iTime : UInt64) (rest : List UInt8) :
    readClockReference ((psPackheaderMake iTime {}).toBytes ++ rest) =
      some { code := 1, base := iTime.toNat % 2 ^ 33, extension := 0, markers := true } := by
  let first : UInt16 := (1 : UInt16) <<< 3 ||| (iTime >>> 30 &&& (0x07 : UInt64)).toUInt16
  let scrb1 : UInt16 :=
    (first <<< 1 ||| markerBit.toUInt16) <<< 10 ||| (iTime >>> 20 &&& (0x03FF : UInt64)).toUInt16
  let scrb2 : UInt16 :=
    ((iTime >>> 15 &&& (0x1F : UInt64)).toUInt16 <<< 1 ||| markerBit.toUInt16) <<< 10 |||
      (iTime >>> 5 &&& (0x03FF : UInt64)).toUInt16
  let scre : UInt16 :=
    ((iTime &&& (0x1F : UInt64)).toUInt16 <<< 1 ||| markerBit.toUInt16) <<< 10 |||
      markerBit.toUInt16
  have hbytes : ∃ tail, (psPackheaderMake iTime {}).toBytes =
      [0, 0, 1, 0xBA] ++ le16 (htons scrb1) ++ le16 (htons scrb2) ++ le16 (htons scre) ++ tail := by
    refine ⟨(psPackheaderMake iTime {}).toBytes.drop 10, ?_⟩
    have hpsc : le32 (htonl 0x01BA) = [0, 0, 1, 0xBA] := by decide
    rw [← hpsc]
    rfl
  have h30 := toNat_bits16 iTime 30 0x07 30 3 rfl rfl (by decide)
  have h20 := toNat_bits16 iTime 20 0x03FF 20 10 rfl rfl (by decide)
  have h15 := toNat_bits16 iTime 15 0x1F 15 5 rfl rfl (by decide)
  have h5 := toNat_bits16 iTime 5 0x03FF 5 10 rfl rfl (by decide)
  have h0 : (iTime &&& (0x1F : UInt64)).toUInt16.toNat = iTime.toNat % 2 ^ 5 := by
    rw [UInt64.toNat_toUInt16, toNat_low_bits iTime 0x1F 5 rfl]
    omega
  have hfirst : first.toNat = 2 ^ 3 + iTime.toNat / 2 ^ 30 % 2 ^ 3 := by
    have h3 : (1 : UInt16).toNat <<< ((3 : UInt16).toNat % 16) = 1 <<< 3 := rfl
    simp only [first, UInt16.toNat_or, UInt16.toNat_shiftLeft, h30, h3]
    simp (disch := omega) only [shiftLeft_or]
    omega
  have hscrb1 : scrb1.toNat = _ :=
    toNat_clockWord (show first.toNat < 2 ^ 5 by omega) (h20.trans_lt (by omega))
  have hscrb2 := toNat_clockWord (h15.trans_lt (by omega)) (h5.trans_lt (by omega))
  have hscre := toNat_clockWord (h0.trans_lt (by omega))
    (show markerBit.toUInt16.toNat < 2 ^ 10 by decide)
  rw [hfirst, h20] at hscrb1
  rw [h15, h5] at hscrb2
  rw [h0, show markerBit.toUInt16.toNat = 1 from rfl] at hscre
  obtain ⟨tail, hbytes⟩ := hbytes
  rw [hbytes, le16_htons, le16_htons, le16_htons]
  simp only [List.cons_append, List.nil_append, readClockReference, be32, be16_bytes, scrb2, scre,
    hscrb1, hscrb2, hscre, Option.some.injEq, ClockReference.mk.injEq, decide_eq_true_eq]
  rw [clockWords]
  obtain ⟨hcode, ⟨ha, hx, hy⟩, hextension, hmarkers⟩ := clockBits (Nat.mod_lt _ (by decide))
    (show iTime.toNat / 2 ^ 20 % 2 ^ 10 * 2 ^ 5 + iTime.toNat / 2 ^ 15 % 2 ^ 5 < 2 ^ 15 by omega)
    (show iTime.toNat / 2 ^ 5 % 2 ^ 10 * 2 ^ 5 + iTime.toNat % 2 ^ 5 < 2 ^ 15 by omega) rfl
  refine ⟨hcode, ?_, hextension, hmarkers⟩
  rw [ha, hx, hy, ← clock_groups]

/-- A PES header is read with the time stamps of the low 32 bits of the time. -/
theorem readTimeStamps_pesHeader (streamId : UInt8) (iTime : UInt64) (frameLen : Nat)
    (rest : List UInt8) :
    readTimeStamps ((pesHeader streamId iTime frameLen).toBytes ++ rest) =
      some
        ({ code := 3, base := iTime.toNat % 2 ^ 32, markers := true },
          { code := 1, base := iTime.toNat % 2 ^ 32, markers := true }) := by
  let h := pesHeader streamId iTime frameLen
  let ulPTS := iTime.toUInt32.toUInt64
  have hbytes : ∃ b0 b1 b2 b3 b4 b5 b6, h.toBytes =
      [b0, b1, b2, b3, b4, b5, b6, (h.flags >>> 8).toUInt8, 10] ++
        ((psPts ulPTS).1 :: le32 (htonl (psPts ulPTS).2) ++
          (psDts ulPTS).1 :: le32 (htonl (psDts ulPTS).2)) :=
    ⟨_, _, _, _, _, _, _, rfl⟩
  have hflags : (h.flags >>> 8).toUInt8.toNat / 2 ^ 6 = 3 := by
    rw [show h.flags = (psPesInit 0 {}).flags from rfl]
    decide
  have htime : ulPTS.toNat % 2 ^ 33 = iTime.toNat % 2 ^ 32 := by
    rw [UInt32.toNat_toUInt64, UInt64.toNat_toUInt32]
    omega
  obtain ⟨b0, b1, b2, b3, b4, b5, b6, hbytes⟩ := hbytes
  rw [hbytes, le32_htonl, le32_htonl]
  simp only [List.cons_append, List.nil_append, readTimeStamps]
  rw [if_pos ⟨hflags, by decide⟩, ← htime]
  have hpts := readTimeStamp_psTimeStamp ptsDtsFlag (by decide) ulPTS
  have hdts := readTimeStamp_psTimeStamp 1 (by decide) ulPTS
  exact congrArg some (Prod.ext hpts hdts)

/-! ## The frame -/

theorem pesTimeStamps_nil (id : UInt8) : pesTimeStamps id [] = some [] := by
  rw [pesTimeStamps, if_pos rfl]

theorem pesTimeStamps_cons {id : UInt8} {bytes payload rest : List UInt8}
    {stamps : TimeStamp × TimeStamp} (hread : readPes id bytes = some (payload, rest))
    (hstamps : readTimeStamps bytes = some stamps) :
    pesTimeStamps id bytes = (pesTimeStamps id rest).map (stamps :: ·) := by
  have hne : bytes ≠ [] := by
    rintro rfl
    simp [readPes] at hread
  rw [pesTimeStamps, if_neg hne]
  split
  · rename_i heq
    rw [hread] at heq
    cases heq
  · rename_i heq
    rw [hread] at heq
    cases heq
    rw [hstamps, Option.bind_some]

/-- Every packet of a frame has the time stamps of the low 32 bits of the time. -/
theorem pesTimeStamps_pesStream (streamId : UInt8) (iTime : UInt64) (frame : List UInt8) :
    pesTimeStamps streamId (pesStream streamId iTime frame) =
      some ((pesPayloads frame).map fun _ =>
        ({ code := 3, base := iTime.toNat % 2 ^ 32, markers := true },
          { code := 1, base := iTime.toNat % 2 ^ 32, markers := true })) := by
  induction frame using pesPayloads.induct with
  | case1 => simp [pesTimeStamps_nil]
  | case2 frame hne ih =>
      have hread : readPes streamId
          ((pesHeader streamId iTime frame.length).toBytes ++ frame.take maxPesPacketLength ++
            pesStream streamId iTime (frame.drop maxPesPacketLength)) = _ :=
        readPes_pesHeader frame.length (frame.take maxPesPacketLength)
          (pesStream streamId iTime (frame.drop maxPesPacketLength)) (List.length_take ..)
      have hstamps := readTimeStamps_pesHeader streamId iTime frame.length
        (frame.take maxPesPacketLength ++
          pesStream streamId iTime (frame.drop maxPesPacketLength))
      rw [← List.append_assoc] at hstamps
      rw [pesStream_of_ne_nil _ _ hne, pesPayloads_of_ne_nil hne, pesTimeStamps_cons hread hstamps,
        ih]
      rfl

theorem frameClocks_stream (frameType : EsFrameType) (iTime : UInt64) (frame : List UInt8) :
    frameClocks frameType (videoHeaders frameType iTime ++ pesStream videoStream iTime frame) =
      some
        ({ code := 1, base := iTime.toNat % 2 ^ 33, extension := 0, markers := true },
          (pesPayloads frame).map fun _ =>
            ({ code := 3, base := iTime.toNat % 2 ^ 32, markers := true },
              { code := 1, base := iTime.toNat % 2 ^ 32, markers := true })) := by
  rw [frameClocks, videoHeaders, List.append_assoc, readClockReference_psPackheaderMake,
    Option.bind_eq_bind, Option.bind_some, readPackHeader_psPackheaderMake, Option.bind_eq_bind,
    Option.bind_some, readSystemSections_headers, Option.bind_eq_bind, Option.bind_some,
    show (0xE0 : UInt8) = videoStream from rfl, pesTimeStamps_pesStream]
  rfl

/-- The clocks agree in a frame without a packet, and in one whose time has 32 bits. -/
theorem oneClock_stream (frameType : EsFrameType) (iTime : UInt64) (frame : List UInt8) :
    OneClock iTime frameType
        (videoHeaders frameType iTime ++ pesStream videoStream iTime frame) ↔
      frame = [] ∨ iTime.toNat % 2 ^ 33 < 2 ^ 32 := by
  have hlow : iTime.toNat % 2 ^ 32 = iTime.toNat % 2 ^ 33 ↔ iTime.toNat % 2 ^ 33 < 2 ^ 32 := by
    omega
  unfold OneClock
  rw [frameClocks_stream]
  constructor
  · rintro ⟨clockReference, stamps, heq, -, hstamps⟩
    obtain ⟨-, rfl⟩ := Prod.mk.inj (Option.some.inj heq)
    by_cases hne : frame = []
    · exact .inl hne
    · rw [pesPayloads_of_ne_nil hne] at hstamps
      obtain ⟨hpts, -⟩ := hstamps _ List.mem_cons_self
      exact .inr (hlow.mp (TimeStamp.mk.inj hpts).2.1)
  · intro h
    refine ⟨_, _, rfl, rfl, fun s hs => ?_⟩
    obtain ⟨payload, hpayload, rfl⟩ := List.mem_map.mp hs
    have hlt : iTime.toNat % 2 ^ 33 < 2 ^ 32 := by
      refine h.resolve_left fun hnil => ?_
      rw [hnil, pesPayloads_nil] at hpayload
      exact absurd hpayload List.not_mem_nil
    rw [hlow.mpr hlt]
    exact ⟨rfl, rfl⟩

/-- **The clocks of a video frame agree** just if the time has 32 bits, or no PES packet is
written: the two time stamps lose the bit above. -/
theorem psProcess_video_oneClock (pPsInfo : PsFrameInfo) (src buf : List UInt8)
    (frameLen : Nat) (frameType : EsFrameType) (iTime : UInt64)
    (hvideo : frameType ≠ .frameAudio)
    (hsrc : frameLen ≤ src.length)
    (hlen : 14 + (if frameType = .frameI then 48 else 0) + frameLen +
      19 * ((frameLen + 65521) / 65522) < 2 ^ 31)
    (hroom : 14 + (if frameType = .frameI then 48 else 0) + frameLen +
      19 * ((frameLen + 65521) / 65522) ≤ buf.length) :
    ∃ (buf' : List UInt8) (psDataLen : Nat),
      psProcess pPsInfo src frameLen frameType buf iTime =
        some (pPsInfo, buf', (psDataLen : Int)) ∧
      (OneClock iTime frameType (buf'.take psDataLen) ↔
        frameLen = 0 ∨ iTime.toNat % 2 ^ 33 < 2 ^ 32) := by
  obtain ⟨buf', hprocess, htake⟩ := psProcess_video_stream pPsInfo iTime hvideo hsrc hlen hroom
  refine ⟨buf', _, hprocess, ?_⟩
  rw [htake, oneClock_stream, List.take_eq_nil_iff]
  constructor
  · rintro ((hzero | hnil) | hlt)
    · exact .inl hzero
    · rw [hnil] at hsrc
      exact .inl (Nat.le_zero.mp hsrc)
    · exact .inr hlt
  · exact Or.imp_left .inl

theorem psProcess_video_oneClock_three :
    ∃ (buf' : List UInt8) (psDataLen : Nat),
      psProcess {} [1, 2, 3] 3 .frameI (List.replicate 84 0) 90000 =
        some ({}, buf', (psDataLen : Int)) ∧
      (OneClock 90000 .frameI (buf'.take psDataLen) ↔
        3 = 0 ∨ (90000 : UInt64).toNat % 2 ^ 33 < 2 ^ 32) :=
  psProcess_video_oneClock {} [1, 2, 3] (List.replicate 84 0) 3 .frameI 90000
    (by decide) (by decide) (by decide) (by decide)

/-- At the time `2 ^ 32` a frame of one byte has a clock reference that its time stamps do not
repeat. -/
theorem psProcess_video_clocks_differ :
    ∃ (buf' : List UInt8) (psDataLen : Nat),
      psProcess {} [1] 1 .frameP (List.replicate 34 0) 0x100000000 =
        some ({}, buf', (psDataLen : Int)) ∧
      ¬ OneClock 0x100000000 .frameP (buf'.take psDataLen) := by
  obtain ⟨buf', hprocess, htake⟩ := @psProcess_video_stream {} [1] (List.replicate 34 0) 1 .frameP
    0x100000000 (by decide) (by decide) (by decide) (by decide)
  refine ⟨buf', _, hprocess, ?_⟩
  rw [htake, oneClock_stream]
  decide

end GbStream.Ps
