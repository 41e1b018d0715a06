import GbStream.Recv.Reassembly
import GbStream.Recv.Connection

/-!
# Commands to the media server

`SendDataToStream` cuts a command into blocks of at most 8192 bytes, each behind a header
of its own.  The other side takes packets from its input as the read callbacks here do, and
puts their payloads together up to the end flag.
-/

namespace GbStream.Recv

open Support.Bytes

/-! ## Sending -/

def netBufferLen : Nat := 8 * 1024

/-- `sizeof(NET_LAYER)` -/
def netLayerStructLen : Nat := packageExtraLen + netBufferLen

/-- The sum of two `int`s; an overflow is undefined. -/
def addInt (a b : Int) : Option Int :=
  if -2 ^ 31 ≤ a + b ∧ a + b < 2 ^ 31 then some (a + b) else none

def splitCommand (nLength : Int) : Option (Int × Int) :=
  if nLength.tmod netBufferLen = 0 then some (nLength.tdiv netBufferLen, netBufferLen)
  else do
    let sum ← addInt nLength netBufferLen
    some (sum.tdiv netBufferLen, nLength.tmod netBufferLen)

def blockHeader (reserved : UInt8 × UInt8) (nDataType : Int) (iActLength : Nat)
    (byBlockHeadFlag byBlockEndFlag : Bool) : NetLayer where
  iActLength := Int32.ofNat iActLength
  byProtocolType := 0
  byProtocolVer := 9
  byDataType := UInt8.ofInt nDataType
  byFrameType := 0
  iTimeStampHigh := 0
  iTimeStampLow := 0
  iVodFilePercent := 0
  iVodCurFrameNo := 0
  byBlockHeadFlag := byBlockHeadFlag.toUInt8
  byBlockEndFlag := byBlockEndFlag.toUInt8
  byReserved1 := reserved.1
  byReserved2 := reserved.2

/-- The bytes of `bufferevent_write` for the block `i`. -/
def writeBlock (reserved : UInt8 × UInt8) (pCmd : List UInt8) (nDataType : Int)
    (iSplit iLastBlockLength i : Nat) : List UInt8 :=
  let pSrcOffset := pCmd.drop (i * netBufferLen)
  if i + 1 = iSplit then
    (blockHeader reserved nDataType (packageExtraLen + iLastBlockLength)
        (if iSplit = 1 then true else false) true).toBytes ++ pSrcOffset.take iLastBlockLength
  else
    (blockHeader reserved nDataType netLayerStructLen (if i = 0 then true else false)
        false).toBytes ++ pSrcOffset.take netBufferLen

/-- The bytes written to the connection; `none` for an overflow. -/
def sendDataToStream (reserved : UInt8 × UInt8) (pCmd : List UInt8) (nLength nDataType : Int) :
    Option (List UInt8) := do
  let (iSplit, iLastBlockLength) ← splitCommand nLength
  some ((List.range iSplit.toNat).flatMap
    (writeBlock reserved pCmd nDataType iSplit.toNat iLastBlockLength.toNat))

/-! ## Receiving -/

/-- A receiver of messages: its input, the payloads since the last end flag, and the
messages so far. -/
structure Decoder where
  input : List UInt8 := []
  message : List UInt8 := []
  messages : List (List UInt8) := []
  deriving DecidableEq, Repr

/-- A read callback: it takes packets up to an end flag or the end of its input. -/
def Decoder.callback (d : Decoder) : Decoder :=
  if _ : d.input.length < packageExtraLen then d
  else if d.input.length < toSizeT (readNetLayer d.input).iActLength.toInt then d
  else
    let bodyLen := toSizeT ((readNetLayer d.input).iActLength.toInt - packageExtraLen)
    let rest := (d.input.drop packageExtraLen).drop bodyLen
    let message := d.message ++ (d.input.drop packageExtraLen).take bodyLen
    if (readNetLayer d.input).byBlockEndFlag ≠ 0 then
      { input := rest, messages := d.messages ++ [message] }
    else callback { d with input := rest, message }
termination_by d.input.length
decreasing_by
  simp only [List.length_drop, packageExtraLen] at *
  omega

def decode (pieces : List (List UInt8)) : Decoder :=
  pieces.foldl (fun d piece => Decoder.callback { d with input := d.input ++ piece }) {}

section Decoder

variable {d : Decoder} {p : Packet} {rest : List Packet} {tail : List UInt8}

theorem toSizeT_payload (p : Packet) :
    toSizeT (p.header.iActLength.toInt - packageExtraLen) = p.payload.length := by
  have hlt := p.header.iActLength.toInt_lt
  have hlen : p.header.iActLength.toInt - packageExtraLen = p.payload.length := by
    rw [p.iActLength_eq]
    omega
  rw [p.iActLength_eq] at hlt
  rw [hlen, toSizeT]
  omega

theorem Decoder.callback_packet (hinput : d.input = p.toBytes ++ tail) :
    d.callback =
      if p.header.byBlockEndFlag ≠ 0 then
        { input := tail, messages := d.messages ++ [d.message ++ p.payload] }
      else callback { d with input := tail, message := d.message ++ p.payload } := by
  have hhead : readNetLayer d.input = p.header := by
    rw [hinput, Packet.toBytes, List.append_assoc, readNetLayer_toBytes]
  have hbody : d.input.drop packageExtraLen = p.payload ++ tail := by
    rw [hinput, Packet.toBytes, List.append_assoc, ← p.header.length_toBytes, List.drop_left]
  have hlength : d.input.length = packageExtraLen + p.payload.length + tail.length := by
    rw [hinput, List.length_append, p.length_toBytes]
  have hsize : toSizeT p.header.iActLength.toInt = packageExtraLen + p.payload.length := by
    rw [toSizeT, p.iActLength_emod, Int.toNat_natCast]
  rw [callback, dif_neg (by omega), hhead, if_neg (by omega), toSizeT_payload, hbody]
  simp only [List.drop_left, List.take_left]

theorem Decoder.callback_waits (hfront : d.input <+: wire (p :: rest))
    (hshort : d.input.length < p.toBytes.length) : d.callback = d := by
  by_cases hhead : d.input.length < packageExtraLen
  · rw [callback, dif_pos hhead]
  have hheader : readNetLayer d.input = p.header := by
    have hsplit : wire (p :: rest) = p.header.toBytes ++ (p.payload ++ wire rest) := by
      simp [wire, Packet.toBytes]
    rw [hsplit] at hfront
    obtain ⟨tail, htail⟩ := List.prefix_of_prefix_length_le (List.prefix_append _ _) hfront
      (by rw [p.header.length_toBytes]; omega)
    rw [← htail, readNetLayer_toBytes]
  have hsize : toSizeT p.header.iActLength.toInt = p.toBytes.length := by
    rw [toSizeT, p.iActLength_emod, Int.toNat_natCast, p.length_toBytes]
  rw [callback, dif_neg hhead, hheader, hsize, if_pos hshort]

theorem decode_nothing {pieces : List (List UInt8)} (hpieces : ∀ piece ∈ pieces, piece = [])
    (hinput : d.input = []) :
    pieces.foldl (fun d piece => Decoder.callback { d with input := d.input ++ piece }) d = d := by
  induction pieces with
  | nil => rfl
  | cons piece pieces ih =>
      have hwait : Decoder.callback { d with input := d.input ++ piece } = d := by
        rw [hpieces piece List.mem_cons_self, List.append_nil, Decoder.callback,
          dif_pos (by rw [hinput]; decide)]
      rw [List.foldl_cons, hwait]
      exact ih fun piece hpiece => hpieces piece (List.mem_cons_of_mem _ hpiece)

theorem take_of_readInto {buf bytes out message : List UInt8}
    (hbuffer : buf.take message.length = message)
    (h : readInto buf message.length bytes = some out) :
    out.take (message.length + bytes.length) = message ++ bytes := by
  unfold readInto at h
  split at h
  · rename_i hnil
    obtain rfl := Option.some.inj h
    rw [hnil, List.length_nil, Nat.add_zero, hbuffer, List.append_nil]
  · rw [if_neg (by omega), Int.toNat_natCast] at h
    rw [take_of_writeAt h, hbuffer]

/-- The receiver of messages takes from its input what the callbacks here take, and puts
together what they collect in the buffer of the node. -/
theorem Decoder.callback_readPackage {r r' : Receiver} (hcomplete : Complete r)
    (hlength : packageExtraLen ≤ (readNetLayer r.input).iActLength.toInt)
    (hsized : r.hGetStreamFromSource.length = sourceBufferSize)
    (hbuffer : r.hGetStreamFromSource.take d.message.length = d.message)
    (hcount : r.iRecvStreamDataLen = d.message.length) (hinput : d.input = r.input)
    (hread : readPackage r = some r') :
    d.callback =
      if (readNetLayer r.input).byBlockEndFlag ≠ 0 then
        { input := r'.input
          messages := d.messages ++ [r'.hGetStreamFromSource.take r'.iRecvStreamDataLen.toNat] }
      else
        callback
          { d with
            input := r'.input
            message := r'.hGetStreamFromSource.take r'.iRecvStreamDataLen.toNat } := by
  obtain ⟨hhead, hbody⟩ := hcomplete
  obtain ⟨k, hk⟩ := Int.exists_add_of_le hlength
  have hlt : packageExtraLen + k < 2 ^ 31 := by
    have hint := (readNetLayer r.input).iActLength.toInt_lt
    omega
  have hbodySize : toSizeT ((readNetLayer r.input).iActLength.toInt - packageExtraLen) = k := by
    rw [hk, add_sub_cancel_left, Connection.toSizeT_of_nonneg] <;> omega
  have hactSize : toSizeT (readNetLayer r.input).iActLength.toInt = packageExtraLen + k := by
    rw [hk, Connection.toSizeT_of_nonneg] <;> omega
  rw [hactSize] at hbody
  obtain ⟨buf, hinto, rfl⟩ := Option.map_eq_some_iff.mp hread
  rw [hbodySize, hcount] at hinto
  have hpayload : ((r.input.drop packageExtraLen).take k).length = k := by
    rw [List.length_take, List.length_drop]
    omega
  have hcollected := take_of_readInto hbuffer hinto
  rw [hpayload] at hcollected
  have hroom : d.message.length + k ≤ sourceBufferSize := by
    have hfill := congrArg List.length hcollected
    rw [List.length_append, hpayload, List.length_take, Connection.length_of_readInto hinto,
      hsized] at hfill
    omega
  have hcounted : toS32 (r.iRecvStreamDataLen +
      ((readNetLayer r.input).iActLength.toInt - packageExtraLen)) =
        (d.message.length + k : Nat) := by
    have hbuffer : sourceBufferSize = 1048576 := rfl
    rw [hk, hcount, add_sub_cancel_left, toS32_of_bounds] <;> omega
  rw [callback, dif_neg (by rw [hinput]; omega), hinput, if_neg (by rw [hactSize]; omega)]
  dsimp only
  rw [hcounted, Int.toNat_natCast, hcollected, hbodySize]

end Decoder

/-! ## One message -/

section Message

variable {last : Packet} (hlast : last.header.byBlockEndFlag ≠ 0)

include hlast

/-- One callback in the middle of a message, by induction on the blocks in front of the end
packet: some of them are taken, or all and the end packet. -/
theorem Decoder.callback_message (blocks : List Packet) :
    ∀ {d : Decoder}, (∀ b ∈ blocks, b.header.byBlockEndFlag = 0) →
      d.input <+: wire (blocks ++ [last]) →
      (∃ taken left, blocks = taken ++ left ∧ d.input = wire taken ++ d.callback.input ∧
          d.callback.message = d.message ++ payloads taken ∧
          d.callback.messages = d.messages ∧ d.callback.input ≠ wire (left ++ [last])) ∨
        (d.input = wire (blocks ++ [last]) ∧ d.callback =
          { messages := d.messages ++ [d.message ++ payloads (blocks ++ [last])] }) := by
  -- what holds when the packet `p` in front of `rest` is not there yet
  have hwaits : ∀ {d : Decoder} {p : Packet} {rest : List Packet}, d.input <+: wire (p :: rest) →
      d.input.length < p.toBytes.length → d.callback = d ∧ d.input ≠ wire (p :: rest) := by
    intro d p rest hfront hshort
    refine ⟨callback_waits hfront hshort, fun hall => ?_⟩
    rw [hall, wire, List.flatMap_cons, List.length_append] at hshort
    omega
  induction blocks with
  | nil =>
      intro d _ hfront
      by_cases hshort : d.input.length < last.toBytes.length
      · obtain ⟨hwait, hne⟩ := hwaits hfront hshort
        left
        refine ⟨[], [], rfl, ?_, ?_, ?_, ?_⟩ <;> rw [hwait]
        · rfl
        · exact (List.append_nil _).symm
        · exact hne
      · obtain ⟨tail, hinput, htail⟩ := front_of_wire hfront (Nat.le_of_not_lt hshort)
        obtain rfl : tail = [] := List.prefix_nil.mp htail
        right
        refine ⟨by rw [hinput]; simp [wire], ?_⟩
        rw [callback_packet hinput, if_pos hlast, List.nil_append, payloads_singleton]
  | cons b blocks ih =>
      intro d hblocks hfront
      rw [List.cons_append] at hfront
      by_cases hshort : d.input.length < b.toBytes.length
      · obtain ⟨hwait, hne⟩ := hwaits hfront hshort
        left
        refine ⟨[], b :: blocks, rfl, ?_, ?_, ?_, ?_⟩ <;> rw [hwait]
        · rfl
        · exact (List.append_nil _).symm
        · exact hne
      · obtain ⟨tail, hinput, htail⟩ := front_of_wire hfront (Nat.le_of_not_lt hshort)
        have hblock : ¬ b.header.byBlockEndFlag ≠ 0 :=
          not_not.mpr (hblocks b List.mem_cons_self)
        have hnext := callback_packet hinput
        rw [if_neg hblock] at hnext
        rw [hnext, hinput]
        have hrest := ih (d := { d with input := tail, message := d.message ++ b.payload })
          (fun b' hb' => hblocks b' (List.mem_cons_of_mem _ hb')) htail
        rcases hrest with ⟨taken, left, rfl, hwire, hmessage, hmessages, hne⟩ | ⟨hwire, hdone⟩
        · left
          refine ⟨b :: taken, left, rfl, ?_, ?_, hmessages, hne⟩
          · simp only [wire, List.flatMap_cons, List.append_assoc]
            exact congrArg (b.toBytes ++ ·) hwire
          · rw [hmessage, List.append_assoc]
            rfl
        · right
          refine ⟨?_, ?_⟩
          · simp only [List.cons_append, wire, List.flatMap_cons]
            exact congrArg (b.toBytes ++ ·) hwire
          · rw [hdone, List.append_assoc]
            rfl

/-- A message arrives, by induction on the pieces: as long as it is not complete, a callback
leaves a shorter one. -/
theorem decode_message (pieces : List (List UInt8)) :
    ∀ {d : Decoder} {blocks : List Packet}, (∀ b ∈ blocks, b.header.byBlockEndFlag = 0) →
      d.input ++ pieces.flatten = wire (blocks ++ [last]) →
      d.input ≠ wire (blocks ++ [last]) →
      pieces.foldl (fun d piece => Decoder.callback { d with input := d.input ++ piece }) d =
        { messages := d.messages ++ [d.message ++ payloads (blocks ++ [last])] } := by
  induction pieces with
  | nil =>
      intro d blocks _ hall hne
      rw [List.flatten_nil, List.append_nil] at hall
      exact absurd hall hne
  | cons piece pieces ih =>
      intro d blocks hblocks hall _
      rw [List.flatten_cons, ← List.append_assoc] at hall
      rw [List.foldl_cons]
      have hcall := Decoder.callback_message hlast blocks
        (d := { d with input := d.input ++ piece }) hblocks ⟨pieces.flatten, hall⟩
      rcases hcall with ⟨taken, left, rfl, hwire, hmessage, hmessages, hne⟩ | ⟨hwire, hdone⟩
      · have hleft : ∀ b ∈ left, b.header.byBlockEndFlag = 0 :=
          fun b hb => hblocks b (List.mem_append_right _ hb)
        have hrest : (Decoder.callback { d with input := d.input ++ piece }).input ++
            pieces.flatten = wire (left ++ [last]) := by
          dsimp only at hwire
          rw [hwire, List.append_assoc, wire_append, wire_append, List.append_assoc,
            List.append_cancel_left_eq, ← wire_append] at hall
          exact hall
        rw [ih hleft hrest hne, hmessages, hmessage]
        simp only [payloads_append, List.append_assoc]
      · -- the end packet has been taken, and nothing follows
        dsimp only at hwire
        rw [hwire] at hall
        have hempty : ∀ piece ∈ pieces, piece = [] :=
          List.flatten_eq_nil_iff.mp (List.append_right_eq_self.mp hall)
        rw [hdone]
        exact decode_nothing hempty rfl

end Message

/-! ## The blocks of a command -/

/-- The block `i` of a command, as a packet. -/
def block (reserved : UInt8 × UInt8) (pCmd : List UInt8) (nDataType : Int) (iSplit i : Nat) :
    Packet where
  header :=
    blockHeader reserved nDataType
      (packageExtraLen + ((pCmd.drop (i * netBufferLen)).take netBufferLen).length)
      (i = 0) (i + 1 = iSplit)
  payload := (pCmd.drop (i * netBufferLen)).take netBufferLen
  iActLength_eq := by
    have hlen := List.length_take_le netBufferLen (pCmd.drop (i * netBufferLen))
    unfold netBufferLen at hlen
    unfold blockHeader packageExtraLen
    dsimp only
    rw [Int32.toInt_ofNat_of_lt (by unfold netBufferLen; omega)]
    push_cast
    rfl

def blocks (reserved : UInt8 × UInt8) (pCmd : List UInt8) (nDataType : Int) (iSplit : Nat) :
    List Packet :=
  (List.range iSplit).map (block reserved pCmd nDataType iSplit)

section Blocks

variable {reserved : UInt8 × UInt8} {pCmd : List UInt8} {nDataType : Int} {iSplit : Nat}

theorem payloads_blocks (k : Nat) :
    payloads ((List.range k).map (block reserved pCmd nDataType iSplit)) =
      pCmd.take (k * netBufferLen) := by
  induction k with
  | zero => rw [Nat.zero_mul, List.take_zero]; rfl
  | succ k ih =>
      rw [List.range_succ, List.map_append, payloads_append, ih, List.map_singleton,
        payloads_singleton, Nat.succ_mul, List.take_add]
      rfl

/-- The two cases of the arithmetic: a last block of 8192 bytes, or of the rest. -/
theorem splitCommand_eq {n : Nat} (hpos : 1 ≤ n) (hint : n < 2 ^ 31) :
    splitCommand n =
      if n % netBufferLen = 0 then some (↑(n / netBufferLen), ↑netBufferLen)
      else if n + netBufferLen < 2 ^ 31 then
        some (↑(n / netBufferLen + 1), ↑(n % netBufferLen))
      else none := by
  have hmod : (n : Int).tmod netBufferLen = ↑(n % netBufferLen) := Int.ofNat_tmod ..
  have hdiv : ∀ m : Nat, (m : Int).tdiv netBufferLen = ↑(m / netBufferLen) := fun _ =>
    Int.ofNat_tdiv ..
  unfold splitCommand
  rw [hmod, hdiv]
  by_cases hwhole : n % netBufferLen = 0
  · rw [if_pos hwhole, if_pos (by rw [hwhole]; rfl)]
  · rw [if_neg hwhole, if_neg (by omega)]
    unfold addInt
    by_cases hsum : n + netBufferLen < 2 ^ 31
    · rw [if_pos hsum, if_pos (by omega)]
      have hblocks : (n + netBufferLen) / netBufferLen = n / netBufferLen + 1 :=
        Nat.add_div_right n (by decide)
      rw [← hblocks, ← hdiv]
      rfl
    · rw [if_neg hsum, if_neg (by omega)]
      rfl

theorem writeBlock_eq {m i iLastBlockLength : Nat}
    (hlength : pCmd.length = m * netBufferLen + iLastBlockLength)
    (hlast : iLastBlockLength ≤ netBufferLen) (hi : i ≤ m) :
    writeBlock reserved pCmd nDataType (m + 1) iLastBlockLength i =
      (block reserved pCmd nDataType (m + 1) i).toBytes := by
  unfold writeBlock block Packet.toBytes
  dsimp only
  by_cases hend : i + 1 = m + 1
  · obtain rfl : i = m := Nat.succ.inj hend
    have hrest : (pCmd.drop (i * netBufferLen)).length = iLastBlockLength := by
      rw [List.length_drop]
      omega
    have hfirst : (if i + 1 = 1 then true else false) = decide (i = 0) := by
      cases i <;> simp
    rw [if_pos rfl, hfirst, List.take_of_length_le hrest.le,
      List.take_of_length_le (hrest.le.trans hlast), hrest, decide_eq_true rfl]
  · have hroom : (i + 1) * netBufferLen ≤ m * netBufferLen :=
      Nat.mul_le_mul_right _ (by omega)
    have hfull : ((pCmd.drop (i * netBufferLen)).take netBufferLen).length = netBufferLen := by
      rw [List.length_take, List.length_drop]
      rw [Nat.succ_mul] at hroom
      omega
    have hfirst : (if i = 0 then true else false) = decide (i = 0) := by
      cases i <;> simp
    rw [if_neg hend, hfirst, hfull, decide_eq_false hend]
    rfl

/-- **What is written**: the blocks, the last of them not empty. -/
theorem sendDataToStream_eq (hpos : 1 ≤ pCmd.length) (hint : pCmd.length < 2 ^ 31)
    (hsum : pCmd.length % netBufferLen = 0 ∨ pCmd.length + netBufferLen < 2 ^ 31) :
    ∃ m, sendDataToStream reserved pCmd pCmd.length nDataType =
        some (wire (blocks reserved pCmd nDataType (m + 1))) ∧
      m * netBufferLen < pCmd.length ∧ pCmd.length ≤ (m + 1) * netBufferLen := by
  have hdivMod := Nat.div_add_mod' pCmd.length netBufferLen
  have hwrite : ∀ {m iLastBlockLength : Nat},
      pCmd.length = m * netBufferLen + iLastBlockLength → iLastBlockLength ≤ netBufferLen →
      splitCommand pCmd.length = some (↑(m + 1), ↑iLastBlockLength) →
      sendDataToStream reserved pCmd pCmd.length nDataType =
        some (wire (blocks reserved pCmd nDataType (m + 1))) := by
    intro m iLastBlockLength hlength hlast hsplit
    unfold sendDataToStream
    rw [hsplit, Option.bind_eq_bind, Option.bind_some]
    dsimp only
    rw [Int.toNat_natCast, Int.toNat_natCast, blocks, wire, List.flatMap_map]
    refine congrArg some (List.flatMap_congr fun i hi => ?_)
    exact writeBlock_eq hlength hlast (Nat.le_of_lt_succ (List.mem_range.mp hi))
  rw [splitCommand_eq hpos hint] at hwrite
  by_cases hwhole : pCmd.length % netBufferLen = 0
  · rw [hwhole, Nat.add_zero] at hdivMod
    obtain ⟨m, hm⟩ : ∃ m, pCmd.length / netBufferLen = m + 1 :=
      Nat.exists_eq_succ_of_ne_zero fun hzero => by rw [hzero] at hdivMod; omega
    rw [hm, Nat.succ_mul] at hdivMod
    have hbuffer : netBufferLen = 8192 := rfl
    refine ⟨m, hwrite hdivMod.symm (Nat.le_refl _) ?_, by omega, ?_⟩
    · rw [if_pos hwhole, hm]
    · rw [Nat.succ_mul]
      omega
  · have hlt : pCmd.length % netBufferLen < netBufferLen := Nat.mod_lt _ (by decide)
    refine ⟨_, hwrite hdivMod.symm hlt.le ?_, by omega, ?_⟩
    · rw [if_neg hwhole, if_pos (hsum.resolve_left hwhole)]
    · rw [Nat.succ_mul]
      omega

theorem sendDataToStream_none (hpos : 1 ≤ pCmd.length) (hint : pCmd.length < 2 ^ 31)
    (hsum : ¬ (pCmd.length % netBufferLen = 0 ∨ pCmd.length + netBufferLen < 2 ^ 31)) :
    sendDataToStream reserved pCmd pCmd.length nDataType = none := by
  rw [not_or] at hsum
  unfold sendDataToStream
  rw [splitCommand_eq hpos hint, if_neg hsum.1, if_neg hsum.2]
  rfl

end Blocks

/-! ## The round trip -/

/-- What is written for a command: whole blocks with their flags, which any cut into callbacks
decodes into the command and nothing else. -/
def RoundTrip (reserved : UInt8 × UInt8) (pCmd : List UInt8) (nDataType : Int) : Prop :=
  ∃ blocks : List Packet,
    sendDataToStream reserved pCmd pCmd.length nDataType = some (wire blocks) ∧
    (∀ b ∈ blocks, b.payload ≠ [] ∧ b.header.iActLength.toInt ≤ 8220) ∧
    (∀ i b, blocks[i]? = some b →
      (b.header.byBlockHeadFlag ≠ 0 ↔ i = 0) ∧
      (b.header.byBlockEndFlag ≠ 0 ↔ i + 1 = blocks.length)) ∧
    ∀ pieces : List (List UInt8), pieces.flatten = wire blocks →
      decode pieces = { messages := [pCmd] }

section RoundTrip

variable {reserved : UInt8 × UInt8} {pCmd : List UInt8} {nDataType : Int} {m : Nat}

theorem toUInt8_ne_zero (b : Bool) : b.toUInt8 ≠ 0 ↔ b = true := by
  cases b <;> decide

/-- Only the last block has the end flag, so that one message is decoded. -/
theorem decode_blocks (hhigh : pCmd.length ≤ (m + 1) * netBufferLen) (pieces : List (List UInt8))
    (hpieces : pieces.flatten = wire (blocks reserved pCmd nDataType (m + 1))) :
    decode pieces = { messages := [pCmd] } := by
  have hsplit : blocks reserved pCmd nDataType (m + 1) =
      (List.range m).map (block reserved pCmd nDataType (m + 1)) ++
        [block reserved pCmd nDataType (m + 1) m] := by
    rw [blocks, List.range_succ, List.map_append, List.map_singleton]
  have hlast : (block reserved pCmd nDataType (m + 1) m).header.byBlockEndFlag ≠ 0 := by
    simp only [block, blockHeader, toUInt8_ne_zero, decide_true]
  have hfront : ∀ b ∈ (List.range m).map (block reserved pCmd nDataType (m + 1)),
      b.header.byBlockEndFlag = 0 := by
    intro b hb
    obtain ⟨i, hi, rfl⟩ := List.mem_map.mp hb
    have hne : ¬ i + 1 = m + 1 := by
      have := List.mem_range.mp hi
      omega
    simp only [block, blockHeader, decide_eq_false hne]
    rfl
  have hpayloads : payloads (blocks reserved pCmd nDataType (m + 1)) = pCmd := by
    rw [blocks, payloads_blocks, List.take_of_length_le hhigh]
  have hwire : ([] : List UInt8) ≠ wire (blocks reserved pCmd nDataType (m + 1)) := by
    rw [hsplit, wire_append]
    intro hnil
    have hlength := congrArg List.length hnil
    simp only [List.length_nil, List.length_append, wire, List.flatMap_singleton,
      Packet.length_toBytes, packageExtraLen] at hlength
    omega
  rw [hsplit] at hpieces hpayloads hwire
  have hdecode := decode_message hlast pieces (d := {}) hfront
    (by rw [List.nil_append]; exact hpieces) hwire
  rw [hpayloads] at hdecode
  exact hdecode

theorem block_bounds (hlow : m * netBufferLen < pCmd.length) {b : Packet}
    (hb : b ∈ blocks reserved pCmd nDataType (m + 1)) :
    b.payload ≠ [] ∧ b.header.iActLength.toInt ≤ 8220 := by
  obtain ⟨i, hi, rfl⟩ := List.mem_map.mp hb
  have him : i * netBufferLen ≤ m * netBufferLen :=
    Nat.mul_le_mul_right _ (Nat.le_of_lt_succ (List.mem_range.mp hi))
  have hbuffer : netBufferLen = 8192 := rfl
  have hlength : (block reserved pCmd nDataType (m + 1) i).payload.length =
      min netBufferLen (pCmd.length - i * netBufferLen) := by
    simp only [block, List.length_take, List.length_drop]
  refine ⟨fun hnil => ?_, ?_⟩
  · rw [hnil, List.length_nil] at hlength
    omega
  · rw [(block reserved pCmd nDataType (m + 1) i).iActLength_eq, hlength]
    unfold packageExtraLen
    omega

theorem block_flags {i : Nat} {b : Packet}
    (hb : (blocks reserved pCmd nDataType (m + 1))[i]? = some b) :
    (b.header.byBlockHeadFlag ≠ 0 ↔ i = 0) ∧ (b.header.byBlockEndFlag ≠ 0 ↔ i + 1 = m + 1) := by
  rw [blocks, List.getElem?_map, Option.map_eq_some_iff] at hb
  obtain ⟨j, hj, rfl⟩ := hb
  obtain ⟨hlt, hij⟩ := List.getElem?_eq_some_iff.mp hj
  rw [List.getElem_range] at hij
  subst hij
  simp only [block, blockHeader, toUInt8_ne_zero, decide_eq_true_eq, and_self]

end RoundTrip

/-- **The round trip of a command** of any length of an `int`. -/
theorem sendDataToStream_roundTrip (reserved : UInt8 × UInt8) (pCmd : List UInt8)
    (nDataType : Int) (hpos : 1 ≤ pCmd.length) (hint : pCmd.length < 2 ^ 31) :
    RoundTrip reserved pCmd nDataType ↔
      pCmd.length % netBufferLen = 0 ∨ pCmd.length + netBufferLen < 2 ^ 31 := by
  constructor
  · rintro ⟨blocks, hsend, -⟩
    by_contra hsum
    rw [sendDataToStream_none hpos hint hsum] at hsend
    cases hsend
  · intro hsum
    obtain ⟨m, hsend, hlow, hhigh⟩ :=
      @sendDataToStream_eq reserved pCmd nDataType hpos hint hsum
    have hlength : (blocks reserved pCmd nDataType (m + 1)).length = m + 1 := by
      rw [blocks, List.length_map, List.length_range]
    refine ⟨_, hsend, fun b hb => block_bounds hlow hb, fun i b hb => ?_, ?_⟩
    · rw [hlength]
      exact block_flags hb
    · exact decode_blocks hhigh

theorem sendDataToStream_roundTrip_two :
    RoundTrip (0, 0) [0x61, 0x62] 9 ↔ 2 % netBufferLen = 0 ∨ 2 + netBufferLen < 2 ^ 31 :=
  sendDataToStream_roundTrip (0, 0) [0x61, 0x62] 9 (by decide) (by decide)

/-- The largest length of all is no multiple of 8192, and its sum overflows. -/
theorem sendDataToStream_largest :
    ¬ RoundTrip (0, 0) (List.replicate (2 ^ 31 - 1) 0x61) 9 := by
  rintro ⟨blocks, hsend, -⟩
  have hlength : (List.replicate (2 ^ 31 - 1) (0x61 : UInt8)).length = 2 ^ 31 - 1 :=
    List.length_replicate
  rw [sendDataToStream_none (by rw [hlength]; decide) (by rw [hlength]; decide)
    (by rw [hlength]; decide)] at hsend
  cases hsend

end GbStream.Recv
