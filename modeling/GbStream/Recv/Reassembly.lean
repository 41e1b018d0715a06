import Mathlib.Data.List.Induction
import Mathlib.Data.List.TakeWhile
import GbStream.Recv.StreamCb

/-!
# Reassembly is exact

The stream of a media server is a run of packets; an end packet closes a frame.  The
invariant `Received` ties the state of the callback to the packets it has taken from
the input, and is kept by every packet, wherever the callbacks stop.
-/

namespace GbStream.Recv

open Support.Bytes

/-! ## Frames -/

/-- The packets of a frame, the end packet apart. -/
structure Frame where
  blocks : List Packet
  last : Packet

def Frame.payload (f : Frame) : List UInt8 := payloads (f.blocks ++ [f.last])

/-- The frames of a run of packets behind `blocks`, and the packets behind the last end
packet. -/
def splitFrames (blocks : List Packet) : List Packet → List Frame × List Packet
  | [] => ([], blocks)
  | p :: packets =>
      if p.header.byBlockEndFlag ≠ 0 then
        (⟨blocks, p⟩ :: (splitFrames [] packets).1, (splitFrames [] packets).2)
      else splitFrames (blocks ++ [p]) packets

def framesOf (packets : List Packet) : List Frame := (splitFrames [] packets).1

/-- The packets of a frame whose end packet is still to come. -/
def openBlocks (packets : List Packet) : List Packet := (splitFrames [] packets).2

theorem splitFrames_append (packets rest : List Packet) :
    ∀ blocks, splitFrames blocks (packets ++ rest) =
      ((splitFrames blocks packets).1 ++ (splitFrames (splitFrames blocks packets).2 rest).1,
        (splitFrames (splitFrames blocks packets).2 rest).2) := by
  induction packets with
  | nil => exact fun _ => rfl
  | cons p packets ih =>
      intro blocks
      rw [List.cons_append, splitFrames, splitFrames]
      split
      · rw [ih, List.cons_append]
      · exact ih _

theorem framesOf_append (packets rest : List Packet) :
    framesOf (packets ++ rest) = framesOf packets ++ (splitFrames (openBlocks packets) rest).1 := by
  rw [framesOf, splitFrames_append]
  rfl

theorem framesOf_concat_end (packets : List Packet) {p : Packet}
    (hend : p.header.byBlockEndFlag ≠ 0) :
    framesOf (packets ++ [p]) = framesOf packets ++ [⟨openBlocks packets, p⟩] ∧
      openBlocks (packets ++ [p]) = [] := by
  refine ⟨?_, ?_⟩
  · rw [framesOf_append, splitFrames, if_pos hend, splitFrames]
  · rw [openBlocks, splitFrames_append, splitFrames, if_pos hend, splitFrames]

theorem framesOf_concat_block (packets : List Packet) {p : Packet}
    (hend : ¬ p.header.byBlockEndFlag ≠ 0) :
    framesOf (packets ++ [p]) = framesOf packets ∧
      openBlocks (packets ++ [p]) = openBlocks packets ++ [p] := by
  refine ⟨?_, ?_⟩
  · rw [framesOf_append, splitFrames, if_neg hend, splitFrames, List.append_nil]
  · rw [openBlocks, splitFrames_append, splitFrames, if_neg hend, splitFrames]
    rfl

@[simp] theorem payloads_append (packets packets' : List Packet) :
    payloads (packets ++ packets') = payloads packets ++ payloads packets' :=
  List.flatMap_append

@[simp] theorem payloads_singleton (p : Packet) : payloads [p] = p.payload := by
  simp [payloads]

theorem wire_append (packets packets' : List Packet) :
    wire (packets ++ packets') = wire packets ++ wire packets' :=
  List.flatMap_append

/-- No frame, complete or not, is larger than the buffer of the node. -/
def Fits (packets : List Packet) : Prop :=
  (∀ f ∈ framesOf packets, f.payload.length ≤ sourceBufferSize) ∧
    (payloads (openBlocks packets)).length ≤ sourceBufferSize

theorem blocks_prefix (packets : List Packet) :
    ∀ blocks, (∀ f ∈ (splitFrames blocks packets).1, f.payload.length ≤ sourceBufferSize) →
      (payloads (splitFrames blocks packets).2).length ≤ sourceBufferSize →
      (payloads blocks).length ≤ sourceBufferSize := by
  induction packets with
  | nil => exact fun _ _ hopen => hopen
  | cons p packets ih =>
      intro blocks hframes hopen
      rw [splitFrames] at hframes hopen
      split at hframes
      · have hfirst := hframes _ List.mem_cons_self
        simp only [Frame.payload, payloads_append, List.length_append] at hfirst
        omega
      · rename_i hend
        rw [if_neg hend] at hopen
        have hblocks := ih _ hframes hopen
        simp only [payloads_append, List.length_append] at hblocks
        omega

/-- At every point of the stream the collected payloads and the next one fit. -/
theorem Fits.next {packets rest : List Packet} {p : Packet} (h : Fits (packets ++ p :: rest)) :
    (payloads (openBlocks packets)).length + p.payload.length ≤ sourceBufferSize := by
  obtain ⟨hframes, hopen⟩ := h
  rw [framesOf_append] at hframes
  rw [openBlocks, splitFrames_append] at hopen
  change (payloads (splitFrames (openBlocks packets) (p :: rest)).2).length ≤ _ at hopen
  have hframes' : ∀ f ∈ (splitFrames (openBlocks packets) (p :: rest)).1,
      f.payload.length ≤ sourceBufferSize := fun f hf =>
    hframes f (List.mem_append_right _ hf)
  rw [splitFrames] at hframes' hopen
  split at hframes'
  · have hfirst := hframes' _ List.mem_cons_self
    simpa [Frame.payload] using hfirst
  · rename_i hend
    rw [if_neg hend] at hopen
    simpa using blocks_prefix rest _ hframes' hopen

/-! ## What should be pushed -/

/-- The record of a frame. -/
def Frame.record (f : Frame) : QueueArgs :=
  frameRecord f.last.header f.payload.length f.payload

/-- The media frames from the first key frame on. -/
def mediaFrames (frames : List Frame) : List Frame :=
  (frames.dropWhile fun f => f.last.header.byFrameType ≠ 1).filter
    fun f => f.last.header.byDataType = 13

def keyFrameSeen (frames : List Frame) : Prop := ∃ f ∈ frames, f.last.header.byFrameType = 1

theorem mediaFrames_concat (frames : List Frame) (f : Frame) :
    (keyFrameSeen (frames ++ [f]) ∧ f.last.header.byDataType = 13 →
      mediaFrames (frames ++ [f]) = mediaFrames frames ++ [f]) ∧
    (¬ (keyFrameSeen (frames ++ [f]) ∧ f.last.header.byDataType = 13) →
      mediaFrames (frames ++ [f]) = mediaFrames frames) := by
  have hseen : keyFrameSeen (frames ++ [f]) ↔
      keyFrameSeen frames ∨ f.last.header.byFrameType = 1 := by
    simp [keyFrameSeen, or_and_right, exists_or]
  have hdrop : (frames.dropWhile fun f => f.last.header.byFrameType ≠ 1) = [] ↔
      ¬ keyFrameSeen frames := by
    simp [keyFrameSeen, List.dropWhile_eq_nil_iff]
  rw [hseen]
  simp only [mediaFrames, List.dropWhile_append]
  by_cases hold : keyFrameSeen frames
  · have hne : (frames.dropWhile fun f => f.last.header.byFrameType ≠ 1).isEmpty = false := by
      rw [List.isEmpty_eq_false_iff]
      exact fun hnil => hdrop.mp hnil hold
    rw [hne]
    by_cases hmedia : f.last.header.byDataType = 13 <;> simp [hold, hmedia]
  · have hnil := hdrop.mpr hold
    rw [hnil]
    by_cases hkey : f.last.header.byFrameType = 1 <;>
      by_cases hmedia : f.last.header.byDataType = 13 <;> simp [hold, hkey, hmedia]

/-! ## How far the callbacks go -/

/-- The packets that a callback takes when `available` bytes of them are there: those that are
there as a whole, up to the first end packet. -/
def takes (available : Nat) : List Packet → List Packet
  | [] => []
  | p :: rest =>
      if available < p.toBytes.length then []
      else if p.header.byBlockEndFlag ≠ 0 then [p]
      else p :: takes (available - p.toBytes.length) rest

/-- A stream of packets between two callbacks: what has been taken, what has not, and how many
bytes of that wait in the input. -/
structure Course where
  taken : List Packet := []
  left : List Packet
  unread : Nat := 0

/-- A callback after `size` more bytes. -/
def Course.receive (course : Course) (size : Nat) : Course :=
  let taken := takes (course.unread + size) course.left
  { taken := course.taken ++ taken
    left := course.left.drop taken.length
    unread := course.unread + size - (wire taken).length }

/-- The callbacks of a whole connection, from the sizes of the pieces. -/
def courseOf (packets : List Packet) (sizes : List Nat) : Course :=
  sizes.foldl Course.receive { left := packets }

/-- No whole packet waits, unless the last one that has been taken ends a frame. -/
def Course.Stopped (course : Course) : Prop :=
  (∃ p, course.taken.getLast? = some p ∧ p.header.byBlockEndFlag ≠ 0) ∨
    ∀ p, course.left.head? = some p → course.unread < p.toBytes.length

theorem takes_prefix (rest : List Packet) : ∀ available, takes available rest <+: rest := by
  induction rest with
  | nil => exact fun _ => List.prefix_rfl
  | cons p rest ih =>
      intro available
      rw [takes]
      split
      · exact List.nil_prefix
      · split
        · exact List.prefix_append [p] rest
        · exact (List.prefix_cons_inj p).mpr (ih _)

theorem takes_stopped (rest : List Packet) :
    ∀ available, (∃ p, (takes available rest).getLast? = some p ∧ p.header.byBlockEndFlag ≠ 0) ∨
      ∀ p, (rest.drop (takes available rest).length).head? = some p →
        available - (wire (takes available rest)).length < p.toBytes.length := by
  induction rest with
  | nil => exact fun _ => .inr nofun
  | cons p rest ih =>
      intro available
      rw [takes]
      split
      · rename_i hshort
        right
        intro q hq
        obtain rfl := Option.some.inj hq
        exact (Nat.sub_le _ _).trans_lt hshort
      · split
        · rename_i hend
          exact .inl ⟨p, rfl, hend⟩
        · rcases ih (available - p.toBytes.length) with ⟨q, hlast, hend⟩ | hwaits
          · left
            refine ⟨q, ?_, hend⟩
            rw [List.getLast?_cons, hlast]
            rfl
          · right
            intro q hq
            have hlt := hwaits q hq
            have hwire : (wire (p :: takes (available - p.toBytes.length) rest)).length =
                p.toBytes.length + (wire (takes (available - p.toBytes.length) rest)).length :=
              List.length_append
            omega

theorem Course.receive_stopped (course : Course) (size : Nat) :
    (course.receive size).Stopped := by
  rcases takes_stopped course.left (course.unread + size) with ⟨p, hlast, hend⟩ | hwaits
  · left
    refine ⟨p, ?_, hend⟩
    rw [Course.receive, List.getLast?_append, hlast]
    rfl
  · exact .inr hwaits

theorem courseOf_stopped (packets : List Packet) (sizes : List Nat) :
    (courseOf packets sizes).Stopped := by
  have hstart : Course.Stopped { left := packets } := by
    right
    intro p _
    rw [p.length_toBytes]
    exact Nat.add_pos_left (by decide) _
  exact List.foldlRecOn sizes Course.receive hstart
    fun course _ size _ => course.receive_stopped size

/-! ## The invariant -/

/-- The state of the callback when it has taken `packets` from the input. -/
structure Received (packets : List Packet) (r : Receiver) : Prop where
  size : r.hGetStreamFromSource.length = sourceBufferSize
  dataLen : r.iRecvStreamDataLen = (payloads (openBlocks packets)).length
  data : r.hGetStreamFromSource.take (payloads (openBlocks packets)).length =
    payloads (openBlocks packets)
  flag : r.uRtpClientNodeSendDataThreadFlag = 0 ∧ ¬ keyFrameSeen (framesOf packets) ∨
    r.uRtpClientNodeSendDataThreadFlag = 1 ∧ keyFrameSeen (framesOf packets)
  queue : r.queueStreamData = (mediaFrames (framesOf packets)).map Frame.record

/-- Clients are there, the task can be started and the queue has room. -/
structure Surroundings.Kept (s : Surroundings) : Prop where
  clients : s.listSize ≠ 0
  task : s.iError = false
  len : s.rLen < 512
  room : s.wLen < 512

variable {packets rest : List Packet} {p : Packet} {r : Receiver} {s : Surroundings}

theorem readInto_eq {buf bytes : List UInt8} {offset : Nat}
    (hfits : offset + bytes.length ≤ buf.length) :
    readInto buf offset bytes = writeAt buf offset bytes := by
  unfold readInto
  split
  · rename_i hnil
    rw [writeAt, if_pos hfits, hnil]
    simp
  · rw [if_neg (by omega), Int.toNat_natCast]

/-- The two reads of a packet, when `count` bytes have been collected and its payload fits
behind them. -/
theorem readPackage_packet {count : Nat} {tail : List UInt8}
    (hinput : r.input = p.toBytes ++ tail) (hcount : r.iRecvStreamDataLen = count)
    (hsize : r.hGetStreamFromSource.length = sourceBufferSize)
    (hroom : count + p.payload.length ≤ sourceBufferSize) :
    ∃ buf, writeAt r.hGetStreamFromSource count p.payload = some buf ∧
      readPackage r =
        some
          { r with
            input := tail, hGetStreamFromSource := buf
            iRecvStreamDataLen := (count + p.payload.length : Nat) } := by
  have hhead : readNetLayer r.input = p.header := by
    rw [hinput, Packet.toBytes, List.append_assoc, readNetLayer_toBytes]
  have hbody : r.input.drop packageExtraLen = p.payload ++ tail := by
    rw [hinput, Packet.toBytes, List.append_assoc, ← p.header.length_toBytes, List.drop_left]
  have hlen : p.header.iActLength.toInt - packageExtraLen = p.payload.length := by
    rw [p.iActLength_eq]
    omega
  have hbodySize : toSizeT (p.payload.length : Int) = p.payload.length := by
    have hlt := p.header.iActLength.toInt_lt
    rw [p.iActLength_eq] at hlt
    unfold toSizeT
    omega
  have hsum : toS32 (r.iRecvStreamDataLen + p.payload.length) =
      ((count + p.payload.length : Nat) : Int) := by
    have hlt : sourceBufferSize < 2 ^ 31 := by decide
    rw [hcount, toS32_of_bounds] <;> push_cast <;> omega
  rw [← hsize] at hroom
  obtain ⟨buf, hwrite⟩ := writeAt_isSome hroom
  have hread : readInto r.hGetStreamFromSource r.iRecvStreamDataLen p.payload = some buf := by
    rw [hcount, readInto_eq hroom, hwrite]
  refine ⟨buf, hwrite, ?_⟩
  unfold readPackage
  simp only [hhead, hlen, hbodySize, hbody, List.take_left, List.drop_left, hread,
    Option.map_some, hsum]

theorem readPackage_eq (h : Received packets r) (hfits : Fits (packets ++ p :: rest))
    {tail : List UInt8} (hinput : r.input = p.toBytes ++ tail) :
    ∃ buf, readPackage r =
        some
          { r with
            input := tail, hGetStreamFromSource := buf
            iRecvStreamDataLen := (payloads (openBlocks packets ++ [p])).length } ∧
      buf.length = sourceBufferSize ∧
      buf.take (payloads (openBlocks packets ++ [p])).length =
        payloads (openBlocks packets ++ [p]) := by
  obtain ⟨buf, hwrite, hread⟩ := readPackage_packet hinput h.dataLen h.size hfits.next
  refine ⟨buf, ?_, (length_of_writeAt hwrite).trans h.size, ?_⟩
  · rw [hread, payloads_append, payloads_singleton, List.length_append]
  · simp only [payloads_append, payloads_singleton, List.length_append]
    rw [take_of_writeAt hwrite, h.data]

/-- **A packet inside a frame.** -/
theorem Received.block (h : Received packets r) (hend : ¬ p.header.byBlockEndFlag ≠ 0)
    {buf tail : List UInt8} (hlength : buf.length = sourceBufferSize)
    (hbuf : buf.take (payloads (openBlocks packets ++ [p])).length =
      payloads (openBlocks packets ++ [p])) :
    Received (packets ++ [p])
      { r with
        input := tail, hGetStreamFromSource := buf
        iRecvStreamDataLen := (payloads (openBlocks packets ++ [p])).length } := by
  obtain ⟨hframes, hopen⟩ := framesOf_concat_block packets hend
  exact
    { size := hlength
      dataLen := by rw [hopen]
      data := by
        rw [hopen]
        exact hbuf
      flag := by
        rw [hframes]
        exact h.flag
      queue := by
        rw [hframes]
        exact h.queue }

/-- **An end packet.**  The frame is pushed or dropped, and nothing of it is kept. -/
theorem Received.endOfFrame (h : Received packets r) (hs : s.Kept)
    (hend : p.header.byBlockEndFlag ≠ 0) {buf tail : List UInt8}
    (hlength : buf.length = sourceBufferSize)
    (hbuf : buf.take (payloads (openBlocks packets ++ [p])).length =
      payloads (openBlocks packets ++ [p])) :
    ∃ r', Recv.endOfFrame s p.header
        { r with
          input := tail, hGetStreamFromSource := buf
          iRecvStreamDataLen := (payloads (openBlocks packets ++ [p])).length } =
        .returned r' ∧
      r'.input = tail ∧ Received (packets ++ [p]) r' := by
  obtain ⟨hframes, hopen⟩ := framesOf_concat_end packets hend
  obtain ⟨hpush, hdrop⟩ := mediaFrames_concat (framesOf packets) ⟨openBlocks packets, p⟩
  have hseen : keyFrameSeen (framesOf packets ++ [⟨openBlocks packets, p⟩]) ↔
      keyFrameSeen (framesOf packets) ∨ p.header.byFrameType = 1 := by
    simp [keyFrameSeen, or_and_right, exists_or]
  -- the flag behind the start of the task says whether a key frame has come
  have hflag : flagAfterStart r.uRtpClientNodeSendDataThreadFlag p.header.byFrameType = 0 ∧
        ¬ keyFrameSeen (framesOf packets ++ [⟨openBlocks packets, p⟩]) ∨
      flagAfterStart r.uRtpClientNodeSendDataThreadFlag p.header.byFrameType = 1 ∧
        keyFrameSeen (framesOf packets ++ [⟨openBlocks packets, p⟩]) := by
    rw [hseen]
    rcases h.flag with ⟨hzero, hnone⟩ | ⟨hone, hsome⟩
    · by_cases hkey : p.header.byFrameType = 1 <;> simp [flagAfterStart, hzero, hkey, hnone]
    · simp [flagAfterStart, hone, hsome]
  have hkept : ¬ (s.listSize = 0 ∨ r.uRtpClientNodeSendDataThreadFlag = 2) := by
    rcases h.flag with ⟨hzero, -⟩ | ⟨hone, -⟩
    · simp [hs.clients, hzero]
    · simp [hs.clients, hone]
  have htask : ¬ (r.uRtpClientNodeSendDataThreadFlag = 0 ∧ p.header.byFrameType = 1 ∧
      s.iError = true) := by simp [hs.task]
  have hnil : (payloads (openBlocks (packets ++ [p]))).length = 0 := by rw [hopen]; rfl
  unfold Recv.endOfFrame
  rw [if_neg hkept, if_neg htask]
  simp only []
  split
  · rename_i hdiscard
    refine ⟨_, rfl, rfl, ?_⟩
    have hnot : ¬ (keyFrameSeen (framesOf packets ++ [⟨openBlocks packets, p⟩]) ∧
        p.header.byDataType = 13) := by
      rintro ⟨hkey, hmedia⟩
      rcases hdiscard with hzero | hother
      · rcases hflag with ⟨-, hnone⟩ | ⟨hone, -⟩
        · exact hnone hkey
        · rw [hzero] at hone
          cases hone
      · exact hother hmedia
    exact
      { size := hlength
        dataLen := by rw [hnil]; rfl
        data := by rw [hopen]; rfl
        flag := by rw [hframes]; exact hflag
        queue := by rw [hframes, hdrop hnot]; exact h.queue }
  · rename_i hkeep
    rw [not_or, not_not] at hkeep
    have hkey : keyFrameSeen (framesOf packets ++ [⟨openBlocks packets, p⟩]) := by
      rcases hflag with ⟨hzero, -⟩ | ⟨-, hkey⟩
      · exact absurd hzero hkeep.1
      · exact hkey
    have hlen := hs.len
    have hroom := hs.room
    rw [if_neg (by omega), if_neg (by omega)]
    refine ⟨_, rfl, rfl, ?_⟩
    exact
      { size := hlength
        dataLen := by rw [hnil]; rfl
        data := by rw [hopen]; rfl
        flag := by rw [hframes]; exact hflag
        queue := by
          rw [hframes, hpush ⟨hkey, hkeep.2⟩, List.map_append, ← h.queue, Int.toNat_natCast]
          simp only [hbuf]
          rfl }

/-! ## Whole callbacks -/

/-- The front of a run of packets that is not shorter than the first of them starts
with it. -/
theorem front_of_wire {input : List UInt8} (hfront : input <+: wire (p :: rest))
    (hlen : p.toBytes.length ≤ input.length) :
    ∃ tail, input = p.toBytes ++ tail ∧ tail <+: wire rest := by
  have hsplit : wire (p :: rest) = p.toBytes ++ wire rest := rfl
  rw [hsplit] at hfront
  obtain ⟨tail, rfl⟩ := List.prefix_of_prefix_length_le (List.prefix_append _ _) hfront hlen
  exact ⟨tail, rfl, (List.prefix_append_right_inj _).mp hfront⟩

theorem readNetLayer_front {input : List UInt8} (hfront : input <+: wire (p :: rest))
    (hlen : packageExtraLen ≤ input.length) : readNetLayer input = p.header := by
  have hsplit : wire (p :: rest) = p.header.toBytes ++ (p.payload ++ wire rest) := by
    simp [wire, Packet.toBytes]
  rw [hsplit] at hfront
  obtain ⟨tail, htail⟩ := List.prefix_of_prefix_length_le (List.prefix_append _ _) hfront
    (by rw [p.header.length_toBytes]; exact hlen)
  rw [← htail, readNetLayer_toBytes]

theorem toSizeT_iActLength (p : Packet) :
    toSizeT p.header.iActLength.toInt = p.toBytes.length := by
  rw [toSizeT, p.iActLength_emod, Int.toNat_natCast, p.length_toBytes]

/-- **One callback**, by induction on the packets that are not yet taken: what it leaves is the
rest of its input. -/
theorem recvStreamCb_spec (hs : s.Kept) (rest : List Packet) :
    ∀ {packets : List Packet} {r : Receiver}, Received packets r → Fits (packets ++ rest) →
      r.input <+: wire rest →
      ∃ r', recvStreamCb s r = .returned r' ∧
        r.input = wire (takes r.input.length rest) ++ r'.input ∧
        Received (packets ++ takes r.input.length rest) r' := by
  induction rest with
  | nil =>
      intro packets r h _ hfront
      have hempty : r.input = [] := List.prefix_nil.mp hfront
      refine ⟨r, ?_, rfl, by rwa [takes, List.append_nil]⟩
      rw [recvStreamCb, dif_pos (by rw [hempty]; decide)]
  | cons p rest ih =>
      intro packets r h hfits hfront
      rw [takes]
      by_cases hbody : r.input.length < p.toBytes.length
      · rw [if_pos hbody, List.append_nil]
        refine ⟨r, ?_, rfl, h⟩
        by_cases hhead : r.input.length < packageExtraLen
        · rw [recvStreamCb, dif_pos hhead]
        · have hheader := readNetLayer_front hfront (Nat.le_of_not_lt hhead)
          rw [recvStreamCb, dif_neg hhead, hheader, toSizeT_iActLength, if_pos hbody]
      have hhead : ¬ r.input.length < packageExtraLen := by
        rw [p.length_toBytes] at hbody
        omega
      have hheader := readNetLayer_front hfront (Nat.le_of_not_lt hhead)
      obtain ⟨tail, hinput, htail⟩ := front_of_wire hfront (Nat.le_of_not_lt hbody)
      have hlength : r.input.length - p.toBytes.length = tail.length := by
        rw [hinput, List.length_append, Nat.add_sub_cancel_left]
      obtain ⟨buf, hread, hsize, hbuf⟩ := readPackage_eq h hfits hinput
      rw [if_neg hbody, recvStreamCb, dif_neg hhead, hheader, toSizeT_iActLength, if_neg hbody,
        hlength]
      split
      · rename_i hnone
        rw [hread] at hnone
        cases hnone
      · rename_i next hnext
        obtain rfl := Option.some.inj (hread.symm.trans hnext)
        by_cases hend : p.header.byBlockEndFlag ≠ 0
        · obtain ⟨r', hdone, hrest, hreceived⟩ := h.endOfFrame hs hend hsize hbuf
          rw [if_pos hend, if_pos hend]
          refine ⟨r', hdone, ?_, hreceived⟩
          rw [hinput, hrest]
          simp [wire]
        · have hfits' : Fits ((packets ++ [p]) ++ rest) := by
            rwa [List.append_assoc]
          obtain ⟨r', hcall, hwire, hreceived⟩ := ih (h.block hend hsize hbuf) hfits' htail
          rw [if_neg hend, if_neg hend]
          refine ⟨r', hcall, ?_, ?_⟩
          · rw [hinput]
            simp only [wire, List.flatMap_cons, List.append_assoc]
            exact congrArg (p.toBytes ++ ·) hwire
          · rwa [List.append_assoc] at hreceived

structure Course.Follows (course : Course) (r : Receiver) : Prop where
  received : Received course.taken r
  unread : r.input.length = course.unread

/-- **One callback** of a course. -/
theorem Course.Follows.receive {course : Course} (h : course.Follows r) (hs : s.Kept)
    (hfits : Fits (course.taken ++ course.left)) {bytes : List UInt8}
    (hfront : r.input ++ bytes <+: wire course.left) :
    ∃ taken r', Recv.receive s bytes r = .returned r' ∧
      (course.receive bytes.length).taken = course.taken ++ taken ∧
      course.left = taken ++ (course.receive bytes.length).left ∧
      r.input ++ bytes = wire taken ++ r'.input ∧ (course.receive bytes.length).Follows r' := by
  have hlength : (r.input ++ bytes).length = course.unread + bytes.length := by
    rw [List.length_append, h.unread]
  have hreceived : Received course.taken { r with input := r.input ++ bytes } :=
    { h.received with }
  obtain ⟨r', hcall, hwire, hreceived'⟩ := recvStreamCb_spec hs course.left hreceived hfits hfront
  simp only [hlength] at hwire hreceived'
  have hleft := takes_prefix course.left (course.unread + bytes.length)
  refine ⟨takes (course.unread + bytes.length) course.left, r', hcall, rfl, ?_, hwire,
    hreceived', ?_⟩
  · exact (List.prefix_iff_eq_append.mp hleft).symm
  · have hcount := congrArg List.length hwire
    rw [hlength, List.length_append] at hcount
    show r'.input.length = course.unread + bytes.length - _
    omega

/-- **Every run of callbacks**, by induction on the pieces that arrive. -/
theorem receiveAll_spec (pieces : List (Surroundings × List UInt8)) :
    ∀ {course : Course} {r : Receiver}, (∀ piece ∈ pieces, piece.1.Kept) → course.Follows r →
      Fits (course.taken ++ course.left) →
      r.input ++ (pieces.map Prod.snd).flatten <+: wire course.left →
      let last := (pieces.map fun piece => piece.2.length).foldl Course.receive course
      ∃ (taken : List Packet) (r' : Receiver), receiveAll r pieces = some r' ∧
        last.taken = course.taken ++ taken ∧ course.left = taken ++ last.left ∧
        r.input ++ (pieces.map Prod.snd).flatten = wire taken ++ r'.input ∧ last.Follows r' := by
  induction pieces with
  | nil =>
      intro course r _ h _ _
      exact ⟨[], r, rfl, (List.append_nil _).symm, rfl, List.append_nil _, h⟩
  | cons piece pieces ih =>
      intro course r hkept h hfits hfront
      obtain ⟨s, bytes⟩ := piece
      simp only [List.map_cons, List.flatten_cons, ← List.append_assoc, List.foldl_cons]
        at hfront ⊢
      obtain ⟨taken, r₁, hcall, htaken, hleft, hwire, h₁⟩ :=
        h.receive (hkept _ List.mem_cons_self) hfits ((List.prefix_append _ _).trans hfront)
      rw [hleft, ← List.append_assoc, ← htaken] at hfits
      rw [hwire, hleft, wire_append, List.append_assoc, List.prefix_append_right_inj] at hfront
      obtain ⟨taken', r', hrun, htaken', hleft', hwire', h'⟩ :=
        ih (fun piece hpiece => hkept piece (List.mem_cons_of_mem _ hpiece)) h₁ hfits hfront
      refine ⟨taken ++ taken', r', ?_, ?_, ?_, ?_, h'⟩
      · rw [receiveAll, hcall]
        exact hrun
      · rw [htaken', htaken, List.append_assoc]
      · rw [hleft, hleft', List.append_assoc]
      · rw [hwire, List.append_assoc, hwire', wire_append, List.append_assoc]

theorem mediaFrames_prefix (packets rest : List Packet) :
    mediaFrames (framesOf packets) <+: mediaFrames (framesOf (packets ++ rest)) := by
  rw [framesOf_append]
  generalize (splitFrames (openBlocks packets) rest).1 = frames
  induction frames using List.reverseRecOn with
  | nil => simp
  | append_singleton frames f ih =>
      rw [← List.append_assoc]
      obtain ⟨hpush, hdrop⟩ := mediaFrames_concat (framesOf packets ++ frames) f
      by_cases hmedia : keyFrameSeen (framesOf packets ++ frames ++ [f]) ∧
          f.last.header.byDataType = 13
      · rw [hpush hmedia]
        exact ih.trans (List.prefix_append _ _)
      · rw [hdrop hmedia]
        exact ih

/-- A node over whose connection no packet of the stream has come yet. -/
structure Receiver.Fresh (r : Receiver) : Prop where
  input : r.input = []
  size : r.hGetStreamFromSource.length = sourceBufferSize
  dataLen : r.iRecvStreamDataLen = 0
  flag : r.uRtpClientNodeSendDataThreadFlag = 0
  queue : r.queueStreamData = []

theorem Receiver.Fresh.received (h : r.Fresh) : Received [] r where
  size := h.size
  dataLen := h.dataLen
  data := rfl
  flag := .inl ⟨h.flag, by simp [keyFrameSeen, framesOf, splitFrames]⟩
  queue := h.queue

theorem Receiver.Fresh.follows (h : r.Fresh) (packets : List Packet) :
    Course.Follows { left := packets } r where
  received := h.received
  unread := by
    rw [h.input]
    rfl

/-- **Reassembly is exact.**  However the bytes of a run of packets come, after every
callback some packets have been taken and the rest of the input is unread.  The pushed
records are those of the media frames of these packets from the first key frame on, and
so a prefix of those of the whole stream; the buffer holds exactly the payloads behind
the last end packet.  How many packets have been taken depends on the sizes of the pieces only,
and no whole packet waits unless the last one ends a frame. -/
theorem receiveAll_exact (packets : List Packet) (pieces : List (Surroundings × List UInt8))
    (r : Receiver) (hfresh : r.Fresh) (hfits : Fits packets)
    (hkept : ∀ piece ∈ pieces, piece.1.Kept)
    (hstream : (pieces.map Prod.snd).flatten <+: wire packets) :
    ∃ (taken left : List Packet) (r' : Receiver), receiveAll r pieces = some r' ∧
      packets = taken ++ left ∧ (pieces.map Prod.snd).flatten = wire taken ++ r'.input ∧
      r'.queueStreamData = (mediaFrames (framesOf taken)).map Frame.record ∧
      r'.queueStreamData.length ≤ (mediaFrames (framesOf packets)).length ∧
      (∀ (k : Nat) (record : QueueArgs), r'.queueStreamData[k]? = some record →
        ∃ f, (mediaFrames (framesOf packets))[k]? = some f ∧
          record.stCmdHead.cmdLength = f.payload.length ∧ record.data = f.payload ∧
          record.stCmdHead.dataType = frameDataType f.last.header.byFrameType ∧
          record.iDataLen = record.stCmdHead.cmdLength + 32) ∧
      r'.iRecvStreamDataLen = (payloads (openBlocks taken)).length ∧
      r'.hGetStreamFromSource.take r'.iRecvStreamDataLen.toNat = payloads (openBlocks taken) ∧
      courseOf packets (pieces.map fun piece => piece.2.length) =
        ⟨taken, left, r'.input.length⟩ ∧
      ((∃ p, taken.getLast? = some p ∧ p.header.byBlockEndFlag ≠ 0) ∨
        ∀ p, left.head? = some p → r'.input.length < p.toBytes.length) := by
  have hinput : r.input ++ (pieces.map Prod.snd).flatten = (pieces.map Prod.snd).flatten := by
    rw [hfresh.input, List.nil_append]
  obtain ⟨taken, r', hrun, htaken, hleft, hwire, hfollows⟩ :=
    receiveAll_spec pieces hkept (hfresh.follows packets) hfits (hinput.symm ▸ hstream)
  have hstopped := courseOf_stopped packets (pieces.map fun piece => piece.2.length)
  obtain ⟨hreceived, hunread⟩ := hfollows
  generalize hcourse : courseOf packets (pieces.map fun piece => piece.2.length) = course
    at hstopped
  change courseOf packets _ = course at hcourse
  rw [← courseOf, hcourse] at htaken hleft hreceived hunread
  obtain rfl : course.taken = taken := htaken
  obtain rfl : packets = course.taken ++ course.left := hleft
  have hgrow := mediaFrames_prefix course.taken course.left
  refine ⟨course.taken, course.left, r', hrun, rfl, hinput ▸ hwire, hreceived.queue, ?_, ?_,
    hreceived.dataLen, ?_, ?_, ?_⟩
  · rw [hreceived.queue, List.length_map]
    exact hgrow.length_le
  · intro k record hrecord
    rw [hreceived.queue, List.getElem?_map, Option.map_eq_some_iff] at hrecord
    obtain ⟨f, hf, rfl⟩ := hrecord
    obtain ⟨hk, rfl⟩ := List.getElem?_eq_some_iff.mp hf
    exact ⟨_, List.prefix_iff_getElem?.mp hgrow k hk, rfl, rfl, rfl, rfl⟩
  · rw [hreceived.dataLen, Int.toNat_natCast]
    exact hreceived.data
  · rw [hunread]
  · rw [hunread]
    exact hstopped

/-- A key frame of one packet. -/
def framePacket : Packet where
  header := ⟨30, 0, 9, 13, 1, 0, 7, 0, 0, 1, 1, 0, 0⟩
  payload := [5, 6]
  iActLength_eq := by decide

/-- A key frame that comes in two pieces is pushed. -/
theorem receiveAll_exact_cut :
    let p := framePacket
    let s : Surroundings := ⟨1, false, 0, 0⟩
    let r : Receiver := { hGetStreamFromSource := List.replicate sourceBufferSize 0 }
    ∃ r', receiveAll r [(s, p.toBytes.take 29), (s, [6])] = some r' ∧ r'.input = [] ∧
      r'.queueStreamData = [Frame.record ⟨[], p⟩] ∧ r'.iRecvStreamDataLen = 0 := by
  intro p s r
  have hkept : s.Kept := ⟨by decide, rfl, by decide, by decide⟩
  have hfits : Fits [p] := by
    have hframes : framesOf [p] = [⟨[], p⟩] := rfl
    refine ⟨fun f hf => ?_, by decide⟩
    rw [hframes, List.mem_singleton] at hf
    subst hf
    decide
  have hpieces : ∀ piece ∈ [(s, p.toBytes.take 29), (s, [6])], piece.1.Kept := by
    intro piece hpiece
    simp only [List.mem_cons, List.not_mem_nil, or_false] at hpiece
    rcases hpiece with rfl | rfl <;> exact hkept
  have hstream : ([(s, p.toBytes.take 29), (s, [6])].map Prod.snd).flatten <+: wire [p] := by
    decide
  have hexact := receiveAll_exact [p] _ r ⟨rfl, List.length_replicate, rfl, rfl, rfl⟩ hfits
    hpieces hstream
  obtain ⟨taken, left, r', hrun, -, -, hqueue, -, -, hdataLen, -, hcourse, -⟩ := hexact
  have hlength : p.toBytes.length = 30 := p.length_toBytes
  have hsizes : [(s, p.toBytes.take 29), (s, [6])].map (fun piece => piece.2.length) =
      [29, 1] := by
    rw [List.map_cons, List.length_take, hlength]
    rfl
  have hfirst : takes 29 [p] = [] := by
    rw [takes, hlength]
    rfl
  have hsecond : takes 30 [p] = [p] := by
    rw [takes, hlength]
    rfl
  have hwhole : courseOf [p] [29, 1] = ⟨[p], [], 0⟩ := by
    simp [courseOf, Course.receive, hfirst, hsecond, wire, hlength]
  rw [hsizes, hwhole] at hcourse
  obtain ⟨htaken, -, hunread⟩ := Course.mk.inj hcourse
  rw [← htaken] at hqueue hdataLen
  exact ⟨r', hrun, List.eq_nil_of_length_eq_zero hunread.symm, hqueue, hdataLen⟩

end GbStream.Recv
