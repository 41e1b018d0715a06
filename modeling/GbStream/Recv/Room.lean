import GbStream.Recv.Answer
import GbStream.Recv.Drained

/-!
# What a media server may send

`Room` says of the bytes of a connection, and of nothing that the code computes, that no cut of
them takes the callbacks out of the buffer of the node.
-/

namespace GbStream.Recv.Connection

open Support.Bytes Support.CString

/-- The bytes that come in a run. -/
def sent : List Event → List UInt8
  | [] => []
  | .arrive bytes :: events => bytes ++ sent events
  | .enter :: events | .read :: events | .finish _ _ :: events | .error :: events => sent events

def behindEnd (bytes : List UInt8) (count : Nat) : Nat :=
  if (readNetLayer bytes).byBlockEndFlag ≠ 0 then 0 else count

/-- What may come when the packets behind the last end packet have brought `count` bytes. -/
inductive Room : Nat → List UInt8 → Prop
  | waits {count : Nat} {bytes : List UInt8} (h : ¬ CompletePackage bytes) : Room count bytes
  /-- The payload fits. -/
  | package {count n : Nat} {bytes : List UInt8} (hcomplete : CompletePackage bytes)
      (hlength : (readNetLayer bytes).iActLength.toInt = packageExtraLen + n)
      (hfits : count + n ≤ sourceBufferSize)
      (hrest : Room (behindEnd bytes (count + n)) (bytes.drop (packageExtraLen + n))) :
      Room count bytes
  /-- The length field is `n` too small for a header: everything that is there is read, wherever
  it has been cut, and `n` bytes are taken off the count. -/
  | short {count n : Nat} {bytes : List UInt8} (hcomplete : CompletePackage bytes)
      (hlength : (readNetLayer bytes).iActLength.toInt = packageExtraLen - n) (hpos : 0 < n)
      (hcount : n ≤ count) (hfits : count + (bytes.length - packageExtraLen) ≤ sourceBufferSize)
      (hrest : ∀ k, Room (behindEnd bytes (count - n)) (bytes.drop (packageExtraLen + k))) :
      Room count bytes

/-! ## Packets at the front -/

section Front

variable {input rest : List UInt8}

theorem readNetLayer_append (h : packageExtraLen ≤ input.length) (rest : List UInt8) :
    readNetLayer (input ++ rest) = readNetLayer input := by
  unfold packageExtraLen at h
  have hbyte : ∀ i < 28, (input ++ rest).getD i 0 = input.getD i 0 := by
    intro i hi
    rw [List.getD_eq_getElem?_getD, List.getD_eq_getElem?_getD,
      List.getElem?_append_left (by omega)]
  simp only [readNetLayer, hbyte, Nat.reduceAdd, Nat.reduceLT, Nat.zero_add]

theorem readNetLayer_take {m : Nat} (hm : packageExtraLen ≤ m)
    (h : packageExtraLen ≤ input.length) :
    readNetLayer (input.take m) = readNetLayer input := by
  have hlength : packageExtraLen ≤ (input.take m).length := by
    rw [List.length_take]
    omega
  have hfront := readNetLayer_append hlength (input.drop m)
  rw [List.take_append_drop] at hfront
  exact hfront.symm

theorem completePackage_append (h : CompletePackage input) (rest : List UInt8) :
    CompletePackage (input ++ rest) := by
  obtain ⟨hhead, hbody⟩ := h
  have hlength : (input ++ rest).length = input.length + rest.length := List.length_append
  refine ⟨by omega, ?_⟩
  rw [readNetLayer_append hhead]
  omega

/-- A packet with this length field is whole when its payload is there. -/
theorem completePackage_iff {n : Nat}
    (hlength : (readNetLayer input).iActLength.toInt = packageExtraLen + n) :
    CompletePackage input ↔ packageExtraLen + n ≤ input.length := by
  have hhi := (readNetLayer input).iActLength.toInt_lt
  rw [CompletePackage, hlength, toSizeT_of_nonneg (by omega) (by omega)]
  omega

theorem behindPackage_eq {n : Nat}
    (hlength : (readNetLayer input).iActLength.toInt = packageExtraLen + n) :
    behindPackage input = input.drop (packageExtraLen + n) := by
  have hhi := (readNetLayer input).iActLength.toInt_lt
  have hbody : (packageExtraLen : Int) + n - packageExtraLen = n := by omega
  rw [behindPackage, hlength, hbody, toSizeT_of_nonneg (by omega) (by omega), Int.toNat_natCast,
    List.drop_drop]

/-- The length that is asked for behind a header that is too small for itself is more than
there is. -/
theorem behindPackage_short {n : Nat} (hpos : 0 < n) (hle : n ≤ sourceBufferSize)
    (hlength : (readNetLayer input).iActLength.toInt = packageExtraLen - n)
    (hsmall : input.length - packageExtraLen ≤ sourceBufferSize) : behindPackage input = [] := by
  have hbuffer : sourceBufferSize = 1048576 := rfl
  have hbody : (packageExtraLen : Int) - n - packageExtraLen = -n := by omega
  rw [behindPackage, hlength, hbody, toSizeT_of_neg (by omega) (by omega)]
  apply List.drop_eq_nil_of_le
  rw [List.length_drop]
  omega

theorem completePackage_short {n k : Nat} (h : CompletePackage input)
    (hlength : (readNetLayer input).iActLength.toInt = packageExtraLen - n)
    (hsmall : input.length - packageExtraLen ≤ sourceBufferSize)
    (hk : packageExtraLen + k ≤ input.length) :
    CompletePackage (input.take (packageExtraLen + k)) := by
  have hbuffer : sourceBufferSize = 1048576 := rfl
  have hextra : packageExtraLen = 28 := rfl
  obtain ⟨hhead, hbody⟩ := h
  have hlo := (readNetLayer input).iActLength.le_toInt
  have htake : (input.take (packageExtraLen + k)).length = packageExtraLen + k :=
    List.length_take_of_le hk
  refine ⟨by omega, ?_⟩
  rw [readNetLayer_take (Nat.le_add_right packageExtraLen k) hhead, htake]
  rcases Int.lt_or_le (readNetLayer input).iActLength.toInt 0 with hneg | hnonneg
  · rw [toSizeT_of_neg (by omega) hneg] at hbody
    omega
  · rw [toSizeT_of_nonneg hnonneg (by omega)]
    omega

end Front

/-! ## Enough room -/

section Ready

variable {c : Connection} {rest : List UInt8}

/-- What the end packet in hand, or else the packets behind the last one, leave in the count. -/
def count (c : Connection) : Nat :=
  match c.endPackage with
  | none => c.receiver.iRecvStreamDataLen.toNat
  | some _ => 0

def Ready (c : Connection) (rest : List UInt8) : Prop :=
  c.phase = .command ∨ c.phase = .stream → Room c.count (c.receiver.input ++ rest)

theorem count_of_readPackage {r r' : Receiver} (hread : readPackage r = some r') {n : Nat}
    (hn : r.iRecvStreamDataLen + ((readNetLayer r.input).iActLength.toInt - packageExtraLen) = n)
    (hle : n ≤ sourceBufferSize) : r'.iRecvStreamDataLen = n := by
  have hbuffer : sourceBufferSize = 1048576 := rfl
  rw [(readPackage_some hread).2, hn, toS32_of_bounds (by omega) (by omega)]

/-- **A packet that is taken** leaves room for the rest. -/
theorem Ready.read (h : c.InBounds) (hroom : c.Ready rest)
    (hphase : c.phase = .command ∨ c.phase = .stream) (hend : c.endPackage = none)
    (hcomplete : Complete c.receiver) : Fits c.receiver ∧ c.read.Ready rest := by
  have hnonneg := h.nonneg
  have hcount : c.count = c.receiver.iRecvStreamDataLen.toNat := by rw [count, hend]
  have hfront : readNetLayer (c.receiver.input ++ rest) = readNetLayer c.receiver.input :=
    readNetLayer_append hcomplete.1 rest
  have hlength : (c.receiver.input ++ rest).length = c.receiver.input.length + rest.length :=
    List.length_append
  have hhead : packageExtraLen ≤ c.receiver.input.length := hcomplete.1
  -- what the packet leaves, when the count and the input behind it are known
  have hleaves : ∀ {n : Nat}, n ≤ sourceBufferSize →
      c.receiver.iRecvStreamDataLen +
        ((readNetLayer c.receiver.input).iActLength.toInt - packageExtraLen) = n →
      Room (behindEnd (c.receiver.input ++ rest) n) (behindPackage c.receiver.input ++ rest) →
      c.read.Ready rest := by
    intro n hle hn hrest hphase'
    rw [behindEnd, hfront] at hrest
    cases hread : readPackage c.receiver with
    | none =>
        have hnext : c.read = { c with phase := .overrun } := by
          rw [Connection.read, if_pos hcomplete, hread]
        rw [hnext] at hphase'
        rcases hphase' with hphase' | hphase' <;> cases hphase'
    | some r' =>
        have hinput := (readPackage_behind hread).1
        have hlen := count_of_readPackage hread hn hle
        rw [← hinput] at hrest
        rw [Connection.read, if_pos hcomplete, hread]
        dsimp only [count]
        by_cases hflag : (readNetLayer c.receiver.input).byBlockEndFlag ≠ 0
        · rw [if_pos hflag] at hrest ⊢
          exact hrest
        · rw [if_neg hflag] at hrest ⊢
          rw [hlen]
          exact hrest
  have hall := hroom hphase
  rw [hcount] at hall
  cases hall with
  | waits hnot => exact absurd (completePackage_append hcomplete rest) hnot
  | @package _ n _ _ hact hfits hrest =>
      rw [hfront] at hact
      have hwhole := (completePackage_iff hact).mp hcomplete
      rw [List.drop_append_of_le_length hwhole, ← behindPackage_eq hact] at hrest
      refine ⟨?_, hleaves hfits (by omega) hrest⟩
      rw [Fits, hact, if_pos (by omega)]
      omega
  | @short _ n _ _ hact hpos hle hfits hrest =>
      rw [hfront] at hact
      have hnil := behindPackage_short hpos (by omega) hact (by omega)
      have hrest := hrest (c.receiver.input.length - packageExtraLen)
      rw [Nat.add_sub_cancel' hhead, List.drop_left] at hrest
      have hcounted : c.receiver.iRecvStreamDataLen +
          ((readNetLayer c.receiver.input).iActLength.toInt - packageExtraLen) =
          (c.receiver.iRecvStreamDataLen.toNat - n : Nat) := by omega
      refine ⟨?_, hleaves (by omega) hcounted (by rwa [hnil, List.nil_append])⟩
      rw [Fits, hact, if_neg (by omega)]
      omega

/-- A callback that goes on behind an end packet has cleared the count. -/
theorem endOfFrame_returned {s : Surroundings} {stPackage : NetLayer} {r r' : Receiver}
    (h : endOfFrame s stPackage r = .returned r') :
    r'.input = r.input ∧ r'.iRecvStreamDataLen = 0 := by
  refine ⟨endOfFrame_input h, ?_⟩
  unfold endOfFrame at h
  split at h
  · cases h
  · split at h
    · cases h
    · dsimp only at h
      split at h
      · cases h
        rfl
      · split at h
        · cases h
        · cases h
          rfl

theorem finishCommand_ready (iRet : Bool) (hroom : Room 0 (c.receiver.input ++ rest)) :
    (c.finishCommand iRet).Ready rest := by
  unfold finishCommand
  dsimp only
  split
  · exact fun _ => hroom
  · rintro (hphase | hphase) <;> cases hphase

theorem finishStream_ready (s : Surroundings) (stPackage : NetLayer)
    (hroom : Room 0 (c.receiver.input ++ rest)) : (c.finishStream s stPackage).Ready rest := by
  unfold finishStream
  cases houtcome : endOfFrame s stPackage c.receiver with
  | returned r' =>
      obtain ⟨hinput, hcount⟩ := endOfFrame_returned houtcome
      intro _
      dsimp only [count]
      rw [hinput, hcount]
      exact hroom
  | broken r' => rintro (hphase | hphase) <;> cases hphase
  | taskFailed r' => rintro (hphase | hphase) <;> cases hphase
  | overrun => rintro (hphase | hphase) <;> cases hphase

/-- **An end packet** closes the connection or clears the count. -/
theorem Ready.finish (hroom : c.Ready rest) (s : Surroundings) (iRet : Bool) :
    (c.step (.finish s iRet)).Ready rest := by
  cases hend : c.endPackage with
  | none =>
      have hsame : c.step (.finish s iRet) = c := by
        cases hphase : c.phase <;> simp only [step, hphase, hend]
      rw [hsame]
      exact hroom
  | some stPackage =>
      have hcount : c.count = 0 := by rw [count, hend]
      unfold Ready at hroom
      rw [hcount] at hroom
      cases hphase : c.phase with
      | command =>
          have hstep : c.step (.finish s iRet) = c.finishCommand iRet := by
            simp only [step, hphase, hend]
          rw [hstep]
          exact finishCommand_ready iRet (hroom (.inl hphase))
      | stream =>
          have hstep : c.step (.finish s iRet) = c.finishStream s stPackage := by
            simp only [step, hphase, hend]
          rw [hstep]
          exact finishStream_ready s stPackage (hroom (.inr hphase))
      | closed =>
          have hsame : c.step (.finish s iRet) = c := by simp only [step, hphase]
          rw [hsame]
          rintro (hopen | hopen) <;> cases hphase.symm.trans hopen
      | overrun =>
          have hsame : c.step (.finish s iRet) = c := by simp only [step, hphase]
          rw [hsame]
          rintro (hopen | hopen) <;> cases hphase.symm.trans hopen

/-- **One step** when there is room for what is still to come. -/
theorem Ready.step {e : Event} (h : c.InBounds)
    (hroom : c.Ready (sent [e] ++ rest)) : c.Meets e ∧ (c.step e).Ready rest := by
  cases e with
  | arrive bytes =>
      refine ⟨trivial, fun hphase => ?_⟩
      have hall := hroom hphase
      rw [sent, sent, List.append_nil, ← List.append_assoc] at hall
      exact hall
  | enter =>
      refine ⟨trivial, ?_⟩
      simp only [Connection.step]
      split
      · exact hroom
      · exact hroom
  | read =>
      simp only [Connection.step, Meets]
      by_cases hready : (c.phase = .command ∨ c.phase = .stream) ∧ c.endPackage = none
      · rw [if_pos hready]
        by_cases hcomplete : Complete c.receiver
        · obtain ⟨hfits, hnext⟩ := Ready.read h hroom hready.1 hready.2 hcomplete
          exact ⟨fun _ _ => hfits, hnext⟩
        · have hwait : c.read = c := if_neg hcomplete
          rw [hwait]
          exact ⟨fun _ hc => absurd hc hcomplete, hroom⟩
      · rw [if_neg hready]
        exact ⟨fun hr => absurd hr hready, hroom⟩
  | finish s iRet => exact ⟨trivial, Ready.finish hroom s iRet⟩
  | error =>
      refine ⟨trivial, ?_⟩
      simp only [Connection.step]
      rw [if_neg h.inside]
      intro hphase
      rcases hphase with hphase | hphase <;> cases hphase

theorem sent_cons (e : Event) (events : List Event) :
    sent (e :: events) = sent [e] ++ sent events := by
  cases e <;> simp [sent]

/-- **Every run** with room for its bytes meets the condition at each step. -/
theorem Ready.run (events : List Event) :
    ∀ {c : Connection}, c.InBounds → c.Sized → c.Ready (sent events ++ rest) →
      c.AllMeet events := by
  induction events with
  | nil => exact fun _ _ _ => trivial
  | cons e events ih =>
      intro c h hsized hroom
      rw [sent_cons, List.append_assoc] at hroom
      obtain ⟨hmeets, hnext⟩ := Ready.step h hroom
      obtain ⟨hbounds, hsized'⟩ := step_inBounds e h hsized
      exact ⟨hmeets, ih (hbounds.mpr hmeets) hsized' hnext⟩

end Ready

theorem Room.packet {p : Packet} {collected : Nat} {bytes : List UInt8}
    (hfits : collected + p.payload.length ≤ sourceBufferSize)
    (hrest : Room (if p.header.byBlockEndFlag ≠ 0 then 0 else collected + p.payload.length) bytes) :
    Room collected (p.toBytes ++ bytes) := by
  have hheader : readNetLayer (p.toBytes ++ bytes) = p.header := by
    rw [Packet.toBytes, List.append_assoc, readNetLayer_toBytes]
  have hact : (readNetLayer (p.toBytes ++ bytes)).iActLength.toInt =
      packageExtraLen + p.payload.length := by
    rw [hheader]
    exact p.iActLength_eq
  refine .package ((completePackage_iff hact).mpr ?_) hact hfits ?_
  · rw [List.length_append, p.length_toBytes]
    omega
  · rw [behindEnd, hheader, ← p.length_toBytes, List.drop_left]
    exact hrest

/-- **Packets whose frames are not larger than the buffer** leave room, by induction on those that
are still to come. -/
theorem room_wire (rest : List Packet) :
    ∀ {packets : List Packet}, Recv.Fits (packets ++ rest) →
      Room (payloads (openBlocks packets)).length (wire rest) := by
  induction rest with
  | nil =>
      intro packets _
      have hnone : ¬ CompletePackage (wire []) := by decide
      exact .waits hnone
  | cons p rest ih =>
      intro packets hfits
      have hnext : Recv.Fits ((packets ++ [p]) ++ rest) := by
        rwa [List.append_assoc]
      have hroom := ih hnext
      refine Room.packet hfits.next ?_
      by_cases hend : p.header.byBlockEndFlag ≠ 0
      · rw [(framesOf_concat_end packets hend).2] at hroom
        rw [if_pos hend]
        exact hroom
      · rw [(framesOf_concat_block packets hend).2, payloads_append, payloads_singleton,
          List.length_append] at hroom
        rw [if_neg hend]
        exact hroom

/-! ## Too little room -/

structure Stands (c : Connection) (phase : Phase) (collected : Nat) : Prop where
  phase : c.phase = phase
  endPackage : c.endPackage = none
  input : c.receiver.input = []
  count : c.receiver.iRecvStreamDataLen = collected
  flag : c.receiver.uRtpClientNodeSendDataThreadFlag ≠ 2
  le : collected ≤ sourceBufferSize
  sized : c.Sized

section Stands

variable {c : Connection} {collected : Nat}

theorem Stands.inBounds {phase : Phase} (h : c.Stands phase collected) (hphase : phase ≠ .overrun) :
    c.InBounds where
  inside := by
    rw [h.phase]
    exact hphase
  nonneg := by
    rw [h.count]
    exact Int.natCast_nonneg _
  le := by
    rw [h.count]
    exact_mod_cast h.le

theorem sent_append (before behind : List Event) :
    sent (before ++ behind) = sent before ++ sent behind := by
  induction before with
  | nil => rfl
  | cons e before ih =>
      rw [List.cons_append, sent_cons, ih, sent_cons e before, List.append_assoc]

theorem AllMeet.behind {behind : List Event} (before : List Event) :
    ∀ {c : Connection}, c.AllMeet (before ++ behind) → (before.foldl step c).AllMeet behind := by
  induction before with
  | nil => exact fun h => h
  | cons e before ih => exact fun h => ih h.2

/-- With clients, a task and a queue the callback goes on behind a frame. -/
theorem endOfFrame_goesOn (stPackage : NetLayer) {r : Receiver}
    (hflag : r.uRtpClientNodeSendDataThreadFlag ≠ 2) :
    ∃ r', endOfFrame ⟨1, false, 0, 0⟩ stPackage r = .returned r' ∧
      r'.hGetStreamFromSource = r.hGetStreamFromSource ∧
      r'.uRtpClientNodeSendDataThreadFlag ≠ 2 := by
  have hstarted : flagAfterStart r.uRtpClientNodeSendDataThreadFlag stPackage.byFrameType ≠ 2 := by
    unfold flagAfterStart
    split
    · decide
    · exact hflag
  unfold endOfFrame
  rw [if_neg (by simp [hflag]), if_neg (by simp)]
  dsimp only
  split
  · exact ⟨_, rfl, rfl, hstarted⟩
  · exact ⟨_, rfl, rfl, hstarted⟩

/-- **A packet comes**, is taken, and leaves nothing behind. -/
theorem Stands.next (h : c.Stands .stream collected) {front : List UInt8}
    (hcomplete : CompletePackage front) (hall : behindPackage front = [])
    (hfits : Fits { c.receiver with input := front }) {m : Nat}
    (hm : (collected : Int) + ((readNetLayer front).iActLength.toInt - packageExtraLen) = m)
    (hle : m ≤ sourceBufferSize) :
    ∃ events, sent events = front ∧ (events.foldl step c).Stands .stream (behindEnd front m) := by
  have hbounds := h.inBounds (by decide)
  obtain ⟨r', hread, -, -⟩ := (readPackage_iff (r := { c.receiver with input := front }) h.sized
    hcomplete hbounds.nonneg hbounds.le).mpr hfits
  obtain ⟨hinput, hflag⟩ := readPackage_behind hread
  have hcount : r'.iRecvStreamDataLen = m := by
    refine count_of_readPackage hread ?_ hle
    rw [← hm, ← h.count]
  have hsized := (readPackage_some hread).1.trans h.sized
  have harrive : c.step (.arrive front) =
      { c with receiver := { c.receiver with input := front } } := by
    rw [step, h.input, List.nil_append]
  have htaken : (c.step (.arrive front)).step .read =
      { phase := .stream, receiver := r',
        endPackage := if (readNetLayer front).byBlockEndFlag ≠ 0 then some (readNetLayer front)
          else none } := by
    have hcomplete' : Complete { c.receiver with input := front } := hcomplete
    rw [harrive]
    simp only [step, h.phase, h.endPackage, or_true, and_self, if_true, Connection.read]
    rw [if_pos hcomplete', hread]
  rw [behindEnd]
  by_cases hend : (readNetLayer front).byBlockEndFlag ≠ 0
  · rw [if_pos hend] at htaken ⊢
    have hflag' : r'.uRtpClientNodeSendDataThreadFlag ≠ 2 := by
      rw [hflag]
      exact h.flag
    obtain ⟨r'', hreturned, hbuf, hflag''⟩ := endOfFrame_goesOn (readNetLayer front) hflag'
    obtain ⟨hinput', hcount'⟩ := endOfFrame_returned hreturned
    refine ⟨[.arrive front, .read, .finish ⟨1, false, 0, 0⟩ true], List.append_nil _, ?_⟩
    have hfinish : [Event.arrive front, .read, .finish ⟨1, false, 0, 0⟩ true].foldl step c =
        { phase := .stream, receiver := r'' } := by
      rw [List.foldl_cons, List.foldl_cons, htaken]
      simp only [List.foldl_cons, List.foldl_nil, step, finishStream, hreturned]
    rw [hfinish]
    exact {
      phase := rfl
      endPackage := rfl
      input := hinput'.trans (hinput.trans hall)
      count := hcount'
      flag := hflag''
      le := Nat.zero_le _
      sized := (congrArg List.length hbuf).trans hsized }
  · rw [if_neg hend] at htaken ⊢
    refine ⟨[.arrive front, .read], List.append_nil _, ?_⟩
    rw [List.foldl_cons, List.foldl_cons, htaken]
    exact {
      phase := rfl
      endPackage := rfl
      input := hinput.trans hall
      count := hcount
      flag := by
        show r'.uRtpClientNodeSendDataThreadFlag ≠ 2
        rw [hflag]
        exact h.flag
      le := hle
      sized := hsized }

theorem Stands.leaves_now (h : c.Stands .stream collected) {bytes : List UInt8}
    (hcomplete : CompletePackage bytes) (hfits : ¬ Fits { c.receiver with input := bytes }) :
    ∃ events, sent events <+: bytes ∧ ¬ c.AllMeet events := by
  refine ⟨[.arrive bytes, .read], ?_, ?_⟩
  · rw [sent, sent, sent, List.append_nil]
  · rintro ⟨-, hread, -⟩
    rw [step, h.input, List.nil_append] at hread
    exact hfits (hread ⟨.inr h.phase, h.endPackage⟩ hcomplete)

/-- The packet at the front comes alone, and what is behind it leaves the buffer. -/
theorem Stands.leaves_later (h : c.Stands .stream collected) {bytes : List UInt8} {n m : Nat}
    (hn : packageExtraLen + n ≤ bytes.length)
    (hwhole : CompletePackage (bytes.take (packageExtraLen + n)))
    (hall : behindPackage (bytes.take (packageExtraLen + n)) = [])
    (hfits : Fits { c.receiver with input := bytes.take (packageExtraLen + n) })
    (hm : (collected : Int) + ((readNetLayer bytes).iActLength.toInt - packageExtraLen) = m)
    (hle : m ≤ sourceBufferSize)
    (hlater : ∀ c' : Connection, c'.Stands .stream (behindEnd bytes m) →
      ∃ events, sent events <+: bytes.drop (packageExtraLen + n) ∧ ¬ c'.AllMeet events) :
    ∃ events, sent events <+: bytes ∧ ¬ c.AllMeet events := by
  have hfront := readNetLayer_take (Nat.le_add_right packageExtraLen n)
    ((Nat.le_add_right _ n).trans hn)
  rw [← hfront] at hm
  obtain ⟨events, hsent, hstands⟩ := h.next hwhole hall hfits hm hle
  rw [behindEnd, hfront, ← behindEnd] at hstands
  obtain ⟨more, hmore, hnot⟩ := hlater _ hstands
  refine ⟨events ++ more, ?_, fun hmeet => hnot (AllMeet.behind events hmeet)⟩
  have hprefix := (List.prefix_append_right_inj (bytes.take (packageExtraLen + n))).mpr hmore
  rw [List.take_append_drop] at hprefix
  rw [sent_append, hsent]
  exact hprefix

/-- **Where there is too little room**, some cut of the bytes leaves the buffer; by induction on the
bytes that are left. -/
theorem Stands.leaves (size : Nat) :
    ∀ {c : Connection} {collected : Nat} {bytes : List UInt8}, bytes.length ≤ size →
      c.Stands .stream collected → ¬ Room collected bytes →
      ∃ events, sent events <+: bytes ∧ ¬ c.AllMeet events := by
  induction size with
  | zero =>
      intro c collected bytes hsize h hroom
      refine absurd (.waits fun hcomplete => ?_) hroom
      have hhead : 28 ≤ bytes.length := hcomplete.1
      omega
  | succ size ih =>
      intro c collected bytes hsize h hroom
      have hcomplete : CompletePackage bytes := by
        by_contra hnot
        exact hroom (.waits hnot)
      have hhead : 28 ≤ bytes.length := hcomplete.1
      have hextra : packageExtraLen = 28 := rfl
      have hcount := h.count
      have hlater : ∀ {n m : Nat}, ¬ Room m (bytes.drop (packageExtraLen + n)) →
          ∀ c' : Connection, c'.Stands .stream m →
            ∃ events, sent events <+: bytes.drop (packageExtraLen + n) ∧ ¬ c'.AllMeet events := by
        intro n m hrest c' hstands
        exact ih (by rw [List.length_drop]; omega) hstands hrest
      by_cases hlong : (packageExtraLen : Int) ≤ (readNetLayer bytes).iActLength.toInt
      · obtain ⟨n, hact⟩ := Int.le.dest hlong
        have hact := hact.symm
        have hwhole := (completePackage_iff hact).mp hcomplete
        have hfront := readNetLayer_take (Nat.le_add_right packageExtraLen n) hhead
        have hlength : (bytes.take (packageExtraLen + n)).length = packageExtraLen + n :=
          List.length_take_of_le hwhole
        by_cases hfits : collected + n ≤ sourceBufferSize
        · have hact' := hact
          rw [← hfront] at hact'
          refine h.leaves_later hwhole ((completePackage_iff hact').mpr hlength.ge) ?_ ?_ ?_ hfits
            (hlater fun hrest => hroom (.package hcomplete hact hfits hrest))
          · rw [behindPackage_eq hact', List.drop_eq_nil_of_le hlength.le]
          · rw [Fits]
            dsimp only
            rw [hact', if_pos (by omega)]
            omega
          · rw [hact]
            omega
        · apply h.leaves_now hcomplete
          rw [Fits]
          dsimp only
          rw [hact, if_pos (by omega)]
          omega
      · obtain ⟨n, hact⟩ := Int.le.dest (Int.not_le.mp hlong).le
        have hpos : 0 < n := by omega
        have hact : (readNetLayer bytes).iActLength.toInt = packageExtraLen - n := by omega
        by_cases hfits : n ≤ collected ∧
            collected + (bytes.length - packageExtraLen) ≤ sourceBufferSize
        · obtain ⟨hcounted, hinside⟩ := hfits
          have hn : n ≤ sourceBufferSize := hcounted.trans h.le
          have hsmall : bytes.length - packageExtraLen ≤ sourceBufferSize :=
            (Nat.le_add_left _ _).trans hinside
          have hm : (collected : Int) + ((packageExtraLen - n : Int) - packageExtraLen) =
              (collected - n : Nat) := by
            omega
          have hless : ¬ (packageExtraLen : Int) ≤ packageExtraLen - n := by omega
          have htaken : (packageExtraLen : Int) - (packageExtraLen - n) ≤ collected := by omega
          obtain ⟨k, hrest⟩ : ∃ k,
              ¬ Room (behindEnd bytes (collected - n)) (bytes.drop (packageExtraLen + k)) := by
            by_contra hall
            rw [not_exists_not] at hall
            exact hroom (.short hcomplete hact hpos hcounted hinside hall)
          have hk : packageExtraLen + k ≤ bytes.length := by
            by_contra hover
            refine hrest (.waits fun hwhole => ?_)
            have hdrop := hwhole.1
            rw [List.length_drop] at hdrop
            omega
          have hfront := readNetLayer_take (Nat.le_add_right packageExtraLen k) hhead
          have hlength : (bytes.take (packageExtraLen + k)).length = packageExtraLen + k :=
            List.length_take_of_le hk
          have hact' := hact
          rw [← hfront] at hact'
          have hwhole := completePackage_short hcomplete hact hsmall hk
          have hfront' : k ≤ bytes.length - packageExtraLen := Nat.le_sub_of_add_le' hk
          have hnil := behindPackage_short hpos hn hact'
            (by rw [hlength, Nat.add_sub_cancel_left]; exact hfront'.trans hsmall)
          refine h.leaves_later hk hwhole hnil ?_ (by rw [hact]; exact hm)
            ((Nat.sub_le _ _).trans h.le) (hlater hrest)
          rw [Fits]
          dsimp only
          rw [hact', if_neg hless, hcount, hlength, Nat.add_sub_cancel_left]
          refine ⟨htaken, ?_⟩
          exact_mod_cast (Nat.add_le_add_left hfront' collected).trans hinside
        · apply h.leaves_now hcomplete
          rw [Fits]
          dsimp only
          rw [hact, if_neg (by omega)]
          omega

end Stands

/-! ## The bytes of a connection -/

/-- An answer to the start command with which the stream begins. -/
structure Granted (p : Packet) : Prop where
  last : p.header.byBlockEndFlag ≠ 0
  fits : p.payload.length ≤ sourceBufferSize
  text : success <:+: stringAt p.payload 0

theorem stringAt_front (mem behind : List UInt8) :
    stringAt mem 0 <+: stringAt (mem ++ behind) 0 := by
  unfold stringAt
  rw [List.drop_zero, List.drop_zero, List.takeWhile_append]
  split
  · rename_i hall
    rw [(List.takeWhile_prefix _).eq_of_length hall]
    exact List.prefix_append _ _
  · exact List.prefix_rfl

/-- **The answer** brings a connection to its first packet. -/
theorem Stands.granted {c : Connection} (h : c.Stands .command 0) {p : Packet} (hp : Granted p) :
    ∃ events, sent events = p.toBytes ∧ (events.foldl step c).Stands .stream 0 := by
  -- the header and the payload are there, and the front of the buffer is clear
  have hcleared : ∃ buf : List UInt8, buf.length = sourceBufferSize ∧
      (c.step (.arrive p.toBytes)).step .enter =
        { c with
          receiver :=
            { c.receiver with input := p.toBytes ++ [], hGetStreamFromSource := buf } } := by
    have hbounds := h.inBounds (by decide)
    obtain ⟨harrive, hsized₁⟩ := step_inBounds (.arrive p.toBytes) hbounds h.sized
    obtain ⟨-, hsized⟩ := step_inBounds .enter (harrive.mpr trivial) hsized₁
    refine ⟨_, hsized, ?_⟩
    have hready : c.phase = .command ∧ c.endPackage = none := ⟨h.phase, h.endPackage⟩
    simp only [step, if_pos hready, h.input, List.nil_append, List.append_nil]
  obtain ⟨buf, hsize, hentered⟩ := hcleared
  generalize hr : ({ c.receiver with input := p.toBytes ++ [], hGetStreamFromSource := buf } :
    Receiver) = r at hentered
  have hinput : r.input = p.toBytes ++ [] := by rw [← hr]
  have hroom : 0 + p.payload.length ≤ sourceBufferSize := by
    rw [Nat.zero_add]
    exact hp.fits
  obtain ⟨buf', hwrite, hread⟩ := readPackage_packet hinput (by rw [← hr]; exact h.count)
    (by rw [← hr]; exact hsize) hroom
  have hheader : readNetLayer r.input = p.header := by
    rw [hinput, List.append_nil, Packet.toBytes, readNetLayer_toBytes]
  have hcomplete : Complete r := by
    have hlength : p.toBytes.length = packageExtraLen + p.payload.length := p.length_toBytes
    refine ⟨?_, ?_⟩
    · rw [hinput, List.append_nil]
      omega
    · rw [hheader, hinput, List.append_nil, toSizeT_iActLength]
  have htaken : ({ c with receiver := r } : Connection).step .read =
      { phase := .command
        receiver :=
          { r with
            input := [], hGetStreamFromSource := buf'
            iRecvStreamDataLen := (0 + p.payload.length : Nat) }
        endPackage := some p.header } := by
    rw [step, if_pos ⟨.inl h.phase, h.endPackage⟩, Connection.read, if_pos hcomplete, hread]
    dsimp only
    rw [hheader, if_pos hp.last, h.phase]
  have hanswer : success <:+: stringAt buf' 0 := by
    obtain ⟨-, rfl⟩ := writeAt_inv hwrite
    rw [List.take_zero, List.nil_append]
    exact hp.text.trans (stringAt_front _ _).isInfix
  refine ⟨[.arrive p.toBytes, .enter, .read, .finish ⟨1, false, 0, 0⟩ true], List.append_nil _, ?_⟩
  have hfinish : [Event.arrive p.toBytes, .enter, .read, .finish ⟨1, false, 0, 0⟩ true].foldl step
      c = { phase := .stream, receiver :=
        { r with input := [], hGetStreamFromSource := buf', iRecvStreamDataLen := 0 } } := by
    rw [List.foldl_cons, List.foldl_cons, hentered, List.foldl_cons, htaken]
    simp only [List.foldl_cons, List.foldl_nil, step, finishCommand]
    exact if_pos hanswer
  rw [hfinish]
  exact {
    phase := rfl
    endPackage := rfl
    input := rfl
    count := rfl
    flag := by
      rw [← hr]
      exact h.flag
    le := Nat.zero_le _
    sized := (length_of_writeAt hwrite).trans (by rw [← hr]; exact hsize) }

theorem start_stands : start.Stands .command 0 where
  phase := rfl
  endPackage := rfl
  input := rfl
  count := rfl
  flag := nofun
  le := Nat.zero_le _
  sized := start_sized

/-- **Where there is room**, every run stays inside, however the bytes are cut. -/
theorem Room.inBounds {bytes : List UInt8} (h : Room 0 bytes) :
    ∀ events, sent events <+: bytes → ∀ c ∈ states start events, c.InBounds := by
  rintro events ⟨rest, rfl⟩
  have hready : start.Ready (sent events ++ rest) := fun _ => h
  exact (states_inBounds_from events start_inBounds start_sized).mpr
    (Ready.run events start_inBounds start_sized hready)

/-- **Where there is too little room** behind an answer, some run leaves the buffer. -/
theorem Granted.leaves {p : Packet} (h : Granted p) {bytes : List UInt8} (hroom : ¬ Room 0 bytes) :
    ¬ ∀ events, sent events <+: p.toBytes ++ bytes → ∀ c ∈ states start events, c.InBounds := by
  intro hall
  obtain ⟨before, hsent, hstands⟩ := start_stands.granted h
  obtain ⟨behind, hmore, hnot⟩ := hstands.leaves bytes.length (Nat.le_refl _) hroom
  have hprefix : sent (before ++ behind) <+: p.toBytes ++ bytes := by
    rw [sent_append, hsent]
    exact (List.prefix_append_right_inj _).mpr hmore
  have hmeet := (states_inBounds_from _ start_inBounds start_sized).mp (hall _ hprefix)
  exact hnot (AllMeet.behind before hmeet)

end GbStream.Recv.Connection
