import GbStream.Recv.Connection

/-!
# What a read callback leaves in the input

`recv_stream_cb` returns behind the first end packet, and `client_read_cb`, which takes the
frames of a box, behind the first frame.  libevent enters a callback again only when more bytes
arrive.
-/

namespace GbStream.Recv

open Support.Bytes

/-! ## The media server -/

/-- The first packet is there as a whole. -/
def CompletePackage (input : List UInt8) : Prop :=
  packageExtraLen ≤ input.length ∧
    toSizeT (readNetLayer input).iActLength.toInt ≤ input.length

instance (input : List UInt8) : Decidable (CompletePackage input) :=
  inferInstanceAs (Decidable (_ ∧ _))

def behindPackage (input : List UInt8) : List UInt8 :=
  (input.drop packageExtraLen).drop
    (toSizeT ((readNetLayer input).iActLength.toInt - packageExtraLen))

theorem length_behindPackage {input : List UInt8} (h : CompletePackage input) :
    (behindPackage input).length < input.length := by
  have hhead := h.1
  simp only [behindPackage, List.length_drop, packageExtraLen] at hhead ⊢
  omega

/-- What is behind the first end packet, where all packets up to it are there. -/
def behindFrame (input : List UInt8) : Option (List UInt8) :=
  if _h : CompletePackage input then
    if (readNetLayer input).byBlockEndFlag ≠ 0 then some (behindPackage input)
    else behindFrame (behindPackage input)
  else none
termination_by input.length
decreasing_by exact length_behindPackage _h

theorem readPackage_behind {r next : Receiver} (h : readPackage r = some next) :
    next.input = behindPackage r.input ∧
      next.uRtpClientNodeSendDataThreadFlag = r.uRtpClientNodeSendDataThreadFlag := by
  obtain ⟨buf, -, rfl⟩ := Option.map_eq_some_iff.mp h
  exact ⟨rfl, rfl⟩

theorem endOfFrame_input {s : Surroundings} {stPackage : NetLayer} {r r' : Receiver}
    (h : endOfFrame s stPackage r = .returned r') : r'.input = r.input := by
  unfold endOfFrame at h
  split at h
  · cases h
  · split at h
    · cases h
    · dsimp only at h
      split at h
      · cases h
        rfl
      · split at h
        · cases h
        · cases h
          rfl

theorem recvStreamCb_input {s : Surroundings} {r r' : Receiver}
    (h : recvStreamCb s r = .returned r') :
    match behindFrame r.input with
    | some rest => r'.input = rest
    | none => ¬ CompletePackage r'.input := by
  fun_induction recvStreamCb s r with
  | case1 r hhead =>
      obtain rfl := Outcome.returned.inj h
      have hnot : ¬ CompletePackage r.input := fun hc => by
        have := hc.1
        omega
      rw [behindFrame, dif_neg hnot]
      exact hnot
  | case2 r hhead hbody =>
      obtain rfl := Outcome.returned.inj h
      have hnot : ¬ CompletePackage r.input := fun hc => by
        have := hc.2
        omega
      rw [behindFrame, dif_neg hnot]
      exact hnot
  | case3 r hhead hbody hread => cases h
  | case4 r hhead hbody next hread hend =>
      have hcomplete : CompletePackage r.input := ⟨by omega, by omega⟩
      rw [behindFrame, dif_pos hcomplete, if_pos hend, ← (readPackage_behind hread).1]
      exact endOfFrame_input h
  | case5 r hhead hbody next hread hend ih =>
      have hcomplete : CompletePackage r.input := ⟨by omega, by omega⟩
      rw [behindFrame, dif_pos hcomplete, if_neg hend, ← (readPackage_behind hread).1]
      exact ih h

theorem recvStreamCb_drained {s : Surroundings} {r r' : Receiver}
    (h : recvStreamCb s r = .returned r') :
    ¬ CompletePackage r'.input ↔
      ∀ rest, behindFrame r.input = some rest → ¬ CompletePackage rest := by
  have hinput := recvStreamCb_input h
  cases hrest : behindFrame r.input with
  | none =>
      rw [hrest] at hinput
      exact iff_of_true hinput fun rest hnone => nomatch hnone
  | some rest =>
      rw [hrest] at hinput
      have hinput : r'.input = rest := hinput
      rw [hinput]
      constructor
      · intro hnot rest' heq
        obtain rfl := Option.some.inj heq
        exact hnot
      · exact fun hall => hall rest rfl

/-! ## The box -/

def boxCtrlCmdLen : Nat := 32

def boxHeader : List UInt8 := [0x68, 0x42, 0x7A, 0x48, 0x62, 0x6F, 0x78, 0x40]

/-- `cmd_length` of the header at the front of the input. -/
def readCmdLength (input : List UInt8) : Int :=
  (ofLe32 (input.getD 8 0) (input.getD 9 0) (input.getD 10 0) (input.getD 11 0)).toInt32.toInt

/-- `QUEUE_ARGS_OBJ` of a frame of a box: `data` are the header and the frame as they have been
read. -/
structure BoxQueueArgs where
  iDataPreBufSize : Int
  iDataLen : Int
  data : List UInt8
  deriving DecidableEq, Repr

structure BoxReceiver where
  input : List UInt8 := []
  uRtpClientNodeSendDataThreadFlag : Nat := 0
  queueStreamData : List BoxQueueArgs := []
  deriving DecidableEq, Repr

inductive BoxOutcome
  | returned (receiver : BoxReceiver)
  /-- The loop is left for the code that tears the connection down. -/
  | broken (receiver : BoxReceiver)
  deriving DecidableEq, Repr

def boxFlagAfterStart (flag : Nat) : Nat := if flag = 0 then 1 else flag

/-- The loop is left in its first round on every path. -/
def clientReadCb (s : Surroundings) (r : BoxReceiver) : BoxOutcome :=
  if r.input.length < boxCtrlCmdLen then .returned r
  else if r.input.take 8 ≠ boxHeader then .broken r
  else
    let iDataLen := readCmdLength r.input
    let frameLen := toSizeT (iDataLen + boxCtrlCmdLen)
    if r.input.length < frameLen then .returned r
    else if r.uRtpClientNodeSendDataThreadFlag = 0 ∧ s.iError then .broken r
    else
      let flag := boxFlagAfterStart r.uRtpClientNodeSendDataThreadFlag
      let started := { r with uRtpClientNodeSendDataThreadFlag := flag }
      if s.listSize = 0 ∨ flag = 2 then .broken started
      else if s.rLen > 500 then .broken started
      else
        let record : BoxQueueArgs :=
          { iDataPreBufSize := (iDataLen.tdiv 1400 + 1) * 20 + 1400
            iDataLen := iDataLen + boxCtrlCmdLen
            data := r.input.take frameLen }
        .returned
          { started with
            input := r.input.drop frameLen
            queueStreamData :=
              if s.wLen ≥ 512 then r.queueStreamData else r.queueStreamData ++ [record] }

/-- The first frame is there as a whole. -/
def CompleteFrame (input : List UInt8) : Prop :=
  boxCtrlCmdLen ≤ input.length ∧ toSizeT (readCmdLength input + boxCtrlCmdLen) ≤ input.length

instance (input : List UInt8) : Decidable (CompleteFrame input) :=
  inferInstanceAs (Decidable (_ ∧ _))

/-- What is behind the first frame. -/
def behindBoxFrame (input : List UInt8) : List UInt8 :=
  input.drop (toSizeT (readCmdLength input + boxCtrlCmdLen))

theorem clientReadCb_input {s : Surroundings} {r r' : BoxReceiver}
    (h : clientReadCb s r = .returned r') :
    r'.input = if CompleteFrame r.input then behindBoxFrame r.input else r.input := by
  unfold clientReadCb at h
  by_cases hhead : r.input.length < boxCtrlCmdLen
  · rw [if_pos hhead] at h
    obtain rfl := BoxOutcome.returned.inj h
    rw [if_neg fun hc => absurd hc.1 (Nat.not_le.mpr hhead)]
  · rw [if_neg hhead] at h
    split at h
    · cases h
    · dsimp only at h
      by_cases hbody : r.input.length < toSizeT (readCmdLength r.input + boxCtrlCmdLen)
      · rw [if_pos hbody] at h
        obtain rfl := BoxOutcome.returned.inj h
        rw [if_neg fun hc => absurd hc.2 (Nat.not_le.mpr hbody)]
      · rw [if_neg hbody] at h
        have hcomplete : CompleteFrame r.input := ⟨Nat.not_lt.mp hhead, Nat.not_lt.mp hbody⟩
        rw [if_pos hcomplete]
        split at h
        · cases h
        · split at h
          · cases h
          · split at h
            · cases h
            · obtain rfl := BoxOutcome.returned.inj h
              rfl

theorem clientReadCb_drained {s : Surroundings} {r r' : BoxReceiver}
    (h : clientReadCb s r = .returned r') :
    ¬ CompleteFrame r'.input ↔
      (CompleteFrame r.input → ¬ CompleteFrame (behindBoxFrame r.input)) := by
  rw [clientReadCb_input h]
  by_cases hcomplete : CompleteFrame r.input
  · rw [if_pos hcomplete]
    exact ⟨fun hnot _ => hnot, fun hnot => hnot hcomplete⟩
  · rw [if_neg hcomplete]
    exact iff_of_true hcomplete fun hc => absurd hc hcomplete

/-! ## Both -/

/-- **A callback that keeps the connection drains its input** just if no packet is there behind
the first end packet, and no frame behind the first frame. -/
theorem callbacks_drained (s : Surroundings) :
    (∀ r r' : Receiver, recvStreamCb s r = .returned r' →
      (¬ CompletePackage r'.input ↔
        ∀ rest, behindFrame r.input = some rest → ¬ CompletePackage rest)) ∧
    (∀ r r' : BoxReceiver, clientReadCb s r = .returned r' →
      (¬ CompleteFrame r'.input ↔
        (CompleteFrame r.input → ¬ CompleteFrame (behindBoxFrame r.input)))) :=
  ⟨fun _ _ h => recvStreamCb_drained h, fun _ _ h => clientReadCb_drained h⟩

/-- A packet without a payload that ends a frame. -/
def emptyEndPackage : NetLayer := ⟨28, 0, 9, 13, 0, 0, 7, 0, 0, 1, 1, 0, 0⟩

def emptyBoxFrame : List UInt8 := boxHeader ++ List.replicate 24 0

theorem emptyEnd_front (tail : List UInt8) :
    readNetLayer (emptyEndPackage.toBytes ++ tail) = emptyEndPackage ∧
      CompletePackage (emptyEndPackage.toBytes ++ tail) ∧
      behindPackage (emptyEndPackage.toBytes ++ tail) = tail := by
  have hhead : readNetLayer (emptyEndPackage.toBytes ++ tail) = emptyEndPackage :=
    readNetLayer_toBytes _ _
  have hlength : (emptyEndPackage.toBytes ++ tail).length = 28 + tail.length := by
    rw [List.length_append, emptyEndPackage.length_toBytes]
    rfl
  refine ⟨hhead, ?_, ?_⟩
  · rw [CompletePackage, hhead, hlength]
    exact ⟨Nat.le_add_right 28 _, Nat.le_add_right 28 _⟩
  · rw [behindPackage, hhead]
    rfl

theorem recvStreamCb_emptyEnd (tail : List UInt8) :
    ∃ r', recvStreamCb ⟨1, false, 0, 0⟩
        { input := emptyEndPackage.toBytes ++ tail, hGetStreamFromSource := []
          uRtpClientNodeSendDataThreadFlag := 1 } = .returned r' ∧ r'.input = tail := by
  let r : Receiver :=
    { input := emptyEndPackage.toBytes ++ tail, hGetStreamFromSource := []
      uRtpClientNodeSendDataThreadFlag := 1 }
  obtain ⟨hhead, hcomplete, hbehind⟩ := emptyEnd_front tail
  have hhead : readNetLayer r.input = emptyEndPackage := hhead
  have hcomplete : CompletePackage r.input := hcomplete
  obtain ⟨next, hread⟩ : ∃ next, readPackage r = some next := by
    rw [← Option.isSome_iff_exists, Connection.readPackage_isSome (Int.le_refl 0)]
    left
    rw [Connection.bodyLength, hhead]
    exact Nat.zero_min _
  have hcall : recvStreamCb ⟨1, false, 0, 0⟩ r =
      endOfFrame ⟨1, false, 0, 0⟩ emptyEndPackage next := by
    have hheader : ¬ r.input.length < packageExtraLen := Nat.not_lt.mpr hcomplete.1
    rw [recvStreamCb, dif_neg hheader, if_neg (Nat.not_lt.mpr hcomplete.2)]
    split
    · rename_i hnone
      rw [hread] at hnone
      cases hnone
    · rename_i next' hnext
      rw [hread] at hnext
      obtain rfl := Option.some.inj hnext
      rw [hhead, if_pos (by decide)]
  obtain ⟨hinput, hflag⟩ := readPackage_behind hread
  obtain ⟨r', hkept⟩ : ∃ r', endOfFrame ⟨1, false, 0, 0⟩ emptyEndPackage next = .returned r' := by
    simp [endOfFrame, hflag, r, emptyEndPackage, flagAfterStart]
  refine ⟨r', hcall.trans hkept, ?_⟩
  rw [endOfFrame_input hkept, hinput]
  exact hbehind

/-- An end packet and a frame are drained when they come alone, and not when they come twice. -/
theorem callbacks_drained_alone :
    let s : Surroundings := ⟨1, false, 0, 0⟩
    let package := emptyEndPackage.toBytes
    let receiver (input : List UInt8) : Receiver :=
      { input, hGetStreamFromSource := [], uRtpClientNodeSendDataThreadFlag := 1 }
    let box (input : List UInt8) : BoxReceiver := { input, uRtpClientNodeSendDataThreadFlag := 1 }
    (∃ r', recvStreamCb s (receiver (package ++ [])) = .returned r' ∧
        ¬ CompletePackage r'.input) ∧
    (∃ r', recvStreamCb s (receiver (package ++ package)) = .returned r' ∧
        CompletePackage r'.input) ∧
    (∃ r', clientReadCb s (box emptyBoxFrame) = .returned r' ∧ ¬ CompleteFrame r'.input) ∧
    ∃ r', clientReadCb s (box (emptyBoxFrame ++ emptyBoxFrame)) = .returned r' ∧
        CompleteFrame r'.input := by
  intro s package receiver box
  have hbehind : ∀ tail, behindFrame (package ++ tail) = some tail := by
    intro tail
    obtain ⟨hhead, hcomplete, hbehind⟩ := emptyEnd_front tail
    rw [behindFrame, dif_pos hcomplete, hhead, if_pos (by decide), hbehind]
  have hwhole : CompletePackage package := by decide
  have hone : clientReadCb s (box emptyBoxFrame) = .returned
      { uRtpClientNodeSendDataThreadFlag := 1
        queueStreamData := [⟨1420, 32, emptyBoxFrame⟩] } := by
    decide
  have htwo : clientReadCb s (box (emptyBoxFrame ++ emptyBoxFrame)) = .returned
      { input := emptyBoxFrame, uRtpClientNodeSendDataThreadFlag := 1
        queueStreamData := [⟨1420, 32, emptyBoxFrame⟩] } := by
    decide
  refine ⟨?_, ?_, ⟨_, hone, ?_⟩, _, htwo, ?_⟩
  · obtain ⟨r', hcall, -⟩ := recvStreamCb_emptyEnd []
    refine ⟨r', hcall, ((callbacks_drained s).1 _ r' hcall).mpr fun rest hrest => ?_⟩
    obtain rfl := Option.some.inj ((hbehind []).symm.trans hrest)
    decide
  · obtain ⟨r', hcall, -⟩ := recvStreamCb_emptyEnd package
    refine ⟨r', hcall, ?_⟩
    by_contra hdrained
    exact ((callbacks_drained s).1 _ r' hcall).mp hdrained package (hbehind package) hwhole
  · exact ((callbacks_drained s).2 _ _ hone).mpr fun _ => by decide
  · by_contra hdrained
    exact ((callbacks_drained s).2 _ _ htwo).mp hdrained (by decide) (by decide)

theorem callbacks_leave :
    let s : Surroundings := ⟨1, false, 0, 0⟩
    (∃ r r' : Receiver, recvStreamCb s r = .returned r' ∧ CompletePackage r'.input) ∧
      ∃ r r' : BoxReceiver, clientReadCb s r = .returned r' ∧ CompleteFrame r'.input := by
  intro s
  constructor
  · obtain ⟨r', hcall, hinput⟩ := recvStreamCb_emptyEnd emptyEndPackage.toBytes
    refine ⟨_, r', hcall, ?_⟩
    rw [hinput]
    decide
  · exact ⟨{ input := emptyBoxFrame ++ emptyBoxFrame, uRtpClientNodeSendDataThreadFlag := 1 },
      { input := emptyBoxFrame, uRtpClientNodeSendDataThreadFlag := 1
        queueStreamData := [⟨1420, 32, emptyBoxFrame⟩] }, by decide, by decide⟩

end GbStream.Recv
