import GbStream.Recv.NetLayer

/-!
# The read callback of the media server connection

`recv_stream_cb` takes whole packets from the input buffer, collects their payloads in
the buffer of the node and, at an end packet, pushes the frame on the queue or drops it.
-/

namespace GbStream.Recv

open Support.Bytes

/-- The value of an `int` where a `size_t` is expected. -/
def toSizeT (n : Int) : Nat := (n % 2 ^ 64).toNat

/-- `DATA_TYPE_E`, and the zero a cleared record holds. -/
inductive DataType
  | unset
  | iFrame
  | bpFrame
  | audioFrame
  deriving DecidableEq, Repr

structure BoxCtrlCmd where
  header : String
  cmdLength : Int
  dataType : DataType
  vPts : Int64
  deriving DecidableEq, Repr

/-- `QUEUE_ARGS_OBJ` with what `pDataBuf` holds behind its first `iDataPreBufSize`
bytes: the 32 bytes of the command header and the frame. -/
structure QueueArgs where
  iDataPreBufSize : Int
  iDataLen : Int
  stCmdHead : BoxCtrlCmd
  data : List UInt8
  deriving DecidableEq, Repr

/-- What the callback uses of the stream node and its connection; `queueStreamData` are
the records pushed so far. -/
structure Receiver where
  input : List UInt8 := []
  hGetStreamFromSource : List UInt8
  iRecvStreamDataLen : Int := 0
  uRtpClientNodeSendDataThreadFlag : Nat := 0
  queueStreamData : List QueueArgs := []

/-- What the callback finds when it looks: the number of clients, whether
`stpool_task_set_p` fails, and the two counters of the queue. -/
structure Surroundings where
  listSize : Nat
  iError : Bool
  rLen : Int
  wLen : Int

inductive Outcome
  | returned (receiver : Receiver)
  /-- The loop is left for the code that tears the connection down. -/
  | broken (receiver : Receiver)
  | taskFailed (receiver : Receiver)
  /-- A write outside the buffer of the node. -/
  | overrun

/-- `bufferevent_read` of `bytes` to a position in the buffer of the node. -/
def readInto (buf : List UInt8) (offset : Int) (bytes : List UInt8) : Option (List UInt8) :=
  if bytes = [] then some buf
  else if offset < 0 then none
  else writeAt buf offset.toNat bytes

def readPackage (r : Receiver) : Option Receiver :=
  let bodyLen := (readNetLayer r.input).iActLength.toInt - packageExtraLen
  let body := (r.input.drop packageExtraLen).take (toSizeT bodyLen)
  (readInto r.hGetStreamFromSource r.iRecvStreamDataLen body).map fun buf =>
    { r with
      input := (r.input.drop packageExtraLen).drop (toSizeT bodyLen)
      hGetStreamFromSource := buf
      iRecvStreamDataLen := toS32 (r.iRecvStreamDataLen + bodyLen) }

def frameDataType (byFrameType : UInt8) : DataType :=
  if byFrameType = 0 then .bpFrame
  else if byFrameType = 1 then .iFrame
  else if byFrameType = 4 then .audioFrame
  else .unset

def frameRecord (stPackage : NetLayer) (iRecvStreamDataLen : Int) (data : List UInt8) :
    QueueArgs :=
  let stCmdHead : BoxCtrlCmd :=
    { header := "hBzHbox@", cmdLength := iRecvStreamDataLen
      dataType := frameDataType stPackage.byFrameType
      vPts :=
        (((stPackage.iTimeStampHigh.toInt64.toUInt64 <<< 32) +
          stPackage.iTimeStampLow.toInt64.toUInt64) * 90).toInt64 }
  let iDataLen := stCmdHead.cmdLength
  { iDataPreBufSize := (iDataLen.tdiv 1400 + 1) * 20 + 1400
    iDataLen := iDataLen + 32
    stCmdHead, data }

/-- The flag of the send task behind the code that starts it with the first key frame. -/
def flagAfterStart (flag : Nat) (byFrameType : UInt8) : Nat :=
  if flag = 0 ∧ byFrameType = 1 then 1 else flag

def endOfFrame (s : Surroundings) (stPackage : NetLayer) (r : Receiver) : Outcome :=
  if s.listSize = 0 ∨ r.uRtpClientNodeSendDataThreadFlag = 2 then .broken r
  else if r.uRtpClientNodeSendDataThreadFlag = 0 ∧ stPackage.byFrameType = 1 ∧ s.iError then
    .taskFailed r
  else
    let flag := flagAfterStart r.uRtpClientNodeSendDataThreadFlag stPackage.byFrameType
    let started := { r with uRtpClientNodeSendDataThreadFlag := flag }
    if flag = 0 ∨ stPackage.byDataType ≠ 13 then
      .returned { started with iRecvStreamDataLen := 0 }
    else if s.rLen ≥ 512 then .broken started
    else
      let record :=
        frameRecord stPackage r.iRecvStreamDataLen
          (r.hGetStreamFromSource.take r.iRecvStreamDataLen.toNat)
      .returned
        { started with
          iRecvStreamDataLen := 0
          queueStreamData :=
            if s.wLen ≥ 512 then r.queueStreamData else r.queueStreamData ++ [record] }

theorem input_lt_of_readPackage {r r' : Receiver} (hhead : ¬ r.input.length < packageExtraLen)
    (h : readPackage r = some r') : r'.input.length < r.input.length := by
  obtain ⟨buf, -, rfl⟩ := Option.map_eq_some_iff.mp h
  simp only [List.length_drop, packageExtraLen] at hhead ⊢
  omega

def recvStreamCb (s : Surroundings) (r : Receiver) : Outcome :=
  if _ : r.input.length < packageExtraLen then .returned r
  else if r.input.length < toSizeT (readNetLayer r.input).iActLength.toInt then .returned r
  else
    match _ : readPackage r with
    | none => .overrun
    | some r' =>
        if (readNetLayer r.input).byBlockEndFlag ≠ 0 then
          endOfFrame s (readNetLayer r.input) r'
        else recvStreamCb s r'
termination_by r.input.length
decreasing_by exact input_lt_of_readPackage ‹_› ‹_›

def receive (s : Surroundings) (bytes : List UInt8) (r : Receiver) : Outcome :=
  recvStreamCb s { r with input := r.input ++ bytes }

def sourceBufferSize : Nat := 1024 * 1024

/-- The callbacks of a connection that is kept, one for each piece of the stream. -/
def receiveAll (r : Receiver) : List (Surroundings × List UInt8) → Option Receiver
  | [] => some r
  | (s, bytes) :: pieces =>
      match receive s bytes r with
      | .returned r => receiveAll r pieces
      | _ => none

end GbStream.Recv
