import GbStream.Ps.Demux
import GbStream.Recv.StreamCb

/-!
# The records the send task pops

The types of records, and the video frames among them as `recv_stream_cb` pushes them.
-/

namespace GbStream.Task

open Ps Recv

/-- The frame type of the call of `ps_process`; records of other types are freed. -/
def psFrameType : DataType → Option EsFrameType
  | .iFrame => some .frameI
  | .bpFrame => some .frameP
  | .audioFrame | .unset => none

/-- Whether a record is multiplexed and sent. -/
def isVideo (record : QueueArgs) : Bool := (psFrameType record.stCmdHead.dataType).isSome

/-- A video frame as the receive callback pushes it. -/
structure VideoFrame where
  stPackage : NetLayer
  data : List UInt8
  video : stPackage.byFrameType = 0 ∨ stPackage.byFrameType = 1
  data_ne_nil : data ≠ []
  length_le : data.length ≤ sourceBufferSize

namespace VideoFrame

def record (f : VideoFrame) : QueueArgs := frameRecord f.stPackage f.data.length f.data

def frameType (f : VideoFrame) : EsFrameType :=
  if f.stPackage.byFrameType = 1 then .frameI else .frameP

theorem frameType_record (f : VideoFrame) :
    psFrameType f.record.stCmdHead.dataType = some f.frameType := by
  rcases f.video with hframe | hframe
  · simp [record, frameRecord, frameDataType, frameType, hframe, psFrameType]
  · simp [record, frameRecord, frameDataType, frameType, hframe, psFrameType]

theorem frameType_ne_audio (f : VideoFrame) : f.frameType ≠ .frameAudio := by
  unfold frameType
  split <;> decide

theorem isVideo_record (f : VideoFrame) : isVideo f.record = true := by
  rw [isVideo, frameType_record]
  rfl

end VideoFrame

end GbStream.Task
