import GbStream.Support.Bytes
import GbStream.Support.CString

/-!
# The records of a call

`SIP_NODE_OBJ`: what the SIP side keeps of a call, and sends to the stream side.
-/

namespace GbStream.Call

open Support.Bytes Support.CString

/-- `CMD_TYPE`, and the zero of a cleared record. -/
inductive CmdType
  | unset
  | play
  | stop
  deriving DecidableEq, Repr

structure SipNode where
  enumCmdType : CmdType := .unset
  u32Ssrc : UInt32
  cSipDevSn : CharArray 32
  cDevId : CharArray 128
  cCallId : CharArray 32
  iDevChnl : Int32
  cPushIp : CharArray 16
  iPushPort : Int32
  iStreamType : Int32
  cStreamSourceIp : CharArray 16
  iStreamSourcePort : Int32
  iSipNodeHashValue : Int32
  iUdpSendStreamSockFd : Int32
  iUdpSendStreamPort : Int32
  iUdpRtcpSockFd : Int32
  iUdpRtcpListenPort : Int32
  deriving DecidableEq, Repr

namespace SipNode

def int (n : Int32) : List UInt8 := le32 n.toUInt32

/-- The bytes behind the field `cCallId`. -/
def behindCallId (n : SipNode) : List UInt8 :=
  int n.iDevChnl ++ n.cPushIp.bytes ++ int n.iPushPort ++ int n.iStreamType ++
    n.cStreamSourceIp.bytes ++ int n.iStreamSourcePort ++ int n.iSipNodeHashValue ++
    int n.iUdpSendStreamSockFd ++ int n.iUdpSendStreamPort ++ int n.iUdpRtcpSockFd ++
    int n.iUdpRtcpListenPort

/-- The string that `n.cCallId` is read as. -/
def callId (n : SipNode) : List UInt8 := n.cCallId.string n.behindCallId

/-- The string that `n.cDevId` is read as. -/
def devId (n : SipNode) : List UInt8 := n.cDevId.string (n.cCallId.bytes ++ n.behindCallId)

end SipNode

/-- A node at the address `id`, or a message that has been copied from there. -/
structure SipEntry extends SipNode where
  id : Nat
  deriving DecidableEq, Repr

end GbStream.Call
