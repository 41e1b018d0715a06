import Mathlib.Data.List.Infix
import GbStream.Call.SipTable
import GbStream.Sdp.Change
import GbStream.Sdp.Understood

/-!
# Reading an invitation

`parase_invite` of `sip.c`: the parameters of a call are taken from the SDP text in the body of
an `INVITE` and from its Call-ID.
-/

namespace GbStream.Invite

open Support Support.CString Sdp Call

/-! ## The message and the parameters -/

/-- An `INVITE`: the memory at the text of its first body, and its Call-ID, where it has them. -/
structure OsipMessage where
  body : Option (List UInt8)
  number : Option Call.Text

/-- Why the call does not return: a null pointer is used, or `sdp_parse` does not. -/
inductive Fault
  | null
  | parse (e : Stop)
  deriving DecidableEq, Repr

/-- The parameters so far, and whether a conversion has written behind the end of its array.
Such bytes are in no field here. -/
structure Filled where
  args : SipDevArgs := {}
  overrun : Bool := false

/-- `HB_SUCCESS` with the parameters, or `-1`. -/
inductive Answer
  | success (filled : Filled)
  | failure

def deref {α : Type} : Option α → Except Fault α
  | none => .error .null
  | some a => .ok a

/-- `sdp_parse`, which returns no session for a text it refuses. -/
def sdpParsed (fuel : Nat) (s : List UInt8) : Except Fault (Option Session) :=
  match sdpParse fuel s with
  | .ok sdp => .ok (some sdp)
  | .error .failed => .ok none
  | .error e => .error (.parse e)

/-! ## The source of the stream -/

def slash : UInt8 := byte '/'

def isSpace (c : UInt8) : Bool := c = 0x20 ∨ 0x09 ≤ c ∧ c ≤ 0x0d

/-- The strings that are assigned by `sscanf`. -/
structure Sms where
  ip : Option (List UInt8) := none
  port : Option (List UInt8) := none
  devId : Option (List UInt8) := none
  deriving DecidableEq, Repr

/-- `sscanf` with the format `%[^:]:%[^/]/%s`.  A conversion takes one byte at least, and none
has a width. -/
def sscanfSms (w : List UInt8) : Sms :=
  let ip := w.takeWhile (· ≠ colon)
  if ip = [] then {}
  else
    match w.dropWhile (· ≠ colon) with
    | [] => { ip }
    | _ :: w =>
        let port := w.takeWhile (· ≠ slash)
        if port = [] then { ip }
        else
          match w.dropWhile (· ≠ slash) with
          | [] => { ip, port }
          | _ :: w =>
              let devId := (w.dropWhile isSpace).takeWhile fun c => !isSpace c
              if devId = [] then { ip, port } else { ip, port, devId }

/-- A string that does not fit `n` bytes with its terminator. -/
def overruns (n : Nat) (w? : Option (List UInt8)) : Bool := w?.any fun w => n ≤ w.length

/-- The value of `a=sms`.  `atoi` reads the string that has been written to the eight bytes of
`cStreamSourcePort`, which are cleared before. -/
def Filled.scanSms (f : Filled) (value : List UInt8) : Filled :=
  let sms := sscanfSms value
  { args :=
      { f.args with
        cStreamSourceIp := sms.ip.elim f.args.cStreamSourceIp f.args.cStreamSourceIp.write
        cDevId := sms.devId.elim f.args.cDevId f.args.cDevId.write
        iStreamSourcePort := atoi (sms.port.getD []) }
    overrun := f.overrun || overruns 16 sms.ip || overruns 8 sms.port || overruns 128 sms.devId }

/-! ## The media -/

/-- `sdp_media_port`: the port and the number behind a slash. -/
def sdpMediaPort (pSdp : Session) (media : Nat) : Except Fault (Option (Int32 × Int32)) :=
  match sdpGetMedia pSdp media with
  | none => .ok none
  | some m => do
      let port ← deref m.port
      let p := (pSdp.string port).dropWhile (· ≠ slash)
      .ok (some (atoi (pSdp.string port), atoi (if p = [] then ascii "1" else p.tail)))

/-- A sub-stream is asked for by `SUB` in the value of `a=streamMode`. -/
def streamType (pVideoStreamType : Option (List UInt8)) : Int32 :=
  if pVideoStreamType.any fun w => ascii "SUB" <:+: w then 1 else 0

/-- The port of a video, and the values of `a=sms` and `a=streamMode`. -/
def Filled.video (f : Filled) (iPushPort : Int32) (sms streamMode : Option (List UInt8)) :
    Filled :=
  let f := { f with args := { f.args with iPushPort } }
  let f := sms.elim f f.scanSms
  { f with args := { f.args with iStreamType := streamType streamMode } }

def fillVideo (pSdp : Session) (f : Filled) (i : Nat) : Except Fault Filled := do
  let port ← sdpMediaPort pSdp i
  let value (name : List UInt8) := (sdpMediaAttributeFind pSdp i name).map pSdp.string
  .ok (f.video ((port.map Prod.fst).getD 0) (value (ascii "sms"))
    (value (ascii "streamMode")))

def mediaRound (pSdp : Session) (f : Filled) (i : Nat) : Except Fault Filled := do
  let pMediaType ← deref (sdpMediaType pSdp i)
  if pSdp.string pMediaType = ascii "video" then fillVideo pSdp f i else .ok f

/-! ## The call -/

/-- The parameters in front of the loop.  The record is cleared before the call. -/
def paraseSession (pSdp : Session) (number : Option Call.Text) : Except Fault SipDevArgs := do
  let pUserName ← deref ((sdpOriginGet pSdp).map Prod.fst)
  let pClientAddress ← deref ((sdpConnectionGet pSdp).map fun c => c.2.2)
  .ok
    { cDevSn := strncpy (pSdp.string pUserName) 32
      cPushIp := strncpy (pSdp.string pClientAddress) 16
      cSsrc := strncpy (((sdpYGet pSdp).map pSdp.string).getD []) 16
      cCallId := strncpy ((number.map Subtype.val).getD []) 32 }

/-- What is behind `sdp_parse`.  The number of media is a `size_t` that is returned as an
`int`. -/
def paraseParsed (pSdp : Session) (number : Option Call.Text) : Except Fault Answer :=
  let iMediaCount := Bytes.toS32 (sdpMediaCount pSdp)
  if iMediaCount < 0 then .ok .failure
  else do
    let args ← paraseSession pSdp number
    let filled ← (List.range iMediaCount.toNat).foldlM (mediaRound pSdp) { args }
    .ok (.success filled)

def paraseInvite (fuel : Nat) (pSipMsg : OsipMessage) : Except Fault Answer := do
  let pBody ← deref pSipMsg.body
  let pSdp ← sdpParsed fuel pBody
  -- `sdp_media_count` uses the session without a test.
  let pSdp ← deref pSdp
  paraseParsed pSdp pSipMsg.number

end GbStream.Invite
