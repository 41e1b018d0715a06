import GbStream.Support.Bytes
import GbStream.Support.Growable
import GbStream.Sdp.Text

/-!
# The parser

`sdp.c`: the session object, one parser for each kind of line, and `sdp_parse`.  A
pointer into the text is an offset, the null pointer is `none`.  A line parser that
returns anything but 0 makes `sdp_parse` destroy the object, so it is an error here and
leaves none.  Allocations succeed.
-/

namespace GbStream.Sdp

open Support

/-! ## The session object -/

structure Connection where
  network : Option Nat
  addrtype : Option Nat
  address : Option Nat
  deriving Inhabited

structure Origin where
  username : Option Nat
  session : Option Nat
  sessionVersion : Option Nat
  c : Connection
  deriving Inhabited

structure Bandwidth where
  bwtype : Option Nat
  bandwidth : Option Nat
  deriving Inhabited

structure Repeat where
  interval : Option Nat
  duration : Option Nat
  offsets : Growable (Option Nat) 1
  deriving Inhabited

structure TimeZone where
  time : Option Nat
  offset : Option Nat
  deriving Inhabited

structure Timing where
  start : Option Nat
  stop : Option Nat
  r : Growable Repeat 1
  z : Growable TimeZone 1
  deriving Inhabited

structure Encryption where
  method : Option Nat
  key : Option Nat
  deriving Inhabited

structure Attribute where
  name : Option Nat
  value : Option Nat
  deriving Inhabited

structure Media where
  media : Option Nat
  port : Option Nat
  proto : Option Nat
  fmt : Growable (Option Nat) 5
  i : Option Nat
  c : Growable Connection 1
  a : Growable Attribute 5
  b : Growable Bandwidth 1
  k : Encryption
  deriving Inhabited

structure Session where
  text : Text
  v : Int := 0
  o : Origin := default
  s : Option Nat := none
  i : Option Nat := none
  u : Option Nat := none
  y : Option Nat := none
  e : Growable (Option Nat) 1 := .empty
  p : Growable (Option Nat) 1 := .empty
  c : Connection := default
  b : Growable Bandwidth 1 := .empty
  t : Growable Timing 1 := .empty
  k : Encryption := default
  a : Growable Attribute 5 := .empty
  m : Growable Media 3 := .empty

def Session.lastTiming (sdp : Session) : Except Stop Timing :=
  match sdp.t.get? (sdp.t.count - 1) with
  | none => .error .badSlot
  | some t => .ok t

def Session.lastMedia (sdp : Session) : Except Stop Media :=
  match sdp.m.get? (sdp.m.count - 1) with
  | none => .error .badSlot
  | some m => .ok m

def Session.setLastMedia (sdp : Session) (m : Media) : Session :=
  { sdp with m := sdp.m.set (sdp.m.count - 1) m }

/-- Where `i=`, `c=`, `b=`, `k=` and `a=` put what they found: into the last media, or
into the session while there is none. -/
def Session.record (sdp : Session) (onMedia : Media → Media) (onSession : Session → Session) :
    Except Stop Session :=
  if sdp.m.count > 0 then do
    let m ← sdp.lastMedia
    .ok (sdp.setLastMedia (onMedia m))
  else .ok (onSession sdp)

/-! ## Parts of lines -/

namespace Text

def field (escape : List UInt8) (t : Text) : Except Stop (Token × Text) := do
  let t ← t.skipSpace
  t.tokenWord escape

def word (t : Text) : Except Stop (Token × Text) := t.field blankEol

def restOfLine (t : Text) : Except Stop (Token × Text) := do
  let (tok, t) ← t.field eol
  let tok ← t.trim tok
  .ok (tok, t)

def beforeColon (t : Text) : Except Stop (Token × Text) := do
  let (tok, t) ← t.field colonEol
  let tok ← t.trim tok
  let c ← t.char
  .ok (tok, if c = colon then t.advance 1 else t)

/-- The line of one text, not trimmed: `s=`, `y=`, `i=`, `u=` and `e=`. -/
def textLine (t : Text) : Except Stop (Token × Text) := do
  let (tok, t) ← t.tokenWord eol
  let t ← t.tokenCrlf
  let t ← t.terminate tok
  .ok (tok, t)

/-- The line of two texts with a colon in between: `b=`, `k=` and `a=`. -/
def pairLine (t : Text) : Except Stop (Token × Token × Text) := do
  let (name, t) ← t.beforeColon
  let (value, t) ← t.restOfLine
  let t ← t.tokenCrlf
  let t ← t.terminateAll [name, value]
  .ok (name, value, t)

end Text

/-! ## The lines -/

def isDigit (c : UInt8) : Bool := byte '0' ≤ c ∧ c ≤ byte '9'

/-- The value of digits, in an `int`. -/
def digitsValue (digits : List UInt8) : Int :=
  digits.foldl (fun v c => Bytes.toS32 (v * 10 + (c.toNat - 48 : Int))) 0

def parseVersion (sdp : Session) : Except Stop Session := do
  let t ← sdp.text.skipSpace
  match CString.scan isDigit (t.raw.drop t.offset) with
  | none => .error .outOfBounds
  | some n => do
      let v := digitsValue ((t.raw.drop t.offset).take n)
      let t ← (t.advance n).tokenCrlf
      .ok { sdp with text := t, v }

def parseOrigin (sdp : Session) : Except Stop Session := do
  let (username, t) ← sdp.text.word
  let (session, t) ← t.word
  let (sessionVersion, t) ← t.word
  let (network, t) ← t.word
  let (addrtype, t) ← t.word
  let (address, t) ← t.word
  let t ← t.tokenCrlf
  if username.n > 0 ∧ session.n > 0 ∧ sessionVersion.n > 0 ∧ network.n > 0 ∧
      addrtype.n > 0 ∧ address.n > 0 then do
    let t ← t.terminateAll [username, session, sessionVersion, network, addrtype, address]
    .ok
      { sdp with
        text := t
        o :=
          { username := username.ptr, session := session.ptr
            sessionVersion := sessionVersion.ptr
            c := { network := network.ptr, addrtype := addrtype.ptr, address := address.ptr } } }
  else .error .failed

def parseSession (sdp : Session) : Except Stop Session := do
  let (s, t) ← sdp.text.textLine
  .ok { sdp with text := t, s := s.ptr }

def parseY (sdp : Session) : Except Stop Session := do
  let (y, t) ← sdp.text.textLine
  .ok { sdp with text := t, y := y.ptr }

def parseInformation (sdp : Session) : Except Stop Session := do
  let (i, t) ← sdp.text.textLine
  { sdp with text := t }.record (fun m => { m with i := i.ptr })
    (fun sdp => { sdp with i := i.ptr })

def parseUri (sdp : Session) : Except Stop Session :=
  -- `assert(!sdp->u)`
  if sdp.u.isSome then .error .assertFailed
  else do
    let (u, t) ← sdp.text.textLine
    .ok { sdp with text := t, u := u.ptr }

def parseEmail (sdp : Session) : Except Stop Session := do
  let (e, t) ← sdp.text.textLine
  .ok { sdp with text := t, e := sdp.e.push e.ptr }

def parsePhone (sdp : Session) : Except Stop Session := do
  let (p, t) ← sdp.text.tokenWord eol
  let t ← t.tokenCrlf
  let p ← t.trim p
  let t ← t.terminate p
  .ok { sdp with text := t, p := sdp.p.push p.ptr }

def parseConnection (sdp : Session) : Except Stop Session := do
  let (network, t) ← sdp.text.word
  let (addrtype, t) ← t.word
  let (address, t) ← t.restOfLine
  let t ← t.tokenCrlf
  if network.n > 0 ∧ addrtype.n > 0 ∧ address.n > 0 then do
    let t ← t.terminateAll [network, addrtype, address]
    let c : Connection :=
      { network := network.ptr, addrtype := addrtype.ptr, address := address.ptr }
    { sdp with text := t }.record (fun m => { m with c := m.c.push c })
      (fun sdp => { sdp with c })
  else .error .failed

def parseBandwidth (sdp : Session) : Except Stop Session := do
  let (bwtype, bandwidth, t) ← sdp.text.pairLine
  let b : Bandwidth := { bwtype := bwtype.ptr, bandwidth := bandwidth.ptr }
  { sdp with text := t }.record (fun m => { m with b := m.b.push b })
    (fun sdp => { sdp with b := sdp.b.push b })

def parseTiming (sdp : Session) : Except Stop Session := do
  let (start, t) ← sdp.text.word
  let (stop, t) ← t.restOfLine
  let t ← t.tokenCrlf
  let t ← t.terminateAll [start, stop]
  .ok
    { sdp with
      text := t
      t := sdp.t.push { start := start.ptr, stop := stop.ptr, r := .empty, z := .empty } }

def appendOffset (t : Text) (offset : Option Token) (offsets : Growable (Option Nat) 1) :
    Except Stop (Text × Growable (Option Nat) 1) :=
  match offset with
  | none => .ok (t, offsets)
  | some tok =>
      if tok.n > 0 then do
        let t ← t.terminate tok
        .ok (t, offsets.push tok.ptr)
      else .ok (t, offsets)

/-- The loop over the offsets of `r=`.  `strchr` finds the terminator of `" \t"` too. -/
def repeatLoop : Nat → Text → Option Token → Growable (Option Nat) 1 →
    Except Stop (Text × Option Token × Growable (Option Nat) 1)
  | 0, _, _, _ => .error .outOfFuel
  | fuel + 1, t, offset, offsets => do
      let c ← t.char
      if c = space ∨ c = tab ∨ c = 0 then do
        let (t, offsets) ← appendOffset t offset offsets
        let (tok, t) ← t.word
        repeatLoop fuel t (some tok) offsets
      else .ok (t, offset, offsets)

def parseRepeat (fuel : Nat) (sdp : Session) : Except Stop Session :=
  -- `assert(sdp->t.count > 0)`
  if sdp.t.count = 0 then .error .assertFailed
  else do
    let timing ← sdp.lastTiming
    let (interval, t) ← sdp.text.word
    let (duration, t) ← t.word
    let (t, offset, offsets) ← repeatLoop fuel t none .empty
    let t ← t.tokenCrlf
    let t ← t.terminateAll [interval, duration]
    let (t, offsets) ← appendOffset t offset offsets
    let r := timing.r.push { interval := interval.ptr, duration := duration.ptr, offsets }
    .ok { sdp with text := t, t := sdp.t.set (sdp.t.count - 1) { timing with r } }

/-- The loop over the pairs of `z=`.  The slot is chosen by the number of `r=` lines. -/
def timezoneLoop : Nat → Text → Timing → Except Stop (Text × Timing)
  | 0, _, _ => .error .outOfFuel
  | fuel + 1, t, timing => do
      let (time, t) ← t.word
      let (offset, t) ← t.word
      if time.n < 1 ∨ offset.n < 1 then .ok (t, timing)
      else
        match timing.z.storeAt timing.r.count { time := time.ptr, offset := offset.ptr } with
        | none => .error .badSlot
        | some z => timezoneLoop fuel t { timing with z }

def parseTimezone (fuel : Nat) (sdp : Session) : Except Stop Session :=
  -- `assert(sdp->t.count > 0)`
  if sdp.t.count = 0 then .error .assertFailed
  else do
    let timing ← sdp.lastTiming
    let (t, timing) ← timezoneLoop fuel sdp.text timing
    let t ← t.tokenCrlf
    .ok { sdp with text := t, t := sdp.t.set (sdp.t.count - 1) timing }

def parseEncryption (sdp : Session) : Except Stop Session := do
  let (method, key, t) ← sdp.text.pairLine
  let k : Encryption := { method := method.ptr, key := key.ptr }
  { sdp with text := t }.record (fun m => { m with k }) (fun sdp => { sdp with k })

def parseAttribute (sdp : Session) : Except Stop Session := do
  let (name, value, t) ← sdp.text.pairLine
  let a : Attribute := { name := name.ptr, value := value.ptr }
  { sdp with text := t }.record (fun m => { m with a := m.a.push a })
    (fun sdp => { sdp with a := sdp.a.push a })

/-- The loop `for (i=3; i < 16;++i)`, which leaves the last of its tokens. -/
def lastWord : Nat → Token → Text → Except Stop (Token × Text)
  | 0, tok, t => .ok (tok, t)
  | n + 1, _, t => do
      let (tok, t) ← t.word
      lastWord n tok t

def formatLoop : Nat → Token → Text → Growable (Option Nat) 5 →
    Except Stop (Token × Text × Growable (Option Nat) 5)
  | 0, _, _, _ => .error .outOfFuel
  | fuel + 1, fmt, t, formats =>
      match t.raw[fmt.stop]? with
      | none => .error .outOfBounds
      | some c =>
          if c = space ∨ c = tab then do
            let t ← t.terminate fmt
            let (tok, t) ← t.word
            formatLoop fuel tok t (formats.push fmt.ptr)
          else .ok (fmt, t, formats)

def parseMedia (fuel : Nat) (sdp : Session) : Except Stop Session := do
  let (media, t) ← sdp.text.word
  let (port, t) ← t.word
  let (proto, t) ← t.word
  let (fmt, t) ← lastWord 13 proto t
  let (fmt, t, formats) ← formatLoop fuel fmt t .empty
  let t ← t.tokenCrlf
  let t ← t.terminateAll [media, port, proto]
  let m : Media :=
    { (default : Media) with media := media.ptr, port := port.ptr, proto := proto.ptr }
  if fmt.n > 0 then do
    let t ← t.terminate fmt
    .ok { sdp with text := t, m := sdp.m.push { m with fmt := formats.push fmt.ptr } }
  else .ok { sdp with text := t, m := sdp.m.push { m with fmt := formats } }

/-! ## The text -/

inductive LineKind
  | v | o | s | i | u | e | p | c | b | t | r | z | k | a | m | y
  deriving DecidableEq, Repr

/-- The cases of the `switch` over the letter. -/
def lineKinds : List (UInt8 × LineKind) :=
  [(byte 'v', .v), (byte 'o', .o), (byte 's', .s), (byte 'i', .i), (byte 'u', .u),
    (byte 'e', .e), (byte 'p', .p), (byte 'c', .c), (byte 'b', .b), (byte 't', .t),
    (byte 'r', .r), (byte 'z', .z), (byte 'k', .k), (byte 'a', .a), (byte 'm', .m),
    (byte 'y', .y)]

def parseBody (fuel : Nat) (sdp : Session) : LineKind → Except Stop Session
  | .v => parseVersion sdp
  | .o => parseOrigin sdp
  | .s => parseSession sdp
  | .i => parseInformation sdp
  | .u => parseUri sdp
  | .e => parseEmail sdp
  | .p => parsePhone sdp
  | .c => parseConnection sdp
  | .b => parseBandwidth sdp
  | .t => parseTiming sdp
  | .r => parseRepeat fuel sdp
  | .z => parseTimezone fuel sdp
  | .k => parseEncryption sdp
  | .a => parseAttribute sdp
  | .m => parseMedia fuel sdp
  | .y => parseY sdp

def parseLine (fuel : Nat) (sdp : Session) : Except Stop Session := do
  let t ← sdp.text.skipSpace
  let c ← t.char
  let t ← (t.advance 1).skipSpace
  let d ← t.char
  if d ≠ byte '=' then .error .failed
  else do
    let t ← (t.advance 1).skipSpace
    match lineKinds.lookup c with
    | none => .error .assertFailed -- `assert(0)`
    | some kind => parseBody fuel { sdp with text := t } kind

def parseLines (fuel : Nat) : Nat → Session → Except Stop Session
  | 0, _ => .error .outOfFuel
  | rounds + 1, sdp => do
      let c ← sdp.text.char
      if c = 0 ∨ c = cr ∨ c = lf then .ok sdp
      else do
        let sdp ← parseLine fuel sdp
        parseLines fuel rounds sdp

def strdup (s : List UInt8) : List UInt8 := CString.stringAt s 0 ++ [0]

/-- `sdp_parse` of the string at the start of `s`.  `fuel` bounds the rounds of each loop
that is not bounded by the memory it scans. -/
def sdpParse (fuel : Nat) (s : List UInt8) : Except Stop Session :=
  parseLines fuel fuel { text := { raw := strdup s, offset := 0 } }

/-! ## The accessors -/

def sdpOriginGet (sdp : Session) : Option (Nat × Nat × Nat × Nat × Nat × Nat) := do
  let username ← sdp.o.username
  let session ← sdp.o.session
  let version ← sdp.o.sessionVersion
  let network ← sdp.o.c.network
  let addrtype ← sdp.o.c.addrtype
  let address ← sdp.o.c.address
  some (username, session, version, network, addrtype, address)

def sdpConnectionGet (sdp : Session) : Option (Nat × Nat × Nat) := do
  let network ← sdp.c.network
  let addrtype ← sdp.c.addrtype
  let address ← sdp.c.address
  some (network, addrtype, address)

def sdpYGet (sdp : Session) : Option Nat := sdp.y

def sdpMediaCount (sdp : Session) : Nat := sdp.m.count

def sdpGetMedia (sdp : Session) (idx : Nat) : Option Media :=
  if idx ≥ sdp.m.count then none else sdp.m.get? idx

def sdpMediaType (sdp : Session) (media : Nat) : Option Nat :=
  (sdpGetMedia sdp media).bind Media.media

def sdpMediaProto (sdp : Session) (media : Nat) : Option Nat :=
  (sdpGetMedia sdp media).bind Media.proto

/-- One round of the two `attribute_find`s: `strcmp` with one name. -/
def attributeAt (raw : List UInt8) (as : Growable Attribute 5) (name : List UInt8) (i : Nat) :
    Option (Option Nat) :=
  match as.get? i with
  | some { name := some ptr, value } =>
      if CString.stringAt raw ptr = name then some value else none
  | _ => none

def attributeFind (raw : List UInt8) (as : Growable Attribute 5) (name : List UInt8) :
    Option Nat :=
  ((List.range as.count).findSome? (attributeAt raw as name)).join

def sdpAttributeFind (sdp : Session) (name : List UInt8) : Option Nat :=
  attributeFind sdp.text.raw sdp.a name

def sdpMediaAttributeFind (sdp : Session) (media : Nat) (name : List UInt8) : Option Nat :=
  (sdpGetMedia sdp media).bind fun m => attributeFind sdp.text.raw m.a name

end GbStream.Sdp
