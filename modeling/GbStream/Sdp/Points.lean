import GbStream.Sdp.Change
import GbStream.Support.Transition

/-!
# The points of the parser

The parser stands before a line or in one of the three loops over the entries of a line.
`Step` goes from one of these points to the next and records what it stores into the lists of
the session object, in the order of the stores.
-/

namespace GbStream.Sdp

open Support Support.CString

/-! ## Rounds -/

def nextLine (sdp : Session) : Except Stop (Option (LineKind × Session)) := do
  let c ← sdp.text.char
  if c = 0 ∨ c = cr ∨ c = lf then .ok none
  else do
    let (c, t) ← sdp.text.lineFront
    match lineKinds.lookup c with
    | none => .error .assertFailed -- `assert(0)`
    | some kind => .ok (some (kind, { sdp with text := t }))

def openRepeat (sdp : Session) : Except Stop (Timing × Token × Token × Text) :=
  -- `assert(sdp->t.count > 0)`
  if sdp.t.count = 0 then .error .assertFailed
  else do
    let timing ← sdp.lastTiming
    let (interval, t) ← sdp.text.word
    let (duration, t) ← t.word
    .ok (timing, interval, duration, t)

def repeatRound (t : Text) (offset : Option Token) (offsets : Growable (Option Nat) 1) :
    Except Stop (Option (Text × Option Token × Growable (Option Nat) 1)) := do
  let c ← t.char
  if c = space ∨ c = tab ∨ c = 0 then do
    let (t, offsets) ← appendOffset t offset offsets
    let (tok, t) ← t.word
    .ok (some (t, some tok, offsets))
  else .ok none

def closeRepeat (sdp : Session) (timing : Timing) (interval duration : Token) (t : Text)
    (offset : Option Token) (offsets : Growable (Option Nat) 1) : Except Stop Session := do
  let t ← t.tokenCrlf
  let t ← t.terminateAll [interval, duration]
  let (t, offsets) ← appendOffset t offset offsets
  let r := timing.r.push { interval := interval.ptr, duration := duration.ptr, offsets }
  .ok { sdp with text := t, t := sdp.t.set (sdp.t.count - 1) { timing with r } }

def openTimezone (sdp : Session) : Except Stop Timing :=
  -- `assert(sdp->t.count > 0)`
  if sdp.t.count = 0 then .error .assertFailed else sdp.lastTiming

def zoneAt (t : Text) : Except Stop (Option TimeZone × Text) := do
  let (time, t) ← t.word
  let (offset, t) ← t.word
  if time.n < 1 ∨ offset.n < 1 then .ok (none, t)
  else .ok (some { time := time.ptr, offset := offset.ptr }, t)

def closeTimezone (sdp : Session) (timing : Timing) (t : Text) : Except Stop Session := do
  let t ← t.tokenCrlf
  .ok { sdp with text := t, t := sdp.t.set (sdp.t.count - 1) timing }

def openMedia (sdp : Session) : Except Stop (Token × Token × Token × Token × Text) := do
  let (media, t) ← sdp.text.word
  let (port, t) ← t.word
  let (proto, t) ← t.word
  let (fmt, t) ← lastWord 13 proto t
  .ok (media, port, proto, fmt, t)

def formatRound (fmt : Token) (t : Text) (formats : Growable (Option Nat) 5) :
    Except Stop (Option (Token × Text × Growable (Option Nat) 5)) :=
  match t.raw[fmt.stop]? with
  | none => .error .outOfBounds
  | some c =>
      if c = space ∨ c = tab then do
        let t ← t.terminate fmt
        let (tok, t) ← t.word
        .ok (some (tok, t, formats.push fmt.ptr))
      else .ok none

def closeMedia (sdp : Session) (media port proto fmt : Token) (t : Text)
    (formats : Growable (Option Nat) 5) : Except Stop Session := do
  let t ← t.tokenCrlf
  let t ← t.terminateAll [media, port, proto]
  let m : Media :=
    { (default : Media) with media := media.ptr, port := port.ptr, proto := proto.ptr }
  if fmt.n > 0 then do
    let t ← t.terminate fmt
    .ok { sdp with text := t, m := sdp.m.push { m with fmt := formats.push fmt.ptr } }
  else .ok { sdp with text := t, m := sdp.m.push { m with fmt := formats } }

/-! The parsers are their rounds, one after another. -/

theorem parseLines_succ (fuel rounds : Nat) (sdp : Session) :
    parseLines fuel (rounds + 1) sdp =
      nextLine sdp >>= fun
        | none => .ok sdp
        | some (kind, sdp) => parseBody fuel sdp kind >>= parseLines fuel rounds := by
  rw [parseLines, nextLine, bind_assoc]
  apply bind_congr
  intro c
  split
  · rfl
  · rw [parseLine_eq, bind_assoc, bind_assoc]
    apply bind_congr
    rintro ⟨c, t⟩
    dsimp only
    cases lineKinds.lookup c <;> rfl

theorem parseRepeat_eq (fuel : Nat) (sdp : Session) :
    parseRepeat fuel sdp =
      openRepeat sdp >>= fun (timing, interval, duration, t) =>
        repeatLoop fuel t none .empty >>= fun (t, offset, offsets) =>
          closeRepeat sdp timing interval duration t offset offsets := by
  unfold parseRepeat openRepeat
  split
  · rfl
  · simp only [bind_assoc]
    rfl

theorem repeatLoop_succ (fuel : Nat) (t : Text) (offset : Option Token)
    (offsets : Growable (Option Nat) 1) :
    repeatLoop (fuel + 1) t offset offsets =
      repeatRound t offset offsets >>= fun
        | none => .ok (t, offset, offsets)
        | some (t, offset, offsets) => repeatLoop fuel t offset offsets := by
  rw [repeatLoop, repeatRound, bind_assoc]
  apply bind_congr
  intro c
  split
  · simp only [bind_assoc]
    rfl
  · rfl

theorem parseTimezone_eq (fuel : Nat) (sdp : Session) :
    parseTimezone fuel sdp =
      openTimezone sdp >>= fun timing =>
        timezoneLoop fuel sdp.text timing >>= fun (t, timing) =>
          closeTimezone sdp timing t := by
  unfold parseTimezone openTimezone
  split <;> rfl

theorem timezoneLoop_succ (fuel : Nat) (t : Text) (timing : Timing) :
    timezoneLoop (fuel + 1) t timing =
      zoneAt t >>= fun
        | (none, t) => .ok (t, timing)
        | (some zone, t) =>
            match timing.z.storeAt timing.r.count zone with
            | none => .error .badSlot
            | some z => timezoneLoop fuel t { timing with z } := by
  simp only [timezoneLoop, zoneAt, bind_assoc]
  apply bind_congr
  intro time
  apply bind_congr
  intro offset
  split <;> rfl

theorem parseMedia_eq (fuel : Nat) (sdp : Session) :
    parseMedia fuel sdp =
      openMedia sdp >>= fun (media, port, proto, fmt, t) =>
        formatLoop fuel fmt t .empty >>= fun (fmt, t, formats) =>
          closeMedia sdp media port proto fmt t formats := by
  simp only [parseMedia, openMedia, bind_assoc]
  rfl

theorem formatLoop_succ (fuel : Nat) (fmt : Token) (t : Text) (formats : Growable (Option Nat) 5) :
    formatLoop (fuel + 1) fmt t formats =
      formatRound fmt t formats >>= fun
        | none => .ok (fmt, t, formats)
        | some (fmt, t, formats) => formatLoop fuel fmt t formats := by
  rw [formatLoop, formatRound]
  cases t.raw[fmt.stop]? with
  | none => rfl
  | some c =>
      dsimp only
      split
      · simp only [bind_assoc]
        rfl
      · rfl

/-! ## What was stored -/

structure RepeatEntry where
  interval : Option Nat
  duration : Option Nat
  offsets : List (Option Nat)

structure TimingEntry where
  start : Option Nat
  stop : Option Nat
  r : List RepeatEntry := []
  z : List TimeZone := []

structure MediaEntry where
  media : Option Nat
  port : Option Nat
  proto : Option Nat
  fmt : List (Option Nat)
  c : List Connection := []
  a : List Attribute := []
  b : List Bandwidth := []

/-- The entries of every list, in the order in which they were stored; `line` has the offsets
or formats of the line that the parser is in. -/
structure Entries where
  e : List (Option Nat) := []
  p : List (Option Nat) := []
  b : List Bandwidth := []
  t : List TimingEntry := []
  a : List Attribute := []
  m : List MediaEntry := []
  line : List (Option Nat) := []

namespace Entries

def recordOnMedia (y : MediaEntry) : Recorded → MediaEntry
  | .connection network addrtype address =>
      { y with c := y.c ++ [⟨some network, some addrtype, some address⟩] }
  | .bandwidth bwtype value => { y with b := y.b ++ [⟨some bwtype, some value⟩] }
  | .attribute name value => { y with a := y.a ++ [⟨some name, some value⟩] }
  | .information _ | .encryption .. => y

def recordOnSession (x : Entries) : Recorded → Entries
  | .bandwidth bwtype value => { x with b := x.b ++ [⟨some bwtype, some value⟩] }
  | .attribute name value => { x with a := x.a ++ [⟨some name, some value⟩] }
  | .information _ | .connection .. | .encryption .. => x

def note (x : Entries) : Effect → Entries
  | .email e => { x with e := x.e ++ [some e] }
  | .phone p => { x with p := x.p ++ [some p] }
  | .timing start stop => { x with t := x.t ++ [{ start, stop }] }
  | .recorded r =>
      if x.m.length > 0 then { x with m := x.m.modifyLast fun y => recordOnMedia y r }
      else x.recordOnSession r
  | .version _ | .origin .. | .name _ | .y _ | .uri _ => x

def ofToken : Option Token → List (Option Nat)
  | none => []
  | some tok => if tok.n > 0 then [some tok.ptr] else []

def append (x : Entries) (entries : List (Option Nat)) : Entries :=
  { x with line := x.line ++ entries }

def addZone (x : Entries) (zone : TimeZone) : Entries :=
  { x with t := x.t.modifyLast fun y => { y with z := y.z ++ [zone] } }

def addRepeat (x : Entries) (interval duration : Nat) : Entries :=
  let r : RepeatEntry := { interval, duration, offsets := x.line }
  { x with t := x.t.modifyLast fun y => { y with r := y.r ++ [r] } }

def addMedia (x : Entries) (media port proto : Nat) : Entries :=
  { x with m := x.m ++ [{ media, port, proto, fmt := x.line }] }

end Entries

/-! ## Steps -/

/-- Where the parser stands, with the variables of the loop it is in. -/
inductive Point
  | line (sdp : Session)
  | repeats (sdp : Session) (timing : Timing) (interval duration : Token) (t : Text)
      (offset : Option Token) (offsets : Growable (Option Nat) 1)
  | zones (sdp : Session) (t : Text) (timing : Timing)
  | formats (sdp : Session) (media port proto fmt : Token) (t : Text)
      (formats : Growable (Option Nat) 5)
  /-- Behind a store outside an array. -/
  | outside

inductive Step : Point × Entries → Point × Entries → Prop
  | plain {sdp sdp₁ sdp' : Session} {x : Entries} {fuel : Nat} {effect : Effect} {text : Text}
      (head : nextLine sdp = .ok (some (effect.kind, sdp₁)))
      (body : parseBody fuel sdp₁ effect.kind = .ok sdp')
      (happly : effect.apply { sdp₁ with text } = .ok sdp') :
      Step (.line sdp, x) (.line sdp', x.note effect)
  | openRepeat {sdp sdp₁ : Session} {x : Entries} {timing : Timing} {interval duration : Token}
      {t : Text} (head : nextLine sdp = .ok (some (.r, sdp₁)))
      (hopen : openRepeat sdp₁ = .ok (timing, interval, duration, t)) :
      Step (.line sdp, x)
        (.repeats sdp₁ timing interval duration t none .empty, { x with line := [] })
  | repeats {sdp : Session} {x : Entries} {timing : Timing} {interval duration : Token}
      {t t' : Text} {offset offset' : Option Token} {offsets offsets' : Growable (Option Nat) 1}
      (round : repeatRound t offset offsets = .ok (some (t', offset', offsets'))) :
      Step (.repeats sdp timing interval duration t offset offsets, x)
        (.repeats sdp timing interval duration t' offset' offsets',
          x.append (Entries.ofToken offset))
  | closeRepeat {sdp sdp' : Session} {x : Entries} {timing : Timing} {interval duration : Token}
      {t : Text} {offset : Option Token} {offsets : Growable (Option Nat) 1}
      (round : repeatRound t offset offsets = .ok none)
      (hclose : closeRepeat sdp timing interval duration t offset offsets = .ok sdp') :
      Step (.repeats sdp timing interval duration t offset offsets, x)
        (.line sdp', (x.append (Entries.ofToken offset)).addRepeat interval.ptr duration.ptr)
  | openTimezone {sdp sdp₁ : Session} {x : Entries} {timing : Timing}
      (head : nextLine sdp = .ok (some (.z, sdp₁))) (hopen : openTimezone sdp₁ = .ok timing) :
      Step (.line sdp, x) (.zones sdp₁ sdp₁.text timing, x)
  | zones {sdp : Session} {x : Entries} {t t' : Text} {timing : Timing} {zone : TimeZone}
      {z : Growable TimeZone 1} (round : zoneAt t = .ok (some zone, t'))
      (store : timing.z.storeAt timing.r.count zone = some z) :
      Step (.zones sdp t timing, x) (.zones sdp t' { timing with z }, x.addZone zone)
  | outside {sdp : Session} {x : Entries} {t t' : Text} {timing : Timing} {zone : TimeZone}
      (round : zoneAt t = .ok (some zone, t'))
      (store : timing.z.storeAt timing.r.count zone = none) :
      Step (.zones sdp t timing, x) (.outside, x)
  | closeTimezone {sdp sdp' : Session} {x : Entries} {t t' : Text} {timing : Timing}
      (round : zoneAt t = .ok (none, t')) (hclose : closeTimezone sdp timing t' = .ok sdp') :
      Step (.zones sdp t timing, x) (.line sdp', x)
  | openMedia {sdp sdp₁ : Session} {x : Entries} {media port proto fmt : Token} {t : Text}
      (head : nextLine sdp = .ok (some (.m, sdp₁)))
      (hopen : openMedia sdp₁ = .ok (media, port, proto, fmt, t)) :
      Step (.line sdp, x) (.formats sdp₁ media port proto fmt t .empty, { x with line := [] })
  | formats {sdp : Session} {x : Entries} {media port proto fmt fmt' : Token} {t t' : Text}
      {formats formats' : Growable (Option Nat) 5}
      (round : formatRound fmt t formats = .ok (some (fmt', t', formats'))) :
      Step (.formats sdp media port proto fmt t formats, x)
        (.formats sdp media port proto fmt' t' formats', x.append [some fmt.ptr])
  | closeMedia {sdp sdp' : Session} {x : Entries} {media port proto fmt : Token} {t : Text}
      {formats : Growable (Option Nat) 5} (round : formatRound fmt t formats = .ok none)
      (hclose : closeMedia sdp media port proto fmt t formats = .ok sdp') :
      Step (.formats sdp media port proto fmt t formats, x)
        (.line sdp', (x.append (Entries.ofToken fmt)).addMedia media.ptr port.ptr proto.ptr)

/-- `sdp_parse` of a text, point by point. -/
def parsing (s : List UInt8) : Transition.System (Point × Entries) Unit where
  init st := st = (.line { text := { raw := strdup s, offset := 0 } }, {})
  step st _ st' := Step st st'

/-! ## The parser runs through these points -/

variable {s : List UInt8} {sdp sdp₁ sdp' : Session} {x : Entries} {fuel : Nat} {kind : LineKind}

theorem reaches {st st' : Point × Entries} (h : (parsing s).Reachable st) (hstep : Step st st') :
    (parsing s).Reachable st' :=
  .step (a := ()) h trivial hstep

/-- The parser comes to the start of a line, with some entries stored. -/
def ComesTo (s : List UInt8) (sdp : Session) : Prop := ∃ x, (parsing s).Reachable (.line sdp, x)

theorem repeatLoop_reaches {timing : Timing} {interval duration : Token} {t' : Text}
    {offset' : Option Token} {offsets' : Growable (Option Nat) 1} (fuel : Nat) :
    ∀ {t : Text} {offset : Option Token} {offsets : Growable (Option Nat) 1} {x : Entries},
      (parsing s).Reachable (.repeats sdp timing interval duration t offset offsets, x) →
      repeatLoop fuel t offset offsets = .ok (t', offset', offsets') →
      ∃ x', (parsing s).Reachable (.repeats sdp timing interval duration t' offset' offsets', x') ∧
        repeatRound t' offset' offsets' = .ok none := by
  induction fuel with
  | zero => exact fun _ hrun => nomatch hrun
  | succ fuel ih =>
      intro t offset offsets x h hrun
      rw [repeatLoop_succ] at hrun
      obtain ⟨next, hround, hrun⟩ := bind_eq_ok.mp hrun
      cases next with
      | none =>
          cases hrun
          exact ⟨x, h, hround⟩
      | some next => exact ih (reaches h (.repeats hround)) hrun

theorem timezoneLoop_reaches {t' : Text} {timing' : Timing} (fuel : Nat) :
    ∀ {t : Text} {timing : Timing} {x : Entries},
      (parsing s).Reachable (.zones sdp t timing, x) →
      timezoneLoop fuel t timing = .ok (t', timing') →
      ∃ x' u, (parsing s).Reachable (.zones sdp u timing', x') ∧ zoneAt u = .ok (none, t') := by
  induction fuel with
  | zero => exact fun _ hrun => nomatch hrun
  | succ fuel ih =>
      intro t timing x h hrun
      rw [timezoneLoop_succ] at hrun
      obtain ⟨⟨zone, u⟩, hround, hrun⟩ := bind_eq_ok.mp hrun
      cases zone with
      | none =>
          cases hrun
          exact ⟨x, t, h, hround⟩
      | some zone =>
          dsimp only at hrun
          split at hrun
          · cases hrun
          · rename_i z hstore
            exact ih (reaches h (.zones hround hstore)) hrun

theorem formatLoop_reaches {media port proto fmt' : Token} {t' : Text}
    {formats' : Growable (Option Nat) 5} (fuel : Nat) :
    ∀ {fmt : Token} {t : Text} {formats : Growable (Option Nat) 5} {x : Entries},
      (parsing s).Reachable (.formats sdp media port proto fmt t formats, x) →
      formatLoop fuel fmt t formats = .ok (fmt', t', formats') →
      ∃ x', (parsing s).Reachable (.formats sdp media port proto fmt' t' formats', x') ∧
        formatRound fmt' t' formats' = .ok none := by
  induction fuel with
  | zero => exact fun _ hrun => nomatch hrun
  | succ fuel ih =>
      intro fmt t formats x h hrun
      rw [formatLoop_succ] at hrun
      obtain ⟨next, hround, hrun⟩ := bind_eq_ok.mp hrun
      cases next with
      | none =>
          cases hrun
          exact ⟨x, h, hround⟩
      | some next => exact ih (reaches h (.formats hround)) hrun

theorem parseBody_comesTo (h : (parsing s).Reachable (.line sdp, x))
    (head : nextLine sdp = .ok (some (kind, sdp₁))) (hbody : parseBody fuel sdp₁ kind = .ok sdp') :
    ComesTo s sdp' := by
  cases kind with
  | r =>
      rw [parseBody, parseRepeat_eq] at hbody
      obtain ⟨_, hopen, hbody⟩ := bind_eq_ok.mp hbody
      obtain ⟨_, hloop, hclose⟩ := bind_eq_ok.mp hbody
      obtain ⟨x', hreached, hround⟩ :=
        repeatLoop_reaches fuel (reaches h (.openRepeat head hopen)) hloop
      exact ⟨_, reaches hreached (.closeRepeat hround hclose)⟩
  | z =>
      rw [parseBody, parseTimezone_eq] at hbody
      obtain ⟨timing, hopen, hbody⟩ := bind_eq_ok.mp hbody
      obtain ⟨_, hloop, hclose⟩ := bind_eq_ok.mp hbody
      obtain ⟨x', u, hreached, hround⟩ :=
        timezoneLoop_reaches fuel (reaches h (.openTimezone head hopen)) hloop
      exact ⟨_, reaches hreached (.closeTimezone hround hclose)⟩
  | m =>
      rw [parseBody, parseMedia_eq] at hbody
      obtain ⟨_, hopen, hbody⟩ := bind_eq_ok.mp hbody
      obtain ⟨_, hloop, hclose⟩ := bind_eq_ok.mp hbody
      obtain ⟨x', hreached, hround⟩ :=
        formatLoop_reaches fuel (reaches h (.openMedia head hopen)) hloop
      exact ⟨_, reaches hreached (.closeMedia hround hclose)⟩
  | v | o | s | i | u | e | p | c | b | t | k | a | y =>
      obtain ⟨text, effect, hkind, happly⟩ := parseBody_plain (by decide) hbody
      rw [← hkind] at head hbody
      exact ⟨_, reaches h (.plain head hbody happly)⟩

theorem parseLines_comesTo (rounds : Nat) :
    ∀ {sdp : Session}, ComesTo s sdp → parseLines fuel rounds sdp = .ok sdp' → ComesTo s sdp' := by
  induction rounds with
  | zero => exact fun _ hrun => nomatch hrun
  | succ rounds ih =>
      rintro sdp ⟨x, hx⟩ hrun
      rw [parseLines_succ] at hrun
      obtain ⟨next, head, hrun⟩ := bind_eq_ok.mp hrun
      cases next with
      | none =>
          cases hrun
          exact ⟨x, hx⟩
      | some next =>
          obtain ⟨sdp₂, hbody, hrun⟩ := bind_eq_ok.mp hrun
          exact ih (parseBody_comesTo hx head hbody) hrun

theorem sdpParse_of_any {p : Session → Bool} (h : (sdpParse fuel s).toOption.any p = true) :
    ∃ sdp, sdpParse fuel s = .ok sdp ∧ p sdp = true := by
  cases hparse : sdpParse fuel s with
  | error e =>
      rw [hparse] at h
      cases h
  | ok sdp =>
      rw [hparse] at h
      exact ⟨sdp, rfl, h⟩

/-- The session that `sdp_parse` returns is one that the points lead to. -/
theorem sdpParse_comesTo (h : sdpParse fuel s = .ok sdp) : ComesTo s sdp :=
  parseLines_comesTo fuel ⟨{}, .init rfl⟩ h

end GbStream.Sdp
