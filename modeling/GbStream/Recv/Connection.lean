import Mathlib.Data.List.Infix
import GbStream.Recv.StreamCb
import GbStream.Support.CString

/-!
# A connection to a media server, packet by packet

`recv_cmd_from_hbserver` reads the answer to the start command, then `recv_stream_cb` is
installed.  Both take packets from the input in the same way.  A run is a list of events:
bytes arrive, a callback is entered, takes one packet, or deals with an end packet it has
taken.
-/

namespace GbStream.Recv

open Support.Bytes Support.CString

/-- The read callback that is installed; `overrun` when a packet has been written outside
the buffer of the node. -/
inductive Phase
  | command
  | stream
  | closed
  | overrun
  deriving DecidableEq, Repr

/-- `endPackage` is the end packet the callback has just taken. -/
structure Connection where
  phase : Phase := .command
  receiver : Receiver
  endPackage : Option NetLayer := none

inductive Event
  | arrive (bytes : List UInt8)
  | enter
  | read
  /-- What a callback does at an end packet; `iRet` is whether `nolock_queue_init` works. -/
  | finish (s : Surroundings) (iRet : Bool)
  /-- `recv_stream_err_cb`. -/
  | error

def Complete (r : Receiver) : Prop :=
  packageExtraLen ≤ r.input.length ∧
    toSizeT (readNetLayer r.input).iActLength.toInt ≤ r.input.length

instance (r : Receiver) : Decidable (Complete r) := inferInstanceAs (Decidable (_ ∧ _))

namespace Connection

def read (c : Connection) : Connection :=
  if Complete c.receiver then
    match readPackage c.receiver with
    | none => { c with phase := .overrun }
    | some r =>
        { c with
          receiver := r
          endPackage :=
            if (readNetLayer c.receiver.input).byBlockEndFlag ≠ 0 then
              some (readNetLayer c.receiver.input)
            else none }
  else c

def finishCommand (iRet : Bool) (c : Connection) : Connection :=
  let answer := stringAt c.receiver.hGetStreamFromSource 0
  -- "SUCCESS"
  if [0x53, 0x55, 0x43, 0x43, 0x45, 0x53, 0x53] <:+: answer then
    { phase := if iRet then .stream else .closed
      receiver := { c.receiver with iRecvStreamDataLen := 0 } }
  else { phase := .closed, receiver := c.receiver }

def finishStream (s : Surroundings) (stPackage : NetLayer) (c : Connection) : Connection :=
  match endOfFrame s stPackage c.receiver with
  | .returned r => { phase := .stream, receiver := r }
  | .broken r => { phase := .closed, receiver := r }
  | .taskFailed r => { phase := .closed, receiver := r }
  | .overrun => { phase := .overrun, receiver := c.receiver }

def step (c : Connection) : Event → Connection
  | .arrive bytes => { c with receiver := { c.receiver with input := c.receiver.input ++ bytes } }
  | .enter =>
      -- `recv_cmd_from_hbserver` clears the front of the buffer
      if c.phase = .command ∧ c.endPackage = none then
        { c with
          receiver :=
            { c.receiver with
              hGetStreamFromSource :=
                List.replicate 2048 0 ++ c.receiver.hGetStreamFromSource.drop 2048 } }
      else c
  | .read =>
      if (c.phase = .command ∨ c.phase = .stream) ∧ c.endPackage = none then c.read else c
  | .finish s iRet =>
      match c.phase, c.endPackage with
      | .command, some _ => c.finishCommand iRet
      | .stream, some stPackage => c.finishStream s stPackage
      | _, _ => c
  | .error => if c.phase = .overrun then c else { c with phase := .closed }

/-- The states a run comes through. -/
def states (c : Connection) : List Event → List Connection
  | [] => [c]
  | e :: events => c :: states (c.step e) events

/-- The connection as `connect_event_cb` leaves it. -/
def start : Connection where
  receiver := { hGetStreamFromSource := List.replicate sourceBufferSize 0 }

/-! ## The callback as rounds -/

/-- A connection in the state a call of `recv_stream_cb` ends in. -/
def Shows : Outcome → Connection → Prop
  | .returned r, c => c = { phase := .stream, receiver := r }
  | .broken r, c | .taskFailed r, c => c = { phase := .closed, receiver := r }
  | .overrun, c => c.phase = .overrun

/-- A call of `recv_stream_cb` is a run of rounds. -/
theorem recvStreamCb_rounds (s : Surroundings) (r : Receiver) :
    ∃ events : List Event,
      Shows (recvStreamCb s r) (events.foldl step { phase := .stream, receiver := r }) := by
  fun_induction recvStreamCb s r with
  | case1 r hhead => exact ⟨[], rfl⟩
  | case2 r hhead hbody => exact ⟨[], rfl⟩
  | case3 r hhead hbody hread =>
      refine ⟨[.read], ?_⟩
      have hcomplete : Complete r := ⟨by omega, by omega⟩
      simp [step, read, hcomplete, hread, Shows]
  | case4 r hhead hbody r' hread hend =>
      refine ⟨[.read, .finish s true], ?_⟩
      have hcomplete : Complete r := ⟨by omega, by omega⟩
      have hstep : step { phase := .stream, receiver := r } .read =
          { phase := .stream, receiver := r', endPackage := some (readNetLayer r.input) } := by
        simp [step, read, hcomplete, hread, hend]
      rw [List.foldl_cons, hstep]
      simp only [List.foldl_cons, List.foldl_nil, step, finishStream]
      cases endOfFrame s (readNetLayer r.input) r' <;> rfl
  | case5 r hhead hbody r' hread hend ih =>
      obtain ⟨events, hevents⟩ := ih
      refine ⟨.read :: events, ?_⟩
      have hcomplete : Complete r := ⟨by omega, by omega⟩
      have hstep : step { phase := .stream, receiver := r } .read =
          { phase := .stream, receiver := r' } := by
        simp [step, read, hcomplete, hread, hend]
      rw [List.foldl_cons, hstep]
      exact hevents

/-! ## Staying inside the buffer -/

/-- No write has fallen outside, and the next one starts inside. -/
structure InBounds (c : Connection) : Prop where
  inside : c.phase ≠ .overrun
  nonneg : 0 ≤ c.receiver.iRecvStreamDataLen
  le : c.receiver.iRecvStreamDataLen ≤ sourceBufferSize

/-- What the packet at the front of the input may do: its payload fits behind what has been
collected; or its length field is below that of a header, so that all bytes behind the header
are read and less is counted, and both stay inside. -/
def Fits (r : Receiver) : Prop :=
  let iActLength := (readNetLayer r.input).iActLength.toInt
  if packageExtraLen ≤ iActLength then
    r.iRecvStreamDataLen + (iActLength - packageExtraLen) ≤ sourceBufferSize
  else
    packageExtraLen - iActLength ≤ r.iRecvStreamDataLen ∧
      r.iRecvStreamDataLen + (r.input.length - packageExtraLen : Nat) ≤ sourceBufferSize

/-- The condition on a step: a packet that is taken fits. -/
def Meets (c : Connection) : Event → Prop
  | .read =>
      (c.phase = .command ∨ c.phase = .stream) ∧ c.endPackage = none → Complete c.receiver →
        Fits c.receiver
  | .arrive _ | .enter | .finish _ _ | .error => True

def AllMeet (c : Connection) : List Event → Prop
  | [] => True
  | e :: events => c.Meets e ∧ AllMeet (c.step e) events

def Sized (c : Connection) : Prop :=
  c.receiver.hGetStreamFromSource.length = sourceBufferSize

section Read

variable {r r' : Receiver}

theorem readInto_isSome {buf bytes : List UInt8} {offset : Int} (hoffset : 0 ≤ offset) :
    (readInto buf offset bytes).isSome ↔ bytes = [] ∨ offset + bytes.length ≤ buf.length := by
  unfold readInto
  split
  · rename_i hnil
    simp [hnil]
  · rename_i hne
    rw [if_neg (by omega)]
    unfold writeAt
    split
    · rename_i hfit
      exact ⟨fun _ => .inr (by omega), fun _ => rfl⟩
    · rename_i hfit
      constructor
      · intro h
        cases h
      · rintro (hnil | hle)
        · exact absurd hnil hne
        · exact absurd (by omega) hfit

theorem length_of_readInto {buf bytes out : List UInt8} {offset : Int}
    (h : readInto buf offset bytes = some out) : out.length = buf.length := by
  unfold readInto at h
  split at h
  · rw [Option.some.inj h]
  · split at h
    · cases h
    · exact length_of_writeAt h

theorem toSizeT_of_nonneg {n : Int} (hlo : 0 ≤ n) (hhi : n < 4294967296) :
    toSizeT n = n.toNat := by
  unfold toSizeT
  rw [Int.emod_eq_of_lt hlo (by omega)]

theorem toSizeT_of_neg {n : Int} (hlo : -4294967296 ≤ n) (hhi : n < 0) :
    toSizeT n = (n + 18446744073709551616).toNat := by
  unfold toSizeT
  omega

theorem readPackage_some (h : readPackage r = some r') :
    r'.hGetStreamFromSource.length = r.hGetStreamFromSource.length ∧
      r'.iRecvStreamDataLen = toS32 (r.iRecvStreamDataLen +
        ((readNetLayer r.input).iActLength.toInt - packageExtraLen)) := by
  obtain ⟨buf, hread, rfl⟩ := Option.map_eq_some_iff.mp h
  exact ⟨length_of_readInto hread, rfl⟩

def bodyLength (r : Receiver) : Nat :=
  min (toSizeT ((readNetLayer r.input).iActLength.toInt - packageExtraLen))
    (r.input.length - packageExtraLen)

theorem readPackage_isSome (hnonneg : 0 ≤ r.iRecvStreamDataLen) :
    (readPackage r).isSome ↔ bodyLength r = 0 ∨
      r.iRecvStreamDataLen + bodyLength r ≤ r.hGetStreamFromSource.length := by
  have hlength : ((r.input.drop packageExtraLen).take
      (toSizeT ((readNetLayer r.input).iActLength.toInt - packageExtraLen))).length =
        bodyLength r := by
    rw [List.length_take, List.length_drop, bodyLength]
  unfold readPackage
  rw [Option.isSome_map, readInto_isSome hnonneg, ← List.length_eq_zero_iff, hlength]

/-- A packet that fits is read inside the buffer and counted inside; any other one is not. -/
theorem readPackage_iff (hsize : r.hGetStreamFromSource.length = sourceBufferSize)
    (hcomplete : Complete r) (hnonneg : 0 ≤ r.iRecvStreamDataLen)
    (hle : r.iRecvStreamDataLen ≤ sourceBufferSize) :
    (∃ r', readPackage r = some r' ∧ 0 ≤ r'.iRecvStreamDataLen ∧
      r'.iRecvStreamDataLen ≤ sourceBufferSize) ↔ Fits r := by
  have hsome := readPackage_isSome hnonneg
  obtain ⟨hhead, hbody⟩ := hcomplete
  have hlo := (readNetLayer r.input).iActLength.le_toInt
  have hhi := (readNetLayer r.input).iActLength.toInt_lt
  have hvalue : ∀ r', readPackage r = some r' → r'.iRecvStreamDataLen =
      toS32 (r.iRecvStreamDataLen +
        ((readNetLayer r.input).iActLength.toInt - packageExtraLen)) :=
    fun r' h => (readPackage_some h).2
  have hbodyLength : bodyLength r = min (toSizeT ((readNetLayer r.input).iActLength.toInt - 28))
    (r.input.length - 28) := rfl
  rw [hsize] at hsome
  unfold Fits
  unfold packageExtraLen at *
  generalize (readNetLayer r.input).iActLength.toInt = n at *
  have hmem : (∃ r', readPackage r = some r' ∧ 0 ≤ r'.iRecvStreamDataLen ∧
      r'.iRecvStreamDataLen ≤ sourceBufferSize) ↔ (readPackage r).isSome ∧
        0 ≤ toS32 (r.iRecvStreamDataLen + (n - 28)) ∧
        toS32 (r.iRecvStreamDataLen + (n - 28)) ≤ sourceBufferSize := by
    constructor
    · rintro ⟨r', hread, hbounds⟩
      rw [hvalue r' hread] at hbounds
      exact ⟨by rw [hread]; rfl, hbounds⟩
    · rintro ⟨hread, hbounds⟩
      obtain ⟨r', hread⟩ := Option.isSome_iff_exists.mp hread
      exact ⟨r', hread, by rw [hvalue r' hread]; exact hbounds⟩
  rw [hmem, hsome]
  have hbuffer : sourceBufferSize = 1048576 := rfl
  clear hvalue hsome hmem hsize
  rcases Int.lt_or_le n 28 with hshort | hlong
  · rw [if_neg (by omega)]
    have hbodySize := toSizeT_of_neg (n := n - 28) (by omega) (by omega)
    rcases Int.lt_or_le n 0 with hneg | hpos
    · -- a negative length is never complete, unless the input is longer than any memory
      have hactSize := toSizeT_of_neg (n := n) (by omega) hneg
      omega
    · rw [toS32_of_bounds (by omega) (by omega)]
      omega
  · rw [if_pos (by omega)]
    have hbodySize := toSizeT_of_nonneg (n := n - 28) (by omega) (by omega)
    have hactSize := toSizeT_of_nonneg (n := n) (by omega) (by omega)
    constructor
    · rintro ⟨hinside, -⟩
      omega
    · intro hfits
      rw [toS32_of_bounds (by omega) (by omega)]
      omega

end Read

section Step

variable {c : Connection}

theorem endOfFrame_keeps (s : Surroundings) (stPackage : NetLayer) (r : Receiver) :
    ∃ r', (endOfFrame s stPackage r = .returned r' ∨ endOfFrame s stPackage r = .broken r' ∨
        endOfFrame s stPackage r = .taskFailed r') ∧
      r'.hGetStreamFromSource = r.hGetStreamFromSource ∧
      (r'.iRecvStreamDataLen = 0 ∨ r'.iRecvStreamDataLen = r.iRecvStreamDataLen) := by
  unfold endOfFrame
  split
  · exact ⟨r, .inr (.inl rfl), rfl, .inr rfl⟩
  · split
    · exact ⟨r, .inr (.inr rfl), rfl, .inr rfl⟩
    · dsimp only
      split
      · exact ⟨_, .inl rfl, rfl, .inl rfl⟩
      · split
        · exact ⟨_, .inr (.inl rfl), rfl, .inr rfl⟩
        · exact ⟨_, .inl rfl, rfl, .inl rfl⟩

theorem finish_keeps (s : Surroundings) (iRet : Bool) (h : c.InBounds) (hsized : c.Sized) :
    (c.step (.finish s iRet)).InBounds ∧ (c.step (.finish s iRet)).Sized := by
  obtain ⟨hinside, hnonneg, hle⟩ := h
  have hzero : (0 : Int) ≤ sourceBufferSize := by decide
  simp only [step]
  split
  · unfold finishCommand
    dsimp only
    split
    · refine ⟨⟨?_, Int.le_refl 0, hzero⟩, hsized⟩
      cases iRet <;> simp
    · exact ⟨⟨by simp, hnonneg, hle⟩, hsized⟩
  · rename_i stPackage _ _
    obtain ⟨r', houtcome, hbuf, hlen⟩ := endOfFrame_keeps s stPackage c.receiver
    have hbounds : 0 ≤ r'.iRecvStreamDataLen ∧ r'.iRecvStreamDataLen ≤ sourceBufferSize := by
      rcases hlen with hlen | hlen
      · rw [hlen]
        exact ⟨Int.le_refl 0, hzero⟩
      · rw [hlen]
        exact ⟨hnonneg, hle⟩
    have hsized' : r'.hGetStreamFromSource.length = sourceBufferSize := by
      rw [hbuf]
      exact hsized
    unfold finishStream
    rcases houtcome with houtcome | houtcome | houtcome
    · rw [houtcome]
      exact ⟨⟨by simp, hbounds.1, hbounds.2⟩, hsized'⟩
    · rw [houtcome]
      exact ⟨⟨by simp, hbounds.1, hbounds.2⟩, hsized'⟩
    · rw [houtcome]
      exact ⟨⟨by simp, hbounds.1, hbounds.2⟩, hsized'⟩
  · exact ⟨⟨hinside, hnonneg, hle⟩, hsized⟩

theorem read_inBounds (h : c.InBounds) (hsized : c.Sized) (hcomplete : Complete c.receiver) :
    c.read.InBounds ↔ Fits c.receiver := by
  rw [← readPackage_iff hsized hcomplete h.nonneg h.le]
  unfold read
  rw [if_pos hcomplete]
  constructor
  · intro hread
    split at hread
    · exact absurd rfl hread.inside
    · rename_i r' hr'
      exact ⟨r', hr', hread.nonneg, hread.le⟩
  · rintro ⟨r', hr', hnonneg, hle⟩
    rw [hr']
    exact ⟨h.inside, hnonneg, hle⟩

theorem read_sized (hsized : c.Sized) : c.read.Sized := by
  unfold read
  split
  · split
    · exact hsized
    · rename_i r' hr'
      exact (readPackage_some hr').1.trans hsized
  · exact hsized

/-- **One step** stays in bounds exactly when it meets the condition. -/
theorem step_inBounds (e : Event) (h : c.InBounds) (hsized : c.Sized) :
    ((c.step e).InBounds ↔ c.Meets e) ∧ (c.step e).Sized := by
  cases e with
  | arrive bytes => exact ⟨⟨fun _ => trivial, fun _ => ⟨h.inside, h.nonneg, h.le⟩⟩, hsized⟩
  | enter =>
      simp only [step]
      split
      · refine ⟨⟨fun _ => trivial, fun _ => ⟨h.inside, h.nonneg, h.le⟩⟩, ?_⟩
        have hlen : c.receiver.hGetStreamFromSource.length = sourceBufferSize := hsized
        have hbuffer : sourceBufferSize = 1048576 := rfl
        unfold Sized
        dsimp only
        rw [List.length_append, List.length_replicate, List.length_drop]
        omega
      · exact ⟨⟨fun _ => trivial, fun _ => h⟩, hsized⟩
  | read =>
      simp only [step, Meets]
      by_cases hready : (c.phase = .command ∨ c.phase = .stream) ∧ c.endPackage = none
      · rw [if_pos hready]
        refine ⟨?_, read_sized hsized⟩
        by_cases hcomplete : Complete c.receiver
        · rw [read_inBounds h hsized hcomplete]
          exact ⟨fun hfits _ _ => hfits, fun hmeets => hmeets hready hcomplete⟩
        · have hwait : c.read = c := if_neg hcomplete
          rw [hwait]
          exact ⟨fun _ _ hc => absurd hc hcomplete, fun _ => h⟩
      · rw [if_neg hready]
        exact ⟨⟨fun _ hr => absurd hr hready, fun _ => h⟩, hsized⟩
  | finish s iRet =>
      obtain ⟨hbounds, hsized'⟩ := finish_keeps s iRet h hsized
      exact ⟨⟨fun _ => trivial, fun _ => hbounds⟩, hsized'⟩
  | error =>
      simp only [step]
      rw [if_neg h.inside]
      exact ⟨⟨fun _ => trivial, fun _ => ⟨by simp, h.nonneg, h.le⟩⟩, hsized⟩

/-- **A run** stays in bounds exactly when all its steps meet the condition. -/
theorem states_inBounds_from (events : List Event) :
    ∀ {c : Connection}, c.InBounds → c.Sized →
      ((∀ c' ∈ states c events, c'.InBounds) ↔ c.AllMeet events) := by
  induction events with
  | nil =>
      intro c h _
      exact ⟨fun _ => trivial, fun _ c' hc' => by rw [List.mem_singleton.mp hc']; exact h⟩
  | cons e events ih =>
      intro c h hsized
      obtain ⟨hstep, hsized'⟩ := step_inBounds e h hsized
      rw [states, List.forall_mem_cons, AllMeet, ← hstep]
      constructor
      · rintro ⟨-, hall⟩
        have hnext : (c.step e).InBounds := by
          apply hall
          cases events <;> exact List.mem_cons_self
        exact ⟨hnext, (ih hnext hsized').mp hall⟩
      · rintro ⟨hnext, hall⟩
        exact ⟨h, (ih hnext hsized').mpr hall⟩

end Step

theorem start_sized : start.Sized := List.length_replicate

theorem start_inBounds : start.InBounds := ⟨by decide, by decide, by decide⟩

end Connection

end GbStream.Recv
