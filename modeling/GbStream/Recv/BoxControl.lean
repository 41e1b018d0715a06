import GbStream.Support.Bytes
import GbStream.Support.Loop

/-!
# Commands to and from a box

`send_data_ep` and `recv_data_ep` of `net_api.c` move a number of bytes through a socket that
`epoll_wait` finds ready, in as many calls as it takes.
-/

namespace GbStream.Recv

open Support.Bytes Support.Loop

/-! ## Waiting for the socket -/

def epollIn : UInt32 := 0x001
def epollOut : UInt32 := 0x004
def eintr : Int := 4

/-- `struct epoll_event` -/
structure EpollEvent where
  events : UInt32
  fd : Int32

/-- What `epoll_wait` answers: `errno`, or the events; none are a timeout. -/
abbrev EpollWait := Except Int (List EpollEvent)

inductive Awaited
  | retry (sockfd : Int32)
  | failed (ret : Int)
  | ready (sockfd : Int32)

/-- The `for` loop: the first event with the flag decides. -/
def findSocket (flag : UInt32) (sockfd : Int32) (events : List EpollEvent) : Int32 :=
  match events.find? fun e => e.events &&& flag ≠ 0 with
  | some e => e.fd
  | none => sockfd

/-- The first half of a round of either loop; `sockfd` is the socket of an earlier one. -/
def awaitSocket (flag : UInt32) (sockfd : Int32) : EpollWait → Awaited
  | .error errno => if errno = eintr then .retry sockfd else .failed (-2)
  | .ok [] => .failed (-1)
  | .ok events =>
      if findSocket flag sockfd events = -1 then .retry (-1)
      else .ready (findSocket flag sockfd events)

structure Chunk where
  sockfd : Int32
  bytes : List UInt8

def bytesOf (chunks : List Chunk) : List UInt8 := chunks.flatMap Chunk.bytes

inductive Ended (τ : Type)
  | returned (ret : Int) (t : τ)
  | outOfBounds

/-! ## `send_data_ep` -/

/-- The place of `send_buf` in the buffer, `data_len`, and what the sockets have accepted. -/
structure Sending where
  sendBuf : Nat
  dataLen : Int
  sockfd : Int32
  accepted : List Chunk

def Sending.start (dataLen : Int) : Sending :=
  { sendBuf := 0, dataLen, sockfd := -1, accepted := [] }

/-- The answers of one round; `errno` is what it holds when `send` has returned. -/
structure SendRound where
  wait : EpollWait
  len : Int := 0
  errno : Int := 0

/-- The body of `while (data_len > 0)`; `send` reads no byte outside `buf` and accepts no more
than it is given. -/
def sendRound (buf : List UInt8) (t : Sending) (r : SendRound) : Flow Sending (Ended Sending) :=
  match awaitSocket epollOut t.sockfd r.wait with
  | .retry sockfd => .next { t with sockfd }
  | .failed ret => .leave (.returned ret t)
  | .ready sockfd =>
      if buf.length < t.sendBuf + t.dataLen then .leave .outOfBounds
      else if t.dataLen < r.len then .stuck
      else if r.len ≤ 0 then
        if r.errno = eintr then .next { t with sockfd }
        else .leave (.returned (-2) { t with sockfd })
      else
        .next
          { sendBuf := t.sendBuf + r.len.toNat
            dataLen := t.dataLen - r.len
            sockfd
            accepted := t.accepted ++ [⟨sockfd, slice buf t.sendBuf r.len.toNat⟩] }

def sendTest (t : Sending) : Option (Ended Sending) :=
  if t.dataLen > 0 then none else some (.returned 0 t)

def atOnce {ρ τ : Type} (rounds : List ρ) (e : Ended τ) : Option (Ended τ) :=
  if rounds.isEmpty then some e else none

/-- None if the call does not return after these rounds; `NULL` is `none`. -/
def sendDataEp (epfd : Int32) (sendBuf : Option (List UInt8)) (dataLen : Int)
    (rounds : List SendRound) : Option (Ended Sending) :=
  match sendBuf with
  | none => atOnce rounds (.returned (-1) (.start dataLen))
  | some buf =>
      if epfd < 0 ∨ dataLen ≤ 0 then atOnce rounds (.returned (-1) (.start dataLen))
      else whileLoop sendTest (sendRound buf) rounds (.start dataLen)

/-! ## `recv_data_ep` -/

/-- The buffer, the place of `ptr` in it, `nleft`, and what the sockets have delivered. -/
structure Receiving where
  recvBuf : List UInt8
  ptr : Nat
  nleft : Int
  sockfd : Int32
  received : List Chunk

/-- Without a buffer there is no memory to write to. -/
def Receiving.start (recvBuf : Option (List UInt8)) (recvDataLen : Int) : Receiving :=
  { recvBuf := recvBuf.getD [], ptr := 0, nleft := recvDataLen, sockfd := -1, received := [] }

/-- The answers of one round: `recv` gives `errno`, or bytes; none are the end of the stream. -/
structure RecvRound where
  wait : EpollWait
  recv : Except Int (List UInt8) := .ok []

/-- The body of `while (nleft > 0)`; `recv` may write where it is given room. -/
def recvRound (t : Receiving) (r : RecvRound) : Flow Receiving (Ended Receiving) :=
  match awaitSocket epollIn t.sockfd r.wait with
  | .retry sockfd => .next { t with sockfd }
  | .failed ret => .leave (.returned ret t)
  | .ready sockfd =>
      if t.recvBuf.length < t.ptr + t.nleft then .leave .outOfBounds
      else
        match r.recv with
        | .error errno =>
            if errno = eintr then .next { t with sockfd }
            else .leave (.returned (-2) { t with sockfd })
        | .ok [] => .leave (.returned 0 { t with sockfd })
        | .ok bytes =>
            if t.nleft < bytes.length then .stuck
            else
              match writeAt t.recvBuf t.ptr bytes with
              | none => .leave .outOfBounds
              | some recvBuf =>
                  .next
                    { recvBuf
                      ptr := t.ptr + bytes.length
                      nleft := t.nleft - bytes.length
                      sockfd
                      received := t.received ++ [⟨sockfd, bytes⟩] }

def recvTest (recvDataLen : Int) (t : Receiving) : Option (Ended Receiving) :=
  if t.nleft > 0 then none else some (.returned recvDataLen t)

def recvDataEp (epfd : Int32) (recvBuf : Option (List UInt8)) (recvDataLen : Int)
    (rounds : List RecvRound) : Option (Ended Receiving) :=
  match recvBuf with
  | none => atOnce rounds (.returned (-3) (.start recvBuf recvDataLen))
  | some _ =>
      if epfd ≤ 0 ∨ recvDataLen ≤ 0 then
        atOnce rounds (.returned (-3) (.start recvBuf recvDataLen))
      else whileLoop (recvTest recvDataLen) recvRound rounds (.start recvBuf recvDataLen)

/-! ## What a round does -/

section Wait

variable {flag : UInt32} {sockfd sockfd' fd : Int32} {wait : EpollWait} {ret : Int}

theorem awaitSocket_failed (h : awaitSocket flag sockfd wait = .failed ret) : ret < 0 := by
  unfold awaitSocket at h
  split at h
  · split at h <;> cases h
    decide
  · cases h
    decide
  · split at h <;> cases h

def OfSocket (fd : Int32) (wait : EpollWait) : Prop :=
  ∀ events, wait = .ok events → ∀ e ∈ events, e.fd = fd

theorem awaitSocket_retry (hsockfd : sockfd = -1 ∨ sockfd = fd)
    (h : awaitSocket flag sockfd wait = .retry sockfd') : sockfd' = -1 ∨ sockfd' = fd := by
  unfold awaitSocket at h
  split at h
  · split at h <;> cases h
    exact hsockfd
  · cases h
  · split at h <;> cases h
    exact .inl rfl

theorem awaitSocket_ready (hwait : OfSocket fd wait) (hsockfd : sockfd = -1 ∨ sockfd = fd)
    (h : awaitSocket flag sockfd wait = .ready sockfd') : sockfd' = fd := by
  unfold awaitSocket at h
  split at h
  · split at h <;> cases h
  · cases h
  · split at h
    · cases h
    · next events _ hfound =>
      cases h
      unfold findSocket at hfound ⊢
      split at hfound
      · next e hfind => exact hwait events rfl e (List.mem_of_find?_eq_some hfind)
      · exact hsockfd.resolve_left hfound

end Wait

def OneSocket (fd sockfd : Int32) (chunks : List Chunk) : Prop :=
  (sockfd = -1 ∨ sockfd = fd) ∧ ∀ c ∈ chunks, c.sockfd = fd

theorem OneSocket.append {fd sockfd sockfd' : Int32} {chunks : List Chunk} (bytes : List UInt8)
    (h : OneSocket fd sockfd chunks) (hfd : sockfd' = fd) :
    OneSocket fd sockfd' (chunks ++ [⟨sockfd', bytes⟩]) := by
  refine ⟨.inr hfd, fun c hmem => ?_⟩
  rcases List.mem_append.mp hmem with hold | hnew
  · exact h.2 c hold
  · rw [List.mem_singleton.mp hnew]
    exact hfd

theorem bytesOf_append (chunks : List Chunk) (c : Chunk) :
    bytesOf (chunks ++ [c]) = bytesOf chunks ++ c.bytes := by
  simp [bytesOf]

section Send

variable {buf : List UInt8} {dataLen : Int} {t t' : Sending} {r : SendRound} {e : Ended Sending}
  {rounds : List SendRound}

/-- What has been accepted is the part of the buffer in front of `send_buf`. -/
structure Sending.Inv (buf : List UInt8) (dataLen : Int) (rounds : List SendRound) (t : Sending) :
    Prop where
  placed : t.sendBuf + t.dataLen = dataLen
  nonneg : 0 ≤ t.dataLen
  sent : bytesOf t.accepted = buf.take t.sendBuf
  one : ∀ fd, (∀ r ∈ rounds, OfSocket fd r.wait) → OneSocket fd t.sockfd t.accepted

def Sending.Ends (buf : List UInt8) (dataLen : Int) (rounds : List SendRound)
    (e : Ended Sending) : Prop :=
  ∃ ret t, e = .returned ret t ∧ t.Inv buf dataLen rounds ∧
    (ret = 0 ∧ t.dataLen = 0 ∨ ret < 0 ∧ 0 < t.dataLen)

theorem Sending.Inv.ready {sockfd : Int32} (hinv : t.Inv buf dataLen rounds) (hr : r ∈ rounds)
    (h : awaitSocket epollOut t.sockfd r.wait = .ready sockfd) :
    Sending.Inv buf dataLen rounds { t with sockfd } where
  placed := hinv.placed
  nonneg := hinv.nonneg
  sent := hinv.sent
  one fd hfd := ⟨.inr (awaitSocket_ready (hfd r hr) (hinv.one fd hfd).1 h), (hinv.one fd hfd).2⟩

theorem sendTest_ends (hinv : t.Inv buf dataLen rounds) (h : sendTest t = some e) :
    Sending.Ends buf dataLen rounds e := by
  unfold sendTest at h
  split at h
  · cases h
  · next hnone =>
    cases h
    have hnonneg := hinv.nonneg
    exact ⟨0, t, rfl, hinv, .inl ⟨rfl, by omega⟩⟩

theorem sendTest_none (h : sendTest t = none) : 0 < t.dataLen := by
  unfold sendTest at h
  split at h
  · assumption
  · cases h

theorem sendRound_next (hr : r ∈ rounds) (hinv : t.Inv buf dataLen rounds)
    (h : sendRound buf t r = .next t') : t'.Inv buf dataLen rounds := by
  unfold sendRound at h
  split at h
  · next sockfd hretry =>
    cases h
    exact { hinv with
      one := fun fd hfd => ⟨awaitSocket_retry (hinv.one fd hfd).1 hretry, (hinv.one fd hfd).2⟩ }
  · cases h
  · next sockfd hready =>
    have hinv' := hinv.ready hr hready
    split at h
    · cases h
    split at h
    · cases h
    split at h
    · split at h
      · cases h
        exact hinv'
      · cases h
    · next hfit hasked hpos =>
      cases h
      have hplaced := hinv.placed
      have hlen : ((r.len.toNat : Nat) : Int) = r.len := Int.toNat_of_nonneg (by omega)
      exact {
        placed := by
          dsimp only
          omega
        nonneg := by
          dsimp only
          omega
        sent := by
          rw [bytesOf_append, hinv.sent, slice, List.take_add]
        one := fun fd hfd => (hinv.one fd hfd).append _
          (awaitSocket_ready (hfd r hr) (hinv.one fd hfd).1 hready) }

theorem sendRound_leave (hr : r ∈ rounds) (hbuf : dataLen ≤ buf.length)
    (hinv : t.Inv buf dataLen rounds) (hleft : 0 < t.dataLen) (h : sendRound buf t r = .leave e) :
    Sending.Ends buf dataLen rounds e := by
  unfold sendRound at h
  split at h
  · cases h
  · next ret hfailed =>
    cases h
    exact ⟨ret, t, rfl, hinv, .inr ⟨awaitSocket_failed hfailed, hleft⟩⟩
  · next sockfd hready =>
    split at h
    · next hout =>
      have hplaced := hinv.placed
      omega
    split at h
    · cases h
    split at h
    · split at h
      · cases h
      · cases h
        exact ⟨-2, _, rfl, hinv.ready hr hready, .inr ⟨by decide, hleft⟩⟩
    · cases h

theorem sendLoop_ends (hbuf : dataLen ≤ buf.length) (hinv : t.Inv buf dataLen rounds)
    (h : whileLoop sendTest (sendRound buf) rounds t = some e) :
    Sending.Ends buf dataLen rounds e :=
  whileLoop_invariant (Sending.Inv buf dataLen rounds) (Sending.Ends buf dataLen rounds)
    (fun _ _ ht htest => sendTest_ends ht htest)
    (fun _ hr _ _ ht _ hbody => sendRound_next hr ht hbody)
    (fun _ hr _ _ ht htest hbody => sendRound_leave hr hbuf ht (sendTest_none htest) hbody) hinv h

end Send

section Recv

variable {buf : List UInt8} {recvDataLen : Int} {t t' : Receiving} {r : RecvRound}
  {e : Ended Receiving} {rounds : List RecvRound}

/-- What has been delivered is the part of the buffer in front of `ptr`; behind it, the buffer is
as it was. -/
structure Receiving.Inv (buf : List UInt8) (recvDataLen : Int) (rounds : List RecvRound)
    (t : Receiving) : Prop where
  placed : t.ptr + t.nleft = recvDataLen
  nonneg : 0 ≤ t.nleft
  length : (bytesOf t.received).length = t.ptr
  stored : t.recvBuf = bytesOf t.received ++ buf.drop t.ptr
  one : ∀ fd, (∀ r ∈ rounds, OfSocket fd r.wait) → OneSocket fd t.sockfd t.received

def Receiving.Ends (buf : List UInt8) (recvDataLen : Int) (rounds : List RecvRound)
    (e : Ended Receiving) : Prop :=
  ∃ ret t, e = .returned ret t ∧ t.Inv buf recvDataLen rounds ∧
    (ret = recvDataLen ∧ t.nleft = 0 ∨ ret ≤ 0 ∧ 0 < t.nleft)

theorem Receiving.Inv.ready {sockfd : Int32} (hinv : t.Inv buf recvDataLen rounds)
    (hr : r ∈ rounds) (h : awaitSocket epollIn t.sockfd r.wait = .ready sockfd) :
    Receiving.Inv buf recvDataLen rounds { t with sockfd } where
  placed := hinv.placed
  nonneg := hinv.nonneg
  length := hinv.length
  stored := hinv.stored
  one fd hfd := ⟨.inr (awaitSocket_ready (hfd r hr) (hinv.one fd hfd).1 h), (hinv.one fd hfd).2⟩

theorem Receiving.Inv.room (hinv : t.Inv buf recvDataLen rounds) (hbuf : recvDataLen ≤ buf.length) :
    t.ptr + t.nleft ≤ t.recvBuf.length := by
  have hplaced := hinv.placed
  have hnonneg := hinv.nonneg
  rw [hinv.stored, List.length_append, hinv.length, List.length_drop]
  omega

theorem recvTest_ends (hinv : t.Inv buf recvDataLen rounds) (h : recvTest recvDataLen t = some e) :
    Receiving.Ends buf recvDataLen rounds e := by
  unfold recvTest at h
  split at h
  · cases h
  · next hnone =>
    cases h
    have hnonneg := hinv.nonneg
    exact ⟨recvDataLen, t, rfl, hinv, .inl ⟨rfl, by omega⟩⟩

theorem recvTest_none (h : recvTest recvDataLen t = none) : 0 < t.nleft := by
  unfold recvTest at h
  split at h
  · assumption
  · cases h

theorem recvRound_next (hr : r ∈ rounds) (hinv : t.Inv buf recvDataLen rounds)
    (h : recvRound t r = .next t') : t'.Inv buf recvDataLen rounds := by
  unfold recvRound at h
  split at h
  · next sockfd hretry =>
    cases h
    exact { hinv with
      one := fun fd hfd => ⟨awaitSocket_retry (hinv.one fd hfd).1 hretry, (hinv.one fd hfd).2⟩ }
  · cases h
  · next sockfd hready =>
    have hinv' := hinv.ready hr hready
    split at h
    · cases h
    split at h
    · split at h <;> cases h
      exact hinv'
    · cases h
    · next bytes _ hrecv =>
      split at h
      · cases h
      split at h
      · cases h
      · next hasked recvBuf hwrite =>
        cases h
        obtain ⟨-, rfl⟩ := writeAt_inv hwrite
        have hplaced := hinv.placed
        exact {
          placed := by
            push_cast
            omega
          nonneg := by
            dsimp only
            omega
          length := by
            rw [bytesOf_append, List.length_append, hinv.length]
          stored := by
            have hfront : t.recvBuf.take t.ptr = bytesOf t.received := by
              rw [hinv.stored, List.take_left' hinv.length]
            have hbehind : t.recvBuf.drop (t.ptr + bytes.length) =
                buf.drop (t.ptr + bytes.length) := by
              rw [← List.drop_drop, hinv.stored, List.drop_left' hinv.length, List.drop_drop]
            rw [bytesOf_append, hfront, hbehind]
          one := fun fd hfd => (hinv.one fd hfd).append _
            (awaitSocket_ready (hfd r hr) (hinv.one fd hfd).1 hready) }

theorem recvRound_leave (hr : r ∈ rounds) (hbuf : recvDataLen ≤ buf.length)
    (hinv : t.Inv buf recvDataLen rounds) (hleft : 0 < t.nleft) (h : recvRound t r = .leave e) :
    Receiving.Ends buf recvDataLen rounds e := by
  have hroom := hinv.room hbuf
  unfold recvRound at h
  split at h
  · cases h
  · next ret hfailed =>
    cases h
    exact ⟨ret, t, rfl, hinv, .inr ⟨(awaitSocket_failed hfailed).le, hleft⟩⟩
  · next sockfd hready =>
    have hinv' := hinv.ready hr hready
    split at h
    · omega
    split at h
    · split at h <;> cases h
      exact ⟨-2, _, rfl, hinv', .inr ⟨by decide, hleft⟩⟩
    · cases h
      exact ⟨0, _, rfl, hinv', .inr ⟨by decide, hleft⟩⟩
    · next bytes _ hrecv =>
      split at h
      · cases h
      split at h
      · next hasked hwrite =>
        -- the bytes fit, since no more of them came than there is room for
        obtain ⟨out, hout⟩ := writeAt_isSome
          (show t.ptr + bytes.length ≤ t.recvBuf.length by omega)
        rw [hwrite] at hout
        cases hout
      · cases h

theorem recvLoop_ends (hbuf : recvDataLen ≤ buf.length) (hinv : t.Inv buf recvDataLen rounds)
    (h : whileLoop (recvTest recvDataLen) recvRound rounds t = some e) :
    Receiving.Ends buf recvDataLen rounds e :=
  whileLoop_invariant (Receiving.Inv buf recvDataLen rounds) (Receiving.Ends buf recvDataLen rounds)
    (fun _ _ ht htest => recvTest_ends ht htest)
    (fun _ hr _ _ ht _ hbody => recvRound_next hr ht hbody)
    (fun _ hr _ _ ht htest hbody => recvRound_leave hr hbuf ht (recvTest_none htest) hbody) hinv h

end Recv

/-! ## What a call reports -/

/-- The return value of `send_data_ep` against what the sockets have accepted. -/
structure SendReport (buf : List UInt8) (dataLen : Int) (rounds : List SendRound) (ret : Int)
    (t : Sending) : Prop where
  all : ret = 0 ↔ bytesOf t.accepted = buf.take dataLen.toNat
  part : bytesOf t.accepted <+: buf.take dataLen.toNat
  ret_le : ret ≤ 0
  one : ∀ fd, (∀ r ∈ rounds, OfSocket fd r.wait) → ∀ c ∈ t.accepted, c.sockfd = fd

/-- The return value of `recv_data_ep` against what is in the buffer. -/
structure RecvReport (buf : List UInt8) (recvDataLen : Int) (rounds : List RecvRound) (ret : Int)
    (t : Receiving) : Prop where
  all : ret = recvDataLen ↔ bytesOf t.received = t.recvBuf.take recvDataLen.toNat
  part : (bytesOf t.received).length ≤ recvDataLen
  stored : t.recvBuf = bytesOf t.received ++ buf.drop (bytesOf t.received).length
  ret_le : ret ≠ recvDataLen → ret ≤ 0
  one : ∀ fd, (∀ r ∈ rounds, OfSocket fd r.wait) → ∀ c ∈ t.received, c.sockfd = fd

/-- Arguments that the check refuses are reported at once; the others as `SendReport` says. -/
structure Sends (epfd : Int32) (sendBuf : Option (List UInt8)) (dataLen : Int)
    (rounds : List SendRound) (e : Ended Sending) : Prop where
  refused : epfd < 0 ∨ sendBuf = none ∨ dataLen ≤ 0 →
    rounds = [] ∧ e = .returned (-1) (.start dataLen)
  report : ∀ buf, 0 ≤ epfd → sendBuf = some buf → 0 < dataLen →
    ∃ ret t, e = .returned ret t ∧ SendReport buf dataLen rounds ret t

structure Receives (epfd : Int32) (recvBuf : Option (List UInt8)) (recvDataLen : Int)
    (rounds : List RecvRound) (e : Ended Receiving) : Prop where
  refused : epfd ≤ 0 ∨ recvBuf = none ∨ recvDataLen ≤ 0 →
    rounds = [] ∧ e = .returned (-3) (.start recvBuf recvDataLen)
  report : ∀ buf, 0 < epfd → recvBuf = some buf → 0 < recvDataLen →
    ∃ ret t, e = .returned ret t ∧ RecvReport buf recvDataLen rounds ret t

theorem atOnce_inv {ρ τ : Type} {rounds : List ρ} {e e' : Ended τ}
    (h : atOnce rounds e = some e') : rounds = [] ∧ e' = e := by
  unfold atOnce at h
  split at h
  · next hempty => exact ⟨List.isEmpty_iff.mp hempty, (Option.some.inj h).symm⟩
  · cases h

section Send

variable {epfd : Int32} {buf : List UInt8} {sendBuf : Option (List UInt8)} {dataLen : Int}
  {rounds : List SendRound} {e : Ended Sending}

theorem Sending.Ends.report (hbuf : dataLen ≤ buf.length)
    (h : Sending.Ends buf dataLen rounds e) :
    ∃ ret t, e = .returned ret t ∧ SendReport buf dataLen rounds ret t := by
  obtain ⟨ret, t, rfl, hinv, hret⟩ := h
  have hplaced := hinv.placed
  have hnonneg := hinv.nonneg
  refine ⟨ret, t, rfl, ?_, ?_, ?_, fun fd hfd => (hinv.one fd hfd).2⟩
  · rw [hinv.sent]
    constructor
    · intro hzero
      have hall : t.sendBuf = dataLen.toNat := by omega
      rw [hall]
    · intro heq
      have hlen := congrArg List.length heq
      rw [List.length_take, List.length_take] at hlen
      omega
  · rw [hinv.sent]
    exact List.take_prefix_take_left (by omega)
  · omega

theorem sendDataEp_sends (hbuf : ∀ buf, sendBuf = some buf → dataLen ≤ buf.length)
    (h : sendDataEp epfd sendBuf dataLen rounds = some e) :
    Sends epfd sendBuf dataLen rounds e := by
  unfold sendDataEp at h
  split at h
  · exact ⟨fun _ => atOnce_inv h, fun buf _ hnull => by cases hnull⟩
  · next buf =>
    split at h
    · next hcheck =>
      refine ⟨fun _ => atOnce_inv h, fun buf hepfd _ hlen => ?_⟩
      rcases hcheck with hneg | hle
      · exact absurd hneg (Int32.not_lt.mpr hepfd)
      · omega
    · next hcheck =>
      have hstart : (Sending.start dataLen).Inv buf dataLen rounds := {
        placed := by simp [Sending.start]
        nonneg := by
          simp only [Sending.start]
          omega
        sent := rfl
        one := fun fd _ => ⟨.inl rfl, fun c hc => by cases hc⟩ }
      refine ⟨?_, ?_⟩
      · rintro (hneg | hnull | hle)
        · exact absurd (.inl hneg) hcheck
        · cases hnull
        · exact absurd (.inr hle) hcheck
      · rintro buf' - hsome -
        cases hsome
        exact (sendLoop_ends (hbuf buf rfl) hstart h).report (hbuf buf rfl)

end Send

section Recv

variable {epfd : Int32} {buf : List UInt8} {recvBuf : Option (List UInt8)} {recvDataLen : Int}
  {rounds : List RecvRound} {e : Ended Receiving}

theorem Receiving.Ends.report (hbuf : recvDataLen ≤ buf.length) (hpos : 0 < recvDataLen)
    (h : Receiving.Ends buf recvDataLen rounds e) :
    ∃ ret t, e = .returned ret t ∧ RecvReport buf recvDataLen rounds ret t := by
  obtain ⟨ret, t, rfl, hinv, hret⟩ := h
  have hplaced := hinv.placed
  have hnonneg := hinv.nonneg
  have hroom := hinv.room hbuf
  refine ⟨ret, t, rfl, ?_, ?_, ?_, ?_, fun fd hfd => (hinv.one fd hfd).2⟩
  · constructor
    · intro hall
      have hlen : (bytesOf t.received).length = recvDataLen.toNat := by
        rw [hinv.length]
        omega
      rw [hinv.stored, List.take_left' hlen]
    · intro heq
      have hlen := congrArg List.length heq
      rw [hinv.length, List.length_take] at hlen
      omega
  · rw [hinv.length]
    omega
  · rw [hinv.length]
    exact hinv.stored
  · omega

theorem recvDataEp_receives (hbuf : ∀ buf, recvBuf = some buf → recvDataLen ≤ buf.length)
    (h : recvDataEp epfd recvBuf recvDataLen rounds = some e) :
    Receives epfd recvBuf recvDataLen rounds e := by
  unfold recvDataEp at h
  split at h
  · exact ⟨fun _ => atOnce_inv h, fun buf _ hnull => by cases hnull⟩
  · next buf =>
    split at h
    · next hcheck =>
      refine ⟨fun _ => atOnce_inv h, fun buf hepfd _ hlen => ?_⟩
      rcases hcheck with hle | hle
      · exact absurd hle (Int32.not_le.mpr hepfd)
      · omega
    · next hcheck =>
      have hstart : (Receiving.start (some buf) recvDataLen).Inv buf recvDataLen rounds := {
        placed := by simp [Receiving.start]
        nonneg := by
          simp only [Receiving.start]
          omega
        length := rfl
        stored := rfl
        one := fun fd _ => ⟨.inl rfl, fun c hc => by cases hc⟩ }
      refine ⟨?_, ?_⟩
      · rintro (hle | hnull | hle)
        · exact absurd (.inl hle) hcheck
        · cases hnull
        · exact absurd (.inr hle) hcheck
      · rintro buf' - hsome hpos
        cases hsome
        exact (recvLoop_ends (hbuf buf rfl) hstart h).report (hbuf buf rfl) hpos

end Recv

/-- Whatever `epoll_wait`, `send` and `recv` answer: both calls report success exactly when all
bytes have moved, in order; otherwise a part has, from the start on. -/
theorem dataEp_reports :
    (∀ epfd sendBuf dataLen rounds e, (∀ buf, sendBuf = some buf → dataLen ≤ buf.length) →
      sendDataEp epfd sendBuf dataLen rounds = some e → Sends epfd sendBuf dataLen rounds e) ∧
    ∀ epfd recvBuf recvDataLen rounds e,
      (∀ buf, recvBuf = some buf → recvDataLen ≤ buf.length) →
      recvDataEp epfd recvBuf recvDataLen rounds = some e →
        Receives epfd recvBuf recvDataLen rounds e :=
  ⟨fun _ _ _ _ _ hbuf h => sendDataEp_sends hbuf h,
    fun _ _ _ _ _ hbuf h => recvDataEp_receives hbuf h⟩

/-- Both move three bytes in two parts, with an interrupted call between them. -/
theorem dataEp_reports_interrupted :
    (∃ t, Sends 5 (some [1, 2, 3]) 3
      [{ wait := .ok [⟨epollOut, 7⟩], len := 2 }, { wait := .error eintr },
        { wait := .ok [⟨epollOut, 7⟩], len := -1, errno := eintr },
        { wait := .ok [⟨epollOut, 7⟩], len := 1 }] (.returned 0 t)) ∧
    ∃ t, Receives 5 (some [0, 0, 0, 9]) 3
      [{ wait := .ok [⟨epollIn, 7⟩], recv := .ok [1] },
        { wait := .ok [⟨0, 7⟩], recv := .error eintr },
        { wait := .ok [⟨epollIn, 7⟩], recv := .ok [2, 3] }] (.returned 3 t) :=
  ⟨⟨_, dataEp_reports.1 5 (some [1, 2, 3]) 3 _ _ (by rintro _ ⟨⟩; decide) rfl⟩,
    ⟨_, dataEp_reports.2 5 (some [0, 0, 0, 9]) 3 _ _ (by rintro _ ⟨⟩; decide) rfl⟩⟩

/-- Of no bytes, all have moved, but the call has refused its arguments. -/
theorem sendDataEp_nothing :
    ¬ ∀ ret t, sendDataEp 5 (some [7]) 0 [] = some (.returned ret t) →
      (ret = 0 ↔ bytesOf t.accepted = ([7] : List UInt8).take 0) := by
  intro hclaim
  have hret := (hclaim (-1) (.start 0) rfl).mpr rfl
  cases hret

end GbStream.Recv
