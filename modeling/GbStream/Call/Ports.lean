import GbStream.Support.Loop
import GbStream.Call.SipTable

/-!
# The ports of a call

`udp_bind_local_port` of `sip_hash.c` looks for an even port that can be bound and, with RTCP,
for an odd one behind it.  The port is an `int`, of which `htons` keeps 16 bits.
-/

namespace GbStream.Call

open Support.Bytes Support.Loop

/-! ## Sockets and their ports -/

abbrev PortNumber := {port : Nat // 0 < port ∧ port < 65536}

/-- The sockets and ports of the call and its open descriptors, each with the port that it is
bound to. -/
structure PortState extends Sockets where
  opened : Int32 → Option (Option PortNumber)

variable {s s' : PortState} {fd fd' : Int32} {sin_port : UInt16} {answer : Option PortNumber}

/-- `socket()`; a descriptor that is open is not given out again. -/
def PortState.socket (s : PortState) (fd : Int32) : Option PortState :=
  if fd < 0 then some s
  else if s.opened fd = none then
    some { s with opened := Function.update s.opened fd (some none) }
  else none

def PortState.openRtp (s : PortState) (fd : Int32) : Option PortState :=
  (s.socket fd).map fun s => { s with iUdpSendStreamSockFd := fd }

def PortState.openRtcp (s : PortState) (fd : Int32) : Option PortState :=
  (s.socket fd).map fun s => { s with iUdpRtcpSockFd := fd }

/-- `close()` -/
def PortState.close (s : PortState) (fd : Int32) : PortState :=
  { s with opened := Function.update s.opened fd none }

def portNamed (sin_port : UInt16) : Nat := be16 sin_port.toUInt8 (sin_port >>> 8).toUInt8

theorem portNamed_lt : portNamed sin_port < 65536 := by
  have hhi := sin_port.toUInt8.toNat_lt
  have hlo := (sin_port >>> 8).toUInt8.toNat_lt
  unfold portNamed be16
  omega

/-- What a socket is bound to: the port named, or the one that the kernel has chosen. -/
def boundPort (sin_port : UInt16) (chosen : PortNumber) : PortNumber :=
  if h : 0 < portNamed sin_port then ⟨portNamed sin_port, h, portNamed_lt⟩ else chosen

/-- `bind()`; `none` is a failure, which a descriptor that is closed or bound always is. -/
def PortState.bind (s : PortState) (fd : Int32) (sin_port : UInt16) (answer : Option PortNumber) :
    Option PortState :=
  match s.opened fd, answer with
  | some none, some chosen =>
      some { s with
        opened := Function.update s.opened fd (some (some (boundPort sin_port chosen))) }
  | _, _ => none

/-! ## The loop -/

/-- `rand() % (iEndNum - iStartNum) + iStartNum` -/
def randomNumber (rand iStartNum iEndNum : Int32) : Int32 :=
  rand % (iEndNum - iStartNum) + iStartNum

/-- `htons` of an `int`. -/
def sinPort (port : Int32) : UInt16 := htons port.toUInt32.toUInt16

/-- What the calls of one round answer: the two `bind()`, and `socket()` if it is called. -/
structure Round where
  rtp : Option PortNumber
  rtcp : Option PortNumber := none
  socket : Int32 := -1

def PortState.nextPort (s : PortState) : PortState :=
  { s with iUdpSendStreamPort := s.iUdpSendStreamPort + 2 }

/-- The body of `while (1)`. -/
def bindRound (iUseRtcpFlag : Bool) (s : PortState) (r : Round) : Flow PortState PortState :=
  match s.bind s.iUdpSendStreamSockFd (sinPort s.iUdpSendStreamPort) r.rtp with
  | none => .next s.nextPort
  | some s =>
      if iUseRtcpFlag then
        let s := { s with iUdpRtcpListenPort := s.iUdpSendStreamPort + 1 }
        match s.bind s.iUdpRtcpSockFd (sinPort s.iUdpRtcpListenPort) r.rtcp with
        | none =>
            match (s.close s.iUdpSendStreamSockFd).nextPort.openRtp r.socket with
            | none => .stuck
            | some s => .next s
        | some s => .leave s
      else .leave s

def bindLoop (iUseRtcpFlag : Bool) : List Round → PortState → Option PortState :=
  whileLoop (fun _ => none) (bindRound iUseRtcpFlag)

/-- The node is cleared before; `rtp` and `rtcp` are the first two descriptors. -/
def udpBindLocalPort (iUseRtcpFlag : Bool) (rand rtp rtcp : Int32) (rounds : List Round) :
    Option PortState := do
  let s ← PortState.openRtp ⟨⟨0, 0, 0, 0⟩, fun _ => none⟩ rtp
  let s ← (if iUseRtcpFlag then s.openRtcp rtcp else some s)
  bindLoop iUseRtcpFlag rounds { s with iUdpSendStreamPort := 2 * randomNumber rand 10000 20000 }

/-! ## One call each -/

theorem PortState.socket_inv (h : s.socket fd = some s') :
    s'.toSockets = s.toSockets ∧
      ∀ fd', s'.opened fd' ≠ none → fd' = fd ∧ 0 ≤ fd ∨ s.opened fd' ≠ none := by
  unfold PortState.socket at h
  split at h
  · cases h
    exact ⟨rfl, fun fd' hopen => .inr hopen⟩
  · next hvalid =>
    split at h
    · cases h
      refine ⟨rfl, fun fd' hopen => ?_⟩
      by_cases heq : fd' = fd
      · exact .inl ⟨heq, Int32.not_lt.mp hvalid⟩
      · exact .inr (by simpa only [Function.update_of_ne heq] using hopen)
    · cases h

theorem PortState.openRtp_inv (h : s.openRtp fd = some s') :
    s'.toSockets = { s.toSockets with iUdpSendStreamSockFd := fd } ∧
      ∀ fd', s'.opened fd' ≠ none → fd' = fd ∧ 0 ≤ fd ∨ s.opened fd' ≠ none := by
  obtain ⟨t, hsocket, rfl⟩ := Option.map_eq_some_iff.mp h
  obtain ⟨hnode, hopened⟩ := PortState.socket_inv hsocket
  exact ⟨by rw [← hnode], hopened⟩

theorem PortState.openRtcp_inv (h : s.openRtcp fd = some s') :
    s'.toSockets = { s.toSockets with iUdpRtcpSockFd := fd } ∧
      ∀ fd', s'.opened fd' ≠ none → fd' = fd ∧ 0 ≤ fd ∨ s.opened fd' ≠ none := by
  obtain ⟨t, hsocket, rfl⟩ := Option.map_eq_some_iff.mp h
  obtain ⟨hnode, hopened⟩ := PortState.socket_inv hsocket
  exact ⟨by rw [← hnode], hopened⟩

theorem PortState.opened_of_bind (h : s.bind fd sin_port answer = some s') :
    ∃ bound, s'.opened fd = some (some bound) := by
  unfold PortState.bind at h
  split at h
  · cases h
    exact ⟨_, Function.update_self _ _ _⟩
  · cases h

theorem PortState.bind_inv (h : s.bind fd sin_port answer = some s') :
    ∃ chosen, s.opened fd = some none ∧ s' = { s with
      opened := Function.update s.opened fd (some (some (boundPort sin_port chosen))) } := by
  unfold PortState.bind at h
  split at h
  · next chosen hfd =>
    cases h
    exact ⟨chosen, hfd, rfl⟩
  · cases h

theorem portNamed_sinPort (port : Int32) :
    portNamed (sinPort port) = port.toUInt32.toUInt16.toNat := by
  have hbytes := le16_htons port.toUInt32.toUInt16
  rw [le16, List.cons.injEq, List.cons.injEq] at hbytes
  rw [portNamed, sinPort, hbytes.1, hbytes.2.1, be16_bytes]

theorem portNamed_of_bounds {port : Int32} (hlo : 0 < port.toInt) (hhi : port.toInt < 65536) :
    (portNamed (sinPort port) : Int) = port.toInt := by
  have hword : port.toUInt32.toNat = port.toBitVec.toNat := rfl
  have hint := BitVec.toInt_eq_toNat_cond port.toBitVec
  rw [Int32.toInt_toBitVec] at hint
  rw [portNamed_sinPort, UInt32.toNat_toUInt16, hword]
  omega

/-- A socket is bound to the number that was asked for exactly when that is a port. -/
theorem boundPort_sinPort {port : Int32} {chosen : PortNumber} :
    ((boundPort (sinPort port) chosen : Nat) : Int) = port.toInt ↔
      0 < port.toInt ∧ port.toInt < 65536 := by
  constructor
  · intro heq
    have hport := (boundPort (sinPort port) chosen).property
    omega
  · rintro ⟨hlo, hhi⟩
    have hnamed := portNamed_of_bounds hlo hhi
    rw [boundPort, dif_pos (by omega)]
    exact hnamed

/-! ## The loop is left -/

/-- The descriptors that are open are those of the node. -/
def Kept (iUseRtcpFlag : Bool) (s : PortState) : Prop :=
  ∀ fd, s.opened fd ≠ none →
    fd = s.iUdpSendStreamSockFd ∨ iUseRtcpFlag = true ∧ fd = s.iUdpRtcpSockFd

/-- The state in which the loop is left once `port` could be bound. -/
structure Left (iUseRtcpFlag : Bool) (port : Int32) (s : PortState) : Prop where
  reached : s.iUdpSendStreamPort = port
  rtp : ∃ chosen, s.opened s.iUdpSendStreamSockFd = some (some (boundPort (sinPort port) chosen))
  rtcp : iUseRtcpFlag = true → s.iUdpRtcpListenPort = port + 1 ∧
    ∃ chosen, s.opened s.iUdpRtcpSockFd = some (some (boundPort (sinPort (port + 1)) chosen))
  differ : iUseRtcpFlag = true → s.iUdpRtcpSockFd ≠ s.iUdpSendStreamSockFd
  kept : Kept iUseRtcpFlag s

variable {iUseRtcpFlag : Bool} {rounds : List Round} {r : Round} {port : Int32}

theorem Kept.bind (hkept : Kept iUseRtcpFlag s) (h : s.bind fd sin_port answer = some s') :
    Kept iUseRtcpFlag s' := by
  obtain ⟨chosen, hfd, rfl⟩ := PortState.bind_inv h
  intro fd' hopen
  by_cases heq : fd' = fd
  · subst heq
    exact hkept fd' (by simp [hfd])
  · exact hkept fd' (by simpa only [Function.update_of_ne heq] using hopen)

/-- The socket that is given up is closed before its descriptor is replaced. -/
theorem Kept.renew (hkept : Kept iUseRtcpFlag s)
    (h : (s.close s.iUdpSendStreamSockFd).nextPort.openRtp fd = some s') :
    Kept iUseRtcpFlag s' := by
  obtain ⟨hnode, hopened⟩ := PortState.openRtp_inv h
  intro fd' hopen
  obtain ⟨heq, -⟩ | hopen := hopened fd' hopen
  · exact .inl (heq.trans (congrArg Sockets.iUdpSendStreamSockFd hnode).symm)
  · by_cases heq : fd' = s.iUdpSendStreamSockFd
    · subst heq
      exact absurd (Function.update_self _ _ _) hopen
    · obtain hrtp | ⟨hflag, hrtcp⟩ :=
        hkept fd' (by simpa only [PortState.nextPort, PortState.close,
          Function.update_of_ne heq] using hopen)
      · exact absurd hrtp heq
      · refine .inr ⟨hflag, ?_⟩
        rw [hrtcp]
        exact (congrArg Sockets.iUdpRtcpSockFd hnode).symm

theorem Left.of_bind {r : Option PortNumber} {t : PortState} (hkept : Kept iUseRtcpFlag s)
    (hrtp : s.bind s.iUdpSendStreamSockFd (sinPort s.iUdpSendStreamPort) answer = some t)
    (hrtcp : if iUseRtcpFlag then
      PortState.bind { t with iUdpRtcpListenPort := t.iUdpSendStreamPort + 1 } t.iUdpRtcpSockFd
        (sinPort (t.iUdpSendStreamPort + 1)) r = some s'
      else s' = t) :
    Left iUseRtcpFlag s.iUdpSendStreamPort s' := by
  have hkept' := hkept.bind hrtp
  obtain ⟨chosen, -, rfl⟩ := PortState.bind_inv hrtp
  cases iUseRtcpFlag with
  | false =>
    cases hrtcp
    exact {
      reached := rfl
      rtp := ⟨chosen, Function.update_self _ _ _⟩
      rtcp := by simp
      differ := by simp
      kept := hkept' }
  | true =>
    obtain ⟨chosen', hfd, rfl⟩ := PortState.bind_inv hrtcp
    have hne : s.iUdpSendStreamSockFd ≠ s.iUdpRtcpSockFd := by
      intro heq
      rw [← heq] at hfd
      obtain ⟨bound, hbound⟩ := PortState.opened_of_bind hrtp
      cases hbound.symm.trans hfd
    exact {
      reached := rfl
      rtp := ⟨chosen, by simp [hne]⟩
      rtcp := fun _ => ⟨rfl, chosen', Function.update_self _ _ _⟩
      differ := fun _ => hne.symm
      kept := Kept.bind (by exact hkept') hrtcp }

/-- A round that fails keeps the socket or, when the RTCP port is refused, replaces it. -/
theorem bindRound_next_inv (h : bindRound iUseRtcpFlag s r = .next s') :
    s' = s.nextPort ∨ ∃ t : PortState,
      s.bind s.iUdpSendStreamSockFd (sinPort s.iUdpSendStreamPort) r.rtp = some t ∧
      iUseRtcpFlag = true ∧
      (PortState.close { t with iUdpRtcpListenPort := t.iUdpSendStreamPort + 1 }
        t.iUdpSendStreamSockFd).nextPort.openRtp r.socket = some s' := by
  unfold bindRound at h
  split at h
  · cases h
    exact .inl rfl
  · next t hrtp =>
    cases iUseRtcpFlag with
    | false => cases h
    | true =>
      simp only [if_true] at h
      split at h
      · split at h
        · cases h
        · next u hopen =>
          cases h
          exact .inr ⟨t, hrtp, rfl, hopen⟩
      · cases h

theorem bindRound_leave_inv (h : bindRound iUseRtcpFlag s r = .leave s') :
    ∃ t, s.bind s.iUdpSendStreamSockFd (sinPort s.iUdpSendStreamPort) r.rtp = some t ∧
      if iUseRtcpFlag then
        PortState.bind { t with iUdpRtcpListenPort := t.iUdpSendStreamPort + 1 } t.iUdpRtcpSockFd
          (sinPort (t.iUdpSendStreamPort + 1)) r.rtcp = some s'
      else s' = t := by
  unfold bindRound at h
  split at h
  · cases h
  · next t hrtp =>
    refine ⟨t, hrtp, ?_⟩
    cases iUseRtcpFlag with
    | false =>
      cases h
      rfl
    | true =>
      simp only [if_true] at h
      split at h
      · split at h <;> cases h
      · next u hrtcp =>
        cases h
        exact hrtcp

theorem bindRound_next (h : bindRound iUseRtcpFlag s r = .next s') (hkept : Kept iUseRtcpFlag s) :
    s'.iUdpSendStreamPort = s.iUdpSendStreamPort + 2 ∧ Kept iUseRtcpFlag s' := by
  obtain rfl | ⟨t, hrtp, -, hopen⟩ := bindRound_next_inv h
  · exact ⟨rfl, hkept⟩
  · have hkept' := hkept.bind hrtp
    have hlisten : Kept iUseRtcpFlag { t with iUdpRtcpListenPort := t.iUdpSendStreamPort + 1 } :=
      hkept'
    refine ⟨?_, hlisten.renew hopen⟩
    have hport := congrArg Sockets.iUdpSendStreamPort (PortState.openRtp_inv hopen).1
    obtain ⟨chosen, -, rfl⟩ := PortState.bind_inv hrtp
    exact hport

theorem bindRound_leave (h : bindRound iUseRtcpFlag s r = .leave s') (hkept : Kept iUseRtcpFlag s) :
    Left iUseRtcpFlag s.iUdpSendStreamPort s' := by
  obtain ⟨t, hrtp, hrtcp⟩ := bindRound_leave_inv h
  exact Left.of_bind hkept hrtp hrtcp

theorem bindLoop_left (h : bindLoop iUseRtcpFlag rounds s = some s') (hkept : Kept iUseRtcpFlag s) :
    Left iUseRtcpFlag (s.iUdpSendStreamPort + 2 * Int32.ofNat (rounds.length - 1)) s' := by
  have hloop := whileLoop_counted
    (fun failed t => t.iUdpSendStreamPort = s.iUdpSendStreamPort + 2 * Int32.ofNat failed ∧
      Kept iUseRtcpFlag t)
    (fun n t => Left iUseRtcpFlag (s.iUdpSendStreamPort + 2 * Int32.ofNat (n - 1)) t)
    (fun n t u _ htest => by cases htest)
    (fun r _ n t u ht _ hbody => ?_)
    (fun r _ n t u ht _ hbody => ?_)
    (n := 0) ⟨by grind, hkept⟩ h
  · rwa [Nat.zero_add] at hloop
  · obtain ⟨hport, hkept'⟩ := bindRound_next hbody ht.2
    refine ⟨?_, hkept'⟩
    rw [hport, ht.1, Int32.ofNat_add]
    grind
  · have hleft := bindRound_leave hbody ht.2
    rwa [ht.1] at hleft

/-! ## The pair that is allocated -/

def PortState.BoundTo (s : PortState) (fd port : Int32) : Prop :=
  ∃ bound : PortNumber, s.opened fd = some (some bound) ∧ (bound : Int) = port.toInt

/-- The port advertised is even and in range, the sockets of the node are bound to it and, with
RTCP, to the one behind it, and no other socket is open. -/
structure Allocated (iUseRtcpFlag : Bool) (s : PortState) : Prop where
  even : 2 ∣ s.iUdpSendStreamPort.toInt
  le : s.iUdpSendStreamPort ≤ 65534
  rtp : s.BoundTo s.iUdpSendStreamSockFd s.iUdpSendStreamPort
  rtcp : iUseRtcpFlag = true → s.iUdpRtcpListenPort.toInt = s.iUdpSendStreamPort.toInt + 1 ∧
    s.BoundTo s.iUdpRtcpSockFd s.iUdpRtcpListenPort
  closed : Kept iUseRtcpFlag s

theorem Left.allocated_iff (hleft : Left iUseRtcpFlag port s) (heven : 2 ∣ port.toInt) :
    Allocated iUseRtcpFlag s ↔ 0 < port ∧ port ≤ 65534 := by
  have hmax : (65534 : Int32).toInt = 65534 := by decide
  have hzero : (0 : Int32).toInt = 0 := by decide
  constructor
  · intro halloc
    obtain ⟨bound, hbound, heq⟩ := halloc.rtp
    have hpos := bound.property.1
    rw [hleft.reached] at heq
    refine ⟨?_, hleft.reached ▸ halloc.le⟩
    rw [Int32.lt_iff_toInt_lt, hzero]
    omega
  · rintro ⟨hlo, hhi⟩
    have hlo' : 0 < port.toInt := by rwa [Int32.lt_iff_toInt_lt, hzero] at hlo
    have hhi' : port.toInt ≤ 65534 := by rwa [Int32.le_iff_toInt_le, hmax] at hhi
    have hnext : (port + 1).toInt = port.toInt + 1 := by
      rw [Int32.toInt_add, show (1 : Int32).toInt = 1 by decide]
      exact toS32_of_bounds (by omega) (by omega)
    exact {
      even := by rwa [hleft.reached]
      le := by rwa [hleft.reached]
      rtp := by
        obtain ⟨chosen, hbound⟩ := hleft.rtp
        refine ⟨_, hbound, ?_⟩
        rw [hleft.reached]
        exact boundPort_sinPort.mpr ⟨hlo', by omega⟩
      rtcp := fun hflag => by
        obtain ⟨hlisten, chosen, hbound⟩ := hleft.rtcp hflag
        rw [hlisten, hleft.reached]
        exact ⟨hnext, _, hbound, boundPort_sinPort.mpr ⟨by omega, by omega⟩⟩
      closed := hleft.kept }

/-- The port that is reached when `failed` rounds have raised the one that was drawn. -/
def portAfter (rand : Int32) (failed : Nat) : Int32 :=
  2 * randomNumber rand 10000 20000 + 2 * Int32.ofNat failed

theorem portAfter_even (rand : Int32) (failed : Nat) : 2 ∣ (portAfter rand failed).toInt := by
  have hsum : portAfter rand failed =
      2 * (randomNumber rand 10000 20000 + Int32.ofNat failed) := by
    unfold portAfter
    grind
  rw [hsum, Int32.toInt_mul, show (2 : Int32).toInt = 2 by decide]
  rw [Int.bmod_def]
  split <;> omega

variable {rand rtp rtcp : Int32}

theorem udpBindLocalPort_left
    (h : udpBindLocalPort iUseRtcpFlag rand rtp rtcp rounds = some s) :
    Left iUseRtcpFlag (portAfter rand (rounds.length - 1)) s := by
  obtain ⟨s₁, hrtp, h⟩ := Option.bind_eq_some_iff.mp h
  obtain ⟨s₂, hrtcp, h⟩ := Option.bind_eq_some_iff.mp h
  suffices hkept : Kept iUseRtcpFlag s₂ by
    unfold portAfter
    generalize 2 * randomNumber rand 10000 20000 = port at h ⊢
    exact bindLoop_left h hkept
  obtain ⟨hnode₁, hopened₁⟩ := PortState.openRtp_inv hrtp
  have hfd : s₁.iUdpSendStreamSockFd = rtp := congrArg Sockets.iUdpSendStreamSockFd hnode₁
  cases iUseRtcpFlag with
  | false =>
    cases hrtcp
    intro fd hopen
    exact .inl (((hopened₁ fd hopen).resolve_right fun hnone => hnone rfl).1.trans hfd.symm)
  | true =>
    obtain ⟨hnode₂, hopened₂⟩ := PortState.openRtcp_inv hrtcp
    intro fd hopen
    obtain ⟨heq, -⟩ | hopen := hopened₂ fd hopen
    · exact .inr ⟨rfl, heq.trans (congrArg Sockets.iUdpRtcpSockFd hnode₂).symm⟩
    · obtain ⟨heq, -⟩ | hopen := hopened₁ fd hopen
      · refine .inl ((heq.trans hfd.symm).trans ?_)
        exact (congrArg Sockets.iUdpSendStreamSockFd hnode₂).symm
      · exact absurd rfl hopen

/-- However the calls answer, the pair is allocated as it should be exactly when the number that
is reached is a port: nothing stops the search at the last one. -/
theorem udpBindLocalPort_allocated_iff
    (h : udpBindLocalPort iUseRtcpFlag rand rtp rtcp rounds = some s) :
    Allocated iUseRtcpFlag s ↔
      0 < portAfter rand (rounds.length - 1) ∧ portAfter rand (rounds.length - 1) ≤ 65534 :=
  (udpBindLocalPort_left h).allocated_iff (portAfter_even _ _)

/-- A number refused, one whose neighbour is refused, and a pair. -/
def thirdPair : List Round :=
  [{ rtp := none }, { rtp := some ⟨1, by decide⟩, socket := 3 },
    { rtp := some ⟨1, by decide⟩, rtcp := some ⟨1, by decide⟩ }]

theorem udpBindLocalPort_allocated_iff_third :
    ∃ s, udpBindLocalPort true 10001 3 4 thirdPair = some s ∧
      s.iUdpSendStreamPort = 20006 ∧ Allocated true s := by
  have hrun : (udpBindLocalPort true 10001 3 4 thirdPair).isSome := by decide
  obtain ⟨s, hs⟩ := Option.isSome_iff_exists.mp hrun
  exact ⟨s, hs, (udpBindLocalPort_left hs).reached.trans (by decide),
    (udpBindLocalPort_allocated_iff hs).mpr (by decide)⟩

/-! ## The descriptors -/

/-- The descriptors of the node are ones that `socket` has answered with, and none that is open is
a failure. -/
structure Given (rtp rtcp : Int32) (rounds : List Round) (s : PortState) : Prop where
  rtp : s.iUdpSendStreamSockFd = rtp ∨ ∃ r ∈ rounds, s.iUdpSendStreamSockFd = r.socket
  rtcp : s.iUdpRtcpSockFd = rtcp
  valid : ∀ fd, s.opened fd ≠ none → 0 ≤ fd

theorem Given.bind (hgiven : Given rtp rtcp rounds s) (h : s.bind fd sin_port answer = some s') :
    Given rtp rtcp rounds s' := by
  obtain ⟨chosen, hfd, rfl⟩ := PortState.bind_inv h
  refine ⟨hgiven.rtp, hgiven.rtcp, fun fd' hopen => ?_⟩
  by_cases heq : fd' = fd
  · subst heq
    exact hgiven.valid fd' (by simp [hfd])
  · exact hgiven.valid fd' (by simpa only [Function.update_of_ne heq] using hopen)

theorem Given.next (hgiven : Given rtp rtcp rounds s) (hr : r ∈ rounds)
    (h : bindRound iUseRtcpFlag s r = .next s') : Given rtp rtcp rounds s' := by
  obtain rfl | ⟨t, hrtp, -, hopen⟩ := bindRound_next_inv h
  · exact ⟨hgiven.rtp, hgiven.rtcp, hgiven.valid⟩
  · have hgiven' := hgiven.bind hrtp
    obtain ⟨hnode, hopened⟩ := PortState.openRtp_inv hopen
    refine ⟨.inr ⟨r, hr, congrArg Sockets.iUdpSendStreamSockFd hnode⟩,
      (congrArg Sockets.iUdpRtcpSockFd hnode).trans hgiven'.rtcp, fun fd hfd => ?_⟩
    obtain ⟨rfl, hvalid⟩ | hfd := hopened fd hfd
    · exact hvalid
    · by_cases heq : fd = t.iUdpSendStreamSockFd
      · subst heq
        exact absurd (Function.update_self _ _ _) hfd
      · refine hgiven'.valid fd ?_
        simpa only [PortState.nextPort, PortState.close, Function.update_of_ne heq] using hfd

theorem Given.leave (hgiven : Given rtp rtcp rounds s)
    (h : bindRound iUseRtcpFlag s r = .leave s') : Given rtp rtcp rounds s' := by
  obtain ⟨t, hrtp, hrtcp⟩ := bindRound_leave_inv h
  have hgiven' := hgiven.bind hrtp
  cases iUseRtcpFlag with
  | false =>
    cases hrtcp
    exact hgiven'
  | true =>
    have hlisten : Given rtp rtcp rounds
        { t with iUdpRtcpListenPort := t.iUdpSendStreamPort + 1 } :=
      ⟨hgiven'.rtp, hgiven'.rtcp, hgiven'.valid⟩
    exact hlisten.bind hrtcp

theorem bindLoop_given (hgiven : Given rtp rtcp rounds s)
    (h : bindLoop iUseRtcpFlag rounds s = some s') : Given rtp rtcp rounds s' :=
  whileLoop_invariant (Given rtp rtcp rounds) (Given rtp rtcp rounds)
    (fun _ _ _ htest => by cases htest) (fun _ hr _ _ hs _ hbody => hs.next hr hbody)
    (fun _ _ _ _ hs _ hbody => hs.leave hbody) hgiven h

theorem udpBindLocalPort_given
    (h : udpBindLocalPort iUseRtcpFlag rand rtp rtcp rounds = some s) :
    Given rtp (if iUseRtcpFlag then rtcp else 0) rounds s := by
  obtain ⟨s₁, hrtp, h⟩ := Option.bind_eq_some_iff.mp h
  obtain ⟨s₂, hrtcp, h⟩ := Option.bind_eq_some_iff.mp h
  obtain ⟨hnode₁, hopened₁⟩ := PortState.openRtp_inv hrtp
  have hvalid₁ : ∀ fd, s₁.opened fd ≠ none → 0 ≤ fd := fun fd hfd => by
    obtain ⟨rfl, hvalid⟩ | hfd := hopened₁ fd hfd
    · exact hvalid
    · exact absurd rfl hfd
  have hgiven : Given rtp (if iUseRtcpFlag then rtcp else 0) rounds s₂ := by
    cases iUseRtcpFlag with
    | false =>
      cases hrtcp
      exact ⟨.inl (congrArg Sockets.iUdpSendStreamSockFd hnode₁),
        congrArg Sockets.iUdpRtcpSockFd hnode₁, hvalid₁⟩
    | true =>
      obtain ⟨hnode₂, hopened₂⟩ := PortState.openRtcp_inv hrtcp
      refine ⟨.inl ((congrArg Sockets.iUdpSendStreamSockFd hnode₂).trans
        (congrArg Sockets.iUdpSendStreamSockFd hnode₁)),
        congrArg Sockets.iUdpRtcpSockFd hnode₂, fun fd hfd => ?_⟩
      obtain ⟨rfl, hvalid⟩ | hfd := hopened₂ fd hfd
      · exact hvalid
      · exact hvalid₁ fd hfd
  generalize 2 * randomNumber rand 10000 20000 = port at h
  exact bindLoop_given (s := { s₂ with iUdpSendStreamPort := port })
    ⟨hgiven.rtp, hgiven.rtcp, hgiven.valid⟩ h

/-! ## The end of the range -/

theorem bindLoop_refused (n : Nat) (rounds : List Round) (s : PortState) :
    bindLoop iUseRtcpFlag (List.replicate n { rtp := none } ++ rounds) s =
      bindLoop iUseRtcpFlag rounds
        { s with iUdpSendStreamPort := s.iUdpSendStreamPort + 2 * Int32.ofNat n } := by
  induction n generalizing s with
  | zero =>
    have hport : s.iUdpSendStreamPort + 2 * Int32.ofNat 0 = s.iUdpSendStreamPort := by grind
    rw [hport]
    rfl
  | succ n ih =>
    have hround : bindRound iUseRtcpFlag s { rtp := none } = .next s.nextPort := by
      have hnone : s.bind s.iUdpSendStreamSockFd (sinPort s.iUdpSendStreamPort) none = none := by
        unfold PortState.bind
        split <;> first | rfl | contradiction
      simp only [bindRound, hnone]
    have hport : s.iUdpSendStreamPort + 2 + 2 * Int32.ofNat n =
        s.iUdpSendStreamPort + 2 * Int32.ofNat (n + 1) := by
      rw [Int32.ofNat_add]
      grind
    have hloop := ih s.nextPort
    rw [List.replicate_succ, List.cons_append]
    unfold bindLoop at hloop ⊢
    rw [whileLoop_next rfl hround, hloop, ← hport]
    rfl

theorem randomNumber_bounds (hrand : 0 ≤ rand) :
    10000 ≤ (randomNumber rand 10000 20000).toInt ∧
      (randomNumber rand 10000 20000).toInt < 20000 := by
  have hrand' : 0 ≤ rand.toInt := by
    rwa [Int32.le_iff_toInt_le, show (0 : Int32).toInt = 0 by decide] at hrand
  have hmod : (rand % (20000 - 10000)).toInt = rand.toInt % 10000 := by
    rw [Int32.toInt_mod, show (20000 - 10000 : Int32).toInt = 10000 by decide,
      Int.tmod_eq_emod_of_nonneg hrand']
  have hsum : (randomNumber rand 10000 20000).toInt = rand.toInt % 10000 + 10000 := by
    rw [randomNumber, Int32.toInt_add, hmod, show (10000 : Int32).toInt = 10000 by decide]
    exact toS32_of_bounds (by omega) (by omega)
  omega

/-- The range drawn from leaves room for 12768 rounds that fail. -/
theorem udpBindLocalPort_allocated (hrand : 0 ≤ rand) (hfew : rounds.length ≤ 12769)
    (h : udpBindLocalPort iUseRtcpFlag rand rtp rtcp rounds = some s) :
    Allocated iUseRtcpFlag s := by
  refine ((udpBindLocalPort_left h).allocated_iff (portAfter_even _ _)).mpr ?_
  obtain ⟨hlo, hhi⟩ := randomNumber_bounds hrand
  have hfailed : (Int32.ofNat (rounds.length - 1)).toInt = (rounds.length - 1 : Nat) :=
    Int32.toInt_ofNat_of_lt (by omega)
  have hport : (portAfter rand (rounds.length - 1)).toInt =
      2 * (randomNumber rand 10000 20000).toInt + 2 * (rounds.length - 1 : Nat) := by
    have htwo : (2 : Int32).toInt = 2 := by decide
    have hdrawn : (2 * randomNumber rand 10000 20000).toInt =
        2 * (randomNumber rand 10000 20000).toInt := by
      rw [Int32.toInt_mul, htwo]
      exact toS32_of_bounds (by omega) (by omega)
    have hraise : (2 * Int32.ofNat (rounds.length - 1)).toInt = 2 * (rounds.length - 1 : Nat) := by
      rw [Int32.toInt_mul, htwo, hfailed]
      exact toS32_of_bounds (by omega) (by omega)
    rw [portAfter, Int32.toInt_add, hdrawn, hraise]
    exact toS32_of_bounds (by omega) (by omega)
  rw [Int32.lt_iff_toInt_lt, Int32.le_iff_toInt_le, hport,
    show (0 : Int32).toInt = 0 by decide, show (65534 : Int32).toInt = 65534 by decide]
  omega

/-- Every number up to 65534 is refused. -/
def refusedPorts : List Round :=
  List.replicate 12769 { rtp := none } ++ [{ rtp := some ⟨40000, by decide⟩ }]

/-- From the largest number that can be drawn, the last port is passed. -/
theorem udpBindLocalPort_passed :
    ∃ s, udpBindLocalPort false 9999 3 4 refusedPorts = some s ∧
      s.iUdpSendStreamPort = 65536 ∧ ¬ Allocated false s := by
  have hrun : (udpBindLocalPort false 9999 3 4 refusedPorts).isSome := by
    unfold udpBindLocalPort refusedPorts
    simp only [bindLoop_refused]
    rfl
  obtain ⟨s, hs⟩ := Option.isSome_iff_exists.mp hrun
  have hport : s.iUdpSendStreamPort = 65536 := by
    rw [(udpBindLocalPort_left hs).reached, refusedPorts, List.length_append,
      List.length_replicate]
    decide
  refine ⟨s, hs, hport, fun halloc => ?_⟩
  have hle := halloc.le
  rw [hport] at hle
  revert hle
  decide

end GbStream.Call
