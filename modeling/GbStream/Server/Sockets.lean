import GbStream.Server.Seats
import GbStream.Call.CallMap
import GbStream.Call.Ports

/-!
# Who owns the sockets of a call

The sockets of a call are closed by its client and by nobody else.  They are safe as long as
each call gets one client, and gets it before the last record that knows the sockets is gone.
-/

namespace GbStream.Server

open Support.Bytes Support.CString Support.HashTable Support.Transition Call GbStream.Stream
open Rtp hiding StreamNode

/-- A node, a message to the stream side or a client refers to a socket of a call. -/
def State.Refers (s : State) (fd : Int32) (call : Nat) : Prop :=
  (∃ n, Holds s.sip.buckets n ∧ n.id = call ∧ fd ∈ nodeSockets n.toSipNode) ∨
    (∃ m ∈ s.toStream, m.id = call ∧ fd ∈ nodeSockets m.toSipNode) ∨
      ∃ c, s.Live c ∧ c.call = call ∧ fd ∈ clientSockets c

/-- No socket leaks, those of a client are open and its own, and none is closed twice. -/
structure Owned (s : State) : Prop where
  noLeak : ∀ fd call, s.sockets fd = some call → s.Refers fd call
  opened : ∀ c, s.Live c → ∀ fd ∈ clientSockets c, s.sockets fd = some c.call
  unshared : ∀ n n', Holds s.stream.table n → Holds s.stream.table n' →
    ∀ c ∈ n.listClientNodeHead, ∀ c' ∈ n'.listClientNodeHead, ∀ fd ∈ clientSockets c,
      fd ∈ clientSockets c' → n = n' ∧ c = c'
  nodup : ∀ n, Holds s.stream.table n → n.listClientNodeHead.Nodup
  once : s.closedTwice = false

def Served (t : Stream.State) (call : Nat) : Prop := ∃ m i j, (m, i, j) ∈ t.added ∧ m.id = call

/-- The call is in the table or has a message among those that wait. -/
def Waits (sip : SipTable) (toStream : List SipEntry) (call : Nat) : Prop :=
  (∃ n, Holds sip.buckets n ∧ n.id = call) ∨ ∃ m ∈ toStream, m.id = call

/-- The condition on a step: `PLAY` makes a client only for a call that has had none, and the
last node or message of a call goes only when it has had one. -/
def OneClient (cfg : Config) (s : State) : Event → Prop
  | .streamReadCb =>
      ∀ m toStream, s.toStream = m :: toStream →
        if m.enumCmdType = .play ∧ clientOf cfg.hashing m s.stream = none then
          ¬ Served s.stream m.id
        else Served s.stream m.id ∨ Waits s.sip toStream m.id
  | .sipPairReadCb =>
      ∀ arg n, s.sipArg = some arg →
        findNodeFromSipHashTable cfg.sipHashing arg.callId s.sip = some n →
          Served s.stream n.id ∨ ∃ m ∈ s.toStream, m.id = n.id
  | _ => True

/-! ## The sockets of a call -/

structure PairOf (cfg : Config) (x : SipEntry) : Prop where
  rtp : 0 < x.iUdpSendStreamSockFd
  rtcp : if cfg.iUseRtcpFlag then
      0 < x.iUdpRtcpSockFd ∧ x.iUdpRtcpSockFd ≠ x.iUdpSendStreamSockFd
    else x.iUdpRtcpSockFd = 0

section PairOf

variable {cfg : Config} {made : List SipEntry} {x m : SipEntry} {c : Client}

theorem PairOf.nodup (h : PairOf cfg x) : (nodeSockets x.toSipNode).Nodup := by
  have hrtcp := h.rtcp
  unfold nodeSockets
  split at hrtcp
  · refine List.Nodup.filter _ ?_
    rw [List.nodup_cons, List.mem_singleton]
    exact ⟨hrtcp.2.symm, List.nodup_singleton _⟩
  · rw [hrtcp]
    exact (List.nodup_singleton _).sublist (by
      rw [List.filter_cons_of_pos (by simpa using h.rtp), List.filter_cons_of_neg (by decide)]
      exact List.Sublist.refl _)

theorem nodeSockets_copy (hm : CopyOf made m) (hx : made[m.id]? = some x) :
    nodeSockets m.toSipNode = nodeSockets x.toSipNode := by
  obtain ⟨y, hy, heq⟩ := hm
  obtain rfl : y = x := Option.some.inj (hy.symm.trans hx)
  rw [heq]
  rfl

theorem clientSockets_eq (hc : ClientOf cfg made c) (hx : made[c.call]? = some x)
    (hpair : PairOf cfg x) : clientSockets c = nodeSockets x.toSipNode := by
  obtain ⟨y, hy, heq⟩ := hc
  obtain rfl : y = x := Option.some.inj (hy.symm.trans hx)
  have hrtcp := hpair.rtcp
  calc
    clientSockets c = clientSockets (asMade c) := rfl
    _ = clientSockets (newClient cfg.iUseRtcpFlag c.id y) := by rw [heq]
    _ = nodeSockets y.toSipNode := by
      unfold clientSockets nodeSockets newClient
      dsimp only
      split at hrtcp
      · rename_i hflag
        rw [if_pos hflag]
      · rename_i hflag
        rw [if_neg hflag, hrtcp]

end PairOf

/-! ## The invariant -/

structure Owns (cfg : Config) (s : State) : Prop where
  sound : Sound cfg s
  fds : ∀ x ∈ s.made, PairOf cfg x
  bound : ∀ call, Served s.stream call → call < s.made.length
  served : ∀ i j k, Seat s.stream i j k → Served s.stream k
  alone : ∀ i j i' j' k, Seat s.stream i j k → Seat s.stream i' j' k → i = i' ∧ j = j'
  opened : ∀ i j k x, Seat s.stream i j k → s.made[k]? = some x →
    ∀ fd ∈ nodeSockets x.toSipNode, s.sockets fd = some k
  unserved : ∀ k x, s.made[k]? = some x → ¬ Served s.stream k →
    (∀ fd ∈ nodeSockets x.toSipNode, s.sockets fd = some k) ∧ Waits s.sip s.toStream k
  known : ∀ fd k, s.sockets fd = some k →
    (∃ x, s.made[k]? = some x ∧ fd ∈ nodeSockets x.toSipNode) ∧
      (Served s.stream k → ∃ i j, Seat s.stream i j k)
  once : s.closedTwice = false

section Owns

variable {cfg : Config} {s s' : State} {n : StreamNode} {c : Client}

theorem owns_init : Owns cfg {} where
  sound := sound_init
  fds := fun _ hx => absurd hx List.not_mem_nil
  bound := fun _ ⟨_, _, _, hm, _⟩ => absurd hm List.not_mem_nil
  served := fun _ _ _ ⟨_, ⟨_, hn⟩, _⟩ => absurd hn List.not_mem_nil
  alone := fun _ _ _ _ _ ⟨_, ⟨_, hn⟩, _⟩ => absurd hn List.not_mem_nil
  opened := fun _ _ _ _ ⟨_, ⟨_, hn⟩, _⟩ => absurd hn List.not_mem_nil
  unserved := fun _ _ hx => by cases hx
  known := fun _ _ hfd => by cases hfd
  once := rfl

/-- The node that a client's call was made with, and the client's sockets. -/
theorem Owns.client (hs : Owns cfg s) (hn : Holds s.stream.table n)
    (hc : c ∈ n.listClientNodeHead) :
    ∃ x, s.made[c.call]? = some x ∧ clientSockets c = nodeSockets x.toSipNode ∧
      (clientSockets c).Nodup ∧ Seat s.stream n.id c.id c.call := by
  have hclient := (hs.sound.clients n hn).clientOf c hc
  have hcall := hclient
  obtain ⟨x, hx, -⟩ := hcall
  have hpair := hs.fds x (List.mem_of_getElem? hx)
  have heq := clientSockets_eq hclient hx hpair
  refine ⟨x, hx, heq, ?_, n, hn, rfl, mem_pairs hc⟩
  rw [heq]
  exact hpair.nodup

theorem Owns.client_opened (hs : Owns cfg s) (hn : Holds s.stream.table n)
    (hc : c ∈ n.listClientNodeHead) :
    ∀ fd ∈ clientSockets c, s.sockets fd = some c.call := by
  obtain ⟨x, hx, heq, -, hseat⟩ := hs.client hn hc
  rw [heq]
  exact hs.opened _ _ _ x hseat hx

theorem Owns.client_unique (hs : Owns cfg s) {n' : StreamNode} {c' : Client}
    (hn : Holds s.stream.table n) (hc : c ∈ n.listClientNodeHead)
    (hn' : Holds s.stream.table n') (hc' : c' ∈ n'.listClientNodeHead)
    (hcall : c.call = c'.call) : n = n' ∧ c = c' := by
  have hseat : Seat s.stream n.id c.id c.call := ⟨n, hn, rfl, mem_pairs hc⟩
  have hseat' : Seat s.stream n'.id c'.id c'.call := ⟨n', hn', rfl, mem_pairs hc'⟩
  rw [hcall] at hseat
  obtain ⟨hid, hid'⟩ := hs.alone _ _ _ _ _ hseat hseat'
  obtain rfl := hs.sound.stream.distinct hn hn' hid
  exact ⟨rfl, List.inj_on_of_nodup_map (hs.sound.clients n hn).ids hc hc' hid'⟩

/-- **The sockets are safe** where the invariant holds. -/
theorem Owns.owned (hs : Owns cfg s) : Owned s := by
  refine ⟨fun fd k hfd => ?_, fun c ⟨n, hn, hc⟩ => hs.client_opened hn hc,
    fun n n' hn hn' c hc c' hc' fd hfd hfd' => ?_, fun n hn => (hs.sound.clients n hn).ids.of_map,
    hs.once⟩
  · obtain ⟨⟨x, hx, hmem⟩, hseats⟩ := hs.known fd k hfd
    by_cases hserved : Served s.stream k
    · obtain ⟨i, j, n, hn, -, hpair⟩ := hseats hserved
      obtain ⟨c, hc, heq⟩ := List.mem_map.mp hpair
      obtain ⟨-, rfl⟩ := Prod.mk.injEq .. ▸ heq
      obtain ⟨y, hy, hsockets, -⟩ := hs.client hn hc
      obtain rfl : x = y := Option.some.inj (hx.symm.trans hy)
      exact .inr (.inr ⟨c, ⟨n, hn, hc⟩, rfl, hsockets ▸ hmem⟩)
    · rcases (hs.unserved k x hx hserved).2 with ⟨m, hm, rfl⟩ | ⟨m, hm, rfl⟩
      · exact .inl ⟨m, hm, rfl, nodeSockets_copy (hs.sound.nodes m hm) hx ▸ hmem⟩
      · exact .inr (.inl ⟨m, hm, rfl, nodeSockets_copy (hs.sound.messages m hm) hx ▸ hmem⟩)
  · have hcall : c.call = c'.call :=
      Option.some.inj
        ((hs.client_opened hn hc fd hfd).symm.trans (hs.client_opened hn' hc' fd hfd'))
    exact hs.client_unique hn hc hn' hc' hcall

/-! ### The steps -/

/-- A step that opens and closes nothing and leaves the clients: a call that has had none still
waits. -/
theorem Owns.frame (hs : Owns cfg s) (hsound : Sound cfg s') (hmade : s'.made = s.made)
    (hsockets : s'.sockets = s.sockets) (honce : s'.closedTwice = s.closedTwice)
    (hadded : s'.stream.added = s.stream.added)
    (hseat : ∀ i j k, Seat s'.stream i j k ↔ Seat s.stream i j k)
    (hwaits : ∀ k, ¬ Served s.stream k → Waits s.sip s.toStream k → Waits s'.sip s'.toStream k) :
    Owns cfg s' := by
  have hserved : ∀ k, Served s'.stream k ↔ Served s.stream k := by
    intro k
    unfold Served
    rw [hadded]
  refine ⟨hsound, ?_, ?_, ?_, ?_, ?_, ?_, ?_, ?_⟩
  · rw [hmade]
    exact hs.fds
  · intro k hk
    rw [hmade]
    exact hs.bound k ((hserved k).mp hk)
  · exact fun i j k h => (hserved k).mpr (hs.served i j k ((hseat i j k).mp h))
  · exact fun i j i' j' k h h' => hs.alone i j i' j' k ((hseat ..).mp h) ((hseat ..).mp h')
  · intro i j k x h hx
    rw [hmade] at hx
    rw [hsockets]
    exact hs.opened i j k x ((hseat ..).mp h) hx
  · intro k x hx hk
    rw [hmade] at hx
    rw [hserved] at hk
    obtain ⟨hopen, hwait⟩ := hs.unserved k x hx hk
    rw [hsockets]
    exact ⟨hopen, hwaits k hk hwait⟩
  · intro fd k hfd
    rw [hsockets] at hfd
    obtain ⟨hx, hseats⟩ := hs.known fd k hfd
    rw [hmade]
    refine ⟨hx, fun hk => ?_⟩
    obtain ⟨i, j, h⟩ := hseats ((hserved k).mp hk)
    exact ⟨i, j, (hseat ..).mpr h⟩
  · rw [honce]
    exact hs.once

/-- The clients of the calls `calls` are taken out, and their sockets closed. -/
theorem Owns.destroyed (hs : Owns cfg s) (hsound : Sound cfg s') (calls : List Nat)
    (hmade : s'.made = s.made) (hsip : s'.sip = s.sip) (htoStream : s'.toStream = s.toStream)
    (hadded : s'.stream.added = s.stream.added)
    (hseat : ∀ i j k, Seat s'.stream i j k ↔ Seat s.stream i j k ∧ k ∉ calls)
    (hcalls : ∀ k ∈ calls, ∃ i j, Seat s.stream i j k)
    (hsockets : ∀ fd, s'.sockets fd = (s.sockets fd).filter fun k => k ∉ calls)
    (honce : s'.closedTwice = false) : Owns cfg s' := by
  have hserved : ∀ k, Served s'.stream k ↔ Served s.stream k := by
    intro k
    unfold Served
    rw [hadded]
  have hkept : ∀ fd k, s'.sockets fd = some k ↔ s.sockets fd = some k ∧ k ∉ calls := by
    intro fd k
    rw [hsockets, Option.filter_eq_some_iff, decide_eq_true_iff]
  refine ⟨hsound, ?_, ?_, ?_, ?_, ?_, ?_, ?_, honce⟩
  · rw [hmade]
    exact hs.fds
  · intro k hk
    rw [hmade]
    exact hs.bound k ((hserved k).mp hk)
  · exact fun i j k h => (hserved k).mpr (hs.served i j k ((hseat i j k).mp h).1)
  · exact fun i j i' j' k h h' => hs.alone i j i' j' k ((hseat ..).mp h).1 ((hseat ..).mp h').1
  · intro i j k x h hx fd hfd
    rw [hmade] at hx
    obtain ⟨h, hk⟩ := (hseat ..).mp h
    exact (hkept fd k).mpr ⟨hs.opened i j k x h hx fd hfd, hk⟩
  · intro k x hx hk
    rw [hmade] at hx
    rw [hserved] at hk
    obtain ⟨hopen, hwait⟩ := hs.unserved k x hx hk
    rw [hsip, htoStream]
    refine ⟨fun fd hfd => (hkept fd k).mpr ⟨hopen fd hfd, fun hmem => ?_⟩, hwait⟩
    obtain ⟨i, j, h⟩ := hcalls k hmem
    exact hk (hs.served i j k h)
  · intro fd k hfd
    obtain ⟨hfd, hk⟩ := (hkept fd k).mp hfd
    obtain ⟨hx, hseats⟩ := hs.known fd k hfd
    rw [hmade]
    refine ⟨hx, fun hserve => ?_⟩
    obtain ⟨i, j, h⟩ := hseats ((hserved k).mp hserve)
    exact ⟨i, j, (hseat ..).mpr ⟨h, hk⟩⟩

/-- What `udp_bind_local_port` leaves is fresh, if the descriptors that `socket` gives are: it fails
or gives one that is positive and not open. -/
theorem fresh_udpBindLocalPort {rand rtp rtcp : Int32} {rounds : List Round} {p : PortState}
    (h : udpBindLocalPort cfg.iUseRtcpFlag rand rtp rtcp rounds = some p)
    (hsocket : ∀ fd, (fd = rtp ∨ fd = rtcp ∨ ∃ r ∈ rounds, fd = r.socket) → 0 ≤ fd →
      0 < fd ∧ s.sockets fd = none) : Fresh cfg s p.toSockets := by
  have hgiven := udpBindLocalPort_given h
  have hleft := udpBindLocalPort_left h
  obtain ⟨chosen, hrtp⟩ := hleft.rtp
  have hfd := hsocket _ (hgiven.rtp.imp_right .inr) (hgiven.valid _ (by simp [hrtp]))
  refine ⟨hfd.1, hfd.2, ?_⟩
  have hrtcpFd := hgiven.rtcp
  split
  · next hflag =>
    rw [if_pos hflag] at hrtcpFd
    obtain ⟨-, chosen', hrtcp⟩ := hleft.rtcp hflag
    have hfd' := hsocket _ (.inr (.inl hrtcpFd)) (hgiven.valid _ (by simp [hrtcp]))
    exact ⟨hfd'.1, hfd'.2, hleft.differ hflag⟩
  · next hflag =>
    rwa [if_neg hflag] at hrtcpFd

theorem Fresh.pairOf {sockets : Sockets} (h : Fresh cfg s sockets) (id : Nat)
    (uHashValue : UInt32) (a : SipDevArgs) : PairOf cfg (newSipNode id uHashValue a sockets) := by
  obtain ⟨hrtp, -, hrtcp⟩ := h
  refine ⟨hrtp, ?_⟩
  split at hrtcp
  · rename_i hflag
    rw [if_pos hflag]
    exact ⟨hrtcp.1, hrtcp.2.2⟩
  · rename_i hflag
    rw [if_neg hflag]
    exact hrtcp

theorem Fresh.notOpen {sockets : Sockets} (h : Fresh cfg s sockets) (id : Nat)
    (uHashValue : UInt32) (a : SipDevArgs) :
    ∀ fd ∈ nodeSockets (newSipNode id uHashValue a sockets).toSipNode, s.sockets fd = none := by
  obtain ⟨-, hrtp, hrtcp⟩ := h
  intro fd hfd
  obtain ⟨hmem, hpos⟩ := List.mem_filter.mp hfd
  rcases List.mem_cons.mp hmem with rfl | hmem
  · exact hrtp
  · obtain rfl := List.mem_singleton.mp hmem
    split at hrtcp
    · exact hrtcp.2.1
    · rw [show (newSipNode id uHashValue a sockets).iUdpRtcpSockFd = 0 from hrtcp] at hpos
      exact absurd hpos (by decide)

theorem Owns.inserted (hs : Owns cfg s) (hsound : Sound cfg s') {n : SipEntry}
    (hid : n.id = s.made.length) (hpair : PairOf cfg n)
    (hnew : ∀ fd ∈ nodeSockets n.toSipNode, s.sockets fd = none)
    (hsockets : ∀ fd, s'.sockets fd =
      if fd ∈ nodeSockets n.toSipNode then some n.id else s.sockets fd)
    (hmade : s'.made = s.made ++ [n]) (hstream : s'.stream = s.stream)
    (htoStream : s'.toStream = s.toStream)
    (hholds : ∀ y, Holds s'.sip.buckets y ↔ Holds s.sip.buckets y ∨ y = n)
    (honce : s'.closedTwice = s.closedTwice) : Owns cfg s' := by
  have hunserved : ¬ Served s.stream n.id := by
    intro hserved
    have hlt := hs.bound _ hserved
    omega
  have hlookup : ∀ {k x}, s'.made[k]? = some x →
      s.made[k]? = some x ∨ k = n.id ∧ x = n := by
    intro k x hx
    rw [hmade] at hx
    rcases Nat.lt_or_ge k s.made.length with hlt | hge
    · rw [List.getElem?_append_left hlt] at hx
      exact .inl hx
    · have hlast := (List.getElem?_eq_some_iff.mp hx).1
      rw [List.length_append, List.length_singleton] at hlast
      obtain rfl : k = s.made.length := by omega
      rw [List.getElem?_concat_length] at hx
      exact .inr ⟨hid.symm, (Option.some.inj hx).symm⟩
  have hself : s'.made[n.id]? = some n := by
    rw [hmade, hid]
    exact List.getElem?_concat_length
  have hkept : ∀ {fd k}, s.sockets fd = some k → s'.sockets fd = some k := by
    intro fd k hfd
    rw [hsockets, if_neg, hfd]
    intro hmem
    rw [hnew fd hmem] at hfd
    cases hfd
  refine ⟨hsound, fun x hx => ?_, ?_, ?_, ?_, ?_, ?_, ?_, ?_⟩
  · rw [hmade, List.mem_append, List.mem_singleton] at hx
    rcases hx with hx | rfl
    · exact hs.fds x hx
    · exact hpair
  · intro k hk
    rw [hstream] at hk
    rw [hmade, List.length_append]
    exact (hs.bound k hk).trans_le (Nat.le_add_right _ _)
  · rw [hstream]
    exact hs.served
  · rw [hstream]
    exact hs.alone
  · intro i j k x h hx fd hfd
    rw [hstream] at h
    rcases hlookup hx with hx | ⟨rfl, -⟩
    · exact hkept (hs.opened i j k x h hx fd hfd)
    · exact absurd (hs.served _ _ _ h) hunserved
  · intro k x hx hk
    rw [hstream] at hk
    rw [htoStream]
    rcases hlookup hx with hx | ⟨rfl, rfl⟩
    · obtain ⟨hopen, hwait⟩ := hs.unserved k x hx hk
      refine ⟨fun fd hfd => hkept (hopen fd hfd), hwait.imp ?_ id⟩
      rintro ⟨y, hy, hyk⟩
      exact ⟨y, (hholds y).mpr (.inl hy), hyk⟩
    · refine ⟨fun fd hfd => ?_, .inl ⟨x, (hholds x).mpr (.inr rfl), rfl⟩⟩
      rw [hsockets, if_pos hfd]
  · intro fd k hfd
    rw [hstream]
    rw [hsockets] at hfd
    split at hfd
    · rename_i hmem
      obtain rfl := Option.some.inj hfd
      exact ⟨⟨n, hself, hmem⟩, fun hserved => absurd hserved hunserved⟩
    · obtain ⟨⟨x, hx, hmem⟩, hseats⟩ := hs.known fd k hfd
      refine ⟨⟨x, ?_, hmem⟩, hseats⟩
      rw [hmade, List.getElem?_append_left (List.getElem?_eq_some_iff.mp hx).1, hx]
  · rw [honce]
    exact hs.once

theorem Owns.invite (hs : Owns cfg s) (pSipMsg : Invite) {sockets : Sockets}
    (hfresh : Fresh cfg s sockets) : Owns cfg (invite cfg pSipMsg sockets s) := by
  have hsound : Sound cfg (Server.invite cfg pSipMsg sockets s) :=
    hs.sound.step (e := .invite pSipMsg sockets) hfresh
  rcases invite_cases cfg pSipMsg sockets s with ⟨n, -, heq⟩ | ⟨-, n, hn, heq⟩
  · rw [heq] at hsound ⊢
    exact hs.frame hsound rfl rfl rfl rfl (fun _ _ _ => Iff.rfl) fun _ _ hwait => hwait
  · rw [heq] at hsound ⊢
    have hid : n.id = s.made.length := by
      rw [hn, hs.sound.made]
      rfl
    refine hs.inserted hsound hid ?_ ?_ (fun _ => rfl) rfl rfl rfl (fun y => ?_) rfl
    · rw [hn]
      exact hfresh.pairOf _ _ _
    · rw [hn]
      exact hfresh.notOpen _ _ _
    · rw [hn]
      exact holds_append

theorem Owns.ack (hs : Owns cfg s) (number : Text) : Owns cfg (ack cfg number s) := by
  have hsound := hs.sound.ack number
  rcases ack_cases cfg number s with ⟨-, heq⟩ | ⟨m, hfind, heq⟩
  · rw [heq]
    exact hs
  · rw [heq] at hsound ⊢
    have hm := holds_of_find hfind
    refine hs.frame hsound rfl rfl rfl rfl (fun _ _ _ => Iff.rfl) fun k _ hwait => ?_
    rcases hwait with ⟨y, hy, rfl⟩ | ⟨m', hm', rfl⟩
    · by_cases hne : y = m
      · exact .inr ⟨_, List.mem_append_right _ List.mem_cons_self, by rw [hne]; rfl⟩
      · exact .inl ⟨y, (holds_setCmdType hs.sound.sip hm .play).mpr (.inr ⟨hy, hne⟩), rfl⟩
    · exact .inr ⟨m', List.mem_append_left _ hm', rfl⟩

theorem Owns.bye (hs : Owns cfg s) (number : Text) : Owns cfg (bye cfg number s) := by
  have hsound := hs.sound.bye number
  rcases bye_cases cfg number s with ⟨-, heq⟩ | ⟨m, hfind, heq⟩
  · rw [heq]
    exact hs
  · rw [heq] at hsound ⊢
    have hm := holds_of_find hfind
    refine hs.frame hsound rfl rfl rfl rfl (fun _ _ _ => Iff.rfl) fun k _ hwait => ?_
    rcases hwait with ⟨y, hy, rfl⟩ | ⟨m', hm', rfl⟩
    · by_cases hne : y = m
      · exact .inr ⟨_, List.mem_append_right _ List.mem_cons_self, by rw [hne]; rfl⟩
      · exact .inl ⟨y, ((stopped hs.sound.sip hm).2 y).mpr ⟨hy, hne⟩, rfl⟩
    · exact .inr ⟨m', List.mem_append_left _ hm', rfl⟩

/-- A node may be taken out where its call has had a client or has a message in flight. -/
theorem Owns.sipPairReadCb (hs : Owns cfg s) (hok : OneClient cfg s .sipPairReadCb) :
    Owns cfg (sipPairReadCb cfg s) := by
  have hsound := hs.sound.sipPairReadCb
  rcases sipPairReadCb_cases cfg s with ⟨-, heq⟩ | ⟨arg, m, harg, hfind, heq⟩
  · rw [heq] at hsound ⊢
    exact hs.frame hsound rfl rfl rfl rfl (fun _ _ _ => Iff.rfl) fun _ _ hwait => hwait
  · rw [heq] at hsound ⊢
    have hm := holds_of_find hfind
    refine hs.frame hsound rfl rfl rfl rfl (fun _ _ _ => Iff.rfl) fun k hk hwait => ?_
    rcases hwait with ⟨y, hy, rfl⟩ | hmessage
    · by_cases hne : y = m
      · rw [hne] at hk ⊢
        exact .inr ((hok arg m harg hfind).resolve_left hk)
      · exact .inl ⟨y, (hs.sound.sip.holds_delNode hm).mpr ⟨hy, hne⟩, rfl⟩
    · exact .inr hmessage

theorem Owns.played (hs : Owns cfg s) (hsound : Sound cfg s') {m : SipEntry} {i j : Nat}
    {toStream : List SipEntry} (hread : s.toStream = m :: toStream)
    (hfirst : ¬ Served s.stream m.id)
    (hadded : s'.stream.added = s.stream.added ++ [(m, i, j)])
    (hseat : ∀ i' j' k, Seat s'.stream i' j' k ↔
      Seat s.stream i' j' k ∨ i' = i ∧ j' = j ∧ k = m.id)
    (hmade : s'.made = s.made) (hsip : s'.sip = s.sip) (htoStream : s'.toStream = toStream)
    (hsockets : s'.sockets = s.sockets) (honce : s'.closedTwice = s.closedTwice) :
    Owns cfg s' := by
  have hserved : ∀ k, Served s'.stream k ↔ Served s.stream k ∨ k = m.id := by
    intro k
    unfold Served
    rw [hadded]
    constructor
    · rintro ⟨x, i', j', hmem, rfl⟩
      rcases List.mem_append.mp hmem with hmem | hmem
      · exact .inl ⟨x, i', j', hmem, rfl⟩
      · exact .inr (congrArg (fun entry => entry.1.id) (List.mem_singleton.mp hmem))
    · rintro (⟨x, i', j', hmem, hid⟩ | rfl)
      · exact ⟨x, i', j', List.mem_append_left _ hmem, hid⟩
      · exact ⟨m, i, j, List.mem_append_right _ List.mem_cons_self, rfl⟩
  have hmem : m ∈ s.toStream := by
    rw [hread]
    exact List.mem_cons_self
  obtain ⟨x, hx, -⟩ := hs.sound.messages m hmem
  refine ⟨hsound, ?_, ?_, ?_, ?_, ?_, ?_, ?_, ?_⟩
  · rw [hmade]
    exact hs.fds
  · intro k hk
    rw [hmade]
    rcases (hserved k).mp hk with hk | rfl
    · exact hs.bound k hk
    · exact (List.getElem?_eq_some_iff.mp hx).1
  · intro i' j' k h
    rw [hserved]
    rcases (hseat ..).mp h with h | ⟨-, -, rfl⟩
    · exact .inl (hs.served i' j' k h)
    · exact .inr rfl
  · intro i₁ j₁ i₂ j₂ k h₁ h₂
    rcases (hseat ..).mp h₁ with h₁ | ⟨rfl, rfl, rfl⟩
    · rcases (hseat ..).mp h₂ with h₂ | ⟨-, -, rfl⟩
      · exact hs.alone i₁ j₁ i₂ j₂ k h₁ h₂
      · exact absurd (hs.served _ _ _ h₁) hfirst
    · rcases (hseat ..).mp h₂ with h₂ | ⟨rfl, rfl, -⟩
      · exact absurd (hs.served _ _ _ h₂) hfirst
      · exact ⟨rfl, rfl⟩
  · intro i' j' k y h hy fd hfd
    rw [hmade] at hy
    rw [hsockets]
    rcases (hseat ..).mp h with h | ⟨-, -, rfl⟩
    · exact hs.opened i' j' k y h hy fd hfd
    · exact (hs.unserved m.id y hy hfirst).1 fd hfd
  · intro k y hy hk
    rw [hmade] at hy
    rw [hserved, not_or] at hk
    obtain ⟨hopen, hwait⟩ := hs.unserved k y hy hk.1
    rw [hsockets, hsip, htoStream]
    refine ⟨hopen, hwait.imp_right ?_⟩
    rintro ⟨m', hm', rfl⟩
    rw [hread] at hm'
    rcases List.mem_cons.mp hm' with rfl | hm'
    · exact absurd rfl hk.2
    · exact ⟨m', hm', rfl⟩
  · intro fd k hfd
    rw [hsockets] at hfd
    obtain ⟨hy, hseats⟩ := hs.known fd k hfd
    rw [hmade]
    refine ⟨hy, fun hk => ?_⟩
    rcases (hserved k).mp hk with hk | rfl
    · obtain ⟨i', j', h⟩ := hseats hk
      exact ⟨i', j', (hseat ..).mpr (.inl h)⟩
    · exact ⟨i, j, (hseat ..).mpr (.inr ⟨rfl, rfl, rfl⟩)⟩
  · rw [honce]
    exact hs.once

theorem seat_streamReadCb {t : Stream.State} (ht : t.Placed) (h : Hashing) (iUseRtcpFlag : Bool)
    (m : SipEntry) :
    (m.enumCmdType = .play ∧ clientOf h m t = none) ∧ (∃ i j,
        (Stream.streamReadCb h iUseRtcpFlag m t).added = t.added ++ [(m, i, j)] ∧
          ∀ i' j' k, Seat (Stream.streamReadCb h iUseRtcpFlag m t) i' j' k ↔
            Seat t i' j' k ∨ i' = i ∧ j' = j ∧ k = m.id) ∨
      ¬ (m.enumCmdType = .play ∧ clientOf h m t = none) ∧
        (Stream.streamReadCb h iUseRtcpFlag m t).added = t.added ∧
          ∀ i j k, Seat (Stream.streamReadCb h iUseRtcpFlag m t) i j k ↔ Seat t i j k := by
  unfold Stream.streamReadCb
  rcases hcmd : m.enumCmdType with _ | _ | _
  · exact .inr ⟨fun hplay => (by cases hplay.1), rfl, fun _ _ _ => Iff.rfl⟩
  · rcases seat_play ht h iUseRtcpFlag m with ⟨hsome, hadded, hseat⟩ | ⟨hnone, hseat⟩
    · exact .inr ⟨fun hplay => hsome hplay.2, hadded, hseat⟩
    · exact .inl ⟨⟨rfl, hnone⟩, hseat⟩
  · obtain ⟨-, -, hadded, -⟩ := ht.stop h m
    exact .inr ⟨fun hplay => (by cases hplay.1), hadded, fun _ _ _ => seat_stop⟩

theorem Owns.streamReadCb (hs : Owns cfg s) (hok : OneClient cfg s .streamReadCb) :
    Owns cfg (streamReadCb cfg s) := by
  have hsound := hs.sound.streamReadCb
  rcases hread : s.toStream with _ | ⟨m, toStream⟩
  · rw [streamReadCb_nil hread] at hsound ⊢
    exact hs.frame hsound rfl rfl rfl rfl (fun _ _ _ => Iff.rfl) fun _ _ hwait => hwait
  · rw [streamReadCb_cons hread] at hsound ⊢
    have hcond := hok m toStream hread
    rcases seat_streamReadCb hs.sound.stream cfg.hashing cfg.iUseRtcpFlag m with
      ⟨hplay, i, j, hadded, hseat⟩ | ⟨hplay, hadded, hseat⟩
    · rw [if_pos hplay] at hcond
      exact hs.played hsound hread hcond hadded hseat rfl rfl rfl rfl rfl
    · rw [if_neg hplay] at hcond
      refine hs.frame hsound rfl rfl rfl hadded hseat fun k hk hwait => ?_
      rcases hwait with hnode | ⟨m', hm', rfl⟩
      · exact .inl hnode
      · rw [hread] at hm'
        rcases List.mem_cons.mp hm' with rfl | hm'
        · exact hcond.resolve_left hk
        · exact .inr ⟨m', hm', rfl⟩

/-! ### The end of clients -/

theorem foldl_close (call : Nat) (fds : List Int32) : ∀ s : State, fds.Nodup →
    (∀ fd ∈ fds, s.sockets fd = some call) →
      (∀ fd, (fds.foldl (State.close call) s).sockets fd =
        if fd ∈ fds then none else s.sockets fd) ∧
      (fds.foldl (State.close call) s).closedTwice = s.closedTwice := by
  induction fds with
  | nil => exact fun s _ _ => ⟨fun fd => (if_neg List.not_mem_nil).symm, rfl⟩
  | cons fd fds ih =>
      intro s hnodup hopen
      rw [List.nodup_cons] at hnodup
      have hfd : s.sockets fd = some call := hopen fd List.mem_cons_self
      have hrest : ∀ fd' ∈ fds, (s.close call fd).sockets fd' = some call := by
        intro fd' hfd'
        have hne : fd' ≠ fd := fun heq => hnodup.1 (heq ▸ hfd')
        exact (Function.update_of_ne hne ..).trans (hopen fd' (List.mem_cons_of_mem _ hfd'))
      obtain ⟨hsockets, honce⟩ := ih (s.close call fd) hnodup.2 hrest
      rw [List.foldl_cons]
      refine ⟨fun fd' => ?_, ?_⟩
      · rw [hsockets]
        by_cases heq : fd' = fd
        · subst heq
          rw [if_neg hnodup.1, if_pos List.mem_cons_self]
          exact Function.update_self ..
        · simp only [List.mem_cons, heq, false_or]
          congr 1
          exact Function.update_of_ne heq ..
      · rw [honce]
        unfold State.close
        rw [hfd, bne_self_eq_false, Bool.or_false]

def Closes (s : State) (c : Client) : Prop :=
  (clientSockets c).Nodup ∧ ∀ fd, fd ∈ clientSockets c ↔ s.sockets fd = some c.call

theorem sockets_destroyClient (h : Closes s c) :
    (∀ fd, (s.destroyClient c).sockets fd = (s.sockets fd).filter fun k => k ≠ c.call) ∧
      (s.destroyClient c).closedTwice = s.closedTwice := by
  obtain ⟨hnodup, hiff⟩ := h
  obtain ⟨hsockets, honce⟩ := foldl_close c.call (clientSockets c) s hnodup fun fd => (hiff fd).mp
  refine ⟨fun fd => ?_, honce⟩
  unfold State.destroyClient
  rw [hsockets]
  split
  · rename_i hmem
    rw [(hiff fd).mp hmem, Option.filter_some, if_neg (by simp)]
  · rename_i hmem
    rw [hiff] at hmem
    rcases hfd : s.sockets fd with _ | k
    · rfl
    · have hne : k ≠ c.call := fun heq => hmem (by rw [hfd, heq])
      rw [Option.filter_some, if_pos (by simpa using hne)]

theorem sockets_destroyClients (clients : List Client) : ∀ s : State,
    (clients.map Client.call).Nodup → (∀ c ∈ clients, Closes s c) →
      (∀ fd, (clients.foldl State.destroyClient s).sockets fd =
        (s.sockets fd).filter fun k => k ∉ clients.map Client.call) ∧
      (clients.foldl State.destroyClient s).closedTwice = s.closedTwice := by
  induction clients with
  | nil =>
      refine fun s _ _ => ⟨fun fd => ?_, rfl⟩
      rw [List.foldl_nil]
      rcases s.sockets fd with _ | k <;> rfl
  | cons c clients ih =>
      intro s hnodup hcloses
      rw [List.map_cons, List.nodup_cons] at hnodup
      obtain ⟨hsockets, honce⟩ := sockets_destroyClient (hcloses c List.mem_cons_self)
      have hrest : ∀ c' ∈ clients, Closes (s.destroyClient c) c' := by
        intro c' hc'
        obtain ⟨hnd, hiff⟩ := hcloses c' (List.mem_cons_of_mem _ hc')
        have hne : c'.call ≠ c.call := fun heq =>
          hnodup.1 (List.mem_map.mpr ⟨c', hc', heq⟩)
        refine ⟨hnd, fun fd => ?_⟩
        rw [hiff, hsockets, Option.filter_eq_some_iff, decide_eq_true_iff]
        exact ⟨fun h => ⟨h, hne⟩, And.left⟩
      obtain ⟨hsockets', honce'⟩ := ih (s.destroyClient c) hnodup.2 hrest
      rw [List.foldl_cons]
      refine ⟨fun fd => ?_, honce'.trans honce⟩
      rw [hsockets', hsockets, Option.filter_filter]
      congr 1
      funext k
      simp only [List.map_cons, List.mem_cons, not_or, Bool.decide_and]

theorem Owns.closes (hs : Owns cfg s) (hn : Holds s.stream.table n)
    (hc : c ∈ n.listClientNodeHead) : Closes s c := by
  obtain ⟨x, hx, heq, hnodup, -⟩ := hs.client hn hc
  refine ⟨hnodup, fun fd => ⟨hs.client_opened hn hc fd, fun hfd => ?_⟩⟩
  obtain ⟨⟨y, hy, hmem⟩, -⟩ := hs.known fd c.call hfd
  obtain rfl : x = y := Option.some.inj (hx.symm.trans hy)
  exact heq ▸ hmem

theorem Owns.delClient (hs : Owns cfg s) (hn : Holds s.stream.table n)
    (hc : c ∈ n.listClientNodeHead) (hflag : c.iDeleteFlag = 1) :
    Owns cfg (delClient n c s) := by
  have hsound : Sound cfg (Server.delClient n c s) :=
    hs.sound.step (e := .delClient n c) ⟨hn, hc, hflag⟩
  obtain ⟨sockets, closedTwice, heq⟩ := delClient_eq n c s
  have hstream := congrArg State.stream heq
  have hmade := congrArg State.made heq
  have hsip := congrArg State.sip heq
  have htoStream := congrArg State.toStream heq
  have hown : Seat s.stream n.id c.id c.call := ⟨n, hn, rfl, mem_pairs hc⟩
  have hcloses : Closes { s with stream := (Server.delClient n c s).stream } c := hs.closes hn hc
  obtain ⟨hsockets, honce⟩ := sockets_destroyClient hcloses
  rw [hstream] at hsockets honce
  refine hs.destroyed hsound [c.call] hmade hsip htoStream ?_ (fun i j k => ?_) ?_ (fun fd => ?_) ?_
  · rw [hstream]
    rfl
  · rw [hstream, seat_delClient hs.sound.stream hn (hs.sound.clients n hn).ids, List.mem_singleton]
    refine and_congr_right fun hseat => not_congr ⟨?_, ?_⟩
    · rintro ⟨rfl, rfl⟩
      obtain ⟨c', hc', hpair⟩ := List.mem_map.mp ((seat_iff hs.sound.stream hn).mp hseat)
      rw [Prod.mk.injEq] at hpair
      obtain rfl := List.inj_on_of_nodup_map (hs.sound.clients n hn).ids hc' hc hpair.1
      exact hpair.2.symm
    · rintro rfl
      exact hs.alone _ _ _ _ _ hseat hown
  · intro k hk
    rw [List.mem_singleton.mp hk]
    exact ⟨_, _, hown⟩
  · refine (hsockets fd).trans ?_
    congr 1
    funext k
    simp only [List.mem_singleton, ne_eq]
  · exact honce.trans hs.once

theorem Owns.delNode (hs : Owns cfg s) (hn : Holds s.stream.table n) :
    Owns cfg (delNode n s) := by
  have hsound : Sound cfg (Server.delNode n s) := hs.sound.step (e := .delNode n) hn
  obtain ⟨sockets, closedTwice, heq⟩ := delNode_eq n s
  have hstream := congrArg State.stream heq
  have hmade := congrArg State.made heq
  have hsip := congrArg State.sip heq
  have htoStream := congrArg State.toStream heq
  have hcalls : (n.listClientNodeHead.map Client.call).Nodup := by
    refine (hs.sound.clients n hn).ids.of_map.map_on fun c hc c' hc' hcall => ?_
    exact (hs.client_unique hn hc hn hc' hcall).2
  have hcloses : ∀ c ∈ n.listClientNodeHead,
      Closes { s with stream := delNodeFromStreamHashTable n s.stream } c :=
    fun c hc => hs.closes hn hc
  obtain ⟨hsockets, honce⟩ := sockets_destroyClients _ _ hcalls hcloses
  refine hs.destroyed hsound _ hmade hsip htoStream ?_ (fun i j k => ?_) ?_ hsockets
    (honce.trans hs.once)
  · rw [hstream]
    rfl
  · rw [hstream, seat_delNode hs.sound.stream hn]
    refine and_congr_right fun hseat => not_congr ⟨?_, fun hk => ?_⟩
    · rintro rfl
      obtain ⟨c, hc, hpair⟩ := List.mem_map.mp ((seat_iff hs.sound.stream hn).mp hseat)
      exact List.mem_map.mpr ⟨c, hc, congrArg Prod.snd hpair⟩
    · obtain ⟨c, hc, rfl⟩ := List.mem_map.mp hk
      exact (hs.alone _ _ _ _ _ hseat ⟨n, hn, rfl, mem_pairs hc⟩).1
  · intro k hk
    obtain ⟨c, hc, rfl⟩ := List.mem_map.mp hk
    exact ⟨_, _, n, hn, rfl, mem_pairs hc⟩

/-- **Every step** that meets the condition keeps the sockets owned. -/
theorem Owns.step (hs : Owns cfg s) {e : Event} (hlegal : Legal cfg s e)
    (hok : OneClient cfg s e) : Owns cfg (s.step cfg e) := by
  have hsound := hs.sound.step hlegal
  cases e with
  | invite pSipMsg sockets => exact hs.invite pSipMsg hlegal
  | ack number => exact hs.ack number
  | bye number => exact hs.bye number
  | streamReadCb => exact hs.streamReadCb hok
  | timeout n c beyond =>
      refine hs.frame hsound rfl rfl rfl rfl (fun _ _ _ => ?_) fun _ _ hwait => hwait
      refine seat_modifyNode (fun _ => rfl) fun n => pairs_map (fun c => ?_) rfl
      split <;> rfl
  | sipPairReadCb => exact hs.sipPairReadCb hok
  | startFrame n frame =>
      refine hs.frame hsound rfl rfl rfl rfl (fun _ _ _ => ?_) fun _ _ hwait => hwait
      exact seat_modifyNode (fun _ => rfl) fun _ => rfl
  | sendPacket n frame index frameType =>
      refine hs.frame hsound rfl rfl rfl rfl (fun _ _ _ => ?_) fun _ _ hwait => hwait
      refine seat_modifyNode (keeps_nextPacket frame index frameType).id fun n => ?_
      obtain ⟨f, hf, hlist⟩ := nextPacket_clients frame index frameType n
      exact pairs_map hf hlist
  | delClient n c => exact hs.delClient hlegal.1 hlegal.2.1 hlegal.2.2
  | delNode n => exact hs.delNode hlegal

end Owns

/-! ## Runs -/

/-- **The sockets of the calls are owned** in every state of a run in which each call gets one
client, and gets it before the last record that knows its sockets is gone. -/
theorem owned_reachable (cfg : Config) {s : State}
    (hs : (system cfg).ReachableWith (OneClient cfg) s) : Owned s := by
  have howns : Owns cfg s := by
    refine hs.invariant (fun s hinit => ?_) fun s e s' hall hok hstep => ?_
    · obtain rfl : s = {} := hinit
      exact owns_init
    · obtain ⟨hlegal, rfl⟩ := hstep
      exact hall.step hlegal hok
  exact howns.owned

instance (t : Stream.State) (call : Nat) : Decidable (Served t call) :=
  decidable_of_iff (∃ entry ∈ t.added, entry.1.id = call) <| by
    unfold Served
    constructor
    · rintro ⟨⟨m, i, j⟩, hmem, hid⟩
      exact ⟨m, i, j, hmem, hid⟩
    · rintro ⟨m, i, j, hmem, hid⟩
      exact ⟨(m, i, j), hmem, hid⟩

theorem oneClient_of {cfg : Config} {s : State}
    (hall : ∀ m ∈ s.toStream,
      if m.enumCmdType = .play ∧ (clientOf cfg.hashing m s.stream).isNone then
        ¬ Served s.stream m.id
      else Served s.stream m.id) :
    OneClient cfg s .streamReadCb := by
  intro m toStream hread
  have hm : m ∈ s.toStream := by
    rw [hread]
    exact List.mem_cons_self
  have hserved := hall m hm
  split
  · rename_i hplays
    rwa [if_pos ⟨hplays.1, Option.isNone_iff_eq_none.mpr hplays.2⟩] at hserved
  · rename_i hplays
    rw [if_neg fun h => hplays ⟨h.1, Option.isNone_iff_eq_none.mp h.2⟩] at hserved
    exact .inl hserved

/-- Two calls of one camera.  The first one is ended and its client is destroyed, which closes
its sockets and no others. -/
theorem owned_reachable_ended :
    let cfg := config true
    let x : Text := ⟨[0x61], by decide⟩
    let y : Text := ⟨[0x62], by decide⟩
    let s := State.step cfg {} (.invite (inviteOf x x) ⟨7, 20000, 8, 20001⟩)
    let s := s.step cfg (.invite (inviteOf y x) ⟨9, 20002, 10, 20003⟩)
    let s := (s.step cfg (.ack x)).step cfg .streamReadCb
    let s := (s.step cfg (.ack y)).step cfg .streamReadCb
    let s := (s.step cfg (.bye x)).step cfg .streamReadCb
    let s := s.step cfg (.delClient (camera cfg s) (viewer cfg s 0))
    Owned s ∧ (camera cfg s).listClientNodeHead.map Client.call = [1] ∧
      [7, 8, 9, 10].map s.sockets = [none, none, some 1, some 1] := by
  intro cfg x y s₁ s₂ s₄ s₆ s₈ s
  have h₂ : (system cfg).ReachableWith (OneClient cfg) s₂ :=
    reachable_twoInvites (fun _ _ _ => trivial) ..
  have h₄ : (system cfg).ReachableWith (OneClient cfg) s₄ :=
    reachable_read h₂ (.ack x) trivial trivial (oneClient_of (by decide +kernel))
      (by decide +kernel)
  have h₆ : (system cfg).ReachableWith (OneClient cfg) s₆ :=
    reachable_read h₄ (.ack y) trivial trivial (oneClient_of (by decide +kernel))
      (by decide +kernel)
  have h₈ : (system cfg).ReachableWith (OneClient cfg) s₈ :=
    reachable_read h₆ (.bye x) trivial trivial (oneClient_of (by decide +kernel))
      (by decide +kernel)
  have hs : (system cfg).ReachableWith (OneClient cfg) s :=
    reachable_step h₈ _ trivial
      ⟨holds_camera (by decide +kernel), viewer_mem (by decide +kernel), by decide +kernel⟩
  exact ⟨owned_reachable cfg hs, by decide +kernel, by decide +kernel⟩

/-- The node of a first call `x`, with the sockets 7 and 8. -/
def firstNode (x : Text) : SipEntry :=
  newSipNode 0 ((config true).sipHashing.uHashValue (paraseInvite (inviteOf x x)).callId)
    (paraseInvite (inviteOf x x)) ⟨7, 20000, 8, 20001⟩

/-- A call that is ended before it is acknowledged: its node is gone, its `STOP` finds no client,
and its sockets stay open. -/
theorem owned_byeBeforeAck : ¬ ∀ s, (system (config true)).Reachable s → Owned s := by
  intro hall
  let cfg := config true
  let x : Text := ⟨[0x61], by decide⟩
  let s₁ := State.step cfg {} (.invite (inviteOf x x) ⟨7, 20000, 8, 20001⟩)
  let s₃ := (s₁.step cfg (.bye x)).step cfg .streamReadCb
  have h₀ : (system cfg).Reachable {} := .init rfl
  have h₁ : (system cfg).Reachable s₁ :=
    reachable_step h₀ _ trivial ⟨by decide, rfl, by decide, rfl, by decide⟩
  have h₃ : (system cfg).Reachable s₃ :=
    reachable_read h₁ (.bye x) trivial trivial trivial (by decide +kernel)
  have hopen : s₃.sockets 7 = some 0 := by decide +kernel
  have hfind : findNodeFromSipHashTable cfg.sipHashing (paraseAckBye x).callId s₁.sip =
      some (firstNode x) := by decide +kernel
  have hbye : s₁.step cfg (.bye x) =
      { s₁ with
        sip := delNodeFromSipHashTable (firstNode x)
          (setCmdType .stop (firstNode x) s₁.sip) }.writeToStream
            (withCmdType .stop (firstNode x)) := by
    rcases bye_cases cfg x s₁ with ⟨hnone, -⟩ | ⟨m, hm, heq⟩
    · rw [hfind] at hnone
      cases hnone
    · obtain rfl := Option.some.inj (hfind.symm.trans hm)
      exact heq
  have hread : (s₁.step cfg (.bye x)).toStream = [withCmdType .stop (firstNode x)] := by
    rw [hbye]
    rfl
  have heq : s₃ = _ := streamReadCb_cons hread
  rw [hbye] at heq
  have hrefers := (hall s₃ h₃).noLeak 7 0 hopen
  rw [heq] at hrefers
  rcases hrefers with ⟨n, hn, -⟩ | ⟨m, hm, -⟩ | ⟨c, ⟨n, ⟨_, hn⟩, -⟩, -⟩
  · obtain ⟨hn, hne⟩ := ((stopped (sound_reachable h₁).sip (holds_of_find hfind)).2 n).mp hn
    rcases holds_append.mp hn with ⟨_, hn⟩ | rfl
    · exact absurd hn List.not_mem_nil
    · exact hne rfl
  · exact absurd hm List.not_mem_nil
  · exact absurd hn List.not_mem_nil

end GbStream.Server
