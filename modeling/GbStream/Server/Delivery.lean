import GbStream.Server.State
import GbStream.Call.CallMap

/-!
# Commands between the two sides

A read callback takes one record, or the one message its argument points to.  Nothing is lost
as long as no command is written while an earlier one of the same direction has still to be
read.
-/

namespace GbStream.Server

open Support.Bytes Support.CString Support.HashTable Support.Transition Call GbStream.Stream
open Rtp hiding StreamNode

/-- Once the callbacks have run, every record written has been processed, in order and once, and
the nodes of the clients that have timed out are gone. -/
structure Delivered (s : State) : Prop where
  commands : s.streamDue = false → s.processed = s.written
  timeouts : s.sipDue = false → ∀ n, Holds s.sip.buckets n → n.id ∉ s.timedOut

def foundId (cfg : Config) (callId : List UInt8) (s : State) : Option Nat :=
  (findNodeFromSipHashTable cfg.sipHashing callId s.sip).map SipEntry.id

/-- The condition on a step: the record before has been read when an `ACK` or a `BYE` writes one,
and the message of a timeout finds the node of its call and of every call that has timed out
before, as far as they are still in the table. -/
def ReadBefore (cfg : Config) (s : State) : Event → Prop
  | .ack number | .bye number =>
      foundId cfg (paraseAckBye number).callId s = none ∨ s.streamDue = false
  | .timeout _ c beyond =>
      ∀ n, Holds s.sip.buckets n → n.id ∈ s.timedOut ++ [c.call] →
        foundId cfg (timeoutMessage c beyond).callId s = some n.id
  | _ => True

/-! ## Records -/

/-- What has been written has been processed or waits, and at most one record waits. -/
structure Records (s : State) : Prop where
  order : s.processed ++ s.toStream = s.written
  atMostOne : s.toStream.length ≤ 1
  idle : s.streamDue = false → s.toStream = []

section Records

variable {cfg : Config} {s : State} {m : SipEntry}

theorem records_init : Records {} where
  order := rfl
  atMostOne := Nat.zero_le _
  idle := fun _ => rfl

theorem Records.writeToStream (hs : Records s) (hdue : s.streamDue = false) :
    Records (s.writeToStream m) := by
  have hempty := hs.idle hdue
  refine ⟨?_, ?_, fun h => absurd h Bool.noConfusion⟩
  · unfold State.writeToStream
    rw [← List.append_assoc, hs.order]
  · unfold State.writeToStream
    rw [hempty]
    exact Nat.le_refl _

theorem Records.streamReadCb (hs : Records s) : Records (streamReadCb cfg s) := by
  rcases hread : s.toStream with _ | ⟨m, toStream⟩
  · rw [streamReadCb_nil hread]
    exact ⟨hs.order, hs.atMostOne, fun _ => hread⟩
  · rw [streamReadCb_cons hread]
    have hlen := hs.atMostOne
    rw [hread, List.length_cons] at hlen
    obtain rfl : toStream = [] := List.eq_nil_of_length_eq_zero (by omega)
    refine ⟨?_, Nat.zero_le _, fun _ => rfl⟩
    rw [List.append_nil, ← hs.order, hread]

theorem due_of_found {callId : List UInt8}
    (hok : foundId cfg callId s = none ∨ s.streamDue = false)
    (hfind : findNodeFromSipHashTable cfg.sipHashing callId s.sip = some m) :
    s.streamDue = false := by
  refine hok.resolve_left fun hnone => ?_
  unfold foundId at hnone
  rw [hfind] at hnone
  cases hnone

theorem Records.step (hs : Records s) {e : Event} (hok : ReadBefore cfg s e) :
    Records (s.step cfg e) := by
  cases e with
  | invite pSipMsg sockets =>
      rcases invite_cases cfg pSipMsg sockets s with ⟨n, -, heq⟩ | ⟨-, n, -, heq⟩
      · rw [State.step, heq]
        exact ⟨hs.order, hs.atMostOne, hs.idle⟩
      · rw [State.step, heq]
        exact ⟨hs.order, hs.atMostOne, hs.idle⟩
  | ack number =>
      rcases ack_cases cfg number s with ⟨-, heq⟩ | ⟨m, hfind, heq⟩
      · rw [State.step, heq]
        exact hs
      · have hset : Records { s with sip := setCmdType .play m s.sip } :=
          ⟨hs.order, hs.atMostOne, hs.idle⟩
        have hdue : s.streamDue = false := due_of_found hok hfind
        rw [State.step, heq]
        exact hset.writeToStream hdue
  | bye number =>
      rcases bye_cases cfg number s with ⟨-, heq⟩ | ⟨m, hfind, heq⟩
      · rw [State.step, heq]
        exact hs
      · have hdel :
            Records { s with sip := delNodeFromSipHashTable m (setCmdType .stop m s.sip) } :=
          ⟨hs.order, hs.atMostOne, hs.idle⟩
        have hdue : s.streamDue = false := due_of_found hok hfind
        rw [State.step, heq]
        exact hdel.writeToStream hdue
  | streamReadCb => exact hs.streamReadCb
  | timeout n c beyond => exact ⟨hs.order, hs.atMostOne, hs.idle⟩
  | sipPairReadCb =>
      rcases sipPairReadCb_cases cfg s with ⟨-, heq⟩ | ⟨arg, m, -, -, heq⟩
      · rw [State.step, heq]
        exact ⟨hs.order, hs.atMostOne, hs.idle⟩
      · rw [State.step, heq]
        exact ⟨hs.order, hs.atMostOne, hs.idle⟩
  | startFrame n frame => exact ⟨hs.order, hs.atMostOne, hs.idle⟩
  | sendPacket n frame index frameType => exact ⟨hs.order, hs.atMostOne, hs.idle⟩
  | delClient n c =>
      obtain ⟨sockets, closedTwice, heq⟩ := delClient_eq n c s
      rw [State.step, heq]
      exact ⟨hs.order, hs.atMostOne, hs.idle⟩
  | delNode n =>
      obtain ⟨sockets, closedTwice, heq⟩ := delNode_eq n s
      rw [State.step, heq]
      exact ⟨hs.order, hs.atMostOne, hs.idle⟩

end Records

/-! ## Timeouts -/

/-- A node of a call that has timed out is the one that `sip_pair_read_cb` will find. -/
structure Timeouts (cfg : Config) (s : State) : Prop where
  past : ∀ i ∈ s.timedOut, i < s.sip.next
  pending : ∀ n, Holds s.sip.buckets n → n.id ∈ s.timedOut →
    s.sipDue = true ∧ ∃ arg, s.sipArg = some arg ∧ foundId cfg arg.callId s = some n.id

section Timeouts

variable {cfg : Config} {s s' : State} {m : SipEntry} {callId : List UInt8}

theorem timeouts_init : Timeouts cfg {} where
  past := fun _ hi => absurd hi List.not_mem_nil
  pending := fun _ ⟨_, hn⟩ => absurd hn List.not_mem_nil

/-- A step that neither times out nor reads a message: the nodes that stay in the table are found
as before, and new ones have new addresses. -/
theorem Timeouts.of_sip (hs : Timeouts cfg s) (hnext : s.sip.next ≤ s'.sip.next)
    (htimedOut : s'.timedOut = s.timedOut) (hdue : s'.sipDue = s.sipDue)
    (harg : s'.sipArg = s.sipArg)
    (hold : ∀ n, Holds s'.sip.buckets n → n.id < s.sip.next →
      (∃ n', Holds s.sip.buckets n' ∧ n'.id = n.id) ∧
        ∀ callId, foundId cfg callId s = some n.id → foundId cfg callId s' = some n.id) :
    Timeouts cfg s' := by
  refine ⟨fun i hi => ?_, fun n hn hi => ?_⟩
  · rw [htimedOut] at hi
    exact (hs.past i hi).trans_le hnext
  · rw [htimedOut] at hi
    obtain ⟨⟨n', hn', hid⟩, hfound⟩ := hold n hn (hs.past _ hi)
    rw [← hid] at hi
    obtain ⟨hsipDue, arg, hsipArg, hfind⟩ := hs.pending n' hn' hi
    rw [hid] at hfind
    exact ⟨by rw [hdue, hsipDue], arg, by rw [harg, hsipArg], hfound _ hfind⟩

theorem Timeouts.frame (hs : Timeouts cfg s) (hsip : s'.sip = s.sip)
    (htimedOut : s'.timedOut = s.timedOut) (hdue : s'.sipDue = s.sipDue)
    (harg : s'.sipArg = s.sipArg) : Timeouts cfg s' := by
  refine hs.of_sip (by rw [hsip]) htimedOut hdue harg fun n hn _ => ?_
  rw [hsip] at hn
  refine ⟨⟨n, hn, rfl⟩, fun callId hfind => ?_⟩
  unfold foundId at hfind ⊢
  rw [hsip]
  exact hfind

theorem foundId_delNode {t : SipTable} {n : SipEntry}
    (hfind : (findNodeFromSipHashTable cfg.sipHashing callId t).map SipEntry.id = some n.id)
    (hne : n.id ≠ m.id) :
    (findNodeFromSipHashTable cfg.sipHashing callId (delNodeFromSipHashTable m t)).map
      SipEntry.id = some n.id := by
  obtain ⟨x, hx, hid⟩ := Option.map_eq_some_iff.mp hfind
  have hfound : find cfg.sipHashing.bucket SipEntry.callId callId t.buckets = some x := hx
  have hother : decide (x.id = m.id) = false := by
    rw [hid]
    exact decide_eq_false hne
  exact Option.map_eq_some_iff.mpr ⟨x, find_remove_of_some hfound hother, hid⟩

theorem Timeouts.invite (hs : Timeouts cfg s) (pSipMsg : Invite) (sockets : Sockets) :
    Timeouts cfg (invite cfg pSipMsg sockets s) := by
  rcases invite_cases cfg pSipMsg sockets s with ⟨n, -, heq⟩ | ⟨-, n, hn, heq⟩
  · rw [heq]
    exact hs.frame rfl rfl rfl rfl
  · rw [heq]
    refine hs.of_sip (Nat.le_succ _) rfl rfl rfl fun y hy hlt => ?_
    have hold : Holds s.sip.buckets y := by
      rcases holds_append.mp hy with hy | rfl
      · exact hy
      · exact absurd hlt (Nat.lt_irrefl _)
    refine ⟨⟨y, hold, rfl⟩, fun callId hfind => ?_⟩
    obtain ⟨x, hx, hid⟩ := Option.map_eq_some_iff.mp hfind
    have hfound : find cfg.sipHashing.bucket SipEntry.callId callId s.sip.buckets = some x := hx
    exact Option.map_eq_some_iff.mpr ⟨x, find_append_of_some hfound, hid⟩

theorem Timeouts.ack (hs : Timeouts cfg s) (hsound : Sound cfg s) (number : Text) :
    Timeouts cfg (ack cfg number s) := by
  rcases ack_cases cfg number s with ⟨-, heq⟩ | ⟨m, hfind, heq⟩
  · rw [heq]
    exact hs
  · rw [heq]
    refine hs.of_sip (Nat.le_refl _) rfl rfl rfl fun y hy _ => ⟨?_, fun callId hfound => ?_⟩
    · rcases (holds_setCmdType hsound.sip (holds_of_find hfind) .play).mp hy with rfl | ⟨hy, -⟩
      · exact ⟨m, holds_of_find hfind, rfl⟩
      · exact ⟨y, hy, rfl⟩
    · unfold foundId State.writeToStream
      rw [map_id_find_setCmdType]
      exact hfound

theorem Timeouts.bye (hs : Timeouts cfg s) (hsound : Sound cfg s) (number : Text) :
    Timeouts cfg (bye cfg number s) := by
  rcases bye_cases cfg number s with ⟨-, heq⟩ | ⟨m, hfind, heq⟩
  · rw [heq]
    exact hs
  · rw [heq]
    have hm := holds_of_find hfind
    refine hs.of_sip (Nat.le_refl _) rfl rfl rfl fun y hy _ => ?_
    obtain ⟨hold, hne⟩ := ((stopped hsound.sip hm).2 y).mp hy
    refine ⟨⟨y, hold, rfl⟩, fun callId hfound => ?_⟩
    refine foundId_delNode ?_ fun heq => hne (hsound.sip.distinct hold hm heq)
    rw [map_id_find_setCmdType]
    exact hfound

/-- The message is read: the node it finds is taken out, and no other call waits. -/
theorem Timeouts.sipPairReadCb (hs : Timeouts cfg s) (hsound : Sound cfg s) :
    Timeouts cfg (sipPairReadCb cfg s) := by
  rcases sipPairReadCb_cases cfg s with ⟨hnone, heq⟩ | ⟨arg, m, harg, hfind, heq⟩
  · rw [heq]
    refine ⟨hs.past, fun n hn hi => ?_⟩
    obtain ⟨-, arg, harg, hfound⟩ := hs.pending n hn hi
    unfold foundId at hfound
    rw [hnone arg harg] at hfound
    cases hfound
  · rw [heq]
    have hm := holds_of_find hfind
    refine ⟨hs.past, fun n hn hi => ?_⟩
    obtain ⟨hold, hne⟩ := (hsound.sip.holds_delNode hm).mp hn
    obtain ⟨-, arg', harg', hfound⟩ := hs.pending n hold hi
    obtain rfl : arg = arg' := Option.some.inj (harg.symm.trans harg')
    unfold foundId at hfound
    rw [hfind] at hfound
    exact absurd (hsound.sip.distinct hold hm (Option.some.inj hfound).symm) hne

theorem Timeouts.timeout (hs : Timeouts cfg s) (hsound : Sound cfg s) {n : StreamNode}
    {c : Client} {beyond : List UInt8} (hlegal : Legal cfg s (.timeout n c beyond))
    (hok : ReadBefore cfg s (.timeout n c beyond)) :
    Timeouts cfg (udpRtcpRecvCb n c beyond s) := by
  obtain ⟨hn, hc⟩ := hlegal
  obtain ⟨x, hx, -⟩ := (hsound.clients n hn).clientOf c hc
  have hcall : c.call < s.sip.next := by
    rw [← hsound.made]
    exact (List.getElem?_eq_some_iff.mp hx).1
  refine ⟨fun i hi => ?_, fun y hy hi => ⟨rfl, _, rfl, hok y hy hi⟩⟩
  rcases List.mem_append.mp hi with hi | hi
  · exact hs.past i hi
  · rw [List.mem_singleton.mp hi]
    exact hcall

theorem Timeouts.step (hs : Timeouts cfg s) (hsound : Sound cfg s) {e : Event}
    (hlegal : Legal cfg s e) (hok : ReadBefore cfg s e) : Timeouts cfg (s.step cfg e) := by
  cases e with
  | invite pSipMsg sockets => exact hs.invite pSipMsg sockets
  | ack number => exact hs.ack hsound number
  | bye number => exact hs.bye hsound number
  | streamReadCb =>
      rw [State.step]
      rcases hread : s.toStream with _ | ⟨m, toStream⟩
      · rw [streamReadCb_nil hread]
        exact hs.frame rfl rfl rfl rfl
      · rw [streamReadCb_cons hread]
        exact hs.frame rfl rfl rfl rfl
  | timeout n c beyond => exact hs.timeout hsound hlegal hok
  | sipPairReadCb => exact hs.sipPairReadCb hsound
  | startFrame n frame => exact hs.frame rfl rfl rfl rfl
  | sendPacket n frame index frameType => exact hs.frame rfl rfl rfl rfl
  | delClient n c =>
      obtain ⟨sockets, closedTwice, heq⟩ := delClient_eq n c s
      rw [State.step, heq]
      exact hs.frame rfl rfl rfl rfl
  | delNode n =>
      obtain ⟨sockets, closedTwice, heq⟩ := delNode_eq n s
      rw [State.step, heq]
      exact hs.frame rfl rfl rfl rfl

end Timeouts

/-! ## Runs -/

structure Waiting (cfg : Config) (s : State) : Prop where
  sound : Sound cfg s
  records : Records s
  timeouts : Timeouts cfg s

theorem waiting_reachable {cfg : Config} {s : State}
    (hs : (system cfg).ReachableWith (ReadBefore cfg) s) : Waiting cfg s := by
  refine hs.invariant (fun s hinit => ?_) fun s e s' hall hok hstep => ?_
  · obtain rfl : s = {} := hinit
    exact ⟨sound_init, records_init, timeouts_init⟩
  · obtain ⟨hlegal, rfl⟩ := hstep
    exact ⟨hall.sound.step hlegal, hall.records.step hok, hall.timeouts.step hall.sound hlegal hok⟩

/-- **No command is lost** in a run in which none is written before the one ahead of it has been
read. -/
theorem delivered_reachable (cfg : Config) {s : State}
    (hs : (system cfg).ReachableWith (ReadBefore cfg) s) : Delivered s := by
  obtain ⟨-, hrecords, htimeouts⟩ := waiting_reachable hs
  refine ⟨fun hdue => ?_, fun hdue n hn hi => ?_⟩
  · rw [← hrecords.order, hrecords.idle hdue, List.append_nil]
  · rw [(htimeouts.pending n hn hi).1] at hdue
    cases hdue

/-- Two calls that are invited and acknowledged; the client of the first one times out, and the
second call is ended. -/
theorem delivered_reachable_timeout :
    let cfg := config true
    let x : Text := ⟨[0x61], by decide⟩
    let y : Text := ⟨[0x62], by decide⟩
    let s := State.step cfg {} (.invite (inviteOf x ⟨[0x63], by decide⟩) ⟨7, 20000, 8, 20001⟩)
    let s := s.step cfg (.invite (inviteOf y ⟨[0x63], by decide⟩) ⟨9, 20002, 10, 20003⟩)
    let s := (s.step cfg (.ack x)).step cfg .streamReadCb
    let s := (s.step cfg (.ack y)).step cfg .streamReadCb
    let s := s.step cfg (.timeout (camera cfg s) (viewer cfg s 0) [0])
    let s := (s.step cfg (.bye y)).step cfg .streamReadCb
    let s := s.step cfg .sipPairReadCb
    Delivered s ∧ s.timedOut = [0] ∧
      s.processed.map (fun m => (m.enumCmdType, m.id)) = [(.play, 0), (.play, 1), (.stop, 1)] := by
  intro cfg x y s₁ s₂ s₄ s₆ s₇ s₉ s
  have h₂ : (system cfg).ReachableWith (ReadBefore cfg) s₂ :=
    reachable_twoInvites (fun _ _ _ => trivial) ..
  have h₄ : (system cfg).ReachableWith (ReadBefore cfg) s₄ :=
    reachable_read h₂ (.ack x) (.inr (by decide +kernel)) trivial trivial (by decide +kernel)
  have h₆ : (system cfg).ReachableWith (ReadBefore cfg) s₆ :=
    reachable_read h₄ (.ack y) (.inr (by decide +kernel)) trivial trivial (by decide +kernel)
  have hfound : foundId cfg (timeoutMessage (viewer cfg s₆ 0) [0]).callId s₆ = some 0 := by
    decide +kernel
  have htimedOut : s₆.timedOut ++ [(viewer cfg s₆ 0).call] = [0] := by decide +kernel
  have h₇ : (system cfg).ReachableWith (ReadBefore cfg) s₇ := by
    refine reachable_step h₆ _ (fun n _ hid => ?_)
      ⟨holds_camera (by decide +kernel), viewer_mem (by decide +kernel)⟩
    rw [htimedOut, List.mem_singleton] at hid
    rw [hid, hfound]
  have h₉ : (system cfg).ReachableWith (ReadBefore cfg) s₉ :=
    reachable_read h₇ (.bye y) (.inr (by decide +kernel)) trivial trivial (by decide +kernel)
  have hs : (system cfg).ReachableWith (ReadBefore cfg) s :=
    reachable_step h₉ .sipPairReadCb trivial (show s₉.sipDue = true by decide +kernel)
  exact ⟨delivered_reachable cfg hs, by decide +kernel, by decide +kernel⟩

/-- Two calls are acknowledged before the read callback runs: it reads one record. -/
theorem delivered_twoAcks :
    ¬ ∀ s, (system (config true)).Reachable s → Delivered s := by
  intro hall
  let cfg := config true
  let x : Text := ⟨[0x61], by decide⟩
  let y : Text := ⟨[0x62], by decide⟩
  let s₁ := State.step cfg {} (.invite (inviteOf x ⟨[0x63], by decide⟩) ⟨7, 20000, 8, 20001⟩)
  let s₂ := s₁.step cfg (.invite (inviteOf y ⟨[0x63], by decide⟩) ⟨9, 20002, 10, 20003⟩)
  let s₄ := (s₂.step cfg (.ack x)).step cfg (.ack y)
  have h₂ : (system cfg).Reachable s₂ := reachable_twoInvites (fun _ _ _ => trivial) ..
  have h₃ := reachable_step h₂ (.ack x) trivial trivial
  have h₄ : (system cfg).Reachable s₄ := reachable_step h₃ (.ack y) trivial trivial
  have hdue : s₄.streamDue = true := by decide +kernel
  have h₅ := reachable_step h₄ .streamReadCb trivial hdue
  have hidle : (s₄.step cfg .streamReadCb).streamDue = false := by decide +kernel
  have hlength := congrArg List.length ((hall _ h₅).commands hidle)
  revert hlength
  decide +kernel

end GbStream.Server
