import GbStream.Task.Relay

/-!
# From the source to the viewers

Whatever the order of the steps is and however the bytes of the source are cut, the stream that
is sent carries the video frames of the source, and a viewer reads all of them from its first key
frame on, if it had the one datagram that it is not sent.
-/

namespace GbStream.Task.Relay

open Ps Rtp Recv

variable {ssrc : UInt32} {relay : Relay}

theorem reached (ssrc : UInt32) {all : List Packet} (hsource : Source all) {receiver : Receiver}
    (hfresh : receiver.Fresh) (events : List Event)
    (hfirst : ∀ event, events.head? = some event → event = .join)
    (hkept : ∀ event ∈ events, event.Kept) (hstream : arrived events <+: wire all) :
    let schedule := scheduleOf all events
    ∃ relay records groups, run (start ssrc receiver) events = some relay ∧
      all = schedule.source.taken ++ schedule.source.left ∧
      arrived events = wire schedule.source.taken ++ relay.receiver.input ∧
      Good ssrc schedule relay ∧ Progress ssrc (start ssrc receiver) records groups relay ∧
      (events ≠ [] → relay.clients ≠ []) := by
  have hstart : Good ssrc { source := { left := all } } (start ssrc receiver) :=
    Good.start hfresh all
  cases events with
  | nil =>
      refine ⟨start ssrc receiver, [], [], rfl, rfl, ?_, hstart,
        .of_waiting rfl rfl rfl (List.append_nil _).symm, absurd rfl⟩
      exact hfresh.input.symm
  | cons event events =>
      obtain rfl := hfirst event rfl
      obtain ⟨relay, hstep, hreceiver, hgood, hclients, hprogress⟩ := hstart.join
      have hinput : relay.receiver.input = [] := by
        rw [hreceiver]
        exact hfresh.input
      have hne : relay.clients ≠ [] := by
        rw [hclients]
        exact List.append_ne_nil_of_right_ne_nil _ (List.cons_ne_nil _ _)
      obtain ⟨relay', taken, records, groups, hrun, htaken, hleft, hbytes, hgood', hprogress'⟩ :=
        hgood.run events hsource hne
          (fun event hevent => hkept event (List.mem_cons_of_mem _ hevent))
          (by rw [hinput]; exact hstream)
      rw [hinput] at hbytes
      obtain rfl : _ = taken := htaken
      refine ⟨relay', _, _, ?_, hleft, hbytes, hgood', hprogress.trans hprogress',
        fun _ => hprogress'.clients_ne_nil hne⟩
      rw [run_cons, hstep]
      exact hrun

theorem Schedule.rounds (n : Nat) :
    ∀ {schedule : Schedule}, schedule.popped ≤ schedule.records.length - 15 →
      (List.replicate n Event.round).foldl Schedule.step schedule =
        { schedule with
          popped := min (schedule.popped + n) (schedule.records.length - 15) } := by
  induction n with
  | zero =>
      intro schedule h
      rw [List.replicate_zero, List.foldl_nil, Nat.add_zero, Nat.min_eq_left h]
  | succ n ih =>
      intro schedule h
      rw [List.replicate_succ, List.foldl_cons, Schedule.step]
      by_cases hlt : schedule.popped + 15 < schedule.records.length
      · have hnext : schedule.popped + 1 ≤ schedule.records.length - 15 := by omega
        rw [if_pos hlt, ih hnext, Nat.add_right_comm, Nat.add_assoc schedule.popped n 1]
        rfl
      · rw [if_neg hlt, ih h]
        have hstill : min (schedule.popped + n) (schedule.records.length - 15) =
            min (schedule.popped + (n + 1)) (schedule.records.length - 15) := by omega
        rw [hstill]

end GbStream.Task.Relay
