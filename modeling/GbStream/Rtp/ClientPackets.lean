import GbStream.Rtp.ClientInvariant

/-!
# The packets of the loop

Whatever is done to the list of clients, the loop makes the packets of its frame one after the
other, and when it returns it has made all of them.
-/

namespace GbStream.Rtp

open Support.Bytes Support.Transition

/-- The packets that `get_rtp_ps_pack` makes of a frame; it is not called for up to three bytes. -/
def framePackets (rtpInfoVideo : RtpInfo) (frame : PsFrame) : Option (List (List UInt8)) :=
  if frame.dataSize > 3 then (packFrame rtpInfoVideo frame).map Prod.fst else some []

variable {number : Nat} {frameType : Int} {rtpInfoVideo : RtpInfo} {frame : PsFrame}
  {clients : List Nat} {client : Nat → ClientNode} {s s' : LoopState}
  {drained left : List (List UInt8)}

theorem framePackets_of_valid {ssrc : UInt32} (hvalid : frame.Valid)
    (hdr : Video ssrc rtpInfoVideo.rtpHdr) :
    ∃ drained, framePackets rtpInfoVideo frame = some drained ∧
      drained.map readRtp =
        (List.range (if frame.dataSize > 3 then packCount frame.dataSize else 0)).map fun k =>
          some (frame.fields ssrc (rtpInfoVideo.rtpHdr.seqNo.toNat + k) k, frame.piece k) := by
  by_cases hsize : frame.dataSize > 3
  · have hseq := (Nat.mod_eq_of_lt rtpInfoVideo.rtpHdr.seqNo.toNat_lt).symm
    obtain ⟨drained, last, lastBuf, hpack, hdrained, -⟩ := packFrame_spec hvalid hdr hseq
    refine ⟨drained, ?_, ?_⟩
    · rw [framePackets, if_pos hsize, hpack]
      rfl
    · rw [if_pos hsize]
      exact hdrained
  · exact ⟨[], if_neg hsize, by rw [if_neg hsize]; rfl⟩

theorem placed_cons (bytes : List UInt8) (first : Nat) :
    placed number frameType first (bytes :: left) =
      { frame := number, frameType, index := first, bytes } ::
        placed number frameType (first + 1) left := rfl

/-! ## What is left of the frame -/

/-- The packets `left` are those that are still to be made. -/
structure Packing (number : Nat) (frameType : Int) (drained : List (List UInt8)) (s : LoopState)
    (left : List (List UInt8)) : Prop where
  packets : s.packets ++ placed number frameType s.packets.length left =
    placed number frameType 0 drained
  returned : s.place = .returned → left = []
  drains : s.place ≠ .returned → ∃ fuel last, drainPacks fuel s.rtpInfo s.buf = some (left, last)

namespace Packing

theorem keep (h : Packing number frameType drained s left) (hpackets : s'.packets = s.packets)
    (hrtpInfo : s'.rtpInfo = s.rtpInfo) (hbuf : s'.buf = s.buf)
    (hplace : s'.place = .returned ↔ s.place = .returned) :
    Packing number frameType drained s' left where
  packets := by rw [hpackets]; exact h.packets
  returned := fun hreturned => h.returned (hplace.mp hreturned)
  drains := fun hgoes => by
    rw [hrtpInfo, hbuf]
    exact h.drains fun hreturned => hgoes (hplace.mpr hreturned)

theorem getRtpPsPack (h : Packing number frameType drained s left)
    (hplace : s.place = .nextPacket) :
    ∃ rtpInfo buf size, Rtp.getRtpPsPack s.rtpInfo s.buf = some (rtpInfo, buf, size) ∧
      ((size = none ∧ left = []) ∨
        ∃ rtpSize rest, size = some rtpSize ∧ left = slice buf rtpInfo.pRTP rtpSize :: rest ∧
          ∃ fuel last, drainPacks fuel rtpInfo buf = some (rest, last)) := by
  obtain ⟨fuel, last, hdrain⟩ := h.drains (by rw [hplace]; exact Place.noConfusion)
  cases fuel with
  | zero => cases hdrain
  | succ fuel =>
      simp only [drainPacks, Option.bind_eq_bind, Option.bind_eq_some_iff] at hdrain
      obtain ⟨⟨rtpInfo, buf, size⟩, hcall, hdrain⟩ := hdrain
      refine ⟨rtpInfo, buf, size, hcall, ?_⟩
      cases size with
      | none =>
          simp only [Option.some.injEq, Prod.mk.injEq] at hdrain
          exact .inl ⟨rfl, hdrain.1.symm⟩
      | some rtpSize =>
          obtain ⟨⟨rest, last'⟩, hrest, heq⟩ := Option.bind_eq_some_iff.mp hdrain
          simp only [Option.some.injEq, Prod.mk.injEq] at heq
          exact .inr ⟨rtpSize, rest, rfl, heq.1.symm, fuel, last', hrest⟩

theorem send (h : Packing number frameType drained s left)
    (hstep : SendStep number frameType s s') :
    ∃ left', Packing number frameType drained s' left' := by
  cases hstep with
  | frameOver rtpInfo buf hplace hnone =>
      obtain ⟨_, _, size, hcall, hsize⟩ := h.getRtpPsPack hplace
      rw [hnone, Option.some.injEq, Prod.mk.injEq, Prod.mk.injEq] at hcall
      obtain ⟨rfl, rfl, rfl⟩ := hcall
      rcases hsize with ⟨-, rfl⟩ | ⟨rtpSize, _, hsome, -⟩
      · exact ⟨[], h.packets, fun _ => rfl, fun hgoes => absurd rfl hgoes⟩
      · cases hsome
  | packet rtpInfo buf rtpSize hplace hsome =>
      obtain ⟨_, _, size, hcall, hsize⟩ := h.getRtpPsPack hplace
      rw [hsome, Option.some.injEq, Prod.mk.injEq, Prod.mk.injEq] at hcall
      obtain ⟨rfl, rfl, rfl⟩ := hcall
      rcases hsize with ⟨hnone, -⟩ | ⟨rtpSize', rest, heq, rfl, hdrain⟩
      · cases hnone
      · obtain rfl := Option.some.inj heq
        refine ⟨rest, ?_, nofun, fun _ => hdrain⟩
        have hpackets := h.packets
        rw [placed_cons] at hpackets
        rw [List.length_append, List.length_singleton, List.append_assoc]
        exact hpackets
  | passOver hplace | fetch _ hplace | flagged _ hplace | unflagged _ hplace | unlink _ hplace
  | release _ hplace | offer _ _ hplace =>
      exact ⟨left, h.keep rfl rfl rfl (by rw [hplace]; exact ⟨nofun, nofun⟩)⟩

theorem step (h : Packing number frameType drained s left) {event : LoopEvent}
    (hstep : loopStep number frameType s event = some s') :
    ∃ left', Packing number frameType drained s' left' := by
  cases event with
  | send => exact h.send (sendStep_cases hstep)
  | setDeleteFlag q =>
      obtain rfl := Option.some.inj hstep
      exact ⟨left, h.keep rfl rfl rfl Iff.rfl⟩
  | append q =>
      obtain ⟨-, rfl⟩ := append_cases hstep
      exact ⟨left, h.keep rfl rfl rfl Iff.rfl⟩

theorem start (hframe : framePackets rtpInfoVideo frame = some drained) :
    Packing number frameType drained (.start rtpInfoVideo frame clients client) drained := by
  refine ⟨rfl, fun hreturned => ?_, fun hgoes => ?_⟩
  · by_cases hsize : frame.dataSize > 3
    · simp [LoopState.start, hsize] at hreturned
    · rw [framePackets, if_neg hsize] at hframe
      exact (Option.some.inj hframe).symm
  · by_cases hsize : frame.dataSize > 3
    · rw [framePackets, if_pos hsize] at hframe
      obtain ⟨⟨packets, last⟩, hpack, rfl⟩ := Option.map_eq_some_iff.mp hframe
      exact ⟨frame.dataSize + 1, last, hpack⟩
    · simp [LoopState.start, hsize] at hgoes

theorem reachable (hframe : framePackets rtpInfoVideo frame = some drained)
    (h : (clientLoop number frameType (.start rtpInfoVideo frame clients client)).Reachable s) :
    ∃ left, Packing number frameType drained s left := by
  induction h with
  | init hs =>
      obtain rfl := hs
      exact ⟨drained, .start hframe⟩
  | step _ _ hstep ih =>
      obtain ⟨left, hleft⟩ := ih
      exact hleft.step hstep

end Packing

/-! ## What has been made -/

/-- The loop makes the packets `drained`: those made so far are the first of them, a pass is
followed by that of the next one as long as there is one, and then the function returns. -/
structure MakesFrame (number : Nat) (frameType : Int) (drained : List (List UInt8))
    (s : LoopState) : Prop where
  made : s.packets <+: placed number frameType 0 drained
  goesOn : s.place = .nextPacket → ∃ s', sendStep number frameType s = some s' ∧
    if s.packets.length < drained.length then
      s'.place = .nextClient ∧ s'.packets.length = s.packets.length + 1
    else s'.place = .returned
  all : s.place = .returned → s.packets = placed number frameType 0 drained

theorem Packing.makesFrame (h : Packing number frameType drained s left) :
    MakesFrame number frameType drained s where
  made := ⟨_, h.packets⟩
  goesOn := fun hplace => by
    have hlength := congrArg List.length h.packets
    simp only [placed, List.length_append, List.length_map, List.length_zipIdx] at hlength
    obtain ⟨rtpInfo, buf, size, hcall, ⟨rfl, rfl⟩ | ⟨rtpSize, rest, rfl, rfl, -⟩⟩ :=
      h.getRtpPsPack hplace
    · refine ⟨{ s with rtpInfo, buf, place := .returned }, ?_, ?_⟩
      · simp only [sendStep, hplace, hcall, Option.bind_eq_bind, Option.bind_some]
      · rw [List.length_nil] at hlength
        rw [if_neg (by omega)]
    · refine ⟨_, by
        simp only [sendStep, hplace, hcall, Option.bind_eq_bind, Option.bind_some]; rfl, ?_⟩
      rw [List.length_cons] at hlength
      rw [if_pos (by omega)]
      exact ⟨rfl, by simp⟩
  all := fun hplace => by
    have hpackets := h.packets
    rw [h.returned hplace] at hpackets
    simpa [placed] using hpackets

end GbStream.Rtp
