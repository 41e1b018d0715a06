import Mathlib.Data.List.InsertIdx
import Mathlib.Data.List.Nodup
import Mathlib.Logic.Relation
import GbStream.Rtp.ClientLoop

/-!
# The loop over the clients when nobody interferes

Run statement by statement without a change of the list or of a flag, the loop leaves what the
function computes: the same clients with the same packets, and the same clients freed.
-/

namespace GbStream.Rtp

open Support.Bytes

abbrev Alone (number : Nat) (frameType : Int) : LoopState → LoopState → Prop :=
  Relation.ReflTransGen fun s s' => sendStep number frameType s = some s'

/-- The clients of the loop are those of the function; `freed` had been freed before. -/
structure Matches (freed : List ClientNode) (s : LoopState) (pass : ClientPass) : Prop where
  clients : pass.listClientNodeHead = s.listClientNodeHead.map s.client
  size : s.clientListSize = pass.clientListSize
  length : pass.clientListSize = pass.listClientNodeHead.length
  freed : pass.freed = freed ++ s.freed.map s.client
  nodup : (s.freed ++ s.listClientNodeHead).Nodup

variable {number : Nat} {frameType : Int} {freed : List ClientNode} {s : LoopState}
  {pass pass' : ClientPass} {packet : RtpPacket}

structure Round (s s' : LoopState) (left i : Nat) : Prop where
  place : s'.place = .nextClient
  tmpListSize : s'.tmpListSize = left
  i : s'.i = i
  packets : s'.packets = s.packets
  rtpInfo : s'.rtpInfo = s.rtpInfo
  buf : s'.buf = s.buf

theorem Matches.listGetAt (h : Matches freed s pass) {i : Nat} {c : ClientNode}
    (hc : pass.listClientNodeHead[i]? = some c) :
    ∃ p, Rtp.listGetAt s.listClientNodeHead i = some p ∧ s.listClientNodeHead[i]? = some p ∧
      s.client p = c ∧ p ∉ s.freed := by
  rw [h.clients, List.getElem?_map, Option.map_eq_some_iff] at hc
  obtain ⟨p, hp, rfl⟩ := hc
  refine ⟨p, ?_, hp, rfl, fun hfreed => ?_⟩
  · rw [Rtp.listGetAt, if_pos (Int.natCast_nonneg i), Int.toNat_natCast, hp]
  · exact (List.nodup_append'.mp h.nodup).2.2 hfreed (List.mem_of_getElem? hp)

theorem Matches.delete (h : Matches freed s pass) {i p : Nat}
    (hp : s.listClientNodeHead[i]? = some p) :
    Matches freed
      { s with
        listClientNodeHead := s.listClientNodeHead.erase p
        clientListSize := s.clientListSize - 1
        freed := s.freed ++ [p] }
      { pass with
        listClientNodeHead := pass.listClientNodeHead.eraseIdx i
        clientListSize := pass.clientListSize - 1
        freed := pass.freed ++ [s.client p] } := by
  obtain ⟨hi, rfl⟩ := List.getElem?_eq_some_iff.mp hp
  obtain ⟨hfreed, hlist, hapart⟩ := List.nodup_append'.mp h.nodup
  have herase := hlist.erase_getElem i hi
  have hlength : pass.clientListSize = s.listClientNodeHead.length := by
    rw [h.length, h.clients, List.length_map]
  constructor
  · show pass.listClientNodeHead.eraseIdx i = (s.listClientNodeHead.erase _).map s.client
    rw [h.clients, herase, List.eraseIdx_map]
  · show s.clientListSize - 1 = ((pass.clientListSize - 1 : Nat) : Int)
    have hsize := h.size
    omega
  · show pass.clientListSize - 1 = (pass.listClientNodeHead.eraseIdx i).length
    rw [List.length_eraseIdx_of_lt (by rw [← h.length, hlength]; exact hi), h.length]
  · show pass.freed ++ [s.client _] = freed ++ (s.freed ++ [_]).map s.client
    rw [h.freed, List.map_append, List.append_assoc]
    rfl
  · show (s.freed ++ [_] ++ s.listClientNodeHead.erase _).Nodup
    have hperm := List.perm_cons_erase (List.getElem_mem hi)
    rw [List.append_assoc]
    exact (hperm.append_left s.freed).nodup_iff.mp h.nodup

theorem Matches.offer (h : Matches freed s pass) (packet : RtpPacket) (frameType : Int)
    {i p : Nat}
    (hp : s.listClientNodeHead[i]? = some p) :
    Matches freed
      { s with client := Function.update s.client p ((s.client p).offer packet frameType) }
      { pass with
        listClientNodeHead :=
          pass.listClientNodeHead.set i ((s.client p).offer packet frameType) } := by
  obtain ⟨hi, rfl⟩ := List.getElem?_eq_some_iff.mp hp
  obtain ⟨-, hlist, hapart⟩ := List.nodup_append'.mp h.nodup
  have hmem := List.getElem_mem hi
  constructor
  · show _ = s.listClientNodeHead.map (Function.update s.client _ _)
    rw [hlist.map_update, if_pos hmem, hlist.idxOf_getElem i hi, h.clients]
  · exact h.size
  · show pass.clientListSize = (pass.listClientNodeHead.set i _).length
    rw [List.length_set, h.length]
  · show pass.freed = freed ++ s.freed.map (Function.update s.client _ _)
    rw [h.freed]
    congr 1
    apply List.map_congr_left
    intro q hq
    have hne : q ≠ s.listClientNodeHead[i] := fun heq => hapart hq (by rw [heq]; exact hmem)
    exact (Function.update_of_ne hne ..).symm
  · exact h.nodup

theorem sendStep_release (number : Nat) (frameType : Int) {p : Nat}
    (hplace : s.place = .release p) (hlive : p ∉ s.freed) :
    sendStep number frameType s =
      some
        { s with
          clientListSize := s.clientListSize - 1
          tmpListSize := s.tmpListSize - 1
          i := s.i - 1 + 1
          place := .nextClient
          visited := s.visited ++ [p]
          freed := s.freed ++ [p] } := by
  simp only [sendStep, hplace, if_neg hlive]

theorem sendStep_offer (number : Nat) (frameType : Int) {p : Nat}
    (hplace : s.place = .offer p) (hlive : p ∉ s.freed)
    (hlast : s.packets.getLast? = some packet) :
    sendStep number frameType s =
      some
        { s with
          client := Function.update s.client p ((s.client p).offer packet frameType)
          tmpListSize := s.tmpListSize - 1
          i := s.i + 1
          place := .nextClient
          visited := s.visited ++ [p] } := by
  simp only [sendStep, hplace, if_neg hlive, hlast]

theorem Matches.newPacket (h : Matches freed s pass) (number : Nat) (frameType : Int)
    (hplace : s.place = .nextPacket)
    {rtpInfo : RtpInfo} {buf : List UInt8} {rtpSize : Nat}
    (hcall : getRtpPsPack s.rtpInfo s.buf = some (rtpInfo, buf, some rtpSize)) :
    let packet : RtpPacket :=
      { frame := number, frameType, index := s.packets.length
        bytes := slice buf rtpInfo.pRTP rtpSize }
    ∃ s', sendStep number frameType s = some s' ∧ Round s' s' pass.clientListSize 0 ∧
      s'.packets = s.packets ++ [packet] ∧ s'.packets.getLast? = some packet ∧
      s'.rtpInfo = rtpInfo ∧ s'.buf = buf ∧ Matches freed s' { pass with i := 0 } := by
  intro packet
  refine ⟨_, by simp only [sendStep, hplace, hcall, Option.bind_eq_bind, Option.bind_some]; rfl,
    ⟨rfl, h.size, rfl, rfl, rfl, rfl⟩, rfl, List.getLast?_concat, rfl, rfl, ?_⟩
  exact ⟨h.clients, h.size, h.length, h.freed, h.nodup⟩

theorem Matches.visitClient (number : Nat) (h : Matches freed s pass) {left : Nat}
    (hround : Round s s (left + 1) pass.i) (hlast : s.packets.getLast? = some packet)
    (hvisit : Rtp.visitClient packet frameType pass = some pass') :
    ∃ s', Alone number frameType s s' ∧ Round s s' left pass'.i ∧ Matches freed s' pass' := by
  unfold Rtp.visitClient at hvisit
  cases hc : pass.listClientNodeHead[pass.i]? with
  | none =>
      rw [hc] at hvisit
      cases hvisit
  | some c =>
      rw [hc] at hvisit
      obtain ⟨p, hget, hp, rfl, hlive⟩ := h.listGetAt hc
      have hne : s.tmpListSize ≠ 0 := by
        rw [hround.tmpListSize]
        omega
      have hfetch : sendStep number frameType s = some { s with place := .testDelete p } := by
        simp only [sendStep, hround.place, if_neg hne, hround.i, hget]
      have hleft : s.tmpListSize - 1 = left := by
        rw [hround.tmpListSize]
        omega
      dsimp only at hvisit
      split at hvisit
      · rename_i hflag
        obtain rfl := Option.some.inj hvisit
        have htest : sendStep number frameType { s with place := .testDelete p } =
            some { s with place := .unlink p, seenFlagged := s.seenFlagged ++ [p] } := by
          simp only [sendStep, if_neg hlive, if_pos hflag]
        have hunlink : sendStep number frameType
            { s with place := .unlink p, seenFlagged := s.seenFlagged ++ [p] } = some _ := rfl
        have hrelease := sendStep_release number frameType
          (s := { s with
            listClientNodeHead := s.listClientNodeHead.erase p
            place := .release p
            seenFlagged := s.seenFlagged ++ [p] }) rfl hlive
        have hmatches := h.delete hp
        refine ⟨_, .tail (.tail (.tail (.single hfetch) htest) hunlink) hrelease, ?_,
          ⟨hmatches.clients, hmatches.size, hmatches.length, hmatches.freed, hmatches.nodup⟩⟩
        refine ⟨rfl, hleft, ?_, rfl, rfl, rfl⟩
        show s.i - 1 + 1 = pass.i
        rw [hround.i]
        omega
      · rename_i hflag
        obtain rfl := Option.some.inj hvisit
        have htest : sendStep number frameType { s with place := .testDelete p } =
            some { s with place := .offer p } := by
          simp only [sendStep, if_neg hlive, if_neg hflag]
        have hoffer :=
          sendStep_offer number frameType (s := { s with place := .offer p }) rfl hlive hlast
        have hmatches := h.offer packet frameType hp
        refine ⟨_, .tail (.tail (.single hfetch) htest) hoffer, ?_,
          ⟨hmatches.clients, hmatches.size, hmatches.length, hmatches.freed, hmatches.nodup⟩⟩
        refine ⟨rfl, hleft, ?_, rfl, rfl, rfl⟩
        show s.i + 1 = ((pass.i + 1 : Nat) : Int)
        rw [hround.i]
        omega

theorem Matches.visitClients (number left : Nat) :
    ∀ {s : LoopState} {pass : ClientPass}, Matches freed s pass → Round s s left pass.i →
      s.packets.getLast? = some packet →
      Rtp.visitClients packet frameType left pass = some pass' →
      ∃ s', Alone number frameType s s' ∧ Round s s' 0 pass'.i ∧ Matches freed s' pass' := by
  induction left with
  | zero =>
      intro s pass h hround _ hvisits
      obtain rfl := Option.some.inj hvisits
      exact ⟨s, .refl, hround, h⟩
  | succ left ih =>
      intro s pass h hround hlast hvisits
      obtain ⟨pass₁, hvisit, hrest⟩ := Option.bind_eq_some_iff.mp hvisits
      obtain ⟨s₁, halone, hround₁, h₁⟩ := h.visitClient number hround hlast hvisit
      have hstart : Round s₁ s₁ left pass₁.i :=
        ⟨hround₁.place, hround₁.tmpListSize, hround₁.i, rfl, rfl, rfl⟩
      obtain ⟨s', halone', hround', h'⟩ := ih h₁ hstart (by rw [hround₁.packets, hlast]) hrest
      refine ⟨s', halone.trans halone', ?_, h'⟩
      exact ⟨hround'.place, hround'.tmpListSize, hround'.i, hround'.packets.trans hround₁.packets,
        hround'.rtpInfo.trans hround₁.rtpInfo, hround'.buf.trans hround₁.buf⟩

theorem Matches.sendLoop (fuel : Nat) :
    ∀ {s : LoopState} {pass : ClientPass} {rtpInfo : RtpInfo} {packets : List RtpPacket},
      Matches freed s pass → s.place = .nextPacket →
      Rtp.sendLoop number frameType fuel s.rtpInfo s.buf s.packets pass =
        some (rtpInfo, packets, pass') →
      ∃ s', Alone number frameType s s' ∧ s'.place = .returned ∧ s'.rtpInfo = rtpInfo ∧
        s'.packets = packets ∧ Matches freed s' pass' := by
  induction fuel with
  | zero =>
      intro s pass rtpInfo packets _ _ hloop
      cases hloop
  | succ fuel ih =>
      intro s pass rtpInfo packets h hplace hloop
      simp only [Rtp.sendLoop, Option.bind_eq_bind, Option.bind_eq_some_iff] at hloop
      obtain ⟨⟨rtpInfo₁, buf₁, size⟩, hcall, hloop⟩ := hloop
      cases size with
      | none =>
          simp only [Option.some.injEq, Prod.mk.injEq] at hloop
          obtain ⟨rfl, rfl, rfl⟩ := hloop
          refine ⟨{ s with rtpInfo := rtpInfo₁, buf := buf₁, place := .returned }, .single ?_, rfl,
            rfl, rfl, h.clients, h.size, h.length, h.freed, h.nodup⟩
          simp only [sendStep, hplace, hcall, Option.bind_eq_bind, Option.bind_some]
      | some rtpSize =>
          obtain ⟨pass₁, hvisits, hrest⟩ := Option.bind_eq_some_iff.mp hloop
          obtain ⟨s₁, hnext, hround₁, hpackets₁, hlast, hrtpInfo₁, hbuf₁, h₁⟩ :=
            h.newPacket number frameType hplace hcall
          obtain ⟨s₂, halone₂, hround₂, h₂⟩ :=
            Matches.visitClients number pass.clientListSize h₁ hround₁ hlast hvisits
          have hover : sendStep number frameType s₂ = some { s₂ with place := .nextPacket } := by
            simp only [sendStep, hround₂.place, hround₂.tmpListSize]
            rfl
          have h₃ : Matches freed { s₂ with place := .nextPacket } pass₁ :=
            ⟨h₂.clients, h₂.size, h₂.length, h₂.freed, h₂.nodup⟩
          rw [← hpackets₁, ← hround₂.packets, ← hrtpInfo₁, ← hround₂.rtpInfo, ← hbuf₁,
            ← hround₂.buf] at hrest
          obtain ⟨s', halone', hplace', hrtpInfo', hpackets', h'⟩ := ih h₃ rfl hrest
          exact ⟨s', .trans (.tail (.head hnext halone₂) hover) halone', hplace', hrtpInfo',
            hpackets', h'⟩

/-- **The function and its loop agree.**  When nobody interferes, the loop returns with what
`pack_ps_rtp_and_add_node` computes. -/
theorem clientLoop_alone {pStreamNode pStreamNode' : StreamNode} {frame : PsFrame}
    {clients : List Nat} (hnodup : clients.Nodup) {client : Nat → ClientNode}
    (hclients : pStreamNode.listClientNodeHead = clients.map client)
    (h : packPsRtpAndAddNode pStreamNode frame frameType = some pStreamNode') :
    ∃ s, Alone pStreamNode.frames frameType
        (.start pStreamNode.rtpInfoVideo frame clients client) s ∧
      s.place = .returned ∧
      pStreamNode'.listClientNodeHead = s.listClientNodeHead.map s.client ∧
      pStreamNode'.freed = pStreamNode.freed ++ s.freed.map s.client ∧
      pStreamNode'.packets = pStreamNode.packets ++ s.packets ∧
      (frame.dataSize > 3 → pStreamNode'.rtpInfoVideo = s.rtpInfo) := by
  by_cases hsize : frame.dataSize > 3
  · rw [packPsRtpAndAddNode, if_pos hsize] at h
    obtain ⟨⟨rtpInfo, packets, pass⟩, hloop, hnode⟩ := Option.bind_eq_some_iff.mp h
    obtain rfl := Option.some.inj hnode
    have hstart : Matches pStreamNode.freed (.start pStreamNode.rtpInfoVideo frame clients client)
        { listClientNodeHead := pStreamNode.listClientNodeHead
          clientListSize := pStreamNode.listClientNodeHead.length
          freed := pStreamNode.freed } := by
      refine ⟨hclients, ?_, rfl, (List.append_nil _).symm, hnodup⟩
      show (clients.length : Int) = _
      rw [hclients, List.length_map]
    obtain ⟨s, halone, hplace, hrtpInfo, hpackets, hs⟩ :=
      Matches.sendLoop (frame.dataSize + 1) hstart (if_pos hsize) hloop
    exact ⟨s, halone, hplace, hs.clients, hs.freed, by rw [hpackets], fun _ => hrtpInfo.symm⟩
  · rw [packPsRtpAndAddNode, if_neg hsize] at h
    obtain rfl := Option.some.inj h
    exact ⟨_, .refl, if_neg hsize, hclients, (List.append_nil _).symm, (List.append_nil _).symm,
      fun hlt => absurd hlt hsize⟩

end GbStream.Rtp
