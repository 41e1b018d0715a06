import GbStream.Rtp.ClientPackets

/-!
# Clients that leave and clients that come

What the invariant of the loop means for a client: which passes visit it, which packets of the
frame it is sent, and when it is freed.
-/

namespace GbStream.Rtp

open Support.Transition

/-! ## What the loop does -/

/-- The statements that are left of a pass. -/
def LoopState.left (s : LoopState) : Nat :=
  match s.place with
  | .nextPacket | .returned => 0
  | .nextClient => 4 * s.tmpListSize.toNat + 1
  | .testDelete _ => 4 * s.tmpListSize.toNat
  | .unlink _ | .offer _ => 4 * s.tmpListSize.toNat - 1
  | .release _ => 4 * s.tmpListSize.toNat - 2

/-- What holds in a frame that starts with the clients `clients`, whatever is done to the list
and to the flags. -/
structure Survives (number : Nat) (frameType : Int) (clients : List Nat)
    (client : Nat → ClientNode) (s : LoopState) : Prop where
  /-- `list_get_at` does not return the null pointer. -/
  present : s.place = .nextClient → s.tmpListSize ≠ 0 →
    ∃ p, listGetAt s.listClientNodeHead s.i = some p
  /-- No freed client is used, and the pass comes to its end. -/
  goesOn : s.place.InPass → ∃ s', sendStep number frameType s = some s' ∧ s'.left < s.left
  /-- A pass is over the clients of the start that are not freed yet. -/
  passClients : s.packets ≠ [] → ∀ p ∈ clients, p ∉ s.freed → p ∈ s.passClients
  visitedOnce : s.visited.Nodup
  visitedOnly : ∀ p ∈ s.visited, p ∈ s.passClients ∧ p ∈ clients
  visitedAll : ¬ s.place.InPass → s.visited = s.passClients
  /-- A client with an open gate has every packet whose pass has come to it. -/
  sent : ∀ p ∈ clients, (client p).iSendIframeFlag = 1 → (s.client p).iDeleteFlag ≠ 1 →
    (s.client p).sent =
      (client p).sent ++ if p ∈ s.visited then s.packets else s.packets.dropLast
  sentAll : ¬ s.place.InPass → ∀ p ∈ clients, (client p).iSendIframeFlag = 1 →
    (s.client p).iDeleteFlag ≠ 1 → (s.client p).sent = (client p).sent ++ s.packets
  /-- A client that has been seen with the flag set is unlinked and freed in its round. -/
  seenFreed : ∀ p ∈ s.seenFlagged, p ∉ s.place.condemned → p ∈ s.freed
  freedOnce : s.freed.Nodup
  freedOnly : ∀ p ∈ s.freed, p ∈ s.seenFlagged ∧ p ∈ clients ∧ p ∉ s.listClientNodeHead
  /-- The clients appended are at the end of the list, and nothing is done to them. -/
  appendedStay : ∃ kept, s.listClientNodeHead = kept ++ s.appended ∧ ∀ p ∈ kept, p ∈ clients
  appendedAlone : ∀ p ∈ s.appended,
    s.place.current ≠ some p ∧ p ∉ s.visited ∧ p ∉ s.seenFlagged ∧ p ∉ s.freed

section Results

variable {clients : List Nat} {client : Nat → ClientNode} {s s' : LoopState}
  {stay ahead : List Nat} {number : Nat} {frameType : Int}

theorem LoopInv.goesOn (h : LoopInv clients client s stay ahead) (hpass : s.place.InPass) :
    ∃ s', sendStep number frameType s = some s' ∧ s'.left < s.left := by
  obtain ⟨-, htmp⟩ := h.counts hpass
  cases hplace : s.place with
  | nextPacket =>
      rw [hplace] at hpass
      exact absurd hpass id
  | returned =>
      rw [hplace] at hpass
      exact absurd hpass id
  | nextClient =>
      by_cases hzero : s.tmpListSize = 0
      · exact ⟨{ s with place := .nextPacket }, by simp only [sendStep, hplace, if_pos hzero],
          by simp [LoopState.left, hplace]⟩
      · obtain ⟨p, rest, -, hget⟩ := h.getAt hplace hzero
        refine ⟨{ s with place := .testDelete p }, by
          simp only [sendStep, hplace, if_neg hzero, hget], ?_⟩
        simp only [LoopState.left, hplace]
        omega
  | testDelete p =>
      have hcurrent : s.place.current = some p := by rw [hplace]; rfl
      have hlive := h.current_live hcurrent
      obtain ⟨rest, rfl⟩ := h.ahead_cons hcurrent
      rw [List.length_cons] at htmp
      by_cases hflag : (s.client p).iDeleteFlag = 1
      · refine ⟨{ s with place := .unlink p, seenFlagged := s.seenFlagged ++ [p] }, by
          simp only [sendStep, hplace, if_neg hlive, if_pos hflag], ?_⟩
        simp only [LoopState.left, hplace]
        omega
      · refine ⟨{ s with place := .offer p }, by
          simp only [sendStep, hplace, if_neg hlive, if_neg hflag], ?_⟩
        simp only [LoopState.left, hplace]
        omega
  | unlink p =>
      obtain ⟨rest, rfl⟩ := h.ahead_cons (p := p) (by rw [hplace]; rfl)
      rw [List.length_cons] at htmp
      refine ⟨_, by simp only [sendStep, hplace]; rfl, ?_⟩
      simp only [LoopState.left, hplace]
      omega
  | release p =>
      have hlive : p ∉ s.freed := by
        have hnodup := h.parts_nodup
        rw [hplace, List.nodup_append'] at hnodup
        exact fun hp => hnodup.2.2 hp (List.mem_append_left _ (List.mem_singleton.mpr rfl))
      rw [hplace, Place.held, List.length_singleton] at htmp
      refine ⟨_, by simp only [sendStep, hplace, if_neg hlive]; rfl, ?_⟩
      simp only [LoopState.left, hplace]
      omega
  | offer p =>
      have hcurrent : s.place.current = some p := by rw [hplace]; rfl
      have hlive := h.current_live hcurrent
      obtain ⟨rest, rfl⟩ := h.ahead_cons hcurrent
      rw [List.length_cons] at htmp
      obtain ⟨packet, hlast⟩ :=
        Option.isSome_iff_exists.mp (List.getLast?_isSome.mpr (h.packet hpass))
      refine ⟨_, by simp only [sendStep, hplace, if_neg hlive, hlast]; rfl, ?_⟩
      simp only [LoopState.left, hplace]
      omega

theorem LoopInv.linked_of_unflagged (h : LoopInv clients client s stay ahead) {p : Nat}
    (hp : p ∈ clients) (hflag : (s.client p).iDeleteFlag ≠ 1) : p ∈ stay ∨ p ∈ ahead := by
  have hseen : p ∉ s.seenFlagged := fun hp => hflag (h.flagged p hp)
  rw [h.seen, List.mem_append, not_or] at hseen
  rcases (h.mem_clients p).mp hp with hfreed | hheld | hlinked
  · exact absurd hfreed hseen.1
  · exact absurd (Place.mem_held hheld) hseen.2
  · exact hlinked

theorem LoopInv.survives (h : LoopInv clients client s stay ahead) :
    Survives number frameType clients client s := by
  have hnodup := h.parts_nodup
  have hlinkedOnly {p : Nat} (hp : p ∈ s.freed) : p ∉ stay ∧ p ∉ ahead := by
    rw [List.nodup_append'] at hnodup
    have hapart : p ∉ s.place.held ++ (stay ++ ahead) := hnodup.2.2 hp
    rw [List.mem_append, List.mem_append, not_or, not_or] at hapart
    exact hapart.2
  have hvisited {p : Nat} (hp : p ∈ s.visited) : p ∈ clients := by
    rw [h.mem_clients]
    exact (h.visited p hp).imp_right fun hstay => .inr (.inl hstay)
  have hsent : ∀ p ∈ clients, (client p).iSendIframeFlag = 1 →
      (s.client p).iDeleteFlag ≠ 1 →
      (s.client p).sent =
        (client p).sent ++ if p ∈ s.visited then s.packets else s.packets.dropLast := by
    intro p hp hgate hflag
    rcases h.linked_of_unflagged hp hflag with hstay | hahead
    · rw [(h.sentStay p hstay hgate).2]
      split
      · rfl
      · rename_i hnotVisited
        have hnone : s.packets = [] := by
          by_contra hne
          exact hnotVisited (h.stayed hne p hstay)
        rw [hnone]
        rfl
    · have hnotVisited : p ∉ s.visited := by
        intro hp
        have honce := h.passOnce
        rw [h.pass, List.nodup_append'] at honce
        exact honce.2.2 hp (List.mem_append_right _ hahead)
      rw [(h.sentAhead p hahead hgate).2, if_neg hnotVisited]
  have hover (hpass : ¬ s.place.InPass) : s.visited = s.passClients := by
    rw [h.pass, h.ended hpass, Place.held_of_not_inPass hpass, List.append_nil, List.append_nil]
  have hpassClients : s.packets ≠ [] → ∀ p ∈ clients, p ∉ s.freed → p ∈ s.passClients := by
    intro hne p hp hlive
    rw [h.pass, List.mem_append, List.mem_append]
    rcases (h.mem_clients p).mp hp with hfreed | hheld | hstay | hahead
    · exact absurd hfreed hlive
    · exact .inr (.inl hheld)
    · exact .inl (h.stayed hne p hstay)
    · exact .inr (.inr hahead)
  have hfreedSeen {p : Nat} (hp : p ∈ s.freed) : p ∈ s.seenFlagged := by
    rw [h.seen]
    exact List.mem_append_left _ hp
  exact
    { present := fun hplace hne => by
        obtain ⟨p, -, -, hget⟩ := h.getAt hplace hne
        exact ⟨p, hget⟩
      goesOn := h.goesOn
      passClients := hpassClients
      visitedOnce := by
        have honce := h.passOnce
        rw [h.pass, List.nodup_append'] at honce
        exact honce.1
      visitedOnly := fun p hp => ⟨by rw [h.pass]; exact List.mem_append_left _ hp, hvisited hp⟩
      visitedAll := hover
      sent := hsent
      sentAll := fun hpass p hp hgate hflag => by
        rw [hsent p hp hgate hflag]
        split
        · rfl
        · rename_i hnotVisited
          have hnone : s.packets = [] := by
            by_contra hne
            have hlive : p ∉ s.freed := fun hfreed => hflag (h.flagged p (hfreedSeen hfreed))
            rw [hover hpass] at hnotVisited
            exact hnotVisited (hpassClients hne p hp hlive)
          rw [hnone]
          rfl
      seenFreed := fun p hp hround => by
        rw [h.seen, List.mem_append] at hp
        exact hp.resolve_right hround
      freedOnce := (List.nodup_append'.mp hnodup).1
      freedOnly := fun p hp => by
        have hclient : p ∈ clients := (h.mem_clients p).mpr (.inl hp)
        refine ⟨hfreedSeen hp, hclient, ?_⟩
        rw [h.linked, List.mem_append, List.mem_append, not_or, not_or]
        exact ⟨(hlinkedOnly hp).1, (hlinkedOnly hp).2, fun happ => h.fresh p happ hclient⟩
      appendedStay := by
        refine ⟨stay ++ ahead, by rw [h.linked, List.append_assoc], fun p hp => ?_⟩
        rw [h.mem_clients]
        exact .inr (.inr (List.mem_append.mp hp))
      appendedAlone := fun p hp => by
        have hnew := h.fresh p hp
        refine ⟨fun hcurrent => hnew ?_, fun hp => hnew (hvisited hp),
          fun hp => hnew (h.seen_client hp), fun hp => hnew ((h.mem_clients p).mpr (.inl hp))⟩
        rw [h.mem_clients]
        exact .inr (.inr (.inr (List.mem_of_mem_head? (h.current p hcurrent)))) }

theorem LoopInv.seen_quiet (h : LoopInv clients client s stay ahead) {event : LoopEvent}
    (hstep : loopStep number frameType s event = some s') {p : Nat} (hp : p ∈ s.seenFlagged) :
    p ∈ s'.seenFlagged ∧ (s'.client p).sent = (s.client p).sent := by
  cases event with
  | send =>
      have hsend := sendStep_cases hstep
      refine ⟨hsend.seen_kept hp, ?_⟩
      rw [hsend.client_eq]
      -- its own round would be the one of a client that is freed
      intro hplace
      have hlive := h.current_live (p := p) (by rw [hplace]; rfl)
      rw [h.seen, hplace, Place.condemned, List.append_nil] at hp
      · exact hlive hp
      all_goals
        intro q hq
        cases hq
  | setDeleteFlag q =>
      obtain rfl := Option.some.inj hstep
      exact ⟨hp, setDeleteFlag_sent p q⟩
  | append q =>
      obtain ⟨⟨hnew, -⟩, rfl⟩ := append_cases hstep
      refine ⟨hp, ?_⟩
      have hclient := h.seen_client hp
      rw [h.atStart] at hnew
      show (Function.update s.client q {} p).sent = _
      rw [Function.update_of_ne (ne_of_mem_of_not_mem hclient hnew)]

/-- A client whose flag was set when `n` packets were made: no pass that began since then has
let it through. -/
structure Doomed (clients : List Nat) (p n : Nat) (s : LoopState) : Prop where
  client : p ∈ clients
  flag : (s.client p).iDeleteFlag = 1
  packets : n ≤ s.packets.length
  waiting : s.packets.length = n → ¬ s.place.InPass
  through : n < s.packets.length → s.place ≠ .offer p ∧ (p ∈ s.visited → p ∈ s.freed)

theorem Doomed.send {p n : Nat} (hd : Doomed clients p n s) (h : SendStep number frameType s s') :
    Doomed clients p n s' := by
  have hflag : (s'.client p).iDeleteFlag = 1 := (h.iDeleteFlag_eq p).trans hd.flag
  -- inside a pass more packets than `n` have been made
  have hbegun (hpass : s.place.InPass) : n < s.packets.length :=
    Nat.lt_of_le_of_ne hd.packets fun heq => hd.waiting heq.symm hpass
  cases h with
  | frameOver rtpInfo buf hplace hnone =>
      exact ⟨hd.client, hflag, hd.packets, fun _ => id,
        fun hlt => ⟨Place.noConfusion, (hd.through hlt).2⟩⟩
  | packet rtpInfo buf rtpSize hplace hsize =>
      have hmore := hd.packets
      refine ⟨hd.client, hflag, ?_, fun heq => ?_,
        fun _ => ⟨Place.noConfusion, fun hp => absurd hp List.not_mem_nil⟩⟩
      · show n ≤ (s.packets ++ _).length
        rw [List.length_append]
        omega
      · change (s.packets ++ [_]).length = n at heq
        rw [List.length_append, List.length_singleton] at heq
        omega
  | passOver hplace hzero =>
      exact ⟨hd.client, hflag, hd.packets, fun _ => id,
        fun hlt => ⟨Place.noConfusion, (hd.through hlt).2⟩⟩
  | fetch q hplace hne hget =>
      have hlt := hbegun (by rw [hplace]; trivial)
      exact ⟨hd.client, hflag, hd.packets, fun heq => absurd heq (Nat.ne_of_gt hlt),
        fun hlt => ⟨Place.noConfusion, (hd.through hlt).2⟩⟩
  | flagged q hplace hlive hset =>
      have hlt := hbegun (by rw [hplace]; trivial)
      exact ⟨hd.client, hflag, hd.packets, fun heq => absurd heq (Nat.ne_of_gt hlt),
        fun hlt => ⟨Place.noConfusion, (hd.through hlt).2⟩⟩
  | unflagged q hplace hlive hunset =>
      have hlt := hbegun (by rw [hplace]; trivial)
      refine ⟨hd.client, hflag, hd.packets, fun heq => absurd heq (Nat.ne_of_gt hlt),
        fun hlt => ⟨?_, (hd.through hlt).2⟩⟩
      intro hoffer
      obtain rfl := Place.offer.inj hoffer
      exact hunset hd.flag
  | unlink q hplace =>
      have hlt := hbegun (by rw [hplace]; trivial)
      exact ⟨hd.client, hflag, hd.packets, fun heq => absurd heq (Nat.ne_of_gt hlt),
        fun hlt => ⟨Place.noConfusion, (hd.through hlt).2⟩⟩
  | release q hplace hlive =>
      have hlt := hbegun (by rw [hplace]; trivial)
      refine ⟨hd.client, hflag, hd.packets, fun heq => absurd heq (Nat.ne_of_gt hlt),
        fun hlt => ⟨Place.noConfusion, fun hp => ?_⟩⟩
      rcases List.mem_append.mp hp with hp | hp
      · exact List.mem_append_left _ ((hd.through hlt).2 hp)
      · exact List.mem_append_right _ hp
  | offer q packet hplace hlive hlast =>
      have hlt := hbegun (by rw [hplace]; trivial)
      refine ⟨hd.client, hflag, hd.packets, fun heq => absurd heq (Nat.ne_of_gt hlt),
        fun hlt => ⟨Place.noConfusion, fun hp => ?_⟩⟩
      rcases List.mem_append.mp hp with hp | hp
      · exact (hd.through hlt).2 hp
      · obtain rfl := List.mem_singleton.mp hp
        exact absurd hplace (hd.through hlt).1

theorem Doomed.step {p n : Nat} (hd : Doomed clients p n s) (hstart : s.atStart = clients)
    {event : LoopEvent} (hstep : loopStep number frameType s event = some s') :
    Doomed clients p n s' := by
  cases event with
  | send => exact hd.send (sendStep_cases hstep)
  | setDeleteFlag q =>
      obtain rfl := Option.some.inj hstep
      refine ⟨hd.client, ?_, hd.packets, hd.waiting, hd.through⟩
      show (Function.update s.client q _ p).iDeleteFlag = 1
      by_cases hpq : p = q
      · rw [hpq, Function.update_self]
      · rw [Function.update_of_ne hpq]
        exact hd.flag
  | append q =>
      obtain ⟨⟨hnew, -⟩, rfl⟩ := append_cases hstep
      rw [hstart] at hnew
      refine ⟨hd.client, ?_, hd.packets, hd.waiting, hd.through⟩
      show (Function.update s.client q {} p).iDeleteFlag = 1
      rw [Function.update_of_ne (ne_of_mem_of_not_mem hd.client hnew)]
      exact hd.flag

/-- What a later state `s'` of the run owes to the clients that are flagged in `s`: those seen
with the flag set are sent nothing more, and those flagged when a pass may begin are freed when
it is over. -/
structure FlagsKept (clients : List Nat) (s s' : LoopState) : Prop where
  quiet : ∀ p ∈ s.seenFlagged, (s'.client p).sent = (s.client p).sent
  gone : s.place = .nextPacket → s.packets.length < s'.packets.length → ¬ s'.place.InPass →
    ∀ p ∈ clients, (s.client p).iDeleteFlag = 1 → p ∈ s'.freed

theorem LoopInv.flagsKept (h : LoopInv clients client s stay ahead)
    (hrun : (clientLoop number frameType s).Reachable s') : FlagsKept clients s s' := by
  -- the invariant goes along with the run, and so do the clients seen and those doomed
  have halong : (∃ stay ahead, LoopInv clients client s' stay ahead) ∧
      (∀ p ∈ s.seenFlagged, p ∈ s'.seenFlagged ∧ (s'.client p).sent = (s.client p).sent) ∧
      ∀ p, Doomed clients p s.packets.length s → Doomed clients p s.packets.length s' := by
    induction hrun with
    | init hs =>
        obtain rfl := hs
        exact ⟨⟨stay, ahead, h⟩, fun p hp => ⟨hp, rfl⟩, fun p hd => hd⟩
    | step _ _ hstep ih =>
        obtain ⟨⟨stay₁, ahead₁, h₁⟩, hseen, hdoomed⟩ := ih
        refine ⟨h₁.step hstep, fun p hp => ?_, fun p hd => (hdoomed p hd).step h₁.atStart hstep⟩
        obtain ⟨hp₁, hsent₁⟩ := hseen p hp
        obtain ⟨hp₂, hsent₂⟩ := h₁.seen_quiet hstep hp₁
        exact ⟨hp₂, hsent₂.trans hsent₁⟩
  obtain ⟨⟨stay', ahead', h'⟩, hseen, hdoomed⟩ := halong
  refine ⟨fun p hp => (hseen p hp).2, fun hplace hmore hover p hp hflag => ?_⟩
  have hd := hdoomed p
    ⟨hp, hflag, Nat.le_refl _, fun _ => by rw [hplace]; exact id,
      fun hlt => absurd hlt (Nat.lt_irrefl _)⟩
  have hsurvives : Survives number frameType clients client s' := h'.survives
  by_contra hlive
  have hpass : p ∈ s'.passClients :=
    hsurvives.passClients (List.ne_nil_of_length_pos (Nat.zero_lt_of_lt hmore)) p hp hlive
  rw [← hsurvives.visitedAll hover] at hpass
  exact hlive ((hd.through hmore).2 hpass)

end Results

/-- What becomes of the packets `drained` of the frame: the loop makes them, and when it returns a
client with an open gate has been sent each of them once and in order. -/
structure SendsFrame (number : Nat) (frameType : Int) (clients : List Nat)
    (client : Nat → ClientNode) (drained : List (List UInt8)) (s : LoopState) : Prop where
  makes : MakesFrame number frameType drained s
  sentFrame : s.place = .returned → ∀ p ∈ clients, (client p).iSendIframeFlag = 1 →
    (s.client p).iDeleteFlag ≠ 1 →
    (s.client p).sent = (client p).sent ++ placed number frameType 0 drained

theorem Survives.sendsFrame {number : Nat} {frameType : Int} {clients : List Nat}
    {client : Nat → ClientNode} {s : LoopState} (h : Survives number frameType clients client s)
    {drained : List (List UInt8)} (hmakes : MakesFrame number frameType drained s) :
    SendsFrame number frameType clients client drained s where
  makes := hmakes
  sentFrame := fun hplace p hp hgate hflag => by
    rw [h.sentAll (by rw [hplace]; exact id) p hp hgate hflag, hmakes.all hplace]

/-- **The loop survives what is done to its list**: in every state that a frame reaches, under
any order of flags and of clients appended, the clients of the start are each visited once in a
pass, those with an open gate get every packet of the frame, and those that are flagged go. -/
theorem clientLoop_survives (number : Nat) (frameType : Int) (rtpInfoVideo : RtpInfo)
    (frame : PsFrame) {clients : List Nat} (hnodup : clients.Nodup) (client : Nat → ClientNode)
    {s : LoopState}
    (h : (clientLoop number frameType (.start rtpInfoVideo frame clients client)).Reachable s) :
    Survives number frameType clients client s ∧
      (∀ ssrc, frame.Valid → Video ssrc rtpInfoVideo.rtpHdr →
        ∃ drained, framePackets rtpInfoVideo frame = some drained ∧
          drained.length = (if frame.dataSize > 3 then packCount frame.dataSize else 0) ∧
          (∀ k bytes, drained[k]? = some bytes → readRtp bytes =
            some (frame.fields ssrc (rtpInfoVideo.rtpHdr.seqNo.toNat + k) k, frame.piece k)) ∧
          SendsFrame number frameType clients client drained s) ∧
      ∀ s', (clientLoop number frameType s).Reachable s' → FlagsKept clients s s' := by
  obtain ⟨stay, ahead, hinv⟩ := loopInv_reachable hnodup h
  have hsurvives : Survives number frameType clients client s := hinv.survives
  refine ⟨hsurvives, fun ssrc hvalid hdr => ?_, fun s' hrun => hinv.flagsKept hrun⟩
  obtain ⟨drained, hframe, hread⟩ := framePackets_of_valid hvalid hdr
  obtain ⟨left, hleft⟩ := Packing.reachable hframe h
  refine ⟨drained, hframe, ?_, fun k bytes hbytes => ?_, hsurvives.sendsFrame hleft.makesFrame⟩
  · simpa using congrArg List.length hread
  · have hk := congrArg (·[k]?) hread
    simp only [List.getElem?_map, hbytes, Option.map_some] at hk
    obtain ⟨j, hj, heq⟩ := Option.map_eq_some_iff.mp hk.symm
    obtain ⟨_, rfl⟩ := List.getElem?_eq_some_iff.mp hj
    rw [List.getElem_range] at heq
    exact heq.symm

/-- A frame of two packets: client 1 is flagged while the loop looks at it, and client 3 is
appended before it is unlinked. -/
theorem clientLoop_survives_two :
    let frame : PsFrame :=
      { dataPtr := List.replicate 1421 0, dataSize := 1401, timeStamp := 0
        rtpDataBufPreSize := 20 }
    ∃ s : LoopState, s.place = .returned ∧ s.freed = [1] ∧ s.appended = [3] ∧
      (s.client 2).sent.length = 2 ∧
      Survives 0 1 [1, 2] (fun _ => { iSendIframeFlag := 1 }) s ∧
      (∃ drained, framePackets (rtpInfoInit 96 7) frame = some drained ∧ drained.length = 2 ∧
        (s.client 2).sent = placed 0 1 0 drained) ∧
      ∀ s', (clientLoop 0 1 s).Reachable s' → FlagsKept [1, 2] s s' := by
  intro frame
  let start : LoopState :=
    .start (rtpInfoInit 96 7) frame [1, 2] fun _ => { iSendIframeFlag := 1 }
  have hrun : (runWith (loopStep 0 1) (fun _ _ => true) start
      [.send, .send, .setDeleteFlag 1, .send, .append 3, .send, .send, .send, .send, .send, .send,
        .send, .send, .send, .send, .send, .send]).map
        (fun s => (s.place, s.freed, s.appended, (s.client 2).sent.length,
          (s.client 2).iDeleteFlag)) =
      some (.returned, [1], [3], 2, 0) := by
    decide +kernel
  obtain ⟨s, hs, heq⟩ := Option.map_eq_some_iff.mp hrun
  simp only [Prod.mk.injEq] at heq
  obtain ⟨hplace, hfreed, happended, hlength, hflag⟩ := heq
  have hreach : (clientLoop 0 1 start).Reachable s :=
    System.ReachableWith.mono (fun _ _ _ => trivial)
      (System.ReachableWith.runWith (fun _ _ _ h => h) (.init rfl) hs)
  obtain ⟨hsurvives, hsends, hkept⟩ :=
    clientLoop_survives 0 1 (rtpInfoInit 96 7) frame (by decide) _ hreach
  have hfits : 20 + 1401 ≤ (List.replicate 1421 (0 : UInt8)).length := by
    rw [List.length_replicate]
  obtain ⟨drained, hframe, hcount, -, hframeSent⟩ :=
    hsends 7 ⟨by decide, hfits, by decide⟩ ⟨rfl, rfl, rfl, rfl, rfl, rfl⟩
  replace hcount : drained.length = 2 :=
    hcount.trans (show (if 1401 > 3 then packCount 1401 else 0) = 2 by decide)
  refine ⟨s, hplace, hfreed, happended, hlength, hsurvives, ⟨drained, hframe, hcount, ?_⟩, hkept⟩
  exact hframeSent.sentFrame hplace 2 (by decide) rfl (by rw [hflag]; decide)

end GbStream.Rtp
