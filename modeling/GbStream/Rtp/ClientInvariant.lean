import Mathlib.Data.List.Nodup
import Mathlib.Data.List.Perm.Basic
import GbStream.Rtp.ClientLoop

/-!
# The list during a pass

The invariant of the loop over the clients: what is behind the position, what is ahead of it and
what has been appended.
-/

namespace GbStream.Rtp

open Support.Transition

section Invariant

variable {clients : List Nat} {client : Nat → ClientNode} {s s' : LoopState}
  {stay ahead : List Nat} {number : Nat} {frameType : Int}

/-- A client whose gate was open at the start has been sent `packets`. -/
def LoopState.SentTo (client : Nat → ClientNode) (s : LoopState) (packets : List RtpPacket)
    (pClientNode : Nat) : Prop :=
  (client pClientNode).iSendIframeFlag = 1 →
    (s.client pClientNode).iSendIframeFlag = 1 ∧
      (s.client pClientNode).sent = (client pClientNode).sent ++ packets

/-- The list is what stays of the clients that the pass is through with, then the clients ahead
of it, then those appended. -/
structure LoopInv (clients : List Nat) (client : Nat → ClientNode) (s : LoopState)
    (stay ahead : List Nat) : Prop where
  nodup : clients.Nodup
  atStart : s.atStart = clients
  linked : s.listClientNodeHead = stay ++ (ahead ++ s.appended)
  parts : (s.freed ++ (s.place.held ++ (stay ++ ahead))).Perm clients
  fresh : ∀ p ∈ s.appended, p ∉ clients
  pass : s.passClients = s.visited ++ (s.place.held ++ ahead)
  passOnce : s.passClients.Nodup
  size : s.clientListSize = stay.length + (s.place.held.length + ahead.length)
  counts : s.place.InPass →
    s.i = stay.length ∧ s.tmpListSize = s.place.held.length + ahead.length
  packet : s.place.InPass → s.packets ≠ []
  ended : ¬ s.place.InPass → ahead = []
  current : ∀ p, s.place.current = some p → ahead.head? = some p
  stayed : s.packets ≠ [] → ∀ p ∈ stay, p ∈ s.visited
  visited : ∀ p ∈ s.visited, p ∈ s.freed ∨ p ∈ stay
  seen : s.seenFlagged = s.freed ++ s.place.condemned
  flagged : ∀ p ∈ s.seenFlagged, (s.client p).iDeleteFlag = 1
  sentStay : ∀ p ∈ stay, s.SentTo client s.packets p
  sentAhead : ∀ p ∈ ahead, s.SentTo client s.packets.dropLast p

theorem LoopInv.parts_nodup (h : LoopInv clients client s stay ahead) :
    (s.freed ++ (s.place.held ++ (stay ++ ahead))).Nodup :=
  h.parts.nodup_iff.mpr h.nodup

theorem LoopInv.mem_clients (h : LoopInv clients client s stay ahead) (p : Nat) :
    p ∈ clients ↔ p ∈ s.freed ∨ p ∈ s.place.held ∨ p ∈ stay ∨ p ∈ ahead := by
  rw [← h.parts.mem_iff]
  simp only [List.mem_append]

theorem LoopInv.goTo (h : LoopInv clients client s stay ahead) (rtpInfo : RtpInfo)
    (buf : List UInt8) (place : Place) (hheld : place.held = s.place.held)
    (hcondemned : place.condemned = s.place.condemned) (hin : place.InPass → s.place.InPass)
    (hover : ¬ place.InPass → ahead = [])
    (hcurrent : ∀ p, place.current = some p → ahead.head? = some p) :
    LoopInv clients client { s with rtpInfo, buf, place } stay ahead where
  nodup := h.nodup
  atStart := h.atStart
  linked := h.linked
  parts := by rw [hheld]; exact h.parts
  fresh := h.fresh
  pass := by rw [hheld]; exact h.pass
  passOnce := h.passOnce
  size := by rw [hheld]; exact h.size
  counts := fun hpass => by rw [hheld]; exact h.counts (hin hpass)
  packet := fun hpass => h.packet (hin hpass)
  ended := hover
  current := hcurrent
  stayed := h.stayed
  visited := h.visited
  seen := by rw [hcondemned]; exact h.seen
  flagged := h.flagged
  sentStay := h.sentStay
  sentAhead := h.sentAhead

theorem LoopInv.start (hnodup : clients.Nodup) (rtpInfoVideo : RtpInfo) (frame : PsFrame) :
    LoopInv clients client (.start rtpInfoVideo frame clients client) clients [] := by
  let s : LoopState := .start rtpInfoVideo frame clients client
  have hfirst : LoopInv clients client { s with place := .nextPacket } clients [] :=
    { nodup := hnodup
      atStart := rfl
      linked := (List.append_nil _).symm
      parts := by simp [s, LoopState.start, Place.held]
      fresh := fun _ hp => absurd hp List.not_mem_nil
      pass := rfl
      passOnce := List.nodup_nil
      size := rfl
      counts := fun hin => absurd hin id
      packet := fun hin => absurd hin id
      ended := fun _ => rfl
      current := fun p hp => by cases hp
      stayed := fun h => absurd rfl h
      visited := fun _ hp => absurd hp List.not_mem_nil
      seen := rfl
      flagged := fun _ hp => absurd hp List.not_mem_nil
      sentStay := fun p _ hgate => ⟨hgate, (List.append_nil _).symm⟩
      sentAhead := fun _ hp => absurd hp List.not_mem_nil }
  have hplace : s.place = .nextPacket ∨ s.place = .returned := by
    by_cases hsize : frame.dataSize > 3
    · exact .inl (if_pos hsize)
    · exact .inr (if_neg hsize)
  rcases hplace with hplace | hplace
  · have hnext := hfirst.goTo s.rtpInfo s.buf .nextPacket rfl rfl id (fun _ => rfl)
      fun p hp => by cases hp
    rw [← hplace] at hnext
    exact hnext
  · have hreturned := hfirst.goTo s.rtpInfo s.buf .returned rfl rfl id (fun _ => rfl)
      fun p hp => by cases hp
    rw [← hplace] at hreturned
    exact hreturned

/-! ## The statements -/

/-- The clients of the start that are linked, when no pass is going on. -/
theorem LoopInv.filter_atStart (h : LoopInv clients client s stay []) :
    s.listClientNodeHead.filter (· ∈ s.atStart) = stay := by
  have hstay : stay.filter (· ∈ clients) = stay :=
    List.filter_eq_self.mpr fun p hp =>
      decide_eq_true ((h.mem_clients p).mpr (.inr (.inr (.inl hp))))
  have happended : s.appended.filter (· ∈ clients) = [] :=
    List.filter_eq_nil_iff.mpr fun p hp => by simpa using h.fresh p hp
  rw [h.linked, h.atStart, List.nil_append, List.filter_append, hstay, happended, List.append_nil]

/-- A new pass has all clients of the start ahead of it that are linked. -/
theorem LoopInv.newPass (h : LoopInv clients client s stay ahead)
    (hplace : s.place = .nextPacket) (rtpInfo : RtpInfo) (buf : List UInt8)
    (packet : RtpPacket) :
    LoopInv clients client
      { s with
        rtpInfo, buf
        i := 0
        tmpListSize := s.clientListSize
        place := .nextClient
        packets := s.packets ++ [packet]
        passClients := s.listClientNodeHead.filter (· ∈ s.atStart)
        visited := [] } [] stay := by
  obtain rfl : ahead = [] := h.ended (by rw [hplace]; exact id)
  have hparts := h.parts
  have hsize := h.size
  have hseen := h.seen
  rw [hplace] at hparts hsize hseen
  have hstay : stay.Nodup := by
    have hnodup := h.parts_nodup
    rw [List.nodup_append', List.nodup_append', List.append_nil] at hnodup
    exact hnodup.2.1.2.1
  exact
    { nodup := h.nodup, atStart := h.atStart, linked := h.linked
      parts := by simpa [Place.held] using hparts
      fresh := h.fresh
      pass := h.filter_atStart
      passOnce := by
        rw [h.filter_atStart]
        exact hstay
      size := by simpa [Place.held] using hsize
      counts := fun _ => ⟨rfl, by simpa [Place.held] using hsize⟩
      packet := fun _ => by simp
      ended := fun hout => absurd trivial hout
      current := fun p hp => by cases hp
      stayed := fun _ p hp => absurd hp List.not_mem_nil
      visited := fun p hp => absurd hp List.not_mem_nil
      seen := hseen, flagged := h.flagged
      sentStay := fun p hp => absurd hp List.not_mem_nil
      sentAhead := fun p hp => by
        rw [List.dropLast_concat]
        exact h.sentStay p hp }

theorem LoopInv.getAt (h : LoopInv clients client s stay ahead) (hplace : s.place = .nextClient)
    (hne : s.tmpListSize ≠ 0) :
    ∃ p rest, ahead = p :: rest ∧ listGetAt s.listClientNodeHead s.i = some p := by
  obtain ⟨hi, htmp⟩ := h.counts (by rw [hplace]; trivial)
  rw [hplace] at htmp
  cases ahead with
  | nil => exact absurd htmp hne
  | cons p rest =>
      refine ⟨p, rest, rfl, ?_⟩
      rw [listGetAt, hi, if_pos (Int.natCast_nonneg _), Int.toNat_natCast, h.linked,
        List.getElem?_append_right (Nat.le_refl _), Nat.sub_self]
      rfl

theorem LoopInv.current_live (h : LoopInv clients client s stay ahead) {p : Nat}
    (hcurrent : s.place.current = some p) : p ∉ s.freed := by
  have hahead : p ∈ ahead := List.mem_of_mem_head? (h.current p hcurrent)
  have hnodup := h.parts_nodup
  rw [List.nodup_append'] at hnodup
  intro hfreed
  exact hnodup.2.2 hfreed (by simp [hahead])

theorem LoopInv.seesFlag {p : Nat} (h : LoopInv clients client s stay ahead)
    (hplace : s.place = .testDelete p) (hflag : (s.client p).iDeleteFlag = 1) :
    LoopInv clients client
      { s with place := .unlink p, seenFlagged := s.seenFlagged ++ [p] } stay ahead := by
  have hcurrent := h.current p (by rw [hplace]; rfl)
  have hcounts := h.counts (by rw [hplace]; trivial)
  have hpacket := h.packet (by rw [hplace]; trivial)
  have hparts := h.parts
  have hpass := h.pass
  have hsize := h.size
  have hseen := h.seen
  rw [hplace] at hparts hpass hsize hseen hcounts
  have hseen : s.seenFlagged = s.freed := hseen.trans (List.append_nil _)
  exact
    { nodup := h.nodup, atStart := h.atStart, linked := h.linked, parts := hparts
      fresh := h.fresh, pass := hpass, passOnce := h.passOnce, size := hsize
      counts := fun _ => hcounts
      packet := fun _ => hpacket
      ended := fun hout => absurd trivial hout
      current := fun q hq => by
        obtain rfl := Option.some.inj hq
        exact hcurrent
      stayed := h.stayed, visited := h.visited
      seen := by
        show s.seenFlagged ++ [p] = s.freed ++ [p]
        rw [hseen]
      flagged := fun q hq => by
        rcases List.mem_append.mp hq with hq | hq
        · exact h.flagged q hq
        · obtain rfl := List.mem_singleton.mp hq
          exact hflag
      sentStay := h.sentStay, sentAhead := h.sentAhead }

theorem LoopInv.ahead_cons {p : Nat} (h : LoopInv clients client s stay ahead)
    (hcurrent : s.place.current = some p) : ∃ rest, ahead = p :: rest :=
  List.head?_eq_some_iff.mp (h.current p hcurrent)

theorem LoopInv.unlink {p : Nat} (h : LoopInv clients client s stay ahead)
    (hplace : s.place = .unlink p) :
    ∃ rest,
      LoopInv clients client
        { s with listClientNodeHead := s.listClientNodeHead.erase p, place := .release p }
        stay rest := by
  obtain ⟨rest, rfl⟩ := h.ahead_cons (p := p) (by rw [hplace]; rfl)
  have hcounts := h.counts (by rw [hplace]; trivial)
  have hpacket := h.packet (by rw [hplace]; trivial)
  have hparts := h.parts
  have hpass := h.pass
  have hsize := h.size
  have hseen := h.seen
  have hnotStay : p ∉ stay := by
    have hnodup := h.parts_nodup
    rw [hplace, List.nodup_append', List.nodup_append', List.nodup_append'] at hnodup
    exact fun hp => hnodup.2.1.2.1.2.2 hp List.mem_cons_self
  rw [hplace] at hparts hpass hsize hseen hcounts
  exact ⟨rest,
    { nodup := h.nodup, atStart := h.atStart
      linked := by
        show s.listClientNodeHead.erase p = _
        rw [h.linked, List.erase_append_right _ hnotStay, List.cons_append, List.erase_cons_head]
      parts := by
        show (s.freed ++ p :: (stay ++ rest)).Perm clients
        exact (List.perm_middle.symm.append_left s.freed).trans hparts
      fresh := h.fresh
      pass := hpass
      passOnce := h.passOnce
      size := by
        rw [hsize]
        simp only [Place.held, List.length_cons, List.length_nil]
        omega
      counts := fun _ => ⟨hcounts.1, by
        rw [hcounts.2]
        simp only [Place.held, List.length_cons, List.length_nil]
        omega⟩
      packet := fun _ => hpacket
      ended := fun hout => absurd trivial hout
      current := fun q hq => by cases hq
      stayed := h.stayed, visited := h.visited, seen := hseen, flagged := h.flagged
      sentStay := h.sentStay
      sentAhead := fun q hq => h.sentAhead q (List.mem_cons_of_mem p hq) }⟩

theorem LoopInv.release {p : Nat} (h : LoopInv clients client s stay ahead)
    (hplace : s.place = .release p) :
    LoopInv clients client
      { s with
        clientListSize := s.clientListSize - 1
        tmpListSize := s.tmpListSize - 1
        i := s.i - 1 + 1
        place := .nextClient
        visited := s.visited ++ [p]
        freed := s.freed ++ [p] } stay ahead := by
  have hcounts := h.counts (by rw [hplace]; trivial)
  have hpacket := h.packet (by rw [hplace]; trivial)
  have hparts := h.parts
  have hpass := h.pass
  have hsize := h.size
  have hseen := h.seen
  rw [hplace] at hparts hpass hsize hseen hcounts
  exact
    { nodup := h.nodup, atStart := h.atStart, linked := h.linked
      parts := by
        show ((s.freed ++ [p]) ++ ([] ++ (stay ++ ahead))).Perm clients
        rw [List.append_assoc]
        exact hparts
      fresh := h.fresh
      pass := by
        show s.passClients = (s.visited ++ [p]) ++ ([] ++ ahead)
        rw [hpass, List.append_assoc]
        rfl
      passOnce := h.passOnce
      size := by
        show s.clientListSize - 1 = _
        rw [hsize]
        simp only [Place.held, List.length_cons, List.length_nil]
        omega
      counts := fun _ => by
        show s.i - 1 + 1 = _ ∧ s.tmpListSize - 1 = _
        rw [hcounts.1, hcounts.2]
        simp only [Place.held, List.length_cons, List.length_nil]
        omega
      packet := fun _ => hpacket
      ended := fun hout => absurd trivial hout
      current := fun q hq => by cases hq
      stayed := fun hne q hq => List.mem_append_left _ (h.stayed hne q hq)
      visited := fun q hq => by
        rcases List.mem_append.mp hq with hq | hq
        · exact (h.visited q hq).imp_left (List.mem_append_left _)
        · exact .inl (List.mem_append_right _ hq)
      seen := by
        show s.seenFlagged = (s.freed ++ [p]) ++ []
        rw [hseen, List.append_nil]
        rfl
      flagged := h.flagged, sentStay := h.sentStay, sentAhead := h.sentAhead }

theorem LoopState.SentTo.offer {p : Nat} {packet : RtpPacket}
    (h : s.SentTo client s.packets.dropLast p) (hlast : s.packets.getLast? = some packet)
    (hgate : (client p).iSendIframeFlag = 1) :
    ((s.client p).offer packet frameType).iSendIframeFlag = 1 ∧
      ((s.client p).offer packet frameType).sent = (client p).sent ++ s.packets := by
  obtain ⟨hopen, hsent⟩ := h hgate
  have hpackets : s.packets = s.packets.dropLast ++ [packet] :=
    (List.dropLast_append_getLast? packet hlast).symm
  rw [ClientNode.offer, if_pos hopen]
  refine ⟨hopen, ?_⟩
  rw [hpackets, ← List.append_assoc, ← hsent]

theorem LoopInv.offer {p : Nat} (h : LoopInv clients client s stay ahead)
    {packet : RtpPacket} (hplace : s.place = .offer p)
    (hlast : s.packets.getLast? = some packet) :
    ∃ rest,
      LoopInv clients client
        { s with
          client := Function.update s.client p ((s.client p).offer packet frameType)
          tmpListSize := s.tmpListSize - 1
          i := s.i + 1
          place := .nextClient
          visited := s.visited ++ [p] } (stay ++ [p]) rest := by
  obtain ⟨rest, rfl⟩ := h.ahead_cons (p := p) (by rw [hplace]; rfl)
  have hcounts := h.counts (by rw [hplace]; trivial)
  have hpacket := h.packet (by rw [hplace]; trivial)
  have hparts := h.parts
  have hpass := h.pass
  have hsize := h.size
  have hseen := h.seen
  rw [hplace] at hparts hpass hsize hseen hcounts
  have hparts : (s.freed ++ (stay ++ p :: rest)).Perm clients := hparts
  have hpass : s.passClients = s.visited ++ p :: rest := hpass
  have hapart := hparts.nodup_iff.mpr h.nodup
  rw [List.nodup_append', List.nodup_append', List.nodup_cons] at hapart
  obtain ⟨-, ⟨-, ⟨hrest, -⟩, hstay⟩, -⟩ := hapart
  have hother {q : Nat} (hne : q ≠ p) :
      Function.update s.client p ((s.client p).offer packet frameType) q = s.client q :=
    Function.update_of_ne hne _ _
  have hself : Function.update s.client p ((s.client p).offer packet frameType) p = _ :=
    Function.update_self ..
  exact ⟨rest,
    { nodup := h.nodup, atStart := h.atStart
      linked := by
        show s.listClientNodeHead = _
        rw [h.linked, List.append_assoc]
        rfl
      parts := by
        show (s.freed ++ ((stay ++ [p]) ++ rest)).Perm clients
        rw [List.append_assoc]
        exact hparts
      fresh := h.fresh
      pass := by
        show s.passClients = (s.visited ++ [p]) ++ rest
        rw [hpass, List.append_assoc]
        rfl
      passOnce := h.passOnce
      size := by
        show s.clientListSize = _
        rw [hsize]
        simp only [Place.held, List.length_append, List.length_cons, List.length_nil]
        omega
      counts := fun _ => by
        show s.i + 1 = _ ∧ s.tmpListSize - 1 = _
        rw [hcounts.1, hcounts.2]
        simp only [Place.held, List.length_append, List.length_cons, List.length_nil]
        omega
      packet := fun _ => hpacket
      ended := fun hout => absurd trivial hout
      current := fun q hq => by cases hq
      stayed := fun hne q hq => by
        rcases List.mem_append.mp hq with hq | hq
        · exact List.mem_append_left _ (h.stayed hne q hq)
        · exact List.mem_append_right _ hq
      visited := fun q hq => by
        rcases List.mem_append.mp hq with hq | hq
        · exact (h.visited q hq).imp_right (List.mem_append_left _)
        · exact .inr (List.mem_append_right _ hq)
      seen := hseen
      flagged := fun q hq => by
        show (Function.update s.client p _ q).iDeleteFlag = 1
        by_cases hqp : q = p
        · rw [hqp, hself, ClientNode.iDeleteFlag_offer, ← hqp]
          exact h.flagged q hq
        · rw [hother hqp]
          exact h.flagged q hq
      sentStay := fun q hq hgate => by
        show (Function.update s.client p _ q).iSendIframeFlag = 1 ∧
          (Function.update s.client p _ q).sent = _
        rcases List.mem_append.mp hq with hq | hq
        · have hqp : q ≠ p := fun heq => hstay hq (heq ▸ List.mem_cons_self)
          rw [hother hqp]
          exact h.sentStay q hq hgate
        · obtain rfl := List.mem_singleton.mp hq
          rw [hself]
          exact (h.sentAhead q List.mem_cons_self).offer hlast hgate
      sentAhead := fun q hq hgate => by
        show (Function.update s.client p _ q).iSendIframeFlag = 1 ∧
          (Function.update s.client p _ q).sent = _
        have hqp : q ≠ p := fun heq => hrest (heq ▸ hq)
        rw [hother hqp]
        exact h.sentAhead q (List.mem_cons_of_mem p hq) hgate }⟩

theorem LoopInv.send (h : LoopInv clients client s stay ahead)
    (hstep : SendStep number frameType s s') :
    ∃ stay' ahead', LoopInv clients client s' stay' ahead' := by
  cases hstep with
  | frameOver rtpInfo buf hplace hnone =>
      have hover : ahead = [] := h.ended (by rw [hplace]; exact id)
      exact ⟨stay, ahead, h.goTo rtpInfo buf _ (by rw [hplace]; rfl) (by rw [hplace]; rfl)
        (fun hin => absurd hin id) (fun _ => hover) fun p hp => by cases hp⟩
  | packet rtpInfo buf rtpSize hplace hsize => exact ⟨[], stay, h.newPass hplace rtpInfo buf _⟩
  | passOver hplace hzero =>
      have hover : ahead = [] := by
        obtain ⟨-, htmp⟩ := h.counts (by rw [hplace]; trivial)
        rw [← List.length_eq_zero_iff]
        omega
      exact ⟨stay, ahead, h.goTo s.rtpInfo s.buf _ (by rw [hplace]; rfl) (by rw [hplace]; rfl)
        (fun hin => absurd hin id) (fun _ => hover) fun p hp => by cases hp⟩
  | fetch p hplace hne hget =>
      obtain ⟨q, rest, rfl, hget'⟩ := h.getAt hplace hne
      obtain rfl : q = p := Option.some.inj (hget'.symm.trans hget)
      exact ⟨stay, q :: rest, h.goTo s.rtpInfo s.buf _ (by rw [hplace]; rfl) (by rw [hplace]; rfl)
        (fun _ => by rw [hplace]; trivial) (fun hout => absurd trivial hout) fun p hp => hp⟩
  | flagged p hplace hlive hflag => exact ⟨stay, ahead, h.seesFlag hplace hflag⟩
  | unflagged p hplace hlive hflag =>
      have hcurrent := h.current p (by rw [hplace]; rfl)
      exact ⟨stay, ahead, h.goTo s.rtpInfo s.buf _ (by rw [hplace]; rfl) (by rw [hplace]; rfl)
        (fun _ => by rw [hplace]; trivial) (fun hout => absurd trivial hout)
        fun q hq => by
          obtain rfl := Option.some.inj hq
          exact hcurrent⟩
  | unlink p hplace => exact ⟨stay, h.unlink hplace⟩
  | release p hplace hlive => exact ⟨stay, ahead, h.release hplace⟩
  | offer p packet hplace hlive hlast => exact ⟨stay ++ [p], h.offer hplace hlast⟩

/-! ## The event loop -/

theorem LoopInv.seen_client (h : LoopInv clients client s stay ahead) {p : Nat}
    (hp : p ∈ s.seenFlagged) : p ∈ clients := by
  rw [h.mem_clients]
  rw [h.seen] at hp
  rcases List.mem_append.mp hp with hfreed | hcondemned
  · exact .inl hfreed
  · rcases Place.mem_condemned hcondemned with hheld | hcurrent
    · exact .inr (.inl hheld)
    · exact .inr (.inr (.inr (List.mem_of_mem_head? (h.current p hcurrent))))

theorem LoopInv.setDeleteFlag (h : LoopInv clients client s stay ahead) (q : Nat) :
    LoopInv clients client (s.setDeleteFlag q) stay ahead := by
  have hset (p : Nat) : ((s.setDeleteFlag q).client p).iSendIframeFlag =
      (s.client p).iSendIframeFlag ∧ ((s.setDeleteFlag q).client p).sent = (s.client p).sent := by
    show (Function.update s.client q _ p).iSendIframeFlag = _ ∧
      (Function.update s.client q _ p).sent = _
    by_cases hpq : p = q
    · subst hpq
      rw [Function.update_self]
      exact ⟨rfl, rfl⟩
    · rw [Function.update_of_ne hpq]
      exact ⟨rfl, rfl⟩
  have hsent {p : Nat} {packets : List RtpPacket} (hp : s.SentTo client packets p) :
      (s.setDeleteFlag q).SentTo client packets p := by
    intro hgate
    rw [(hset p).1, (hset p).2]
    exact hp hgate
  exact
    { h with
      flagged := fun p hp => by
        show (Function.update s.client q _ p).iDeleteFlag = 1
        by_cases hpq : p = q
        · rw [hpq, Function.update_self]
        · rw [Function.update_of_ne hpq]
          exact h.flagged p hp
      sentStay := fun p hp => hsent (h.sentStay p hp)
      sentAhead := fun p hp => hsent (h.sentAhead p hp) }

theorem LoopInv.append (h : LoopInv clients client s stay ahead) {q : Nat}
    (hstep : s.append q = some s') : LoopInv clients client s' stay ahead := by
  obtain ⟨⟨hold, -⟩, rfl⟩ := append_cases hstep
  rw [h.atStart] at hold
  have hother {p : Nat} (hp : p ∈ clients) : Function.update s.client q {} p = s.client p :=
    Function.update_of_ne (ne_of_mem_of_not_mem hp hold) _ _
  exact
    { nodup := h.nodup, atStart := h.atStart
      linked := by
        show s.listClientNodeHead ++ [q] = _
        rw [h.linked, List.append_assoc, List.append_assoc]
      parts := h.parts
      fresh := fun p hp => by
        rcases List.mem_append.mp hp with hp | hp
        · exact h.fresh p hp
        · exact List.mem_singleton.mp hp ▸ hold
      pass := h.pass, passOnce := h.passOnce, size := h.size, counts := h.counts
      packet := h.packet, ended := h.ended
      current := h.current, stayed := h.stayed, visited := h.visited, seen := h.seen
      flagged := fun p hp => by
        show (Function.update s.client q {} p).iDeleteFlag = 1
        rw [hother (h.seen_client hp)]
        exact h.flagged p hp
      sentStay := fun p hp hgate => by
        show (Function.update s.client q {} p).iSendIframeFlag = 1 ∧
          (Function.update s.client q {} p).sent = _
        rw [hother ((h.mem_clients p).mpr (.inr (.inr (.inl hp))))]
        exact h.sentStay p hp hgate
      sentAhead := fun p hp hgate => by
        show (Function.update s.client q {} p).iSendIframeFlag = 1 ∧
          (Function.update s.client q {} p).sent = _
        rw [hother ((h.mem_clients p).mpr (.inr (.inr (.inr hp))))]
        exact h.sentAhead p hp hgate }

theorem LoopInv.step (h : LoopInv clients client s stay ahead) {event : LoopEvent}
    (hstep : loopStep number frameType s event = some s') :
    ∃ stay' ahead', LoopInv clients client s' stay' ahead' := by
  cases event with
  | send => exact h.send (sendStep_cases hstep)
  | setDeleteFlag q =>
      obtain rfl := Option.some.inj hstep
      exact ⟨stay, ahead, h.setDeleteFlag q⟩
  | append q => exact ⟨stay, ahead, h.append hstep⟩

/-- The invariant holds in every state of a run that starts with a frame. -/
theorem loopInv_reachable (hnodup : clients.Nodup) {rtpInfoVideo : RtpInfo} {frame : PsFrame}
    (h : (clientLoop number frameType (.start rtpInfoVideo frame clients client)).Reachable s) :
    ∃ stay ahead, LoopInv clients client s stay ahead := by
  induction h with
  | init hs =>
      obtain rfl := hs
      exact ⟨clients, [], .start hnodup rtpInfoVideo frame⟩
  | step _ _ hstep ih =>
      obtain ⟨stay, ahead, ih⟩ := ih
      exact ih.step hstep

end Invariant

end GbStream.Rtp
