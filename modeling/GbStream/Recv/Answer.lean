import GbStream.Recv.Connection
import GbStream.Recv.Reassembly

/-!
# The answer to the start command, cut into pieces

`recv_cmd_from_hbserver` clears the front of the buffer whenever it is entered, also when a part
of the answer has been collected there already.  The answer is then read as an empty string.
-/

namespace GbStream.Recv

open Support.Bytes Support.CString

/-! ## The callback -/

/-- The loop of `recv_cmd_from_hbserver`. -/
def recvCommand (iRet : Bool) (r : Receiver) : Connection :=
  if _ : r.input.length < packageExtraLen then { receiver := r }
  else if r.input.length < toSizeT (readNetLayer r.input).iActLength.toInt then { receiver := r }
  else
    match _ : readPackage r with
    | none => { phase := .overrun, receiver := r }
    | some r' =>
        if (readNetLayer r.input).byBlockEndFlag ≠ 0 then
          ({ receiver := r' : Connection }).finishCommand iRet
        else recvCommand iRet r'
termination_by r.input.length
decreasing_by exact input_lt_of_readPackage ‹_› ‹_›

/-- The `memset` at the entry. -/
def Receiver.cleared (r : Receiver) : Receiver :=
  { r with
    hGetStreamFromSource := List.replicate 2048 0 ++ r.hGetStreamFromSource.drop 2048 }

def recvCmdFromHbserver (iRet : Bool) (r : Receiver) : Connection := recvCommand iRet r.cleared

/-- The callbacks of an answer that comes in pieces, as long as this callback is installed. -/
def receiveAnswer (iRet : Bool) (r : Receiver) : List (List UInt8) → Connection
  | [] => { receiver := r }
  | piece :: pieces =>
      let c := recvCmdFromHbserver iRet { r with input := r.input ++ piece }
      if c.phase = .command then receiveAnswer iRet c.receiver pieces else c

/-- A call of the callback is a run of rounds behind its entry, up to what is left of a node
whose buffer has been overrun. -/
theorem recvCommand_rounds (iRet : Bool) (r : Receiver) :
    ∃ events : List Event,
      let c := events.foldl Connection.step { receiver := r }
      c = recvCommand iRet r ∨ c.phase = .overrun ∧ (recvCommand iRet r).phase = .overrun := by
  fun_induction recvCommand iRet r with
  | case1 r hhead => exact ⟨[], .inl rfl⟩
  | case2 r hhead hbody => exact ⟨[], .inl rfl⟩
  | case3 r hhead hbody hread =>
      refine ⟨[.read], .inr ⟨?_, rfl⟩⟩
      have hcomplete : Complete r := ⟨by omega, by omega⟩
      simp [Connection.step, Connection.read, hcomplete, hread]
  | case4 r hhead hbody r' hread hend =>
      refine ⟨[.read, .finish ⟨0, false, 0, 0⟩ iRet], .inl ?_⟩
      have hcomplete : Complete r := ⟨by omega, by omega⟩
      simp [Connection.step, Connection.read, hcomplete, hread, hend, Connection.finishCommand]
  | case5 r hhead hbody r' hread hend ih =>
      obtain ⟨events, hevents⟩ := ih
      refine ⟨.read :: events, ?_⟩
      have hcomplete : Complete r := ⟨by omega, by omega⟩
      have hstep : Connection.step { receiver := r } .read = { receiver := r' } := by
        simp [Connection.step, Connection.read, hcomplete, hread, hend]
      rw [List.foldl_cons, hstep]
      exact hevents

/-! ## A reply -/

/-- An answer of the media server: packets up to the first one with the end flag, with a payload
below the size of the buffer and without NUL bytes. -/
structure Reply where
  blocks : List Packet
  last : Packet
  inside : ∀ p ∈ blocks, ¬ p.header.byBlockEndFlag ≠ 0
  ends : last.header.byBlockEndFlag ≠ 0
  fits : (payloads (blocks ++ [last])).length < sourceBufferSize
  noNul : 0 ∉ payloads (blocks ++ [last])

def Reply.packets (reply : Reply) : List Packet := reply.blocks ++ [reply.last]

def Reply.payload (reply : Reply) : List UInt8 := payloads reply.packets

/-- "SUCCESS" -/
def success : List UInt8 := [0x53, 0x55, 0x43, 0x43, 0x45, 0x53, 0x53]

/-- The number of bytes up to the end of the first packet with a payload. -/
def firstPayloadEnd : List Packet → Nat
  | [] => 0
  | p :: packets => p.toBytes.length + if p.payload = [] then firstPayloadEnd packets else 0

/-- No callback but the one that finishes the reply takes a byte of the payload: every cut, the
end apart, is in front of the end of the first packet with a payload. -/
def Reply.Unsplit (reply : Reply) (cut : List (List UInt8)) : Prop :=
  ∀ k, (cut.take k).flatten.length < (wire reply.packets).length →
    (cut.take k).flatten.length < firstPayloadEnd reply.packets

/-! ## What has been collected -/

/-- The payload `collected` has been counted.  It lies in the buffer as long as the buffer is
`intact`; otherwise the first byte has been cleared. -/
structure Collected (intact : Prop) (collected : List UInt8) (r : Receiver) : Prop where
  size : r.hGetStreamFromSource.length = sourceBufferSize
  count : r.iRecvStreamDataLen = collected.length
  kept : intact → r.hGetStreamFromSource =
    collected ++ List.replicate (sourceBufferSize - collected.length) 0
  cleared : ¬ intact → r.hGetStreamFromSource.head? = some 0 ∧ collected ≠ []

section Collected

variable {intact : Prop} {collected tail piece : List UInt8} {r : Receiver} {p : Packet}

theorem Collected.input (h : Collected intact collected r) (input : List UInt8) :
    Collected intact collected { r with input } :=
  ⟨h.size, h.count, h.kept, h.cleared⟩

theorem Collected.enter (h : Collected intact collected r)
    (hroom : collected.length < sourceBufferSize) :
    Collected (intact ∧ collected = []) collected r.cleared where
  size := by
    have hlength := h.size
    simp only [Receiver.cleared, List.length_append, List.length_replicate, List.length_drop]
    rw [hlength]
    decide
  count := h.count
  kept := by
    rintro ⟨hintact, rfl⟩
    show List.replicate 2048 0 ++ r.hGetStreamFromSource.drop 2048 = _
    rw [h.kept hintact, List.nil_append, List.drop_replicate, List.replicate_append_replicate]
    rfl
  cleared := by
    intro hnot
    refine ⟨rfl, ?_⟩
    by_cases hintact : intact
    · exact fun hnil => hnot ⟨hintact, hnil⟩
    · exact (h.cleared hintact).2

theorem Collected.read (h : Collected intact collected r) (hinput : r.input = p.toBytes ++ tail)
    (hroom : (collected ++ p.payload).length < sourceBufferSize) :
    ∃ r', readPackage r = some r' ∧ r'.input = tail ∧
      Collected intact (collected ++ p.payload) r' := by
  rw [List.length_append] at hroom
  obtain ⟨buf, hwrite, hread⟩ := readPackage_packet hinput h.count h.size hroom.le
  refine ⟨_, hread, rfl, ?_⟩
  obtain ⟨hfits, hbuf⟩ := writeAt_inv hwrite
  exact
    { size := (length_of_writeAt hwrite).trans h.size
      count := by rw [List.length_append]
      kept := by
        intro hintact
        show buf = _
        rw [hbuf, h.kept hintact, List.take_left, List.append_assoc, List.append_assoc,
          List.drop_append, List.drop_eq_nil_of_le (Nat.le_add_right ..), List.nil_append,
          Nat.add_sub_cancel_left, List.drop_replicate, List.length_append, Nat.sub_add_eq]
      cleared := by
        intro hnot
        obtain ⟨hhead, hne⟩ := h.cleared hnot
        refine ⟨?_, fun hnil => hne (List.append_eq_nil_iff.mp hnil).1⟩
        have hpos : 0 < collected.length := List.length_pos_iff.mpr hne
        have hfront : buf.take collected.length = r.hGetStreamFromSource.take collected.length := by
          have hlength : (r.hGetStreamFromSource.take collected.length).length =
              collected.length := by
            rw [List.length_take]
            omega
          rw [hbuf, List.append_assoc, List.take_left' hlength]
        calc
          buf.head? = (buf.take collected.length).head? := by
            rw [List.head?_take, if_neg (Nat.ne_of_gt hpos)]
          _ = r.hGetStreamFromSource.head? := by
            rw [hfront, List.head?_take, if_neg (Nat.ne_of_gt hpos)]
          _ = some 0 := hhead }

theorem Collected.answer (h : Collected intact collected r) (hnoNul : 0 ∉ collected)
    (hroom : collected.length < sourceBufferSize) :
    (intact → stringAt r.hGetStreamFromSource 0 = collected) ∧
      (¬ intact → stringAt r.hGetStreamFromSource 0 = []) := by
  constructor
  · intro hintact
    obtain ⟨k, hk⟩ := Nat.exists_eq_add_of_lt hroom
    have hzero : sourceBufferSize - collected.length = k + 1 := by omega
    rw [h.kept hintact, stringAt_zero_append hnoNul, hzero, List.replicate_succ,
      stringAt_zero_cons, List.append_nil]
  · intro hnot
    obtain ⟨rest, hrest⟩ := List.head?_eq_some_iff.mp (h.cleared hnot).1
    rw [hrest, stringAt_zero_cons]

/-- **The end of the reply**: it is accepted just if it has been kept and says so. -/
theorem Collected.finish (h : Collected intact collected r) (hnoNul : 0 ∉ collected)
    (hroom : collected.length < sourceBufferSize) (iRet : Bool) :
    let c := ({ receiver := r : Connection }).finishCommand iRet
    (c.phase = .stream ∨ c.phase = .closed) ∧
      (c.phase = .stream ↔ intact ∧ success <:+: collected ∧ iRet = true) := by
  obtain ⟨hkept, hcleared⟩ := h.answer hnoNul hroom
  unfold Connection.finishCommand
  by_cases hintact : intact
  · simp only [hkept hintact]
    by_cases hsuccess : success <:+: collected
    · rw [if_pos (show [0x53, 0x55, 0x43, 0x43, 0x45, 0x53, 0x53] <:+: collected from hsuccess)]
      cases iRet <;> simp [hintact, hsuccess]
    · rw [if_neg (show ¬ [0x53, 0x55, 0x43, 0x43, 0x45, 0x53, 0x53] <:+: collected from hsuccess)]
      simp [hsuccess]
  · simp only [hcleared hintact]
    simp [hintact]

end Collected

/-! ## One callback -/

section Callback

variable {intact : Prop} {collected : List UInt8} {r : Receiver} {iRet : Bool}

theorem recvCommand_first {p : Packet} {rest : List Packet} (h : Collected intact collected r)
    (hroom : (collected ++ p.payload).length < sourceBufferSize)
    (hfront : r.input <+: wire (p :: rest)) :
    (r.input.length < p.toBytes.length ∧ recvCommand iRet r = { receiver := r }) ∨
      ∃ r', r.input = p.toBytes ++ r'.input ∧ r'.input <+: wire rest ∧
        Collected intact (collected ++ p.payload) r' ∧
        recvCommand iRet r =
          if p.header.byBlockEndFlag ≠ 0 then
            ({ receiver := r' : Connection }).finishCommand iRet
          else recvCommand iRet r' := by
  by_cases hhead : r.input.length < packageExtraLen
  · refine .inl ⟨?_, by rw [recvCommand, dif_pos hhead]⟩
    rw [p.length_toBytes]
    omega
  have hheader : readNetLayer r.input = p.header :=
    readNetLayer_front hfront (Nat.le_of_not_lt hhead)
  have hsize : toSizeT (readNetLayer r.input).iActLength.toInt = p.toBytes.length := by
    rw [hheader, toSizeT_iActLength]
  by_cases hbody : r.input.length < p.toBytes.length
  · exact .inl ⟨hbody, by rw [recvCommand, dif_neg hhead, hsize, if_pos hbody]⟩
  obtain ⟨tail, hinput, htail⟩ := front_of_wire hfront (Nat.le_of_not_lt hbody)
  obtain ⟨r', hread, rfl, hcollected⟩ := h.read hinput hroom
  refine .inr ⟨r', hinput, htail, hcollected, ?_⟩
  rw [recvCommand, dif_neg hhead, hsize, if_neg hbody]
  split
  · rename_i hnone
    rw [hread] at hnone
    cases hnone
  · rename_i next hnext
    obtain rfl := Option.some.inj (hread.symm.trans hnext)
    rw [hheader]

def Waiting (packets : List Packet) (input : List UInt8) : Prop :=
  ∀ p rest, packets = p :: rest → input.length < p.toBytes.length

/-- **One callback**, by induction on the packets that are not yet taken: it waits in front of one
of them, or comes to the end packet. -/
theorem recvCommand_spec (iRet : Bool) {last : Packet} (hends : last.header.byBlockEndFlag ≠ 0)
    (blocks : List Packet) :
    ∀ {collected : List UInt8} {r : Receiver}, Collected intact collected r →
      (∀ p ∈ blocks, ¬ p.header.byBlockEndFlag ≠ 0) →
      (collected ++ payloads (blocks ++ [last])).length < sourceBufferSize →
      r.input <+: wire (blocks ++ [last]) →
      (∃ taken left r', blocks = taken ++ left ∧ recvCommand iRet r = { receiver := r' } ∧
        r.input = wire taken ++ r'.input ∧ Collected intact (collected ++ payloads taken) r' ∧
        Waiting (left ++ [last]) r'.input) ∨
      r.input = wire (blocks ++ [last]) ∧
        ∃ r', Collected intact (collected ++ payloads (blocks ++ [last])) r' ∧
          recvCommand iRet r = ({ receiver := r' : Connection }).finishCommand iRet := by
  induction blocks with
  | nil =>
      intro collected r h _ hroom hfront
      rw [List.nil_append, payloads_singleton] at hroom
      rcases recvCommand_first h hroom hfront with ⟨hwait, hcall⟩ | ⟨r', hinput, htail, h', hcall⟩
      · refine .inl ⟨[], [], r, rfl, hcall, rfl, ?_, ?_⟩
        · rw [show payloads [] = [] from rfl, List.append_nil]
          exact h
        · intro p rest heq
          obtain rfl := (List.cons.inj heq).1
          exact hwait
      · rw [if_pos hends] at hcall
        refine .inr ⟨?_, r', ?_, hcall⟩
        · rw [hinput, List.prefix_nil.mp htail]
          simp [wire]
        · rw [List.nil_append, payloads_singleton]
          exact h'
  | cons p blocks ih =>
      intro collected r h hblocks hroom hfront
      have hpayloads : payloads (p :: blocks ++ [last]) =
          p.payload ++ payloads (blocks ++ [last]) := rfl
      rw [hpayloads, ← List.append_assoc] at hroom
      have hfirst : (collected ++ p.payload).length < sourceBufferSize := by
        rw [List.length_append] at hroom
        omega
      rcases recvCommand_first h hfirst hfront with
        ⟨hwait, hcall⟩ | ⟨r₁, hinput, htail, h₁, hcall⟩
      · refine .inl ⟨[], p :: blocks, r, rfl, hcall, rfl, ?_, ?_⟩
        · rw [show payloads [] = [] from rfl, List.append_nil]
          exact h
        · intro q rest heq
          obtain rfl := (List.cons.inj heq).1
          exact hwait
      · rw [if_neg (hblocks p List.mem_cons_self)] at hcall
        rcases ih h₁ (fun q hq => hblocks q (List.mem_cons_of_mem p hq)) hroom htail with
          ⟨taken, left, r', rfl, hcall', hinput', h', hwait⟩ | ⟨hinput', r', h', hcall'⟩
        · refine .inl ⟨p :: taken, left, r', rfl, hcall.trans hcall', ?_, ?_, hwait⟩
          · rw [hinput, hinput']
            simp [wire]
          · rw [List.append_assoc] at h'
            exact h'
        · refine .inr ⟨?_, r', ?_, hcall.trans hcall'⟩
          · rw [hinput, hinput']
            simp [wire]
          · rw [hpayloads, ← List.append_assoc]
            exact h'

end Callback

/-! ## Cuts -/

theorem firstPayloadEnd_append (packets rest : List Packet) :
    firstPayloadEnd (packets ++ rest) =
      if payloads packets = [] then (wire packets).length + firstPayloadEnd rest
      else firstPayloadEnd packets := by
  induction packets with
  | nil => simp [payloads, wire]
  | cons p packets ih =>
      have hpayloads : payloads (p :: packets) = p.payload ++ payloads packets := rfl
      have hwire : wire (p :: packets) = p.toBytes ++ wire packets := rfl
      rw [List.cons_append, firstPayloadEnd, ih, hpayloads, hwire, firstPayloadEnd]
      by_cases hp : p.payload = []
      · by_cases hrest : payloads packets = []
        · simp [hp, hrest, Nat.add_assoc]
        · simp [hp, hrest]
      · simp [hp]

theorem firstPayloadEnd_le (packets : List Packet) :
    firstPayloadEnd packets ≤ (wire packets).length := by
  induction packets with
  | nil => exact Nat.le_refl _
  | cons p packets ih =>
      have hwire : wire (p :: packets) = p.toBytes ++ wire packets := rfl
      rw [firstPayloadEnd, hwire, List.length_append]
      split
      · omega
      · omega

/-- What has come before a packet that is not there as a whole is in front of the first payload,
unless a payload has been taken. -/
theorem lt_firstPayloadEnd (done : List Packet) {left : List Packet} {input : List UInt8}
    (hleft : left ≠ []) (hwait : Waiting left input) :
    (wire done).length + input.length < firstPayloadEnd (done ++ left) ↔ payloads done = [] := by
  rw [firstPayloadEnd_append]
  split
  · rename_i hnone
    obtain ⟨p, rest, rfl⟩ := List.exists_cons_of_ne_nil hleft
    have hlt := hwait p rest rfl
    have hle : p.toBytes.length ≤ firstPayloadEnd (p :: rest) := Nat.le_add_right ..
    exact iff_of_true (by omega) hnone
  · rename_i hsome
    have hle := firstPayloadEnd_le done
    exact iff_of_false (by omega) hsome

/-- The rest of a cut, when `arrived` bytes have come. -/
def UnsplitFrom (total bound arrived : Nat) (pieces : List (List UInt8)) : Prop :=
  ∀ k, arrived + (pieces.take k).flatten.length < total →
    arrived + (pieces.take k).flatten.length < bound

theorem unsplitFrom_cons {total bound arrived : Nat} {piece : List UInt8}
    {pieces : List (List UInt8)} (harrived : arrived < total) :
    UnsplitFrom total bound arrived (piece :: pieces) ↔
      arrived < bound ∧ UnsplitFrom total bound (arrived + piece.length) pieces := by
  constructor
  · intro h
    refine ⟨h 0 harrived, fun k hk => ?_⟩
    have hnext := h (k + 1)
    rw [List.take_succ_cons, List.flatten_cons, List.length_append, ← Nat.add_assoc] at hnext
    exact hnext hk
  · rintro ⟨hfirst, hrest⟩ k hk
    cases k with
    | zero => exact hfirst
    | succ k =>
        rw [List.take_succ_cons, List.flatten_cons, List.length_append, ← Nat.add_assoc] at hk ⊢
        exact hrest k hk

theorem unsplitFrom_all {total bound arrived : Nat} (pieces : List (List UInt8))
    (harrived : total ≤ arrived) : UnsplitFrom total bound arrived pieces := by
  intro k hk
  omega

/-! ## The whole answer -/

theorem Waiting.length_lt {packets : List Packet} {input : List UInt8} (h : Waiting packets input)
    (hne : packets ≠ []) : input.length < (wire packets).length := by
  obtain ⟨p, rest, rfl⟩ := List.exists_cons_of_ne_nil hne
  have hlt := h p rest rfl
  have hwire : wire (p :: rest) = p.toBytes ++ wire rest := rfl
  rw [hwire, List.length_append]
  omega

/-- **Every run of callbacks**, by induction on the pieces that arrive. -/
theorem receiveAnswer_spec (reply : Reply) (iRet : Bool) (pieces : List (List UInt8)) :
    ∀ {intact : Prop} {done left : List Packet} {r : Receiver}, reply.blocks = done ++ left →
      Collected intact (payloads done) r → Waiting (left ++ [reply.last]) r.input →
      r.input ++ pieces.flatten = wire (left ++ [reply.last]) →
      let c := receiveAnswer iRet r pieces
      (c.phase = .stream ∨ c.phase = .closed) ∧
        (c.phase = .stream ↔
          (intact ∧ UnsplitFrom (wire reply.packets).length (firstPayloadEnd reply.packets)
            ((wire done).length + r.input.length) pieces) ∧
          success <:+: reply.payload ∧ iRet = true) := by
  induction pieces with
  | nil =>
      intro intact done left r _ _ hwait hinput
      have hlt := hwait.length_lt (List.concat_ne_nil _ _)
      rw [List.flatten_nil, List.append_nil] at hinput
      rw [hinput] at hlt
      exact absurd hlt (Nat.lt_irrefl _)
  | cons piece pieces ih =>
      intro intact done left r hblocks h hwait hinput
      have hpackets : reply.packets = done ++ (left ++ [reply.last]) := by
        rw [Reply.packets, hblocks, List.append_assoc]
      have hfits : (payloads done ++ payloads (left ++ [reply.last])).length <
          sourceBufferSize := by
        have hfits := reply.fits
        rw [show reply.blocks ++ [reply.last] = reply.packets from rfl, hpackets,
          payloads_append] at hfits
        exact hfits
      have hfront : r.input ++ piece <+: wire (left ++ [reply.last]) := by
        rw [← hinput, List.flatten_cons, ← List.append_assoc]
        exact List.prefix_append _ _
      have harrived : (wire done).length + r.input.length < (wire reply.packets).length := by
        rw [hpackets, wire_append, List.length_append]
        exact Nat.add_lt_add_left (hwait.length_lt (List.concat_ne_nil _ _)) _
      have hcut := lt_firstPayloadEnd done (List.concat_ne_nil reply.last left) hwait
      -- the entry keeps the buffer intact just if no payload has been taken before
      have hentered : Collected (intact ∧ payloads done = []) (payloads done)
          (Receiver.cleared { r with input := r.input ++ piece }) := by
        refine (h.input (r.input ++ piece)).enter ?_
        rw [List.length_append] at hfits
        omega
      rw [unsplitFrom_cons harrived, hpackets, hcut, ← hpackets,
        ← @and_assoc intact (payloads done = [])]
      have hinside : ∀ p ∈ left, ¬ p.header.byBlockEndFlag ≠ 0 := fun p hp =>
        reply.inside p (by rw [hblocks]; exact List.mem_append_right _ hp)
      rcases recvCommand_spec iRet reply.ends left hentered hinside hfits hfront with
        ⟨taken, left', r', rfl, hcall, hwire, h', hwait'⟩ | ⟨hall, r', h', hcall⟩
      · -- the callback waits for more
        have hwire : r.input ++ piece = wire taken ++ r'.input := hwire
        have hnext : receiveAnswer iRet r (piece :: pieces) = receiveAnswer iRet r' pieces := by
          rw [receiveAnswer, recvCmdFromHbserver, hcall]
          rfl
        have hinput' : r'.input ++ pieces.flatten = wire (left' ++ [reply.last]) := by
          rw [List.flatten_cons, ← List.append_assoc, hwire, List.append_assoc, List.append_assoc,
            wire_append, List.append_cancel_left_eq] at hinput
          exact hinput
        have hlength : (wire done).length + r.input.length + piece.length =
            (wire (done ++ taken)).length + r'.input.length := by
          have heq := congrArg List.length hwire
          rw [List.length_append, List.length_append] at heq
          rw [wire_append, List.length_append]
          omega
        rw [← payloads_append] at h'
        have hrest := ih (hblocks.trans (List.append_assoc ..).symm) h' hwait' hinput'
        rw [hnext, hlength]
        exact hrest
      · -- the callback comes to the end packet
        have hall : r.input ++ piece = wire (left ++ [reply.last]) := hall
        rw [← payloads_append, ← hpackets] at h'
        obtain ⟨hphase, haccepted⟩ := h'.finish reply.noNul reply.fits iRet
        have hnext : receiveAnswer iRet r (piece :: pieces) =
            ({ receiver := r' : Connection }).finishCommand iRet := by
          rw [receiveAnswer, recvCmdFromHbserver, hcall]
          rcases hphase with hphase | hphase
          · rw [if_neg (by rw [hphase]; decide)]
          · rw [if_neg (by rw [hphase]; decide)]
        have htotal : (wire reply.packets).length ≤
            (wire done).length + r.input.length + piece.length := by
          have heq := congrArg List.length hall
          rw [List.length_append] at heq
          rw [hpackets, wire_append, List.length_append]
          omega
        rw [hnext]
        refine ⟨hphase, ?_⟩
        rw [haccepted, and_iff_left (unsplitFrom_all pieces htotal)]
        exact Iff.rfl

/-- Where an answer in pieces ends: with `recv_stream_cb` installed, or torn down. -/
theorem receiveAnswer_start (reply : Reply) (iRet : Bool) {cut : List (List UInt8)}
    (hcut : cut.flatten = wire reply.packets) :
    let c := receiveAnswer iRet Connection.start.receiver cut
    (c.phase = .stream ∨ c.phase = .closed) ∧
      (c.phase = .stream ↔ reply.Unsplit cut ∧ success <:+: reply.payload ∧ iRet = true) := by
  have hstart : Collected True (payloads []) Connection.start.receiver :=
    { size := List.length_replicate
      count := rfl
      kept := fun _ => rfl
      cleared := fun hnot => absurd trivial hnot }
  have hwait : Waiting (reply.blocks ++ [reply.last]) Connection.start.receiver.input := by
    intro p rest _
    rw [p.length_toBytes]
    exact Nat.add_pos_left (by decide) _
  obtain ⟨hphase, haccepted⟩ :=
    receiveAnswer_spec reply iRet cut (List.nil_append _).symm hstart hwait hcut
  refine ⟨hphase, ?_⟩
  rw [haccepted, true_and]
  unfold UnsplitFrom Reply.Unsplit
  simp only [show (wire []).length + Connection.start.receiver.input.length = 0 from rfl,
    Nat.zero_add]

theorem Reply.packageExtraLen_le (reply : Reply) :
    packageExtraLen ≤ firstPayloadEnd reply.packets := by
  obtain ⟨p, rest, hpackets⟩ := List.exists_cons_of_ne_nil
    (show reply.packets ≠ [] from List.concat_ne_nil _ _)
  rw [hpackets, firstPayloadEnd, p.length_toBytes]
  exact (Nat.le_add_right _ _).trans (Nat.le_add_right _ _)

theorem Reply.unsplit_whole (reply : Reply) : reply.Unsplit [wire reply.packets] := by
  intro k hk
  cases k with
  | zero => exact (by decide : 0 < packageExtraLen).trans_le reply.packageExtraLen_le
  | succ k => simp at hk

/-- An answer in two pieces, the first of which ends in front of the first payload's end. -/
theorem Reply.unsplit_take_drop (reply : Reply) {n : Nat}
    (hn : n < firstPayloadEnd reply.packets) :
    reply.Unsplit [(wire reply.packets).take n, (wire reply.packets).drop n] := by
  intro k hk
  match k with
  | 0 => exact (Nat.zero_le n).trans_lt hn
  | 1 =>
      calc
        _ = ((wire reply.packets).take n).length := by
          rw [List.take_succ_cons, List.take_zero, List.flatten_singleton]
        _ ≤ n := List.length_take_le _ _
        _ < _ := hn
  | k + 2 => simp at hk

/-- **The answer does not depend on how it is cut**, and is accepted just if it says so, when it
does not say so or neither cut splits it behind a payload.  (`iRet` is whether
`nolock_queue_init` works; without a queue every answer is torn down.) -/
theorem receiveAnswer_cuts (reply : Reply) (iRet : Bool) {cut cut' : List (List UInt8)}
    (hcut : cut.flatten = wire reply.packets) (hcut' : cut'.flatten = wire reply.packets) :
    let c := receiveAnswer iRet Connection.start.receiver cut
    let c' := receiveAnswer iRet Connection.start.receiver cut'
    (c.phase = c'.phase ∧ (c.phase = .stream ∨ c.phase = .closed) ∧
        (c.phase = .stream ↔ success <:+: reply.payload ∧ iRet = true)) ↔
      (success <:+: reply.payload ∧ iRet = true → reply.Unsplit cut ∧ reply.Unsplit cut') := by
  obtain ⟨hphase, haccepted⟩ := receiveAnswer_start reply iRet hcut
  obtain ⟨hphase', haccepted'⟩ := receiveAnswer_start reply iRet hcut'
  dsimp only at *
  constructor
  · rintro ⟨hsame, -, hfirst⟩ hfound
    have hstream := hfirst.mpr hfound
    exact ⟨(haccepted.mp hstream).1, (haccepted'.mp (hsame.symm.trans hstream)).1⟩
  · intro hunsplit
    have hiff : (receiveAnswer iRet Connection.start.receiver cut).phase = .stream ↔
        success <:+: reply.payload ∧ iRet = true := by
      rw [haccepted]
      exact ⟨And.right, fun hfound => ⟨(hunsplit hfound).1, hfound⟩⟩
    have hiff' : (receiveAnswer iRet Connection.start.receiver cut').phase = .stream ↔
        success <:+: reply.payload ∧ iRet = true := by
      rw [haccepted']
      exact ⟨And.right, fun hfound => ⟨(hunsplit hfound).2, hfound⟩⟩
    refine ⟨?_, hphase, hiff⟩
    by_cases hfound : success <:+: reply.payload ∧ iRet = true
    · rw [hiff.mpr hfound, hiff'.mpr hfound]
    · rw [hphase.resolve_left (hiff.not.mpr hfound), hphase'.resolve_left (hiff'.not.mpr hfound)]

/-- "SUC" and "CESS" in two packets. -/
def splitReply : Reply where
  blocks := [⟨⟨31, 0, 9, 0, 0, 0, 0, 0, 0, 1, 0, 0, 0⟩, [0x53, 0x55, 0x43], by decide⟩]
  last := ⟨⟨32, 0, 9, 0, 0, 0, 0, 0, 0, 0, 1, 0, 0⟩, [0x43, 0x45, 0x53, 0x53], by decide⟩
  inside := by
    intro p hp
    obtain rfl := List.mem_singleton.mp hp
    decide
  ends := by decide
  fits := by decide
  noNul := by decide

/-- Whole, or cut behind its first byte, the answer starts the stream. -/
theorem receiveAnswer_cuts_first :
    (receiveAnswer true Connection.start.receiver [wire splitReply.packets]).phase = .stream ∧
      (receiveAnswer true Connection.start.receiver
        [(wire splitReply.packets).take 1, (wire splitReply.packets).drop 1]).phase = .stream := by
  have hcut : [(wire splitReply.packets).take 1, (wire splitReply.packets).drop 1].flatten =
      wire splitReply.packets := by
    rw [List.flatten_cons, List.flatten_singleton, List.take_append_drop]
  have hunsplit := splitReply.unsplit_take_drop
    ((by decide : 1 < packageExtraLen).trans_le splitReply.packageExtraLen_le)
  have hfound : success <:+: splitReply.payload := ⟨[], [], rfl⟩
  obtain ⟨hsame, -, hfirst⟩ := (receiveAnswer_cuts splitReply true (List.flatten_singleton ..)
    hcut).mpr fun _ => ⟨splitReply.unsplit_whole, hunsplit⟩
  have hstream := hfirst.mpr ⟨hfound, rfl⟩
  exact ⟨hstream, hsame.symm.trans hstream⟩

/-- Cut between its packets, the answer is torn down. -/
theorem receiveAnswer_split :
    success <:+: splitReply.payload ∧
      (receiveAnswer true Connection.start.receiver [wire splitReply.packets]).phase = .stream ∧
      (receiveAnswer true Connection.start.receiver
        (splitReply.packets.map Packet.toBytes)).phase = .closed := by
  have hfound : success <:+: splitReply.payload := ⟨[], [], rfl⟩
  refine ⟨hfound, ?_, ?_⟩
  · rw [(receiveAnswer_start splitReply true (List.flatten_singleton ..)).2]
    exact ⟨splitReply.unsplit_whole, hfound, rfl⟩
  · obtain ⟨hphase, haccepted⟩ := receiveAnswer_start splitReply true
      (show (splitReply.packets.map Packet.toBytes).flatten = wire splitReply.packets from
        List.flatMap_def.symm)
    refine hphase.resolve_left fun hstream => ?_
    exact absurd ((haccepted.mp hstream).1 1 (by decide)) (by decide)

end GbStream.Recv
