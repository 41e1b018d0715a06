import GbStream.Call.SipTable

/-!
# The table of calls as a map

What the table is for: a map from Call-IDs to nodes.  The table answers as the map does as long
as Call-IDs are told apart by what their fields hold of them; the relation `Simulates` ties the
two together and is kept by every request.
-/

namespace GbStream.Call

open Support.CString Support.HashTable

/-! ## The map -/

/-- The address of the node of each call, and the next free address. -/
structure Calls where
  node : Text → Option Nat := fun _ => none
  next : Nat := 0

namespace Calls

def handle (c : Calls) : Request → Calls × Answer
  | .invite pSipMsg sockets =>
      match c.node pSipMsg.number with
      | some i => (c, { pSipNode := some i, opened := none })
      | none =>
          ({ node := Function.update c.node pSipMsg.number (some c.next), next := c.next + 1 },
            { pSipNode := some c.next, opened := some sockets })
  | .ack number => (c, { pSipNode := c.node number, opened := none })
  | .bye number | .timeout number _ =>
      ({ c with node := Function.update c.node number none },
        { pSipNode := c.node number, opened := none })

def answers (c : Calls) : List Request → List Answer
  | [] => []
  | request :: requests => (c.handle request).2 :: answers (c.handle request).1 requests

def Alone (c : Calls) (x : Text) : Prop :=
  ∀ y, c.node y ≠ none → y.1.take 32 = x.1.take 32 → y = x

/-- The condition on a request.  A Call-ID of 32 bytes or more fills its field, and is read on
in the bytes behind it. -/
def Meets (c : Calls) : Request → Prop
  | .invite pSipMsg _ =>
      c.Alone pSipMsg.number ∧ (pSipMsg.number.1.length < 32 ∨ pSipMsg.pUserName.1 = [])
  | .ack number | .bye number => c.Alone number
  | .timeout number beyond =>
      c.Alone number ∧ (number.1.length < 32 ∨ stringAt beyond 0 = [])

def AllMeet (c : Calls) : List Request → Prop
  | [] => True
  | request :: requests => c.Meets request ∧ AllMeet (c.handle request).1 requests

end Calls

/-! ## Strings of Call-IDs -/

theorem string_strncpy_take {w behind : List UInt8} {n : Nat} (hw : 0 ∉ w)
    (hend : w.length < n ∨ stringAt behind 0 = []) : (strncpy w n).string behind = w.take n := by
  rcases Nat.lt_or_ge w.length n with hlen | hlen
  · rw [string_strncpy hw hlen, List.take_of_length_le hlen.le]
  · rw [string_strncpy_cut hw hlen, hend.resolve_left (Nat.not_lt.mpr hlen), List.append_nil]

theorem callId_paraseAckBye (number : Text) :
    (paraseAckBye number).callId = number.1.take 32 :=
  string_strncpy_take number.2 (.inr stringAt_zero_cons)

theorem callId_paraseInvite {pSipMsg : Invite}
    (hend : pSipMsg.number.1.length < 32 ∨ pSipMsg.pUserName.1 = []) :
    (paraseInvite pSipMsg).callId = pSipMsg.number.1.take 32 := by
  refine string_strncpy_take pSipMsg.number.2 (hend.imp_right fun hname => ?_)
  unfold SipDevArgs.behindCallId paraseInvite
  dsimp only
  rw [hname]
  exact stringAt_zero_cons

theorem callId_newSipNode {a : SipDevArgs} (hchnl : a.iDevChnl = 0) (id : Nat) (uHashValue : UInt32)
    (sockets : Sockets) : (newSipNode id uHashValue a sockets).callId = a.callId.take 32 := by
  refine string_strncpy_take (noNul_stringAt _ _) (.inr ?_)
  unfold SipNode.behindCallId newSipNode
  dsimp only
  rw [hchnl]
  exact stringAt_zero_cons

/-! ## The simulation -/

def SipHashing.bucket (h : SipHashing) (callId : List UInt8) : Nat := (h.uHashValue callId).toNat

/-- The table holds a node for each call of the map, found by the 32 bytes that tell it apart. -/
structure Simulates (h : SipHashing) (t : SipTable) (c : Calls) : Prop where
  wellFormed : WellFormed h.bucket SipEntry.callId t.buckets
  distinct : Distinct SipEntry.id t.buckets
  hashValue : ∀ {n}, Holds t.buckets n → n.iSipNodeHashValue = (h.uHashValue n.callId).toInt32
  address : ∀ {n}, Holds t.buckets n → n.id < t.next
  next : t.next = c.next
  node : ∀ {x i}, c.node x = some i →
    ∃ n, Holds t.buckets n ∧ n.id = i ∧ n.callId = x.1.take 32
  call : ∀ {n}, Holds t.buckets n → ∃ x, c.node x = some n.id ∧ n.callId = x.1.take 32
  alone : ∀ {x}, c.node x ≠ none → c.Alone x

section Simulates

variable {h : SipHashing} {t : SipTable} {c : Calls} {x : Text} {n : SipEntry}

theorem simulates_init : Simulates h {} {} where
  wellFormed := wellFormed_empty
  distinct := fun _ _ ⟨_, hn⟩ => absurd hn List.not_mem_nil
  hashValue := fun ⟨_, hn⟩ => absurd hn List.not_mem_nil
  address := fun ⟨_, hn⟩ => absurd hn List.not_mem_nil
  next := rfl
  node := fun hx => absurd hx (by simp)
  call := fun ⟨_, hn⟩ => absurd hn List.not_mem_nil
  alone := fun hx => absurd rfl hx

theorem Simulates.find_iff (hs : Simulates h t c) {callId : List UInt8} :
    findNodeFromSipHashTable h callId t = some n ↔ Holds t.buckets n ∧ n.callId = callId :=
  hs.wellFormed.find_eq_some_iff

theorem Simulates.find_none_iff (hs : Simulates h t c) {callId : List UInt8} :
    findNodeFromSipHashTable h callId t = none ↔ ∀ n, Holds t.buckets n → n.callId ≠ callId :=
  hs.wellFormed.find_eq_none_iff

/-- **Lookups agree.** -/
theorem Simulates.find (hs : Simulates h t c) (halone : c.Alone x) :
    (findNodeFromSipHashTable h (x.1.take 32) t).map SipEntry.id = c.node x := by
  rcases hnode : c.node x with _ | i
  · have hnone : findNodeFromSipHashTable h (x.1.take 32) t = none := by
      rw [hs.find_none_iff]
      intro n hn hcallId
      obtain ⟨y, hy, hny⟩ := hs.call hn
      have hcalled : c.node y ≠ none := by
        rw [hy]
        exact Option.some_ne_none _
      have hyx : y = x := halone y hcalled (hny.symm.trans hcallId)
      rw [hyx, hnode] at hy
      cases hy
    rw [hnone]
    rfl
  · obtain ⟨n, hn, hid, hcallId⟩ := hs.node hnode
    rw [hs.find_iff.mpr ⟨hn, hcallId⟩, Option.map_some, hid]

theorem Simulates.append (hs : Simulates h t c) (halone : c.Alone x) (hnone : c.node x = none)
    {n : SipEntry} (hid : n.id = t.next) (hcallId : n.callId = x.1.take 32)
    (hvalue : n.iSipNodeHashValue = (h.uHashValue (x.1.take 32)).toInt32) :
    Simulates h
      { buckets := append (h.bucket (x.1.take 32)) n t.buckets, next := t.next + 1 }
      { node := Function.update c.node x (some c.next), next := c.next + 1 } := by
  have habsent : Support.HashTable.find h.bucket SipEntry.callId n.callId t.buckets = none := by
    have hfind := hs.find halone
    rw [hnone, Option.map_eq_none_iff] at hfind
    rw [hcallId]
    exact hfind
  have hwf := hs.wellFormed.append habsent
  rw [hcallId] at hwf
  have hfresh : ∀ y, Holds t.buckets y → y.id ≠ n.id := fun y hy => by
    rw [hid]
    exact (hs.address hy).ne
  refine ⟨hwf, hs.distinct.append hfresh, ?_, ?_, congrArg (· + 1) hs.next, ?_, ?_, ?_⟩
  · intro y hy
    rcases holds_append.mp hy with hy | rfl
    · exact hs.hashValue hy
    · rw [hcallId, hvalue]
  · intro y hy
    rcases holds_append.mp hy with hy | rfl
    · exact (hs.address hy).trans (Nat.lt_succ_self _)
    · rw [hid]
      exact Nat.lt_succ_self _
  · intro y i hy
    dsimp only at hy
    by_cases hyx : y = x
    · subst hyx
      rw [Function.update_self] at hy
      exact ⟨n, holds_append.mpr (.inr rfl), by rw [hid, hs.next, Option.some.inj hy], hcallId⟩
    · rw [Function.update_of_ne hyx] at hy
      obtain ⟨n', hn', hrest⟩ := hs.node hy
      exact ⟨n', holds_append.mpr (.inl hn'), hrest⟩
  · intro y hy
    rcases holds_append.mp hy with hy | rfl
    · obtain ⟨z, hz, hyz⟩ := hs.call hy
      have hzx : z ≠ x := by
        rintro rfl
        rw [hnone] at hz
        cases hz
      exact ⟨z, (Function.update_of_ne hzx ..).trans hz, hyz⟩
    · exact ⟨x, by rw [hid, hs.next]; exact Function.update_self .., hcallId⟩
  · intro y hy z hz heq
    dsimp only at hy hz
    by_cases hyx : y = x
    · subst hyx
      by_cases hzx : z = y
      · exact hzx
      · rw [Function.update_of_ne hzx] at hz
        exact halone z hz heq
    · rw [Function.update_of_ne hyx] at hy
      by_cases hzx : z = x
      · subst hzx
        exact (halone y hy heq.symm).symm
      · rw [Function.update_of_ne hzx] at hz
        exact hs.alone hy z hz heq

theorem Simulates.setCmdType (hs : Simulates h t c) (enumCmdType : CmdType) (pSipNode : SipEntry) :
    Simulates h (setCmdType enumCmdType pSipNode t) c := by
  -- the command of a node is none of what the relation speaks of
  have hsame : ∀ {P : SipEntry → Prop},
      (∀ n : SipEntry, P n → P { n with toSipNode := { n.toSipNode with enumCmdType } }) →
      ∀ n : SipEntry, P n → P (if decide (n.id = pSipNode.id) = true then
        { n with toSipNode := { n.toSipNode with enumCmdType } } else n) := by
    intro P hP n hn
    split
    · exact hP n hn
    · exact hn
  refine ⟨hs.wellFormed.modify fun _ => rfl, hs.distinct.modify fun _ => rfl, ?_, ?_, hs.next, ?_,
    ?_, hs.alone⟩
  · intro y hy
    obtain ⟨n, hn, rfl⟩ := holds_modify.mp hy
    exact hsame (P := fun y => y.iSipNodeHashValue = (h.uHashValue y.callId).toInt32)
      (fun _ hy => hy) n (hs.hashValue hn)
  · intro y hy
    obtain ⟨n, hn, rfl⟩ := holds_modify.mp hy
    exact hsame (P := fun y => y.id < t.next) (fun _ hy => hy) n (hs.address hn)
  · intro x i hx
    obtain ⟨n, hn, hrest⟩ := hs.node hx
    exact ⟨_, holds_modify.mpr ⟨n, hn, rfl⟩,
      hsame (P := fun y => y.id = i ∧ y.callId = x.1.take 32) (fun _ hy => hy) n hrest⟩
  · intro y hy
    obtain ⟨n, hn, rfl⟩ := holds_modify.mp hy
    exact hsame (P := fun y => ∃ x, c.node x = some y.id ∧ y.callId = x.1.take 32)
      (fun _ hy => hy) n (hs.call hn)

theorem Simulates.delNode (hs : Simulates h t c) (hn : Holds t.buckets n)
    (hx : c.node x = some n.id) :
    Simulates h (delNodeFromSipHashTable n t) { c with node := Function.update c.node x none } := by
  have hbucket : n.iSipNodeHashValue.toUInt32.toNat = h.bucket n.callId := by
    rw [hs.hashValue hn, UInt32.toUInt32_toInt32]
    rfl
  have hholds : ∀ y, Holds (delNodeFromSipHashTable n t).buckets y ↔ Holds t.buckets y ∧ y ≠ n :=
    fun y => hs.distinct.holds_remove hs.wellFormed hn hbucket
  refine ⟨hs.wellFormed.remove, ?_, ?_, ?_, hs.next, ?_, ?_, ?_⟩
  · exact fun _ _ hy hy' => hs.distinct ((hholds _).mp hy).1 ((hholds _).mp hy').1
  · exact fun hy => hs.hashValue ((hholds _).mp hy).1
  · exact fun hy => hs.address ((hholds _).mp hy).1
  · intro y i hy
    dsimp only at hy
    by_cases hyx : y = x
    · subst hyx
      rw [Function.update_self] at hy
      cases hy
    · rw [Function.update_of_ne hyx] at hy
      obtain ⟨n', hn', hid, hcallId⟩ := hs.node hy
      refine ⟨n', (hholds n').mpr ⟨hn', ?_⟩, hid, hcallId⟩
      rintro rfl
      -- two calls with one node would have the same 32 bytes
      obtain ⟨n'', hn'', hid'', hcallId''⟩ := hs.node hx
      obtain rfl := hs.distinct hn'' hn' hid''
      have halone := hs.alone (x := x) (by rw [hx]; exact Option.some_ne_none _)
      exact hyx (halone y (by rw [hy]; exact Option.some_ne_none _)
        (hcallId.symm.trans hcallId''))
  · intro y hy
    obtain ⟨hy, hne⟩ := (hholds y).mp hy
    obtain ⟨z, hz, hyz⟩ := hs.call hy
    refine ⟨z, ?_, hyz⟩
    have hzx : z ≠ x := by
      rintro rfl
      exact hne (hs.distinct hy hn (Option.some.inj (hz.symm.trans hx)))
    exact (Function.update_of_ne hzx ..).trans hz
  · have hlive : ∀ y, Function.update c.node x none y ≠ none → c.node y ≠ none := by
      intro y hy
      by_cases hyx : y = x
      · subst hyx
        rw [Function.update_self] at hy
        exact absurd rfl hy
      · rwa [Function.update_of_ne hyx] at hy
    exact fun {_} hy z hz => hs.alone (hlive _ hy) z (hlive z hz)

theorem Simulates.delAbsent (hs : Simulates h t c) (hx : c.node x = none) :
    Simulates h t { c with node := Function.update c.node x none } := by
  have hsame : Function.update c.node x none = c.node := by
    rw [← hx]
    exact Function.update_eq_self x c.node
  rw [hsame]
  exact hs

/-- **One request**: the same answer, and the relation is kept. -/
theorem Simulates.handle (hs : Simulates h t c) (request : Request) (hmeets : c.Meets request) :
    (handle h t request).2 = (c.handle request).2 ∧
      Simulates h (Call.handle h t request).1 (c.handle request).1 := by
  cases request with
  | invite pSipMsg sockets =>
      obtain ⟨halone, hend⟩ := hmeets
      have hcallId := callId_paraseInvite hend
      have hfind := hs.find halone
      unfold Call.handle insertNodeToSipHashTable Calls.handle
      dsimp only
      rw [hcallId]
      rcases hnode : c.node pSipMsg.number with _ | i
      · rw [hnode, Option.map_eq_none_iff] at hfind
        rw [hfind]
        dsimp only
        refine ⟨by rw [← hs.next]; rfl, ?_⟩
        refine hs.append halone hnode rfl ?_ rfl
        rw [callId_newSipNode rfl, hcallId, List.take_take, Nat.min_self]
      · rw [hnode, Option.map_eq_some_iff] at hfind
        obtain ⟨n, hfind, hid⟩ := hfind
        rw [hfind]
        dsimp only
        exact ⟨by rw [hid], hs⟩
  | ack number =>
      have hfind := hs.find hmeets
      unfold Call.handle Calls.handle
      dsimp only
      rw [callId_paraseAckBye, ← hfind]
      rcases findNodeFromSipHashTable h (number.1.take 32) t with _ | n
      · exact ⟨rfl, hs⟩
      · exact ⟨rfl, hs.setCmdType .play n⟩
  | bye number =>
      have hfind := hs.find hmeets
      unfold Call.handle Calls.handle
      dsimp only
      rw [callId_paraseAckBye, ← hfind]
      rcases hseek : findNodeFromSipHashTable h (number.1.take 32) t with _ | n
      · exact ⟨rfl, hs.delAbsent (by rw [← hfind, hseek]; rfl)⟩
      · obtain ⟨hn, -⟩ := hs.find_iff.mp hseek
        have hnode : c.node number = some n.id := by rw [← hfind, hseek]; rfl
        refine ⟨rfl, ?_⟩
        exact (hs.setCmdType .stop n).delNode
          (n := { n with toSipNode := { n.toSipNode with enumCmdType := .stop } })
          ((hs.distinct.holds_modify hn).mpr (.inl rfl)) hnode
  | timeout number beyond =>
      obtain ⟨halone, hend⟩ := hmeets
      have hfind := hs.find halone
      have hcallId : timeoutCallId number beyond = number.1.take 32 :=
        string_strncpy_take number.2 hend
      unfold Call.handle Calls.handle
      dsimp only
      rw [hcallId, ← hfind]
      rcases hseek : findNodeFromSipHashTable h (number.1.take 32) t with _ | n
      · exact ⟨rfl, hs.delAbsent (by rw [← hfind, hseek]; rfl)⟩
      · obtain ⟨hn, -⟩ := hs.find_iff.mp hseek
        have hnode : c.node number = some n.id := by rw [← hfind, hseek]; rfl
        exact ⟨rfl, hs.delNode hn hnode⟩

/-- **A run**: the same answers. -/
theorem Simulates.answers (requests : List Request) :
    ∀ {t : SipTable} {c : Calls}, Simulates h t c → c.AllMeet requests →
      answers h t requests = c.answers requests := by
  induction requests with
  | nil => exact fun _ _ => rfl
  | cons request requests ih =>
      intro t c hs hmeets
      obtain ⟨hanswer, hs'⟩ := hs.handle request hmeets.1
      rw [Call.answers, Calls.answers, hanswer, ih hs' hmeets.2]

end Simulates

/-- **The table of calls is a map keyed by Call-ID**, in every run of requests that meet the
condition. -/
theorem answers_callMap (h : SipHashing) (requests : List Request)
    (hmeets : Calls.AllMeet {} requests) : answers h {} requests = Calls.answers {} requests :=
  simulates_init.answers requests hmeets

/-- An `INVITE` of one call from the user `pUserName`. -/
def inviteOf (number pUserName : Text) : Invite where
  number := number
  pUserName := pUserName
  cSsrc := strncpy [] 16
  cPushIp := strncpy [] 16
  iPushPort := 6000
  cDevId := strncpy [] 128
  iStreamType := 0
  cStreamSourceIp := strncpy [] 16
  iStreamSourcePort := 8109

/-! Call-IDs that are shorter than their field meet the condition, whatever the run is. -/

/-- The Call-ID of a request. -/
def Request.number : Request → Text
  | .invite pSipMsg _ => pSipMsg.number
  | .ack number | .bye number | .timeout number _ => number

namespace Calls

def Short (c : Calls) : Prop := ∀ y, c.node y ≠ none → y.1.length < 32

variable {c : Calls}

theorem Short.alone (h : c.Short) {x : Text} (hx : x.1.length < 32) : c.Alone x := by
  intro y hy htake
  rw [List.take_of_length_le (h y hy).le, List.take_of_length_le hx.le] at htake
  exact Subtype.ext htake

theorem Short.update (h : c.Short) {x : Text} (hx : x.1.length < 32) (node : Option Nat)
    (next : Nat) :
    Short { node := Function.update c.node x node, next } := by
  intro y hy
  by_cases heq : y = x
  · rw [heq]
    exact hx
  · refine h y fun hnone => hy ?_
    exact (Function.update_of_ne heq ..).trans hnone

theorem Short.handle (h : c.Short) {request : Request} (hx : request.number.1.length < 32) :
    c.Meets request ∧ (c.handle request).1.Short := by
  cases request with
  | invite pSipMsg sockets =>
      refine ⟨⟨h.alone hx, .inl hx⟩, ?_⟩
      rw [Calls.handle]
      split
      · exact h
      · exact h.update hx _ _
  | ack number => exact ⟨h.alone hx, h⟩
  | bye number => exact ⟨h.alone hx, h.update hx _ _⟩
  | timeout number beyond => exact ⟨⟨h.alone hx, .inl hx⟩, h.update hx _ _⟩

theorem Short.allMeet (requests : List Request) :
    ∀ {c : Calls}, c.Short → (∀ request ∈ requests, request.number.1.length < 32) →
      c.AllMeet requests := by
  induction requests with
  | nil => exact fun _ _ => trivial
  | cons request requests ih =>
      intro c h hshort
      obtain ⟨hmeets, hnext⟩ := h.handle (hshort request List.mem_cons_self)
      exact ⟨hmeets, ih hnext fun x hx => hshort x (List.mem_cons_of_mem _ hx)⟩

end Calls

/-- Two calls whose hash values are the same: the first is invited twice, both are acknowledged,
and the first is ended, invited again and given up. -/
theorem answers_callMap_two :
    let h : SipHashing := ⟨fun _ => 5, 1000⟩
    let x : Text := ⟨[0x61], by decide⟩
    let y : Text := ⟨[0x62], by decide⟩
    let inviteX : Request := .invite (inviteOf x ⟨[0x63], by decide⟩) ⟨7, 20000, 8, 20001⟩
    let inviteY : Request := .invite (inviteOf y ⟨[0x63], by decide⟩) ⟨9, 20002, 10, 20003⟩
    let requests := [inviteX, inviteY, inviteX, .ack x, .ack y, .bye x, inviteX, .timeout x []]
    answers h {} requests = Calls.answers {} requests ∧
      (answers h {} requests).map Answer.pSipNode =
        [some 0, some 1, some 0, some 0, some 1, some 0, some 2, some 2] := by
  intro h x y inviteX inviteY requests
  have hempty : Calls.Short {} := fun y hy => absurd rfl hy
  have hmap := answers_callMap h requests (hempty.allMeet requests (by decide))
  refine ⟨hmap, ?_⟩
  rw [hmap]
  decide

/-- The Call-ID fills its field, and the user name behind it is taken for a part of it: the
second `INVITE` makes a second node with sockets of its own. -/
theorem answers_longCallId :
    ¬ ∀ requests, answers ⟨bkdrHash, 1000⟩ {} requests = Calls.answers {} requests := by
  intro hall
  have htwice := hall
    [.invite (inviteOf ⟨List.replicate 32 0x61, by decide⟩ ⟨[0x62], by decide⟩)
        ⟨7, 20000, 8, 20001⟩,
      .invite (inviteOf ⟨List.replicate 32 0x61, by decide⟩ ⟨[0x62], by decide⟩)
        ⟨9, 20002, 10, 20003⟩]
  revert htwice
  decide +kernel

end GbStream.Call
