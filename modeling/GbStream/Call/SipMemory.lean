import GbStream.Call.SipTable
import GbStream.Simclist.Tables
import Mathlib.Data.List.Find
import Mathlib.Data.Set.Finite.Basic
import Mathlib.Order.Lattice.Nat

/-!
# The table of calls in memory

`sip_hash.c` with its lists and its nodes where they lie: the lists hold addresses of nodes that
`calloc` has given out and `free` takes back.  An address can be given out again; the numbers of
the calls tell nodes apart.
-/

namespace GbStream.Call

open Support Support.CString Support.HashTable Simclist

/-- The lists of the table, the nodes by their addresses, and how many there have been. -/
structure SipMemory where
  lists : Lists
  nodes : Nat → Option SipEntry
  next : Nat

namespace SipMemory

variable (h : SipHashing) (calloc : (Nat → Option SipEntry) → Nat)

/-- `sip_hash_table_create`, with the memory of the list entries as it was. -/
def create (heap : Heap Nat) : SipMemory where
  lists := Lists.init heap h.uHashTableLen.toNat
  nodes := fun _ => none
  next := 0

/-- `find_call_id`; a node that has been freed can not be asked. -/
def findCallId (m : SipMemory) (pCallId : List UInt8) (el : Nat) : Option Bool :=
  (m.nodes el).map fun pSipNode => pSipNode.callId = pCallId

/-- `find_node_from_sip_hash_table`: the address of a node. -/
def findNode (pCallId : List UInt8) (m : SipMemory) : Option (Option Nat) :=
  m.lists.seek (h.uHashValue pCallId).toNat (m.findCallId pCallId)

/-- `insert_node_to_sip_hash_table` -/
def insertNode (pSipDevInfo : SipDevArgs) (sockets : Sockets) (m : SipMemory) :
    Option (SipMemory × Nat × Option Sockets) := do
  match ← findNode h pSipDevInfo.callId m with
  | some pSipNode => some (m, pSipNode, none)
  | none =>
      let uHashValue := h.uHashValue pSipDevInfo.callId
      let pSipNode := calloc m.nodes
      let nodes := Function.update m.nodes pSipNode
        (some (newSipNode m.next uHashValue pSipDevInfo sockets))
      let lists ← m.lists.append uHashValue.toNat pSipNode
      some ({ lists, nodes, next := m.next + 1 }, pSipNode, some sockets)

/-- `pSipNode->enumCmdType = ...` -/
def setCmdType (enumCmdType : CmdType) (pSipNode : Nat) (m : SipMemory) : Option SipMemory := do
  let n ← m.nodes pSipNode
  some { m with
    nodes := Function.update m.nodes pSipNode
      (some { n with toSipNode := { n.toSipNode with enumCmdType } }) }

/-- `del_node_from_sip_hash_table` and `free` -/
def delNode (pSipNode : Nat) (m : SipMemory) : Option SipMemory := do
  let n ← m.nodes pSipNode
  let lists ← m.lists.delete n.iSipNodeHashValue.toUInt32.toNat pSipNode
  some { m with lists, nodes := Function.update m.nodes pSipNode none }

/-- The answer about a node, by the number of its call. -/
def answer (m : SipMemory) (pSipNode : Nat) (opened : Option Sockets) :
    Option (SipMemory × Answer) :=
  (m.nodes pSipNode).map fun n => (m, { pSipNode := some n.id, opened })

/-- Requests, as `udp_recv_cb` and `sip_pair_read_cb` serve them. -/
def handle (m : SipMemory) : Request → Option (SipMemory × Answer)
  | .invite pSipMsg sockets => do
      let (m, pSipNode, opened) ← insertNode h calloc (paraseInvite pSipMsg) sockets m
      m.answer pSipNode opened
  | .ack number => do
      match ← findNode h (paraseAckBye number).callId m with
      | none => some (m, { pSipNode := none, opened := none })
      | some pSipNode => (← m.setCmdType .play pSipNode).answer pSipNode none
  | .bye number => do
      match ← findNode h (paraseAckBye number).callId m with
      | none => some (m, { pSipNode := none, opened := none })
      | some pSipNode =>
          let (m, answer) ← (← m.setCmdType .stop pSipNode).answer pSipNode none
          some (← m.delNode pSipNode, answer)
  | .timeout number beyond => do
      match ← findNode h (timeoutCallId number beyond) m with
      | none => some (m, { pSipNode := none, opened := none })
      | some pSipNode =>
          let (m, answer) ← m.answer pSipNode none
          some (← m.delNode pSipNode, answer)

end SipMemory

/-! ## What the memory holds -/

/-- `calloc` gives out memory that is not in use, as long as there is any. -/
def Callocs (calloc : (Nat → Option SipEntry) → Nat) : Prop :=
  ∀ nodes : Nat → Option SipEntry, {a | nodes a ≠ none}.Finite → nodes (calloc nodes) = none

/-- The memory holds the table: the lists have the addresses `addr` of its nodes, and the nodes
of the table are all that has been allocated. -/
structure SipMemory.Models (h : SipHashing) (m : SipMemory) (t : SipTable) (addr : Nat → Nat) :
    Prop where
  placed : t.Placed
  lists : ∃ entries, m.lists.Hold (· < h.uHashTableLen.toNat)
    (fun i => (t.buckets i).map fun n => addr n.id) entries
  bucket : ∀ {i}, t.buckets i ≠ [] → i < h.uHashTableLen.toNat
  node : ∀ {n}, Holds t.buckets n → m.nodes (addr n.id) = some n
  used : ∀ {a n}, m.nodes a = some n → Holds t.buckets n ∧ a = addr n.id
  finite : {a | m.nodes a ≠ none}.Finite
  next : m.next = t.next

section Models

variable {h : SipHashing} {calloc : (Nat → Option SipEntry) → Nat} {m : SipMemory} {t : SipTable}
  {addr : Nat → Nat} {n : SipEntry} {pCallId : List UInt8}

theorem uHashValue_lt (pCallId : List UInt8) (hlen : 0 < h.uHashTableLen) :
    (h.uHashValue pCallId).toNat < h.uHashTableLen.toNat := by
  rw [SipHashing.uHashValue, UInt32.toNat_mod]
  exact Nat.mod_lt _ hlen

theorem finite_update {nodes : Nat → Option SipEntry} (hf : {a | nodes a ≠ none}.Finite) (p : Nat)
    (v : Option SipEntry) : {a | Function.update nodes p v a ≠ none}.Finite := by
  refine (hf.union (Set.finite_singleton p)).subset fun a ha => ?_
  rcases eq_or_ne a p with rfl | hne
  · exact .inr rfl
  · exact .inl fun hnone => ha ((Function.update_of_ne hne ..).trans hnone)

theorem update_eq_some {nodes : Nat → Option SipEntry} {p a : Nat} {v : Option SipEntry}
    {x : SipEntry} : Function.update nodes p v a = some x ↔
      a = p ∧ v = some x ∨ a ≠ p ∧ nodes a = some x := by
  rcases eq_or_ne a p with rfl | hne
  · simp
  · simp [hne]

namespace SipMemory.Models

/-- **A search in memory finds the node of the table.** -/
theorem findNode (hm : m.Models h t addr) (hlen : 0 < h.uHashTableLen) :
    SipMemory.findNode h pCallId m =
      some ((findNodeFromSipHashTable h pCallId t).map fun n => addr n.id) := by
  obtain ⟨entries, hlists⟩ := hm.lists
  have hseeker : ∀ a ∈ (t.buckets (h.uHashValue pCallId).toNat).map fun n => addr n.id,
      m.findCallId pCallId a = some ((m.findCallId pCallId a).getD false) := by
    intro a ha
    obtain ⟨n, hn, rfl⟩ := List.mem_map.mp ha
    rw [findCallId, hm.node ⟨_, hn⟩]
    rfl
  rw [SipMemory.findNode, hlists.seek (uHashValue_lt _ hlen) hseeker, List.find?_map]
  congr 2
  apply List.find?_congr
  intro n hn
  show (m.findCallId pCallId (addr n.id)).getD false = _
  rw [findCallId, hm.node ⟨_, hn⟩]
  rfl

theorem eq_of_addr (hm : m.Models h t addr) {n' : SipEntry} (hn : Holds t.buckets n)
    (hn' : Holds t.buckets n') (heq : addr n.id = addr n'.id) : n = n' := by
  have hnode := hm.node hn
  rw [heq, hm.node hn'] at hnode
  exact (Option.some.inj hnode).symm

theorem answer (hm : m.Models h t addr) (hn : Holds t.buckets n) (opened : Option Sockets) :
    m.answer (addr n.id) opened = some (m, { pSipNode := some n.id, opened }) := by
  rw [SipMemory.answer, hm.node hn]
  rfl

theorem setCmdType (hm : m.Models h t addr) (hn : Holds t.buckets n) (enumCmdType : CmdType) :
    ∃ m', m.setCmdType enumCmdType (addr n.id) = some m' ∧
      m'.Models h (Call.setCmdType enumCmdType n t) addr := by
  have hholds := fun x => hm.placed.distinct.holds_modify (x := x)
    (f := fun n => { n with toSipNode := { n.toSipNode with enumCmdType } }) hn
  refine ⟨_, by rw [SipMemory.setCmdType, hm.node hn]; rfl, ?_⟩
  exact {
    placed := hm.placed.setCmdType enumCmdType
    lists := by
      obtain ⟨entries, hlists⟩ := hm.lists
      refine ⟨entries, ?_⟩
      have hsame : (fun i => ((Call.setCmdType enumCmdType n t).buckets i).map
          fun n => addr n.id) = fun i => (t.buckets i).map fun n => addr n.id :=
        map_modify fun _ => rfl
      rw [hsame]
      exact hlists
    bucket := fun hne => hm.bucket fun hnil => hne (by
      show List.map _ (t.buckets _) = []
      rw [hnil]
      rfl)
    node := by
      intro x hx
      rcases (hholds x).mp hx with rfl | ⟨hx, hne⟩
      · exact Function.update_self ..
      · refine (Function.update_of_ne (fun heq => hne ?_) ..).trans (hm.node hx)
        exact hm.eq_of_addr hx hn heq
    used := by
      intro a x hx
      rcases update_eq_some.mp hx with ⟨rfl, hnew⟩ | ⟨hne, hold⟩
      · rw [← Option.some.inj hnew]
        exact ⟨(hholds _).mpr (.inl rfl), rfl⟩
      · obtain ⟨hheld, rfl⟩ := hm.used hold
        refine ⟨(hholds _).mpr (.inr ⟨hheld, ?_⟩), rfl⟩
        rintro rfl
        exact hne rfl
    finite := finite_update hm.finite _ _
    next := hm.next }

theorem delNode (hm : m.Models h t addr) (hn : Holds t.buckets n) :
    ∃ m', m.delNode (addr n.id) = some m' ∧ m'.Models h (delNodeFromSipHashTable n t) addr := by
  obtain ⟨entries, hlists⟩ := hm.lists
  have hbucket := hm.placed.wellFormed.mem_bucket hn
  have hlt := hm.bucket (List.ne_nil_of_mem hbucket)
  obtain ⟨lists, entries', hdelete, hlists'⟩ := hlists.delete hlt (addr n.id)
  have hplace : n.iSipNodeHashValue.toUInt32.toNat = n.place.2 := rfl
  refine ⟨{ lists, nodes := Function.update m.nodes (addr n.id) none, next := m.next }, ?_, ?_⟩
  · rw [SipMemory.delNode, hm.node hn]
    simp only [Option.bind_eq_bind, Option.bind_some]
    rw [hplace, hdelete]
    rfl
  · exact {
      placed := hm.placed.delNode hn
      lists := by
        refine ⟨entries', ?_⟩
        have hsame : (fun i => ((delNodeFromSipHashTable n t).buckets i).map fun n => addr n.id) =
            HashTable.remove n.place.2 (fun x => x = addr n.id)
              fun i => (t.buckets i).map fun n => addr n.id := by
          refine (remove_map (f := fun n : SipEntry => addr n.id) fun x hx => ?_).symm
          rw [decide_eq_decide]
          constructor
          · exact fun heq => congrArg SipEntry.id (hm.eq_of_addr ⟨_, hx⟩ hn heq)
          · exact fun heq => congrArg addr heq
        rw [hsame]
        exact hlists'
      bucket := fun hne => hm.bucket fun hnil => hne (remove_of_eq_nil hnil)
      node := by
        intro x hx
        obtain ⟨hx, hne⟩ := (hm.placed.holds_delNode hn).mp hx
        refine (Function.update_of_ne (fun heq => hne ?_) ..).trans (hm.node hx)
        exact hm.eq_of_addr hx hn heq
      used := by
        intro a x hx
        rcases update_eq_some.mp hx with ⟨-, hnone⟩ | ⟨hne, hold⟩
        · cases hnone
        · obtain ⟨hheld, rfl⟩ := hm.used hold
          refine ⟨(hm.placed.holds_delNode hn).mpr ⟨hheld, ?_⟩, rfl⟩
          rintro rfl
          exact hne rfl
      finite := finite_update hm.finite _ _
      next := hm.next }

theorem insert (hm : m.Models h t addr) (hlen : 0 < h.uHashTableLen) (hcalloc : Callocs calloc)
    {a : SipDevArgs} (sockets : Sockets)
    (hnone : findNodeFromSipHashTable h a.callId t = none)
    (hroom : (t.buckets (h.uHashValue a.callId).toNat).length < maxElements) :
    ∃ m' addr', SipMemory.insertNode h calloc a sockets m =
        some (m', addr' t.next, some sockets) ∧ m'.Models h (t.inserted h a sockets) addr' := by
  obtain ⟨entries, hlists⟩ := hm.lists
  have hbucket := uHashValue_lt a.callId hlen
  have hfresh := hcalloc m.nodes hm.finite
  obtain ⟨lists, entries', happend, hlists'⟩ :=
    hlists.append hbucket (by rw [List.length_map]; exact hroom) (calloc m.nodes)
  -- the node has its new address, and the others keep theirs
  obtain ⟨addr', hnew, hold⟩ : ∃ addr' : Nat → Nat, addr' t.next = calloc m.nodes ∧
      ∀ x, Holds t.buckets x → addr' x.id = addr x.id :=
    ⟨Function.update addr t.next (calloc m.nodes), Function.update_self ..,
      fun x hx => Function.update_of_ne (hm.placed.address hx).ne ..⟩
  have hsame : (fun i => ((t.inserted h a sockets).buckets i).map fun n => addr' n.id) =
      HashTable.append (h.uHashValue a.callId).toNat (calloc m.nodes)
        fun i => (t.buckets i).map fun n => addr n.id := by
    have hmap : (fun i => (t.buckets i).map fun n => addr' n.id) =
        fun i => (t.buckets i).map fun n => addr n.id := by
      funext i
      exact List.map_congr_left fun x hx => hold x ⟨i, hx⟩
    rw [← hmap, ← hnew]
    exact (append_map (f := fun n : SipEntry => addr' n.id)
      (a := newSipNode t.next (h.uHashValue a.callId) a sockets)).symm
  refine ⟨{
    lists
    nodes := Function.update m.nodes (calloc m.nodes)
      (some (newSipNode m.next (h.uHashValue a.callId) a sockets))
    next := m.next + 1 }, addr', ?_, ?_⟩
  · rw [SipMemory.insertNode, hm.findNode hlen, hnone]
    simp only [Option.bind_eq_bind, Option.map_none, Option.bind_some]
    rw [happend, hnew, Option.bind_some]
  · exact {
      placed := hm.placed.inserted a sockets
      lists := ⟨entries', hsame ▸ hlists'⟩
      bucket := by
        intro i hne
        rcases eq_or_ne i (h.uHashValue a.callId).toNat with rfl | hi
        · exact hbucket
        · refine hm.bucket fun hnil => hne ?_
          exact (Function.update_of_ne hi ..).trans hnil
      node := by
        intro x hx
        rcases holds_append.mp hx with hx | rfl
        · rw [hold x hx]
          refine (Function.update_of_ne (fun heq => ?_) ..).trans (hm.node hx)
          rw [← heq, hm.node hx] at hfresh
          cases hfresh
        · show Function.update m.nodes _ _ (addr' t.next) = _
          rw [hnew, Function.update_self, hm.next]
      used := by
        intro b x hx
        rcases update_eq_some.mp hx with ⟨rfl, hadded⟩ | ⟨hne, hused⟩
        · rw [← Option.some.inj hadded, hm.next]
          exact ⟨holds_append.mpr (.inr rfl), hnew.symm⟩
        · obtain ⟨hheld, rfl⟩ := hm.used hused
          exact ⟨holds_append.mpr (.inl hheld), (hold x hheld).symm⟩
      finite := finite_update hm.finite _ _
      next := congrArg Nat.succ hm.next }

end SipMemory.Models

theorem holds_setCmdType (ht : t.Placed) (hn : Holds t.buckets n) (enumCmdType : CmdType) :
    Holds (setCmdType enumCmdType n t).buckets
      { n with toSipNode := { n.toSipNode with enumCmdType } } :=
  (ht.distinct.holds_modify hn).mpr (.inl rfl)

def SipTable.Roomy (h : SipHashing) (t : SipTable) : Prop :=
  ∀ i < h.uHashTableLen.toNat, (t.buckets i).length ≤ maxElements

instance : Decidable (t.Roomy h) := inferInstanceAs (Decidable (∀ i < _, _))

/-- The table, as long as there is room in it. -/
def served (h : SipHashing) (t : SipTable) (request : Request) : Option (SipTable × Answer) :=
  if (Call.handle h t request).1.Roomy h then some (Call.handle h t request) else none

/-- **One request**: the answer of the table, and the memory holds the new one. -/
theorem SipMemory.Models.handle (hm : m.Models h t addr) (hlen : 0 < h.uHashTableLen)
    (hcalloc : Callocs calloc) (request : Request)
    (hroom : (Call.handle h t request).1.Roomy h) :
    ∃ m' addr', m.handle h calloc request = some (m', (Call.handle h t request).2) ∧
      m'.Models h (Call.handle h t request).1 addr' := by
  cases request with
  | invite pSipMsg sockets =>
      rw [SipMemory.handle]
      rw [Call.handle, insertNodeToSipHashTable] at hroom ⊢
      cases hfind : findNodeFromSipHashTable h (paraseInvite pSipMsg).callId t with
      | none =>
          rw [hfind] at hroom
          have hlength : ((t.inserted h (paraseInvite pSipMsg) sockets).buckets
              (h.uHashValue (paraseInvite pSipMsg).callId).toNat).length ≤ maxElements :=
            hroom _ (uHashValue_lt _ hlen)
          have happended : (t.inserted h (paraseInvite pSipMsg) sockets).buckets
              (h.uHashValue (paraseInvite pSipMsg).callId).toNat = _ := Function.update_self ..
          rw [happended, List.length_append, List.length_singleton] at hlength
          obtain ⟨m', addr', hinsert, hm'⟩ := hm.insert hlen hcalloc sockets hfind hlength
          refine ⟨m', addr', ?_, hm'⟩
          rw [hinsert, Option.bind_eq_bind, Option.bind_some]
          exact hm'.answer (holds_append.mpr (.inr rfl)) (some sockets)
      | some n =>
          refine ⟨m, addr, ?_, hm⟩
          rw [SipMemory.insertNode, hm.findNode hlen, hfind]
          exact hm.answer (holds_of_find hfind) none
  | ack number =>
      rw [SipMemory.handle, hm.findNode hlen, Call.handle]
      cases hfind : findNodeFromSipHashTable h (paraseAckBye number).callId t with
      | none => exact ⟨m, addr, rfl, hm⟩
      | some n =>
          obtain ⟨m', hset, hm'⟩ := hm.setCmdType (holds_of_find hfind) .play
          refine ⟨m', addr, ?_, hm'⟩
          rw [Option.map_some, Option.bind_eq_bind, Option.bind_some]
          simp only [hset]
          exact hm'.answer (holds_setCmdType hm.placed (holds_of_find hfind) .play) none
  | bye number =>
      rw [SipMemory.handle, hm.findNode hlen, Call.handle]
      cases hfind : findNodeFromSipHashTable h (paraseAckBye number).callId t with
      | none => exact ⟨m, addr, rfl, hm⟩
      | some n =>
          obtain ⟨m', hset, hm'⟩ := hm.setCmdType (holds_of_find hfind) .stop
          have hn' := holds_setCmdType hm.placed (holds_of_find hfind) .stop
          have hanswer : m'.answer (addr n.id) none =
              some (m', { pSipNode := some n.id, opened := none }) := hm'.answer hn' none
          obtain ⟨m'', hdelete, hm''⟩ := hm'.delNode hn'
          replace hdelete : m'.delNode (addr n.id) = some m'' := hdelete
          refine ⟨m'', addr, ?_, hm''⟩
          rw [Option.map_some, Option.bind_eq_bind, Option.bind_some]
          simp only [hset, hanswer, hdelete, Option.bind_eq_bind, Option.bind_some]
  | timeout number beyond =>
      rw [SipMemory.handle, hm.findNode hlen, Call.handle]
      cases hfind : findNodeFromSipHashTable h (timeoutCallId number beyond) t with
      | none => exact ⟨m, addr, rfl, hm⟩
      | some n =>
          have hn := holds_of_find hfind
          obtain ⟨m', hdelete, hm'⟩ := hm.delNode hn
          refine ⟨m', addr, ?_, hm'⟩
          rw [Option.map_some, Option.bind_eq_bind, Option.bind_some]
          simp only [hm.answer hn none, Option.bind_eq_bind, Option.bind_some, hdelete]

theorem SipMemory.models_create {heap : Heap Nat} (hb : heap.Bounded) :
    (SipMemory.create h heap).Models h {} addr := by
  obtain ⟨entries, -, hlists⟩ := Lists.hold_init hb h.uHashTableLen.toNat
  exact {
    placed := placed_init
    lists := ⟨entries, hlists⟩
    bucket := fun hne => absurd rfl hne
    node := fun ⟨_, hn⟩ => absurd hn List.not_mem_nil
    used := fun hx => nomatch hx
    finite := by simp [SipMemory.create]
    next := rfl }

theorem SipMemory.refines (hlen : 0 < h.uHashTableLen) (hcalloc : Callocs calloc) :
    Simulation.Refines (fun m t => ∃ addr, m.Models h t addr) (SipMemory.handle h calloc)
      (served h) := by
  intro m t request t' answer hm hserved
  obtain ⟨addr, hm⟩ := hm
  unfold served at hserved
  split at hserved
  · rename_i hroom
    obtain ⟨m', addr', hhandle, hm'⟩ := hm.handle hlen hcalloc request hroom
    rw [Option.some.inj hserved] at hhandle hm'
    exact ⟨m', hhandle, addr', hm'⟩
  · cases hserved

theorem answers_of_served {requests : List Request} {t' : SipTable} {bs : List Answer}
    (hrun : Simulation.run (served h) t requests = some (t', bs)) : bs = answers h t requests := by
  induction requests generalizing t bs with
  | nil =>
      cases hrun
      rfl
  | cons request requests ih =>
      obtain ⟨t₁, b, bs', hserved, hrest, rfl⟩ := Simulation.run_cons_eq_some.mp hrun
      unfold served at hserved
      split at hserved
      · have hstep := Option.some.inj hserved
        rw [ih hrest, answers, hstep]
      · cases hserved

theorem length_handle_le (h : SipHashing) (t : SipTable) (request : Request) (i : Nat) :
    ((Call.handle h t request).1.buckets i).length ≤ (t.buckets i).length + 1 := by
  have hset : ∀ enumCmdType (n : SipEntry) (t : SipTable),
      ((setCmdType enumCmdType n t).buckets i).length = (t.buckets i).length :=
    fun _ _ _ => List.length_map ..
  cases request with
  | invite pSipMsg sockets =>
      show ((insertNodeToSipHashTable h (paraseInvite pSipMsg) sockets t).1.buckets i).length ≤ _
      rw [insertNodeToSipHashTable]
      split
      · exact Nat.le_succ _
      · exact length_append_le _ _ _ _
  | ack number =>
      rw [Call.handle]
      split
      · exact Nat.le_succ _
      · exact (hset ..).le.trans (Nat.le_succ _)
  | bye number =>
      rw [Call.handle]
      split
      · exact Nat.le_succ _
      · exact (length_remove_le _ _ _ _).trans ((hset ..).le.trans (Nat.le_succ _))
  | timeout number beyond =>
      rw [Call.handle]
      split
      · exact Nat.le_succ _
      · exact (length_remove_le _ _ _ _).trans (Nat.le_succ _)

theorem served_of_length (h : SipHashing) {requests : List Request}
    (hlen : requests.length ≤ maxElements) :
    ∃ t, Simulation.run (served h) {} requests = some (t, answers h {} requests) := by
  suffices hany : ∀ (requests : List Request) (t : SipTable) (k : Nat),
      (∀ i, (t.buckets i).length ≤ k) → k + requests.length ≤ maxElements →
        ∃ t', Simulation.run (served h) t requests = some (t', answers h t requests) from
    hany requests {} 0 (fun _ => Nat.le_refl _) (by rwa [Nat.zero_add])
  intro requests
  induction requests with
  | nil => exact fun t _ _ _ => ⟨t, rfl⟩
  | cons request requests ih =>
      intro t k hk hlen
      rw [List.length_cons] at hlen
      have hk' : ∀ i, ((Call.handle h t request).1.buckets i).length ≤ k + 1 := fun i =>
        (length_handle_le h t request i).trans (Nat.succ_le_succ (hk i))
      have hserved : served h t request = some (Call.handle h t request) :=
        if_pos fun i _ => (hk' i).trans (by omega)
      obtain ⟨t', hrun⟩ := ih _ (k + 1) hk' (by omega)
      exact ⟨t', Simulation.run_cons_eq_some.mpr ⟨_, _, _, hserved, hrun, rfl⟩⟩

/-- **The table of calls, laid out in memory, answers every run of requests as the table does**;
afterwards the nodes that are allocated are those of the table, each at the address that its list
holds. -/
theorem answers_in_memory (hlen : 0 < h.uHashTableLen) (hcalloc : Callocs calloc)
    {heap : Heap Nat} (hb : heap.Bounded) {requests : List Request} {bs : List Answer}
    (hrun : Simulation.run (served h) {} requests = some (t, bs)) :
    ∃ m addr, Simulation.run (SipMemory.handle h calloc) (SipMemory.create h heap) requests =
        some (m, answers h {} requests) ∧ m.Models h t addr := by
  obtain ⟨m, hexec, addr, hm⟩ := (SipMemory.refines hlen hcalloc).run
    ⟨fun _ => 0, SipMemory.models_create hb⟩ hrun
  rw [answers_of_served hrun] at hexec
  exact ⟨m, addr, hexec, hm⟩

end Models

/-- A `calloc` that gives out the lowest address that is free. -/
noncomputable def lowestFree (nodes : Nat → Option SipEntry) : Nat := sInf {a | nodes a = none}

theorem callocs_lowestFree : Callocs lowestFree := by
  intro nodes hfinite
  have hne : {a | nodes a = none}.Nonempty := by
    obtain ⟨a, ha⟩ := hfinite.exists_notMem
    exact ⟨a, not_not.mp ha⟩
  exact Nat.sInf_mem hne

/-- A call that comes, is acknowledged and goes, and one after it. -/
theorem answers_in_memory_one :
    let h : SipHashing := ⟨bkdrHash, 3⟩
    let invite (number : Text) : Request := .invite {
      number, pUserName := number, cSsrc := strncpy [] 16, cPushIp := strncpy [] 16
      iPushPort := 6000, cDevId := strncpy [] 128, iStreamType := 0
      cStreamSourceIp := strncpy [] 16, iStreamSourcePort := 8109 } ⟨4, 20000, -1, 0⟩
    let a : Text := ⟨[0x61], by decide⟩
    let b : Text := ⟨[0x62], by decide⟩
    let requests := [invite a, .ack a, .bye a, invite b, .timeout a []]
    ∃ t m addr, Simulation.run (SipMemory.handle h lowestFree) (SipMemory.create h Heap.unused)
      requests = some (m, answers h {} requests) ∧ m.Models h t addr := by
  intro h invite a b requests
  obtain ⟨t, hserved⟩ := served_of_length h (show requests.length ≤ maxElements by decide)
  exact ⟨t, answers_in_memory (by decide) callocs_lowestFree Heap.bounded_unused hserved⟩

end GbStream.Call
