import GbStream.Stream.Node
import GbStream.Support.Transition

/-!
# The stream table is a map

Runs of messages and of removals.  The invariant `Sound` says that the table is a chained hash
table of its keys, that addresses are distinct, and that every client has been added by a
message of its own call.
-/

namespace GbStream.Stream

open Support.CString Support.HashTable Support.Transition Call Rtp

/-! ## Runs -/

inductive Event
  /-- A record that `stream_read_cb` reads. -/
  | message (stSipNode : SipEntry)
  | delNode (pStreamNode : StreamNode)
  /-- `del_one_client_node` of the send task. -/
  | delClient (pStreamNode : StreamNode) (client : Nat)
  /-- A timeout in `udp_rtcp_recv_cb`. -/
  | timeout (pStreamNode : StreamNode) (client : Nat)

inductive Step (h : Hashing) (iUseRtcpFlag : Bool) : State → Event → State → Prop
  | message (s : State) (stSipNode : SipEntry) :
      Step h iUseRtcpFlag s (.message stSipNode) (streamReadCb h iUseRtcpFlag stSipNode s)
  | delNode (s : State) (n : StreamNode) :
      Holds s.table n →
        Step h iUseRtcpFlag s (.delNode n) (delNodeFromStreamHashTable n s)
  | delClient (s : State) (n : StreamNode) (client : Nat) :
      Holds s.table n →
        Step h iUseRtcpFlag s (.delClient n client)
          (s.modifyNode n.id fun n =>
            { n with listClientNodeHead := n.listClientNodeHead.eraseP fun c => c.id = client })
  | timeout (s : State) (n : StreamNode) (client : Nat) :
      Holds s.table n →
        Step h iUseRtcpFlag s (.timeout n client)
          (s.modifyNode n.id fun n => n.modifyClient client fun c => { c with iDeleteFlag := 1 })

def system (h : Hashing) (iUseRtcpFlag : Bool) : System State Event where
  init := fun s => s = {}
  step := Step h iUseRtcpFlag

/-- The strings of a message end in their fields. -/
def Terminated (m : SipEntry) : Prop := m.cDevId.Terminated ∧ m.cCallId.Terminated

instance (m : SipEntry) : Decidable (Terminated m) := inferInstanceAs (Decidable (_ ∧ _))

/-- Messages have terminated strings. -/
def TerminatedStrings (_ : State) : Event → Prop
  | .message m => Terminated m
  | .delNode _ | .delClient _ _ | .timeout _ _ => True

/-! ## The invariant -/

/-- A node of the table, with the next free address and the clients added so far. -/
structure NodeSound (h : Hashing) (next : Nat) (added : List (SipEntry × Nat × Nat))
    (n : StreamNode) : Prop where
  hashValue : n.uStreamNodeHashValue = h.getStreamHashValue (hashSource n.key)
  callIds : (n.listClientNodeHead.map Client.callId).Nodup
  clientIds : (n.listClientNodeHead.map Client.id).Nodup
  clientAddress : ∀ c ∈ n.listClientNodeHead, c.id < next
  added : ∀ c ∈ n.listClientNodeHead, ∃ m, (m, n.id, c.id) ∈ added ∧ m.enumCmdType = .play ∧
    m.key = n.key ∧ m.toSipNode.callId = c.callId

structure Sound (h : Hashing) (s : State) : Prop where
  placed : s.Placed
  wellFormed : WellFormed h.bucket StreamNode.key s.table
  node : ∀ {n}, Holds s.table n → NodeSound h s.next s.added n

section Sound

variable {h : Hashing} {iUseRtcpFlag : Bool} {s s' : State} {m : SipEntry} {n x : StreamNode}

theorem sound_init : Sound h {} where
  placed := placed_init
  wellFormed := wellFormed_empty
  node := fun ⟨_, hn⟩ => absurd hn List.not_mem_nil

/-- The string of a field that is copied into a field of the same size. -/
theorem string_strncpy_string {k : Nat} {a : CharArray k} (ha : a.Terminated)
    (behind behind' : List UInt8) :
    (strncpy (a.string behind) k).string behind' = a.string behind := by
  obtain ⟨hstring, hlen⟩ := ha.string behind
  rw [hstring]
  exact string_strncpy (noNul_stringAt _ _) hlen

theorem key_createStreamNode (hm : Terminated m) (id : Nat) (uHashValue : UInt32) :
    (createStreamNode id uHashValue m).key = m.key := by
  unfold StreamNode.key SipNode.key createStreamNode SipNode.devId
  dsimp only
  rw [string_strncpy_string hm.1]

theorem callId_newClient (hm : Terminated m) (id : Nat) :
    (newClient iUseRtcpFlag id m).callId = m.toSipNode.callId := by
  unfold Client.callId newClient SipNode.callId
  dsimp only
  rw [string_strncpy_string hm.2]

theorem key_withClient (iUseRtcpFlag : Bool) (id : Nat) (m : SipEntry) (n : StreamNode) :
    (n.withClient iUseRtcpFlag id m).key = n.key := by
  unfold StreamNode.withClient
  split <;> rfl

theorem NodeSound.mono {next next' : Nat} {added added' : List (SipEntry × Nat × Nat)}
    (hn : NodeSound h next added n) (hnext : next ≤ next') (hadded : added ⊆ added') :
    NodeSound h next' added' n where
  hashValue := hn.hashValue
  callIds := hn.callIds
  clientIds := hn.clientIds
  clientAddress := fun c hc => (hn.clientAddress c hc).trans_le hnext
  added := fun c hc => by
    obtain ⟨m, hm, hrest⟩ := hn.added c hc
    exact ⟨m, hadded hm, hrest⟩

theorem Sound.find_eq_some_iff (hs : Sound h s) :
    findNodeFromStreamHashTable (h.getStreamHashValue (hashSource m.key)) m s = some n ↔
      Holds s.table n ∧ n.key = m.key :=
  hs.wellFormed.find_eq_some_iff

theorem Sound.find_eq_none_iff (hs : Sound h s) :
    findNodeFromStreamHashTable (h.getStreamHashValue (hashSource m.key)) m s = none ↔
      ∀ n, Holds s.table n → n.key ≠ m.key :=
  hs.wellFormed.find_eq_none_iff

/-- Nodes that lie in the buckets of their keys, each key once, form a well-formed table. -/
theorem wellFormed_of_placed (hs : s.Placed)
    (hvalue : ∀ n, Holds s.table n →
      n.uStreamNodeHashValue = h.getStreamHashValue (hashSource n.key))
    (hkeys : ∀ n n', Holds s.table n → Holds s.table n' → n.key = n'.key → n = n') :
    WellFormed h.bucket StreamNode.key s.table where
  bucket := by
    intro i n hn
    calc
      h.bucket n.key = n.uStreamNodeHashValue.toNat := by
        rw [hvalue n ⟨i, hn⟩]
        rfl
      _ = i := hs.wellFormed.bucket hn
  distinct := fun i =>
    List.Nodup.map_on (fun n hn n' hn' => hkeys n n' ⟨i, hn⟩ ⟨i, hn'⟩)
      (hs.wellFormed.distinct i).of_map

/-- **A node is replaced** by one with its key. -/
theorem Sound.replace (hs : Sound h s) (hs' : s'.Placed) {n' : StreamNode}
    (hwhich : Holds s.table n ∨ ∀ y, Holds s.table y → y.key ≠ n.key)
    (hholds : ∀ x, Holds s'.table x ↔ x = n' ∨ Holds s.table x ∧ x ≠ n) (hkey : n'.key = n.key)
    (hnext : s.next ≤ s'.next) (hadded : s.added ⊆ s'.added)
    (hnode : NodeSound h s'.next s'.added n') : Sound h s' := by
  have hnodes : ∀ x, Holds s'.table x → NodeSound h s'.next s'.added x := by
    intro x hx
    rcases (hholds x).mp hx with rfl | ⟨hx, -⟩
    · exact hnode
    · exact (hs.node hx).mono hnext hadded
  -- no other node has the key of the one that is replaced
  have hother : ∀ x, Holds s.table x → x ≠ n → x.key ≠ n.key := by
    intro x hx hne heq
    rcases hwhich with hn | habsent
    · exact hne (hs.wellFormed.unique hx hn heq)
    · exact habsent x hx heq
  refine ⟨hs', wellFormed_of_placed hs' (fun x hx => (hnodes x hx).hashValue) ?_,
    fun hx => hnodes _ hx⟩
  intro x x' hx hx' heq
  rcases (hholds x).mp hx with rfl | ⟨hx, hne⟩
  · rcases (hholds x').mp hx' with rfl | ⟨hx', hne'⟩
    · rfl
    · exact absurd (heq.symm.trans hkey) (hother x' hx' hne')
  · rcases (hholds x').mp hx' with rfl | ⟨hx', -⟩
    · exact absurd (heq.trans hkey) (hother x hx hne)
    · exact hs.wellFormed.unique hx hx' heq

/-- **A node is changed in place.** -/
theorem Sound.modifyNode (hs : Sound h s) {f : StreamNode → StreamNode} (hf : Keeps f)
    (hn : Holds s.table n) (hkey : (f n).key = n.key)
    (hnode : NodeSound h s.next s.added (f n)) : Sound h (s.modifyNode n.id f) :=
  hs.replace (hs.placed.modifyNode hf n.id (Nat.le_refl _)) (.inl hn)
    (fun _ => hs.placed.holds_modifyNode hn) hkey (Nat.le_refl _) (List.Subset.refl _) hnode

theorem NodeSound.modifyClient {next : Nat} {added : List (SipEntry × Nat × Nat)} {id : Nat}
    {f : Client → Client} (hn : NodeSound h next added n) (hid : ∀ c, (f c).id = c.id)
    (hcallId : ∀ c, (f c).callId = c.callId) : NodeSound h next added (n.modifyClient id f) := by
  have hids : ∀ c, (if c.id = id then f c else c).id = c.id := by
    intro c
    split
    · exact hid c
    · rfl
  have hcallIds : ∀ c, (if c.id = id then f c else c).callId = c.callId := by
    intro c
    split
    · exact hcallId c
    · rfl
  have hkey : (n.modifyClient id f).key = n.key := rfl
  refine ⟨hkey ▸ hn.hashValue, ?_, ?_, ?_, ?_⟩
  · unfold StreamNode.modifyClient
    rw [List.map_map]
    simp only [Function.comp_def, hcallIds]
    exact hn.callIds
  · unfold StreamNode.modifyClient
    rw [List.map_map]
    simp only [Function.comp_def, hids]
    exact hn.clientIds
  · intro c hc
    obtain ⟨y, hy, rfl⟩ := List.mem_map.mp hc
    rw [hids]
    exact hn.clientAddress y hy
  · intro c hc
    obtain ⟨y, hy, rfl⟩ := List.mem_map.mp hc
    rw [hids, hcallIds]
    exact hn.added y hy

theorem NodeSound.sublist {next : Nat} {added : List (SipEntry × Nat × Nat)}
    (hn : NodeSound h next added n) {clients : List Client}
    (hsub : clients.Sublist n.listClientNodeHead) :
    NodeSound h next added { n with listClientNodeHead := clients } where
  hashValue := hn.hashValue
  callIds := (hsub.map _).nodup hn.callIds
  clientIds := (hsub.map _).nodup hn.clientIds
  clientAddress := fun c hc => hn.clientAddress c (hsub.mem hc)
  added := fun c hc => hn.added c (hsub.mem hc)

theorem NodeSound.appendClient {next : Nat} {added : List (SipEntry × Nat × Nat)}
    (hn : NodeSound h next added n) (hm : Terminated m) (hplay : m.enumCmdType = .play)
    (hkey : n.key = m.key) (hnone : findClientNode n m.toSipNode.callId = none) :
    NodeSound h (next + 1) (added ++ [(m, n.id, next)])
      { n with listClientNodeHead := n.listClientNodeHead ++ [newClient iUseRtcpFlag next m] } where
  hashValue := hn.hashValue
  callIds := by
    have hcallId : (newClient iUseRtcpFlag next m).callId = m.toSipNode.callId :=
      callId_newClient hm next
    exact nodup_append hn.callIds (by rw [hcallId]; exact hnone)
  clientIds := by
    have hfresh : ∀ c ∈ n.listClientNodeHead, c.id ≠ next := fun c hc =>
      (hn.clientAddress c hc).ne
    exact nodup_append hn.clientIds (seek_eq_none_iff.mpr hfresh)
  clientAddress := by
    intro c hc
    rcases List.mem_append.mp hc with hc | hc
    · exact (hn.clientAddress c hc).trans (Nat.lt_succ_self _)
    · rw [List.mem_singleton.mp hc]
      exact Nat.lt_succ_self _
  added := by
    intro c hc
    rcases List.mem_append.mp hc with hc | hc
    · obtain ⟨m', hm', hrest⟩ := hn.added c hc
      exact ⟨m', List.mem_append_left _ hm', hrest⟩
    · rw [List.mem_singleton.mp hc, callId_newClient hm]
      exact ⟨m, List.mem_append_right _ List.mem_cons_self, hplay, hkey.symm, rfl⟩

/-- **`PLAY`**: the node of the key is used again, or a new one made, and the client of the
Call-ID is in its list. -/
theorem Sound.play (hs : Sound h s) (hm : Terminated m) (hplay : m.enumCmdType = .play) :
    Sound h (play h iUseRtcpFlag m s) ∧
      ∃ n id, (Holds s.table n ∧ n.key = m.key ∨ (∀ x, Holds s.table x → x.key ≠ m.key) ∧
          n = createStreamNode s.next (h.getStreamHashValue (hashSource m.key)) m) ∧
        ∀ x, Holds (Stream.play h iUseRtcpFlag m s).table x ↔
          x = n.withClient iUseRtcpFlag id m ∨ Holds s.table x ∧ x.key ≠ m.key := by
  have hadded := hs.placed.added_subset_play h iUseRtcpFlag m
  obtain ⟨hplaced, n, id, hwhich, hnext, hid, hnew, -, hholds⟩ :=
    hs.placed.play h iUseRtcpFlag m
  rw [hs.find_eq_some_iff, hs.find_eq_none_iff] at hwhich
  have hkey : n.key = m.key := by
    rcases hwhich with ⟨-, hkey⟩ | ⟨-, rfl⟩
    · exact hkey
    · exact key_createStreamNode hm _ _
  have hn : NodeSound h id s.added n := by
    rcases hwhich with ⟨hn, -⟩ | ⟨-, rfl⟩
    · exact (hs.node hn).mono hnext (List.Subset.refl _)
    · exact
        { hashValue := by rw [key_createStreamNode hm]; rfl
          callIds := List.nodup_nil
          clientIds := List.nodup_nil
          clientAddress := fun c hc => absurd hc List.not_mem_nil
          added := fun c hc => absurd hc List.not_mem_nil }
  have hnode : NodeSound h (Stream.play h iUseRtcpFlag m s).next
      (Stream.play h iUseRtcpFlag m s).added (n.withClient iUseRtcpFlag id m) := by
    unfold StreamNode.withClient
    rcases hclient : findClientNode n m.toSipNode.callId with _ | c
    · obtain ⟨hlt, heq⟩ := hnew hclient
      rw [heq]
      exact (hn.appendClient hm hplay hkey hclient).mono hlt (List.Subset.refl _)
    · exact hn.mono hid hadded
  have habsent : Holds s.table n ∨ ∀ y, Holds s.table y → y.key ≠ n.key := by
    rw [hkey]
    exact hwhich.imp And.left And.left
  refine ⟨hs.replace hplaced habsent hholds (key_withClient ..) (hnext.trans hid) hadded hnode,
    n, id, hwhich, fun x => ?_⟩
  -- the nodes of the other keys are those before
  rw [hholds]
  refine or_congr_right (and_congr_right fun hx => not_congr ⟨fun heq => heq ▸ hkey, fun hxm => ?_⟩)
  rcases hwhich with ⟨hn, -⟩ | ⟨hnone, -⟩
  · exact hs.wellFormed.unique hx hn (hxm.trans hkey.symm)
  · exact absurd hxm (hnone x hx)

def StreamNode.stopped (callId : List UInt8) (n : StreamNode) : StreamNode :=
  { n with
    listClientNodeHead :=
      n.listClientNodeHead.map fun c =>
        if c.callId = callId then { c with iDeleteFlag := 1 } else c }

theorem stopped_of_absent {callId : List UInt8} (hnone : findClientNode n callId = none) :
    n.stopped callId = n := by
  have hclients : n.listClientNodeHead.map (fun c : Client =>
      if c.callId = callId then { c with iDeleteFlag := 1 } else c) = n.listClientNodeHead := by
    calc
      _ = n.listClientNodeHead.map id :=
        List.map_congr_left fun c hc => if_neg (seek_eq_none_iff.mp hnone c hc)
      _ = n.listClientNodeHead := List.map_id _
  unfold StreamNode.stopped
  rw [hclients]

theorem NodeSound.modifyClient_eq {next : Nat} {added : List (SipEntry × Nat × Nat)} {c : Client}
    (hn : NodeSound h next added n) {callId : List UInt8}
    (hfind : findClientNode n callId = some c) :
    n.modifyClient c.id (fun c => { c with iDeleteFlag := 1 }) = n.stopped callId := by
  obtain ⟨hc, hcallId⟩ := mem_of_seek hfind
  unfold StreamNode.modifyClient StreamNode.stopped
  congr 1
  apply List.map_congr_left
  intro y hy
  have hiff : y.id = c.id ↔ y.callId = callId := by
    constructor
    · intro hid
      rw [List.inj_on_of_nodup_map hn.clientIds hy hc hid]
      exact hcallId
    · intro hy'
      rw [List.inj_on_of_nodup_map hn.callIds hy hc (hy'.trans hcallId.symm)]
  by_cases hid : y.id = c.id
  · rw [if_pos hid, if_pos (hiff.mp hid)]
  · rw [if_neg hid, if_neg (mt hiff.mpr hid)]

/-- **`STOP`**: in the node of the key, the client of the Call-ID is to be deleted. -/
theorem Sound.stop (hs : Sound h s) :
    Sound h (stop h m s) ∧ ∀ x, Holds (Stream.stop h m s).table x ↔
      ∃ n, Holds s.table n ∧ x = if n.key = m.key then n.stopped m.toSipNode.callId else n := by
  obtain ⟨hplaced, hnext, hadded, ⟨hsame, hnone⟩ | ⟨n, c, hfind, hclient, hholds⟩⟩ :=
    hs.placed.stop h m
  · rw [hsame]
    -- a node of the key has no client of the Call-ID
    have hstopped : ∀ n, Holds s.table n →
        (if n.key = m.key then n.stopped m.toSipNode.callId else n) = n := by
      intro n hn
      split
      · rename_i hkey
        apply stopped_of_absent
        rcases hclient : findClientNode n m.toSipNode.callId with _ | c
        · rfl
        · exact absurd hclient (hnone n c (hs.find_eq_some_iff.mpr ⟨hn, hkey⟩))
      · rfl
    refine ⟨hs, fun x => ⟨fun hx => ⟨x, hx, (hstopped x hx).symm⟩, ?_⟩⟩
    rintro ⟨n, hn, rfl⟩
    rwa [hstopped n hn]
  · obtain ⟨hn, hkey⟩ := hs.find_eq_some_iff.mp hfind
    have hmodify := (hs.node hn).modifyClient_eq hclient
    refine ⟨hs.replace hplaced (.inl hn) hholds rfl hnext.ge (by rw [hadded]; exact fun _ h => h)
      ?_, fun x => ?_⟩
    · rw [hnext, hadded]
      exact (hs.node hn).modifyClient (fun _ => rfl) fun _ => rfl
    · rw [hholds, hmodify]
      constructor
      · rintro (rfl | ⟨hx, hne⟩)
        · exact ⟨n, hn, (if_pos hkey).symm⟩
        · refine ⟨x, hx, (if_neg fun hxm => ?_).symm⟩
          exact hne (hs.wellFormed.unique hx hn (hxm.trans hkey.symm))
      · rintro ⟨y, hy, rfl⟩
        by_cases hyn : y = n
        · subst hyn
          exact .inl (if_pos hkey)
        · have hym : y.key ≠ m.key := fun hym =>
            hyn (hs.wellFormed.unique hy hn (hym.trans hkey.symm))
          rw [if_neg hym]
          exact .inr ⟨hy, hyn⟩

theorem Sound.delNode (hs : Sound h s) (hn : Holds s.table n) :
    Sound h (delNodeFromStreamHashTable n s) where
  placed := hs.placed.delNode hn
  wellFormed := hs.wellFormed.remove
  node := fun hx => hs.node ((hs.placed.holds_delNode hn).mp hx).1

theorem Sound.removes (hs : Sound h s) (hn : Holds s.table n) :
    Holds (delNodeFromStreamHashTable n s).table x ↔ Holds s.table x ∧ x.key ≠ n.key := by
  rw [hs.placed.holds_delNode hn]
  constructor
  · rintro ⟨hx, hne⟩
    exact ⟨hx, fun heq => hne (hs.wellFormed.unique hx hn heq)⟩
  · rintro ⟨hx, hne⟩
    exact ⟨hx, fun heq => hne (congrArg StreamNode.key heq)⟩

/-- **One step** keeps the table sound. -/
theorem Sound.step {e : Event} (hs : Sound h s) (hterm : TerminatedStrings s e)
    (hstep : Step h iUseRtcpFlag s e s') : Sound h s' := by
  cases hstep with
  | message m =>
      unfold streamReadCb
      split
      · rename_i hplay
        exact (hs.play hterm hplay).1
      · exact hs.stop.1
      · exact hs
  | delNode n hn => exact hs.delNode hn
  | delClient n client hn =>
      exact hs.modifyNode ⟨fun _ => rfl, fun _ => rfl⟩ hn rfl
        ((hs.node hn).sublist List.eraseP_sublist)
  | timeout n client hn =>
      exact hs.modifyNode ⟨fun _ => rfl, fun _ => rfl⟩ hn rfl
        ((hs.node hn).modifyClient (fun _ => rfl) fun _ => rfl)

/-- **Every run** keeps the table sound. -/
theorem sound_reachable (hs : (system h iUseRtcpFlag).ReachableWith TerminatedStrings s) :
    Sound h s := by
  refine hs.invariant (fun s hinit => ?_) fun s e s' hsound hterm hstep => hsound.step hterm hstep
  obtain rfl : s = {} := hinit
  exact sound_init

end Sound

/-! ## The map -/

/-- What the table is at any time: a map from keys to nodes, each in its bucket, whose clients
have different Call-IDs and have been added by a `PLAY` of their Call-ID to their node. -/
structure IsMap (h : Hashing) (s : State) : Prop where
  atMostOne : ∀ n n', Holds s.table n → Holds s.table n' → n.key = n'.key → n = n'
  once : ∀ i, (s.table i).Nodup
  bucket : ∀ i n, n ∈ s.table i → i = n.uStreamNodeHashValue.toNat ∧
    n.uStreamNodeHashValue = h.getStreamHashValue (hashSource n.key) ∧
    n.uStreamNodeHashValue < h.uStreamHashTableLen
  callIds : ∀ n, Holds s.table n → (n.listClientNodeHead.map Client.callId).Nodup
  added : ∀ n, Holds s.table n → ∀ c ∈ n.listClientNodeHead,
    ∃ m, (m, n.id, c.id) ∈ s.added ∧ m.enumCmdType = .play ∧ m.key = n.key ∧
      m.toSipNode.callId = c.callId

/-- What a `PLAY` does: only the node of its key changes; if there is one it is used again,
else a new one is made; a client of its Call-ID is added unless there is one. -/
def Plays (h : Hashing) (iUseRtcpFlag : Bool) (m : SipEntry) (s : State) : Prop :=
  ∃ n id, (Holds s.table n ∧ n.key = m.key ∨ (∀ x, Holds s.table x → x.key ≠ m.key) ∧
      n = createStreamNode s.next (h.getStreamHashValue (hashSource m.key)) m) ∧
    ∀ x, Holds (streamReadCb h iUseRtcpFlag m s).table x ↔
      x = n.withClient iUseRtcpFlag id m ∨ Holds s.table x ∧ x.key ≠ m.key

/-- What a `STOP` does: in the node of its key, the delete flag of the client with its Call-ID
is set, and nothing else changes. -/
def Stops (h : Hashing) (iUseRtcpFlag : Bool) (m : SipEntry) (s : State) : Prop :=
  ∀ x, Holds (streamReadCb h iUseRtcpFlag m s).table x ↔
    ∃ n, Holds s.table n ∧ x = if n.key = m.key then n.stopped m.toSipNode.callId else n

/-- What the removal of a node does: its key has no node any more, and nothing else changes. -/
def Removes (n : StreamNode) (s : State) : Prop :=
  ∀ x, Holds (delNodeFromStreamHashTable n s).table x ↔ Holds s.table x ∧ x.key ≠ n.key

/-- **The stream table is a map** from devices, channels and stream types, over every run. -/
theorem streamTable_isMap (h : Hashing) (iUseRtcpFlag : Bool) (hlen : 0 < h.uStreamHashTableLen)
    {s : State} (hs : (system h iUseRtcpFlag).ReachableWith TerminatedStrings s) :
    IsMap h s ∧
      (∀ m, Terminated m → m.enumCmdType = .play → Plays h iUseRtcpFlag m s) ∧
      (∀ m, m.enumCmdType = .stop → Stops h iUseRtcpFlag m s) ∧
      ∀ n, Holds s.table n → Removes n s := by
  have hsound := sound_reachable hs
  refine ⟨⟨?_, ?_, ?_, ?_, ?_⟩, fun m hm hplay => ?_, fun m hstop => ?_,
    fun n hn x => hsound.removes hn⟩
  · exact fun n n' hn hn' => hsound.wellFormed.unique hn hn'
  · exact fun i => (hsound.wellFormed.distinct i).of_map
  · intro i n hn
    have hvalue := (hsound.node ⟨i, hn⟩).hashValue
    refine ⟨?_, hvalue, ?_⟩
    · rw [hvalue]
      exact (hsound.wellFormed.bucket hn).symm
    · rw [hvalue]
      exact UInt32.mod_lt _ hlen
  · exact fun n hn => (hsound.node hn).callIds
  · exact fun n hn => (hsound.node hn).added
  · unfold Plays streamReadCb
    rw [hplay]
    exact (hsound.play hm hplay).2
  · unfold Stops streamReadCb
    rw [hstop]
    exact hsound.stop.2

theorem reachable_messages {h : Hashing} {iUseRtcpFlag : Bool} (messages : List SipEntry)
    {s : State} (hs : (system h iUseRtcpFlag).ReachableWith TerminatedStrings s)
    (hall : ∀ m ∈ messages, Terminated m) :
    (system h iUseRtcpFlag).ReachableWith TerminatedStrings
      (messages.foldl (fun s m => streamReadCb h iUseRtcpFlag m s) s) := by
  induction messages generalizing s with
  | nil => exact hs
  | cons m messages ih =>
      obtain ⟨hm, hall⟩ := List.forall_mem_cons.mp hall
      exact ih (hs.step (a := .message m) hm (.message s m)) hall

/-- A `PLAY` of the call `callId` for the channel `iDevChnl` of a device without a name. -/
def playMessage (callId : UInt8) (iDevChnl : Int32) : SipEntry where
  id := 0
  enumCmdType := .play
  u32Ssrc := 1
  cSipDevSn := strncpy [] 32
  cDevId := strncpy [] 128
  cCallId := strncpy [callId] 32
  iDevChnl := iDevChnl
  cPushIp := strncpy [] 16
  iPushPort := 6000
  iStreamType := 0
  cStreamSourceIp := strncpy [] 16
  iStreamSourcePort := 8109
  iSipNodeHashValue := 0
  iUdpSendStreamSockFd := 7
  iUdpSendStreamPort := 20000
  iUdpRtcpSockFd := 8
  iUdpRtcpListenPort := 20001

def stopMessage (callId : UInt8) (iDevChnl : Int32) : SipEntry :=
  { playMessage callId iDevChnl with enumCmdType := .stop }

/-- The channel of every node of the bucket 0, with the addresses and the delete flags of its
clients. -/
def State.channels (s : State) : List (Int32 × List (Nat × Int)) :=
  (s.table 0).map fun n =>
    (n.iDevChnl, n.listClientNodeHead.map fun c => (c.id, c.iDeleteFlag))

/-- Two channels in a table of one bucket.  The second `PLAY` of a call changes nothing, a `STOP`
marks its client, and the removal of a node leaves the other one. -/
theorem streamTable_isMap_removed :
    let h : Hashing := ⟨fun _ => 5, 1⟩
    let messages := [playMessage 0x61 1, playMessage 0x62 2, playMessage 0x61 1,
      stopMessage 0x62 2]
    let s := messages.foldl (fun s m => streamReadCb h false m s) {}
    s.channels = [(1, [(1, 0)]), (2, [(3, 1)])] ∧
      ∃ n, Holds s.table n ∧ n.iDevChnl = 2 ∧ Removes n s ∧
        IsMap h (delNodeFromStreamHashTable n s) ∧
        (delNodeFromStreamHashTable n s).channels = [(1, [(1, 0)])] := by
  intro h messages s
  have hs : (system h false).ReachableWith TerminatedStrings s :=
    reachable_messages messages (.init rfl) (by decide)
  have hcomputed : s.channels = [(1, [(1, 0)]), (2, [(3, 1)])] ∧
      (s.table 0).getLast?.map (fun n =>
        (n.iDevChnl, (delNodeFromStreamHashTable n s).channels)) = some (2, [(1, [(1, 0)])]) := by
    decide +kernel
  obtain ⟨hchannels, hremoved⟩ := hcomputed
  obtain ⟨n, hlast, hn⟩ := Option.map_eq_some_iff.mp hremoved
  have hholds : Holds s.table n := ⟨0, List.mem_of_getLast? hlast⟩
  obtain ⟨-, -, -, hremoves⟩ := streamTable_isMap h false (by decide) hs
  obtain ⟨hmap, -⟩ := streamTable_isMap h false (by decide)
    (hs.step (a := .delNode n) trivial (.delNode s n hholds))
  exact ⟨hchannels, n, hholds, congrArg Prod.fst hn, hremoves n hholds, hmap,
    congrArg Prod.snd hn⟩

end GbStream.Stream
