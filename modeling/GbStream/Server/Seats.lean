import GbStream.Server.State

/-!
# The clients by their addresses

Which clients there are, in which nodes and for which calls: what a command and the end of a
client or a node do to that.
-/

namespace GbStream.Server

open Support.Bytes Support.CString Support.HashTable Call GbStream.Stream
open Rtp hiding StreamNode

def pairs (n : StreamNode) : List (Nat × Nat) :=
  n.listClientNodeHead.map fun c => (c.id, c.call)

/-- In the node `i`, the client `j` of the call `k`. -/
def Seat (t : Stream.State) (i j k : Nat) : Prop :=
  ∃ n, Holds t.table n ∧ n.id = i ∧ (j, k) ∈ pairs n

section Seat

variable {t t' : Stream.State} {n n' : StreamNode} {i j k : Nat} {h : Hashing}
  {iUseRtcpFlag : Bool} {m : SipEntry}

theorem mem_pairs {c : Client} (hc : c ∈ n.listClientNodeHead) : (c.id, c.call) ∈ pairs n :=
  List.mem_map.mpr ⟨c, hc, rfl⟩

/-- What sending and the delete flag change leaves the seats as they are. -/
theorem pairs_map {f : Client → Client} (hf : ∀ c, asMade (f c) = asMade c)
    (hlist : n'.listClientNodeHead = n.listClientNodeHead.map f) : pairs n' = pairs n := by
  unfold pairs
  rw [hlist, List.map_map]
  refine List.map_congr_left fun c _ => ?_
  calc
    ((f c).id, (f c).call) = ((asMade (f c)).id, (asMade (f c)).call) := rfl
    _ = ((asMade c).id, (asMade c).call) := by rw [hf]

theorem seat_modifyNode {f : StreamNode → StreamNode} {id : Nat} (hid : ∀ n, (f n).id = n.id)
    (hpairs : ∀ n, pairs (f n) = pairs n) : Seat (t.modifyNode id f) i j k ↔ Seat t i j k := by
  have hsame : ∀ (p : Prop) [Decidable p] (y : StreamNode),
      (if p then f y else y).id = y.id ∧ pairs (if p then f y else y) = pairs y := by
    intro p _ y
    split
    · exact ⟨hid y, hpairs y⟩
    · exact ⟨rfl, rfl⟩
  unfold Seat State.modifyNode
  constructor
  · rintro ⟨x, hx, hi, hj⟩
    obtain ⟨y, hy, rfl⟩ := holds_modify.mp hx
    rw [(hsame _ y).1] at hi
    rw [(hsame _ y).2] at hj
    exact ⟨y, hy, hi, hj⟩
  · rintro ⟨y, hy, hi, hj⟩
    refine ⟨_, holds_modify.mpr ⟨y, hy, rfl⟩, ?_, ?_⟩
    · rw [(hsame _ y).1]
      exact hi
    · rw [(hsame _ y).2]
      exact hj

theorem seat_replace (hholds : ∀ x, Holds t'.table x ↔ x = n' ∨ Holds t.table x ∧ x ≠ n)
    (hid : n'.id = n.id) (hothers : ∀ x, Holds t.table x → x ≠ n → x.id ≠ n.id) :
    Seat t' i j k ↔ i = n.id ∧ (j, k) ∈ pairs n' ∨ i ≠ n.id ∧ Seat t i j k := by
  unfold Seat
  constructor
  · rintro ⟨x, hx, rfl, hj⟩
    rcases (hholds x).mp hx with rfl | ⟨hx, hne⟩
    · exact .inl ⟨hid, hj⟩
    · exact .inr ⟨hothers x hx hne, x, hx, rfl, hj⟩
  · rintro (⟨rfl, hj⟩ | ⟨hi, x, hx, rfl, hj⟩)
    · exact ⟨n', (hholds n').mpr (.inl rfl), hid, hj⟩
    · exact ⟨x, (hholds x).mpr (.inr ⟨hx, fun heq => hi (congrArg StreamNode.id heq)⟩), rfl, hj⟩

theorem seat_iff (ht : t.Placed) (hn : Holds t.table n) :
    Seat t n.id j k ↔ (j, k) ∈ pairs n := by
  constructor
  · rintro ⟨x, hx, hid, hj⟩
    rwa [← ht.distinct hx hn hid]
  · exact fun hj => ⟨n, hn, rfl, hj⟩

theorem seat_stop : Seat (stop h m t) i j k ↔ Seat t i j k := by
  unfold stop
  dsimp only
  split
  · exact Iff.rfl
  · split
    · exact Iff.rfl
    · refine seat_modifyNode (fun _ => rfl) fun n => pairs_map (fun c => ?_) rfl
      split <;> rfl

/-- **`PLAY`**: where its Call-ID is found, nothing changes; else the call gets one seat. -/
theorem seat_play (ht : t.Placed) (h : Hashing) (iUseRtcpFlag : Bool) (m : SipEntry) :
    clientOf h m t ≠ none ∧ (play h iUseRtcpFlag m t).added = t.added ∧
        (∀ i j k, Seat (play h iUseRtcpFlag m t) i j k ↔ Seat t i j k) ∨
      clientOf h m t = none ∧ ∃ i j, (play h iUseRtcpFlag m t).added = t.added ++ [(m, i, j)] ∧
        ∀ i' j' k, Seat (play h iUseRtcpFlag m t) i' j' k ↔
          Seat t i' j' k ∨ i' = i ∧ j' = j ∧ k = m.id := by
  obtain ⟨-, n, id, hwhich, -, -, hnew, hkept, hholds⟩ := ht.play h iUseRtcpFlag m
  have hclientOf : clientOf h m t = findClientNode n m.toSipNode.callId := by
    unfold clientOf
    rcases hwhich with hfind | ⟨hnone, rfl⟩
    · rw [hfind]
      rfl
    · rw [hnone]
      rfl
  have hothers : ∀ x, Holds t.table x → x ≠ n → x.id ≠ n.id := by
    intro x hx hne heq
    rcases hwhich with hfind | ⟨-, rfl⟩
    · exact hne (ht.distinct hx ⟨_, (mem_of_seek hfind).1⟩ heq)
    · exact (ht.address hx).ne heq
  have hold : ∀ j k, Seat t n.id j k ↔ (j, k) ∈ pairs n := by
    intro j k
    rcases hwhich with hfind | ⟨-, rfl⟩
    · exact seat_iff ht ⟨_, (mem_of_seek hfind).1⟩
    · refine iff_of_false ?_ List.not_mem_nil
      rintro ⟨x, hx, hid, -⟩
      exact (ht.address hx).ne hid
  have hid : (n.withClient iUseRtcpFlag id m).id = n.id := by
    unfold StreamNode.withClient
    split <;> rfl
  rw [hclientOf]
  rcases hclient : findClientNode n m.toSipNode.callId with _ | c
  · refine .inr ⟨rfl, n.id, id, (hnew hclient).2, fun i' j' k => ?_⟩
    have hpairs : pairs (n.withClient iUseRtcpFlag id m) = pairs n ++ [(id, m.id)] := by
      rw [StreamNode.withClient, hclient]
      exact List.map_append
    rw [seat_replace hholds hid hothers, hpairs, List.mem_append, List.mem_singleton,
      Prod.mk.injEq]
    by_cases hi : i' = n.id
    · subst hi
      simp only [true_and, ne_eq, not_true_eq_false, false_and, or_false, hold]
    · simp only [hi, false_and, ne_eq, not_false_eq_true, true_and, false_or, or_false]
  · refine .inl ⟨Option.some_ne_none c, hkept ?_, fun i j k => ?_⟩
    · rw [hclient]
      exact Option.some_ne_none c
    · have hsame : n.withClient iUseRtcpFlag id m = n := by
        rw [StreamNode.withClient, hclient]
      rw [hsame] at hholds
      rw [seat_replace hholds rfl hothers]
      by_cases hi : i = n.id
      · subst hi
        simp only [true_and, ne_eq, not_true_eq_false, false_and, or_false, hold]
      · simp only [hi, false_and, ne_eq, not_false_eq_true, true_and, false_or]

theorem seat_delClient {c : Client} (ht : t.Placed) (hn : Holds t.table n)
    (hids : (n.listClientNodeHead.map Client.id).Nodup) :
    Seat (t.modifyNode n.id fun n =>
        { n with listClientNodeHead := n.listClientNodeHead.eraseP fun x => x.id = c.id }) i j k ↔
      Seat t i j k ∧ ¬ (i = n.id ∧ j = c.id) := by
  rw [seat_replace (fun x => ht.holds_modifyNode hn) rfl
    fun x hx hne heq => hne (ht.distinct hx hn heq)]
  by_cases hi : i = n.id
  · subst hi
    simp only [true_and, ne_eq, not_true_eq_false, false_and, or_false, seat_iff ht hn]
    unfold pairs
    rw [List.mem_map, List.mem_map]
    constructor
    · rintro ⟨x, hx, heq⟩
      obtain ⟨hx, hne⟩ := (mem_eraseP_iff hids).mp hx
      obtain ⟨rfl, -⟩ := Prod.mk.injEq .. ▸ heq
      exact ⟨⟨x, hx, heq⟩, hne⟩
    · rintro ⟨⟨x, hx, heq⟩, hne⟩
      obtain ⟨rfl, -⟩ := Prod.mk.injEq .. ▸ heq
      exact ⟨x, (mem_eraseP_iff hids).mpr ⟨hx, hne⟩, heq⟩
  · simp only [hi, false_and, ne_eq, not_false_eq_true, true_and, false_or, and_true]

theorem seat_delNode (ht : t.Placed) (hn : Holds t.table n) :
    Seat (delNodeFromStreamHashTable n t) i j k ↔ Seat t i j k ∧ i ≠ n.id := by
  constructor
  · rintro ⟨x, hx, rfl, hj⟩
    obtain ⟨hx, hne⟩ := (ht.holds_delNode hn).mp hx
    exact ⟨⟨x, hx, rfl, hj⟩, fun heq => hne (ht.distinct hx hn heq)⟩
  · rintro ⟨⟨x, hx, rfl, hj⟩, hne⟩
    exact ⟨x, (ht.holds_delNode hn).mpr ⟨hx, fun heq => hne (congrArg StreamNode.id heq)⟩, rfl, hj⟩

end Seat

end GbStream.Server
