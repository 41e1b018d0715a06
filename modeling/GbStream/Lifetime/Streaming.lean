import Mathlib.Logic.Relation
import GbStream.Lifetime.Node
import GbStream.Stream.Table
import GbStream.Task.Relay

/-!
# A stream as a run of its node

A callback and a round of the send task, which are one step each of a stream, are made of the
steps of its node.
-/

namespace GbStream.Lifetime

open Support.HashTable Call Recv Rtp GbStream.Task
open GbStream.Stream (Client newClient callId_newClient Terminated)

abbrev Acts : StreamNode → StreamNode → Prop :=
  Relation.ReflTransGen fun n n' => ∃ id a, n.act id a = some n'

variable {n n' : StreamNode} {r r' : Receiver} {s : Surroundings} {stPackage : NetLayer}

theorem Acts.loop {pc : LoopPc} (success : Bool) (hloop : n.loop = some pc)
    (h : Acts (n.loopStep success pc) n') : Acts n n' :=
  .head ⟨0, .loop success, by rw [StreamNode.act, hloop, Option.map_some]⟩ h

theorem Acts.task {pc : TaskPc} (htask : n.task = some pc)
    (h : Acts (n.sendRtpToClientTask pc) n') : Acts n n' :=
  .head ⟨0, .task, by rw [StreamNode.act, htask, Option.map_some]⟩ h

/-! ## The end of a frame -/

/-- The callback as far as `drop`; the first key frame starts the send task. -/
theorem acts_drop (hlist : n.listClientNodeHead ≠ [])
    (hflag : n.uRtpClientNodeSendDataThreadFlag ≠ 2) (hloop : n.loop = some (.clients stPackage)) :
    Acts n
      { n with
        loop := some (.drop stPackage)
        uRtpClientNodeSendDataThreadFlag :=
          flagAfterStart n.uRtpClientNodeSendDataThreadFlag stPackage.byFrameType
        task :=
          if n.uRtpClientNodeSendDataThreadFlag = 0 ∧ stPackage.byFrameType = 1 then some .top
          else n.task } := by
  refine .loop true hloop ?_
  simp only [StreamNode.loopStep, StreamNode.goTo, if_neg hlist]
  refine .loop true rfl ?_
  simp only [StreamNode.loopStep, StreamNode.goTo, if_neg hflag]
  refine .loop true rfl ?_
  simp only [StreamNode.loopStep, StreamNode.goTo, flagAfterStart]
  by_cases hstart : n.uRtpClientNodeSendDataThreadFlag = 0 ∧ stPackage.byFrameType = 1
  · simp only [if_pos hstart]
    exact .loop true rfl (.loop true rfl (.loop true rfl .refl))
  · simp only [if_neg hstart]
    exact .refl

/-- The node behind a callback that returns. -/
def StreamNode.behind (r r' : Receiver) (n : StreamNode) : StreamNode :=
  { n with
    loop := none
    uRtpClientNodeSendDataThreadFlag := r'.uRtpClientNodeSendDataThreadFlag
    queueStreamData :=
      n.queueStreamData + (r'.queueStreamData.length - r.queueStreamData.length)
    task :=
      if r.uRtpClientNodeSendDataThreadFlag = r'.uRtpClientNodeSendDataThreadFlag then n.task
      else some .top }

/-- **The end of a frame** in a callback that returns: the same flag, and the same record in the
queue. -/
theorem endOfFrame_acts (hloop : n.loop = some (.clients stPackage))
    (hflag : n.uRtpClientNodeSendDataThreadFlag = r.uRtpClientNodeSendDataThreadFlag)
    (hlist : s.listSize = n.listClientNodeHead.length) (hrLen : s.rLen = n.queueStreamData)
    (hend : endOfFrame s stPackage r = .returned r') : Acts n (n.behind r r') := by
  unfold endOfFrame at hend
  dsimp only at hend
  split at hend
  · cases hend
  rename_i hserved
  obtain ⟨hsize, hnot⟩ := not_or.mp hserved
  have hne : n.listClientNodeHead ≠ [] := fun hnil => hsize (by rw [hlist, hnil, List.length_nil])
  refine (acts_drop hne (hflag ▸ hnot) hloop).trans ?_
  rw [hflag]
  split at hend
  · cases hend
  -- whether the task is started can be seen from the flag
  have htask : (if r.uRtpClientNodeSendDataThreadFlag = 0 ∧ stPackage.byFrameType = 1 then
      some TaskPc.top else n.task) =
      if r.uRtpClientNodeSendDataThreadFlag =
        flagAfterStart r.uRtpClientNodeSendDataThreadFlag stPackage.byFrameType then n.task
      else some .top := by
    unfold flagAfterStart
    by_cases hstart : r.uRtpClientNodeSendDataThreadFlag = 0 ∧ stPackage.byFrameType = 1
    · rw [if_pos hstart, if_pos hstart, hstart.1, if_neg Nat.zero_ne_one]
    · rw [if_neg hstart, if_neg hstart, if_pos rfl]
  rw [htask]
  refine Acts.loop true rfl ?_
  simp only [StreamNode.loopStep, StreamNode.goTo, StreamNode.leave]
  split at hend
  · rename_i hdrop
    obtain rfl := Outcome.returned.inj hend
    simp only [if_pos hdrop, StreamNode.behind, Nat.sub_self, Nat.add_zero]
    exact .refl
  · rename_i hkeep
    split at hend
    · cases hend
    rename_i hroom
    obtain rfl := Outcome.returned.inj hend
    have hshort : ¬ 512 ≤ n.queueStreamData := by omega
    simp only [if_neg hkeep]
    refine .loop true rfl ?_
    simp only [StreamNode.loopStep, StreamNode.goTo, if_neg hshort]
    refine .loop (!decide (s.wLen ≥ 512)) rfl ?_
    simp only [StreamNode.loopStep, StreamNode.leave, StreamNode.behind]
    by_cases hfull : s.wLen ≥ 512
    · simp only [hfull, decide_true, Bool.not_true, Bool.false_eq_true, if_false, if_true,
        Nat.sub_self, Nat.add_zero]
      exact .refl
    · simp only [hfull, decide_false, Bool.not_false, if_true, if_false, List.length_append,
        List.length_singleton, Nat.add_sub_cancel_left]
      exact .refl

/-- **The connection is ended** where nobody is left or the queue is full. -/
theorem endOfFrame_broken_acts (hloop : n.loop = some (.clients stPackage))
    (hflag : n.uRtpClientNodeSendDataThreadFlag = r.uRtpClientNodeSendDataThreadFlag)
    (hlist : s.listSize = n.listClientNodeHead.length) (hrLen : s.rLen = n.queueStreamData)
    (hend : endOfFrame s stPackage r = .broken r') :
    ∃ n', Acts n n' ∧ n'.loop = some .ended ∧ n'.bev = none ∧
      n'.uRtpClientNodeSendDataThreadFlag = r'.uRtpClientNodeSendDataThreadFlag := by
  unfold endOfFrame at hend
  dsimp only at hend
  split at hend
  · rename_i hunserved
    obtain rfl := Outcome.broken.inj hend
    by_cases hnil : n.listClientNodeHead = []
    · refine ⟨{ n.goTo .ended with bev := none }, .loop true hloop ?_, rfl, rfl, hflag⟩
      rw [StreamNode.loopStep, if_pos hnil]
      exact .loop true rfl .refl
    · have hleft : n.uRtpClientNodeSendDataThreadFlag = 2 := by
        rw [hflag]
        refine hunserved.resolve_left fun hzero => hnil ?_
        rw [hlist] at hzero
        exact List.length_eq_zero_iff.mp hzero
      refine ⟨{ n.goTo .ended with bev := none }, .loop true hloop ?_, rfl, rfl, hflag⟩
      rw [StreamNode.loopStep, if_neg hnil]
      refine .loop true rfl ?_
      rw [StreamNode.loopStep,
        if_pos (show (n.goTo _).uRtpClientNodeSendDataThreadFlag = 2 from hleft)]
      exact .loop true rfl .refl
  · rename_i hserved
    obtain ⟨hsize, hnot⟩ := not_or.mp hserved
    have hne : n.listClientNodeHead ≠ [] := fun hnil =>
      hsize (by rw [hlist, hnil, List.length_nil])
    split at hend
    · cases hend
    split at hend
    · cases hend
    rename_i hkeep
    split at hend
    · rename_i hfull
      obtain rfl := Outcome.broken.inj hend
      have hlong : 512 ≤ n.queueStreamData := by omega
      refine ⟨
        { n with
          loop := some .ended, bev := none
          uRtpClientNodeSendDataThreadFlag :=
            flagAfterStart n.uRtpClientNodeSendDataThreadFlag stPackage.byFrameType
          task :=
            if n.uRtpClientNodeSendDataThreadFlag = 0 ∧ stPackage.byFrameType = 1 then some .top
            else n.task },
        (acts_drop hne (hflag ▸ hnot) hloop).trans (Acts.loop true rfl ?_), rfl, rfl,
        congrArg (flagAfterStart · stPackage.byFrameType) hflag⟩
      rw [← hflag] at hkeep
      simp only [StreamNode.loopStep, StreamNode.goTo, if_neg hkeep]
      refine .loop true rfl ?_
      simp only [StreamNode.loopStep, StreamNode.goTo, if_pos hlong]
      exact .loop true rfl .refl
    · cases hend

/-- **The send task cannot be started**: the node is freed, but stays in its bucket. -/
theorem endOfFrame_taskFailed_acts (hloop : n.loop = some (.clients stPackage))
    (hflag : n.uRtpClientNodeSendDataThreadFlag = r.uRtpClientNodeSendDataThreadFlag)
    (hlist : s.listSize = n.listClientNodeHead.length)
    (hend : endOfFrame s stPackage r = .taskFailed r') :
    ∃ n', Acts n n' ∧ n'.loop = none ∧ n'.linked = n.linked ∧ n'.freed = n.freed + 1 := by
  unfold endOfFrame at hend
  dsimp only at hend
  split at hend
  · cases hend
  rename_i hserved
  obtain ⟨hsize, hnot⟩ := not_or.mp hserved
  have hne : n.listClientNodeHead ≠ [] := fun hnil => hsize (by rw [hlist, hnil, List.length_nil])
  split at hend
  · rename_i hfails
    have hstart : n.uRtpClientNodeSendDataThreadFlag = 0 ∧ stPackage.byFrameType = 1 :=
      ⟨hflag.trans hfails.1, hfails.2.1⟩
    refine ⟨(n.goTo (.setP stPackage)).destoryClientList.release.leave, .loop true hloop ?_, rfl,
      rfl, rfl⟩
    rw [StreamNode.loopStep, if_neg hne]
    refine .loop true rfl ?_
    simp only [StreamNode.loopStep, StreamNode.goTo, hstart.1, if_neg (by decide : ¬ 0 = 2)]
    refine .loop true rfl ?_
    simp only [StreamNode.loopStep, StreamNode.goTo, hstart.2, true_and, if_true]
    exact .loop false rfl .refl
  · split at hend
    · cases hend
    · split at hend <;> cases hend

/-! ## Callbacks -/

theorem readPackage_shared (h : readPackage r = some r') :
    r'.uRtpClientNodeSendDataThreadFlag = r.uRtpClientNodeSendDataThreadFlag ∧
      r'.queueStreamData = r.queueStreamData := by
  obtain ⟨buf, -, rfl⟩ := Option.map_eq_some_iff.mp h
  exact ⟨rfl, rfl⟩

/-- A callback has changed nothing that is shared, or has come to an end packet. -/
theorem recvStreamCb_cases (s : Surroundings) (r : Receiver) :
    (∃ r', recvStreamCb s r = .returned r' ∧
        r'.uRtpClientNodeSendDataThreadFlag = r.uRtpClientNodeSendDataThreadFlag ∧
        r'.queueStreamData = r.queueStreamData) ∨
      recvStreamCb s r = .overrun ∨
      ∃ stPackage r₁, stPackage.byBlockEndFlag ≠ 0 ∧
        r₁.uRtpClientNodeSendDataThreadFlag = r.uRtpClientNodeSendDataThreadFlag ∧
        r₁.queueStreamData = r.queueStreamData ∧
        recvStreamCb s r = endOfFrame s stPackage r₁ := by
  fun_induction recvStreamCb s r with
  | case1 r hhead => exact .inl ⟨r, rfl, rfl, rfl⟩
  | case2 r hhead hwait => exact .inl ⟨r, rfl, rfl, rfl⟩
  | case3 r hhead hwait hread => exact .inr (.inl rfl)
  | case4 r hhead hwait r₁ hread hend =>
      obtain ⟨hflag, hqueue⟩ := readPackage_shared hread
      exact .inr (.inr ⟨_, r₁, hend, hflag, hqueue, rfl⟩)
  | case5 r hhead hwait r₁ hread hend ih =>
      obtain ⟨hflag, hqueue⟩ := readPackage_shared hread
      rw [← hflag, ← hqueue]
      exact ih

/-- **A callback that returns** is a run of the node. -/
theorem recvStreamCb_acts (hloop : n.loop = none) (hbev : n.bev = some .stream)
    (hflag : n.uRtpClientNodeSendDataThreadFlag = r.uRtpClientNodeSendDataThreadFlag)
    (hlist : s.listSize = n.listClientNodeHead.length) (hrLen : s.rLen = n.queueStreamData)
    (h : recvStreamCb s r = .returned r') : Acts n (n.behind r r') := by
  rcases recvStreamCb_cases s r with ⟨r₁, hreturned, hflag₁, hqueue₁⟩ | hoverrun |
    ⟨stPackage, r₁, hblock, hflag₁, hqueue₁, heq⟩
  · obtain rfl := Outcome.returned.inj (h.symm.trans hreturned)
    have hsame : n.behind r r' = n := by
      unfold StreamNode.behind
      rw [hflag₁, hqueue₁, if_pos rfl, Nat.sub_self, ← hloop, ← hflag]
      rfl
    rw [hsame]
  · rw [h] at hoverrun
    cases hoverrun
  · have henter : n.act 0 (.callback (.recvStreamCb stPackage)) =
        some { n with loop := some (.clients stPackage) } := by
      simp [StreamNode.act, StreamNode.enter, hbev, hblock]
    have hacts := endOfFrame_acts (n := { n with loop := some (.clients stPackage) }) rfl
      (hflag.trans hflag₁.symm) hlist hrLen (heq.symm.trans h)
    have hbehind : n.behind r r' =
        StreamNode.behind r₁ r' { n with loop := some (.clients stPackage) } := by
      unfold StreamNode.behind
      rw [hflag₁, hqueue₁]
    rw [hbehind]
    exact .head ⟨_, _, henter⟩ hacts

theorem endOfFrame_grows (hend : endOfFrame s stPackage r = .returned r') :
    r.queueStreamData.length ≤ r'.queueStreamData.length := by
  unfold endOfFrame at hend
  dsimp only at hend
  split at hend
  · cases hend
  split at hend
  · cases hend
  split at hend
  · rw [← Outcome.returned.inj hend]
  split at hend
  · cases hend
  rw [← Outcome.returned.inj hend]
  dsimp only
  split
  · exact Nat.le_refl _
  · rw [List.length_append]
    exact Nat.le_add_right _ _

theorem recvStreamCb_grows (h : recvStreamCb s r = .returned r') :
    r.queueStreamData.length ≤ r'.queueStreamData.length := by
  rcases recvStreamCb_cases s r with ⟨r₁, hreturned, -, hqueue⟩ | hoverrun |
    ⟨stPackage, r₁, -, -, hqueue, heq⟩
  · rw [Outcome.returned.inj (h.symm.trans hreturned), hqueue]
  · rw [h] at hoverrun
    cases hoverrun
  · rw [← hqueue]
    exact endOfFrame_grows (heq.symm.trans h)

/-! ## Rounds of the send task -/

variable {packet : RtpPacket} {frameType : Int}

def flags (clients : List ClientNode) : List Int := clients.map ClientNode.iDeleteFlag

theorem flags_visitClient {pass pass' : ClientPass} (hkeep : 1 ∉ flags pass.listClientNodeHead)
    (h : visitClient packet frameType pass = some pass') :
    flags pass'.listClientNodeHead = flags pass.listClientNodeHead := by
  unfold visitClient at h
  split at h
  · cases h
  · rename_i client hclient
    have hne : client.iDeleteFlag ≠ 1 := fun heq =>
      hkeep (heq ▸ List.mem_map_of_mem (List.mem_of_getElem? hclient))
    rw [if_neg hne] at h
    obtain rfl := Option.some.inj h
    obtain ⟨hi, rfl⟩ := List.getElem?_eq_some_iff.mp hclient
    show (pass.listClientNodeHead.set _ _).map _ = pass.listClientNodeHead.map _
    rw [List.map_set, ClientNode.iDeleteFlag_offer, ← List.getElem_map ClientNode.iDeleteFlag,
      List.set_getElem_self]
    rwa [List.length_map]

theorem flags_visitClients (left : Nat) :
    ∀ {pass pass' : ClientPass}, 1 ∉ flags pass.listClientNodeHead →
      visitClients packet frameType left pass = some pass' →
      flags pass'.listClientNodeHead = flags pass.listClientNodeHead := by
  induction left with
  | zero =>
      intro pass pass' _ h
      rw [Option.some.inj h]
  | succ left ih =>
      intro pass pass' hkeep h
      obtain ⟨pass₁, hvisit, hrest⟩ := Option.bind_eq_some_iff.mp h
      have hflags := flags_visitClient hkeep hvisit
      rw [ih (hflags ▸ hkeep) hrest, hflags]

theorem flags_sendLoop (number : Nat) (fuel : Nat) :
    ∀ {rtpInfo : RtpInfo} {buf : List UInt8} {packets : List RtpPacket} {pass : ClientPass}
      {result : RtpInfo × List RtpPacket × ClientPass}, 1 ∉ flags pass.listClientNodeHead →
      sendLoop number frameType fuel rtpInfo buf packets pass = some result →
      flags result.2.2.listClientNodeHead = flags pass.listClientNodeHead := by
  induction fuel with
  | zero =>
      intro _ _ _ _ _ _ h
      cases h
  | succ fuel ih =>
      intro rtpInfo buf packets pass result hkeep h
      obtain ⟨⟨rtpInfo₁, buf₁, size⟩, -, h⟩ := Option.bind_eq_some_iff.mp h
      cases size with
      | none => rw [← Option.some.inj h]
      | some rtpSize =>
          obtain ⟨pass₁, hvisits, hrest⟩ := Option.bind_eq_some_iff.mp h
          have hflags := flags_visitClients _ (by exact hkeep) hvisits
          rw [ih (hflags ▸ hkeep) hrest, hflags]

theorem flags_packPsRtpAndAddNode {node node' : Rtp.StreamNode} {frame : PsFrame}
    (hkeep : 1 ∉ flags node.listClientNodeHead)
    (h : packPsRtpAndAddNode node frame frameType = some node') :
    flags node'.listClientNodeHead = flags node.listClientNodeHead := by
  unfold packPsRtpAndAddNode at h
  split at h
  · obtain ⟨⟨rtpInfo, packets, pass⟩, hloop, hnode⟩ := Option.bind_eq_some_iff.mp h
    rw [← Option.some.inj hnode]
    exact flags_sendLoop node.frames _ hkeep hloop
  · rw [← Option.some.inj h]

theorem flags_sendRecord {task task' : SendTask} {record : QueueArgs}
    (hkeep : 1 ∉ flags task.pStreamNode.listClientNodeHead)
    (h : task.sendRecord record = some task') :
    flags task'.pStreamNode.listClientNodeHead = flags task.pStreamNode.listClientNodeHead := by
  unfold SendTask.sendRecord at h
  dsimp only at h
  split at h
  · rw [← Option.some.inj h]
  · obtain ⟨⟨stPsInfo, pPsData, iPsDataLen⟩, -, h⟩ := Option.bind_eq_some_iff.mp h
    obtain ⟨pStreamNode, hpack, h⟩ := Option.bind_eq_some_iff.mp h
    rw [← Option.some.inj h]
    exact flags_packPsRtpAndAddNode hkeep hpack

/-! ## The two models -/

/-- The node of a stream that is being received, for the calls `calls`: the queue, the flag of the
send task and the number of clients are those of `relay`. -/
structure Streams (calls : List SipEntry) (n : StreamNode) (relay : Relay) : Prop where
  linked : n.linked = true
  bev : n.bev = some .stream
  loop : n.loop = none
  playing : n.uRtspPlayFlag = 1
  started : n.uGetStreamThreadStartFlag ≠ 2
  flag : n.uRtpClientNodeSendDataThreadFlag =
    relay.receiver.uRtpClientNodeSendDataThreadFlag
  task : relay.receiver.uRtpClientNodeSendDataThreadFlag = 1 → n.task = some .top
  queue : n.queueStreamData = relay.backlog
  popped : relay.popped ≤ relay.receiver.queueStreamData.length
  clients : calls.length = relay.clients.length
  callIds : n.listClientNodeHead.map Client.callId = calls.map fun m => m.toSipNode.callId
  flags : 1 ∉ flags relay.clients

section Streams

variable {calls : List SipEntry} {relay relay' : Relay}

theorem Streams.length (h : Streams calls n relay) :
    n.listClientNodeHead.length = relay.clients.length := by
  have hlength := congrArg List.length h.callIds
  rwa [List.length_map, List.length_map, h.clients] at hlength

/-- **Bytes come**, and the callback finds the queue as it is. -/
theorem Streams.arrive (h : Streams calls n relay) {iError : Bool} {wLen : Int}
    {bytes : List UInt8}
    (hstep : relay.step (.arrive iError relay.backlog wLen bytes) = some relay') :
    ∃ n', Acts n n' ∧ n'.key = n.key ∧ Streams calls n' relay' := by
  rw [Relay.step] at hstep
  split at hstep
  · rename_i receiver hreceive
    obtain rfl := Option.some.inj hstep
    have hrLen : (relay.surroundings iError relay.backlog wLen).rLen = n.queueStreamData :=
      congrArg Int.ofNat h.queue.symm
    have hacts := recvStreamCb_acts
      (r := { relay.receiver with input := relay.receiver.input ++ bytes }) h.loop h.bev h.flag
      h.length.symm hrLen hreceive
    have hgrown : relay.receiver.queueStreamData.length ≤ receiver.queueStreamData.length :=
      recvStreamCb_grows (r := { relay.receiver with input := relay.receiver.input ++ bytes })
        hreceive
    have hpopped := h.popped
    refine ⟨_, hacts, rfl,
      { h with
        loop := rfl
        flag := rfl
        task := fun hflag => ?_
        queue := ?_
        popped := hpopped.trans hgrown }⟩
    · show (if relay.receiver.uRtpClientNodeSendDataThreadFlag =
        receiver.uRtpClientNodeSendDataThreadFlag then n.task else some .top) = some .top
      split
      · rename_i hsame
        exact h.task (hsame.trans hflag)
      · rfl
    · show n.queueStreamData + (receiver.queueStreamData.length -
        relay.receiver.queueStreamData.length) = receiver.queueStreamData.length - relay.popped
      rw [h.queue, Relay.backlog]
      omega
  · cases hstep

/-- **A call joins**, with a Call-ID of its own. -/
theorem Streams.join (h : Streams calls n relay) {m : SipEntry} (hm : Terminated m)
    (hkey : n.key = m.toSipNode.key)
    (hnew : m.toSipNode.callId ∉ calls.map fun m => m.toSipNode.callId)
    (hstep : relay.step .join = some relay') :
    ∃ n', Acts n n' ∧ n'.key = n.key ∧ Streams (calls ++ [m]) n' relay' := by
  obtain rfl := Option.some.inj hstep
  have hnone : seek Client.callId m.toSipNode.callId n.listClientNodeHead = none := by
    rw [seek_eq_none_iff]
    intro c hc heq
    rw [← h.callIds] at hnew
    exact hnew (heq ▸ List.mem_map_of_mem hc)
  have hact : n.act 0 (.play false m true) = some (n.addClient false 0 m) := by
    rw [StreamNode.act, if_pos ⟨h.linked, hkey⟩, StreamNode.play,
      StreamNode.playRtspVideoFromHbserver, if_pos]
    rw [StreamNode.addClient, hnone]
    exact h.playing
  refine ⟨_, .single ⟨_, _, hact⟩, ?_⟩
  rw [StreamNode.addClient, hnone]
  refine ⟨rfl,
    { h with
      clients := ?_
      callIds := ?_
      flags := ?_ }⟩
  · show (calls ++ [m]).length = (relay.clients ++ [({} : ClientNode)]).length
    rw [List.length_append, List.length_append, h.clients]
    rfl
  · show (n.listClientNodeHead ++ [newClient false 0 m]).map Client.callId = _
    rw [List.map_append, List.map_append, h.callIds, List.map_singleton, List.map_singleton,
      callId_newClient hm]
  · show 1 ∉ (relay.clients ++ [({} : ClientNode)]).map ClientNode.iDeleteFlag
    rw [List.map_append, List.mem_append]
    rintro (hmem | hmem)
    · exact h.flags hmem
    · cases hmem with
      | tail _ hmem => cases hmem

/-- **A round of the send task.** -/
theorem Streams.round (h : Streams calls n relay) (hstep : relay.step .round = some relay') :
    ∃ n', Acts n n' ∧ n'.key = n.key ∧ Streams calls n' relay' := by
  rw [Relay.step, Relay.round] at hstep
  split at hstep
  · obtain rfl := Option.some.inj hstep
    exact ⟨n, .refl, rfl, h⟩
  rename_i hflag
  have htask := h.task (not_not.mp hflag)
  have htop : n.sendRtpToClientTask .top = { n with task := some .clients } := if_neg h.started
  split at hstep
  · -- the list is empty: the task leaves its loop
    rename_i hzero
    obtain rfl := Option.some.inj hstep
    have hnil : n.listClientNodeHead = [] := List.length_eq_zero_iff.mp (h.length.trans hzero)
    refine ⟨{ n with uRtpClientNodeSendDataThreadFlag := 2, task := some .leave },
      .task htask ?_, rfl,
      { h with
        flag := rfl
        task := fun hone => absurd hone (by decide : (2 : Nat) ≠ 1) }⟩
    rw [htop]
    refine .task rfl ?_
    rw [StreamNode.sendRtpToClientTask, if_pos hnil]
    exact .task rfl .refl
  rename_i hclients
  have hne : n.listClientNodeHead ≠ [] := fun hnil => hclients (by rw [← h.length, hnil]; rfl)
  split at hstep
  · rename_i hbacklog
    have hlong : 15 < n.queueStreamData := by rwa [h.queue]
    split at hstep
    · rename_i hnone
      have hlen := List.getElem?_eq_none_iff.mp hnone
      unfold Relay.backlog at hbacklog
      omega
    · -- a record is popped and sent
      obtain ⟨task, hsend, rfl⟩ := Option.map_eq_some_iff.mp hstep
      have hflags := flags_sendRecord h.flags hsend
      refine ⟨{ n with queueStreamData := n.queueStreamData - 1, task := some .top },
        .task htask ?_, rfl,
        { h with
          task := fun _ => rfl
          queue := ?_
          popped := ?_
          clients := ?_
          flags := hflags ▸ h.flags }⟩
      · rw [htop]
        refine .task rfl ?_
        rw [StreamNode.sendRtpToClientTask, if_neg hne]
        refine .task rfl ?_
        rw [StreamNode.sendRtpToClientTask, if_pos hlong]
        exact .task rfl (.task rfl .refl)
      · show n.queueStreamData - 1 = relay.receiver.queueStreamData.length - (relay.popped + 1)
        rw [h.queue, Relay.backlog]
        omega
      · show relay.popped + 1 ≤ relay.receiver.queueStreamData.length
        unfold Relay.backlog at hbacklog
        omega
      · have hlength := congrArg List.length hflags
        unfold Lifetime.flags at hlength
        rw [List.length_map, List.length_map] at hlength
        exact h.clients.trans hlength.symm
  · obtain rfl := Option.some.inj hstep
    exact ⟨n, .refl, rfl, h⟩

/-! ## Whole runs -/

def Accurate (relay : Relay) : Relay.Event → Prop
  | .arrive _ rLen _ _ => rLen = relay.backlog
  | .join | .round => True

def AllAccurate : Relay → List Relay.Event → Prop
  | _, [] => True
  | relay, event :: events =>
      Accurate relay event ∧ ∀ relay', relay.step event = some relay' → AllAccurate relay' events

/-- How many calls join. -/
def joins : List Relay.Event → Nat
  | [] => 0
  | .join :: events => joins events + 1
  | .arrive .. :: events | .round :: events => joins events

/-- **A run of a stream is a run of its node**, when the calls that join are for the device of the
node and have Call-IDs of their own. -/
theorem Streams.run (events : List Relay.Event) :
    ∀ {calls later : List SipEntry} {n : StreamNode} {relay relay' : Relay},
      Streams calls n relay → later.length = joins events →
      (∀ m ∈ later, Terminated m ∧ n.key = m.toSipNode.key) →
      ((calls ++ later).map fun m => m.toSipNode.callId).Nodup → AllAccurate relay events →
      relay.run events = some relay' →
      ∃ n', Acts n n' ∧ Streams (calls ++ later) n' relay' := by
  induction events with
  | nil =>
      intro calls later n relay relay' h hcount _ _ _ hrun
      obtain rfl := List.length_eq_zero_iff.mp hcount
      obtain rfl := Option.some.inj hrun
      exact ⟨n, .refl, (List.append_nil calls).symm ▸ h⟩
  | cons event events ih =>
      intro calls later n relay relay' h hcount hlater hnodup haccurate hrun
      obtain ⟨haccurate, hrest⟩ := haccurate
      obtain ⟨relay₁, hstep, hbehind⟩ := Option.bind_eq_some_iff.mp hrun
      cases event with
      | arrive iError rLen wLen bytes =>
          obtain rfl : rLen = relay.backlog := haccurate
          obtain ⟨n₁, hacts, hkey, h₁⟩ := h.arrive hstep
          obtain ⟨n', hacts', h'⟩ :=
            ih h₁ hcount (hkey.symm ▸ hlater) hnodup (hrest _ hstep) hbehind
          exact ⟨n', hacts.trans hacts', h'⟩
      | round =>
          obtain ⟨n₁, hacts, hkey, h₁⟩ := h.round hstep
          obtain ⟨n', hacts', h'⟩ :=
            ih h₁ hcount (hkey.symm ▸ hlater) hnodup (hrest _ hstep) hbehind
          exact ⟨n', hacts.trans hacts', h'⟩
      | join =>
          obtain ⟨m, later, rfl⟩ := List.exists_cons_of_length_eq_add_one hcount
          obtain ⟨hm, hkey⟩ := hlater m List.mem_cons_self
          have hnew : m.toSipNode.callId ∉ calls.map fun m => m.toSipNode.callId := by
            rw [List.map_append, List.nodup_append'] at hnodup
            exact fun hmem => hnodup.2.2 hmem (List.mem_map_of_mem List.mem_cons_self)
          obtain ⟨n₁, hacts, hkey₁, h₁⟩ := h.join hm hkey hnew hstep
          have happend : calls ++ m :: later = (calls ++ [m]) ++ later := List.append_cons ..
          rw [happend] at hnodup ⊢
          obtain ⟨n', hacts', h'⟩ := ih h₁ (Nat.succ.inj hcount)
            (fun x hx => hkey₁.symm ▸ hlater x (List.mem_cons_of_mem _ hx)) hnodup (hrest _ hstep)
            hbehind
          exact ⟨n', hacts.trans hacts', h'⟩

end Streams

/-- **From the first `PLAY` on.**  The node that it makes connects, is told `SUCCESS`, and does
whatever the stream does. -/
theorem stream_acts {m : SipEntry} (hm : Terminated m) {u32Ssrc : UInt32} {receiver : Receiver}
    (hflag : receiver.uRtpClientNodeSendDataThreadFlag = 0)
    (hqueue : receiver.queueStreamData = []) {events : List Relay.Event} {later : List SipEntry}
    (hcount : later.length = joins events)
    (hlater : ∀ x ∈ later, Terminated x ∧ m.toSipNode.key = x.toSipNode.key)
    (hnodup : ((m :: later).map fun m => m.toSipNode.callId).Nodup) {relay relay' : Relay}
    (hjoin : (Relay.start u32Ssrc receiver).step .join = some relay)
    (haccurate : AllAccurate relay events) (hrun : relay.run events = some relay') :
    ∃ n', Acts (({ key := m.toSipNode.key } : StreamNode).play false 0 m true) n' ∧
      Streams (m :: later) n' relay' := by
  obtain rfl := Option.some.inj hjoin
  let n : StreamNode := ({ key := m.toSipNode.key } : StreamNode).play false 0 m true
  have hconnected : n.act 0 (.callback (.connectEventCb true)) =
      some { n with bev := some .command } := rfl
  have hanswered : StreamNode.act { n with bev := some .command } 0
      (.callback (.recvCmdFromHbserver true true)) =
        some { n with bev := some .stream, queueStreamData := 0 } := rfl
  have hstart : Streams [m] { n with bev := some .stream, queueStreamData := 0 }
      { Relay.start u32Ssrc receiver with
        task :=
          { (Relay.start u32Ssrc receiver).task with
            pStreamNode := listAppendClient (Relay.start u32Ssrc receiver).task.pStreamNode } } :=
    { linked := rfl
      bev := rfl
      loop := rfl
      playing := rfl
      started := (by decide : (0 : Nat) ≠ 2)
      flag := hflag.symm
      task := fun hone => absurd (hflag.symm.trans hone) Nat.zero_ne_one
      queue := by
        show 0 = receiver.queueStreamData.length - 0
        rw [hqueue]
        rfl
      popped := Nat.zero_le _
      clients := rfl
      callIds := by
        show [(newClient false 0 m).callId] = [m.toSipNode.callId]
        rw [callId_newClient hm]
      flags := by
        show 1 ∉ [(0 : Int)]
        decide }
  obtain ⟨n', hacts, hstreams⟩ := hstart.run events hcount hlater hnodup haccurate hrun
  exact ⟨n', .head ⟨_, _, hconnected⟩ (.head ⟨_, _, hanswered⟩ hacts), hstreams⟩

end GbStream.Lifetime
