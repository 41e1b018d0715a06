import GbStream.Lifetime.Ownership

/-!
# Who drops a viewer

A client is destroyed with its node, or alone by the send task.  A node that is on its way out
has only clients with a delete flag, or a source connection that has failed, as long as no
`PLAY` joins it late and the server does not give it up by itself.
-/

namespace GbStream.Lifetime

open Support.HashTable Support.Transition Call Recv
open GbStream.Stream (Client playMessage newClient)

def LoopPc.ends : LoopPc → Bool
  | .freeBev | .ended | .unlink | .release | .errEnded | .destroy => true
  | _ => false

namespace StreamNode

def allDeleted (n : StreamNode) : Bool := n.listClientNodeHead.all fun c => c.iDeleteFlag = 1

def Ends (n : StreamNode) : Prop :=
  n.deserted = true ∨ n.uGetStreamThreadStartFlag = 2 ∨ n.loop.any LoopPc.ends = true

/-- The clients of the node may be destroyed: they have been told to go, or the connection that
they are served from has failed. -/
def Excused (n : StreamNode) : Prop := n.failed = true ∨ n.allDeleted = true

/-- No step drops a viewer: a `PLAY` adds a client only to a node that is not on its way out,
and `stpool_task_set_p`, `nolock_queue_init` and the length of the queue do not make the server
give up a node that has viewers. -/
def keepsViewers (n : StreamNode) (a : Act) : Bool :=
  n.taskStarts a &&
    match a with
    | .play _ m _ =>
        (seek Client.callId m.toSipNode.callId n.listClientNodeHead).isSome ||
          !n.deserted && (n.uGetStreamThreadStartFlag ≠ 2 || n.failed)
    | .callback (.recvCmdFromHbserver true false) => n.allDeleted
    | .loop _ => n.loop ≠ some .length || n.queueStreamData < 512 || n.allDeleted
    | _ => true

structure Keeps (n : StreamNode) : Prop where
  evicted : n.evicted = []
  late : n.late = []
  excused : n.Ends → n.Excused

variable {n n' : StreamNode}

theorem deserted_iff :
    n.deserted = true ↔
      n.uRtpClientNodeSendDataThreadFlag = 2 ∨ n.task = some .exit :=
  decide_eq_true_iff

/-! ## Messages and events -/

theorem Keeps.of_step (h : n.Keeps) (hevicted : n'.evicted = n.evicted) (hlate : n'.late = n.late)
    (hexcused : n.Excused → n'.Excused) (hends : n'.Ends → n.Ends ∨ n'.Excused) : n'.Keeps where
  evicted := hevicted.trans h.evicted
  late := hlate.trans h.late
  excused := fun hends' => (hends hends').elim (fun hends => hexcused (h.excused hends)) id

theorem Excused.evict (h : n.Excused) : (n.evict n.listClientNodeHead).evicted = n.evicted := by
  rcases h with hfailed | hdeleted
  · simp [StreamNode.evict, hfailed]
  · have hnone : n.listClientNodeHead.filter (fun c => c.iDeleteFlag ≠ 1) = [] := by
      rw [List.filter_eq_nil_iff]
      intro c hc
      have hflag := List.all_eq_true.mp hdeleted c hc
      simpa using hflag
    unfold StreamNode.evict
    rw [hnone, ite_self, List.append_nil]

theorem Keeps.addClient (h : n.Keeps) (hidle : n.loop = none) {iUseRtcpFlag : Bool} {id : Nat}
    {m : SipEntry}
    (hok : (seek Client.callId m.toSipNode.callId n.listClientNodeHead).isSome ||
      !n.deserted && (n.uGetStreamThreadStartFlag ≠ 2 || n.failed)) :
    (n.addClient iUseRtcpFlag id m).Keeps := by
  unfold StreamNode.addClient
  rcases hseek : seek Client.callId m.toSipNode.callId n.listClientNodeHead with _ | c
  · rw [hseek] at hok
    obtain ⟨hdeserted, hflag⟩ : n.deserted = false ∧
        (n.uGetStreamThreadStartFlag ≠ 2 ∨ n.failed = true) := by simpa using hok
    exact
      { evicted := h.evicted
        late := by simp [hdeserted, h.late]
        excused := fun hends => by
          rcases hends with hends | hends | hends
          · exact absurd (hdeserted.symm.trans hends) Bool.false_ne_true
          · exact .inl (hflag.resolve_left (not_not.mpr hends))
          · rw [show _ = n.loop from rfl, hidle] at hends
            cases hends }
  · exact h

theorem Keeps.playRtspVideoFromHbserver (h : n.Keeps) (connect : Bool) :
    (n.playRtspVideoFromHbserver connect).Keeps := by
  unfold StreamNode.playRtspVideoFromHbserver
  split
  · exact h
  split
  · exact h.of_step rfl rfl id fun hends => .inl hends
  · exact h

theorem Keeps.setDeleteFlag (h : n.Keeps) (id : Nat) : (n.setDeleteFlag id).Keeps := by
  refine h.of_step rfl rfl (fun hexcused => ?_) fun hends => .inl hends
  refine hexcused.imp_right fun hdeleted => List.all_eq_true.mpr fun c hc => ?_
  obtain ⟨x, hx, rfl⟩ := List.mem_map.mp hc
  have hflag := List.all_eq_true.mp hdeleted x hx
  split
  · rfl
  · exact hflag

theorem Keeps.stop (h : n.Keeps) (m : SipEntry) : (n.stop m).Keeps := by
  unfold StreamNode.stop
  split
  · exact h
  · exact h.setDeleteFlag _

theorem Keeps.enter {c : Callback} (h : n.Keeps)
    (hok : c = .recvCmdFromHbserver true false → n.allDeleted = true)
    (henter : n.enter c = some n') : n'.Keeps := by
  cases c with
  | connectEventCb connected =>
    obtain ⟨-, henter⟩ := Option.ite_none_left_eq_some.mp henter
    split at henter
    · obtain rfl := Option.some.inj henter
      exact h.of_step rfl rfl id fun hends => .inl hends
    · obtain rfl := Option.some.inj henter
      exact h.of_step rfl rfl (fun _ => .inl rfl) fun _ => .inr (.inl rfl)
  | recvCmdFromHbserver success queueInit =>
    obtain ⟨-, henter⟩ := Option.ite_none_left_eq_some.mp henter
    cases success with
    | false =>
      obtain rfl := Option.some.inj henter
      exact h.of_step rfl rfl (fun _ => .inl rfl) fun _ => .inr (.inl rfl)
    | true =>
      cases queueInit with
      | false =>
        obtain rfl := Option.some.inj henter
        exact h.of_step rfl rfl id fun _ => .inr (.inr (hok rfl))
      | true =>
        obtain rfl := Option.some.inj henter
        exact h.of_step rfl rfl id fun hends => .inl hends
  | recvStreamCb stPackage =>
    obtain ⟨-, henter⟩ := Option.ite_none_left_eq_some.mp henter
    obtain rfl := Option.some.inj henter
    exact h.of_step rfl rfl id fun hends => .inl (hends.imp_right (Or.imp_right nofun))
  | recvStreamErrCb =>
    obtain ⟨-, henter⟩ := Option.ite_none_left_eq_some.mp henter
    obtain rfl := Option.some.inj henter
    exact h.of_step rfl rfl (fun _ => .inl rfl) fun _ => .inr (.inl rfl)

/-! ## The callbacks -/

theorem Keeps.goTo {pc pc' : LoopPc} (h : n.Keeps) (hloop : n.loop = some pc)
    (hends : pc'.ends = true → pc.ends = true ∨ n.deserted = true ∨ n.allDeleted = true) :
    (n.goTo pc').Keeps := by
  refine h.of_step rfl rfl id fun hends' => ?_
  rcases hends' with hdeserted | hreleased | hpc'
  · exact .inl (.inl hdeserted)
  · exact .inl (.inr (.inl hreleased))
  · rcases hends hpc' with hpc | hdeserted | hdeleted
    · exact .inl (.inr (.inr (by rw [hloop]; exact hpc)))
    · exact .inl (.inl hdeserted)
    · exact .inr (.inr hdeleted)

theorem Keeps.leave (h : n.Keeps) : n.leave.Keeps :=
  h.of_step rfl rfl id fun hends => .inl (hends.imp_right (Or.imp_right nofun))

theorem Keeps.destroy (h : n.Keeps) (hends : n.Ends) : n.destroy.leave.Keeps where
  evicted := (h.excused hends).evict.trans h.evicted
  late := h.late
  excused := fun _ => .inr rfl

theorem Keeps.loopStep {pc : LoopPc} {success : Bool} (h : n.Keeps) (hloop : n.loop = some pc)
    (hstarts : pc.startsTask = true → success = true)
    (hlength : pc = .length → n.queueStreamData < 512 ∨ n.allDeleted = true) :
    (n.loopStep success pc).Keeps := by
  have hends : pc.ends = true → n.Ends := fun hpc => .inr (.inr (by rw [hloop]; exact hpc))
  cases pc with
  | clients stPackage =>
    unfold StreamNode.loopStep
    dsimp only
    split
    · rename_i hempty
      exact h.goTo hloop fun _ => .inr (.inr (by rw [StreamNode.allDeleted, hempty]; rfl))
    · exact h.goTo hloop nofun
  | sendFlag stPackage =>
    unfold StreamNode.loopStep
    dsimp only
    split
    · rename_i hflag
      exact h.goTo hloop fun _ => .inr (.inl (by simp [StreamNode.deserted, hflag]))
    · exact h.goTo hloop nofun
  | start stPackage =>
    unfold StreamNode.loopStep
    dsimp only
    split
    · exact h.goTo hloop nofun
    · exact h.goTo hloop nofun
  | setP stPackage =>
    obtain rfl := hstarts rfl
    exact h.goTo hloop nofun
  | queue stPackage =>
    refine h.of_step rfl rfl id fun hends' => .inl ?_
    rcases hends' with hdeserted | hreleased | hpc
    · rcases deserted_iff.mp hdeserted with hflag | hexit
      · exact .inl (deserted_iff.mpr (.inl hflag))
      · cases hexit
    · exact .inr (.inl hreleased)
    · cases hpc
  | started stPackage =>
    refine h.of_step rfl rfl id fun hends' => .inl ?_
    rcases hends' with hdeserted | hreleased | hpc
    · rcases deserted_iff.mp hdeserted with hflag | hexit
      · cases hflag
      · exact .inl (deserted_iff.mpr (.inr hexit))
    · exact .inr (.inl hreleased)
    · cases hpc
  | drop stPackage =>
    unfold StreamNode.loopStep
    dsimp only
    split
    · exact h.leave
    · exact h.goTo hloop nofun
  | length =>
    unfold StreamNode.loopStep
    dsimp only
    split
    · rename_i hfull
      exact h.goTo hloop fun _ => .inr (.inr ((hlength rfl).resolve_left hfull.not_gt))
    · exact h.goTo hloop nofun
  | push =>
    cases success with
    | false => exact h.leave
    | true => exact h.leave.of_step rfl rfl id .inl
  | freeBev => exact h.of_step rfl rfl id fun _ => .inl (hends rfl)
  | ended =>
    unfold StreamNode.loopStep
    dsimp only
    split
    · exact h.goTo hloop fun _ => .inl rfl
    · exact h.goTo hloop fun _ => .inl rfl
  | unlink =>
    exact
      { evicted := (h.excused (hends rfl)).evict.trans h.evicted
        late := h.late
        excused := fun _ => .inr rfl }
  | free =>
    exact h.of_step rfl rfl id fun hends' => .inl (hends'.imp_right (Or.imp_right nofun))
  | release => exact h.of_step rfl rfl id fun _ => .inl (hends rfl)
  | errEnded =>
    unfold StreamNode.loopStep
    dsimp only
    split
    · exact h.goTo hloop fun _ => .inl rfl
    · exact h.goTo hloop fun _ => .inl rfl
  | destroy => exact h.destroy (hends rfl)

/-! ## The send task -/

theorem Keeps.setTask (h : n.Keeps) (pc : TaskPc) (hexit : pc = .exit → n.allDeleted = true)
    (k : Nat) : StreamNode.Keeps { n with task := some pc, queueStreamData := k } := by
  refine h.of_step rfl rfl id fun hends' => ?_
  rcases hends' with hdeserted | hreleased | hloop
  · rcases deserted_iff.mp hdeserted with hflag | htask
    · exact .inl (.inl (deserted_iff.mpr (.inl hflag)))
    · exact .inr (.inr (hexit (Option.some.inj htask)))
  · exact .inl (.inr (.inl hreleased))
  · exact .inl (.inr (.inr hloop))

theorem Keeps.sendRtpToClientTask {pc : TaskPc} (h : n.Keeps) (halive : n.Alive)
    (htask : n.task = some pc) : (n.sendRtpToClientTask pc).Keeps := by
  cases pc with
  | top =>
    unfold StreamNode.sendRtpToClientTask
    dsimp only
    split
    · exact h.setTask .leave nofun _
    · exact h.setTask .clients nofun _
  | clients =>
    unfold StreamNode.sendRtpToClientTask
    dsimp only
    split
    · rename_i hempty
      exact h.setTask .exit (fun _ => by rw [StreamNode.allDeleted, hempty]; rfl) _
    · exact h.setTask .length nofun _
  | exit =>
    have hdeserted : n.deserted = true := deserted_iff.mpr (.inr htask)
    exact h.of_step rfl rfl id fun _ => .inl (.inl hdeserted)
  | length =>
    unfold StreamNode.sendRtpToClientTask
    dsimp only
    split
    · exact h.setTask .pop nofun _
    · exact h.setTask .top nofun _
  | pop => exact h.setTask .send nofun _
  | send => exact h.setTask .top nofun _
  | leave =>
    unfold StreamNode.sendRtpToClientTask
    dsimp only
    split
    · exact h.setTask .wait nofun _
    · exact h.setTask .clean nofun _
  | wait =>
    unfold StreamNode.sendRtpToClientTask
    dsimp only
    split
    · exact h.setTask .clean nofun _
    · exact h
  | clean =>
    have hreleased := (halive.task _ htask).2
    exact
      { evicted := (h.excused (.inr (.inl hreleased))).evict.trans h.evicted
        late := h.late
        excused := fun _ => .inr rfl }

theorem Keeps.delOneClientNode {pClientNode : Client} (h : n.Keeps)
    (hflag : pClientNode.iDeleteFlag = 1) : (n.delOneClientNode pClientNode).Keeps := by
  have hevict : (n.evict [pClientNode]).evicted = n.evicted := by
    simp [StreamNode.evict, hflag]
  refine h.of_step hevict rfl (fun hexcused => ?_) .inl
  refine hexcused.imp_right fun hdeleted => List.all_eq_true.mpr fun c hc => ?_
  exact List.all_eq_true.mp hdeleted c (List.mem_of_mem_erase hc)

/-! ## Every step -/

theorem Keeps.act {id : Nat} {a : Act} (h : n.Keeps) (halive : n.Alive)
    (hok : n.keepsViewers a = true) (hidle : a.begins = true → n.loop = none)
    (hact : n.act id a = some n') : n'.Keeps := by
  obtain ⟨hstarts, hok⟩ := Bool.and_eq_true_iff.mp hok
  cases a with
  | play iUseRtcpFlag m connect =>
    obtain ⟨-, heq⟩ := Option.ite_none_right_eq_some.mp hact
    obtain rfl := Option.some.inj heq
    exact (h.addClient (hidle rfl) hok).playRtspVideoFromHbserver connect
  | stop m =>
    obtain ⟨-, heq⟩ := Option.ite_none_right_eq_some.mp hact
    obtain rfl := Option.some.inj heq
    exact h.stop m
  | timeout pClientNode =>
    obtain ⟨-, heq⟩ := Option.ite_none_right_eq_some.mp hact
    obtain rfl := Option.some.inj heq
    exact h.setDeleteFlag _
  | callback c =>
    refine h.enter (fun hc => ?_) hact
    subst hc
    exact hok
  | loop success =>
    obtain ⟨pc, hloop, rfl⟩ := Option.map_eq_some_iff.mp hact
    refine h.loopStep hloop (fun hpc => ?_) fun hpc => ?_
    · simpa [taskStarts, hloop, hpc] using hstarts
    · simpa [hloop, hpc] using hok
  | task =>
    obtain ⟨pc, htask, rfl⟩ := Option.map_eq_some_iff.mp hact
    exact h.sendRtpToClientTask halive htask
  | delClient pClientNode =>
    obtain ⟨⟨-, -, hflag⟩, heq⟩ := Option.ite_none_right_eq_some.mp hact
    obtain rfl := Option.some.inj heq
    exact h.delOneClientNode hflag

theorem keeps_play (iUseRtcpFlag : Bool) (id : Nat) (m : SipEntry) (connect : Bool) :
    (({ key := m.toSipNode.key } : StreamNode).play iUseRtcpFlag id m connect).Keeps := by
  have hnew : Keeps { key := m.toSipNode.key } := ⟨rfl, rfl, fun _ => .inr rfl⟩
  exact (hnew.addClient rfl rfl).playRtspVideoFromHbserver connect

end StreamNode

/-! ## Runs -/

/-- No client has been destroyed without its delete flag before the source connection of its
node failed, and none has joined a send task that was about to exit. -/
structure State.Kept (s : State) : Prop where
  evicted : ∀ n ∈ s.nodes, n.evicted = []
  late : ∀ n ∈ s.nodes, n.late = []

variable {s : State}

/-- **No viewer is dropped** in a run in which no `PLAY` joins a node that is on its way out,
and the server gives up no node that has viewers. -/
theorem kept_reachable
    (hs : system.ReachableWith (fun s e => s.allows StreamNode.keepsViewers e = true) s) :
    s.Kept := by
  have hall : ∀ n ∈ s.nodes, (n.Alive ∨ n.Gone) ∧ n.Keeps := by
    refine forall_reachable (fun _ _ _ _ => ?_) ?_ hs
    · exact ⟨.inl (StreamNode.alive_play ..), StreamNode.keeps_play ..⟩
    · rintro n id a n' ⟨halive | hgone, hkeeps⟩ hok hidle hact
      · have hstarts := (Bool.and_eq_true_iff.mp hok).1
        exact ⟨(halive.act hstarts hidle hact).imp_right And.left,
          hkeeps.act halive hok hidle hact⟩
      · rw [hgone.act] at hact
        cases hact
  exact ⟨fun n hn => (hall n hn).2.evicted, fun n hn => (hall n hn).2.late⟩

/-- A second client joins, the first leaves, and the connection fails. -/
theorem kept_reachable_joined :
    ∃ s,
      runWith State.exec (State.allows StreamNode.keepsViewers) {}
          (untilSetP ++ goOn 6 ++
            [.act 0 (.play false (playMessage 0x62 1) true), .act 0 (.stop (playMessage 0x61 1)),
              .act 0 (.callback .recvStreamErrCb)] ++
            goOn 2 ++ List.replicate 3 (.act 0 .task)) =
        some s ∧
      (∀ n ∈ s.nodes, n.freed = 1) ∧ s.Kept := by
  have hrun :
      (runWith State.exec (State.allows StreamNode.keepsViewers) {}
          (untilSetP ++ goOn 6 ++
            [.act 0 (.play false (playMessage 0x62 1) true), .act 0 (.stop (playMessage 0x61 1)),
              .act 0 (.callback .recvStreamErrCb)] ++
            goOn 2 ++ List.replicate 3 (.act 0 .task))).any
        (fun s => decide (∀ n ∈ s.nodes, n.freed = 1)) = true := by
    decide +kernel
  obtain ⟨s, hs, hfreed⟩ := (Option.any_eq_true _ _).mp hrun
  exact ⟨s, hs, of_decide_eq_true hfreed, kept_reachable (reachable_of_runWith hs)⟩

/-- The call 0x61 starts the send task and stops; the task removes it and finds no client.  Before
it sets its flag, the call 0x62 joins the node. -/
def joinsLate : List Event :=
  untilSetP ++ goOn 6 ++
    (List.replicate 15
      (.act 0 (.callback (.recvStreamCb (framePackage 0))) :: goOn 6)).flatten ++
    .act 0 (.stop (playMessage 0x61 1)) :: List.replicate 4 (.act 0 .task) ++
    .act 0 (.delClient { newClient false 0 (playMessage 0x61 1) with iDeleteFlag := 1 }) ::
      List.replicate 3 (.act 0 .task) ++
    [.act 0 (.play false (playMessage 0x62 1) true)]

/-- The receiver sees the flag of the send task, which destroys the node. -/
def destroysNode : List Event :=
  List.replicate 2 (.act 0 .task) ++
    .act 0 (.callback (.recvStreamCb (framePackage 0))) :: goOn 5 ++
    List.replicate 2 (.act 0 .task)

/-- A client that has joined late is dropped, with the source connection in order. -/
theorem kept_joinsLate :
    ∃ s, system.Reachable s ∧ ¬s.Kept ∧
      ∃ n ∈ s.nodes, n.failed = false ∧ n.evicted ≠ [] ∧ n.late = n.evicted := by
  have hrun :
      (runWith State.exec (fun _ _ => true) {} (joinsLate ++ destroysNode)).any
        (fun s =>
          decide (∃ n ∈ s.nodes, n.failed = false ∧ n.evicted ≠ [] ∧ n.late = n.evicted)) =
        true := by
    decide +kernel
  obtain ⟨s, hs, hdropped⟩ := (Option.any_eq_true _ _).mp hrun
  obtain ⟨n, hn, hfailed, hevicted, hlate⟩ := of_decide_eq_true hdropped
  exact ⟨s, (reachable_of_runWith hs).reachable, fun hkept => hevicted (hkept.evicted n hn), n, hn,
    hfailed, hevicted, hlate⟩

end GbStream.Lifetime
