import GbStream.Lifetime.Node
import GbStream.Stream.Table

/-!
# Who frees a stream node

A node goes from its bufferevent to its send task, by the two flags, or is freed by the event
loop while it has no send task.  At each point of the callbacks and of the task something is
known of the flags; with it a node is either held or gone, with nothing left that refers to it.
-/

namespace GbStream.Lifetime

open Support.HashTable Support.Transition Call Recv
open GbStream.Stream (Client playMessage)

/-! ## What is known where -/

def LoopPc.Knows (n : StreamNode) : LoopPc → Prop
  | .clients _ | .sendFlag _ | .start _ | .drop _ | .freeBev => n.bev = some .stream
  | .setP _ | .queue _ => n.bev = some .stream ∧ n.task = none
  | .started _ =>
      n.bev = some .stream ∧ n.task ≠ none ∧ n.uRtpClientNodeSendDataThreadFlag = 0
  | .length | .push => n.bev = some .stream ∧ n.uRtpClientNodeSendDataThreadFlag ≠ 0
  | .ended | .errEnded => n.bev = none
  | .unlink | .destroy => n.bev = none ∧ n.task = none
  | .free =>
      (n.bev = none ∧ n.task = none) ∧ n.linked = false ∧ n.listClientNodeHead = []
  | .release => n.bev = none ∧ n.uRtpClientNodeSendDataThreadFlag ≠ 0

def TaskPc.Knows (n : StreamNode) : TaskPc → Prop
  | .top | .clients | .length => n.uRtpClientNodeSendDataThreadFlag ≠ 2
  | .exit | .pop | .send =>
      n.uRtpClientNodeSendDataThreadFlag ≠ 0 ∧ n.uRtpClientNodeSendDataThreadFlag ≠ 2
  | .leave =>
      n.uRtpClientNodeSendDataThreadFlag ≠ 0 ∧
        (n.uGetStreamThreadStartFlag = 2 ∨ n.uRtpClientNodeSendDataThreadFlag = 2)
  | .wait => n.uRtpClientNodeSendDataThreadFlag = 2
  | .clean => n.uRtpClientNodeSendDataThreadFlag ≠ 0 ∧ n.uGetStreamThreadStartFlag = 2

/-- The step whose `stpool_task_set_p` may fail. -/
def LoopPc.startsTask : LoopPc → Bool
  | .setP _ => true
  | _ => false

def LoopPc.queued : LoopPc → Bool
  | .started _ => true
  | _ => false

namespace StreamNode

structure Alive (n : StreamNode) : Prop where
  freed : n.freed = 0
  linked : n.loop ≠ some .free → n.linked = true
  loop : ∀ pc, n.loop = some pc → pc.Knows n
  playing : ∀ pc, n.loop = some pc → n.uRtspPlayFlag = 1 ∧ n.uGetStreamThreadStartFlag ≠ 2
  task : ∀ pc, n.task = some pc → pc.Knows n
  idle : n.task = none → n.uRtpClientNodeSendDataThreadFlag = 0
  queued : n.uRtpClientNodeSendDataThreadFlag = 0 → n.loop.any LoopPc.queued = false →
    n.task = none
  asking : n.bev = some .connecting ∨ n.bev = some .command → n.task = none ∧ n.loop = none
  connected : n.bev ≠ none → n.uRtspPlayFlag = 1 ∧ n.uGetStreamThreadStartFlag ≠ 2
  unplayed : n.uRtspPlayFlag ≠ 1 → n.task = none ∧ n.uGetStreamThreadStartFlag ≠ 2
  handedOver : n.uRtspPlayFlag = 1 → n.bev = none → n.loop = none →
    n.uGetStreamThreadStartFlag = 2
  released : n.uGetStreamThreadStartFlag = 2 → n.uRtpClientNodeSendDataThreadFlag ≠ 0
  clients : n.uRtpClientNodeSendDataThreadFlag = 0 → n.loop ≠ some .free →
    n.listClientNodeHead ≠ []
  queue : n.uRtpClientNodeSendDataThreadFlag = 0 → n.queueStreamData = 0

structure Gone (n : StreamNode) : Prop where
  freed : n.freed = 1
  linked : n.linked = false
  bev : n.bev = none
  loop : n.loop = none
  task : n.task = none
  clients : n.listClientNodeHead = []

/-- The party that does something with the node is the only one that holds it. -/
def Sole (n : StreamNode) : Act → Prop
  | .loop _ => n.bev = none ∧ n.task = none
  | .task => n.bev = none ∧ n.loop = none
  | _ => False

/-- The send task can be started where the event loop wants to. -/
def taskStarts (n : StreamNode) : Act → Bool
  | .loop success => n.loop.all fun pc => !pc.startsTask || success
  | _ => true

variable {n n' : StreamNode} {pc pc' : LoopPc} {success : Bool}

/-! ## The event loop -/

theorem not_asking (hbev : n.bev = none ∨ n.bev = some .stream) :
    ¬(n.bev = some .connecting ∨ n.bev = some .command) := by
  rcases hbev with hbev | hbev
  · simp [hbev]
  · simp [hbev]

theorem Alive.goTo (h : n.Alive) (hloop : n.loop = some pc) (hpc : pc.queued = false)
    (hfree : pc ≠ .free) (hpc' : pc'.Knows n) (hfree' : pc' ≠ .free) : (n.goTo pc').Alive where
  freed := h.freed
  linked := fun _ => h.linked (by simp [hloop, hfree])
  loop := by
    intro x hx
    obtain rfl : pc' = x := Option.some.inj hx
    cases pc' <;> exact hpc'
  playing := fun _ _ => h.playing pc hloop
  task := h.task
  idle := h.idle
  queued := fun hflag _ => h.queued hflag (by simp [hloop, hpc])
  asking := fun hbev => by
    have hnone := (h.asking hbev).2
    rw [hloop] at hnone
    cases hnone
  connected := h.connected
  unplayed := h.unplayed
  handedOver := fun _ _ hnone => by cases hnone
  released := h.released
  clients := fun hflag _ => h.clients hflag (by simp [hloop, hfree])
  queue := h.queue

theorem Alive.leave (h : n.Alive) (hloop : n.loop = some pc) (hpc : pc.queued = false)
    (hfree : pc ≠ .free) (hbev : n.bev = some .stream) : n.leave.Alive where
  freed := h.freed
  linked := fun _ => h.linked (by simp [hloop, hfree])
  loop := fun _ hx => by cases hx
  playing := fun _ hx => by cases hx
  task := h.task
  idle := h.idle
  queued := fun hflag _ => h.queued hflag (by simp [hloop, hpc])
  asking := fun hx => ⟨(h.asking hx).1, rfl⟩
  connected := h.connected
  unplayed := h.unplayed
  handedOver := fun _ hnone _ => by
    rw [show n.leave.bev = n.bev from rfl, hbev] at hnone
    cases hnone
  released := h.released
  clients := fun hflag _ => h.clients hflag (by simp [hloop, hfree])
  queue := h.queue

theorem Alive.queueTask {stPackage : NetLayer} (h : n.Alive)
    (hloop : n.loop = some (.queue stPackage)) :
    StreamNode.Alive { n.goTo (.started stPackage) with task := some .top } := by
  obtain ⟨hbev, htask⟩ := h.loop _ hloop
  have hflag : n.uRtpClientNodeSendDataThreadFlag = 0 := h.idle htask
  exact
    { freed := h.freed
      linked := fun _ => h.linked (by simp [hloop])
      loop := fun pc hpc => by
        obtain rfl := Option.some.inj hpc
        exact ⟨hbev, by simp, hflag⟩
      playing := fun _ _ => h.playing _ hloop
      task := fun pc hpc => by
        obtain rfl := Option.some.inj hpc
        exact fun htwo => absurd (hflag.symm.trans htwo) (by decide)
      idle := fun hnone => by cases hnone
      queued := fun _ hqueued => by cases hqueued
      asking := fun hx => absurd hx (not_asking (.inr hbev))
      connected := h.connected
      unplayed := fun hplay => absurd (h.playing _ hloop).1 hplay
      handedOver := fun _ _ hnone => by cases hnone
      released := h.released
      clients := fun hzero _ => h.clients hzero (by simp [hloop])
      queue := h.queue }

theorem Alive.setStarted {stPackage : NetLayer} (h : n.Alive)
    (hloop : n.loop = some (.started stPackage)) :
    StreamNode.Alive
      { n.goTo (.drop stPackage) with uRtpClientNodeSendDataThreadFlag := 1 } := by
  obtain ⟨hbev, htask, hflag⟩ := h.loop _ hloop
  exact
    { freed := h.freed
      linked := fun _ => h.linked (by simp [hloop])
      loop := fun pc hpc => by
        obtain rfl := Option.some.inj hpc
        exact hbev
      playing := fun _ _ => h.playing _ hloop
      task := fun pc hpc => by
        -- a task that meets the flag at 0 has not come far
        have hknows := h.task pc hpc
        cases pc <;> simp_all [TaskPc.Knows]
      idle := fun hnone => absurd hnone htask
      queued := fun hzero => by cases hzero
      asking := fun hx => absurd hx (not_asking (.inr hbev))
      connected := h.connected
      unplayed := fun hplay => absurd (h.playing _ hloop).1 hplay
      handedOver := fun _ _ hnone => by cases hnone
      released := fun _ => Nat.one_ne_zero
      clients := fun hzero => by cases hzero
      queue := fun hzero => by cases hzero }

theorem Alive.push (h : n.Alive) (hloop : n.loop = some .push) (k : Nat) :
    StreamNode.Alive { n.leave with queueStreamData := k } := by
  obtain ⟨hbev, hflag⟩ := h.loop _ hloop
  have hleave := h.leave hloop rfl (by simp) hbev
  exact { hleave with queue := fun hzero => absurd hzero hflag }

theorem Alive.freeBev (h : n.Alive) (hloop : n.loop = some .freeBev) :
    StreamNode.Alive { n.goTo .ended with bev := none } where
  freed := h.freed
  linked := fun _ => h.linked (by simp [hloop])
  loop := fun pc hpc => by
    obtain rfl := Option.some.inj hpc
    rfl
  playing := fun _ _ => h.playing _ hloop
  task := h.task
  idle := h.idle
  queued := fun hzero _ => h.queued hzero (by simp [hloop, LoopPc.queued])
  asking := fun hx => absurd hx (not_asking (.inl rfl))
  connected := fun hx => absurd rfl hx
  unplayed := h.unplayed
  handedOver := fun _ _ hnone => by cases hnone
  released := h.released
  clients := fun hzero _ => h.clients hzero (by simp [hloop])
  queue := h.queue

theorem Alive.unlink (h : n.Alive) (hloop : n.loop = some .unlink) :
    (n.delNodeFromStreamHashTable.destoryClientList.goTo .free).Alive where
  freed := h.freed
  linked := fun hx => absurd rfl hx
  loop := fun pc hpc => by
    obtain rfl := Option.some.inj hpc
    exact ⟨h.loop _ hloop, rfl, rfl⟩
  playing := fun _ _ => h.playing _ hloop
  task := h.task
  idle := h.idle
  queued := fun hzero _ => h.queued hzero (by simp [hloop, LoopPc.queued])
  asking := fun hx => by
    have hnone := (h.asking hx).2
    rw [hloop] at hnone
    cases hnone
  connected := h.connected
  unplayed := h.unplayed
  handedOver := fun _ _ hnone => by cases hnone
  released := h.released
  clients := fun _ hx => absurd rfl hx
  queue := h.queue

theorem Alive.handOver (h : n.Alive) (hloop : n.loop = some .release) :
    StreamNode.Alive { n.leave with uGetStreamThreadStartFlag := 2 } := by
  obtain ⟨hbev, hflag⟩ := h.loop _ hloop
  exact
    { freed := h.freed
      linked := fun _ => h.linked (by simp [hloop])
      loop := fun _ hpc => by cases hpc
      playing := fun _ hpc => by cases hpc
      task := fun pc hpc => by
        have hknows := h.task pc hpc
        cases pc <;> simp_all [TaskPc.Knows, StreamNode.leave]
      idle := h.idle
      queued := fun hzero => absurd hzero hflag
      asking := fun hx => absurd hx (not_asking (.inl hbev))
      connected := fun hx => absurd hbev hx
      unplayed := fun hplay => absurd (h.playing _ hloop).1 hplay
      handedOver := fun _ _ _ => rfl
      released := fun _ => hflag
      clients := fun hzero => absurd hzero hflag
      queue := h.queue }

theorem Alive.destroy (h : n.Alive) (hloop : n.loop = some .destroy) : n.destroy.leave.Gone where
  freed := congrArg (· + 1) h.freed
  linked := rfl
  bev := (h.loop _ hloop).1
  loop := rfl
  task := (h.loop _ hloop).2
  clients := rfl

theorem Alive.free (h : n.Alive) (hloop : n.loop = some .free) : n.release.leave.Gone where
  freed := congrArg (· + 1) h.freed
  linked := (h.loop _ hloop).2.1
  bev := (h.loop _ hloop).1.1
  loop := rfl
  task := (h.loop _ hloop).1.2
  clients := (h.loop _ hloop).2.2

/-- **A step of a callback** frees a node only if nobody else holds it, unless
`stpool_task_set_p` fails. -/
theorem Alive.loopStep (h : n.Alive) (hloop : n.loop = some pc)
    (hok : pc.startsTask = true → success = true) :
    (n.loopStep success pc).Alive ∨
      (n.loopStep success pc).Gone ∧ n.Sole (.loop success) := by
  have hknows := h.loop pc hloop
  cases pc with
  | clients stPackage =>
    apply Or.inl
    unfold StreamNode.loopStep
    dsimp only
    split
    · exact h.goTo hloop rfl nofun hknows nofun
    · exact h.goTo hloop rfl nofun hknows nofun
  | sendFlag stPackage =>
    apply Or.inl
    unfold StreamNode.loopStep
    dsimp only
    split
    · exact h.goTo hloop rfl nofun hknows nofun
    · exact h.goTo hloop rfl nofun hknows nofun
  | start stPackage =>
    apply Or.inl
    unfold StreamNode.loopStep
    dsimp only
    split
    · rename_i hstart
      have htask : n.task = none := h.queued hstart.1 (by rw [hloop]; rfl)
      exact h.goTo hloop rfl nofun ⟨hknows, htask⟩ nofun
    · exact h.goTo hloop rfl nofun hknows nofun
  | setP stPackage =>
    obtain rfl := hok rfl
    exact .inl (h.goTo hloop rfl nofun hknows nofun)
  | queue stPackage => exact .inl (h.queueTask hloop)
  | started stPackage => exact .inl (h.setStarted hloop)
  | drop stPackage =>
    apply Or.inl
    unfold StreamNode.loopStep
    dsimp only
    split
    · exact h.leave hloop rfl nofun hknows
    · rename_i hdrop
      exact h.goTo hloop rfl nofun ⟨hknows, fun hzero => hdrop (.inl hzero)⟩ nofun
  | length =>
    apply Or.inl
    unfold StreamNode.loopStep
    dsimp only
    split
    · exact h.goTo hloop rfl nofun hknows.1 nofun
    · exact h.goTo hloop rfl nofun hknows nofun
  | push =>
    apply Or.inl
    cases success with
    | false => exact h.leave hloop rfl nofun hknows.1
    | true => exact h.push hloop _
  | freeBev => exact .inl (h.freeBev hloop)
  | ended =>
    apply Or.inl
    unfold StreamNode.loopStep
    dsimp only
    split
    · rename_i hzero
      exact h.goTo hloop rfl nofun ⟨hknows, h.queued hzero (by rw [hloop]; rfl)⟩ nofun
    · rename_i hflag
      exact h.goTo hloop rfl nofun ⟨hknows, hflag⟩ nofun
  | unlink => exact .inl (h.unlink hloop)
  | free => exact .inr ⟨h.free hloop, hknows.1⟩
  | release => exact .inl (h.handOver hloop)
  | errEnded =>
    apply Or.inl
    unfold StreamNode.loopStep
    dsimp only
    split
    · rename_i hzero
      exact h.goTo hloop rfl nofun ⟨hknows, h.queued hzero (by rw [hloop]; rfl)⟩ nofun
    · rename_i hflag
      exact h.goTo hloop rfl nofun ⟨hknows, hflag⟩ nofun
  | destroy => exact .inr ⟨h.destroy hloop, hknows⟩

/-! ## Callbacks and messages -/

theorem Alive.endConnection (h : n.Alive) (hidle : n.loop = none) (hbev : n.bev ≠ none)
    (hpc : pc = .destroy ∧ n.task = none ∨ pc = .errEnded) (failed : Bool) :
    StreamNode.Alive { n with bev := none, failed := failed, loop := some pc } where
  freed := h.freed
  linked := fun _ => h.linked (by simp [hidle])
  loop := fun x hx => by
    obtain rfl := Option.some.inj hx
    rcases hpc with ⟨rfl, htask⟩ | rfl
    · exact ⟨rfl, htask⟩
    · rfl
  playing := fun _ _ => h.connected hbev
  task := h.task
  idle := h.idle
  queued := fun hzero _ => h.queued hzero (by rw [hidle]; rfl)
  asking := fun hx => absurd hx (not_asking (.inl rfl))
  connected := fun hx => absurd rfl hx
  unplayed := h.unplayed
  handedOver := fun _ _ hnone => by cases hnone
  released := h.released
  clients := fun hzero _ => h.clients hzero (by simp [hidle])
  queue := h.queue

theorem Alive.setBev (h : n.Alive) (hidle : n.loop = none)
    (hbev : n.bev = some .connecting ∨ n.bev = some .command) (phase : Phase) {k : Nat}
    (hk : k = n.queueStreamData ∨ k = 0) :
    StreamNode.Alive { n with bev := some phase, queueStreamData := k } where
  freed := h.freed
  linked := h.linked
  loop := fun _ hpc => by
    rw [show _ = n.loop from rfl, hidle] at hpc
    cases hpc
  playing := h.playing
  task := h.task
  idle := h.idle
  queued := h.queued
  asking := fun _ => h.asking hbev
  connected := fun _ => h.connected (by rcases hbev with hbev | hbev <;> simp [hbev])
  unplayed := h.unplayed
  handedOver := fun _ hnone => by cases hnone
  released := h.released
  clients := h.clients
  queue := fun hzero => hk.elim (fun hk => hk.trans (h.queue hzero)) id

theorem Alive.beginPackage (h : n.Alive) (hidle : n.loop = none) (hbev : n.bev = some .stream)
    (stPackage : NetLayer) : (n.goTo (.clients stPackage)).Alive where
  freed := h.freed
  linked := fun _ => h.linked (by simp [hidle])
  loop := fun pc hpc => by
    obtain rfl := Option.some.inj hpc
    exact hbev
  playing := fun _ _ => h.connected (by simp [hbev])
  task := h.task
  idle := h.idle
  queued := fun hzero _ => h.queued hzero (by rw [hidle]; rfl)
  asking := fun hx => absurd hx (not_asking (.inr hbev))
  connected := h.connected
  unplayed := h.unplayed
  handedOver := fun _ _ hnone => by cases hnone
  released := h.released
  clients := fun hzero _ => h.clients hzero (by simp [hidle])
  queue := h.queue

theorem Alive.enter {c : Callback} (h : n.Alive) (hidle : n.loop = none)
    (henter : n.enter c = some n') : n'.Alive := by
  cases c with
  | connectEventCb connected =>
    obtain ⟨hbev, henter⟩ := Option.ite_none_left_eq_some.mp henter
    have hbev : n.bev = some .connecting := not_not.mp hbev
    have htask := (h.asking (.inl hbev)).1
    split at henter
    · obtain rfl := Option.some.inj henter
      exact h.setBev hidle (.inl hbev) .command (.inl rfl)
    · obtain rfl := Option.some.inj henter
      exact h.endConnection hidle (by simp [hbev]) (.inl ⟨rfl, htask⟩) true
  | recvCmdFromHbserver success queueInit =>
    obtain ⟨hbev, henter⟩ := Option.ite_none_left_eq_some.mp henter
    have hbev : n.bev = some .command := not_not.mp hbev
    have htask := (h.asking (.inr hbev)).1
    split at henter
    · split at henter
      · obtain rfl := Option.some.inj henter
        exact h.setBev hidle (.inr hbev) .stream (.inr rfl)
      · obtain rfl := Option.some.inj henter
        exact h.endConnection hidle (by simp [hbev]) (.inl ⟨rfl, htask⟩) n.failed
    · obtain rfl := Option.some.inj henter
      exact h.endConnection hidle (by simp [hbev]) (.inl ⟨rfl, htask⟩) true
  | recvStreamCb stPackage =>
    obtain ⟨hbev, henter⟩ := Option.ite_none_left_eq_some.mp henter
    obtain rfl := Option.some.inj henter
    exact h.beginPackage hidle (by_contra fun hbev' => hbev (.inl hbev')) stPackage
  | recvStreamErrCb =>
    obtain ⟨hbev, henter⟩ := Option.ite_none_left_eq_some.mp henter
    obtain rfl := Option.some.inj henter
    refine h.endConnection hidle (fun hnone => hbev ?_) (.inr rfl) true
    simp [hnone]

theorem Alive.setClients (h : n.Alive) (hfree : n.loop ≠ some .free) {clients : List Client}
    (hclients : n.uRtpClientNodeSendDataThreadFlag = 0 → n.listClientNodeHead ≠ [] → clients ≠ [])
    (late evicted : List Client) :
    StreamNode.Alive
      { n with listClientNodeHead := clients, late := late, evicted := evicted } where
  freed := h.freed
  linked := h.linked
  loop := fun pc hpc => by
    have hknows := h.loop pc hpc
    cases pc with
    | free => exact absurd hpc hfree
    | _ => exact hknows
  playing := h.playing
  task := fun pc hpc => by
    have hknows := h.task pc hpc
    cases pc <;> exact hknows
  idle := h.idle
  queued := h.queued
  asking := h.asking
  connected := h.connected
  unplayed := h.unplayed
  handedOver := h.handedOver
  released := h.released
  clients := fun hzero _ => hclients hzero (h.clients hzero hfree)
  queue := h.queue

theorem Alive.addClient (h : n.Alive) (hidle : n.loop = none) (iUseRtcpFlag : Bool) (id : Nat)
    (m : SipEntry) : (n.addClient iUseRtcpFlag id m).Alive := by
  unfold StreamNode.addClient
  split
  · exact h
  · exact h.setClients (by simp [hidle]) (fun _ _ => by simp) _ _

theorem loop_addClient (iUseRtcpFlag : Bool) (id : Nat) (m : SipEntry) :
    (n.addClient iUseRtcpFlag id m).loop = n.loop := by
  unfold StreamNode.addClient
  split <;> rfl

theorem Alive.playRtspVideoFromHbserver (h : n.Alive) (hidle : n.loop = none) (connect : Bool) :
    (n.playRtspVideoFromHbserver connect).Alive := by
  unfold StreamNode.playRtspVideoFromHbserver
  split
  · exact h
  split
  · rename_i hplay _
    obtain ⟨htask, hflag⟩ := h.unplayed hplay
    exact
      { freed := h.freed
        linked := h.linked
        loop := fun pc hpc => by
          rw [show _ = n.loop from rfl, hidle] at hpc
          cases hpc
        playing := fun pc hpc => ⟨rfl, hflag⟩
        task := fun pc hpc => by
          have hknows := h.task pc hpc
          cases pc <;> exact hknows
        idle := h.idle
        queued := h.queued
        asking := fun _ => ⟨htask, hidle⟩
        connected := fun _ => ⟨rfl, hflag⟩
        unplayed := fun hplay => absurd rfl hplay
        handedOver := fun _ hnone => by cases hnone
        released := h.released
        clients := h.clients
        queue := h.queue }
  · exact h

theorem Alive.setDeleteFlag (h : n.Alive) (hidle : n.loop = none) (id : Nat) :
    (n.setDeleteFlag id).Alive :=
  h.setClients (by simp [hidle]) (fun _ hne => by simpa using hne) _ _

theorem Alive.stop (h : n.Alive) (hidle : n.loop = none) (m : SipEntry) : (n.stop m).Alive := by
  unfold StreamNode.stop
  split
  · exact h
  · exact h.setDeleteFlag hidle _

/-! ## The send task -/

theorem Alive.setTask {pc : TaskPc} (h : n.Alive) (htask : n.task = some pc) (pc' : TaskPc)
    (hpc' : pc'.Knows n) {k : Nat} (hk : n.queueStreamData = 0 → k = 0) :
    StreamNode.Alive { n with task := some pc', queueStreamData := k } where
  freed := h.freed
  linked := h.linked
  loop := fun x hx => by
    have hknows := h.loop x hx
    cases x <;> simp_all [LoopPc.Knows]
  playing := h.playing
  task := fun x hx => by
    obtain rfl := Option.some.inj hx
    cases pc' <;> exact hpc'
  idle := fun hnone => by cases hnone
  queued := fun hzero hqueued => by
    have hnone := h.queued hzero hqueued
    rw [htask] at hnone
    cases hnone
  asking := fun hx => by
    have hnone := (h.asking hx).1
    rw [htask] at hnone
    cases hnone
  connected := h.connected
  unplayed := fun hx => by
    have hnone := (h.unplayed hx).1
    rw [htask] at hnone
    cases hnone
  handedOver := h.handedOver
  released := h.released
  clients := h.clients
  queue := fun hzero => hk (h.queue hzero)

theorem Alive.exitTask (h : n.Alive) (htask : n.task = some .exit) :
    StreamNode.Alive { n with uRtpClientNodeSendDataThreadFlag := 2, task := some .leave } := by
  have hflag := (h.task _ htask).1
  exact
    { freed := h.freed
      linked := h.linked
      loop := fun x hx => by
        have hknows := h.loop x hx
        cases x <;> simp_all [LoopPc.Knows]
      playing := h.playing
      task := fun x hx => by
        obtain rfl := Option.some.inj hx
        exact ⟨nofun, .inr rfl⟩
      idle := fun hnone => by cases hnone
      queued := fun hzero => by cases hzero
      asking := fun hx => by
        have hnone := (h.asking hx).1
        rw [htask] at hnone
        cases hnone
      connected := h.connected
      unplayed := fun hx => by
        have hnone := (h.unplayed hx).1
        rw [htask] at hnone
        cases hnone
      handedOver := h.handedOver
      released := fun _ => nofun
      clients := fun hzero => by cases hzero
      queue := fun hzero => by cases hzero }

theorem Alive.alone (h : n.Alive) (htask : n.task = some .clean) :
    n.bev = none ∧ n.loop = none := by
  obtain ⟨-, hreleased⟩ := h.task _ htask
  constructor
  · by_contra hbev
    exact (h.connected hbev).2 hreleased
  · cases hloop : n.loop with
    | none => rfl
    | some pc => exact absurd hreleased (h.playing pc hloop).2

theorem Alive.clean (h : n.Alive) (htask : n.task = some .clean) :
    StreamNode.Gone { n.destroy with task := none } where
  freed := congrArg (· + 1) h.freed
  linked := rfl
  bev := (h.alone htask).1
  loop := (h.alone htask).2
  task := rfl
  clients := rfl

/-- **A step of the send task** frees a node only if nobody else holds it. -/
theorem Alive.sendRtpToClientTask {pc : TaskPc} (h : n.Alive) (htask : n.task = some pc) :
    (n.sendRtpToClientTask pc).Alive ∨ (n.sendRtpToClientTask pc).Gone ∧ n.Sole .task := by
  have hknows := h.task pc htask
  cases pc with
  | top =>
    apply Or.inl
    unfold StreamNode.sendRtpToClientTask
    dsimp only
    split
    · rename_i hreleased
      exact h.setTask htask .leave ⟨h.released hreleased, .inl hreleased⟩ id
    · exact h.setTask htask .clients hknows id
  | clients =>
    apply Or.inl
    unfold StreamNode.sendRtpToClientTask
    dsimp only
    split
    · rename_i hempty
      have hflag : n.uRtpClientNodeSendDataThreadFlag ≠ 0 := fun hzero => by
        refine h.clients hzero (fun hfree => ?_) hempty
        have hnone := (h.loop _ hfree).1.2
        rw [htask] at hnone
        cases hnone
      exact h.setTask htask .exit ⟨hflag, hknows⟩ id
    · exact h.setTask htask .length hknows id
  | exit => exact .inl (h.exitTask htask)
  | length =>
    apply Or.inl
    unfold StreamNode.sendRtpToClientTask
    dsimp only
    split
    · rename_i hlength
      have hflag : n.uRtpClientNodeSendDataThreadFlag ≠ 0 := fun hzero => by
        rw [h.queue hzero] at hlength
        omega
      exact h.setTask htask .pop ⟨hflag, hknows⟩ id
    · exact h.setTask htask .top hknows id
  | pop => exact .inl (h.setTask htask .send hknows fun hzero => by omega)
  | send => exact .inl (h.setTask htask .top hknows.2 id)
  | leave =>
    apply Or.inl
    unfold StreamNode.sendRtpToClientTask
    dsimp only
    split
    · rename_i hflag
      exact h.setTask htask .wait hflag id
    · rename_i hflag
      exact h.setTask htask .clean ⟨hknows.1, hknows.2.resolve_right hflag⟩ id
  | wait =>
    apply Or.inl
    unfold StreamNode.sendRtpToClientTask
    dsimp only
    split
    · rename_i hreleased
      exact h.setTask htask .clean ⟨h.released hreleased, hreleased⟩ id
    · exact h
  | clean => exact .inr ⟨h.clean htask, h.alone htask⟩

theorem Alive.delOneClientNode (h : n.Alive) (htask : n.task = some .send)
    (pClientNode : Client) : (n.delOneClientNode pClientNode).Alive := by
  have hflag := (h.task _ htask).1
  refine h.setClients (fun hfree => ?_) (fun hzero => absurd hzero hflag) _ _
  have hnone := (h.loop _ hfree).1.2
  rw [htask] at hnone
  cases hnone

/-! ## Every step -/

theorem Alive.act {id : Nat} {a : Act} (h : n.Alive) (hok : n.taskStarts a = true)
    (hidle : a.begins = true → n.loop = none) (hact : n.act id a = some n') :
    n'.Alive ∨ n'.Gone ∧ n.Sole a := by
  cases a with
  | play iUseRtcpFlag m connect =>
    obtain ⟨-, heq⟩ := Option.ite_none_right_eq_some.mp hact
    obtain rfl := Option.some.inj heq
    have hadd := h.addClient (hidle rfl) iUseRtcpFlag id m
    exact .inl (hadd.playRtspVideoFromHbserver ((loop_addClient ..).trans (hidle rfl)) connect)
  | stop m =>
    obtain ⟨-, heq⟩ := Option.ite_none_right_eq_some.mp hact
    obtain rfl := Option.some.inj heq
    exact .inl (h.stop (hidle rfl) m)
  | timeout pClientNode =>
    obtain ⟨-, heq⟩ := Option.ite_none_right_eq_some.mp hact
    obtain rfl := Option.some.inj heq
    exact .inl (h.setDeleteFlag (hidle rfl) _)
  | callback c => exact .inl (h.enter (hidle rfl) hact)
  | loop success =>
    obtain ⟨pc, hloop, rfl⟩ := Option.map_eq_some_iff.mp hact
    refine h.loopStep hloop fun hstarts => ?_
    simpa [taskStarts, hloop, hstarts] using hok
  | task =>
    obtain ⟨pc, htask, rfl⟩ := Option.map_eq_some_iff.mp hact
    exact h.sendRtpToClientTask htask
  | delClient pClientNode =>
    obtain ⟨⟨htask, -⟩, heq⟩ := Option.ite_none_right_eq_some.mp hact
    obtain rfl := Option.some.inj heq
    exact .inl (h.delOneClientNode htask pClientNode)

theorem Gone.act (h : n.Gone) (id : Nat) (a : Act) : n.act id a = none := by
  cases a with
  | callback c => cases c <;> simp [StreamNode.act, StreamNode.enter, h.bev]
  | _ => simp [StreamNode.act, h.linked, h.clients, h.loop, h.task]

theorem alive_play (iUseRtcpFlag : Bool) (id : Nat) (m : SipEntry) (connect : Bool) :
    (({ key := m.toSipNode.key } : StreamNode).play iUseRtcpFlag id m connect).Alive := by
  have hadd : (({ key := m.toSipNode.key } : StreamNode).addClient iUseRtcpFlag id m).Alive :=
    { freed := rfl
      linked := fun _ => rfl
      loop := nofun
      playing := nofun
      task := nofun
      idle := fun _ => rfl
      queued := fun _ _ => rfl
      asking := fun _ => ⟨rfl, rfl⟩
      connected := fun hbev => absurd rfl hbev
      unplayed := fun _ => ⟨rfl, nofun⟩
      handedOver := nofun
      released := nofun
      clients := fun _ _ => nofun
      queue := fun _ => rfl }
  exact hadd.playRtspVideoFromHbserver rfl connect

end StreamNode

/-! ## Runs -/

/-- No node is freed twice, and nothing refers to one that is freed. -/
structure State.Safe (s : State) : Prop where
  once : ∀ n ∈ s.nodes, n.freed ≤ 1
  linked : ∀ n ∈ s.nodes, n.freed ≠ 0 → n.linked = false
  bev : ∀ n ∈ s.nodes, n.freed ≠ 0 → n.bev = none
  loop : ∀ n ∈ s.nodes, n.freed ≠ 0 → n.loop = none
  task : ∀ n ∈ s.nodes, n.freed ≠ 0 → n.task = none

/-- Where an event frees a node, the party that does it is the only one that holds it, and
nobody can do anything with it any more. -/
def FreesAlone (s : State) (e : Event) (s' : State) : Prop :=
  ∀ i n n', s.nodes[i]? = some n → s'.nodes[i]? = some n' → n.freed < n'.freed →
    (∃ a, e = .act i a ∧ n.Sole a) ∧ ∀ a, s'.exec (.act i a) = none

variable {s s' : State} {e : Event}

theorem sound_reachable_of_starts
    (hs : system.ReachableWith (fun s e => s.allows StreamNode.taskStarts e = true) s) :
    ∀ n ∈ s.nodes, n.Alive ∨ n.Gone := by
  refine forall_reachable (fun _ _ _ _ => .inl (StreamNode.alive_play ..)) ?_ hs
  rintro n id a n' (halive | hgone) hok hidle hact
  · exact (halive.act hok hidle hact).imp_right And.left
  · rw [hgone.act] at hact
    cases hact

theorem safe_of_forall (hall : ∀ n ∈ s.nodes, n.Alive ∨ n.Gone) : s.Safe where
  once := fun n hn => by
    rcases hall n hn with h | h
    · exact h.freed.le.trans zero_le_one
    · exact h.freed.le
  linked := fun n hn hfreed => ((hall n hn).resolve_left fun h => hfreed h.freed).linked
  bev := fun n hn hfreed => ((hall n hn).resolve_left fun h => hfreed h.freed).bev
  loop := fun n hn hfreed => ((hall n hn).resolve_left fun h => hfreed h.freed).loop
  task := fun n hn hfreed => ((hall n hn).resolve_left fun h => hfreed h.freed).task

theorem exec_act_of_gone {i : Nat} {n : StreamNode} (hn : s.nodes[i]? = some n) (hgone : n.Gone)
    (a : StreamNode.Act) : s.exec (.act i a) = none := by
  simp [State.exec, hn, hgone.act]

theorem freesAlone_of_allows (hall : ∀ n ∈ s.nodes, n.Alive ∨ n.Gone)
    (hok : s.allows StreamNode.taskStarts e = true) (hexec : s.exec e = some s') :
    FreesAlone s e s' := by
  intro i n n' hn hn' hfreed
  rcases exec_cases hexec with ⟨iUseRtcpFlag, m, connect, rfl, hnodes⟩ | ⟨j, a, x, x', rfl, h⟩
  · rw [hnodes, List.getElem?_append_left (List.getElem?_eq_some_iff.mp hn).1, hn] at hn'
    obtain rfl := Option.some.inj hn'
    exact absurd hfreed (Nat.lt_irrefl _)
  · by_cases hij : j = i
    · subst hij
      obtain rfl : x = n := Option.some.inj (h.node.symm.trans hn)
      have hset : s'.nodes[j]? = some x' := by
        rw [h.nodes, List.getElem?_set_self (List.getElem?_eq_some_iff.mp hn).1]
      obtain rfl : x' = n' := Option.some.inj (hset.symm.trans hn')
      have hok : x.taskStarts a = true := by simpa [State.allows, hn] using hok
      rcases hall x (List.mem_of_getElem? hn) with halive | hgone
      · rcases halive.act hok h.idle h.act with halive' | ⟨hgone', hsole⟩
        · rw [halive'.freed] at hfreed
          exact absurd hfreed (Nat.not_lt_zero _)
        · exact ⟨⟨a, rfl, hsole⟩, exec_act_of_gone hn' hgone'⟩
      · have hact := h.act
        rw [hgone.act] at hact
        cases hact
    · rw [h.nodes, List.getElem?_set_ne hij, hn] at hn'
      obtain rfl := Option.some.inj hn'
      exact absurd hfreed (Nat.lt_irrefl _)

theorem allows_of_safe (hall : ∀ n ∈ s.nodes, n.Alive ∨ n.Gone) (hexec : s.exec e = some s')
    (hsafe : s'.Safe) : s.allows StreamNode.taskStarts e = true := by
  rcases exec_cases hexec with ⟨iUseRtcpFlag, m, connect, rfl, hnodes⟩ | ⟨i, a, n, n', rfl, h⟩
  · rfl
  · have hn' : n' ∈ s'.nodes := by
      rw [h.nodes]
      exact List.mem_set (List.getElem?_eq_some_iff.mp h.node).1 n'
    by_contra hfails
    have hfails : n.taskStarts a = false := by simpa [State.allows, h.node] using hfails
    cases a with
    | loop success =>
      obtain ⟨pc, hloop, hstep⟩ := Option.map_eq_some_iff.mp h.act
      cases pc with
      | setP stPackage =>
        obtain rfl : success = false := by
          simpa [StreamNode.taskStarts, hloop, LoopPc.startsTask] using hfails
        have halive : n.Alive := by
          refine (hall n (List.mem_of_getElem? h.node)).resolve_right fun hgone => ?_
          rw [hgone.loop] at hloop
          cases hloop
        subst hstep
        have hunlinked := hsafe.linked _ hn' (Nat.succ_ne_zero _)
        change n.linked = false at hunlinked
        rw [halive.linked (by simp [hloop])] at hunlinked
        cases hunlinked
      | _ => simp [StreamNode.taskStarts, hloop, LoopPc.startsTask] at hfails
    | _ => cases hfails

/-- **The life of a node is safe** in every run in which the send task can be started whenever
the event loop wants to; a step of such a run is safe just if it can be started there. -/
theorem safe_reachable
    (hs : system.ReachableWith (fun s e => s.allows StreamNode.taskStarts e = true) s) :
    s.Safe ∧ ∀ e s', s.exec e = some s' →
      (FreesAlone s e s' ∧ s'.Safe ↔ s.allows StreamNode.taskStarts e = true) := by
  have hall := sound_reachable_of_starts hs
  refine ⟨safe_of_forall hall, fun e s' hexec => ⟨fun h => ?_, fun hok => ?_⟩⟩
  · exact allows_of_safe hall hexec h.2
  · have hs' := System.ReachableWith.step hs hok hexec
    exact ⟨freesAlone_of_allows hall hok hexec,
      safe_of_forall (sound_reachable_of_starts hs')⟩

/-! ## Two runs -/

def framePackage (byFrameType : UInt8) : NetLayer where
  iActLength := 29
  byProtocolType := 0
  byProtocolVer := 9
  byDataType := 13
  byFrameType := byFrameType
  iTimeStampHigh := 0
  iTimeStampLow := 0
  iVodFilePercent := 0
  iVodCurFrameNo := 0
  byBlockHeadFlag := 1
  byBlockEndFlag := 1
  byReserved1 := 0
  byReserved2 := 0

/-- Steps of the event loop in a callback of the first node. -/
def goOn (k : Nat) : List Event := List.replicate k (.act 0 (.loop true))

/-- A first client, a connection and an I frame, up to `stpool_task_set_p`. -/
def untilSetP : List Event :=
  [.create false (playMessage 0x61 1) true, .act 0 (.callback (.connectEventCb true)),
      .act 0 (.callback (.recvCmdFromHbserver true true)),
      .act 0 (.callback (.recvStreamCb (framePackage 1)))] ++
    goOn 3

theorem reachable_of_runWith {ok : State → Event → Bool} {es : List Event}
    (hrun : runWith State.exec ok {} es = some s) :
    system.ReachableWith (fun s e => ok s e = true) s :=
  System.ReachableWith.runWith (fun _ _ _ => id) (.init rfl) hrun

/-- A run to the end of the connection, after which the send task frees the node. -/
theorem safe_reachable_freed :
    ∃ s,
      runWith State.exec (State.allows StreamNode.taskStarts) {}
          (untilSetP ++ goOn 6 ++ [.act 0 (.callback .recvStreamErrCb)] ++ goOn 2 ++
            List.replicate 3 (.act 0 .task)) =
        some s ∧
      (∀ n ∈ s.nodes, n.freed = 1) ∧ s.Safe := by
  have hrun :
      (runWith State.exec (State.allows StreamNode.taskStarts) {}
          (untilSetP ++ goOn 6 ++ [.act 0 (.callback .recvStreamErrCb)] ++ goOn 2 ++
            List.replicate 3 (.act 0 .task))).any
        (fun s => decide (∀ n ∈ s.nodes, n.freed = 1)) = true := by
    decide +kernel
  obtain ⟨s, hs, hfreed⟩ := (Option.any_eq_true _ _).mp hrun
  exact ⟨s, hs, of_decide_eq_true hfreed, (safe_reachable (reachable_of_runWith hs)).1⟩

/-- Where `stpool_task_set_p` fails, a node is freed that is in its bucket and has a live
bufferevent. -/
theorem safe_setPFails :
    ∃ s, system.Reachable s ∧ ¬s.Safe ∧
      ∃ n ∈ s.nodes, n.freed = 1 ∧ n.linked = true ∧ n.bev = some .stream := by
  have hrun :
      (runWith State.exec (fun _ _ => true) {} (untilSetP ++ [.act 0 (.loop false)])).any
        (fun s =>
          decide (∃ n ∈ s.nodes, n.freed = 1 ∧ n.linked = true ∧ n.bev = some .stream)) =
        true := by
    decide +kernel
  obtain ⟨s, hs, hfreed⟩ := (Option.any_eq_true _ _).mp hrun
  obtain ⟨n, hn, hfreed, hlinked, hbev⟩ := of_decide_eq_true hfreed
  refine ⟨s, (reachable_of_runWith hs).reachable, fun hsafe => ?_, n, hn, hfreed, hlinked, hbev⟩
  rw [hsafe.linked n hn (by simp [hfreed])] at hlinked
  cases hlinked

end GbStream.Lifetime
