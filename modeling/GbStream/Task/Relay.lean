import GbStream.Recv.Reassembly
import GbStream.Task.SendTask

/-!
# A stream between its source and its viewers

The receive callback of a stream fills the queue and its send task empties it, while calls join.
A `Schedule` says which packets the callbacks take and which records the task pops, from the
packets of the source and the sizes of the pieces alone; every step keeps to it.
-/

namespace GbStream.Task

open Ps Rtp Recv

/-- A stream: the side of the source, whose queue keeps all records, how many of them have been
popped, and the send task. -/
structure Relay where
  receiver : Receiver
  popped : Nat := 0
  task : SendTask

namespace Relay

/-- The stream node before its first call. -/
def start (u32Ssrc : UInt32) (receiver : Receiver) : Relay where
  receiver := receiver
  task := { pStreamNode := streamNodeInit u32Ssrc }

/-- `nolock_queue_len`. -/
def backlog (relay : Relay) : Nat := relay.receiver.queueStreamData.length - relay.popped

/-- The records that have been popped. -/
def played (relay : Relay) : List QueueArgs := relay.receiver.queueStreamData.take relay.popped

def clients (relay : Relay) : List ClientNode := relay.task.pStreamNode.listClientNodeHead

def packets (relay : Relay) : List RtpPacket := relay.task.pStreamNode.packets

inductive Event
  /-- Bytes of the source come, and its callback runs: whether `stpool_task_set_p` fails, and the
  two lengths of the queue that the callback finds. -/
  | arrive (iError : Bool) (rLen wLen : Int) (bytes : List UInt8)
  /-- `PLAY` of a call. -/
  | join
  /-- A round of the send task. -/
  | round

def surroundings (relay : Relay) (iError : Bool) (rLen wLen : Int) : Surroundings :=
  { listSize := relay.clients.length, iError, rLen, wLen }

/-- A round of the send task, which has been started with the first key frame.  Fifteen records
are left in the queue. -/
def round (relay : Relay) : Option Relay :=
  if relay.receiver.uRtpClientNodeSendDataThreadFlag ≠ 1 then some relay
  else if relay.clients.length = 0 then
    some { relay with receiver := { relay.receiver with uRtpClientNodeSendDataThreadFlag := 2 } }
  else if relay.backlog > 15 then
    match relay.receiver.queueStreamData[relay.popped]? with
    | none => some relay
    | some stQueueOut =>
        (relay.task.sendRecord stQueueOut).map fun task =>
          { relay with task, popped := relay.popped + 1 }
  else some relay

def step (relay : Relay) : Event → Option Relay
  | .arrive iError rLen wLen bytes =>
      match receive (relay.surroundings iError rLen wLen) bytes relay.receiver with
      | .returned receiver => some { relay with receiver }
      | _ => none
  | .join =>
      some
        { relay with
          task := { relay.task with pStreamNode := listAppendClient relay.task.pStreamNode } }
  | .round => relay.round

def run (relay : Relay) (events : List Event) : Option Relay := events.foldlM step relay

/-- The bytes that have come. -/
def arrived : List Event → List UInt8
  | [] => []
  | .arrive _ _ _ bytes :: events => bytes ++ arrived events
  | .join :: events | .round :: events => arrived events

/-- A run in terms of the packets of the source: what the callbacks have taken of them, and how
many records have been popped. -/
structure Schedule where
  source : Course
  popped : Nat := 0

/-- The records of the media frames that have come as a whole. -/
def Schedule.records (schedule : Schedule) : List QueueArgs :=
  (mediaFrames (framesOf schedule.source.taken)).map Frame.record

/-- The records that have been popped. -/
def Schedule.played (schedule : Schedule) : List QueueArgs :=
  schedule.records.take schedule.popped

/-- A round pops a record when more than fifteen are in the queue. -/
def Schedule.step (schedule : Schedule) : Event → Schedule
  | .arrive _ _ _ bytes => { schedule with source := schedule.source.receive bytes.length }
  | .join => schedule
  | .round =>
      if schedule.popped + 15 < schedule.records.length then
        { schedule with popped := schedule.popped + 1 }
      else schedule

def scheduleOf (all : List Packet) (events : List Event) : Schedule :=
  events.foldl Schedule.step { source := { left := all } }

/-- The task can be started, and the queue has room. -/
def Event.Kept : Event → Prop
  | .arrive iError rLen wLen _ => iError = false ∧ rLen < 512 ∧ wLen < 512
  | .join | .round => True

end Relay

/-- A frame of the source that `pPsData` has room for, if it is a video frame. -/
def Sized (f : Frame) : Prop :=
  (f.last.header.byFrameType = 1 → f.payload.length ≤ 705049) ∧
    (f.last.header.byFrameType = 0 → f.payload.length ≤ 705097)

theorem Sized.sendable {f : Frame} (h : Sized f) : Sendable f.record where
  preBufSize := by
    show ((f.payload.length : Int).tdiv 1400 + 1) * 20 + 1400 = _
    rw [Int.tdiv_eq_ediv_of_nonneg (Int.natCast_nonneg _)]
    rfl
  cmdLength := rfl
  fits := by
    intro frameType htype
    have hrecord : psFrameType (frameDataType f.last.header.byFrameType) = some frameType := htype
    show f.payload.length ≤ maxDataLength frameType
    rw [frameDataType] at hrecord
    split at hrecord
    · rename_i hP
      cases hrecord
      exact h.2 hP
    · split at hrecord
      · rename_i hI
        cases hrecord
        exact h.1 hI
      · split at hrecord <;> cases hrecord

/-! ## Runs of frames -/

/-- Runs of packets that carry a run of frames, the first of them number `seq` of its stream. -/
def CarriesAll (ssrc : UInt32) : Nat → List Picture → List (List RtpPacket) → Prop
  | _, [], [] => True
  | seq, picture :: pictures, packets :: groups =>
      Carries ssrc seq picture packets ∧ CarriesAll ssrc (seq + packets.length) pictures groups
  | _, _, _ => False

section CarriesAll

variable {ssrc : UInt32} {groups groups' : List (List RtpPacket)}

theorem CarriesAll.append (seen : List Picture) {seen' : List Picture} :
    ∀ {seq : Nat} {groups : List (List RtpPacket)}, CarriesAll ssrc seq seen groups →
      CarriesAll ssrc (seq + groups.flatten.length) seen' groups' →
      CarriesAll ssrc seq (seen ++ seen') (groups ++ groups') := by
  induction seen with
  | nil =>
      intro seq groups h h'
      cases groups with
      | nil => exact h'
      | cons packets groups => exact h.elim
  | cons picture seen ih =>
      intro seq groups h h'
      cases groups with
      | nil => exact h.elim
      | cons packets groups =>
          refine ⟨h.1, ih h.2 ?_⟩
          rwa [Nat.add_assoc, ← List.length_append]

/-- **A run of frames is read back.** -/
theorem CarriesAll.watch (seen : List Picture) :
    ∀ {seq : Nat} {groups : List (List RtpPacket)}, CarriesAll ssrc seq seen groups →
      Task.watch ssrc seq (groups.flatten.map RtpPacket.bytes) = some seen := by
  induction seen with
  | nil =>
      intro seq groups h
      cases groups with
      | nil => rfl
      | cons packets groups => exact h.elim
  | cons picture seen ih =>
      intro seq groups h
      cases groups with
      | nil => exact h.elim
      | cons packets groups =>
          rw [List.flatten_cons, List.map_append, h.1.read, ih h.2]
          rfl

/-- **What a new client is sent**: nothing before the first key frame, and everything from its
second packet on. -/
theorem CarriesAll.sent_offers (seen : List Picture) :
    ∀ {seq : Nat} {groups : List (List RtpPacket)}, CarriesAll ssrc seq seen groups →
      let fromKey := seen.dropWhile fun picture => picture.frameType ≠ .frameI
      let sent := (({} : ClientNode).offers groups.flatten).sent
      (fromKey = [] → sent = []) ∧
        (fromKey ≠ [] → ∃ k, sent = groups.flatten.drop (k + 1) ∧
          Task.watch ssrc (seq + k) ((groups.flatten.drop k).map RtpPacket.bytes) =
            some fromKey) := by
  induction seen with
  | nil =>
      intro seq groups h
      cases groups with
      | nil => exact ⟨fun _ => rfl, fun hne => absurd rfl hne⟩
      | cons packets groups => exact h.elim
  | cons picture seen ih =>
      intro seq groups h
      cases groups with
      | nil => exact h.elim
      | cons packets groups =>
          have hwhole := CarriesAll.watch (picture :: seen) h
          obtain ⟨hfirst, hrest⟩ := h
          obtain ⟨hnone, hsome⟩ := ih hrest
          simp only [ClientNode.sent_offers] at hnone hsome ⊢
          by_cases hkey : picture.frameType = .frameI
          · -- the packets of the key frame are those that the gate is opened for
            rw [List.dropWhile_cons_of_neg (by simp [hkey])]
            refine ⟨nofun, fun _ => ⟨0, ?_, hwhole⟩⟩
            obtain ⟨packet, packets', rfl⟩ := List.exists_cons_of_ne_nil hfirst.ne_nil
            have htype := hfirst.frameType packet (List.mem_cons_self ..)
            rw [frameTypeArg, if_pos hkey] at htype
            rw [List.flatten_cons, List.cons_append,
              List.dropWhile_cons_of_neg (by simp [htype])]
            rfl
          · -- the packets of another frame are passed over
            rw [List.dropWhile_cons_of_pos (by simp [hkey])]
            have hskip : ((packets :: groups).flatten.dropWhile
                fun packet => packet.frameType ≠ 1) =
                groups.flatten.dropWhile fun packet => packet.frameType ≠ 1 := by
              rw [List.flatten_cons]
              refine List.dropWhile_append_of_pos fun packet hpacket => ?_
              rw [hfirst.frameType packet hpacket, frameTypeArg, if_neg hkey]
              rfl
            rw [hskip]
            refine ⟨hnone, fun hne => ?_⟩
            obtain ⟨k, hsent, hread⟩ := hsome hne
            refine ⟨packets.length + k, ?_, ?_⟩
            · rw [hsent, List.flatten_cons, Nat.add_assoc, List.drop_length_add_append]
            · rw [← Nat.add_assoc, List.flatten_cons, List.drop_length_add_append]
              exact hread

end CarriesAll

/-! ## Steps -/

namespace Relay

/-- A state of a run that goes by `schedule`.  The last fifteen records are still in the queue. -/
structure Good (ssrc : UInt32) (schedule : Schedule) (relay : Relay) : Prop where
  follows : schedule.source.Follows relay.receiver
  ready : relay.task.Ready ssrc
  popped : relay.popped = schedule.popped
  kept : relay.popped ≤ relay.receiver.queueStreamData.length - 15

/-- From one state to a later one: `records` have been popped, and `groups` are the packets of the
video frames among them. -/
structure Progress (ssrc : UInt32) (relay : Relay) (records : List QueueArgs)
    (groups : List (List RtpPacket)) (relay' : Relay) : Prop where
  played : relay'.played = relay.played ++ records
  clock : relay'.task.clock =
    records.foldl (fun c record => c.tick record.stCmdHead.vPts) relay.task.clock
  packets : relay'.packets = relay.packets ++ groups.flatten
  carries : CarriesAll ssrc relay.packets.length (pictures relay.task.clock records) groups
  clients : ∃ joined, relay'.clients = relay.clients.map (·.offers groups.flatten) ++ joined

section Progress

variable {ssrc : UInt32} {relay relay' relay'' : Relay} {records records' : List QueueArgs}
  {groups groups' : List (List RtpPacket)}

theorem Progress.trans (h : Progress ssrc relay records groups relay')
    (h' : Progress ssrc relay' records' groups' relay'') :
    Progress ssrc relay (records ++ records') (groups ++ groups') relay'' where
  played := by rw [h'.played, h.played, List.append_assoc]
  clock := by rw [h'.clock, h.clock, List.foldl_append]
  packets := by rw [h'.packets, h.packets, List.flatten_append, List.append_assoc]
  carries := by
    rw [pictures_append]
    refine h.carries.append _ ?_
    rw [← List.length_append, ← h.packets, ← h.clock]
    exact h'.carries
  clients := by
    obtain ⟨joined, hclients⟩ := h.clients
    obtain ⟨joined', hclients'⟩ := h'.clients
    refine ⟨joined.map (·.offers groups'.flatten) ++ joined', ?_⟩
    rw [hclients', hclients, List.map_append, List.map_map, List.flatten_append, List.append_assoc]
    simp only [Function.comp_def, ClientNode.offers_append]

theorem Progress.clients_ne_nil (h : Progress ssrc relay records groups relay')
    (hclients : relay.clients ≠ []) : relay'.clients ≠ [] := by
  obtain ⟨joined, heq⟩ := h.clients
  rw [heq]
  exact List.append_ne_nil_of_left_ne_nil (by simpa using hclients) _

theorem Progress.of_waiting (hplayed : relay'.played = relay.played)
    (htask : relay'.task.clock = relay.task.clock) (hpackets : relay'.packets = relay.packets)
    {joined : List ClientNode} (hclients : relay'.clients = relay.clients ++ joined) :
    Progress ssrc relay [] [] relay' where
  played := by rw [hplayed, List.append_nil]
  clock := htask
  packets := by rw [hpackets, List.flatten_nil, List.append_nil]
  carries := trivial
  clients := by
    refine ⟨joined, ?_⟩
    simpa using hclients

end Progress

/-- The packets of a source whose frames fit into the buffers on their way. -/
structure Source (all : List Packet) : Prop where
  fits : Fits all
  sized : ∀ f ∈ mediaFrames (framesOf all), Sized f

variable {ssrc : UInt32} {relay : Relay} {schedule : Schedule}

theorem Good.start {receiver : Receiver} (hfresh : receiver.Fresh) (all : List Packet) :
    Good ssrc { source := { left := all } } (start ssrc receiver) where
  follows := hfresh.follows all
  ready := {
    size := List.length_replicate
    idle := streamNodeInit_idle ssrc
    seqNo := rfl }
  popped := rfl
  kept := Nat.zero_le _

theorem Good.queue (h : Good ssrc schedule relay) :
    relay.receiver.queueStreamData = schedule.records :=
  h.follows.received.queue

theorem Good.played (h : Good ssrc schedule relay) : relay.played = schedule.played := by
  rw [Relay.played, h.queue, h.popped]
  rfl

theorem Good.sendable (h : Good ssrc schedule relay)
    (hsource : Source (schedule.source.taken ++ schedule.source.left)) :
    ∀ record ∈ relay.receiver.queueStreamData, Sendable record := by
  intro record hrecord
  rw [h.queue, Schedule.records, List.mem_map] at hrecord
  obtain ⟨f, hf, rfl⟩ := hrecord
  have hall := mediaFrames_prefix schedule.source.taken schedule.source.left
  exact (hsource.sized f (hall.subset hf)).sendable

/-- **Bytes come.** -/
theorem Good.arrive (h : Good ssrc schedule relay)
    (hsource : Source (schedule.source.taken ++ schedule.source.left))
    (hclients : relay.clients ≠ []) {rLen wLen : Int} (hrLen : rLen < 512) (hwLen : wLen < 512)
    {bytes : List UInt8} (hstream : relay.receiver.input ++ bytes <+: wire schedule.source.left) :
    let event := Event.arrive false rLen wLen bytes
    ∃ relay' taken, relay.step event = some relay' ∧
      (schedule.step event).source.taken = schedule.source.taken ++ taken ∧
      schedule.source.left = taken ++ (schedule.step event).source.left ∧
      relay.receiver.input ++ bytes = wire taken ++ relay'.receiver.input ∧
      Good ssrc (schedule.step event) relay' ∧ Progress ssrc relay [] [] relay' := by
  intro event
  have hkept : (relay.surroundings false rLen wLen).Kept := {
    clients := fun hzero => hclients (List.length_eq_zero_iff.mp hzero)
    task := rfl
    len := hrLen
    room := hwLen }
  obtain ⟨taken, receiver, hreceive, htaken, hleft, hinput, hfollows⟩ :=
    h.follows.receive hkept hsource.fits hstream
  have hqueue : relay.receiver.queueStreamData <+: receiver.queueStreamData := by
    rw [h.follows.received.queue, hfollows.received.queue, htaken]
    have hgrown := mediaFrames_prefix schedule.source.taken taken
    exact hgrown.map _
  refine ⟨{ relay with receiver }, taken, ?_, htaken, hleft, hinput,
    ⟨hfollows, h.ready, h.popped, h.kept.trans (Nat.sub_le_sub_right hqueue.length_le 15)⟩, ?_⟩
  · rw [step, hreceive]
  · refine .of_waiting ?_ rfl rfl (List.append_nil _).symm
    obtain ⟨records, hrecords⟩ := hqueue
    show receiver.queueStreamData.take relay.popped = relay.played
    rw [← hrecords, List.take_append_of_le_length (h.kept.trans (Nat.sub_le _ _))]
    rfl

/-- **A record is popped** and sent, if it is a video frame. -/
theorem Good.pop (h : Good ssrc schedule relay) (hbacklog : relay.backlog > 15)
    {record : QueueArgs}
    (hrecord : relay.receiver.queueStreamData[relay.popped]? = some record)
    (hsend : Sendable record) :
    ∃ task groups, relay.task.sendRecord record = some task ∧
      Good ssrc { schedule with popped := schedule.popped + 1 }
        { relay with task, popped := relay.popped + 1 } ∧
      Progress ssrc relay [record] groups { relay with task, popped := relay.popped + 1 } := by
  have hcount : relay.popped + 1 = schedule.popped + 1 := by rw [h.popped]
  have hkept : relay.popped + 1 ≤ relay.receiver.queueStreamData.length - 15 := by
    unfold backlog at hbacklog
    omega
  have hplayed : relay.receiver.queueStreamData.take (relay.popped + 1) =
      relay.played ++ [record] := by
    rw [List.take_add_one, hrecord]
    rfl
  cases htype : psFrameType record.stCmdHead.dataType with
  | none =>
      refine ⟨_, [], SendTask.sendRecord_other htype, ⟨h.follows, ?_, hcount, hkept⟩, ?_⟩
      · exact { h.ready with }
      · exact {
          played := hplayed
          clock := rfl
          packets := by
            rw [List.flatten_nil, List.append_nil]
            rfl
          carries := by
            rw [pictures, htype]
            trivial
          clients := by
            refine ⟨[], ?_⟩
            simp [clients] }
  | some frameType =>
      obtain ⟨task, packets, hsent, hready, hclock, hpackets, hclients, hcarries⟩ :=
        h.ready.sendRecord hsend htype
      refine ⟨task, [packets], hsent, ⟨h.follows, hready, hcount, hkept⟩, ?_⟩
      exact {
        played := hplayed
        clock := hclock
        packets := by
          rw [List.flatten_singleton]
          exact hpackets
        carries := by
          rw [pictures, htype]
          rw [hclock] at hcarries
          exact ⟨hcarries, trivial⟩
        clients := by
          refine ⟨[], ?_⟩
          rw [List.flatten_singleton, List.append_nil]
          exact hclients }

theorem Good.flag (h : Good ssrc schedule relay) (hbacklog : relay.backlog > 15) :
    relay.receiver.uRtpClientNodeSendDataThreadFlag = 1 := by
  rcases h.follows.received.flag with ⟨-, hnone⟩ | ⟨hflag, -⟩
  · have hwait : (framesOf schedule.source.taken).dropWhile
        (fun f => f.last.header.byFrameType ≠ 1) = [] := by
      rw [List.dropWhile_eq_nil_iff]
      intro f hf
      exact decide_eq_true fun hkey => hnone ⟨f, hf, hkey⟩
    have hqueue := h.follows.received.queue
    rw [mediaFrames, hwait] at hqueue
    rw [backlog, hqueue] at hbacklog
    simp at hbacklog
  · exact hflag

theorem Good.backlog_iff (h : Good ssrc schedule relay) :
    relay.backlog > 15 ↔ schedule.popped + 15 < schedule.records.length := by
  rw [backlog, ← h.queue, ← h.popped]
  omega

/-- A round with more than fifteen records in the queue pops one of them. -/
theorem Good.round_pop (h : Good ssrc schedule relay)
    (hsource : Source (schedule.source.taken ++ schedule.source.left))
    (hclients : relay.clients ≠ []) (hbacklog : relay.backlog > 15) :
    ∃ task record groups,
      relay.round = some { relay with task, popped := relay.popped + 1 } ∧
      Good ssrc { schedule with popped := schedule.popped + 1 }
        { relay with task, popped := relay.popped + 1 } ∧
      Progress ssrc relay [record] groups { relay with task, popped := relay.popped + 1 } := by
  have hlt : relay.popped < relay.receiver.queueStreamData.length := by
    unfold backlog at hbacklog
    omega
  have hrecord := List.getElem?_eq_getElem hlt
  obtain ⟨task, groups, hsent, hgood, hprogress⟩ := h.pop hbacklog hrecord
    (h.sendable hsource _ (List.getElem_mem hlt))
  refine ⟨task, _, groups, ?_, hgood, hprogress⟩
  rw [Relay.round, if_neg (not_not_intro (h.flag hbacklog)),
    if_neg (fun hzero => hclients (List.length_eq_zero_iff.mp hzero)), if_pos hbacklog, hrecord]
  simp only [hsent, Option.map_some]

theorem round_wait (hclients : relay.clients ≠ []) (hbacklog : ¬ relay.backlog > 15) :
    relay.round = some relay := by
  by_cases hflag : relay.receiver.uRtpClientNodeSendDataThreadFlag = 1
  · rw [Relay.round, if_neg (not_not_intro hflag),
      if_neg (fun hzero => hclients (List.length_eq_zero_iff.mp hzero)), if_neg hbacklog]
  · rw [Relay.round, if_pos hflag]

/-- **A round of the send task.** -/
theorem Good.round (h : Good ssrc schedule relay)
    (hsource : Source (schedule.source.taken ++ schedule.source.left))
    (hclients : relay.clients ≠ []) :
    ∃ relay' records groups, relay.round = some relay' ∧
      relay'.receiver = relay.receiver ∧ Good ssrc (schedule.step .round) relay' ∧
      Progress ssrc relay records groups relay' := by
  rw [Schedule.step]
  by_cases hbacklog : relay.backlog > 15
  · obtain ⟨task, record, groups, hround, hgood, hprogress⟩ :=
      h.round_pop hsource hclients hbacklog
    rw [if_pos (h.backlog_iff.mp hbacklog)]
    exact ⟨_, _, groups, hround, rfl, hgood, hprogress⟩
  · rw [if_neg (mt h.backlog_iff.mpr hbacklog)]
    exact ⟨relay, [], [], round_wait hclients hbacklog, rfl, h,
      .of_waiting rfl rfl rfl (List.append_nil _).symm⟩

/-- **A call joins.** -/
theorem Good.join (h : Good ssrc schedule relay) :
    ∃ relay', relay.step .join = some relay' ∧ relay'.receiver = relay.receiver ∧
      Good ssrc schedule relay' ∧ relay'.clients = relay.clients ++ [({} : ClientNode)] ∧
      Progress ssrc relay [] [] relay' := by
  refine ⟨_, rfl, rfl, ⟨h.follows, ?_, h.popped, h.kept⟩, rfl, .of_waiting rfl rfl rfl rfl⟩
  exact { h.ready with idle := listAppendClient_idle h.ready.idle }

theorem Schedule.step_round_source (schedule : Schedule) :
    (schedule.step .round).source = schedule.source := by
  rw [Schedule.step]
  split <;> rfl

/-- **One step**, whoever makes it. -/
theorem Good.step (h : Good ssrc schedule relay)
    (hsource : Source (schedule.source.taken ++ schedule.source.left))
    (hclients : relay.clients ≠ []) {event : Event} (hkept : event.Kept)
    (hstream : relay.receiver.input ++ arrived [event] <+: wire schedule.source.left) :
    ∃ relay' taken records groups, relay.step event = some relay' ∧
      (schedule.step event).source.taken = schedule.source.taken ++ taken ∧
      schedule.source.left = taken ++ (schedule.step event).source.left ∧
      relay.receiver.input ++ arrived [event] = wire taken ++ relay'.receiver.input ∧
      Good ssrc (schedule.step event) relay' ∧ Progress ssrc relay records groups relay' := by
  cases event with
  | arrive iError rLen wLen bytes =>
      obtain ⟨rfl, hrLen, hwLen⟩ := hkept
      rw [arrived, arrived, List.append_nil] at hstream ⊢
      obtain ⟨relay', taken, hstep, htaken, hleft, hinput, hgood, hprogress⟩ :=
        h.arrive hsource hclients hrLen hwLen hstream
      exact ⟨relay', taken, [], [], hstep, htaken, hleft, hinput, hgood, hprogress⟩
  | join =>
      obtain ⟨relay', hstep, hreceiver, hgood, -, hprogress⟩ := h.join
      refine ⟨relay', [], [], [], hstep, (List.append_nil _).symm, rfl, ?_, hgood, hprogress⟩
      rw [hreceiver]
      exact List.append_nil _
  | round =>
      obtain ⟨relay', records, groups, hstep, hreceiver, hgood, hprogress⟩ :=
        h.round hsource hclients
      refine ⟨relay', [], records, groups, hstep, ?_, ?_, ?_, hgood, hprogress⟩
      · rw [Schedule.step_round_source, List.append_nil]
      · rw [Schedule.step_round_source, List.nil_append]
      · rw [hreceiver]
        exact List.append_nil _

theorem arrived_cons (event : Event) (events : List Event) :
    arrived (event :: events) = arrived [event] ++ arrived events := by
  cases event <;> simp [arrived]

theorem run_cons (relay : Relay) (event : Event) (events : List Event) :
    run relay (event :: events) = (relay.step event).bind fun relay => run relay events :=
  rfl

/-- **Every run**, by induction on its steps. -/
theorem Good.run (events : List Event) :
    ∀ {relay : Relay} {schedule : Schedule}, Good ssrc schedule relay →
      Source (schedule.source.taken ++ schedule.source.left) → relay.clients ≠ [] →
      (∀ event ∈ events, event.Kept) →
      relay.receiver.input ++ arrived events <+: wire schedule.source.left →
      let last := events.foldl Schedule.step schedule
      ∃ relay' taken records groups, relay.run events = some relay' ∧
        last.source.taken = schedule.source.taken ++ taken ∧
        schedule.source.left = taken ++ last.source.left ∧
        relay.receiver.input ++ arrived events = wire taken ++ relay'.receiver.input ∧
        Good ssrc last relay' ∧ Progress ssrc relay records groups relay' := by
  induction events with
  | nil =>
      intro relay schedule h hsource hclients hkept hstream
      exact ⟨relay, [], [], [], rfl, (List.append_nil _).symm, rfl, List.append_nil _, h,
        .of_waiting rfl rfl rfl (List.append_nil _).symm⟩
  | cons event events ih =>
      intro relay schedule h hsource hclients hkept hstream
      rw [arrived_cons, ← List.append_assoc] at hstream ⊢
      obtain ⟨relay₁, taken₁, records₁, groups₁, hstep, htaken, hleft, hinput, hgood,
          hprogress⟩ :=
        h.step hsource hclients (hkept event (List.mem_cons_self ..))
          ((List.prefix_append _ _).trans hstream)
      rw [hinput, hleft, List.append_assoc, wire_append, List.prefix_append_right_inj] at hstream
      rw [hleft, ← List.append_assoc, ← htaken] at hsource
      obtain ⟨relay₂, taken₂, records₂, groups₂, hrun, htaken₂, hleft₂, hinput₂, hgood₂,
          hprogress₂⟩ :=
        ih hgood hsource (hprogress.clients_ne_nil hclients)
          (fun event hevent => hkept event (List.mem_cons_of_mem _ hevent)) hstream
      rw [List.foldl_cons]
      refine ⟨relay₂, taken₁ ++ taken₂, _, _, ?_, ?_, ?_, ?_, hgood₂, hprogress.trans hprogress₂⟩
      · rw [run_cons, hstep]
        exact hrun
      · rw [htaken₂, htaken, List.append_assoc]
      · rw [hleft, hleft₂, List.append_assoc]
      · rw [hinput, List.append_assoc, hinput₂, wire_append, List.append_assoc]

end Relay

end GbStream.Task
