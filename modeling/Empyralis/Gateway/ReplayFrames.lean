import Empyralis.Gateway.Client
import Empyralis.Gateway.OutboxLifecycle

/-! The frames that a replay sends. `publishEvent` puts an event into the outbox under the event's
    type; `replayOutboxItem` sends an event frame when the record's type is `channel.inbound`, and a
    request frame for every other type. -/

namespace Empyralis.Gateway.Cloud

open Outbox (Item SameRecord)

variable {π σ : Type*}

inductive Frame (π σ : Type*) where
  | event (frame : EventFrame π σ)
  | request (frame : RequestFrame π σ)

def Origin.item : Origin π → Option (Item π)
  | .publish => none
  | .replay item => some item

/-- The frames that replays have handed to an open socket, each with its item. -/
def Client.replayed (s : Client π σ) : List (Item π × Frame π σ) :=
  (s.lane.written.filterMap fun w => w.origin.item.map fun item => (item, .event w.frame)) ++
    s.exchange.sent.filterMap fun e => e.1.map fun item => (item, .request e.2)

/-- The records that the gateway knows: those in the outbox, and those that it has read from there in
    order to replay them. -/
def Client.items (s : Client π σ) : List (Item π) :=
  s.lane.outbox ++ s.passes.flatMap (·.rest) ++ s.replays.map (·.item)

def ClientLabel.drawn : ClientLabel π σ → Option String
  | .lane (.enqueue _ id _) => some id
  | .exchange l => l.drawn
  | _ => none

/-- `crypto.randomUUID` draws an id that nothing has yet. -/
def DrawsFresh (s : Client π σ) (l : ClientLabel π σ) : Prop :=
  match l.drawn with
  | some id => id ∉ s.items.map (·.id) ++ s.lane.diverted.map (·.1)
  | none => True

instance (s : Client π σ) (l : ClientLabel π σ) : Decidable (DrawsFresh s l) := by
  unfold DrawsFresh
  split <;> infer_instance

/-! ### The frames of the lane -/

/-- The frame that a task has built. -/
def TaskStage.frame : TaskStage π σ → Option (EventFrame π σ)
  | .journaling frame | .enqueueing frame _ _ => some frame
  | _ => none

def Task.Builds (task : Task π σ) (frame : EventFrame π σ) : Prop :=
  ∃ seq ack ts, frame = task.frame seq ack ts

/-- Every frame is the frame of its task. -/
structure Lane.Built (s : Lane π σ) : Prop where
  held : ∀ task ∈ s.tasks, ∀ frame ∈ task.stage.frame, task.Builds frame
  written : ∀ w ∈ s.written, ∃ task ∈ s.tasks, task.origin = w.origin ∧ task.Builds w.frame
  diverted : ∀ d ∈ s.diverted, d.2.protocolVersion = protocolVersion

theorem built_start (content : Checkpoints.File) (outbox : List (Item π)) :
    (Lane.start content outbox : Lane π σ).Built where
  held := by simp [Lane.start]
  written := by simp [Lane.start]
  diverted := by simp [Lane.start]

/-- One task moves to a stage whose frame, if it holds one, is its own. -/
theorem built_setStage {s t : Lane π σ} {k : Nat} {task : Task π σ} {stage : TaskStage π σ}
    (h : s.Built) (hk : s.tasks[k]? = some task) (ht : t.tasks = (s.setStage k task stage).tasks)
    (hframe : ∀ frame ∈ stage.frame, task.Builds frame)
    (hwritten : ∀ w ∈ t.written, w ∈ s.written ∨ task.origin = w.origin ∧ task.Builds w.frame)
    (hdiverted : ∀ d ∈ t.diverted, d.2.protocolVersion = protocolVersion) : t.Built where
  held := by
    intro task' htask frame hheld
    rw [ht] at htask
    rcases List.mem_or_eq_of_mem_set htask with htask | rfl
    · exact h.held task' htask frame hheld
    · exact hframe frame hheld
  written := by
    intro w hw
    rw [ht]
    rcases hwritten w hw with hold | ⟨horigin, hbuilds⟩
    · obtain ⟨task', htask', horigin, hbuilds⟩ := h.written w hold
      obtain ⟨i, hi⟩ := List.mem_iff_getElem?.mp htask'
      rcases Chain.getElem?_set_of { task with stage := stage } hk hi with
        ⟨-, rfl, hget⟩ | ⟨-, hget⟩
      · exact ⟨_, List.mem_of_getElem? hget, horigin, hbuilds⟩
      · exact ⟨task', List.mem_of_getElem? hget, horigin, hbuilds⟩
    · obtain ⟨hlt, -⟩ := List.getElem?_eq_some_iff.mp hk
      exact ⟨_, List.mem_set hlt _, horigin, hbuilds⟩
  diverted := hdiverted

theorem builds_version {task : Task π σ} {frame : EventFrame π σ} (h : task.Builds frame) :
    frame.protocolVersion = protocolVersion ∧ frame.type = task.type ∧
      frame.payload = task.payload := by
  obtain ⟨seq, ack, ts, rfl⟩ := h
  exact ⟨rfl, rfl, rfl⟩

theorem sendFrame_frame {socket : Option ReadyState} {origin : Origin π} {frame : EventFrame π σ}
    {encoded sent : Except String Unit} :
    ∀ frame' ∈ (sendFrame socket origin frame encoded sent).1.frame, frame' = frame := by
  intro frame' hframe
  cases origin with
  | publish =>
    simp only [sendFrame, publishSend] at hframe
    split_ifs at hframe
    · simpa [TaskStage.frame, eq_comm] using hframe
    · cases encoded <;> cases sent <;> simp_all [TaskStage.frame]
  | replay item =>
    simp only [sendFrame, replaySend] at hframe
    cases encoded with
    | error e => simp [TaskStage.frame] at hframe
    | ok u =>
      rcases socket with _ | (_ | _ | _ | _) <;> cases sent <;> simp [TaskStage.frame] at hframe

/-- One step keeps the frames as they were built. -/
theorem built_step {s t : Lane π σ} {l : LaneLabel π σ} (h : s.Built) (hst : s.step l = some t) :
    t.Built := by
  cases Lane.step_moves hst with
  | checkpoint _ _ | socket _ | outbox _ => exact ⟨h.held, h.written, h.diverted⟩
  | queue origin type payload scope =>
    refine ⟨fun task htask frame hheld => ?_, fun w hw => ?_, h.diverted⟩
    · rcases List.mem_append.mp htask with htask | htask
      · exact h.held task htask frame hheld
      · rw [List.mem_singleton.mp htask] at hheld
        simp [TaskStage.frame] at hheld
    · obtain ⟨task, htask, hbuilds⟩ := h.written w hw
      exact ⟨task, List.mem_append_left _ htask, hbuilds⟩
  | begin hk _ _ =>
    exact built_setStage h hk rfl (by simp [TaskStage.frame]) (fun _ hw => Or.inl hw) h.diverted
  | @move _ k task stage outbox hk _ hplain _ _ =>
    refine built_setStage h hk rfl (fun frame hframe => ?_) (fun _ hw => Or.inl hw) h.diverted
    cases stage <;> simp_all [TaskStage.frame, TaskStage.isPlain]
  | allocate hk _ =>
    exact built_setStage h hk rfl (by simp [TaskStage.frame]) (fun _ hw => Or.inl hw) h.diverted
  | @build k ts task ack seq j hk hstage hj =>
    refine built_setStage h hk rfl (fun frame hframe => ?_) (fun _ hw => Or.inl hw) h.diverted
    obtain rfl : task.frame seq ack ts = frame := by simpa [TaskStage.frame] using hframe
    exact ⟨seq, ack, ts, rfl⟩
  | @divert k task frame reason id ok now hk hstage _ =>
    refine built_setStage h hk rfl (by simp [TaskStage.frame]) (fun _ hw => Or.inl hw)
      fun d hd => ?_
    rcases List.mem_append.mp hd with hd | hd
    · exact h.diverted d hd
    · rw [List.mem_singleton.mp hd]
      exact (builds_version (h.held task (List.mem_of_getElem? hk) frame
        (by rw [hstage]; rfl))).1
  | @transmit k task frame encoded sent hk hstage =>
    have hbuilds : task.Builds frame :=
      h.held task (List.mem_of_getElem? hk) frame (by rw [hstage]; rfl)
    refine built_setStage h hk (transmit_tasks ..) (fun frame' hframe => ?_) (fun w hw => ?_) ?_
    · rw [sendFrame_frame frame' hframe]
      exact hbuilds
    · rw [transmit_written] at hw
      split at hw
      · rcases List.mem_append.mp hw with hw | hw
        · exact Or.inl hw
        · rw [List.mem_singleton.mp hw]
          exact Or.inr ⟨rfl, hbuilds⟩
      · exact Or.inl hw
    · rw [transmit_diverted]
      exact h.diverted

/-- What a task is about stays. -/
def Task.SameCall (a b : Task π σ) : Prop :=
  a.origin = b.origin ∧ a.type = b.type ∧ a.payload = b.payload

theorem sameCall_setStage {s : Lane π σ} {k : Nat} {task task' : Task π σ} {stage : TaskStage π σ}
    (hk : s.tasks[k]? = some task) (h : task' ∈ (s.setStage k task stage).tasks) :
    ∃ old ∈ s.tasks, task'.SameCall old := by
  rcases List.mem_or_eq_of_mem_set h with h | rfl
  · exact ⟨task', h, rfl, rfl, rfl⟩
  · exact ⟨task, List.mem_of_getElem? hk, rfl, rfl, rfl⟩

theorem Lane.step_calls {s t : Lane π σ} {l : LaneLabel π σ} (hown : l.isOwn)
    (h : s.step l = some t) : ∀ task ∈ t.tasks, ∃ old ∈ s.tasks, task.SameCall old := by
  intro task' htask
  cases Lane.step_moves h with
  | socket _ | outbox _ | queue _ _ _ _ => simp [LaneLabel.isOwn] at hown
  | checkpoint _ _ => exact ⟨task', htask, rfl, rfl, rfl⟩
  | begin hk _ _ => exact sameCall_setStage hk htask
  | move hk _ _ _ _ => exact sameCall_setStage hk htask
  | allocate hk _ => exact sameCall_setStage hk htask
  | build hk _ _ => exact sameCall_setStage hk htask
  | divert hk _ _ => exact sameCall_setStage hk htask
  | transmit hk _ =>
    rw [transmit_tasks] at htask
    exact sameCall_setStage hk htask

/-- A step of the lane diverts one frame, or leaves the records as they are but for their state. -/
theorem Lane.step_records {s t : Lane π σ} {l : LaneLabel π σ} (hb : s.Built) (hown : l.isOwn)
    (h : s.step l = some t) :
    (t.diverted = s.diverted ∧ ∀ item ∈ t.outbox, ∃ old ∈ s.outbox, SameRecord item old) ∨
    ∃ k id now frame, l = .enqueue k id now ∧ t.diverted = s.diverted ++ [(id, frame)] ∧
      ∀ item ∈ t.outbox, item ∈ s.outbox ∨
        item.id = id ∧ item.messageType = frame.type ∧ item.payload = frame.payload := by
  cases Lane.step_moves h with
  | socket _ | outbox _ | queue _ _ _ _ => simp [LaneLabel.isOwn] at hown
  | checkpoint _ _ | begin _ _ _ | allocate _ _ | build _ _ _ =>
    exact Or.inl ⟨rfl, fun item hitem => ⟨item, hitem, .refl item⟩⟩
  | move _ _ _ _ hout =>
    refine Or.inl ⟨rfl, fun item hitem => ?_⟩
    rcases hout with rfl | ⟨requestId, reason, now, rfl⟩
    · exact ⟨item, hitem, .refl item⟩
    · have hperform : item ∈ Outbox.perform s.outbox (.markForReplay requestId reason now) := hitem
      rcases Outbox.perform_same hperform with hold | hdrawn
      · exact hold
      · simp [Outbox.Op.drawn] at hdrawn
  | @divert k task frame reason id ok now hk hstage _ =>
    refine Or.inr ⟨k, id, now, frame, rfl, rfl, fun item hitem => ?_⟩
    obtain ⟨-, htype, hpayload⟩ := builds_version (hb.held task (List.mem_of_getElem? hk) frame
      (by rw [hstage]; rfl))
    rcases List.mem_append.mp hitem with hitem | hitem
    · exact Or.inl hitem
    · rw [List.mem_singleton.mp hitem]
      exact Or.inr ⟨rfl, htype.symm, hpayload.symm⟩
  | transmit _ _ =>
    rw [transmit_diverted, transmit_outbox]
    exact Or.inl ⟨rfl, fun item hitem => ⟨item, hitem, .refl item⟩⟩

/-! ### The replays of diverted events -/

def Client.IsReplayed (s : Client π σ) (item : Item π) : Prop := item ∈ s.replays.map (·.item)

/-- A record made for a diverted frame has the type and the payload of that frame. -/
def Client.Records (s : Client π σ) : Prop :=
  ∀ d ∈ s.lane.diverted, ∀ item ∈ s.items, item.id = d.1 →
    item.messageType = d.2.type ∧ item.payload = d.2.payload

/-- What the tasks and requests that replay an item are about. -/
structure Client.Traced (s : Client π σ) : Prop where
  built : s.lane.Built
  records : s.Records
  tasks : ∀ task ∈ s.lane.tasks, ∀ item ∈ task.origin.item, s.IsReplayed item ∧
    item.messageType = channelInbound ∧ task.type = channelInbound ∧ task.payload = item.payload
  requests : ∀ r ∈ s.exchange.requests, ∀ item ∈ r.replayOf, s.IsReplayed item ∧
    item.messageType ≠ channelInbound
  sent : ∀ e ∈ s.exchange.sent, ∀ item ∈ e.1, s.IsReplayed item ∧
    item.messageType ≠ channelInbound

theorem traced_start (content : Checkpoints.File) (outbox : List (Item π)) :
    (Client.start content outbox : Client π σ).Traced where
  built := built_start content outbox
  records := by simp [Client.Records, Client.start, Lane.start]
  tasks := by simp [Client.start, Lane.start]
  requests := by simp [Client.start, Exchange.start]
  sent := by simp [Client.start, Exchange.start]

theorem mem_items {s : Client π σ} {item : Item π} : item ∈ s.items ↔
    item ∈ s.lane.outbox ∨ (∃ pass ∈ s.passes, item ∈ pass.rest) ∨ s.IsReplayed item := by
  simp only [Client.items, Client.IsReplayed, List.mem_append, List.mem_flatMap, or_assoc]

theorem replayed_of_replay {s : Client π σ} {r : Nat} {replay : Replay π σ}
    (h : s.replays[r]? = some replay) : s.IsReplayed replay.item :=
  List.mem_map_of_mem (List.mem_of_getElem? h)

theorem replayed_setReplay {s : Client π σ} {r : Nat} {replay : Replay π σ} (stage : ReplayStage)
    (h : s.replays[r]? = some replay) (item : Item π) :
    (s.setReplay r replay stage).IsReplayed item ↔ s.IsReplayed item := by
  have hmap : (s.setReplay r replay stage).replays.map (·.item) = s.replays.map (·.item) := by
    have hitem : (s.replays.map (·.item))[r]? = some replay.item := by
      rw [List.getElem?_map, h]
      rfl
    obtain ⟨hlt, hget⟩ := List.getElem?_eq_some_iff.mp hitem
    have hself := List.set_getElem_self hlt
    rw [hget] at hself
    rw [Client.setReplay, List.map_set]
    exact hself
  rw [Client.IsReplayed, hmap]
  rfl

/-- No frame is diverted; the records known now were known before, or are new with a fresh id. -/
theorem records_keep {s t : Client π σ} {l : ClientLabel π σ} (h : s.Records)
    (hfresh : DrawsFresh s l) (hd : t.lane.diverted = s.lane.diverted)
    (hitems : ∀ item ∈ t.items,
      (∃ old ∈ s.items, SameRecord item old) ∨ l.drawn = some item.id) : t.Records := by
  intro d hmem item hitem hid
  rw [hd] at hmem
  rcases hitems item hitem with ⟨old, hold, hsame⟩ | hdrawn
  · obtain ⟨htype, hpayload⟩ := h d hmem old hold (hsame.1.symm.trans hid)
    exact ⟨hsame.2.2.1.trans htype, hsame.2.2.2.2.2.trans hpayload⟩
  · simp only [DrawsFresh, hdrawn, List.mem_append, not_or] at hfresh
    exact absurd (List.mem_map_of_mem hmem) (hid ▸ hfresh.2)

/-- No frame is diverted, the outbox sees at most one operation, and what is read for a replay was
    known before. -/
theorem records_perform {s t : Client π σ} {l : ClientLabel π σ} (op : Option (Outbox.Op π))
    (h : s.Records) (hfresh : DrawsFresh s l) (hd : t.lane.diverted = s.lane.diverted)
    (hout : t.lane.outbox = (s.lane.perform op).outbox)
    (hop : ∀ o id, op = some o → o.drawn = some id → l.drawn = some id)
    (hpasses : ∀ pass ∈ t.passes, ∀ item ∈ pass.rest, item ∈ s.items)
    (hreplays : ∀ item, t.IsReplayed item → item ∈ s.items) : t.Records := by
  refine records_keep h hfresh hd fun item hitem => ?_
  rcases mem_items.mp hitem with hitem | ⟨pass, hpass, hitem⟩ | hitem
  · rw [hout] at hitem
    cases op with
    | none => exact Or.inl ⟨item, mem_items.mpr (Or.inl hitem), .refl item⟩
    | some o =>
      rcases Outbox.perform_same hitem with ⟨old, hold, hsame⟩ | hdrawn
      · exact Or.inl ⟨old, mem_items.mpr (Or.inl hold), hsame⟩
      · exact Or.inr (hop o item.id rfl hdrawn)
  · exact Or.inl ⟨item, hpasses pass hpass item hitem, .refl item⟩
  · exact Or.inl ⟨item, hreplays item hitem, .refl item⟩

theorem pass_known (s : Client π σ) : ∀ pass ∈ s.passes, ∀ item ∈ pass.rest, item ∈ s.items :=
  fun pass hpass _ hitem => mem_items.mpr (Or.inr (Or.inl ⟨pass, hpass, hitem⟩))

theorem replayed_known {s : Client π σ} {item : Item π} (h : s.IsReplayed item) : item ∈ s.items :=
  mem_items.mpr (Or.inr (Or.inr h))

theorem isMark_draws {op : Option (Outbox.Op π)} (h : IsMark op) {o : Outbox.Op π} {id : String}
    (ho : op = some o) : o.drawn ≠ some id := by
  rcases h with h | ⟨r, n, h⟩
  · simp [h] at ho
  · obtain rfl := Option.some.inj (h.symm.trans ho)
    simp [Outbox.Op.drawn]

/-- The lane diverts one frame, under a fresh id. -/
theorem records_divert {s : Client π σ} {lane : Lane π σ} {l : ClientLabel π σ} {id : String}
    {frame : EventFrame π σ} (h : s.Records) (hfresh : DrawsFresh s l) (hl : l.drawn = some id)
    (hd : lane.diverted = s.lane.diverted ++ [(id, frame)])
    (hout : ∀ item ∈ lane.outbox, item ∈ s.lane.outbox ∨
      item.id = id ∧ item.messageType = frame.type ∧ item.payload = frame.payload) :
    ({ s with lane := lane } : Client π σ).Records := by
  simp only [DrawsFresh, hl, List.mem_append, not_or] at hfresh
  have hitems : ∀ item ∈ ({ s with lane := lane } : Client π σ).items, item ∈ s.items ∨
      item.id = id ∧ item.messageType = frame.type ∧ item.payload = frame.payload := by
    intro item hitem
    rcases mem_items.mp hitem with hitem | hrest
    · exact (hout item hitem).imp (fun h => mem_items.mpr (Or.inl h)) fun h => h
    · exact Or.inl (mem_items.mpr (Or.inr hrest))
  intro d hmem item hitem hid
  rw [hd] at hmem
  rcases List.mem_append.mp hmem with hmem | hmem <;> rcases hitems item hitem with hold | hnew
  · exact h d hmem item hold hid
  · exact absurd (List.mem_map_of_mem hmem) (hid ▸ hnew.1 ▸ hfresh.2)
  · rw [List.mem_singleton.mp hmem] at hid
    have hknown : item.id ∈ s.items.map (·.id) := List.mem_map_of_mem hold
    rw [hid] at hknown
    exact absurd hknown hfresh.1
  · rw [List.mem_singleton.mp hmem]
    exact hnew.2

/-- A step keeps `Traced` when the tasks and requests that are new are about replays. -/
theorem traced_of {s t : Client π σ} (h : s.Traced) (built : t.lane.Built) (records : t.Records)
    (hreplayed : ∀ item, s.IsReplayed item → t.IsReplayed item)
    (htasks : ∀ task ∈ t.lane.tasks, (∃ old ∈ s.lane.tasks, task.SameCall old) ∨
      ∀ item ∈ task.origin.item, t.IsReplayed item ∧ item.messageType = channelInbound ∧
        task.type = channelInbound ∧ task.payload = item.payload)
    (hrequests : ∀ r ∈ t.exchange.requests, (∃ old ∈ s.exchange.requests, r.replayOf = old.replayOf) ∨
      ∀ item ∈ r.replayOf, t.IsReplayed item ∧ item.messageType ≠ channelInbound)
    (hsent : ∀ e ∈ t.exchange.sent, e ∈ s.exchange.sent ∨
      ∃ r ∈ s.exchange.requests, e.1 = r.replayOf) : t.Traced where
  built := built
  records := records
  tasks := by
    intro task htask item hitem
    rcases htasks task htask with ⟨old, hold, horigin, htype, hpayload⟩ | hnew
    · obtain ⟨hrep, hinbound, htype', hpayload'⟩ := h.tasks old hold item (horigin ▸ hitem)
      exact ⟨hreplayed item hrep, hinbound, htype.trans htype', hpayload.trans hpayload'⟩
    · exact hnew item hitem
  requests := by
    intro r hr item hitem
    rcases hrequests r hr with ⟨old, hold, heq⟩ | hnew
    · exact (h.requests old hold item (heq ▸ hitem)).imp_left (hreplayed item)
    · exact hnew item hitem
  sent := by
    intro e he item hitem
    rcases hsent e he with hold | ⟨r, hr, heq⟩
    · exact (h.sent e hold item hitem).imp_left (hreplayed item)
    · exact (h.requests r hr item (heq ▸ hitem)).imp_left (hreplayed item)

/-- The calls on the lane and the requests stay the same ones. -/
theorem traced_same {s t : Client π σ} (h : s.Traced) (built : t.lane.Built) (records : t.Records)
    (hreplayed : ∀ item, s.IsReplayed item → t.IsReplayed item)
    (htasks : ∀ task ∈ t.lane.tasks, ∃ old ∈ s.lane.tasks, task.SameCall old)
    (hexchange : t.exchange = s.exchange) : t.Traced := by
  refine traced_of h built records hreplayed (fun task htask => Or.inl (htasks task htask)) ?_ ?_
  · intro r hr
    rw [hexchange] at hr
    exact Or.inl ⟨r, hr, rfl⟩
  · intro e he
    rw [hexchange] at he
    exact Or.inl he

theorem built_perform {s : Lane π σ} (h : s.Built) (op : Option (Outbox.Op π)) :
    (s.perform op).Built := by
  cases op with
  | none => exact h
  | some op => exact ⟨h.held, h.written, h.diverted⟩

theorem built_queue {s : Lane π σ} (h : s.Built) (origin : Origin π) (type : String) (payload : π)
    (scope : σ) : (s.queue origin type payload scope).Built := by
  have hstep : s.step (.queue origin type payload scope) =
      some (s.queue origin type payload scope) := rfl
  exact built_step h hstep

/-- One step keeps every replayed frame traced to its item, if the ids drawn are fresh. -/
theorem traced_step {s t : Client π σ} {l : ClientLabel π σ} (h : s.Traced) (hc : DrawsFresh s l)
    (hst : s.step l = some t) : t.Traced := by
  have htasks : ∀ task ∈ s.lane.tasks, ∃ old ∈ s.lane.tasks, task.SameCall old :=
    fun task htask => ⟨task, htask, rfl, rfl, rfl⟩
  have hcalls (op : Option (Outbox.Op π)) : ∀ task ∈ (s.lane.perform op).tasks,
      ∃ old ∈ s.lane.tasks, task.SameCall old :=
    fun task htask => htasks task (perform_tasks s.lane op ▸ htask)
  cases Client.step_moves hst with
  | @lane l lane hown hl =>
    refine traced_same h (built_step h.built hl) ?_ (fun _ hr => hr) (Lane.step_calls hown hl) rfl
    rcases Lane.step_records h.built hown hl with ⟨hd, hout⟩ | ⟨k, id, now, frame, rfl, hd, hout⟩
    · refine records_keep h.records hc hd fun item hitem => Or.inl ?_
      rcases mem_items.mp hitem with hitem | hrest
      · obtain ⟨old, hold, hsame⟩ := hout item hitem
        exact ⟨old, mem_items.mpr (Or.inl hold), hsame⟩
      · exact ⟨item, mem_items.mpr (Or.inr hrest), .refl item⟩
    · exact records_divert h.records hc rfl hd hout
  | @exchange l x op hx =>
    have hkeeps := Exchange.step_keeps hx
    refine traced_of h (built_perform h.built op) ?_ (fun _ hr => hr)
      (fun task htask => Or.inl (hcalls op task htask)) (fun r hr => ?_) (fun e he => ?_)
    · refine records_perform op h.records hc (perform_diverted ..) rfl ?_ (pass_known s)
        fun _ hr => replayed_known hr
      rintro o id rfl hdrawn
      exact (Exchange.step_op hx).1 id hdrawn
    · obtain ⟨old, hold, heq, -⟩ := hkeeps.requests r hr
      exact Or.inl ⟨old, hold, heq⟩
    · rcases hkeeps.sent e he with hold | ⟨r, hr, rfl⟩
      · exact Or.inl hold
      · exact Or.inr ⟨r, hr, rfl⟩
  | connection _ _ _ =>
    exact ⟨⟨h.built.held, h.built.written, h.built.diverted⟩, h.records, h.tasks, h.requests, h.sent⟩
  | failed reason closing =>
    refine ⟨h.built, h.records, h.tasks, fun r hr => ?_, h.sent⟩
    obtain ⟨old, hold, heq, -⟩ := mem_settleAll hr
    exact fun item hitem => h.requests old hold item (heq ▸ hitem)
  | publish type payload scope =>
    refine traced_of h (built_queue h.built ..) h.records (fun _ hr => hr) (fun task htask => ?_)
      (fun r hr => Or.inl ⟨r, hr, rfl⟩) (fun e he => Or.inl he)
    rcases List.mem_append.mp htask with htask | htask
    · exact Or.inl (htasks task htask)
    · rw [List.mem_singleton.mp htask]
      exact Or.inr (by simp [Origin.item])
  | request frame replayable persistOutbox =>
    refine traced_of h h.built h.records (fun _ hr => hr)
      (fun task htask => Or.inl (htasks task htask)) (fun r hr => ?_) (fun e he => Or.inl he)
    rcases List.mem_append.mp hr with hr | hr
    · exact Or.inl ⟨r, hr, rfl⟩
    · rw [List.mem_singleton.mp hr]
      exact Or.inr (by simp)
  | list scope =>
    refine traced_same h h.built ?_ (fun _ hr => hr) htasks rfl
    refine records_perform none h.records hc rfl rfl (by simp) (fun pass hpass item hitem => ?_)
      fun _ hr => replayed_known hr
    rcases List.mem_append.mp hpass with hpass | hpass
    · exact pass_known s pass hpass item hitem
    · rw [List.mem_singleton.mp hpass] at hitem
      exact mem_items.mpr (Or.inl (Outbox.mem_listReplayablePending.mp hitem).1)
  | endPass p scope current =>
    refine traced_same h h.built ?_ (fun _ hr => hr) htasks rfl
    refine records_perform none h.records hc rfl rfl (by simp) (fun pass hpass item hitem => ?_)
      fun _ hr => replayed_known hr
    rcases List.mem_or_eq_of_mem_set hpass with hpass | rfl
    · exact pass_known s pass hpass item hitem
    · simp at hitem
  | @next _ p pass item rest hp hrest =>
    have hpass := pass_known s pass (List.mem_of_getElem? hp)
    rw [hrest] at hpass
    refine traced_same h h.built ?_ (fun other hr => ?_) htasks rfl
    · refine records_perform none h.records hc rfl rfl (by simp)
        (fun pass' hpass' other hother => ?_) fun other hr => ?_
      · rcases List.mem_or_eq_of_mem_set hpass' with hpass' | rfl
        · exact pass_known s pass' hpass' other hother
        · exact hpass other (List.mem_cons_of_mem _ hother)
      · rw [Client.IsReplayed, List.map_append, List.mem_append] at hr
        rcases hr with hr | hr
        · exact replayed_known hr
        · obtain rfl : other = item := by simpa using hr
          exact hpass other List.mem_cons_self
    · rw [Client.IsReplayed, List.map_append]
      exact List.mem_append_left _ hr
  | @replayEvent _ r replay op hr htype hop =>
    have hiff := replayed_setReplay (.inLane s.lane.tasks.length) hr
    refine traced_of h (built_queue (built_perform h.built op) ..) ?_ (fun item h => (hiff item).mpr h)
      (fun task htask => ?_) (fun r hr => Or.inl ⟨r, hr, rfl⟩) (fun e he => Or.inl he)
    · exact records_perform op h.records hc (perform_diverted ..) rfl
        (fun o id ho hdrawn => absurd hdrawn (isMark_draws hop ho)) (pass_known s)
        fun item h => replayed_known ((hiff item).mp h)
    · rcases List.mem_append.mp htask with htask | htask
      · exact Or.inl (hcalls op task htask)
      · rw [List.mem_singleton.mp htask]
        refine Or.inr fun item hitem => ?_
        obtain rfl : replay.item = item := Option.some.inj hitem
        exact ⟨(hiff _).mpr (replayed_of_replay hr), htype, rfl, rfl⟩
  | @replayRequest _ r q replay ts op hreplay htype hop =>
    have hiff := replayed_setReplay (.requested q) hreplay
    refine traced_of h (built_perform h.built op) ?_ (fun item h => (hiff item).mpr h)
      (fun task htask => Or.inl (hcalls op task htask)) (fun r hr => ?_) (fun e he => Or.inl he)
    · exact records_perform op h.records hc (perform_diverted ..) rfl
        (fun o id ho hdrawn => absurd hdrawn (isMark_draws hop ho)) (pass_known s)
        fun item h => replayed_known ((hiff item).mp h)
    · rcases List.mem_append.mp hr with hr | hr
      · exact Or.inl ⟨r, hr, rfl⟩
      · rw [List.mem_singleton.mp hr]
        refine Or.inr fun item hitem => ?_
        obtain rfl : replay.item = item := Option.some.inj hitem
        exact ⟨(hiff _).mpr (replayed_of_replay hreplay), htype⟩
  | @settle _ r replay ok op hr hop =>
    have hiff := replayed_setReplay (.settled ok) hr
    refine traced_same h (built_perform h.built op) ?_ (fun item h => (hiff item).mpr h) (hcalls op) rfl
    exact records_perform op h.records hc (perform_diverted ..) rfl
      (fun o id ho hdrawn => absurd hdrawn (isMark_draws hop ho)) (pass_known s)
      fun item h => replayed_known ((hiff item).mp h)
  | @confirm _ r k replay task hr _ _ _ =>
    have hiff := replayed_setReplay .acknowledging hr
    refine traced_same h h.built ?_ (fun item h => (hiff item).mpr h) htasks rfl
    exact records_perform none h.records hc rfl rfl (by simp) (pass_known s)
      fun item h => replayed_known ((hiff item).mp h)
  | @acknowledge r replay now hr _ =>
    have hiff := replayed_setReplay (.settled true) hr
    refine traced_same h (built_perform h.built (some _)) ?_ (fun item h => (hiff item).mpr h)
      (hcalls (some _)) rfl
    refine records_perform (some _) h.records hc (perform_diverted s.lane (some _)) rfl ?_
      (pass_known s) fun item h => replayed_known ((hiff item).mp h)
    rintro o id ho hdrawn
    obtain rfl := Option.some.inj ho
    simp [Outbox.Op.drawn] at hdrawn
  | prune now =>
    refine traced_same h (built_perform h.built (some _)) ?_ (fun _ hr => hr) (hcalls (some _)) rfl
    refine records_perform (some _) h.records hc (perform_diverted s.lane (some _)) rfl ?_
      (pass_known s) fun _ hr => replayed_known hr
    rintro o id ho hdrawn
    obtain rfl := Option.some.inj ho
    simp [Outbox.Op.drawn] at hdrawn

/-! ### Whole runs -/

/-- An event that went to the outbox is replayed as the event frame that `publishEvent` had built,
    but for its number and its time, and for the scope and the cursor `ack`, which the replay takes
    as `publishEvent` takes them, exactly when it is a `channel.inbound` event. -/
theorem replayed_event_iff {content : Checkpoints.File} {outbox : List (Item π)}
    {labels : List (ClientLabel π σ)} {t : Client π σ}
    (hfresh : Run.Meets Client.step DrawsFresh (Client.start content outbox) labels)
    (hrun : Run.run Client.step (Client.start content outbox) labels = some t) :
    ∀ d ∈ t.lane.diverted, ∀ e ∈ t.replayed, e.1.id = d.1 →
      ((∃ scope seq ack ts,
          e.2 = .event { d.2 with scope := scope, seq := seq, ack := ack, ts := ts }) ↔
        d.2.type = channelInbound) := by
  have h : t.Traced := Run.run_inv (fun _ _ _ hi hc hst => traced_step hi hc hst) hfresh
    (traced_start content outbox) hrun
  intro d hd e he hid
  rcases List.mem_append.mp he with he | he
  · obtain ⟨w, hw, hitem⟩ := List.mem_filterMap.mp he
    obtain ⟨item, horigin, rfl⟩ := Option.map_eq_some_iff.mp hitem
    obtain ⟨task, htask, hsame, seq, ack, ts, hframe⟩ := h.built.written w hw
    obtain ⟨hrep, hinbound, htype, hpayload⟩ := h.tasks task htask item (hsame ▸ horigin)
    obtain ⟨hrtype, hrpayload⟩ := h.records d hd item (replayed_known hrep) hid
    have hdtype : d.2.type = channelInbound := hrtype.symm.trans hinbound
    refine ⟨fun _ => hdtype, fun _ => ⟨task.scope, seq, ack, ts, ?_⟩⟩
    rw [hframe, Task.frame, eventFrame, htype, hpayload, hrpayload, ← hdtype,
      ← h.built.diverted d hd]
  · obtain ⟨sent, hsent, hitem⟩ := List.mem_filterMap.mp he
    obtain ⟨item, horigin, rfl⟩ := Option.map_eq_some_iff.mp hitem
    obtain ⟨hrep, hother⟩ := h.sent sent hsent item horigin
    obtain ⟨hrtype, -⟩ := h.records d hd item (replayed_known hrep) hid
    refine ⟨?_, fun hdtype => absurd (hrtype.trans hdtype) hother⟩
    rintro ⟨_, _, _, _, hframe⟩
    simp at hframe

/-- An event is published without a socket, and its record is about to be replayed. -/
def divertAndReplay (type : String) : List (ClientLabel String Unit) :=
  [ClientLabel.scope (some ()), .publishEvent type "line"] ++ firstTask ++
    [ClientLabel.lane (.enqueue 0 "item-1" 1), .lane (.mark 0 2), .socket (some .opened),
      .replayPendingOutbox, .replayNext 0, .replayItem 0 "t" 3]

def inboundReplay : List (ClientLabel String Unit) :=
  divertAndReplay channelInbound ++ secondTask ++ [ClientLabel.lane (.transmit 1 (.ok ()) (.ok ()))]

def loginReplay : List (ClientLabel String Unit) :=
  divertAndReplay "cli.login.output" ++
    [ClientLabel.exchange (.lookup 0), .exchange (.record 0 "item-2" 4), .exchange (.transmit 0 (.ok ()) (.ok ()))]

theorem replayed_event_iff_inbound : ∃ t : Client String Unit,
    Run.run Client.step (Client.start Checkpoints.emptyDisk []) inboundReplay = some t ∧
      ∃ d ∈ t.lane.diverted, ∃ e ∈ t.replayed, e.1.id = d.1 ∧ d.2.type = channelInbound ∧
        ∃ scope seq ack ts,
          e.2 = .event { d.2 with scope := scope, seq := seq, ack := ack, ts := ts } := by
  have hrun : Run.run Client.step (Client.start Checkpoints.emptyDisk []) inboundReplay = some _ :=
    rfl
  have hiff := replayed_event_iff (by decide) hrun
  refine ⟨_, hrun, _, List.mem_cons_self, _, List.mem_cons_self, rfl, rfl, ?_⟩
  exact (hiff _ List.mem_cons_self _ List.mem_cons_self rfl).mpr rfl

/-- The output of a login is replayed as a request. -/
theorem login_output_requested : ∃ t : Client String Unit,
    Run.Meets Client.step DrawsFresh (Client.start Checkpoints.emptyDisk []) loginReplay ∧
    Run.run Client.step (Client.start Checkpoints.emptyDisk []) loginReplay = some t ∧
      ∃ d ∈ t.lane.diverted, ∃ e ∈ t.replayed, e.1.id = d.1 ∧ d.2.type = "cli.login.output" ∧
        ¬ ∃ frame, e.2 = .event frame := by
  refine ⟨_, by decide, rfl, _, List.mem_cons_self, _, List.mem_cons_self, rfl, rfl, ?_⟩
  rintro ⟨frame, hframe⟩
  simp at hframe

end Empyralis.Gateway.Cloud
