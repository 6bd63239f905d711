import Empyralis.Gateway.Checkpoints
import Empyralis.Gateway.Outbox

/-! The lane on which the gateway's event frames are numbered and written: `withClientSeqLock`, and
    the two callbacks that `GatewayWsClient` queues on it, in `publishEvent` and in
    `replayOutboxItem`.

    A task is one callback. It loads the checkpoints, allocates a number, journals the frame and hands
    it to the socket; a published event that finds no open socket goes to the outbox instead. Each
    label is what happens between two awaits of one task, a step of the checkpoint store, a change of
    the socket or an operation on the outbox. The outcomes of `encodeFrame` and of the socket's
    `send` are part of the label. Operations on the outbox are taken one at a time. -/

namespace Empyralis.Gateway.Cloud

open Checkpoints (Alloc Gate Advance)

/-- `readyState` of the socket. -/
inductive ReadyState where
  | connecting | opened | closing | closed
  deriving DecidableEq

def protocolVersion : String := "v1alpha2"

/-- `GatewayEventEnvelope` -/
structure EventFrame (π σ : Type*) where
  protocolVersion : String
  type : String
  seq : Int
  ack : Int
  ts : String
  scope : σ
  payload : π

/-- Who queued the task: `publishEvent`, or `replayOutboxItem` for this item. -/
inductive Origin (π : Type*) where
  | publish
  | replay (item : Outbox.Item π)

/-- How far a task is. -/
inductive TaskStage (π σ : Type*) where
  | waiting
  | loading
  | loaded (ack : Int)
  | allocating (ack : Int) (alloc : Nat)
  | journaling (frame : EventFrame π σ)
  | enqueueing (frame : EventFrame π σ) (reason : String) (ok : Bool)
  | marking (requestId reason : String) (ok : Bool)
  | settled (ok : Bool)

/-- A frame on its way through the lane. -/
structure Task (π σ : Type*) where
  origin : Origin π
  type : String
  payload : π
  scope : σ
  stage : TaskStage π σ

variable {π σ : Type*}

def Task.isWaiting (task : Task π σ) : Bool :=
  match task.stage with
  | .waiting => true
  | _ => false

def Task.isSettled (task : Task π σ) : Bool :=
  match task.stage with
  | .settled _ => true
  | _ => false

/-- The frame as it is sent. -/
def eventFrame (type : String) (payload : π) (scope : σ) (seq ack : Int) (ts : String) :
    EventFrame π σ where
  protocolVersion := protocolVersion
  type := type
  seq := seq
  ack := ack
  ts := ts
  scope := scope
  payload := payload

/-- The frame a task builds. -/
def Task.frame (task : Task π σ) (seq ack : Int) (ts : String) : EventFrame π σ :=
  eventFrame task.type task.payload task.scope seq ack ts

/-- A frame handed to an open socket, with the place of its task on the lane. -/
structure Written (π σ : Type*) where
  place : Nat
  origin : Origin π
  frame : EventFrame π σ

/-- `written` are the frames in the order in which the sockets took them; `diverted` are the frames
    that went to the outbox instead, each with the id of the record made for it. -/
structure Lane (π σ : Type*) where
  checkpoints : Checkpoints.State
  socket : Option ReadyState
  outbox : List (Outbox.Item π)
  tasks : List (Task π σ)
  written : List (Written π σ)
  diverted : List (String × EventFrame π σ)

def Lane.start (content : Checkpoints.File) (outbox : List (Outbox.Item π)) : Lane π σ where
  checkpoints := Checkpoints.start content []
  socket := none
  outbox := outbox
  tasks := []
  written := []
  diverted := []

/-! ### Steps -/

/-- `checkpoints.lastServerSeq ?? checkpoints.lastAck ?? 0` -/
def ackOf (c : Checkpoints.File) : Int :=
  ((c .lastServerSeq).or (c .lastAck)).getD 0

/-- The request id under which an event goes to the outbox. -/
def eventRequestId (type : String) (seq : Int) : String := s!"event:{type}:{seq}"

/-- `publishEvent` once its frame is journaled: the next stage, and whether an open socket took the
    frame. -/
def publishSend (socket : Option ReadyState) (frame : EventFrame π σ)
    (encoded sent : Except String Unit) : TaskStage π σ × Bool :=
  if socket ≠ some .opened then
    (.enqueueing frame "Gateway socket is not connected." true, false)
  else
    match encoded with
    | .error _ => (.settled true, false)
    | .ok () =>
      match sent with
      | .ok () => (.settled true, true)
      | .error e => (.enqueueing frame e false, false)

/-- `replayOutboxItem` once its frame is journaled. `this.socket?.send` does nothing without a
    socket; the `send` of a closing or closed one drops the frame in silence, that of a connecting
    one throws. -/
def replaySend (socket : Option ReadyState) (requestId : String)
    (encoded sent : Except String Unit) : TaskStage π σ × Bool :=
  match encoded with
  | .error e => (.marking requestId e false, false)
  | .ok () =>
    match socket with
    | none => (.settled true, false)
    | some .closing | some .closed => (.settled true, false)
    | some .connecting => (.settled false, false)
    | some .opened =>
      match sent with
      | .ok () => (.settled true, true)
      | .error _ => (.settled false, false)

/-- A published frame and a replayed one are sent in their own ways. -/
def sendFrame (socket : Option ReadyState) (origin : Origin π) (frame : EventFrame π σ)
    (encoded sent : Except String Unit) : TaskStage π σ × Bool :=
  match origin with
  | .publish => publishSend socket frame encoded sent
  | .replay item => replaySend socket item.requestId encoded sent

def Lane.setStage (s : Lane π σ) (k : Nat) (task : Task π σ) (stage : TaskStage π σ) : Lane π σ :=
  { s with tasks := s.tasks.set k { task with stage := stage } }

/-- `withClientSeqLock`: the callback is queued behind all that were queued before. -/
def Lane.queue (s : Lane π σ) (origin : Origin π) (type : String) (payload : π) (scope : σ) :
    Lane π σ :=
  { s with tasks := s.tasks ++ [⟨origin, type, payload, scope, .waiting⟩] }

/-- The frame of a task is handed to the socket, or is not. -/
def Lane.transmit (s : Lane π σ) (k : Nat) (task : Task π σ) (frame : EventFrame π σ)
    (encoded sent : Except String Unit) : Lane π σ :=
  let outcome := sendFrame s.socket task.origin frame encoded sent
  let moved := s.setStage k task outcome.1
  if outcome.2 then { moved with written := s.written ++ [⟨k, task.origin, frame⟩] } else moved

section
variable (s : Lane π σ) (k : Nat) (task : Task π σ) (frame : EventFrame π σ)
  (encoded sent : Except String Unit)

theorem transmit_tasks : (s.transmit k task frame encoded sent).tasks =
    (s.setStage k task (sendFrame s.socket task.origin frame encoded sent).1).tasks := by
  simp only [Lane.transmit]
  split <;> rfl

theorem transmit_outbox : (s.transmit k task frame encoded sent).outbox = s.outbox := by
  simp only [Lane.transmit]
  split <;> rfl

theorem transmit_diverted : (s.transmit k task frame encoded sent).diverted = s.diverted := by
  simp only [Lane.transmit]
  split <;> rfl

theorem transmit_written : (s.transmit k task frame encoded sent).written =
    if (sendFrame s.socket task.origin frame encoded sent).2 then
      s.written ++ [⟨k, task.origin, frame⟩] else s.written := by
  simp only [Lane.transmit]
  split <;> rfl

end

/-- A step of the lane, of the store below it, of the socket or of the outbox. -/
inductive LaneLabel (π σ : Type*) where
  | checkpoint (l : Checkpoints.Label)
  | socket (state : Option ReadyState)
  | outbox (op : Outbox.Op π)
  | queue (origin : Origin π) (type : String) (payload : π) (scope : σ)
  | begin (k : Nat)
  | load (k : Nat)
  | loadFail (k : Nat)
  | allocate (k : Nat)
  | build (k : Nat) (ts : String)
  | journalFail (k : Nat)
  | transmit (k : Nat) (encoded sent : Except String Unit)
  | enqueue (k : Nat) (id : String) (now : Int)
  | mark (k : Nat) (now : Int)
  | outboxFail (k : Nat)

/-- A process does not restart in its middle, so the checkpoint store takes its other steps only. -/
def Lane.step (s : Lane π σ) : LaneLabel π σ → Option (Lane π σ)
  | .checkpoint .restart => none
  | .checkpoint l => (Checkpoints.step s.checkpoints l).map fun ck => { s with checkpoints := ck }
  | .socket state => some { s with socket := state }
  | .outbox op => some { s with outbox := Outbox.perform s.outbox op }
  | .queue origin type payload scope => some (s.queue origin type payload scope)
  | .begin k =>
    match s.tasks[k]? with
    | some task =>
      if task.isWaiting && Chain.ready Task.isSettled s.tasks k then
        some (s.setStage k task .loading)
      else none
    | none => none
  | .load k =>
    match s.tasks[k]? with
    | some task =>
      match task.stage with
      | .loading => some (s.setStage k task (.loaded (ackOf s.checkpoints.file.content)))
      | _ => none
    | none => none
  | .loadFail k =>
    match s.tasks[k]? with
    | some task =>
      match task.stage with
      | .loading => some (s.setStage k task (.settled false))
      | _ => none
    | none => none
  | .allocate k =>
    match s.tasks[k]? with
    | some task =>
      match task.stage with
      | .loaded ack =>
        some { s.setStage k task (.allocating ack s.checkpoints.allocs.length) with
          checkpoints := { s.checkpoints with allocs := s.checkpoints.allocs ++ [.waiting] } }
      | _ => none
    | none => none
  | .build k ts =>
    match s.tasks[k]? with
    | some task =>
      match task.stage with
      | .allocating ack j =>
        match s.checkpoints.allocs[j]? with
        | some (.returned seq) => some (s.setStage k task (.journaling (task.frame seq ack ts)))
        | some .failed => some (s.setStage k task (.settled false))
        | _ => none
      | _ => none
    | none => none
  | .journalFail k =>
    match s.tasks[k]? with
    | some task =>
      match task.stage with
      | .journaling _ => some (s.setStage k task (.settled false))
      | _ => none
    | none => none
  | .transmit k encoded sent =>
    match s.tasks[k]? with
    | some task =>
      match task.stage with
      | .journaling frame => some (s.transmit k task frame encoded sent)
      | _ => none
    | none => none
  | .enqueue k id now =>
    match s.tasks[k]? with
    | some task =>
      match task.stage with
      | .enqueueing frame reason ok =>
        let requestId := eventRequestId frame.type frame.seq
        match Outbox.enqueue requestId task.type task.payload (some true) id now s.outbox with
        | .error _ => some (s.setStage k task (.settled false))
        | .ok (_, none) => some (s.setStage k task (.marking requestId reason ok))
        | .ok (_, some items) => some { s.setStage k task (.marking requestId reason ok) with
            outbox := items
            diverted := s.diverted ++ [(id, frame)] }
      | _ => none
    | none => none
  | .mark k now =>
    match s.tasks[k]? with
    | some task =>
      match task.stage with
      | .marking requestId reason ok => some { s.setStage k task (.settled ok) with
          outbox := Outbox.markForReplay requestId reason now s.outbox }
      | _ => none
    | none => none
  | .outboxFail k =>
    match s.tasks[k]? with
    | some task =>
      match task.stage with
      | .enqueueing _ _ _ | .marking _ _ _ => some (s.setStage k task (.settled false))
      | _ => none
    | none => none

/-! ### What a step does -/

/-- Stages from which a task goes on without a number or a frame of its own. -/
def TaskStage.isPlain : TaskStage π σ → Bool
  | .waiting | .allocating _ _ | .journaling _ | .enqueueing _ _ _ => false
  | .loading | .loaded _ | .marking _ _ _ | .settled _ => true

/-- The task fulfils its promise, at once or when the outbox has recorded it. -/
def TaskStage.succeeds : TaskStage π σ → Bool
  | .enqueueing _ _ ok | .marking _ _ ok | .settled ok => ok
  | _ => false

/-- The steps of the lane, those that only move one task on taken together. -/
inductive Lane.Moves (s : Lane π σ) : LaneLabel π σ → Lane π σ → Prop
  | checkpoint {l : Checkpoints.Label} {ck : Checkpoints.State} (hl : l ≠ .restart)
      (h : Checkpoints.step s.checkpoints l = some ck) :
      Moves s (.checkpoint l) { s with checkpoints := ck }
  | socket (state : Option ReadyState) : Moves s (.socket state) { s with socket := state }
  | outbox (op : Outbox.Op π) :
      Moves s (.outbox op) { s with outbox := Outbox.perform s.outbox op }
  | queue (origin : Origin π) (type : String) (payload : π) (scope : σ) :
      Moves s (.queue origin type payload scope) (s.queue origin type payload scope)
  | begin {k : Nat} {task : Task π σ} (h : s.tasks[k]? = some task) (hw : task.isWaiting)
      (hr : Chain.ready Task.isSettled s.tasks k) : Moves s (.begin k) (s.setStage k task .loading)
  | move {l : LaneLabel π σ} {k : Nat} {task : Task π σ} {stage : TaskStage π σ}
      {outbox : List (Outbox.Item π)} (h : s.tasks[k]? = some task)
      (hbusy : ¬ task.isWaiting ∧ ¬ task.isSettled) (hplain : stage.isPlain)
      (hok : stage.succeeds → task.stage.succeeds)
      (hout : outbox = s.outbox ∨
        ∃ requestId reason now, outbox = Outbox.markForReplay requestId reason now s.outbox) :
      Moves s l { s.setStage k task stage with outbox := outbox }
  | allocate {k : Nat} {task : Task π σ} {ack : Int} (h : s.tasks[k]? = some task)
      (hstage : task.stage = .loaded ack) : Moves s (.allocate k)
        { s.setStage k task (.allocating ack s.checkpoints.allocs.length) with
          checkpoints := { s.checkpoints with allocs := s.checkpoints.allocs ++ [.waiting] } }
  | build {k : Nat} {ts : String} {task : Task π σ} {ack seq : Int} {j : Nat}
      (h : s.tasks[k]? = some task) (hstage : task.stage = .allocating ack j)
      (hj : s.checkpoints.allocs[j]? = some (.returned seq)) :
      Moves s (.build k ts) (s.setStage k task (.journaling (task.frame seq ack ts)))
  | divert {k : Nat} {task : Task π σ} {frame : EventFrame π σ} {reason id : String} {ok : Bool}
      {now : Int} (h : s.tasks[k]? = some task) (hstage : task.stage = .enqueueing frame reason ok)
      (hfresh : ∀ item ∈ s.outbox, item.requestId ≠ eventRequestId frame.type frame.seq) :
      Moves s (.enqueue k id now)
        { s.setStage k task (.marking (eventRequestId frame.type frame.seq) reason ok) with
          outbox := s.outbox ++ [Outbox.newItem (eventRequestId frame.type frame.seq) task.type
            task.payload (some true) id now]
          diverted := s.diverted ++ [(id, frame)] }
  | transmit {k : Nat} {task : Task π σ} {frame : EventFrame π σ} {encoded sent : Except String Unit}
      (h : s.tasks[k]? = some task) (hstage : task.stage = .journaling frame) :
      Moves s (.transmit k encoded sent) (s.transmit k task frame encoded sent)

theorem busy_of_stage {task : Task π σ} {stage : TaskStage π σ} (h : task.stage = stage)
    (hw : stage ≠ .waiting) (hs : ∀ ok, stage ≠ .settled ok) :
    ¬ task.isWaiting ∧ ¬ task.isSettled := by
  unfold Task.isWaiting Task.isSettled
  rw [h]
  cases stage <;> simp_all

/-- A step of one task that leaves the outbox alone. -/
theorem Lane.Moves.plain {s : Lane π σ} {l : LaneLabel π σ} {k : Nat} {task : Task π σ}
    {stage : TaskStage π σ} (h : s.tasks[k]? = some task)
    (hbusy : ¬ task.isWaiting ∧ ¬ task.isSettled) (hplain : stage.isPlain)
    (hok : stage.succeeds → task.stage.succeeds) : Lane.Moves s l (s.setStage k task stage) := by
  have : s.setStage k task stage = { s.setStage k task stage with outbox := s.outbox } := rfl
  rw [this]
  exact .move h hbusy hplain hok (Or.inl rfl)

/-- Everything that a step can do. -/
theorem Lane.step_moves {s t : Lane π σ} {l : LaneLabel π σ} (h : s.step l = some t) :
    s.Moves l t := by
  cases l with
  | checkpoint l =>
    by_cases hl : l = .restart
    · subst hl
      simp [Lane.step] at h
    · have hstep : (Checkpoints.step s.checkpoints l).map
          (fun ck => { s with checkpoints := ck }) = some t := by
        cases l <;> first | exact h | exact absurd rfl hl
      obtain ⟨ck, hck, rfl⟩ := Option.map_eq_some_iff.mp hstep
      exact .checkpoint hl hck
  | socket state =>
    rw [Lane.step, Option.some.injEq] at h
    exact h ▸ .socket state
  | outbox op =>
    rw [Lane.step, Option.some.injEq] at h
    exact h ▸ .outbox op
  | queue origin type payload scope =>
    rw [Lane.step, Option.some.injEq] at h
    exact h ▸ .queue origin type payload scope
  | begin k =>
    simp only [Lane.step] at h
    split at h <;> [skip; simp at h]
    rename_i task hk
    split at h <;> [skip; simp at h]
    rename_i hw
    rw [Bool.and_eq_true] at hw
    exact Option.some.inj h ▸ .begin hk hw.1 hw.2
  | load k =>
    simp only [Lane.step] at h
    split at h <;> [skip; simp at h]
    rename_i task hk
    split at h <;> [skip; simp at h]
    rename_i hstage
    exact Option.some.inj h ▸ .plain hk (busy_of_stage hstage (by simp) (by simp)) rfl
      (by simp [TaskStage.succeeds])
  | loadFail k =>
    simp only [Lane.step] at h
    split at h <;> [skip; simp at h]
    rename_i task hk
    split at h <;> [skip; simp at h]
    rename_i hstage
    exact Option.some.inj h ▸ .plain hk (busy_of_stage hstage (by simp) (by simp)) rfl
      (by simp [TaskStage.succeeds])
  | allocate k =>
    simp only [Lane.step] at h
    split at h <;> [skip; simp at h]
    rename_i task hk
    split at h <;> [skip; simp at h]
    rename_i ack hstage
    exact Option.some.inj h ▸ .allocate hk hstage
  | build k ts =>
    simp only [Lane.step] at h
    split at h <;> [skip; simp at h]
    rename_i task hk
    split at h <;> [skip; simp at h]
    rename_i ack j hstage
    split at h <;> [skip; skip; simp at h]
    · rename_i seq hj
      exact Option.some.inj h ▸ .build hk hstage hj
    · exact Option.some.inj h ▸ .plain hk (busy_of_stage hstage (by simp) (by simp)) rfl
        (by simp [TaskStage.succeeds])
  | journalFail k =>
    simp only [Lane.step] at h
    split at h <;> [skip; simp at h]
    rename_i task hk
    split at h <;> [skip; simp at h]
    rename_i frame hstage
    exact Option.some.inj h ▸ .plain hk (busy_of_stage hstage (by simp) (by simp)) rfl
      (by simp [TaskStage.succeeds])
  | transmit k encoded sent =>
    simp only [Lane.step] at h
    split at h <;> [skip; simp at h]
    rename_i task hk
    split at h <;> [skip; simp at h]
    rename_i frame hstage
    exact Option.some.inj h ▸ .transmit hk hstage
  | enqueue k id now =>
    simp only [Lane.step] at h
    split at h <;> [skip; simp at h]
    rename_i task hk
    split at h <;> [skip; simp at h]
    rename_i frame reason ok hstage
    have hbusy := busy_of_stage hstage (by simp) (by simp)
    have hok : (TaskStage.marking (eventRequestId frame.type frame.seq) reason ok :
        TaskStage π σ).succeeds → task.stage.succeeds := by
      rw [hstage]
      exact fun h => h
    split at h
    · exact Option.some.inj h ▸ .plain hk hbusy rfl (by simp [TaskStage.succeeds])
    · exact Option.some.inj h ▸ .plain hk hbusy rfl hok
    · rename_i item items henqueue
      obtain ⟨hfresh, rfl⟩ := Outbox.enqueue_added henqueue
      exact Option.some.inj h ▸ .divert hk hstage hfresh
  | mark k now =>
    simp only [Lane.step] at h
    split at h <;> [skip; simp at h]
    rename_i task hk
    split at h <;> [skip; simp at h]
    rename_i requestId reason ok hstage
    refine Option.some.inj h ▸ .move hk (busy_of_stage hstage (by simp) (by simp)) rfl ?_ (Or.inr
      ⟨requestId, reason, now, rfl⟩)
    rw [hstage]
    exact fun h => h
  | outboxFail k =>
    simp only [Lane.step] at h
    split at h <;> [skip; simp at h]
    rename_i task hk
    split at h <;> [skip; skip; simp at h] <;> rename_i hstage <;>
      exact Option.some.inj h ▸ .plain hk (busy_of_stage hstage (by simp) (by simp)) rfl
        (by simp [TaskStage.succeeds])

end Empyralis.Gateway.Cloud
