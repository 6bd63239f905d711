import Empyralis.Gateway.CheckpointSeq
import Empyralis.Gateway.Requests
import Empyralis.Gateway.SeqLaneOrder

/-! `GatewayWsClient`: the event lane and the requests over one socket, one outbox and one checkpoint
    store, with the calls that use them: `publishEvent`, `sendRequest`, `replayPendingOutbox` and
    `replayOutboxItem`, and the handler of the socket's `close`.

    Any number of these calls may be under way. The socket and the active scope change at any time,
    as `connect` and `disconnect` and the socket itself change them; `connect` replays the outbox as
    soon as it has set the active scope, under that scope. -/

namespace Empyralis.Gateway.Cloud

def channelInbound : String := "channel.inbound"

/-- A call of `replayPendingOutbox`: the items still to replay and the replay under way. -/
structure Pass (π σ : Type*) where
  scope : σ
  rest : List (Outbox.Item π)
  current : Option Nat

/-- Where a replay is: about to mark its attempt, on the lane with the task at this place, about to
    acknowledge its item, waiting for the request at this place, or settled. -/
inductive ReplayStage where
  | marking
  | inLane (k : Nat)
  | acknowledging
  | requested (q : Nat)
  | settled (ok : Bool)

/-- A call of `replayOutboxItem`. -/
structure Replay (π σ : Type*) where
  item : Outbox.Item π
  scope : σ
  stage : ReplayStage

/-- `closing` are the reasons with which `onclose` is about to call `handleSocketFailure`. -/
structure Client (π σ : Type*) where
  lane : Lane π σ
  exchange : Exchange π σ
  activeScope : Option σ
  passes : List (Pass π σ)
  replays : List (Replay π σ)
  closing : List String

def Client.start {π σ : Type*} (content : Checkpoints.File) (outbox : List (Outbox.Item π)) :
    Client π σ where
  lane := Lane.start content outbox
  exchange := Exchange.start
  activeScope := none
  passes := []
  replays := []
  closing := []

variable {π σ : Type*}

/-! ### Steps -/

/-- `SAFE_REPLAY_MESSAGE_TYPES` -/
def safeReplayMessageTypes : List String := ["gateway.heartbeat", "gateway.state.update"]

/-- `DANGEROUS_MESSAGE_TYPES` -/
def dangerousMessageTypes : List String := ["tool.invoke", "tool.interrupt", "channel.outbound"]

/-- Whether `sendRequest` replays and persists a request, from its options and the idempotency key in
    its payload; `none` when it refuses. -/
def requestOptions (type : String) (replayable persistOutbox : Option Bool)
    (idempotencyKey : String) : Option (Bool × Bool) :=
  let replays := replayable.getD (safeReplayMessageTypes.contains type)
  if replays && dangerousMessageTypes.contains type && replayable == some true &&
      Text.trim Text.jsSpace idempotencyKey == "" then none
  else some (replays, persistOutbox.getD replays)

def requestFrame (id type : String) (payload : π) (scope : σ) (ts : String) : RequestFrame π σ where
  protocolVersion := protocolVersion
  id := id
  type := type
  ts := ts
  scope := scope
  payload := payload

/-- An operation on the outbox, if there is one. -/
def Lane.perform (s : Lane π σ) (op : Option (Outbox.Op π)) : Lane π σ :=
  match op with
  | none => s
  | some op => { s with outbox := Outbox.perform s.outbox op }

@[simp] theorem perform_tasks (s : Lane π σ) (op : Option (Outbox.Op π)) :
    (s.perform op).tasks = s.tasks := by
  cases op <;> rfl

@[simp] theorem perform_written (s : Lane π σ) (op : Option (Outbox.Op π)) :
    (s.perform op).written = s.written := by
  cases op <;> rfl

@[simp] theorem perform_diverted (s : Lane π σ) (op : Option (Outbox.Op π)) :
    (s.perform op).diverted = s.diverted := by
  cases op <;> rfl

/-- How the replay that a pass waits for has ended; a pass that has begun none goes on. -/
def Client.outcome (s : Client π σ) (pass : Pass π σ) : Option Bool :=
  match pass.current with
  | none => some true
  | some r =>
    match s.replays[r]? with
    | some ⟨_, _, .settled ok⟩ => some ok
    | _ => none

def Client.setReplay (s : Client π σ) (r : Nat) (replay : Replay π σ) (stage : ReplayStage) :
    Client π σ :=
  { s with replays := s.replays.set r { replay with stage := stage } }

/-- `replayOutboxItem` once the attempt is marked. -/
def Client.replay (s : Client π σ) (r : Nat) (replay : Replay π σ) (ts : String) : Client π σ :=
  if replay.item.messageType = channelInbound then
    { s.setReplay r replay (.inLane s.lane.tasks.length) with
      lane := s.lane.queue (.replay replay.item) channelInbound replay.item.payload replay.scope }
  else if s.lane.socket ≠ some .opened then s.setReplay r replay (.settled false)
  else
    { s.setReplay r replay (.requested s.exchange.requests.length) with
      exchange := s.exchange.dispatch (some replay.item)
        (requestFrame replay.item.requestId replay.item.messageType replay.item.payload
          replay.scope ts) replay.item.replayable true }

inductive ClientLabel (π σ : Type*) where
  | lane (l : LaneLabel π σ)
  | exchange (l : ExchangeLabel)
  | socket (state : Option ReadyState)
  | scope (activeScope : Option σ)
  | closed (reason : String)
  | socketFailure (i : Nat)
  | publishEvent (type : String) (payload : π)
  | sendRequest (type id : String) (payload : π) (scope : σ) (ts : String)
      (replayable persistOutbox : Option Bool) (idempotencyKey : String)
  | replayPendingOutbox
  | replayNext (p : Nat)
  | replayItem (r : Nat) (ts : String) (now : Int)
  | replayFail (r : Nat)
  | replaySettle (r : Nat)
  | acknowledge (r : Nat) (now : Int)
  | prune (now : Int)

/-- The steps of the lane that its tasks and the checkpoint store take by themselves. -/
def LaneLabel.isOwn : LaneLabel π σ → Bool
  | .socket _ | .outbox _ | .queue _ _ _ _ => false
  | _ => true

def Client.step (s : Client π σ) : ClientLabel π σ → Option (Client π σ)
  | .lane l => if l.isOwn then (s.lane.step l).map fun lane => { s with lane := lane } else none
  | .exchange l =>
    (s.exchange.step s.lane.socket s.lane.outbox l).map fun (x, op) =>
      { s with exchange := x, lane := s.lane.perform op }
  | .socket state => some { s with lane := { s.lane with socket := state } }
  | .scope activeScope => some { s with activeScope := activeScope }
  | .closed reason =>
    some { s with
      lane := { s.lane with socket := none }
      activeScope := none
      closing := s.closing ++ [reason] }
  | .socketFailure i =>
    match s.closing[i]? with
    | some reason => some { s with
        closing := s.closing.eraseIdx i
        exchange := s.exchange.socketFailure reason }
    | none => none
  | .publishEvent type payload =>
    match s.activeScope with
    | none => some s
    | some scope => some { s with lane := s.lane.queue .publish type payload scope }
  | .sendRequest type id payload scope ts replayable persistOutbox idempotencyKey =>
    match requestOptions type replayable persistOutbox idempotencyKey with
    | none => some s
    | some (replays, persists) =>
      if s.lane.socket ≠ some .opened then some s
      else some { s with exchange :=
        s.exchange.dispatch none (requestFrame id type payload scope ts) replays persists }
  | .replayPendingOutbox =>
    match s.activeScope with
    | none => none
    | some scope => some { s with passes := s.passes ++
        [⟨scope, Outbox.listReplayablePending s.lane.outbox, none⟩] }
  | .replayNext p =>
    match s.passes[p]? with
    | some pass =>
      match s.outcome pass, pass.rest with
      | some true, item :: rest =>
        if s.lane.socket = some .opened then
          some { s with
            replays := s.replays ++ [⟨item, pass.scope, .marking⟩]
            passes := s.passes.set p ⟨pass.scope, rest, some s.replays.length⟩ }
        else some { s with passes := s.passes.set p ⟨pass.scope, [], pass.current⟩ }
      | some false, _ => some { s with passes := s.passes.set p ⟨pass.scope, [], pass.current⟩ }
      | _, _ => none
    | none => none
  | .replayItem r ts now =>
    match s.replays[r]? with
    | some replay =>
      match replay.stage with
      | .marking =>
        let lane := s.lane.perform (some (.markAttemptStarted replay.item.requestId now))
        some (Client.replay { s with lane := lane } r replay ts)
      | _ => none
    | none => none
  | .replayFail r =>
    match s.replays[r]? with
    | some replay =>
      match replay.stage with
      | .marking | .acknowledging => some (s.setReplay r replay (.settled false))
      | _ => none
    | none => none
  | .replaySettle r =>
    match s.replays[r]? with
    | some replay =>
      match replay.stage with
      | .inLane k =>
        match s.lane.tasks[k]? with
        | some ⟨_, _, _, _, .settled true⟩ => some (s.setReplay r replay .acknowledging)
        | some ⟨_, _, _, _, .settled false⟩ => some (s.setReplay r replay (.settled false))
        | _ => none
      | .requested q =>
        match s.exchange.requests[q]? with
        | some ⟨_, _, _, _, .settled ok, _⟩ => some (s.setReplay r replay (.settled ok))
        | _ => none
      | _ => none
    | none => none
  | .acknowledge r now =>
    match s.replays[r]? with
    | some replay =>
      match replay.stage with
      | .acknowledging => some { s.setReplay r replay (.settled true) with
          lane := s.lane.perform (some (.acknowledge replay.item.requestId now)) }
      | _ => none
    | none => none
  | .prune now => some { s with lane := s.lane.perform (some (.prune now)) }

/-! ### What a step does -/

/-- Operations that a replay performs before it settles without an acknowledgement. -/
def IsMark (op : Option (Outbox.Op π)) : Prop :=
  op = none ∨ ∃ requestId now, op = some (.markAttemptStarted requestId now)

/-- The steps of the client, those that differ only in what caused them taken together. -/
inductive Client.Moves (s : Client π σ) : ClientLabel π σ → Client π σ → Prop
  | lane {l : LaneLabel π σ} {lane : Lane π σ} (hown : l.isOwn) (h : s.lane.step l = some lane) :
      Moves s (.lane l) { s with lane := lane }
  | exchange {l : ExchangeLabel} {x : Exchange π σ} {op : Option (Outbox.Op π)}
      (h : s.exchange.step s.lane.socket s.lane.outbox l = some (x, op)) :
      Moves s (.exchange l) { s with exchange := x, lane := s.lane.perform op }
  | connection {l : ClientLabel π σ} (socket : Option ReadyState) (activeScope : Option σ)
      (closing : List String) : Moves s l { s with
        lane := { s.lane with socket := socket }, activeScope := activeScope, closing := closing }
  | failed {l : ClientLabel π σ} (reason : String) (closing : List String) :
      Moves s l { s with closing := closing, exchange := s.exchange.socketFailure reason }
  | publish {l : ClientLabel π σ} (type : String) (payload : π) (scope : σ) :
      Moves s l { s with lane := s.lane.queue .publish type payload scope }
  | request {l : ClientLabel π σ} (frame : RequestFrame π σ) (replayable persistOutbox : Bool) :
      Moves s l { s with exchange := s.exchange.dispatch none frame replayable persistOutbox }
  | list {l : ClientLabel π σ} (scope : σ) : Moves s l { s with passes := s.passes ++
      [⟨scope, Outbox.listReplayablePending s.lane.outbox, none⟩] }
  | endPass {l : ClientLabel π σ} (p : Nat) (scope : σ) (current : Option Nat) :
      Moves s l { s with passes := s.passes.set p ⟨scope, [], current⟩ }
  | next {l : ClientLabel π σ} {p : Nat} {pass : Pass π σ} {item : Outbox.Item π}
      {rest : List (Outbox.Item π)} (h : s.passes[p]? = some pass) (hrest : pass.rest = item :: rest) :
      Moves s l { s with
        replays := s.replays ++ [⟨item, pass.scope, .marking⟩]
        passes := s.passes.set p ⟨pass.scope, rest, some s.replays.length⟩ }
  | replayEvent {l : ClientLabel π σ} {r : Nat} {replay : Replay π σ} {op : Option (Outbox.Op π)}
      (h : s.replays[r]? = some replay) (htype : replay.item.messageType = channelInbound)
      (hop : IsMark op) : Moves s l { s.setReplay r replay (.inLane s.lane.tasks.length) with
        lane := (s.lane.perform op).queue (.replay replay.item) channelInbound replay.item.payload
          replay.scope }
  | replayRequest {l : ClientLabel π σ} {r q : Nat} {replay : Replay π σ} {ts : String}
      {op : Option (Outbox.Op π)} (h : s.replays[r]? = some replay)
      (htype : replay.item.messageType ≠ channelInbound) (hop : IsMark op) :
      Moves s l { s.setReplay r replay (.requested q) with
        lane := s.lane.perform op
        exchange := s.exchange.dispatch (some replay.item)
          (requestFrame replay.item.requestId replay.item.messageType replay.item.payload
            replay.scope ts) replay.item.replayable true }
  | settle {l : ClientLabel π σ} {r : Nat} {replay : Replay π σ} {ok : Bool}
      {op : Option (Outbox.Op π)} (h : s.replays[r]? = some replay) (hop : IsMark op) :
      Moves s l { s.setReplay r replay (.settled ok) with lane := s.lane.perform op }
  | confirm {l : ClientLabel π σ} {r k : Nat} {replay : Replay π σ} {task : Task π σ}
      (h : s.replays[r]? = some replay) (hstage : replay.stage = .inLane k)
      (hk : s.lane.tasks[k]? = some task) (hok : task.stage = .settled true) :
      Moves s l (s.setReplay r replay .acknowledging)
  | acknowledge {r : Nat} {replay : Replay π σ} {now : Int} (h : s.replays[r]? = some replay)
      (hstage : replay.stage = .acknowledging) :
      Moves s (.acknowledge r now) { s.setReplay r replay (.settled true) with
        lane := s.lane.perform (some (.acknowledge replay.item.requestId now)) }
  | prune (now : Int) : Moves s (.prune now) { s with lane := s.lane.perform (some (.prune now)) }

/-- Everything that a step can do. -/
theorem Client.step_moves {s t : Client π σ} {l : ClientLabel π σ} (h : s.step l = some t) :
    s.Moves l t := by
  have hsame : ∀ l, s.Moves l s := fun l => .connection s.lane.socket s.activeScope s.closing
  have hsettle {l : ClientLabel π σ} {r : Nat} {replay : Replay π σ} (ok : Bool)
      (hr : s.replays[r]? = some replay) : s.Moves l (s.setReplay r replay (.settled ok)) :=
    .settle hr (Or.inl rfl)
  cases l with
  | lane l =>
    simp only [Client.step] at h
    split at h <;> [skip; simp at h]
    rename_i hown
    obtain ⟨lane, hlane, rfl⟩ := Option.map_eq_some_iff.mp h
    exact .lane hown hlane
  | exchange l =>
    obtain ⟨⟨x, op⟩, hx, rfl⟩ := Option.map_eq_some_iff.mp h
    exact .exchange hx
  | socket state =>
    exact Option.some.inj h ▸ .connection state s.activeScope s.closing
  | scope activeScope =>
    exact Option.some.inj h ▸ .connection s.lane.socket activeScope s.closing
  | closed reason =>
    exact Option.some.inj h ▸ .connection none none (s.closing ++ [reason])
  | socketFailure i =>
    simp only [Client.step] at h
    split at h <;> [skip; simp at h]
    rename_i reason _
    exact Option.some.inj h ▸ .failed reason _
  | publishEvent type payload =>
    simp only [Client.step] at h
    split at h
    · exact Option.some.inj h ▸ hsame _
    · rename_i scope _
      exact Option.some.inj h ▸ .publish type payload scope
  | sendRequest type id payload scope ts replayable persistOutbox idempotencyKey =>
    simp only [Client.step] at h
    split at h
    · exact Option.some.inj h ▸ hsame _
    · rename_i replays persists _
      split at h
      · exact Option.some.inj h ▸ hsame _
      · exact Option.some.inj h ▸ .request _ replays persists
  | replayPendingOutbox =>
    simp only [Client.step] at h
    split at h <;> [simp at h; skip]
    rename_i scope _
    exact Option.some.inj h ▸ .list scope
  | replayNext p =>
    simp only [Client.step] at h
    split at h <;> [skip; simp at h]
    rename_i pass hp
    split at h <;> [skip; skip; simp at h]
    · rename_i item rest _ hrest
      split at h
      · exact Option.some.inj h ▸ .next hp hrest
      · exact Option.some.inj h ▸ .endPass p pass.scope pass.current
    · exact Option.some.inj h ▸ .endPass p pass.scope pass.current
  | replayItem r ts now =>
    simp only [Client.step] at h
    split at h <;> [skip; simp at h]
    rename_i replay hr
    split at h <;> [skip; simp at h]
    have hmark : IsMark (some (.markAttemptStarted replay.item.requestId now) :
        Option (Outbox.Op π)) := Or.inr ⟨_, _, rfl⟩
    obtain rfl := Option.some.inj h
    unfold Client.replay
    split
    · rename_i htype
      exact .replayEvent hr htype hmark
    · rename_i htype
      split
      · exact .settle hr hmark
      · exact .replayRequest hr htype hmark
  | replayFail r =>
    simp only [Client.step] at h
    split at h <;> [skip; simp at h]
    rename_i replay hr
    split at h <;> [skip; skip; simp at h] <;> exact Option.some.inj h ▸ hsettle false hr
  | replaySettle r =>
    simp only [Client.step] at h
    split at h <;> [skip; simp at h]
    rename_i replay hr
    split at h <;> [skip; skip; simp at h]
    · rename_i k hstage
      split at h <;> [skip; skip; simp at h]
      · rename_i hk
        exact Option.some.inj h ▸ .confirm hr hstage hk rfl
      · exact Option.some.inj h ▸ hsettle false hr
    · split at h <;> [skip; simp at h]
      exact Option.some.inj h ▸ hsettle _ hr
  | acknowledge r now =>
    simp only [Client.step] at h
    split at h <;> [skip; simp at h]
    rename_i replay hr
    split at h <;> [skip; simp at h]
    rename_i hstage
    exact Option.some.inj h ▸ .acknowledge hr hstage
  | prune now =>
    exact Option.some.inj h ▸ .prune now

/-! ### The lane of a client -/

theorem run_perform (s : Lane π σ) (op : Option (Outbox.Op π)) :
    ∃ ls, Run.run Lane.step s ls = some (s.perform op) := by
  cases op with
  | none => exact ⟨[], rfl⟩
  | some op => exact ⟨[.outbox op], rfl⟩

/-- The lane under a client takes steps of its own only. -/
theorem Client.step_lane {s t : Client π σ} {l : ClientLabel π σ} (h : s.step l = some t) :
    ∃ ls, Run.run Lane.step s.lane ls = some t.lane := by
  cases Client.step_moves h with
  | @lane l lane _ hl => exact ⟨[l], by rw [Run.run_cons, hl]; rfl⟩
  | exchange _ => exact run_perform _ _
  | connection socket _ _ => exact ⟨[.socket socket], rfl⟩
  | publish type payload scope => exact ⟨[.queue .publish type payload scope], rfl⟩
  | @replayEvent _ _ replay op _ _ _ =>
    obtain ⟨ls, hls⟩ := run_perform s.lane op
    refine ⟨ls ++ [.queue (.replay replay.item) channelInbound replay.item.payload replay.scope], ?_⟩
    rw [Run.run_append, hls]
    rfl
  | replayRequest _ _ _ => exact run_perform _ _
  | settle _ _ => exact run_perform _ _
  | acknowledge _ _ => exact run_perform s.lane (some _)
  | prune _ => exact run_perform s.lane (some _)
  | failed _ _ | request _ _ _ | list _ | endPass _ _ _ | next _ _ | confirm _ _ _ _ =>
    exact ⟨[], rfl⟩

theorem Client.lane_ordered {content : Checkpoints.File} {outbox : List (Outbox.Item π)}
    {labels : List (ClientLabel π σ)} {t : Client π σ}
    (h : Run.run Client.step (Client.start content outbox) labels = some t) : t.lane.Ordered := by
  refine Run.run_inv_all (I := fun s : Client π σ => s.lane.Ordered) ?_
    (ordered_start content outbox) h
  intro s l u hs hstep
  obtain ⟨ls, hls⟩ := Client.step_lane hstep
  exact Run.run_inv_all (fun _ _ _ hi hst => ordered_step hi hst) hs hls

/-! ### The order of the event frames -/

/-- The numbers of the event frames increase in the order in which the frames are written, so none is
    written twice, and the frames come in the order in which their calls queued for the lane. -/
theorem event_frames_in_order {content : Checkpoints.File} {outbox : List (Outbox.Item π)}
    {labels : List (ClientLabel π σ)} {t : Client π σ}
    (hrun : Run.run Client.step (Client.start content outbox) labels = some t) :
    (t.lane.written.map fun w => w.frame.seq).Pairwise (· < ·) ∧
      (t.lane.written.map fun w => w.frame.seq).Nodup ∧
      (t.lane.written.map fun w => w.place).Pairwise (· < ·) := by
  have hincreasing := (Client.lane_ordered hrun).increasing
  have hseq : (t.lane.written.map fun w => w.frame.seq).Pairwise (· < ·) :=
    List.pairwise_map.mpr (hincreasing.imp fun h => h.2)
  refine ⟨hseq, hseq.imp fun h => ne_of_lt h, ?_⟩
  exact List.pairwise_map.mpr (hincreasing.imp fun h => h.1)

/-- The first task of a process, whose number is not saved, as the checkpoint file cannot be read. -/
def firstTask : List (ClientLabel π σ) :=
  [.lane (.begin 0), .lane (.load 0), .lane (.allocate 0), .lane (.checkpoint (.allocStart 0)),
    .lane (.checkpoint (.allocSeedRead 0)), .lane (.checkpoint (.allocSeed 0)),
    .lane (.checkpoint (.saveReadFail 0)), .lane (.checkpoint (.allocReturn 0)),
    .lane (.build 0 "t"), .lane (.transmit 0 (.ok ()) (.ok ()))]

/-- The task after it, up to its frame. -/
def secondTask : List (ClientLabel π σ) :=
  [.lane (.begin 1), .lane (.load 1), .lane (.allocate 1), .lane (.checkpoint (.allocStart 1)),
    .lane (.checkpoint (.saveRead 1)), .lane (.checkpoint (.saveMerge 1 "t")),
    .lane (.checkpoint (.allocReturn 1)), .lane (.build 1 "t")]

/-- An event that an earlier process left in the outbox. -/
def heldItem : Outbox.Item String :=
  Outbox.newItem "event:channel.inbound:1" channelInbound "held" (some true) "item-1" 0

/-- An event is published while the outbox is replayed. -/
def publishAndReplay : List (ClientLabel String Unit) :=
  [ClientLabel.socket (some .opened), .scope (some ()), .replayPendingOutbox, .replayNext 0,
    .publishEvent "cli.login.output" "line", .replayItem 0 "t" 1] ++ firstTask ++ secondTask ++
    [ClientLabel.lane (.transmit 1 (.ok ()) (.ok ()))]

/-- The published frame comes first, under the number one, and the replayed one second, under two. -/
theorem event_frames_in_order_replay : ∃ t : Client String Unit,
    Run.run Client.step (Client.start Checkpoints.emptyDisk [heldItem]) publishAndReplay = some t ∧
      (t.lane.written.map fun w => (w.place, w.frame.seq, w.frame.payload)) =
        [(0, 1, "line"), (1, 2, "held")] ∧
      (t.lane.written.map fun w => w.frame.seq).Pairwise (· < ·) := by
  have hrun : Run.run Client.step (Client.start Checkpoints.emptyDisk [heldItem])
      publishAndReplay = some _ := rfl
  exact ⟨_, hrun, rfl, (event_frames_in_order hrun).1⟩

end Empyralis.Gateway.Cloud
