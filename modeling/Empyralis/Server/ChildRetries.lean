import Empyralis.Lib.Run
import Empyralis.Server.ChildRuns
import Mathlib.Logic.Relation

/-! The automatic retries of the failed children of a run: what is planned when the parent's state is
    refreshed, what a timer does when it fires, and which lineage a retry comes to be in. -/

namespace Empyralis.Server.Delegation
open Text (strip)

/-- The parent, the limit on its retries, and the delay that the scheduler gives a retry. -/
structure Config extends Env where
  parentRunId : String
  autoRetryMaxRetries : Nat
  delaySeconds : Nat → Nat

/-- An entry of `delegation_pending_retries`. -/
structure PendingRetry where
  failedChildRunId : String
  attempt : Int
  nextRetryAt : Option Nat

/-- A timer that runs; `dict` is the `pending_retry_state` of the call that has started it. -/
structure Timer where
  failedChild : Snapshot
  pending : String × String
  dict : Nat
  due : Nat

/-- The known runs, the metadata of the parent (if it is live), and what is kept in memory: the
    `pending_retry_state` of each call so far, `auto_retry_pending`, `auto_retry_attempts` and the
    timers. -/
structure State where
  runs : Table String Run
  parentLive : Bool
  pendingRetries : Table String PendingRetry
  dicts : List (Table String PendingRetry)
  autoRetryPending : List (String × String)
  autoRetryAttempts : Table (String × String) Int
  timers : List Timer
  now : Nat

variable (cfg : Config)

/-! ### The request for a retry -/

def orValue (a b : Value) : Value := if a.truthy then a else b

/-- `normalize_requested_max_iterations`, nothing when it raises. -/
def normalizeRequestedMaxIterations (env : Env) : Value → Option (Option Int)
  | .null => some none
  | .string "" => some none
  | .array _ => none
  | .object _ => none
  | value =>
    let parsed := safeInt env value 0
    if parsed ≤ 0 then none else some (some parsed)

/-- What a retry is started with. -/
structure RetryPayload where
  agentRole : String
  userGoal : String
  businessPlan : Option String
  maxIterations : Option Int
  metadata : Metadata

def childContext (child : Snapshot) : Context := child.context.getD {}

/-- `build_retry_child_payload`, nothing when it raises. -/
def buildRetryChildPayload (env : Env) (child : Snapshot) : Option RetryPayload :=
  let context := childContext child
  let metadata := childMetadata child
  let retryRootRunId := (normalizeRunIdToken env metadata.retryRootRunId).or
    (normalizeRunIdToken env (.string child.runId))
  let role := env.agentRole (orValue child.agentRole metadata.agentRole)
  let plan := context.businessPlan.token env.repr
  (toInt env (orValue metadata.retrySequence (.int 0))).bind fun sequence =>
    (normalizeRequestedMaxIterations env (orValue context.maxIterations metadata.maxIterations)).map
      fun maxIterations =>
        { agentRole := if role = "" then child.agentRole.token env.repr else role
          userGoal := (orValue context.userGoal child.userGoal).token env.repr
          businessPlan := if plan = "" then none else some plan
          maxIterations := maxIterations
          metadata := { metadata with
            retryOfRunId := .string (strip child.runId)
            retryRootRunId := (retryRootRunId.map Value.string).getD .null
            retrySequence := .int (sequence + 1)
            retryCount := .int (childRetryCount env child + 1) } }

/-- The run that `build_delegated_child_run_request` asks for, once it is created. -/
def delegatedRun (parentRunId status : String) (now : Nat) (payload : RetryPayload) : Run where
  status := status
  createdAt := some now
  updatedAt := some now
  context :=
    { userGoal := .string payload.userGoal
      businessPlan := (payload.businessPlan.map Value.string).getD .null
      maxIterations := (payload.maxIterations.map Value.int).getD .null
      metadata := { payload.metadata with
        agentRole := .string payload.agentRole
        parentRunId := .string parentRunId } }

/-! ### Planning retries -/

/-- A call of `schedule_auto_retry_for_failed_children`: its own `pending_retry_state`, and the lineages
    that it has scheduled. -/
structure Call where
  state : State
  retryState : Table String PendingRetry
  scheduled : List String

/-- `_persist_parent_retry_state` -/
def persistParentRetryState (call : Call) : Call :=
  if call.state.parentLive then
    { call with state := { call.state with pendingRetries := call.retryState } }
  else call

/-- The lineage has no retry pending. -/
def forget (call : Call) (lineage : String) : Call :=
  persistParentRetryState { call with retryState := call.retryState.erase lineage }

/-- The attempts that were counted of a pending retry. -/
def attempts (state : State) (pending : String × String) : Int :=
  (state.autoRetryAttempts.get? pending).getD 0

/-- `_schedule_retry_timer`, and the lineage counts as scheduled. -/
def scheduleRetryTimer (call : Call) (lineage : String) (failedChild : Snapshot) (due : Nat)
    (attempt : Int) : Call :=
  let pending := (cfg.parentRunId, lineage)
  { call with
    state := { call.state with
      autoRetryPending := call.state.autoRetryPending.insert pending
      autoRetryAttempts :=
        call.state.autoRetryAttempts.put pending (max (attempts call.state pending) attempt)
      timers := call.state.timers ++ [⟨failedChild, pending, call.state.dicts.length, due⟩] }
    scheduled := call.scheduled.insert lineage }

/-- `_scheduler_retry_decision`: the delay of the retry that the scheduler allows. The source takes an answer only
    with the action `schedule_retry`, and the kernel's own action is `retry`; the decision here is the one of a
    scheduler that allows a retry below the limit and says `schedule_retry`. -/
def schedulerRetryDecision (retryCount : Int) : Option Nat :=
  if retryCount.toNat < max 1 cfg.autoRetryMaxRetries then some (cfg.delaySeconds retryCount.toNat)
  else none

/-- `AUTO_RETRY_DELAY_SECONDS` -/
def autoRetryDelaySeconds : Nat := 3

def microseconds (seconds : Nat) : Nat := seconds * 1000000

/-- `scheduler_delay_seconds` -/
def schedulerDelay (delaySeconds : Nat) : Nat :=
  microseconds (if delaySeconds = 0 then autoRetryDelaySeconds else delaySeconds)

/-- An entry of the lineage that is about another of its runs goes. -/
def dropOther (call : Call) (lineage : String) (child : Snapshot) : Call :=
  match call.retryState.get? lineage with
  | none => call
  | some entry =>
    if strip entry.failedChildRunId ≠ "" ∧ strip entry.failedChildRunId ≠ strip child.runId then
      forget call lineage
    else call

/-- A retry that is pending waits on, or starts to wait again. -/
def resumeRetry (call : Call) (lineage : String) (child : Snapshot) (entry : PendingRetry) : Call :=
  let attempt := max 1 entry.attempt
  if (cfg.autoRetryMaxRetries : Int) < attempt then forget call lineage
  else if (cfg.parentRunId, lineage) ∈ call.state.autoRetryPending then
    { call with scheduled := call.scheduled.insert lineage }
  else
    scheduleRetryTimer cfg call lineage child
      (max call.state.now (entry.nextRetryAt.getD call.state.now)) attempt

/-- A new retry, if the scheduler allows it. -/
def startRetry (call : Call) (lineage : String) (child : Snapshot) : Call :=
  let retryCount := max (childRetryCount cfg.toEnv child) (attempts call.state (cfg.parentRunId, lineage))
  match schedulerRetryDecision cfg retryCount with
  | none => call
  | some delaySeconds =>
    let due := call.state.now + schedulerDelay delaySeconds
    let entry : PendingRetry := ⟨strip child.runId, retryCount + 1, some due⟩
    scheduleRetryTimer cfg
      (persistParentRetryState { call with retryState := call.retryState.put lineage entry })
      lineage child due (retryCount + 1)

/-- The latest run of a lineage in the loop over them. -/
def visitLineage (call : Call) (entry : String × Snapshot) : Call :=
  let (lineage, child) := entry
  if !failureStatus cfg.toEnv child.status || lineage = "" then call
  else
    let call := dropOther call lineage child
    match call.retryState.get? lineage with
    | some pending => resumeRetry cfg call lineage child pending
    | none => startRetry cfg call lineage child

/-- `stale_lineages` -/
def staleLineages (latest : Table String Snapshot) (retryState : Table String PendingRetry) :
    List String :=
  retryState.keys.filter fun lineage =>
    match latest.get? lineage with
    | none => true
    | some child => !failureStatus cfg.toEnv child.status

def eraseAll (retryState : Table String PendingRetry) (lineages : List String) :
    Table String PendingRetry :=
  lineages.foldl Table.erase retryState

/-- The `pending_retry_state` that a call starts from. -/
def parentRetries (state : State) : Table String PendingRetry :=
  if state.parentLive then state.pendingRetries else Table.empty

/-- A call before its loop: what is stale has gone. -/
def openCall (state : State) (latest : Table String Snapshot) : Call :=
  let stale := staleLineages cfg latest (parentRetries state)
  let call : Call := ⟨state, eraseAll (parentRetries state) stale, []⟩
  if stale.isEmpty then call else persistParentRetryState call

/-- `schedule_auto_retry_for_failed_children` -/
def scheduleAutoRetry (state : State) (children : List Snapshot) : State × List String :=
  if strip cfg.parentRunId = "" then (state, [])
  else
    let latest := latestByLineage cfg.toEnv children
    let call := latest.entries.foldl (visitLineage cfg) (openCall cfg state latest)
    ({ call.state with dicts := call.state.dicts ++ [call.retryState] }, call.scheduled)

/-- The children of the parent among the runs. -/
def children (state : State) : List Snapshot := findChildRuns cfg.toEnv state.runs cfg.parentRunId

/-- `refresh_parent_delegation_state`, as far as it plans retries. -/
def refresh (state : State) : State := (scheduleAutoRetry cfg state (children cfg state)).1

/-! ### A timer that fires -/

/-- `latest_for_lineage` -/
def latestForLineage (children : List Snapshot) (lineage : String) : Option Snapshot :=
  Latest.latest childSortKey (children.filter (childLineageKey cfg.toEnv · = lineage))

/-- The child that the timer still has to retry. -/
def retryTarget (state : State) (timer : Timer) : Option Snapshot :=
  (latestForLineage cfg (children cfg state) timer.pending.2).bind fun latest =>
    if strip latest.runId ≠ strip timer.failedChild.runId then none
    else if failureStatus cfg.toEnv latest.status then some latest
    else none

/-- The run that a request leads to: its new id and its first status. -/
structure Created where
  runId : String
  status : String

/-- `_retry_job` up to its `finally`; the request for a run may fail. -/
def retryJob (state : State) (timer : Timer) (created : Option Created) : State :=
  match created, (retryTarget cfg state timer).bind (buildRetryChildPayload cfg.toEnv) with
  | some new, some payload =>
    { state with
      runs := state.runs.put new.runId (delegatedRun cfg.parentRunId new.status state.now payload) }
  | _, _ => state

/-- The `finally` of `_retry_job`, before the parent is refreshed. -/
def settleRetry (state : State) (timer : Timer) : State :=
  let dicts := state.dicts.modify timer.dict fun dict => dict.erase timer.pending.2
  { state with
    autoRetryPending := state.autoRetryPending.filter (· ≠ timer.pending)
    dicts := dicts
    pendingRetries :=
      if state.parentLive then dicts.getD timer.dict state.pendingRetries else state.pendingRetries }

/-- A timer that comes to its time. -/
def fire (state : State) (timer : Timer) (created : Option Created) : State :=
  refresh cfg (settleRetry (retryJob cfg state timer created) timer)

/-! ### Runs of the system -/

/-- A run gets a status, the parent is refreshed, or a timer fires. -/
inductive Event where
  | report (runId status : String) (now : Nat)
  | refresh (now : Nat)
  | fire (index : Nat) (created : Option Created) (now : Nat)

/-- The id of a run, as `str(uuid.uuid4())` gives it. -/
def Canonical (runId : String) : Prop :=
  runId ≠ "" ∧ strip runId = runId ∧ cfg.uuid runId = some runId

instance (runId : String) : Decidable (Canonical cfg runId) := by
  unfold Canonical
  infer_instance

/-- The id is that of no run yet. -/
def Fresh (state : State) (created : Option Created) : Prop :=
  ∀ new ∈ created, Canonical cfg new.runId ∧ new.runId ≠ cfg.parentRunId ∧
    new.runId ∉ state.runs.keys

instance (state : State) (created : Option Created) : Decidable (Fresh cfg state created) := by
  unfold Fresh
  infer_instance

/-- A run that has failed gets no other status. -/
def step (state : State) : Event → Option State
  | .report runId status now =>
    match state.runs.get? runId with
    | some run =>
      if state.now ≤ now ∧ failureStatus cfg.toEnv run.status = false then
        some { state with
          runs := state.runs.put runId { run with status := status, updatedAt := some now }
          now := now }
      else none
    | none => none
  | .refresh now => if state.now ≤ now then some (refresh cfg { state with now := now }) else none
  | .fire index created now =>
    match state.timers[index]? with
    | some timer =>
      if state.now ≤ now ∧ timer.due ≤ now ∧ Fresh cfg state created then
        some (fire cfg { state with timers := state.timers.eraseIdx index, now := now } timer created)
      else none
    | none => none

end Empyralis.Server.Delegation
