import Empyralis.Server.HeartbeatTurns

/-! One tick (`_execute_heartbeat_run`): the claim of due wakes, their bundle, and for each group of it the turn,
    its execution and the finalization of its wakes. Each of these may raise. -/

namespace Empyralis.Server.Heartbeat
open Text (strip)
open Wakes

variable (env : Env)

/-- What the tick tells apart: a `ValueError`, any other `Exception`, and what is none, as a cancellation. -/
inductive Fault where
  | valueError (message : String)
  | exception
  | exit

/-- The steps of a group: whether building its turn raises, what the execution gives, and after how many of its
    wakes the finalization raises. -/
structure GroupSteps where
  build : Option Fault
  execute : Except Fault Fields
  finalize : Option (Nat × Fault)
  time : Int

/-- The order in which a statement returns its rows. -/
structure Returning where
  order : List WakeRequest → List WakeRequest
  perm : ∀ rows, (order rows).Perm rows

/-- The arguments of a tick and what its steps give or raise. The claim may raise before its statement or after it
    is committed (`true`); `groups` has the steps of the groups, by their places. -/
structure Tick where
  tasks : List String
  metadata : Fields
  resolveTenant : Except Fault String
  pendingSchedules : Except Fault (List Fields)
  now : Int
  dueBefore : Int
  limit : Nat
  claim : Option (Bool × Fault)
  returned : Returning
  bundle : Except Fault Surroundings
  defaultProvider : String → String
  groups : Nat → GroupSteps

/-! ### What a tick answers -/

/-- What came of a group. -/
structure GroupResult where
  authorityTier : Tier
  payload : Fields
  runId : Option String
  wakeRequestIds : List String
  contextEventIds : List String
  schedulerMode : String

/-- What a tick returns. -/
structure Answer where
  acted : Bool
  runId : Option String
  summary : String
  schedulerMode : Option String
  wakeRequestIds : List String
  contextEventIds : List String
  groups : List GroupResult

/-- A tick returns or raises. -/
inductive Response where
  | returned (answer : Answer)
  | raised (fault : Fault)

def notActed (summary : String) (schedulerMode : Option String) : Answer :=
    ⟨false, none, summary, schedulerMode, [], [], []⟩

def notConfigured : Answer := notActed "Heartbeat workspace scope is not configured." none

/-- A tick that has neither tasks nor wakes. -/
def withoutWork : List Fields → Answer
  | [] => notActed "No pending heartbeat tasks." (some "idle")
  | schedule :: schedules =>
    ⟨true, some (text env schedule "run_id") |>.filter (· ≠ ""),
      s!"Heartbeat started {(schedule :: schedules).length} pending schedule(s).", some "exact_schedule", [], [], []⟩

def named (text : String) : Option String := if text = "" then none else some text

/-- `_extract_turn_run_id` -/
def extractTurnRunId (payload : Fields) : Option String :=
  if (payload.get "run_id").truthy then named (text env payload "run_id")
  else named (text env (coerceDict (payload.get "result")) "run_id")

/-! ### One group -/

/-- A turn that was executed, the wakes it was given, and those of them that were finalized. -/
structure Execution where
  turn : TurnRequest
  wakeRequests : List Item
  outcome : Outcome
  finalized : List Item

/-- What the groups so far have left. -/
structure Progress where
  rows : List WakeRequest
  executions : List Execution
  results : List GroupResult
  firstError : Option Fault

/-- The finalization of the wakes of a group, and what it raises. A group without wakes has none. -/
def finalizeGroup (p : Progress) (steps : GroupSteps) (turn : TurnRequest) (wakes : List Item) (outcome : Outcome) :
    Progress × Option Fault :=
  if wakes.isEmpty then ({ p with executions := p.executions ++ [⟨turn, wakes, outcome, []⟩] }, none)
  else
    let done := steps.finalize.elim wakes fun raises => wakes.take raises.1
    ({ p with
      rows := finalizeWakeRequests env p.rows steps.time (done.map (·.id)) outcome
      executions := p.executions ++ [⟨turn, wakes, outcome, done⟩] }, steps.finalize.map (·.2))

/-- The result of a group with the payload of its turn. -/
def groupResult (g : Group) (payload : Fields) : GroupResult where
  authorityTier := g.authorityTier
  payload := payload
  runId := extractTurnRunId env payload
  wakeRequestIds := g.wakeRequests.map (·.id.text)
  contextEventIds := g.contextEventIds
  schedulerMode := g.schedulerMode

/-- The `run_id` that an executed wake gets. -/
def runIdValue (payload : Fields) : Value := (extractTurnRunId env payload).elim .null .string

/-- The turn of a group, or what building it raises. -/
def groupTurn (t : Tick) (metadata : Fields) (pending : List Fields) (surroundings : Surroundings) (steps : GroupSteps)
    (g : Group) : Except Fault TurnRequest :=
  match steps.build with
  | some fault => .error fault
  | none =>
    (buildHeartbeatTurnRequest env t.defaultProvider g.heartbeatTasks metadata pending g.authorityTier g.wakeRequests
      surroundings).mapError .valueError

/-- One round of the loop over the groups, with the response of a tick that ends there. -/
def runGroup (t : Tick) (metadata : Fields) (pending : List Fields) (surroundings : Surroundings) (p : Progress)
    (steps : GroupSteps) (g : Group) : Progress × Option Response :=
  if g.heartbeatTasks.isEmpty && g.wakeRequests.isEmpty then (p, none)
  else
    match groupTurn env t metadata pending surroundings steps g with
    | .error (.valueError message) => (p, some (.returned (notActed message none)))
    | .error fault => (p, some (.raised fault))
    | .ok turn =>
      match steps.execute with
      | .error .exit => (p, some (.raised .exit))
      | .error fault =>
        let (p, raised) := finalizeGroup env p steps turn g.wakeRequests .failed
        ({ p with firstError := p.firstError.or (some fault) }, raised.map .raised)
      | .ok payload =>
        let (p, raised) := finalizeGroup env p steps turn g.wakeRequests (.executed (runIdValue env payload))
        ({ p with results := p.results ++ [groupResult env g payload] }, raised.map .raised)

/-- The loop, from the group at this place. -/
def runGroups (t : Tick) (metadata : Fields) (pending : List Fields) (surroundings : Surroundings) :
    List Group → Nat → Progress → Progress × Option Response
  | [], _, p => (p, none)
  | g :: groups, i, p =>
    match runGroup env t metadata pending surroundings p (t.groups i) g with
    | (p, some response) => (p, some response)
    | (p, none) => runGroups t metadata pending surroundings groups (i + 1) p

/-! ### The tick -/

/-- What a tick leaves: the rows, the wakes that it had claimed, the turns that it executed, and its response. -/
structure Finished where
  rows : List WakeRequest
  claimed : List WakeRequest
  executions : List Execution
  response : Response

/-- The metadata with the tenant, which is looked up where it is missing. -/
def scopedMetadata (t : Tick) : Except Fault Fields :=
  if text env t.metadata "tenant_id" ≠ "" then .ok t.metadata
  else t.resolveTenant.map fun tenant =>
    if strip tenant = "" then t.metadata else t.metadata.put "tenant_id" (.string (strip tenant))

/-- The metadata and the pending schedules with which a tick comes to its claim. -/
def prepare (t : Tick) : Except Response (Fields × List Fields) :=
  if text env t.metadata "workspace_id" = "" then .error (.returned notConfigured)
  else
    match scopedMetadata env t, t.pendingSchedules with
    | .error fault, _ => .error (.raised fault)
    | .ok _, .error fault => .error (.raised fault)
    | .ok metadata, .ok pending => .ok (metadata, pending)

/-- The rows after the claim, the claimed ones among them, and what the claim raises. -/
def claimStep (rows : List WakeRequest) (t : Tick) (metadata : Fields) :
    List WakeRequest × List WakeRequest × Option Fault :=
  let claimed := t.returned.order ((candidates rows t.dueBefore t.limit).map (claimRow t.now))
  if text env metadata "tenant_id" = "" then (rows, [], none)
  else
    match t.claim with
    | some (false, fault) => (rows, [], some fault)
    | some (true, fault) => (claimDueWakeRequests rows t.now t.dueBefore t.limit, claimed, some fault)
    | none => (claimDueWakeRequests rows t.now t.dueBefore t.limit, claimed, none)

/-- The text of what was started. -/
def summary (t : Tick) (pending : List Fields) (wakes groups : Nat) : String :=
  if wakes = 0 then
    s!"Heartbeat started a run for {t.tasks.length} task(s)." ++
      if pending.isEmpty then "" else s!" Also started {pending.length} pending schedule(s)."
  else s!"Scheduler triggered {wakes} wake request(s) across {groups} tier group(s) " ++
    s!"and {t.tasks.length} heartbeat task(s)."

/-- The response of a tick that has come through its groups. -/
def conclude (t : Tick) (pending : List Fields) (wakes groups : Nat) (p : Progress) : Response :=
  match p.firstError, p.results with
  | some fault, _ => .raised fault
  | none, [] => .returned (notActed "No pending heartbeat tasks." (some "idle"))
  | none, primary :: results =>
    .returned
      { acted := true
        runId := primary.runId
        summary := summary t pending wakes groups
        schedulerMode := some primary.schedulerMode
        wakeRequestIds := (primary :: results).flatMap (·.wakeRequestIds)
        contextEventIds := (primary :: results).flatMap (·.contextEventIds)
        groups := primary :: results }

/-- The groups of a tick: those of the bundle, or one of the owner for the tasks alone. -/
def groupsOf (t : Tick) (claimed : List WakeRequest) : List Group :=
  if claimed.isEmpty then [buildGroup env t.tasks .owner []]
  else (buildWakeupExecutionBundle env t.tasks (claimed.map (·.read env))).groups

/-- The loop over the groups and what comes after it. -/
def runBundle (t : Tick) (metadata : Fields) (pending : List Fields) (rows claimed : List WakeRequest)
    (surroundings : Surroundings) : Finished :=
  let groups := groupsOf env t claimed
  let (p, stopped) := runGroups env t metadata pending surroundings groups 0 ⟨rows, [], [], none⟩
  ⟨p.rows, claimed, p.executions, stopped.getD (conclude t pending claimed.length groups.length p)⟩

/-- What a tick does with what its claim has given. -/
def afterClaim (t : Tick) (metadata : Fields) (pending : List Fields) :
    List WakeRequest × List WakeRequest × Option Fault → Finished
  | (rows, claimed, some fault) => ⟨rows, claimed, [], .raised fault⟩
  | (rows, claimed, none) =>
    if claimed.isEmpty && t.tasks.isEmpty then ⟨rows, claimed, [], .returned (withoutWork env pending)⟩
    else if claimed.isEmpty then runBundle env t metadata pending rows claimed .none
    else
      match t.bundle with
      | .error fault => ⟨rows, claimed, [], .raised fault⟩
      | .ok surroundings => runBundle env t metadata pending rows claimed surroundings

/-- `_execute_heartbeat_run` -/
def executeHeartbeatRun (rows : List WakeRequest) (t : Tick) : Finished :=
  match prepare env t with
  | .error response => ⟨rows, [], [], response⟩
  | .ok (metadata, pending) => afterClaim env t metadata pending (claimStep env rows t metadata)

end Empyralis.Server.Heartbeat
