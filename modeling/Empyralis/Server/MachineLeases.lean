import Empyralis.Lib.Table
import Empyralis.Server.LeaseGates
import Empyralis.Server.Values

/-! The local queue: runs that wait, runs claimed by a worker, and the operations on them. Each operation
    is one step on the queue's state, as `LOCAL_QUEUE_LOCK` makes it; an exception leaves the state as it
    is when it is raised. -/

namespace Empyralis.Server.Leases
open Text (strip)

/-- A worker in the registry; a field that is not set is empty or zero. -/
structure Worker where
  workerId : String := ""
  runtimeId : String := ""
  machineId : String := ""
  tenantId : String := ""
  workspaceId : String := ""
  machineEnrollmentScope : String := ""
  capabilities : List String := []
  controlState : String := ""
  lifecycleState : String := ""
  status : String := ""
  lastSeenAt : String := ""
  leaseSeconds : Int := 0
  maxConcurrentSessions : Int := 0
  currentRunId : Option String := none
  note : String := ""
  deriving DecidableEq

structure State where
  pending : List String
  claims : Table String Value
  registry : Table String Worker
  runs : Table String Value

/-- What the operations get from outside: `repr`, `str.lower` and `int` (`none` where it raises), and
    the functions and settings that their callers pass. Times are in microseconds. -/
structure Env where
  repr : Value → String
  lower : String → String
  lower_plain : ∀ t : String, (∀ c ∈ t.toList, c.isLower ∨ c = '_') → lower t = t
  int : Value → Option Int
  parseUtcTs : Value → Option Int
  orderedRuntimePreferences : Fields → List String
  requiredCapabilities : Fields → List String
  normalizeCapabilityIds : List String → List String
  leaseSeconds : Int

/-- What an operation does: a result or an exception, and the state it leaves. -/
abbrev Outcome (α : Type) := Except Error α × State

/-- `a or b` of two texts. -/
def either (a b : String) : String := if a = "" then b else a

variable (env : Env)

/-- `str(value or "").strip()` -/
def text (value : Value) : String := value.token env.repr

/-- `str(value or "").strip().lower()` -/
def lowered (value : Value) : String := env.lower (text env value)

/-! ### Runs -/

/-- `value if isinstance(value, dict) else {}` -/
def fieldsOf : Value → Fields
  | .object fields => fields
  | _ => []

def contextOf (run : Fields) : Fields := fieldsOf (Fields.get run "context")

def metadataOf (run : Fields) : Fields := fieldsOf (Fields.get (contextOf run) "metadata")

/-- `context["metadata"] = metadata; run["context"] = context` -/
def putMetadata (run metadata : Fields) : Fields :=
  Fields.put run "context" (.object (Fields.put (contextOf run) "metadata" (.object metadata)))

/-- `a or b` of two values. -/
def orValue (a b : Value) : Value := if a.truthy then a else b

structure Scope where
  workspaceId : String
  tenantId : String
  specialistKey : String
  deriving DecidableEq

/-- `_run_scope_from_payload` -/
def runScope (run : Fields) : Scope :=
  let context := contextOf run
  let metadata := metadataOf run
  let outer (key : String) := orValue (Fields.get run key)
    (orValue (Fields.get context key) (Fields.get metadata key))
  ⟨either (text env (outer "workspace_id")) "default",
    either (text env (outer "tenant_id")) "default",
    either (text env (orValue (Fields.get metadata "active_agent_install_id")
      (orValue (Fields.get metadata "agent_install_id") (Fields.get metadata "agent_role"))))
      "workspace-default"⟩

def statusOf (run : Fields) : String := lowered env (Fields.get run "status")

/-- The scopes of the claimed runs, for `_count_claims_by_scope`. -/
def claimScopes (s : State) : List Scope :=
  s.claims.entries.filterMap fun e =>
    match e.2, s.runs.get? e.1 with
    | .object _, some (.object run) => some (runScope env run)
    | _, _ => none

/-- The scopes of the runs that wait, for `_count_pending_by_scope`. -/
def pendingScopes (s : State) : List Scope :=
  s.pending.filterMap fun runId =>
    match s.runs.get? runId with
    | some (.object run) =>
      if ["queued_local", "starting"].contains (statusOf env run) then some (runScope env run) else none
    | _ => none

/-! ### Workers -/

/-- `_normalize_machine_enrollment_scope` -/
def normalizeMachineEnrollmentScope (value : String) : String :=
  let token := env.lower (strip value)
  if ["workspace", "tenant", "global"].contains token then token else "workspace"

/-- `_worker_runtime_scope_allows_run` -/
def workerRuntimeScopeAllowsRun (record : Option Worker) (scope : Scope) : Bool :=
  match record with
  | none => true
  | some w =>
    let workerTenant := either (strip w.tenantId) "default"
    let workerWorkspace := either (strip w.workspaceId) "default"
    let enrollment := normalizeMachineEnrollmentScope env w.machineEnrollmentScope
    if enrollment = "global" then true
    else if enrollment = "workspace" ∧ scope.tenantId = "default" ∧ workerWorkspace ≠ "default" ∧
        workerWorkspace = scope.workspaceId then true
    else if workerTenant ≠ scope.tenantId then false
    else if enrollment = "tenant" then true
    else workerWorkspace = scope.workspaceId

/-- `str(record.get("control_state") or "active").strip().lower() or "active"` -/
def controlStateOf (w : Worker) : String :=
  either (env.lower (strip (either w.controlState "active"))) "active"

def stoppedByControl (controlState : String) : Bool :=
  ["interrupting", "suspended", "revoked"].contains controlState

/-- `_worker_is_online_for_claim` -/
def workerIsOnlineForClaim (now : Int) (w : Worker) : Bool :=
  let status := either (env.lower (strip (either w.status "idle"))) "idle"
  if ["stopped", "recovering"].contains (env.lower (strip w.lifecycleState)) then false
  else if stoppedByControl (controlStateOf env w) then false
  else if ["offline", "stopped", "recovering"].contains status then false
  else
    match env.parseUtcTs (.string w.lastSeenAt) with
    | none => true
    | some seen => now ≤ seen + max 1 (if w.leaseSeconds = 0 then 30 else w.leaseSeconds) * 1000000

/-- `_best_online_preferred_runtime_from_registry` -/
def bestOnlinePreferredRuntime (registry : Table String Worker) (now : Int)
    (preferred : List String) : Option String :=
  (preferred.map strip).find? fun token => token ≠ "" &&
    match registry.get? token with
    | none => false
    | some w => workerIsOnlineForClaim env now w

/-- `build_machine_presence_record` -/
def buildMachinePresenceRecord (previous : Worker) (machineId : String) (currentRunId : Option String)
    (statusHint : String) (leaseSeconds : Int) (nowIso note : String) : Worker :=
  let id := strip machineId
  if id = "" then previous
  else
    let status := either
      (env.lower (strip (either statusHint (either previous.status "idle")))) "idle"
    { previous with
      workerId := id
      runtimeId := either (strip (either previous.runtimeId id)) id
      machineId := either (strip (either previous.machineId id)) id
      lastSeenAt := nowIso
      status
      currentRunId :=
        if currentRunId.isNone && ["idle", "offline", "stopped", "recovering"].contains status then
          none
        else currentRunId.or previous.currentRunId
      leaseSeconds := if previous.leaseSeconds = 0 then leaseSeconds else previous.leaseSeconds
      note := if note = "" then previous.note else String.ofList (note.toList.take 280) }

/-- `_mark_local_worker_seen` -/
def markLocalWorkerSeen (s : State) (workerId : String) (currentRunId : Option String)
    (statusHint nowIso note : String) : State :=
  let worker := strip workerId
  if worker = "" then s
  else
    let record := buildMachinePresenceRecord env ((s.registry.get? worker).getD {}) worker currentRunId
      statusHint env.leaseSeconds nowIso note
    { s with registry := s.registry.put worker record }

/-! ### `claim_local_machine_lease` -/

/-- The machine under whose name a worker's claims are stored. -/
def machineIdOf (record : Option Worker) (workerId : String) : String :=
  let w := record.getD {}
  either (strip (either w.machineId (either w.runtimeId workerId))) (strip workerId)

/-- `str(claim.get("worker_id") or claim.get("machine_id") or "").strip()` -/
def holderOf (claim : Fields) : String :=
  text env (orValue (Fields.get claim "worker_id") (Fields.get claim "machine_id"))

/-- A claim counts for the worker it is stored under. -/
def heldBy (workerId : String) : Value → Bool
  | .object claim => holderOf env claim = workerId
  | _ => false

structure Eligible where
  runId : String
  run : Fields
  requiredCapabilities : List String
  scope : Scope
  score : List Nat

inductive Look where
  | dropped
  | deferred
  | eligible (item : Eligible)

/-- `set(a).issubset(b)` -/
def subsetOf (a b : List String) : Bool := a.all b.contains

/-- One run that waits, looked at for a worker. -/
def look (s : State) (now : Int) (workerId : String) (record : Option Worker)
    (requested : List String) (queueIndex : Nat) (runId : String) : Except Error Look :=
  match s.runs.get? runId with
  | some (.object run) =>
    if !(["queued_local", "starting"].contains (statusOf env run)) then .ok .dropped
    else
      let metadata := metadataOf run
      let retryDueAt := Fields.get metadata "local_queue_next_retry_at"
      let workerCapabilities := env.normalizeCapabilityIds (record.getD {}).capabilities
      let preferred := bestOnlinePreferredRuntime env s.registry now
        (env.orderedRuntimePreferences run)
      let required := env.requiredCapabilities run
      let scope := runScope env run
      if retryDueAt.truthy && (env.parseUtcTs retryDueAt).any (fun due => decide (now < due)) then
        .ok .deferred
      else if preferred.any (· ≠ workerId) then .ok .deferred
      else if !subsetOf required workerCapabilities then .ok .deferred
      else if requested ≠ [] && !subsetOf required requested then .ok .deferred
      else if !workerRuntimeScopeAllowsRun env record scope then .ok .deferred
      else
        match env.int (orValue (Fields.get metadata "local_queue_retry_count") (.int 0)) with
        | none => .error .value
        | some retryCount => .ok <| .eligible
          { runId, run, requiredCapabilities := required, scope
            score := [if preferred.isSome then 0 else 1,
              (claimScopes env s).countP (·.workspaceId = scope.workspaceId),
              (claimScopes env s).countP (·.specialistKey = scope.specialistKey),
              (pendingScopes env s).countP (·.workspaceId = scope.workspaceId),
              (pendingScopes env s).countP (·.specialistKey = scope.specialistKey),
              (max 0 retryCount).toNat, queueIndex] }
  | _ => .ok .dropped

/-- The runs that keep waiting, and those that the worker may have. -/
def scan (s : State) (now : Int) (workerId : String) (record : Option Worker)
    (requested : List String) : Nat → List String → Except Error (List String × List Eligible)
  | _, [] => .ok ([], [])
  | queueIndex, runId :: rest =>
    match look env s now workerId record requested queueIndex runId with
    | .error e => .error e
    | .ok found =>
      match scan s now workerId record requested (queueIndex + 1) rest with
      | .error e => .error e
      | .ok (remaining, eligible) =>
        match found with
        | .dropped => .ok (remaining, eligible)
        | .deferred => .ok (runId :: remaining, eligible)
        | .eligible item => .ok (runId :: remaining, item :: eligible)

/-- `min(eligible, key=score)`: the first one with the least score. -/
def best : Eligible → List Eligible → Eligible
  | item, [] => item
  | item, other :: rest => best (if other.score < item.score then other else item) rest

/-- `build_queue_partition_key` -/
def buildQueuePartitionKey (workspaceId specialistKey : String) : String :=
  either (strip workspaceId) "default" ++ "::" ++ either (strip specialistKey) "workspace-default"

/-- `build_machine_lease_record` -/
def buildMachineLeaseRecord (machineId runId workspaceId actorId claimedAt leaseId : String)
    (ttlSeconds : Int) (requested granted : List String) (metadata : Fields) : Fields :=
  [("worker_id", .string (strip machineId)), ("machine_id", .string (strip machineId)),
    ("lease_id", .string leaseId), ("run_id", .string (strip runId)),
    ("workspace_id", .string (strip workspaceId)), ("actor_id", .string (strip actorId)),
    ("claimed_at", .string claimedAt), ("last_heartbeat_at", .string claimedAt),
    ("last_progress_event_at", .string claimedAt), ("lease_seconds", .int ttlSeconds),
    ("capabilities_requested", .array (requested.map .string)),
    ("capabilities_granted", .array (granted.map .string)), ("metadata", .object metadata)]

/-- What `uuid.uuid4().hex` gives is never blank. -/
structure Uuid where
  hex : String
  written : strip hex ≠ ""

/-- The clock and the ids that one claim gets. -/
structure Call where
  now : Int
  nowIso : String
  leaseId : String
  uuid : Uuid

/-- The record of a claim by this worker on a run it was found eligible for. -/
def claimRecord (call : Call) (workerId : String) (record : Option Worker) (item : Eligible) :
    Fields :=
  let context := contextOf item.run
  let metadata := metadataOf item.run
  let actorId := text env (orValue (Fields.get metadata "owner_user_id")
    (orValue (Fields.get metadata "user_id") (Fields.get context "user_id")))
  let workerCapabilities := env.normalizeCapabilityIds (record.getD {}).capabilities
  buildMachineLeaseRecord (machineIdOf record workerId) (strip item.runId) item.scope.workspaceId actorId
    call.nowIso (either (strip call.leaseId) call.uuid.hex) env.leaseSeconds
    item.requiredCapabilities (item.requiredCapabilities.filter workerCapabilities.contains)
    [("runtime_id", .string workerId),
      ("contention_strategy", .string "workspace_specialist_weighted_fifo"),
      ("tenant_id", .string item.scope.tenantId), ("specialist_key", .string item.scope.specialistKey),
      ("queue_partition",
        .string (buildQueuePartitionKey item.scope.workspaceId item.scope.specialistKey))]

/-- `str(status or default).strip() or default`, of a status that is asked about. -/
def statusText (status : Value) (default : String) : String := either (text env status) default

/-- The queue transition that a claim asks for. -/
def queueClaim (workerId : String) (item : Eligible) : QueueRequest where
  operation := "claim"
  runId := strip item.runId
  requesterId := workerId
  status := statusText env (Fields.get item.run "status") "queued_local"

/-- `claim_local_machine_lease`, after the cleanup of stale claims that it begins with. -/
def claimLocalMachineLease (call : Call) (s : State) (workerId : String)
    (requiredCapabilities : List String) : Outcome (Option String) :=
  let record := s.registry.get? workerId
  let controlState := controlStateOf env (record.getD {})
  let requested := env.normalizeCapabilityIds requiredCapabilities
  if stoppedByControl controlState then
    (.ok none, markLocalWorkerSeen env s workerId none "idle" call.nowIso
      ("idle_machine_" ++ controlState))
  else
    match scan env s call.now workerId record requested 0 s.pending with
    | .error e => (.error e, s)
    | .ok (remaining, []) =>
      (.ok none, markLocalWorkerSeen env { s with pending := remaining } workerId none "idle"
        call.nowIso (if remaining = [] then "idle_poll" else "idle_capability_wait"))
    | .ok (remaining, first :: rest) =>
      let item := best first rest
      match enforceMachineLeaseDecision (acquireRequest workerId (s.claims.count (heldBy env workerId))
        (record.getD {}).maxConcurrentSessions env.leaseSeconds) with
      | .error e => (.error e, s)
      | .ok () =>
        match enforceQueueTransitionDecision (queueClaim env workerId item) with
        | .error e => (.error e, s)
        | .ok _ =>
          let runId := strip item.runId
          (.ok (some runId), markLocalWorkerSeen env
            { s with
              claims := s.claims.put runId (.object (claimRecord env call workerId record item))
              pending := remaining.filter (· ≠ runId) }
            workerId (some runId) "busy" call.nowIso "claimed_local_run")

end Empyralis.Server.Leases
