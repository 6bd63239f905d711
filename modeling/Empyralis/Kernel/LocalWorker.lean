import Empyralis.Kernel.Protocol

/-! The decision of the kernel on what a local worker asks for a run: a heartbeat or its completion. -/

namespace Empyralis.Kernel.LocalWorker

inductive Operation where
  | runHeartbeat | completeRun
  deriving DecidableEq

/-- The object that `response` builds for an `allow`. -/
structure Response where
  reason : String
  operation : Operation
  nextAction : String
  workspaceId : Option String
  workerId : Option String
  runId : Option String
  actorRole : String
  cacheable : Bool
  auditVisibility : String
  deriving DecidableEq

inductive Reply where
  | block (reason : String)
  | allow (r : Response)
  deriving DecidableEq

/-- `normalize_token` of this command, which keeps empty parts. -/
def token (value : String) : String :=
  String.ofList (((Text.trim Text.rustSpace value).toList.map Char.toLower).map fun c =>
    if c = '-' ∨ c = '.' ∨ c = ' ' then '_' else c)

def i64Max : Nat := 0x7FFFFFFFFFFFFFFF

/-- `boolish` of this command, with the value of a field that is not there. -/
def boolishOr (input : Json) (key : String) (default : Bool) : Bool :=
  match input.get key with
  | none => default
  | some (.bool value) => value
  | some (.string value) =>
    ["1", "true", "yes", "on", "enabled", "active", "present"].contains (token value)
  | some (.number (.posInt n)) => decide (0 < n ∧ n ≤ i64Max)
  | _ => false

def normalizeActorRole (value : String) : String :=
  match token value with
  | "system" | "service" => "system"
  | "owner" | "admin" => "owner"
  | "viewer" | "readonly" | "read_only" => "viewer"
  | _ => "worker"

def runIsActive (runStatus : String) : Bool :=
  runStatus = "" || ["queued_local", "running_local", "running", "starting",
    "waiting_for_input"].contains runStatus

/-- `worker_mismatch`: both are known and differ. -/
def workerMismatch (workerId currentWorkerId : Option String) : Bool :=
  match workerId, currentWorkerId with
  | some requester, some current => requester ≠ current
  | _, _ => false

/-- The checks of `run_heartbeat_decision` and `complete_run_decision`: the status, the claim and its
    worker. -/
def ownedRunDecision (input : Json) (stateInvalid runStatus : String)
    (workerId currentWorkerId : Option String) (owned : Reply) : Reply :=
  if !runIsActive runStatus then .block stateInvalid
  else if boolishOr input "claim_missing" false then .block "local_run_claim_missing"
  else if workerMismatch workerId currentWorkerId then .block "local_run_not_owned_by_worker"
  else owned

def runHeartbeatDecision (input : Json) (workspaceId workerId currentWorkerId runId : Option String)
    (actorRole runStatus : String) : Reply :=
  ownedRunDecision input "local_run_heartbeat_state_invalid" runStatus workerId currentWorkerId
    (.allow ⟨"local_run_heartbeat_allowed", .runHeartbeat, "record_run_heartbeat", workspaceId,
      workerId, runId, actorRole, false, "standard"⟩)

def completeRunDecision (input : Json) (workspaceId workerId currentWorkerId runId : Option String)
    (actorRole runStatus : String) : Reply :=
  ownedRunDecision input "local_run_complete_state_invalid" runStatus workerId currentWorkerId <|
    if boolishOr input "result_required" false && (stringField input "result_text").isNone &&
        (input.get "result_data").isNone then
      .block "local_run_result_missing"
    else
      .allow ⟨"local_run_complete_allowed", .completeRun, "complete_local_run", workspaceId,
        workerId, runId, actorRole, false, "security"⟩

/-- `local_worker_decision_command`, for a request whose operation is read as one of these two. -/
def localWorkerDecisionCommand (operation : Operation) (input : Json) : Reply :=
  let workerId := stringFieldOr input "worker_id" "runtime_id"
  let currentWorkerId := (stringFieldOr input "current_worker_id" "lease_holder_id").or
    (stringField input "claimed_worker_id")
  let runId := stringField input "run_id"
  let runStatus := token ((stringFieldOr input "run_status" "status").getD "")
  let actorRole := normalizeActorRole
    (((stringFieldOr input "actor_role" "user_role").or (stringField input "role")).getD "worker")
  if !boolishOr input "local_companion_enabled" true then .block "local_companion_disabled"
  else if boolishOr input "kill_switch_active" false then .block "local_worker_kill_switch_active"
  else if workerId.isNone then .block "worker_id_missing"
  else if runId.isNone then .block "run_id_missing"
  else
    match operation with
    | .runHeartbeat => runHeartbeatDecision input (stringField input "workspace_id") workerId
        currentWorkerId runId actorRole runStatus
    | .completeRun => completeRunDecision input (stringField input "workspace_id") workerId
        currentWorkerId runId actorRole runStatus

end Empyralis.Kernel.LocalWorker
