import Empyralis.Kernel.LocalWorker

/-! The decision of the kernel on a local worker that stops working on its run: it pauses the run, or
    reports that the run has failed. Both have to say why. -/

namespace Empyralis.Kernel.LocalWorker

inductive StopOperation where
  | pauseRun | failRun
  deriving DecidableEq

/-- The object that `response` builds for an `allow`. -/
structure StopResponse where
  reason : String
  operation : StopOperation
  nextAction : String
  workspaceId : Option String
  workerId : Option String
  runId : Option String
  actorRole : String
  cacheable : Bool
  auditVisibility : String
  deriving DecidableEq

inductive StopReply where
  | block (reason : String)
  | allow (r : StopResponse)
  deriving DecidableEq

/-- The checks of `pause_run_decision` and `fail_run_decision`: the status, the claim and its worker, and
    whether the reason is there. -/
def stoppedRunDecision (input : Json) (stateInvalid missing runStatus : String)
    (workerId currentWorkerId : Option String) (given : Bool) (stopped : StopResponse) : StopReply :=
  if !runIsActive runStatus then .block stateInvalid
  else if boolishOr input "claim_missing" false then .block "local_run_claim_missing"
  else if workerMismatch workerId currentWorkerId then .block "local_run_not_owned_by_worker"
  else if !given then .block missing
  else .allow stopped

def pauseRunDecision (input : Json) (workspaceId workerId currentWorkerId runId : Option String)
    (actorRole runStatus : String) : StopReply :=
  stoppedRunDecision input "local_run_pause_state_invalid" "local_run_pause_reason_missing" runStatus
    workerId currentWorkerId
    ((stringField input "wait_reason").isSome || (input.get "browser_checkpoint").isSome)
    ⟨"local_run_pause_allowed", .pauseRun, "pause_local_run", workspaceId, workerId, runId, actorRole,
      false, "security"⟩

def failRunDecision (input : Json) (workspaceId workerId currentWorkerId runId : Option String)
    (actorRole runStatus : String) : StopReply :=
  stoppedRunDecision input "local_run_fail_state_invalid" "local_run_error_missing" runStatus workerId
    currentWorkerId (stringField input "error").isSome
    ⟨"local_run_fail_allowed", .failRun, "fail_local_run", workspaceId, workerId, runId, actorRole, false,
      "security"⟩

/-- `local_worker_decision_command`, for a request whose operation is read as one of these two. -/
def localWorkerStopCommand (operation : StopOperation) (input : Json) : StopReply :=
  let workerId := stringFieldOr input "worker_id" "runtime_id"
  let currentWorkerId := (stringFieldOr input "current_worker_id" "lease_holder_id").or
    (stringField input "claimed_worker_id")
  let runId := stringField input "run_id"
  let runStatus := token ((stringFieldOr input "run_status" "status").getD "")
  let actorRole := normalizeActorRole
    (((stringFieldOr input "actor_role" "user_role").or (stringField input "role")).getD "worker")
  if !boolishOr input "local_companion_enabled" true then .block "local_companion_disabled"
  else if boolishOr input "kill_switch_active" false then .block "local_worker_kill_switch_active"
  else if workerId.isNone then .block "worker_id_missing"
  else if runId.isNone then .block "run_id_missing"
  else
    match operation with
    | .pauseRun => pauseRunDecision input (stringField input "workspace_id") workerId currentWorkerId
        runId actorRole runStatus
    | .failRun => failRunDecision input (stringField input "workspace_id") workerId currentWorkerId runId
        actorRole runStatus

theorem stopped_blocked (input : Json) (stateInvalid missing runStatus : String)
    (workerId currentWorkerId : Option String) (stopped : StopResponse) :
    ∃ reason, stoppedRunDecision input stateInvalid missing runStatus workerId currentWorkerId false
      stopped = .block reason := by
  unfold stoppedRunDecision
  split
  · exact ⟨_, rfl⟩
  · split
    · exact ⟨_, rfl⟩
    · split <;> exact ⟨_, rfl⟩

/-- A request that gives no reason is refused. -/
theorem stop_blocked {operation : StopOperation} {input : Json}
    (hreason : stringField input "wait_reason" = none) (hcheckpoint : input.get "browser_checkpoint" = none)
    (herror : stringField input "error" = none) :
    ∃ reason, localWorkerStopCommand operation input = .block reason := by
  simp only [localWorkerStopCommand, pauseRunDecision, failRunDecision, hreason, hcheckpoint, herror,
    Option.isSome_none, Bool.or_self]
  split
  · exact ⟨_, rfl⟩
  split
  · exact ⟨_, rfl⟩
  split
  · exact ⟨_, rfl⟩
  split
  · exact ⟨_, rfl⟩
  cases operation with
  | pauseRun => exact stopped_blocked ..
  | failRun => exact stopped_blocked ..

end Empyralis.Kernel.LocalWorker
