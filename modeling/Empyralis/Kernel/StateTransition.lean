import Empyralis.Kernel.Protocol

/-! The decision of the kernel on the end of a run: whether its state lets it be completed or declared
    failed. -/

namespace Empyralis.Kernel.StateTransition

/-- The operations that the server asks about. -/
inductive Operation where
  | complete | fail
  deriving DecidableEq

/-- The states of an entity. -/
inductive State where
  | none | queued | awaitingApproval | approved | running | retryScheduled | completed | failed
  | cancelled | archived | unknown
  deriving DecidableEq

def State.isTerminal : State → Bool
  | .completed | .failed | .cancelled | .archived => true
  | _ => false

/-- The other names of a state. -/
def normalizeState (value : String) : State :=
  match normalizeToken value with
  | "" | "none" | "missing" => .none
  | "queued" | "pending" | "waiting" => .queued
  | "awaiting_approval" | "needs_approval" | "approval_required" => .awaitingApproval
  | "approved" => .approved
  | "running" | "active" => .running
  | "retry_scheduled" | "retry" | "backoff" => .retryScheduled
  | "completed" | "succeeded" | "success" | "done" => .completed
  | "failed" | "error" => .failed
  | "cancelled" | "canceled" => .cancelled
  | "archived" | "retired" => .archived
  | _ => .unknown

/-- What the server reads of a reply. -/
inductive Reply where
  | block (reason : String)
  | allow (reason nextAction : String)
  deriving DecidableEq

def nextAction : Operation → State → String
  | .complete, _ => "complete_state_transition"
  | .fail, .failed => "fail_state_transition"
  | .fail, _ => "review_state_transition"

/-- A transition from one of these states. -/
def transitionIf (operation : Operation) (current : State) (allowed : List State) (next : State)
    (reason : String) : Reply :=
  if allowed.contains current then .allow reason (nextAction operation next)
  else .block "invalid_state_transition"

/-- What is running is completed; what is over stays so. -/
def completeDecision (current : State) : Reply :=
  if current.isTerminal then .allow "state_already_terminal" (nextAction .complete current)
  else transitionIf .complete current [.running] .completed "state_complete_allowed"

/-- What is queued, runs, is to be retried or is approved may fail; what is over stays so. -/
def failDecision (current : State) : Reply :=
  if current.isTerminal then .allow "state_already_terminal" (nextAction .fail current)
  else transitionIf .fail current [.queued, .running, .retryScheduled, .approved] .failed
    "state_fail_allowed"

/-- `version_conflict` -/
def versionConflict (input : Json) : Bool :=
  match (input.get "state_version").bind Json.asU64, (input.get "expected_version").bind Json.asU64 with
  | some current, some expected => current ≠ expected
  | _, _ => false

/-- `state_transition_decision_command`, for a request whose operation is read as one of these two. -/
def stateTransitionDecisionCommand (operation : Operation) (input : Json) : Reply :=
  let current := normalizeState ((stringFieldOr input "current_state" "status").getD "none")
  if versionConflict input then .block "state_version_conflict"
  else
    match operation with
    | .complete => completeDecision current
    | .fail => failDecision current

end Empyralis.Kernel.StateTransition
