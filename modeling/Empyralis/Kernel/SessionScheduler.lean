import Empyralis.Kernel.StateStore

/-! The decision of the kernel on a wake or a retry of the session scheduler, for the operations that the
    server asks for. Their requests name no session: what is read of one has its default, which gives no
    reason. -/

namespace Empyralis.Kernel.SessionScheduler
open StateStore (reasonIf normalizeOr)

/-- The operations that the server asks about. -/
inductive Operation where
  | wakeDecision | eventTrigger | selfProposedTrigger
  | claimWakeRequests | finalizeWakeRequests | scheduleRetry | failureDecision
  deriving DecidableEq

def Operation.text : Operation → String
  | .wakeDecision => "wake_decision"
  | .eventTrigger => "event_trigger"
  | .selfProposedTrigger => "self_proposed_trigger"
  | .claimWakeRequests => "claim_wake_requests"
  | .finalizeWakeRequests => "finalize_wake_requests"
  | .scheduleRetry => "schedule_retry"
  | .failureDecision => "failure_decision"

/-- The triggers of a new wake. -/
def Operation.wakes : Operation → Bool
  | .wakeDecision | .eventTrigger | .selfProposedTrigger => true
  | _ => false

/-- `requires_workspace` -/
def Operation.requiresWorkspace : Operation → Bool
  | .wakeDecision | .eventTrigger | .selfProposedTrigger | .claimWakeRequests | .finalizeWakeRequests => true
  | .scheduleRetry | .failureDecision => false

/-- What the server sends of a request. -/
structure Request where
  operation : Operation
  workspaceId : String
  triggerId : String
  wakeMode : String
  priority : Int
  attempt : Int
  maxRetries : Option Int
  schedulerEnabled : Bool
  quietHoursStart : Int
  quietHoursEnd : Int
  currentHour : Int
  quietHoursOverride : Bool
  maxEventTriggersPerHour : Int
  maxSelfProposedPerHour : Int
  batteryPercent : Int
  minimumBatteryPercent : Int
  networkOnline : Bool
  requireNetworkOnline : Bool
  requireOwnerApproval : Bool
  ownerApprovalProvided : Bool

/-- `number`: an integer that is none of `i64` is read as the default. -/
def number (n default : Int) : Int := if -0x8000000000000000 ≤ n ∧ n < 0x8000000000000000 then n else default

def clamp (low high n : Int) : Int := max low (min high n)

/-- `in_quiet_hours` -/
def inQuietHours (currentHour start finish : Int) : Bool :=
  if start = finish then false
  else if start < finish then start ≤ currentHour && currentHour < finish
  else start ≤ currentHour || currentHour < finish

namespace Request
variable (r : Request)

/-- The hours are clamped to those of a day. -/
def quietNow : Bool :=
  inQuietHours (clamp 0 23 (number r.currentHour 12)) (clamp 0 23 (number r.quietHoursStart 23))
    (clamp 0 23 (number r.quietHoursEnd 7))

/-- The battery is below its minimum. -/
def batteryLow : Bool := number r.batteryPercent 100 < clamp 0 100 (number r.minimumBatteryPercent 20)

/-- The network is required and not there. -/
def networkOffline : Bool := r.requireNetworkOnline && !r.networkOnline

def mode : String := normalizeOr r.wakeMode "event"

/-- The wakes of this hour, which no request has, count as 0. -/
def eventRateLimited : Bool := max 1 (number r.maxEventTriggersPerHour 4) ≤ 0

def selfProposedRateLimited : Bool := max 1 (number r.maxSelfProposedPerHour 2) ≤ 0

/-- A wake that the agent has proposed itself. -/
def selfProposed : Bool :=
  r.operation.wakes && (r.mode = "self_proposed" || r.operation = .selfProposedTrigger)

/-- An approval is required and not given, and the priority is below 80. -/
def needsOwner : Bool := r.requireOwnerApproval && !r.ownerApprovalProvided && number r.priority 0 < 80

/-- No attempt is left. -/
def attemptsExhausted : Bool := max 0 (number (r.maxRetries.getD 5) 5) ≤ max 0 (number r.attempt 0)

/-- The reasons for which a request is blocked, in the order of the source. -/
def blocks : List String :=
  reasonIf (r.operation = .scheduleRetry && r.attemptsExhausted) "retry_attempts_exhausted" ++
  reasonIf (!r.schedulerEnabled) "scheduler_disabled" ++
  reasonIf (r.operation.wakes && (present r.triggerId).isNone) "trigger_id_missing" ++
  reasonIf (r.operation.requiresWorkspace && (present r.workspaceId).isNone) "workspace_id_missing"

/-- The reasons for which a request needs an approval. -/
def approvals : List String :=
  reasonIf (r.selfProposed && r.selfProposedRateLimited) "self_proposed_wake_rate_limited" ++
  reasonIf (r.selfProposed && r.needsOwner) "self_proposed_wake_requires_owner_approval"

/-- The flags of the reply, in alphabetical order. -/
def normalizedFlags : List String :=
  ["auto_reset_enabled"] ++
  reasonIf r.batteryLow "battery_low" ++
  reasonIf (r.operation.wakes && r.eventRateLimited) "event_trigger_rate_limited" ++
  ["idle_pruning_enabled"] ++
  reasonIf r.networkOffline "network_offline" ++
  reasonIf (r.operation = .failureDecision && r.attemptsExhausted) "permanent_failure" ++
  reasonIf r.quietNow "quiet_hours_active" ++
  reasonIf (r.operation = .scheduleRetry && r.quietNow && !r.quietHoursOverride) "retry_deferred_by_quiet_hours" ++
  reasonIf (r.operation.wakes && r.batteryLow) "wake_deferred_by_battery" ++
  reasonIf (r.operation.wakes && r.networkOffline) "wake_deferred_by_network" ++
  reasonIf (r.operation.wakes && r.quietNow && !r.quietHoursOverride && r.mode ≠ "owner_approved")
    "wake_deferred_by_quiet_hours"

/-- A flag that puts the operation off. -/
def defers (flag : String) : Bool :=
  "wake_deferred".toList.isPrefixOf flag.toList || flag = "event_trigger_rate_limited" ||
    flag = "retry_deferred_by_quiet_hours"

/-- One of the flags defers the request. -/
def deferred : Bool := r.normalizedFlags.any defers

end Request

/-- What the kernel answers. -/
inductive Decision where
  | block | requireApproval | defer | allow
  deriving DecidableEq

/-- A block goes before an approval, and an approval before a deferral. -/
def decision (r : Request) : Decision :=
  if r.blocks ≠ [] then .block
  else if r.approvals ≠ [] && !r.ownerApprovalProvided then .requireApproval
  else if r.deferred then .defer
  else .allow

/-- The text of the decision. -/
def reason (r : Request) : String :=
  match decision r with
  | .block => "; ".intercalate r.blocks
  | .requireApproval => "; ".intercalate r.approvals
  | .defer => "session_scheduler_deferred"
  | .allow => "session_scheduler_policy_satisfied"

/-- `next_action` -/
def nextAction : Operation → Decision → String
  | _, .block => "stop_session_scheduler_operation"
  | _, .requireApproval => "request_session_scheduler_approval"
  | _, .defer => "defer_session_scheduler_operation"
  | .wakeDecision, .allow => "trigger_wakeup"
  | .eventTrigger, .allow => "schedule_event_trigger"
  | .selfProposedTrigger, .allow => "schedule_self_proposed_trigger"
  | .scheduleRetry, .allow => "schedule_retry"
  | .failureDecision, .allow => "record_scheduler_failure"
  | .claimWakeRequests, .allow => "claim_due_wake_requests"
  | .finalizeWakeRequests, .allow => "finalize_wake_requests"

/-! ### What a decision rests on -/

variable {r : Request}

/-- A wake is put off for the quiet hours, the battery or the network. -/
def Request.wakeDeferred (r : Request) : Bool :=
  (r.quietNow && !r.quietHoursOverride && r.mode ≠ "owner_approved") || r.batteryLow || r.networkOffline

@[simp] theorem eventRateLimited_eq : r.eventRateLimited = false := by
  refine decide_eq_false fun h => ?_
  omega

@[simp] theorem selfProposedRateLimited_eq : r.selfProposedRateLimited = false := by
  refine decide_eq_false fun h => ?_
  omega

theorem any_reasonIf {holds : Bool} {text : String} {p : String → Bool} :
    (reasonIf holds text).any p = (holds && p text) := by
  cases holds <;> simp [reasonIf]

theorem wakes_ne {op : Operation} (h : op.wakes = true) : op ≠ .scheduleRetry ∧ op ≠ .failureDecision := by
  cases op <;> simp_all [Operation.wakes]

theorem defers_eq : ["auto_reset_enabled", "battery_low", "event_trigger_rate_limited", "idle_pruning_enabled",
    "network_offline", "permanent_failure", "quiet_hours_active", "retry_deferred_by_quiet_hours",
    "wake_deferred_by_battery", "wake_deferred_by_network", "wake_deferred_by_quiet_hours"].map Request.defers =
      [false, false, true, false, false, false, false, true, true, true, true] := by
  decide

theorem deferred_eq : r.deferred = (r.operation.wakes && r.wakeDeferred ||
    (r.operation = .scheduleRetry && r.quietNow && !r.quietHoursOverride)) := by
  have hdefers := defers_eq
  simp only [List.map_cons, List.map_nil, List.cons.injEq, and_true] at hdefers
  obtain ⟨hreset, hlow, hrate, hidle, hoffline, hpermanent, hquiet, hretry, hbattery, hnetwork, hhours⟩ := hdefers
  simp only [Request.deferred, Request.normalizedFlags, List.any_append, any_reasonIf, List.any_cons, List.any_nil,
    hreset, hlow, hrate, hidle, hoffline, hpermanent, hquiet, hretry, hbattery, hnetwork, hhours, eventRateLimited_eq]
  unfold Request.wakeDeferred
  cases r.operation.wakes <;> cases r.batteryLow <;> cases r.networkOffline <;> simp [Bool.or_comm]

theorem decision_of_blocks (h : r.blocks = []) : decision r =
    if r.selfProposed && r.needsOwner then .requireApproval else if r.deferred then .defer else .allow := by
  have happrovals : (r.approvals ≠ [] && !r.ownerApprovalProvided) = (r.selfProposed && r.needsOwner) := by
    unfold Request.approvals Request.needsOwner
    cases r.selfProposed <;> cases r.requireOwnerApproval <;> cases r.ownerApprovalProvided <;>
      simp [reasonIf]
  rw [decision, if_neg (not_not.mpr h), happrovals]

end Empyralis.Kernel.SessionScheduler
