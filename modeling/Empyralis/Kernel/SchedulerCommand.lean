import Empyralis.Kernel.SessionScheduler
import Empyralis.Lib.BoundedInt
import Mathlib.Algebra.Group.Int.Defs
import Mathlib.Data.List.Destutter
import Mathlib.Data.List.Sort
import Mathlib.Data.String.Basic

/-! The session scheduler's command as the kernel runs it: the whole payload, with its numbers as 64-bit words. -/

namespace Empyralis.Kernel.SchedulerCommand

open StateStore (normalize normalizeOr reasonIf)
open SessionScheduler (Decision inQuietHours)

/-- `i64` -/
abbrev I64 := BoundedInt (-0x8000000000000000) 0x7FFFFFFFFFFFFFFF

/-- `i64::MAX` -/
def i64Max : Int := 0x7FFFFFFFFFFFFFFF

/-- A literal; one out of range would not compile. -/
instance (n : Nat) : OfNat I64 n := ⟨BoundedInt.saturate (by decide) n⟩

/-! ### What is read of a payload -/

/-- `as_i64` -/
def asI64 : Number → Option I64
  | .posInt n => BoundedInt.ofInt? n
  | .negInt n => BoundedInt.ofInt? (-n)
  | .float _ => none

/-- `str::parse::<i64>` -/
def parseI64 (text : String) : Option I64 :=
  let (sign, digits) : Int × List Char := match text.toList with
    | '+' :: rest => (1, rest)
    | '-' :: rest => (-1, rest)
    | cs => (1, cs)
  let n : Nat := digits.foldl (fun n c => 10 * n + (c.toNat - 48)) 0
  if digits ≠ [] ∧ digits.all Char.isDigit then BoundedInt.ofInt? (sign * n) else none

/-- The first text that there is under one of the keys. -/
def text (payload : Json) (keys : List String) : String := (keys.findSome? (stringField payload)).getD ""

/-- A number, or a text that is one. -/
def numeric : Json → Option I64
  | .number value => asI64 value
  | .string value => parseI64 (Text.trim Text.rustSpace value)
  | _ => none

/-- The first number that there is under one of the keys. -/
def number (payload : Json) (keys : List String) (default : I64) : I64 :=
  (keys.findSome? fun key => (payload.get key).bind numeric).getD default

/-- What is read as a flag: a boolean, a word for yes, or a number over zero. -/
def boolean : Json → Option Bool
  | .bool value => some value
  | .string value => some (["1", "true", "yes", "on", "enabled"].contains (normalize value))
  | .number value => (asI64 value).map fun n => 0 < n
  | _ => none

/-- The first of the keys that holds a boolean. -/
def flag (payload : Json) (keys : List String) (default : Bool) : Bool :=
  (keys.findSome? fun key => (payload.get key).bind boolean).getD default

/-- The operations that the command knows. -/
def operations : List String :=
  ["resolve_lifecycle_policy", "session_status", "session_turn", "auto_reset_check", "idle_check", "prune_candidates",
    "prune_sessions", "quiet_hours_status", "wake_decision", "event_trigger", "self_proposed_trigger",
    "retry_metadata", "retry_decision", "schedule_retry", "failure_decision", "claim_wake_requests",
    "finalize_wake_requests", "ambient_monitor_status"]

/-- The presets of a session; an unknown one is refused. -/
def presets : List String := ["short", "standard", "extended", "unlimited"]

/-- The other names of an operation. -/
def normalizeOperation (value : String) : String :=
  match normalize value with
  | "policy" | "resolve_policy" => "resolve_lifecycle_policy"
  | "status" => "session_status"
  | "turn" => "session_turn"
  | "auto_reset" => "auto_reset_check"
  | "idle" => "idle_check"
  | "prune" => "prune_sessions"
  | "quiet_hours" => "quiet_hours_status"
  | "wake" => "wake_decision"
  | "event" => "event_trigger"
  | "self_proposed" => "self_proposed_trigger"
  | "retry" => "retry_decision"
  | "fail" => "failure_decision"
  | "claim_due_wake_requests" => "claim_wake_requests"
  | "finalize_wake_request" => "finalize_wake_requests"
  | "ambient" => "ambient_monitor_status"
  | other => other

/-- The other names of a preset; the default is `standard`. -/
def normalizePreset (value : String) : String :=
  match normalize value with
  | "long" => "extended"
  | "none" => "unlimited"
  | "" => "standard"
  | other => other

/-- The turns of a session; with 0 there is no limit. -/
def presetMaxTurns : String → I64
  | "short" => 50
  | "extended" => 500
  | "unlimited" => 0
  | _ => 100

/-- The idle hours of a preset. -/
def presetIdleHours : String → I64
  | "short" => 12
  | "extended" => 72
  | "unlimited" => 24
  | _ => 24

/-- The days after which a preset prunes. -/
def presetPruneDays : String → I64
  | "short" => 3
  | "extended" => 30
  | "unlimited" => 7
  | _ => 7

/-- The days for which a preset retains. -/
def presetRetentionDays : String → I64
  | "short" => 30
  | "extended" | "unlimited" => 730
  | _ => 365

/-- Operations that are refused without a workspace. -/
def requiresWorkspace (operation : String) : Bool :=
  ["prune_candidates", "prune_sessions", "quiet_hours_status", "wake_decision", "event_trigger",
    "self_proposed_trigger", "claim_wake_requests", "finalize_wake_requests", "ambient_monitor_status"].contains
      operation

/-- Operations that are refused without a session. -/
def requiresSession (operation : String) : Bool :=
  ["session_status", "session_turn", "auto_reset_check", "idle_check"].contains operation

/-- Operations of the scheduler, as against those on a session. -/
def schedulerOperation (operation : String) : Bool :=
  ["quiet_hours_status", "wake_decision", "event_trigger", "self_proposed_trigger", "retry_metadata",
    "retry_decision", "schedule_retry", "failure_decision", "claim_wake_requests", "finalize_wake_requests",
    "ambient_monitor_status"].contains operation

/-- What the command reads of its payload. -/
structure Request where
  operation : String
  workspaceId : String
  sessionId : String
  triggerId : String
  preset : String
  planTier : String
  status : String
  turnCount : I64
  maxTurns : I64
  ageHours : I64
  idleHours : I64
  idleTimeoutHours : I64
  pruneAfterIdleDays : I64
  retentionDays : I64
  autoResetEnabled : Bool
  autoResetAfterTurns : I64
  autoResetAfterHours : I64
  enforceMaxTurns : Bool
  idlePruningEnabled : Bool
  dryRun : Bool
  quietHoursStart : I64
  quietHoursEnd : I64
  currentHour : I64
  quietHoursOverride : Bool
  wakeMode : String
  priority : I64
  eventTriggersThisHour : I64
  selfProposedThisHour : I64
  maxEventTriggersPerHour : I64
  maxSelfProposedPerHour : I64
  maxRuntimeSeconds : I64
  batteryPercent : I64
  minimumBatteryPercent : I64
  networkOnline : Bool
  requireNetworkOnline : Bool
  ownerApprovalRequired : Bool
  ownerApprovalProvided : Bool
  attempt : I64
  maxRetries : I64
  baseDelaySeconds : I64
  maxDelaySeconds : I64
  schedulerEnabled : Bool
  ambientRegistered : Bool
  candidateCount : I64
  maxPruneBatch : I64

/-- The payload as it is read, each field with its default and its bounds. -/
def request (payload : Json) : Request :=
  let preset := normalizePreset (text payload ["preset", "lifecycle_preset"])
  { operation := normalizeOperation (text payload ["operation", "action"])
    workspaceId := text payload ["workspace_id"]
    sessionId := text payload ["session_id"]
    triggerId := text payload ["trigger_id", "schedule_id", "event_id"]
    preset := preset
    planTier := normalizeOr (text payload ["plan_tier"]) "free"
    status := normalizeOr (text payload ["status", "session_status"]) "active"
    turnCount := number payload ["turn_count"] 0
    maxTurns := number payload ["max_turns_per_session", "max_turns"] (presetMaxTurns preset)
    ageHours := number payload ["age_hours"] 0
    idleHours := number payload ["idle_hours"] 0
    idleTimeoutHours := number payload ["idle_timeout_hours"] (presetIdleHours preset)
    pruneAfterIdleDays := number payload ["prune_after_idle_days"] (presetPruneDays preset)
    retentionDays := number payload ["retention_days"] (presetRetentionDays preset)
    autoResetEnabled := flag payload ["auto_reset_enabled"] (preset ≠ "unlimited")
    autoResetAfterTurns := number payload ["auto_reset_after_turns"] 0
    autoResetAfterHours := number payload ["auto_reset_after_hours"] 24
    enforceMaxTurns := flag payload ["enforce_max_turns"] (preset ≠ "unlimited")
    idlePruningEnabled := flag payload ["idle_pruning_enabled"] (preset ≠ "unlimited")
    dryRun := flag payload ["dry_run"] false
    quietHoursStart := (number payload ["quiet_hours_start"] 23).clamp 0 23
    quietHoursEnd := (number payload ["quiet_hours_end"] 7).clamp 0 23
    currentHour := (number payload ["current_hour"] 12).clamp 0 23
    quietHoursOverride := flag payload ["quiet_hours_override", "owner_override"] false
    wakeMode := normalizeOr (text payload ["wake_mode", "trigger_kind"]) "event"
    priority := number payload ["priority"] 0
    eventTriggersThisHour := number payload ["event_triggers_this_hour"] 0
    selfProposedThisHour := number payload ["self_proposed_this_hour"] 0
    maxEventTriggersPerHour := max (number payload ["max_event_triggers_per_hour"] 4) 1
    maxSelfProposedPerHour := max (number payload ["max_self_proposed_per_hour"] 2) 1
    maxRuntimeSeconds := (number payload ["max_runtime_seconds"] 20).clamp 5 300
    batteryPercent := number payload ["battery_percent"] 100
    minimumBatteryPercent := (number payload ["minimum_battery_percent"] 20).clamp 0 100
    networkOnline := flag payload ["network_online"] true
    requireNetworkOnline := flag payload ["require_network_online"] false
    ownerApprovalRequired := flag payload ["require_owner_approval_for_privileged_wakeups"] true
    ownerApprovalProvided := flag payload ["owner_approval_provided", "approval_provided"] false
    attempt := max (number payload ["attempt", "retry_attempt"] 0) 0
    maxRetries := max (number payload ["max_retries", "retry_max"] 5) 0
    baseDelaySeconds := max (number payload ["base_delay_seconds"] 30) 1
    maxDelaySeconds := max (number payload ["max_delay_seconds"] 3600) 1
    schedulerEnabled := flag payload ["scheduler_enabled", "enabled"] true
    ambientRegistered := flag payload ["ambient_registered", "monitor_registered"] false
    candidateCount := number payload ["candidate_count", "sessions_count"] 0
    maxPruneBatch := max (number payload ["max_prune_batch"] 100) 1 }

/-! ### What is decided -/

/-- `sort` and `dedup` -/
def sorted (reasons : List String) : List String := (reasons.insertionSort (· ≤ ·)).destutter (· ≠ ·)

namespace Request
variable (r : Request)

def quietNow : Bool := inQuietHours r.currentHour.val r.quietHoursStart.val r.quietHoursEnd.val

def batteryLow : Bool := r.batteryPercent < r.minimumBatteryPercent

def networkOffline : Bool := r.requireNetworkOnline && !r.networkOnline

/-- Operations that wake an agent. -/
def wakes : Bool := ["wake_decision", "event_trigger", "self_proposed_trigger"].contains r.operation

/-- Operations of a retry. -/
def retries : Bool := ["retry_metadata", "retry_decision", "schedule_retry"].contains r.operation

def prunes : Bool := ["prune_sessions", "prune_candidates"].contains r.operation

def selfProposed : Bool := r.wakes && (r.wakeMode = "self_proposed" || r.operation = "self_proposed_trigger")

def attemptsExhausted : Bool := r.maxRetries ≤ r.attempt

def turnLimitReached : Bool :=
  r.enforceMaxTurns && 0 < r.maxTurns && r.maxTurns ≤ r.turnCount &&
    ["session_turn", "session_status"].contains r.operation

/-- A session is idle for long enough, or old enough; the product saturates. -/
def pruneEligible : Bool :=
  r.idleTimeoutHours ≤ r.idleHours || r.pruneAfterIdleDays.saturatingMul 24 ≤ r.ageHours

/-- The reasons to refuse the request. -/
def blocks : List String := sorted <|
  (if r.operation = "" then ["session_scheduler_operation_missing"]
    else reasonIf (!operations.contains r.operation) ("unknown_session_scheduler_operation:" ++ r.operation)) ++
  reasonIf (!presets.contains r.preset) "unknown_lifecycle_preset" ++
  reasonIf (requiresWorkspace r.operation && r.workspaceId = "") "workspace_id_missing" ++
  reasonIf (requiresSession r.operation && r.sessionId = "") "session_id_missing" ++
  reasonIf (!r.schedulerEnabled && schedulerOperation r.operation && r.operation ≠ "ambient_monitor_status")
    "scheduler_disabled" ++
  reasonIf (r.retentionDays ≤ 0) "retention_days_must_be_positive" ++
  reasonIf (r.maxTurns < 0) "max_turns_must_not_be_negative" ++
  reasonIf (r.wakes && r.triggerId = "") "trigger_id_missing" ++
  reasonIf (r.retries && r.attemptsExhausted) "retry_attempts_exhausted"

/-- The reasons to ask the owner. -/
def approvals : List String := sorted <|
  reasonIf (730 < r.retentionDays) "extended_session_retention_requires_review" ++
  reasonIf r.turnLimitReached "session_turn_limit_reached" ++
  reasonIf (r.prunes && r.maxPruneBatch < r.candidateCount) "large_session_prune_batch_requires_review" ++
  reasonIf (r.prunes && !r.dryRun && 0 < r.candidateCount) "session_prune_requires_approval" ++
  reasonIf (r.selfProposed && r.maxSelfProposedPerHour ≤ r.selfProposedThisHour) "self_proposed_wake_rate_limited" ++
  reasonIf (r.selfProposed && r.ownerApprovalRequired && !r.ownerApprovalProvided && r.priority < 80)
    "self_proposed_wake_requires_owner_approval"

/-- What else is found of the request; some of it puts a wake off. -/
def normalizedFlags : List String := sorted <|
  reasonIf r.autoResetEnabled "auto_reset_enabled" ++
  reasonIf (r.autoResetEnabled && 0 < r.autoResetAfterTurns && r.autoResetAfterTurns ≤ r.turnCount)
    "auto_reset_turn_threshold_met" ++
  reasonIf (r.autoResetEnabled && 0 < r.autoResetAfterHours && r.autoResetAfterHours ≤ r.ageHours)
    "auto_reset_age_threshold_met" ++
  reasonIf r.idlePruningEnabled "idle_pruning_enabled" ++
  reasonIf (r.idlePruningEnabled && r.pruneEligible) "session_prune_eligible" ++
  reasonIf (schedulerOperation r.operation && r.quietNow) "quiet_hours_active" ++
  reasonIf (schedulerOperation r.operation && r.batteryLow) "battery_low" ++
  reasonIf (schedulerOperation r.operation && r.networkOffline) "network_offline" ++
  reasonIf (r.wakes && r.quietNow && !r.quietHoursOverride && r.wakeMode ≠ "owner_approved")
    "wake_deferred_by_quiet_hours" ++
  reasonIf (r.wakes && r.batteryLow) "wake_deferred_by_battery" ++
  reasonIf (r.wakes && r.networkOffline) "wake_deferred_by_network" ++
  reasonIf (r.wakes && r.maxEventTriggersPerHour ≤ r.eventTriggersThisHour) "event_trigger_rate_limited" ++
  reasonIf (r.retries && r.quietNow && !r.quietHoursOverride) "retry_deferred_by_quiet_hours" ++
  reasonIf (r.operation = "failure_decision" && r.attemptsExhausted) "permanent_failure" ++
  reasonIf (r.operation = "ambient_monitor_status" && !r.ambientRegistered) "ambient_monitor_missing"

/-- A refusal goes before an approval, and an approval before a delay. -/
def decision : Decision :=
  if r.blocks ≠ [] then .block
  else if r.approvals ≠ [] && !r.ownerApprovalProvided then .requireApproval
  else if r.normalizedFlags.any SessionScheduler.Request.defers then .defer
  else .allow

/-- The text of the decision. -/
def reason : String :=
  match r.decision with
  | .block => "; ".intercalate r.blocks
  | .requireApproval => "; ".intercalate r.approvals
  | .defer => "session_scheduler_deferred"
  | .allow => "session_scheduler_policy_satisfied"

end Request

/-- What the caller is told to do next. -/
def nextAction (operation : String) : Decision → String
  | .block => "stop_session_scheduler_operation"
  | .requireApproval => "request_session_scheduler_approval"
  | .defer => "defer_session_scheduler_operation"
  | .allow =>
    match operation with
    | "resolve_lifecycle_policy" => "apply_lifecycle_policy"
    | "session_status" => "return_session_status"
    | "session_turn" => "allow_session_turn"
    | "auto_reset_check" => "evaluate_auto_reset"
    | "idle_check" => "evaluate_idle_state"
    | "prune_candidates" => "list_prune_candidates"
    | "prune_sessions" => "prune_idle_sessions"
    | "quiet_hours_status" => "return_quiet_hours_status"
    | "wake_decision" => "trigger_wakeup"
    | "event_trigger" => "schedule_event_trigger"
    | "self_proposed_trigger" => "schedule_self_proposed_trigger"
    | "retry_metadata" => "build_retry_metadata"
    | "retry_decision" | "schedule_retry" => "schedule_retry"
    | "failure_decision" => "record_scheduler_failure"
    | "claim_wake_requests" => "claim_due_wake_requests"
    | "finalize_wake_requests" => "finalize_wake_requests"
    | "ambient_monitor_status" => "return_ambient_monitor_status"
    | _ => "review_session_scheduler_operation"

/-- One round of the loop over the attempts. -/
def retryRound (maxDelay delay : I64) : I64 := min (delay.saturatingMul 2) maxDelay

/-- `retry_delay_seconds`: the base, doubled for each attempt up to the limit. -/
def retryDelaySeconds (attempt baseDelay maxDelay : I64) : I64 :=
  let delay := (retryRound maxDelay)^[(attempt.clamp 0 16).val.toNat] (max baseDelay 1)
  max (min delay maxDelay) 1

/-- `turns_remaining`; its subtraction is not a saturating one. -/
def turnsRemaining (turnCount maxTurns : I64) (enforce : Bool) : Except String (Option I64) :=
  if !enforce || maxTurns ≤ 0 then .ok none
  else
    match maxTurns.sub turnCount with
    | .ok n => .ok (some (max n 0))
    | .error panic => .error panic

/-- The answer; the request's fields go into it as they are. -/
structure Response where
  ok : Bool
  decision : Decision
  reason : String
  nextAction : String
  approvalRequired : Bool
  cacheable : Bool
  auditVisibility : String
  request : Request
  turnsRemaining : Option I64
  quietHoursActive : Bool
  retryDelaySeconds : I64
  retryNextAction : String
  normalizedFlags : List String
  blockReasons : List String
  approvalReasons : List String

/-- The answer, or the panic of an operation that leaves the 64-bit integers. -/
def sessionSchedulerDecisionCommand (payload : Json) : Except String Response :=
  let r := request payload
  match turnsRemaining r.turnCount r.maxTurns r.enforceMaxTurns with
  | .error panic => .error panic
  | .ok turns => .ok
    { ok := r.decision ≠ .block
      decision := r.decision
      reason := r.reason
      nextAction := nextAction r.operation r.decision
      approvalRequired := r.decision = .requireApproval
      cacheable := false
      auditVisibility := if r.decision = .allow then "standard" else "security"
      request := r
      turnsRemaining := turns
      quietHoursActive := r.quietNow
      retryDelaySeconds := retryDelaySeconds r.attempt r.baseDelaySeconds r.maxDelaySeconds
      retryNextAction := if r.attemptsExhausted then "permanent_fail" else "retry"
      normalizedFlags := r.normalizedFlags
      blockReasons := r.blocks
      approvalReasons := r.approvals }

/-! ### The arithmetic -/

@[simp] theorem val_zero : (0 : I64).val = 0 := rfl

@[simp] theorem val_one : (1 : I64).val = 1 := rfl

@[simp] theorem val_two : (2 : I64).val = 2 := rfl

@[simp] theorem val_sixteen : (16 : I64).val = 16 := rfl

section
variable {attempt baseDelay maxDelay delay : I64}

theorem le_retryRound (hdelay : 1 ≤ delay.val) (hmax : 1 ≤ maxDelay.val) : 1 ≤ (retryRound maxDelay delay).val := by
  rw [retryRound, BoundedInt.val_min_saturatingMul (by rw [val_two]; omega), val_two]
  omega

/-- A round doubles what is under the limit. -/
theorem min_retryRound (hdelay : 1 ≤ delay.val) (hmax : 1 ≤ maxDelay.val) :
    min (retryRound maxDelay delay).val maxDelay.val = min (2 * min delay.val maxDelay.val) maxDelay.val := by
  rw [retryRound, BoundedInt.val_min_saturatingMul (by rw [val_two]; omega), val_two]
  omega

theorem rounds_min (hbase : 1 ≤ baseDelay.val) (hmax : 1 ≤ maxDelay.val) (rounds : Nat) :
    1 ≤ ((retryRound maxDelay)^[rounds] baseDelay).val ∧
      min ((retryRound maxDelay)^[rounds] baseDelay).val maxDelay.val =
        min (baseDelay.val * 2 ^ rounds) maxDelay.val := by
  induction rounds with
  | zero =>
    rw [Function.iterate_zero_apply, Int.pow_zero, Int.mul_one]
    exact ⟨hbase, rfl⟩
  | succ rounds ih =>
    obtain ⟨hone, hmin⟩ := ih
    rw [Function.iterate_succ_apply']
    refine ⟨le_retryRound hone hmax, ?_⟩
    have hpow : baseDelay.val * 2 ^ (rounds + 1) = 2 * (baseDelay.val * 2 ^ rounds) := by
      rw [Int.pow_succ]
      ac_rfl
    rw [min_retryRound hone hmax, hmin, hpow]
    omega

/-- The delay doubles with each of the first sixteen attempts, up to the limit, and no saturation is seen in it. -/
theorem val_retryDelaySeconds (hmax : 1 ≤ maxDelay.val) :
    (retryDelaySeconds attempt baseDelay maxDelay).val =
      min (max baseDelay.val 1 * 2 ^ (max 0 (min attempt.val 16)).toNat) maxDelay.val := by
  have hbase : 1 ≤ (max baseDelay 1).val := by
    rw [BoundedInt.val_max]
    exact le_max_right _ _
  have hclamp : (attempt.clamp 0 16).val = max 0 (min attempt.val 16) := by
    rw [BoundedInt.clamp, BoundedInt.val_max, BoundedInt.val_min]
    rfl
  obtain ⟨hone, hmin⟩ := rounds_min hbase hmax (attempt.clamp 0 16).val.toNat
  rw [retryDelaySeconds, BoundedInt.val_max, BoundedInt.val_min, val_one, ← hclamp]
  rw [BoundedInt.val_max, val_one] at hmin
  omega

end

/-- The subtraction overflows for a negative count of turns only. -/
theorem turnsRemaining_ok_iff {turnCount maxTurns : I64} {enforce : Bool} :
    (∃ turns, turnsRemaining turnCount maxTurns enforce = .ok turns) ↔
      ¬(enforce = true ∧ 0 < maxTurns.val ∧ i64Max < maxTurns.val - turnCount.val) := by
  rw [turnsRemaining]
  split
  · rename_i hoff
    refine iff_of_true ⟨none, rfl⟩ ?_
    rintro ⟨henforce, hpos, -⟩
    rw [henforce, Bool.not_true, Bool.false_or, decide_eq_true_eq, BoundedInt.le_iff] at hoff
    exact absurd hpos (not_lt_of_ge hoff)
  · rename_i hon
    rw [Bool.or_eq_true, not_or, decide_eq_true_eq, BoundedInt.le_iff, not_le, val_zero] at hon
    obtain ⟨henforce, hpos⟩ := hon
    have hinside := turnCount.inside
    have hsub := maxTurns.sub_ok_iff (b := turnCount)
    constructor
    · rintro ⟨turns, hturns⟩ ⟨-, -, hover⟩
      split at hturns
      · rename_i n hn
        exact absurd (hsub.mp ⟨n, hn⟩).2 (not_le_of_gt hover)
      · cases hturns
    · intro hno
      obtain ⟨n, hn⟩ := hsub.mpr ⟨by omega, by
        by_contra hover
        exact hno ⟨by simpa using henforce, hpos, not_le.mp hover⟩⟩
      rw [hn]
      exact ⟨_, rfl⟩

/-- The command answers unless the turns are enforced and their difference is over the greatest integer. -/
theorem sessionSchedulerDecisionCommand_ok_iff (payload : Json) :
    (∃ response, sessionSchedulerDecisionCommand payload = .ok response) ↔
      ¬((request payload).enforceMaxTurns = true ∧ 0 < (request payload).maxTurns.val ∧
        i64Max < (request payload).maxTurns.val - (request payload).turnCount.val) := by
  rw [← turnsRemaining_ok_iff, sessionSchedulerDecisionCommand]
  cases turnsRemaining (request payload).turnCount (request payload).maxTurns (request payload).enforceMaxTurns with
  | error panic => simp
  | ok turns => simp

/-- The delay of an answer is the exact one: the request's base, doubled for its attempts, up to the request's limit. -/
theorem retryDelaySeconds_of_ok {payload : Json} {response : Response}
    (h : sessionSchedulerDecisionCommand payload = .ok response) :
    response.retryDelaySeconds.val = min ((request payload).baseDelaySeconds.val *
      2 ^ (min (request payload).attempt.val 16).toNat) (request payload).maxDelaySeconds.val := by
  have hmax : 1 ≤ (request payload).maxDelaySeconds.val := le_max_right (number payload ["max_delay_seconds"] 3600) 1
  have hbase : 1 ≤ (request payload).baseDelaySeconds.val := le_max_right (number payload ["base_delay_seconds"] 30) 1
  have hattempt : 0 ≤ (request payload).attempt.val := le_max_right (number payload ["attempt", "retry_attempt"] 0) 0
  have hdelay : response.retryDelaySeconds = retryDelaySeconds (request payload).attempt
      (request payload).baseDelaySeconds (request payload).maxDelaySeconds := by
    rw [sessionSchedulerDecisionCommand] at h
    split at h
    · exact nomatch h
    · rw [Except.ok.injEq] at h
      rw [← h]
  rw [hdelay, val_retryDelaySeconds hmax, max_eq_left hbase, max_eq_right (by omega)]

/-- The third attempt of a request with no delays of its own waits two minutes. -/
theorem retryDelaySeconds_third : ∃ response,
    sessionSchedulerDecisionCommand (.object [("attempt", .number (.posInt 2))]) = .ok response ∧
      response.retryDelaySeconds.val = 120 := by
  have hanswers : (sessionSchedulerDecisionCommand (.object [("attempt", .number (.posInt 2))])).toBool = true := by
    decide
  cases h : sessionSchedulerDecisionCommand (.object [("attempt", .number (.posInt 2))]) with
  | error panic =>
    rw [h] at hanswers
    cases hanswers
  | ok response =>
    refine ⟨response, rfl, ?_⟩
    rw [retryDelaySeconds_of_ok h]
    decide

/-- A turn of a session is allowed by its decision, and panics before it is answered. -/
theorem sessionSchedulerDecisionCommand_overflows :
    ¬∀ payload, (request payload).decision = .allow →
      ∃ response, sessionSchedulerDecisionCommand payload = .ok response := by
  intro h
  have hallow : (request (.object [("operation", .string "session_turn"), ("session_id", .string "s"),
      ("turn_count", .number (.negInt 0x8000000000000000))])).decision = .allow := by
    decide
  obtain ⟨response, hresponse⟩ := h _ hallow
  have hpanic : (sessionSchedulerDecisionCommand (.object [("operation", .string "session_turn"),
      ("session_id", .string "s"), ("turn_count", .number (.negInt 0x8000000000000000))])).toBool = false := by
    decide
  rw [hresponse] at hpanic
  cases hpanic

end Empyralis.Kernel.SchedulerCommand
