import Empyralis.Server.WakeBundles

/-! The turn that a group of a tick gets (`build_heartbeat_turn_request`): its metadata, in which the first
    assigned task and the first goal of the group are, and its message. -/

namespace Empyralis.Server.Heartbeat
open Text (strip)
open Wakes

variable (env : Env)

/-- `_wake_request_payload` -/
def wakeRequestPayload (item : Item) : Fields :=
  match item.payload with
  | .object fields => fields
  | .string text =>
    if strip text = "" then []
    else
      match env.loads text with
      | some (.object fields) => fields
      | _ => []
  | _ => []

/-- `str(value or default)` -/
def orText (value : Value) (default : String) : String := if value.truthy then value.str env.repr else default

/-- The first text that is not empty, of a chain of `or`. -/
def firstOf (texts : List String) : String := (texts.find? (· ≠ "")).getD ""

/-- `SchedulerPolicyBounds` -/
structure PolicyBounds where
  quietHoursStart : Int
  quietHoursEnd : Int
  maxEventTriggersPerHour : Int
  maxSelfProposedPerHour : Int
  maxRuntimeSeconds : Int
  minimumBatteryPercent : Int
  requireNetworkOnline : Bool
  requireOwnerApprovalForPrivilegedWakeups : Bool
  planTier : String
  timezoneName : String

/-- `asdict` of the bounds -/
def PolicyBounds.asDict (policy : PolicyBounds) : Fields :=
  [("quiet_hours_start", .int policy.quietHoursStart), ("quiet_hours_end", .int policy.quietHoursEnd),
    ("max_event_triggers_per_hour", .int policy.maxEventTriggersPerHour),
    ("max_self_proposed_per_hour", .int policy.maxSelfProposedPerHour),
    ("max_runtime_seconds", .int policy.maxRuntimeSeconds),
    ("minimum_battery_percent", .int policy.minimumBatteryPercent),
    ("require_network_online", .bool policy.requireNetworkOnline),
    ("require_owner_approval_for_privileged_wakeups", .bool policy.requireOwnerApprovalForPrivilegedWakeups),
    ("plan_tier", .string policy.planTier), ("timezone_name", .string policy.timezoneName)]

/-- What a bundle has besides its groups; a tick without one has none of it. -/
structure Surroundings where
  recentChanges : List Fields
  schedulerGoals : List String
  userPreferences : String
  policy : Option PolicyBounds

/-- What a tick without a bundle has. -/
def Surroundings.none : Surroundings := ⟨[], [], "", .none⟩

/-! ### The metadata -/

/-- The task of the first `task_assigned` wake that names one. -/
def firstTask (wakes : List Item) : Option Fields :=
  ((wakes.filter fun item => strip item.triggerKind = "task_assigned").map (wakeRequestPayload env)).find?
    fun payload => text env payload "task_id" ≠ ""

/-- The goal of the first `goal` wake that names one. -/
def firstGoal (wakes : List Item) : Option Fields :=
  ((wakes.filter fun item => strip item.triggerKind = "goal").map (wakeRequestPayload env)).find?
    fun payload => text env payload "goal_id" ≠ ""

/-- The agent that a wake names. -/
def agentFields (payload : Fields) : Fields :=
  if text env payload "agent_id" = "" then [] else [("active_agent_install_id", .string (text env payload "agent_id"))]

/-- What a turn is told of its task. -/
def taskFields (payload : Fields) : Fields :=
  [("task_id", .string (text env payload "task_id")), ("assigned_task_title", .string (text env payload "task_title")),
    ("assigned_task_description", .string (text env payload "task_description"))] ++ agentFields env payload

/-- What a turn is told of its goal. -/
def goalFields (payload : Fields) : Fields :=
  [("goal_id", .string (text env payload "goal_id")), ("goal_text", .string (text env payload "goal_text")),
    ("goal_instruction", .string (text env payload "instruction")),
    ("goal_attempt_number", payload.get "attempt_number"), ("goal_max_attempts", payload.get "max_attempts"),
    ("goal_status", .string (text env payload "status"))] ++ agentFields env payload

/-- What a tick puts into the metadata of each of its turns. -/
def tickFields (tasks : List String) (metadata : Fields) (pendingStarted : List Fields) : Fields :=
  [("source", .string "heartbeat"), ("trigger_source", .string "schedule"),
    ("heartbeat_tasks", .array (tasks.map .string)),
      ("heartbeat_pending_schedules", .array (pendingStarted.map .object)),
    ("heartbeat_trigger", .string (orText env (metadata.get "trigger") "scheduled")),
    ("heartbeat_file", .string (orText env (metadata.get "heartbeat_file") ""))]

/-- What the wakes of the group put there. -/
def withWakes (wakes : List Item) (metadata : Fields) : Fields :=
  if wakes.isEmpty then metadata
  else
    let ids := metadata.put "wake_request_ids" (.array (wakes.map fun item => .string item.id.text))
    (ids.merge ((firstTask env wakes).elim [] (taskFields env))).merge ((firstGoal env wakes).elim [] (goalFields env))

/-- What the changes of the context put there. -/
def withChanges (changes : List Fields) (metadata : Fields) : Fields :=
  if changes.isEmpty then metadata
  else
    metadata.put "context_event_ids"
      (.array (((changes.map fun change => text env change "id").filter (· ≠ "")).map .string))

/-- What the policy puts there. -/
def withPolicy (policy : Option PolicyBounds) (metadata : Fields) : Fields :=
  policy.elim metadata fun policy => metadata.put "scheduler_policy" (.object policy.asDict)

/-- The metadata of a turn, but for its provider. -/
def mergedMetadata (tasks : List String) (metadata : Fields) (pendingStarted : List Fields) (wakes : List Item)
    (surroundings : Surroundings) : Fields :=
  withPolicy surroundings.policy (withChanges env surroundings.recentChanges
    (withWakes env wakes (metadata.merge (tickFields env tasks metadata pendingStarted))))

/-- `defaultProvider` is `_resolve_workspace_default_ai_provider`, with an empty text where that raises. -/
def withProvider (defaultProvider : String → String) (metadata : Fields) : Fields :=
  if text env metadata "provider" ≠ "" || text env metadata "workspace_id" = "" ||
      defaultProvider (text env metadata "workspace_id") = "" then metadata
  else metadata.put "provider" (.string (defaultProvider (text env metadata "workspace_id")))

/-! ### The message -/

def lines (texts : List String) : String := "\n".intercalate texts

/-- The section of the tasks. -/
def checklist (tasks : List String) : List String :=
  if tasks.isEmpty then [] else ["Heartbeat checklist tasks:\n" ++ lines (tasks.map ("- " ++ ·))]

/-- A wake in one line, unless it says nothing. -/
def wakeLine (item : Item) : Option String :=
  let kind := strip (if item.triggerKind = "" then "wake" else item.triggerKind)
  let summary := strip (if item.summary = "" then item.reason else item.summary)
  if summary = "" then none else some s!"- [{kind}] {summary}"

/-- The section of the wakes. -/
def wakeReasons (wakes : List Item) : List String :=
  let reasons := wakes.filterMap wakeLine
  if reasons.isEmpty then [] else ["Wake reasons:\n" ++ lines reasons]

/-- The section of a task that has these texts. -/
def assignedTask (title description : String) : String :=
  "Assigned task:\n" ++ lines (("Title: " ++ firstOf [title, "(untitled)"]) ::
    if description = "" then [] else [s!"Description: {description}"])

def taskSection (metadata : Fields) : List String :=
  if (metadata.get "task_id").truthy then
    [assignedTask (orText env (metadata.get "assigned_task_title") "") (text env metadata "assigned_task_description")]
  else []

/-- `is not None` -/
def given : Value → Bool
  | .null => false
  | _ => true

/-- The section of a goal that has these texts. -/
def workingGoal (goalText instruction : String) (attemptNumber maxAttempts : Value) (status : String) : String :=
  "Working goal:\n" ++ lines ([s!"Goal: {goalText}"] ++
    (if instruction = "" then [] else [s!"Instruction: {instruction}"]) ++
    (if given attemptNumber && given maxAttempts then
      [s!"Attempt {attemptNumber.str env.repr} of {maxAttempts.str env.repr}."] else []) ++
    if status = "" then [] else [s!"Current status: {status}."])

def goalSection (metadata : Fields) : List String :=
  if (metadata.get "goal_id").truthy then
    [workingGoal env (text env metadata "goal_text") (text env metadata "goal_instruction")
      (metadata.get "goal_attempt_number") (metadata.get "goal_max_attempts") (text env metadata "goal_status")]
  else []

/-- A change in one line, unless it says nothing. -/
def changeLine (change : Fields) : Option String :=
  let summary := text env change "summary"
  if summary = "" then none
  else
    let source := strip (orText env (change.get "source_app") "context")
    some s!"- [{source}] {summary}"

/-- The section of the changes. -/
def recentChanges (changes : List Fields) : List String :=
  let summaries := changes.filterMap (changeLine env)
  if summaries.isEmpty then [] else ["Recent context changes:\n" ++ lines summaries]

/-- The section of the goals of the scheduler. -/
def currentGoals (goals : List String) : List String :=
  let goals := (goals.map strip).filter (· ≠ "")
  if goals.isEmpty then [] else ["Current goals:\n" ++ lines (goals.map ("- " ++ ·))]

/-- The section of the preferences, cut off at 2000 characters. -/
def userPreferences (preferences : String) : List String :=
  if strip preferences = "" then [] else ["User preferences:\n" ++ first 2000 (strip preferences)]

/-- `{n:02d}` -/
def twoDigits (n : Int) : String := if 0 ≤ n ∧ n < 10 then "0" ++ toString n else toString n

/-- The section of the policy. -/
def policyBounds (policy : PolicyBounds) : String :=
  "Scheduler policy bounds:\n" ++
    s!"- quiet hours: {twoDigits policy.quietHoursStart}:00 to {twoDigits policy.quietHoursEnd}:00\n" ++
    s!"- max runtime seconds: {policy.maxRuntimeSeconds}\n" ++
    "- plan tier: " ++ firstOf [policy.planTier, "standard"]

/-- The section that every message ends with. -/
def closing : String :=
  "Review the queued heartbeat and wake reasons. Decide whether any follow-up is needed now. " ++
    "If no follow-up is needed, explain briefly and stop. Stay inside policy and approval limits."

/-- The sections of a message, in their order. -/
def sections (tasks : List String) (wakes : List Item) (surroundings : Surroundings) (metadata : Fields) :
    List String :=
  checklist tasks ++ wakeReasons wakes ++ taskSection env metadata ++ goalSection env metadata ++
    recentChanges env surroundings.recentChanges ++ currentGoals surroundings.schedulerGoals ++
    userPreferences surroundings.userPreferences ++ (surroundings.policy.map policyBounds).toList ++ [closing]

/-- The message: the sections that are not blank. -/
def heartbeatGoal (sections : List String) : String := "\n\n".intercalate (sections.filter (strip · ≠ ""))

/-! ### The request -/

/-- The request that a turn is run on. -/
structure TurnRequest where
  tenantId : String
  workspaceId : String
  sessionId : String
  channel : String
  actorType : String
  actorId : String
  actorDisplayName : String
  message : String
  contextHints : Fields
  executionMode : String
  responseMode : String
  machineTarget : Option String
  policyContext : Fields
  authorityTier : Tier

/-- `value in (None, "", [], {})` -/
def hollow : Value → Bool
  | .null | .string "" | .array [] | .object [] => true
  | _ => false

/-- `text or None` -/
def optional (text : String) : Value := if text = "" then .null else .string text

/-- The hints besides the metadata. -/
def turnHints (metadata : Fields) : Fields :=
  [("engine", .string (firstOf [env.lowercase.lower (strip (orText env (metadata.get "engine") "orion")), "orion"])),
    ("workflow_id", optional (text env metadata "workflow_id")), ("provider", optional (text env metadata "provider")),
    ("model", optional (text env metadata "model")), ("credential_id", optional (text env metadata "credential_id")),
    ("agent_role", .string (firstOf [strip (orText env (metadata.get "agent_role") "orchestrator"), "orchestrator"])),
    ("max_iterations", metadata.get "max_iterations")]

/-- The hints that are not hollow. -/
def contextHints (metadata : Fields) : Fields :=
  (turnHints env metadata ++ [("metadata", Value.object metadata)]).filter fun hint => !hollow hint.2

def actionPolicy : Value → Value
  | .object fields => .object fields
  | _ => .null

def policyContext (metadata : Fields) : Fields :=
  [("trust_mode", optional (text env metadata "trust_mode")),
    ("outcome_pack", optional (text env metadata "outcome_pack")),
    ("execution_target", optional (text env metadata "execution_target")),
    ("action_policy", actionPolicy (metadata.get "action_policy"))].filter fun field => !hollow field.2

/-- Whom a turn is run for. -/
def actorId (metadata : Fields) : String :=
  firstOf [text env metadata "owner_user_id", env.lowercase.lower (text env metadata "owner_email"), "anonymous"]

/-- `build_inbound_agent_turn_request`, of what the metadata and the message have become. -/
def inboundTurnRequest (metadata : Fields) (message : String) (authorityTier : Tier) : TurnRequest where
  tenantId := text env metadata "tenant_id"
  workspaceId := text env metadata "workspace_id"
  sessionId := firstOf [text env metadata "session_id", text env metadata "thread_id",
    text env metadata "parent_run_id",
    text env metadata "workflow_id", "run-start:" ++ text env metadata "workspace_id"]
  channel := firstOf [strip (orText env (metadata.get "channel") "web"), "web"]
  actorType := "user"
  actorId := actorId env metadata
  actorDisplayName := firstOf [strip (orText env (metadata.get "owner_email") (actorId env metadata)),
    actorId env metadata]
  message := message
  contextHints := contextHints env metadata
  executionMode := "durable"
  responseMode := "artifact"
  machineTarget := some (firstOf [text env metadata "machine_target", text env metadata "execution_target_selected",
    text env metadata "execution_target"]) |>.filter (· ≠ "")
  policyContext := policyContext env metadata
  authorityTier := authorityTier

/-- `build_heartbeat_turn_request`, or the message of the `ValueError` with which it refuses a missing scope. -/
def buildHeartbeatTurnRequest (defaultProvider : String → String) (tasks : List String) (metadata : Fields)
    (pendingStarted : List Fields) (authorityTier : Tier) (wakes : List Item) (surroundings : Surroundings) :
    Except String TurnRequest :=
  let merged := mergedMetadata env tasks metadata pendingStarted wakes surroundings
  let message := heartbeatGoal (sections env tasks wakes surroundings merged)
  let provided := withProvider env defaultProvider merged
  if text env provided "workspace_id" = "" then .error "Heartbeat workspace scope is not configured."
  else if text env provided "tenant_id" = "" then .error "Heartbeat tenant scope is not configured."
  else .ok (inboundTurnRequest env provided message authorityTier)

/-- The metadata with which the turn runs. -/
def TurnRequest.metadata (turn : TurnRequest) : Fields := coerceDict (turn.contextHints.get "metadata")

/-- The agent that the turn runs as; with none it runs as the master of the workspace. -/
def TurnRequest.runsAs (turn : TurnRequest) : String := text env turn.metadata "active_agent_install_id"

end Empyralis.Server.Heartbeat
