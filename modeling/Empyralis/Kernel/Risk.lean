import Empyralis.Kernel.Policy
import Empyralis.Kernel.Redaction
import Mathlib.Algebra.GroupWithZero.Nat

/-! The layers of an authorization beside the policy: safe mode, the risk of an action, and whether it needs an
    approval. -/

namespace Empyralis.Kernel.Authorization
open GatewayFrame (lowercase)
open Redaction (contains)
open Text (trim rustSpace)

/-! ### Safe mode -/

/-- What safe mode makes of a request. -/
inductive SafeModeKind where
  | allow
  | degrade
  | block
  deriving DecidableEq

/-- The control that decides, as far as it is named. -/
structure ControllingMatch where
  controlType : Option String
  controlScope : Option String
  controlReason : Option String
  deriving DecidableEq

/-- The answer about safe mode. -/
structure SafeModeReply where
  decision : SafeModeKind
  reason : String
  capability : Option String
  controllingMatch : Option ControllingMatch
  safeModeEnabled : Bool
  maintenanceMode : Bool
  incidentMode : String
  healthState : String
  deriving DecidableEq

/-- `next_action` -/
def SafeModeReply.nextAction (r : SafeModeReply) : String :=
  match r.decision with
  | .allow => "allow_safe_mode_capability"
  | .degrade => "degrade_safe_mode_capability"
  | .block => "disable_safe_mode_capability"

/-- `controlling_match` -/
def controllingMatch (input : Json) : Option ControllingMatch := do
  let chain ← (input.get "matched_chain").bind Json.asArray
  match chain.getLast? with
  | some (.object fields) =>
    let text (key : String) : Option String :=
      ((fields.lookup key).bind Json.asStr).filter fun value => trim rustSpace value ≠ ""
    return ⟨text "type", text "scope", text "reason"⟩
  | _ => none

/-- `boolish` of `safe_mode.rs` -/
def safeModeBoolish (input : Json) (key : String) : Bool :=
  boolishOf ["1", "true", "yes", "on", "enabled", "active"] false input key

/-- The other names of an incident mode. -/
def normalizeIncidentMode (value : String) : String :=
  match normalizeToken value with
  | "paused" => "pause"
  | "draining" => "drain"
  | "rejected" => "reject"
  | "pause" => "pause"
  | "drain" => "drain"
  | "reject" => "reject"
  | _ => "active"

/-- A capability that runs commands or works the computer. -/
def unsafeCapability (value : String) : Bool :=
  let token := normalizeToken value
  ["shell.execute", "shell_execute", "shell_command"].contains token ||
    ["computer_control", "browser_automation"].any fun pre =>
      token = pre || (pre ++ "_").toList.isPrefixOf token.toList

/-- The states in which a capability is not used. -/
def unhealthyStates : List String := ["unhealthy", "offline", "disabled", "locked", "failed"]

/-- The state of health that the request names, or its computer profile. -/
def healthState (input : Json) : String :=
  normalizeToken ((stringField input "health_state").or
    ((input.get "computer_profile").bind fun profile => stringField profile "health_state") |>.getD "healthy")

/-- `safe_mode_decision_command` -/
def safeModeDecisionCommand (input : Json) : SafeModeReply :=
  let capability := stringFieldOr input "capability" "capability_id"
  let safeModeEnabled := safeModeBoolish input "safe_mode_enabled" || safeModeBoolish input "forced_safe_mode"
  let maintenanceMode := safeModeBoolish input "maintenance_mode"
  let incidentMode := normalizeIncidentMode ((stringField input "incident_mode").getD "active")
  let reply (decision : SafeModeKind) (reason : String) : SafeModeReply :=
    ⟨decision, reason, capability, controllingMatch input, safeModeEnabled, maintenanceMode, incidentMode,
      healthState input⟩
  if safeModeBoolish input "kill_switch_enabled" then reply .block "kill_switch_enabled"
  else if unhealthyStates.contains (healthState input) then reply .block "computer_profile_unhealthy"
  else if incidentMode = "reject" then reply .block "incident_reject_mode"
  else if incidentMode = "pause" then reply .block "incident_pause_mode"
  else if incidentMode = "drain" then reply .degrade "incident_drain_mode"
  else if safeModeEnabled || maintenanceMode then
    if capability.any unsafeCapability then reply .block "capability_blocked_by_safe_mode"
    else reply .degrade "safe_mode_active"
  else reply .allow "safe_mode_clear"

/-! ### Risk -/

/-- The levels of risk, the lowest first. -/
inductive RiskLevel where
  | low
  | medium
  | high
  | critical
  deriving DecidableEq

def RiskLevel.text : RiskLevel → String
  | .low => "low"
  | .medium => "medium"
  | .high => "high"
  | .critical => "critical"

/-- The place of a level among the four. -/
def RiskLevel.rank : RiskLevel → Nat
  | .low => 0
  | .medium => 1
  | .high => 2
  | .critical => 3

/-- The higher one of two levels. -/
def RiskLevel.max (a b : RiskLevel) : RiskLevel := if a.rank ≤ b.rank then b else a

/-- `High | Critical` -/
def RiskLevel.severe (level : RiskLevel) : Bool := level = .high || level = .critical

/-- `action_class` -/
def actionClass (input : Json) : String :=
  match normalizeToken ((stringField input "action_class").getD "unknown") with
  | "read" | "inspect" | "list" => "read"
  | "write" | "edit" | "create" | "update" => "write"
  | "execute" | "exec" | "run" | "shell" => "execute"
  | "network" | "http" | "external" => "network"
  | "browser" | "click" | "type" => "browser"
  | "delete" | "remove" | "destructive" => "delete"
  | "secret" | "credential" | "token" => "secret"
  | "system" | "os" | "process" => "system_control"
  | _ => "unknown"

/-- `Value::to_string` of what is neither a text, an array nor an object -/
def scalarText : Json → String
  | .null => "null"
  | .bool true => "true"
  | .bool false => "false"
  | .number (.posInt n) => toString n
  | .number (.negInt n) => "-" ++ toString n
  | .number (.float text) => text
  | _ => ""

/-- The bytes of text after which a payload is not read any further. -/
def textBudget : Nat := 4096

/-- The texts together are longer than what is scanned. -/
def overBudget (parts : List String) : Bool := textBudget < (parts.map String.utf8ByteSize).sum

mutual

/-- `flatten_json`: the texts of a value after those that there are, up to the budget. -/
def flattenJson (parts : List String) : Json → List String
  | .array items => if overBudget parts then parts else flattenItems parts items
  | .object fields => if overBudget parts then parts else flattenFields parts fields
  | .string value => if overBudget parts then parts else parts ++ [value]
  | value => if overBudget parts then parts else parts ++ [scalarText value]

def flattenItems (parts : List String) : List Json → List String
  | [] => parts
  | item :: items => flattenItems (flattenJson parts item) items

def flattenFields (parts : List String) : List (String × Json) → List String
  | [] => parts
  | (key, value) :: fields => flattenFields (flattenJson (parts ++ [key]) value) fields

end

/-- `payload_text` -/
def payloadText (input : Json) : List Char :=
  (lowercase (" ".intercalate (flattenJson [] ((input.get "payload").getD input)))).toList

/-- A text that looks as if it held a secret. -/
def secretMarker (text : List Char) : Bool :=
  ["api_key", "api-key", "bearer ", "sk-", "sk_ant", "sk-ant-", "ghp_", "token", "password"].any (contains text)

/-- A text that looks as if it destroyed something. -/
def destructiveMarker (text : List Char) : Bool :=
  ["rm -rf", "drop table", "delete all", "format disk", "shutdown", "reboot", "wipe"].any (contains text)

/-- The risk of a capability, whatever is done with it. -/
def Capability.risk : Capability → RiskLevel
  | .systemControl | .processControl | .secretAccess | .destructiveAction => .critical
  | .shellCommand | .writeFiles | .gitWrite | .externalWrite | .mcpServer => .high
  | .networkAccess | .browserControl | .longRunningTask => .medium
  | .readFiles => .low

/-- `risk_for_capability` -/
def riskForCapability (c : Capability) (actionClass : String) (payloadText : List Char) : RiskLevel :=
  let risk := c.risk
  let risk := if ["delete", "secret", "system_control"].contains actionClass then risk.max .critical else risk
  let risk := if ["write", "execute", "network", "browser"].contains actionClass then risk.max .medium else risk
  let risk := if secretMarker payloadText then risk.max .critical else risk
  if destructiveMarker payloadText then risk.max .high else risk

/-- The states of a kill switch that is on. -/
def killStates : List String :=
  ["active", "triggered", "engaged", "killed", "kill", "paused", "suspended", "emergency_stop",
    "workspace_emergency_stop", "locked_down"]

/-- `current_kill_state` -/
def currentKillState (input : Json) : Option String :=
  ((stringField input "current_kill_state").map normalizeToken).filter killStates.contains

/-- `computer_profile_health_state` -/
def computerProfileHealthState (input : Json) : Option String :=
  (((input.get "computer_profile").bind fun profile => stringField profile "health_state").map
    normalizeToken).filter unhealthyStates.contains

/-- `normalize_blocked_reason` -/
def normalizeBlockedReason : String → String
  | "domain_outside_policy_scope" => "domain_not_allowed"
  | "path_outside_policy_scope" => "filesystem_scope_not_allowed"
  | "path_blocked_by_policy_scope" => "filesystem_scope_not_allowed"
  | "unknown_capability" => "policy_blocked"
  | other => other

/-- What the request is aimed at, by the first field that says so. -/
def targetSummary (input : Json) : String :=
  ((stringField input "target_summary").or ((stringField input "target").or
    ((stringField input "requested_domain").or (stringField input "requested_path")))).getD "unspecified_target"

/-- The answer of `risk_response`, without its id, which is the time. -/
structure RiskReply where
  decision : PolicyDecisionKind
  level : RiskLevel
  reason : String
  blockedReason : Option String
  capability : Option String
  policyVersion : Option String
  actionClass : String
  targetSummary : String
  deriving DecidableEq

/-- An approval is asked for the capability at its level. -/
def RiskReply.approvalScopesRequired (r : RiskReply) : List String :=
  if r.decision = .requireApproval then [r.capability.getD "unknown_capability", r.level.text] else []

/-- Only what is allowed at a low risk is cached. -/
def RiskReply.cacheable (r : RiskReply) : Bool := r.decision = .allow && r.level = .low

/-- `audit_visibility` of `risk.rs` -/
def RiskReply.auditVisibility (r : RiskReply) : String :=
  if r.decision = .block || r.level.severe then "security" else "standard"

/-- What is blocked or severe is recorded. -/
def RiskReply.recordingRequired (r : RiskReply) : Bool := r.decision = .block || r.level.severe

/-- For how long the reply is kept, by its level. -/
def RiskReply.retentionClass (r : RiskReply) : String :=
  match r.level with
  | .low => "short"
  | .medium | .high => "standard"
  | .critical => "extended"

/-- An answer, with what it repeats of the request. -/
def riskResponse (input : Json) (decision : PolicyDecisionKind) (level : RiskLevel) (reason : String)
    (blockedReason capability : Option String) : RiskReply where
  decision := decision
  level := level
  reason := reason
  blockedReason := blockedReason
  capability := capability.or (stringField input "capability")
  policyVersion := (policyPayload input).bind fun policy => stringField policy "policy_version"
  actionClass := actionClass input
  targetSummary := targetSummary input

/-- `classify_risk_command` -/
def classifyRiskCommand (input : Json) : RiskReply :=
  match currentKillState input with
  | some state => riskResponse input .block .critical "kill_state_active" (some ("kill_state:" ++ state)) none
  | none =>
    match computerProfileHealthState input with
    | some state => riskResponse input .block .critical "computer_profile_unhealthy" (some ("profile_" ++ state)) none
    | none =>
      match fromInput input with
      | .error reason => riskResponse input .block .critical reason (some reason) none
      | .ok policy =>
        match normalizeCapability ((stringField input "capability").getD "") with
        | none => riskResponse input .block .critical "unknown_capability" (some "unknown_capability") none
        | some capability =>
          let decision := evaluateRequest policy capability.text (stringField input "requested_domain")
            (stringField input "requested_path")
          if decision.kind = .block then
            riskResponse input .block .critical decision.reason (some (normalizeBlockedReason decision.reason))
              (some capability.text)
          else if policy.autonomyMode = .yolo then
            riskResponse input .allow .low "yolo_policy_fast_path" none (some capability.text)
          else
            let level := riskForCapability capability (actionClass input) (payloadText input)
            if decision.kind = .requireApproval || level.severe then
              riskResponse input .requireApproval level "risk_requires_approval" none (some capability.text)
            else riskResponse input .allow level "risk_allowed" none (some capability.text)

/-! ### Approvals -/

/-- What an approval is good for. -/
structure Approval where
  scope : String
  ttlSeconds : Nat
  singleUse : Bool
  deriving DecidableEq

/-- The answer to a request for an approval. -/
structure ApprovalReply where
  decision : PolicyDecisionKind
  reason : String
  nextAction : String
  capability : Option Capability
  riskLevel : String
  actionClass : String
  targetSummary : String
  approval : Option Approval
  auditVisibility : String
  cacheable : Bool
  deriving DecidableEq

def ApprovalReply.approvalRequired (r : ApprovalReply) : Bool := r.decision = .requireApproval

/-- What is neither an allowance nor a block asks for an approval. -/
def normalizeDecision (value : String) : PolicyDecisionKind :=
  match normalizeToken value with
  | "allow" | "allowed" => .allow
  | "block" | "deny" | "denied" => .block
  | _ => .requireApproval

/-- A level that is not known counts as a medium one. -/
def normalizeRiskLevel (value : String) : String :=
  let token := normalizeToken value
  if ["low", "medium", "high", "critical"].contains token then token else "medium"

/-- The other names of a class of actions. -/
def normalizeActionClass (value : String) : String :=
  match normalizeToken value with
  | "read" | "inspect" | "list" => "read"
  | "write" | "edit" | "create" | "update" => "write"
  | "execute" | "exec" | "run" | "shell" => "execute"
  | "delete" | "remove" | "destructive" => "delete"
  | "secret" | "credential" | "token" => "secret"
  | "network" | "http" | "external" => "network"
  | "browser" | "click" | "type" => "browser"
  | other => other

/-- The seconds that an approval holds: the higher the risk, the fewer. -/
def approvalTtlSeconds (riskLevel actionClass : String) : Nat :=
  if riskLevel = "critical" || ["secret", "delete"].contains actionClass then 60
  else if riskLevel = "high" || ["execute", "write"].contains actionClass then 300
  else 900

/-- An approval that one action uses up. -/
def singleUseRequired (riskLevel actionClass : String) : Bool :=
  ["high", "critical"].contains riskLevel || ["secret", "delete", "execute"].contains actionClass

/-- What is answered where nothing is known of the capability. -/
def noApproval (reason : String) : ApprovalReply :=
  ⟨.block, reason, "", none, "", "", "", none, "", false⟩

/-- `approval_requirement_command` -/
def approvalRequirementCommand (input : Json) : ApprovalReply :=
  match stringField input "capability" with
  | none => noApproval "capability_missing"
  | some capabilityInput =>
    match normalizeCapability capabilityInput with
    | none => noApproval "unknown_capability"
    | some capability =>
      let decision := normalizeDecision ((stringField input "decision").getD "require_approval")
      let riskLevel := normalizeRiskLevel ((stringFieldOr input "risk_level" "risk_class").getD "medium")
      let actionClass := normalizeActionClass ((stringField input "action_class").getD "unknown")
      let target := targetSummary input
      if decision = .block then
        ⟨.block, "approval_not_available_for_blocked_request", "deny_approval_requirement", some capability, riskLevel,
          actionClass, target, none, "security", false⟩
      else if decision = .allow ∧ riskLevel = "low" then
        ⟨.allow, "approval_not_required", "skip_approval_requirement", some capability, riskLevel, actionClass, target,
          none, "standard", true⟩
      else
        ⟨.requireApproval, "approval_required", "request_owner_approval", some capability, riskLevel, actionClass,
          target,
          some ⟨capability.text ++ ":" ++ actionClass ++ ":" ++ riskLevel ++ ":" ++ target,
            approvalTtlSeconds riskLevel actionClass, singleUseRequired riskLevel actionClass⟩,
          if ["high", "critical"].contains riskLevel then "security" else "standard", false⟩

end Empyralis.Kernel.Authorization
