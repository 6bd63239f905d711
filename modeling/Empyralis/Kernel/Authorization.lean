import Empyralis.Kernel.Risk

/-! The authorization of a tool request and of the execution of a command: the layers are asked one after the other,
    and the first that blocks ends it. Taken together they decide as the strictest of the layers does. -/

namespace Empyralis.Kernel.Authorization
open GatewayFrame (lowercase)
open Redaction (contains)
open Text (trim rustSpace)

/-! ### The context that the caller sends -/

/-- What the context of a request says against it. -/
structure PolicyContextGate where
  blockReason : Option String
  approvalReason : Option String
  deriving DecidableEq

def boolValue (input : Json) (key : String) : Bool :=
  match input.get key with
  | some (.bool value) => value
  | _ => false

/-- `evaluate_policy_context` -/
def evaluatePolicyContext (input : Json) : PolicyContextGate :=
  let payload := (input.get "payload").getD .null
  let policyContext := (payload.get "policy_context").getD .null
  let runtimePolicyContext := (payload.get "runtime_policy_context").getD .null
  let requested := stringVecField policyContext "requested_capability_ids"
  let denied := stringVecField policyContext "workspace_denied_capabilities"
  let allowed := stringVecField policyContext "workspace_allowed_capabilities"
  let workspaceRole := (stringField policyContext "workspace_role").getD ""
  let executionDecision := (stringField runtimePolicyContext "execution_decision").getD ""
  let runtimeReason (fallback : String) : String :=
    ((stringField runtimePolicyContext "reason").filter (· ≠ "")).getD fallback
  let block (reason : String) : PolicyContextGate := ⟨some reason, none⟩
  if boolValue policyContext "disabled_capability" then block "capability_disabled_by_policy_scope"
  else if denied.contains "*" || requested.any denied.contains then block "workspace_capability_denied"
  else if allowed ≠ [] && !allowed.contains "*" && workspaceRole ≠ "owner" &&
      requested.any fun capability => !allowed.contains capability then
    block "workspace_capability_not_granted"
  else if boolValue policyContext "tool_disabled" then block "tool_disabled"
  else if (stringField policyContext "unsupported_capability").isSome then block "blocked_unsupported_capability"
  else if boolValue policyContext "blocked_raw_shell_command" then block "blocked_raw_shell_command"
  else if boolValue policyContext "action_blocked" && !boolValue policyContext "uses_capability_path" &&
      !boolValue policyContext "safe_raw_shell_command" then
    block "blocked_by_action_policy"
  else if boolValue policyContext "cloud_target" && boolValue policyContext "critical" &&
      boolValue policyContext "block_cloud_critical" then
    block "blocked_cloud_critical"
  else if executionDecision = "deny" then block (runtimeReason "runtime_policy_blocked")
  else if boolValue policyContext "action_approval_required" && !boolValue policyContext "safe_raw_shell_command" then
    ⟨none, some "approval_required_by_action_policy"⟩
  else if executionDecision = "require_confirmation" then
    ⟨none, some (runtimeReason "runtime_policy_requires_approval")⟩
  else ⟨none, none⟩

/-! ### Requests -/

/-- The reply to a request. -/
structure AuthorizationReply where
  decision : PolicyDecisionKind
  reason : String
  capability : Option Capability
  requestedDomain : Option String
  requestedPath : Option String
  safeMode : Option SafeModeReply
  policyDecision : Option PolicyDecision
  risk : Option RiskReply
  approvalRequired : Bool
  approval : Option Approval
  cacheable : Bool
  auditVisibility : String
  deriving DecidableEq

/-- `next_action` -/
def AuthorizationReply.nextAction (r : AuthorizationReply) : String :=
  if r.decision = .block then "deny_tool_execution"
  else if r.approvalRequired then "request_tool_execution_approval"
  else "allow_tool_execution"

/-- `authorization_block` -/
def authorizationBlock (reason : String) (capability : Option Capability)
    (requestedDomain requestedPath : Option String) : AuthorizationReply where
  decision := .block
  reason := reason
  capability := capability
  requestedDomain := requestedDomain
  requestedPath := requestedPath
  safeMode := none
  policyDecision := some ⟨.block, reason⟩
  risk := none
  approvalRequired := false
  approval := none
  cacheable := false
  auditVisibility := "security"

def PolicyDecisionKind.text : PolicyDecisionKind → String
  | .allow => "allow"
  | .requireApproval => "require_approval"
  | .block => "block"

/-- What the need for an approval is decided of. -/
def approvalInput (capability : Capability) (input : Json) (risk : RiskReply) : Json :=
  .object [("action_class", .string ((stringField input "action_class").getD "unknown")),
    ("capability", .string capability.text), ("decision", .string risk.decision.text),
    ("risk_level", .string risk.level.text), ("target_summary", .string (targetSummary input))]

/-- `authorize_request_command`, for a policy and a capability that are known -/
def authorizeCapability (policy : Policy) (capability : Capability) (input : Json) : AuthorizationReply :=
  let requestedDomain := stringField input "requested_domain"
  let requestedPath := stringField input "requested_path"
  let safeMode := safeModeDecisionCommand input
  if safeMode.decision = .block then
    { authorizationBlock safeMode.reason (some capability) requestedDomain requestedPath with
      safeMode := some safeMode, policyDecision := none }
  else
    let contextGate := evaluatePolicyContext input
    match contextGate.blockReason with
    | some reason => authorizationBlock reason (some capability) requestedDomain requestedPath
    | none =>
      let policyDecision := evaluateRequest policy capability.text requestedDomain requestedPath
      if policyDecision.kind = .block then
        authorizationBlock policyDecision.reason (some capability) requestedDomain requestedPath
      else
        let risk := classifyRiskCommand input
        if risk.decision = .block then
          { authorizationBlock (risk.blockedReason.getD risk.reason) (some capability) requestedDomain
              requestedPath with
            safeMode := some safeMode, policyDecision := some policyDecision, risk := some risk }
        else
          let approval := approvalRequirementCommand (approvalInput capability input risk)
          let approvalRequired := approval.approvalRequired || contextGate.approvalReason.isSome ||
            policyDecision.kind = .requireApproval
          { decision := if approvalRequired then .requireApproval else risk.decision
            reason :=
              if approvalRequired then
                contextGate.approvalReason.getD
                  (if policyDecision.kind = .requireApproval then policyDecision.reason else "approval_required")
              else "authorization_allowed"
            capability := some capability
            requestedDomain := requestedDomain
            requestedPath := requestedPath
            safeMode := some safeMode
            policyDecision := some policyDecision
            risk := some risk
            approvalRequired := approvalRequired
            approval := approval.approval
            cacheable := approval.cacheable
            auditVisibility := approval.auditVisibility }

/-- `authorize_request_command` -/
def authorizeRequestCommand (input : Json) : AuthorizationReply :=
  match fromInput input with
  | .error reason => authorizationBlock reason none none none
  | .ok policy =>
    match stringField input "capability" with
    | none => authorizationBlock "capability_missing" none none none
    | some capabilityInput =>
      match normalizeCapability capabilityInput with
      | none => authorizationBlock "unknown_capability" none none none
      | some capability => authorizeCapability policy capability input

/-! ### Execution plans -/

/-- The execution that a plan allows. -/
structure Execution where
  command : String
  workingDir : String
  sandboxRequired : Bool
  sandboxType : String
  network : String
  maxRuntimeSeconds : Nat
  memory : String
  cpuShares : Nat
  deriving DecidableEq

/-- The reply to a plan. -/
structure ExecutionPlanReply where
  decision : PolicyDecisionKind
  reason : String
  matchedMarker : Option String
  execution : Option Execution
  deriving DecidableEq

/-- The markers for which a command is blocked. -/
def blockedCommandMarkers : List String :=
  ["rm -rf /", "rm -rf /*", "mkfs", "diskutil erase", "format c:", "shutdown", "reboot", "launchctl unload",
    "chmod -r 777 /", "chown -r ", "dd if=", ":()\x7b :|:& \x7d;:"]

/-- `command_text` -/
def commandText (input : Json) : String :=
  match stringFieldOr input "command" "shell_command" with
  | some command => command
  | none => " ".intercalate (stringVecField input "argv")

/-- `boolish` of `execution_plan.rs` -/
def executionBoolish (input : Json) (key : String) (default : Bool) : Bool :=
  boolishOf ["1", "true", "yes", "on", "enabled", "active", "required"] default input key

/-- `bounded_u64` -/
def boundedU64 (input : Json) (key : String) (default minimum maximum : Nat) : Nat :=
  max minimum (min maximum (((input.get key).bind Json.asU64).getD default))

/-- The other names of a sandbox. -/
def normalizeSandboxType (value : String) : String :=
  match normalizeToken value with
  | "docker" | "container" => "docker"
  | "sandbox_exec" | "sandboxexec" | "macos_sandbox" => "sandbox_exec"
  | "subprocess" | "process" | "host" => "subprocess"
  | "none" | "disabled" | "off" => "none"
  | _ => "docker"

/-- A command that looks as if it used the network. -/
def commandRequestsNetwork (command : String) : Bool :=
  ["curl ", "wget ", "npm install", "pip install", "git clone", "gh ", "brew install"].any (contains command.toList)

/-- `execution_plan_command` -/
def executionPlanCommand (input : Json) : ExecutionPlanReply :=
  let command := commandText input
  if command = "" then ⟨.block, "execution_command_missing", none, none⟩
  else
    let normalizedCommand := lowercase command
    match blockedCommandMarkers.find? (contains normalizedCommand.toList) with
    | some marker => ⟨.block, "destructive_command_blocked", some marker, none⟩
    | none =>
      let sandboxRequired := executionBoolish input "sandbox_required" true
      let sandboxType := normalizeSandboxType ((stringField input "sandbox_type").getD "docker")
      if sandboxRequired && sandboxType = "none" then ⟨.block, "sandbox_required", none, none⟩
      else
        let requestedNetwork := executionBoolish input "network_requested" false ||
          executionBoolish input "requires_network" false || commandRequestsNetwork normalizedCommand
        { decision := if requestedNetwork then .requireApproval else .allow
          reason := if requestedNetwork then "network_execution_requires_approval" else "execution_plan_ready"
          matchedMarker := none
          execution := some {
            command := command
            workingDir := (stringFieldOr input "working_dir" "cwd").getD "/workspace"
            sandboxRequired := sandboxRequired
            sandboxType := sandboxType
            network := if requestedNetwork then "approval_required" else "none"
            maxRuntimeSeconds := boundedU64 input "max_runtime_seconds" 120 1 3600
            memory := (stringField input "memory").getD "512m"
            cpuShares := boundedU64 input "cpu_shares" 512 2 262144 } }

/-! ### Executions -/

/-- The reply to an execution: that to its request and its plan. -/
structure ExecutionReply where
  decision : PolicyDecisionKind
  reason : String
  authorization : AuthorizationReply
  executionPlan : Option ExecutionPlanReply
  deriving DecidableEq

def ExecutionReply.approvalRequired (r : ExecutionReply) : Bool := r.decision = .requireApproval

/-- The entry of a key, put where the order of the keys has it, unless there is one. -/
def insertAbsent (key : String) (value : Json) (fields : List (String × Json)) : List (String × Json) :=
  if (fields.lookup key).isSome then fields
  else fields.takeWhile (fun field => field.1 < key) ++ (key, value) :: fields.dropWhile fun field => field.1 < key

/-- `authorization_payload` -/
def authorizationPayload (input : Json) : Json :=
  match input with
  | .object fields =>
    let fields := insertAbsent "action_class" (.string "execute")
      (insertAbsent "capability" (.string "shell_command") fields)
    match (fields.lookup "command").bind Json.asStr with
    | some command => .object (insertAbsent "target_summary" (.string command) fields)
    | none => .object fields
  | _ => .object [("action_class", .string "execute"), ("capability", .string "shell_command")]

/-- `authorize_execution_command` -/
def authorizeExecutionCommand (input : Json) : ExecutionReply :=
  let authorization := authorizeRequestCommand (authorizationPayload input)
  if authorization.decision = .block then ⟨.block, authorization.reason, authorization, none⟩
  else
    let plan := executionPlanCommand input
    if plan.decision = .block then ⟨.block, plan.reason, authorization, some plan⟩
    else if authorization.decision = .requireApproval ∨ plan.decision = .requireApproval then
      ⟨.requireApproval, "execution_requires_approval", authorization, some plan⟩
    else ⟨.allow, "execution_authorized", authorization, some plan⟩

end Empyralis.Kernel.Authorization
