import Empyralis.Kernel.GatewayFrame

/-! The policy of an agent computer, and what it says of a request for a capability. -/

namespace Empyralis.Kernel
open Text (trim rustSpace)

/-- The token of a value is one of these; `default` for what is no boolean, text or number. -/
def boolishOf (truthy : List String) (default : Bool) (input : Json) (key : String) : Bool :=
  match input.get key with
  | some (.bool value) => value
  | some (.string value) => truthy.contains (normalizeToken value)
  | some (.number value) => 0 < value.asU64.getD 0
  | _ => default

/-- `policy_payload` -/
def policyPayload (input : Json) : Option Json :=
  (input.get "policy").or (match input with
    | .object _ => some input
    | _ => none)

namespace Authorization
open GatewayFrame (lowercase)

/-! ### Capabilities -/

/-- The capabilities that a policy knows. -/
inductive Capability where
  | readFiles
  | writeFiles
  | shellCommand
  | networkAccess
  | browserControl
  | mcpServer
  | longRunningTask
  | processControl
  | gitWrite
  | secretAccess
  | externalWrite
  | destructiveAction
  | systemControl
  deriving DecidableEq

def Capability.text : Capability → String
  | .readFiles => "read_files"
  | .writeFiles => "write_files"
  | .shellCommand => "shell_command"
  | .networkAccess => "network_access"
  | .browserControl => "browser_control"
  | .mcpServer => "mcp_server"
  | .longRunningTask => "long_running_task"
  | .processControl => "process_control"
  | .gitWrite => "git_write"
  | .secretAccess => "secret_access"
  | .externalWrite => "external_write"
  | .destructiveAction => "destructive_action"
  | .systemControl => "system_control"

/-- The tokens under which each capability may be asked for. -/
def aliases : List (Capability × List String) :=
  [(.readFiles, ["read_file", "read_files", "file_read", "filesystem_read", "filesystem_read_only",
      "connector_action_read", "connector_read", "browser_read", "screen_read", "file_metadata", "memory_read",
      "vision_screen"]),
    (.writeFiles, ["write_file", "write_files", "file_write", "filesystem_write", "filesystem_read_write",
      "memory_write"]),
    (.shellCommand, ["shell", "shell_command", "shell_execute", "command", "terminal", "exec", "execute",
      "terminal_command", "terminal_approved_script"]),
    (.networkAccess, ["network", "network_access", "http", "web_request", "cloud_storage_access"]),
    (.browserControl, ["browser", "browser_control", "web_browser", "browser_click", "browser_form_submit",
      "browser_automation", "browser_automation_interactive"]),
    (.mcpServer, ["mcp", "mcp_server", "tool_server"]),
    (.longRunningTask, ["long_running", "long_running_task", "background_task", "scheduler_create"]),
    (.processControl, ["process", "process_control", "kill_process", "app_control"]),
    (.gitWrite, ["git", "git_write", "git_push", "git_commit", "production_deploy"]),
    (.secretAccess, ["secret", "secrets", "secret_access", "credential_access"]),
    (.externalWrite, ["external_write", "external_side_effect", "send_email", "calendar_write", "communication_send",
      "communication_draft", "send_message", "post_message", "reply_message", "notification_send",
      "commerce_payment"]),
    (.destructiveAction, ["destructive", "destructive_action", "delete", "delete_data", "file_delete", "delete_files",
      "delete_records", "transfer_funds", "payment_transfer"]),
    (.systemControl, ["system", "system_control", "os_control", "install_software", "install_extension",
      "system_change_setting", "system_change_permission"])]

/-- `normalize_capability` -/
def normalizeCapability (value : String) : Option Capability :=
  (aliases.find? fun row => row.2.contains (normalizeToken value)).map Prod.fst

@[simp] theorem normalizeCapability_text (c : Capability) : normalizeCapability c.text = some c := by
  cases c <;> decide

@[simp] theorem present_text (c : Capability) : present c.text = some c.text := by
  cases c <;> decide

/-- `is_read_only_capability` -/
def Capability.readOnly (c : Capability) : Bool := c = .readFiles

/-! ### Policies -/

/-- How far an agent acts on its own. -/
inductive AutonomyMode where
  | yolo
  | cautious
  | denyAll
  | readOnly
  | safeAutopilot
  | trustedWorkstation
  | askEveryTime
  deriving DecidableEq

/-- The other names of a mode. -/
def normalizeAutonomyMode (value : String) : AutonomyMode :=
  match normalizeToken value with
  | "yolo" | "autonomous" | "full_autonomy" | "maximum_autonomy" => .yolo
  | "cautious" | "approval_required" | "ask_for_writes" => .cautious
  | "deny_all" | "lockdown" | "disabled" | "off" | "emergency_stop" | "stop" | "killed" => .denyAll
  | "read_only" | "readonly" => .readOnly
  | "safe_autopilot" | "safe_auto" => .safeAutopilot
  | "trusted_workstation" | "trusted" => .trustedWorkstation
  | _ => .askEveryTime

/-- A policy as it is parsed. -/
structure Policy where
  id : Option String
  version : Option String
  autonomyMode : AutonomyMode
  allowedCapabilities : List Capability
  approvalRequiredCapabilities : List Capability
  blockedCapabilities : List Capability
  domainAllowlist : List String
  filesystemScope : List String
  blockedFilesystemScope : List String
  sandboxType : Option String
  deriving DecidableEq

/-- The keys of a policy. -/
def policyKeys : List String :=
  ["policy_id", "policy_version", "autonomy_mode", "allowed_capabilities", "approval_required_capabilities",
    "blocked_capabilities", "domain_allowlist", "filesystem_scope", "blocked_filesystem_scope", "approval_ttl_seconds",
    "sandbox_type"]

/-- `capability_set` -/
def capabilitySet (input : Json) (key : String) : List Capability :=
  (stringVecField input key).filterMap normalizeCapability

/-- `Policy::from_value` -/
def fromValue (value : Json) : Except String Policy :=
  match value with
  | .object fields =>
    if policyKeys.any fun key => (fields.lookup key).isSome then
      .ok {
        id := stringField value "policy_id"
        version := stringField value "policy_version"
        autonomyMode := normalizeAutonomyMode ((stringField value "autonomy_mode").getD "ask_every_time")
        allowedCapabilities := capabilitySet value "allowed_capabilities"
        approvalRequiredCapabilities := capabilitySet value "approval_required_capabilities"
        blockedCapabilities := capabilitySet value "blocked_capabilities"
        domainAllowlist := stringVecField value "domain_allowlist"
        filesystemScope := stringVecField value "filesystem_scope"
        blockedFilesystemScope := stringVecField value "blocked_filesystem_scope"
        sandboxType := stringField value "sandbox_type" }
    else .error "policy_missing"
  | _ => .error "policy_malformed"

/-- `Policy::from_input` -/
def fromInput (input : Json) : Except String Policy :=
  match policyPayload input with
  | none => .error "policy_missing"
  | some value => fromValue value

/-! ### Scopes -/

/-- `trim_start_matches`, of at most this many occurrences -/
def trimStartMatches (part : List Char) : Nat → List Char → List Char
  | 0, text => text
  | n + 1, text => if part.isPrefixOf text then trimStartMatches part n (text.drop part.length) else text

/-- A domain without its scheme, in lower case. -/
def hostOf (value : String) : List Char :=
  let text := (trim rustSpace value).toList
  let text := trimStartMatches "https://".toList text.length text
  let text := trimStartMatches "http://".toList text.length text
  (text.rdropWhile (· = '/')).map Char.toLower

/-- The entry is `*`, the domain, or one that the domain is under. -/
def domainMatches (domain entry : List Char) : Bool :=
  entry = ['*'] || domain = entry || ('.' :: entry).isSuffixOf domain

/-- The host matches an entry of the list. -/
def domainAllowed (p : Policy) (requestedDomain : String) : Bool :=
  hostOf requestedDomain ≠ [] &&
    p.domainAllowlist.any fun entry => domainMatches (hostOf requestedDomain) (hostOf entry)

/-- A path matches by its beginning, or by `*`. -/
def pathMatches (path entry : String) : Bool :=
  trim rustSpace entry = "*" || (trim rustSpace entry).toList.isPrefixOf (trim rustSpace path).toList

/-- A path that is not blank matches the scope. -/
def pathAllowed (p : Policy) (requestedPath : String) : Bool :=
  trim rustSpace requestedPath ≠ "" && p.filesystemScope.any (pathMatches requestedPath)

/-- The path matches the blocked scope. -/
def pathBlocked (p : Policy) (requestedPath : String) : Bool :=
  p.blockedFilesystemScope.any (pathMatches requestedPath)

/-! ### Decisions -/

/-- The three decisions. -/
inductive PolicyDecisionKind where
  | allow
  | requireApproval
  | block
  deriving DecidableEq

namespace PolicyDecisionKind

/-- How strict a decision is. -/
def severity : PolicyDecisionKind → Nat
  | .allow => 0
  | .requireApproval => 1
  | .block => 2

end PolicyDecisionKind

/-- A decision with its reason. -/
structure PolicyDecision where
  kind : PolicyDecisionKind
  reason : String
  deriving DecidableEq

/-- What the autonomy mode says of a capability that the policy does not name. -/
def defaultDecision (mode : AutonomyMode) (c : Capability) : PolicyDecision :=
  match mode with
  | .readOnly =>
    if c.readOnly then ⟨.allow, "read_only_capability_allowed"⟩ else ⟨.block, "default_deny"⟩
  | .cautious =>
    if c.readOnly then ⟨.allow, "cautious_read_capability_allowed"⟩
    else ⟨.requireApproval, "default_approval_required"⟩
  | .askEveryTime | .safeAutopilot | .trustedWorkstation => ⟨.requireApproval, "default_approval_required"⟩
  | .denyAll | .yolo => ⟨.block, "default_deny"⟩

/-- What stands outside the scopes of the policy. -/
def scopeReason (p : Policy) (requestedDomain requestedPath : Option String) : Option String :=
  if requestedDomain.any fun domain => !domainAllowed p domain then some "domain_outside_policy_scope"
  else if requestedPath.any (pathBlocked p) then some "path_blocked_by_policy_scope"
  else if requestedPath.any fun path => !pathAllowed p path then some "path_outside_policy_scope"
  else none

/-- `evaluate_request` -/
def evaluateRequest (p : Policy) (capability : String) (requestedDomain requestedPath : Option String) :
    PolicyDecision :=
  match normalizeCapability capability with
  | none => ⟨.block, "unknown_capability"⟩
  | some c =>
    if p.blockedCapabilities.contains c then ⟨.block, "capability_blocked_by_policy"⟩
    else match scopeReason p requestedDomain requestedPath with
    | some reason => ⟨.block, reason⟩
    | none =>
      if p.autonomyMode = .yolo then ⟨.allow, "yolo_policy_fast_path"⟩
      else if p.allowedCapabilities.contains c then ⟨.allow, "capability_allowed_by_policy"⟩
      else if p.approvalRequiredCapabilities.contains c then ⟨.requireApproval, "capability_requires_approval"⟩
      else defaultDecision p.autonomyMode c

/-! ### Tighter policies -/

variable {p q : Policy}

end Authorization

end Empyralis.Kernel
