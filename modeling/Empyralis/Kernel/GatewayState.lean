import Empyralis.Kernel.GatewayFrame

/-! The decision of the kernel on a change of what the server keeps of its gateways. -/

namespace Empyralis.Kernel.GatewayState
open GatewayFrame (textAny numericAny boolishOr boolishOr_of_absent normalizeToken)

/-- The statuses in which a registration may open a session. -/
def activeRegistrationStatuses : List String := ["active", "connected", "ready"]

/-- The statuses in which a session is used. -/
def activeSessionStatuses : List String := ["pending", "active", "connected"]

/-- The statuses of an approval that is over. -/
def terminalApprovalStatuses : List String := ["approved", "denied", "expired", "executed", "failed"]

/-- Whom and what a request is about. -/
structure GatewayScope where
  tenantId : String
  workspaceId : String
  userId : String
  deviceId : String
  gatewayId : String
  sessionId : String
  deriving DecidableEq

/-- The scope in a payload, under each of the names that its fields go by. -/
def scope (payload : Json) : GatewayScope where
  tenantId := textAny payload ["tenant_id", "owner_tenant_id"]
  workspaceId := textAny payload ["workspace_id", "owner_workspace_id"]
  userId := textAny payload ["user_id", "owner_user_id"]
  deviceId := textAny payload ["device_id"]
  gatewayId := textAny payload ["gateway_id", "runtime_id"]
  sessionId := textAny payload ["session_id", "gateway_session_id"]

/-- What is answered to an operation that is not blocked. -/
structure Answer where
  reason : String
  operation : String
  nextAction : String
  scope : GatewayScope
  cacheable : Bool
  auditVisibility : String
  deriving DecidableEq

/-- A decision; a refusal has only its reason. -/
inductive Reply where
  | block (reason operation : String)
  | requireApproval (answer : Answer)
  | allow (answer : Answer)
  deriving DecidableEq

/-- `bool_field` -/
def boolField (payload : Json) (key : String) : Bool := boolishOr payload key false

/-- An operation under the one name that it is decided by. -/
def normalizeOperation (raw : String) : String :=
  match normalizeToken raw with
  | "pairing_create" | "create_pairing" => "create_pairing_intent"
  | "pairing_expire" | "expire_pairing" => "expire_pairing_intent"
  | "registration_create" | "consume_pairing" => "register_gateway"
  | "create_session" | "session_issue" => "issue_session"
  | "session_validate" => "validate_session"
  | "connect_session" | "session_connected" => "mark_session_connected"
  | "disconnect_session" | "session_disconnected" => "mark_session_disconnected"
  | "session_touch" | "heartbeat_session" => "touch_session"
  | "rotate_gateway_token" => "rotate_token"
  | "revoke_gateway" => "revoke_registration"
  | "registration_state" => "update_registration_state"
  | "gateway_event" => "record_event"
  | "approval_create" => "create_approval"
  | "approval_resolve" => "resolve_approval"
  | "browser_session" | "upsert_browser_session" => "update_browser_session"
  | "outbox_summary" => "summarize_outbox"
  | "sweep_sessions" => "sweep_stale_sessions"
  | other => other

/-- Operations that write. -/
def mutatesRepository (operation : String) : Bool :=
  !(["validate_session", "summarize_outbox"].contains operation)

/-- The role that the payload names, else the one that its flags stand for. -/
def actorRole (payload : Json) : String :=
  let role := textAny payload ["actor_role", "role", "access_role"]
  if role ≠ "" then normalizeToken role
  else if boolField payload "is_owner" then "owner"
  else if boolField payload "is_admin" then "admin"
  else if boolField payload "is_service" then "service"
  else "member"

/-- Roles that may create and change what is theirs. -/
def canWrite (role : String) : Bool :=
  ["owner", "admin", "workspace_admin", "operator", "system", "service", "member", "user"].contains role

/-- Roles that may decide on a gateway. -/
def canAdmin (role : String) : Bool :=
  ["owner", "admin", "workspace_admin", "tenant_admin", "operator", "system", "service"].contains role

/-- A status as a token; `connected` is `active`. -/
def normalizeStatus (raw : String) : String :=
  let token := normalizeToken raw
  if token = "connected" then "active" else token

/-- `require_gateway_scope`, and what follows it. -/
def withGatewayScope (payload : Json) (operation : String) (next : GatewayScope → Reply) : Reply :=
  let s := scope payload
  if s.gatewayId = "" then .block "gateway_id_missing" operation
  else if s.tenantId = "" then .block "tenant_id_missing" operation
  else if s.workspaceId = "" then .block "workspace_id_missing" operation
  else next s

/-! ### Pairing and registration -/

/-- A pairing needs a scope, an actor who may write and a time to live of at most a day. -/
def createPairingIntentDecision (payload : Json) : Reply :=
  let operation := "create_pairing_intent"
  let s := scope payload
  let ttlSeconds := (numericAny payload ["ttl_seconds", "ttl"]).getD 600
  if s.tenantId = "" ∨ s.workspaceId = "" ∨ s.userId = "" then .block "gateway_pairing_scope_missing" operation
  else if ¬ canWrite (actorRole payload) then .block "gateway_pairing_actor_cannot_create" operation
  else if ttlSeconds = 0 ∨ 86400 < ttlSeconds then .block "gateway_pairing_ttl_invalid" operation
  else if boolField payload "pending_limit_exceeded" then
    .requireApproval ⟨"gateway_pairing_pending_limit_exceeded", operation, "request_pairing_limit_override", s, false,
      "security"⟩
  else .allow ⟨"gateway_pairing_create_allowed", operation, "create_pairing_intent", s, false, "security"⟩

/-- Only what is pending expires, one pairing by its id or all of them at once. -/
def expirePairingIntentDecision (payload : Json) : Reply :=
  let operation := "expire_pairing_intent"
  let s := scope payload
  let status := normalizeStatus (textAny payload ["pairing_status", "current_status", "status"])
  if s.tenantId = "" ∨ s.workspaceId = "" ∨ s.userId = "" then .block "gateway_pairing_scope_missing" operation
  else if ¬ canWrite (actorRole payload) then .block "gateway_pairing_actor_cannot_expire" operation
  else if textAny payload ["pairing_id"] = "" ∧ ¬ boolField payload "bulk_expire" then
    .block "gateway_pairing_id_missing" operation
  else if status ≠ "" ∧ status ≠ "pending" then .block "gateway_pairing_not_pending" operation
  else .allow ⟨"gateway_pairing_expire_allowed", operation, "mark_pairing_intent_expired", s, false, "security"⟩

/-- A gateway is registered with the token of a pairing that is pending and not expired. -/
def registerGatewayDecision (payload : Json) : Reply :=
  let operation := "register_gateway"
  let s := scope payload
  let status := normalizeToken (textAny payload ["pairing_status", "status"])
  if s.gatewayId = "" ∧ textAny payload ["device_id"] = "" then
    .block "gateway_registration_identity_missing" operation
  else if ¬ boolField payload "token_valid" then .block "gateway_pairing_token_invalid" operation
  else if status ≠ "" ∧ status ≠ "pending" then .block "gateway_pairing_not_pending" operation
  else if boolField payload "pairing_expired" then .block "gateway_pairing_expired" operation
  else .allow ⟨"gateway_registration_allowed", operation, "consume_pairing_and_register_gateway", s, false, "security"⟩

/-- `admin_registration_decision` -/
def adminRegistrationDecision (payload : Json) (operation nextAction : String) : Reply :=
  withGatewayScope payload operation fun s =>
    let status := normalizeStatus (textAny payload ["registration_status", "status"])
    if ¬ canAdmin (actorRole payload) then .block "gateway_registration_admin_required" operation
    else if ["revoked", "deleted"].contains status then .block "gateway_registration_terminal" operation
    else .allow ⟨"gateway_registration_admin_write_allowed", operation, nextAction, s, false, "security"⟩

/-- A revocation needs an admin, and an approval where no reason is given. -/
def revokeRegistrationDecision (payload : Json) : Reply :=
  let operation := "revoke_registration"
  withGatewayScope payload operation fun s =>
    if ¬ canAdmin (actorRole payload) then .block "gateway_registration_admin_required" operation
    else if textAny payload ["reason", "revoked_reason"] = "" then
      .requireApproval ⟨"gateway_revoke_reason_required", operation, "request_gateway_revoke_confirmation", s, false,
        "security"⟩
    else .allow ⟨"gateway_registration_revoke_allowed", operation, "revoke_gateway_registration", s, false, "security"⟩

/-- A change of the status needs an admin, and a reason where it revokes or blocks. -/
def updateRegistrationStateDecision (payload : Json) : Reply :=
  let operation := "update_registration_state"
  withGatewayScope payload operation fun s =>
    let status := normalizeStatus (textAny payload ["next_status", "target_status", "status"])
    if ¬ canAdmin (actorRole payload) then .block "gateway_registration_admin_required" operation
    else if ¬ ["active", "suspended", "revoked", "blocked"].contains status then
      .block "gateway_registration_status_invalid" operation
    else if ["revoked", "blocked"].contains status ∧ textAny payload ["reason", "note"] = "" then
      .requireApproval ⟨"gateway_destructive_state_change_requires_reason", operation,
        "request_gateway_state_change_confirmation", s, false, "security"⟩
    else .allow ⟨"gateway_registration_state_update_allowed", operation, "update_gateway_registration_state", s, false,
      "security"⟩

/-- `registration_read_decision` -/
def registrationReadDecision (payload : Json) (operation nextAction : String) : Reply :=
  withGatewayScope payload operation fun s =>
    .allow ⟨"gateway_registration_read_allowed", operation, nextAction, s, true, "standard"⟩

/-! ### Sessions -/

/-- A session is issued to an active registration whose device is trusted, for at most a day. -/
def issueSessionDecision (payload : Json) : Reply :=
  let operation := "issue_session"
  withGatewayScope payload operation fun s =>
    let status := normalizeStatus (textAny payload ["registration_status", "status"])
    let trustState := normalizeToken (textAny payload ["device_trust_state", "trust_state"])
    let ttlSeconds := (numericAny payload ["ttl_seconds", "session_ttl_seconds"]).getD 3600
    if status ≠ "" ∧ ¬ activeRegistrationStatuses.contains status then
      .block "gateway_registration_not_active" operation
    else if ["revoked", "blocked", "quarantined"].contains trustState then
      .block "gateway_device_trust_revoked" operation
    else if ttlSeconds = 0 ∨ 86400 < ttlSeconds then .block "gateway_session_ttl_invalid" operation
    else .allow ⟨"gateway_session_issue_allowed", operation, "issue_gateway_session", s, false, "security"⟩

/-- A session is valid with its token, while it is active and not expired, in its own scope. -/
def validateSessionDecision (payload : Json) : Reply :=
  let operation := "validate_session"
  withGatewayScope payload operation fun s =>
    let status := normalizeStatus (textAny payload ["session_status", "status"])
    if s.sessionId = "" then .block "gateway_session_id_missing" operation
    else if ¬ boolField payload "token_valid" then .block "gateway_session_token_invalid" operation
    else if status ≠ "" ∧ ¬ activeSessionStatuses.contains status then .block "gateway_session_not_active" operation
    else if boolField payload "session_expired" then .block "gateway_session_expired" operation
    else if boolField payload "scope_mismatch" then .block "gateway_session_scope_mismatch" operation
    else .allow ⟨"gateway_session_validate_allowed", operation, "validate_gateway_session", s, true, "standard"⟩

/-- A session may connect while it is active and its binding holds. -/
def markSessionConnectedDecision (payload : Json) : Reply :=
  let operation := "mark_session_connected"
  withGatewayScope payload operation fun s =>
    let status := normalizeStatus (textAny payload ["session_status", "status"])
    if s.sessionId = "" then .block "gateway_session_id_missing" operation
    else if status ≠ "" ∧ ¬ activeSessionStatuses.contains status then
      .block "gateway_session_not_connectable" operation
    else if boolField payload "binding_invalid" then .block "gateway_binding_invalid" operation
    else .allow ⟨"gateway_session_connect_allowed", operation, "mark_gateway_session_connected", s, false, "security"⟩

/-- A write of a session needs only its id. -/
def sessionWriteDecision (payload : Json) (operation nextAction : String) (cacheable : Bool) : Reply :=
  withGatewayScope payload operation fun s =>
    if s.sessionId = "" then .block "gateway_session_id_missing" operation
    else .allow ⟨"gateway_session_write_allowed", operation, nextAction, s, cacheable, "standard"⟩

/-- A number that is below the one before it. -/
def regressed (next previous : Option Nat) : Bool := next.any fun n => previous.any (n < ·)

/-- Neither the number nor the acknowledgement may go back. -/
def touchSessionDecision (payload : Json) : Reply :=
  let operation := "touch_session"
  withGatewayScope payload operation fun s =>
    if s.sessionId = "" then .block "gateway_session_id_missing" operation
    else if regressed (numericAny payload ["seq", "last_seq"]) (numericAny payload ["previous_seq", "stored_seq"]) then
      .block "gateway_session_seq_regressed" operation
    else if regressed (numericAny payload ["ack", "last_ack"]) (numericAny payload ["previous_ack", "stored_ack"]) then
      .block "gateway_session_ack_regressed" operation
    else .allow ⟨"gateway_session_touch_allowed", operation, "touch_gateway_session", s, false, "standard"⟩

/-- A sweep needs an admin, and is a `noop` where nothing is stale. -/
def sweepStaleSessionsDecision (payload : Json) : Reply :=
  let operation := "sweep_stale_sessions"
  let staleCount := (numericAny payload ["stale_count", "candidate_count"]).getD 0
  if ¬ canAdmin (actorRole payload) then .block "gateway_sweep_admin_required" operation
  else .allow ⟨"gateway_stale_session_sweep_allowed", operation,
    if staleCount = 0 then "noop" else "sweep_stale_gateway_sessions", scope payload, staleCount = 0, "standard"⟩

/-! ### Events, approvals and browsers -/

/-- An event needs its direction, kind and type, and has at most 16 MiB. -/
def recordEventDecision (payload : Json) : Reply :=
  let operation := "record_event"
  withGatewayScope payload operation fun s =>
    let direction := normalizeToken (textAny payload ["direction"])
    let frameKind := normalizeToken (textAny payload ["frame_kind", "kind"])
    let payloadSize := (numericAny payload ["payload_size_bytes", "frame_size_bytes"]).getD 0
    if direction = "" ∨ frameKind = "" ∨ textAny payload ["message_type", "type"] = "" then
      .block "gateway_event_shape_missing" operation
    else if 16 * 1024 * 1024 < payloadSize then .block "gateway_event_payload_too_large" operation
    else .allow ⟨"gateway_event_record_allowed", operation, "record_gateway_event", s, false, "standard"⟩

/-- An approval is asked for a run and a capability. -/
def createApprovalDecision (payload : Json) : Reply :=
  let operation := "create_approval"
  withGatewayScope payload operation fun s =>
    if textAny payload ["run_id"] = "" then .block "gateway_approval_run_id_missing" operation
    else if textAny payload ["capability_id", "capability"] = "" then
      .block "gateway_approval_capability_missing" operation
    else .allow ⟨"gateway_approval_create_allowed", operation, "create_gateway_action_approval", s, false, "security"⟩

/-- An approval is resolved once, by an admin. -/
def resolveApprovalDecision (payload : Json) : Reply :=
  let operation := "resolve_approval"
  withGatewayScope payload operation fun s =>
    let status := normalizeStatus (textAny payload ["approval_status", "status"])
    if textAny payload ["approval_id"] = "" then .block "gateway_approval_id_missing" operation
    else if ¬ canAdmin (actorRole payload) then .block "gateway_approval_admin_required" operation
    else if terminalApprovalStatuses.contains status then .block "gateway_approval_already_terminal" operation
    else if ¬ ["approved", "denied", "allow", "block"].contains (normalizeToken (textAny payload ["decision"])) then
      .block "gateway_approval_decision_invalid" operation
    else .allow ⟨"gateway_approval_resolve_allowed", operation, "resolve_gateway_action_approval_atomic", s, false,
      "security"⟩

def browserStatuses : List String :=
  ["active", "paused", "waiting_for_input", "fallback_ready", "attached", "not_attached", "attach_required",
    "attach_failed", "interrupted", "completed", "failed", "cancelled"]

/-- A takeover by hand must be confirmed. -/
def updateBrowserSessionDecision (payload : Json) : Reply :=
  let operation := "update_browser_session"
  withGatewayScope payload operation fun s =>
    let status := normalizeStatus (textAny payload ["browser_status", "status"])
    if textAny payload ["browser_session_id"] = "" ∧ textAny payload ["run_id"] = "" then
      .block "gateway_browser_session_identity_missing" operation
    else if status ≠ "" ∧ ¬ browserStatuses.contains status then
      .block "gateway_browser_session_status_invalid" operation
    else if boolField payload "manual_takeover" ∧ ¬ boolField payload "takeover_confirmed" then
      .requireApproval ⟨"gateway_browser_takeover_requires_confirmation", operation,
        "request_browser_takeover_confirmation", s, false, "security"⟩
    else .allow ⟨"gateway_browser_session_update_allowed", operation, "upsert_gateway_browser_session", s, false,
      "security"⟩

/-- The decision on an operation under its own name. -/
def operationDecision (payload : Json) : String → Reply
  | "create_pairing_intent" => createPairingIntentDecision payload
  | "expire_pairing_intent" => expirePairingIntentDecision payload
  | "register_gateway" => registerGatewayDecision payload
  | "issue_session" => issueSessionDecision payload
  | "validate_session" => validateSessionDecision payload
  | "mark_session_connected" => markSessionConnectedDecision payload
  | "mark_session_disconnected" =>
    sessionWriteDecision payload "mark_session_disconnected" "mark_gateway_session_disconnected" false
  | "touch_session" => touchSessionDecision payload
  | "rotate_token" => adminRegistrationDecision payload "rotate_token" "rotate_gateway_token"
  | "revoke_registration" => revokeRegistrationDecision payload
  | "update_registration_state" => updateRegistrationStateDecision payload
  | "record_event" => recordEventDecision payload
  | "create_approval" => createApprovalDecision payload
  | "resolve_approval" => resolveApprovalDecision payload
  | "update_browser_session" => updateBrowserSessionDecision payload
  | "summarize_outbox" => registrationReadDecision payload "summarize_outbox" "summarize_gateway_outbox"
  | "sweep_stale_sessions" => sweepStaleSessionsDecision payload
  | operation => .block "gateway_state_operation_unknown" operation

/-- `known_operation` -/
def knownOperation (operation : String) : Bool :=
  ["create_pairing_intent", "expire_pairing_intent", "register_gateway", "issue_session", "validate_session",
    "mark_session_connected", "mark_session_disconnected", "touch_session", "rotate_token", "revoke_registration",
    "update_registration_state", "record_event", "create_approval", "resolve_approval", "update_browser_session",
    "summarize_outbox", "sweep_stale_sessions"].contains operation

/-- `gateway_state_decision_command` -/
def gatewayStateDecisionCommand (payload : Json) : Reply :=
  let operation := normalizeOperation (textAny payload ["operation", "action"])
  if operation = "" then .block "gateway_state_operation_missing" "unknown"
  else if ¬ knownOperation operation then .block "gateway_state_operation_unknown" operation
  else if boolField payload "tenant_disabled" then .block "gateway_state_tenant_disabled" operation
  else if boolField payload "workspace_disabled" then .block "gateway_state_workspace_disabled" operation
  else if boolField payload "repository_read_only" ∧ mutatesRepository operation then
    .block "gateway_state_repository_read_only" operation
  else operationDecision payload operation

/-! ### What an allowed operation has passed -/

variable {payload : Json} {answer : Answer}

/-- What is allowed is allowed by the decision on its operation. -/
theorem operationDecision_of_allow (h : gatewayStateDecisionCommand payload = .allow answer) :
    operationDecision payload (normalizeOperation (textAny payload ["operation", "action"])) = .allow answer := by
  unfold gatewayStateDecisionCommand at h
  dsimp only at h
  generalize operationDecision payload (normalizeOperation (textAny payload ["operation", "action"])) = reply at h ⊢
  repeat' split at h
  all_goals first | exact h | cases h

theorem operationDecision_connect (payload : Json) :
    operationDecision payload "mark_session_connected" = markSessionConnectedDecision payload := by
  rfl

/-- A session is connected only from a status in which it may be. -/
theorem status_of_connect_allowed (h : markSessionConnectedDecision payload = .allow answer) :
    let status := normalizeStatus (textAny payload ["session_status", "status"])
    status = "" ∨ activeSessionStatuses.contains status := by
  simp only [markSessionConnectedDecision, withGatewayScope] at h
  repeat' split at h
  all_goals try cases h
  rename_i hstatus _
  by_contra hnot
  rw [not_or] at hnot
  exact hstatus hnot

end Empyralis.Kernel.GatewayState
