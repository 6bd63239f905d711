import Empyralis.Kernel.StateStore

/-! The decision of the kernel on an operation of the control plane: who may apply it, what it needs, and what the
    server is to do next. The server sends every flag as a truth value. -/

namespace Empyralis.Kernel.ControlPlaneService
open Queue (Decision)
open StateStore (normalize)

/-- The fields of the payload, with what the kernel takes for one that is not there. The flags `owner_access` and
    `admin_access`, whose defaults the role of the actor decides, are always sent. -/
structure Request where
  operation : String := "unknown"
  tenantId : String := ""
  workspaceId : String := ""
  actorId : String := ""
  targetActorId : String := ""
  runId : String := ""
  threadId : String := ""
  agentId : String := ""
  gatewayId : String := ""
  sessionId : String := ""
  webhookId : String := ""
  idempotencyKey : String := ""
  targetStatus : String := "active"
  source : String := "internal"
  scopeType : String := "workspace"
  approvalProvided : Bool := false
  workspaceAccess : Bool := true
  ownerAccess : Bool
  adminAccess : Bool
  billingEntitled : Bool := true
  quotaOk : Bool := true
  killSwitchEnabled : Bool := false
  safeModeEnabled : Bool := false
  retentionLock : Bool := false
  terminalRecord : Bool := false
  statusTransitionValid : Bool := true
  webhookSignatureValid : Bool := true
  privacyExportApproval : Bool := false
  publicRouteEnabled : Bool := false
  dryRun : Bool := false

/-! ### The operations -/

/-- `known_operation` -/
def serviceOperations : List String :=
  ["tenant_create", "tenant_update", "workspace_create", "workspace_update", "workspace_ai_route_update",
    "transparency_settings_update", "workspace_routing_update", "workspace_policy_update",
    "sage_tool_policy_update", "provider_models_refresh", "workspace_archive", "workspace_delete",
    "membership_add", "membership_update", "membership_remove", "invite_create", "invite_accept", "invite_revoke",
    "pilot_invite_create", "pilot_invite_claim", "pilot_invite_revoke", "workspace_tenant_binding_ensure",
    "user_profile_update", "billing_update", "workspace_billing_defaults_write", "workspace_billing_plan_update",
    "workspace_billing_account_write", "workspace_billing_subscription_write", "security_control_state_write",
    "governance_hold_write", "governance_hold_release", "channel_user_acquisition_touch_write",
    "channel_user_acquisition_conversion_write", "deployed_agent_upgrade_click_write", "agent_channel_event_write",
    "personal_context_event_write", "personal_context_event_seen_update", "agent_action_event_write",
    "agent_secret_access_event_write", "agent_egress_event_write", "activity_ledger_event_write",
    "agent_trace_create", "agent_trace_event_write", "agent_trace_finish", "agent_turn_transcript_event_append",
    "agent_thread_ensure", "agent_session_upsert", "agent_session_terminate", "agent_turn_upsert",
    "compiled_workflow_artifact_create", "workspace_agent_install_compiled_artifact_update",
    "self_hosted_enrollment_intent_create", "self_hosted_runtime_enroll", "self_hosted_runtime_approve",
    "self_hosted_runtime_heartbeat", "self_hosted_command_enqueue", "self_hosted_command_claim",
    "self_hosted_command_complete", "entitlement_check", "quota_update", "thread_create", "thread_update",
    "thread_archive", "thread_delete", "run_record_create", "run_record_update", "run_record_read",
    "run_record_list", "deployed_agent_record_write", "gateway_record_write", "session_record_write",
    "webhook_ingest", "audit_export", "admin_impersonation", "workspace_emergency_stop", "public_route_update",
    "external_user_privacy_request_write", "external_user_privacy_audit_write", "external_user_privacy_delete",
    "deployed_agent_scope_data_delete", "workspace_scope_data_delete",
    "deployed_agent_daily_message_quota_consume", "deployed_agent_daily_message_warning_update",
    "deployed_agent_cost_ledger_write", "workspace_hosted_ai_cost_ledger_write", "credit_ledger_event_write",
    "workspace_ai_route_update", "transparency_settings_update", "workspace_routing_update",
    "workspace_policy_update", "sage_tool_policy_update", "provider_models_refresh", "secret_reference_write"]

/-- `DESTRUCTIVE_OPERATIONS` -/
def destructiveOperations : List String :=
  ["workspace_archive", "workspace_delete", "membership_remove", "invite_revoke", "thread_archive",
    "thread_delete", "workspace_emergency_stop", "external_user_privacy_delete",
    "deployed_agent_scope_data_delete", "workspace_scope_data_delete"]

/-- `OWNER_REQUIRED_OPERATIONS` -/
def ownerRequiredOperations : List String :=
  ["tenant_update", "transparency_settings_update", "workspace_policy_update", "workspace_delete",
    "billing_update", "workspace_billing_plan_update", "workspace_billing_account_write",
    "workspace_billing_subscription_write", "security_control_state_write", "governance_hold_write",
    "governance_hold_release", "channel_user_acquisition_touch_write", "channel_user_acquisition_conversion_write",
    "deployed_agent_upgrade_click_write", "agent_channel_event_write", "personal_context_event_write",
    "personal_context_event_seen_update", "agent_action_event_write", "agent_secret_access_event_write",
    "agent_egress_event_write", "activity_ledger_event_write", "agent_trace_create", "agent_trace_event_write",
    "agent_trace_finish", "agent_turn_transcript_event_append", "agent_thread_ensure", "agent_session_upsert",
    "agent_session_terminate", "agent_turn_upsert", "compiled_workflow_artifact_create",
    "workspace_agent_install_compiled_artifact_update", "self_hosted_enrollment_intent_create",
    "self_hosted_runtime_enroll", "self_hosted_runtime_approve", "self_hosted_runtime_heartbeat",
    "self_hosted_command_enqueue", "self_hosted_command_claim", "self_hosted_command_complete", "quota_update",
    "admin_impersonation", "workspace_emergency_stop", "public_route_update", "workspace_scope_data_delete",
    "deployed_agent_daily_message_quota_consume", "deployed_agent_daily_message_warning_update",
    "deployed_agent_cost_ledger_write", "workspace_hosted_ai_cost_ledger_write", "credit_ledger_event_write"]

/-- `ADMIN_REQUIRED_OPERATIONS` -/
def adminRequiredOperations : List String :=
  ["workspace_create", "workspace_update", "workspace_archive", "membership_add", "membership_update",
    "membership_remove", "invite_create", "invite_revoke", "pilot_invite_create", "pilot_invite_revoke",
    "workspace_tenant_binding_ensure", "compiled_workflow_artifact_create",
    "workspace_agent_install_compiled_artifact_update", "self_hosted_enrollment_intent_create",
    "self_hosted_runtime_approve", "self_hosted_command_enqueue", "deployed_agent_record_write",
    "gateway_record_write", "session_record_write", "audit_export", "secret_reference_write",
    "external_user_privacy_delete", "deployed_agent_scope_data_delete", "workspace_scope_data_delete",
    "workspace_billing_account_write", "workspace_billing_subscription_write", "security_control_state_write",
    "governance_hold_write", "governance_hold_release", "channel_user_acquisition_touch_write",
    "channel_user_acquisition_conversion_write", "deployed_agent_upgrade_click_write", "agent_channel_event_write",
    "personal_context_event_write", "personal_context_event_seen_update", "agent_action_event_write",
    "agent_secret_access_event_write", "agent_egress_event_write", "activity_ledger_event_write",
    "agent_trace_create", "agent_trace_event_write", "agent_trace_finish", "agent_turn_transcript_event_append",
    "agent_thread_ensure", "agent_session_upsert", "agent_session_terminate", "agent_turn_upsert",
    "workspace_tenant_binding_ensure"]

/-- `EXTERNAL_WRITE_OPERATIONS` -/
def externalWriteOperations : List String :=
  ["webhook_ingest", "deployed_agent_record_write", "gateway_record_write", "session_record_write",
    "public_route_update", "workspace_ai_route_update", "secret_reference_write",
    "external_user_privacy_request_write", "external_user_privacy_audit_write", "external_user_privacy_delete",
    "deployed_agent_scope_data_delete", "workspace_scope_data_delete", "workspace_billing_defaults_write",
    "workspace_billing_plan_update", "workspace_billing_account_write", "workspace_billing_subscription_write",
    "security_control_state_write", "governance_hold_write", "governance_hold_release",
    "channel_user_acquisition_touch_write", "channel_user_acquisition_conversion_write",
    "deployed_agent_upgrade_click_write", "agent_channel_event_write", "personal_context_event_seen_update",
    "agent_action_event_write", "agent_secret_access_event_write", "agent_egress_event_write",
    "activity_ledger_event_write", "agent_trace_create", "agent_trace_event_write", "agent_trace_finish",
    "agent_turn_transcript_event_append", "agent_thread_ensure", "agent_session_upsert", "agent_session_terminate",
    "agent_turn_upsert", "workspace_tenant_binding_ensure", "user_profile_update",
    "compiled_workflow_artifact_create", "workspace_agent_install_compiled_artifact_update",
    "self_hosted_enrollment_intent_create", "self_hosted_runtime_enroll", "self_hosted_runtime_approve",
    "self_hosted_runtime_heartbeat", "self_hosted_command_enqueue", "self_hosted_command_claim",
    "self_hosted_command_complete"]

/-- `BILLING_GATED_OPERATIONS` -/
def billingGatedOperations : List String :=
  ["workspace_create", "deployed_agent_record_write", "gateway_record_write", "session_record_write",
    "public_route_update", "workspace_ai_route_update", "workspace_billing_defaults_write",
    "workspace_billing_plan_update", "workspace_billing_account_write", "workspace_billing_subscription_write"]

/-- Operations that are refused without a workspace, for this scope. -/
def requiresWorkspace (operation scopeType : String) : Bool :=
  !(["tenant_create", "tenant_update", "entitlement_check", "webhook_ingest"].contains operation) &&
    !(["governance_hold_write", "governance_hold_release"].contains operation && scopeType = "tenant")

/-- The operations on a thread. -/
def requiresThread : List String :=
  ["thread_update", "thread_archive", "thread_delete", "agent_turn_transcript_event_append", "agent_turn_upsert"]

/-- The operations on an agent. -/
def requiresAgent : List String :=
  ["deployed_agent_record_write", "public_route_update", "external_user_privacy_request_write",
    "external_user_privacy_audit_write", "external_user_privacy_delete", "deployed_agent_scope_data_delete",
    "deployed_agent_daily_message_quota_consume", "deployed_agent_daily_message_warning_update",
    "deployed_agent_cost_ledger_write", "channel_user_acquisition_touch_write",
    "channel_user_acquisition_conversion_write", "deployed_agent_upgrade_click_write"]

/-- The operations on a session. -/
def requiresSession : List String := ["session_record_write", "agent_session_upsert", "agent_session_terminate"]

/-- `can_touch_terminal_record` -/
def canTouchTerminalRecord : List String := ["run_record_read", "run_record_list", "audit_export", "entitlement_check"]

/-! ### The decision -/

/-- The fields after `text` and the classes of the operation. -/
structure Read where
  request : Request
  operation : String
  targetStatus : String
  requiresWorkspace : Bool
  destructive : Bool
  ownerRequired : Bool
  adminRequired : Bool
  externalWrite : Bool

/-- What is worked out of a request before it is decided on. -/
def read (r : Request) : Read :=
  let operation := normalize r.operation
  { request := r
    operation
    targetStatus := normalize r.targetStatus
    requiresWorkspace := requiresWorkspace operation (normalize r.scopeType)
    destructive := destructiveOperations.contains operation
    ownerRequired := ownerRequiredOperations.contains operation
    adminRequired := adminRequiredOperations.contains operation
    externalWrite := externalWriteOperations.contains operation || normalize r.source = "webhook" }

/-- A text of which `trim` leaves nothing -/
def blank (value : String) : Bool := (present value).isNone

/-- The reasons of the checks that hold -/
def reasonsOf (checks : List (Bool × String)) : List String := (checks.filter Prod.fst).map Prod.snd

/-- What speaks against the operation, and the reason when it holds, in the order of the source. -/
def blockChecks (c : Read) : List (Bool × String) :=
  let r := c.request
  [(!serviceOperations.contains c.operation, "unknown_control_plane_service_operation"),
    (blank r.tenantId, "missing_tenant"),
    (c.requiresWorkspace && blank r.workspaceId, "missing_workspace"),
    (blank r.actorId, "missing_actor"),
    (c.requiresWorkspace && !r.workspaceAccess, "workspace_access_denied"),
    (c.ownerRequired && !r.ownerAccess, "owner_access_required"),
    (c.adminRequired && !r.adminAccess, "admin_access_required"),
    (billingGatedOperations.contains c.operation && !r.billingEntitled, "billing_entitlement_missing"),
    (!r.quotaOk && c.operation ≠ "entitlement_check", "quota_exceeded"),
    (r.killSwitchEnabled && c.operation ≠ "workspace_emergency_stop", "control_plane_kill_switch_enabled"),
    (c.destructive && r.retentionLock, "retention_lock_active"),
    (r.terminalRecord && !canTouchTerminalRecord.contains c.operation, "terminal_record_locked"),
    (!r.statusTransitionValid, "invalid_status_transition"),
    (c.operation = "webhook_ingest" && !r.webhookSignatureValid, "invalid_webhook_signature"),
    (c.externalWrite && blank r.idempotencyKey, "missing_idempotency_key"),
    (c.operation = "membership_remove" && r.targetActorId = r.actorId, "cannot_remove_self_membership"),
    (c.operation = "invite_revoke" && c.targetStatus = "accepted", "invite_already_accepted"),
    (c.operation = "run_record_update" && blank r.runId, "missing_run_id"),
    -- the second check of the run id, for the operations that need one, leaves the creation out
    (["run_record_create", "run_record_update"].contains c.operation && blank r.runId &&
      c.operation ≠ "run_record_create", "missing_run_id"),
    (requiresThread.contains c.operation && blank r.threadId, "missing_thread_id"),
    (requiresAgent.contains c.operation && blank r.agentId, "missing_agent_id"),
    (c.operation = "gateway_record_write" && blank r.gatewayId, "missing_gateway_id"),
    (requiresSession.contains c.operation && blank r.sessionId, "missing_session_id"),
    (c.operation = "webhook_ingest" && blank r.webhookId, "missing_webhook_id"),
    (c.operation = "audit_export" && !r.privacyExportApproval, "privacy_export_not_approved"),
    (c.operation = "public_route_update" && !r.publicRouteEnabled, "public_route_not_enabled")]

/-- `existing_record_idempotent_return` -/
def existingRecord (c : Read) : Bool := c.operation = "invite_revoke" && c.targetStatus = "revoked"

/-- The reasons to ask for an approval, each with its condition. -/
def approvalChecks (c : Read) : List (Bool × String) :=
  [(c.destructive && !existingRecord c, "destructive_control_plane_operation"),
    (c.request.safeModeEnabled && (c.adminRequired || c.ownerRequired || c.externalWrite),
      "safe_mode_control_plane_write"),
    (c.operation = "secret_reference_write", "secret_reference_write_requires_approval"),
    (c.operation = "admin_impersonation", "admin_impersonation_requires_break_glass"),
    (c.operation = "workspace_emergency_stop", "emergency_stop_requires_owner_audit")]

/-- The reasons of the checks that hold. -/
def blockReasons (c : Read) : List String := reasonsOf (blockChecks c)

/-- The reasons of the approvals that are asked for. -/
def approvalReasons (c : Read) : List String := reasonsOf (approvalChecks c)

/-- A refusal goes before an approval; an approval that is given counts. -/
def decision (c : Read) : Decision :=
  if blockReasons c ≠ [] then .block
  else if !c.request.approvalProvided && approvalReasons c ≠ [] then .requireApproval
  else .allow

/-- What an allowed operation is answered with. -/
def allowedAction (c : Read) : String :=
  if c.request.dryRun then "return_control_plane_dry_run"
  else if existingRecord c then "return_existing_control_plane_record"
  else if c.operation = "webhook_ingest" then "persist_webhook_event"
  else if c.operation = "entitlement_check" then "return_entitlement_snapshot"
  else if c.operation = "audit_export" then "create_audit_export_job"
  else if c.destructive then "apply_control_plane_destructive_write"
  else if c.externalWrite || c.adminRequired || c.ownerRequired then "apply_control_plane_write"
  else "allow_control_plane_read"

/-- What the caller is told to do next. -/
def nextAction (c : Read) : String :=
  match decision c with
  | .block => "do_not_apply_control_plane_operation"
  | .requireApproval => "request_control_plane_approval"
  | .allow => allowedAction c

/-- The text of the decision. -/
def reason (c : Read) : String :=
  match decision c with
  | .block => ",".intercalate (blockReasons c)
  | .requireApproval => ",".intercalate (approvalReasons c)
  | .allow => "control_plane_service_operation_allowed"

/-- What the server reads of the reply. -/
structure Response where
  decision : Decision
  reason : String
  nextAction : String
  deriving DecidableEq

/-- `control_plane_service_decision_command` -/
def controlPlaneServiceDecisionCommand (r : Request) : Response :=
  ⟨decision (read r), reason (read r), nextAction (read r)⟩

theorem reasonsOf_eq_nil {checks : List (Bool × String)} :
    reasonsOf checks = [] ↔ ∀ check ∈ checks, check.1 = false := by
  simp [reasonsOf, List.filter_eq_nil_iff]

/-- Nothing speaks against the operation, and the approval that it may need is there. -/
theorem command_allowed {r : Request} (hchecks : ∀ check ∈ blockChecks (read r), check.1 = false)
    (happroval : r.approvalProvided = true) :
    controlPlaneServiceDecisionCommand r =
      ⟨.allow, "control_plane_service_operation_allowed", allowedAction (read r)⟩ := by
  have hrequest : (read r).request = r := rfl
  have hallow : decision (read r) = .allow := by
    rw [decision, blockReasons, reasonsOf_eq_nil.mpr hchecks, hrequest, happroval]
    rfl
  simp only [controlPlaneServiceDecisionCommand, reason, nextAction, hallow]

end Empyralis.Kernel.ControlPlaneService
