import Empyralis.Kernel.ControlPlaneService
import Empyralis.Server.Tokens

/-! How the server asks the kernel before it creates, claims or revokes a pilot invite, in whichever store the invite
    is. A claim and a revocation wait for a next action with which the kernel does not answer them. -/

namespace Empyralis.Server.PilotInvites
open Kernel
open Kernel.ControlPlaneService (Response controlPlaneServiceDecisionCommand)
open Text (strip)

inductive Operation where
  | create | claim | revoke
  deriving DecidableEq

namespace Operation

def text : Operation → String
  | create => "pilot_invite_create"
  | claim => "pilot_invite_claim"
  | revoke => "pilot_invite_revoke"

/-- The role that each of the three calls gives its actor. -/
def actorRole : Operation → String
  | create | revoke => "admin"
  | claim => "member"

/-- The `target_status` of the payload, which a claim leaves to the kernel. -/
def targetStatus : Operation → String
  | create | claim => "active"
  | revoke => "revoked"

/-- The entries of these operations in `allowed_next_actions`. -/
def allowedNextActions : Operation → List String
  | create | claim => ["apply_control_plane_write"]
  | revoke => ["apply_control_plane_destructive_write"]

end Operation

/-- `_control_plane_text(actor_id) or "system"` -/
def gateActor (actorId : String) : String := if strip actorId = "" then "system" else strip actorId

/-- The payload of `_enforce_control_plane_service_decision`. -/
def gateRequest (op : Operation) (actorId idempotencyKey : String) : ControlPlaneService.Request where
  operation := op.text
  tenantId := "pilot"
  workspaceId := "pilot"
  actorId := gateActor actorId
  idempotencyKey := strip idempotencyKey
  targetStatus := op.targetStatus
  source := "pilot_invite"
  approvalProvided := true
  workspaceAccess := true
  ownerAccess := ["owner", "admin", "system"].contains op.actorRole
  adminAccess := ["owner", "admin", "system"].contains op.actorRole
  billingEntitled := true
  quotaOk := true
  statusTransitionValid := true

/-- `_enforce_control_plane_service_decision`, which raises for an operation that is not allowed, and for one that is
    allowed with another next action than it expects. -/
def enforceControlPlaneServiceDecision (op : Operation) (actorId idempotencyKey : String) : Except String Unit :=
  let reply := controlPlaneServiceDecisionCommand (gateRequest op actorId idempotencyKey)
  if reply.decision ≠ .allow then
    .error ("Rust control-plane service blocked " ++ op.text ++ ": " ++ reply.reason)
  else if !op.allowedNextActions.contains reply.nextAction then
    .error ("Rust control-plane service returned unexpected next_action for " ++ op.text ++ ": " ++ reply.nextAction)
  else .ok ()

/-- What the kernel answers: a claim is in none of its classes of writes, and a revocation not among the destructive
    operations. -/
def Operation.answered : Operation → String
  | create | revoke => "apply_control_plane_write"
  | claim => "allow_control_plane_read"

theorem gateActor_present (actorId : String) : ControlPlaneService.blank (gateActor actorId) = false := by
  unfold gateActor ControlPlaneService.blank
  split
  · decide
  · rename_i hwritten
    rw [present_strip, if_neg hwritten, Option.isNone_some]

theorem normalize_text (op : Operation) : StateStore.normalize op.text = op.text := by
  cases op <;> decide

theorem normalize_targetStatus (op : Operation) : StateStore.normalize op.targetStatus = op.targetStatus := by
  cases op <;> decide

theorem known (op : Operation) : op.text ∈ ControlPlaneService.serviceOperations := by
  cases op <;> decide

theorem not_destructive (op : Operation) : ControlPlaneService.destructiveOperations.contains op.text = false := by
  cases op <;> decide

theorem not_ownerRequired (op : Operation) : ControlPlaneService.ownerRequiredOperations.contains op.text = false := by
  cases op <;> decide

theorem adminRequired_text (op : Operation) :
    ControlPlaneService.adminRequiredOperations.contains op.text = decide (op ≠ .claim) := by
  cases op <;> decide

theorem not_externalWrite (op : Operation) : ControlPlaneService.externalWriteOperations.contains op.text = false := by
  cases op <;> decide

/-- How the kernel reads a request. -/
theorem read_request (op : Operation) (actorId idempotencyKey : String) :
    ControlPlaneService.read (gateRequest op actorId idempotencyKey) =
      { request := gateRequest op actorId idempotencyKey
        operation := op.text
        targetStatus := op.targetStatus
        requiresWorkspace := true
        destructive := false
        ownerRequired := false
        adminRequired := op ≠ .claim
        externalWrite := false } := by
  have hsource : (StateStore.normalize "pilot_invite" = "webhook") = False := by decide
  have hworkspace : ControlPlaneService.requiresWorkspace op.text (StateStore.normalize "workspace") = true := by
    cases op <;> decide
  simp only [ControlPlaneService.read, gateRequest, normalize_text, normalize_targetStatus, not_destructive,
    not_ownerRequired, adminRequired_text, not_externalWrite, hsource, hworkspace, decide_false, Bool.or_false]

/-- Nothing speaks against any of the three operations. -/
theorem unblocked (op : Operation) (actorId idempotencyKey : String) :
    ∀ check ∈ ControlPlaneService.blockChecks (ControlPlaneService.read (gateRequest op actorId idempotencyKey)),
      check.1 = false := by
  have hpilot : ControlPlaneService.blank "pilot" = false := by decide
  have hknown := known op
  rw [read_request]
  cases op <;>
    simpa [ControlPlaneService.blockChecks, gateRequest, hpilot, gateActor_present, Operation.text,
      Operation.actorRole, ControlPlaneService.requiresThread, ControlPlaneService.requiresAgent,
      ControlPlaneService.requiresSession] using hknown

theorem decided (op : Operation) (actorId idempotencyKey : String) :
    controlPlaneServiceDecisionCommand (gateRequest op actorId idempotencyKey) =
      ⟨.allow, "control_plane_service_operation_allowed", op.answered⟩ := by
  rw [ControlPlaneService.command_allowed (unblocked op actorId idempotencyKey) rfl, read_request]
  cases op <;> rfl

/-- The gate lets the creations through and nothing else, whoever asks. -/
theorem enforce_ok_iff (op : Operation) (actorId idempotencyKey : String) :
    enforceControlPlaneServiceDecision op actorId idempotencyKey = .ok () ↔ op = .create := by
  rw [enforceControlPlaneServiceDecision, decided]
  cases op <;> decide

end Empyralis.Server.PilotInvites
