import Empyralis.Kernel.Queue

/-! The decision of the kernel on a machine lease: the caller sends the holder and the lease it has on
    record with the holder and the lease of the request. -/

namespace Empyralis.Kernel.Lease
open Queue (Decision)

def defaultLeaseTtlSeconds : Nat := 900
def minLeaseTtlSeconds : Nat := 30
def maxLeaseTtlSeconds : Nat := 3600

/-- The operations on a lease. -/
inductive Operation where
  | acquire | renew | release | heartbeat
  deriving DecidableEq

/-- `normalize_operation`; `none` stands for the empty string. -/
def normalizeOperation (value : String) : Option Operation :=
  match normalizeToken value with
  | "acquire" | "claim" | "create" => some .acquire
  | "renew" | "extend" => some .renew
  | "release" | "delete" | "free" => some .release
  | "heartbeat" | "ping" | "keepalive" => some .heartbeat
  | _ => none

/-- The object that `lease_response` builds. -/
structure Response where
  ok : Bool
  decision : Decision
  reason : String
  operation : Operation
  nextAction : String
  holderId : Option String
  currentHolderId : Option String
  leaseId : Option String
  ttlSeconds : Nat
  force : Bool
  approvalRequired : Bool
  cacheable : Bool
  auditVisibility : String
  deriving DecidableEq

/-- A reply is such an object or the short one of `protocol::block`. -/
inductive Reply where
  | block (reason : String)
  | response (r : Response)
  deriving DecidableEq

/-- What the caller is told to do next. -/
def nextAction : Operation → Decision → String
  | _, .requireApproval => "request_machine_lease_approval"
  | .acquire, .allow | .renew, .allow => "persist_machine_lease_transition"
  | .release, .allow => "release_machine_lease_transition"
  | .heartbeat, .allow => "touch_machine_lease"
  | _, _ => "deny_machine_lease_transition"

/-- The response with what follows from its decision. -/
def leaseResponse (decision : Decision) (reason : String) (operation : Operation)
    (holderId currentHolderId leaseId : Option String) (ttlSeconds : Nat) (force : Bool) : Reply :=
  .response {
    ok := decision ≠ .block
    decision, reason, operation
    nextAction := nextAction operation decision
    holderId, currentHolderId, leaseId, ttlSeconds, force
    approvalRequired := decision = .requireApproval
    cacheable := false
    auditVisibility := if decision = .allow then "standard" else "security" }

/-- A lease is acquired where there is room; its own holder has it already. -/
def acquireDecision (holderId currentHolderId leaseId currentLeaseId : Option String)
    (activeLeaseCount maxConcurrentLeases : Nat) (stale force : Bool) (ttlSeconds : Nat) : Reply :=
  match holderId with
  | none => .block "lease_holder_missing"
  | some holder =>
    if currentHolderId = some holder ∧ (currentLeaseId.or leaseId).isSome then
      leaseResponse .allow "lease_already_held_by_requester" .acquire (some holder) currentHolderId
        (currentLeaseId.or leaseId) ttlSeconds false
    else if maxConcurrentLeases ≤ activeLeaseCount ∧ !stale ∧ !force then
      leaseResponse .block "lease_capacity_exhausted" .acquire (some holder) currentHolderId leaseId
        ttlSeconds false
    else
      let takeover := force && decide (maxConcurrentLeases ≤ activeLeaseCount)
      leaseResponse (if takeover then .requireApproval else .allow)
        (if stale then "stale_lease_may_be_replaced"
          else if takeover then "forced_lease_takeover_requires_approval"
          else "lease_acquire_allowed")
        .acquire (some holder) currentHolderId leaseId ttlSeconds force

/-- The checks that a renewal, a release and a heartbeat share: the lease, then its holder. -/
def heldDecision (operation : Operation) (mismatch notHeld : String)
    (holderId currentHolderId leaseId currentLeaseId : Option String) (ttlSeconds : Nat)
    (force : Bool) (held : String → Reply) : Reply :=
  match holderId with
  | none => .block "lease_holder_missing"
  | some holder =>
    if leaseId.isNone then .block "lease_id_missing"
    else if currentLeaseId.isSome ∧ leaseId ≠ currentLeaseId then
      leaseResponse .block mismatch operation (some holder) currentHolderId leaseId ttlSeconds false
    else if currentHolderId ≠ some holder ∧ !force then
      leaseResponse .block notHeld operation (some holder) currentHolderId leaseId ttlSeconds false
    else held holder

/-- A stale lease is renewed with an approval only. -/
def renewDecision (holderId currentHolderId leaseId currentLeaseId : Option String) (stale : Bool)
    (ttlSeconds : Nat) : Reply :=
  heldDecision .renew "lease_renew_id_mismatch" "lease_not_held_by_requester" holderId
    currentHolderId leaseId currentLeaseId ttlSeconds false fun holder =>
    leaseResponse (if stale then .requireApproval else .allow)
      (if stale then "stale_lease_renewal_requires_approval" else "lease_renew_allowed") .renew
      (some holder) currentHolderId leaseId ttlSeconds false

/-- A lease of another holder is released by force only. -/
def releaseDecision (holderId currentHolderId leaseId currentLeaseId : Option String)
    (stale force : Bool) : Reply :=
  heldDecision .release "lease_release_id_mismatch" "lease_release_not_owned" holderId
    currentHolderId leaseId currentLeaseId 0 force fun holder =>
    let forced := force && decide (currentHolderId ≠ some holder)
    leaseResponse (if forced then .requireApproval else .allow)
      (if forced then "forced_release_requires_approval"
        else if stale then "stale_lease_release_allowed"
        else "lease_release_allowed")
      .release (some holder) currentHolderId leaseId 0 force

/-- A stale lease has no heartbeat. -/
def heartbeatDecision (holderId currentHolderId leaseId currentLeaseId : Option String)
    (stale : Bool) : Reply :=
  heldDecision .heartbeat "lease_heartbeat_id_mismatch" "lease_heartbeat_not_owned" holderId
    currentHolderId leaseId currentLeaseId 0 false fun holder =>
    leaseResponse (if stale then .block else .allow)
      (if stale then "stale_lease_heartbeat_blocked" else "lease_heartbeat_allowed") .heartbeat
      (some holder) currentHolderId leaseId 0 false

/-- The `lease_ttl_seconds` of a request, within its bounds. -/
def requestedTtlSeconds (input : Json) : Nat :=
  let asked := (input.get "lease_ttl_seconds").or (input.get "requested_ttl_seconds")
  min (max ((asked.bind Json.asU64).getD defaultLeaseTtlSeconds) minLeaseTtlSeconds)
    maxLeaseTtlSeconds

/-- `machine_lease_decision_command`; as in the queue's command, `unknown_lease_operation` is never
    reached. -/
def machineLeaseDecisionCommand (input : Json) : Reply :=
  match normalizeOperation ((stringFieldOr input "operation" "action").getD "") with
  | none => .block "lease_operation_missing"
  | some operation =>
    let holderId := stringFieldOr input "holder_id" "requested_holder_id"
    let currentHolderId := stringField input "current_holder_id"
    let leaseId := stringField input "lease_id"
    let currentLeaseId := stringFieldOr input "current_lease_id" "existing_lease_id"
    let stale := boolish input "stale" || boolish input "expired"
    let force := boolish input "force"
    match operation with
    | .acquire => acquireDecision holderId currentHolderId leaseId currentLeaseId
        (((input.get "active_lease_count").bind Json.asU64).getD 0)
        (max (((input.get "max_concurrent_leases").bind Json.asU64).getD 1) 1) stale force
        (requestedTtlSeconds input)
    | .renew => renewDecision holderId currentHolderId leaseId currentLeaseId stale
        (requestedTtlSeconds input)
    | .release => releaseDecision holderId currentHolderId leaseId currentLeaseId stale force
    | .heartbeat => heartbeatDecision holderId currentHolderId leaseId currentLeaseId stale

end Empyralis.Kernel.Lease
