import Empyralis.Kernel.Lease
import Empyralis.Kernel.LocalWorker
import Empyralis.Server.Tokens

/-! How the server asks the kernel before it changes the local queue, and what it raises when the
    kernel does not allow the change. -/

namespace Empyralis.Server.Leases
open Kernel
open Text (strip)

/-- What an operation on the local queue raises. -/
inductive Error where
  | http (status : Nat) (detail : String)
  | denied (operation reason : String)
  | attribute
  | value
  deriving DecidableEq

/-- What `enforce_kernel_decision` makes of a reply. -/
inductive Verdict where
  | allowed (nextAction reason : String)
  | blocked (reason : String)
  | approval (reason : String)

/-- What the caller makes of a decision. -/
def verdict (decision : Queue.Decision) (nextAction reason : String) : Verdict :=
  match decision with
  | .allow => .allowed nextAction reason
  | .block => .blocked reason
  | .requireApproval => .approval reason

/-! ### Machine leases -/

/-- The arguments of `_enforce_machine_lease_decision`. -/
structure LeaseRequest where
  operation : String
  holderId : String
  currentHolderId : String := ""
  leaseId : String := ""
  currentLeaseId : String := ""
  activeLeaseCount : Nat := 0
  maxConcurrentLeases : Int := 1
  leaseTtlSeconds : Int := 900
  stale : Bool := false
  force : Bool := false
  allowBlockResult : Bool := false

/-- The payload that the kernel gets. -/
def leasePayload (r : LeaseRequest) : Json :=
  .object [("operation", .string r.operation), ("holder_id", .string (strip r.holderId)),
    ("requested_holder_id", .string (strip r.holderId)),
    ("current_holder_id", .string (strip r.currentHolderId)),
    ("lease_id", .string (strip r.leaseId)), ("current_lease_id", .string (strip r.currentLeaseId)),
    ("active_lease_count", .number (.posInt r.activeLeaseCount)),
    ("max_concurrent_leases", .number (.posInt (max 1 r.maxConcurrentLeases).toNat)),
    ("lease_ttl_seconds", .number (.posInt (max 1 r.leaseTtlSeconds).toNat)),
    ("requested_ttl_seconds", .number (.posInt (max 1 r.leaseTtlSeconds).toNat)),
    ("stale", .bool r.stale), ("expired", .bool r.stale), ("force", .bool r.force)]

def leaseVerdict : Lease.Reply → Verdict
  | .block reason => .blocked reason
  | .response r => verdict r.decision r.nextAction r.reason

/-- The action that the kernel has to answer, where one is asked for. -/
def expectedLeaseAction : String → Option String
  | "acquire" | "renew" => some "persist_machine_lease_transition"
  | "release" => some "release_machine_lease_transition"
  | "heartbeat" => some "touch_machine_lease"
  | _ => none

/-- `_enforce_machine_lease_decision`. With `allow_block_result` a refusal is looked up in
    `exc.result`, an attribute the kernel's exceptions do not have. -/
def enforceMachineLeaseDecision (r : LeaseRequest) : Except Error Unit :=
  match leaseVerdict (Lease.machineLeaseDecisionCommand (leasePayload r)) with
  | .allowed next _ =>
    match expectedLeaseAction r.operation with
    | some expected =>
      if next = expected then .ok ()
      else .error (.http 409 ("Rust machine-lease gate blocked " ++ r.operation ++
        ": unexpected_next_action:" ++ if next = "" then "missing" else next))
    | none => .ok ()
  | .approval reason =>
    if r.allowBlockResult then .error .attribute
    else .error (.http 409 ("Rust machine-lease gate requires approval for " ++ r.operation ++ ": " ++
      reason))
  | .blocked reason =>
    if r.allowBlockResult then .error .attribute
    else .error (.http 409 ("Rust machine-lease gate blocked " ++ r.operation ++ ": " ++ reason))

/-! ### Queue transitions -/

/-- The arguments of `_enforce_queue_transition_decision`. -/
structure QueueRequest where
  operation : String
  runId : String
  requesterId : String
  leaseHolderId : String := ""
  status : String := "queued"
  stale : Bool := false
  force : Bool := false
  attempts : Int := 0
  maxAttempts : Int := 3

/-- The payload that the kernel gets. -/
def queuePayload (r : QueueRequest) : Json :=
  .object [("operation", .string r.operation), ("item_id", .string (strip r.runId)),
    ("run_id", .string (strip r.runId)), ("requester_id", .string (strip r.requesterId)),
    ("worker_id", .string (strip r.requesterId)),
    ("lease_holder_id", .string (strip r.leaseHolderId)),
    ("current_holder_id", .string (strip r.leaseHolderId)),
    ("status", .string (strip (if r.status = "" then "unknown" else r.status))),
    ("current_status", .string (strip (if r.status = "" then "unknown" else r.status))),
    ("stale", .bool r.stale), ("lease_stale", .bool r.stale), ("force", .bool r.force),
    ("attempts", .number (.posInt (max 0 r.attempts).toNat)),
    ("max_attempts", .number (.posInt (max 1 r.maxAttempts).toNat))]

def queueVerdict : Queue.Reply → Verdict
  | .block reason => .blocked reason
  | .response r => verdict r.decision r.nextAction r.reason

/-- The action that the kernel has to answer. -/
def expectedQueueAction : String → Option String
  | "enqueue" => some "enqueue_queue_item"
  | "claim" => some "claim_queue_item"
  | "complete" => some "complete_queue_item"
  | "retry" => some "retry_queue_item"
  | "cancel" => some "cancel_queue_item"
  | "release" => some "release_queue_item"
  | "dead_letter" => some "dead_letter_queue_item"
  | _ => none

/-- `_enforce_queue_transition_decision`, which returns the reason of an `allow`; no caller asks for
    `fail` here. -/
def enforceQueueTransitionDecision (r : QueueRequest) : Except Error String :=
  match queueVerdict (Queue.queueTransitionDecisionCommand (queuePayload r)) with
  | .allowed next reason =>
    match expectedQueueAction r.operation with
    | some expected =>
      if next = expected then .ok reason
      else .error (.http 409 ("Rust queue gate returned unexpected next_action for " ++ r.operation ++
        ": " ++ if next = "" then "missing" else next))
    | none => .ok reason
  | .approval reason =>
    .error (.http 409 ("Rust queue gate requires approval for " ++ r.operation ++ ": " ++ reason))
  | .blocked reason =>
    .error (.http 409 ("Rust queue gate blocked " ++ r.operation ++ ": " ++ reason))

/-! ### Local workers -/

/-- What the decider for local workers is asked. -/
structure WorkerRequest where
  operation : LocalWorker.Operation
  workspaceId : String
  workerId : String
  currentWorkerId : String
  runId : String
  runStatus : String
  claimMissing : Bool

def operationText : LocalWorker.Operation → String
  | .runHeartbeat => "run_heartbeat"
  | .completeRun => "complete_run"

/-- The payload that the kernel gets. -/
def workerPayload (r : WorkerRequest) : Json :=
  .object [("operation", .string (operationText r.operation)),
    ("workspace_id", .string r.workspaceId), ("worker_id", .string r.workerId),
    ("current_worker_id", .string r.currentWorkerId), ("run_id", .string r.runId),
    ("run_status", .string r.runStatus), ("actor_role", .string "worker"),
    ("local_companion_enabled", .bool true), ("claim_missing", .bool r.claimMissing)]

def notOwner : Error := .http 403 "Worker does not own this local run."

/-- `_raise_local_worker_gate_block` -/
def gateBlock (operation : LocalWorker.Operation) (reason : String) : Error :=
  match reason with
  | "local_run_not_owned_by_worker" => notOwner
  | "local_run_claim_missing" => .http 409 "Run is not claimed by Gateway."
  | reason => .denied (operationText operation) reason

/-- `_enforce_local_worker_decision` with `allow_block_result`, and the block raised by its caller. An
    `allow` of these operations has the expected next action. -/
def enforceLocalWorkerDecision (r : WorkerRequest) : Except Error Unit :=
  match LocalWorker.localWorkerDecisionCommand r.operation (workerPayload r) with
  | .allow _ => .ok ()
  | .block reason => .error (gateBlock r.operation reason)

/-! ### What the gates let through -/

/-- The number of leases a holder may have: a limit that does not fit in 64 bits is read as one. -/
def leaseLimit (maxConcurrentLeases : Int) : Nat :=
  if (max 1 maxConcurrentLeases).toNat ≤ u64Max then (max 1 maxConcurrentLeases).toNat else 1

theorem leaseLimit_le (n : Int) : leaseLimit n ≤ (max 1 n).toNat := by
  unfold leaseLimit
  split <;> omega

theorem leaseLimit_le_u64 (n : Int) : leaseLimit n ≤ u64Max := by
  unfold leaseLimit u64Max
  split <;> omega

/-! The four requests that the operations on claims make. -/

/-- The request for a new lease. -/
def acquireRequest (holder : String) (active : Nat) (limit ttl : Int) : LeaseRequest where
  operation := "acquire"
  holderId := holder
  activeLeaseCount := active
  maxConcurrentLeases := limit
  leaseTtlSeconds := ttl

/-- The request to give a lease back. -/
def releaseRequest (holder current lease currentLease : String) (stale allow : Bool) :
    LeaseRequest where
  operation := "release"
  holderId := holder
  currentHolderId := current
  leaseId := lease
  currentLeaseId := currentLease
  stale := stale
  allowBlockResult := allow

/-- The request to give a claim back. -/
def queueRelease (runId requester holder : String) (stale : Bool) : QueueRequest where
  operation := "release"
  runId := runId
  requesterId := requester
  leaseHolderId := holder
  status := "claimed"
  stale := stale

/-- The kernel reads a lease request through its fields. -/
theorem lease_command (r : LeaseRequest) :
    Lease.machineLeaseDecisionCommand (leasePayload r) =
      match Lease.normalizeOperation ((present r.operation).getD "") with
      | none => .block "lease_operation_missing"
      | some .acquire => Lease.acquireDecision (present (strip r.holderId))
          (present (strip r.currentHolderId)) (present (strip r.leaseId))
          (present (strip r.currentLeaseId))
          (if r.activeLeaseCount ≤ u64Max then r.activeLeaseCount else 0)
          (leaseLimit r.maxConcurrentLeases) r.stale r.force
          (Lease.requestedTtlSeconds (leasePayload r))
      | some .renew => Lease.renewDecision (present (strip r.holderId))
          (present (strip r.currentHolderId)) (present (strip r.leaseId))
          (present (strip r.currentLeaseId)) r.stale (Lease.requestedTtlSeconds (leasePayload r))
      | some .release => Lease.releaseDecision (present (strip r.holderId))
          (present (strip r.currentHolderId)) (present (strip r.leaseId))
          (present (strip r.currentLeaseId)) r.stale r.force
      | some .heartbeat => Lease.heartbeatDecision (present (strip r.holderId))
          (present (strip r.currentHolderId)) (present (strip r.leaseId))
          (present (strip r.currentLeaseId)) r.stale := by
  have hop : (stringFieldOr (leasePayload r) "operation" "action").getD "" =
      (present r.operation).getD "" := by
    simp [stringFieldOr, stringField, Json.get, leasePayload, List.lookup_cons, Json.asStr]
  have hholder : stringFieldOr (leasePayload r) "holder_id" "requested_holder_id" =
      present (strip r.holderId) := by
    simp [stringFieldOr, stringField, Json.get, leasePayload, List.lookup_cons, Json.asStr]
  have hcurrent : stringField (leasePayload r) "current_holder_id" =
      present (strip r.currentHolderId) := by
    simp [stringField, Json.get, leasePayload, List.lookup_cons, Json.asStr]
  have hlease : stringField (leasePayload r) "lease_id" = present (strip r.leaseId) := by
    simp [stringField, Json.get, leasePayload, List.lookup_cons, Json.asStr]
  have hcurrentLease : stringFieldOr (leasePayload r) "current_lease_id" "existing_lease_id" =
      present (strip r.currentLeaseId) := by
    simp [stringFieldOr, stringField, Json.get, leasePayload, List.lookup_cons, Json.asStr]
  have hactive : (((leasePayload r).get "active_lease_count").bind Json.asU64).getD 0 =
      if r.activeLeaseCount ≤ u64Max then r.activeLeaseCount else 0 := by
    have hget : (leasePayload r).get "active_lease_count" =
        some (.number (.posInt r.activeLeaseCount)) := by
      simp [Json.get, leasePayload, List.lookup_cons]
    rw [hget]
    split <;> simp [Json.asU64, Number.asU64, *]
  have hmax : max ((((leasePayload r).get "max_concurrent_leases").bind Json.asU64).getD 1) 1 =
      leaseLimit r.maxConcurrentLeases := by
    have hget : (leasePayload r).get "max_concurrent_leases" =
        some (.number (.posInt (max 1 r.maxConcurrentLeases).toNat)) := by
      simp [Json.get, leasePayload, List.lookup_cons]
    have hpos : 1 ≤ (max 1 r.maxConcurrentLeases).toNat := by omega
    rw [hget, Option.bind_some, Json.asU64, Number.asU64, leaseLimit]
    split
    · exact max_eq_left hpos
    · rfl
  have hstale : (boolish (leasePayload r) "stale" || boolish (leasePayload r) "expired") =
      r.stale := by
    simp [boolish, Json.get, leasePayload, List.lookup_cons]
  have hforce : boolish (leasePayload r) "force" = r.force := by
    simp [boolish, Json.get, leasePayload, List.lookup_cons]
  unfold Lease.machineLeaseDecisionCommand
  rw [hop]
  cases h : Lease.normalizeOperation ((present r.operation).getD "") with
  | none => rfl
  | some op =>
    simp only [hholder, hcurrent, hlease, hcurrentLease, hactive, hmax, hstale, hforce]
    cases op <;> rfl

theorem lease_allowed {r : LeaseRequest} (h : enforceMachineLeaseDecision r = .ok ()) :
    ∃ next reason, leaseVerdict (Lease.machineLeaseDecisionCommand (leasePayload r)) =
      .allowed next reason := by
  unfold enforceMachineLeaseDecision at h
  split at h
  · rename_i next reason hv
    exact ⟨next, reason, hv⟩
  · split at h <;> cases h
  · split at h <;> cases h

theorem lease_ok {r : LeaseRequest} {next reason : String}
    (hv : leaseVerdict (Lease.machineLeaseDecisionCommand (leasePayload r)) = .allowed next reason)
    (hnext : expectedLeaseAction r.operation = some next) :
    enforceMachineLeaseDecision r = .ok () := by
  unfold enforceMachineLeaseDecision
  simp only [hv, hnext, if_true]

theorem acquire_allowed {holderId currentHolderId leaseId currentLeaseId : Option String}
    {active limit ttl : Nat} {next reason : String}
    (h : leaseVerdict (Lease.acquireDecision holderId currentHolderId leaseId currentLeaseId active
      limit false false ttl) = .allowed next reason) :
    holderId ≠ none ∧ (currentHolderId = none → active < limit) := by
  cases holderId with
  | none => cases h
  | some holder =>
    refine ⟨nofun, ?_⟩
    rintro rfl
    by_contra hlt
    rw [not_lt] at hlt
    simp [Lease.acquireDecision, hlt, Lease.leaseResponse, leaseVerdict, verdict] at h

/-- A lease is given only below the limit, and only to a holder with a name. -/
theorem acquire_ok {holder : String} {active : Nat} {limit ttl : Int} (hactive : active ≤ u64Max)
    (h : enforceMachineLeaseDecision (acquireRequest holder active limit ttl) = .ok ()) :
    strip holder ≠ "" ∧ active < leaseLimit limit := by
  obtain ⟨next, reason, hv⟩ := lease_allowed h
  have hop : Lease.normalizeOperation ((present "acquire").getD "") = some .acquire := by
    decide
  have hblank : present (strip "") = none := by decide
  have hcount : (acquireRequest holder active limit ttl).activeLeaseCount ≤ u64Max := hactive
  rw [lease_command, if_pos hcount] at hv
  simp only [acquireRequest, hop] at hv
  obtain ⟨hholder, hlt⟩ := acquire_allowed hv
  refine ⟨?_, hlt hblank⟩
  intro hstrip
  rw [present_strip, if_pos hstrip] at hholder
  exact hholder rfl

/-- The holder on record gives its lease back. -/
theorem lease_release_ok {holder lease : String} {stale allow : Bool} (hholder : strip holder ≠ "")
    (hlease : strip lease ≠ "") :
    enforceMachineLeaseDecision (releaseRequest holder holder lease lease stale allow) = .ok () := by
  have hop : Lease.normalizeOperation ((present "release").getD "") = some .release := by
    decide
  have hreply : Lease.machineLeaseDecisionCommand
      (leasePayload (releaseRequest holder holder lease lease stale allow)) =
      Lease.releaseDecision (some (strip holder)) (some (strip holder)) (some (strip lease))
        (some (strip lease)) stale false := by
    rw [lease_command]
    simp only [releaseRequest, hop, present_strip, if_neg hholder, if_neg hlease]
  have hv : leaseVerdict (Lease.machineLeaseDecisionCommand
      (leasePayload (releaseRequest holder holder lease lease stale allow))) =
      .allowed "release_machine_lease_transition"
        (if stale then "stale_lease_release_allowed" else "lease_release_allowed") := by
    rw [hreply]
    cases stale <;> simp [Lease.releaseDecision, Lease.heldDecision, Lease.leaseResponse,
      leaseVerdict, verdict, Lease.nextAction]
  exact lease_ok hv rfl

/-- The kernel reads a queue request through its fields. -/
theorem queue_command {r : QueueRequest} {op : Queue.Operation}
    (hop : Queue.normalizeOperation ((present r.operation).getD "") = some op) :
    Queue.queueTransitionDecisionCommand (queuePayload r) =
      Queue.decisionOf op (present (strip r.runId)) (present (strip r.requesterId))
        (present (strip r.leaseHolderId))
        (Queue.normalizeStatus
          ((present (strip (if r.status = "" then "unknown" else r.status))).getD "unknown"))
        ((((queuePayload r).get "attempts").bind Json.asU64).getD 0)
        (max ((((queuePayload r).get "max_attempts").bind Json.asU64).getD Queue.defaultMaxAttempts)
          1)
        r.stale r.force none := by
  have hoperation : (stringFieldOr (queuePayload r) "operation" "action").getD "" =
      (present r.operation).getD "" := by
    simp [stringFieldOr, stringField, Json.get, queuePayload, List.lookup_cons, Json.asStr]
  have hid : (stringFieldOr (queuePayload r) "item_id" "run_id").or
      (stringField (queuePayload r) "queue_id") = present (strip r.runId) := by
    simp [stringFieldOr, stringField, Json.get, queuePayload, List.lookup_cons, Json.asStr]
  have hrequester : (stringFieldOr (queuePayload r) "requester_id" "worker_id").or
      (stringField (queuePayload r) "holder_id") = present (strip r.requesterId) := by
    simp [stringFieldOr, stringField, Json.get, queuePayload, List.lookup_cons, Json.asStr]
  have hholder : stringFieldOr (queuePayload r) "lease_holder_id" "current_holder_id" =
      present (strip r.leaseHolderId) := by
    simp [stringFieldOr, stringField, Json.get, queuePayload, List.lookup_cons, Json.asStr]
  have hstatus : stringFieldOr (queuePayload r) "status" "current_status" =
      present (strip (if r.status = "" then "unknown" else r.status)) := by
    simp [stringFieldOr, stringField, Json.get, queuePayload, List.lookup_cons, Json.asStr]
  have hstale : (boolish (queuePayload r) "stale" || boolish (queuePayload r) "lease_stale") =
      r.stale := by
    simp [boolish, Json.get, queuePayload, List.lookup_cons]
  have hforce : boolish (queuePayload r) "force" = r.force := by
    simp [boolish, Json.get, queuePayload, List.lookup_cons]
  have hreason : stringField (queuePayload r) "reason" = none := by
    simp [stringField, Json.get, queuePayload, List.lookup_cons]
  unfold Queue.queueTransitionDecisionCommand
  rw [hoperation, hop, hid, hrequester, hholder, hstatus, hstale, hforce, hreason]

theorem queue_allowed {r : QueueRequest} {reason : String}
    (h : enforceQueueTransitionDecision r = .ok reason) : ∃ next,
      queueVerdict (Queue.queueTransitionDecisionCommand (queuePayload r)) = .allowed next reason := by
  unfold enforceQueueTransitionDecision at h
  split at h
  · rename_i next reason' hv
    split at h
    · split at h
      · cases h
        exact ⟨next, hv⟩
      · cases h
    · cases h
      exact ⟨next, hv⟩
  · cases h
  · cases h

/-- Only an `allow` gets through. -/
theorem move_of_allowed {reply : Queue.Reply} {next reason : String}
    (h : queueVerdict reply = .allowed next reason) : ∃ m, reply.move = some m := by
  cases reply with
  | block reason => cases h
  | response r =>
    rw [queueVerdict] at h
    cases hd : r.decision with
    | allow => exact ⟨_, by rw [Queue.Reply.move, if_pos hd]⟩
    | block => rw [hd] at h; cases h
    | requireApproval => rw [hd] at h; cases h

theorem status_claimed :
    Queue.normalizeStatus ((present (strip "claimed")).getD "unknown") = .claimed := by
  with_unfolding_all decide

theorem release_command (runId requester holder : String) (stale : Bool) :
    Queue.queueTransitionDecisionCommand (queuePayload (queueRelease runId requester holder stale)) =
      Queue.releaseDecision (present (strip runId)) (present (strip requester))
        (present (strip holder)) .claimed stale := by
  have hop : Queue.normalizeOperation
      ((present (queueRelease runId requester holder stale).operation).getD "") = some .release := by
    have h : Queue.normalizeOperation ((present "release").getD "") = some .release := by
      with_unfolding_all decide
    exact h
  rw [queue_command hop, Queue.decisionOf, ← status_claimed]
  rfl

/-- The holder on record gives its run back. -/
theorem queue_release_ok {runId holder : String} {stale : Bool} (hrun : strip runId ≠ "") :
    ∃ reason, enforceQueueTransitionDecision (queueRelease runId holder holder stale) = .ok reason := by
  have hown : Queue.notOwned (present (strip holder)) (present (strip holder)) = false := by
    cases present (strip holder) <;> simp [Queue.notOwned]
  refine ⟨if stale then "stale_queue_release_allowed" else "queue_release_allowed", ?_⟩
  unfold enforceQueueTransitionDecision
  rw [release_command, present_strip runId, if_neg hrun]
  cases stale <;> simp [Queue.releaseDecision, Queue.Status.isActive, hown, Queue.queueResponse,
    queueVerdict, verdict, Queue.nextAction, queueRelease, expectedQueueAction]

/-- Nobody else does. -/
theorem queue_release_owner {runId requester holder reason : String}
    (h : enforceQueueTransitionDecision (queueRelease runId requester holder false) = .ok reason)
    (hrequester : strip requester ≠ "") (hholder : strip holder ≠ "") :
    strip requester = strip holder := by
  obtain ⟨next, hv⟩ := queue_allowed h
  obtain ⟨m, hm⟩ := move_of_allowed hv
  rw [release_command, Queue.release_move] at hm
  obtain ⟨-, -, hown, -⟩ := hm
  rw [present_strip requester, if_neg hrequester, present_strip holder, if_neg hholder] at hown
  by_contra hne
  simp [Queue.notOwned, hne] at hown

/-! ### The gate of the local workers -/

/-- The decision of the kernel on a call of a worker, in the order of its checks. -/
theorem worker_command (r : WorkerRequest) :
    LocalWorker.localWorkerDecisionCommand r.operation (workerPayload r) =
      if (present r.workerId).isNone then .block "worker_id_missing"
      else if (present r.runId).isNone then .block "run_id_missing"
      else if !LocalWorker.runIsActive (LocalWorker.token ((present r.runStatus).getD "")) then
        .block (match r.operation with
          | .runHeartbeat => "local_run_heartbeat_state_invalid"
          | .completeRun => "local_run_complete_state_invalid")
      else if r.claimMissing then .block "local_run_claim_missing"
      else if LocalWorker.workerMismatch (present r.workerId) (present r.currentWorkerId) then
        .block "local_run_not_owned_by_worker"
      else match r.operation with
        | .runHeartbeat => .allow ⟨"local_run_heartbeat_allowed", .runHeartbeat,
            "record_run_heartbeat", present r.workspaceId, present r.workerId, present r.runId,
            "worker", false, "standard"⟩
        | .completeRun => .allow ⟨"local_run_complete_allowed", .completeRun, "complete_local_run",
            present r.workspaceId, present r.workerId, present r.runId, "worker", false,
            "security"⟩ := by
  have hworker : stringFieldOr (workerPayload r) "worker_id" "runtime_id" = present r.workerId := by
    simp [stringFieldOr, stringField, Json.get, workerPayload, List.lookup_cons, Json.asStr]
  have hcurrent : (stringFieldOr (workerPayload r) "current_worker_id" "lease_holder_id").or
      (stringField (workerPayload r) "claimed_worker_id") = present r.currentWorkerId := by
    simp [stringFieldOr, stringField, Json.get, workerPayload, List.lookup_cons, Json.asStr]
  have hrun : stringField (workerPayload r) "run_id" = present r.runId := by
    simp [stringField, Json.get, workerPayload, List.lookup_cons, Json.asStr]
  have hworkspace : stringField (workerPayload r) "workspace_id" = present r.workspaceId := by
    simp [stringField, Json.get, workerPayload, List.lookup_cons, Json.asStr]
  have hstatus : stringFieldOr (workerPayload r) "run_status" "status" = present r.runStatus := by
    simp [stringFieldOr, stringField, Json.get, workerPayload, List.lookup_cons, Json.asStr]
  have hrole : LocalWorker.normalizeActorRole (((stringFieldOr (workerPayload r) "actor_role"
      "user_role").or (stringField (workerPayload r) "role")).getD "worker") = "worker" := by
    have h : (stringFieldOr (workerPayload r) "actor_role" "user_role").or
        (stringField (workerPayload r) "role") = present "worker" := by
      simp [stringFieldOr, stringField, Json.get, workerPayload, List.lookup_cons, Json.asStr]
    rw [h]
    decide
  have henabled : LocalWorker.boolishOr (workerPayload r) "local_companion_enabled" true = true := by
    simp [LocalWorker.boolishOr, Json.get, workerPayload, List.lookup_cons]
  have hkill : LocalWorker.boolishOr (workerPayload r) "kill_switch_active" false = false := by
    simp [LocalWorker.boolishOr, Json.get, workerPayload, List.lookup_cons]
  have hmissing : LocalWorker.boolishOr (workerPayload r) "claim_missing" false = r.claimMissing := by
    simp [LocalWorker.boolishOr, Json.get, workerPayload, List.lookup_cons]
  have hresult : LocalWorker.boolishOr (workerPayload r) "result_required" false = false := by
    simp [LocalWorker.boolishOr, Json.get, workerPayload, List.lookup_cons]
  simp only [LocalWorker.localWorkerDecisionCommand, hworker, hcurrent, hrun, hworkspace, hstatus,
    hrole, henabled, hkill]
  cases r.operation <;>
    simp [LocalWorker.runHeartbeatDecision, LocalWorker.completeRunDecision,
      LocalWorker.ownedRunDecision, hmissing, hresult]

/-- A request that gets through is about a claimed run, and its worker is the one on record, as far as
    both have a name. -/
theorem worker_ok {r : WorkerRequest} (h : enforceLocalWorkerDecision r = .ok ()) :
    r.claimMissing = false ∧
      LocalWorker.workerMismatch (present r.workerId) (present r.currentWorkerId) = false := by
  unfold enforceLocalWorkerDecision at h
  cases hc : LocalWorker.localWorkerDecisionCommand r.operation (workerPayload r) with
  | block reason =>
    rw [hc] at h
    cases h
  | allow reply =>
    rw [worker_command] at hc
    split_ifs at hc with h1 h2 h3 h4 h5
    exact ⟨Bool.not_eq_true _ ▸ h4, Bool.not_eq_true _ ▸ h5⟩

/-- What is raised where the gate of the local workers blocks a request: no claim, another worker on
    record, or something that has to do with neither. -/
theorem worker_refused {r : WorkerRequest} {e : Error}
    (h : enforceLocalWorkerDecision r = .error e) :
    e = .http 409 "Run is not claimed by Gateway." ∨ (∃ reason, e = .denied (operationText r.operation)
      reason) ∨ LocalWorker.workerMismatch (present r.workerId) (present r.currentWorkerId) = true := by
  unfold enforceLocalWorkerDecision at h
  cases hc : LocalWorker.localWorkerDecisionCommand r.operation (workerPayload r) with
  | allow reply =>
    rw [hc] at h
    cases h
  | block reason =>
    rw [hc] at h
    rw [worker_command] at hc
    split_ifs at hc with h1 h2 h3 h4 h5
    · cases hc
      cases h
      exact .inr (.inl ⟨_, rfl⟩)
    · cases hc
      cases h
      exact .inr (.inl ⟨_, rfl⟩)
    · cases ho : r.operation <;>
      · rw [ho] at hc h
        cases hc
        cases h
        exact .inr (.inl ⟨_, rfl⟩)
    · cases hc
      cases h
      exact .inl rfl
    · exact .inr (.inr h5)
    · cases ho : r.operation <;> rw [ho] at hc <;> cases hc

/-- `_enforce_local_queue_terminal_transition` of a completion. -/
def queueComplete (runId requester holder status : String) : QueueRequest where
  operation := "complete"
  runId := runId
  requesterId := requester
  leaseHolderId := holder
  status := status

def completionNotOwned : Error :=
  .http 409 "Rust queue gate blocked complete: queue_item_not_owned_by_requester"

def releaseNotOwned : Error := .http 409 "Rust queue gate blocked release: queue_release_not_owned"

theorem complete_blocked {itemId holderId : Option String} {status : Queue.Status} {v : Verdict}
    (h : queueVerdict (Queue.completeDecision itemId holderId holderId status) = v) :
    v = .blocked "queue_item_missing" ∨ v = .blocked "queue_item_not_active" ∨
      ∃ reason, v = .allowed "complete_queue_item" reason := by
  have hown : Queue.notOwned holderId holderId = false := by
    cases holderId <;> simp [Queue.notOwned]
  subst h
  cases itemId <;> cases status <;>
    simp [Queue.completeDecision, Queue.terminalDecision, Queue.Status.isTerminal,
      Queue.Status.isActive, hown, Queue.queueResponse, queueVerdict, verdict, Queue.nextAction]

/-- The refusals of a request that is not the owner's. -/
def refusals : List Error := [notOwner, completionNotOwned, releaseNotOwned]

theorem denied_not_refusal (operation reason : String) : Error.denied operation reason ∉ refusals := by
  simp [refusals, notOwner, completionNotOwned, releaseNotOwned]

/-- A completion by the holder on record is not refused as that of another worker. -/
theorem queue_complete_owner {runId holder status : String} {e : Error}
    (h : enforceQueueTransitionDecision (queueComplete runId holder holder status) = .error e) :
    e ∉ refusals := by
  have hop : Queue.normalizeOperation
      ((present (queueComplete runId holder holder status).operation).getD "") = some .complete := by
    have h : Queue.normalizeOperation ((present "complete").getD "") = some .complete := by
      with_unfolding_all decide
    exact h
  have hv := queue_command hop
  rw [Queue.decisionOf] at hv
  unfold enforceQueueTransitionDecision at h
  rcases complete_blocked (congrArg queueVerdict hv).symm with hb | hb | ⟨reason, hb⟩ <;> rw [hb] at h
  · have hne : Error.http 409 ("Rust queue gate blocked " ++ "complete" ++ ": " ++
        "queue_item_missing") ∉ refusals := by decide
    exact Except.error.inj h ▸ hne
  · have hne : Error.http 409 ("Rust queue gate blocked " ++ "complete" ++ ": " ++
        "queue_item_not_active") ∉ refusals := by decide
    exact Except.error.inj h ▸ hne
  · cases h

end Empyralis.Server.Leases
