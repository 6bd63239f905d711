import Empyralis.Kernel.Protocol

/-! The decision of the kernel on one transition of a queue item. The caller owns the item: it sends
    the item's status, holder and attempts with the request, and the reply says whether the
    transition is allowed and which status follows. -/

namespace Empyralis.Kernel.Queue

def defaultMaxAttempts : Nat := 3
def defaultRetryDelaySeconds : Nat := 30
def maxRetryDelaySeconds : Nat := 960

/-- The operations on an item. -/
inductive Operation where
  | enqueue | claim | complete | fail | retry | cancel | release | deadLetter
  deriving DecidableEq

/-- The statuses that the kernel tells apart. -/
inductive Status where
  | queued | claimed | running | retryScheduled | completed | failed | cancelled | unknown
  deriving DecidableEq

/-- The status as it is answered. -/
def Status.text : Status → String
  | .queued => "queued"
  | .claimed => "claimed"
  | .running => "running"
  | .retryScheduled => "retry_scheduled"
  | .completed => "completed"
  | .failed => "failed"
  | .cancelled => "cancelled"
  | .unknown => "unknown"

/-- `matches!(status, "running" | "claimed")` -/
def Status.isActive : Status → Bool
  | .running | .claimed => true
  | _ => false

/-- `matches!(status, "completed" | "failed" | "cancelled")` -/
def Status.isTerminal : Status → Bool
  | .completed | .failed | .cancelled => true
  | _ => false

/-- `normalize_operation`; `none` stands for the empty string. -/
def normalizeOperation (value : String) : Option Operation :=
  match normalizeToken value with
  | "enqueue" | "queue" | "create" => some .enqueue
  | "claim" | "lease" | "start" => some .claim
  | "complete" | "succeed" | "success" => some .complete
  | "fail" | "failure" => some .fail
  | "retry" | "requeue" => some .retry
  | "cancel" | "abort" => some .cancel
  | "release" | "unlock" => some .release
  | "dead_letter" | "deadletter" | "poison" => some .deadLetter
  | _ => none

/-- The status that a text stands for. -/
def normalizeStatus (value : String) : Status :=
  match normalizeToken value with
  | "queued" | "queued_local" | "pending" | "waiting" | "waiting_for_input" | "starting" => .queued
  | "claimed" | "leased" | "running_local" => .claimed
  | "running" | "active" => .running
  | "retry_scheduled" | "retry" | "backoff" => .retryScheduled
  | "completed" | "succeeded" | "success" | "done" => .completed
  | "failed" | "error" => .failed
  | "cancelled" | "canceled" => .cancelled
  | _ => .unknown

/-- What an operation is answered with. -/
inductive Decision where
  | allow | block | requireApproval
  deriving DecidableEq

/-- The object that `queue_response` builds. -/
structure Response where
  ok : Bool
  decision : Decision
  reason : String
  operation : Operation
  nextAction : String
  itemId : Option String
  requesterId : Option String
  leaseHolderId : Option String
  currentStatus : Status
  nextStatus : Status
  retryable : Bool
  retryDelaySeconds : Nat
  terminal : Bool
  approvalRequired : Bool
  cacheable : Bool
  auditVisibility : String
  deriving DecidableEq

/-- A reply is such an object or the short one of `protocol::block`. -/
inductive Reply where
  | block (reason : String)
  | response (r : Response)
  deriving DecidableEq

/-- The action that is asked of the caller. -/
def nextAction (operation : Operation) (nextStatus : Status) (retryable : Bool) : String :=
  match operation with
  | .enqueue => "enqueue_queue_item"
  | .claim => "claim_queue_item"
  | .complete => "complete_queue_item"
  | .fail =>
    if retryable || nextStatus = .retryScheduled then "schedule_queue_retry" else "fail_queue_item"
  | .retry => "retry_queue_item"
  | .cancel => "cancel_queue_item"
  | .release => "release_queue_item"
  | .deadLetter => "dead_letter_queue_item"

/-- `retry_delay_seconds`; nothing saturates, as the exponent is at most five. -/
def retryDelaySeconds (attempts : Nat) : Nat :=
  min (defaultRetryDelaySeconds * Nat.pow 2 (min attempts 5)) maxRetryDelaySeconds

/-- `saturating_add(1)` -/
def saturatingSucc (n : Nat) : Nat := min (n + 1) u64Max

/-- A reply with all of its fields. -/
def queueResponse (decision : Decision) (reason : String) (operation : Operation)
    (itemId requesterId leaseHolderId : Option String) (currentStatus nextStatus : Status)
    (retryable : Bool) (retryDelaySeconds : Nat) (terminal : Bool) : Reply :=
  .response {
    ok := decision ≠ .block
    decision, reason, operation
    nextAction := nextAction operation nextStatus retryable
    itemId, requesterId, leaseHolderId, currentStatus, nextStatus, retryable, retryDelaySeconds
    terminal
    approvalRequired := decision = .requireApproval
    cacheable := false
    auditVisibility := if decision = .allow && !terminal then "standard" else "security" }

/-! ### The deciders -/

/-- What runs or is over is not queued. -/
def enqueueDecision (itemId : Option String) (status : Status) : Reply :=
  match itemId with
  | none => .block "queue_item_missing"
  | some itemId =>
    match status with
    | .running | .completed | .failed | .cancelled =>
      queueResponse .block "queue_item_not_enqueueable" .enqueue (some itemId) none none status
        status false 0 false
    | _ =>
      queueResponse .allow "queue_enqueue_allowed" .enqueue (some itemId) none none status
        .queued false 0 false

/-- What another requester holds is claimed by force, or once it is stale. -/
def claimDecision (itemId requesterId leaseHolderId : Option String) (status : Status)
    (stale force : Bool) : Reply :=
  match itemId with
  | none => .block "queue_item_missing"
  | some itemId =>
  match requesterId with
  | none => .block "queue_requester_missing"
  | some requesterId =>
    if status.isActive && leaseHolderId ≠ some requesterId && !stale && !force then
      queueResponse .block "queue_item_already_claimed" .claim (some itemId) (some requesterId)
        leaseHolderId status status false 0 false
    else if status.isTerminal then
      queueResponse .block "queue_terminal_item_not_claimable" .claim (some itemId)
        (some requesterId) leaseHolderId status status false 0 false
    else
      queueResponse (if force && leaseHolderId.isSome then .requireApproval else .allow)
        (if stale then "stale_queue_claim_allowed"
          else if force && leaseHolderId.isSome then "forced_queue_claim_requires_approval"
          else "queue_claim_allowed")
        .claim (some itemId) (some requesterId) leaseHolderId status .running false 0 false

/-- Both are known and differ. -/
def notOwned (requesterId leaseHolderId : Option String) : Bool :=
  match requesterId, leaseHolderId with
  | some requester, some holder => requester ≠ holder
  | _, _ => false

/-- The part that the operations which end an item share. -/
def terminalDecision (operation : Operation) (nextStatus : Status) (reason : String)
    (itemId requesterId leaseHolderId : Option String) (status : Status) (force : Bool) : Reply :=
  match itemId with
  | none => .block "queue_item_missing"
  | some itemId =>
    if !status.isActive then
      queueResponse .block "queue_item_not_active" operation (some itemId) requesterId
        leaseHolderId status status false 0 false
    else if notOwned requesterId leaseHolderId && !force then
      queueResponse .block "queue_item_not_owned_by_requester" operation (some itemId) requesterId
        leaseHolderId status status false 0 false
    else
      queueResponse .allow reason operation (some itemId) requesterId leaseHolderId status
        nextStatus false 0 true

/-- An item that has ended is not completed again, but the request is allowed. -/
def completeDecision (itemId requesterId leaseHolderId : Option String) (status : Status) :
    Reply :=
  if status.isTerminal then
    queueResponse .allow "queue_item_already_terminal" .complete itemId requesterId leaseHolderId
      status status false 0 true
  else
    terminalDecision .complete .completed "queue_complete_allowed" itemId requesterId
      leaseHolderId status false

/-- A failure is a retry while there are attempts left. -/
def failDecision (itemId requesterId leaseHolderId : Option String) (status : Status)
    (attempts maxAttempts : Nat) : Reply :=
  match itemId with
  | none => .block "queue_item_missing"
  | some itemId =>
    if status.isTerminal then
      queueResponse .allow "queue_item_already_terminal" .fail (some itemId) requesterId
        leaseHolderId status status false 0 true
    else if !status.isActive then
      queueResponse .block "queue_item_not_active" .fail (some itemId) requesterId leaseHolderId
        status status false 0 false
    else if saturatingSucc attempts < maxAttempts then
      queueResponse .allow "queue_failure_retry_scheduled" .fail (some itemId) requesterId
        leaseHolderId status .retryScheduled true (retryDelaySeconds (saturatingSucc attempts))
        false
    else
      queueResponse .allow "queue_failure_terminal" .fail (some itemId) requesterId leaseHolderId
        status .failed false 0 true

/-- An item is retried while it has an attempt left. -/
def retryDecision (itemId : Option String) (status : Status) (attempts maxAttempts : Nat) : Reply :=
  match itemId with
  | none => .block "queue_item_missing"
  | some itemId =>
    if maxAttempts ≤ attempts then
      queueResponse .block "queue_retry_attempts_exhausted" .retry (some itemId) none none status
        status false 0 false
    else
      match status with
      | .retryScheduled | .failed | .queued =>
        queueResponse .allow "queue_retry_allowed" .retry (some itemId) none none status .queued
          false 0 false
      | _ =>
        queueResponse .block "queue_item_not_retryable" .retry (some itemId) none none status
          status false 0 false

/-- A forced cancellation says so. -/
def cancelReason (force : Bool) : String :=
  if force then "queue_forced_cancel_allowed" else "queue_cancel_allowed"

/-- A queued item is cancelled by anyone. -/
def cancelDecision (itemId requesterId leaseHolderId : Option String) (status : Status)
    (force : Bool) : Reply :=
  if status = .queued then
    match itemId with
    | none => .block "queue_item_missing"
    | some itemId =>
      queueResponse .allow (cancelReason force) .cancel (some itemId) requesterId leaseHolderId
        status .cancelled false 0 true
  else if status.isTerminal then
    queueResponse .allow "queue_item_already_terminal" .cancel itemId requesterId leaseHolderId
      status status false 0 true
  else
    terminalDecision .cancel .cancelled (cancelReason force) itemId requesterId leaseHolderId
      status force

/-- Only an active item is released. -/
def releaseDecision (itemId requesterId leaseHolderId : Option String) (status : Status)
    (stale : Bool) : Reply :=
  match itemId with
  | none => .block "queue_item_missing"
  | some itemId =>
    if !status.isActive then
      queueResponse .block "queue_item_not_releasable" .release (some itemId) requesterId
        leaseHolderId status status false 0 false
    else if notOwned requesterId leaseHolderId && !stale then
      queueResponse .block "queue_release_not_owned" .release (some itemId) requesterId
        leaseHolderId status status false 0 false
    else
      queueResponse .allow
        (if stale then "stale_queue_release_allowed" else "queue_release_allowed") .release
        (some itemId) requesterId leaseHolderId status .queued false 0 false

/-- A dead letter needs a reason, and is not made of what is completed or cancelled. -/
def deadLetterDecision (itemId : Option String) (status : Status) (reasonText : Option String) :
    Reply :=
  match itemId with
  | none => .block "queue_item_missing"
  | some itemId =>
    if (reasonText.bind present).isNone then
      queueResponse .block "queue_dead_letter_reason_missing" .deadLetter (some itemId) none none
        status status false 0 false
    else
      match status with
      | .completed | .cancelled =>
        queueResponse .block "queue_dead_letter_invalid_status" .deadLetter (some itemId) none none
          status status false 0 false
      | _ =>
        queueResponse .allow "queue_dead_letter_allowed" .deadLetter (some itemId) none none status
          .failed false 0 true

/-- The decider of each operation. -/
def decisionOf (operation : Operation) (itemId requesterId leaseHolderId : Option String)
    (status : Status) (attempts maxAttempts : Nat) (stale force : Bool)
    (reasonText : Option String) : Reply :=
  match operation with
  | .enqueue => enqueueDecision itemId status
  | .claim => claimDecision itemId requesterId leaseHolderId status stale force
  | .complete => completeDecision itemId requesterId leaseHolderId status
  | .fail => failDecision itemId requesterId leaseHolderId status attempts maxAttempts
  | .retry => retryDecision itemId status attempts maxAttempts
  | .cancel => cancelDecision itemId requesterId leaseHolderId status force
  | .release => releaseDecision itemId requesterId leaseHolderId status stale
  | .deadLetter => deadLetterDecision itemId status reasonText

/-- `queue_transition_decision_command`. Its last branch, `unknown_queue_operation`, is never
    reached: `normalize_operation` returns the eight operations or the empty string. -/
def queueTransitionDecisionCommand (input : Json) : Reply :=
  match normalizeOperation ((stringFieldOr input "operation" "action").getD "") with
  | none => .block "queue_operation_missing"
  | some operation =>
    decisionOf operation
      ((stringFieldOr input "item_id" "run_id").or (stringField input "queue_id"))
      ((stringFieldOr input "requester_id" "worker_id").or (stringField input "holder_id"))
      (stringFieldOr input "lease_holder_id" "current_holder_id")
      (normalizeStatus ((stringFieldOr input "status" "current_status").getD "unknown"))
      (((input.get "attempts").bind Json.asU64).getD 0)
      (max (((input.get "max_attempts").bind Json.asU64).getD defaultMaxAttempts) 1)
      (boolish input "stale" || boolish input "lease_stale")
      (boolish input "force")
      (stringField input "reason")

example : normalizeStatus " Running-local " = .claimed := by decide

theorem normalizeStatus_text (s : Status) :
    normalizeStatus ((present s.text).getD "unknown") = s := by
  cases s <;> decide

-- The tables of tokens are not to be unfolded when statuses and operations are compared.
attribute [irreducible] normalizeOperation normalizeStatus

/-! ### When a decider allows, and what -/

/-- What an `allow` tells the item. -/
structure Move where
  operation : Operation
  requesterId : Option String
  nextStatus : Status
  terminal : Bool
  deriving DecidableEq

/-- The move that a reply allows. -/
def Reply.move : Reply → Option Move
  | .block _ => none
  | .response res =>
    if res.decision = .allow then
      some ⟨res.operation, res.requesterId, res.nextStatus, res.terminal⟩
    else none

section Moves

variable {itemId requesterId leaseHolderId reasonText : Option String} {status : Status}
  {attempts maxAttempts : Nat} {stale force : Bool} {m : Move}

@[simp] theorem queueResponse_move (decision : Decision) (reason : String) (operation : Operation)
    (itemId requesterId leaseHolderId : Option String) (currentStatus nextStatus : Status)
    (retryable : Bool) (delay : Nat) (terminal : Bool) :
    (queueResponse decision reason operation itemId requesterId leaseHolderId currentStatus
      nextStatus retryable delay terminal).move =
      if decision = .allow then some ⟨operation, requesterId, nextStatus, terminal⟩ else none :=
  rfl

@[simp] theorem block_move (reason : String) : (Reply.block reason).move = none := rfl

@[simp] theorem ite_move (c : Prop) [Decidable c] (a b : Reply) :
    (if c then a else b).move = if c then a.move else b.move := apply_ite _ _ _ _

theorem enqueue_move : (enqueueDecision itemId status).move = some m ↔
    itemId.isSome ∧ status ∉ [.running, .completed, .failed, .cancelled] ∧
      ⟨.enqueue, none, .queued, false⟩ = m := by
  cases itemId <;> cases status <;> simp [enqueueDecision]

theorem claim_move :
    (claimDecision itemId requesterId leaseHolderId status stale force).move = some m ↔
    itemId.isSome ∧ requesterId.isSome ∧
      (status.isActive → leaseHolderId = requesterId ∨ stale ∨ force) ∧ status.isTerminal = false ∧
      ¬(force ∧ leaseHolderId.isSome) ∧ ⟨.claim, requesterId, .running, false⟩ = m := by
  cases itemId <;> cases requesterId <;> cases stale <;> cases force <;> cases status <;>
    simp [claimDecision, Status.isActive, Status.isTerminal]

theorem terminal_move {operation : Operation} {nextStatus : Status} {reason : String} :
    (terminalDecision operation nextStatus reason itemId requesterId leaseHolderId status
      force).move = some m ↔
    itemId.isSome ∧ status.isActive ∧ (notOwned requesterId leaseHolderId → force) ∧
      ⟨operation, requesterId, nextStatus, true⟩ = m := by
  cases itemId <;> cases hs : status.isActive <;> cases force <;> simp [terminalDecision, hs]

theorem complete_move : (completeDecision itemId requesterId leaseHolderId status).move = some m ↔
    (status.isTerminal ∧ ⟨.complete, requesterId, status, true⟩ = m) ∨
      (itemId.isSome ∧ status.isActive ∧ notOwned requesterId leaseHolderId = false ∧
        ⟨.complete, requesterId, .completed, true⟩ = m) := by
  cases status <;> simp [completeDecision, terminal_move, Status.isActive, Status.isTerminal]

theorem fail_move :
    (failDecision itemId requesterId leaseHolderId status attempts maxAttempts).move = some m ↔
    itemId.isSome ∧ ((status.isTerminal ∧ ⟨.fail, requesterId, status, true⟩ = m) ∨
      (status.isActive ∧ saturatingSucc attempts < maxAttempts ∧
        ⟨.fail, requesterId, .retryScheduled, false⟩ = m) ∨
      (status.isActive ∧ ¬ saturatingSucc attempts < maxAttempts ∧
        ⟨.fail, requesterId, .failed, true⟩ = m)) := by
  by_cases hlt : saturatingSucc attempts < maxAttempts <;> cases itemId <;> cases status <;>
    simp [failDecision, Status.isActive, Status.isTerminal, hlt]

theorem retry_move : (retryDecision itemId status attempts maxAttempts).move = some m ↔
    itemId.isSome ∧ attempts < maxAttempts ∧ status ∈ [.retryScheduled, .failed, .queued] ∧
      ⟨.retry, none, .queued, false⟩ = m := by
  cases itemId <;> cases status <;> simp [retryDecision]

theorem cancel_move :
    (cancelDecision itemId requesterId leaseHolderId status force).move = some m ↔
    (itemId.isSome ∧ status = .queued ∧ ⟨.cancel, requesterId, .cancelled, true⟩ = m) ∨
      (status.isTerminal ∧ ⟨.cancel, requesterId, status, true⟩ = m) ∨
      (itemId.isSome ∧ status.isActive ∧ (notOwned requesterId leaseHolderId → force) ∧
        ⟨.cancel, requesterId, .cancelled, true⟩ = m) := by
  cases itemId <;> cases status <;>
    simp [cancelDecision, terminal_move, Status.isActive, Status.isTerminal]

theorem release_move :
    (releaseDecision itemId requesterId leaseHolderId status stale).move = some m ↔
    itemId.isSome ∧ status.isActive ∧ (notOwned requesterId leaseHolderId → stale) ∧
      ⟨.release, requesterId, .queued, false⟩ = m := by
  cases itemId <;> cases hs : status.isActive <;> cases stale <;> simp [releaseDecision, hs]

theorem deadLetter_move : (deadLetterDecision itemId status reasonText).move = some m ↔
    itemId.isSome ∧ (reasonText.bind present).isSome ∧ status ∉ [.completed, .cancelled] ∧
      ⟨.deadLetter, none, .failed, true⟩ = m := by
  cases itemId <;> cases h : reasonText.bind present <;> cases status <;>
    simp [deadLetterDecision, h]

end Moves

end Empyralis.Kernel.Queue
