import Empyralis.Kernel.Queue
import Empyralis.Lib.Run

/-! A queue item under a sequence of requests: each request is sent with the item's own status, holder
    and attempts, and the item follows the reply. -/

namespace Empyralis.Kernel.Queue

/-- The item as its owner keeps it. The counters are 64 bits wide. -/
structure Item where
  id : String
  status : String
  holder : Option String
  attempts : Nat
  maxAttempts : Nat
  attempts_le : attempts ≤ u64Max
  maxAttempts_pos : 1 ≤ maxAttempts
  maxAttempts_le : maxAttempts ≤ u64Max

structure Request where
  operation : String
  requester : String
  reason : String
  stale : Bool
  force : Bool

/-- What the kernel reads as the operation, the status and the holder. -/
def Request.op (r : Request) : Option Operation :=
  normalizeOperation ((present r.operation).getD "")

def Item.currentStatus (item : Item) : Status :=
  normalizeStatus ((present item.status).getD "unknown")

def Item.holderId (item : Item) : Option String := item.holder.bind present

def input (item : Item) (r : Request) : Json :=
  .object [("operation", .string r.operation), ("item_id", .string item.id),
    ("requester_id", .string r.requester),
    ("lease_holder_id", match item.holder with | none => .null | some h => .string h),
    ("status", .string item.status), ("attempts", .number (.posInt item.attempts)),
    ("max_attempts", .number (.posInt item.maxAttempts)), ("stale", .bool r.stale),
    ("force", .bool r.force), ("reason", .string r.reason)]

/-- The item goes to the next status, with the requester of a claim as its holder, without a holder
    once it leaves the active statuses, and with one attempt more after a failure. -/
def Item.advance (item : Item) (m : Move) : Item :=
  { item with
    status := m.nextStatus.text
    holder :=
      if m.operation = .claim then m.requesterId
      else if item.currentStatus.isActive && !m.nextStatus.isActive then none
      else item.holder
    attempts := if m.operation = .fail then saturatingSucc item.attempts else item.attempts
    attempts_le := by
      split
      · exact Nat.min_le_right _ _
      · exact item.attempts_le }

/-- An item before its first attempt, with the default number of attempts. -/
def Item.fresh (id status : String) (holder : Option String) : Item where
  id := id
  status := status
  holder := holder
  attempts := 0
  maxAttempts := defaultMaxAttempts
  attempts_le := by decide
  maxAttempts_pos := by decide
  maxAttempts_le := by decide

def reply (item : Item) (r : Request) : Reply := queueTransitionDecisionCommand (input item r)

/-- The item after a request; only an `allow` moves it. -/
def next (item : Item) (r : Request) : Item := ((reply item r).move.map item.advance).getD item

def step (item : Item) (r : Request) : Option Item := some (next item r)

/-! ### What a reply says -/

/-- The kernel sees the item and the request through their fields. -/
theorem reply_eq (item : Item) (r : Request) : reply item r =
    match r.op with
    | none => .block "queue_operation_missing"
    | some op => decisionOf op (present item.id) (present r.requester) item.holderId
        item.currentStatus item.attempts item.maxAttempts r.stale r.force (present r.reason) := by
  have hop : (stringFieldOr (input item r) "operation" "action").getD "" =
      (present r.operation).getD "" := by
    simp [stringFieldOr, stringField, Json.get, input, List.lookup_cons, Json.asStr]
  have hid : (stringFieldOr (input item r) "item_id" "run_id").or
      (stringField (input item r) "queue_id") = present item.id := by
    simp [stringFieldOr, stringField, Json.get, input, List.lookup_cons, Json.asStr]
  have hrequester : (stringFieldOr (input item r) "requester_id" "worker_id").or
      (stringField (input item r) "holder_id") = present r.requester := by
    simp [stringFieldOr, stringField, Json.get, input, List.lookup_cons, Json.asStr]
  have hholder : stringFieldOr (input item r) "lease_holder_id" "current_holder_id" =
      item.holderId := by
    cases h : item.holder <;>
      simp [stringFieldOr, stringField, Json.get, input, List.lookup_cons, Json.asStr, Item.holderId, h]
  have hstatus : stringFieldOr (input item r) "status" "current_status" = present item.status := by
    simp [stringFieldOr, stringField, Json.get, input, List.lookup_cons, Json.asStr]
  have hattempts : (((input item r).get "attempts").bind Json.asU64).getD 0 = item.attempts := by
    simp [Json.get, input, List.lookup_cons, Json.asU64, Number.asU64, item.attempts_le]
  have hmax : max ((((input item r).get "max_attempts").bind Json.asU64).getD defaultMaxAttempts)
      1 = item.maxAttempts := by
    have := item.maxAttempts_pos
    simp [Json.get, input, List.lookup_cons, Json.asU64, Number.asU64, item.maxAttempts_le, this]
  have hstale : (boolish (input item r) "stale" || boolish (input item r) "lease_stale") =
      r.stale := by
    simp [boolish, Json.get, input, List.lookup_cons]
  have hforce : boolish (input item r) "force" = r.force := by
    simp [boolish, Json.get, input, List.lookup_cons]
  have hreason : stringField (input item r) "reason" = present r.reason := by
    simp [stringField, Json.get, input, List.lookup_cons, Json.asStr]
  cases h : r.op with
  | none =>
    rw [Request.op] at h
    unfold reply queueTransitionDecisionCommand
    rw [hop, h]
  | some op =>
    rw [Request.op] at h
    unfold reply queueTransitionDecisionCommand
    rw [hop, h, hid, hrequester, hholder, hstatus, hattempts, hmax, hstale, hforce, hreason, Item.currentStatus]

@[simp] theorem advance_currentStatus (item : Item) (m : Move) :
    (item.advance m).currentStatus = m.nextStatus := normalizeStatus_text m.nextStatus

theorem next_stay {item : Item} {r : Request} (h : (reply item r).move = none) :
    next item r = item := by
  simp only [next, h, Option.map_none, Option.getD_none]

theorem next_move {item : Item} {r : Request} {m : Move} (h : (reply item r).move = some m) :
    next item r = item.advance m := by
  simp only [next, h, Option.map_some, Option.getD_some]

theorem reply_of_op {item : Item} {r : Request} {op : Operation} (hop : r.op = some op) :
    reply item r = decisionOf op (present item.id) (present r.requester) item.holderId
      item.currentStatus item.attempts item.maxAttempts r.stale r.force (present r.reason) := by
  rw [reply_eq]
  simp only [hop]

/-- A reply that moves the item comes from the decider of the requested operation. -/
theorem move_decision {item : Item} {r : Request} {m : Move} (h : (reply item r).move = some m) :
    ∃ op, r.op = some op ∧ (decisionOf op (present item.id) (present r.requester) item.holderId
      item.currentStatus item.attempts item.maxAttempts r.stale r.force
      (present r.reason)).move = some m := by
  cases hop : r.op with
  | none =>
    rw [reply_eq] at h
    simp [hop] at h
  | some op => exact ⟨op, rfl, reply_of_op hop ▸ h⟩

end Empyralis.Kernel.Queue
