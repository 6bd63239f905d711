import Empyralis.Kernel.Queue

/-! The decision of the kernel on a write to the store of run states, for the operations on the rows of
    a run. The repository sends every flag of the scope as granted and a payload as a truth value, which
    the kernel counts as present. -/

namespace Empyralis.Kernel.StateStore
open Queue (Decision)

/-- The operations that the server asks about. -/
inductive Operation where
  | upsertLiveRun | deleteLiveRun | archiveRun
  | createOrUpdateApprovalRequest | resolveApprovalIfPending | recordApprovalResolution
  deriving DecidableEq

/-- What is sent of a write. -/
structure Request where
  operation : Operation
  runId : String
  status : String
  previousStatus : String := ""
  payloadBytes : Nat
  expectedVersion : Option Int := none
  currentVersion : Option Int := none
  force : Bool := false

def defaultPayloadBytes : Nat := 1048576
def hardPayloadBytes : Nat := 16 * 1024 * 1024

def terminalRunStatuses : List String :=
  ["succeeded", "completed", "timeout", "stopped", "failed", "cancelled", "canceled", "terminated",
    "expired", "archived", "waiting_for_input"]

/-- `safe_delete_status` -/
def safeDeleteStatus (status : String) : Bool :=
  ["closed", "expired", "failed", "terminated", "archived", "completed", "timeout", "cancelled",
    "canceled", "stopped"].contains status

/-- `normalize` -/
def normalize (value : String) : String :=
  String.ofList (((Text.trim Text.rustSpace value).toList.map Char.toLower).map fun c =>
    if c = '-' ∨ c = ' ' then '_' else c)

/-- `normalize_or` -/
def normalizeOr (value fallback : String) : String :=
  if normalize value = "" then fallback else normalize value

/-- Two versions are given, and they differ. -/
def versionConflict : Option Int → Option Int → Bool
  | some expected, some current => expected ≠ current
  | _, _ => false

def reasonIf (holds : Bool) (reason : String) : List String := if holds then [reason] else []

/-- Why the write is refused, in the order of the alphabet. -/
def blocks (r : Request) : List String :=
  let status := normalizeOr r.status "unknown"
  let previous := normalizeOr r.previousStatus "unknown"
  reasonIf (present r.runId).isNone "run_id_missing" ++
  reasonIf (r.operation = .upsertLiveRun && versionConflict r.expectedVersion r.currentVersion)
    "run_state_version_conflict" ++
  reasonIf (hardPayloadBytes < r.payloadBytes) "state_payload_exceeds_hard_limit" ++
  reasonIf (r.operation = .upsertLiveRun && terminalRunStatuses.contains previous &&
    previous ≠ status && !r.force) "terminal_live_run_transition_blocked"

/-- Why the write needs an approval, in the order of the alphabet. -/
def approvals (r : Request) : List String :=
  let status := normalizeOr r.status "unknown"
  reasonIf (r.operation = .archiveRun && !terminalRunStatuses.contains status)
    "archive_non_terminal_run_requires_review" ++
  reasonIf (r.operation = .deleteLiveRun && !safeDeleteStatus status)
    "destructive_state_operation_requires_approval" ++
  reasonIf (defaultPayloadBytes < r.payloadBytes) "state_payload_exceeds_default_limit"

/-- A block goes before an approval. -/
def decision (r : Request) : Decision :=
  if blocks r ≠ [] then .block else if approvals r ≠ [] then .requireApproval else .allow

/-- The text of the decision. -/
def reason (r : Request) : String :=
  match decision r with
  | .block => "; ".intercalate (blocks r)
  | .requireApproval => "; ".intercalate (approvals r)
  | .allow => "runtime_state_store_policy_satisfied"

theorem reasonIf_eq_nil {holds : Bool} {text : String} : reasonIf holds text = [] ↔ holds = false := by
  cases holds <;> simp [reasonIf]

theorem decision_allow {r : Request} : decision r = .allow ↔ blocks r = [] ∧ approvals r = [] := by
  unfold decision
  split
  · rename_i h
    simp [h]
  · rename_i h
    rw [ne_eq, not_not] at h
    split <;> simp_all

/-- A snapshot that names its run, repeats the version it expects and is within the limit passes. -/
theorem upsert_allowed {r : Request} (hop : r.operation = .upsertLiveRun) (hprevious : r.previousStatus = "")
    (hversion : versionConflict r.expectedVersion r.currentVersion = false)
    (hrun : (present r.runId).isSome) (hbytes : r.payloadBytes ≤ defaultPayloadBytes) :
    decision r = .allow := by
  have hlimits : r.payloadBytes ≤ hardPayloadBytes := hbytes.trans (by decide)
  have hunknown : normalizeOr "" "unknown" ∉ terminalRunStatuses := by decide
  rw [decision_allow]
  constructor
  · simp [blocks, reasonIf_eq_nil, hprevious, hversion, hunknown, hlimits, Option.isNone_eq_false_iff, hrun]
  · simp [approvals, reasonIf_eq_nil, hop, hbytes]

end Empyralis.Kernel.StateStore
