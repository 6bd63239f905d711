import Empyralis.Lib.Latest
import Empyralis.Server.Tokens
import Mathlib.Data.List.Sort
import Mathlib.Data.Prod.Lex
import Mathlib.Data.String.Basic

/-! The runs that a parent has delegated: how they are found, which of them are retries of one another,
    and what the parent is told of them. -/

namespace Empyralis.Server.Delegation

/-- What the functions are handed: `uuid` is `str(uuid.UUID(token))`, `parseInt` and `truncate` are what
    `int` does with a text and a float, `agentRole` is `normalize_agent_role`. -/
structure Env where
  repr : Value → String
  lowercase : Lowercase
  uuid : String → Option String
  parseInt : String → Option Int
  truncate : PyFloat → Option Int
  agentRole : Value → String

variable (env : Env)

/-- The metadata of a run that delegation reads; what is not there is null. -/
structure Metadata where
  agentRole : Value := .null
  maxIterations : Value := .null
  parentRunId : Value := .null
  retryOfRunId : Value := .null
  retryRootRunId : Value := .null
  retrySequence : Value := .null
  retryCount : Value := .null

structure Context where
  userGoal : Value := .null
  businessPlan : Value := .null
  maxIterations : Value := .null
  metadata : Metadata := {}

/-- A run. A time is the microseconds since `datetime.min` that its text reads as, if it reads as any. -/
structure Run where
  status : String
  createdAt : Option Nat
  updatedAt : Option Nat
  context : Context

structure Snapshot where
  runId : String
  status : String
  agentRole : Value
  userGoal : Value
  createdAt : Option Nat
  updatedAt : Option Nat
  parentRunId : Value
  retryOfRunId : Value
  retryRootRunId : Value
  retrySequence : Value
  retryCount : Value
  context : Option Context

/-- `_serialize_run_snapshot` -/
def serializeRunSnapshot (runId : String) (run : Run) : Snapshot where
  runId := runId
  status := run.status
  agentRole := run.context.metadata.agentRole
  userGoal := run.context.userGoal
  createdAt := run.createdAt
  updatedAt := run.updatedAt
  parentRunId := run.context.metadata.parentRunId
  retryOfRunId := run.context.metadata.retryOfRunId
  retryRootRunId := run.context.metadata.retryRootRunId
  retrySequence := run.context.metadata.retrySequence
  retryCount := run.context.metadata.retryCount
  context := some run.context

/-- `build_run_relation_summary`, which has the fields of the snapshot but not its context. -/
def buildRunRelationSummary (snapshot : Snapshot) : Snapshot := { snapshot with context := none }

/-! ### Lineages -/

/-- `_normalize_run_id_token` -/
def normalizeRunIdToken (value : Value) : Option String :=
  let token := value.token env.repr
  if token = "" then none else env.uuid token

/-- `_child_lineage_key` -/
def childLineageKey (child : Snapshot) : String :=
  (((normalizeRunIdToken env child.retryRootRunId).or (normalizeRunIdToken env child.retryOfRunId)).or
    (normalizeRunIdToken env (.string child.runId))).getD child.runId

/-- `int(value)`, nothing when it raises. -/
def toInt : Value → Option Int
  | .int value => some value
  | .bool value => some (if value then 1 else 0)
  | .float value => env.truncate value
  | .string text => env.parseInt text
  | _ => none

def safeInt (value : Value) (default : Int) : Int := (toInt env value).getD default

/-- `_child_metadata` -/
def childMetadata (child : Snapshot) : Metadata :=
  match child.context with
  | some context => context.metadata
  | none => {}

/-- `_child_retry_count` -/
def childRetryCount (child : Snapshot) : Int :=
  max (max (safeInt env (childMetadata child).retryCount 0)
    (safeInt env (childMetadata child).retrySequence 0)) (safeInt env child.retrySequence 0)

/-- `_failure_status` -/
def failureStatus (status : String) : Bool :=
  ["failed", "error", "timeout", "cancelled", "stopped"].contains (env.lowercase.token status)

/-- `child_sort_key` -/
def childSortKey (child : Snapshot) : Nat ×ₗ String :=
  toLex ((child.updatedAt.or child.createdAt).getD 0, child.runId)

/-- `latest_by_lineage` -/
def latestByLineage (children : List Snapshot) : Table String Snapshot :=
  Latest.latestBy childSortKey (childLineageKey env) children

/-! ### The children of a run -/

/-- `iter_known_run_snapshots` -/
def iterKnownRunSnapshots (runs : Table String Run) : List Snapshot :=
  runs.entries.map fun entry => serializeRunSnapshot entry.1 entry.2

/-- A known run that is a child of `target`. -/
def isChildOf (target : String) (candidate : Snapshot) : Bool :=
  Text.strip candidate.runId ≠ "" && Text.strip candidate.runId ≠ target &&
    normalizeRunIdToken env candidate.parentRunId = some target

/-- `find_run_relationships`, the children. -/
def findChildRuns (runs : Table String Run) (target : String) : List Snapshot :=
  (((iterKnownRunSnapshots runs).filter (isChildOf env target)).map
    buildRunRelationSummary).insertionSort fun a b => childSortKey b ≤ childSortKey a

/-- The known run with its summary. -/
def summaryOf (runId : String) (run : Run) : Snapshot :=
  buildRunRelationSummary (serializeRunSnapshot runId run)

theorem mem_findChildRuns {runs : Table String Run} {target : String} {child : Snapshot} :
    child ∈ findChildRuns env runs target ↔ ∃ runId run, runs.get? runId = some run ∧
      isChildOf env target (serializeRunSnapshot runId run) = true ∧ summaryOf runId run = child := by
  simp only [findChildRuns, List.mem_insertionSort, iterKnownRunSnapshots, List.mem_map,
    List.mem_filter]
  constructor
  · rintro ⟨snapshot, ⟨⟨entry, hentry, rfl⟩, hchild⟩, rfl⟩
    exact ⟨entry.1, entry.2, Table.get?_eq_some.mpr hentry, hchild, rfl⟩
  · rintro ⟨runId, run, hrun, hchild, rfl⟩
    exact ⟨_, ⟨⟨(runId, run), Table.get?_eq_some.mp hrun, rfl⟩, hchild⟩, rfl⟩

/-! ### What the parent is told -/

structure DelegationSummary where
  totalChildren : Nat
  effectiveChildren : Nat
  terminalChildren : Nat := 0
  completedChildren : Nat := 0
  failedChildren : Nat := 0
  waitingChildren : Nat := 0
  activeChildren : Nat := 0
  failedRunIds : List String := []

/-- One child in the loop of `build_delegation_summary`. -/
def countChild (terminal pendingRetries : List String) (summary : DelegationSummary)
    (child : Snapshot) : DelegationSummary :=
  let status := env.lowercase.token child.status
  let lineage := childLineageKey env child
  let retryPending := lineage ≠ "" && pendingRetries.contains lineage && failureStatus env status
  let summary :=
    if retryPending then { summary with activeChildren := summary.activeChildren + 1 }
    else if terminal.contains status then
      { summary with terminalChildren := summary.terminalChildren + 1 }
    else { summary with activeChildren := summary.activeChildren + 1 }
  if status = "completed" then { summary with completedChildren := summary.completedChildren + 1 }
  else if retryPending then summary
  else if failureStatus env status then
    { summary with
      failedChildren := summary.failedChildren + 1
      failedRunIds := summary.failedRunIds ++ (normalizeRunIdToken env (.string child.runId)).toList }
  else if ["waiting", "waiting_for_input"].contains status then
    { summary with waitingChildren := summary.waitingChildren + 1 }
  else summary

/-- `build_delegation_summary`: the latest run of each lineage counts, and nothing is said without
    children. -/
def buildDelegationSummary (terminal pendingRetries : List String) (children : List Snapshot) :
    Option DelegationSummary :=
  if children.isEmpty then none
  else
    let effective := (latestByLineage env children).entries.map Prod.snd
    some (effective.foldl (countChild env terminal pendingRetries)
      { totalChildren := children.length, effectiveChildren := effective.length })

namespace DelegationSummary

def ready (summary : DelegationSummary) : Bool :=
  summary.activeChildren = 0 && summary.waitingChildren = 0

/-- `overall_status` and `next_action` -/
def outcome (summary : DelegationSummary) : String × String :=
  if 0 < summary.activeChildren then ("active", "waiting_for_children")
  else if 0 < summary.waitingChildren then ("waiting", "resolve_child_approvals")
  else if 0 < summary.failedChildren then ("attention", "retry_failed_children")
  else ("completed", "merge_results")

def readyForMerge (summary : DelegationSummary) : Bool :=
  summary.ready && summary.failedChildren = 0 && 0 < summary.completedChildren

end DelegationSummary

theorem effectiveChildren_countChild (terminal pendingRetries : List String)
    (summary : DelegationSummary) (child : Snapshot) :
    (countChild env terminal pendingRetries summary child).effectiveChildren =
      summary.effectiveChildren := by
  simp only [countChild]
  split_ifs <;> rfl

/-- There are as many effective children as lineages. -/
theorem effectiveChildren_eq {terminal pendingRetries : List String} {children : List Snapshot}
    {summary : DelegationSummary}
    (h : buildDelegationSummary env terminal pendingRetries children = some summary) :
    summary.effectiveChildren = (latestByLineage env children).keys.length := by
  have hfold : ∀ (effective : List Snapshot) (start : DelegationSummary),
      (effective.foldl (countChild env terminal pendingRetries) start).effectiveChildren =
        start.effectiveChildren := by
    intro effective
    induction effective with
    | nil => intro start; rfl
    | cons child effective ih =>
      intro start
      rw [List.foldl_cons, ih, effectiveChildren_countChild]
  simp only [buildDelegationSummary] at h
  split at h
  · cases h
  · cases h
    rw [hfold, List.length_map, Table.keys, List.length_map]

end Empyralis.Server.Delegation
