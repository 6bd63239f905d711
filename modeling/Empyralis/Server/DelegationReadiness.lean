import Empyralis.Server.ChildRuns
import Empyralis.Server.RunTransitions

/-! What `build_delegation_summary` says of the children of a run: when they are ready, when they can be merged,
    and that the order in which they are listed does not matter. -/

namespace Empyralis.Server.Delegation
open RunTransitions (terminalRunStatuses)

variable (env : Env)

/-! ### One child -/

/-- The status as it is compared. -/
def Snapshot.token (child : Snapshot) : String := env.lowercase.token child.status

/-- A run that failed and whose lineage has a retry to come. -/
def retryPending (pendingRetries : List String) (child : Snapshot) : Bool :=
  childLineageKey env child ≠ "" && pendingRetries.contains (childLineageKey env child) &&
    failureStatus env (child.token env)

def waiting (child : Snapshot) : Bool := ["waiting", "waiting_for_input"].contains (child.token env)

/-- A status that ends a run, or has it wait for a person. -/
def ended (child : Snapshot) : Bool := terminalRunStatuses.contains (child.token env)

/-- What counts as active: a retry to come, or a status that does not end a run. -/
def active (pendingRetries : List String) (child : Snapshot) : Bool :=
  retryPending env pendingRetries child || !ended env child

def completed (child : Snapshot) : Bool := child.token env = "completed"

/-- What counts as failed: a failure that is not retried. -/
def failed (pendingRetries : List String) (child : Snapshot) : Bool :=
  failureStatus env (child.token env) && !retryPending env pendingRetries child

theorem completed_iff (child : Snapshot) :
    completed env child = true ↔ env.lowercase.token child.status = "completed" := by
  rw [completed, decide_eq_true_eq, Snapshot.token]

theorem failureStatus_token (child : Snapshot) :
    failureStatus env (child.token env) =
      ["failed", "error", "timeout", "cancelled", "stopped"].contains (child.token env) := by
  rw [failureStatus, Snapshot.token, Lowercase.token_token]

/-- The counters of a summary. -/
structure Counters where
  terminal : Nat
  active : Nat
  completed : Nat
  failed : Nat
  waiting : Nat

def DelegationSummary.counters (summary : DelegationSummary) : Counters :=
  ⟨summary.terminalChildren, summary.activeChildren, summary.completedChildren, summary.failedChildren,
    summary.waitingChildren⟩

def one (b : Bool) : Nat := if b then 1 else 0

theorem of_completed {child : Snapshot} (h : completed env child = true) :
    failureStatus env (child.token env) = false ∧ ended env child = true ∧ waiting env child = false := by
  have htoken : child.token env = "completed" := (completed_iff env child).mp h
  rw [failureStatus_token, ended, waiting, htoken]
  decide

theorem of_failureStatus {child : Snapshot} (h : failureStatus env (child.token env) = true) :
    completed env child = false ∧ waiting env child = false := by
  rw [failureStatus_token] at h
  have hmem : child.token env ∈ ["failed", "error", "timeout", "cancelled", "stopped"] := by simpa using h
  rw [completed, waiting]
  simp only [List.mem_cons, List.not_mem_nil, or_false] at hmem
  rcases hmem with htoken | htoken | htoken | htoken | htoken <;> rw [htoken] <;> decide

theorem failureStatus_of_retryPending {pendingRetries : List String} {child : Snapshot}
    (h : retryPending env pendingRetries child = true) : failureStatus env (child.token env) = true := by
  rw [retryPending, Bool.and_eq_true] at h
  exact h.2

/-- What one child adds to the counters. -/
theorem counters_countChild (pendingRetries : List String) (summary : DelegationSummary) (child : Snapshot) :
    (countChild env terminalRunStatuses pendingRetries summary child).counters =
      { terminal := summary.terminalChildren + one (!active env pendingRetries child)
        active := summary.activeChildren + one (active env pendingRetries child)
        completed := summary.completedChildren + one (completed env child)
        failed := summary.failedChildren + one (failed env pendingRetries child)
        waiting := summary.waitingChildren + one (waiting env child) } := by
  have hstatus : child.token env = "completed" ↔ completed env child = true := (completed_iff env child).symm
  have hcount : countChild env terminalRunStatuses pendingRetries summary child =
      let summary :=
        if retryPending env pendingRetries child then { summary with activeChildren := summary.activeChildren + 1 }
        else if ended env child then
          { summary with terminalChildren := summary.terminalChildren + 1 }
        else { summary with activeChildren := summary.activeChildren + 1 }
      if child.token env = "completed" then { summary with completedChildren := summary.completedChildren + 1 }
      else if retryPending env pendingRetries child then summary
      else if failureStatus env (child.token env) then
        { summary with
          failedChildren := summary.failedChildren + 1
          failedRunIds := summary.failedRunIds ++ (normalizeRunIdToken env (.string child.runId)).toList }
      else if waiting env child then { summary with waitingChildren := summary.waitingChildren + 1 }
      else summary := rfl
  rw [hcount, active, failed]
  cases hc : completed env child with
  | true =>
    obtain ⟨hf, ht, hw⟩ := of_completed env hc
    have hp : retryPending env pendingRetries child = false := by
      rw [retryPending, hf, Bool.and_false]
    simp [hstatus, hc, hf, ht, hw, hp, DelegationSummary.counters, one]
  | false =>
    cases hp : retryPending env pendingRetries child with
    | true =>
      have hf := failureStatus_of_retryPending env hp
      have hw := (of_failureStatus env hf).2
      simp [hstatus, hc, hf, hw, DelegationSummary.counters, one]
    | false =>
      cases hf : failureStatus env (child.token env) with
      | true =>
        have hw := (of_failureStatus env hf).2
        cases ht : ended env child <;>
          simp [hstatus, hc, hw, DelegationSummary.counters, one]
      | false =>
        cases ht : ended env child <;>
          cases hw : waiting env child <;> simp [hstatus, hc, DelegationSummary.counters, one]

/-! ### The latest of each lineage -/

/-- The children that count, one of each lineage. -/
def effective (children : List Snapshot) : List Snapshot := (latestByLineage env children).entries.map Prod.snd

/-- A run is the latest of its lineage: none of the lineage is later, and none before it in the list is as late. -/
def LatestRun (children : List Snapshot) (child : Snapshot) : Prop :=
  Latest.First childSortKey (children.filter (childLineageKey env · = childLineageKey env child)) child

theorem mem_effective {children : List Snapshot} {child : Snapshot} :
    child ∈ effective env children ↔ LatestRun env children child := by
  have hiff (lineage : String) : (latestByLineage env children).get? lineage = some child ↔
      Latest.First childSortKey (children.filter (childLineageKey env · = lineage)) child := by
    rw [latestByLineage, Latest.get?_latestBy, Latest.latest_eq_some_iff]
  constructor
  · intro h
    obtain ⟨⟨lineage, other⟩, hentry, rfl⟩ := List.mem_map.mp h
    have hget : (latestByLineage env children).get? lineage = some other := Table.get?_eq_some.mpr hentry
    rw [LatestRun, (Latest.latestBy_mem hget).2]
    exact (hiff lineage).mp hget
  · intro h
    exact List.mem_map.mpr ⟨(childLineageKey env child, child), Table.get?_eq_some.mp ((hiff _).mpr h), rfl⟩

theorem effective_ne_nil {children : List Snapshot} (h : children ≠ []) : effective env children ≠ [] := by
  obtain ⟨child, hmem⟩ := List.exists_mem_of_ne_nil children h
  have hkey : childLineageKey env child ∈ (latestByLineage env children).keys :=
    Latest.mem_keys_latestBy.mpr ⟨child, hmem, rfl⟩
  intro hnil
  rw [Table.keys, List.map_eq_nil_iff.mp hnil] at hkey
  cases hkey

theorem effective_perm {children other : List Snapshot} (h : children.Perm other)
    (hnodup : (children.map childSortKey).Nodup) : (effective env children).Perm (effective env other) :=
  (Table.entries_perm fun lineage => Latest.latestBy_perm childSortKey (childLineageKey env) h hnodup lineage).map _

/-! ### All children -/

theorem counters_foldl (pendingRetries : List String) (children : List Snapshot) (start : DelegationSummary) :
    (children.foldl (countChild env terminalRunStatuses pendingRetries) start).counters =
      { terminal := start.terminalChildren + children.countP fun child => !active env pendingRetries child
        active := start.activeChildren + children.countP (active env pendingRetries)
        completed := start.completedChildren + children.countP (completed env)
        failed := start.failedChildren + children.countP (failed env pendingRetries)
        waiting := start.waitingChildren + children.countP (waiting env) } := by
  induction children generalizing start with
  | nil => rfl
  | cons child children ih =>
    have hstep := counters_countChild env pendingRetries start child
    simp only [DelegationSummary.counters, Counters.mk.injEq] at hstep
    obtain ⟨hterminal, hactive, hcompleted, hfailed, hwaiting⟩ := hstep
    rw [List.foldl_cons, ih, hterminal, hactive, hcompleted, hfailed, hwaiting]
    simp only [List.countP_cons, one, Counters.mk.injEq]
    omega

/-- What is said of children, by the latest of each lineage. -/
theorem buildDelegationSummary_spec (pendingRetries : List String) {children : List Snapshot} (hne : children ≠ []) :
    ∃ summary, buildDelegationSummary env terminalRunStatuses pendingRetries children = some summary ∧
      summary.effectiveChildren = (effective env children).length ∧
      summary.counters =
        { terminal := (effective env children).countP fun child => !active env pendingRetries child
          active := (effective env children).countP (active env pendingRetries)
          completed := (effective env children).countP (completed env)
          failed := (effective env children).countP (failed env pendingRetries)
          waiting := (effective env children).countP (waiting env) } := by
  have hbuild : buildDelegationSummary env terminalRunStatuses pendingRetries children =
      some ((effective env children).foldl (countChild env terminalRunStatuses pendingRetries)
        { totalChildren := children.length, effectiveChildren := (effective env children).length }) := by
    rw [buildDelegationSummary, if_neg (by simpa using hne)]
    rfl
  refine ⟨_, hbuild, ?_, ?_⟩
  · rw [effectiveChildren_eq env hbuild, effective, Table.keys, List.length_map, List.length_map]
  · rw [counters_foldl]
    simp

/-- The run is not waiting, its status ends it, and it is not to be retried. -/
def Settled (pendingRetries : List String) (child : Snapshot) : Prop :=
  waiting env child = false ∧ ended env child = true ∧ retryPending env pendingRetries child = false

theorem settled_iff (pendingRetries : List String) (child : Snapshot) :
    Settled env pendingRetries child ↔ active env pendingRetries child = false ∧ waiting env child = false := by
  rw [Settled, active, Bool.or_eq_false_iff, Bool.not_eq_false']
  tauto

/-- A status that ends a run is `completed`, a failure or a wait. -/
theorem completed_of_settled {pendingRetries : List String} {child : Snapshot}
    (h : Settled env pendingRetries child) (hfailed : failed env pendingRetries child = false) :
    completed env child = true := by
  obtain ⟨hwaiting, hended, hpending⟩ := h
  rw [failed, hpending, Bool.not_false, Bool.and_true, failureStatus_token] at hfailed
  rw [waiting] at hwaiting
  have hmem : child.token env ∈ terminalRunStatuses := by simpa [ended] using hended
  rw [completed]
  revert hwaiting hfailed
  simp only [terminalRunStatuses, List.mem_cons, List.not_mem_nil, or_false] at hmem
  rcases hmem with htoken | htoken | htoken | htoken | htoken | htoken <;> rw [htoken] <;> decide

/-- What a summary says of readiness. -/
structure Readiness where
  ready : Bool
  readyForMerge : Bool
  effective : Nat
  terminal : Nat
  active : Nat
  deriving DecidableEq

def DelegationSummary.readiness (summary : DelegationSummary) : Readiness :=
  ⟨summary.ready, summary.readyForMerge, summary.effectiveChildren, summary.terminalChildren, summary.activeChildren⟩

/-- The flags of the summary, by the statuses of the children. -/
theorem readiness_iff (pendingRetries : List String) {children : List Snapshot} (hne : children ≠ [])
    {summary : DelegationSummary}
    (h : buildDelegationSummary env terminalRunStatuses pendingRetries children = some summary) :
    (summary.ready = true ↔ ∀ child ∈ effective env children, Settled env pendingRetries child) ∧
      (summary.readyForMerge = true ↔ ∀ child ∈ effective env children, completed env child = true) ∧
      summary.effectiveChildren = summary.terminalChildren + summary.activeChildren := by
  obtain ⟨built, hbuild, heffective, hcounters⟩ := buildDelegationSummary_spec env pendingRetries hne
  obtain rfl := Option.some.inj (hbuild.symm.trans h)
  simp only [DelegationSummary.counters, Counters.mk.injEq] at hcounters
  obtain ⟨hterminal, hactive, hcompleted, hfailed, hwaiting⟩ := hcounters
  have hready : built.ready = true ↔ ∀ child ∈ effective env children, Settled env pendingRetries child := by
    rw [DelegationSummary.ready, Bool.and_eq_true, decide_eq_true_eq, decide_eq_true_eq, hactive, hwaiting,
      List.countP_eq_zero, List.countP_eq_zero, ← forall₂_and]
    refine forall₂_congr fun child _ => ?_
    rw [settled_iff, Bool.not_eq_true, Bool.not_eq_true]
  refine ⟨hready, ?_, ?_⟩
  · rw [DelegationSummary.readyForMerge, Bool.and_eq_true, Bool.and_eq_true, decide_eq_true_eq, decide_eq_true_eq,
      hready, hfailed, hcompleted, List.countP_eq_zero]
    constructor
    · rintro ⟨⟨hsettled, hnone⟩, -⟩ child hmem
      exact completed_of_settled env (hsettled child hmem) (Bool.not_eq_true _ ▸ hnone child hmem)
    · intro hall
      have hpending (child : Snapshot) (hmem : child ∈ effective env children) :
          retryPending env pendingRetries child = false := by
        rw [retryPending, (of_completed env (hall child hmem)).1, Bool.and_false]
      refine ⟨⟨fun child hmem => ?_, fun child hmem => ?_⟩, ?_⟩
      · obtain ⟨-, hended, hwaits⟩ := of_completed env (hall child hmem)
        exact ⟨hwaits, hended, hpending child hmem⟩
      · rw [failed, (of_completed env (hall child hmem)).1]
        simp
      · obtain ⟨child, hmem⟩ := List.exists_mem_of_ne_nil _ (effective_ne_nil env hne)
        exact List.countP_pos_iff.mpr ⟨child, hmem, hall child hmem⟩
  · rw [heffective, hterminal, hactive, List.length_eq_countP_add_countP (active env pendingRetries), Nat.add_comm]
    simp

/-- Children are ready to be merged just when the latest run of each lineage is completed, and ready just when
    none of these is waiting, still runs or is to be retried; the counts add up, and none of it depends on the
    order of the children when no two agree in time and id. -/
theorem delegation_readiness (pendingRetries : List String) (children : List Snapshot) (hne : children ≠ []) :
    ∃ summary, buildDelegationSummary env terminalRunStatuses pendingRetries children = some summary ∧
      (summary.readyForMerge = true ↔
        ∀ child, LatestRun env children child → env.lowercase.token child.status = "completed") ∧
      (summary.ready = true ↔ ∀ child, LatestRun env children child → Settled env pendingRetries child) ∧
      summary.effectiveChildren = summary.terminalChildren + summary.activeChildren ∧
      ((children.map childSortKey).Nodup → ∀ other, children.Perm other →
        (buildDelegationSummary env terminalRunStatuses pendingRetries other).map DelegationSummary.readiness =
          some summary.readiness) := by
  obtain ⟨summary, hbuild, heffective, hcounters⟩ := buildDelegationSummary_spec env pendingRetries hne
  obtain ⟨hready, hmerge, hsum⟩ := readiness_iff env pendingRetries hne hbuild
  refine ⟨summary, hbuild, ?_, ?_, hsum, ?_⟩
  · simp only [hmerge, mem_effective, completed_iff]
  · simp only [hready, mem_effective]
  · intro hnodup other hperm
    have hother : other ≠ [] := fun hnil => hne (List.perm_nil.mp (hnil ▸ hperm))
    obtain ⟨again, hagain, heffective', hcounters'⟩ := buildDelegationSummary_spec env pendingRetries hother
    have heff := effective_perm env hperm hnodup
    have hsame : again.counters = summary.counters := by
      rw [hcounters, hcounters']
      simp only [heff.countP_eq]
    have hlen : again.effectiveChildren = summary.effectiveChildren := by
      rw [heffective, heffective', heff.length_eq]
    simp only [DelegationSummary.counters, Counters.mk.injEq] at hsame
    obtain ⟨hterminal, hactive, hcompleted, hfailed, hwaiting⟩ := hsame
    rw [hagain, Option.map_some, Option.some.injEq, DelegationSummary.readiness, DelegationSummary.readiness,
      DelegationSummary.readyForMerge, DelegationSummary.readyForMerge, DelegationSummary.ready,
      DelegationSummary.ready, hterminal, hactive, hcompleted, hfailed, hwaiting, hlen]

def plainEnv : Env where
  repr _ := ""
  lowercase := .ascii
  uuid := some
  parseInt _ := none
  truncate _ := none
  agentRole _ := ""

/-- A run of this status that retries `root`. -/
def retryOf (runId root status : String) (updatedAt : Nat) : Snapshot :=
  buildRunRelationSummary (serializeRunSnapshot runId
    ⟨status, some 0, some updatedAt, { metadata := { retryRootRunId := .string root } }⟩)

theorem delegation_readiness_retried :
    ∃ summary, buildDelegationSummary plainEnv terminalRunStatuses ["r2"]
        [retryOf "r1" "r1" "failed" 1, retryOf "r3" "r1" "completed" 2, retryOf "r2" "r2" "failed" 1] = some summary ∧
      summary.effectiveChildren = summary.terminalChildren + summary.activeChildren := by
  obtain ⟨summary, hbuild, -, -, hsum, -⟩ := delegation_readiness plainEnv ["r2"]
    [retryOf "r1" "r1" "failed" 1, retryOf "r3" "r1" "completed" 2, retryOf "r2" "r2" "failed" 1] (by simp)
  exact ⟨summary, hbuild, hsum⟩

end Empyralis.Server.Delegation
