import Empyralis.Server.HeartbeatRuns
import Empyralis.Server.TurnErrands

/-! What becomes of the wakes that a tick has claimed, whichever of its steps raise. -/

namespace Empyralis.Server.Heartbeat
open Text (strip)
open Wakes

variable (env : Env)

/-! ### Finalization by id -/

/-- A row with this id has such a status. -/
def Has (P : WakeStatus → Prop) (rows : List WakeRequest) (id : Token) : Prop :=
    ∃ row ∈ rows, row.id = id ∧ P row.status

variable {env}

theorem finalizeRow_id (now : Int) (id : Token) (outcome : Outcome) (row : WakeRequest) :
    (finalizeRow env now id outcome row).id = row.id := by
  unfold finalizeRow
  split <;> rfl

theorem has_finalizeRow {P : WakeStatus → Prop} (now : Int) (id other : Token) (outcome : Outcome)
    (rows : List WakeRequest) :
    Has P (rows.map (finalizeRow env now id outcome)) other ↔
      if other = id then P outcome.update.status ∧ Has (fun _ => True) rows other else Has P rows other := by
  by_cases h : other = id
  · subst h
    rw [if_pos rfl]
    constructor
    · rintro ⟨_, hmem, hid, hp⟩
      obtain ⟨row, hrow, rfl⟩ := List.mem_map.mp hmem
      rw [finalizeRow_id] at hid
      rw [finalizeRow, if_pos hid] at hp
      exact ⟨hp, row, hrow, hid, trivial⟩
    · rintro ⟨hp, row, hrow, hid, -⟩
      refine ⟨_, List.mem_map_of_mem hrow, (finalizeRow_id ..).trans hid, ?_⟩
      rw [finalizeRow, if_pos hid]
      exact hp
  · rw [if_neg h]
    constructor
    · rintro ⟨_, hmem, hid, hp⟩
      obtain ⟨row, hrow, rfl⟩ := List.mem_map.mp hmem
      rw [finalizeRow_id] at hid
      rw [finalizeRow, if_neg (hid ▸ h)] at hp
      exact ⟨row, hrow, hid, hp⟩
    · rintro ⟨row, hrow, hid, hp⟩
      refine ⟨_, List.mem_map_of_mem hrow, (finalizeRow_id ..).trans hid, ?_⟩
      rw [finalizeRow, if_neg (hid ▸ h)]
      exact hp

/-- The rows of the finalized ids have the status of the outcome, and every other row keeps its own. -/
theorem has_finalize {P : WakeStatus → Prop} (now : Int) (outcome : Outcome) (other : Token) {ids : List Token} :
    ∀ rows : List WakeRequest, Has P (finalizeWakeRequests env rows now ids outcome) other ↔
      if other ∈ ids then P outcome.update.status ∧ Has (fun _ => True) rows other else Has P rows other := by
  induction ids with
  | nil => exact fun rows => by simp [finalizeWakeRequests]
  | cons id ids ih =>
    intro rows
    have hstep : finalizeWakeRequests env rows now (id :: ids) outcome =
        finalizeWakeRequests env (rows.map (finalizeRow env now id outcome)) now ids outcome := rfl
    rw [hstep, ih, has_finalizeRow, has_finalizeRow, true_and, ite_self]
    by_cases h : other ∈ ids
    · rw [if_pos h, if_pos (List.mem_cons_of_mem id h)]
    · rw [if_neg h]
      by_cases heq : other = id
      · rw [if_pos heq, if_pos (List.mem_cons.mpr (.inl heq))]
      · rw [if_neg heq, if_neg (by simp [heq, h])]

/-! ### What one group finalizes -/

/-- How many wakes of the group its steps finalize. -/
def GroupSteps.count (steps : GroupSteps) (g : Group) : Nat :=
  match steps.build, steps.execute with
  | some _, _ | none, .error .exit => 0
  | none, _ => steps.finalize.elim g.wakeRequests.length (·.1)

def GroupSteps.done (steps : GroupSteps) (g : Group) : List Item := g.wakeRequests.take (steps.count g)

/-- The wakes of the group that its steps leave as they were claimed. -/
def GroupSteps.left (steps : GroupSteps) (g : Group) : List Item := g.wakeRequests.drop (steps.count g)

/-- The tick ends at the group: its turn is not built, its execution is broken off, or the finalization raises. -/
def GroupSteps.stops (steps : GroupSteps) (g : Group) : Bool :=
  !(g.heartbeatTasks.isEmpty && g.wakeRequests.isEmpty) &&
    match steps.build, steps.execute with
    | some _, _ | none, .error .exit => true
    | none, _ => !g.wakeRequests.isEmpty && steps.finalize.isSome

theorem GroupSteps.left_of_not_stops {steps : GroupSteps} {g : Group} (h : steps.stops g = false) :
    steps.left g = [] := by
  by_cases hwakes : g.wakeRequests = []
  · rw [left, hwakes, List.drop_nil]
  · have hall : steps.count g = g.wakeRequests.length := by
      obtain ⟨build, execute, finalize, time⟩ := steps
      cases build with
      | some fault => simp [stops, hwakes] at h
      | none =>
        cases finalize with
        | some raises => cases execute with
          | ok payload => simp [stops, hwakes] at h
          | error fault => cases fault <;> simp [stops, hwakes] at h
        | none => cases execute with
          | ok payload => rfl
          | error fault => cases fault with
            | exit => simp [stops, hwakes] at h
            | valueError message => rfl
            | exception => rfl
    rw [left, hall, List.drop_length]

theorem GroupSteps.done_append_left (steps : GroupSteps) (g : Group) : steps.done g ++ steps.left g = g.wakeRequests :=
  List.take_append_drop _ _

section Loop

variable {t : Tick} {metadata : Fields} {pending : List Fields} {surroundings : Surroundings}

theorem finalizeGroup_rows (p : Progress) (steps : GroupSteps) (turn : TurnRequest) (wakes : List Item)
    (outcome : Outcome) :
    (finalizeGroup env p steps turn wakes outcome).1.rows = finalizeWakeRequests env p.rows steps.time
        ((wakes.take (steps.finalize.elim wakes.length (·.1))).map (·.id)) outcome ∧
      (finalizeGroup env p steps turn wakes outcome).2.isSome = (!wakes.isEmpty && steps.finalize.isSome) := by
  unfold finalizeGroup
  split
  · rename_i hempty
    obtain rfl := List.isEmpty_iff.mp hempty
    simp [finalizeWakeRequests]
  · rename_i hsome
    cases hf : steps.finalize with
    | none => simp
    | some raises => simp [hsome]

theorem groupTurn_ok (hworkspace : text env metadata "workspace_id" ≠ "") (htenant : text env metadata "tenant_id" ≠ "")
    {steps : GroupSteps} (hbuild : steps.build = none) (g : Group) :
    ∃ turn, groupTurn env t metadata pending surroundings steps g = .ok turn := by
  have hturn : ∃ turn, buildHeartbeatTurnRequest env t.defaultProvider g.heartbeatTasks metadata pending g.authorityTier
      g.wakeRequests surroundings = .ok turn := turn_of_scope hworkspace htenant
  obtain ⟨turn, hturn⟩ := hturn
  simp only [groupTurn, hbuild, hturn, Except.mapError]
  exact ⟨turn, rfl⟩

/-- A round of the loop finalizes some wakes of the group, all with one outcome. -/
theorem runGroup_rows (hworkspace : text env metadata "workspace_id" ≠ "")
    (htenant : text env metadata "tenant_id" ≠ "")
    (p : Progress) (steps : GroupSteps) (g : Group) :
    (∃ outcome, (runGroup env t metadata pending surroundings p steps g).1.rows =
        finalizeWakeRequests env p.rows steps.time ((steps.done g).map (·.id)) outcome) ∧
      (runGroup env t metadata pending surroundings p steps g).2.isSome = steps.stops g := by
  by_cases hskip : (g.heartbeatTasks.isEmpty && g.wakeRequests.isEmpty) = true
  · have hempty : g.wakeRequests = [] := List.isEmpty_iff.mp (Bool.and_eq_true_iff.mp hskip).2
    rw [runGroup, if_pos hskip, GroupSteps.done, hempty, List.take_nil, GroupSteps.stops, hskip]
    exact ⟨⟨.failed, rfl⟩, rfl⟩
  · rw [runGroup, if_neg hskip]
    obtain ⟨build, execute, finalize, time⟩ := steps
    cases build with
    | some fault =>
      have hnone : GroupSteps.done ⟨some fault, execute, finalize, time⟩ g = [] := List.take_zero
      rw [hnone]
      cases fault with
      | valueError message => exact ⟨⟨.failed, rfl⟩, by simp [groupTurn, GroupSteps.stops, hskip]⟩
      | exception => exact ⟨⟨.failed, rfl⟩, by simp [groupTurn, GroupSteps.stops, hskip]⟩
      | exit => exact ⟨⟨.failed, rfl⟩, by simp [groupTurn, GroupSteps.stops, hskip]⟩
    | none =>
      obtain ⟨turn, hturn⟩ := @groupTurn_ok env t metadata pending surroundings hworkspace htenant
        ⟨none, execute, finalize, time⟩ rfl g
      simp only [hturn]
      cases execute with
      | ok payload =>
        obtain ⟨hrows, hraised⟩ := @finalizeGroup_rows env p ⟨none, .ok payload, finalize, time⟩ turn g.wakeRequests
          (.executed (runIdValue env payload))
        refine ⟨⟨_, hrows⟩, ?_⟩
        rw [Option.isSome_map, hraised]
        simp [GroupSteps.stops, hskip]
      | error fault =>
        obtain ⟨hrows, hraised⟩ := @finalizeGroup_rows env p ⟨none, .error fault, finalize,
          time⟩ turn g.wakeRequests .failed
        cases fault with
        | exit =>
          have hnone : GroupSteps.done ⟨none, .error .exit, finalize, time⟩ g = [] := List.take_zero
          rw [hnone]
          exact ⟨⟨.failed, rfl⟩, by simp [GroupSteps.stops, hskip]⟩
        | valueError message =>
          refine ⟨⟨_, hrows⟩, ?_⟩
          rw [Option.isSome_map, hraised]
          simp [GroupSteps.stops, hskip]
        | exception =>
          refine ⟨⟨_, hrows⟩, ?_⟩
          rw [Option.isSome_map, hraised]
          simp [GroupSteps.stops, hskip]

/-- The wakes that the loop finalizes: those of every group up to the one at which the tick ends. -/
def finalized (steps : Nat → GroupSteps) : List Group → Nat → List Item
  | [], _ => []
  | g :: groups, i => (steps i).done g ++ if (steps i).stops g then [] else finalized steps groups (i + 1)

/-- Neither executed nor failed nor pending again. -/
def Unresolved (status : WakeStatus) : Prop := status ≠ .executed ∧ status ≠ .failed ∧ status ≠ .pending

theorem not_unresolved_outcome (outcome : Outcome) : ¬ Unresolved outcome.update.status := by
  cases outcome with
  | executed runId => exact fun h => h.1 rfl
  | failed => exact fun h => h.2.1 rfl

/-- After the loop the unresolved rows are those that were so before it and are not finalized. -/
theorem has_runGroups (hworkspace : text env metadata "workspace_id" ≠ "")
    (htenant : text env metadata "tenant_id" ≠ "")
    (id : Token) {groups : List Group} : ∀ (i : Nat) (p : Progress),
      Has Unresolved (runGroups env t metadata pending surroundings groups i p).1.rows id ↔
        Has Unresolved p.rows id ∧ id ∉ (finalized t.groups groups i).map (·.id) := by
  induction groups with
  | nil => exact fun i p => by simp [runGroups, finalized]
  | cons g groups ih =>
    intro i p
    obtain ⟨⟨outcome, hrows⟩, hstops⟩ := @runGroup_rows env t metadata pending surroundings hworkspace htenant p (t.groups i) g
    have hround : Has Unresolved (runGroup env t metadata pending surroundings p (t.groups i) g).1.rows id ↔
        Has Unresolved p.rows id ∧ id ∉ ((t.groups i).done g).map (·.id) := by
      rw [hrows, has_finalize]
      split
      · rename_i hin
        exact ⟨fun h => absurd h.1 (not_unresolved_outcome outcome), fun h => absurd hin h.2⟩
      · rename_i hout
        exact ⟨fun h => ⟨h, hout⟩, And.left⟩
    rw [runGroups, finalized, List.map_append, List.mem_append, not_or, ← and_assoc, ← hround, ← hstops]
    generalize runGroup env t metadata pending surroundings p (t.groups i) g = round
    obtain ⟨q, stopped⟩ := round
    cases stopped with
    | some response => simp
    | none => simpa using ih (i + 1) q

end Loop

/-! ### Which wakes are finalized -/

def wakesOf (groups : List Group) : List Item := groups.flatMap (·.wakeRequests)

/-- Where the tick ends at a group, that group has no wake left, and no group after it has one. -/
def Cleared (steps : Nat → GroupSteps) (groups : List Group) : Prop :=
  ∀ i g, groups[i]? = some g → (steps i).stops g = true →
    (steps i).left g = [] ∧ ∀ later ∈ groups.drop (i + 1), later.wakeRequests = []

theorem cleared_cons {steps : Nat → GroupSteps} {g : Group} {groups : List Group} :
    Cleared steps (g :: groups) ↔
      ((steps 0).stops g = true → (steps 0).left g = [] ∧ ∀ later ∈ groups, later.wakeRequests = []) ∧
        Cleared (fun i => steps (i + 1)) groups := by
  constructor
  · exact fun h => ⟨fun hstops => h 0 g rfl hstops, fun i next hnext => h (i + 1) next hnext⟩
  · rintro ⟨hhead, htail⟩ i next hnext
    cases i with
    | zero =>
      obtain rfl : g = next := by simpa using hnext
      exact hhead
    | succ i => exact htail i next hnext

theorem finalized_shift (steps : Nat → GroupSteps) (groups : List Group) (i : Nat) :
    finalized steps groups (i + 1) = finalized (fun i => steps (i + 1)) groups i := by
  induction groups generalizing i with
  | nil => rfl
  | cons g groups ih => rw [finalized, finalized, ih]

/-- All wakes of the groups are finalized exactly when the groups are cleared. -/
theorem finalized_iff {groups : List Group} : ∀ {steps : Nat → GroupSteps}, ((wakesOf groups).map (·.id)).Nodup →
    ((∀ item ∈ wakesOf groups, item.id ∈ (finalized steps groups 0).map (·.id)) ↔ Cleared steps groups) := by
  induction groups with
  | nil => exact fun _ => ⟨fun _ _ _ hg => by simp at hg, fun _ item hitem => (List.not_mem_nil hitem).elim⟩
  | cons g groups ih =>
    intro steps hnodup
    have hsplit : wakesOf (g :: groups) = (steps 0).done g ++ (steps 0).left g ++ wakesOf groups := by
      rw [GroupSteps.done_append_left]
      rfl
    rw [hsplit, List.map_append, List.map_append, List.nodup_append, List.nodup_append] at hnodup
    obtain ⟨⟨-, -, hleft⟩, hrest, hapart⟩ := hnodup
    rw [cleared_cons, finalized, finalized_shift, hsplit, ← ih hrest]
    cases hstops : (steps 0).stops g with
    | true =>
      rw [if_pos rfl, List.append_nil]
      constructor
      · intro h
        -- an item that is not among those finalized here has another id than all of them
        have hnil : (steps 0).left g = [] := by
          refine List.eq_nil_iff_forall_not_mem.mpr fun item hitem => ?_
          have hdone := h item (List.mem_append_left _ (List.mem_append_right _ hitem))
          exact hleft _ hdone _ (List.mem_map_of_mem hitem) rfl
        have hempty : ∀ item, item ∉ wakesOf groups := by
          intro item hitem
          have hdone := h item (List.mem_append_right _ hitem)
          exact hapart _ (List.mem_append_left _ hdone) _ (List.mem_map_of_mem hitem) rfl
        refine ⟨fun _ => ⟨hnil, fun later hlater => ?_⟩, fun item hitem => absurd hitem (hempty item)⟩
        refine List.eq_nil_iff_forall_not_mem.mpr fun item hitem => ?_
        exact hempty item (List.mem_flatMap.mpr ⟨later, hlater, hitem⟩)
      · rintro ⟨hhead, -⟩ item hitem
        obtain ⟨hnil, hlater⟩ := hhead rfl
        rw [hnil, List.append_nil] at hitem
        obtain hdone | hrest := List.mem_append.mp hitem
        · exact List.mem_map_of_mem hdone
        · obtain ⟨later, hmem, hin⟩ := List.mem_flatMap.mp hrest
          rw [hlater later hmem] at hin
          cases hin
    | false =>
      rw [if_neg Bool.false_ne_true, (steps 0).left_of_not_stops hstops, List.append_nil, List.map_append]
      constructor
      · refine fun h => ⟨nofun, fun item hitem => ?_⟩
        obtain hdone | hrest := List.mem_append.mp (h item (List.mem_append_right _ hitem))
        · exact absurd rfl (hapart _ (List.mem_append_left _ hdone) _ (List.mem_map_of_mem hitem))
        · exact hrest
      · rintro ⟨-, h⟩ item hitem
        obtain hdone | hrest := List.mem_append.mp hitem
        · exact List.mem_append_left _ (List.mem_map_of_mem hdone)
        · exact List.mem_append_right _ (h item hrest)

theorem wakesOf_bundle (tasks : List String) (batch : List Item) :
    wakesOf (buildWakeupExecutionBundle env tasks batch).groups =
      (Grouping.groupBy (fun item => (wakeRequestTier env item).1) batch).flatMap Prod.snd := by
  rw [wakesOf, buildWakeupExecutionBundle, List.flatMap_map, tierGroups]
  split
  · rw [List.flatMap_append]
    exact List.append_nil _
  · rfl

theorem mem_wakesOf_bundle {tasks : List String} {batch : List Item} {item : Item} :
    item ∈ wakesOf (buildWakeupExecutionBundle env tasks batch).groups ↔ item ∈ batch := by
  constructor
  · intro h
    obtain ⟨g, hg, hin⟩ := List.mem_flatMap.mp h
    exact ((mem_groups env hg).mp hin).1
  · intro h
    obtain ⟨g, hg, -, hin⟩ := @exists_group env tasks batch item h
    exact List.mem_flatMap.mpr ⟨g, hg, hin⟩

theorem nodup_wakesOf_bundle {tasks : List String} {batch : List Item} (h : (batch.map (·.id)).Nodup) :
    ((wakesOf (buildWakeupExecutionBundle env tasks batch).groups).map (·.id)).Nodup := by
  rw [wakesOf_bundle]
  exact Grouping.nodup_groups (Grouping.groupsOf_groupBy _ batch) h

/-! ### The claim -/

/-- The wakes that a tick claims. -/
def Tick.claims (env : Env) (t : Tick) (rows : List WakeRequest) : List WakeRequest :=
  match prepare env t with
  | .error _ => []
  | .ok (metadata, _) => (claimStep env rows t metadata).2.1

theorem afterClaim_claimed (t : Tick) (metadata : Fields) (pending : List Fields)
    (step : List WakeRequest × List WakeRequest × Option Fault) :
    (afterClaim env t metadata pending step).claimed = step.2.1 := by
  obtain ⟨rows, claimed, raised⟩ := step
  cases raised with
  | some fault => rfl
  | none =>
    rw [afterClaim]
    split
    · rfl
    · split
      · rfl
      · cases t.bundle <;> rfl

theorem claimed_eq (rows : List WakeRequest) (t : Tick) :
    (executeHeartbeatRun env rows t).claimed = t.claims env rows := by
  unfold executeHeartbeatRun Tick.claims
  cases prepare env t with
  | error response => rfl
  | ok prepared => exact afterClaim_claimed t prepared.1 prepared.2 _

theorem nodup_candidates {rows : List WakeRequest} (h : (rows.map (·.id)).Nodup) (dueBefore : Int) (limit : Nat) :
    ((candidates rows dueBefore limit).map (·.id)).Nodup := by
  have hdue : ((rows.filter (due dueBefore)).map (·.id)).Nodup := h.sublist (List.filter_sublist.map _)
  have hsorted : (((rows.filter (due dueBefore)).insertionSort claimsBefore).map (·.id)).Nodup :=
    (((List.perm_insertionSort claimsBefore _).map _).nodup_iff).mpr hdue
  exact hsorted.sublist ((List.take_sublist _ _).map _)

theorem mem_candidates {rows : List WakeRequest} {dueBefore : Int} {limit : Nat} {row : WakeRequest}
    (h : row ∈ candidates rows dueBefore limit) : row ∈ rows := by
  have hsorted := List.mem_of_mem_take h
  rw [List.mem_insertionSort] at hsorted
  exact (List.mem_filter.mp hsorted).1

/-- A tick that claims wakes has a tenant, and its claim has been committed. -/
theorem claimStep_spec {rows : List WakeRequest} {t : Tick} {metadata : Fields}
    (h : (claimStep env rows t metadata).2.1 ≠ []) :
    text env metadata "tenant_id" ≠ "" ∧
      (claimStep env rows t metadata).1 = claimDueWakeRequests rows t.now t.dueBefore t.limit ∧
      (claimStep env rows t metadata).2.1 =
        t.returned.order ((candidates rows t.dueBefore t.limit).map (claimRow t.now)) ∧
      (claimStep env rows t metadata).2.2 = t.claim.map (·.2) := by
  unfold claimStep at h ⊢
  dsimp only at h ⊢
  split at h
  · exact absurd rfl h
  · rename_i htenant
    rw [if_neg htenant]
    refine ⟨htenant, ?_⟩
    cases hclaim : t.claim with
    | none => exact ⟨rfl, rfl, rfl⟩
    | some raises =>
      obtain ⟨committed, fault⟩ := raises
      cases committed with
      | false =>
        rw [hclaim] at h
        exact absurd rfl h
      | true => exact ⟨rfl, rfl, rfl⟩

/-- Scoping a tick sets nothing but its tenant. -/
theorem get_scopedMetadata {t : Tick} {metadata : Fields} (h : scopedMetadata env t = .ok metadata) {key : String}
    (hkey : key ≠ "tenant_id") : metadata.get key = t.metadata.get key := by
  unfold scopedMetadata at h
  split at h
  · cases h
    rfl
  · cases hresolved : t.resolveTenant with
    | error fault =>
      rw [hresolved] at h
      cases h
    | ok tenant =>
      rw [hresolved] at h
      obtain rfl := Except.ok.inj h
      dsimp only
      split
      · rfl
      · rw [Fields.get_put, if_neg hkey]

theorem prepare_ok {t : Tick} {metadata : Fields} {schedules : List Fields}
    (h : prepare env t = .ok (metadata, schedules)) :
    text env t.metadata "workspace_id" ≠ "" ∧ scopedMetadata env t = .ok metadata := by
  unfold prepare at h
  split at h
  · cases h
  · split at h
    · cases h
    · cases h
    · cases h
      exact ⟨‹_›, ‹_›⟩

/-- The claim leaves every wake that it has taken without an outcome. -/
theorem unresolved_of_claimed {rows : List WakeRequest} {now dueBefore : Int} {limit : Nat} {wake : WakeRequest}
    (h : wake ∈ (candidates rows dueBefore limit).map (claimRow now)) :
    Has Unresolved (claimDueWakeRequests rows now dueBefore limit) wake.id := by
  obtain ⟨row, hrow, rfl⟩ := List.mem_map.mp h
  refine ⟨_, List.mem_map_of_mem (mem_candidates hrow), ?_⟩
  have hany : (candidates rows dueBefore limit).any (·.id = row.id) = true :=
    List.any_eq_true.mpr ⟨row, hrow, decide_eq_true rfl⟩
  rw [if_pos hany]
  exact ⟨rfl, nofun, nofun, nofun⟩

theorem not_executed_of_claimed {rows : List WakeRequest} {now dueBefore : Int} {limit : Nat} {wake : WakeRequest}
    (h : wake ∈ (candidates rows dueBefore limit).map (claimRow now)) :
    ¬ Has (· = .executed) (claimDueWakeRequests rows now dueBefore limit) wake.id := by
  rintro ⟨_, hmem, hid, hexecuted⟩
  obtain ⟨candidate, hcandidate, rfl⟩ := List.mem_map.mp h
  obtain ⟨row, hrow, rfl⟩ := List.mem_map.mp hmem
  have hsame : row.id = candidate.id := by
    split at hid
    · exact hid
    · exact hid
  have hany : (candidates rows dueBefore limit).any (·.id = row.id) = true :=
    List.any_eq_true.mpr ⟨candidate, hcandidate, decide_eq_true hsame.symm⟩
  rw [if_pos hany] at hexecuted
  cases hexecuted

/-- No wake that the tick has claimed is left without an outcome. -/
def Resolved (env : Env) (rows : List WakeRequest) (t : Tick) : Prop :=
  ∀ wake ∈ (executeHeartbeatRun env rows t).claimed, ∀ row ∈ (executeHeartbeatRun env rows t).rows, row.id = wake.id →
    row.status = .executed ∨ row.status = .failed ∨ row.status = .pending

theorem resolved_iff (rows : List WakeRequest) (t : Tick) :
    Resolved env rows t ↔ ∀ wake ∈ t.claims env rows,
      ¬ Has Unresolved (executeHeartbeatRun env rows t).rows wake.id := by
  rw [Resolved, claimed_eq]
  refine forall₂_congr fun wake _ => ?_
  constructor
  · rintro h ⟨row, hrow, hid, hexecuted, hfailed, hpending⟩
    obtain hstatus | hstatus | hstatus := h row hrow hid
    · exact hexecuted hstatus
    · exact hfailed hstatus
    · exact hpending hstatus
  · intro h row hrow hid
    by_contra hnot
    simp only [not_or] at hnot
    exact h ⟨row, hrow, hid, hnot⟩

/-- The wakes that a tick has claimed, with the rows after its claim: they have different ids, and no outcome yet. -/
structure Claimed (after claimed : List WakeRequest) : Prop where
  nodup : (claimed.map (·.id)).Nodup
  unresolved : ∀ wake ∈ claimed, Has Unresolved after wake.id
  unexecuted : ∀ wake ∈ claimed, ¬ Has (· = .executed) after wake.id

theorem claimed_of_claimStep {rows : List WakeRequest} (hids : (rows.map (·.id)).Nodup) {t : Tick} {metadata : Fields}
    (h : (claimStep env rows t metadata).2.1 ≠ []) :
    Claimed (claimStep env rows t metadata).1 (claimStep env rows t metadata).2.1 := by
  obtain ⟨-, hafter, hreturned, -⟩ := claimStep_spec h
  rw [hafter, hreturned]
  refine ⟨?_, ?_, ?_⟩
  · refine (((t.returned.perm _).map _).nodup_iff).mpr ?_
    rw [List.map_map]
    exact nodup_candidates hids t.dueBefore t.limit
  · exact fun wake hwake => unresolved_of_claimed ((t.returned.perm _).mem_iff.mp hwake)
  · exact fun wake hwake => not_executed_of_claimed ((t.returned.perm _).mem_iff.mp hwake)

/-- A tick that claims wakes ends at once where its claim has raised or its bundle cannot be built, and runs
    through the groups of the bundle otherwise. -/
theorem run_of_claims {rows : List WakeRequest} (hids : (rows.map (·.id)).Nodup) {t : Tick}
    (h : t.claims env rows ≠ []) :
    ∃ metadata pending after, scopedMetadata env t = .ok metadata ∧ text env metadata "workspace_id" ≠ "" ∧
      text env metadata "tenant_id" ≠ "" ∧ Claimed after (t.claims env rows) ∧
      ((¬ (t.claim = none ∧ ∃ surroundings, t.bundle = .ok surroundings) ∧
          (executeHeartbeatRun env rows t).rows = after ∧ (executeHeartbeatRun env rows t).executions = []) ∨
        ∃ surroundings, t.claim = none ∧ t.bundle = .ok surroundings ∧
          executeHeartbeatRun env rows t = runBundle env t metadata pending after (t.claims env rows) surroundings) := by
  cases hprepare : prepare env t with
  | error response => exact absurd (by rw [Tick.claims, hprepare]) h
  | ok prepared =>
    obtain ⟨metadata, pending⟩ := prepared
    have hof : t.claims env rows = (claimStep env rows t metadata).2.1 := by rw [Tick.claims, hprepare]
    have hrun : executeHeartbeatRun env rows t = afterClaim env t metadata pending (claimStep env rows t metadata) := by
      rw [executeHeartbeatRun, hprepare]
    obtain ⟨hworkspace, hscoped⟩ := prepare_ok hprepare
    rw [hof] at h ⊢
    obtain ⟨htenant, -, -, hraised⟩ := claimStep_spec h
    have hclaimed := claimed_of_claimStep hids h
    have hsame : text env metadata "workspace_id" = text env t.metadata "workspace_id" :=
      text_congr (get_scopedMetadata hscoped (by decide))
    refine ⟨metadata, pending, _, hscoped, hsame ▸ hworkspace, htenant, hclaimed, ?_⟩
    generalize claimStep env rows t metadata = step at *
    obtain ⟨after, claimed, raised⟩ := step
    dsimp only at hraised h ⊢
    cases hclaim : t.claim with
    | some raises =>
      obtain rfl : raised = some raises.2 := by rw [hraised, hclaim, Option.map_some]
      refine .inl ⟨(fun hok => nomatch hok.1), ?_⟩
      rw [hrun]
      exact ⟨rfl, rfl⟩
    | none =>
      obtain rfl : raised = none := by rw [hraised, hclaim, Option.map_none]
      rw [afterClaim, List.isEmpty_eq_false_iff.mpr h, Bool.false_and, if_neg Bool.false_ne_true,
        if_neg Bool.false_ne_true] at hrun
      cases hbundle : t.bundle with
      | error fault =>
        rw [hbundle] at hrun
        refine .inl ⟨by simp, ?_⟩
        rw [hrun]
        exact ⟨rfl, rfl⟩
      | ok surroundings =>
        rw [hbundle] at hrun
        exact .inr ⟨surroundings, rfl, rfl, hrun⟩

theorem groupsOf_claimed {t : Tick} {claimed : List WakeRequest} (h : claimed ≠ []) :
    groupsOf env t claimed = (buildWakeupExecutionBundle env t.tasks (claimed.map (·.read env))).groups := by
  rw [groupsOf, List.isEmpty_eq_false_iff.mpr h, if_neg Bool.false_ne_true]

theorem nodup_wakesOf_claimed {tasks : List String} {claimed : List WakeRequest} (h : (claimed.map (·.id)).Nodup) :
    ((wakesOf (buildWakeupExecutionBundle env tasks (claimed.map (·.read env))).groups).map (·.id)).Nodup := by
  have hread : (claimed.map (·.read env)).map (·.id) = claimed.map (·.id) := by
    rw [List.map_map]
    rfl
  exact nodup_wakesOf_bundle (hread ▸ h)

/-- The loop over the groups of the claimed wakes gives each an outcome exactly when the groups are cleared. -/
theorem runGroups_resolved {t : Tick} {metadata : Fields} {pending : List Fields} {surroundings : Surroundings}
    (hworkspace : text env metadata "workspace_id" ≠ "") (htenant : text env metadata "tenant_id" ≠ "")
    {after claimed : List WakeRequest} (hne : claimed ≠ []) (hclaimed : Claimed after claimed) :
    (∀ wake ∈ claimed, ¬ Has Unresolved
        (runGroups env t metadata pending surroundings (groupsOf env t claimed) 0 ⟨after, [], [], none⟩).1.rows wake.id) ↔
      Cleared t.groups (groupsOf env t claimed) := by
  have hgroups : groupsOf env t claimed = (buildWakeupExecutionBundle env t.tasks (claimed.map (·.read env))).groups :=
    groupsOf_claimed hne
  have hunique : ((wakesOf (groupsOf env t claimed)).map (·.id)).Nodup := by
    rw [hgroups]
    exact nodup_wakesOf_claimed hclaimed.nodup
  rw [← finalized_iff hunique, hgroups]
  constructor
  · intro h item hitem
    obtain ⟨wake, hwake, rfl⟩ := List.mem_map.mp (mem_wakesOf_bundle.mp hitem)
    by_contra hnot
    exact h wake hwake ((has_runGroups hworkspace htenant wake.id 0 _).mpr ⟨hclaimed.unresolved wake hwake, hnot⟩)
  · intro h wake hwake hhas
    have hitem := h (wake.read env) (mem_wakesOf_bundle.mpr (List.mem_map_of_mem hwake))
    exact ((has_runGroups hworkspace htenant wake.id 0 _).mp hhas).2 hitem

/-- Every wake that a tick claims gets its outcome exactly when the claim does not raise once it is committed, the
    bundle is built, and the tick ends at no group with wakes left in it or after it. -/
theorem claimed_wakes_resolved {rows : List WakeRequest} (hids : (rows.map (·.id)).Nodup) (t : Tick) :
    Resolved env rows t ↔
      t.claims env rows = [] ∨
        t.claim = none ∧ (∃ surroundings, t.bundle = .ok surroundings) ∧
          Cleared t.groups (groupsOf env t (t.claims env rows)) := by
  rw [resolved_iff]
  by_cases hclaims : t.claims env rows = []
  · exact ⟨fun _ => .inl hclaims, fun _ wake hwake => by rw [hclaims] at hwake; cases hwake⟩
  · rw [or_iff_right hclaims]
    obtain ⟨metadata, pending, after, -, hworkspace, htenant, hclaimed,
      ⟨hbroken, hrows, -⟩ | ⟨surroundings, hclaim, hbundle, hrun⟩⟩ :=
      run_of_claims hids hclaims
    · refine iff_of_false (fun h => ?_) fun h => hbroken ⟨h.1, h.2.1⟩
      -- the first of the wakes is left as it was claimed
      obtain ⟨wake, hwake⟩ := List.exists_mem_of_ne_nil _ hclaims
      rw [hrows] at h
      exact h wake hwake (hclaimed.unresolved wake hwake)
    · have hresolved := @runGroups_resolved env t metadata pending surroundings hworkspace htenant after _ hclaims hclaimed
      rw [hrun]
      exact ⟨fun h => ⟨hclaim, ⟨surroundings, hbundle⟩, hresolved.mp h⟩, fun h => hresolved.mpr h.2.2⟩

/-! ### One wake -/

/-- A tick in which nothing raises. -/
def smoothTick : Tick where
  tasks := []
  metadata := [("workspace_id", .string "w1"), ("tenant_id", .string "t1")]
  resolveTenant := .ok ""
  pendingSchedules := .ok []
  now := 10
  dueBefore := 10
  limit := 5
  claim := none
  returned := ⟨id, fun _ => .refl _⟩
  bundle := .ok .none
  defaultProvider _ := ""
  groups _ := ⟨none, .ok [], none, 11⟩

theorem claimed_wakes_resolved_smooth :
    (smoothTick.claims texts [reportWake "owner"]).length = 1 ∧ Resolved texts [reportWake "owner"] smoothTick := by
  refine ⟨by decide, (@claimed_wakes_resolved texts [reportWake "owner"] (List.nodup_singleton _) smoothTick).mpr (.inr ?_)⟩
  refine ⟨rfl, ⟨_, rfl⟩, fun i g _ hstops => ?_⟩
  simp [GroupSteps.stops, smoothTick] at hstops

/-- The bundle of a claimed wake cannot be built, and the wake stays claimed. -/
theorem claimed_wakes_resolved_stranded :
    ¬ Resolved texts [reportWake "owner"] { smoothTick with bundle := .error .exception } := by
  intro h
  have hstatus := h (claimRow 10 (reportWake "owner")) (List.mem_of_getElem? (i := 0) rfl)
    (claimRow 10 (reportWake "owner"))
    (List.mem_of_getElem? (i := 0) rfl) rfl
  revert hstatus
  decide

end Empyralis.Server.Heartbeat
