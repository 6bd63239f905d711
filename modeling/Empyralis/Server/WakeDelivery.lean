import Empyralis.Server.StrandedWakes

/-! Which of the wakes that a tick executes reach their agents: what was asked for is in the turn, and the turn
    runs as the agent that was asked. -/

namespace Empyralis.Server.Heartbeat
open Text (strip)
open Wakes

variable (env : Env)

/-- A column of JSON comes back as a dictionary, or as its text. -/
def Env.Faithful : Prop :=
  ∀ fields, env.driver fields = .object fields ∨
    ∃ text, env.driver fields = .string text ∧ strip text ≠ "" ∧ env.loads text = some (.object fields)

/-- A wake with a task or a goal. -/
def IsWork (wake : WakeRequest) : Prop := strip wake.triggerKind = "task_assigned" ∨ strip wake.triggerKind = "goal"

/-- The turn runs as the agent that the wake names, with its task or its goal. -/
structure Serves (turn : TurnRequest) (wake : WakeRequest) : Prop where
  agent : IsWork wake → text env wake.payload "agent_id" ≠ "" → turn.runsAs env = text env wake.payload "agent_id"
  task : strip wake.triggerKind = "task_assigned" → text env wake.payload "task_id" ≠ "" →
    CarriesTask turn (taskOf env wake.payload)
  goal : strip wake.triggerKind = "goal" → text env wake.payload "goal_id" ≠ "" →
    CarriesGoal env turn (goalOf env wake.payload)

/-- The wake asks for what the first of its kind in its group asks for, and for the agent that leads the group. -/
structure AsFirst (metadata : Fields) (wakes : List Item) (wake : WakeRequest) : Prop where
  agent : IsWork wake → text env wake.payload "agent_id" ≠ "" →
    leadingAgent env wakes metadata = text env wake.payload "agent_id"
  task : strip wake.triggerKind = "task_assigned" → text env wake.payload "task_id" ≠ "" →
    ∀ first, firstTask env wakes = some first → taskOf env first = taskOf env wake.payload
  goal : strip wake.triggerKind = "goal" → text env wake.payload "goal_id" ≠ "" →
    ∀ first, firstGoal env wakes = some first → goalOf env first = goalOf env wake.payload

variable {env}

theorem wakeRequestPayload_read (hfaithful : Env.Faithful env) (wake : WakeRequest) :
    wakeRequestPayload env (wake.read env) = wake.payload := by
  obtain hobject | ⟨text, htext, hwritten, hloads⟩ := hfaithful wake.payload
  · simp only [wakeRequestPayload, WakeRequest.read, hobject]
  · simp only [wakeRequestPayload, WakeRequest.read, htext, if_neg hwritten, hloads]

/-- The first of the payloads that name something is there when one of them does. -/
theorem exists_first {payloads : List Fields} {named : Fields → Bool} {payload : Fields} (h : payload ∈ payloads)
    (hnamed : named payload = true) : ∃ first, payloads.find? named = some first := by
  obtain ⟨first, hfirst⟩ := Option.isSome_iff_exists.mp (List.find?_isSome.mpr ⟨payload, h, hnamed⟩)
  exact ⟨first, hfirst⟩

section Turn

variable {defaultProvider : String → String} {tasks : List String} {metadata : Fields} {pendingStarted : List Fields}
  {authorityTier : Tier} {wakes : List Item} {surroundings : Surroundings} {turn : TurnRequest} {wake : WakeRequest}

/-- A turn serves a wake exactly if it asks for what the first of its kind asks for. -/
theorem serves_iff (hfaithful : Env.Faithful env)
    (h : buildHeartbeatTurnRequest env defaultProvider tasks metadata pendingStarted authorityTier wakes
      surroundings = .ok turn) (hin : wake.read env ∈ wakes) :
    Serves env turn wake ↔ AsFirst env metadata wakes wake := by
  have hagent : turn.runsAs env = leadingAgent env wakes metadata := runsAs_eq h
  have htask : strip wake.triggerKind = "task_assigned" → text env wake.payload "task_id" ≠ "" →
      ∃ first, firstTask env wakes = some first := by
    intro hkind hid
    refine exists_first (List.mem_map.mpr ⟨wake.read env, List.mem_filter.mpr ⟨hin, decide_eq_true hkind⟩, rfl⟩) ?_
    rw [wakeRequestPayload_read hfaithful]
    exact decide_eq_true hid
  have hgoal : strip wake.triggerKind = "goal" → text env wake.payload "goal_id" ≠ "" →
      ∃ first, firstGoal env wakes = some first := by
    intro hkind hid
    refine exists_first (List.mem_map.mpr ⟨wake.read env, List.mem_filter.mpr ⟨hin, decide_eq_true hkind⟩, rfl⟩) ?_
    rw [wakeRequestPayload_read hfaithful]
    exact decide_eq_true hid
  constructor
  · intro hserves
    refine ⟨fun hwork hnamed => hagent ▸ hserves.agent hwork hnamed, ?_, ?_⟩
    · intro hkind hid first hfirst
      exact (carriesTask_iff h hfirst _).mp (hserves.task hkind hid)
    · intro hkind hid first hfirst
      exact (carriesGoal_iff h hfirst _).mp (hserves.goal hkind hid)
  · intro hfirst
    refine ⟨fun hwork hnamed => hagent.trans (hfirst.agent hwork hnamed), ?_, ?_⟩
    · intro hkind hid
      obtain ⟨first, heq⟩ := htask hkind hid
      exact (carriesTask_iff h heq _).mpr (hfirst.task hkind hid first heq)
    · intro hkind hid
      obtain ⟨first, heq⟩ := hgoal hkind hid
      exact (carriesGoal_iff h heq _).mpr (hfirst.goal hkind hid first heq)

end Turn

/-! ### The turns of a tick -/

def Execution.Executed (e : Execution) : Prop := ∃ runId, e.outcome = .executed runId

/-- The turn that a group comes to, with the wakes that it finalizes. -/
def groupExecution (env : Env) (t : Tick) (metadata : Fields) (pending : List Fields) (surroundings : Surroundings)
    (steps : GroupSteps) (g : Group) : Option Execution :=
  if g.heartbeatTasks.isEmpty && g.wakeRequests.isEmpty then none
  else
    match groupTurn env t metadata pending surroundings steps g, steps.execute with
    | .error _, _ | .ok _, .error .exit => none
    | .ok turn, .error _ => some ⟨turn, g.wakeRequests, .failed, steps.done g⟩
    | .ok turn, .ok payload => some ⟨turn, g.wakeRequests, .executed (runIdValue env payload), steps.done g⟩

/-- The turns of the groups up to the one at which the tick ends. -/
def executionsOf (env : Env) (t : Tick) (metadata : Fields) (pending : List Fields) (surroundings : Surroundings)
    (steps : Nat → GroupSteps) : List Group → Nat → List Execution
  | [], _ => []
  | g :: groups, i =>
    (groupExecution env t metadata pending surroundings (steps i) g).toList ++
      if (steps i).stops g then [] else executionsOf env t metadata pending surroundings steps groups (i + 1)

/-- No group before this place is one at which the tick ends. -/
def Reached (steps : Nat → GroupSteps) (groups : List Group) (i : Nat) : Prop :=
  ∀ j < i, ∀ g, groups[j]? = some g → (steps j).stops g = false

section Loop

variable {t : Tick} {metadata : Fields} {pending : List Fields} {surroundings : Surroundings}

theorem finalizeGroup_execution (p : Progress) (steps : GroupSteps) (turn : TurnRequest) (wakes : List Item)
    (outcome : Outcome) :
    (finalizeGroup env p steps turn wakes outcome).1.executions =
      p.executions ++ [⟨turn, wakes, outcome, wakes.take (steps.finalize.elim wakes.length (·.1))⟩] := by
  unfold finalizeGroup
  split
  · rename_i hempty
    obtain rfl := List.isEmpty_iff.mp hempty
    simp
  · cases hf : steps.finalize with
    | none => simp
    | some raises => simp

/-- A round of the loop adds the turn of its group, and finalizes what that records. -/
theorem runGroup_execution (p : Progress) (steps : GroupSteps) (g : Group) :
    (runGroup env t metadata pending surroundings p steps g).1.executions =
        p.executions ++ (groupExecution env t metadata pending surroundings steps g).toList ∧
      (runGroup env t metadata pending surroundings p steps g).1.rows =
        (groupExecution env t metadata pending surroundings steps g).elim p.rows fun e =>
          finalizeWakeRequests env p.rows steps.time (e.finalized.map (·.id)) e.outcome := by
  unfold runGroup groupExecution
  split
  · simp
  · cases hturn : groupTurn env t metadata pending surroundings steps g with
    | error fault => cases fault <;> simp
    | ok turn =>
      have hbuild : steps.build = none := by
        cases hbuild : steps.build with
        | none => rfl
        | some fault =>
          rw [groupTurn, hbuild] at hturn
          cases hturn
      cases hexecute : steps.execute with
      | error fault =>
        have hexecution := @finalizeGroup_execution env p steps turn g.wakeRequests .failed
        have hrows := (@finalizeGroup_rows env p steps turn g.wakeRequests .failed).1
        cases fault with
        | exit => simp
        | valueError message =>
          rw [GroupSteps.done, GroupSteps.count, hbuild, hexecute]
          exact ⟨hexecution, hrows⟩
        | exception =>
          rw [GroupSteps.done, GroupSteps.count, hbuild, hexecute]
          exact ⟨hexecution, hrows⟩
      | ok payload =>
        have hexecution := @finalizeGroup_execution env p steps turn g.wakeRequests (.executed (runIdValue env payload))
        have hrows := (@finalizeGroup_rows env p steps turn g.wakeRequests (.executed (runIdValue env payload))).1
        rw [GroupSteps.done, GroupSteps.count, hbuild, hexecute]
        exact ⟨hexecution, hrows⟩

theorem runGroups_executions (hworkspace : text env metadata "workspace_id" ≠ "")
    (htenant : text env metadata "tenant_id" ≠ "") {groups : List Group} : ∀ (i : Nat) (p : Progress),
      (runGroups env t metadata pending surroundings groups i p).1.executions =
        p.executions ++ executionsOf env t metadata pending surroundings t.groups groups i := by
  induction groups with
  | nil => exact fun i p => (List.append_nil _).symm
  | cons g groups ih =>
    intro i p
    have hstops := (@runGroup_rows env t metadata pending surroundings hworkspace htenant p (t.groups i) g).2
    have hround := (@runGroup_execution env t metadata pending surroundings p (t.groups i) g).1
    rw [runGroups, executionsOf, ← hstops, ← List.append_assoc, ← hround]
    generalize runGroup env t metadata pending surroundings p (t.groups i) g = round
    obtain ⟨q, stopped⟩ := round
    cases stopped with
    | some response => simp
    | none => simpa using ih (i + 1) q

theorem executionsOf_shift (steps : Nat → GroupSteps) (groups : List Group) (i : Nat) :
    executionsOf env t metadata pending surroundings steps groups (i + 1) =
      executionsOf env t metadata pending surroundings (fun i => steps (i + 1)) groups i := by
  induction groups generalizing i with
  | nil => rfl
  | cons g groups ih => rw [executionsOf, executionsOf, ih]

theorem reached_succ {steps : Nat → GroupSteps} {g : Group} {groups : List Group} {i : Nat} :
    Reached steps (g :: groups) (i + 1) ↔ (steps 0).stops g = false ∧ Reached (fun i => steps (i + 1)) groups i := by
  constructor
  · exact fun h => ⟨h 0 (Nat.succ_pos i) g rfl, fun j hj next hnext => h (j + 1) (Nat.succ_lt_succ hj) next hnext⟩
  · rintro ⟨hhead, htail⟩ j hj next hnext
    cases j with
    | zero =>
      obtain rfl : g = next := by simpa using hnext
      exact hhead
    | succ j => exact htail j (Nat.lt_of_succ_lt_succ hj) next hnext

/-- The turns are those of the groups that are reached. -/
theorem mem_executionsOf {groups : List Group} {e : Execution} : ∀ {steps : Nat → GroupSteps},
    e ∈ executionsOf env t metadata pending surroundings steps groups 0 ↔
      ∃ i g, groups[i]? = some g ∧ Reached steps groups i ∧
        groupExecution env t metadata pending surroundings (steps i) g = some e := by
  induction groups with
  | nil => exact fun {steps} => by simp [executionsOf]
  | cons g groups ih =>
    intro steps
    rw [executionsOf, executionsOf_shift, List.mem_append, Option.mem_toList]
    constructor
    · rintro (hhead | hrest)
      · exact ⟨0, g, rfl, fun j hj => absurd hj (Nat.not_lt_zero j), hhead⟩
      · split at hrest
        · cases hrest
        · rename_i hstops
          obtain ⟨i, next, hnext, hreached, he⟩ := ih.mp hrest
          exact ⟨i + 1, next, hnext, reached_succ.mpr ⟨Bool.eq_false_iff.mpr hstops, hreached⟩, he⟩
    · rintro ⟨i, next, hnext, hreached, he⟩
      cases i with
      | zero =>
        obtain rfl : g = next := by simpa using hnext
        exact .inl he
      | succ i =>
        obtain ⟨hstops, hreached⟩ := reached_succ.mp hreached
        refine .inr ?_
        rw [hstops, if_neg Bool.false_ne_true]
        exact ih.mpr ⟨i, next, hnext, hreached, he⟩

theorem groupExecution_wakes {steps : GroupSteps} {g : Group} {e : Execution}
    (h : groupExecution env t metadata pending surroundings steps g = some e) :
    e.wakeRequests = g.wakeRequests ∧ e.finalized = steps.done g := by
  unfold groupExecution at h
  split at h
  · cases h
  · split at h
    · cases h
    · cases h
    · cases h
      exact ⟨rfl, rfl⟩
    · cases h
      exact ⟨rfl, rfl⟩

theorem executionsOf_sublist (steps : Nat → GroupSteps) (groups : List Group) (i : Nat) :
    ((executionsOf env t metadata pending surroundings steps groups i).map (·.wakeRequests)).Sublist
      (groups.map (·.wakeRequests)) := by
  induction groups generalizing i with
  | nil => exact List.Sublist.refl []
  | cons g groups ih =>
    have hrest : ((if (steps i).stops g then []
        else executionsOf env t metadata pending surroundings steps groups (i + 1)).map (·.wakeRequests)).Sublist
          (groups.map (·.wakeRequests)) := by
      split
      · exact List.nil_sublist _
      · exact ih (i + 1)
    rw [executionsOf, List.map_append, List.map_cons]
    cases he : groupExecution env t metadata pending surroundings (steps i) g with
    | none => exact hrest.cons _
    | some e =>
      rw [← (groupExecution_wakes he).1]
      exact hrest.cons_cons _

/-- No wake is in the groups of two turns. -/
theorem executionsOf_pairwise {groups : List Group} (h : ((wakesOf groups).map (·.id)).Nodup)
    (steps : Nat → GroupSteps) :
    (executionsOf env t metadata pending surroundings steps groups 0).Pairwise
      fun e other => ∀ item ∈ e.wakeRequests, item ∉ other.wakeRequests := by
  have hgroups : (groups.map (·.wakeRequests)).Pairwise fun wakes other => ∀ item ∈ wakes, item ∉ other := by
    rw [wakesOf, List.map_flatMap, List.nodup_flatMap] at h
    refine List.pairwise_map.mpr (h.2.imp fun hapart item hitem hother => ?_)
    exact hapart (List.mem_map_of_mem hitem) (List.mem_map_of_mem hother)
  exact List.pairwise_map.mp (hgroups.sublist (executionsOf_sublist steps groups 0))

/-- A turn of the executed status that finalizes a wake of this id. -/
def Finalizes (e : Execution) (id : Token) : Prop := e.Executed ∧ id ∈ e.finalized.map (·.id)

theorem executed_status (outcome : Outcome) : outcome.update.status = .executed ↔
    ∃ runId, outcome = .executed runId := by
  cases outcome with
  | executed runId => exact ⟨fun _ => ⟨runId, rfl⟩, fun _ => rfl⟩
  | failed => exact ⟨nofun, nofun⟩

/-- What a round makes of the rows of an id. -/
theorem executed_round {p : Progress} {steps : GroupSteps} {g : Group} {id : Token}
    (hrow : Has (fun _ => True) p.rows id) :
    Has (fun _ => True) (runGroup env t metadata pending surroundings p steps g).1.rows id ∧
      (Has (· = .executed) (runGroup env t metadata pending surroundings p steps g).1.rows id ↔
        (∃ e ∈ (groupExecution env t metadata pending surroundings steps g).toList, Finalizes e id) ∨
          Has (· = .executed) p.rows id ∧
            ∀ e ∈ (groupExecution env t metadata pending surroundings steps g).toList,
              id ∉ e.finalized.map (·.id)) := by
  rw [(runGroup_execution p steps g).2]
  cases groupExecution env t metadata pending surroundings steps g with
  | none => simpa using hrow
  | some e =>
    rw [Option.elim_some, has_finalize, has_finalize, executed_status]
    by_cases hin : id ∈ e.finalized.map (·.id)
    · rw [if_pos hin, if_pos hin]
      refine ⟨⟨trivial, hrow⟩, ?_⟩
      constructor
      · exact fun h => .inl ⟨e, List.mem_singleton_self e, h.1, hin⟩
      · rintro (⟨other, hother, hexecuted, -⟩ | ⟨-, hout⟩)
        · obtain rfl := List.mem_singleton.mp hother
          exact ⟨hexecuted, hrow⟩
        · exact absurd hin (hout e (List.mem_singleton_self e))
    · rw [if_neg hin, if_neg hin]
      refine ⟨hrow, ?_⟩
      constructor
      · refine fun h => .inr ⟨h, fun other hother => ?_⟩
        obtain rfl := List.mem_singleton.mp hother
        exact hin
      · rintro (⟨other, hother, -, hid⟩ | ⟨h, -⟩)
        · obtain rfl := List.mem_singleton.mp hother
          exact absurd hid hin
        · exact h

theorem executionsOf_finalized {steps : Nat → GroupSteps} {groups : List Group} {i : Nat} {e : Execution}
    (h : e ∈ executionsOf env t metadata pending surroundings steps groups i) {item : Item}
    (hitem : item ∈ e.finalized) :
    item ∈ wakesOf groups := by
  induction groups generalizing i with
  | nil => cases h
  | cons g groups ih =>
    rw [wakesOf, List.flatMap_cons, List.mem_append]
    obtain hhead | hrest := List.mem_append.mp h
    · rw [(groupExecution_wakes (Option.mem_toList.mp hhead)).2] at hitem
      exact .inl (List.mem_of_mem_take hitem)
    · split at hrest
      · cases hrest
      · exact .inr (ih hrest)

/-- The rows that the loop leaves as executed are those that a turn has finalized so. -/
theorem executed_iff (hworkspace : text env metadata "workspace_id" ≠ "") (htenant : text env metadata "tenant_id" ≠ "")
    {id : Token} {groups : List Group} : ∀ {i : Nat} {p : Progress}, ((wakesOf groups).map (·.id)).Nodup →
      Has (fun _ => True) p.rows id →
      (Has (· = .executed) (runGroups env t metadata pending surroundings groups i p).1.rows id ↔
        (∃ e ∈ executionsOf env t metadata pending surroundings t.groups groups i, Finalizes e id) ∨
          Has (· = .executed) p.rows id ∧
            ∀ e ∈ executionsOf env t metadata pending surroundings t.groups groups i, id ∉ e.finalized.map (·.id)) := by
  induction groups with
  | nil => exact fun {i p} _ _ => by simp [runGroups, executionsOf]
  | cons g groups ih =>
    intro i p hnodup hrow
    obtain ⟨hrow', hround⟩ := @executed_round env t metadata pending surroundings p (t.groups i) g id hrow
    have hstops := (@runGroup_rows env t metadata pending surroundings hworkspace htenant p (t.groups i) g).2
    have hsplit : wakesOf (g :: groups) = g.wakeRequests ++ wakesOf groups := rfl
    rw [hsplit, List.map_append, List.nodup_append] at hnodup
    obtain ⟨-, hrest, hapart⟩ := hnodup
    -- a wake that this group finalizes is in no later group
    have honce : ∀ e ∈ (groupExecution env t metadata pending surroundings (t.groups i) g).toList,
        id ∈ e.finalized.map (·.id) →
          ∀ other ∈ executionsOf env t metadata pending surroundings t.groups groups (i + 1),
            id ∉ other.finalized.map (·.id) := by
      intro e he hid other hother hid'
      rw [(groupExecution_wakes (Option.mem_toList.mp he)).2] at hid
      obtain ⟨item, hitem, heq⟩ := List.mem_map.mp hid
      obtain ⟨later, hlater, heq'⟩ := List.mem_map.mp hid'
      have hwake : item.id ∈ g.wakeRequests.map (·.id) := List.mem_map_of_mem (List.mem_of_mem_take hitem)
      exact hapart _ hwake _ (List.mem_map_of_mem (executionsOf_finalized hother hlater)) (heq.trans heq'.symm)
    rw [runGroups, executionsOf, ← hstops]
    generalize runGroup env t metadata pending surroundings p (t.groups i) g = round at *
    obtain ⟨q, stopped⟩ := round
    cases stopped with
    | some response => simpa using hround
    | none =>
      have hlater := @ih (i + 1) q hrest hrow'
      simp only [Option.isSome_none, Bool.false_eq_true, if_false, List.mem_append]
      rw [hlater, hround]
      constructor
      · rintro (⟨e, he, hfinal⟩ | ⟨⟨e, he, hfinal⟩ | ⟨hp, hhead⟩, hnone⟩)
        · exact .inl ⟨e, .inr he, hfinal⟩
        · exact .inl ⟨e, .inl he, hfinal⟩
        · exact .inr ⟨hp, fun e he => he.elim (hhead e) (hnone e)⟩
      · rintro (⟨e, he | he, hfinal⟩ | ⟨hp, hnone⟩)
        · exact .inr ⟨.inl ⟨e, he, hfinal⟩, honce e he hfinal.2⟩
        · exact .inl ⟨e, he, hfinal⟩
        · exact .inr ⟨.inr ⟨hp, fun e he => hnone e (.inl he)⟩, fun e he => hnone e (.inr he)⟩

theorem groupTurn_build {steps : GroupSteps} {g : Group} {turn : TurnRequest}
    (h : groupTurn env t metadata pending surroundings steps g = .ok turn) :
    steps.build = none ∧ buildHeartbeatTurnRequest env t.defaultProvider g.heartbeatTasks metadata pending
      g.authorityTier g.wakeRequests surroundings = .ok turn := by
  unfold groupTurn at h
  split at h
  · cases h
  · refine ⟨‹_›, ?_⟩
    generalize buildHeartbeatTurnRequest env t.defaultProvider g.heartbeatTasks metadata pending g.authorityTier
      g.wakeRequests surroundings = built at h ⊢
    cases built with
    | error message => cases h
    | ok built =>
      cases h
      rfl

/-- A turn that is recorded as executed was built, and its execution gave a result. -/
theorem groupExecution_executed {steps : GroupSteps} {g : Group} {e : Execution}
    (h : groupExecution env t metadata pending surroundings steps g = some e) (hexecuted : e.Executed) :
    groupTurn env t metadata pending surroundings steps g = .ok e.turn ∧ ∃ payload, steps.execute = .ok payload := by
  unfold groupExecution at h
  split at h
  · cases h
  · split at h
    · cases h
    · cases h
    · cases h
      obtain ⟨runId, hfailed⟩ := hexecuted
      cases hfailed
    · cases h
      exact ⟨‹_›, _, ‹_›⟩

/-- A group with wakes whose turn is built and executed is recorded as such. -/
theorem exists_execution {steps : GroupSteps} {g : Group} {turn : TurnRequest} {payload : Fields}
    (hturn : groupTurn env t metadata pending surroundings steps g = .ok turn) (hexecute : steps.execute = .ok payload)
    (hwakes : g.wakeRequests ≠ []) :
    groupExecution env t metadata pending surroundings steps g =
      some ⟨turn, g.wakeRequests, .executed (runIdValue env payload), steps.done g⟩ := by
  unfold groupExecution
  rw [List.isEmpty_eq_false_iff.mpr hwakes, Bool.and_false, if_neg Bool.false_ne_true, hturn, hexecute]

end Loop

/-! ### What was executed has reached its agent -/

/-- Nothing raises in the tick. -/
def Tick.Smooth (t : Tick) : Prop :=
  t.claim = none ∧ (∃ surroundings, t.bundle = .ok surroundings) ∧
    ∀ i, (t.groups i).build = none ∧ (∃ payload, (t.groups i).execute = .ok payload) ∧ (t.groups i).finalize = none

/-- A claimed wake that the tick leaves as executed was given to an executed turn that serves it, no wake is in the
    groups of two turns, and where nothing raises each is in that of an executed one. -/
structure Delivered (env : Env) (rows : List WakeRequest) (t : Tick) : Prop where
  reached : ∀ wake ∈ (executeHeartbeatRun env rows t).claimed,
    Has (· = .executed) (executeHeartbeatRun env rows t).rows wake.id →
      ∃ e ∈ (executeHeartbeatRun env rows t).executions, e.Executed ∧ wake.read env ∈ e.wakeRequests ∧
        Serves env e.turn wake
  apart : ∀ wake ∈ (executeHeartbeatRun env rows t).claimed, (executeHeartbeatRun env rows t).executions.Pairwise
    fun e other => ¬ (wake.read env ∈ e.wakeRequests ∧ wake.read env ∈ other.wakeRequests)
  placed : t.Smooth → ∀ wake ∈ (executeHeartbeatRun env rows t).claimed,
    ∃ e ∈ (executeHeartbeatRun env rows t).executions, e.Executed ∧ wake.read env ∈ e.wakeRequests

/-- In every group that the tick reaches and executes, each wake that is finalized asks for what the first of its
    kind asks for, and for the agent that leads the group. -/
def Agreeing (env : Env) (rows : List WakeRequest) (t : Tick) : Prop :=
  t.claim = none → (∃ surroundings, t.bundle = .ok surroundings) →
    ∀ i g, (groupsOf env t (t.claims env rows))[i]? = some g → Reached t.groups (groupsOf env t (t.claims env rows)) i →
      (t.groups i).build = none → (∃ payload, (t.groups i).execute = .ok payload) →
        ∀ wake ∈ t.claims env rows, wake.read env ∈ (t.groups i).done g → AsFirst env t.metadata g.wakeRequests wake

theorem asFirst_congr {metadata other : Fields} (h : metadata.get "active_agent_install_id" =
    other.get "active_agent_install_id")
    {wakes : List Item} {wake : WakeRequest} : AsFirst env metadata wakes wake ↔ AsFirst env other wakes wake := by
  have hsame : leadingAgent env wakes metadata = leadingAgent env wakes other := by
    rw [leadingAgent, leadingAgent, text_congr h]
  exact ⟨fun hf => ⟨hsame ▸ hf.agent, hf.task, hf.goal⟩, fun hf => ⟨hsame ▸ hf.agent, hf.task, hf.goal⟩⟩

section Claimed

variable {t : Tick} {metadata : Fields} {pending : List Fields} {surroundings : Surroundings}
  {after claimed : List WakeRequest}

/-- An item of the groups with the id of a claimed wake is that wake. -/
theorem read_of_id (hne : claimed ≠ []) (hclaimed : Claimed after claimed) {item : Item}
    (hitem : item ∈ wakesOf (groupsOf env t claimed)) {wake : WakeRequest} (hwake : wake ∈ claimed)
    (hid : item.id = wake.id) :
    item = wake.read env := by
  rw [groupsOf_claimed hne, mem_wakesOf_bundle] at hitem
  obtain ⟨other, hother, rfl⟩ := List.mem_map.mp hitem
  have hsame : other = wake := List.inj_on_of_nodup_map hclaimed.nodup hother hwake hid
  rw [hsame]

/-- A wake that ends as executed is one that an executed turn has finalized. -/
theorem executed_claimed (hworkspace : text env metadata "workspace_id" ≠ "")
    (htenant : text env metadata "tenant_id" ≠ "")
    (hne : claimed ≠ []) (hclaimed : Claimed after claimed) {wake : WakeRequest} (hwake : wake ∈ claimed) :
    Has (· = .executed) (runGroups env t metadata pending surroundings (groupsOf env t claimed) 0
        ⟨after, [], [], none⟩).1.rows wake.id ↔
      ∃ e ∈ executionsOf env t metadata pending surroundings t.groups (groupsOf env t claimed) 0,
        e.Executed ∧ wake.read env ∈ e.finalized := by
  have hnodup : ((wakesOf (groupsOf env t claimed)).map (·.id)).Nodup := by
    rw [groupsOf_claimed hne]
    exact nodup_wakesOf_claimed hclaimed.nodup
  obtain ⟨row, hrow, hid, -⟩ := hclaimed.unresolved wake hwake
  have hiff := @executed_iff env t metadata pending surroundings hworkspace htenant wake.id (groupsOf env t claimed) 0
    ⟨after, [], [], none⟩ hnodup ⟨row, hrow, hid, trivial⟩
  rw [hiff, or_iff_left fun h => hclaimed.unexecuted wake hwake h.1]
  refine exists_congr fun e => and_congr_right fun he => and_congr_right fun _ => ?_
  constructor
  · intro hin
    obtain ⟨item, hitem, heq⟩ := List.mem_map.mp hin
    rw [← read_of_id hne hclaimed (executionsOf_finalized he hitem) hwake heq]
    exact hitem
  · exact fun hin => List.mem_map.mpr ⟨_, hin, rfl⟩

theorem apart_claimed (hne : claimed ≠ []) (hclaimed : Claimed after claimed) (item : Item) :
    (executionsOf env t metadata pending surroundings t.groups (groupsOf env t claimed) 0).Pairwise
      fun e other => ¬ (item ∈ e.wakeRequests ∧ item ∈ other.wakeRequests) := by
  have hnodup : ((wakesOf (groupsOf env t claimed)).map (·.id)).Nodup := by
    rw [groupsOf_claimed hne]
    exact nodup_wakesOf_claimed hclaimed.nodup
  exact (executionsOf_pairwise hnodup t.groups).imp fun hapart hboth => hapart item hboth.1 hboth.2

theorem eq_of_shared (hne : claimed ≠ []) (hclaimed : Claimed after claimed) {item : Item} {e other : Execution}
    (he : e ∈ executionsOf env t metadata pending surroundings t.groups (groupsOf env t claimed) 0)
    (hother : other ∈ executionsOf env t metadata pending surroundings t.groups (groupsOf env t claimed) 0)
    (hin : item ∈ e.wakeRequests) (hin' : item ∈ other.wakeRequests) : e = other := by
  have hapart := @apart_claimed env t metadata pending surroundings after claimed hne hclaimed item
  have hshared := List.Pairwise.forall_of_forall_of_flip
    (R := fun e other => item ∈ e.wakeRequests → item ∈ other.wakeRequests → e = other) (fun _ _ _ _ => rfl)
    (hapart.imp fun h hin hin' => absurd ⟨hin, hin'⟩ h) (hapart.imp fun h hin' hin => absurd ⟨hin, hin'⟩ h)
  exact hshared he hother hin hin'

theorem reached_iff (hfaithful : Env.Faithful env) (hworkspace : text env metadata "workspace_id" ≠ "")
    (htenant : text env metadata "tenant_id" ≠ "") (hne : claimed ≠ []) (hclaimed : Claimed after claimed) :
    (∀ wake ∈ claimed, (∃ e ∈ executionsOf env t metadata pending surroundings t.groups (groupsOf env t claimed) 0,
        e.Executed ∧ wake.read env ∈ e.finalized) →
      ∃ e ∈ executionsOf env t metadata pending surroundings t.groups (groupsOf env t claimed) 0,
        e.Executed ∧ wake.read env ∈ e.wakeRequests ∧ Serves env e.turn wake) ↔
      ∀ i g, (groupsOf env t claimed)[i]? = some g → Reached t.groups (groupsOf env t claimed) i →
        (t.groups i).build = none → (∃ payload, (t.groups i).execute = .ok payload) →
          ∀ wake ∈ claimed, wake.read env ∈ (t.groups i).done g → AsFirst env metadata g.wakeRequests wake := by
  constructor
  · rintro h i g hg hreached hbuild ⟨payload, hexecute⟩ wake hwake hdone
    have hin : wake.read env ∈ g.wakeRequests := List.mem_of_mem_take hdone
    obtain ⟨turn, hturn⟩ := @groupTurn_ok env t metadata pending surroundings hworkspace htenant (t.groups i) hbuild g
    have he := mem_executionsOf.mpr ⟨i, g, hg, hreached, exists_execution hturn hexecute (List.ne_nil_of_mem hin)⟩
    obtain ⟨e, he', -, hin', hserves⟩ := h wake hwake ⟨_, he, ⟨_, rfl⟩, hdone⟩
    obtain rfl := eq_of_shared hne hclaimed he he' hin hin'
    exact (serves_iff hfaithful (groupTurn_build hturn).2 hin).mp hserves
  · rintro h wake hwake ⟨e, he, hexecuted, hdone⟩
    obtain ⟨i, g, hg, hreached, hrecorded⟩ := mem_executionsOf.mp he
    obtain ⟨hturn, hexecute⟩ := groupExecution_executed hrecorded hexecuted
    obtain ⟨hbuild, hbuilt⟩ := groupTurn_build hturn
    obtain ⟨hwakes, hfinalized⟩ := groupExecution_wakes hrecorded
    rw [hfinalized] at hdone
    have hin : wake.read env ∈ g.wakeRequests := List.mem_of_mem_take hdone
    have hfirst := h i g hg hreached hbuild hexecute wake hwake hdone
    exact ⟨e, he, hexecuted, hwakes ▸ hin, (serves_iff hfaithful hbuilt hin).mpr hfirst⟩

theorem placed_smooth (hworkspace : text env metadata "workspace_id" ≠ "")
    (htenant : text env metadata "tenant_id" ≠ "")
    (hne : claimed ≠ []) (hsmooth : t.Smooth) {wake : WakeRequest} (hwake : wake ∈ claimed) :
    ∃ e ∈ executionsOf env t metadata pending surroundings t.groups (groupsOf env t claimed) 0,
      e.Executed ∧ wake.read env ∈ e.wakeRequests := by
  obtain ⟨g, hg, -, hin⟩ := @exists_group env t.tasks (claimed.map (·.read env)) (wake.read env)
    (List.mem_map_of_mem hwake)
  rw [← groupsOf_claimed hne] at hg
  obtain ⟨i, hi⟩ := List.mem_iff_getElem?.mp hg
  obtain ⟨hbuild, ⟨payload, hexecute⟩, -⟩ := hsmooth.2.2 i
  have hreached : Reached t.groups (groupsOf env t claimed) i := by
    intro j _ other _
    obtain ⟨hbuild, ⟨payload, hexecute⟩, hfinalize⟩ := hsmooth.2.2 j
    simp [GroupSteps.stops, hbuild, hexecute, hfinalize]
  obtain ⟨turn, hturn⟩ := @groupTurn_ok env t metadata pending surroundings hworkspace htenant (t.groups i) hbuild g
  exact ⟨_, mem_executionsOf.mpr ⟨i, g, hi, hreached, exists_execution hturn hexecute (List.ne_nil_of_mem hin)⟩,
    ⟨_, rfl⟩, hin⟩

end Claimed

/-- The executed wakes have reached their agents exactly when, in every group that is executed, each wake that is
    finalized agrees with the first of its kind. -/
theorem executed_wakes_delivered (hfaithful : Env.Faithful env) {rows : List WakeRequest}
    (hids : (rows.map (·.id)).Nodup)
    (t : Tick) : Delivered env rows t ↔ Agreeing env rows t := by
  by_cases hne : t.claims env rows = []
  · have hnone : ∀ wake, wake ∉ (executeHeartbeatRun env rows t).claimed := by
      intro wake
      rw [claimed_eq, hne]
      exact List.not_mem_nil
    refine iff_of_true ⟨fun wake h => absurd h (hnone wake), fun wake h => absurd h (hnone wake),
      fun _ wake h => absurd h (hnone wake)⟩ ?_
    intro _ _ i g _ _ _ _ wake hwake
    rw [hne] at hwake
    cases hwake
  · obtain ⟨metadata, pending, after, hscoped, hworkspace, htenant, hclaimed, hrun⟩ := run_of_claims hids hne
    have hof := @claimed_eq env rows t
    obtain ⟨hbroken, hrows, hnone⟩ | ⟨surroundings, hclaim, hbundle, hrun⟩ := hrun
    · refine iff_of_true ⟨?_, ?_, ?_⟩ fun hclaim hbundle => absurd ⟨hclaim, hbundle⟩ hbroken
      · intro wake hwake hexecuted
        rw [hrows] at hexecuted
        exact absurd hexecuted (hclaimed.unexecuted wake (hof ▸ hwake))
      · intro wake _
        rw [hnone]
        exact List.Pairwise.nil
      · exact fun hsmooth => absurd ⟨hsmooth.1, hsmooth.2.1⟩ hbroken
    · have hexecutions : (executeHeartbeatRun env rows t).executions = executionsOf env t metadata pending surroundings
          t.groups (groupsOf env t (t.claims env rows)) 0 := by
        rw [hrun]
        exact (runGroups_executions hworkspace htenant 0 _).trans (List.nil_append _)
      have hrows : (executeHeartbeatRun env rows t).rows = (runGroups env t metadata pending surroundings
          (groupsOf env t (t.claims env rows)) 0 ⟨after, [], [], none⟩).1.rows := by
        rw [hrun]
        rfl
      have hagent : metadata.get "active_agent_install_id" = t.metadata.get "active_agent_install_id" :=
        get_scopedMetadata hscoped (by decide)
      have hiff := @reached_iff env t metadata pending surroundings after _ hfaithful hworkspace htenant hne hclaimed
      constructor
      · intro h _ _ i g hg hreached hbuild hexecute wake hwake hdone
        refine (asFirst_congr hagent).mp (hiff.mp (fun wake hwake hexecuted => ?_) i g hg hreached hbuild hexecute wake hwake hdone)
        rw [← hexecutions]
        refine h.reached wake (hof ▸ hwake) ?_
        rw [hrows]
        exact (executed_claimed hworkspace htenant hne hclaimed hwake).mpr hexecuted
      · intro h
        refine ⟨?_, ?_, ?_⟩
        · intro wake hwake hexecuted
          rw [hof] at hwake
          rw [hrows] at hexecuted
          rw [hexecutions]
          refine hiff.mpr (fun i g hg hreached hbuild hexecute wake hwake hdone => ?_) wake hwake
            ((executed_claimed hworkspace htenant hne hclaimed hwake).mp hexecuted)
          exact (asFirst_congr hagent).mpr
            (h hclaim ⟨surroundings, hbundle⟩ i g hg hreached hbuild hexecute wake hwake hdone)
        · intro wake _
          rw [hexecutions]
          exact apart_claimed hne hclaimed _
        · intro hsmooth wake hwake
          rw [hexecutions]
          exact placed_smooth hworkspace htenant hne hsmooth (hof ▸ hwake)

/-! ### One task and two -/

/-- The driver gives dictionaries. -/
def decoded : Env := { texts with driver := .object }

theorem decoded_faithful : Env.Faithful decoded := fun _ => .inl rfl

/-- The wake of a second task, of another agent. -/
def summaryWake : WakeRequest :=
  persistWakeup ⟨⟨"wake_3", by decide +kernel, by decide⟩, 0, none, 0, 0⟩ "task_assigned" "task_assigned"
    "Task assigned: Summary"
    [("agent_id", .string "a2"), ("task_id", .string "t2"), ("task_title", .string "Summary"),
      ("task_description", .string ""), ("authority_tier", .string "owner")]
    [("agent_id", .string "a2"), ("task_id", .string "t2")]

/-- A second wake for the task of the first. -/
def reportAgain : WakeRequest := { reportWake "owner" with id := summaryWake.id }

/-- Two wakes for one task in one batch: the turn of the first is that of the second. -/
theorem executed_wakes_delivered_once :
    (smoothTick.claims decoded [reportWake "owner", reportAgain]).length = 2 ∧
      Delivered decoded [reportWake "owner", reportAgain] smoothTick := by
  refine ⟨by decide, ?_⟩
  refine (@executed_wakes_delivered decoded decoded_faithful [reportWake "owner", reportAgain] (by decide) smoothTick).mpr ?_
  have hclaims : smoothTick.claims decoded [reportWake "owner", reportAgain] =
      [claimRow 10 (reportWake "owner"), claimRow 10 reportAgain] := rfl
  have hgroups : groupsOf decoded smoothTick [claimRow 10 (reportWake "owner"), claimRow 10 reportAgain] =
      [buildGroup decoded [] .owner [(claimRow 10 (reportWake "owner")).read decoded,
        (claimRow 10 reportAgain).read decoded]] := rfl
  have hsame : ∀ wake ∈ [claimRow 10 (reportWake "owner"), claimRow 10 reportAgain],
      wake.payload = (reportWake "owner").payload ∧ wake.triggerKind = "task_assigned" := by
    intro wake hwake
    rcases List.mem_pair.mp hwake with rfl | rfl <;> exact ⟨rfl, rfl⟩
  intro _ _ i g hg _ _ _ wake hwake _
  rw [hclaims] at hg hwake
  rw [hgroups] at hg
  obtain rfl := List.mem_singleton.mp (List.mem_of_getElem? hg)
  obtain ⟨hpayload, hkind⟩ := hsame wake hwake
  refine ⟨fun _ _ => ?_, fun _ _ first hfirst => ?_, fun hgoal => ?_⟩
  · rw [hpayload]
    decide
  · obtain rfl : (reportWake "owner").payload = first := Option.some.inj hfirst
    rw [hpayload]
  · rw [hkind] at hgoal
    exact absurd hgoal (by decide)

/-- Two tasks in one batch: both wakes are executed, and the turn is that of the first. -/
theorem executed_wakes_delivered_lost :
    ([reportWake "owner", summaryWake].map (·.id)).Nodup ∧
      ¬ Delivered decoded [reportWake "owner", summaryWake] smoothTick := by
  refine ⟨by decide, fun h => ?_⟩
  have hexecuted : (executeHeartbeatRun decoded [reportWake "owner", summaryWake] smoothTick).rows.any
      (fun row => row.id = summaryWake.id && row.status = .executed) = true := by decide
  obtain ⟨row, hrow, hstatus⟩ := List.any_eq_true.mp hexecuted
  rw [Bool.and_eq_true, decide_eq_true_eq, decide_eq_true_eq] at hstatus
  obtain ⟨e, he, -, -, hserves⟩ := h.reached (claimRow 10 summaryWake) (List.mem_of_getElem? (i := 1) rfl)
    ⟨row, hrow, hstatus⟩
  have hagents : (executeHeartbeatRun decoded [reportWake "owner", summaryWake] smoothTick).executions.map
      (fun e => e.turn.runsAs decoded) = ["a1"] := by decide
  have hfirst : e.turn.runsAs decoded = "a1" := by
    have hmem : e.turn.runsAs decoded ∈ ["a1"] := hagents ▸ List.mem_map_of_mem he
    exact List.mem_singleton.mp hmem
  have hown := hserves.agent (.inl (by decide)) (by decide)
  rw [hfirst] at hown
  revert hown
  decide

end Empyralis.Server.Heartbeat
