import Empyralis.Lib.Grouping
import Empyralis.Server.WakeProducers
import Mathlib.Logic.Relation

/-! The groups of claimed wake requests, one for each authority tier (`build_wakeup_execution_bundle`), and
    the tier that a wake has when it gets there. -/

namespace Empyralis.Server.Wakes
open Text (strip)
open Grouping (groupBy GroupsOf groupsOf_groupBy mem_group)

variable (env : Env)

/-- `_wake_request_tier`: the tier, and whether none could be found. -/
def wakeRequestTier (item : Item) : Tier × Bool :=
  let raw := (coerceDict item.payload).get "authority_tier"
  match raw with
  | .null => (.audience, strip item.triggerKind ≠ "event_trigger")
  | raw =>
    if strip (raw.str env.repr) ≠ "" then (normalizeTier env raw, false)
    else (.audience, strip item.triggerKind ≠ "event_trigger")

/-- `list(value or [])` -/
def listOf : Value → List Value
  | .array items => items
  | .string text => text.toList.map fun c => .string c.toString
  | .object fields => fields.map fun field => .string field.1
  | _ => []

/-- `_extract_context_event_ids` -/
def extractContextEventIds (items : List Item) : List String :=
  ((items.flatMap fun item => (listOf ((coerceDict item.payload).get "context_event_ids")).map
    fun value => value.token env.repr).filter (· ≠ "")).eraseDups

structure Group where
  authorityTier : Tier
  heartbeatTasks : List String
  wakeRequests : List Item
  contextEventIds : List String
  schedulerMode : String

def schedulerMode (items : List Item) (tasks : List String) : String :=
  if !items.isEmpty && !tasks.isEmpty then "mixed" else if !items.isEmpty then "wakeup" else "heartbeat"

/-- The items of each tier; the owner has a group for the tasks of the checklist even without one. -/
def tierGroups (heartbeatTasks : List String) (wakeRequests : List Item) : List (Tier × List Item) :=
  let grouped := groupBy (fun item => (wakeRequestTier env item).1) wakeRequests
  if !heartbeatTasks.isEmpty && !grouped.any (·.1 = .owner) then grouped ++ [(.owner, [])] else grouped

def buildGroup (heartbeatTasks : List String) (tier : Tier) (items : List Item) : Group :=
  let tasks := if tier = .owner then heartbeatTasks else []
  { authorityTier := tier
    heartbeatTasks := tasks
    wakeRequests := items
    contextEventIds := extractContextEventIds env items
    schedulerMode := schedulerMode items tasks }

/-- The groups and the ids of the wakes without a tier that `build_wakeup_execution_bundle` gives. -/
structure Bundle where
  groups : List Group
  unattributedWakeRequestIds : List String

def buildWakeupExecutionBundle (heartbeatTasks : List String) (wakeRequests : List Item) : Bundle where
  groups := (tierGroups env heartbeatTasks wakeRequests).map fun g => buildGroup env heartbeatTasks g.1 g.2
  unattributedWakeRequestIds := (wakeRequests.filter fun item => (wakeRequestTier env item).2).map fun item =>
    item.id.text

/-- An item is in the group of its tier, and in no other. -/
theorem mem_groups {tasks : List String} {batch : List Item} {g : Group}
    (hg : g ∈ (buildWakeupExecutionBundle env tasks batch).groups) {item : Item} :
    item ∈ g.wakeRequests ↔ item ∈ batch ∧ (wakeRequestTier env item).1 = g.authorityTier := by
  obtain ⟨pair, hpair, rfl⟩ := List.mem_map.mp hg
  have hgroups := groupsOf_groupBy (fun item => (wakeRequestTier env item).1) batch
  have hmem : pair ∈ groupBy (fun item => (wakeRequestTier env item).1) batch →
      (item ∈ pair.2 ↔ item ∈ batch ∧ (wakeRequestTier env item).1 = pair.1) := fun h => mem_group hgroups h
  unfold tierGroups at hpair
  dsimp only at hpair
  split at hpair
  · rename_i hextra
    obtain hold | hlast := List.mem_append.mp hpair
    · exact hmem hold
    · -- the group of the owner is added when no item has that tier
      obtain rfl := List.mem_singleton.mp hlast
      refine ⟨nofun, fun ⟨hitem, htier⟩ => ?_⟩
      obtain ⟨g, hg, hkey⟩ := hgroups.covered item hitem
      have hnone : groupBy (fun item => (wakeRequestTier env item).1) batch |>.any (·.1 = .owner) := by
        have howner : g.1 = .owner := hkey.trans htier
        exact List.any_eq_true.mpr ⟨g, hg, by simp [howner]⟩
      simp [hnone] at hextra
  · exact hmem hpair

/-- Every item has a group. -/
theorem exists_group {tasks : List String} {batch : List Item} {item : Item} (h : item ∈ batch) :
    ∃ g ∈ (buildWakeupExecutionBundle env tasks batch).groups,
      g.authorityTier = (wakeRequestTier env item).1 ∧ item ∈ g.wakeRequests := by
  obtain ⟨pair, hpair, hkey⟩ := (groupsOf_groupBy (fun item => (wakeRequestTier env item).1) batch).covered item h
  have hin : pair ∈ tierGroups env tasks batch := by
    unfold tierGroups
    dsimp only
    split
    · exact List.mem_append_left _ hpair
    · exact hpair
  have hgroup : buildGroup env tasks pair.1 pair.2 ∈ (buildWakeupExecutionBundle env tasks batch).groups :=
    List.mem_map.mpr ⟨pair, hin, rfl⟩
  exact ⟨_, hgroup, hkey, (mem_groups env hgroup).mpr ⟨h, hkey.symm⟩⟩

/-! ### The tier of a creator -/

/-- What a creator of this tier makes: an assignment, the firings of its recurring schedule, the first attempt
    of its goal and every later one. -/
inductive Generates : Tier → WakeRequest → Prop where
  | assignment {cap rows placing call authorityTier wake}
      (hwake : scheduleTaskAssignedWakeup env cap rows placing call authorityTier = .ok wake) :
      Generates (assignedTier env authorityTier) wake
  | recurring {id now agentId summary instruction authorityTier maxOccurrences expiresAt created schedule cap rows
      placing wake}
      (hcreated : createRecurringSchedule env id now agentId summary instruction authorityTier maxOccurrences
        expiresAt = .ok created)
      (hschedule : Relation.ReflTransGen (fun a b => ∃ cap rows placing, (fireRecurringSchedule env cap rows placing a).1 = b)
        created schedule)
      (hwake : (fireRecurringSchedule env cap rows placing schedule).2 = .fired wake) :
      Generates (normalizeTier env (tierValue authorityTier)) wake
  | goal {id placing projectId agentId goalText title instruction authorityTier maxAttempts lifetimeDays goal wake}
      (hcreated : createGoal env id placing projectId agentId goalText title instruction authorityTier maxAttempts
        lifetimeDays = .ok (goal, wake)) :
      Generates (normalizeTier env (tierValue authorityTier)) wake
  | retry {id placing projectId agentId goalText title instruction authorityTier maxAttempts lifetimeDays created first
      goal cap rows placing' wake}
      (hcreated : createGoal env id placing projectId agentId goalText title instruction authorityTier maxAttempts
        lifetimeDays = .ok (created, first))
      (hgoal : Relation.ReflTransGen (fun a b => ∃ u : GoalUpdate, u.patch.Nodup ∧ u.patch.lookup "authority_tier" = none ∧
        b = updateAgentGoal env a u) created goal)
      (hwake : (fireGoal env cap rows placing' goal).2 = .fired wake) :
      Generates (normalizeTier env (tierValue authorityTier)) wake

/-- What becomes of a row: claims and updates of its status. -/
inductive Later (wake : WakeRequest) : WakeRequest → Prop where
  | created : Later wake wake
  | claimed {row : WakeRequest} (now : Int) (h : Later wake row) : Later wake (claimRow now row)
  | updated {row : WakeRequest} (now : Int) (existing : WakeRequest) (u : StatusUpdate) (h : Later wake row) :
      Later wake (updateRow env now existing u row)

/-- From the least authority to the most. -/
def Tier.rank : Tier → Nat
  | .audience => 0
  | .system => 1
  | .owner => 2

variable {env}

/-- A column given as text has no tier to read. -/
theorem tier_of_text (htext : env.GivesText) (row : WakeRequest) :
    (wakeRequestTier env (row.read env)).1 = .audience := by
  obtain ⟨raw, hraw⟩ := htext row.payload
  simp only [wakeRequestTier, WakeRequest.read, hraw, coerceDict]
  rfl

/-- A wake is placed in the group of its creator's tier exactly when that is the audience's, and never in that
    of a higher tier. -/
theorem authority_follows_work (htext : env.GivesText) {t : Tier} {wake row : WakeRequest} (_ : Generates env t wake)
    (_ : Later env wake row) (tasks : List String) {batch : List Item} (hmem : row.read env ∈ batch) :
    ((∃ g ∈ (buildWakeupExecutionBundle env tasks batch).groups, g.authorityTier = t ∧ row.read env ∈ g.wakeRequests) ↔
      t = .audience) ∧
    ∀ g ∈ (buildWakeupExecutionBundle env tasks batch).groups, row.read env ∈ g.wakeRequests →
      g.authorityTier.rank ≤ t.rank := by
  have htier : (wakeRequestTier env (row.read env)).1 = .audience := tier_of_text htext row
  have hplaced : ∀ g ∈ (buildWakeupExecutionBundle env tasks batch).groups, row.read env ∈ g.wakeRequests →
      g.authorityTier = .audience := by
    intro g hg hin
    rw [← ((mem_groups env hg).mp hin).2, htier]
  refine ⟨⟨?_, ?_⟩, ?_⟩
  · rintro ⟨g, hg, rfl, hin⟩
    exact hplaced g hg hin
  · rintro rfl
    obtain ⟨g, hg, hkey, hin⟩ := @exists_group env tasks _ _ hmem
    exact ⟨g, hg, hkey.trans htier, hin⟩
  · intro g hg hin
    rw [hplaced g hg hin]
    exact Nat.zero_le _

/-! ### One assignment -/

/-- What the assignment of a tier makes. -/
def reportWake (authorityTier : String) : WakeRequest :=
  persistWakeup placed "task_assigned" "task_assigned" "Task assigned: Report"
    [("agent_id", .string "a1"), ("task_id", .string "t1"), ("task_title", .string "Report"),
      ("task_description", .string ""), ("authority_tier", .string authorityTier)]
    [("agent_id", .string "a1"), ("task_id", .string "t1")]

theorem reportWake_owner : scheduleTaskAssignedWakeup texts 24 [] placed report none = .ok (reportWake "owner") := by
  rfl

theorem reportWake_audience :
    scheduleTaskAssignedWakeup texts 24 [] placed report (some "audience") = .ok (reportWake "audience") := by
  rfl

theorem authority_follows_work_audience :
    ∃ g ∈ (buildWakeupExecutionBundle texts [] [(reportWake "audience").read texts]).groups,
      g.authorityTier = .audience ∧ (reportWake "audience").read texts ∈ g.wakeRequests :=
  (authority_follows_work texts_givesText (.assignment reportWake_audience) .created []
    List.mem_cons_self).1.mpr (by decide)

/-- The owner's assignment is not in the owner's group. -/
theorem authority_follows_work_owner :
    Generates texts .owner (reportWake "owner") ∧
      ¬ ∃ g ∈ (buildWakeupExecutionBundle texts [] [(reportWake "owner").read texts]).groups,
        g.authorityTier = .owner ∧ (reportWake "owner").read texts ∈ g.wakeRequests := by
  refine ⟨.assignment reportWake_owner, ?_⟩
  rintro ⟨g, hg, howner, hin⟩
  have htier : (wakeRequestTier texts ((reportWake "owner").read texts)).1 = g.authorityTier :=
    ((mem_groups texts hg).mp hin).2
  rw [tier_of_text texts_givesText, howner] at htier
  cases htier

/-! ### What is lost on the way -/

theorem normalizeTier_text (env : Env) (t : Tier) : normalizeTier env (.string t.text) = t := by
  have hplain : env.lowercase.lower (strip t.text) = t.text := by
    cases t
    · exact env.lowercase.token_plain (Lowercase.plain_of_all (by decide))
    · exact env.lowercase.token_plain (Lowercase.plain_of_all (by decide))
    · exact env.lowercase.token_plain (Lowercase.plain_of_all (by decide))
  rw [normalizeTier, Value.token_string, hplain]
  cases t <;> rfl

theorem payload_fired (env : Env) (cap : Nat) (rows : List WakeRequest) (placing : Placing)
    (schedule : RecurringSchedule) :
    (fireRecurringSchedule env cap rows placing schedule).1.payload = schedule.payload := by
  unfold fireRecurringSchedule
  split
  · rfl
  · split
    · rfl
    · rfl

/-- A driver that gives dictionaries, or texts, gives nothing that the row has not. -/
def Env.Reads : Prop := ∀ fields, env.driver fields = .object fields ∨ ∃ text, env.driver fields = .string text

/-- An update without a tier leaves the metadata of a goal without one. -/
theorem untiered_update (hreads : env.Reads) {goal : Goal} (h : goal.metadata.lookup "authority_tier" = none)
    {u : GoalUpdate} (hkeys : u.patch.Nodup) (hpatch : u.patch.lookup "authority_tier" = none) :
    (updateAgentGoal env goal u).metadata.lookup "authority_tier" = none := by
  rw [updateAgentGoal, Fields.lookup_merge hkeys, hpatch]
  obtain hobject | ⟨text, htext⟩ := hreads goal.metadata
  · rw [hobject]
    exact h
  · rw [htext]
    rfl

/-- The payload of a wake has the tier of its creator, except that of a later attempt of a goal, whose row has
    never had it. -/
theorem payload_tier (hreads : env.Reads) {t : Tier} {wake : WakeRequest} (h : Generates env t wake) :
    ∃ p : Tier, wake.payload.get "authority_tier" = .string p.text ∧
      (p = t ∨ p = .audience ∧ wake.reason = "goal_retry") := by
  cases h with
  | @assignment cap rows placing call authorityTier _ hwake =>
    refine ⟨assignedTier env authorityTier, ?_, .inl rfl⟩
    rw [(assigned_ok hwake).2]
    simp [persistWakeup, Fields.get, List.lookup_cons]
  | @recurring id now agentId summary instruction authorityTier maxOccurrences expiresAt created schedule cap rows placing
      _ hcreated hschedule hwake =>
    have hpayload : schedule.payload = created.payload := by
      clear hwake
      induction hschedule with
      | refl => rfl
      | tail _ hstep ih =>
        obtain ⟨cap, rows, placing, rfl⟩ := hstep
        rw [payload_fired, ih]
    have hstamped : created.payload.get "authority_tier" =
      .string (normalizeTier env (tierValue authorityTier)).text := by
      unfold createRecurringSchedule at hcreated
      split at hcreated
      · cases hcreated
      · split at hcreated
        · cases hcreated
        · cases hcreated
          simp [Fields.get, List.lookup_cons]
    refine ⟨normalizeTier env (tierValue authorityTier), ?_, .inl rfl⟩
    rw [(recurring_fired hwake).2, recurringWake]
    simp only [hpayload, hstamped, normalizeTier_text]
    simp [persistWakeup, Fields.get, List.lookup_cons]
  | @goal id placing projectId agentId goalText title instruction authorityTier maxAttempts lifetimeDays created _ hcreated =>
    refine ⟨normalizeTier env (tierValue authorityTier), ?_, .inl rfl⟩
    unfold createGoal at hcreated
    split at hcreated
    · cases hcreated
    · split at hcreated
      · cases hcreated
      · split at hcreated
        · cases hcreated
        · cases hcreated
          simp [persistWakeup, goalPayload, Fields.get, List.lookup_cons]
  | @retry id placing projectId agentId goalText title instruction authorityTier maxAttempts lifetimeDays created firstWake
      goal cap rows placing' _ hcreated hgoal hwake =>
    have hnew : created.metadata.lookup "authority_tier" = none := by
      unfold createGoal at hcreated
      split at hcreated
      · cases hcreated
      · split at hcreated
        · cases hcreated
        · split at hcreated
          · cases hcreated
          · cases hcreated
            exact untiered_update hreads rfl (List.pairwise_singleton _ _) (by simp [List.lookup_cons])
    have hnone : goal.metadata.lookup "authority_tier" = none := by
      clear hwake
      induction hgoal with
      | refl => exact hnew
      | tail _ hstep ih =>
        obtain ⟨u, hkeys, hpatch, rfl⟩ := hstep
        exact untiered_update hreads ih hkeys hpatch
    have htier : retryTier env goal = .audience := by
      have hempty : env.lowercase.lower "" = "" := env.lowercase.plain "" (by simp)
      rw [retryTier, Fields.get, hnone]
      simp [normalizeTier, Value.token, Value.truthy, hempty]
    refine ⟨.audience, ?_, .inr ⟨rfl, ?_⟩⟩
    · rw [(goal_fired hwake).2, goalWake, htier]
      simp [persistWakeup, goalPayload, Fields.get, List.lookup_cons]
    · rw [(goal_fired hwake).2]
      rfl

theorem payload_later {wake row : WakeRequest} (h : Later env wake row) : row.payload = wake.payload := by
  induction h with
  | created => rfl
  | claimed now _ ih => exact ih
  | updated now existing u _ ih => exact ih

/-- With a driver that gives dictionaries only the later attempts of goals lose their tier. -/
theorem tier_of_dictionaries (hobject : ∀ fields, env.driver fields = .object fields) {t : Tier}
    {wake row : WakeRequest} (h : Generates env t wake) (hlater : Later env wake row) :
    (wakeRequestTier env (row.read env)).1 = t ∨
      (wakeRequestTier env (row.read env)).1 = .audience ∧ wake.reason = "goal_retry" := by
  obtain ⟨p, hp, hcases⟩ := payload_tier (fun fields => .inl (hobject fields)) h
  have hread : (coerceDict (row.read env).payload).get "authority_tier" = .string p.text := by
    rw [WakeRequest.read, hobject, payload_later hlater]
    exact hp
  have hwritten : strip p.text ≠ "" := by
    cases p <;> decide
  have htier : (wakeRequestTier env (row.read env)).1 = p := by
    simp only [wakeRequestTier, hread, Value.str, hwritten, ne_eq, not_false_eq_true, if_true, normalizeTier_text]
  rw [htier]
  exact hcases

end Empyralis.Server.Wakes
