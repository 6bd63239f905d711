import Empyralis.Server.HeartbeatTurns

/-! What the turn of a group carries of the wakes of the group: the task and the goal of the first of them, and
    the agent that it runs as. -/

namespace Empyralis.Server.Heartbeat
open Text (strip)
open Wakes

variable (env : Env)

/-! ### What a turn carries -/

/-- What a `task_assigned` wake asks for. -/
structure TaskErrand where
  taskId : String
  title : String
  description : String

def taskOf (payload : Fields) : TaskErrand :=
  ⟨text env payload "task_id", text env payload "task_title", text env payload "task_description"⟩

/-- What a `goal` wake asks for. -/
structure GoalErrand where
  goalId : String
  goalText : String
  instruction : String
  attemptNumber : Value
  maxAttempts : Value
  status : String

def goalOf (payload : Fields) : GoalErrand :=
  ⟨text env payload "goal_id", text env payload "goal_text", text env payload "instruction",
    payload.get "attempt_number", payload.get "max_attempts", text env payload "status"⟩

def Contains (message part : String) : Prop := ∃ before after, message = before ++ part ++ after

/-- The task is in the metadata of the turn, and its section in the message. -/
structure CarriesTask (turn : TurnRequest) (task : TaskErrand) : Prop where
  taskId : turn.metadata.get "task_id" = .string task.taskId
  title : turn.metadata.get "assigned_task_title" = .string task.title
  description : turn.metadata.get "assigned_task_description" = .string task.description
  message : Contains turn.message (assignedTask task.title task.description)

structure CarriesGoal (turn : TurnRequest) (goal : GoalErrand) : Prop where
  goalId : turn.metadata.get "goal_id" = .string goal.goalId
  goalText : turn.metadata.get "goal_text" = .string goal.goalText
  instruction : turn.metadata.get "goal_instruction" = .string goal.instruction
  attemptNumber : turn.metadata.get "goal_attempt_number" = goal.attemptNumber
  maxAttempts : turn.metadata.get "goal_max_attempts" = goal.maxAttempts
  status : turn.metadata.get "goal_status" = .string goal.status
  message : Contains turn.message
    (workingGoal env goal.goalText goal.instruction goal.attemptNumber goal.maxAttempts goal.status)

/-- The agent of the first goal, else that of the first task, else that of the tick. -/
def leadingAgent (wakes : List Item) (metadata : Fields) : String :=
  firstOf [(firstGoal env wakes).elim "" (text env · "agent_id"), (firstTask env wakes).elim "" (text env · "agent_id"),
    text env metadata "active_agent_install_id"]

/-! ### What the metadata of a turn has -/

variable {env}

theorem strip_text (fields : Fields) (key : String) : strip (text env fields key) = text env fields key :=
  Value.strip_token env.repr (fields.get key)

theorem token_text (fields : Fields) (key : String) :
    (Value.string (text env fields key)).token env.repr = text env fields key := by
  rw [Value.token_string, strip_text]

theorem truthy_string (text : String) : (Value.string text).truthy = true ↔ text ≠ "" := by
  simp [Value.truthy]

theorem orText_string (text : String) : orText env (.string text) "" = text := by
  unfold orText
  split
  · rfl
  · rename_i hempty
    rw [truthy_string, not_not] at hempty
    exact hempty.symm

theorem firstOf_cons (text : String) (texts : List String) :
    firstOf (text :: texts) = if text = "" then firstOf texts else text := by
  unfold firstOf
  rw [List.find?_cons]
  by_cases h : text = ""
  · simp [h]
  · simp [h]

theorem get_withProvider (defaultProvider : String → String) (metadata : Fields) {key : String} (h : key ≠ "provider") :
    (withProvider env defaultProvider metadata).get key = metadata.get key := by
  unfold withProvider
  split
  · rfl
  · rw [Fields.get_put, if_neg h]

theorem get_withPolicy (policy : Option PolicyBounds) (metadata : Fields) {key : String}
    (h : key ≠ "scheduler_policy") :
    (withPolicy policy metadata).get key = metadata.get key := by
  cases policy with
  | none => rfl
  | some policy => exact (Fields.get_put _ _ _ _).trans (if_neg h)

theorem get_withChanges (changes : List Fields) (metadata : Fields) {key : String} (h : key ≠ "context_event_ids") :
    (withChanges env changes metadata).get key = metadata.get key := by
  unfold withChanges
  split
  · rfl
  · rw [Fields.get_put, if_neg h]

theorem agentFields_cases (payload : Fields) :
    agentFields env payload = [] ∨
      agentFields env payload = [("active_agent_install_id", .string (text env payload "agent_id"))] := by
  unfold agentFields
  split
  · exact .inl rfl
  · exact .inr rfl

/-- The keys that a task sets. -/
def taskKeys : List String := ["task_id", "assigned_task_title", "assigned_task_description", "active_agent_install_id"]

/-- The keys that a goal sets. -/
def goalKeys : List String :=
  ["goal_id", "goal_text", "goal_instruction", "goal_attempt_number", "goal_max_attempts", "goal_status",
    "active_agent_install_id"]

theorem lookup_none_of_keys {fields : Fields} {keys : List String} (h : fields.map Prod.fst ⊆ keys) {key : String}
    (hkey : key ∉ keys) : fields.lookup key = none := by
  rw [List.lookup_eq_none_iff]
  intro field hfield
  rw [bne_iff_ne]
  rintro rfl
  exact hkey (h (List.mem_map_of_mem hfield))

theorem lookup_taskFields {key : String} (h : key ∉ taskKeys) (payload : Fields) :
    (taskFields env payload).lookup key = none := by
  refine lookup_none_of_keys ?_ h
  obtain hagent | hagent := @agentFields_cases env payload
  all_goals simp [taskFields, hagent, taskKeys]

theorem lookup_goalFields {key : String} (h : key ∉ goalKeys) (payload : Fields) :
    (goalFields env payload).lookup key = none := by
  refine lookup_none_of_keys ?_ h
  obtain hagent | hagent := @agentFields_cases env payload
  all_goals simp [goalFields, hagent, goalKeys]

theorem taskFields_nodup (payload : Fields) : (taskFields env payload).Nodup := by
  obtain h | h := @agentFields_cases env payload
  · simp [taskFields, h, Fields.Nodup]
  · simp [taskFields, h, Fields.Nodup]

theorem goalFields_nodup (payload : Fields) : (goalFields env payload).Nodup := by
  obtain h | h := @agentFields_cases env payload
  · simp [goalFields, h, Fields.Nodup]
  · simp [goalFields, h, Fields.Nodup]

/-- What the first goal and the first task of the wakes put under a key. -/
def errand (env : Env) (wakes : List Item) (key : String) : Option Value :=
  (((firstGoal env wakes).elim [] (goalFields env)).lookup key).or
    (((firstTask env wakes).elim [] (taskFields env)).lookup key)

theorem get_withWakes (wakes : List Item) (metadata : Fields) {key : String} (h : key ≠ "wake_request_ids") :
    (withWakes env wakes metadata).get key = ((errand env wakes key).or (metadata.lookup key)).getD .null := by
  unfold withWakes
  split
  · rename_i hempty
    obtain rfl := List.isEmpty_iff.mp hempty
    rfl
  · have hgoal : Fields.Nodup ((firstGoal env wakes).elim [] (goalFields env)) := by
      cases firstGoal env wakes with
      | none => exact List.nodup_nil
      | some payload => exact goalFields_nodup payload
    have htask : Fields.Nodup ((firstTask env wakes).elim [] (taskFields env)) := by
      cases firstTask env wakes with
      | none => exact List.nodup_nil
      | some payload => exact taskFields_nodup payload
    rw [Fields.get, Fields.lookup_merge hgoal, Fields.lookup_merge htask, Fields.lookup_put, if_neg h, errand,
      Option.or_assoc]

theorem errand_eq_none {wakes : List Item} {key : String} (htask : key ∉ taskKeys) (hgoal : key ∉ goalKeys) :
    errand env wakes key = none := by
  unfold errand
  cases firstGoal env wakes with
  | none =>
    cases firstTask env wakes with
    | none => rfl
    | some task => exact lookup_taskFields htask task
  | some goal =>
    rw [Option.elim_some, lookup_goalFields hgoal, Option.none_or]
    cases firstTask env wakes with
    | none => rfl
    | some task => exact lookup_taskFields htask task

/-- A key that only the first task, the first goal and what the tick is given may set. -/
def Plain (key : String) : Prop :=
  key ∉ ["provider", "scheduler_policy", "context_event_ids", "wake_request_ids", "source", "trigger_source",
    "heartbeat_tasks", "heartbeat_pending_schedules", "heartbeat_trigger", "heartbeat_file"]

instance (key : String) : Decidable (Plain key) := inferInstanceAs (Decidable (key ∉ _))

section Turn

variable {defaultProvider : String → String} {tasks : List String} {metadata : Fields} {pendingStarted : List Fields}
  {authorityTier : Tier} {wakes : List Item} {surroundings : Surroundings} {turn : TurnRequest}

theorem get_mergedMetadata {key : String} (h : Plain key) :
    (mergedMetadata env tasks metadata pendingStarted wakes surroundings).get key =
      ((errand env wakes key).or (metadata.lookup key)).getD .null := by
  simp only [Plain, List.mem_cons, List.not_mem_nil, not_or, or_false] at h
  obtain ⟨-, hpolicy, hchanges, hwakes, htick⟩ := h
  have hnone : (tickFields env tasks metadata pendingStarted).lookup key = none := by
    rw [List.lookup_eq_none_iff]
    intro field hfield
    simp only [tickFields, List.mem_cons, List.not_mem_nil, or_false] at hfield
    rw [bne_iff_ne]
    obtain rfl | rfl | rfl | rfl | rfl | rfl := hfield <;> simp [htick]
  have hnodup : (tickFields env tasks metadata pendingStarted).Nodup := by
    simp [tickFields, Fields.Nodup]
  rw [mergedMetadata, get_withPolicy _ _ hpolicy, get_withChanges _ _ hchanges, get_withWakes _ _ hwakes,
    Fields.lookup_merge hnodup, hnone, Option.none_or]

theorem text_congr {fields other : Fields} {key name : String} (h : fields.get key = other.get name) :
    text env fields key = text env other name := by
  rw [text, text, h]

theorem get_contextHints {metadata : Fields} (h : metadata ≠ []) :
    (contextHints env metadata).get "metadata" = .object metadata := by
  have hnone : ((turnHints env metadata).filter fun hint => !hollow hint.2).lookup "metadata" = none := by
    rw [List.lookup_eq_none_iff]
    intro hint hhint
    have hmem := (List.mem_filter.mp hhint).1
    simp only [turnHints, List.mem_cons, List.not_mem_nil, or_false] at hmem
    rw [bne_iff_ne]
    obtain rfl | rfl | rfl | rfl | rfl | rfl | rfl := hmem <;> simp
  have hkept : hollow (.object metadata) = false := by
    obtain ⟨field, fields, rfl⟩ := List.exists_cons_of_ne_nil h
    rfl
  rw [contextHints, Fields.get, List.filter_append, List.lookup_append, hnone]
  simp [hkept]

/-- What a turn that could be built has. -/
theorem turn_ok (h : buildHeartbeatTurnRequest env defaultProvider tasks metadata pendingStarted authorityTier wakes
      surroundings = .ok turn) :
    turn.metadata = withProvider env defaultProvider
        (mergedMetadata env tasks metadata pendingStarted wakes surroundings) ∧
      turn.message = heartbeatGoal (sections env tasks wakes surroundings
        (mergedMetadata env tasks metadata pendingStarted wakes surroundings)) := by
  unfold buildHeartbeatTurnRequest at h
  dsimp only at h
  generalize withProvider env defaultProvider (mergedMetadata env tasks metadata pendingStarted wakes surroundings) =
    provided at h ⊢
  split at h
  · cases h
  · rename_i hworkspace
    split at h
    · cases h
    · cases h
      have hwritten : provided ≠ [] := by
        rintro rfl
        exact hworkspace rfl
      refine ⟨?_, rfl⟩
      rw [TurnRequest.metadata, inboundTurnRequest, get_contextHints hwritten]
      rfl

/-- A turn can be built where the tick has a workspace and a tenant. -/
theorem turn_of_scope (hworkspace : text env metadata "workspace_id" ≠ "")
    (htenant : text env metadata "tenant_id" ≠ "") :
    ∃ turn, buildHeartbeatTurnRequest env defaultProvider tasks metadata pendingStarted authorityTier wakes
      surroundings = .ok turn := by
  have hscope : ∀ key, key = "workspace_id" ∨ key = "tenant_id" →
      text env (withProvider env defaultProvider (mergedMetadata env tasks metadata pendingStarted wakes surroundings)) key =
        text env metadata key := by
    intro key hkey
    have hplain : Plain key ∧ key ≠ "provider" ∧ key ∉ taskKeys ∧ key ∉ goalKeys := by
      obtain rfl | rfl := hkey <;> decide
    obtain ⟨hplain, hprovider, htask, hgoal⟩ := hplain
    refine text_congr ?_
    rw [get_withProvider _ _ hprovider, get_mergedMetadata hplain, errand_eq_none htask hgoal, Option.none_or,
      Fields.get]
  unfold buildHeartbeatTurnRequest
  dsimp only
  rw [hscope _ (.inl rfl), if_neg hworkspace, hscope _ (.inr rfl), if_neg htenant]
  exact ⟨_, rfl⟩

theorem contains_intercalate {separator part : String} {texts : List String} (h : part ∈ texts) :
    Contains (separator.intercalate texts) part := by
  induction texts with
  | nil => cases h
  | cons text texts ih =>
    obtain rfl | h := List.mem_cons.mp h
    · cases texts with
      | nil => exact ⟨"", "", by simp⟩
      | cons next texts => exact ⟨"", separator ++ separator.intercalate (next :: texts), by simp [String.append_assoc]⟩
    · obtain ⟨before, after, heq⟩ := ih h
      refine ⟨text ++ separator ++ before, after, ?_⟩
      rw [String.intercalate_cons_of_ne_nil (List.ne_nil_of_mem h), heq]
      simp only [String.append_assoc]

theorem contains_heartbeatGoal {texts : List String} {part : String} (h : part ∈ texts) (hwritten : strip part ≠ "") :
    Contains (heartbeatGoal texts) part :=
  contains_intercalate (List.mem_filter.mpr ⟨h, by simpa using hwritten⟩)

theorem get_turn (h : buildHeartbeatTurnRequest env defaultProvider tasks metadata pendingStarted authorityTier wakes
      surroundings = .ok turn) {key : String} (hkey : Plain key) :
    turn.metadata.get key = ((errand env wakes key).or (metadata.lookup key)).getD .null := by
  have hprovider : key ≠ "provider" := by
    rintro rfl
    exact hkey List.mem_cons_self
  rw [(turn_ok h).1, get_withProvider _ _ hprovider, get_mergedMetadata hkey]

/-- The message is made of the same metadata, before the provider is put into it. -/
theorem get_merged_turn (h : buildHeartbeatTurnRequest env defaultProvider tasks metadata pendingStarted authorityTier wakes
      surroundings = .ok turn) {key : String} (hkey : Plain key) :
    (mergedMetadata env tasks metadata pendingStarted wakes surroundings).get key = turn.metadata.get key := by
  rw [get_turn h hkey, get_mergedMetadata hkey]

theorem errand_task {task : Fields} (hfirst : firstTask env wakes = some task) {key : String} (hkey : key ∉ goalKeys) :
    errand env wakes key = (taskFields env task).lookup key := by
  have hnone : ((firstGoal env wakes).elim [] (goalFields env)).lookup key = none := by
    cases firstGoal env wakes with
    | none => rfl
    | some goal => exact lookup_goalFields hkey goal
  rw [errand, hnone, Option.none_or, hfirst, Option.elim_some]

theorem errand_goal {goal : Fields} (hfirst : firstGoal env wakes = some goal) {key : String} (hkey : key ∉ taskKeys) :
    errand env wakes key = (goalFields env goal).lookup key := by
  have hnone : ((firstTask env wakes).elim [] (taskFields env)).lookup key = none := by
    cases firstTask env wakes with
    | none => rfl
    | some task => exact lookup_taskFields hkey task
  rw [errand, hnone, Option.or_none, hfirst, Option.elim_some]

theorem firstTask_named {task : Fields} (h : firstTask env wakes = some task) : text env task "task_id" ≠ "" := by
  simpa using List.find?_some h

theorem firstGoal_named {goal : Fields} (h : firstGoal env wakes = some goal) : text env goal "goal_id" ≠ "" := by
  simpa using List.find?_some h

/-- A turn carries the task of the first wake that names one, and no other. -/
theorem carriesTask_iff (h : buildHeartbeatTurnRequest env defaultProvider tasks metadata pendingStarted authorityTier
      wakes surroundings = .ok turn) {first : Fields} (hfirst : firstTask env wakes = some first) (task : TaskErrand) :
    CarriesTask turn task ↔ taskOf env first = task := by
  have hid : turn.metadata.get "task_id" = .string (taskOf env first).taskId := by
    rw [get_turn h (by decide), errand_task hfirst (by decide)]
    rfl
  have htitle : turn.metadata.get "assigned_task_title" = .string (taskOf env first).title := by
    rw [get_turn h (by decide), errand_task hfirst (by decide)]
    rfl
  have hdescription : turn.metadata.get "assigned_task_description" = .string (taskOf env first).description := by
    rw [get_turn h (by decide), errand_task hfirst (by decide)]
    rfl
  constructor
  · intro hcarries
    obtain ⟨taskId, title, description⟩ := task
    have h1 := hid.symm.trans hcarries.taskId
    have h2 := htitle.symm.trans hcarries.title
    have h3 := hdescription.symm.trans hcarries.description
    rw [Value.string.injEq] at h1 h2 h3
    exact (TaskErrand.mk.injEq ..).mpr ⟨h1, h2, h3⟩
  · rintro rfl
    refine ⟨hid, htitle, hdescription, ?_⟩
    have hsection : taskSection env (mergedMetadata env tasks metadata pendingStarted wakes surroundings) =
        [assignedTask (taskOf env first).title (taskOf env first).description] := by
      have htruthy : (Value.string (taskOf env first).taskId).truthy = true :=
        (truthy_string _).mpr (firstTask_named hfirst)
      rw [taskSection, text, get_merged_turn h (by decide), get_merged_turn h (by decide),
        get_merged_turn h (by decide),
        hid, htitle, hdescription, if_pos htruthy, orText_string, taskOf, token_text]
    rw [(turn_ok h).2]
    refine contains_heartbeatGoal ?_ ?_
    · simp [sections, hsection]
    · refine Text.trim_ne_empty (c := 'A') ?_ (by decide)
      unfold assignedTask
      simp

/-- A turn carries the goal of the first wake that names one, and no other. -/
theorem carriesGoal_iff (h : buildHeartbeatTurnRequest env defaultProvider tasks metadata pendingStarted authorityTier
      wakes surroundings = .ok turn) {first : Fields} (hfirst : firstGoal env wakes = some first) (goal : GoalErrand) :
    CarriesGoal env turn goal ↔ goalOf env first = goal := by
  have hread : ∀ key, Plain key → key ∉ taskKeys →
      turn.metadata.get key = (((goalFields env first).lookup key).or (metadata.lookup key)).getD .null := by
    intro key hkey htask
    rw [get_turn h hkey, errand_goal hfirst htask]
  have hid : turn.metadata.get "goal_id" = .string (goalOf env first).goalId := by
    rw [hread _ (by decide) (by decide)]
    rfl
  have htext : turn.metadata.get "goal_text" = .string (goalOf env first).goalText := by
    rw [hread _ (by decide) (by decide)]
    rfl
  have hinstruction : turn.metadata.get "goal_instruction" = .string (goalOf env first).instruction := by
    rw [hread _ (by decide) (by decide)]
    rfl
  have hattempt : turn.metadata.get "goal_attempt_number" = (goalOf env first).attemptNumber := by
    rw [hread _ (by decide) (by decide)]
    rfl
  have hmax : turn.metadata.get "goal_max_attempts" = (goalOf env first).maxAttempts := by
    rw [hread _ (by decide) (by decide)]
    rfl
  have hstatus : turn.metadata.get "goal_status" = .string (goalOf env first).status := by
    rw [hread _ (by decide) (by decide)]
    rfl
  constructor
  · intro hcarries
    obtain ⟨goalId, goalText, instruction, attemptNumber, maxAttempts, status⟩ := goal
    have h1 := hid.symm.trans hcarries.goalId
    have h2 := htext.symm.trans hcarries.goalText
    have h3 := hinstruction.symm.trans hcarries.instruction
    have h4 := hattempt.symm.trans hcarries.attemptNumber
    have h5 := hmax.symm.trans hcarries.maxAttempts
    have h6 := hstatus.symm.trans hcarries.status
    rw [Value.string.injEq] at h1 h2 h3 h6
    exact (GoalErrand.mk.injEq ..).mpr ⟨h1, h2, h3, h4, h5, h6⟩
  · rintro rfl
    refine ⟨hid, htext, hinstruction, hattempt, hmax, hstatus, ?_⟩
    have hsection : goalSection env (mergedMetadata env tasks metadata pendingStarted wakes surroundings) =
        [workingGoal env (goalOf env first).goalText (goalOf env first).instruction (goalOf env first).attemptNumber
          (goalOf env first).maxAttempts (goalOf env first).status] := by
      have htruthy : (Value.string (goalOf env first).goalId).truthy = true :=
        (truthy_string _).mpr (firstGoal_named hfirst)
      rw [goalSection, text, text, text, get_merged_turn h (by decide), get_merged_turn h (by decide),
        get_merged_turn h (by decide), get_merged_turn h (by decide), get_merged_turn h (by decide),
        get_merged_turn h (by decide), hid, htext, hinstruction, hattempt, hmax, hstatus, if_pos htruthy, goalOf,
        token_text, token_text, token_text]
    rw [(turn_ok h).2]
    refine contains_heartbeatGoal ?_ ?_
    · simp [sections, hsection]
    · refine Text.trim_ne_empty (c := 'W') ?_ (by decide)
      unfold workingGoal
      simp

/-- An agent as it is put into the metadata. -/
def agentValue (agent : String) : Option Value := if agent = "" then none else some (.string agent)

theorem lookup_agent_task (task : Option Fields) :
    (task.elim [] (taskFields env)).lookup "active_agent_install_id" =
      agentValue (task.elim "" (text env · "agent_id")) := by
  cases task with
  | none => rfl
  | some payload =>
    by_cases h : text env payload "agent_id" = ""
    · simp [taskFields, agentFields, agentValue, h, List.lookup_cons]
    · simp [taskFields, agentFields, agentValue, h, List.lookup_cons]

theorem lookup_agent_goal (goal : Option Fields) :
    (goal.elim [] (goalFields env)).lookup "active_agent_install_id" =
      agentValue (goal.elim "" (text env · "agent_id")) := by
  cases goal with
  | none => rfl
  | some payload =>
    by_cases h : text env payload "agent_id" = ""
    · simp [goalFields, agentFields, agentValue, h, List.lookup_cons]
    · simp [goalFields, agentFields, agentValue, h, List.lookup_cons]

theorem strip_agent (payload : Option Fields) :
    strip (payload.elim "" (text env · "agent_id")) = payload.elim "" (text env · "agent_id") := by
  cases payload with
  | none => exact strip_empty
  | some payload => exact strip_text payload "agent_id"

theorem runsAs_eq (h : buildHeartbeatTurnRequest env defaultProvider tasks metadata pendingStarted authorityTier wakes
      surroundings = .ok turn) : turn.runsAs env = leadingAgent env wakes metadata := by
  have hgoal := @strip_agent env (firstGoal env wakes)
  have htask := @strip_agent env (firstTask env wakes)
  rw [TurnRequest.runsAs, text, get_turn h (by decide), errand, lookup_agent_goal, lookup_agent_task, leadingAgent,
    firstOf_cons, firstOf_cons, firstOf_cons]
  generalize (firstGoal env wakes).elim "" (text env · "agent_id") = goal at hgoal ⊢
  generalize (firstTask env wakes).elim "" (text env · "agent_id") = task at htask ⊢
  unfold agentValue
  by_cases hg : goal = ""
  · rw [if_pos hg, if_pos hg, Option.none_or]
    by_cases ht : task = ""
    · rw [if_pos ht, if_pos ht, Option.none_or]
      change text env metadata "active_agent_install_id" = _
      split
      · exact ‹_›
      · rfl
    · rw [if_neg ht, if_neg ht, Option.some_or, Option.getD_some, Value.token_string, htask]
  · rw [if_neg hg, if_neg hg, Option.some_or, Option.some_or, Option.getD_some, Value.token_string, hgoal]

end Turn

end Empyralis.Server.Heartbeat
