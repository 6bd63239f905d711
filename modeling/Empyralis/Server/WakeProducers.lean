import Empyralis.Server.WakeRequests

/-! What makes wake requests: an assigned or commented task, a recurring schedule and a goal
    (`bounded_scheduler_service`). Times are in microseconds. -/

namespace Empyralis.Server.Wakes
open Text (strip)

/-! ### Authority -/

/-- The tiers of authority. -/
inductive Tier where
  | owner
  | audience
  | system
  deriving DecidableEq, Repr

def Tier.text : Tier → String
  | .owner => "owner"
  | .audience => "audience"
  | .system => "system"

variable (env : Env)

/-- `normalize_tier`, and `inherit_tier`, which is the same. -/
def normalizeTier (value : Value) : Tier :=
  let token := env.lowercase.lower (value.token env.repr)
  if token = "owner" then .owner else if token = "system" then .system else .audience

/-- The tier of a creator, `None` when it names none. -/
def tierValue (authorityTier : Option String) : Value := authorityTier.elim .null .string

/-! ### Writing a wake -/

/-- What a call takes from outside: the id of a new row, what `_apply_policy_to_due_at` gives, the time at which the
    rows are counted and that of the insertion. -/
structure Placing where
  id : Token
  dueAt : Int
  delayReason : Option String
  checkedAt : Int
  createdAt : Int

def second : Int := 1000000

def hours24 : Int := 86400 * second

/-- The reason of a delay goes into the metadata. -/
def withDelay (metadata : Fields) (placing : Placing) : Fields :=
  placing.delayReason.elim metadata fun reason => metadata.put "policy_delay_reason" (.string reason)

/-- `_persist_wakeup`, of a pending wake -/
def persistWakeup (placing : Placing) (triggerKind reason summary : String) (payload metadata : Fields) :
    WakeRequest where
  id := placing.id
  triggerKind := triggerKind
  reason := reason
  summary := summary
  payload := payload
  metadata := withDelay metadata placing
  status := .pending
  denialReason := none
  dueAt := placing.dueAt
  createdAt := placing.createdAt
  claimedAt := none
  executedAt := none

/-- `text[:n]` -/
def first (n : Nat) (text : String) : String := String.ofList (text.toList.take n)

/-! ### Tasks -/

/-- A task and the agent that it is assigned to; `body` is its description, or a comment on it. -/
structure TaskCall where
  agentId : String
  taskId : String
  title : String
  body : String

/-- What a wake of a task has in its metadata. -/
def taskMetadata (call : TaskCall) : Fields :=
  [("agent_id", .string (strip call.agentId)), ("task_id", .string (strip call.taskId))]

/-- How many wakes the task has had in the last 24 hours, of any kind. -/
def recentTaskWakes (rows : List WakeRequest) (placing : Placing) (call : TaskCall) : Nat :=
  countWakeRequestsSince env rows (placing.checkedAt - hours24) none [("task_id", strip call.taskId)]

/-- The arguments that may not be blank are there. -/
def TaskCall.complete (call : TaskCall) : Bool :=
  strip call.agentId ≠ "" && strip call.taskId ≠ "" && strip call.title ≠ ""

/-- The error of a task that has been woken too often. -/
def ceilingReached (call : TaskCall) (cap : Nat) : String :=
  s!"Task {strip call.taskId} has already reached its wake ceiling of {cap} wake requests in the last 24 hours. " ++
    "Wait for the window to roll over, or reduce how often this task re-triggers, before requesting another wakeup."

/-- The tier of an assignment: the owner's, unless it is told another. -/
def assignedTier (authorityTier : Option String) : Tier :=
  authorityTier.elim .owner fun tier => normalizeTier env (.string tier)

/-- `schedule_task_assigned_wakeup` -/
def scheduleTaskAssignedWakeup (cap : Nat) (rows : List WakeRequest) (placing : Placing) (call : TaskCall)
    (authorityTier : Option String) : Except String WakeRequest :=
  if !call.complete then .error "agent_id, task_id, and title are required to schedule a task-assigned wakeup."
  else if cap ≤ recentTaskWakes env rows placing call then .error (ceilingReached call cap)
  else .ok (persistWakeup placing "task_assigned" "task_assigned" s!"Task assigned: {strip call.title}"
    [("agent_id", .string (strip call.agentId)), ("task_id", .string (strip call.taskId)),
      ("task_title", .string (strip call.title)), ("task_description", .string (strip call.body)),
      ("authority_tier", .string (assignedTier env authorityTier).text)]
    (taskMetadata call))

/-- `schedule_task_commented_wakeup`; a burst of comments gives no wake. -/
def scheduleTaskCommentedWakeup (cap : Nat) (debounce : Int) (rows : List WakeRequest) (placing : Placing)
    (call : TaskCall) : Except String (Option WakeRequest) :=
  if !call.complete then .error "agent_id, task_id, and title are required to schedule a task-commented wakeup."
  else if 1 ≤ countWakeRequestsSince env rows (placing.checkedAt - debounce * second) (some "task_commented")
      [("task_id", strip call.taskId), ("agent_id", strip call.agentId)] then .ok none
  else if cap ≤ recentTaskWakes env rows placing call then .error (ceilingReached call cap)
  else .ok (some (persistWakeup placing "task_commented" "task_commented" s!"New comment on: {strip call.title}"
    [("agent_id", .string (strip call.agentId)), ("task_id", .string (strip call.taskId)),
      ("task_title", .string (strip call.title)), ("comment_body", .string (first 500 (strip call.body)))]
    (taskMetadata call)))

/-! ### Recurring schedules -/

/-- A row in `agent_recurring_schedules`, as `list_agent_recurring_schedules` decodes it. -/
structure RecurringSchedule where
  id : Token
  agentId : String
  summary : String
  payload : Fields
  active : Bool
  expiresAt : Option Int
  maxOccurrences : Option Int
  occurrenceCount : Int

def days (n : Int) : Int := n * hours24

/-- `_clamp_recurring_schedule_bounds` -/
def clampRecurringScheduleBounds (now : Int) (maxOccurrences expiresAt : Option Int) : Option Int × Int :=
  let maxOccurrences := maxOccurrences.map fun n => max 1 (min n 3650)
  let ceiling := now + days 365
  match expiresAt, maxOccurrences with
  | some expiresAt, _ => (maxOccurrences, min expiresAt ceiling)
  | none, some _ => (maxOccurrences, ceiling)
  | none, none => (maxOccurrences, min (now + days 90) ceiling)

/-- `create_recurring_schedule`, with a cron expression that has been validated -/
def createRecurringSchedule (id : Token) (now : Int) (agentId summary instruction : String)
    (authorityTier : Option String) (maxOccurrences expiresAt : Option Int) : Except String RecurringSchedule :=
  if strip agentId = "" then .error "agent_id is required to create a recurring schedule."
  else if strip instruction = "" then .error "instruction is required — what should the agent do each time it wakes?"
  else
    let bounds := clampRecurringScheduleBounds now maxOccurrences expiresAt
    .ok
      { id := id
        agentId := strip agentId
        summary := if strip summary = "" then first 200 (strip instruction) else strip summary
        payload := [("instruction", .string (strip instruction)), ("agent_id", .string (strip agentId)),
          ("authority_tier", .string (normalizeTier env (tierValue authorityTier)).text)]
        active := true
        expiresAt := some bounds.2
        maxOccurrences := bounds.1
        occurrenceCount := 0 }

/-- What firing a schedule or a goal comes to. -/
inductive Fired where
  | ended
  | skipped
  | fired (wake : WakeRequest)

/-- The wake of a recurring schedule. -/
def recurringWake (placing : Placing) (schedule : RecurringSchedule) : WakeRequest :=
  let tier := normalizeTier env (schedule.payload.get "authority_tier")
  let instruction := text env schedule.payload "instruction"
  persistWakeup placing "recurring" "recurring_schedule"
    (strip (if schedule.summary = "" then first 200 instruction else schedule.summary))
    [("instruction", .string instruction), ("agent_id", .string (strip schedule.agentId)),
      ("recurring_schedule_id", .string schedule.id.text), ("authority_tier", .string tier.text)]
    [("agent_id", .string (strip schedule.agentId)), ("recurring_schedule_id", .string schedule.id.text),
      ("authority_tier", .string tier.text)]

/-- `_fire_recurring_schedule` -/
def fireRecurringSchedule (cap : Nat) (rows : List WakeRequest) (placing : Placing) (schedule : RecurringSchedule) :
    RecurringSchedule × Fired :=
  if schedule.expiresAt.any (· ≤ placing.checkedAt) || schedule.maxOccurrences.any (· ≤ schedule.occurrenceCount) then
    ({ schedule with active := false }, .ended)
  else if cap ≤ countWakeRequestsSince env rows (placing.checkedAt - hours24) none
      [("recurring_schedule_id", schedule.id.text)] then (schedule, .skipped)
  else ({ schedule with occurrenceCount := schedule.occurrenceCount + 1 }, .fired (recurringWake env placing schedule))

/-! ### Goals -/

/-- The statuses of a goal. -/
inductive GoalStatus where
  | todo
  | inProgress
  | awaitingInput
  | blocked
  | inReview
  | done
  | cancelled
  | exhausted
  deriving DecidableEq, Repr

def GoalStatus.text : GoalStatus → String
  | .todo => "todo"
  | .inProgress => "in_progress"
  | .awaitingInput => "awaiting_input"
  | .blocked => "blocked"
  | .inReview => "in_review"
  | .done => "done"
  | .cancelled => "cancelled"
  | .exhausted => "exhausted"

/-- In `TERMINAL_GOAL_STATUSES` -/
def GoalStatus.terminal : GoalStatus → Bool
  | .done | .cancelled | .exhausted => true
  | _ => false

/-- A row in `agent_goals`. -/
structure Goal where
  id : Token
  projectId : String
  agentId : String
  title : String
  goalText : String
  instruction : String
  status : GoalStatus
  attemptCount : Int
  maxAttempts : Int
  expiresAt : Option Int
  metadata : Fields

/-- The fields that an update gives. -/
structure GoalUpdate where
  status : Option GoalStatus
  title : Option String
  goalText : Option String
  instruction : Option String
  attemptCount : Option Int
  patch : Fields

/-- `update_agent_goal` -/
def updateAgentGoal (goal : Goal) (u : GoalUpdate) : Goal :=
  { goal with
    status := u.status.getD goal.status
    title := u.title.getD goal.title
    goalText := u.goalText.getD goal.goalText
    instruction := u.instruction.getD goal.instruction
    attemptCount := u.attemptCount.getD goal.attemptCount
    metadata := (coerceDict (env.driver goal.metadata)).merge u.patch }

def defaultGoalInstruction : String :=
  "Work this goal each time you wake. If your last approach was rejected or blocked, try a different, reasonable " ++
    "variation before giving up -- never repeat an identical request that already failed once. If you are genuinely " ++
    "stuck and need information or a decision only a human can give, set status to 'awaiting_input' or 'blocked' and " ++
    "say exactly what you need. When the goal is achieved, set status to 'done' and summarize the outcome. If you " ++
    "conclude the goal cannot be achieved, set status to 'cancelled' and say why -- do not keep retrying a dead end. " ++
    "You have a limited number of attempts; use them deliberately."

/-- `_clamp_goal_bounds` -/
def clampGoalBounds (now : Int) (maxAttempts lifetimeDays : Option Int) : Int × Int :=
  (max 1 (min 50 (maxAttempts.getD 5)), now + days (max 1 (min 90 (lifetimeDays.getD 14))))

/-- What the wakes of a goal carry: what is its own, then the attempt and the status. -/
def goalPayload (goal : Goal) (attempt maxAttempts : Int) (status : GoalStatus) (tier : Tier) : Fields :=
  [("goal_id", .string goal.id.text), ("goal_text", .string (strip goal.goalText)),
    ("instruction", .string (strip goal.instruction)), ("agent_id", .string (strip goal.agentId)),
    ("project_id", .string (strip goal.projectId)), ("attempt_number", .int attempt),
    ("max_attempts", .int maxAttempts), ("status", .string status.text), ("authority_tier", .string tier.text)]

/-- What a wake of a goal has in its metadata. -/
def goalMetadata (goal : Goal) (tier : Tier) : Fields :=
  [("agent_id", .string (strip goal.agentId)), ("project_id", .string (strip goal.projectId)),
    ("goal_id", .string goal.id.text), ("authority_tier", .string tier.text)]

/-- `create_goal`: the row, with no tier in its metadata, and the wake of its first attempt. -/
def createGoal (id : Token) (placing : Placing) (projectId agentId goalText title instruction : String)
    (authorityTier : Option String) (maxAttempts lifetimeDays : Option Int) : Except String (Goal × WakeRequest) :=
  if strip agentId = "" then .error "agent_id is required to create a goal."
  else if strip projectId = "" then .error "project_id is required to create a goal."
  else if strip goalText = "" then .error "goal_text is required — what outcome should the agent work toward?"
  else
    let bounds := clampGoalBounds placing.checkedAt maxAttempts lifetimeDays
    let goal : Goal :=
      { id := id
        projectId := strip projectId
        agentId := strip agentId
        title := if strip title = "" then first 200 (strip goalText) else strip title
        goalText := strip goalText
        instruction := if strip instruction = "" then defaultGoalInstruction else strip instruction
        status := .inProgress
        attemptCount := 1
        maxAttempts := bounds.1
        expiresAt := some bounds.2
        metadata := [] }
    let tier := normalizeTier env (tierValue authorityTier)
    let wake := persistWakeup placing "goal" "goal_created" s!"Goal: {goal.title}"
      (goalPayload goal 1 goal.maxAttempts .inProgress tier) (goalMetadata goal tier)
    let update : GoalUpdate := ⟨none, none, none, none, none, [("last_wake_request_id", .string wake.id.text)]⟩
    .ok (updateAgentGoal env goal update, wake)

/-- The title of a goal in the summary of its wakes. -/
def goalTitle (goal : Goal) : String :=
  if strip goal.title = "" then first 200 (strip goal.goalText) else strip goal.title

/-- The tier that a retry reads from the metadata of its goal. -/
def retryTier (goal : Goal) : Tier := normalizeTier env (goal.metadata.get "authority_tier")

/-- `int(goal.get("max_attempts") or DEFAULT_GOAL_MAX_ATTEMPTS)` -/
def attemptLimit (goal : Goal) : Int := if goal.maxAttempts = 0 then 5 else goal.maxAttempts

/-- The wake of the next attempt. -/
def goalWake (placing : Placing) (goal : Goal) : WakeRequest :=
  let attempt := goal.attemptCount + 1
  persistWakeup placing "goal" "goal_retry" s!"Goal: {goalTitle goal} (attempt {attempt}/{attemptLimit goal})"
    (goalPayload goal attempt (attemptLimit goal) goal.status (retryTier env goal))
    (goalMetadata goal (retryTier env goal))

/-- A time in the metadata of a goal, by its microseconds for its text. -/
def isoformat (time : Int) : Value := .int time

/-- `_fire_goal` -/
def fireGoal (cap : Nat) (rows : List WakeRequest) (placing : Placing) (goal : Goal) : Goal × Fired :=
  let expired := goal.expiresAt.any (· ≤ placing.checkedAt)
  if goal.status.terminal then (goal, .ended)
  else if expired || attemptLimit goal ≤ goal.attemptCount then
    let reason := if expired then "lifetime_expired" else "max_attempts_reached"
    (updateAgentGoal env goal ⟨some .exhausted, none, none, none, none,
      [("last_outcome_reason", .string reason), ("exhausted_at", isoformat placing.checkedAt)]⟩, .ended)
  else if cap ≤ countWakeRequestsSince env rows (placing.checkedAt - hours24) none [("goal_id", goal.id.text)] then
    (updateAgentGoal env goal ⟨none, none, none, none, none,
      [("last_skip_reason", .string "goal_daily_wake_cap"), ("last_skip_at", isoformat placing.checkedAt)]⟩, .skipped)
  else
    let wake := goalWake env placing goal
    let status := if goal.status = .todo then GoalStatus.inProgress else goal.status
    (updateAgentGoal env goal ⟨some status, none, none, none, some (goal.attemptCount + 1),
      [("last_skip_reason", .null), ("last_wake_request_id", .string wake.id.text)]⟩, .fired wake)

/-! ### What a call that makes a wake has found -/

variable {env}

theorem assigned_ok {cap : Nat} {rows : List WakeRequest} {placing : Placing} {call : TaskCall}
    {authorityTier : Option String} {wake : WakeRequest}
    (h : scheduleTaskAssignedWakeup env cap rows placing call authorityTier = .ok wake) :
    recentTaskWakes env rows placing call < cap ∧
      wake = persistWakeup placing "task_assigned" "task_assigned" s!"Task assigned: {strip call.title}"
        [("agent_id", .string (strip call.agentId)), ("task_id", .string (strip call.taskId)),
          ("task_title", .string (strip call.title)), ("task_description", .string (strip call.body)),
          ("authority_tier", .string (assignedTier env authorityTier).text)] (taskMetadata call) := by
  unfold scheduleTaskAssignedWakeup at h
  split at h
  · cases h
  · split at h
    · cases h
    · cases h
      exact ⟨not_le.mp ‹_›, rfl⟩

theorem commented_ok {cap : Nat} {debounce : Int} {rows : List WakeRequest} {placing : Placing} {call : TaskCall}
    {wake : WakeRequest} (h : scheduleTaskCommentedWakeup env cap debounce rows placing call = .ok (some wake)) :
    recentTaskWakes env rows placing call < cap ∧
      wake = persistWakeup placing "task_commented" "task_commented" s!"New comment on: {strip call.title}"
        [("agent_id", .string (strip call.agentId)), ("task_id", .string (strip call.taskId)),
          ("task_title", .string (strip call.title)), ("comment_body", .string (first 500 (strip call.body)))]
        (taskMetadata call) := by
  unfold scheduleTaskCommentedWakeup at h
  split at h
  · cases h
  · split at h
    · cases h
    · split at h
      · cases h
      · cases h
        exact ⟨not_le.mp ‹_›, rfl⟩

theorem recurring_fired {cap : Nat} {rows : List WakeRequest} {placing : Placing} {schedule : RecurringSchedule}
    {wake : WakeRequest} (h : (fireRecurringSchedule env cap rows placing schedule).2 = .fired wake) :
    countWakeRequestsSince env rows (placing.checkedAt - hours24) none [("recurring_schedule_id", schedule.id.text)] < cap ∧
      wake = recurringWake env placing schedule := by
  unfold fireRecurringSchedule at h
  split at h
  · cases h
  · split at h
    · cases h
    · cases h
      exact ⟨not_le.mp ‹_›, rfl⟩

theorem goal_fired {cap : Nat} {rows : List WakeRequest} {placing : Placing} {goal : Goal} {wake : WakeRequest}
    (h : (fireGoal env cap rows placing goal).2 = .fired wake) :
    countWakeRequestsSince env rows (placing.checkedAt - hours24) none [("goal_id", goal.id.text)] < cap ∧
      wake = goalWake env placing goal := by
  unfold fireGoal at h
  dsimp only at h
  split at h
  · cases h
  · split at h
    · cases h
    · split at h
      · cases h
      · cases h
        exact ⟨not_le.mp ‹_›, rfl⟩

/-! ### One assignment -/

/-- The driver gives JSON text. -/
def texts : Env where
  lowercase := Lowercase.ascii
  repr _ := ""
  driver fields := .string ((Value.object fields).dumps 0)
  jsonText value := value.dumps 0
  loads _ := none

theorem texts_givesText : texts.GivesText := fun _ => ⟨_, rfl⟩

def placed : Placing := ⟨⟨"wake_1", by decide +kernel, by decide⟩, 0, none, 0, 0⟩

def report : TaskCall := ⟨"a1", "t1", "Report", ""⟩

end Empyralis.Server.Wakes
