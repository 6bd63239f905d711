import Empyralis.Lib.SnapshotCalls
import Empyralis.Server.WakeProducers

/-! Goals and recurring schedules over their whole lives: firings, updates and cancellations of one row, a
    database statement at a time. -/

namespace Empyralis.Server.Wakes
open Text (strip)
open SnapshotCalls

variable (env : Env)

/-- What a firing is given besides the row: the daily cap, the wake requests that are counted, and the wake that
    it may write. -/
structure Scan where
  cap : Nat
  rows : List WakeRequest
  placing : Placing

/-! ### Goals -/

/-- What `_fire_goal` does with a goal that it was given. -/
def goalDecision (scan : Scan) (goal : Goal) : Decision GoalUpdate WakeRequest :=
  let placing := scan.placing
  let expired := goal.expiresAt.any (· ≤ placing.checkedAt)
  if goal.status.terminal then .nothing
  else if expired || attemptLimit goal ≤ goal.attemptCount then
    let reason := if expired then "lifetime_expired" else "max_attempts_reached"
    .write ⟨some .exhausted, none, none, none, none,
      [("last_outcome_reason", .string reason), ("exhausted_at", isoformat placing.checkedAt)]⟩
  else if scan.cap ≤ countWakeRequestsSince env scan.rows (placing.checkedAt - hours24) none
      [("goal_id", goal.id.text)] then
    .write ⟨none, none, none, none, none,
      [("last_skip_reason", .string "goal_daily_wake_cap"), ("last_skip_at", isoformat placing.checkedAt)]⟩
  else
    let wake := goalWake env placing goal
    let status := if goal.status = .todo then GoalStatus.inProgress else goal.status
    .emit (goal.attemptCount + 1) wake ⟨some status, none, none, none, some (goal.attemptCount + 1),
      [("last_skip_reason", .null), ("last_wake_request_id", .string wake.id.text)]⟩

/-- The `UPDATE` of `update_agent_goal`: the columns that it writes are those of the row as it was selected. -/
def writeGoal (u : GoalUpdate) (existing row : Goal) : Goal :=
  let next := updateAgentGoal env existing u
  { row with
    title := next.title
    goalText := next.goalText
    instruction := next.instruction
    status := next.status
    attemptCount := next.attemptCount
    metadata := next.metadata }

/-- The arguments of `update_goal`, with the time of the note. -/
structure GoalEdit where
  status : Option String := none
  title : Option String := none
  goalText : Option String := none
  instruction : Option String := none
  note : String := ""
  actor : String := "agent"
  noteAt : Int := 0

/-- `AGENT_SETTABLE_GOAL_STATUSES` -/
def agentSettableGoalStatuses : List GoalStatus :=
  [.todo, .inProgress, .awaitingInput, .blocked, .inReview, .done, .cancelled]

/-- The status that an update asks for; nothing for a status that may not be set. -/
def GoalEdit.resolved (e : GoalEdit) : Option (Option GoalStatus) :=
  match e.status with
  | none => some none
  | some status => (agentSettableGoalStatuses.find? (·.text = env.lowercase.token status)).map some

def GoalEdit.patch (e : GoalEdit) (resolved : Option GoalStatus) : Fields :=
  let outcome : Fields := match resolved with
    | some .done => [("last_outcome_reason", .string s!"done_by_{e.actor}")]
    | some .cancelled => [("last_outcome_reason", .string s!"cancelled_by_{e.actor}")]
    | _ => []
  if e.note = "" then outcome
  else outcome ++ [("last_note", .string (first 2000 (strip e.note))), ("last_note_by", .string e.actor),
    ("last_note_at", isoformat e.noteAt)]

/-- What `update_goal` writes for a goal that it has read. -/
def goalEdit (e : GoalEdit) (goal : Goal) : Option GoalUpdate :=
  if goal.status.terminal then none
  else (e.resolved env).map fun resolved =>
    ⟨resolved, e.title, e.goalText, e.instruction, none, e.patch resolved⟩

theorem goal_within (scan : Scan) (goal : Goal) (number : Int) (wake : WakeRequest) (u : GoalUpdate)
    (h : goalDecision env scan goal = .emit number wake u) : ∀ n ∈ some (attemptLimit goal), number ≤ n := by
  unfold goalDecision at h
  dsimp only at h
  split at h
  · cases h
  · split at h
    · cases h
    · rename_i hlimit
      split at h
      · cases h
      · cases h
        simp only [Bool.or_eq_true, decide_eq_true_eq, not_or] at hlimit
        rintro _ ⟨⟩
        omega

/-- Goals: a wake is written under the number of its attempt. -/
def goals : Kind Goal GoalUpdate WakeRequest Scan GoalEdit where
  live goal := !goal.status.terminal
  carries u existing := !(u.status.getD existing.status).terminal
  limit goal := some (attemptLimit goal)
  decision := goalDecision env
  edit := goalEdit env
  write := writeGoal env
  within := goal_within env
  keeps _ _ _ := rfl
  carried _ _ _ := rfl

/-- What `create_goal` writes after the wake of the first attempt. -/
def firstUpdate (wake : WakeRequest) : GoalUpdate :=
  ⟨none, none, none, none, none, [("last_wake_request_id", .string wake.id.text)]⟩

/-- `create_goal` up to the row: the wake of the first attempt and the update after it are still to come. -/
def goalStart (goal : Goal) (wake : WakeRequest) : SnapshotCalls.State Goal GoalUpdate WakeRequest :=
  start { goal with metadata := [] } [.emitting 1 wake (firstUpdate wake)]

/-! ### Recurring schedules -/

structure ScheduleUpdate where
  active : Option Bool
  occurrenceCount : Option Int

/-- What `_fire_recurring_schedule` does with a schedule that it was given. -/
def scheduleDecision (scan : Scan) (schedule : RecurringSchedule) : Decision ScheduleUpdate WakeRequest :=
  let placing := scan.placing
  if schedule.expiresAt.any (· ≤ placing.checkedAt) || schedule.maxOccurrences.any (· ≤ schedule.occurrenceCount) then
    .write ⟨some false, none⟩
  else if scan.cap ≤ countWakeRequestsSince env scan.rows (placing.checkedAt - hours24) none
      [("recurring_schedule_id", schedule.id.text)] then .write ⟨none, none⟩
  else .emit (schedule.occurrenceCount + 1) (recurringWake env placing schedule)
    ⟨none, some (schedule.occurrenceCount + 1)⟩

/-- The `UPDATE` of `update_agent_recurring_schedule` -/
def writeSchedule (u : ScheduleUpdate) (existing row : RecurringSchedule) : RecurringSchedule :=
  { row with
    active := u.active.getD existing.active
    occurrenceCount := u.occurrenceCount.getD existing.occurrenceCount }

/-- What `cancel_recurring_schedule` of this agent writes for a schedule that it has read. -/
def cancelSchedule (agentId : String) (schedule : RecurringSchedule) : Option ScheduleUpdate :=
  if strip schedule.agentId = strip agentId ∧ schedule.active then some ⟨some false, none⟩ else none

theorem schedule_within (scan : Scan) (schedule : RecurringSchedule) (number : Int) (wake : WakeRequest)
    (u : ScheduleUpdate) (h : scheduleDecision env scan schedule = .emit number wake u) :
    ∀ n ∈ schedule.maxOccurrences, number ≤ n := by
  unfold scheduleDecision at h
  dsimp only at h
  split at h
  · cases h
  · rename_i hlimit
    split at h
    · cases h
    · cases h
      intro n hn
      simp only [Bool.or_eq_true, not_or, Option.any_eq_true, decide_eq_true_eq] at hlimit
      have hlt : ¬ n ≤ schedule.occurrenceCount := fun hle => hlimit.2 ⟨n, hn, hle⟩
      omega

/-- Recurring schedules: a wake is written under the number of its occurrence. -/
def schedules : Kind RecurringSchedule ScheduleUpdate WakeRequest Scan String where
  live := RecurringSchedule.active
  carries u existing := u.active.getD existing.active
  limit := RecurringSchedule.maxOccurrences
  decision := scheduleDecision env
  edit := cancelSchedule
  write := writeSchedule
  within := schedule_within env
  keeps _ _ _ := rfl
  carried _ _ _ := rfl

/-! ### Calls that nothing comes between -/

variable {env}

/-- What a call comes to that nothing comes between: the row, and the wake that it has written. -/
def alone {ρ υ : Type} (write : υ → ρ → ρ → ρ) (row : ρ) : Decision υ WakeRequest → ρ × Option WakeRequest
  | .nothing => (row, none)
  | .write u => (write u row row, none)
  | .emit _ wake u => (write u row row, some wake)

def Fired.wake : Fired → Option WakeRequest
  | .fired wake => some wake
  | .ended | .skipped => none

theorem writeGoal_alone (u : GoalUpdate) (goal : Goal) : writeGoal env u goal goal = updateAgentGoal env goal u := rfl

theorem fireGoal_alone (scan : Scan) (goal : Goal) :
    alone (writeGoal env) goal (goalDecision env scan goal) =
      ((fireGoal env scan.cap scan.rows scan.placing goal).1,
        (fireGoal env scan.cap scan.rows scan.placing goal).2.wake) := by
  unfold goalDecision fireGoal
  dsimp only
  split
  · rfl
  · split
    · rw [alone, writeGoal_alone]
      rfl
    · split
      · rw [alone, writeGoal_alone]
        rfl
      · rw [alone, writeGoal_alone]
        rfl

theorem fireRecurringSchedule_alone (scan : Scan) (schedule : RecurringSchedule) :
    alone writeSchedule schedule (scheduleDecision env scan schedule) =
      ((fireRecurringSchedule env scan.cap scan.rows scan.placing schedule).1,
        (fireRecurringSchedule env scan.cap scan.rows scan.placing schedule).2.wake) := by
  unfold scheduleDecision fireRecurringSchedule
  dsimp only
  split
  · rfl
  · split
    · rfl
    · rfl

/-- The update after the first wake, on the row without what it writes. -/
theorem writeGoal_firstUpdate {goal : Goal} (hgoal : goal.metadata = []) (wake : WakeRequest) :
    writeGoal env (firstUpdate wake) { updateAgentGoal env goal (firstUpdate wake) with metadata := [] }
      { updateAgentGoal env goal (firstUpdate wake) with metadata := [] } =
        updateAgentGoal env goal (firstUpdate wake) := by
  have hstart : { updateAgentGoal env goal (firstUpdate wake) with metadata := [] } = goal := by
    rw [← hgoal]
    rfl
  rw [hstart, writeGoal_alone]

theorem createGoal_alone {id : Token} {placing : Placing} {projectId agentId goalText title instruction : String}
    {authorityTier : Option String} {maxAttempts lifetimeDays : Option Int} {goal : Goal} {wake : WakeRequest}
    (h : createGoal env id placing projectId agentId goalText title instruction authorityTier maxAttempts
      lifetimeDays = .ok (goal, wake)) :
    1 ≤ goal.maxAttempts ∧ goal.status = .inProgress ∧ goal.attemptCount = 1 ∧
      writeGoal env (firstUpdate wake) { goal with metadata := [] } { goal with metadata := [] } = goal := by
  unfold createGoal at h
  split at h
  · cases h
  · split at h
    · cases h
    · split at h
      · cases h
      · obtain ⟨rfl, rfl⟩ := Prod.mk.inj (Except.ok.inj h)
        exact ⟨le_max_left _ _, rfl, rfl, writeGoal_firstUpdate rfl _⟩

theorem createRecurringSchedule_ok {id : Token} {now : Int} {agentId summary instruction : String}
    {authorityTier : Option String} {maxOccurrences expiresAt : Option Int} {schedule : RecurringSchedule}
    (h : createRecurringSchedule env id now agentId summary instruction authorityTier maxOccurrences
      expiresAt = .ok schedule) :
    schedule.active = true ∧ schedule.occurrenceCount = 0 ∧ ∀ n ∈ schedule.maxOccurrences, 1 ≤ n := by
  unfold createRecurringSchedule at h
  split at h
  · cases h
  · split at h
    · cases h
    · cases h
      refine ⟨rfl, rfl, fun n hn => ?_⟩
      have hbound : n ∈ maxOccurrences.map fun n => max 1 (min n 3650) := by
        dsimp only [clampRecurringScheduleBounds] at hn
        split at hn
        · exact hn
        · exact hn
        · exact hn
      obtain ⟨asked, -, rfl⟩ := Option.map_eq_some_iff.mp hbound
      exact le_max_left _ _

/-! ### Whole lives -/

theorem attemptLimit_of_pos {goal : Goal} (h : 1 ≤ goal.maxAttempts) : attemptLimit goal = goal.maxAttempts := by
  have hne : goal.maxAttempts ≠ 0 := by omega
  exact if_neg hne

theorem goalStart_bounded {goal : Goal} (wake : WakeRequest) (h : 1 ≤ goal.maxAttempts) :
    Bounded (goals env) (some goal.maxAttempts) (goalStart goal wake) := by
  have hlimit : (goals env).limit { goal with metadata := [] } = some goal.maxAttempts :=
    congrArg some (attemptLimit_of_pos h)
  rw [← hlimit]
  refine bounded_start ?_ ?_
  · intro stage hstage
    obtain rfl := List.mem_singleton.mp hstage
    rw [hlimit]
    rintro n ⟨⟩
    exact h
  · rw [hlimit]
    rintro n ⟨⟩
    omega

theorem goalStart_ending {goal : Goal} (wake : WakeRequest) (h : goal.status = .inProgress) :
    Ending (goals env) (goalStart goal wake) := by
  refine ending_start ?_ _
  change (!goal.status.terminal) = true
  rw [h]
  rfl

theorem schedule_bounded {schedule : RecurringSchedule} (h : ∀ n ∈ schedule.maxOccurrences, 1 ≤ n) :
    Bounded (schedules env) schedule.maxOccurrences (start schedule []) := by
  refine bounded_start (fun stage hstage => by cases hstage) fun n hn => ?_
  have hpos := h n hn
  omega

/-- In a run in which each wake is numbered above those before it a goal makes at most `max_attempts` wakes and
    a recurring schedule at most `max_occurrences`. What has ended stays ended, and makes no wake, exactly when
    each call spares it. -/
theorem wakes_bounded (env : Env) :
    (∀ id placing projectId agentId goalText title instruction authorityTier maxAttempts lifetimeDays goal wake labels,
      createGoal env id placing projectId agentId goalText title instruction authorityTier maxAttempts
        lifetimeDays = .ok (goal, wake) →
      (Run.Meets (step (goals env)) Counted (goalStart goal wake) labels → ∀ first t, first <+: labels →
        Run.run (step (goals env)) (goalStart goal wake) first = some t →
        (t.outputs.length : Int) ≤ goal.maxAttempts) ∧
      ((∀ first t, first <+: labels → Run.run (step (goals env)) (goalStart goal wake) first = some t → Final t) ↔
        Run.Meets (step (goals env)) (Unrevived (goals env)) (goalStart goal wake) labels)) ∧
    ∀ id now agentId summary instruction authorityTier maxOccurrences expiresAt schedule labels,
      createRecurringSchedule env id now agentId summary instruction authorityTier maxOccurrences
        expiresAt = .ok schedule →
      (Run.Meets (step (schedules env)) Counted (start schedule []) labels → ∀ first t, first <+: labels →
        Run.run (step (schedules env)) (start schedule []) first = some t →
        ∀ n ∈ schedule.maxOccurrences, (t.outputs.length : Int) ≤ n) ∧
      ((∀ first t, first <+: labels → Run.run (step (schedules env)) (start schedule []) first = some t → Final t) ↔
        Run.Meets (step (schedules env)) (Unrevived (schedules env)) (start schedule []) labels) := by
  constructor
  · intro id placing projectId agentId goalText title instruction authorityTier maxAttempts lifetimeDays goal wake
      labels hcreate
    obtain ⟨hpos, hstatus, -, -⟩ := createGoal_alone hcreate
    refine ⟨?_, final_iff (goalStart_ending wake hstatus)⟩
    rintro hcounted first t ⟨rest, rfl⟩ hrun
    exact outputs_le (goalStart_bounded wake hpos) (Run.meets_prefix hcounted) hrun _ rfl
  · intro id now agentId summary instruction authorityTier maxOccurrences expiresAt schedule labels hcreate
    obtain ⟨hactive, -, hpos⟩ := createRecurringSchedule_ok hcreate
    refine ⟨?_, final_iff (ending_start hactive [])⟩
    rintro hcounted first t ⟨rest, rfl⟩ hrun
    exact outputs_le (schedule_bounded hpos) (Run.meets_prefix hcounted) hrun

/-! ### Runs of one goal and one schedule -/

/-- A firing `n` hours after the start. -/
def firedAt (n : Int) : Scan := ⟨6, [], { placed with checkedAt := n * (3600 * second), dueAt := n * (3600 * second) }⟩

/-- `create_goal` of a goal of at most two attempts. -/
def twoAttempts : Except String (Goal × WakeRequest) :=
  createGoal texts placed.id placed "p1" "a1" "Ship it" "" "" none (some 2) none

/-- A recurring schedule of at most one occurrence. -/
def oneOccurrence : Except String RecurringSchedule :=
  createRecurringSchedule texts placed.id 0 "a1" "" "Report" none (some 1) none

theorem twoAttempts_isSome : twoAttempts.toOption.isSome = true := by decide

theorem oneOccurrence_isSome : oneOccurrence.toOption.isSome = true := by decide

def shipGoal : Goal × WakeRequest := twoAttempts.toOption.get twoAttempts_isSome

def onceReport : RecurringSchedule := oneOccurrence.toOption.get oneOccurrence_isSome

theorem ok_get {α ε : Type} {x : Except ε α} (h : x.toOption.isSome) : x = .ok (x.toOption.get h) := by
  cases x with
  | ok a => rfl
  | error e => cases h

theorem twoAttempts_ok : twoAttempts = .ok (shipGoal.1, shipGoal.2) := ok_get twoAttempts_isSome

theorem oneOccurrence_ok : oneOccurrence = .ok onceReport := ok_get oneOccurrence_isSome

/-- A run of the goal. -/
def shipRun (labels : List (Label Scan GoalEdit)) : Option (SnapshotCalls.State Goal GoalUpdate WakeRequest) :=
  Run.run (step (goals texts)) (goalStart shipGoal.1 shipGoal.2) labels

/-- A run of the schedule. -/
def reportRun (labels : List (Label Scan String)) :
    Option (SnapshotCalls.State RecurringSchedule ScheduleUpdate WakeRequest) :=
  Run.run (step (schedules texts)) (start onceReport []) labels

/-- `count` statements of a call. -/
def moves {ε : Type} (i : Nat) (scan : Scan) (count : Nat) : List (Label Scan ε) := List.replicate count (.move i scan)

/-- The goal is created, and fired until it is exhausted. -/
def firedOnce : List (Label Scan GoalEdit) :=
  moves 0 (firedAt 0) 3 ++ Label.scan :: moves 1 (firedAt 25) 4 ++ Label.scan :: moves 2 (firedAt 50) 3

/-- The goal is created, then fired without its `UPDATE`, then fired again. -/
def firedTwice : List (Label Scan GoalEdit) :=
  moves 0 (firedAt 0) 3 ++ Label.scan :: moves 1 (firedAt 25) 2 ++ Label.fail 1 :: .scan :: moves 2 (firedAt 50) 4

/-- The goal becomes done between the reading of a firing and its wake. -/
def doneWhileFired : List (Label Scan GoalEdit) :=
  moves 0 (firedAt 0) 3 ++ Label.scan :: moves 1 (firedAt 25) 1 ++
    Label.edit (⟨some "done", none, none, none, "", "agent", 0⟩ : GoalEdit) :: moves 2 (firedAt 25) 2 ++
    moves 1 (firedAt 25) 3

/-- The schedule is fired, and then expires. -/
def reportedOnce : List (Label Scan String) :=
  Label.scan :: moves 0 (firedAt 25) 4 ++ Label.scan :: moves 1 (firedAt 50) 3

/-- The schedule is cancelled between the `SELECT` of a firing and its `UPDATE`. -/
def cancelledWhileFired : List (Label Scan String) :=
  Label.scan :: moves 0 (firedAt 25) 3 ++ Label.edit "a1" :: moves 1 (firedAt 25) 2 ++ moves 0 (firedAt 25) 1

theorem wakes_bounded_once :
    (∀ first t, first <+: firedOnce → shipRun first = some t → t.outputs.length ≤ shipGoal.1.maxAttempts ∧ Final t) ∧
      ∀ first t, first <+: reportedOnce → reportRun first = some t →
        (∀ n ∈ onceReport.maxOccurrences, (t.outputs.length : Int) ≤ n) ∧ Final t := by
  obtain ⟨hgoals, hschedules⟩ := wakes_bounded texts
  obtain ⟨hcount, hfinal⟩ := hgoals _ _ _ _ _ _ _ _ _ _ _ _ firedOnce twoAttempts_ok
  obtain ⟨hreports, hended⟩ := hschedules _ _ _ _ _ _ _ _ _ reportedOnce oneOccurrence_ok
  exact ⟨fun first t hfirst hrun => ⟨hcount (by decide) first t hfirst hrun,
      hfinal.mpr (by decide) first t hfirst hrun⟩,
    fun first t hfirst hrun => ⟨hreports (by decide) first t hfirst hrun,
      hended.mpr (by decide) first t hfirst hrun⟩⟩

/-- A firing without its `UPDATE` is not counted, and a firing on its way wakes the agent for a goal that is done or a
schedule that is cancelled. -/
theorem wakes_unbounded :
    twoAttempts = .ok (shipGoal.1, shipGoal.2) ∧ oneOccurrence = .ok onceReport ∧
      (∃ t, shipRun firedTwice = some t ∧ ¬ (t.outputs.length : Int) ≤ shipGoal.1.maxAttempts) ∧
      (∃ t, shipRun doneWhileFired = some t ∧ ¬ Final t) ∧
      ∃ t, reportRun cancelledWhileFired = some t ∧ ¬ Final t := by
  have hcount : (shipRun firedTwice).any fun t => shipGoal.1.maxAttempts < t.outputs.length := by decide
  have hdone : (shipRun doneWhileFired).any fun t => ¬ Final t := by decide
  have hcancelled : (reportRun cancelledWhileFired).any fun t => ¬ Final t := by decide
  obtain ⟨t, hrun, hmore⟩ := (Option.any_eq_true _ _).mp hcount
  refine ⟨twoAttempts_ok, oneOccurrence_ok, ⟨t, hrun, not_le.mpr (of_decide_eq_true hmore)⟩, ?_, ?_⟩
  · obtain ⟨t, hrun, hnot⟩ := (Option.any_eq_true _ _).mp hdone
    exact ⟨t, hrun, of_decide_eq_true hnot⟩
  · obtain ⟨t, hrun, hnot⟩ := (Option.any_eq_true _ _).mp hcancelled
    exact ⟨t, hrun, of_decide_eq_true hnot⟩

end Empyralis.Server.Wakes
