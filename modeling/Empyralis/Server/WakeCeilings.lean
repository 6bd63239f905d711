import Empyralis.Lib.Run
import Empyralis.Server.WakeProducers

/-! Runs of the calls that make wakes, with claims and finalizations between them, one after another: when
    the daily ceilings of a task, a goal and a recurring schedule hold. -/

namespace Empyralis.Server.WakeCeilings
open Text (strip)
open Wakes

variable (env : Env)

/-! ### Runs -/

/-- `max_wakes_per_task_per_day` and its like, and `max_task_comment_wake_debounce_seconds`. -/
structure Caps where
  task : Nat
  goal : Nat
  recurring : Nat
  debounce : Int

variable (caps : Caps)

structure State where
  rows : List WakeRequest
  now : Int

/-- Each call with the times at which it reads and writes. -/
inductive Event where
  | assigned (placing : Placing) (call : TaskCall) (authorityTier : Option String)
  | commented (placing : Placing) (call : TaskCall)
  | goal (placing : Placing) (goal : Goal)
  | recurring (placing : Placing) (schedule : RecurringSchedule)
  | claim (time dueBefore : Int) (limit : Nat)
  | finalize (time : Int) (ids : List Token) (outcome : Outcome)

def Fired.wake : Fired → Option WakeRequest
  | .fired wake => some wake
  | _ => none

/-- The wake that a call makes. -/
def made (rows : List WakeRequest) : Event → Option WakeRequest
  | .assigned placing call tier => (scheduleTaskAssignedWakeup env caps.task rows placing call tier).toOption
  | .commented placing call => (scheduleTaskCommentedWakeup env caps.task caps.debounce rows placing call).toOption.join
  | .goal placing goal => Fired.wake (fireGoal env caps.goal rows placing goal).2
  | .recurring placing schedule => Fired.wake (fireRecurringSchedule env caps.recurring rows placing schedule).2
  | _ => none

/-- The times of a call: when it reads, and when it writes. -/
def Event.times : Event → Int × Int
  | .assigned placing _ _ | .commented placing _ | .goal placing _ | .recurring placing _ =>
    (placing.checkedAt, placing.createdAt)
  | .claim time _ _ | .finalize time _ _ => (time, time)

/-- The rows after an event. -/
def rowsAfter (rows : List WakeRequest) : Event → List WakeRequest
  | .claim time dueBefore limit => claimDueWakeRequests rows time dueBefore limit
  | .finalize time ids outcome => finalizeWakeRequests env rows time ids outcome
  | e => rows ++ (made env caps rows e).toList

/-- Time does not go back. -/
def step (s : State) (e : Event) : Option State :=
  if s.now ≤ e.times.1 ∧ e.times.1 ≤ e.times.2 then some ⟨rowsAfter env caps s.rows e, e.times.2⟩ else none

/-! ### Ceilings -/

/-- What has a ceiling. -/
inductive Subject where
  | task (id : String)
  | goal (id : String)
  | recurring (id : String)

/-- The key by which its wakes are counted. -/
def Subject.key : Subject → String × String
  | .task id => ("task_id", id)
  | .goal id => ("goal_id", id)
  | .recurring id => ("recurring_schedule_id", id)

/-- The ceiling of a subject. -/
def Subject.cap : Subject → Nat
  | .task _ => caps.task
  | .goal _ => caps.goal
  | .recurring _ => caps.recurring

/-- The calls that the ceiling is about. -/
def Subject.makes : Subject → WakeRequest → Bool
  | .task _, row => row.triggerKind = "task_assigned" || row.triggerKind = "task_commented"
  | .goal _, row => row.triggerKind = "goal" && row.reason = "goal_retry"
  | .recurring _, row => row.triggerKind = "recurring"

/-- A wake that was made for the subject, and is not denied. The payload of a row is never written again. -/
def madeFor (subject : Subject) (row : WakeRequest) : Bool :=
  row.status ≠ .denied && subject.makes row && arrow env row.payload subject.key.1 = some subject.key.2

/-- No window of 24 hours has more wakes of a subject than its cap. -/
def Within (rows : List WakeRequest) : Prop :=
  ∀ (subject : Subject) (start : Int),
    rows.countP (fun row => madeFor env subject row && start ≤ row.createdAt && row.createdAt ≤ start + hours24) ≤
      subject.cap caps

/-- A row whose metadata has the key. -/
def keyed (subject : Subject) (row : WakeRequest) : Bool := arrow env row.metadata subject.key.1 = some subject.key.2

/-- The wakes of a subject that a count does not see, since their key is lost. -/
def lost (rows : List WakeRequest) (since : Int) (subject : Subject) : Nat :=
  rows.countP fun row => madeFor env subject row && since ≤ row.createdAt && !keyed env subject row

/-- Where a count finds room, the wakes that have lost their key leave room as well. -/
def Room (rows : List WakeRequest) (since : Int) (subject : Subject) : Prop :=
  countWakeRequestsSince env rows since none [subject.key] < subject.cap caps →
    countWakeRequestsSince env rows since none [subject.key] + lost env rows since subject < subject.cap caps

/-- The subject of a call. -/
def Event.subject : Event → Option Subject
  | .assigned _ call _ | .commented _ call => some (.task (strip call.taskId))
  | .goal _ row => some (.goal row.id.text)
  | .recurring _ schedule => some (.recurring schedule.id.text)
  | _ => none

/-- A call that finds room for a wake finds it with the wakes that have lost their key, too. -/
def Sound (s : State) (e : Event) : Prop := ∀ subject, e.subject = some subject →
    Room env caps s.rows (e.times.1 - hours24) subject

variable {env caps}

theorem countP_le_add {α : Type*} {p q r : α → Bool} {xs : List α}
    (h : ∀ x ∈ xs, p x = true → q x = true ∨ r x = true) :
    xs.countP p ≤ xs.countP q + xs.countP r := by
  induction xs with
  | nil => exact Nat.zero_le _
  | cons x xs ih =>
    have hrest := ih fun y hy => h y (List.mem_cons_of_mem x hy)
    have hx := h x List.mem_cons_self
    rw [List.countP_cons, List.countP_cons, List.countP_cons]
    cases hp : p x with
    | false =>
      simp only [Bool.false_eq_true, if_false]
      omega
    | true =>
      obtain hq | hr := hx hp
      · simp only [hq, if_true]
        omega
      · simp only [hr, if_true]
        omega

/-- The wakes of a subject since a time are counted, or have lost their key. -/
theorem madeSince_le (rows : List WakeRequest) (since : Int) (subject : Subject) :
    rows.countP (fun row => madeFor env subject row && since ≤ row.createdAt) ≤
      countWakeRequestsSince env rows since none [subject.key] + lost env rows since subject := by
  refine countP_le_add fun row _ hmade => ?_
  rw [Bool.and_eq_true, decide_eq_true_eq] at hmade
  obtain ⟨hmade, hsince⟩ := hmade
  have hstatus : row.status ≠ .denied := by
    simp only [madeFor, Bool.and_eq_true, decide_eq_true_eq] at hmade
    exact hmade.1.1
  cases hkey : keyed env subject row with
  | true =>
    refine .inl ?_
    have hmetadata : arrow env row.metadata subject.key.1 = some subject.key.2 := by simpa [keyed] using hkey
    simp [countedSince, hsince, hstatus, hmetadata]
  | false => exact .inr (by simp [hmade, hsince])

/-- A wake whose subject has room for it. -/
theorem within_append {rows : List WakeRequest} (hw : Within env caps rows) {row : WakeRequest} {subject : Subject}
    {since : Int} (hsince : since ≤ row.createdAt - hours24)
    (hroom : countWakeRequestsSince env rows since none [subject.key] + lost env rows since subject < subject.cap caps)
    (honly : ∀ other, madeFor env other row = true → other = subject) : Within env caps (rows ++ [row]) := by
  intro other start
  rw [List.countP_append, List.countP_singleton]
  split
  · rename_i hcounted
    simp only [Bool.and_eq_true, decide_eq_true_eq] at hcounted
    obtain ⟨⟨hmade, -⟩, hend⟩ := hcounted
    obtain rfl := honly other hmade
    -- every wake in the window has been made since the time of the count
    have hwindow : rows.countP (fun r => madeFor env other r && start ≤ r.createdAt && r.createdAt ≤ start + hours24) ≤
        rows.countP fun r => madeFor env other r && since ≤ r.createdAt := by
      refine List.countP_mono_left fun r _ hr => ?_
      simp only [Bool.and_eq_true, decide_eq_true_eq] at hr ⊢
      exact ⟨hr.1.1, by omega⟩
    have hsum := @madeSince_le env rows since other
    omega
  · exact hw other start

/-- What claims and finalizations leave of a row that is not denied. -/
structure Keeps (f : WakeRequest → WakeRequest) : Prop where
  status : ∀ row, row.status ≠ .denied → (f row).status ≠ .denied
  payload : ∀ row, (f row).payload = row.payload
  triggerKind : ∀ row, (f row).triggerKind = row.triggerKind
  reason : ∀ row, (f row).reason = row.reason
  createdAt : ∀ row, (f row).createdAt = row.createdAt

theorem makes_kept {f : WakeRequest → WakeRequest} (hf : Keeps f) (subject : Subject) (row : WakeRequest) :
    subject.makes (f row) = subject.makes row := by
  cases subject with
  | task id => simp only [Subject.makes, hf.triggerKind]
  | goal id => simp only [Subject.makes, hf.triggerKind, hf.reason]
  | recurring id => simp only [Subject.makes, hf.triggerKind]

theorem madeFor_kept {f : WakeRequest → WakeRequest} (hf : Keeps f) {row : WakeRequest} (hrow : row.status ≠ .denied)
    (subject : Subject) : madeFor env subject (f row) = madeFor env subject row := by
  simp only [madeFor, makes_kept hf, hf.payload, hrow, hf.status row hrow, ne_eq, not_false_eq_true, decide_true]

/-- What every reachable state has. -/
structure Inv (env : Env) (caps : Caps) (rows : List WakeRequest) : Prop where
  within : Within env caps rows
  standing : ∀ row ∈ rows, row.status ≠ .denied

theorem inv_map {rows : List WakeRequest} (hi : Inv env caps rows) {f : WakeRequest → WakeRequest} (hf : Keeps f) :
    Inv env caps (rows.map f) := by
  refine ⟨fun subject start => ?_, ?_⟩
  · rw [List.countP_map]
    refine le_trans (List.countP_mono_left fun row hmem hrow => ?_) (hi.within subject start)
    simpa only [Function.comp_apply, madeFor_kept hf (hi.standing row hmem), hf.createdAt] using hrow
  · intro row hmem
    obtain ⟨old, hold, rfl⟩ := List.mem_map.mp hmem
    exact hf.status old (hi.standing old hold)

theorem keeps_ite {p : WakeRequest → Prop} [DecidablePred p] {f : WakeRequest → WakeRequest} (hf : Keeps f) :
    Keeps fun row => if p row then f row else row := by
  constructor
  · intro row hrow
    split
    · exact hf.status row hrow
    · exact hrow
  · intro row
    split
    · exact hf.payload row
    · rfl
  · intro row
    split
    · exact hf.triggerKind row
    · rfl
  · intro row
    split
    · exact hf.reason row
    · rfl
  · intro row
    split
    · exact hf.createdAt row
    · rfl

theorem keeps_finalize (now : Int) (id : Token) (outcome : Outcome) : Keeps (finalizeRow env now id outcome) := by
  have hupdate : Keeps fun row => updateRow env now row outcome.update row := by
    refine ⟨fun row _ => ?_, fun _ => rfl, fun _ => rfl, fun _ => rfl, fun _ => rfl⟩
    cases outcome <;> exact nofun
  exact keeps_ite hupdate

theorem keeps_claim (now : Int) : Keeps (claimRow now) :=
  ⟨fun _ _ => nofun, fun _ => rfl, fun _ => rfl, fun _ => rfl, fun _ => rfl⟩

theorem inv_finalize (now : Int) (outcome : Outcome) {ids : List Token} : ∀ {rows : List WakeRequest},
    Inv env caps rows → Inv env caps (finalizeWakeRequests env rows now ids outcome) := by
  induction ids with
  | nil => exact fun hi => hi
  | cons id ids ih => exact fun hi => ih (inv_map hi (keeps_finalize now id outcome))

/-- A new wake of the subject. -/
structure New (env : Env) (subject : Subject) (createdAt : Int) (row : WakeRequest) : Prop where
  createdAt : row.createdAt = createdAt
  pending : row.status = .pending
  only : ∀ other, madeFor env other row = true → other = subject

theorem new_task {placing : Placing} {triggerKind summary taskId : String} {payload metadata : Fields}
    (hkind : triggerKind = "task_assigned" ∨ triggerKind = "task_commented")
    (htask : arrow env payload "task_id" = some taskId) :
    New env (.task taskId) placing.createdAt (persistWakeup placing triggerKind triggerKind summary payload metadata) := by
  refine ⟨rfl, rfl, fun other hmade => ?_⟩
  have hnot : triggerKind ≠ "goal" ∧ triggerKind ≠ "recurring" := by
    obtain rfl | rfl := hkind
    · exact ⟨by decide, by decide⟩
    · exact ⟨by decide, by decide⟩
  cases other with
  | task id =>
    have hid : some taskId = some id := by
      simp only [madeFor, persistWakeup, Subject.key, htask, Bool.and_eq_true, decide_eq_true_eq] at hmade
      exact hmade.2
    rw [Option.some.inj hid]
  | goal id => simp [madeFor, persistWakeup, Subject.makes, hnot.1] at hmade
  | recurring id => simp [madeFor, persistWakeup, Subject.makes, hnot.2] at hmade

theorem new_recurring (placing : Placing) (schedule : RecurringSchedule) :
    New env (.recurring schedule.id.text) placing.createdAt (recurringWake env placing schedule) := by
  refine ⟨rfl, rfl, fun other hmade => ?_⟩
  cases other with
  | task id => simp [madeFor, recurringWake, persistWakeup, Subject.makes] at hmade
  | goal id => simp [madeFor, recurringWake, persistWakeup, Subject.makes] at hmade
  | recurring id =>
    have hid : schedule.id.text = id := by
      simpa [madeFor, recurringWake, persistWakeup, Subject.makes, Subject.key, arrow, List.lookup_cons] using hmade
    rw [hid]

theorem new_goal (placing : Placing) (goal : Goal) :
    New env (.goal goal.id.text) placing.createdAt (goalWake env placing goal) := by
  refine ⟨rfl, rfl, fun other hmade => ?_⟩
  cases other with
  | task id => simp [madeFor, goalWake, persistWakeup, Subject.makes] at hmade
  | goal id =>
    have hid : goal.id.text = id := by
      simpa [madeFor, goalWake, goalPayload, persistWakeup, Subject.makes, Subject.key, arrow, List.lookup_cons]
        using hmade
    rw [hid]
  | recurring id => simp [madeFor, goalWake, persistWakeup, Subject.makes] at hmade

/-- A call that makes a wake has found room for it. -/
theorem made_spec {rows : List WakeRequest} {e : Event} {row : WakeRequest} (h : made env caps rows e = some row) :
    ∃ subject, e.subject = some subject ∧ New env subject e.times.2 row ∧
      countWakeRequestsSince env rows (e.times.1 - hours24) none [subject.key] < subject.cap caps := by
  cases e with
  | assigned placing call tier =>
    simp only [made, Except.toOption] at h
    split at h
    · cases h
      obtain ⟨hroom, rfl⟩ := assigned_ok ‹_›
      exact ⟨.task (strip call.taskId), rfl, new_task (.inl rfl) (by simp [arrow, List.lookup_cons]), hroom⟩
    · cases h
  | commented placing call =>
    simp only [made, Except.toOption] at h
    split at h
    · cases h
      obtain ⟨hroom, rfl⟩ := commented_ok ‹_›
      exact ⟨.task (strip call.taskId), rfl, new_task (.inr rfl) (by simp [arrow, List.lookup_cons]), hroom⟩
    · cases h
  | goal placing goal =>
    simp only [made, Fired.wake] at h
    split at h
    · cases h
      obtain ⟨hroom, rfl⟩ := goal_fired ‹_›
      exact ⟨.goal goal.id.text, rfl, new_goal placing goal, hroom⟩
    · cases h
  | recurring placing schedule =>
    simp only [made, Fired.wake] at h
    split at h
    · cases h
      obtain ⟨hroom, rfl⟩ := recurring_fired ‹_›
      exact ⟨.recurring schedule.id.text, rfl, new_recurring placing schedule, hroom⟩
    · cases h
  | claim time dueBefore limit => cases h
  | finalize time ids outcome => cases h

/-- One sound step keeps every subject within its ceiling. -/
theorem inv_step {s t : State} {e : Event} (hi : Inv env caps s.rows) (hs : Sound env caps s e)
    (h : step env caps s e = some t) : Inv env caps t.rows := by
  unfold step at h
  split at h
  · rename_i htimes
    cases h
    have hadd : Inv env caps (s.rows ++ (made env caps s.rows e).toList) := by
      cases hmade : made env caps s.rows e with
      | none => simpa using hi
      | some row =>
        obtain ⟨subject, hsubject, hnew, hroom⟩ := made_spec hmade
        refine ⟨within_append hi.within ?_ (hs subject hsubject hroom) hnew.only, ?_⟩
        · rw [hnew.createdAt]
          omega
        · intro r hr
          obtain hold | hlast := List.mem_append.mp hr
          · exact hi.standing r hold
          · obtain rfl := List.mem_singleton.mp hlast
            rw [hnew.pending]
            exact nofun
    cases e with
    | claim time dueBefore limit => exact inv_map hi (keeps_ite (keeps_claim time))
    | finalize time ids outcome => exact inv_finalize time outcome hi
    | assigned placing call tier => exact hadd
    | commented placing call => exact hadd
    | goal placing goal => exact hadd
    | recurring placing schedule => exact hadd
  · cases h

/-- The ceilings hold in every state that a run comes to whose calls, where they find room, find it with the
    wakes that have lost their key, too. -/
theorem wake_ceilings_hold {start s : State} (hstart : start.rows = []) {events : List Event}
    (hsound : Run.Meets (step env caps) (Sound env caps) start events)
    (h : Run.run (step env caps) start events = some s) : Within env caps s.rows := by
  have hinit : Inv env caps start.rows := by
    rw [hstart]
    exact ⟨fun _ _ => Nat.zero_le _, fun _ hrow => by cases hrow⟩
  have hi : Inv env caps s.rows :=
    Run.run_inv (I := fun s => Inv env caps s.rows) (fun _ _ _ hi hc hst => inv_step hi hc hst) hsound hinit h
  exact hi.within

/-! ### What the driver gives -/

theorem arrow_congr {metadata other : Fields} {key : String} (h : metadata.lookup key = other.lookup key) :
    arrow env metadata key = arrow env other key := by
  unfold arrow
  rw [h]

theorem key_ne (subject : Subject) : subject.key.1 ≠ "run_id" ∧ subject.key.1 ≠ "policy_delay_reason" := by
  cases subject with
  | task id => exact ⟨by simp [Subject.key], by simp [Subject.key]⟩
  | goal id => exact ⟨by simp [Subject.key], by simp [Subject.key]⟩
  | recurring id => exact ⟨by simp [Subject.key], by simp [Subject.key]⟩

theorem outcome_patch (outcome : Outcome) (subject : Subject) :
    outcome.update.patch.Nodup ∧ outcome.update.patch.lookup subject.key.1 = none := by
  cases outcome with
  | executed runId =>
    refine ⟨List.pairwise_singleton _ _, ?_⟩
    simp [Outcome.update, List.lookup_cons, beq_eq_false_iff_ne.mpr (key_ne subject).1]
  | failed => exact ⟨List.nodup_nil, rfl⟩

/-- A driver that gives text loses the key at the first finalization. -/
theorem unkeyed_of_text (htext : env.GivesText) (now : Int) (row : WakeRequest) (outcome : Outcome)
    (subject : Subject) :
    keyed env subject (updateRow env now row outcome.update row) = false := by
  obtain ⟨hkeys, hnone⟩ := outcome_patch outcome subject
  obtain ⟨raw, hraw⟩ := htext row.metadata
  have hlookup : (updateRow env now row outcome.update row).metadata.lookup subject.key.1 = none := by
    simp only [updateRow, hraw, coerceDict]
    rw [Fields.lookup_merge hkeys, hnone]
    rfl
  simp [keyed, arrow, hlookup]

/-- The wakes of each subject have its key. -/
def Keyed (env : Env) (rows : List WakeRequest) : Prop :=
  ∀ row ∈ rows, ∀ subject, madeFor env subject row = true → keyed env subject row = true

theorem arrow_withDelay (metadata : Fields) (placing : Placing) (subject : Subject) :
    arrow env (withDelay metadata placing) subject.key.1 = arrow env metadata subject.key.1 := by
  unfold withDelay
  cases placing.delayReason with
  | none => rfl
  | some reason =>
    refine arrow_congr ?_
    rw [Option.elim_some, Fields.lookup_put, if_neg (key_ne subject).2]

theorem made_keyed {rows : List WakeRequest} {e : Event} {row : WakeRequest} (h : made env caps rows e = some row)
    {subject : Subject} (hsubject : e.subject = some subject) : keyed env subject row = true := by
  cases e with
  | assigned placing call tier =>
    cases hsubject
    simp only [made, Except.toOption] at h
    split at h
    · cases h
      obtain ⟨-, rfl⟩ := assigned_ok ‹_›
      simp only [keyed, persistWakeup, arrow_withDelay]
      simp [Subject.key, arrow, taskMetadata, List.lookup_cons]
    · cases h
  | commented placing call =>
    cases hsubject
    simp only [made, Except.toOption] at h
    split at h
    · cases h
      obtain ⟨-, rfl⟩ := commented_ok ‹_›
      simp only [keyed, persistWakeup, arrow_withDelay]
      simp [Subject.key, arrow, taskMetadata, List.lookup_cons]
    · cases h
  | goal placing goal =>
    cases hsubject
    simp only [made, Fired.wake] at h
    split at h
    · cases h
      obtain ⟨-, rfl⟩ := goal_fired ‹_›
      simp only [keyed, goalWake, persistWakeup, arrow_withDelay]
      simp [Subject.key, arrow, goalMetadata, List.lookup_cons]
    · cases h
  | recurring placing schedule =>
    cases hsubject
    simp only [made, Fired.wake] at h
    split at h
    · cases h
      obtain ⟨-, rfl⟩ := recurring_fired ‹_›
      simp only [keyed, recurringWake, persistWakeup, arrow_withDelay]
      simp [Subject.key, arrow, List.lookup_cons]
    · cases h
  | claim time dueBefore limit => cases h
  | finalize time ids outcome => cases h

theorem keyed_map {rows : List WakeRequest} (hk : Keyed env rows) (hstanding : ∀ row ∈ rows, row.status ≠ .denied)
    {f : WakeRequest → WakeRequest} (hf : Keeps f)
    (hkeys : ∀ subject row, keyed env subject (f row) = keyed env subject row) : Keyed env (rows.map f) := by
  intro row hmem subject hmade
  obtain ⟨old, hold, rfl⟩ := List.mem_map.mp hmem
  rw [madeFor_kept hf (hstanding old hold)] at hmade
  rw [hkeys]
  exact hk old hold subject hmade

theorem keyed_finalize (hobject : ∀ fields, env.driver fields = .object fields) (now : Int) (id : Token)
    (outcome : Outcome) (subject : Subject) (row : WakeRequest) :
    keyed env subject (finalizeRow env now id outcome row) = keyed env subject row := by
  obtain ⟨hkeys, hnone⟩ := outcome_patch outcome subject
  unfold finalizeRow
  split
  · have hlookup : (updateRow env now row outcome.update row).metadata.lookup subject.key.1 =
        row.metadata.lookup subject.key.1 := by
      simp only [updateRow, hobject, coerceDict]
      rw [Fields.lookup_merge hkeys, hnone]
      rfl
    simp only [keyed, arrow_congr hlookup]
  · rfl

theorem keyed_finalizeAll (hobject : ∀ fields, env.driver fields = .object fields) (now : Int) (outcome : Outcome)
    {ids : List Token} : ∀ {rows : List WakeRequest}, Inv env caps rows → Keyed env rows →
      Keyed env (finalizeWakeRequests env rows now ids outcome) := by
  induction ids with
  | nil => exact fun _ hk => hk
  | cons id ids ih =>
    intro rows hi hk
    have hf : Keeps (finalizeRow env now id outcome) := keeps_finalize now id outcome
    exact ih (inv_map hi hf) (keyed_map hk hi.standing hf (keyed_finalize hobject now id outcome))

/-- One step keeps the keys of the wakes, where the driver gives dictionaries. -/
theorem keyed_step (hobject : ∀ fields, env.driver fields = .object fields) {s t : State} {e : Event}
    (hi : Inv env caps s.rows) (hk : Keyed env s.rows) (h : step env caps s e = some t) : Keyed env t.rows := by
  unfold step at h
  split at h
  · cases h
    have hadd : Keyed env (s.rows ++ (made env caps s.rows e).toList) := by
      intro row hmem subject hmade
      obtain hold | hnew := List.mem_append.mp hmem
      · exact hk row hold subject hmade
      · obtain ⟨own, hown, hnew', -⟩ := made_spec (Option.mem_toList.mp hnew)
        obtain rfl := hnew'.only subject hmade
        exact made_keyed (Option.mem_toList.mp hnew) hown
    cases e with
    | claim time dueBefore limit =>
      refine keyed_map hk hi.standing (keeps_ite (keeps_claim time)) fun subject row => ?_
      split
      · rfl
      · rfl
    | finalize time ids outcome => exact keyed_finalizeAll hobject time outcome hi hk
    | assigned placing call tier => exact hadd
    | commented placing call => exact hadd
    | goal placing goal => exact hadd
    | recurring placing schedule => exact hadd
  · cases h

theorem sound_of_keyed {s : State} (hk : Keyed env s.rows) (e : Event) : Sound env caps s e := by
  intro subject _ hroom
  have hlost : lost env s.rows (e.times.1 - hours24) subject = 0 := by
    refine List.countP_eq_zero.mpr fun row hmem hrow => ?_
    simp only [Bool.and_eq_true, Bool.not_eq_true'] at hrow
    rw [hk row hmem subject hrow.1.1] at hrow
    cases hrow.2
  rwa [hlost, Nat.add_zero]

/-- With a driver that gives dictionaries no wake loses its key, and the ceilings always hold. -/
theorem wake_ceilings_of_dictionaries (hobject : ∀ fields, env.driver fields = .object fields) {start s : State}
    (hstart : start.rows = []) {events : List Event} (h : Run.run (step env caps) start events = some s) :
    Within env caps s.rows := by
  have hinit : Inv env caps start.rows ∧ Keyed env start.rows := by
    rw [hstart]
    exact ⟨⟨fun _ _ => Nat.zero_le _, fun _ hrow => by cases hrow⟩, fun _ hrow => by cases hrow⟩
  exact (Run.run_inv_all (I := fun s => Inv env caps s.rows ∧ Keyed env s.rows)
    (fun _ e _ hi hst => ⟨inv_step hi.1 (sound_of_keyed hi.2 e) hst, keyed_step hobject hi.1 hi.2 hst⟩)
    hinit h).1.within

/-! ### One wake a day -/

def oneADay : Caps := ⟨1, 1, 1, 120⟩

def noWakes : State := ⟨[], 0⟩

/-- The same assignment, at another time. -/
def assignedAt (id : Token) (time : Int) : Event := .assigned ⟨id, time, none, time, time⟩ report none

def firstId : Token := placed.id

def secondId : Token := ⟨"wake_2", by decide +kernel, by decide⟩

/-- The second assignment is made when the first is more than a day old, and executed. -/
def twoDays : List Event :=
  [assignedAt firstId 0, .claim 0 0 5, .finalize 1 [firstId] (.executed .null), assignedAt secondId (hours24 + 1)]

/-- With one wake a day, the second one is made on the next day. -/
theorem wake_ceilings_hold_days :
    ∃ s, Run.run (step texts oneADay) noWakes twoDays = some s ∧ Within texts oneADay s.rows := by
  have hsound : Run.Meets (step texts oneADay) (Sound texts oneADay) noWakes twoDays := by
    refine ⟨?_, nofun, nofun, ?_, trivial⟩
    all_goals
      intro subject hsubject
      cases hsubject
      unfold Room
      decide
  have hrun : (Run.run (step texts oneADay) noWakes twoDays).isSome = true := by decide
  obtain ⟨s, hs⟩ := Option.isSome_iff_exists.mp hrun
  exact ⟨s, hs, wake_ceilings_hold rfl hsound hs⟩

/-- The second assignment is made when the first has been executed. -/
theorem wake_ceilings_hold_executed :
    ∃ s, Run.run (step texts oneADay) noWakes
        [assignedAt firstId 0, .claim 0 0 5, .finalize 1 [firstId] (.executed .null), assignedAt secondId 2] = some s ∧
      ¬ Within texts oneADay s.rows := by
  refine ⟨_, rfl, fun h => ?_⟩
  have hwindow := h (.task "t1") 0
  revert hwindow
  decide

end Empyralis.Server.WakeCeilings
