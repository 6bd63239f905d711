import Empyralis.Lib.NextSlot
import Empyralis.Lib.Run
import Empyralis.Lib.Table
import Empyralis.Server.Tokens

/-! The loop that looks for the slots of the schedules: `run_weekly_scheduler_forever` and
    `_latest_schedule_slot_in_window`. Instants are microseconds; the text of a slot key is the instant
    of its minute. -/

namespace Empyralis.Server.WeeklyScheduler
open Text (strip)
open NextSlot (First Slot Apart Latest Found latestIn)

/-- The two zones that a schedule can have. -/
inductive Timezone where
  | localTime
  | utc
  deriving DecidableEq

/-- An entry of the log that a schedule keeps. -/
structure RunLogEntry where
  at_ : Int
  status : String
  runId : Option Token
  detail : Option Token
  deriving DecidableEq

/-- A stored schedule. -/
structure Schedule where
  id : String
  enabled : Bool
  cron : String
  timezone : String
  wakeMode : Option String
  runRequest : Option Fields
  lastTriggerSlot : Option Int
  lastTriggerDate : Option String
  pendingHeartbeat : Bool
  pendingHeartbeatSlot : Option Int
  nextRunAt : Option Int
  runLog : List RunLogEntry
  lastRunAt : Option Int
  lastRunId : Option Token
  lastError : Option Token
  updatedAt : Int

/-- `croniter` (whether a text is valid, and the first slot after an instant), the date of an instant,
    and the class of the requests. -/
structure Env where
  lowercase : Lowercase
  isValid : String → Bool
  getNext : Timezone → String → Int → Int
  dateKey : Timezone → Int → String
  Request : Type
  runStartRequest : Fields → Except String Request

variable (env : Env)

def second : Int := 1000000

def minute : Int := 60 * second

/-- The minute of a time. -/
def slotKey (slot : Int) : Int := slot - slot % minute

/-- `_normalized_schedule_timezone` -/
def normalizedScheduleTimezone (value : String) : Timezone :=
  if env.lowercase.token value = "utc" then .utc else .localTime

def cronExpr (schedule : Schedule) : String := strip schedule.cron

/-- The slots of a schedule. -/
def slots (schedule : Schedule) : Int → Int :=
  env.getNext (normalizedScheduleTimezone env schedule.timezone) (cronExpr schedule)

/-- A schedule with an expression that can be read. -/
def hasCron (schedule : Schedule) : Bool := cronExpr schedule ≠ "" && env.isValid (cronExpr schedule)

/-- `_latest_schedule_slot_in_window` -/
def latestScheduleSlotInWindow (schedule : Schedule) (windowStart windowEnd : Int) : Option Int :=
  if hasCron env schedule then
    latestIn (slots env schedule) windowStart windowEnd 32 (windowStart - minute) none
  else none

/-- `_compute_schedule_next_run_at` -/
def computeScheduleNextRunAt (schedule : Schedule) (now : Int) : Option Int :=
  if hasCron env schedule then some (slots env schedule now) else none

/-- `_append_schedule_run_log` -/
def appendScheduleRunLog (schedule : Schedule) (status : String) (now : Int) (runId detail : Option String) :
    Schedule :=
  let entry : RunLogEntry := ⟨now, status, Token.readOpt runId, Token.readOpt detail⟩
  let log := schedule.runLog ++ [entry]
  { schedule with
    runLog := log.drop (log.length - 10)
    lastRunAt := some now
    lastRunId := entry.runId.or schedule.lastRunId
    lastError := if status ∈ ["queued", "started", "completed"] then none
      else entry.detail.or schedule.lastError
    nextRunAt := computeScheduleNextRunAt env schedule now }

/-- The wake mode, which is `now` unless it is given. -/
def wakeMode (schedule : Schedule) : String :=
  let mode := env.lowercase.token (schedule.wakeMode.getD "now")
  if mode = "" then "now" else mode

/-- How long the processing of an iteration takes, what `execute_scheduled_run_request` returns or
    raises in it, and the time that it stamps. -/
structure Iteration where
  processing : Nat
  execute : env.Request → String → Except String (Option String)
  stamp : Int

/-- The schedules in memory, the calls of `execute_scheduled_run_request` (the schedule and the slot),
    and whether there is something to persist. -/
structure Pass where
  schedules : Table String Schedule
  executed : List (String × Int)
  changed : Bool

/-- A schedule is written back. -/
def Pass.store (pass : Pass) (schedule : Schedule) : Pass :=
  { pass with schedules := pass.schedules.put schedule.id schedule, changed := true }

/-- A slot is executed. -/
def Pass.execute (pass : Pass) (id : String) (slot : Int) : Pass :=
  { pass with executed := pass.executed ++ [(id, slot)] }

variable {env} (it : Iteration env) (now : Int)

/-- The schedule with the slot marked as triggered. -/
def triggered (env : Env) (now slot : Int) (current : Schedule) : Schedule :=
  { current with
    lastTriggerSlot := some (slotKey slot)
    lastTriggerDate := some (env.dateKey (normalizedScheduleTimezone env current.timezone) now) }

/-- Left for the next heartbeat. -/
def awaitHeartbeat (slot : Int) (current : Schedule) : Schedule :=
  { current with
    pendingHeartbeat := true
    pendingHeartbeatSlot := some (slotKey slot)
    lastError := none
    nextRunAt := computeScheduleNextRunAt env current now
    updatedAt := it.stamp }

/-- The schedule after its run was started, or could not be. -/
def finish (current : Schedule) : Except String (Option String) → Schedule
  | .ok runId =>
    { appendScheduleRunLog env { current with pendingHeartbeat := false, pendingHeartbeatSlot := none }
        "started" now runId (some "Scheduled run started immediately.") with updatedAt := it.stamp }
  | .error detail =>
    { appendScheduleRunLog env current "failed" now none (some detail) with updatedAt := it.stamp }

/-- What is done for one schedule, `schedule` as it was copied before the loop. -/
def visit (windowStart : Int) (pass : Pass) (schedule : Schedule) : Pass :=
  if !schedule.enabled then pass else
  match latestScheduleSlotInWindow env schedule windowStart now with
  | none => pass
  | some slot =>
    if schedule.lastTriggerSlot = some (slotKey slot) then pass
    else if schedule.id = "" then pass
    else match pass.schedules.get? schedule.id with
      | none => pass
      | some current =>
        let current := triggered env now slot current
        if wakeMode env current = "next-heartbeat" then pass.store (awaitHeartbeat it now slot current)
        else match env.runStartRequest (schedule.runRequest.getD []) with
          | .error detail => pass.store (finish it now current (.error detail))
          | .ok request =>
            (pass.execute schedule.id slot).store (finish it now current (it.execute request schedule.id))

/-- `checked` is the `now` of the last iteration, or the start of the scheduler; `now` is the end of its
    processing. -/
structure State where
  schedules : Table String Schedule
  persisted : Table String Schedule
  executed : List (String × Int)
  checked : Int
  now : Int

/-- What an iteration begins with. -/
def State.pass (s : State) : Pass := ⟨s.schedules, s.executed, false⟩

/-- `poll_seconds`, as a time. -/
def poll (schedulerPollSeconds : Int) : Int := max 5 schedulerPollSeconds * second

/-- One iteration of `run_weekly_scheduler_forever`: the sleep, then the processing. -/
def iterate (schedulerPollSeconds : Int) (s : State) (it : Iteration env) : State :=
  let now := s.now + poll schedulerPollSeconds
  let windowStart := now - (poll schedulerPollSeconds + second)
  let items := s.schedules.entries.map Prod.snd
  let pass := items.foldl (visit it now windowStart) s.pass
  { schedules := pass.schedules
    persisted := if pass.changed then pass.schedules else s.persisted
    executed := pass.executed
    checked := now
    now := now + it.processing }

def step (schedulerPollSeconds : Int) (s : State) (it : Iteration env) : Option State :=
  some (iterate schedulerPollSeconds s it)

/-! ### What a pass does to one schedule -/

/-- What the loop never changes of a schedule. -/
structure SameOrders (a b : Schedule) : Prop where
  id : a.id = b.id
  enabled : a.enabled = b.enabled
  cron : a.cron = b.cron
  timezone : a.timezone = b.timezone
  wakeMode : a.wakeMode = b.wakeMode
  runRequest : a.runRequest = b.runRequest

/-- An enabled schedule with wake mode `now`, as it is accepted when it is saved. -/
structure Armed (env : Env) (schedule : Schedule) : Prop where
  enabled : schedule.enabled = true
  wakeMode : wakeMode env schedule = "now"
  hasCron : hasCron env schedule = true
  request : ∃ request, env.runStartRequest (schedule.runRequest.getD []) = .ok request

/-- Each schedule is kept under its `id`. -/
def Keyed (schedules : Table String Schedule) : Prop :=
  ∀ id schedule, schedules.get? id = some schedule → schedule.id = id ∧ id ≠ ""

theorem SameOrders.trans {a b c : Schedule} (hab : SameOrders a b) (hbc : SameOrders b c) :
    SameOrders a c :=
  ⟨hab.id.trans hbc.id, hab.enabled.trans hbc.enabled, hab.cron.trans hbc.cron,
    hab.timezone.trans hbc.timezone, hab.wakeMode.trans hbc.wakeMode, hab.runRequest.trans hbc.runRequest⟩

theorem SameOrders.slots {a b : Schedule} (h : SameOrders a b) : slots env a = slots env b := by
  simp only [WeeklyScheduler.slots, cronExpr, h.cron, h.timezone]

theorem SameOrders.armed {a b : Schedule} (h : SameOrders a b) (ha : Armed env a) : Armed env b where
  enabled := h.enabled ▸ ha.enabled
  wakeMode := by
    have hmode : WeeklyScheduler.wakeMode env a = "now" := ha.wakeMode
    simpa only [WeeklyScheduler.wakeMode, h.wakeMode] using hmode
  hasCron := by
    have hcron : WeeklyScheduler.hasCron env a = true := ha.hasCron
    have hexpr : cronExpr a = cronExpr b := congrArg strip h.cron
    rwa [WeeklyScheduler.hasCron, hexpr] at hcron
  request := h.runRequest ▸ ha.request

theorem sameOrders_finish (slot : Int) (current : Schedule) (result : Except String (Option String)) :
    SameOrders current (finish it now (triggered env now slot current) result) ∧
      (finish it now (triggered env now slot current) result).lastTriggerSlot = some (slotKey slot) := by
  cases result with
  | ok runId => exact ⟨⟨rfl, rfl, rfl, rfl, rfl, rfl⟩, rfl⟩
  | error detail => exact ⟨⟨rfl, rfl, rfl, rfl, rfl, rfl⟩, rfl⟩

theorem sameOrders_awaitHeartbeat (slot : Int) (current : Schedule) :
    SameOrders current (awaitHeartbeat it now slot (triggered env now slot current)) :=
  ⟨rfl, rfl, rfl, rfl, rfl, rfl⟩

theorem wakeMode_triggered (slot : Int) (current : Schedule) :
    wakeMode env (triggered env now slot current) = wakeMode env current := rfl

/-- A visit leaves its schedules alone, or stores this one, executed or not. -/
theorem visit_cases (windowStart : Int) (pass : Pass) (schedule : Schedule) :
    visit it now windowStart pass schedule = pass ∨
      ∃ current stored, pass.schedules.get? schedule.id = some current ∧ SameOrders current stored ∧
        (visit it now windowStart pass schedule = pass.store stored ∨
          ∃ slot, visit it now windowStart pass schedule = (pass.execute schedule.id slot).store stored) := by
  unfold visit
  split
  · exact .inl rfl
  split
  · exact .inl rfl
  next slot _ =>
    split
    · exact .inl rfl
    split
    · exact .inl rfl
    split
    · exact .inl rfl
    next current hget =>
      refine .inr ⟨current, ?_⟩
      dsimp only
      split
      · exact ⟨_, hget, sameOrders_awaitHeartbeat it now slot current, .inl rfl⟩
      split
      · exact ⟨_, hget, (sameOrders_finish it now slot current _).1, .inl rfl⟩
      · exact ⟨_, hget, (sameOrders_finish it now slot current _).1, .inr ⟨slot, rfl⟩⟩

/-- What a pass leaves of the schedule `id`: its orders, and the slots executed for it. -/
structure SameFor (id : String) (p q : Pass) : Prop where
  schedule : q.schedules.get? id = p.schedules.get? id
  executed : ∀ slot, q.executed.count (id, slot) = p.executed.count (id, slot)

theorem visit_keyed {pass : Pass} (windowStart : Int) (schedule : Schedule) (h : Keyed pass.schedules) :
    Keyed (visit it now windowStart pass schedule).schedules := by
  have hput : ∀ current stored, pass.schedules.get? schedule.id = some current →
      SameOrders current stored → Keyed (pass.schedules.put stored.id stored) := by
    intro current stored hget hsame id other hother
    rw [Table.get?_put] at hother
    split at hother
    · obtain rfl : stored = other := by simpa using hother
      have hid : current.id = schedule.id ∧ schedule.id ≠ "" := h _ _ hget
      rename_i heq
      exact ⟨heq.symm, by rw [heq, ← hsame.id, hid.1]; exact hid.2⟩
    · exact h id other hother
  obtain heq | ⟨current, stored, hget, hsame, heq | ⟨slot, heq⟩⟩ := visit_cases it now windowStart pass schedule
  · rwa [heq]
  · rw [heq]
    exact hput current stored hget hsame
  · rw [heq]
    exact hput current stored hget hsame

theorem visit_other {pass : Pass} (windowStart : Int) {schedule : Schedule} {id : String}
    (hkeyed : Keyed pass.schedules) (hid : schedule.id ≠ id) :
    SameFor id pass (visit it now windowStart pass schedule) := by
  obtain heq | ⟨current, stored, hget, hsame, heq⟩ := visit_cases it now windowStart pass schedule
  · rw [heq]
    exact ⟨rfl, fun _ => rfl⟩
  · have hstored : id ≠ stored.id := by
      rw [← hsame.id, (hkeyed _ _ hget).1]
      exact Ne.symm hid
    have hget : (pass.schedules.put stored.id stored).get? id = pass.schedules.get? id := by
      rw [Table.get?_put, if_neg hstored]
    obtain heq | ⟨slot, heq⟩ := heq
    · rw [heq]
      exact ⟨hget, fun _ => rfl⟩
    · rw [heq]
      refine ⟨hget, fun u => ?_⟩
      have hne : (schedule.id, slot) ≠ (id, u) := fun h => hid (congrArg Prod.fst h)
      simp [Pass.store, Pass.execute, List.count_append, hne]

/-- The visit of the schedule itself, whose copy is up to date. -/
theorem visit_self {pass : Pass} (windowStart : Int) {schedule : Schedule} (harmed : Armed env schedule)
    (hid : schedule.id ≠ "") (hget : pass.schedules.get? schedule.id = some schedule) :
    (∀ slot, latestScheduleSlotInWindow env schedule windowStart now = some slot →
        schedule.lastTriggerSlot ≠ some (slotKey slot) →
        ∃ stored, SameOrders schedule stored ∧ stored.lastTriggerSlot = some (slotKey slot) ∧
          visit it now windowStart pass schedule = (pass.execute schedule.id slot).store stored) ∧
      ((∀ slot, latestScheduleSlotInWindow env schedule windowStart now = some slot →
        schedule.lastTriggerSlot = some (slotKey slot)) → visit it now windowStart pass schedule = pass) := by
  obtain ⟨request, hrequest⟩ := harmed.request
  have hmode : ¬ wakeMode env schedule = "next-heartbeat" := by
    rw [harmed.wakeMode]
    decide
  constructor
  · intro slot hfound hkey
    have hsame := sameOrders_finish it now slot schedule (it.execute request schedule.id)
    refine ⟨_, hsame.1, hsame.2, ?_⟩
    simp only [visit, harmed.enabled, hfound, hkey, hid, hget, wakeMode_triggered, hmode, hrequest,
      Bool.not_true, Bool.false_eq_true, if_false]
  · intro hkey
    cases hfound : latestScheduleSlotInWindow env schedule windowStart now with
    | none => simp [visit, harmed.enabled, hfound]
    | some slot => simp [visit, harmed.enabled, hfound, hkey slot hfound]

/-- Visits of other schedules, one after the other. -/
theorem visits_other (windowStart : Int) {id : String} (items : List Schedule) (h : ∀ x ∈ items, x.id ≠ id) :
    ∀ {pass : Pass}, Keyed pass.schedules →
      Keyed (items.foldl (visit it now windowStart) pass).schedules ∧
        SameFor id pass (items.foldl (visit it now windowStart) pass) := by
  induction items with
  | nil => exact fun hkeyed => ⟨hkeyed, rfl, fun _ => rfl⟩
  | cons x items ih =>
    intro pass hkeyed
    obtain ⟨hx, hrest⟩ := List.forall_mem_cons.mp h
    have hone : SameFor id pass (visit it now windowStart pass x) := visit_other it now windowStart hkeyed hx
    obtain ⟨hkeyed', hsame⟩ := ih hrest (visit_keyed it now windowStart x hkeyed)
    exact ⟨hkeyed', hsame.schedule.trans hone.schedule,
      fun slot => (hsame.executed slot).trans (hone.executed slot)⟩

/-! ### What an iteration does to one schedule -/

variable {it} {schedulerPollSeconds : Int}

/-- The window of the next iteration, which ends at the next check. -/
def window (schedulerPollSeconds : Int) (s : State) : Int × Int :=
  (s.now - second, s.now + poll schedulerPollSeconds)

/-- The slot that the next iteration looks at. -/
def found (env : Env) (schedulerPollSeconds : Int) (s : State) (schedule : Schedule) : Option Int :=
  latestScheduleSlotInWindow env schedule (window schedulerPollSeconds s).1 (window schedulerPollSeconds s).2

/-- The slot has been executed, and is marked as the last one. -/
structure Executes (id : String) (schedule : Schedule) (slot : Int) (p q : Pass) : Prop where
  stored : ∃ stored, q.schedules.get? id = some stored ∧ SameOrders schedule stored ∧
    stored.lastTriggerSlot = some (slotKey slot)
  executed : ∀ u, q.executed.count (id, u) = p.executed.count (id, u) + if u = slot then 1 else 0

/-- The items of a pass, split at the schedule. -/
theorem items_split {schedules : Table String Schedule} {id : String} {schedule : Schedule}
    (hkeyed : Keyed schedules) (hget : schedules.get? id = some schedule) :
    ∃ before after, schedules.entries.map Prod.snd = before ++ schedule :: after ∧
      (∀ x ∈ before, x.id ≠ id) ∧ ∀ x ∈ after, x.id ≠ id := by
  have hmem : (id, schedule) ∈ schedules.entries := Table.get?_eq_some.mp hget
  obtain ⟨before, after, hsplit⟩ := List.append_of_mem hmem
  have hkeys : (schedules.entries.map Prod.fst).Nodup := schedules.nodup
  rw [hsplit, List.map_append, List.map_cons, List.nodup_middle, List.nodup_cons, List.mem_append,
    not_or] at hkeys
  obtain ⟨⟨hbefore, hafter⟩, -⟩ := hkeys
  have hids : ∀ e ∈ schedules.entries, e.2.id = e.1 := fun e he =>
    (hkeyed e.1 e.2 (Table.get?_eq_some.mpr he)).1
  have hother : ∀ part : List (String × Schedule), (∀ e ∈ part, e ∈ schedules.entries) →
      id ∉ part.map Prod.fst → ∀ x ∈ part.map Prod.snd, x.id ≠ id := by
    intro part hsub hout x hx heq
    obtain ⟨e, he, rfl⟩ := List.mem_map.mp hx
    exact hout (List.mem_map.mpr ⟨e, he, (hids e (hsub e he)).symm.trans heq⟩)
  refine ⟨before.map Prod.snd, after.map Prod.snd, by rw [hsplit, List.map_append, List.map_cons],
    hother before (fun e he => ?_) hbefore, hother after (fun e he => ?_) hafter⟩
  · rw [hsplit]
    exact List.mem_append_left _ he
  · rw [hsplit]
    exact List.mem_append_right _ (List.mem_cons_of_mem _ he)

/-- Of the visits of a pass, one is to the schedule. -/
theorem visits_spec (it : Iteration env) (now windowStart : Int) {p : Pass} {id : String} {schedule : Schedule}
    (hkeyed : Keyed p.schedules) (hget : p.schedules.get? id = some schedule) (harmed : Armed env schedule) :
    let q := (p.schedules.entries.map Prod.snd).foldl (visit it now windowStart) p
    Keyed q.schedules ∧
      (∀ slot, latestScheduleSlotInWindow env schedule windowStart now = some slot →
        schedule.lastTriggerSlot ≠ some (slotKey slot) → Executes id schedule slot p q) ∧
      ((∀ slot, latestScheduleSlotInWindow env schedule windowStart now = some slot →
        schedule.lastTriggerSlot = some (slotKey slot)) → SameFor id p q) := by
  intro q
  obtain ⟨hid, hne⟩ := hkeyed id schedule hget
  obtain ⟨before, after, hitems, hbefore, hafter⟩ := items_split hkeyed hget
  obtain ⟨hkeyed₁, hsame₁⟩ := visits_other it now windowStart before hbefore hkeyed
  set p₁ := before.foldl (visit it now windowStart) p with hp₁
  have hkeyed₂ := visit_keyed it now windowStart schedule hkeyed₁
  set p₂ := visit it now windowStart p₁ schedule with hp₂
  obtain ⟨hkeyed₃, hsame₃⟩ := visits_other it now windowStart after hafter hkeyed₂
  have hq : q = after.foldl (visit it now windowStart) p₂ := by
    simp only [q, hitems, List.foldl_append, List.foldl_cons, hp₂, hp₁]
  rw [← hq] at hkeyed₃ hsame₃
  have hget₁ : p₁.schedules.get? schedule.id = some schedule := by
    rw [hid, hsame₁.schedule]
    exact hget
  obtain ⟨hnew, hold⟩ := visit_self it now windowStart harmed (hid.symm ▸ hne) hget₁
  refine ⟨hkeyed₃, ?_, ?_⟩
  · intro slot hfound hkey
    obtain ⟨stored, hstored, hlast, heq⟩ := hnew slot hfound hkey
    have hsid : stored.id = id := hstored.id.symm.trans hid
    refine ⟨⟨stored, ?_, hstored, hlast⟩, fun u => ?_⟩
    · rw [hsame₃.schedule, hp₂, heq]
      simp [Pass.store, hsid]
    · rw [hsame₃.executed, hp₂, heq, ← hsame₁.executed u]
      by_cases hu : u = slot
      · simp [Pass.store, Pass.execute, List.count_append, hid, hu]
      · have hus : slot ≠ u := Ne.symm hu
        simp [Pass.store, Pass.execute, List.count_append, hu, hus]
  · intro hkey
    have heq : p₂ = p₁ := hold hkey
    rw [heq] at hsame₃
    exact ⟨hsame₃.schedule.trans hsame₁.schedule, fun u => (hsame₃.executed u).trans (hsame₁.executed u)⟩

/-- What an iteration does to a schedule that is armed. -/
theorem iterate_spec (schedulerPollSeconds : Int) (it : Iteration env) {s : State} {id : String}
    {schedule : Schedule} (hkeyed : Keyed s.schedules)
    (hget : s.schedules.get? id = some schedule) (harmed : Armed env schedule) :
    let t := iterate schedulerPollSeconds s it
    Keyed t.schedules ∧
      (∀ slot, found env schedulerPollSeconds s schedule = some slot →
        schedule.lastTriggerSlot ≠ some (slotKey slot) → Executes id schedule slot s.pass t.pass) ∧
      ((∀ slot, found env schedulerPollSeconds s schedule = some slot →
        schedule.lastTriggerSlot = some (slotKey slot)) → SameFor id s.pass t.pass) := by
  have hwindow : s.now + poll schedulerPollSeconds - (poll schedulerPollSeconds + second) =
      s.now - second := by omega
  obtain ⟨hkeyed', hnew, hold⟩ :=
    @visits_spec env it (s.now + poll schedulerPollSeconds) (s.now - second) s.pass id schedule hkeyed hget harmed
  have hpass : (iterate schedulerPollSeconds s it).pass = { (s.pass.schedules.entries.map Prod.snd).foldl
      (visit it (s.now + poll schedulerPollSeconds) (s.now - second)) s.pass with changed := false } := by
    simp only [iterate, State.pass, hwindow]
  intro t
  have ht : t.schedules = t.pass.schedules := rfl
  rw [ht, hpass]
  refine ⟨hkeyed', fun slot hfound hkey => ?_, fun hkey => ?_⟩
  · have h := hnew slot hfound hkey
    exact ⟨h.stored, h.executed⟩
  · have h := hold hkey
    exact ⟨h.schedule, h.executed⟩

/-! ### Runs of the loop -/

theorem second_le_poll (schedulerPollSeconds : Int) : 5 * second ≤ poll schedulerPollSeconds := by
  have hmax : 5 ≤ max 5 schedulerPollSeconds := le_max_left 5 schedulerPollSeconds
  simp only [poll, second]
  omega

/-- 32 candidates reach past the window: its slots are more than five seconds apart. -/
theorem found_spec {s : State} {schedule : Schedule} (hnext : First (slots env schedule))
    (hapart : Apart (slots env schedule) (poll schedulerPollSeconds)) (harmed : Armed env schedule) :
    Found (slots env schedule) (s.now - second) (s.now + poll schedulerPollSeconds)
      (found env schedulerPollSeconds s schedule) := by
  have hpoll : 5 * second ≤ poll schedulerPollSeconds := second_le_poll schedulerPollSeconds
  have hsecond : second = 1000000 := rfl
  have hminute : minute = 60000000 := rfl
  have hafter : s.now - second - minute < slots env schedule (s.now - second - minute) := hnext.after _
  have hfar : s.now + poll schedulerPollSeconds <
      slots env schedule (s.now - second - minute) + (31 : Nat) * poll schedulerPollSeconds := by
    push_cast
    omega
  have hnone : Found (slots env schedule) (s.now - second) (s.now - second - minute) none := by
    intro u _ hlo
    omega
  have hscan := NextSlot.latestIn_found hnext hapart (by omega) 31 (by omega) hfar hnone
  simpa only [found, latestScheduleSlotInWindow, window, harmed.hasCron, if_true] using hscan

/-- Each slot up to the last check, after the scheduler started, has been executed exactly once. -/
def FiredOnce (env : Env) (id : String) (schedule : Schedule) (start : Int) (s : State) : Prop :=
  ∀ slot, Slot (slots env schedule) slot → start < slot → slot ≤ s.checked → s.executed.count (id, slot) = 1

/-- No slot since the last check lies more than one second before the end of its processing, and none
    has the minute of the slot that was triggered last. -/
def Caught (env : Env) (schedulerPollSeconds : Int) (id : String) (schedule : Schedule) (s : State)
    (_ : Iteration env) : Prop :=
  ∀ slot, Slot (slots env schedule) slot → s.checked < slot → slot ≤ s.now + poll schedulerPollSeconds →
    s.now - second < slot ∧ (s.schedules.get? id).bind Schedule.lastTriggerSlot ≠ some (slotKey slot)

/-- The slots up to the last iteration have been executed. -/
structure Inv (env : Env) (schedulerPollSeconds : Int) (id : String) (schedule : Schedule) (start : Int)
    (s : State) : Prop where
  keyed : Keyed s.schedules
  current : ∃ current, s.schedules.get? id = some current ∧ SameOrders schedule current ∧
    ∀ slot, Latest (slots env schedule) (s.checked - (poll schedulerPollSeconds + second)) s.checked slot →
      start < slot → current.lastTriggerSlot = some (slotKey slot)
  start_le : start ≤ s.checked
  checked_le : s.checked ≤ s.now
  apart : s.now = s.checked ∨ Apart (slots env schedule) (poll schedulerPollSeconds + (s.now - s.checked))
  fired : FiredOnce env id schedule start s
  later : ∀ slot, s.checked < slot → s.executed.count (id, slot) = 0

variable {id : String} {schedule : Schedule} {start : Int} {s : State}

/-- Two slots since the last check are too far apart for one iteration. -/
theorem Inv.unique (hi : Inv env schedulerPollSeconds id schedule start s) (hnext : First (slots env schedule))
    (hapart : Apart (slots env schedule) (poll schedulerPollSeconds)) {u v : Int}
    (hu : Slot (slots env schedule) u) (hv : Slot (slots env schedule) v) (hlow : s.checked < u)
    (hhigh : v ≤ s.now + poll schedulerPollSeconds) : v ≤ u := by
  by_contra hlt
  obtain hidle | hbusy := hi.apart
  · have hfar : poll schedulerPollSeconds < v - u := NextSlot.apart_of_lt hnext hapart hu hv (by omega)
    omega
  · have hfar := NextSlot.apart_of_lt hnext hbusy hu hv (by omega)
    omega

/-- Of a slot that the stored slot does not hide, which is found: it is new, or from before the start. -/
theorem Inv.found_new (hi : Inv env schedulerPollSeconds id schedule start s) {current : Schedule}
    (hlast : ∀ slot, Latest (slots env schedule) (s.checked - (poll schedulerPollSeconds + second)) s.checked slot →
      start < slot → current.lastTriggerSlot = some (slotKey slot)) {v : Int}
    (hv : Latest (slots env schedule) (s.now - second) (s.now + poll schedulerPollSeconds) v)
    (hkey : current.lastTriggerSlot ≠ some (slotKey v)) : v ≤ start ∨ s.checked < v := by
  by_contra hold
  have hpoll : 5 * second ≤ poll schedulerPollSeconds := second_le_poll schedulerPollSeconds
  have hle : s.checked ≤ s.now := hi.checked_le
  have hsecond : second = 1000000 := rfl
  have hafter : s.now - second < v := hv.after
  have hnext : s.now + poll schedulerPollSeconds < slots env schedule v := hv.last
  exact hkey (hlast v ⟨hv.slot, by omega, by omega, by omega⟩ (by omega))

/-- After an iteration: the clock aside, what the schedule, its mark and its executions must be. -/
theorem Inv.next (hi : Inv env schedulerPollSeconds id schedule start s)
    (hapart : Apart (slots env schedule) (poll schedulerPollSeconds + it.processing)) {stored : Schedule}
    (hkeyed : Keyed (iterate schedulerPollSeconds s it).schedules)
    (hstored : (iterate schedulerPollSeconds s it).schedules.get? id = some stored)
    (hsame : SameOrders schedule stored)
    (hmark : ∀ slot, Latest (slots env schedule) (s.now - second) (s.now + poll schedulerPollSeconds) slot →
      stored.lastTriggerSlot = some (slotKey slot))
    (hfired : FiredOnce env id schedule start (iterate schedulerPollSeconds s it))
    (hlater : ∀ slot, s.now + poll schedulerPollSeconds < slot →
      (iterate schedulerPollSeconds s it).executed.count (id, slot) = 0) :
    Inv env schedulerPollSeconds id schedule start (iterate schedulerPollSeconds s it) := by
  have hchecked : (iterate schedulerPollSeconds s it).checked = s.now + poll schedulerPollSeconds := rfl
  have hnow : (iterate schedulerPollSeconds s it).now = s.now + poll schedulerPollSeconds + it.processing := rfl
  have hwindow : s.now + poll schedulerPollSeconds - (poll schedulerPollSeconds + second) = s.now - second := by
    omega
  have hpoll : 5 * second ≤ poll schedulerPollSeconds := second_le_poll schedulerPollSeconds
  have hsecond : second = 1000000 := rfl
  have hstart : start ≤ s.checked := hi.start_le
  have hle : s.checked ≤ s.now := hi.checked_le
  refine ⟨hkeyed, ⟨stored, hstored, hsame, fun slot hslot _ => ?_⟩, ?_, ?_, ?_, hfired, hlater⟩
  · rw [hchecked, hwindow] at hslot
    exact hmark slot hslot
  · omega
  · omega
  · right
    rwa [hnow, hchecked, add_sub_cancel_left]

/-- One iteration keeps every slot so far fired once, if it catches the next one. -/
theorem inv_step (hi : Inv env schedulerPollSeconds id schedule start s) (hnext : First (slots env schedule))
    (harmed : Armed env schedule)
    (hapart : Apart (slots env schedule) (poll schedulerPollSeconds + it.processing))
    (hcaught : Caught env schedulerPollSeconds id schedule s it) :
    Inv env schedulerPollSeconds id schedule start (iterate schedulerPollSeconds s it) := by
  obtain ⟨current, hget, hsame, hlast⟩ := hi.current
  have hslots : slots env current = slots env schedule := hsame.slots.symm
  have hle : s.checked ≤ s.now := hi.checked_le
  have hpoll : 5 * second ≤ poll schedulerPollSeconds := second_le_poll schedulerPollSeconds
  have hsecond : second = 1000000 := rfl
  have hapart' : Apart (slots env schedule) (poll schedulerPollSeconds) := fun u hu => by
    have hfar := hapart u hu
    omega
  have hscan := found_spec (s := s) (hslots ▸ hnext) (hslots ▸ hapart') (hsame.armed harmed)
  rw [hslots] at hscan
  obtain ⟨hkeyed, hnew, hold⟩ := iterate_spec schedulerPollSeconds it hi.keyed hget (hsame.armed harmed)
  have hcatch : ∀ u, Slot (slots env schedule) u → s.checked < u → u ≤ s.now + poll schedulerPollSeconds →
      s.now - second < u ∧ current.lastTriggerSlot ≠ some (slotKey u) := by
    intro u hu hlow hhigh
    simpa [hget] using hcaught u hu hlow hhigh
  -- the last slot of the window is the one found
  have hlatest : ∀ u, Latest (slots env schedule) (s.now - second) (s.now + poll schedulerPollSeconds) u →
      found env schedulerPollSeconds s current = some u := by
    intro u hu
    cases hfound : found env schedulerPollSeconds s current with
    | none =>
      rw [hfound] at hscan
      have hpast : s.now + poll schedulerPollSeconds < u := hscan u hu.slot hu.after
      have hup : u ≤ s.now + poll schedulerPollSeconds := hu.upTo
      omega
    | some v =>
      rw [hfound] at hscan
      have hv : Latest (slots env schedule) (s.now - second) (s.now + poll schedulerPollSeconds) v := hscan
      exact congrArg some (le_antisymm (hu.le hnext hv.slot hv.upTo) (hv.le hnext hu.slot hu.upTo))
  by_cases hfresh : ∃ v, found env schedulerPollSeconds s current = some v ∧
      current.lastTriggerSlot ≠ some (slotKey v)
  · obtain ⟨v, hfound, hkey⟩ := hfresh
    rw [hfound] at hscan
    have hv : Latest (slots env schedule) (s.now - second) (s.now + poll schedulerPollSeconds) v := hscan
    have hup : v ≤ s.now + poll schedulerPollSeconds := hv.upTo
    obtain ⟨⟨stored, hstored, hsame', hkey'⟩, hcount⟩ := hnew v hfound hkey
    have hone : ∀ u, (iterate schedulerPollSeconds s it).executed.count (id, u) =
        s.executed.count (id, u) + if u = v then 1 else 0 := hcount
    have hwhere : v ≤ start ∨ s.checked < v := hi.found_new hlast hv hkey
    refine hi.next hapart hkeyed hstored (hsame.trans hsame') (fun u hu => ?_)
      (fun u hu hstart hhigh => ?_) fun u hlate => ?_
    · have huv : v = u := by simpa [hfound] using hlatest u hu
      rw [← huv]
      exact hkey'
    · by_cases hlow : u ≤ s.checked
      · have huv : u ≠ v := by omega
        have hbefore : s.executed.count (id, u) = 1 := hi.fired u hu hstart hlow
        rw [hone, if_neg huv, hbefore]
      · have huv : u ≤ v := hv.le hnext hu hhigh
        have hvu : v ≤ u := hi.unique hnext hapart' hu hv.slot (by omega) hup
        have hbefore : s.executed.count (id, u) = 0 := hi.later u (by omega)
        rw [hone, if_pos (le_antisymm huv hvu), hbefore]
    · have huv : u ≠ v := by omega
      rw [hone, if_neg huv, hi.later u (by omega)]
  · have hkeys : ∀ v, found env schedulerPollSeconds s current = some v →
        current.lastTriggerSlot = some (slotKey v) := by
      intro v hfound
      by_contra hkey
      exact hfresh ⟨v, hfound, hkey⟩
    obtain ⟨hstored, hcount⟩ := hold hkeys
    have hnone : ∀ u, Slot (slots env schedule) u → s.checked < u → ¬ u ≤ s.now + poll schedulerPollSeconds := by
      intro u hu hlow hhigh
      cases hfound : found env schedulerPollSeconds s current with
      | none =>
        rw [hfound] at hscan
        have hpast : s.now + poll schedulerPollSeconds < u := hscan u hu (hcatch u hu hlow hhigh).1
        omega
      | some v =>
        rw [hfound] at hscan
        have hv : Latest (slots env schedule) (s.now - second) (s.now + poll schedulerPollSeconds) v := hscan
        have huv : u ≤ v := hv.le hnext hu hhigh
        exact (hcatch v hv.slot (by omega) hv.upTo).2 (hkeys v hfound)
    refine hi.next hapart hkeyed (hstored.trans hget) hsame (fun u hu => hkeys u (hlatest u hu))
      (fun u hu hstart hhigh => ?_) fun u hlate => (hcount u).trans (hi.later u (by omega))
    have hlow : u ≤ s.checked := by
      by_contra hlow
      exact hnone u hu (by omega) hhigh
    exact (hcount u).trans (hi.fired u hu hstart hlow)

/-- A slot that an iteration has to execute, and then has executed, is one that it catches. -/
theorem caught_of_fired (hi : Inv env schedulerPollSeconds id schedule start s)
    (hnext : First (slots env schedule)) (harmed : Armed env schedule)
    (hapart : Apart (slots env schedule) (poll schedulerPollSeconds + it.processing))
    (hfired : FiredOnce env id schedule start (iterate schedulerPollSeconds s it)) :
    Caught env schedulerPollSeconds id schedule s it := by
  intro u hu hlow hhigh
  obtain ⟨current, hget, hsame, -⟩ := hi.current
  have hslots : slots env current = slots env schedule := hsame.slots.symm
  have hapart' : Apart (slots env schedule) (poll schedulerPollSeconds) := fun u hu => by
    have hfar := hapart u hu
    omega
  have hscan := found_spec (s := s) (hslots ▸ hnext) (hslots ▸ hapart') (hsame.armed harmed)
  obtain ⟨-, hnew, hold⟩ := iterate_spec schedulerPollSeconds it hi.keyed hget (hsame.armed harmed)
  have hstart : start ≤ s.checked := hi.start_le
  have hone : (iterate schedulerPollSeconds s it).executed.count (id, u) = 1 :=
    hfired u hu (by omega) hhigh
  have hbefore : s.executed.count (id, u) = 0 := hi.later u hlow
  by_cases hfresh : ∃ v, found env schedulerPollSeconds s current = some v ∧
      current.lastTriggerSlot ≠ some (slotKey v)
  · obtain ⟨v, hfound, hkey⟩ := hfresh
    have hcount : (iterate schedulerPollSeconds s it).executed.count (id, u) =
        s.executed.count (id, u) + if u = v then 1 else 0 := (hnew v hfound hkey).executed u
    have huv : u = v := by
      by_contra hne
      rw [if_neg hne] at hcount
      omega
    rw [hfound] at hscan
    rw [hget, huv]
    exact ⟨hscan.after, hkey⟩
  · have hsame' : (iterate schedulerPollSeconds s it).executed.count (id, u) = s.executed.count (id, u) := by
      refine (hold fun v hfound => ?_).executed u
      by_contra hkey
      exact hfresh ⟨v, hfound, hkey⟩
    omega

/-- A scheduler that starts: nothing is executed yet. -/
structure Starts (env : Env) (id : String) (schedule : Schedule) (s : State) : Prop where
  keyed : Keyed s.schedules
  stored : s.schedules.get? id = some schedule
  armed : Armed env schedule
  started : s.checked = s.now
  fresh : s.executed = []

theorem inv_start (h : Starts env id schedule s) :
    Inv env schedulerPollSeconds id schedule s.now s where
  keyed := h.keyed
  current := by
    refine ⟨schedule, h.stored, ⟨rfl, rfl, rfl, rfl, rfl, rfl⟩, fun slot hslot hlow => ?_⟩
    have hup : slot ≤ s.checked := hslot.upTo
    rw [h.started] at hup
    omega
  start_le := h.started.ge
  checked_le := h.started.le
  apart := .inl h.started.symm
  fired := by
    intro slot _ hlow hhigh
    rw [h.started] at hhigh
    omega
  later := by
    intro slot _
    rw [h.fresh, List.count_nil]

/-- Every slot after the start is executed exactly once in each state that a run of the loop comes to,
    exactly when its iterations catch theirs. The slots are further apart than a whole iteration. -/
theorem scheduled_slots_fire_once {its : List (Iteration env)} (hstart : Starts env id schedule s)
    (hnext : First (slots env schedule))
    (hapart : ∀ it ∈ its, Apart (slots env schedule) (poll schedulerPollSeconds + it.processing)) :
    (∀ done t, done <+: its → Run.run (step schedulerPollSeconds) s done = some t →
        FiredOnce env id schedule s.now t) ↔
      Run.Meets (step schedulerPollSeconds) (Caught env schedulerPollSeconds id schedule) s its := by
  refine Run.all_iff_meets
    (I := Inv env schedulerPollSeconds id schedule s.now)
    (L := fun it : Iteration env => Apart (slots env schedule) (poll schedulerPollSeconds + it.processing))
    (fun t hi => hi.fired) (fun t it u hi hsep hcaught hst => ?_) (fun t it hi hsep hfired => ?_)
    (inv_start hstart) hapart
  · obtain rfl : iterate schedulerPollSeconds t it = u := by simpa [step] using hst
    exact inv_step hi hnext hstart.armed hsep hcaught
  · exact caught_of_fired hi hnext hstart.armed hsep (hfired _ rfl)

/-! ### A slot at each minute -/

/-- The next full minute after a time. -/
def nextMinute (t : Int) : Int := (t / minute + 1) * minute

theorem first_nextMinute : First nextMinute := by
  constructor
  · intro t
    simp only [nextMinute, minute, second]
    omega
  · intro t u htu hlt
    simp only [nextMinute, minute, second] at hlt ⊢
    omega

theorem apart_nextMinute {d : Int} (hd : d < minute) : Apart nextMinute d := by
  intro s hs
  simp only [Slot, nextMinute, minute, second] at hs hd ⊢
  omega

/-- `* * * * *` is the only text that is valid. -/
def everyMinute : Env where
  lowercase := Lowercase.ascii
  isValid text := text = "* * * * *"
  getNext _ _ := nextMinute
  dateKey _ _ := "2026-01-05"
  Request := Fields
  runStartRequest payload := .ok payload

def report : Schedule where
  id := "s1"
  enabled := true
  cron := "* * * * *"
  timezone := "utc"
  wakeMode := some "now"
  runRequest := some []
  lastTriggerSlot := none
  lastTriggerDate := none
  pendingHeartbeat := false
  pendingHeartbeatSlot := none
  nextRunAt := none
  runLog := []
  lastRunAt := none
  lastRunId := none
  lastError := none
  updatedAt := 0

/-- The scheduler starts 46 seconds into a minute. -/
def started : State where
  schedules := Table.empty.put "s1" report
  persisted := Table.empty.put "s1" report
  executed := []
  checked := 46 * second
  now := 46 * second

/-- An iteration that takes this many seconds. -/
def lasting (seconds : Nat) : Iteration everyMinute where
  processing := seconds * 1000000
  execute _ _ := .ok (some "r1")
  stamp := 0

theorem starts_started : Starts everyMinute "s1" report started where
  keyed := by
    intro id schedule hget
    simp only [started, Table.get?_put] at hget
    split at hget
    · obtain rfl : report = schedule := by simpa using hget
      rename_i hid
      exact ⟨hid.symm, by rw [hid]; decide⟩
    · simp [Table.get?, Table.empty] at hget
  stored := by simp [started]
  armed := ⟨rfl, by decide, by decide, [], rfl⟩
  started := rfl
  fresh := rfl

theorem apart_lasting {seconds : Nat} (h : seconds ≤ 50) :
    Apart (slots everyMinute report) (poll 5 + (lasting seconds).processing) := by
  refine apart_nextMinute ?_
  simp only [poll, lasting, minute, second]
  omega

theorem scheduled_slots_fire_once_quick :
    ∃ t, Run.run (step 5) started [lasting 0, lasting 1, lasting 0] = some t ∧
      FiredOnce everyMinute "s1" report (46 * second) t := by
  have hapart : ∀ it ∈ [lasting 0, lasting 1, lasting 0],
      Apart (slots everyMinute report) (poll 5 + it.processing) := by
    intro it hit
    simp only [List.mem_cons, List.not_mem_nil, or_false] at hit
    obtain rfl | rfl | rfl := hit
    · exact apart_lasting (by omega)
    · exact apart_lasting (by omega)
    · exact apart_lasting (by omega)
  have hfired := (scheduled_slots_fire_once starts_started first_nextMinute hapart).mpr
  refine ⟨_, rfl, hfired ⟨?_, ?_, ?_, trivial⟩ _ _ (List.prefix_refl _) rfl⟩
  · intro u hu hlow hhigh
    have hslot : nextMinute (u - 1) = u := hu
    have hin : 46 * second < u ∧ u ≤ 46 * second + poll 5 := ⟨hlow, hhigh⟩
    simp only [nextMinute, minute, second, poll] at hslot hin
    omega
  · intro u hu hlow hhigh
    have hslot : nextMinute (u - 1) = u := hu
    have hin : 51 * second < u ∧ u ≤ 51 * second + poll 5 := ⟨hlow, hhigh⟩
    simp only [nextMinute, minute, second, poll] at hslot hin
    omega
  · intro u hu hlow hhigh
    have hslot : nextMinute (u - 1) = u := hu
    have hin : 56 * second < u ∧ u ≤ 57 * second + poll 5 := ⟨hlow, hhigh⟩
    have heq : u = 60 * second := by
      simp only [nextMinute, minute, second, poll] at hslot hin ⊢
      omega
    subst heq
    exact ⟨by decide, by decide⟩

/-- The slot at the full minute falls between two windows when an iteration takes ten seconds. -/
theorem scheduled_slots_fire_once_slow :
    Starts everyMinute "s1" report started ∧ First (slots everyMinute report) ∧
      (∀ it ∈ [lasting 10, lasting 0], Apart (slots everyMinute report) (poll 5 + it.processing)) ∧
      ∃ t, Run.run (step 5) started [lasting 10, lasting 0] = some t ∧
        ¬ FiredOnce everyMinute "s1" report (46 * second) t := by
  refine ⟨starts_started, first_nextMinute, ?_, _, rfl, fun h => ?_⟩
  · intro it hit
    simp only [List.mem_cons, List.not_mem_nil, or_false] at hit
    obtain rfl | rfl := hit
    · exact apart_lasting (by omega)
    · exact apart_lasting (by omega)
  · have hslot : Slot (slots everyMinute report) (60 * second) := by
      show nextMinute (60 * second - 1) = 60 * second
      decide
    have hone := h (60 * second) hslot (by decide) (by decide)
    revert hone
    decide

end Empyralis.Server.WeeklyScheduler
