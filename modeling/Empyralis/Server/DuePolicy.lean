import Empyralis.Lib.Recurring
import Empyralis.Server.HeartbeatTurns

/-! The policy of the scheduler: how it is resolved from metadata, and what it does to the time at which a wake
    is due.

    A time is the microseconds of an instant since a fixed midnight of UTC, and every zone has a fixed offset. -/

namespace Empyralis.Server.DuePolicy
open Text (strip)
open Wakes (coerceDict)
open Heartbeat (PolicyBounds)

/-- `parseInt` and `truncate` are what `int` does with a text and a float; `zone` is the offset from UTC that
    `ZoneInfo` has for a name, in microseconds, if it knows it. -/
structure Env where
  repr : Value → String
  lowercase : Lowercase
  parseInt : String → Option Int
  truncate : PyFloat → Option Int
  zone : String → Option Int

variable (env : Env)

/-! ### Reading metadata -/

/-- `int(value)`, nothing when it raises a `TypeError` or a `ValueError`. -/
def toInt : Value → Option Int
  | .int value => some value
  | .bool value => some (if value then 1 else 0)
  | .float value => env.truncate value
  | .string text => env.parseInt text
  | _ => none

/-- `_coerce_int` -/
def coerceInt (value : Value) (default minimum maximum : Int) : Int :=
  max minimum (min maximum ((toInt env value).getD default))

/-- `_coerce_bool` -/
def coerceBool (value : Value) (default : Bool) : Bool :=
  match value with
  | .bool value => value
  | value =>
    let token := env.lowercase.lower (value.token env.repr)
    if ["1", "true", "yes", "on"].contains token then true
    else if ["0", "false", "no", "off"].contains token then false
    else default

/-- `value or other` -/
def either (value other : Value) : Value := if value.truthy then value else other

/-- `_coerce_timezone_name` -/
def coerceTimezoneName (value : Value) (default : String) : String :=
  let token := value.token env.repr
  if token = "" then default else if (env.zone token).isSome then token else default

theorem coerceInt_bounds (value : Value) (default : Int) {minimum maximum : Int} (h : minimum ≤ maximum) :
    minimum ≤ coerceInt env value default minimum maximum ∧
      coerceInt env value default minimum maximum ≤ maximum := by
  rw [coerceInt]
  omega

/-! ### The policy -/

/-- Bounds whose quiet hours are hours of a day. -/
structure Policy extends PolicyBounds where
  startsInDay : 0 ≤ quietHoursStart ∧ quietHoursStart ≤ 23
  endsInDay : 0 ≤ quietHoursEnd ∧ quietHoursEnd ≤ 23

/-- `_workspace_scheduler_metadata`, which is also `_install_scheduler_metadata` -/
def schedulerMetadata (owner : Fields) : Fields :=
  let metadata := coerceDict (owner.get "metadata")
  ((coerceDict (metadata.get "scheduler")).merge (coerceDict (metadata.get "scheduler_policy"))).merge
    (coerceDict (metadata.get "plan_limits"))

/-- The install's value of a key where the install has the key, else the workspace's. -/
def override (installMeta workspaceMeta : Fields) (key : String) : Value :=
  (installMeta.lookup key).getD (workspaceMeta.get key)

/-- `value or default` of a number -/
def nonzero (value default : Int) : Int := if value = 0 then default else value

/-- What `entitlements_service.scheduler_policy_defaults` returns. -/
structure PlanDefaults where
  planTier : String
  maxEventTriggersPerHour : Int
  maxSelfProposedPerHour : Int
  maxRuntimeSeconds : Int

/-- `resolve_scheduler_policy` -/
def resolveSchedulerPolicy (planDefaults : PlanDefaults) (workspace install : Fields) : Policy :=
  let workspaceMeta := schedulerMetadata workspace
  let installMeta := schedulerMetadata install
  let quietHours :=
    (coerceDict (workspaceMeta.get "quiet_hours")).merge (coerceDict (installMeta.get "quiet_hours"))
  let number (key : String) := either (installMeta.get key) (workspaceMeta.get key)
  { quietHoursStart := coerceInt env (quietHours.get "start") 23 0 23
    quietHoursEnd := coerceInt env (quietHours.get "end") 7 0 23
    maxEventTriggersPerHour :=
      coerceInt env (number "max_event_triggers_per_hour")
        (nonzero planDefaults.maxEventTriggersPerHour 4) 1 100
    maxSelfProposedPerHour :=
      coerceInt env (number "max_self_proposed_per_hour")
        (nonzero planDefaults.maxSelfProposedPerHour 2) 1 100
    maxRuntimeSeconds :=
      coerceInt env (either (either (installMeta.get "max_runtime_seconds")
          (workspaceMeta.get "max_customer_runtime_seconds")) (workspaceMeta.get "max_runtime_seconds"))
        (nonzero planDefaults.maxRuntimeSeconds 20) 5 300
    minimumBatteryPercent := coerceInt env (number "minimum_battery_percent") 20 0 100
    requireNetworkOnline :=
      coerceBool env (override installMeta workspaceMeta "require_network_online") false
    requireOwnerApprovalForPrivilegedWakeups :=
      coerceBool env (override installMeta workspaceMeta "require_owner_approval_for_privileged_wakeups") true
    planTier := if strip planDefaults.planTier = "" then "free" else strip planDefaults.planTier
    timezoneName := coerceTimezoneName env (number "timezone") "UTC"
    startsInDay := coerceInt_bounds env _ _ (by decide)
    endsInDay := coerceInt_bounds env _ _ (by decide) }

/-! ### Quiet hours -/

def hour : Int := 3600000000

def day : Int := 86400000000

/-- `_scheduler_zone`, by its offset -/
def schedulerZone (policy : PolicyBounds) : Int := (env.zone policy.timezoneName).getD 0

/-- `_is_within_quiet_hours` -/
def isWithinQuietHours (now : Int) (policy : PolicyBounds) : Bool :=
  let h := (now + schedulerZone env policy) % day / hour
  let start := policy.quietHoursStart
  let stop := policy.quietHoursEnd
  if start = stop then false
  else if start < stop then start ≤ h && h < stop
  else start ≤ h || h < stop

/-- `_next_allowed_wakeup_time` -/
def nextAllowedWakeupTime (now : Int) (policy : PolicyBounds) : Int :=
  let offset := schedulerZone env policy
  let localNow := now + offset
  if !isWithinQuietHours env now policy then now
  else
    let candidate := localNow - localNow % day + policy.quietHoursEnd * hour
    (if candidate ≤ localNow then candidate + day else candidate) - offset

/-! ### The due time -/

/-- Whether the battery is known and too low. -/
def batteryLow (policy : PolicyBounds) (deviceState : Fields) : Bool :=
  (toInt env (deviceState.get "battery_percent")).any (· < policy.minimumBatteryPercent)

/-- Whether the network has to be there and is known not to be. -/
def networkOffline (policy : PolicyBounds) (deviceState : Fields) : Bool :=
  policy.requireNetworkOnline && (deviceState.lookup "network_online").any fun value => !coerceBool env value true

/-- `_apply_policy_to_due_at`: `batteryNow` and `networkNow` are what the clock says when each is looked at. -/
def applyPolicyToDueAt (batteryNow networkNow dueAt : Int) (policy : PolicyBounds) (deviceState : Fields)
    (skipQuietHours : Bool) : Int × Option String :=
  let quiet :=
    if !skipQuietHours && isWithinQuietHours env dueAt policy then
      (nextAllowedWakeupTime env dueAt policy, some "quiet_hours")
    else (dueAt, none)
  let charged :=
    if batteryLow env policy deviceState then
      (max quiet.1 (batteryNow + 1800000000), quiet.2.or (some "battery_low"))
    else quiet
  if networkOffline env policy deviceState then
    (max charged.1 (networkNow + 900000000), charged.2.or (some "network_offline"))
  else charged

/-- The holds of the device that apply. -/
def holds (batteryNow networkNow : Int) (policy : PolicyBounds) (deviceState : Fields) : List Int :=
  (if batteryLow env policy deviceState then [batteryNow + 1800000000] else []) ++
    if networkOffline env policy deviceState then [networkNow + 900000000] else []

/-! ### Quiet hours recur -/

theorem day_pos : 0 < day := by decide

/-- How long quiet hours last. -/
def quietLength (policy : PolicyBounds) : Int :=
  if policy.quietHoursStart = policy.quietHoursEnd then 0
  else if policy.quietHoursStart < policy.quietHoursEnd then
    (policy.quietHoursEnd - policy.quietHoursStart) * hour
  else (24 - policy.quietHoursStart + policy.quietHoursEnd) * hour

/-- One of the instants at which they end. -/
def quietEnd (policy : PolicyBounds) : Int := policy.quietHoursEnd * hour - schedulerZone env policy

theorem quietLength_lt_day (policy : Policy) : quietLength policy.toPolicyBounds < day := by
  have hs := policy.startsInDay
  have he := policy.endsInDay
  rw [quietLength]
  simp only [hour, day]
  split_ifs <;> omega

/-- The first end of quiet hours after `t`, as the candidate of the code. -/
theorem closing_quietEnd (policy : Policy) (t : Int) :
    Recurring.closing day_pos (quietEnd env policy.toPolicyBounds) t =
      (let localNow := t + schedulerZone env policy.toPolicyBounds
       let candidate := localNow - localNow % day + policy.quietHoursEnd * hour
       if candidate ≤ localNow then candidate + day else candidate) - schedulerZone env policy.toPolicyBounds := by
  have he := policy.endsInDay
  rw [Recurring.closing_eq_iff, quietEnd]
  simp only [hour, day, smul_eq_mul]
  split_ifs with hle
  · refine ⟨by omega, -((t + schedulerZone env policy.toPolicyBounds) / 86400000000) - 1, ?_⟩
    omega
  · refine ⟨by omega, -((t + schedulerZone env policy.toPolicyBounds) / 86400000000), ?_⟩
    omega

theorem isWithinQuietHours_hour (policy : PolicyBounds) (t : Int) :
    isWithinQuietHours env t policy = true ↔
      let h := (t + schedulerZone env policy) % day / hour
      (policy.quietHoursStart < policy.quietHoursEnd ∧ policy.quietHoursStart ≤ h ∧ h < policy.quietHoursEnd) ∨
        policy.quietHoursEnd < policy.quietHoursStart ∧
          (policy.quietHoursStart ≤ h ∨ h < policy.quietHoursEnd) := by
  rw [isWithinQuietHours]
  split_ifs with heq hlt
  · simp [heq]
  · simp [hlt, hlt.not_gt]
  · simp [hlt, lt_of_le_of_ne (not_lt.mp hlt) (Ne.symm heq)]

theorem isWithinQuietHours_iff (policy : Policy) (t : Int) :
    isWithinQuietHours env t policy.toPolicyBounds = true ↔
      Recurring.Inside day_pos (quietEnd env policy.toPolicyBounds) (quietLength policy.toPolicyBounds) t := by
  have hs := policy.startsInDay
  have he := policy.endsInDay
  rw [Recurring.Inside, closing_quietEnd, isWithinQuietHours_hour, quietLength]
  simp only [hour, day]
  split_ifs <;> omega

theorem nextAllowedWakeupTime_eq (policy : Policy) (t : Int) :
    nextAllowedWakeupTime env t policy.toPolicyBounds =
      Recurring.wait day_pos (quietEnd env policy.toPolicyBounds) (quietLength policy.toPolicyBounds) t := by
  rw [nextAllowedWakeupTime]
  by_cases h : isWithinQuietHours env t policy.toPolicyBounds = true
  · rw [Recurring.wait_of_inside _ _ _ ((isWithinQuietHours_iff env policy t).mp h), closing_quietEnd]
    simp [h]
  · rw [Recurring.wait_of_not_inside _ _ _ fun hin => h ((isWithinQuietHours_iff env policy t).mpr hin)]
    simp [h]

/-! ### The due time -/

section

variable (batteryNow networkNow dueAt : Int) (policy : Policy) (deviceState : Fields) (skipQuietHours : Bool)

theorem mem_holds {policy : PolicyBounds} {hold : Int} :
    hold ∈ holds env batteryNow networkNow policy deviceState ↔
      (batteryLow env policy deviceState = true ∧ hold = batteryNow + 1800000000) ∨
        networkOffline env policy deviceState = true ∧ hold = networkNow + 900000000 := by
  rw [holds, List.mem_append]
  split_ifs <;> simp_all

/-- The holds push one after the other what quiet hours leave. -/
theorem applyPolicyToDueAt_fst (policy : PolicyBounds) :
    (applyPolicyToDueAt env batteryNow networkNow dueAt policy deviceState skipQuietHours).1 =
      (holds env batteryNow networkNow policy deviceState).foldl max
        (if skipQuietHours then dueAt else nextAllowedWakeupTime env dueAt policy) := by
  have hnext (h : isWithinQuietHours env dueAt policy = false) : nextAllowedWakeupTime env dueAt policy = dueAt := by
    rw [nextAllowedWakeupTime, h]
    rfl
  have hquiet : (if (!skipQuietHours && isWithinQuietHours env dueAt policy) = true then
      (nextAllowedWakeupTime env dueAt policy, some "quiet_hours") else (dueAt, none)).1 =
        if skipQuietHours then dueAt else nextAllowedWakeupTime env dueAt policy := by
    cases skipQuietHours <;> cases h : isWithinQuietHours env dueAt policy <;> simp_all
  rw [applyPolicyToDueAt, holds, ← hquiet]
  split_ifs <;> rfl

/-- What a due time has to meet. -/
structure Meets (t : Int) : Prop where
  requested : dueAt ≤ t
  battery : batteryLow env policy.toPolicyBounds deviceState = true → batteryNow + 1800000000 ≤ t
  network : networkOffline env policy.toPolicyBounds deviceState = true → networkNow + 900000000 ≤ t
  quiet : skipQuietHours = false → isWithinQuietHours env t policy.toPolicyBounds = false

theorem meets_iff (t : Int) :
    Meets env batteryNow networkNow dueAt policy deviceState skipQuietHours t ↔
      dueAt ≤ t ∧ (∀ hold ∈ holds env batteryNow networkNow policy.toPolicyBounds deviceState, hold ≤ t) ∧
        (skipQuietHours = false → ¬Recurring.Inside day_pos (quietEnd env policy.toPolicyBounds)
          (quietLength policy.toPolicyBounds) t) := by
  simp only [mem_holds, ← isWithinQuietHours_iff, Bool.not_eq_true]
  constructor
  · rintro ⟨hdue, hbattery, hnetwork, hquiet⟩
    refine ⟨hdue, ?_, hquiet⟩
    rintro hold (⟨h, rfl⟩ | ⟨h, rfl⟩)
    · exact hbattery h
    · exact hnetwork h
  · rintro ⟨hdue, hholds, hquiet⟩
    exact ⟨hdue, fun h => hholds _ (.inl ⟨h, rfl⟩), fun h => hholds _ (.inr ⟨h, rfl⟩), hquiet⟩

/-- The due time is the earliest that meets the policy, except where the latest hold of the device ends in quiet
    hours that had not begun, or had been over, at some time between the requested one and it. -/
theorem due_time_earliest_iff :
    IsLeast {t | Meets env batteryNow networkNow dueAt policy deviceState skipQuietHours t}
        (applyPolicyToDueAt env batteryNow networkNow dueAt policy.toPolicyBounds deviceState skipQuietHours).1 ↔
      skipQuietHours = true ∨
        ∀ hold ∈ holds env batteryNow networkNow policy.toPolicyBounds deviceState,
          (∀ other ∈ holds env batteryNow networkNow policy.toPolicyBounds deviceState, other ≤ hold) →
          isWithinQuietHours env hold policy.toPolicyBounds = true →
          ∀ t, dueAt ≤ t → t < hold → isWithinQuietHours env t policy.toPolicyBounds = true := by
  simp only [meets_iff, applyPolicyToDueAt_fst]
  cases skipQuietHours with
  | true =>
    simp only [Bool.true_eq_false, false_imp_iff, and_true, if_true, true_or, iff_true]
    exact Recurring.isLeast_foldl_max dueAt _
  | false =>
    simp only [true_imp_iff, Bool.false_eq_true, if_false, false_or, nextAllowedWakeupTime_eq,
      isWithinQuietHours_iff]
    exact Recurring.isLeast_foldl_max_wait_iff day_pos _ (quietLength_lt_day policy) dueAt _

end

/-- A server that reads whole numbers and knows one zone. -/
def plainEnv : Env where
  repr _ := ""
  lowercase := .ascii
  parseInt _ := none
  truncate _ := none
  zone name := if name = "UTC" then some 0 else none

/-- Ten minutes before quiet hours, with a battery that is low, the wake is put inside them. -/
theorem held_into_quiet_hours :
    ¬∀ (env : Env) (batteryNow networkNow dueAt : Int) (policy : Policy) (deviceState : Fields)
        (skipQuietHours : Bool),
      IsLeast {t | Meets env batteryNow networkNow dueAt policy deviceState skipQuietHours t}
        (applyPolicyToDueAt env batteryNow networkNow dueAt policy.toPolicyBounds deviceState skipQuietHours).1 := by
  intro h
  have hquiet := Meets.quiet (h plainEnv 82200000000 82200000000 82200000000
    (resolveSchedulerPolicy plainEnv ⟨"free", 4, 2, 20⟩ [] []) [("battery_percent", .int 5)] false).1 rfl
  revert hquiet
  decide

end Empyralis.Server.DuePolicy
