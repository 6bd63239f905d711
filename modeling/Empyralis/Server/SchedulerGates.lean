import Empyralis.Kernel.SessionScheduler
import Empyralis.Server.HeartbeatTurns
import Empyralis.Server.WakeStatuses

/-! The two gates of the kernel before a wake is stored or retried: the one of the scheduler service and the
    one of the repository. Each asks the kernel with a request of its own and takes its own set of answers. -/

namespace Empyralis.Server.SchedulerGates
open Text (strip)
open Kernel.SessionScheduler
open Heartbeat (PolicyBounds)
open Wakes (WakeStatus StatusUpdate)

/-- What a wake comes from. -/
inductive TriggerKind where
  | eventTrigger | selfProposed | taskAssigned | taskCommented | recurring | goal
  deriving DecidableEq

def TriggerKind.text : TriggerKind → String
  | .eventTrigger => "event_trigger"
  | .selfProposed => "self_proposed"
  | .taskAssigned => "task_assigned"
  | .taskCommented => "task_commented"
  | .recurring => "recurring"
  | .goal => "goal"

/-- `_scheduler_wake_operation` -/
def TriggerKind.operation : TriggerKind → Operation
  | .eventTrigger => .eventTrigger
  | .selfProposed => .selfProposedTrigger
  | _ => .wakeDecision

/-- What a gate raises. -/
inductive Raised where
  | decision (reason : String)
  | approvalRequired (reason : String)
  | unexpectedNextAction (operation : Operation) (nextAction : String)
  | invalidNumber
  deriving DecidableEq

/-- `run_runtime_kernel_enforced` of the command `session-scheduler-decision` -/
def runRuntimeKernelEnforced (r : Request) : Except Raised Decision :=
  match decision r with
  | .block => .error (.decision (reason r))
  | .requireApproval => .error (.approvalRequired (reason r))
  | .defer => .ok .defer
  | .allow => .ok .allow

/-- The kernel is asked, and its next action has to be one of those expected. -/
def enforce (expected : Operation → List String) (r : Request) : Except Raised Unit := do
  let decision ← runRuntimeKernelEnforced r
  if (expected r.operation).contains (nextAction r.operation decision) then return ()
  else .error (.unexpectedNextAction r.operation (nextAction r.operation decision))

/-- `value or default` of a number that may be missing -/
def orElse (value : Option Int) (default : Int) : Int := (value.filter (· ≠ 0)).getD default

/-- What is known of the device. -/
structure DeviceState where
  batteryPercent : Option Int
  networkOnline : Option Bool

/-- What the gates read of a payload. -/
structure WakePayload where
  priority : Int
  quietHoursOverride : Bool
  batteryPercent : Option Int
  networkOnline : Option Bool

def WakePayload.empty : WakePayload := ⟨0, false, none, none⟩

/-! ### The gate of the service -/

/-- The arguments of the gate of the service. -/
structure SessionCall where
  operation : Operation
  workspaceId : String
  triggerId : String := ""
  triggerKind : String := ""
  priority : Int := 0
  attempt : Int := 0
  maxRetries : Int := 5
  ownerApprovalProvided : Bool := false
  quietHoursOverride : Bool := false
  deviceState : DeviceState := ⟨none, none⟩

/-- The request of `_enforce_session_scheduler_decision` -/
def sessionRequest (policy : PolicyBounds) (hour : Int) (call : SessionCall) : Request where
  operation := call.operation
  workspaceId := strip call.workspaceId
  triggerId := strip call.triggerId
  wakeMode := strip call.triggerKind
  priority := call.priority
  attempt := call.attempt
  maxRetries := some call.maxRetries
  schedulerEnabled := true
  quietHoursStart := policy.quietHoursStart
  quietHoursEnd := policy.quietHoursEnd
  currentHour := hour
  quietHoursOverride := call.quietHoursOverride
  maxEventTriggersPerHour := policy.maxEventTriggersPerHour
  maxSelfProposedPerHour := policy.maxSelfProposedPerHour
  batteryPercent := orElse call.deviceState.batteryPercent 100
  minimumBatteryPercent := policy.minimumBatteryPercent
  networkOnline := call.deviceState.networkOnline.getD true
  requireNetworkOnline := policy.requireNetworkOnline
  requireOwnerApproval := policy.requireOwnerApprovalForPrivilegedWakeups
  ownerApprovalProvided := call.ownerApprovalProvided

/-- `expected_next_actions` -/
def expectedNextActions : Operation → List String
  | .eventTrigger => ["schedule_event_trigger", "defer_session_scheduler_operation"]
  | .selfProposedTrigger =>
    ["schedule_self_proposed_trigger", "request_session_scheduler_approval", "defer_session_scheduler_operation"]
  | .wakeDecision => ["trigger_wakeup", "request_session_scheduler_approval", "defer_session_scheduler_operation"]
  | .claimWakeRequests => ["claim_due_wake_requests"]
  | .finalizeWakeRequests => ["finalize_wake_requests"]
  | .scheduleRetry => ["schedule_retry"]
  | .failureDecision => ["record_scheduler_failure"]

/-- `_enforce_session_scheduler_decision` -/
def enforceSessionSchedulerDecision (policy : PolicyBounds) (hour : Int) (call : SessionCall) : Except Raised Unit :=
  enforce expectedNextActions (sessionRequest policy hour call)

/-! ### The gate of the repository -/

/-- The arguments of the gate of the repository. -/
structure RepositoryCall where
  operation : Operation
  workspaceId : String
  wakeId : String
  triggerKind : String
  policy : Option PolicyBounds
  payload : WakePayload
  attempt : Int := 0
  ownerApprovalProvided : Bool := true

/-- The request of `_enforce_scheduler_wake_repository_decision`: a number of the policy that is 0 has its
    default. -/
def repositoryRequest (hour : Int) (call : RepositoryCall) : Request where
  operation := call.operation
  workspaceId := strip call.workspaceId
  triggerId := strip call.wakeId
  wakeMode := strip call.triggerKind
  priority := call.payload.priority
  attempt := call.attempt
  maxRetries := none
  schedulerEnabled := true
  quietHoursStart := orElse (call.policy.map PolicyBounds.quietHoursStart) 23
  quietHoursEnd := orElse (call.policy.map PolicyBounds.quietHoursEnd) 7
  currentHour := hour
  quietHoursOverride := call.payload.quietHoursOverride
  maxEventTriggersPerHour := orElse (call.policy.map PolicyBounds.maxEventTriggersPerHour) 4
  maxSelfProposedPerHour := orElse (call.policy.map PolicyBounds.maxSelfProposedPerHour) 2
  batteryPercent := orElse call.payload.batteryPercent 100
  minimumBatteryPercent := orElse (call.policy.map PolicyBounds.minimumBatteryPercent) 20
  networkOnline := call.payload.networkOnline.getD true
  requireNetworkOnline := (call.policy.map PolicyBounds.requireNetworkOnline).getD false
  requireOwnerApproval := (call.policy.map PolicyBounds.requireOwnerApprovalForPrivilegedWakeups).getD true
  ownerApprovalProvided := call.ownerApprovalProvided

/-- `_SCHEDULER_WAKE_REPOSITORY_NEXT_ACTIONS` -/
def repositoryNextActions : Operation → List String
  | .eventTrigger => ["schedule_event_trigger"]
  | .selfProposedTrigger => ["schedule_self_proposed_trigger"]
  | .wakeDecision => ["trigger_wakeup", "request_session_scheduler_approval", "defer_session_scheduler_operation"]
  | .claimWakeRequests => ["claim_due_wake_requests"]
  | .scheduleRetry => ["schedule_retry"]
  | .failureDecision => ["record_scheduler_failure"]
  | .finalizeWakeRequests => ["finalize_wake_requests"]

/-- `_enforce_scheduler_wake_repository_decision` -/
def enforceSchedulerWakeRepositoryDecision (hour : Int) (call : RepositoryCall) : Except Raised Unit :=
  enforce repositoryNextActions (repositoryRequest hour call)

/-! ### Storing a wake -/

/-- The hours, in UTC, at which the two gates are asked. -/
structure Hours where
  service : Int
  repository : Int

/-- The arguments of `_persist_wakeup`. Its callers strip the summary and the reason. -/
structure WakeCall where
  kind : TriggerKind
  workspaceId : Token
  eventId : String
  runId : String
  eventType : String
  summary : String
  reason : String
  payload : WakePayload
  deviceState : DeviceState
  approvalRequired : Bool
  approvalGranted : Bool
  status : WakeStatus
  denialReason : Option String
  summary_strip : strip summary = summary
  reason_strip : strip reason = reason

/-- What is stored of a wake: the columns that say what was decided. -/
structure Stored where
  kind : TriggerKind
  approvalRequired : Bool
  status : WakeStatus
  denialReason : Option String

def WakeCall.stored (call : WakeCall) : Stored :=
  ⟨call.kind, call.approvalRequired, call.status, call.denialReason⟩

/-- The first text that is not empty. -/
def WakeCall.triggerId (call : WakeCall) : String :=
  Heartbeat.firstOf [strip call.eventId, strip call.runId, strip call.eventType,
    strip (Heartbeat.firstOf [call.summary, call.reason, call.kind.text])]

/-- What the service asks about a wake. -/
def WakeCall.session (call : WakeCall) : SessionCall where
  operation := call.kind.operation
  workspaceId := call.workspaceId.text
  triggerId := call.triggerId
  triggerKind := call.kind.text
  priority := call.payload.priority
  ownerApprovalProvided := !call.approvalRequired || call.approvalGranted
  quietHoursOverride := call.payload.quietHoursOverride
  deviceState := call.deviceState

/-- What the repository asks about a wake. -/
def WakeCall.repository (call : WakeCall) (policy : PolicyBounds) (wakeId : Token) : RepositoryCall where
  operation := call.kind.operation
  workspaceId := call.workspaceId.text
  wakeId := wakeId.text
  triggerKind := call.kind.text
  policy := some policy
  payload := call.payload
  ownerApprovalProvided := !call.approvalRequired || call.status = .denied

/-- `_persist_wakeup` with `append_agent_scheduler_wake_request` -/
def persistWakeup (policy : PolicyBounds) (hours : Hours) (wakeId : Token) (call : WakeCall) :
    Except Raised Stored := do
  enforceSessionSchedulerDecision policy hours.service call.session
  enforceSchedulerWakeRepositoryDecision hours.repository (call.repository policy wakeId)
  return call.stored

/-- The arguments of `propose_self_wakeup`: what the policy context says, and the payload. -/
structure Proposal where
  workspaceId : Token
  eventId : String
  runId : String
  eventType : String
  summary : Token
  reason : String
  approvalRequired : Bool
  requiresPrivilegedRuntime : Bool
  approvalGranted : Bool
  deviceState : DeviceState
  payload : WakePayload

/-- The wake that a proposal comes to. -/
def Proposal.call (p : Proposal) (approvalRequired : Bool) (status : WakeStatus) (denialReason : Option String) :
    WakeCall where
  kind := .selfProposed
  workspaceId := p.workspaceId
  eventId := p.eventId
  runId := p.runId
  eventType := p.eventType
  summary := p.summary.text
  reason := strip p.reason
  payload := p.payload
  deviceState := p.deviceState
  approvalRequired := approvalRequired
  approvalGranted := p.approvalGranted
  status := status
  denialReason := denialReason
  summary_strip := p.summary.trimmed
  reason_strip := Text.trim_trim _ _

/-- The wake is privileged and lacks the approval that the policy asks for. -/
def Proposal.unapproved (p : Proposal) (policy : PolicyBounds) : Bool :=
  p.requiresPrivilegedRuntime && policy.requireOwnerApprovalForPrivilegedWakeups && !p.approvalGranted

/-- `propose_self_wakeup`: what is stored, and whether it was accepted. -/
def proposeSelfWakeup (policy : PolicyBounds) (hours : Hours) (wakeId : Token) (p : Proposal) :
    Except Raised (Stored × Bool) :=
  if p.unapproved policy then do
    let record ← persistWakeup policy hours wakeId (p.call true .denied (some "approval_required"))
    return (record, false)
  else do
    let record ← persistWakeup policy hours wakeId (p.call p.approvalRequired .pending none)
    return (record, true)

/-! ### Retrying a wake -/

/-- `RetryPolicy`; `product attempt` is `int(base_delay_seconds * (backoff_multiplier ** attempt))`, of floats, and
    nothing when it raises. -/
structure RetryPolicy where
  maxRetries : Int
  baseDelaySeconds : Int
  maxDelaySeconds : Int
  product : Int → Option Int

/-- `compute_retry_delay` -/
def computeRetryDelay (attempt : Int) (policy : RetryPolicy) : Option Int :=
  if attempt < 1 then some policy.baseDelaySeconds
  else (policy.product attempt).map (min · policy.maxDelaySeconds)

/-- `should_retry` -/
def shouldRetry (attempt : Int) (policy : RetryPolicy) : Bool := attempt < policy.maxRetries

/-- `build_retry_metadata`, with the time of the next attempt as it is written -/
def buildRetryMetadata (attempt delay : Int) (policy : RetryPolicy) (lastError nextAt : String) : Fields :=
  [("retry_attempt", .int attempt), ("retry_max", .int policy.maxRetries), ("retry_delay_seconds", .int delay),
    ("retry_last_error", .string (Wakes.first 500 lastError)), ("retry_next_at", .string nextAt)]

/-- A policy whose multiplier is an integer. -/
def RetryPolicy.ofInt (p : WakeStatuses.RetryPolicy) : RetryPolicy where
  maxRetries := p.maxRetries
  baseDelaySeconds := p.baseDelaySeconds
  maxDelaySeconds := p.maxDelaySeconds
  product attempt := some (p.baseDelaySeconds * p.backoffMultiplier ^ attempt.toNat)

/-- The wake that failed, as it was claimed. -/
structure FailedWake where
  workspaceId : Token
  id : Token
  triggerKind : String
  metadata : Value
  quietHoursOverride : Bool

/-- The gate of `update_agent_scheduler_wake_request_status`: the policy and the payload of the row come as text,
    of which nothing is read. -/
def updateGate (hour : Int) (wake : FailedWake) (operation : Operation) (attempt : Int) : Except Raised Unit :=
  enforceSchedulerWakeRepositoryDecision hour
    { operation, workspaceId := wake.workspaceId.text, wakeId := wake.id.text, triggerKind := wake.triggerKind,
      policy := none, payload := .empty, attempt }

/-- `schedule_retry`, with the times as they are written; what it writes, and the attempt that it is for. -/
def scheduleRetry (policy : PolicyBounds) (hours : Hours) (retryPolicy : RetryPolicy) (wake : FailedWake)
    (error nextAt : String) : Except Raised (StatusUpdate × Int) := do
  let some attempt := WakeStatuses.currentAttempt wake.metadata | .error .invalidNumber
  let next := attempt + 1
  let session (operation : Operation) : SessionCall :=
    { operation, workspaceId := wake.workspaceId.text, triggerId := wake.id.text, attempt := next,
      maxRetries := retryPolicy.maxRetries, quietHoursOverride := wake.quietHoursOverride }
  if shouldRetry next retryPolicy then
    let some delay := computeRetryDelay next retryPolicy | .error .invalidNumber
    enforceSessionSchedulerDecision policy hours.service (session .scheduleRetry)
    updateGate hours.repository wake .scheduleRetry next
    return (⟨.pending, none, [("retry", .object (buildRetryMetadata next delay retryPolicy error nextAt)),
      ("due_at", .string nextAt)]⟩, next)
  else
    enforceSessionSchedulerDecision policy hours.service (session .failureDecision)
    updateGate hours.repository wake .failureDecision 0
    return (⟨.failedPermanent, some s!"max_retries_exceeded:{next}", []⟩, next)

/-! ### When a gate lets pass -/

section Gates

variable {policy : PolicyBounds} {hours : Hours} {call : WakeCall} {wakeId : Token} {r : Request}

/-- A decision does not raise, and its next action is expected. -/
def passes (expected : Operation → List String) (operation : Operation) (decision : Decision) : Bool :=
  (decision = .defer || decision = .allow) && (expected operation).contains (nextAction operation decision)

theorem enforce_ok {expected : Operation → List String} :
    enforce expected r = .ok () ↔ passes expected r.operation (decision r) = true := by
  unfold enforce runRuntimeKernelEnforced passes
  rcases decision r with _ | _ | _ | _
  · exact ⟨fun h => (by cases h), fun h => (by cases h)⟩
  · exact ⟨fun h => (by cases h), fun h => (by cases h)⟩
  · simp [bind, Except.bind, pure, Except.pure]
  · simp [bind, Except.bind, pure, Except.pure]

theorem gate_bind_ok {α : Type} {gate : Except Raised Unit} {f : Unit → Except Raised α} {a : α} :
    (gate >>= f) = .ok a ↔ gate = .ok () ∧ f () = .ok a := by
  cases gate <;> simp [bind, Except.bind]

theorem session_passes {operation : Operation} (h : operation.wakes = true) (d : Decision) :
    passes expectedNextActions operation d = (d = .defer || d = .allow) := by
  cases operation <;> cases d <;> first | rfl | cases h

theorem repository_passes (operation : Operation) (d : Decision) :
    passes repositoryNextActions operation d = (d = .allow || (d = .defer && operation = .wakeDecision)) := by
  cases operation <;> cases d <;> rfl

theorem mode_kind (kind : TriggerKind) :
    (Kernel.StateStore.normalizeOr (strip kind.text) "event" = "self_proposed" ↔ kind = .selfProposed) ∧
      Kernel.StateStore.normalizeOr (strip kind.text) "event" ≠ "owner_approved" := by
  cases kind <;> decide

theorem operation_wakes (kind : TriggerKind) : kind.operation.wakes = true := by
  cases kind <;> rfl

theorem operation_selfProposed (kind : TriggerKind) : kind.operation = .selfProposedTrigger ↔ kind = .selfProposed := by
  cases kind <;> decide

theorem operation_wakeDecision (kind : TriggerKind) :
    kind.operation = .wakeDecision ↔ kind ≠ .eventTrigger ∧ kind ≠ .selfProposed := by
  cases kind <;> decide

theorem firstOf_strip {texts : List String} (hstrip : ∀ text ∈ texts, strip text = text)
    (h : ∃ text ∈ texts, text ≠ "") :
    strip (Heartbeat.firstOf texts) = Heartbeat.firstOf texts ∧ Heartbeat.firstOf texts ≠ "" := by
  obtain ⟨text, hmem, hne⟩ := h
  cases hfind : texts.find? (· ≠ "") with
  | none =>
    have hempty := List.find?_eq_none.mp hfind text hmem
    simp [hne] at hempty
  | some first =>
    have hfirst : Heartbeat.firstOf texts = first := by rw [Heartbeat.firstOf, hfind, Option.getD_some]
    rw [hfirst]
    have hne := List.find?_some hfind
    exact ⟨hstrip first (List.mem_of_find?_eq_some hfind), of_decide_eq_true hne⟩

theorem strip_kind (kind : TriggerKind) : strip kind.text = kind.text ∧ kind.text ≠ "" := by
  cases kind <;> decide

/-- Every wake names its trigger. -/
theorem triggerId_present (call : WakeCall) : (Kernel.present (strip call.triggerId)).isSome := by
  have hkind := strip_kind call.kind
  have htexts : ∀ text ∈ [call.summary, call.reason, call.kind.text], strip text = text := by
    intro text htext
    simp only [List.mem_cons, List.not_mem_nil, or_false] at htext
    rcases htext with rfl | rfl | rfl
    · exact call.summary_strip
    · exact call.reason_strip
    · exact hkind.1
  obtain ⟨hstrip, hnonempty⟩ := firstOf_strip htexts ⟨call.kind.text,
    by simp only [List.mem_cons, true_or, or_true], hkind.2⟩
  have hids : ∀ text ∈ [strip call.eventId, strip call.runId, strip call.eventType,
      strip (Heartbeat.firstOf [call.summary, call.reason, call.kind.text])], strip text = text := by
    intro text htext
    simp only [List.mem_cons, List.not_mem_nil, or_false] at htext
    rcases htext with rfl | rfl | rfl | rfl <;> exact Text.trim_trim _ _
  have hlast : strip (Heartbeat.firstOf [call.summary, call.reason, call.kind.text]) ≠ "" := by
    rw [hstrip]
    exact hnonempty
  obtain ⟨htrimmed, hne⟩ := firstOf_strip hids ⟨_, by simp only [List.mem_cons, true_or, or_true], hlast⟩
  rw [WakeCall.triggerId, present_strip, htrimmed, if_neg hne, Option.isSome_some]

/-- What the kernel says of a wake that names its trigger and its workspace. -/
theorem decision_wake {kind : TriggerKind} (hop : r.operation = kind.operation) (hmode : r.wakeMode = strip kind.text)
    (henabled : r.schedulerEnabled = true) (htrigger : (Kernel.present r.triggerId).isSome)
    (hworkspace : (Kernel.present r.workspaceId).isSome) :
    decision r = if kind = .selfProposed ∧ r.needsOwner = true then .requireApproval
      else if r.wakeDeferred = true then .defer else .allow := by
  obtain ⟨hself, howner⟩ := mode_kind kind
  have hwakes : r.operation.wakes = true := hop ▸ operation_wakes kind
  obtain ⟨hretry, -⟩ := wakes_ne hwakes
  have hblocks : r.blocks = [] := by
    simp [Request.blocks, Kernel.StateStore.reasonIf, hretry, henabled, Option.isNone_eq_false_iff.mpr htrigger,
      Option.isNone_eq_false_iff.mpr hworkspace]
  have hproposed : r.selfProposed = decide (kind = .selfProposed) := by
    have hiff := operation_selfProposed kind
    rw [← hop] at hiff
    simp [Request.selfProposed, hwakes, Request.mode, hmode, hself, hiff]
  rw [decision_of_blocks hblocks, hproposed, deferred_eq, hwakes]
  simp [hretry]

/-- The gate of the service raises only for a self-proposed wake that still needs its owner. -/
theorem session_ok : enforceSessionSchedulerDecision policy hours.service call.session = .ok () ↔
    ¬ (call.kind = .selfProposed ∧ (sessionRequest policy hours.service call.session).needsOwner = true) := by
  have hworkspace : (Kernel.present (sessionRequest policy hours.service call.session).workspaceId).isSome := by
    dsimp only [sessionRequest, WakeCall.session]
    rw [call.workspaceId.trimmed, call.workspaceId.present_text]
    rfl
  have htrigger : (Kernel.present (sessionRequest policy hours.service call.session).triggerId).isSome := by
    dsimp only [sessionRequest, WakeCall.session]
    exact triggerId_present call
  have hkind : (sessionRequest policy hours.service call.session).operation = call.kind.operation := rfl
  rw [enforceSessionSchedulerDecision, enforce_ok, hkind, session_passes (operation_wakes call.kind),
    decision_wake hkind rfl rfl htrigger hworkspace]
  split
  · rename_i h
    simp [h]
  · rename_i h
    split <;> simp [h]

/-- The gate of the repository raises for an event or a self-proposed wake that is put off, and for a
    self-proposed wake that needs its owner. -/
theorem repository_ok : enforceSchedulerWakeRepositoryDecision hours.repository (call.repository policy wakeId) =
    .ok () ↔
    ¬ (call.kind = .selfProposed ∧
        (repositoryRequest hours.repository (call.repository policy wakeId)).needsOwner = true) ∧
      ¬ ((call.kind = .eventTrigger ∨ call.kind = .selfProposed) ∧
        (repositoryRequest hours.repository (call.repository policy wakeId)).wakeDeferred = true) := by
  have hworkspace : (Kernel.present (strip call.workspaceId.text)).isSome := by
    rw [call.workspaceId.trimmed, call.workspaceId.present_text]
    rfl
  have hwake : (Kernel.present (strip wakeId.text)).isSome := by
    rw [wakeId.trimmed, wakeId.present_text]
    rfl
  have hkind : (repositoryRequest hours.repository (call.repository policy wakeId)).operation =
    call.kind.operation := rfl
  have hplain := operation_wakeDecision call.kind
  rw [enforceSchedulerWakeRepositoryDecision, enforce_ok, hkind, repository_passes,
    decision_wake hkind rfl rfl hwake hworkspace]
  split
  · rename_i h
    simp [h]
  · rename_i h
    split
    · rename_i hdeferred
      simp [h, hdeferred, hplain]
    · rename_i hdeferred
      simp [h, hdeferred]

/-! ### What the gates ask of a wake and of a retry -/

/-- A self-proposed wake that its owner has to approve; a priority that is none of `i64` counts as 0. -/
def needsOwner (policy : PolicyBounds) (provided : Bool) (payload : WakePayload) : Bool :=
  policy.requireOwnerApprovalForPrivilegedWakeups && !provided && number payload.priority 0 < 80

/-- The repository has a wake put off: a bound of the policy that is 0 counts as its default, and the device is
    read from the payload. -/
def putOff (policy : PolicyBounds) (hour : Int) (payload : WakePayload) : Bool :=
  (inQuietHours (clamp 0 23 (number hour 12)) (clamp 0 23 (number (orElse (some policy.quietHoursStart) 23) 23))
      (clamp 0 23 (number (orElse (some policy.quietHoursEnd) 7) 7)) && !payload.quietHoursOverride) ||
    number (orElse payload.batteryPercent 100) 100 <
      clamp 0 100 (number (orElse (some policy.minimumBatteryPercent) 20) 20) ||
    (policy.requireNetworkOnline && !payload.networkOnline.getD true)

theorem wakeDeferred_repository : (repositoryRequest hours.repository (call.repository policy wakeId)).wakeDeferred =
    putOff policy hours.repository call.payload := by
  have hmode : (repositoryRequest hours.repository (call.repository policy wakeId)).mode ≠ "owner_approved" :=
    (mode_kind call.kind).2
  simp only [Request.wakeDeferred, hmode, ne_eq, not_false_eq_true, decide_true, Bool.and_true]
  rfl

theorem persist_ok : persistWakeup policy hours wakeId call = .ok call.stored ↔
    (call.kind = .selfProposed →
      needsOwner policy (!call.approvalRequired || call.approvalGranted) call.payload = false ∧
      needsOwner policy (!call.approvalRequired || call.status = .denied) call.payload = false) ∧
    (call.kind = .eventTrigger ∨ call.kind = .selfProposed → putOff policy hours.repository call.payload = false) := by
  have hgates : persistWakeup policy hours wakeId call = .ok call.stored ↔
      enforceSessionSchedulerDecision policy hours.service call.session = .ok () ∧
        enforceSchedulerWakeRepositoryDecision hours.repository (call.repository policy wakeId) = .ok () := by
    rw [persistWakeup, gate_bind_ok, gate_bind_ok]
    simp [pure, Except.pure]
  have hsession : (sessionRequest policy hours.service call.session).needsOwner =
      needsOwner policy (!call.approvalRequired || call.approvalGranted) call.payload := rfl
  have hrepository : (repositoryRequest hours.repository (call.repository policy wakeId)).needsOwner =
      needsOwner policy (!call.approvalRequired || call.status = .denied) call.payload := rfl
  rw [hgates, session_ok, repository_ok, wakeDeferred_repository, hsession, hrepository]
  simp only [not_and, Bool.not_eq_true, ← and_assoc, ← forall_and]

/-- The hours in which the service puts a retry off. -/
def retryQuiet (policy : PolicyBounds) (hour : Int) (quietHoursOverride : Bool) : Bool :=
  inQuietHours (clamp 0 23 (number hour 12)) (clamp 0 23 (number policy.quietHoursStart 23))
    (clamp 0 23 (number policy.quietHoursEnd 7)) && !quietHoursOverride

/-- The hours in which the repository puts a retry off, whatever the policy. -/
def repositoryQuiet (hour : Int) : Bool := inQuietHours (clamp 0 23 (number hour 12)) 23 7

/-- The attempts that the kernel counts as used up. -/
def exhausted (attempt maxRetries : Int) : Bool := max 0 (number maxRetries 5) ≤ max 0 (number attempt 0)

theorem decision_retry (hop : r.operation = .scheduleRetry) (henabled : r.schedulerEnabled = true) :
    decision r = .allow ↔ r.attemptsExhausted = false ∧ (r.quietNow && !r.quietHoursOverride) = false := by
  by_cases hexhausted : r.attemptsExhausted = true
  · have hblocks : r.blocks ≠ [] := by
      simp [Request.blocks, Kernel.StateStore.reasonIf, hop, hexhausted]
    simp [decision, hblocks, hexhausted]
  · rw [Bool.not_eq_true] at hexhausted
    have hblocks : r.blocks = [] := by
      simp [Request.blocks, Kernel.StateStore.reasonIf, hop, henabled, hexhausted, Operation.wakes,
        Operation.requiresWorkspace]
    have hproposed : r.selfProposed = false := by
      simp [Request.selfProposed, hop, Operation.wakes]
    rw [decision_of_blocks hblocks, hproposed, deferred_eq, hop]
    simp [Operation.wakes, hexhausted]

theorem retry_passes (expected : Operation → List String) (h : expected .scheduleRetry = ["schedule_retry"])
    (d : Decision) : passes expected .scheduleRetry d = true ↔ d = .allow := by
  cases d <;> simp [passes, h, nextAction]

/-- Neither gate is ever in the way of a claim. -/
theorem decision_claim (hop : r.operation = .claimWakeRequests) (henabled : r.schedulerEnabled = true)
    (hworkspace : (Kernel.present r.workspaceId).isSome) : decision r = .allow := by
  have hblocks : r.blocks = [] := by
    simp [Request.blocks, Kernel.StateStore.reasonIf, hop, henabled, Operation.wakes,
      Option.isNone_eq_false_iff.mpr hworkspace]
  have hproposed : r.selfProposed = false := by
    simp [Request.selfProposed, hop, Operation.wakes]
  rw [decision_of_blocks hblocks, hproposed, deferred_eq, hop]
  simp [Operation.wakes]

theorem claim_ok (expected : Operation → List String) (h : expected .claimWakeRequests = ["claim_due_wake_requests"])
    (hop : r.operation = .claimWakeRequests) (henabled : r.schedulerEnabled = true)
    (hworkspace : (Kernel.present r.workspaceId).isSome) : enforce expected r = .ok () := by
  rw [enforce_ok, decision_claim hop henabled hworkspace, hop]
  simp [passes, h, nextAction]

/-- A retry that both gates let pass counts one attempt, and is pending or over. -/
theorem retry_status {retryPolicy : RetryPolicy} {wake : FailedWake} {attempt n : Int} {error nextAt : String}
    {u : StatusUpdate} (hattempt : WakeStatuses.currentAttempt wake.metadata = some attempt)
    (h : scheduleRetry policy hours retryPolicy wake error nextAt = .ok (u, n)) :
    n = attempt + 1 ∧ u.status = if shouldRetry (attempt + 1) retryPolicy then .pending else .failedPermanent := by
  unfold scheduleRetry at h
  rw [hattempt] at h
  dsimp only at h
  split at h
  · rename_i hretry
    rcases hdelay : computeRetryDelay (attempt + 1) retryPolicy with _ | delay
    · rw [hdelay] at h
      cases h
    · rw [hdelay] at h
      obtain ⟨-, hrest⟩ := gate_bind_ok.mp h
      obtain ⟨-, hresult⟩ := gate_bind_ok.mp hrest
      cases hresult
      exact ⟨rfl, (if_pos hretry).symm⟩
  · rename_i hretry
    obtain ⟨-, hrest⟩ := gate_bind_ok.mp h
    obtain ⟨-, hresult⟩ := gate_bind_ok.mp hrest
    cases hresult
    exact ⟨rfl, (if_neg hretry).symm⟩

theorem computeRetryDelay_ofInt (p : WakeStatuses.RetryPolicy) (attempt : Int) :
    computeRetryDelay attempt (.ofInt p) = some (WakeStatuses.computeRetryDelay attempt p) := by
  unfold computeRetryDelay WakeStatuses.computeRetryDelay
  split <;> rfl

/-- What is written past the gates is the update of a retry. -/
theorem retryUpdate_of_ok {p : WakeStatuses.RetryPolicy} {wake : FailedWake} {n : Int} {error nextAt : String}
    {u : StatusUpdate} (h : scheduleRetry policy hours (.ofInt p) wake error nextAt = .ok (u, n)) :
    WakeStatuses.retryUpdate wake.metadata p error nextAt = some u := by
  unfold scheduleRetry at h
  unfold WakeStatuses.retryUpdate
  rcases hattempt : WakeStatuses.currentAttempt wake.metadata with _ | attempt
  · rw [hattempt] at h
    cases h
  · rw [hattempt] at h
    have hsame : shouldRetry (attempt + 1) (.ofInt p) = WakeStatuses.shouldRetry (attempt + 1) p := rfl
    dsimp only at h
    rw [computeRetryDelay_ofInt, hsame] at h
    split at h
    · rename_i hretry
      obtain ⟨-, hrest⟩ := gate_bind_ok.mp h
      obtain ⟨-, hresult⟩ := gate_bind_ok.mp hrest
      cases hresult
      exact congrArg some (if_pos hretry)
    · rename_i hretry
      obtain ⟨-, hrest⟩ := gate_bind_ok.mp h
      obtain ⟨-, hresult⟩ := gate_bind_ok.mp hrest
      cases hresult
      exact congrArg some (if_neg hretry)

theorem retry_ok {retryPolicy : RetryPolicy} {wake : FailedWake} {attempt : Int} {error nextAt : String}
    (hattempt : WakeStatuses.currentAttempt wake.metadata = some attempt)
    (hretry : shouldRetry (attempt + 1) retryPolicy = true) :
    (∃ u, scheduleRetry policy hours retryPolicy wake error nextAt = .ok (u, attempt + 1) ∧ u.status = .pending) ↔
      (computeRetryDelay (attempt + 1) retryPolicy).isSome ∧
      exhausted (attempt + 1) retryPolicy.maxRetries = false ∧
        retryQuiet policy hours.service wake.quietHoursOverride = false ∧
      exhausted (attempt + 1) 5 = false ∧ repositoryQuiet hours.repository = false := by
  have hservice (session : SessionCall) (h : session.operation = .scheduleRetry) :
      enforceSessionSchedulerDecision policy hours.service session = .ok () ↔
        exhausted session.attempt session.maxRetries = false ∧
          retryQuiet policy hours.service session.quietHoursOverride = false := by
    have hop : (sessionRequest policy hours.service session).operation = .scheduleRetry := h
    rw [enforceSessionSchedulerDecision, enforce_ok, hop, retry_passes _ rfl, decision_retry hop rfl]
    rfl
  have hrepository : updateGate hours.repository wake .scheduleRetry (attempt + 1) = .ok () ↔
      exhausted (attempt + 1) 5 = false ∧ repositoryQuiet hours.repository = false := by
    have hquiet : repositoryQuiet hours.repository =
        (inQuietHours (clamp 0 23 (number hours.repository 12)) (clamp 0 23 (number 23 23)) (clamp 0 23 (number 7 7)) &&
          !false) := (Bool.and_true _).symm
    rw [updateGate, enforceSchedulerWakeRepositoryDecision, enforce_ok]
    change passes _ .scheduleRetry _ = true ↔ _
    rw [retry_passes _ rfl, decision_retry rfl rfl, hquiet]
    rfl
  unfold scheduleRetry
  rw [hattempt]
  dsimp only
  rw [if_pos hretry]
  rcases computeRetryDelay (attempt + 1) retryPolicy with _ | delay
  · simp
  · simp only [gate_bind_ok, hrepository, Option.isSome_some, true_and]
    constructor
    · rintro ⟨u, ⟨hsession, hrow, -⟩, -⟩
      obtain ⟨hexhausted, hquiet⟩ := (hservice _ rfl).mp hsession
      exact ⟨hexhausted, hquiet, hrow⟩
    · rintro ⟨hexhausted, hquiet, hrow⟩
      exact ⟨_, ⟨(hservice _ rfl).mpr ⟨hexhausted, hquiet⟩, hrow, rfl⟩, rfl⟩

/-- When an unapproved proposal is stored as denied. -/
theorem propose_denied {p : Proposal} (h : p.unapproved policy = true) :
    proposeSelfWakeup policy hours wakeId p = .ok (⟨.selfProposed, true, .denied, some "approval_required"⟩, false) ↔
      80 ≤ number p.payload.priority 0 ∧ putOff policy hours.repository p.payload = false := by
  have hunapproved := h
  simp only [Proposal.unapproved, Bool.and_eq_true, Bool.not_eq_true'] at hunapproved
  obtain ⟨⟨-, howner⟩, hgranted⟩ := hunapproved
  let call := p.call true .denied (some "approval_required")
  have hpersist : proposeSelfWakeup policy hours wakeId p = .ok (call.stored, false) ↔
      persistWakeup policy hours wakeId call = .ok call.stored := by
    rw [proposeSelfWakeup, if_pos h]
    cases persistWakeup policy hours wakeId call <;> simp [bind, Except.bind, pure, Except.pure]
  have hservice : needsOwner policy (!call.approvalRequired || call.approvalGranted) call.payload = false ↔
      80 ≤ number p.payload.priority 0 := by
    change needsOwner policy (!true || p.approvalGranted) p.payload = false ↔ _
    simp [needsOwner, howner, hgranted]
  have hrepository : needsOwner policy (!call.approvalRequired || call.status = .denied) call.payload = false := by
    change needsOwner policy (!true || true) p.payload = false
    simp [needsOwner]
  refine hpersist.trans (persist_ok.trans ?_)
  rw [hservice, hrepository]
  constructor
  · rintro ⟨happroval, hdeferred⟩
    exact ⟨(happroval rfl).1, hdeferred (.inr rfl)⟩
  · rintro ⟨hpriority, hdeferred⟩
    exact ⟨fun _ => ⟨hpriority, rfl⟩, fun _ => hdeferred⟩

end Gates

/-- What the scheduler has decided is stored exactly when neither gate is in the way: a privileged wake without
    approval for its denial, every other wake, and a retry with attempts left. -/
theorem gates_agree (policy : PolicyBounds) (hours : Hours) (wakeId : Token) :
    (∀ p : Proposal, p.unapproved policy = true →
      (proposeSelfWakeup policy hours wakeId p =
          .ok (⟨.selfProposed, true, .denied, some "approval_required"⟩, false) ↔
        80 ≤ number p.payload.priority 0 ∧ putOff policy hours.repository p.payload = false)) ∧
    (∀ call : WakeCall, persistWakeup policy hours wakeId call = .ok call.stored ↔
      (call.kind = .selfProposed →
        needsOwner policy (!call.approvalRequired || call.approvalGranted) call.payload = false ∧
        needsOwner policy (!call.approvalRequired || call.status = .denied) call.payload = false) ∧
      (call.kind = .eventTrigger ∨ call.kind = .selfProposed →
        putOff policy hours.repository call.payload = false)) ∧
    ∀ (retryPolicy : RetryPolicy) (wake : FailedWake) (attempt : Int) (error nextAt : String),
      WakeStatuses.currentAttempt wake.metadata = some attempt → shouldRetry (attempt + 1) retryPolicy = true →
      ((∃ u, scheduleRetry policy hours retryPolicy wake error nextAt = .ok (u, attempt + 1) ∧ u.status = .pending) ↔
        (computeRetryDelay (attempt + 1) retryPolicy).isSome ∧
        exhausted (attempt + 1) retryPolicy.maxRetries = false ∧
          retryQuiet policy hours.service wake.quietHoursOverride = false ∧
        exhausted (attempt + 1) 5 = false ∧ repositoryQuiet hours.repository = false) := by
  refine ⟨fun p hunapproved => propose_denied hunapproved, fun call => persist_ok, ?_⟩
  intro retryPolicy wake attempt error nextAt hattempt hretry
  exact retry_ok hattempt hretry

/-! ### A privileged wake, an event and a retry -/

/-- The policy of a workspace that has none. -/
def defaultPolicy : PolicyBounds := ⟨23, 7, 4, 2, 20, 20, false, true, "free", "UTC"⟩

def workspace : Token := ⟨"w1", by decide +kernel, by decide⟩

def wake : Token := ⟨"wake_7", by decide +kernel, by decide⟩

/-- A privileged wake that no one has approved. -/
def privileged (priority : Int) : Proposal :=
  ⟨workspace, "", "", "", ⟨"Clean up", by decide +kernel, by decide⟩, "disk", false, true, false, ⟨none, none⟩,
    ⟨priority, false, none, none⟩⟩

/-- The wake of a context event. -/
def eventWake : WakeCall :=
  ⟨.eventTrigger, workspace, "e1", "", "mail", "New mail", "mail", ⟨60, false, none, none⟩, ⟨none, none⟩, false, false,
    .pending, none, by decide +kernel, by decide +kernel⟩

def failedWake : FailedWake := ⟨workspace, wake, "goal", .string "", false⟩

/-- `DEFAULT_RETRY_POLICY` -/
def defaultRetryPolicy : RetryPolicy := ⟨5, 30, 3600, fun attempt => some (30 * 2 ^ attempt.toNat)⟩

/-- A privileged wake is stored as denied, that of an event and a retry are stored as pending. -/
theorem gates_agree_noon :
    proposeSelfWakeup defaultPolicy ⟨12, 12⟩ wake (privileged 80) =
        .ok (⟨.selfProposed, true, .denied, some "approval_required"⟩, false) ∧
      persistWakeup defaultPolicy ⟨12, 12⟩ wake eventWake = .ok eventWake.stored ∧
      ∃ u, scheduleRetry defaultPolicy ⟨12, 12⟩ defaultRetryPolicy failedWake "timeout" "12:01" = .ok (u, 1) ∧
        u.status = .pending := by
  obtain ⟨hdenied, hstored, hretried⟩ := gates_agree defaultPolicy ⟨12, 12⟩ wake
  exact ⟨(hdenied (privileged 80) (by decide)).mpr (by decide), (hstored eventWake).mpr (by decide),
    (hretried defaultRetryPolicy failedWake 0 "timeout" "12:01" rfl (by decide)).mpr (by decide)⟩

/-- What a call raises. -/
def raised {α : Type} : Except Raised α → Option Raised
  | .ok _ => none
  | .error e => some e

/-- The same three calls raise: the first at the lowest priority, the others in the quiet hours. -/
theorem gates_disagree :
    (privileged 0).unapproved defaultPolicy = true ∧
      raised (proposeSelfWakeup defaultPolicy ⟨12, 12⟩ wake (privileged 0)) =
        some (.approvalRequired "self_proposed_wake_requires_owner_approval") ∧
      raised (persistWakeup defaultPolicy ⟨23, 23⟩ wake eventWake) =
        some (.unexpectedNextAction .eventTrigger "defer_session_scheduler_operation") ∧
      shouldRetry 1 defaultRetryPolicy = true ∧
      raised (scheduleRetry defaultPolicy ⟨23, 23⟩ defaultRetryPolicy failedWake "timeout" "23:01") =
        some (.unexpectedNextAction .scheduleRetry "defer_session_scheduler_operation") := by
  decide

end Empyralis.Server.SchedulerGates
