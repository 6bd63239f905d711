import Empyralis.Kernel.LocalWorkerStops
import Empyralis.Kernel.StateTransition
import Empyralis.Server.LeaseRuns

/-! The calls of a worker about its run, a heartbeat, a completion, a pause or a failure, and the kernel
    that is asked before each of them. -/

namespace Empyralis.Server.Leases
open Text (strip)

variable (env : Env)

/-! ### The state of a run -/

/-- `_canonical_run_state_for_rust` -/
def canonicalRunState (value : Value) : String :=
  let token := lowered env value
  if ["running", "running_local", "executing", "claimed", "in_progress"].contains token then "running"
  else if ["queued", "queued_local", "starting", "planning", "machine_allocating"].contains token then
    "queued"
  else if ["completed", "succeeded", "success"].contains token then "completed"
  else if ["cancelled", "canceled"].contains token then "cancelled"
  else if ["timeout", "timed_out"].contains token then "failed"
  else either token "queued"

/-- The operation as it is sent. -/
def stateOperation : Kernel.StateTransition.Operation → String
  | .complete => "complete"
  | .fail => "fail"

/-- The action that the caller accepts. -/
def expectedStateAction : Kernel.StateTransition.Operation → String
  | .complete => "complete_state_transition"
  | .fail => "fail_state_transition"

/-- What the gate of the states is sent. -/
def statePayload (operation : Kernel.StateTransition.Operation) (runId : String) (run : Fields) :
    Kernel.Json :=
  .object [("operation", .string (stateOperation operation)), ("entity_type", .string "run"),
    ("entity_id", .string runId), ("run_id", .string runId),
    ("current_state", .string (canonicalRunState env
      (orValue (Fields.get run "status") (Fields.get run "state"))))]

/-- `_enforce_run_state_transition_decision`, with the reason of its refusal or of its `allow`. -/
def enforceRunStateTransitionDecision (operation : Kernel.StateTransition.Operation) (runId : String)
    (run : Fields) : Except String String :=
  match Kernel.StateTransition.stateTransitionDecisionCommand operation
    (statePayload env operation runId run) with
  | .block reason => .error reason
  | .allow reason next =>
    if next = expectedStateAction operation then .ok reason
    else .error ("unexpected_next_action:" ++ if next = "" then "missing" else next)

/-! ### Pauses and failures -/

/-- What is sent of a pause or a failure. -/
structure StopRequest where
  operation : Kernel.LocalWorker.StopOperation
  workspaceId : String
  workerId : String
  currentWorkerId : String
  runId : String
  runStatus : String
  claimMissing : Bool

def stopText : Kernel.LocalWorker.StopOperation → String
  | .pauseRun => "pause_run"
  | .failRun => "fail_run"

/-- The payload, which has neither a wait reason nor an error. -/
def stopPayload (r : StopRequest) : Kernel.Json :=
  .object [("operation", .string (stopText r.operation)), ("workspace_id", .string r.workspaceId),
    ("worker_id", .string r.workerId), ("current_worker_id", .string r.currentWorkerId),
    ("run_id", .string r.runId), ("run_status", .string r.runStatus), ("actor_role", .string "worker"),
    ("local_companion_enabled", .bool true), ("claim_missing", .bool r.claimMissing)]

/-- `_raise_local_worker_gate_block` -/
def stopBlock (operation : Kernel.LocalWorker.StopOperation) (reason : String) : Error :=
  match reason with
  | "local_run_not_owned_by_worker" => notOwner
  | "local_run_claim_missing" => .http 409 "Run is not claimed by Gateway."
  | reason => .denied (stopText operation) reason

/-- `_enforce_local_worker_decision` with `allow_block_result`, and the block raised by its caller. -/
def enforceStopDecision (r : StopRequest) : Except Error Unit :=
  match Kernel.LocalWorker.localWorkerStopCommand r.operation (stopPayload r) with
  | .allow _ => .ok ()
  | .block reason => .error (stopBlock r.operation reason)

/-- The request of a worker that stops, with the claim the queue has on record. What the worker gives as
    its reason is not in it. -/
def stopRequest (operation : Kernel.LocalWorker.StopOperation) (runId worker : String) (run : Fields)
    (runStatus : String) (claim : Option Value) : StopRequest where
  operation := operation
  workspaceId := runWorkspace env run
  workerId := worker
  currentWorkerId := resolvedWorker env "" claim
  runId := runId
  runStatus := runStatus
  claimMissing := match claim with
    | some (.object _) => false
    | _ => true

/-- What a pause stores in the run, besides its result data and its checkpoints. -/
def pausedRun (run : Fields) (resultText waitReason : String) : Fields :=
  Fields.put (clearActiveMachineLeaseBinding (Fields.put run "result" (.string
      (either (strip resultText) "Gateway paused and is waiting for human input."))))
    "wait_reason" (.string (either (strip waitReason) "human_unblock_required"))

/-- `pause_local_run` -/
def pauseLocalRun (nowIso : String) (s : State) (runId workerId resultText waitReason : String) :
    Outcome Unit :=
  match s.runs.get? runId with
  | some (.object run) =>
    let claim := s.claims.get? runId
    let worker := resolvedWorker env (strip workerId) claim
    match enforceStopDecision (stopRequest env .pauseRun runId (either worker workerId) run
      (statusText env (Fields.get run "status") "claimed") claim) with
    | .error e => (.error e, s)
    | .ok () =>
      match releaseMachineLeaseClaim env nowIso s runId workerId "" "idle" "paused_waiting_for_input" with
      | (.error e, t) => (.error e, t)
      | (.ok _, t) =>
        setRunStatus env (store t runId (pausedRun run resultText waitReason)) runId "waiting_for_input"
  | _ => (.error runNotFound, s)

/-- What a failure stores in the run. -/
def failedRun (run : Fields) (error : String) : Fields :=
  let result := either (strip error)
    (either (text env (Fields.get run "interrupt_reason")) "Gateway run failed.")
  clearActiveMachineLeaseBinding
    ((Fields.put run "result" (.string result)).filter fun field => field.1 ≠ "wait_reason")

/-- `_enforce_local_queue_terminal_transition` of a failure. -/
def queueFail (runId requester holder status : String) : QueueRequest where
  operation := "fail"
  runId := runId
  requesterId := requester
  leaseHolderId := holder
  status := status

/-- `fail_local_run` -/
def failLocalRun (nowIso : String) (s : State) (runId workerId error : String) : Outcome Unit :=
  match s.runs.get? runId with
  | some (.object run) =>
    let claim := s.claims.get? runId
    let worker := resolvedWorker env (strip workerId) claim
    let holder := match claim with
      | some (.object fields) => holderOf env fields
      | _ => ""
    match enforceStopDecision (stopRequest env .failRun runId (either worker workerId) run
      (either (statusOf env run) "claimed") claim) with
    | .error e => (.error e, s)
    | .ok () =>
    match enforceRunStateTransitionDecision env .fail runId run with
    | .error reason => (.error (.denied "fail" reason), s)
    | .ok stateReason =>
    match enforceQueueTransitionDecision (queueFail runId (either (strip (either worker workerId)) holder)
      holder (statusText env (Fields.get run "status") "claimed")) with
    | .error e => (.error e, s)
    | .ok queueReason =>
      if stateReason = "state_already_terminal" ∨ queueReason = "queue_item_already_terminal" then
        (.ok (), s)
      else
        let failed := store s runId (failedRun env run error)
        if worker = "" then setRunStatus env failed runId "failed"
        else
          match releaseMachineLeaseClaim env nowIso failed runId worker "" "idle" "failed_run" with
          | (.error e, t) => (.error e, t)
          | (.ok release, t) =>
            let t := if !release.released then markLocalWorkerSeen env t worker none "idle" nowIso "failed_run"
              else t
            setRunStatus env t runId "failed"
  | _ => (.error runNotFound, s)

/-! ### The four calls -/

/-- The calls of a worker on a run. -/
inductive WorkerCall where
  | heartbeat (note : String)
  | complete (resultText : String)
  | pause (resultText waitReason : String)
  | fail (error : String)

/-- The call as the service makes it. -/
def perform (nowIso : String) (s : State) (runId workerId : String) : WorkerCall → Outcome Unit
  | .heartbeat note => heartbeatLocalRun env nowIso s runId workerId note
  | .complete resultText =>
    completeLocalRun env (enforceRunStateTransitionDecision env .complete) nowIso s runId workerId resultText
  | .pause resultText waitReason => pauseLocalRun env nowIso s runId workerId resultText waitReason
  | .fail error => failLocalRun env nowIso s runId workerId error

/-- The decision of `local_worker_decision_command` on the payload that the call builds. -/
def gate (s : State) (runId workerId : String) (run : Fields) : WorkerCall → Except Error Unit
  | .heartbeat _ => enforceLocalWorkerDecision (workerRequest env .runHeartbeat runId
      (resolvedWorker env (strip workerId) (s.claims.get? runId)) run
      (statusText env (Fields.get run "status") "claimed") (s.claims.get? runId))
  | .complete _ => enforceLocalWorkerDecision (workerRequest env .completeRun runId
      (either (resolvedWorker env (strip workerId) (s.claims.get? runId)) workerId) run
      (either (statusOf env run) "claimed") (s.claims.get? runId))
  | .pause _ _ => enforceStopDecision (stopRequest env .pauseRun runId
      (either (resolvedWorker env (strip workerId) (s.claims.get? runId)) workerId) run
      (statusText env (Fields.get run "status") "claimed") (s.claims.get? runId))
  | .fail _ => enforceStopDecision (stopRequest env .failRun runId
      (either (resolvedWorker env (strip workerId) (s.claims.get? runId)) workerId) run
      (either (statusOf env run) "claimed") (s.claims.get? runId))

/-- A call that the gate refuses raises its refusal, and does nothing else. -/
theorem perform_refused {nowIso : String} {s : State} {runId workerId : String} {run : Fields}
    {call : WorkerCall} {e : Error} (hrun : s.runs.get? runId = some (.object run))
    (h : gate env s runId workerId run call = .error e) :
    perform env nowIso s runId workerId call = (.error e, s) := by
  cases call with
  | heartbeat note => simp only [perform, heartbeatLocalRun, hrun, gate] at h ⊢; rw [h]
  | complete resultText => simp only [perform, completeLocalRun, hrun, gate] at h ⊢; rw [h]
  | pause resultText waitReason => simp only [perform, pauseLocalRun, hrun, gate] at h ⊢; rw [h]
  | fail error => simp only [perform, failLocalRun, hrun, gate] at h ⊢; rw [h]

/-! ### Agreement -/

/-- The statuses of a run that is under way. -/
def activeStatuses : List String :=
  ["queued_local", "starting", "running_local", "running", "waiting_for_input"]

/-- A claim that names this worker, on a run and with a lease that have an id. -/
structure ClaimedBy (runId : String) (claim : Fields) (w : String) : Prop where
  runNamed : strip runId ≠ ""
  worker : text env (Fields.get claim "worker_id") = w
  named : w ≠ ""
  lease : text env (Fields.get claim "lease_id") ≠ ""

/-- The kernel allows what the worker of a run asks for, and the call goes through; what another worker
    asks for is refused, and nothing changes. -/
structure Agreement (s : State) (runId w v : String) (run : Fields) (call : WorkerCall) : Prop where
  owner : strip v = w → gate env s runId v run call = .ok () ∧
    ∀ nowIso, (perform env nowIso s runId v call).1 = .ok ()
  other : strip v ≠ w → ∀ nowIso, ∃ e, perform env nowIso s runId v call = (.error e, s)

/-- A heartbeat goes through in every active status, and a completion in those of a run that is running. A
    pause and a failure have to give a reason, which the payload leaves out. -/
def WorkerCall.goesThrough (status : String) : WorkerCall → Bool
  | .heartbeat _ => true
  | .complete _ => ["running", "running_local"].contains status
  | .pause _ _ | .fail _ => false

variable {env}

theorem strip_text (value : Value) : strip (text env value) = text env value := Value.strip_token env.repr value

theorem stop_refused (r : StopRequest) : ∃ e, enforceStopDecision r = .error e := by
  have hreason : Kernel.stringField (stopPayload r) "wait_reason" = none := by
    simp [Kernel.stringField, Kernel.Json.get, stopPayload, List.lookup_cons]
  have hcheckpoint : (stopPayload r).get "browser_checkpoint" = none := by
    simp [Kernel.Json.get, stopPayload, List.lookup_cons]
  have herror : Kernel.stringField (stopPayload r) "error" = none := by
    simp [Kernel.stringField, Kernel.Json.get, stopPayload, List.lookup_cons]
  have hblocks : ∃ reason, Kernel.LocalWorker.localWorkerStopCommand r.operation (stopPayload r) = .block reason :=
    Kernel.LocalWorker.stop_blocked hreason hcheckpoint herror
  obtain ⟨reason, hblock⟩ := hblocks
  rw [enforceStopDecision, hblock]
  exact ⟨_, rfl⟩

/-- So no pause and no failure gets past the gate, whoever asks. -/
theorem gate_pause (s : State) (runId v : String) (run : Fields) (resultText waitReason : String) :
    ∃ e, gate env s runId v run (.pause resultText waitReason) = .error e := by
  rw [gate]
  exact stop_refused _

theorem gate_fail (s : State) (runId v : String) (run : Fields) (error : String) :
    ∃ e, gate env s runId v run (.fail error) = .error e := by
  rw [gate]
  exact stop_refused _

section Claimed

variable {s : State} {runId w v status : String} {run claim : Fields} (hc : ClaimedBy env runId claim w)

include hc

theorem trimmed_claimed : strip w = w := hc.worker ▸ strip_text _

theorem present_claimed : Kernel.present w = some w :=
  Token.present_text ⟨w, trimmed_claimed hc, hc.named⟩

theorem holder_claimed : holderOf env claim = w := by
  have htruthy : (Fields.get claim "worker_id").truthy = true := by
    by_contra hfalse
    refine hc.named (hc.worker ▸ ?_)
    rw [text, Value.token, if_neg hfalse]
  rw [holderOf, orValue, if_pos htruthy, hc.worker]

theorem current_claimed : resolvedWorker env "" (some (.object claim)) = w := by
  rw [resolvedWorker, either, if_pos rfl, hc.worker]

end Claimed

theorem present_isSome {value : String} (h : strip value ≠ "") : (Kernel.present value).isSome := by
  have htrim : Text.trim Text.rustSpace value ≠ "" := by
    intro hempty
    have hspace : ∀ c ∈ value.toList, Text.pySpace c = true := by
      intro c hc
      have hrust : Text.rustSpace c = true := by
        by_contra hfalse
        exact Text.trim_ne_empty hc (Bool.not_eq_true _ ▸ hfalse) hempty
      simp only [Text.rustSpace, Text.pySpace, Bool.or_eq_true] at hrust ⊢
      exact .inl hrust
    apply h
    rw [strip, Text.trim, Text.trimList, List.dropWhile_eq_nil_iff.mpr hspace]
    rfl
  rw [Kernel.present, if_neg htrim]
  rfl

theorem worker_allowed {r : WorkerRequest} (hworker : (Kernel.present r.workerId).isSome)
    (hrun : (Kernel.present r.runId).isSome)
    (hactive : Kernel.LocalWorker.runIsActive
      (Kernel.LocalWorker.token ((Kernel.present r.runStatus).getD "")) = true)
    (hclaim : r.claimMissing = false)
    (hown : Kernel.LocalWorker.workerMismatch (Kernel.present r.workerId)
      (Kernel.present r.currentWorkerId) = false) : enforceLocalWorkerDecision r = .ok () := by
  rw [enforceLocalWorkerDecision, worker_command, hactive, hclaim, hown,
    Option.isNone_eq_false_iff.mpr hworker, Option.isNone_eq_false_iff.mpr hrun]
  cases r.operation <;> rfl

/-! Statuses of active runs. -/

theorem active_statuses : ∀ status ∈ activeStatuses, strip status = status ∧ status ≠ "" ∧
    (status.toList.all fun c => c.isLower || c = '_') = true ∧
    Kernel.LocalWorker.runIsActive
      (Kernel.LocalWorker.token ((Kernel.present status).getD "")) = true := by
  decide

section Active

variable {run : Fields} {status : String} (hstatus : Fields.get run "status" = .string status)
  (hactive : status ∈ activeStatuses)

include hstatus hactive

theorem statusText_active (default : String) :
    statusText env (Fields.get run "status") default = status := by
  rw [statusText, hstatus, text_string, (active_statuses status hactive).1,
    either_named (active_statuses status hactive).2.1]

theorem statusOf_active : statusOf env run = status := by
  rw [statusOf, lowered, hstatus, text_string, (active_statuses status hactive).1,
    env.lower_plain status (Lowercase.plain_of_all (active_statuses status hactive).2.2.1)]

end Active

section Calls

variable {s : State} {runId w v status : String} {run claim : Fields}
  (hclaim : s.claims.get? runId = some (.object claim)) (hc : ClaimedBy env runId claim w)

include hclaim hc

/-- The owner passes the gate of the local workers. -/
theorem worker_owner {operation : Kernel.LocalWorker.Operation}
    (hactive : status ∈ activeStatuses) :
    enforceLocalWorkerDecision (workerRequest env operation runId w run status
      (s.claims.get? runId)) = .ok () := by
  have hworker : Kernel.present w = some w := present_claimed hc
  have hcurrent : resolvedWorker env "" (s.claims.get? runId) = w := by
    rw [hclaim, current_claimed hc]
  refine worker_allowed ?_ (present_isSome hc.runNamed) (active_statuses status hactive).2.2.2 ?_ ?_
  · exact Option.isSome_iff_exists.mpr ⟨w, hworker⟩
  · simp only [workerRequest, hclaim]
  · simp only [workerRequest, hcurrent, hworker, Kernel.LocalWorker.workerMismatch]
    simp

/-- Another worker does not. -/
theorem worker_other (hv : strip v ≠ "") (hother : strip v ≠ w)
    {operation : Kernel.LocalWorker.Operation} {runStatus : String} :
    ∃ e, enforceLocalWorkerDecision (workerRequest env operation runId (strip v) run runStatus
      (s.claims.get? runId)) = .error e := by
  cases h : enforceLocalWorkerDecision (workerRequest env operation runId (strip v) run runStatus
      (s.claims.get? runId)) with
  | error e => exact ⟨e, rfl⟩
  | ok result =>
    obtain ⟨-, hmatch⟩ := worker_ok h
    have hcurrent : resolvedWorker env "" (s.claims.get? runId) = w := by
      rw [hclaim, current_claimed hc]
    simp only [workerRequest, hcurrent, present_claimed hc, present_strip, if_neg hv,
      Kernel.LocalWorker.workerMismatch, decide_eq_false_iff_not, not_not] at hmatch
    exact absurd hmatch hother

theorem gate_owner_call (hstatus : Fields.get run "status" = .string status)
    (hactive : status ∈ activeStatuses) (hv : strip v = w) {call : WorkerCall}
    (hcall : call.goesThrough status = true) : gate env s runId v run call = .ok () := by
  have hnamed : resolvedWorker env (strip v) (s.claims.get? runId) = w := by
    rw [hv, resolvedWorker_named env hc.named]
  cases call with
  | heartbeat note =>
    rw [gate, hnamed, statusText_active hstatus hactive]
    exact worker_owner hclaim hc hactive
  | complete resultText =>
    rw [gate, hnamed, either_named hc.named, statusOf_active hstatus hactive,
      either_named (active_statuses status hactive).2.1]
    exact worker_owner hclaim hc hactive
  | pause resultText waitReason => cases hcall
  | fail error => cases hcall

theorem gate_other_call (hv : strip v ≠ "") (hother : strip v ≠ w) (call : WorkerCall) :
    ∃ e, gate env s runId v run call = .error e := by
  cases call with
  | heartbeat note =>
    rw [gate, resolvedWorker_named env hv]
    exact worker_other hclaim hc hv hother
  | complete resultText =>
    rw [gate, resolvedWorker_named env hv, either_named hv]
    exact worker_other hclaim hc hv hother
  | pause resultText waitReason => exact gate_pause s runId v run resultText waitReason
  | fail error => exact gate_fail s runId v run error

end Calls

/-! ### What a completion meets behind the gate -/

theorem running_statuses : ∀ status ∈ ["running", "running_local"],
    status ∈ activeStatuses ∧ strip status = status ∧
      Kernel.StateTransition.normalizeState ((Kernel.present "running").getD "none") = .running ∧
      (Kernel.Queue.normalizeStatus ((Kernel.present status).getD "unknown")).isTerminal = false ∧
      (Kernel.Queue.normalizeStatus ((Kernel.present status).getD "unknown")).isActive = true := by
  with_unfolding_all decide

/-- What the state machine of the runs is told of an active status. -/
def canonicalActive (status : String) : String :=
  if ["running", "running_local"].contains status then "running"
  else if ["queued_local", "starting"].contains status then "queued"
  else status

theorem canonical_active {status : String} (hactive : status ∈ activeStatuses) (other : Value) :
    canonicalRunState env (orValue (.string status) other) = canonicalActive status := by
  obtain ⟨htrimmed, hnamed, hlower, -⟩ := active_statuses status hactive
  have htruthy : (Value.string status).truthy = true := by simp [Value.truthy, hnamed]
  have hlowered : lowered env (.string status) = status := by
    rw [lowered, text_string, htrimmed, env.lower_plain status (Lowercase.plain_of_all hlower)]
  simp only [canonicalRunState, orValue, htruthy, if_true, hlowered]
  clear htrimmed hnamed hlower htruthy hlowered
  revert status
  decide

theorem current_state {run : Fields} {status : String} (hstatus : Fields.get run "status" = .string status)
    (hactive : status ∈ activeStatuses) (runId : String) :
    Kernel.stringFieldOr (statePayload env .complete runId run) "current_state" "status" =
      Kernel.present (canonicalActive status) := by
  simp [Kernel.stringFieldOr, Kernel.stringField, Kernel.Json.get, statePayload, List.lookup_cons,
    Kernel.Json.asStr, hstatus, canonical_active hactive]

/-- A completion asks the state machine with no version, so only the state decides. -/
theorem state_command {run : Fields} {status : String} (hstatus : Fields.get run "status" = .string status)
    (hactive : status ∈ activeStatuses) (runId : String) :
    Kernel.StateTransition.stateTransitionDecisionCommand .complete (statePayload env .complete runId run) =
      Kernel.StateTransition.completeDecision (Kernel.StateTransition.normalizeState
        ((Kernel.present (canonicalActive status)).getD "none")) := by
  have hconflict : Kernel.StateTransition.versionConflict (statePayload env .complete runId run) = false := by
    simp [Kernel.StateTransition.versionConflict, Kernel.Json.get, statePayload, List.lookup_cons]
  simp only [Kernel.StateTransition.stateTransitionDecisionCommand, current_state hstatus hactive, hconflict,
    Bool.false_eq_true, if_false]

/-- The state of a run that is running lets it be completed. -/
theorem state_allowed {run : Fields} {status : String} (hstatus : Fields.get run "status" = .string status)
    (hrunning : status ∈ ["running", "running_local"]) (runId : String) :
    enforceRunStateTransitionDecision env .complete runId run = .ok "state_complete_allowed" := by
  obtain ⟨hactive, -, hnormal, -⟩ := running_statuses status hrunning
  have hcanonical : canonicalActive status = "running" := if_pos (List.elem_eq_true_of_mem hrunning)
  rw [enforceRunStateTransitionDecision, state_command hstatus hactive, hcanonical, hnormal]
  rfl

theorem waiting_statuses : ∀ status ∈ activeStatuses, status ∉ ["running", "running_local"] →
    Kernel.StateTransition.completeDecision (Kernel.StateTransition.normalizeState
      ((Kernel.present (canonicalActive status)).getD "none")) = .block "invalid_state_transition" := by
  with_unfolding_all decide

/-- The state of a run that waits, to start or for its human, does not. -/
theorem state_refused {run : Fields} {status : String} (hstatus : Fields.get run "status" = .string status)
    (hactive : status ∈ activeStatuses) (hwaits : status ∉ ["running", "running_local"]) (runId : String) :
    enforceRunStateTransitionDecision env .complete runId run = .error "invalid_state_transition" := by
  rw [enforceRunStateTransitionDecision, state_command hstatus hactive, waiting_statuses status hactive hwaits]

theorem complete_command (runId requester holder : String) {status : String} (hwritten : status ≠ "")
    (htrimmed : strip status = status) :
    Kernel.Queue.queueTransitionDecisionCommand (queuePayload (queueComplete runId requester holder status)) =
      Kernel.Queue.completeDecision (Kernel.present (strip runId)) (Kernel.present (strip requester))
        (Kernel.present (strip holder))
        (Kernel.Queue.normalizeStatus ((Kernel.present status).getD "unknown")) := by
  have hop : Kernel.Queue.normalizeOperation
      ((Kernel.present (queueComplete runId requester holder status).operation).getD "") =
        some .complete := by
    have h : Kernel.Queue.normalizeOperation ((Kernel.present "complete").getD "") = some .complete := by
      with_unfolding_all decide
    exact h
  have hstatus : strip (if (queueComplete runId requester holder status).status = "" then "unknown"
      else (queueComplete runId requester holder status).status) = status :=
    (congrArg strip (if_neg hwritten)).trans htrimmed
  rw [queue_command hop, Kernel.Queue.decisionOf, hstatus]
  rfl

/-- So does the queue, for the holder on record. -/
theorem queue_complete_allowed {runId w : String} (hid : strip runId ≠ "") {status : String}
    (hrunning : status ∈ ["running", "running_local"]) :
    enforceQueueTransitionDecision (queueComplete runId w w status) = .ok "queue_complete_allowed" := by
  obtain ⟨hactive, htrimmed, -, hterminal, hqueue⟩ := running_statuses status hrunning
  have hown : Kernel.Queue.notOwned (Kernel.present (strip w)) (Kernel.present (strip w)) = false := by
    cases Kernel.present (strip w) <;> simp [Kernel.Queue.notOwned]
  have hreply := complete_command runId w w (active_statuses status hactive).2.1 htrimmed
  generalize Kernel.Queue.normalizeStatus ((Kernel.present status).getD "unknown") = current
    at hterminal hqueue hreply
  rw [present_strip runId, if_neg hid] at hreply
  unfold enforceQueueTransitionDecision
  rw [hreply]
  simp [Kernel.Queue.completeDecision, hterminal, Kernel.Queue.terminalDecision, hqueue, hown,
    Kernel.Queue.queueResponse, queueVerdict, verdict, Kernel.Queue.nextAction, queueComplete,
    expectedQueueAction]

section Completed

variable {s : State} {runId w v status : String} {run claim : Fields}
  (hclaim : s.claims.get? runId = some (.object claim)) (hc : ClaimedBy env runId claim w)

include hclaim hc

/-- The worker that a claim names gives the run back. -/
theorem release_claimed (nowIso statusHint note : String) :
    (releaseMachineLeaseClaim env nowIso s runId w "" statusHint note).1 = .ok ⟨w, true⟩ ∧
      (releaseMachineLeaseClaim env nowIso s runId w "" statusHint note).2.claims =
        s.claims.erase runId := by
  have hworker : resolvedWorker env (strip w) (some (.object claim)) = w := by
    rw [trimmed_claimed hc, resolvedWorker_named env hc.named]
  have hlease : either (strip "") (text env (Fields.get claim "lease_id")) =
      text env (Fields.get claim "lease_id") := rfl
  have hgate : workerRelease env runId w "" claim = .ok () := by
    obtain ⟨reason, hqueue⟩ : ∃ reason,
        enforceQueueTransitionDecision (queueRelease runId w w false) = .ok reason := queue_release_ok hc.runNamed
    simp only [workerRelease, holder_claimed hc, hqueue, hlease]
    exact lease_release_ok ((trimmed_claimed hc).symm ▸ hc.named) ((strip_text _).symm ▸ hc.lease)
  simp only [releaseMachineLeaseClaim, hclaim, hworker, hgate, true_and]
  split
  · exact claims_seen ..
  · rfl

/-- The owner of a running run completes it. -/
theorem complete_claimed (hrun : s.runs.get? runId = some (.object run))
    (hstatus : Fields.get run "status" = .string status) (hrunning : status ∈ ["running", "running_local"])
    (hv : strip v = w) (resultText nowIso : String) :
    (perform env nowIso s runId v (.complete resultText)).1 = .ok () := by
  obtain ⟨hactive, -⟩ := running_statuses status hrunning
  have hgate : gate env s runId v run (.complete resultText) = .ok () :=
    gate_owner_call hclaim hc hstatus hactive hv (by simpa [WorkerCall.goesThrough] using hrunning)
  have hworker : resolvedWorker env (strip v) (some (.object claim)) = w := by
    rw [hv, resolvedWorker_named env hc.named]
  have hreasons : ¬ ("state_complete_allowed" = "state_already_terminal" ∨
      "queue_complete_allowed" = "queue_item_already_terminal") := by decide
  simp only [gate, hclaim, hworker, either_named hc.named] at hgate
  simp only [perform, completeLocalRun, hrun, hclaim, hworker, either_named hc.named, hgate,
    state_allowed hstatus hrunning, trimmed_claimed hc, holder_claimed hc,
    statusText_active hstatus hactive, queue_complete_allowed hc.runNamed hrunning, if_neg hreasons]
  obtain ⟨hreleased, hclaims⟩ := release_claimed (s := store s runId (completedRun run resultText)) hclaim
    hc nowIso "idle" "completed_run"
  rcases hr : releaseMachineLeaseClaim env nowIso (store s runId (completedRun run resultText)) runId w ""
    "idle" "completed_run" with ⟨o, t⟩
  rw [hr] at hreleased hclaims
  obtain rfl : o = .ok ⟨w, true⟩ := hreleased
  have hnone : t.claims.get? runId = none := by
    rw [hclaims, Table.get?_erase, if_pos rfl]
  simp only [Bool.not_true, Bool.false_and, Bool.false_eq_true, if_false, setRunStatus_ok hnone]

/-- A worker that completes a run that is not running gets past its own gate, and is refused by the state
    machine of the runs. -/
theorem complete_waiting (hrun : s.runs.get? runId = some (.object run))
    (hstatus : Fields.get run "status" = .string status) (hactive : status ∈ activeStatuses)
    (hwaits : status ∉ ["running", "running_local"]) (hv : strip v = w) (resultText nowIso : String) :
    perform env nowIso s runId v (.complete resultText) =
      (.error (.denied "complete" "invalid_state_transition"), s) := by
  have hworker : resolvedWorker env (strip v) (some (.object claim)) = w := by
    rw [hv, resolvedWorker_named env hc.named]
  have hgate : enforceLocalWorkerDecision (workerRequest env .completeRun runId w run status
      (s.claims.get? runId)) = .ok () := worker_owner hclaim hc hactive
  rw [hclaim] at hgate
  simp only [perform, completeLocalRun, hrun, hclaim, hworker, either_named hc.named,
    statusOf_active hstatus hactive, either_named (active_statuses status hactive).2.1, hgate,
    state_refused hstatus hactive hwaits]

end Completed

/-- The kernel and the server agree on a call just when it is another worker's, or one that goes through in
    the status the run has. -/
theorem worker_calls_agree {s : State} {runId w v status : String} {run claim : Fields}
    (hrun : s.runs.get? runId = some (.object run)) (hstatus : Fields.get run "status" = .string status)
    (hactive : status ∈ activeStatuses) (hclaim : s.claims.get? runId = some (.object claim))
    (hc : ClaimedBy env runId claim w) (hv : strip v ≠ "") (call : WorkerCall) :
    Agreement env s runId w v run call ↔ (strip v = w → call.goesThrough status = true) := by
  constructor
  · intro h hown
    obtain ⟨hgate, hdone⟩ := h.owner hown
    cases call with
    | heartbeat note => rfl
    | complete resultText =>
      by_contra hwaits
      have hrefused := complete_waiting hclaim hc hrun hstatus hactive
        (by simpa [WorkerCall.goesThrough] using hwaits) hown resultText ""
      have hok := hdone ""
      rw [hrefused] at hok
      cases hok
    | pause resultText waitReason =>
      obtain ⟨e, herror⟩ := gate_pause s runId v run resultText waitReason
      cases herror.symm.trans hgate
    | fail error =>
      obtain ⟨e, herror⟩ := gate_fail s runId v run error
      cases herror.symm.trans hgate
  · intro hcall
    refine ⟨fun hown => ⟨gate_owner_call hclaim hc hstatus hactive hown (hcall hown), fun nowIso => ?_⟩,
      fun hother nowIso => ?_⟩
    · have hgate := gate_owner_call hclaim hc hstatus hactive hown (hcall hown)
      cases call with
      | heartbeat note =>
        simp only [perform, heartbeatLocalRun, hrun, gate] at hgate ⊢
        rw [hgate]
      | complete resultText =>
        have hrunning : status ∈ ["running", "running_local"] := by
          simpa [WorkerCall.goesThrough] using hcall hown
        exact complete_claimed hclaim hc hrun hstatus hrunning hown resultText nowIso
      | pause resultText waitReason => cases hcall hown
      | fail error => cases hcall hown
    · obtain ⟨e, hgate⟩ := gate_other_call hclaim hc hv hother call
      exact ⟨e, perform_refused env hrun hgate⟩

section Claimed

def localRun : Fields := [("status", .string "running_local")]

def localClaim : Fields := [("worker_id", .string "w1"), ("lease_id", .string "c0ffee")]

/-- The worker `w1` has claimed the run. -/
def oneClaimed : State where
  pending := []
  claims := Table.empty.put "r1" (.object localClaim)
  registry := Table.empty
  runs := Table.empty.put "r1" (.object localRun)

theorem claimedBy_localClaim : ClaimedBy plainEnv "r1" localClaim "w1" where
  runNamed := by decide
  worker := by decide
  named := by decide
  lease := by decide

/-- The worker that has claimed a run completes it. -/
theorem worker_calls_agree_complete :
    Agreement plainEnv oneClaimed "r1" "w1" "w1" localRun (.complete "done") :=
  (worker_calls_agree rfl rfl (by decide) rfl claimedBy_localClaim (by decide)
    (.complete "done")).mpr fun _ => by decide

def queuedRun : Fields := [("status", .string "queued_local")]

/-- The worker `w1` has claimed a run that is still queued. -/
def oneQueued : State :=
  { oneClaimed with runs := Table.empty.put "r1" (.object queuedRun) }

/-- Its worker pauses the run and says why, but the kernel is not told; and of a run that is still queued the
    worker's completion is refused. -/
theorem worker_calls_agree_pause :
    (gate plainEnv oneClaimed "r1" "w1" localRun (.pause "" "human_unblock_required") =
        .error (.denied "pause_run" "local_run_pause_reason_missing") ∧
      ¬ Agreement plainEnv oneClaimed "r1" "w1" "w1" localRun (.pause "" "human_unblock_required")) ∧
    (perform plainEnv "" oneQueued "r1" "w1" (.complete "done") =
        (.error (.denied "complete" "invalid_state_transition"), oneQueued) ∧
      ¬ Agreement plainEnv oneQueued "r1" "w1" "w1" queuedRun (.complete "done")) := by
  have hgate : gate plainEnv oneClaimed "r1" "w1" localRun (.pause "" "human_unblock_required") =
      .error (.denied "pause_run" "local_run_pause_reason_missing") := by decide
  have hqueued : perform plainEnv "" oneQueued "r1" "w1" (.complete "done") =
      (.error (.denied "complete" "invalid_state_transition"), oneQueued) :=
    complete_waiting rfl claimedBy_localClaim rfl rfl (by decide) (by decide) (by decide) "done" ""
  refine ⟨⟨hgate, fun h => ?_⟩, hqueued, fun h => ?_⟩
  · cases hgate.symm.trans (h.owner (by decide)).1
  · have hok := (h.owner (by decide)).2 ""
    rw [hqueued] at hok
    cases hok

end Claimed

end Empyralis.Server.Leases
