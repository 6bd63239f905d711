import Empyralis.Server.MachineLeases

/-! What may happen to a claimed run: its heartbeat, its completion, its release, and a run put back into
    the queue. -/

namespace Empyralis.Server.Leases
open Text (strip)

variable (env : Env)

/-! ### Releasing a claim -/

/-- The two gates in front of a release in the claim's own name. -/
def ownRelease (runId : String) (claim : Fields) : Except Error Unit :=
  match enforceQueueTransitionDecision
    (queueRelease runId (holderOf env claim) (holderOf env claim) false) with
  | .error e => .error e
  | .ok _ => enforceMachineLeaseDecision (releaseRequest (holderOf env claim) (holderOf env claim)
      (text env (Fields.get claim "lease_id")) (text env (Fields.get claim "lease_id")) false false)

/-- `reconcile_machine_lease_release` -/
def reconcileMachineLeaseRelease (s : State) (runId : String) : Outcome Unit :=
  let waiting := { s with pending := s.pending.filter (· ≠ runId) }
  match s.claims.get? runId with
  | some (.object claim) =>
    match ownRelease env runId claim with
    | .error e => (.error e, waiting)
    | .ok () => (.ok (), { waiting with claims := s.claims.erase runId })
  | _ => (.ok (), waiting)

/-- The run under its id. -/
def store (s : State) (runId : String) (run : Fields) : State :=
  { s with runs := s.runs.put runId (.object run) }

/-- `set_run_status`, which ends the claim of a run that is over. -/
def setRunStatus (s : State) (runId status : String) : Outcome Unit :=
  match s.runs.get? runId with
  | some (.object run) =>
    if run.isEmpty then (.ok (), s)
    else
      let moved := store s runId (Fields.put run "status" (.string status))
      if ["completed", "failed", "timeout"].contains status then
        reconcileMachineLeaseRelease env moved runId
      else (.ok (), moved)
  | _ => (.ok (), s)

/-- What a release reports. -/
structure Release where
  resolvedWorker : String
  released : Bool
  deriving DecidableEq

/-- The worker that a request is made for: the one it names, or the one the claim is stored under. -/
def resolvedWorker (incoming : String) : Option Value → String
  | some (.object claim) => either incoming (text env (Fields.get claim "worker_id"))
  | _ => incoming

/-- The gates in front of a release that a worker asks for. -/
def workerRelease (runId requester leaseId : String) (claim : Fields) : Except Error Unit :=
  let current := text env (Fields.get claim "lease_id")
  match enforceQueueTransitionDecision (queueRelease runId requester (holderOf env claim) false) with
  | .error e => .error e
  | .ok _ => enforceMachineLeaseDecision
      (releaseRequest requester (holderOf env claim) (either (strip leaseId) current) current false true)

/-- `release_machine_lease_claim` -/
def releaseMachineLeaseClaim (nowIso : String) (s : State) (runId workerId leaseId statusHint
    note : String) : Outcome Release :=
  let claim := s.claims.get? runId
  let worker := resolvedWorker env (strip workerId) claim
  let gate := match claim with
    | some (.object fields) => workerRelease env runId worker leaseId fields
    | _ => .ok ()
  match gate with
  | .error e => (.error e, s)
  | .ok () =>
    let freed := { s with claims := s.claims.erase runId }
    let released := match claim with
      | none | some .null => false
      | some _ => true
    (.ok ⟨worker, released⟩,
      if worker ≠ "" ∧ statusHint ≠ "" then markLocalWorkerSeen env freed worker none statusHint nowIso note
      else freed)

/-! ### The worker's own requests -/

/-- `_run_context(run)["workspace_id"]` -/
def runWorkspace (run : Fields) : String :=
  either (text env (orValue (Fields.get (contextOf run) "workspace_id")
    (Fields.get (metadataOf run) "workspace_id"))) "default"

/-- The request of a worker about a run, with the claim the queue has on record. -/
def workerRequest (operation : Kernel.LocalWorker.Operation) (runId worker : String) (run : Fields)
    (runStatus : String) (claim : Option Value) : WorkerRequest where
  operation := operation
  workspaceId := runWorkspace env run
  workerId := worker
  currentWorkerId := resolvedWorker env "" claim
  runId := runId
  runStatus := runStatus
  claimMissing := match claim with
    | some (.object _) => false
    | _ => true

def runNotFound : Error := .http 404 "Run ID not found"

/-- `heartbeat_local_run` -/
def heartbeatLocalRun (nowIso : String) (s : State) (runId workerId note : String) : Outcome Unit :=
  match s.runs.get? runId with
  | some (.object run) =>
    let claim := s.claims.get? runId
    let worker := resolvedWorker env (strip workerId) claim
    match enforceLocalWorkerDecision (workerRequest env .runHeartbeat runId worker run
      (statusText env (Fields.get run "status") "claimed") claim) with
    | .error e => (.error e, s)
    | .ok () =>
      let touched := Fields.put (fieldsOf (claim.getD .null)) "last_heartbeat_at" (.string nowIso)
      let seen := store { s with claims := s.claims.put runId (.object touched) } runId
        (Fields.put run "local_last_heartbeat_at" (.string nowIso))
      (.ok (), if worker = "" then seen
        else markLocalWorkerSeen env seen worker (some runId) "busy" nowIso (strip note))
  | _ => (.error runNotFound, s)

/-- `clear_active_machine_lease_binding` -/
def clearActiveMachineLeaseBinding (run : Fields) : Fields :=
  Fields.put (Fields.put (Fields.put (Fields.put run "local_worker_id" .null) "local_claimed_at" .null)
    "local_last_heartbeat_at" .null) "machine_lease_id" .null

/-- What a completion stores in the run. -/
def completedRun (run : Fields) (resultText : String) : Fields :=
  clearActiveMachineLeaseBinding (Fields.put run "result"
    (.string (either (strip resultText) "Gateway run completed.")))

/-- `complete_local_run`; `stateGate` is the gate of the run's own state machine, with the reason of its
    refusal or of its `allow`. -/
def completeLocalRun (stateGate : String → Fields → Except String String) (nowIso : String) (s : State)
    (runId workerId resultText : String) : Outcome Unit :=
  match s.runs.get? runId with
  | some (.object run) =>
    let claim := s.claims.get? runId
    let worker := resolvedWorker env (strip workerId) claim
    let holder := match claim with
      | some (.object fields) => holderOf env fields
      | _ => ""
    match enforceLocalWorkerDecision (workerRequest env .completeRun runId (either worker workerId) run
      (either (statusOf env run) "claimed") claim) with
    | .error e => (.error e, s)
    | .ok () =>
    match stateGate runId run with
    | .error reason => (.error (.denied "complete" reason), s)
    | .ok stateReason =>
    match enforceQueueTransitionDecision (queueComplete runId
      (either (strip (either worker workerId)) holder) holder
      (statusText env (Fields.get run "status") "claimed")) with
    | .error e => (.error e, s)
    | .ok queueReason =>
      if stateReason = "state_already_terminal" ∨ queueReason = "queue_item_already_terminal" then
        (.ok (), s)
      else
        match releaseMachineLeaseClaim env nowIso (store s runId (completedRun run resultText)) runId
          (either worker workerId) "" "idle" "completed_run" with
        | (.error e, t) => (.error e, t)
        | (.ok release, t) =>
          let t := if !release.released && worker ≠ "" then
              markLocalWorkerSeen env t worker none "idle" nowIso "completed_run"
            else t
          setRunStatus env t runId "completed"
  | _ => (.error runNotFound, s)

/-- A run that does not wait yet is put at the end of the queue. -/
def enqueue (s : State) (runId : String) : State :=
  { s with pending := if runId ∈ s.pending then s.pending else s.pending ++ [runId] }

/-- `enqueue_local_companion_run` -/
def enqueueLocalCompanionRun (s : State) (runId : String) : Outcome Bool :=
  match s.runs.get? runId with
  | some (.object _) =>
    (.ok true, enqueue (setRunStatus env s runId "queued_local").2 runId)
  | _ => (.ok false, s)

end Empyralis.Server.Leases
