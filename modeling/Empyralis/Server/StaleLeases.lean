import Empyralis.Server.ClaimedRuns

/-! The cleanup of stale claims: `cleanup_stale_machine_leases`. A first loop, under the queue's lock,
    removes the claims whose worker was not heard of for too long; a second one decides what becomes of
    their runs. The first loop does not look at the runs, so a run that ends between the two loops is one
    that is over in the table that the second loop reads. -/

namespace Empyralis.Server.Leases
open Text (strip)

/-- The settings and the outside of one cleanup. -/
structure Cleanup where
  now : Int
  nowIso : String
  /-- The time `now` plus so many seconds, as text. -/
  isoAfter : Int → String
  workerLostTimeoutSeconds : Int
  maxAutoRetries : Int
  backoffSeconds : List Int
  maxQueueRetryAttempts : Int
  queueRetryBackoffSeconds : List Int
  /-- Whether `schedule_restored_run_resume_fn` schedules this run. -/
  resumes : String → Bool

variable (env : Env) (gates : String → Fields → Except Error Unit) (c : Cleanup)

/-! ### The claims that are removed -/

structure Stale where
  runId : String
  workerId : String
  machineId : String
  leaseSeconds : Int

def claimWorker (claim : Fields) : String := text env (Fields.get claim "worker_id")

def claimMachine (claim : Fields) : String :=
  text env (orValue (Fields.get claim "machine_id") (.string (claimWorker env claim)))

/-- The number of seconds of a claim, `none` where it cannot be read. -/
def claimSeconds (claim : Fields) : Option Int :=
  (env.int (orValue (Fields.get claim "lease_seconds") (.int env.leaseSeconds))).map (max 10)

/-- Nothing was heard of the claim's worker for too long. -/
def isStale (claim : Fields) : Bool :=
  let heard := ((env.parseUtcTs (Fields.get claim "last_heartbeat_at")).or
    (env.parseUtcTs (Fields.get claim "claimed_at"))).getD c.now
  c.workerLostTimeoutSeconds * 1000000 < c.now - heard

/-- The worker of a stale claim is marked as offline. -/
def markOffline (registry : Table String Worker) (claim : Fields) (leaseSeconds : Int) :
    Table String Worker :=
  let worker := claimWorker env claim
  if worker = "" then registry
  else
    let state := (registry.get? worker).getD {}
    let lastSeenAt := either state.lastSeenAt ((orValue (Fields.get claim "last_heartbeat_at")
      (orValue (Fields.get claim "claimed_at") (.string c.nowIso))).str env.repr)
    registry.put worker (buildMachinePresenceRecord env state worker none "offline"
      (if state.leaseSeconds = 0 then leaseSeconds else state.leaseSeconds) lastSeenAt state.note)

/-- A value that is a dictionary. -/
def dictOf : Value → Option Fields
  | .object fields => some fields
  | _ => none

/-- The first loop, over the claims as they are when it begins. -/
def removeStale : List (String × Value) → State → Outcome (List Stale)
  | [], s => (.ok [], s)
  | (runId, value) :: rest, s =>
    match dictOf value with
    | none => removeStale rest { s with claims := s.claims.erase runId }
    | some claim =>
      match claimSeconds env claim with
      | none => (.error .value, s)
      | some leaseSeconds =>
        if !isStale env c claim then removeStale rest s
        else
          match gates runId claim with
          | .error e => (.error e, s)
          | .ok () =>
            let freed := { s with
              claims := s.claims.erase runId
              registry := markOffline env c s.registry claim leaseSeconds }
            match removeStale rest freed with
            | (.error e, t) => (.error e, t)
            | (.ok items, t) =>
              (.ok (⟨runId, claimWorker env claim, claimMachine env claim, leaseSeconds⟩ :: items), t)

/-! ### What becomes of their runs -/

def putAll (fields : Fields) : List (String × Value) → Fields
  | [] => fields
  | (key, value) :: rest => putAll (Fields.put fields key value) rest

/-- The delay before this attempt. -/
def backoffAt (schedule : List Int) (attempt : Int) : Int :=
  let delays := if schedule = [] then [0] else schedule.map (max 0)
  delays.getD (min (max 0 (attempt - 1)).toNat (delays.length - 1)) 0

/-- When the attempt after this delay is due. -/
def nextRetryAt (seconds : Int) : Value :=
  if 0 < seconds then .string (c.isoAfter seconds) else .null

/-- The run is stored and gets this status. -/
def settle (s : State) (runId : String) (run : Fields) (status : String) : Outcome Unit :=
  setRunStatus env (store s runId run) runId status

/-- A run that another worker may claim after the delay. -/
def requeuedRun (run : Fields) (attempt limit : Int) : Fields :=
  let seconds := backoffAt c.queueRetryBackoffSeconds attempt
  Fields.put (putMetadata run (putAll (metadataOf run)
    [("local_queue_retry_reason", .string "worker_lost"), ("local_queue_retry_count", .int attempt),
      ("local_queue_max_retries", .int limit), ("local_queue_retry_backoff_seconds", .int seconds),
      ("local_queue_next_retry_at", nextRetryAt c seconds)])) "result"
    (.string (if 0 < seconds then
        "Worker lost connection. Requeued for another local worker after backoff."
      else "Worker lost connection. Requeued for another local worker."))

/-- Back to the queue while the run has retries left, else to the dead letters. -/
def requeueOrFail (s : State) (runId : String) (run : Fields) (isLocal : Bool) : Outcome Unit :=
  let metadata := metadataOf run
  match env.int (orValue (Fields.get metadata "local_queue_retry_count") (.int 0)),
    env.int (orValue (Fields.get metadata "local_queue_max_retries") (.int c.maxQueueRetryAttempts)) with
  | some previous, some retries =>
    if isLocal ∧ previous < max 0 retries then
      match settle env s runId (requeuedRun c run (previous + 1) (max 0 retries)) "queued_local" with
      | (.error e, t) => (.error e, t)
      | (.ok (), t) => (.ok (), enqueue t runId)
    else
      settle env s runId (Fields.put run "result" (.string "Worker lost connection.")) "failed"
  | _, _ => (.error .value, store s runId run)

/-- A run whose checkpoint was retried often enough. -/
def exhaustedRun (run : Fields) (previous : Int) : Fields :=
  putMetadata (Fields.put (clearActiveMachineLeaseBinding run) "result" (.string
    "Worker lost connection repeatedly. Automatic checkpoint recovery is paused."))
    (putAll (metadataOf run)
      [("browser_resume_supported", .bool true), ("resume_ready", .bool true),
        ("local_worker_recovery_reason", .string "worker_lost"),
        ("local_worker_recovery_auto_retry_exhausted", .bool true),
        ("local_worker_recovery_manual_confirmation_required", .bool true),
        ("local_worker_recovery_attempt_count", .int previous),
        ("local_worker_recovery_next_retry_at", .null),
        ("local_worker_recovery_backoff_seconds", .int 0)])

/-- A run whose checkpoint is retried. -/
def retriedRun (run : Fields) (attempt seconds : Int) : Fields :=
  putMetadata (Fields.put (clearActiveMachineLeaseBinding run) "result"
    (.string (if 0 < seconds then
        "Worker lost connection. Recovery from saved browser checkpoint is delayed before retry."
      else "Worker lost connection. Recovering from saved browser checkpoint.")))
    (putAll (metadataOf run)
      [("browser_resume_supported", .bool true), ("resume_ready", .bool true),
        ("local_worker_recovery_reason", .string "worker_lost"),
        ("local_worker_recovery_attempt_count", .int attempt),
        ("local_worker_recovery_backoff_seconds", .int seconds),
        ("local_worker_recovery_max_auto_retries", .int (max 1 c.maxAutoRetries)),
        ("local_worker_recovery_auto_retry_exhausted", .bool false),
        ("local_worker_recovery_manual_confirmation_required", .bool false),
        ("local_worker_recovery_next_retry_at", nextRetryAt c seconds)])

/-- A run whose resume is scheduled. -/
def resumedRun (run : Fields) : Fields :=
  putMetadata run (putAll (metadataOf run)
    [("local_worker_recovery_next_retry_at", .null), ("local_worker_recovery_backoff_seconds", .int 0),
      ("local_worker_recovery_last_resume_scheduled_at", .string c.nowIso)])

/-- `str(metadata.get("execution_target_selected") or … or "").strip().lower()` is a local target. -/
def isLocalTarget (run : Fields) : Bool :=
  ["local", "local_companion"].contains (lowered env
    (orValue (Fields.get (metadataOf run) "execution_target_selected")
      (Fields.get (metadataOf run) "execution_target")))

/-- The run has a browser checkpoint that a local worker could go on from. -/
def isCheckpointed (run : Fields) : Bool :=
  !(fieldsOf (Fields.get run "browser_checkpoint")).isEmpty && isLocalTarget env run

def recoverRun (s : State) (runId : String) (run : Fields) : Outcome Unit :=
  let cleared := clearActiveMachineLeaseBinding run
  if isCheckpointed env run then
    match env.int (orValue (Fields.get (metadataOf run) "local_worker_recovery_attempt_count")
      (.int 0)) with
    | none => (.error .value, store s runId cleared)
    | some previous =>
      let attempt := previous + 1
      let seconds := backoffAt c.backoffSeconds attempt
      if max 1 c.maxAutoRetries < attempt then
        settle env s runId (exhaustedRun run previous) "waiting_for_input"
      else
        match settle env s runId (retriedRun c run attempt seconds) "waiting_for_input" with
        | (.error e, t) => (.error e, t)
        | (.ok (), t) =>
          let waiting := Fields.put (retriedRun c run attempt seconds) "status"
            (.string "waiting_for_input")
          if 0 < seconds then (.ok (), t)
          else if c.resumes runId then (.ok (), store t runId (resumedRun c waiting))
          else requeueOrFail env c t runId waiting (isLocalTarget env run)
  else requeueOrFail env c s runId cleared (isLocalTarget env run)

/-- The body of the second loop. -/
def recover (s : State) (runId : String) : Outcome Unit :=
  match s.runs.get? runId with
  | some (.object run) =>
    if ["completed", "failed", "timeout"].contains (statusOf env run) then (.ok (), s)
    else recoverRun env c s runId run
  | _ => (.ok (), s)

def recoverAll : List String → State → Outcome Unit
  | [], s => (.ok (), s)
  | runId :: rest, s =>
    match recover env c s runId with
    | (.error e, t) => (.error e, t)
    | (.ok (), t) => recoverAll rest t

/-- `cleanup_stale_machine_leases` -/
def cleanupStaleMachineLeases (s : State) : Outcome (List String) :=
  match removeStale env gates c s.claims.entries s with
  | (.error e, t) => (.error e, t)
  | (.ok items, t) =>
    match recoverAll env c (items.map (·.runId)) t with
    | (.error e, u) => (.error e, u)
    | (.ok (), u) => (.ok (items.map (·.runId)), u)

end Empyralis.Server.Leases
