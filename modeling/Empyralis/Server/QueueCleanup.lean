import Empyralis.Lib.OwnLock
import Empyralis.Server.StaleCleanup

/-! The operator's cleanup of the local queue: `handle_cleanup_local_run_queue`. It cancels the runs of a
    workspace that have waited too long, one after the other under the queue's lock, and then saves the
    queue's state, for which the lock is taken again. -/

namespace Empyralis.Server.Leases
open Text (strip)

/-- The arguments of a cleanup. -/
structure QueueCleanup where
  workspaceId : String
  olderThanSeconds : Int
  limit : Int
  reason : String
  nowIso : String
  /-- The time at which a run is looked at. -/
  now : String → Int

/-- `max(60, min(int(older_than_seconds or 600), 604800))` -/
def QueueCleanup.threshold (r : QueueCleanup) : Int :=
  max 60 (min (if r.olderThanSeconds = 0 then 600 else r.olderThanSeconds) 604800)

/-- `max(1, min(int(limit or 200), 1000))` -/
def QueueCleanup.safeLimit (r : QueueCleanup) : Nat :=
  (max 1 (min (if r.limit = 0 then 200 else r.limit) 1000)).toNat

def QueueCleanup.cleanupReason (r : QueueCleanup) : String :=
  either (strip r.reason) "Cancelled by operator stale local queue cleanup."

variable (env : Env) (gate : String → String → Except Error String) (r : QueueCleanup)

/-! ### The runs that are cancelled -/

/-- `queue_age_seconds` of `_annotate_local_queue_wait_state`. -/
def queueAgeSeconds (now : Int) (run : Fields) : Option Int :=
  ((env.parseUtcTs (Fields.get run "updated_at")).or
    (env.parseUtcTs (Fields.get run "created_at"))).map fun reference =>
      max 0 ((now - reference).tdiv 1000000)

/-- A pending run that is to be cancelled, and its age. -/
def overdue (s : State) (runId : String) : Option (Fields × Int) :=
  match s.runs.get? runId with
  | some (.object run) =>
    if ((s.claims.get? runId).bind dictOf).isSome then none
    else if statusOf env run ≠ "queued_local" then none
    else if text env (Fields.get (contextOf run) "workspace_id") ≠ strip r.workspaceId then none
    else
      match queueAgeSeconds env (r.now runId) run with
      | none => none
      | some age => if age < r.threshold then none else some (run, age)
  | _ => none

def previousStatus (run : Fields) : String := statusText env (Fields.get run "status") "queued_local"

/-- `_enforce_local_queue_cancel_transition` -/
def enforceLocalQueueCancelTransition (runId previousStatus : String) : Except Error String :=
  enforceQueueTransitionDecision
    { operation := "cancel", runId, requesterId := "operator_local_queue_cleanup", force := true
      status := either (strip (either previousStatus "queued_local")) "queued_local" }

/-- The fields of a run that the cleanup cancels. -/
def cancelledFields (run : Fields) (age : Int) : Fields :=
  putAll (putMetadata run (Fields.put (metadataOf run) "local_queue_cleanup" (.object
    [("reason", .string r.cleanupReason), ("cleaned_at", .string r.nowIso),
      ("older_than_seconds", .int r.threshold), ("queue_age_seconds", .int age),
      ("workspace_id", .string (strip r.workspaceId))])))
    [("status", .string "cancelled"), ("updated_at", .string r.nowIso),
      ("completed_at", .string r.nowIso), ("result", .string r.cleanupReason),
      ("local_worker_id", .null), ("local_claimed_at", .null), ("local_last_heartbeat_at", .null)]

/-- The run is cancelled, and off the queue. -/
def cancelRun (s : State) (runId : String) (run : Fields) (age : Int) : State :=
  { store s runId (cancelledFields r run age) with pending := s.pending.filter (· ≠ runId) }

/-- The loop over the pending runs as they are when it begins; it counts the runs it cancels. -/
def cancelQueued : Nat → List String → State → Outcome Nat
  | cancelled, [], s => (.ok cancelled, s)
  | cancelled, runId :: rest, s =>
    match overdue env r s runId with
    | none => cancelQueued cancelled rest s
    | some (run, age) =>
      if cancelled < r.safeLimit then
        match gate runId (previousStatus env run) with
        | .error e => (.error e, s)
        | .ok _ => cancelQueued (cancelled + 1) rest (cancelRun r s runId run age)
      else cancelQueued cancelled rest s

/-! ### The handler -/

/-- `_local_worker_registry_snapshot` -/
def localWorkerRegistrySnapshot : Task Error State (Table String Worker) :=
  .withLock (.lift fun s => (.ok s.registry, s))

/-- `_persist_local_runtime_state`, which reads the queue under its lock. -/
def persistLocalRuntimeState : Task Error State Unit := .withLock (.ret ())

/-- `handle_cleanup_local_run_queue` with `dry_run` off; `sweep` is the cleanup of stale claims that it
    begins with. It archives the cancelled runs after the lock is given back. -/
def handleCleanupLocalRunQueue (sweep : State → Outcome Unit) : Task Error State Nat :=
  if strip r.workspaceId = "" then .fail (.http 400 "workspace_id is required.")
  else
    .bind localWorkerRegistrySnapshot fun _ =>
    .bind (.lift sweep) fun _ =>
    .withLock <| .bind (.lift fun s => cancelQueued env gate r 0 s.pending s) fun cancelled =>
      .bind (if cancelled = 0 then .ret () else persistLocalRuntimeState) fun _ => .ret cancelled

/-! ### What is asked of it -/

def isOverdue (s : State) (runId : String) : Bool := (overdue env r s runId).isSome

/-- The runs that the loop selects while it has room for so many, `seen` being those it has had. -/
def selectRuns (s : State) : Nat → List String → List String → List String
  | _, _, [] => []
  | 0, _, _ :: _ => []
  | room + 1, seen, runId :: rest =>
    if isOverdue env r s runId ∧ runId ∉ seen then runId :: selectRuns s room (runId :: seen) rest
    else selectRuns s (room + 1) seen rest

/-- The gate refuses to cancel the run. -/
def refuses (s : State) (runId : String) : Bool :=
  match overdue env r s runId with
  | none => false
  | some (run, _) => refused (gate runId (previousStatus env run))

/-- The runs that a request selects, in the state that the sweep leaves. -/
def selectedRuns (sweep : State → Outcome Unit) (s : State) : List String :=
  match sweep s with
  | (.ok _, u) => if strip r.workspaceId = "" then [] else selectRuns env r u r.safeLimit [] u.pending
  | (.error _, _) => []

/-- The statuses of the runs and the pending list are the same. -/
def Unchanged (s t : State) : Prop :=
  (∀ runId, statusIn env t runId = statusIn env s runId) ∧ t.pending = s.pending

/-- The request ends, and where the gate refuses a selected run it has changed nothing. -/
def Atomic (sweep : State → Outcome Unit) (s : State) : Prop :=
  (handleCleanupLocalRunQueue env gate r sweep ⟨false, s⟩).1 ≠ .hangs ∧
    ((∃ runId ∈ selectedRuns env r sweep s, refuses env gate r (sweep s).2 runId = true) →
      Unchanged env (sweep s).2 (handleCleanupLocalRunQueue env gate r sweep ⟨false, s⟩).2.state)

/-! ### The loop -/

/-- The state of the loop: the runs it has had are no longer overdue, the others are as they were. -/
structure Tracks (s t : State) (seen : List String) : Prop where
  cancelled : ∀ q ∈ seen, overdue env r t q = none
  same : ∀ q ∉ seen, overdue env r t q = overdue env r s q

theorem statusOf_cancelled (run : Fields) (age : Int) :
    statusOf env (cancelledFields r run age) = "cancelled" := by
  have h : Fields.get (cancelledFields r run age) "status" = .string "cancelled" := by
    simp [cancelledFields, putAll]
  have hput : statusOf env (Fields.put run "status" (.string "cancelled")) = "cancelled" :=
    statusOf_put env (by decide) run
  rw [statusOf, Fields.get_put, if_pos rfl] at hput
  rw [statusOf, h, hput]

theorem get?_cancelRun (s : State) (runId q : String) (run : Fields) (age : Int) :
    (cancelRun r s runId run age).runs.get? q =
      if q = runId then some (.object (cancelledFields r run age)) else s.runs.get? q :=
  Table.get?_put ..

theorem tracks_cancelRun {s t : State} {seen : List String} (h : Tracks env r s t seen)
    (runId : String) (run : Fields) (age : Int) :
    Tracks env r s (cancelRun r t runId run age) (runId :: seen) := by
  have hself : overdue env r (cancelRun r t runId run age) runId = none := by
    rw [overdue, get?_cancelRun, if_pos rfl]
    simp [statusOf_cancelled]
  have hother : ∀ q, q ≠ runId → overdue env r (cancelRun r t runId run age) q = overdue env r t q := by
    intro q hq
    rw [overdue, get?_cancelRun, if_neg hq, overdue]
    rfl
  constructor
  · intro q hq
    by_cases hne : q = runId
    · rw [hne, hself]
    · rw [hother q hne]
      exact h.cancelled q ((List.mem_cons.mp hq).resolve_left hne)
  · intro q hq
    rw [List.mem_cons, not_or] at hq
    rw [hother q hq.1, h.same q hq.2]

theorem statusIn_cancelRun (s : State) (runId q : String) (run : Fields) (age : Int) :
    statusIn env (cancelRun r s runId run age) q =
      if q = runId then some "cancelled" else statusIn env s q := by
  rw [statusIn, get?_cancelRun]
  split
  · rename_i hget
    by_cases hq : q = runId
    · rw [if_pos hq, Option.some.injEq, Value.object.injEq] at hget
      rw [if_pos hq, ← hget, statusOf_cancelled]
    · rw [if_neg hq] at hget
      rw [if_neg hq, statusIn, hget]
  · rename_i hget
    by_cases hq : q = runId
    · rw [if_pos hq] at hget
      exact absurd rfl (hget _)
    · rw [if_neg hq] at hget
      rw [if_neg hq, statusIn]
      split
      · rename_i hrun
        exact absurd hrun (hget _)
      · rfl

/-- How the loop goes on from a state, for the runs that it still selects. -/
structure Loops (s t : State) (selected : List String) (cancelled : Nat) (o : Outcome Nat) : Prop where
  idle : selected = [] → o = (.ok cancelled, t)
  first : ∀ q, selected.head? = some q → refuses env gate r s q = true → ∃ e, o = (.error e, t)
  taken : ∀ q, selected.head? = some q → refuses env gate r s q = false →
    statusIn env o.2 q = some "cancelled"
  raised : ∀ e, o.1 = .error e → ∃ q ∈ selected, refuses env gate r s q = true
  counted : ∀ n, o.1 = .ok n → n = cancelled + selected.length
  kept : ∀ q, statusIn env t q = some "cancelled" → statusIn env o.2 q = some "cancelled"

theorem loops_none (s t : State) (cancelled : Nat) :
    Loops env gate r s t [] cancelled (.ok cancelled, t) :=
  ⟨fun _ => rfl, nofun, nofun, nofun, fun n h => (by cases h; rfl), fun _ h => h⟩

/-- The gate refuses the first run that is selected. -/
theorem loops_refused {s t : State} {q : String} (hq : refuses env gate r s q = true)
    (rest : List String) (cancelled : Nat) (e : Error) :
    Loops env gate r s t (q :: rest) cancelled (.error e, t) := by
  refine ⟨nofun, fun _ _ _ => ⟨e, rfl⟩, fun p hp hnot => ?_, fun _ _ => ⟨q, List.mem_cons_self, hq⟩,
    nofun, fun _ h => h⟩
  cases hp
  rw [hq] at hnot
  cases hnot

/-- The first run that is selected is cancelled. -/
theorem loops_cancelled {s t : State} {q : String} {run : Fields} {age : Int} {rest : List String}
    {cancelled : Nat} {o : Outcome Nat} (hq : refuses env gate r s q = false)
    (h : Loops env gate r s (cancelRun r t q run age) rest (cancelled + 1) o) :
    Loops env gate r s t (q :: rest) cancelled o := by
  have hkept : ∀ p, p = q ∨ statusIn env t p = some "cancelled" →
      statusIn env o.2 p = some "cancelled" := by
    intro p hp
    refine h.kept p ?_
    rw [statusIn_cancelRun]
    split
    · rfl
    · rename_i hne
      exact hp.resolve_left hne
  refine ⟨nofun, fun p hp hrefuses => ?_, fun p hp _ => ?_, fun e he => ?_, fun n hn => ?_,
    fun p hp => hkept p (.inr hp)⟩
  · cases hp
    rw [hq] at hrefuses
    cases hrefuses
  · cases hp
    exact hkept q (.inl rfl)
  · obtain ⟨p, hp, hrefuses⟩ := h.raised e he
    exact ⟨p, List.mem_cons_of_mem _ hp, hrefuses⟩
  · rw [h.counted n hn, List.length_cons]
    omega

theorem selectRuns_full (s : State) (seen : List String) : ∀ ids : List String,
    selectRuns env r s 0 seen ids = []
  | [] => rfl
  | _ :: _ => rfl

/-- The loop cancels the selected runs up to the first one that the gate refuses. -/
theorem cancelQueued_loops {s : State} : ∀ (ids : List String) {t : State} {seen : List String}
    {room cancelled : Nat}, Tracks env r s t seen → cancelled + room = r.safeLimit →
    Loops env gate r s t (selectRuns env r s room seen ids) cancelled
      (cancelQueued env gate r cancelled ids t)
  | [], t, seen, room, cancelled, _, _ => by
    rw [selectRuns, cancelQueued]
    exact loops_none ..
  | runId :: rest, t, seen, 0, cancelled, ht, hroom => by
    have hrest := cancelQueued_loops rest ht hroom
    have hfull : ¬ cancelled < r.safeLimit := by omega
    rw [selectRuns_full] at hrest ⊢
    rw [cancelQueued]
    cases hoverdue : overdue env r t runId with
    | none => exact hrest
    | some found =>
      dsimp only
      rw [if_neg hfull]
      exact hrest
  | runId :: rest, t, seen, room + 1, cancelled, ht, hroom => by
    rw [selectRuns]
    split
    · rename_i hselected
      obtain ⟨hoverdue, hseen⟩ := hselected
      obtain ⟨⟨run, age⟩, hs⟩ := Option.isSome_iff_exists.mp hoverdue
      have hlt : cancelled < r.safeLimit := by omega
      have hrefuses : refuses env gate r s runId = refused (gate runId (previousStatus env run)) := by
        rw [refuses, hs]
      rw [cancelQueued, ht.same runId hseen, hs]
      dsimp only
      rw [if_pos hlt]
      cases hgate : gate runId (previousStatus env run) with
      | error e =>
        rw [hgate] at hrefuses
        exact loops_refused env gate r hrefuses _ _ e
      | ok reason =>
        rw [hgate] at hrefuses
        exact loops_cancelled env gate r hrefuses (cancelQueued_loops rest
          (tracks_cancelRun env r ht runId run age) (by omega))
    · rename_i hskipped
      have hnone : overdue env r t runId = none := by
        by_cases hseen : runId ∈ seen
        · exact ht.cancelled runId hseen
        · rw [ht.same runId hseen, ← Option.not_isSome_iff_eq_none]
          exact fun hoverdue => hskipped ⟨hoverdue, hseen⟩
      rw [cancelQueued, hnone]
      exact cancelQueued_loops rest ht hroom

/-! ### The request -/

/-- A request that cancels nothing gives the lock back; one that cancels a run takes it again. -/
def loopEnds (v : State) : Except Error Nat → Ended Error Nat × Holding State
  | .error e => (.raises e, ⟨false, v⟩)
  | .ok 0 => (.returns 0, ⟨false, v⟩)
  | .ok (_ + 1) => (.hangs, ⟨true, v⟩)

theorem snapshot_returns (s : State) :
    localWorkerRegistrySnapshot ⟨false, s⟩ = (.returns s.registry, ⟨false, s⟩) := rfl

theorem handle_swept {sweep : State → Outcome Unit} {s u v : State} {o : Except Error Nat}
    (hworkspace : strip r.workspaceId ≠ "") (hsweep : sweep s = (.ok (), u))
    (hloop : cancelQueued env gate r 0 u.pending u = (o, v)) :
    handleCleanupLocalRunQueue env gate r sweep ⟨false, s⟩ = loopEnds v o := by
  rw [handleCleanupLocalRunQueue, if_neg hworkspace,
    Task.bind_returns (snapshot_returns s),
    Task.bind_returns (Task.lift_ok hsweep)]
  cases o with
  | error e => exact Task.withLock_raises rfl (Task.bind_raises (Task.lift_error hloop))
  | ok n =>
    cases n with
    | zero =>
      refine Task.withLock_returns (t := ⟨true, v⟩) rfl ?_
      rw [Task.bind_returns (Task.lift_ok hloop), if_pos rfl]
      rfl
    | succ n =>
      refine Task.withLock_hangs rfl ?_
      rw [Task.bind_returns (Task.lift_ok hloop), if_neg (Nat.succ_ne_zero n)]
      -- the state is saved inside the region of the lock
      exact Task.bind_hangs (Task.withLock_held rfl)

theorem handle_unswept {sweep : State → Outcome Unit} {s u : State} {e : Error}
    (hworkspace : strip r.workspaceId ≠ "") (hsweep : sweep s = (.error e, u)) :
    handleCleanupLocalRunQueue env gate r sweep ⟨false, s⟩ = (.raises e, ⟨false, u⟩) := by
  rw [handleCleanupLocalRunQueue, if_neg hworkspace,
    Task.bind_returns (snapshot_returns s),
    Task.bind_raises (Task.lift_error hsweep)]

theorem mem_selectRuns {s : State} {q : String} {ids seen : List String} {room : Nat}
    (h : q ∈ selectRuns env r s room seen ids) : isOverdue env r s q := by
  induction ids generalizing room seen with
  | nil =>
    rw [selectRuns] at h
    cases h
  | cons runId rest ih =>
    cases room with
    | zero =>
      rw [selectRuns_full] at h
      cases h
    | succ room =>
      rw [selectRuns] at h
      split at h
      · rename_i hselected
        rcases List.mem_cons.mp h with rfl | h
        · exact hselected.1
        · exact ih h
      · exact ih h

theorem statusIn_overdue {s : State} {q : String} (h : isOverdue env r s q) :
    statusIn env s q = some "queued_local" := by
  unfold isOverdue overdue at h
  split at h
  · rename_i run hrun
    rw [statusIn_stored env hrun]
    split at h
    · cases h
    · split at h
      · cases h
      · rename_i hstatus
        exact congrArg some (not_not.mp hstatus)
  · cases h

/-- The request is atomic exactly when it selects no run or the gate refuses the first one it selects. -/
theorem queue_cleanup_atomic_iff (sweep : State → Outcome Unit) (s : State) :
    Atomic env gate r sweep s ↔ ∀ q, (selectedRuns env r sweep s).head? = some q →
      refuses env gate r (sweep s).2 q = true := by
  by_cases hworkspace : strip r.workspaceId = ""
  · have hnone : selectedRuns env r sweep s = [] := by
      rw [selectedRuns]
      split
      · rw [if_pos hworkspace]
      · rfl
    refine iff_of_true ⟨?_, ?_⟩ (hnone ▸ nofun)
    · rw [handleCleanupLocalRunQueue, if_pos hworkspace]
      nofun
    · rw [hnone]
      rintro ⟨q, hq, -⟩
      cases hq
  rcases hsweep : sweep s with ⟨e | ⟨⟩, u⟩
  · have hnone : selectedRuns env r sweep s = [] := by rw [selectedRuns, hsweep]
    refine iff_of_true ⟨?_, ?_⟩ (hnone ▸ nofun)
    · rw [handle_unswept env gate r hworkspace hsweep]
      nofun
    · rw [hnone]
      rintro ⟨q, hq, -⟩
      cases hq
  have hselected : selectedRuns env r sweep s = selectRuns env r u r.safeLimit [] u.pending := by
    rw [selectedRuns, hsweep]
    exact if_neg hworkspace
  have hloops : Loops env gate r u u (selectRuns env r u r.safeLimit [] u.pending) 0
      (cancelQueued env gate r 0 u.pending u) :=
    cancelQueued_loops env gate r u.pending ⟨nofun, fun _ _ => rfl⟩ (Nat.zero_add r.safeLimit)
  rcases hloop : cancelQueued env gate r 0 u.pending u with ⟨o, v⟩
  rw [hloop, ← hselected] at hloops
  have hqueued : ∀ q ∈ selectedRuns env r sweep s, statusIn env u q = some "queued_local" :=
    fun q hq => statusIn_overdue env r (mem_selectRuns env r (hselected ▸ hq))
  rw [Atomic, handle_swept env gate r hworkspace hsweep hloop, hsweep]
  cases hruns : selectedRuns env r sweep s with
  | nil =>
    cases hloops.idle hruns
    exact iff_of_true ⟨nofun, fun ⟨q, hq, _⟩ => nomatch hq⟩ nofun
  | cons q rest =>
    have hhead : (selectedRuns env r sweep s).head? = some q := by rw [hruns, List.head?_cons]
    cases hrefuses : refuses env gate r u q with
    | true =>
      obtain ⟨e, ho⟩ := hloops.first q hhead hrefuses
      cases ho
      refine iff_of_true ⟨nofun, fun _ => ⟨fun _ => rfl, rfl⟩⟩ fun p hp => ?_
      cases hp
      exact hrefuses
    | false =>
      refine iff_of_false ?_ fun h => ?_
      · rintro ⟨hends, hunchanged⟩
        cases o with
        | ok n =>
          have hn := hloops.counted n rfl
          rw [hruns, List.length_cons, Nat.zero_add] at hn
          rw [hn] at hends
          exact hends rfl
        | error e =>
          have hraised := hloops.raised e rfl
          rw [hruns] at hraised
          have hstatus := (hunchanged hraised).1 q
          have hcancelled : statusIn env v q = some "cancelled" := hloops.taken q hhead hrefuses
          rw [hqueued q (List.mem_of_mem_head? hhead)] at hstatus
          have hsame := hcancelled.symm.trans hstatus
          exact absurd hsame (by decide)
      · have htrue := h q List.head?_cons
        rw [hrefuses] at htrue
        cases htrue

/-! ### A run that has waited for an hour -/

def hourOld : Fields :=
  [("status", .string "queued_local"), ("updated_at", .string "2026-01-01T00:00:00Z"),
    ("context", .object [("workspace_id", .string "w")])]

def hourOldState : State where
  pending := ["r1"]
  claims := Table.empty
  registry := Table.empty
  runs := Table.empty.put "r1" (.object hourOld)

def cleanUp : QueueCleanup where
  workspaceId := "w"
  olderThanSeconds := 600
  limit := 200
  reason := ""
  nowIso := "2026-01-01T01:00:00Z"
  now _ := 1767229200000000

/-- The run is cancelled, and the request waits for its own lock. -/
theorem queue_cleanup_hangs :
    (handleCleanupLocalRunQueue plainEnv enforceLocalQueueCancelTransition cleanUp (fun s => (.ok (), s))
      ⟨false, hourOldState⟩).1 = .hangs ∧
    ¬ Atomic plainEnv enforceLocalQueueCancelTransition cleanUp (fun s => (.ok (), s)) hourOldState := by
  have hhangs : (handleCleanupLocalRunQueue plainEnv enforceLocalQueueCancelTransition cleanUp
      (fun s => (.ok (), s)) ⟨false, hourOldState⟩).1 = .hangs := by with_unfolding_all decide
  exact ⟨hhangs, fun h => h.1 hhangs⟩

end Empyralis.Server.Leases
