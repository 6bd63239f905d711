import Empyralis.Server.StaleLeases

/-! What the cleanup of stale claims leaves of their runs. -/

namespace Empyralis.Server.Leases
open Text (strip)

variable (env : Env) (gates : String → Fields → Except Error Unit) (c : Cleanup)

/-! ### The plan for one run

What the second loop does with a run depends only on the run; it is decided here without the changes
on the way. -/

inductive Plan where
  | rests
  | raises
  | waits
  | waitsThenRaises
  | requeued
  | fails
  deriving DecidableEq

def Plan.raised : Plan → Bool
  | .raises | .waitsThenRaises => true
  | _ => false

/-- The status that a run has afterwards. -/
def Plan.status (before : String) : Plan → String
  | .rests | .raises => before
  | .waits | .waitsThenRaises => "waiting_for_input"
  | .requeued => "queued_local"
  | .fails => "failed"

def queuePlan (run : Fields) (isLocal : Bool) : Plan :=
  let metadata := metadataOf run
  match env.int (orValue (Fields.get metadata "local_queue_retry_count") (.int 0)),
    env.int (orValue (Fields.get metadata "local_queue_max_retries") (.int c.maxQueueRetryAttempts)) with
  | some previous, some retries => if isLocal ∧ previous < max 0 retries then .requeued else .fails
  | _, _ => .raises

/-- A run that waits for its checkpoint when the queue is asked about it. -/
def Plan.afterWaiting : Plan → Plan
  | .raises => .waitsThenRaises
  | p => p

def plan (runId : String) (run : Fields) : Plan :=
  if ["completed", "failed", "timeout"].contains (statusOf env run) then .rests
  else if isCheckpointed env run then
    match env.int (orValue (Fields.get (metadataOf run) "local_worker_recovery_attempt_count")
      (.int 0)) with
    | none => .raises
    | some previous =>
      if max 1 c.maxAutoRetries < previous + 1 ∨ 0 < backoffAt c.backoffSeconds (previous + 1) ∨
          c.resumes runId then .waits
      else (queuePlan env c run (isLocalTarget env run)).afterWaiting
  else queuePlan env c run (isLocalTarget env run)

/-! ### Fields -/

theorem put_not_empty (fields : Fields) (key : String) (value : Value) :
    (Fields.put fields key value).isEmpty = false := by
  unfold Fields.put
  split
  · rename_i h
    cases fields with
    | nil => simp at h
    | cons field fields => rfl
  · cases fields <;> rfl

theorem get_putAll {key : String} : ∀ {updates : List (String × Value)} (fields : Fields),
    key ∉ updates.map Prod.fst → Fields.get (putAll fields updates) key = Fields.get fields key
  | [], _, _ => rfl
  | (k, v) :: rest, fields, h => by
    rw [List.map_cons, List.mem_cons, not_or] at h
    rw [putAll, get_putAll _ h.2, Fields.get_put, if_neg h.1]

@[simp] theorem contextOf_put {run : Fields} {key : String} {value : Value} (h : key ≠ "context") :
    contextOf (Fields.put run key value) = contextOf run := by
  rw [contextOf, Fields.get_put, if_neg (Ne.symm h), contextOf]

@[simp] theorem metadataOf_put {run : Fields} {key : String} {value : Value} (h : key ≠ "context") :
    metadataOf (Fields.put run key value) = metadataOf run := by
  rw [metadataOf, contextOf_put h, metadataOf]

@[simp] theorem metadataOf_putMetadata (run metadata : Fields) :
    metadataOf (putMetadata run metadata) = metadata := by
  simp [metadataOf, contextOf, putMetadata, fieldsOf]

@[simp] theorem metadataOf_clear (run : Fields) :
    metadataOf (clearActiveMachineLeaseBinding run) = metadataOf run := by
  simp [clearActiveMachineLeaseBinding]

@[simp] theorem get_clear {run : Fields} {key : String} (h : key ∉ ["local_worker_id",
    "local_claimed_at", "local_last_heartbeat_at", "machine_lease_id"]) :
    Fields.get (clearActiveMachineLeaseBinding run) key = Fields.get run key := by
  simp only [List.mem_cons, List.not_mem_nil, or_false, not_or] at h
  simp [clearActiveMachineLeaseBinding, h]

/-- The statuses that the operations write are read back as they are. -/
theorem statusOf_put {status : String}
    (h : status ∈ ["waiting_for_input", "queued_local", "failed", "completed", "cancelled"])
    (run : Fields) :
    statusOf env (Fields.put run "status" (.string status)) = status := by
  have hplain : strip status = status ∧ status ≠ "" ∧
      (status.toList.all fun ch => ch.isLower || ch = '_') = true := by
    simp only [List.mem_cons, List.not_mem_nil, or_false] at h
    rcases h with rfl | rfl | rfl | rfl | rfl <;> decide
  obtain ⟨hstrip, hne, hall⟩ := hplain
  have hlower : ∀ ch ∈ status.toList, ch.isLower ∨ ch = '_' := by
    simpa only [List.all_eq_true, Bool.or_eq_true, decide_eq_true_eq] using hall
  have htoken : text env (.string status) = status := by
    simp [text, Value.token, Value.truthy, Value.str, hne, hstrip]
  rw [statusOf, lowered, Fields.get_put, if_pos rfl, htoken]
  exact env.lower_plain status hlower

/-! ### Storing a run -/

/-- The status of a run in the table, `none` if there is no such run. -/
def statusIn (s : State) (runId : String) : Option String :=
  match s.runs.get? runId with
  | some (.object run) => some (statusOf env run)
  | _ => none

/-- Only this run and its place in the queue may be different. -/
structure Moves (s t : State) (runId : String) : Prop where
  claims : t.claims = s.claims
  runs : ∀ q, q ≠ runId → t.runs.get? q = s.runs.get? q
  pending : ∀ q, q ≠ runId → (q ∈ t.pending ↔ q ∈ s.pending)

theorem Moves.refl (s : State) (runId : String) : Moves s s runId :=
  ⟨rfl, fun _ _ => rfl, fun _ _ => .rfl⟩

theorem Moves.trans {s t u : State} {runId : String} (h : Moves s t runId) (h' : Moves t u runId) :
    Moves s u runId :=
  ⟨h'.claims.trans h.claims, fun q hq => (h'.runs q hq).trans (h.runs q hq),
    fun q hq => (h'.pending q hq).trans (h.pending q hq)⟩

theorem moves_store (s : State) (runId : String) (run : Fields) :
    Moves s (store s runId run) runId :=
  ⟨rfl, fun q hq => by rw [store, Table.get?_put, if_neg hq], fun _ _ => .rfl⟩

@[simp] theorem get?_store (s : State) (runId : String) (run : Fields) :
    (store s runId run).runs.get? runId = some (.object run) := by
  rw [store, Table.get?_put, if_pos rfl]

/-- What becomes of an unclaimed run that gets a status. -/
structure Settles (s : State) (o : Outcome Unit) (runId status : String) (run : Fields) : Prop where
  ok : o.1 = .ok ()
  moves : Moves s o.2 runId
  stored : o.2.runs.get? runId = some (.object (Fields.put run "status" (.string status)))
  pending : status ≠ "failed" → status ≠ "completed" → status ≠ "timeout" →
    o.2.pending = s.pending

theorem settle_spec {s : State} {runId : String} (hr : runId ∉ s.claims.keys) {run : Fields}
    (hrun : run.isEmpty = false) (status : String) :
    Settles s (settle env s runId run status) runId status run := by
  have hnone : s.claims.get? runId = none := Table.get?_eq_none.mpr hr
  have hmoves := (moves_store s runId run).trans
    (moves_store (store s runId run) runId (Fields.put run "status" (.string status)))
  simp only [settle, setRunStatus, get?_store, hrun, Bool.false_eq_true, if_false]
  split
  · have hgate : (store (store s runId run) runId
        (Fields.put run "status" (.string status))).claims.get? runId = none := hnone
    simp only [reconcileMachineLeaseRelease, hgate]
    refine ⟨rfl, hmoves.trans ⟨rfl, fun _ _ => rfl, fun q hq => ?_⟩, get?_store .., ?_⟩
    · simp [hq]
    · intro hf hc ht
      rename_i hover
      simp [hf, hc, ht] at hover
  · exact ⟨rfl, hmoves, get?_store .., fun _ _ _ => rfl⟩

/-! ### One run -/

/-- What the second loop does with a run, as planned. -/
structure Carried (s : State) (o : Outcome Unit) (runId before : String) (p : Plan) : Prop where
  moves : Moves s o.2 runId
  status : statusIn env o.2 runId = some (p.status before)
  raised : o.1 = if p.raised then .error .value else .ok ()
  queued : p = .requeued → runId ∈ o.2.pending
  stays : p ≠ .requeued → p ≠ .fails → (runId ∈ o.2.pending ↔ runId ∈ s.pending)

theorem statusIn_stored {s : State} {runId : String} {run : Fields}
    (h : s.runs.get? runId = some (.object run)) : statusIn env s runId = some (statusOf env run) := by
  rw [statusIn, h]

theorem mem_enqueue (s : State) (runId : String) {q : String} :
    q ∈ (enqueue s runId).pending ↔ q ∈ s.pending ∨ q = runId := by
  simp only [enqueue]
  split
  · rename_i hin
    constructor
    · exact .inl
    · rintro (hq | rfl)
      · exact hq
      · exact hin
  · rw [List.mem_append, List.mem_singleton]

/-- A run is queued again or failed as the plan says. -/
theorem requeueOrFail_spec {s : State} {runId : String} (hr : runId ∉ s.claims.keys) (run : Fields)
    (isLocal : Bool) :
    Carried env s (requeueOrFail env c s runId run isLocal) runId (statusOf env run)
      (queuePlan env c run isLocal) := by
  rcases hp : env.int (orValue (Fields.get (metadataOf run) "local_queue_retry_count") (.int 0)) with
    - | previous
  · simp only [requeueOrFail, queuePlan, hp]
    exact ⟨moves_store .., statusIn_stored env (get?_store ..), rfl, nofun, fun _ _ => .rfl⟩
  rcases hl : env.int (orValue (Fields.get (metadataOf run) "local_queue_max_retries")
    (.int c.maxQueueRetryAttempts)) with - | retries
  · simp only [requeueOrFail, queuePlan, hp, hl]
    exact ⟨moves_store .., statusIn_stored env (get?_store ..), rfl, nofun, fun _ _ => .rfl⟩
  simp only [requeueOrFail, queuePlan, hp, hl]
  split
  · have hrun : (requeuedRun c run (previous + 1) (max 0 retries)).isEmpty = false :=
      put_not_empty ..
    have hs := settle_spec env hr hrun "queued_local"
    rcases ho : settle env s runId (requeuedRun c run (previous + 1) (max 0 retries)) "queued_local"
      with ⟨o, t⟩
    rw [ho] at hs
    obtain rfl : o = .ok () := hs.ok
    refine ⟨hs.moves.trans ⟨rfl, fun _ _ => rfl, fun q hq => ?_⟩, ?_, rfl, fun _ => ?_, nofun⟩
    · rw [mem_enqueue]
      exact or_iff_left hq
    · exact (statusIn_stored env hs.stored).trans (by rw [statusOf_put env (by decide)]; rfl)
    · exact (mem_enqueue ..).mpr (.inr rfl)
  · have hs := settle_spec env hr
      (put_not_empty run "result" (.string "Worker lost connection.")) "failed"
    exact ⟨hs.moves, (statusIn_stored env hs.stored).trans (by rw [statusOf_put env (by decide)]; rfl),
      hs.ok, nofun, fun _ h => absurd rfl h⟩

/-- What the queue does with a run that waits for its checkpoint, seen from before it waited. -/
theorem carried_afterWaiting {s t : State} {o : Outcome Unit} {runId before : String} {p : Plan}
    (ht : Moves s t runId) (hpending : t.pending = s.pending) (hp : p ≠ .rests)
    (h : Carried env t o runId "waiting_for_input" p) :
    Carried env s o runId before p.afterWaiting := by
  refine ⟨ht.trans h.moves, ?_, ?_, ?_, ?_⟩
  · rw [h.status]
    cases p <;> first | rfl | exact absurd rfl hp
  · rw [h.raised]
    cases p <;> rfl
  · cases p <;> first | exact h.queued | exact nofun
  · rw [← hpending]
    cases p <;> first | exact h.stays | exact fun _ _ => h.stays nofun nofun

theorem queuePlan_congr (run run' : Fields) (isLocal : Bool)
    (h : ∀ key, key ∈ ["local_queue_retry_count", "local_queue_max_retries"] →
      Fields.get (metadataOf run') key = Fields.get (metadataOf run) key) :
    queuePlan env c run' isLocal = queuePlan env c run isLocal := by
  simp only [queuePlan]
  rw [h "local_queue_retry_count" (by decide), h "local_queue_max_retries" (by decide)]

theorem queuePlan_ne_rests (run : Fields) (isLocal : Bool) :
    queuePlan env c run isLocal ≠ .rests := by
  unfold queuePlan
  dsimp only
  split
  · split <;> nofun
  · nofun

/-- A run that is left to wait for its checkpoint. -/
theorem waits_of_settle {s : State} {runId : String} (hr : runId ∉ s.claims.keys) {run : Fields}
    (hrun : run.isEmpty = false) (before : String) :
    Carried env s (settle env s runId run "waiting_for_input") runId before .waits := by
  have hs := settle_spec env hr hrun "waiting_for_input"
  refine ⟨hs.moves, ?_, hs.ok, nofun, fun _ _ => ?_⟩
  · exact (statusIn_stored env hs.stored).trans (by rw [statusOf_put env (by decide)]; rfl)
  · rw [hs.pending (by decide) (by decide) (by decide)]

/-- A checkpoint that is retried: after a delay, at once, or not at all. -/
theorem retry_spec {s : State} {runId : String} (hr : runId ∉ s.claims.keys) (run : Fields)
    (previous : Int) :
    let retried := retriedRun c run (previous + 1) (backoffAt c.backoffSeconds (previous + 1))
    Carried env s
      (match settle env s runId retried "waiting_for_input" with
        | (.error e, t) => (.error e, t)
        | (.ok (), t) =>
          if 0 < backoffAt c.backoffSeconds (previous + 1) then (.ok (), t)
          else if c.resumes runId then
            (.ok (), store t runId
              (resumedRun c (Fields.put retried "status" (.string "waiting_for_input"))))
          else requeueOrFail env c t runId (Fields.put retried "status" (.string "waiting_for_input"))
            (isLocalTarget env run))
      runId (statusOf env run)
      (if 0 < backoffAt c.backoffSeconds (previous + 1) ∨ c.resumes runId then .waits
        else (queuePlan env c run (isLocalTarget env run)).afterWaiting) := by
  intro retried
  have hrun : retried.isEmpty = false := put_not_empty ..
  have hs := settle_spec env hr hrun "waiting_for_input"
  have hwaits := waits_of_settle env hr hrun (statusOf env run)
  rcases ho : settle env s runId retried "waiting_for_input" with ⟨o, t⟩
  rw [ho] at hs hwaits
  obtain rfl : o = .ok () := hs.ok
  have hstatus : statusOf env (Fields.put retried "status" (.string "waiting_for_input")) =
      "waiting_for_input" := statusOf_put env (by decide) retried
  dsimp only
  by_cases hseconds : 0 < backoffAt c.backoffSeconds (previous + 1)
  · simp only [hseconds, true_or, if_true]
    exact hwaits
  by_cases hresumes : c.resumes runId
  · simp only [hseconds, hresumes, or_true, if_true, if_false]
    refine ⟨hwaits.moves.trans (moves_store ..), ?_, rfl, nofun, hwaits.stays⟩
    rw [statusIn_stored env (get?_store ..), statusOf, resumedRun, putMetadata, Fields.get_put,
      if_neg (by decide)]
    exact congrArg some hstatus
  · simp only [hseconds, hresumes, false_or, if_false, Bool.false_eq_true]
    have h := requeueOrFail_spec env c (s := t) (hs.moves.claims ▸ hr)
      (Fields.put retried "status" (.string "waiting_for_input")) (isLocalTarget env run)
    rw [hstatus, queuePlan_congr env c run] at h
    · exact carried_afterWaiting env hs.moves (hs.pending (by decide) (by decide) (by decide))
        (queuePlan_ne_rests env c run _) h
    · intro key hkey
      rw [metadataOf_put (by decide)]
      simp only [retried, retriedRun, metadataOf_putMetadata]
      refine get_putAll _ ?_
      simp only [List.mem_cons, List.not_mem_nil, or_false] at hkey
      rcases hkey with rfl | rfl <;> simp

/-- The second loop does with a run what is planned for it. -/
theorem recover_spec {s : State} {runId : String} (hr : runId ∉ s.claims.keys) {run : Fields}
    (hrun : s.runs.get? runId = some (.object run)) :
    Carried env s (recover env c s runId) runId (statusOf env run) (plan env c runId run) := by
  have hstatus : statusOf env (clearActiveMachineLeaseBinding run) = statusOf env run := by
    rw [statusOf, get_clear (by decide), statusOf]
  simp only [recover, hrun, plan]
  split
  · exact ⟨.refl .., statusIn_stored env hrun, rfl, fun h => absurd h (by decide), fun _ _ => .rfl⟩
  simp only [recoverRun]
  split
  · rcases hp : env.int (orValue (Fields.get (metadataOf run)
      "local_worker_recovery_attempt_count") (.int 0)) with - | previous
    · exact ⟨moves_store .., (statusIn_stored env (get?_store ..)).trans (by rw [hstatus]; rfl), rfl,
        fun h => (by cases h), fun _ _ => .rfl⟩
    -- the checkpoint is retried, or was retried often enough
    by_cases hexhausted : max 1 c.maxAutoRetries < previous + 1
    · simp only [hexhausted, true_or, if_true]
      exact waits_of_settle env hr (put_not_empty ..) _
    · simp only [hexhausted, false_or, if_false]
      exact retry_spec env c hr run previous
  · have h := requeueOrFail_spec env c hr (clearActiveMachineLeaseBinding run) (isLocalTarget env run)
    rw [hstatus, queuePlan_congr env c run _ _ fun key _ => by rw [metadataOf_clear]] at h
    exact h

/-! ### What is asked of the cleanup -/

def terminalStatuses : List String := ["completed", "failed", "timeout", "stopped", "cancelled"]

/-- A run that lost its claim waits again, waits for input, has failed, or is over as it was before. -/
def Settled (s t : State) (runId : String) : Prop :=
  runId ∈ t.pending ∨ statusIn env t runId = some "waiting_for_input" ∨
    statusIn env t runId = some "failed" ∨
    ∃ status ∈ terminalStatuses, statusIn env s runId = some status ∧ statusIn env t runId = some status

/-- A run that is over is not alive afterwards. -/
def StaysOver (s t : State) (runId : String) : Prop :=
  ∀ status ∈ terminalStatuses, statusIn env s runId = some status →
    ∃ status' ∈ terminalStatuses, statusIn env t runId = some status'

/-- No run is revived and none is stranded. -/
def Keeps (s t : State) : Prop :=
  (∀ runId ∈ s.claims.keys, runId ∉ t.claims.keys → (statusIn env s runId).isSome →
    Settled env s t runId) ∧ ∀ runId, StaysOver env s t runId

/-- Nothing needs to be done for this run. -/
def AtRest (s : State) (runId : String) : Prop :=
  ∀ status, statusIn env s runId = some status →
    runId ∈ s.pending ∨ status = "waiting_for_input" ∨ status ∈ terminalStatuses

structure Fine (s t : State) (runId : String) : Prop where
  settled : (statusIn env s runId).isSome → Settled env s t runId
  stays : StaysOver env s t runId

/-- A run that two states agree on. -/
structure Agrees (s t : State) (runId : String) : Prop where
  status : statusIn env t runId = statusIn env s runId
  pending : runId ∈ t.pending ↔ runId ∈ s.pending

/-- A run that is the same in two states, and its place in the queue. -/
structure Same (s t : State) (runId : String) : Prop where
  runs : t.runs.get? runId = s.runs.get? runId
  pending : runId ∈ t.pending ↔ runId ∈ s.pending

theorem Same.agrees {s t : State} {q : String} (h : Same s t q) : Agrees env s t q :=
  ⟨by rw [statusIn, h.runs, statusIn], h.pending⟩

theorem Same.trans {s t u : State} {q : String} (h : Same s t q) (h' : Same t u q) : Same s u q :=
  ⟨h'.runs.trans h.runs, h'.pending.trans h.pending⟩

theorem Moves.same {s t : State} {runId q : String} (h : Moves s t runId) (hq : q ≠ runId) :
    Same s t q :=
  ⟨h.runs q hq, h.pending q hq⟩

theorem Agrees.fine_right {s t u : State} {q : String} (h : Agrees env t u q) :
    Fine env s u q ↔ Fine env s t q := by
  constructor
  · rintro ⟨hs, ho⟩
    refine ⟨fun hrun => ?_, fun status hst hrun => ?_⟩
    · have := hs hrun
      rwa [Settled, h.status, h.pending] at this
    · rw [← h.status]
      exact ho status hst hrun
  · rintro ⟨hs, ho⟩
    refine ⟨fun hrun => ?_, fun status hst hrun => ?_⟩
    · rw [Settled, h.status, h.pending]
      exact hs hrun
    · rw [h.status]
      exact ho status hst hrun

theorem Agrees.fine_left {s t u : State} {q : String} (h : Agrees env s t q) :
    Fine env t u q ↔ Fine env s u q := by
  constructor
  · rintro ⟨hs, ho⟩
    refine ⟨fun hrun => ?_, fun status hst hrun => ho status hst (h.status.trans hrun)⟩
    rw [Settled, ← h.status]
    exact hs (h.status ▸ hrun)
  · rintro ⟨hs, ho⟩
    refine ⟨fun hrun => ?_, fun status hst hrun => ho status hst (h.status ▸ hrun)⟩
    rw [Settled, h.status]
    exact hs (h.status ▸ hrun)

theorem fine_self {s : State} {q : String} : Fine env s s q ↔ AtRest env s q := by
  constructor
  · rintro ⟨hs, -⟩ status hstatus
    rcases hs (by rw [hstatus]; rfl) with h | h | h | ⟨st, hst, h, -⟩
    · exact .inl h
    · rw [hstatus, Option.some.injEq] at h
      exact .inr (.inl h)
    · rw [hstatus, Option.some.injEq] at h
      exact .inr (.inr (h ▸ by decide))
    · rw [hstatus, Option.some.injEq] at h
      exact .inr (.inr (h ▸ hst))
  · intro h
    refine ⟨fun hrun => ?_, fun status hst hrun => ⟨status, hst, hrun⟩⟩
    obtain ⟨status, hstatus⟩ := Option.isSome_iff_exists.mp hrun
    rcases h status hstatus with hp | rfl | hst
    · exact .inl hp
    · exact .inr (.inl hstatus)
    · exact .inr (.inr (.inr ⟨status, hst, hstatus, hstatus⟩))

theorem Agrees.fine_iff {s t : State} {q : String} (h : Agrees env s t q) :
    Fine env s t q ↔ AtRest env s q :=
  (h.fine_right env).trans (fine_self env)

/-! ### When the second loop keeps its runs -/

/-- What is planned for a run neither revives nor strands it. -/
def Spares (s : State) (runId : String) (run : Fields) : Prop :=
  match plan env c runId run with
  | .rests | .fails => True
  | .raises => AtRest env s runId
  | .waits | .waitsThenRaises | .requeued => statusOf env run ≠ "stopped" ∧ statusOf env run ≠ "cancelled"

theorem plan_rests {runId : String} {run : Fields} (h : plan env c runId run = .rests) :
    statusOf env run ∈ ["completed", "failed", "timeout"] := by
  have hne := queuePlan_ne_rests env c run (isLocalTarget env run)
  unfold plan at h
  split at h
  · rename_i hover
    exact List.contains_iff_mem.mp hover
  · exfalso
    split at h
    · split at h
      · cases h
      · split at h
        · cases h
        · cases hq : queuePlan env c run (isLocalTarget env run) <;> rw [hq] at h hne <;> trivial
    · exact hne h

theorem plan_of_over {runId : String} {run : Fields}
    (h : statusOf env run ∈ ["completed", "failed", "timeout"]) : plan env c runId run = .rests := by
  unfold plan
  rw [if_pos (List.contains_iff_mem.mpr h)]

/-- A run that goes on to live was not over, unless it was stopped or cancelled. -/
theorem over_iff {runId : String} {run : Fields} (h : plan env c runId run ≠ .rests) :
    statusOf env run ∉ terminalStatuses ↔
      statusOf env run ≠ "stopped" ∧ statusOf env run ≠ "cancelled" := by
  have hlive : statusOf env run ∉ ["completed", "failed", "timeout"] :=
    fun hover => h (plan_of_over env c hover)
  simp only [terminalStatuses, List.mem_cons, List.not_mem_nil, or_false, not_or] at hlive ⊢
  tauto

theorem fine_of_carried {s : State} {runId : String} {run : Fields} {o : Outcome Unit}
    (hrun : s.runs.get? runId = some (.object run))
    (h : Carried env s o runId (statusOf env run) (plan env c runId run)) :
    Fine env s o.2 runId ↔ Spares env c s runId run := by
  have hbefore := statusIn_stored env hrun
  -- a run that is alive afterwards
  have hlive : ∀ status, status ∉ terminalStatuses → statusIn env o.2 runId = some status →
      Settled env s o.2 runId → plan env c runId run ≠ .rests →
      (Fine env s o.2 runId ↔ statusOf env run ≠ "stopped" ∧ statusOf env run ≠ "cancelled") := by
    intro status hst hafter hsettled hplan
    rw [← over_iff env c hplan]
    constructor
    · rintro ⟨-, ho⟩ hover
      obtain ⟨status', hst', h'⟩ := ho _ hover hbefore
      rw [hafter, Option.some.injEq] at h'
      exact hst (h' ▸ hst')
    · intro hover
      refine ⟨fun _ => hsettled, fun status' hst' h' => ?_⟩
      rw [hbefore, Option.some.injEq] at h'
      exact absurd (h' ▸ hst') hover
  have hstays : plan env c runId run = .rests ∨ plan env c runId run = .raises →
      Agrees env s o.2 runId := by
    rintro (hp | hp) <;>
    · rw [hp] at h
      exact ⟨h.status.trans hbefore.symm, h.stays nofun nofun⟩
  unfold Spares
  cases hp : plan env c runId run with
  | rests =>
    have hsub : ["completed", "failed", "timeout"] ⊆ terminalStatuses := by decide
    refine iff_of_true (((hstays (.inl hp)).fine_iff env).mpr fun status hstatus => ?_) trivial
    rw [hbefore, Option.some.injEq] at hstatus
    exact .inr (.inr (hstatus ▸ hsub (plan_rests env c hp)))
  | raises => exact (hstays (.inr hp)).fine_iff env
  | waits | waitsThenRaises =>
    rw [hp] at h
    exact hlive "waiting_for_input" (by decide) h.status (.inr (.inl h.status)) (hp ▸ nofun)
  | requeued =>
    rw [hp] at h
    exact hlive "queued_local" (by decide) h.status (.inl (h.queued rfl)) (hp ▸ nofun)
  | fails =>
    rw [hp] at h
    exact iff_of_true ⟨fun _ => .inr (.inr (.inl h.status)),
      fun _ _ _ => ⟨"failed", by decide, h.status⟩⟩ trivial

/-- The runs of the second loop, in its order: up to the first one that raises each is spared, and
    after it each is at rest. -/
def Recovers (s : State) : List String → Prop
  | [] => True
  | runId :: rest =>
    match s.runs.get? runId with
    | some (.object run) => Spares env c s runId run ∧
        if (plan env c runId run).raised then ∀ q ∈ rest, AtRest env s q else Recovers s rest
    | _ => Recovers s rest

theorem recover_moves {s : State} {runId : String} (hr : runId ∉ s.claims.keys) :
    Moves s (recover env c s runId).2 runId := by
  cases hrun : s.runs.get? runId with
  | none =>
    rw [recover, hrun]
    exact .refl ..
  | some value =>
    cases value with
    | object run => exact (recover_spec env c hr hrun).moves
    | _ =>
      rw [recover, hrun]
      exact .refl ..

/-- The second loop leaves all other runs, and the claims, alone. -/
theorem recoverAll_other : ∀ {rs : List String} {s : State}, (∀ r ∈ rs, r ∉ s.claims.keys) →
    (recoverAll env c rs s).2.claims = s.claims ∧
      ∀ q ∉ rs, Same s (recoverAll env c rs s).2 q
  | [], s, _ => ⟨rfl, fun _ _ => ⟨rfl, .rfl⟩⟩
  | r :: rs, s, h => by
    have hm := recover_moves env c (h r List.mem_cons_self)
    rw [recoverAll]
    rcases ho : recover env c s r with ⟨o, u⟩
    rw [ho] at hm
    cases o with
    | error e =>
      exact ⟨hm.claims, fun q hq => hm.same fun heq => hq (heq ▸ List.mem_cons_self)⟩
    | ok _ =>
      have hrest : ∀ q ∈ rs, q ∉ u.claims.keys := by
        intro q hq
        rw [hm.claims]
        exact h q (List.mem_cons_of_mem _ hq)
      obtain ⟨hclaims, hother⟩ := recoverAll_other hrest
      refine ⟨hclaims.trans hm.claims, fun q hq => ?_⟩
      rw [List.mem_cons, not_or] at hq
      exact (hm.same hq.1).trans (hother q hq.2)

theorem atRest_congr {s t : State} {q : String} (h : Same s t q) :
    AtRest env t q ↔ AtRest env s q := by
  rw [AtRest, AtRest, (h.agrees env).status, h.pending]

theorem spares_congr {s t : State} {runId : String} (h : Same s t runId) (run : Fields) :
    Spares env c t runId run ↔ Spares env c s runId run := by
  unfold Spares
  split
  · rfl
  · rfl
  · exact atRest_congr env h
  all_goals rfl

theorem recovers_congr {s t : State} : ∀ {rs : List String}, (∀ q ∈ rs, Same s t q) →
    (Recovers env c t rs ↔ Recovers env c s rs)
  | [], _ => .rfl
  | r :: rs, h => by
    obtain ⟨hr, hrs⟩ := List.forall_mem_cons.mp h
    have hrest : (∀ q ∈ rs, AtRest env t q) ↔ ∀ q ∈ rs, AtRest env s q :=
      forall₂_congr fun q hq => atRest_congr env (hrs q hq)
    rw [Recovers, Recovers, hr.runs]
    split
    · rw [spares_congr env c hr, hrest, recovers_congr hrs]
    · exact recovers_congr hrs

/-- The second loop keeps its runs exactly when what it plans for them does. -/
theorem recoverAll_iff : ∀ {rs : List String} {s : State}, rs.Nodup → (∀ r ∈ rs, r ∉ s.claims.keys) →
    ((∀ r ∈ rs, Fine env s (recoverAll env c rs s).2 r) ↔ Recovers env c s rs)
  | [], _, _, _ => by simp [Recovers]
  | r :: rs, s, hnd, h => by
    obtain ⟨hr, hrs⟩ := List.forall_mem_cons.mp h
    obtain ⟨hnot, hnd⟩ := List.nodup_cons.mp hnd
    have hne : ∀ q ∈ rs, q ≠ r := fun q hq heq => hnot (heq ▸ hq)
    rw [List.forall_mem_cons]
    by_cases hrun : ∃ run, s.runs.get? r = some (.object run)
    · obtain ⟨run, hrun⟩ := hrun
      have hspec := recover_spec env c hr hrun
      have hfine := fine_of_carried env c hrun hspec
      simp only [recoverAll, Recovers, hrun]
      rcases ho : recover env c s r with ⟨o, u⟩
      rw [ho] at hspec hfine
      have hsame : ∀ q ∈ rs, Same s u q := fun q hq => hspec.moves.same (hne q hq)
      have hraised := hspec.raised
      cases hp : (plan env c r run).raised with
      | true =>
        rw [hp, if_pos rfl] at hraised
        obtain rfl : o = .error .value := hraised
        refine and_congr hfine ?_
        rw [if_pos rfl]
        exact forall₂_congr fun q hq => ((hsame q hq).agrees env).fine_iff env
      | false =>
        rw [hp] at hraised
        obtain rfl : o = .ok () := hraised
        have hu : ∀ q ∈ rs, q ∉ u.claims.keys := fun q hq => by
          rw [hspec.moves.claims]
          exact hrs q hq
        have hlast := ((recoverAll_other env c hu).2 r hnot).agrees env
        refine and_congr ((hlast.fine_right env).trans hfine) ?_
        rw [if_neg Bool.false_ne_true, ← recovers_congr env c hsame, ← recoverAll_iff hnd hu]
        exact forall₂_congr fun q hq => (((hsame q hq).agrees env).fine_left env).symm
    · have hskip : recover env c s r = (.ok (), s) := by
        unfold recover
        split
        · rename_i run h
          exact absurd ⟨run, h⟩ hrun
        · rfl
      have hnone : statusIn env s r = none := by
        unfold statusIn
        split
        · rename_i run h
          exact absurd ⟨run, h⟩ hrun
        · rfl
      have hrecovers : Recovers env c s (r :: rs) = Recovers env c s rs := by
        rw [Recovers]
        split
        · rename_i run h
          exact absurd ⟨run, h⟩ hrun
        · rfl
      have hlast := ((recoverAll_other env c hrs).2 r hnot).agrees env
      simp only [recoverAll, hskip]
      rw [hrecovers, ← recoverAll_iff hnd hrs]
      refine and_iff_right ((hlast.fine_iff env).mpr fun status hstatus => ?_)
      rw [hnone] at hstatus
      cases hstatus

end Empyralis.Server.Leases
