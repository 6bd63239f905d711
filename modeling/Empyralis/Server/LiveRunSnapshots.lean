import Empyralis.Lib.Run
import Empyralis.Server.RunTransitions
import Mathlib.Algebra.Ring.Nat

/-! The snapshots of a live run. Each call of `transition_live_run_status` writes one to the row of the
    run, on condition that the row has the version the run remembers. The snapshot of a status that
    ends the run is confirmed before the call goes on; any other is dispatched, and hands its version
    back to the run when it is through. -/

namespace Empyralis.Server.LiveRunSnapshots
open Kernel RunState RunTransitions
open OutboxRows (orText)
open Text (strip)

/-- `equal` is `==` of two dictionaries. -/
structure Env extends RunState.Env where
  equal : Fields → Fields → Bool

/-- The row of the run in `live_runs`. -/
structure Row where
  workspaceId : String
  tenantId : String
  state : String
  payload : Fields
  traceId : Option String
  version : Nat

variable (env : Env)

/-! ### Payloads -/

/-- `durable_run_payload`, where `fields` is all that the run holds besides. -/
@[irreducible] def durableRunPayload (run : LiveRun) (fields : Fields) : Except Error Fields :=
  let status := orText run.status "queued"
  let payload := ((fields.put "run_id" (.string (strip run.runId))).put "status" (.string status)).put
    "state" (.string status)
  match RunRecord.persistSnapshotDecision status with
  | .block reason => .error (.decision reason)
  | .allow _ _ _ _ patch =>
    let payload := patch.elim payload fun state =>
      (payload.put "status" (.string state)).put "state" (.string state)
    .ok ((payload.setDefault "thread_id" .null).setDefault "_archived" (.bool false))

/-- `_normalize_live_run_payload` -/
def normalizeLiveRunPayload (runId workspaceId tenantId state traceId : String) (version : Nat)
    (payload : Fields) : Fields :=
  let item := (payload.put "run_id" (.string (strip runId))).put
    "workspace_id" (.string (orText workspaceId "default"))
  let item := (item.put "tenant_id" (.string (orText tenantId "default"))).put
    "status" (.string (orText state "queued"))
  let item := item.put "state" (.string (orText state "queued"))
  let item := if strip traceId = "" then item else item.put "trace_id" (.string (strip traceId))
  item.put "_durable_version" (.int version)

/-- `_live_run_payload_from_row`, but for the time of registration, which the comparison leaves out. -/
def liveRunPayloadFromRow (runId : String) (row : Row) : Fields :=
  let traceId := (row.traceId.filter (· ≠ "")).getD ((row.payload.get "trace_id").token env.repr)
  normalizeLiveRunPayload runId row.workspaceId row.tenantId row.state traceId row.version row.payload

/-- `_normalized_live_run_compare_payload` -/
def comparePayload (payload : Fields) : Fields :=
  payload.filter fun field => field.1 ≠ "_durable_version" && field.1 ≠ "_durable_registered_at"

/-! ### Writes -/

/-- The statements of a write. -/
inductive Stage where
  | update
  | lookup
  | handBack (version : Nat)

/-- A call of `update_live_run_if_version_matches` that has not returned yet. -/
structure Write where
  state : String
  traceId : String
  payload : Fields
  expected : Nat
  stage : Stage := .update

/-- The payload with the version that it expects. -/
def Write.sent (w : Write) : Fields := w.payload.put "_durable_version" (.int w.expected)

/-- What the kernel is asked about a write. -/
def Write.request (run : LiveRun) (w : Write) : StateStore.Request where
  operation := .upsertLiveRun
  runId := strip run.runId
  status := orText w.state "queued"
  payloadBytes := env.jsonBytes w.sent
  expectedVersion := some w.expected
  currentVersion := some w.expected

/-- The payload that the row will have. -/
def Write.desired (run : LiveRun) (w : Write) : Fields :=
  normalizeLiveRunPayload run.runId run.workspaceId run.tenantId w.state w.traceId (w.expected + 1) w.sent

/-- The row that an update leaves. -/
def Write.row (run : LiveRun) (w : Write) (old : Row) : Row where
  workspaceId := orText run.workspaceId "default"
  tenantId := orText run.tenantId "default"
  state := orText w.state "queued"
  payload := w.desired run
  traceId := Sql.coalesce (Sql.nullif (some (strip w.traceId)) "") old.traceId
  version := w.expected + 1

/-- What a statement comes to. -/
inductive Result where
  | missed
  | returned (version : Nat)
  | conflict
  | raised (error : Error)

/-- `update_live_run_if_version_matches`: one statement after the other. A row that has this snapshot
    already counts as written. -/
def updateLiveRunIfVersionMatches (run : LiveRun) (row : Option Row) (w : Write) : Result × Option Row :=
  match w.stage with
  | .update =>
    match enforceRuntimeStateStoreDecision (w.request env run) with
    | .error e => (.raised e, row)
    | .ok _ =>
      match row.filter (·.version = w.expected) with
      | some old => (.returned (w.expected + 1), some (w.row run old))
      | none => (.missed, row)
  | .lookup =>
    match row with
    | none => (.conflict, row)
    | some old =>
      let existing := liveRunPayloadFromRow env run.runId old
      if (existing.get "status").token env.repr = orText w.state "queued" ∧
          env.equal (comparePayload existing) (comparePayload (w.desired run)) ∧
          w.expected + 1 ≤ old.version then
        (.returned old.version, row)
      else (.conflict, row)
  | .handBack version => (.returned version, row)

/-! ### Runs -/

/-- A call that is confirming its snapshot, in one attempt after the other, before its other effects. -/
structure Confirmation where
  write : Write
  attempt : Nat := 1
  reconciling : Bool := false
  rest : List Effect

/-- A run with its row, the writes on their way and the one that a call waits for. -/
structure State where
  run : LiveRun
  version : Nat
  row : Option Row
  writes : List Write
  confirming : Option Confirmation

/-- A call, the next statement of a dispatched write, or of the write that is confirmed. -/
inductive Label where
  | call (c : Call) (fields : Fields)
  | write (i : Nat)
  | confirm

/-- `register_live_run` and `create_live_run_initial` -/
def registerLiveRun (run : LiveRun) (fields : Fields) : Except Error State := do
  let payload ← durableRunPayload run fields
  if strip run.runId = "" then
    throw (.persistence "Postgres create_live_run_initial requires a run_id")
  let state := orText run.status "queued"
  enforceRuntimeStateStoreDecision {
    operation := .upsertLiveRun
    runId := strip run.runId
    status := state
    payloadBytes := env.jsonBytes payload
    currentVersion := some 0 }
  return {
    run
    version := 0
    row := some {
      workspaceId := orText run.workspaceId "default"
      tenantId := orText run.tenantId "default"
      state
      payload := normalizeLiveRunPayload run.runId run.workspaceId run.tenantId state run.traceId 0 payload
      traceId := Sql.nullif (some (strip run.traceId)) ""
      version := 0 }
    writes := []
    confirming := none }

/-- `_remove_live_run_state`, which deletes the row if the kernel lets it. -/
def removeLiveRunState (s : State) : State :=
  match s.row with
  | none => s
  | some row =>
    match enforceRuntimeStateStoreDecision {
        operation := .deleteLiveRun
        runId := strip s.run.runId
        status := orText row.state "queued"
        payloadBytes := env.jsonBytes [] } with
    | .ok _ => { s with row := none }
    | .error _ => s

/-- `_persist_live_run_state_with_version` does nothing for the function that `set_run_status` passes. -/
def perform (s : State) : Effect → State
  | .removeLiveRunState => removeLiveRunState env s
  | _ => s

/-- The effects of a call, up to the snapshot that it confirms. -/
def proceed (fields : Fields) (s : State) : List Effect → State
  | [] => s
  | .snapshot state traceId :: rest =>
    match durableRunPayload s.run fields with
    | .error _ => s
    | .ok payload =>
      let write : Write := { state, traceId, payload, expected := s.version }
      if terminalDurableStates.contains (strip state) then { s with confirming := some { write, rest } }
      else proceed fields { s with writes := s.writes ++ [write] } rest
  | effect :: rest => proceed fields (perform env s effect) rest

/-- The snapshot is confirmed, or given up. -/
def afterConfirmation (s : State) (c : Confirmation) : State :=
  c.rest.foldl (perform env) { s with confirming := none }

/-- `_MAX_TERMINAL_PERSIST_ATTEMPTS` -/
def maxTerminalPersistAttempts : Nat := 4

/-- A write that is confirmed is tried again, a few times. -/
def retry (s : State) (c : Confirmation) (expected : Nat) : State :=
  if c.attempt < maxTerminalPersistAttempts then
    { s with confirming := some { c with
        write := { c.write with expected, stage := .update }
        attempt := c.attempt + 1
        reconciling := false } }
  else afterConfirmation env s c

/-- `_persist_run_snapshot_confirmed` -/
def confirm (s : State) (c : Confirmation) : State :=
  if c.reconciling then
    match s.row with
    | none => retry env s c c.write.expected
    | some row => retry env { s with version := row.version } c
        (if row.version = c.write.expected then row.version + 1 else row.version)
  else
    let result := updateLiveRunIfVersionMatches env s.run s.row c.write
    let s := { s with row := result.2 }
    match result.1 with
    | .missed => { s with confirming := some { c with write := { c.write with stage := .lookup } } }
    | .returned version => afterConfirmation env { s with version } c
    | .conflict => { s with confirming := some { c with reconciling := true } }
    | .raised _ => retry env s c c.write.expected

/-- `_write_snapshot` -/
def writeSnapshot (s : State) (i : Nat) (w : Write) : State :=
  match w.stage with
  | .handBack version => { s with version, writes := s.writes.eraseIdx i }
  | _ =>
    let result := updateLiveRunIfVersionMatches env s.run s.row w
    { s with
      row := result.2
      writes := match result.1 with
        | .missed => s.writes.set i { w with stage := .lookup }
        | .returned version => s.writes.set i { w with stage := .handBack version }
        | .conflict | .raised _ => s.writes.eraseIdx i }

def step (s : State) : Label → Option State
  | .call c fields =>
    if s.confirming.isSome then none
    else
      let result := transitionLiveRunStatus c s.run
      some (proceed env fields { s with run := result.1 } result.2)
  | .write i => s.writes[i]?.map (writeSnapshot env s i)
  | .confirm => s.confirming.map (confirm env s)

/-! ### The last status -/

/-- Nothing is on its way. -/
def State.Finished (s : State) : Prop := s.writes = [] ∧ s.confirming = none

def Label.isCall : Label → Bool
  | .call .. => true
  | _ => false

/-- Whether the status of a call ends the run, so that its snapshot is confirmed. -/
def terminal (status : String) : Bool := terminalDurableStates.contains (strip status)

/-- Once every write has finished, the row has the status of the last call, if that does not end the
    run, and the run remembers the version of the row. -/
def LastStatusDurable (registered : State) (calls tail : List Label) (c : Call) (fields : Fields) : Prop :=
  (∀ l ∈ tail, l.isCall = false) →
    ∀ s, Run.run (step env) registered (calls ++ .call c fields :: tail) = some s → s.Finished →
      terminal c.status = false → ∃ row, s.row = some row ∧ row.state = c.status ∧ row.version = s.version

/-- A call is made when every write before it has finished and the row of the run is there, with a
    trimmed status that is not empty and a snapshot within the limit of the kernel. -/
def Quiet (s : State) : Label → Prop
  | .call c fields => s.writes = [] ∧ s.row.isSome ∧ strip c.status = c.status ∧ c.status ≠ "" ∧
      ∀ payload, durableRunPayload (writeStatus c s.run) fields = .ok payload →
        env.jsonBytes (payload.put "_durable_version" (.int s.version)) ≤ StateStore.defaultPayloadBytes
  | _ => True

/-- The one write that is on its way: it is dispatched, or a call confirms it. -/
inductive Alone (s : State) (w : Write) : Prop where
  | dispatched (hwrites : s.writes = [w]) (hidle : s.confirming = none)
  | confirmed (c : Confirmation) (hwrites : s.writes = []) (hc : s.confirming = some c)
      (hw : c.write = w) (hreconciling : c.reconciling = false) (hend : terminal s.run.status = true)

/-- How far a run is whose calls wait for the writes before them. -/
inductive Phase (s : State) : Prop where
  | idle (row : Row) (hrow : s.row = some row) (hfinished : s.Finished)
      (hstate : row.state = orText s.run.status "queued") (hversion : row.version = s.version)
  | removed (hrow : s.row = none) (hfinished : s.Finished) (hend : terminal s.run.status = true)
  | writing (w : Write) (row : Row) (hrow : s.row = some row) (halone : Alone s w)
      (hstage : w.stage = .update) (hstate : w.state = s.run.status) (hversion : row.version = w.expected)
      (hbytes : env.jsonBytes w.sent ≤ StateStore.defaultPayloadBytes)
  | written (w : Write) (row : Row) (hrow : s.row = some row) (hwrites : s.writes = [w])
      (hidle : s.confirming = none) (hstage : w.stage = .handBack row.version)
      (hstate : row.state = orText s.run.status "queued")

/-- A run has an id, and is in one of the phases. -/
structure Inv (s : State) : Prop where
  runId : strip s.run.runId ≠ ""
  phase : Phase env s

variable {env} {s t : State}

theorem orText_queued (value : String) :
    strip (orText value "queued") = orText value "queued" ∧ orText value "queued" ≠ "" := by
  unfold orText
  split
  · decide
  · rename_i h
    exact ⟨Text.trim_trim Text.pySpace value, h⟩

theorem orText_of_trimmed {value other : String} (h : strip value = value) (hne : value ≠ "") :
    orText value other = value := by
  rw [orText, h, if_neg hne]

theorem normalizeState_queued (value : String) :
    RunRecord.normalizeState (orText value "queued") ≠ "" := by
  obtain ⟨htrimmed, hwritten⟩ := orText_queued value
  have hpresent : present (orText value "queued") = some (orText value "queued") := by
    have h := present_strip (orText value "queued")
    rwa [htrimmed, if_neg hwritten] at h
  intro h
  rw [RunRecord.normalizeState_eq_empty, hpresent] at h
  cases h

/-- The kernel refuses no snapshot of a run. -/
theorem persistSnapshot_queued (value : String) : ∃ reason next fromState toState patch,
    RunRecord.persistSnapshotDecision (orText value "queued") =
      .allow reason next fromState toState patch := by
  rw [RunRecord.persistSnapshotDecision]
  exact ⟨_, _, _, _, _, if_neg (normalizeState_queued value)⟩

theorem durableRunPayload_ok (run : LiveRun) (fields : Fields) :
    ∃ payload, durableRunPayload run fields = .ok payload := by
  obtain ⟨reason, next, fromState, toState, patch, hreply⟩ := persistSnapshot_queued run.status
  unfold durableRunPayload
  simp only [hreply]
  exact ⟨_, rfl⟩

/-- The other effects of a call. -/
def others (c : Call) (run : LiveRun) : List Effect :=
  [Effect.recordTransition run.status c.status (actor run) run.traceId,
    Effect.emitTransition (change c run) run.status] ++ (endEffects c run ++ parentEffects c)

theorem transition_effects (c : Call) (run : LiveRun) :
    (transitionLiveRunStatus c run).2 = .snapshot c.status run.traceId :: others c run := rfl

theorem mem_parentEffects {e : Effect} {c : Call} (h : e ∈ parentEffects c) :
    ∃ parent, e = .refreshParentDelegationState parent := by
  unfold parentEffects at h
  split at h
  · split at h
    · exact ⟨_, List.mem_singleton.mp h⟩
    · cases h
  · cases h

theorem snapshot_not_mem_others (c : Call) (run : LiveRun) (state traceId : String) :
    .snapshot state traceId ∉ others c run := by
  intro h
  rw [others, List.mem_append, List.mem_append] at h
  rcases h with h | h | h
  · simp at h
  · unfold endEffects at h
    split at h <;> simp at h
  · obtain ⟨parent, h⟩ := mem_parentEffects h
    cases h

/-- The row is only removed by a call that ends the run. -/
theorem remove_mem_others {c : Call} {run : LiveRun} (h : .removeLiveRunState ∈ others c run) :
    c.status ∈ finishing := by
  rw [others, List.mem_append, List.mem_append] at h
  rcases h with h | h | h
  · simp at h
  · unfold endEffects at h
    split at h
    · rename_i hfinish
      exact List.contains_iff_mem.mp hfinish
    · simp at h
  · obtain ⟨parent, h⟩ := mem_parentEffects h
    cases h

theorem proceed_eq_foldl (fields : Fields) {effects : List Effect}
    (h : ∀ state traceId, .snapshot state traceId ∉ effects) (s : State) :
    proceed env fields s effects = effects.foldl (perform env) s := by
  induction effects generalizing s with
  | nil => rfl
  | cons e effects ih =>
    have hrest : ∀ state traceId, .snapshot state traceId ∉ effects :=
      fun state traceId hmem => h state traceId (List.mem_cons_of_mem e hmem)
    cases e with
    | snapshot state traceId => exact absurd List.mem_cons_self (h state traceId)
    | _ => exact ih hrest _

theorem removeLiveRunState_spec (s : State) :
    removeLiveRunState env s = s ∨ removeLiveRunState env s = { s with row := none } := by
  unfold removeLiveRunState
  split
  · exact .inl rfl
  · split
    · exact .inr rfl
    · exact .inl rfl

/-- The effects after the snapshot leave the state as it is, but may remove the row. -/
theorem foldl_perform (effects : List Effect) (s : State) :
    effects.foldl (perform env) s = s ∨
      effects.foldl (perform env) s = { s with row := none } ∧ .removeLiveRunState ∈ effects := by
  induction effects generalizing s with
  | nil => exact .inl rfl
  | cons e effects ih =>
    have hrest (hsame : perform env s e = s) : (e :: effects).foldl (perform env) s = s ∨
        (e :: effects).foldl (perform env) s = { s with row := none } ∧
          .removeLiveRunState ∈ e :: effects := by
      rw [List.foldl_cons, hsame]
      rcases ih s with h | ⟨h, hmem⟩
      · exact .inl h
      · exact .inr ⟨h, List.mem_cons_of_mem e hmem⟩
    cases e with
    | removeLiveRunState =>
      rcases @removeLiveRunState_spec env s with h | h
      · exact hrest h
      · rw [List.foldl_cons]
        refine .inr ⟨?_, List.mem_cons_self⟩
        rcases ih (removeLiveRunState env s) with hid | ⟨hid, -⟩
        · exact hid.trans h
        · rw [perform, hid, h]
    | _ => exact hrest rfl

/-! ### Steps -/

theorem leaveWait_runId (c : Call) (run : LiveRun) : (leaveWait c run).runId = run.runId := by
  unfold leaveWait
  split
  · split <;> rfl
  · rfl

theorem enterWait_runId (c : Call) (run : LiveRun) : (enterWait c run).runId = run.runId := by
  unfold enterWait
  split <;> rfl

theorem finish_runId (c : Call) (run : LiveRun) : (finish c run).runId = run.runId := by
  unfold finish
  split <;> rfl

theorem writeStatus_runId (c : Call) (run : LiveRun) : (writeStatus c run).runId = run.runId :=
  (finish_runId c _).trans ((enterWait_runId c _).trans (leaveWait_runId c run))

theorem request_allowed {run : LiveRun} {w : Write} (hid : strip run.runId ≠ "")
    (hbytes : env.jsonBytes w.sent ≤ StateStore.defaultPayloadBytes) :
    enforceRuntimeStateStoreDecision (w.request env run) = .ok () := by
  have hdecision : StateStore.decision (w.request env run) = .allow := by
    refine StateStore.upsert_allowed rfl rfl ?_ ?_ hbytes
    · simp [StateStore.versionConflict, Write.request]
    · rw [Write.request, present_strip, if_neg hid]
      rfl
  rw [enforceRuntimeStateStoreDecision, hdecision]

/-- An update that finds the version it expects is written. -/
theorem update_written {run : LiveRun} {w : Write} {row : Row} (hid : strip run.runId ≠ "")
    (hbytes : env.jsonBytes w.sent ≤ StateStore.defaultPayloadBytes) (hstage : w.stage = .update)
    (hversion : row.version = w.expected) :
    updateLiveRunIfVersionMatches env run (some row) w =
      (.returned (w.expected + 1), some (w.row run row)) := by
  rw [updateLiveRunIfVersionMatches, hstage]
  dsimp only
  rw [request_allowed hid hbytes, Option.filter_some, hversion, decide_eq_true rfl, if_pos rfl]

theorem proceed_snapshot {fields payload : Fields} {s : State}
    (hpayload : durableRunPayload s.run fields = .ok payload) (state traceId : String)
    (rest : List Effect) :
    proceed env fields s (.snapshot state traceId :: rest) =
      if terminal state = true then
        { s with confirming := some ⟨⟨state, traceId, payload, s.version, .update⟩, 1, false, rest⟩ }
      else proceed env fields
        { s with writes := s.writes ++ [⟨state, traceId, payload, s.version, .update⟩] } rest := by
  simp only [proceed, hpayload, terminal]
  rfl

/-- A call whose snapshot is dispatched. -/
theorem proceed_dispatched {c : Call} {fields payload : Fields} (s : State)
    (hpayload : durableRunPayload s.run fields = .ok payload) (hend : terminal c.status = false)
    (hfinish : c.status ∉ finishing) (run : LiveRun) :
    proceed env fields s (transitionLiveRunStatus c run).2 = { s with
      writes := s.writes ++ [⟨c.status, run.traceId, payload, s.version, .update⟩] } := by
  rw [transition_effects, proceed_snapshot hpayload, hend, if_neg Bool.false_ne_true,
    proceed_eq_foldl fields (snapshot_not_mem_others c run)]
  rcases @foldl_perform env (others c run) _ with h | ⟨-, hmem⟩
  · exact h
  · exact absurd (remove_mem_others hmem) hfinish

/-- A call whose snapshot is confirmed. -/
theorem proceed_confirmed {c : Call} {fields payload : Fields} (s : State)
    (hpayload : durableRunPayload s.run fields = .ok payload) (hend : terminal c.status = true)
    (run : LiveRun) :
    proceed env fields s (transitionLiveRunStatus c run).2 = { s with
      confirming := some ⟨⟨c.status, run.traceId, payload, s.version, .update⟩, 1, false,
        others c run⟩ } := by
  rw [transition_effects, proceed_snapshot hpayload, hend, if_pos rfl]

theorem not_finishing {status : String} (h : terminal status = false) (htrimmed : strip status = status) :
    status ∉ finishing := by
  intro hmem
  rw [terminal, htrimmed, List.contains_iff_mem.mpr (mem_terminal_of_finishing hmem)] at h
  cases h

theorem transition_run (c : Call) (run : LiveRun) : (transitionLiveRunStatus c run).1 = writeStatus c run :=
  rfl

/-- A call is only made of a run that stands idle. -/
theorem idle_of_call {c : Call} {fields : Fields} (hi : Inv env s) (hq : Quiet env s (.call c fields))
    (h : step env s (.call c fields) = some t) :
    s.Finished ∧ ∃ row, s.row = some row ∧ row.version = s.version := by
  obtain ⟨row, hrow⟩ := Option.isSome_iff_exists.mp hq.2.1
  cases hi.phase with
  | idle row' hrow' hfinished hstate hversion => exact ⟨hfinished, row', hrow', hversion⟩
  | removed hnone => cases hrow.symm.trans hnone
  | writing w row' hrow' halone =>
    cases halone with
    | dispatched hwrites => cases hq.1.symm.trans hwrites
    | confirmed c' hwrites hc =>
      simp only [step, hc, Option.isSome_some, if_true] at h
      cases h
  | written w row' hrow' hwrites => cases hq.1.symm.trans hwrites

/-- A call that finds no write on its way opens the next phase. -/
theorem inv_call {c : Call} {fields : Fields} (hi : Inv env s) (hq : Quiet env s (.call c fields))
    (h : step env s (.call c fields) = some t) : Inv env t := by
  obtain ⟨hfinished, row, hrow, hversion⟩ := idle_of_call hi hq h
  obtain ⟨payload, hpayload⟩ := durableRunPayload_ok (writeStatus c s.run) fields
  have hbytes := hq.2.2.2.2 payload hpayload
  have hid : strip (writeStatus c s.run).runId ≠ "" := by
    rw [writeStatus_runId]
    exact hi.runId
  simp only [step, hfinished.2, Option.isSome_none, Bool.false_eq_true, if_false, Option.some.injEq] at h
  subst h
  cases hend : terminal c.status with
  | false =>
    rw [transition_run, proceed_dispatched _ hpayload hend (not_finishing hend hq.2.2.1)]
    refine ⟨hid, .writing ⟨c.status, s.run.traceId, payload, s.version, .update⟩ row hrow
      (.dispatched ?_ rfl) rfl rfl hversion hbytes⟩
    simp only [hfinished.1, List.nil_append]
  | true =>
    rw [transition_run, proceed_confirmed _ hpayload hend]
    exact ⟨hid, .writing _ row hrow (.confirmed _ hfinished.1 rfl rfl rfl hend) rfl rfl hversion hbytes⟩

theorem getElem?_singleton {α : Type} {a b : α} {i : Nat} (h : [a][i]? = some b) : i = 0 ∧ b = a := by
  cases i with
  | zero => exact ⟨rfl, (Option.some.inj h).symm⟩
  | succ i => cases h

theorem writeSnapshot_run (env : Env) (s : State) (i : Nat) (w : Write) :
    (writeSnapshot env s i w).run = s.run := by
  unfold writeSnapshot
  split <;> rfl

/-- A write brings the run to its next phase. -/
theorem inv_write {i : Nat} (hi : Inv env s) (h : step env s (.write i) = some t) : Inv env t := by
  simp only [step, Option.map_eq_some_iff] at h
  obtain ⟨w, hget, rfl⟩ := h
  refine ⟨(writeSnapshot_run env s i w).symm ▸ hi.runId, ?_⟩
  cases hi.phase with
  | idle row hrow hfinished =>
    rw [hfinished.1] at hget
    cases hget
  | removed hnone hfinished =>
    rw [hfinished.1] at hget
    cases hget
  | writing w' row hrow halone hstage hstate hversion hbytes =>
    cases halone with
    | dispatched hwrites hidle =>
      rw [hwrites] at hget
      obtain ⟨rfl, rfl⟩ := getElem?_singleton hget
      have hupdate := update_written hi.runId hbytes hstage hversion
      rw [writeSnapshot, hstage]
      dsimp only
      rw [hrow, hupdate, hwrites]
      refine .written _ (w.row s.run row) rfl rfl hidle rfl ?_
      rw [Write.row, hstate]
    | confirmed c hwrites =>
      rw [hwrites] at hget
      cases hget
  | written w' row hrow hwrites hidle hstage hstate =>
    rw [hwrites] at hget
    obtain ⟨rfl, rfl⟩ := getElem?_singleton hget
    rw [writeSnapshot, hstage]
    refine .idle row hrow ⟨?_, hidle⟩ hstate rfl
    dsimp only
    rw [hwrites, List.eraseIdx_zero, List.tail_cons]

/-- So does a confirmation. -/
theorem inv_confirm (hi : Inv env s) (h : step env s .confirm = some t) : Inv env t := by
  simp only [step, Option.map_eq_some_iff] at h
  obtain ⟨c, hc, rfl⟩ := h
  cases hi.phase with
  | idle row hrow hfinished => cases hfinished.2.symm.trans hc
  | removed hnone hfinished => cases hfinished.2.symm.trans hc
  | writing w row hrow halone hstage hstate hversion hbytes =>
    cases halone with
    | dispatched hwrites hidle => cases hidle.symm.trans hc
    | confirmed c' hwrites hc' hw hreconciling hend =>
      cases hc.symm.trans hc'
      subst hw
      have hupdate := update_written hi.runId hbytes hstage hversion
      rw [confirm, hreconciling, if_neg Bool.false_ne_true, hrow, hupdate]
      dsimp only [afterConfirmation]
      rcases @foldl_perform env c.rest _ with h | ⟨h, -⟩
      · rw [h]
        refine ⟨hi.runId, .idle (c.write.row s.run row) rfl ⟨hwrites, rfl⟩ ?_ rfl⟩
        rw [Write.row, hstate]
      · rw [h]
        exact ⟨hi.runId, .removed rfl ⟨hwrites, rfl⟩ hend⟩
  | written w row hrow hwrites hidle => cases hidle.symm.trans hc

theorem inv_step {l : Label} (hi : Inv env s) (hq : Quiet env s l) (h : step env s l = some t) :
    Inv env t := by
  cases l with
  | call c fields => exact inv_call hi hq h
  | write i => exact inv_write hi h
  | confirm => exact inv_confirm hi h

theorem inv_registered {run : LiveRun} {fields : Fields} (h : registerLiveRun env run fields = .ok s) :
    Inv env s := by
  obtain ⟨payload, hpayload⟩ := durableRunPayload_ok run fields
  simp only [registerLiveRun, hpayload, bind, Except.bind] at h
  split at h
  · cases h
  · rename_i hid
    split at h
    · cases h
    · cases h
      refine ⟨hid, .idle _ rfl ⟨rfl, rfl⟩ ?_ ?_⟩
      · dsimp only
      · dsimp only

/-! ### Runs -/

theorem perform_run (env : Env) (s : State) (e : Effect) : (perform env s e).run = s.run := by
  cases e with
  | removeLiveRunState =>
    rcases @removeLiveRunState_spec env s with h | h <;> rw [perform, h]
  | _ => rfl

theorem proceed_run (fields : Fields) (effects : List Effect) (s : State) :
    (proceed env fields s effects).run = s.run := by
  induction effects generalizing s with
  | nil => rfl
  | cons e effects ih =>
    cases e with
    | snapshot state traceId =>
      obtain ⟨payload, hpayload⟩ := durableRunPayload_ok s.run fields
      rw [proceed_snapshot hpayload]
      split
      · rfl
      · exact ih _
    | _ => exact (ih _).trans (perform_run env s _)

theorem afterConfirmation_run (s : State) (c : Confirmation) :
    (afterConfirmation env s c).run = s.run := by
  rcases @foldl_perform env c.rest { s with confirming := none } with h | ⟨h, -⟩ <;>
    rw [afterConfirmation, h]

theorem retry_run (s : State) (c : Confirmation) (expected : Nat) :
    (retry env s c expected).run = s.run := by
  unfold retry
  split
  · rfl
  · exact afterConfirmation_run s c

theorem confirm_run (s : State) (c : Confirmation) : (confirm env s c).run = s.run := by
  unfold confirm
  split
  · split
    · exact retry_run s c _
    · exact retry_run _ c _
  · dsimp only
    split
    · rfl
    · exact afterConfirmation_run _ c
    · rfl
    · exact retry_run _ c _

/-- Only a call writes to the run. -/
theorem run_of_not_call {l : Label} (hl : l.isCall = false) (h : step env s l = some t) :
    t.run = s.run := by
  cases l with
  | call c fields => cases hl
  | write i =>
    simp only [step, Option.map_eq_some_iff] at h
    obtain ⟨w, -, rfl⟩ := h
    exact writeSnapshot_run env s i w
  | confirm =>
    simp only [step, Option.map_eq_some_iff] at h
    obtain ⟨c, -, rfl⟩ := h
    exact confirm_run s c

theorem run_after_call {c : Call} {fields : Fields} (h : step env s (.call c fields) = some t) :
    t.run = writeStatus c s.run := by
  simp only [step] at h
  split at h
  · cases h
  · cases h
    exact proceed_run fields _ _

/-- Each call waits for the writes before it: then the last status is durable. -/
theorem last_status_durable {run : LiveRun} {initial : Fields} {registered : State}
    (hregistered : registerLiveRun env run initial = .ok registered) {calls tail : List Label} {c : Call}
    {fields : Fields}
    (hq : Run.Meets (step env) (Quiet env) registered (calls ++ .call c fields :: tail)) :
    LastStatusDurable env registered calls tail c fields := by
  intro htail s hrun hfinished hend
  have hi : Inv env s := Run.run_inv (fun _ _ _ => inv_step) hq (inv_registered hregistered) hrun
  rw [Run.run_append, Option.bind_eq_some_iff] at hrun
  obtain ⟨u, hu, hrun⟩ := hrun
  rw [Run.run_cons, Option.bind_eq_some_iff] at hrun
  obtain ⟨v, hv, hrun⟩ := hrun
  have hquiet := (Run.meets_cons (Run.meets_append hq hu) hv).1
  have hstatus : s.run.status = c.status := by
    have hkept : s.run = v.run := Run.run_inv (I := fun x => x.run = v.run)
      (fun x l y hx hl hxy => (run_of_not_call hl hxy).trans hx)
      (Run.meets_of_forall tail htail v) rfl hrun
    rw [hkept, run_after_call hv, writeStatus_status]
  cases hi.phase with
  | idle row hrow _ hstate hversion =>
    refine ⟨row, hrow, ?_, hversion⟩
    rw [hstate, hstatus, orText_of_trimmed hquiet.2.2.1 hquiet.2.2.2.1]
  | removed hnone _ hended =>
    rw [hstatus, hend] at hended
    cases hended
  | writing w row hrow halone =>
    cases halone with
    | dispatched hwrites => cases hfinished.1.symm.trans hwrites
    | confirmed c' hwrites hc => cases hfinished.2.symm.trans hc
  | written w row hrow hwrites => cases hfinished.1.symm.trans hwrites

section Executing

/-- The number of bytes of `{"key":value,...}`, where no value is an array or an object. -/
def flatBytes (fields : Fields) : Nat :=
  1 + max 1 (fields.map fun field =>
    (Value.quote field.1).utf8ByteSize + 1 + (field.2.dumps 0).utf8ByteSize + 1).sum

/-- `==` of two dictionaries, where no value is an array or an object. -/
def flatEqual (a b : Fields) : Bool :=
  a.length = b.length && a.all fun field => (b.lookup field.1).map (Value.dumps 0) = some (field.2.dumps 0)

def flatEnv : Env where
  repr _ := ""
  fromIsoFormat _ := none
  jsonBytes := flatBytes
  lowercase := .ascii
  sqlLower := .ascii
  equal := flatEqual

def startingRun : LiveRun := { runId := "run-1", status := "starting" }

def executing : Call := ⟨"executing", 0, "12:00", none⟩

def waiting : Call := ⟨"waiting_for_input", 1, "12:01", none⟩

local instance decidableForallOk {ε α : Type} (P : α → Prop) [DecidablePred P] :
    ∀ e : Except ε α, Decidable (∀ a, e = .ok a → P a)
  | .error _ => .isTrue nofun
  | .ok a => decidable_of_iff (P a) ⟨fun h _ heq => Except.ok.inj heq ▸ h, fun h => h a rfl⟩

instance decidableQuiet (env : Env) (s : State) : ∀ l : Label, Decidable (Quiet env s l)
  | .call c fields => inferInstanceAs (Decidable (s.writes = [] ∧ s.row.isSome ∧ strip c.status = c.status ∧
      c.status ≠ "" ∧ ∀ payload, durableRunPayload (writeStatus c s.run) fields = .ok payload →
        env.jsonBytes (payload.put "_durable_version" (.int s.version)) ≤ StateStore.defaultPayloadBytes))
  | .write _ | .confirm => inferInstanceAs (Decidable True)

/-- What is left of a run once it is through: whether its writes have finished, the state and the version
    of the row, and the version that the run remembers. -/
structure Ending where
  finished : Bool
  row : Option (String × Nat)
  version : Nat
  deriving DecidableEq

def ending (s : State) : Ending where
  finished := s.writes.isEmpty && s.confirming.isNone
  row := s.row.map fun row => (row.state, row.version)
  version := s.version

/-- The first write is through before the second call. -/
def inTurn : List Label :=
  [.call executing [], .write 0, .write 0, .call waiting [], .write 0, .write 0]

/-- How the run of these calls ends, and whether each call waits for the writes before it. -/
def judged (calls : List Label) : Option (Option Ending × Bool) :=
  (registerLiveRun flatEnv startingRun []).toOption.map fun registered =>
    ((Run.run (step flatEnv) registered calls).map ending,
      decide (Run.Meets (step flatEnv) (Quiet flatEnv) registered calls))

theorem registered_of_judged {calls : List Label} {result : Option Ending} {quiet : Bool}
    (h : judged calls = some (result, quiet)) : ∃ registered,
      registerLiveRun flatEnv startingRun [] = .ok registered ∧
        (Run.run (step flatEnv) registered calls).map ending = result ∧
        decide (Run.Meets (step flatEnv) (Quiet flatEnv) registered calls) = quiet := by
  unfold judged at h
  cases hr : registerLiveRun flatEnv startingRun [] with
  | error e =>
    rw [hr] at h
    cases h
  | ok registered =>
    rw [hr, Except.toOption, Option.map_some, Option.some.injEq, Prod.mk.injEq] at h
    exact ⟨registered, rfl, h⟩

theorem last_status_durable_in_turn : ∃ registered,
    registerLiveRun flatEnv startingRun [] = .ok registered ∧
      (Run.run (step flatEnv) registered inTurn).map ending =
        some ⟨true, some ("waiting_for_input", 2), 2⟩ ∧
      LastStatusDurable flatEnv registered (inTurn.take 3) (inTurn.drop 4) waiting [] := by
  have hruns : judged inTurn = some (some ⟨true, some ("waiting_for_input", 2), 2⟩, true) := by
    with_unfolding_all decide
  obtain ⟨registered, hregistered, hends, hquiet⟩ := registered_of_judged hruns
  exact ⟨registered, hregistered, hends, last_status_durable hregistered (of_decide_eq_true hquiet)⟩

/-- Both calls are made before a write is through: the second finds the version of the first. -/
def twoQuick : List Label :=
  [.call executing [], .call waiting [], .write 0, .write 0, .write 0, .write 0]

/-- The second write ends in a version conflict, and its status is not in the table. -/
theorem last_status_durable_two_quick : ∃ registered,
    registerLiveRun flatEnv startingRun [] = .ok registered ∧
      (Run.run (step flatEnv) registered twoQuick).map ending = some ⟨true, some ("executing", 1), 1⟩ ∧
      ¬ LastStatusDurable flatEnv registered (twoQuick.take 1) (twoQuick.drop 2) waiting [] := by
  have hruns : judged twoQuick = some (some ⟨true, some ("executing", 1), 1⟩, false) := by
    with_unfolding_all decide
  obtain ⟨registered, hregistered, hends, -⟩ := registered_of_judged hruns
  refine ⟨registered, hregistered, hends, fun h => ?_⟩
  obtain ⟨s, hrun, hs⟩ := Option.map_eq_some_iff.mp hends
  simp only [ending, Ending.mk.injEq, Bool.and_eq_true, List.isEmpty_iff, Option.isNone_iff_eq_none,
    Option.map_eq_some_iff, Prod.mk.injEq] at hs
  obtain ⟨hfinished, ⟨row, hrow, hstate, -⟩, -⟩ := hs
  obtain ⟨row', hrow', hlast, -⟩ := h (by decide) s hrun hfinished (by decide)
  cases hrow.symm.trans hrow'
  rw [hstate] at hlast
  exact absurd hlast (by decide)

end Executing

end Empyralis.Server.LiveRunSnapshots
