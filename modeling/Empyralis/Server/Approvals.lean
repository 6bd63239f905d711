import Empyralis.Lib.Run
import Empyralis.Lib.Sql
import Empyralis.Server.RunState

/-! The approvals of runs: the rows of `run_approvals` and the three functions that write them. To
    record a resolution takes up to three statements, and other calls come between them. -/

namespace Empyralis.Server.Approvals
open Kernel RunState
open Text (strip)

/-- The run and the approval of a row; `step_id` is the approval again. -/
structure Key where
  run : Token
  approval : Token
  deriving DecidableEq

/-- The key of two texts; both have to say something. -/
def Key.read (runId approvalId : String) : Option Key :=
  match Token.read runId, Token.read approvalId with
  | some run, some approval => some ⟨run, approval⟩
  | _, _ => none

/-- A row of `run_approvals`. -/
structure Approval where
  status : String
  requestedAt : Int
  resolvedAt : Option Int
  resolution : Option String
  actor : String
  traceId : Option Token
  requestPayload : Fields
  decisionPayload : Fields
  metadata : Fields
  expiresAt : Option Int
  updatedAt : Int
  version : Nat

/-- The table of the approvals. -/
abbrev Rows := Table Key Approval

variable (env : Env)

/-! ### Resolutions -/

/-- `_approval_resolution_token` -/
def resolutionToken (value : String) : String :=
  let token := env.lowercase.token value
  if token = "" then "approved" else token

/-- `_approval_final_status` -/
def finalStatus (resolution : String) : String :=
  let token := resolutionToken env resolution
  if ["expired", "cancelled", "canceled", "dismissed"].contains token then token else "resolved"

/-- `_approval_status_token` -/
def statusToken (value : String) : String :=
  let token := env.lowercase.token value
  if token = "" then "requested" else token

/-- Statuses that no request replaces. -/
def finalStatuses : List String :=
  ["resolved", "approved", "rejected", "expired", "cancelled", "canceled", "dismissed"]

/-- The actor of a row. -/
def actorOf (actor : String) : String := if strip actor = "" then "system" else strip actor

/-! ### Requests -/

/-- The arguments of a request for an approval. -/
structure Request where
  runId : String
  approvalId : String
  payload : Fields
  actor : String
  traceId : String
  metadata : Fields := []
  expiresAt : Value := .null

/-- The row of a request, as it is inserted. -/
def Request.row (r : Request) (now : Int) (approval : Token) : Approval :=
  let item := r.payload.put "approval_id" (.string approval.text)
  let metadata := match r.metadata, item.get "metadata" with
    | [], .object fields => fields
    | metadata, _ => metadata
  { status := "requested"
    requestedAt := (coercePostgresTimestamptz env
      (either (item.get "requested_at") (item.get "created_at"))).getD now
    resolvedAt := none
    resolution := none
    actor := actorOf r.actor
    traceId := Token.read r.traceId
    requestPayload := item
    decisionPayload := []
    metadata
    expiresAt := coercePostgresTimestamptz env (either r.expiresAt (item.get "expires_at"))
    updatedAt := now
    version := 0 }

/-- The `SET` of `ON CONFLICT`: the payload of a request stays once it is not pending. -/
def rerequest (now : Int) (excluded old : Approval) : Approval :=
  { old with
    requestPayload := if old.status = "requested" then excluded.requestPayload else old.requestPayload
    metadata := if old.status = "requested" then excluded.metadata else old.metadata
    expiresAt := Sql.coalesce excluded.expiresAt old.expiresAt
    updatedAt := now }

/-- `create_or_update_approval_request` -/
def createOrUpdateApprovalRequest (now : Int) (rows : Rows) (r : Request) :
    Except Error Approval × Rows :=
  match Key.read r.runId r.approvalId with
  | none => (.error (.persistence
      "Postgres create_or_update_approval_request requires run_id and approval_id"), rows)
  | some key =>
    let row := r.row env now key.approval
    match enforceRuntimeStateStoreDecision {
      operation := .createOrUpdateApprovalRequest
      runId := key.run.text
      status := "requested"
      payloadBytes := env.jsonBytes row.requestPayload } with
    | .error e => (.error e, rows)
    | .ok () =>
      match Sql.upsert rows key row fun old => some (rerequest now row old) with
      | (some row, rows) => (.ok row, rows)
      | (none, rows) => (.error (.persistence (
          "Postgres create_or_update_approval_request returned no row for " ++ key.run.text ++ "/" ++
            key.approval.text)), rows)

/-! ### Resolving a pending approval -/

/-- The arguments of a resolution that is made only once. -/
structure Decision where
  runId : String
  approvalId : String
  resolution : String
  actor : String
  traceId : String
  note : Option String := none
  payload : Fields := []

def withNote (note : Option String) (item : Fields) : Fields :=
  match note with
  | some text => item.put "note" (.string text)
  | none => item

/-- The decision item of `resolve_approval_if_pending`. -/
def Decision.item (d : Decision) : Fields :=
  let token := resolutionToken env d.resolution
  ((withNote d.note d.payload).setDefault "resolution" (.string token)).setDefault "decision"
    (.string token)

/-- The row after an `UPDATE` that asks for a pending one. -/
def resolvePending (now : Int) (d : Decision) (old : Approval) : Option Approval :=
  if old.status = "requested" then
    some { old with
      status := finalStatus env d.resolution
      resolvedAt := some now
      resolution := some (resolutionToken env d.resolution)
      actor := actorOf d.actor
      traceId := Sql.coalesce (Token.read d.traceId) old.traceId
      decisionPayload := old.decisionPayload.merge (d.item env)
      updatedAt := now
      version := old.version + 1 }
  else none

/-- `resolve_approval_if_pending`. The row that is read where none was updated changes nothing. -/
def resolveApprovalIfPending (now : Int) (rows : Rows) (d : Decision) :
    Except Error (Option Approval) × Rows :=
  match Key.read d.runId d.approvalId with
  | none => (.ok none, rows)
  | some key =>
    match enforceRuntimeStateStoreDecision {
      operation := .resolveApprovalIfPending
      runId := key.run.text
      status := finalStatus env d.resolution
      previousStatus := "requested"
      payloadBytes := env.jsonBytes (d.item env) } with
    | .error e => (.error e, rows)
    | .ok () =>
      let (row, rows) := Sql.update rows key (resolvePending env now d)
      (.ok row, rows)

/-! ### Recording a resolution -/

/-- The arguments of a resolution that is recorded whatever the row says. -/
structure Resolution where
  runId : String
  approvalId : String
  resolution : String
  actor : String
  traceId : String
  note : Option String := none

/-- The decision item of `record_approval_resolution`. -/
def Resolution.item (r : Resolution) : Fields :=
  let token := resolutionToken env r.resolution
  withNote r.note [("resolution", .string token), ("decision", .string token)]

/-- The guarded update: a row that is not final, or that already carries this resolution. -/
def recordFinal (now : Int) (r : Resolution) (old : Approval) : Option Approval :=
  if !finalStatuses.contains old.status || (old.status = finalStatus env r.resolution &&
      old.resolution.getD "" = resolutionToken env r.resolution) then
    some { old with
      status := finalStatus env r.resolution
      resolvedAt := Sql.coalesce old.resolvedAt (some now)
      resolution := some (resolutionToken env r.resolution)
      actor := actorOf r.actor
      traceId := Sql.coalesce (Token.read r.traceId) old.traceId
      decisionPayload := old.decisionPayload.merge (r.item env)
      updatedAt := now
      version := if ["requested", "decision_submitted"].contains old.status then old.version + 1
        else old.version }
  else none

/-- The row that is inserted where there was none. -/
def Resolution.row (r : Resolution) (now : Int) : Approval where
  status := finalStatus env r.resolution
  requestedAt := now
  resolvedAt := some now
  resolution := some (resolutionToken env r.resolution)
  actor := actorOf r.actor
  traceId := Token.read r.traceId
  requestPayload := []
  decisionPayload := r.item env
  metadata := []
  expiresAt := none
  updatedAt := now
  version := 0

/-- The row that was found carries the final state asked for. -/
def carries (r : Resolution) (row : Approval) : Bool :=
  env.lowercase.token (statusToken env row.status) = finalStatus env r.resolution &&
    env.lowercase.token (env.lowercase.token (row.resolution.getD "")) = resolutionToken env r.resolution

/-- The statements of a call that records a resolution. -/
inductive Stage where
  | update | lookup | insert
  deriving DecidableEq

/-- How far one statement of the call brings it. -/
inductive Progress where
  | next (stage : Stage)
  | returned (row : Option Approval)
  | raised (e : Error)

/-- The gate of `record_approval_resolution`, before its first statement. -/
def recordGate (key : Key) (r : Resolution) : Except Error Unit :=
  enforceRuntimeStateStoreDecision {
    operation := .recordApprovalResolution
    runId := key.run.text
    status := finalStatus env r.resolution
    payloadBytes := env.jsonBytes (r.item env) }

/-- The statement that inserts the row: where there is one, that row is returned. -/
def recordInsert (key : Key) (now : Int) (rows : Rows) (r : Resolution) : Option Approval × Rows :=
  Sql.upsert rows key (r.row env now) fun old => some { old with updatedAt := now }

/-- One statement of `record_approval_resolution`. The conflict is raised inside of the `try` and so
    comes out as a failure of the call. -/
def recordApprovalResolution (key : Key) (now : Int) (rows : Rows) (r : Resolution) :
    Stage → Progress × Rows
  | .update =>
    match Sql.update rows key (recordFinal env now r) with
    | (some row, rows) => (.returned row, rows)
    | (none, rows) => (.next .lookup, rows)
  | .lookup =>
    match rows.get? key with
    | none => (.next .insert, rows)
    | some row =>
      if carries env r row then (.returned row, rows)
      else
        let name := key.run.text ++ "/" ++ key.approval.text
        (.raised (.persistence ("Postgres record_approval_resolution failed for " ++ name ++
          ": Postgres record_approval_resolution refused conflicting final state for " ++ name)), rows)
  | .insert =>
    let (row, rows) := recordInsert env key now rows r
    (.returned row, rows)

/-- What `_ensure_run_approval_table` writes, before the statements of each call. -/
def ensureStatus (old : Approval) : Approval :=
  let resolution := old.resolution.getD ""
  { old with status :=
      if old.status ≠ "" then env.sqlLower.lower old.status
      else if ["expired", "cancelled", "canceled", "dismissed"].contains resolution then
        env.sqlLower.lower resolution
      else if old.resolvedAt.isSome || resolution ≠ "" then "resolved"
      else "requested" }

/-- `_ensure_run_approval_table` -/
def ensureRunApprovalTable (key : Key) (rows : Rows) : Rows :=
  (Sql.update rows key fun old => some (ensureStatus env old)).2

/-! ### What a statement can do to the row -/

/-- The status of a row, its resolution and when it was resolved. -/
abbrev Standing := String × Option String × Option Int

def Approval.standing (row : Approval) : Standing := (row.status, row.resolution, row.resolvedAt)

/-- How the approval of a key stands. -/
def standingAt (key : Key) (rows : Rows) : Option Standing := (rows.get? key).map Approval.standing

/-- The stored resolution, with its time. -/
def stored (x : Option Standing) : Option (String × Option Int) :=
  x.bind fun x => x.2.1.map fun resolution => (resolution, x.2.2)

/-- An approval that is asked for. -/
def pending : Standing := ("requested", none, none)

/-- An approval that is resolved. -/
def resolvedAs (resolution : String) (time : Int) : Standing :=
  (finalStatus env resolution, some (resolutionToken env resolution), some time)

/-- An approval is pending, or it was resolved by one call. -/
inductive Sound : Standing → Prop where
  | pending : Sound pending
  | resolved (resolution : String) (time : Int) : Sound (resolvedAs env resolution time)

/-- A row is opened or resolved, and then it stands. -/
inductive Moves : Option Standing → Option Standing → Prop where
  | same (x : Option Standing) : Moves x x
  | opened : Moves none (some pending)
  | inserted (resolution : String) (time : Int) : Moves none (some (resolvedAs env resolution time))
  | resolved (resolution : String) (time : Int) :
      Moves (some pending) (some (resolvedAs env resolution time))

variable {env}

theorem Moves.sound {x y : Option Standing} (h : Moves env x y) (hx : ∀ v ∈ x, Sound env v) :
    ∀ v ∈ y, Sound env v := by
  cases h with
  | same => exact hx
  | opened => simpa using Sound.pending
  | inserted resolution time => simpa using Sound.resolved resolution time
  | resolved resolution time => simpa using Sound.resolved resolution time

/-- What is stored stays. -/
theorem Moves.kept {x y : Option Standing} (h : Moves env x y) {v : String × Option Int}
    (hx : stored x = some v) : stored y = some v := by
  cases h with
  | same => exact hx
  | opened => cases hx
  | inserted => cases hx
  | resolved => cases hx

theorem resolutionToken_ne (value : String) : resolutionToken env value ≠ "" := by
  simp only [resolutionToken]
  split
  · decide
  · assumption

theorem token_resolutionToken (value : String) :
    env.lowercase.token (resolutionToken env value) = resolutionToken env value := by
  simp only [resolutionToken]
  split
  · exact env.lowercase.token_plain (Lowercase.plain_of_all (by decide))
  · exact env.lowercase.token_token value

theorem finalStatus_mem (resolution : String) :
    finalStatus env resolution ∈ ["expired", "cancelled", "canceled", "dismissed", "resolved"] := by
  simp only [finalStatus]
  split
  · rename_i h
    rw [List.contains_iff_mem] at h
    exact List.mem_append_left ["resolved"] h
  · simp

theorem finalStatus_ne_requested (resolution : String) : finalStatus env resolution ≠ "requested" := by
  intro h
  have hmem := @finalStatus_mem env resolution
  rw [h] at hmem
  exact absurd hmem (by decide)

/-- The statuses of the rows are small letters. -/
theorem plain_of_sound {x : Standing} (h : Sound env x) : ∀ c ∈ x.1.toList, c.isLower ∨ c = '_' := by
  cases h with
  | pending => exact Lowercase.plain_of_all (by decide)
  | resolved resolution time =>
    have hmem := @finalStatus_mem env resolution
    have hplain : ∀ status ∈ ["expired", "cancelled", "canceled", "dismissed", "resolved"],
        (status.toList.all fun c => c.isLower || c = '_') = true := by decide
    exact Lowercase.plain_of_all (hplain _ hmem)

/-- The columns of a sound row. -/
theorem Sound.columns {row : Approval} (h : Sound env row.standing) :
    (row.status = "requested" ∧ row.resolution = none ∧ row.resolvedAt = none) ∨
      ∃ resolution time, row.status = finalStatus env resolution ∧
        row.resolution = some (resolutionToken env resolution) ∧ row.resolvedAt = some time := by
  generalize hx : row.standing = x at h
  cases h with
  | pending =>
    simp only [Approval.standing, Approvals.pending, Prod.mk.injEq] at hx
    exact .inl hx
  | resolved resolution time =>
    simp only [Approval.standing, resolvedAs, Prod.mk.injEq] at hx
    exact .inr ⟨resolution, time, hx⟩

theorem pending_of_requested {x : Standing} (h : Sound env x) (hx : x.1 = "requested") :
    x = pending := by
  cases h with
  | pending => rfl
  | resolved resolution time => exact absurd hx (finalStatus_ne_requested resolution)

section Statements

variable {key : Key} {rows : Rows}

theorem standing_upsert {row : Approval} {merge : Approval → Option Approval}
    (hm : ∀ old, ((merge old).getD old).standing = old.standing) :
    standingAt key (Sql.upsert rows key row merge).2 =
      some ((standingAt key rows).getD row.standing) := by
  rw [standingAt, standingAt, Sql.upsert_self]
  cases rows.get? key with
  | none => rfl
  | some old => simp [hm old]

theorem moves_update {change : Approval → Option Approval}
    (hs : ∀ v ∈ standingAt key rows, Sound env v)
    (hc : ∀ old new, Sound env old.standing → change old = some new →
      Moves env (some old.standing) (some new.standing)) :
    Moves env (standingAt key rows) (standingAt key (Sql.update rows key change).2) := by
  rw [standingAt, standingAt, Sql.update_self]
  cases hrow : rows.get? key with
  | none => exact .same none
  | some old =>
    have hold : Sound env old.standing := hs _ (by rw [standingAt, hrow]; rfl)
    cases hnew : change old with
    | none =>
      rw [Option.map_some, Option.map_some, hnew]
      exact .same _
    | some new =>
      rw [Option.map_some, Option.map_some, hnew]
      exact hc old new hold hnew

theorem resolvePending_standing {now : Int} {d : Decision} {old new : Approval}
    (h : resolvePending env now d old = some new) :
    old.status = "requested" ∧ new.standing = resolvedAs env d.resolution now := by
  unfold resolvePending at h
  split at h
  · rename_i hstatus
    cases h
    exact ⟨hstatus, rfl⟩
  · cases h

theorem moves_resolve {now : Int} {d : Decision} {old new : Approval} (hs : Sound env old.standing)
    (h : resolvePending env now d old = some new) :
    Moves env (some old.standing) (some new.standing) := by
  obtain ⟨hstatus, hnew⟩ := resolvePending_standing h
  rw [pending_of_requested hs hstatus, hnew]
  exact .resolved d.resolution now

/-- A resolution that is recorded stands, and the record moves as it may. -/
theorem recordFinal_standing {now : Int} {r : Resolution} {old new : Approval}
    (hs : Sound env old.standing) (h : recordFinal env now r old = some new) :
    new.resolution = some (resolutionToken env r.resolution) ∧
      Moves env (some old.standing) (some new.standing) := by
  unfold recordFinal at h
  split at h
  · rename_i hguard
    cases h
    refine ⟨rfl, ?_⟩
    rcases hs.columns with ⟨hstatus, hresolution, htime⟩ | ⟨resolution, time, hstatus, hresolution, htime⟩
    · have hold : old.standing = pending := by
        rw [Approval.standing, hstatus, hresolution, htime, pending]
      rw [hold]
      have hnew : Moves env _ _ := Moves.resolved r.resolution now
      simpa [Approval.standing, htime, Sql.coalesce, resolvedAs] using hnew
    · -- a row that is final passes the guard only with the same resolution
      have hfinal : old.status ∈ finalStatuses := by
        have hsub : ∀ status ∈ ["expired", "cancelled", "canceled", "dismissed", "resolved"],
            status ∈ finalStatuses := by decide
        rw [hstatus]
        exact hsub _ (finalStatus_mem resolution)
      rw [List.contains_iff_mem.mpr hfinal, hresolution] at hguard
      simp only [Bool.not_true, Bool.false_or, Bool.and_eq_true, decide_eq_true_eq,
        Option.getD_some] at hguard
      have hsame : old.standing = (finalStatus env r.resolution,
          some (resolutionToken env r.resolution), old.resolvedAt) := by
        rw [Approval.standing, hresolution, hguard.1, hguard.2]
      rw [hsame, Approval.standing, htime]
      exact .same _
  · cases h

theorem ensureStatus_standing {old : Approval} (hs : Sound env old.standing) :
    (ensureStatus env old).standing = old.standing := by
  have hplain : env.sqlLower.lower old.status = old.status :=
    env.sqlLower.plain old.status (plain_of_sound hs)
  have hne : old.status ≠ "" := by
    rcases hs.columns with ⟨hstatus, -⟩ | ⟨resolution, -, hstatus, -⟩
    · rw [hstatus]
      decide
    · intro h
      rw [hstatus] at h
      have hmem := @finalStatus_mem env resolution
      rw [h] at hmem
      exact absurd hmem (by decide)
  simp [ensureStatus, Approval.standing, hne, hplain]

/-- The calls on the approval, as far as its row goes. -/
theorem moves_create {now : Int} {r : Request} (hkey : Key.read r.runId r.approvalId = some key) :
    Moves env (standingAt key rows)
      (standingAt key (createOrUpdateApprovalRequest env now rows r).2) := by
  unfold createOrUpdateApprovalRequest
  simp only [hkey]
  split
  · exact .same _
  · have hup : standingAt key (Sql.upsert rows key (r.row env now key.approval) fun old =>
          some (rerequest now (r.row env now key.approval) old)).2 =
        some ((standingAt key rows).getD (r.row env now key.approval).standing) :=
      standing_upsert fun _ => rfl
    have hmoves : Moves env (standingAt key rows)
        (some ((standingAt key rows).getD (r.row env now key.approval).standing)) := by
      cases standingAt key rows with
      | none => exact .opened
      | some x => exact .same _
    rw [← hup] at hmoves
    split <;> simp_all

theorem moves_record {now : Int} {r : Resolution} (hs : ∀ v ∈ standingAt key rows, Sound env v)
    (stage : Stage) : Moves env (standingAt key rows)
      (standingAt key (recordApprovalResolution env key now rows r stage).2) := by
  cases stage with
  | update =>
    have hmoves : Moves env (standingAt key rows)
        (standingAt key (Sql.update rows key (recordFinal env now r)).2) :=
      moves_update hs fun old new hold hnew => (recordFinal_standing hold hnew).2
    simp only [recordApprovalResolution]
    split <;> simp_all
  | lookup =>
    simp only [recordApprovalResolution]
    split
    · exact .same _
    · split <;> exact .same _
  | insert =>
    simp only [recordApprovalResolution, recordInsert]
    rw [standing_upsert fun _ => rfl]
    cases standingAt key rows with
    | none => exact .inserted r.resolution now
    | some x => exact .same _

/-- A record that is found to carry the final state asked for carries its resolution. -/
theorem resolution_of_carries {r : Resolution} {row : Approval} (hs : Sound env row.standing)
    (h : carries env r row) : row.resolution = some (resolutionToken env r.resolution) := by
  simp only [carries, Bool.and_eq_true, decide_eq_true_eq] at h
  rcases hs.columns with ⟨-, hresolution, -⟩ | ⟨resolution, -, -, hresolution, -⟩
  · have hblank : env.lowercase.token "" = "" := env.lowercase.token_plain (Lowercase.plain_of_all (by decide))
    rw [hresolution, Option.getD_none, hblank, hblank] at h
    exact absurd h.2.symm (resolutionToken_ne r.resolution)
  · rw [hresolution, Option.getD_some, token_resolutionToken, token_resolutionToken] at h
    rw [hresolution, h.2]

/-- The status that goes with a resolution. -/
theorem Sound.status_of_resolution {row : Approval} (hs : Sound env row.standing) {resolution : String}
    (h : row.resolution = some (resolutionToken env resolution)) :
    row.status = finalStatus env resolution := by
  rcases hs.columns with ⟨-, hresolution, -⟩ | ⟨resolution', -, hstatus, hresolution, -⟩
  · rw [hresolution] at h
    cases h
  · rw [hresolution, Option.some.injEq] at h
    rw [hstatus, finalStatus, h, finalStatus]

theorem carries_of_resolution {r : Resolution} {row : Approval} (hs : Sound env row.standing)
    (h : row.resolution = some (resolutionToken env r.resolution)) : carries env r row = true := by
  have hplain : env.lowercase.token row.status = row.status := env.lowercase.token_plain (plain_of_sound hs)
  have hstatus := hs.status_of_resolution h
  have hwritten : row.status ≠ "" := by
    intro hblank
    have hmem := @finalStatus_mem env r.resolution
    rw [← hstatus, hblank] at hmem
    exact absurd hmem (by decide)
  have hstatusToken : statusToken env row.status = row.status := by
    rw [statusToken, hplain]
    exact if_neg hwritten
  rw [carries, hstatusToken, hplain, h, Option.getD_some, token_resolutionToken, token_resolutionToken,
    hstatus]
  simp

/-- A call that returns its record leaves a row that carries its resolution; it inserts one where there
    is none. -/
theorem resolution_of_returned {now : Int} {r : Resolution} {stage : Stage} {row : Option Approval}
    {rows' : Rows} (hs : ∀ v ∈ standingAt key rows, Sound env v)
    (hinsert : stage = .insert → rows.get? key = none)
    (h : recordApprovalResolution env key now rows r stage = (.returned row, rows')) :
    row.isSome ∧ (rows'.get? key).bind Approval.resolution = some (resolutionToken env r.resolution) := by
  cases stage with
  | update =>
    simp only [recordApprovalResolution] at h
    split at h
    · rename_i new rows' hupdate
      cases h
      refine ⟨rfl, ?_⟩
      have hbind : (rows.get? key).bind (recordFinal env now r) = some new := by
        rw [← Sql.update_fst, hupdate]
      obtain ⟨old, hold, hnew⟩ := Option.bind_eq_some_iff.mp hbind
      have hsound := hs _ (by rw [standingAt, hold]; rfl)
      have hself := Sql.update_self rows key (recordFinal env now r)
      rw [hupdate, hold, Option.map_some, hnew] at hself
      rw [hself]
      exact (recordFinal_standing hsound hnew).1
    · cases h
  | lookup =>
    simp only [recordApprovalResolution] at h
    split at h
    · cases h
    · rename_i old hold
      split at h
      · rename_i hcarries
        cases h
        have hsound := hs _ (by rw [standingAt, hold]; rfl)
        exact ⟨rfl, by rw [hold]; exact resolution_of_carries hsound hcarries⟩
      · cases h
  | insert =>
    simp only [recordApprovalResolution, recordInsert, Sql.upsert_new (hinsert rfl)] at h
    cases h
    exact ⟨rfl, by simp [Resolution.row]⟩

/-- A call that resolves the approval finds it pending. -/
theorem resolve_spec {now : Int} {d : Decision} (hkey : Key.read d.runId d.approvalId = some key)
    (hs : ∀ v ∈ standingAt key rows, Sound env v) :
    Moves env (standingAt key rows) (standingAt key (resolveApprovalIfPending env now rows d).2) ∧
      ∀ row, (resolveApprovalIfPending env now rows d).1.toOption.bind id = some row →
        standingAt key rows = some pending ∧
        standingAt key (resolveApprovalIfPending env now rows d).2 =
          some (resolvedAs env d.resolution now) := by
  unfold resolveApprovalIfPending
  simp only [hkey]
  split
  · exact ⟨.same _, fun row hrow => by cases hrow⟩
  · refine ⟨moves_update hs fun old new hold hnew => moves_resolve hold hnew, fun row hrow => ?_⟩
    have hbind : (rows.get? key).bind (resolvePending env now d) = some row := by
      rw [← Sql.update_fst]
      exact hrow
    obtain ⟨old, hold, hnew⟩ := Option.bind_eq_some_iff.mp hbind
    obtain ⟨hstatus, hstanding⟩ := resolvePending_standing hnew
    have hx : standingAt key rows = some old.standing := by rw [standingAt, hold]; rfl
    refine ⟨?_, ?_⟩
    · rw [hx, pending_of_requested (hs _ hx) hstatus]
    · rw [standingAt, Sql.update_self, hold, Option.map_some, hnew, Option.getD_some, Option.map_some,
        hstanding]

end Statements

/-! ### Runs -/

/-- The rows, the calls that record a resolution and are not through, the resolution that was stored
    first with its time, and how many calls have resolved the approval. -/
structure State where
  rows : Rows
  recordings : Table Nat (Resolution × Stage)
  first : Option (String × Option Int)
  resolved : Nat

/-- One statement of a call. -/
inductive Label where
  | ensure
  | create (now : Int) (r : Request)
  | resolve (now : Int) (d : Decision)
  | record (id : Nat) (r : Resolution)
  | proceed (id : Nat) (now : Int)

section Runs

variable (env) (key : Key)

/-- No approval, and no call on its way. -/
def start : State := ⟨Table.empty, Table.empty, none, 0⟩

/-- The rows after a statement, with the first resolution that is ever stored. -/
def State.write (s : State) (rows : Rows) : State :=
  { s with rows, first := s.first.or (stored (standingAt key rows)) }

/-- The calls after a statement of one of them. -/
def proceed (recordings : Table Nat (Resolution × Stage)) (id : Nat) (r : Resolution) :
    Progress → Table Nat (Resolution × Stage)
  | .next stage => recordings.put id (r, stage)
  | _ => recordings.erase id

/-- One statement, or the start of a call, on the approval. -/
def step (s : State) : Label → Option State
  | .ensure => some (s.write key (ensureRunApprovalTable env key s.rows))
  | .create now r =>
    if Key.read r.runId r.approvalId = some key then
      some (s.write key (createOrUpdateApprovalRequest env now s.rows r).2)
    else none
  | .resolve now d =>
    if Key.read d.runId d.approvalId = some key then
      let (result, rows) := resolveApprovalIfPending env now s.rows d
      some { s.write key rows with
        resolved := if (result.toOption.bind id).isSome then s.resolved + 1 else s.resolved }
    else none
  | .record id r =>
    if Key.read r.runId r.approvalId = some key ∧ s.recordings.get? id = none then
      match recordGate env key r with
      | .error _ => some s
      | .ok () => some { s with recordings := s.recordings.put id (r, .update) }
    else none
  | .proceed id now =>
    (s.recordings.get? id).map fun (r, stage) =>
      let (progress, rows) := recordApprovalResolution env key now s.rows r stage
      { s.write key rows with recordings := proceed s.recordings id r progress }

/-- A call that records a resolution returns its record only where the stored row carries it. -/
def Truthful (s : State) : Label → Prop
  | .proceed id now => ∀ r stage row rows, s.recordings.get? id = some (r, stage) →
    recordApprovalResolution env key now s.rows r stage = (.returned row, rows) →
    row.isSome ∧ (rows.get? key).bind Approval.resolution = some (resolutionToken env r.resolution)
  | _ => True

/-- What is claimed of one statement. -/
def Faithful (s : State) (l : Label) : Prop :=
  ∀ t, step env key s l = some t →
    Truthful env key s l ∧ t.first = stored (standingAt key t.rows) ∧ t.resolved ≤ 1

/-- A resolution is inserted where there is no row, or one that carries it already. -/
def agrees (s : State) : Label → Bool
  | .proceed id _ => (s.recordings.get? id).all fun (r, stage) =>
    stage ≠ .insert || (s.rows.get? key).all fun row =>
      row.resolution = some (resolutionToken env r.resolution)
  | _ => true

def Agrees (s : State) (l : Label) : Prop := agrees env key s l = true

instance (s : State) (l : Label) : Decidable (Agrees env key s l) :=
  inferInstanceAs (Decidable (_ = true))

/-- The row is sound, the resolution stored first is the one that stands, and no call resolves the
    approval after it is stored. -/
structure Inv (s : State) : Prop where
  sound : ∀ v ∈ standingAt key s.rows, Sound env v
  first : s.first = stored (standingAt key s.rows)
  resolved : s.resolved ≤ if (stored (standingAt key s.rows)).isSome then 1 else 0

variable {env key} {s t : State}

theorem inv_start : Inv env key start := ⟨by simp [start, standingAt, Table.empty, Table.get?], rfl, Nat.zero_le _⟩

theorem first_of_moves (hi : Inv env key s) {rows : Rows}
    (h : Moves env (standingAt key s.rows) (standingAt key rows)) :
    (s.write key rows).first = stored (standingAt key rows) := by
  rw [State.write, hi.first]
  cases hold : stored (standingAt key s.rows) with
  | none => rfl
  | some v => rw [h.kept hold]; rfl

/-- A statement that moves the row and resolves nothing. -/
theorem inv_of_moves (hi : Inv env key s) {rows : Rows}
    (h : Moves env (standingAt key s.rows) (standingAt key rows)) : Inv env key (s.write key rows) where
  sound := h.sound hi.sound
  first := first_of_moves hi h
  resolved := by
    refine hi.resolved.trans ?_
    cases hold : stored (standingAt key s.rows) with
    | none => simp
    | some v => simp [State.write, h.kept hold]

theorem inv_resolve (hi : Inv env key s) {now : Int} {d : Decision}
    (h : step env key s (.resolve now d) = some t) : Inv env key t := by
  simp only [step] at h
  split at h
  · rename_i hkey
    obtain ⟨hmoves, hreturns⟩ := @resolve_spec env key s.rows now d hkey hi.sound
    generalize resolveApprovalIfPending env now s.rows d = reply at h hmoves hreturns
    have hinv := inv_of_moves hi hmoves
    cases h
    refine ⟨hinv.sound, hinv.first, ?_⟩
    dsimp only
    split
    · rename_i hrow
      obtain ⟨row, hrow⟩ := Option.isSome_iff_exists.mp hrow
      obtain ⟨hbefore, hafter⟩ := hreturns row hrow
      -- the call finds the approval pending, so nothing was resolved before it
      have hcount := hi.resolved
      rw [hbefore] at hcount
      have hzero : s.resolved = 0 := Nat.le_zero.mp hcount
      simp [State.write, hafter, hzero, stored, resolvedAs]
    · exact hinv.resolved
  · cases h

/-- One step keeps the row sound and the first resolution standing. -/
theorem inv_step (hi : Inv env key s) {l : Label} (h : step env key s l = some t) :
    Inv env key t := by
  cases l with
  | ensure =>
    cases h
    refine inv_of_moves hi (moves_update hi.sound fun old new hold hnew => ?_)
    cases hnew
    rw [ensureStatus_standing hold]
    exact .same _
  | create now r =>
    simp only [step] at h
    split at h
    · rename_i hkey
      cases h
      exact inv_of_moves hi (moves_create hkey)
    · cases h
  | resolve now d => exact inv_resolve hi h
  | record id r =>
    simp only [step] at h
    split at h
    · split at h
      · cases h
        exact hi
      · cases h
        exact ⟨hi.sound, hi.first, hi.resolved⟩
    · cases h
  | proceed id now =>
    simp only [step, Option.map_eq_some_iff] at h
    obtain ⟨⟨r, stage⟩, -, rfl⟩ := h
    have hinv := inv_of_moves hi (@moves_record env key s.rows now r hi.sound stage)
    exact ⟨hinv.sound, hinv.first, hinv.resolved⟩

theorem resolved_le_one (hi : Inv env key s) : s.resolved ≤ 1 := by
  refine hi.resolved.trans ?_
  split <;> decide

/-- The call is truthful just when an insert finds no other resolution. -/
theorem truthful_iff (hi : Inv env key s) (l : Label) :
    Truthful env key s l ↔ Agrees env key s l := by
  cases l with
  | proceed id now =>
    simp only [Truthful, Agrees, agrees]
    cases hcall : s.recordings.get? id with
    | none => simp
    | some call =>
      obtain ⟨r, stage⟩ := call
      cases stage with
      | update =>
        refine iff_of_true ?_ (by simp)
        rintro _ _ row rows ⟨rfl, rfl⟩ hreturned
        exact resolution_of_returned hi.sound (fun h => by cases h) hreturned
      | lookup =>
        refine iff_of_true ?_ (by simp)
        rintro _ _ row rows ⟨rfl, rfl⟩ hreturned
        exact resolution_of_returned hi.sound (fun h => by cases h) hreturned
      | insert =>
        have hinsert : (∀ r' stage row rows, some (r, Stage.insert) = some (r', stage) →
            recordApprovalResolution env key now s.rows r' stage = (.returned row, rows) →
            row.isSome ∧
              (rows.get? key).bind Approval.resolution = some (resolutionToken env r'.resolution)) ↔
            (recordInsert env key now s.rows r).1.isSome ∧
              ((recordInsert env key now s.rows r).2.get? key).bind Approval.resolution =
                some (resolutionToken env r.resolution) := by
          constructor
          · intro h
            exact h r .insert _ _ rfl rfl
          · rintro h _ _ row rows ⟨rfl, rfl⟩ ⟨rfl, rfl⟩
            exact h
        rw [hinsert, recordInsert, Sql.upsert_self]
        cases hold : s.rows.get? key with
        | none => simp [Sql.upsert_new hold, Resolution.row]
        | some old =>
          simp [Sql.upsert, hold]
  | _ => exact iff_of_true trivial rfl

/-- A step is faithful exactly if it agrees with the record. -/
theorem faithful_iff (hi : Inv env key s) (l : Label) :
    Faithful env key s l ↔ Agrees env key s l := by
  rw [← truthful_iff hi l]
  constructor
  · intro h
    cases hst : step env key s l with
    | some t => exact (h t hst).1
    | none =>
      cases l with
      | proceed id now =>
        rw [step, Option.map_eq_none_iff] at hst
        intro r stage row rows hcall
        rw [hst] at hcall
        cases hcall
      | _ => exact trivial
  · intro h t ht
    have hinv := inv_step hi ht
    exact ⟨h, hinv.first, resolved_le_one hinv⟩

end Runs

/-- Every statement of a run does what is claimed just when each insert of a resolution finds no row, or
    one that carries it. -/
theorem approval_resolution_faithful (env : Env) (key : Key) (calls : List Label) :
    Run.Meets (step env key) (Faithful env key) start calls ↔
      Run.Meets (step env key) (Agrees env key) start calls := by
  constructor
  · exact Run.meets_inv (fun s l t hi _ hst => inv_step hi hst)
      (fun s l hi h => (faithful_iff hi l).mp h) inv_start
  · exact Run.meets_inv (fun s l t hi _ hst => inv_step hi hst)
      (fun s l hi h => (faithful_iff hi l).mpr h) inv_start

section Overtaken

def plainEnv : Env where
  repr _ := ""
  fromIsoFormat _ := none
  jsonBytes fields := if fields.length = 1 then 28 else 47
  lowercase := .ascii
  sqlLower := .ascii

def runKey : Key := ⟨⟨"run-1", by decide, by decide⟩, ⟨"approval-1", by decide, by decide⟩⟩

/-- The request comes between the lookup of a call that records `approved` and its insert. -/
def overtaken : List Label :=
  [.record 0 ⟨"run-1", "approval-1", "approved", "ada", "", none⟩, .proceed 0 0, .proceed 0 1,
    .create 2 ⟨"run-1", "approval-1", [], "ada", "", [], .null⟩]

/-- The insert meets the row of the request and returns it; the approval is nowhere. -/
theorem approval_resolution_overtaken : ∃ s, Run.run (step plainEnv runKey) start overtaken = some s ∧
    ¬ Run.Meets (step plainEnv runKey) (Faithful plainEnv runKey) start (overtaken ++ [.proceed 0 3]) ∧
    (∃ row rows, s.recordings.get? 0 = some (⟨"run-1", "approval-1", "approved", "ada", "", none⟩, .insert) ∧
      recordApprovalResolution plainEnv runKey 3 s.rows
        ⟨"run-1", "approval-1", "approved", "ada", "", none⟩ .insert = (.returned (some row), rows) ∧
      row.status = "requested" ∧ standingAt runKey rows = some pending) := by
  refine ⟨_, rfl, ?_, _, _, rfl, rfl, ?_, ?_⟩
  · rw [approval_resolution_faithful]
    decide
  · decide
  · decide

end Overtaken

end Empyralis.Server.Approvals
