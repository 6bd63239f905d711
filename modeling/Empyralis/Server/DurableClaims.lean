import Empyralis.Lib.Run
import Empyralis.Lib.Sql
import Empyralis.Server.LeaseGates
import Empyralis.Server.Tokens

/-! The durable claims of runs: the rows of `local_queue_claims` and the three statements that write
    them. A claim, a heartbeat and a release name the holder of a run by its worker and by its lease,
    which may be missing.

    Times are microseconds, as the database keeps them. -/

namespace Empyralis.Server.DurableClaims
open Kernel Leases
open Text (strip)

def second : Int := 1000000

/-- A row of `local_queue_claims`. -/
structure Claim where
  workerId : Token
  leaseId : Option Token
  claimedAt : Int
  ttl : Int
  traceId : Option Token
  lastHeartbeatAt : Option Int
  lastProgressAt : Option Int
  lastWorkerNote : Option String
  updatedAt : Int
  deriving DecidableEq

/-- Who holds a claim: the worker, and the lease it has it under. -/
def Claim.holder (c : Claim) : Token × Option Token := (c.workerId, c.leaseId)

abbrev Rows := Table Token Claim

/-- What a call raises. -/
inductive Error where
  | denied (reason : String)
  | nextAction (operation next : String)
  | conflict (runId : Token)
  deriving DecidableEq

/-! ### The gate -/

/-- What the kernel is asked about a claim. -/
structure GateRequest where
  operation : String
  runId : Token
  workerId : Option Token
  leaseId : Option Token
  status : String
  stale : Bool

def textOf (token : Option Token) : String := (token.map Token.text).getD ""

/-- The payload of `_enforce_queue_claim_transition_decision` -/
def gatePayload (r : GateRequest) : Json :=
  .object [("operation", .string r.operation), ("run_id", .string r.runId.text),
    ("item_id", .string r.runId.text), ("requester_id", .string (textOf r.workerId)),
    ("worker_id", .string (textOf r.workerId)),
    ("lease_holder_id", .string (textOf (r.workerId.or r.leaseId))),
    ("current_status", .string r.status), ("status", .string r.status),
    ("lease_stale", .bool r.stale), ("reason", .string "")]

/-- The action that the kernel has to answer. -/
def expectedAction : String → String
  | "claim" => "claim_queue_item"
  | "release" => "release_queue_item"
  | _ => "dead_letter_queue_item"

/-- `_enforce_queue_claim_transition_decision` -/
def enforceQueueClaimTransitionDecision (r : GateRequest) : Except Error Unit :=
  match queueVerdict (Queue.queueTransitionDecisionCommand (gatePayload r)) with
  | .allowed next _ =>
    if next = expectedAction r.operation then .ok () else .error (.nextAction r.operation next)
  | .blocked reason => .error (.denied reason)
  | .approval reason => .error (.denied reason)

/-- What the gate is asked about a claim. -/
def claimGate (runId workerId : Token) (leaseId : Option Token) (status : String) : GateRequest :=
  ⟨"claim", runId, some workerId, leaseId, status, false⟩

/-- What the gate is asked about a release, which counts as stale where no lease is named. -/
def releaseGate (runId : Token) (leaseId : Option Token) : GateRequest :=
  ⟨"release", runId, none, leaseId, "claimed", leaseId.isNone⟩

/-! ### The statements -/

/-- The time to live of a claim has passed since its last heartbeat. -/
def expired (now : Int) (c : Claim) : Bool :=
  c.lastHeartbeatAt.getD c.claimedAt + max c.ttl 1 * second ≤ now

/-- The row of a first claim. -/
def newClaim (now : Int) (workerId : Token) (leaseId : Option Token) (ttl : Int)
    (traceId : Option Token) : Claim where
  workerId := workerId
  leaseId := leaseId
  claimedAt := now
  ttl := ttl
  traceId := traceId
  lastHeartbeatAt := some now
  lastProgressAt := some now
  lastWorkerNote := none
  updatedAt := now

/-- The `WHERE` of `ON CONFLICT`: the same worker with the same lease, or a claim that has expired. -/
def claimable (now : Int) (workerId : Token) (leaseId : Option Token) (old : Claim) : Bool :=
  (old.workerId = workerId &&
    ((leaseId.isNone && old.leaseId.isNone) || Sql.eq old.leaseId leaseId)) || expired now old

/-- The `SET` of `ON CONFLICT`. -/
def overwrite (now : Int) (workerId : Token) (leaseId : Option Token) (ttl : Int)
    (traceId : Option Token) (old : Claim) : Claim where
  workerId := workerId
  leaseId := Sql.coalesce leaseId old.leaseId
  claimedAt := now
  ttl := ttl
  traceId := Sql.coalesce traceId old.traceId
  lastHeartbeatAt := some now
  lastProgressAt := some now
  lastWorkerNote := none
  updatedAt := now

/-- `ON CONFLICT DO UPDATE`, where its condition holds. -/
def reclaim (now : Int) (workerId : Token) (leaseId : Option Token) (ttl : Int)
    (traceId : Option Token) (old : Claim) : Option Claim :=
  if claimable now workerId leaseId old then some (overwrite now workerId leaseId ttl traceId old)
  else none

/-- `claim_run`. A call without a run or a worker returns without a word. -/
def claimRun (now : Int) (rows : Rows) (runId workerId : String) (ttl : Int) (traceId : String)
    (leaseId : Option String) : Except Error Unit × Rows :=
  match Token.read runId, Token.read workerId with
  | some run, some worker =>
    let lease := Token.readOpt leaseId
    match enforceQueueClaimTransitionDecision (claimGate run worker lease "queued") with
    | .error e => (.error e, rows)
    | .ok () =>
      let ttl := max 1 ttl
      let trace := Token.read traceId
      match Sql.upsert rows run (newClaim now worker lease ttl trace)
          (reclaim now worker lease ttl trace) with
      | (some _, rows) => (.ok (), rows)
      | (none, rows) => (.error (.conflict run), rows)
  | _, _ => (.ok (), rows)

/-- The row after a heartbeat of its holder. -/
def heartbeat (now : Int) (workerId : Token) (leaseId : Option Token) (note : Option Token)
    (progress : Bool) (old : Claim) : Option Claim :=
  if old.workerId = workerId && Sql.same leaseId old.leaseId then
    some { old with
      lastHeartbeatAt := some now
      lastProgressAt := if progress then some now else old.lastProgressAt
      lastWorkerNote := (note.map fun text => String.ofList (text.text.toList.take 280)).or
        old.lastWorkerNote
      updatedAt := now }
  else none

/-- `touch_claim_heartbeat` -/
def touchClaimHeartbeat (now : Int) (rows : Rows) (runId workerId : String)
    (leaseId note : Option String) (progress : Bool) : Except Error Bool × Rows :=
  match Token.read runId, Token.read workerId with
  | some run, some worker =>
    let lease := Token.readOpt leaseId
    match enforceQueueClaimTransitionDecision (claimGate run worker lease "claimed") with
    | .error e => (.error e, rows)
    | .ok () =>
      let (row, rows) := Sql.update rows run
        (heartbeat now worker lease (Token.readOpt note) progress)
      (.ok row.isSome, rows)
  | _, _ => (.ok false, rows)

/-- `release_claim` -/
def releaseClaim (rows : Rows) (runId : String) (leaseId : Option String) :
    Except Error Bool × Rows :=
  match Token.read runId with
  | some run =>
    let lease := Token.readOpt leaseId
    match enforceQueueClaimTransitionDecision (releaseGate run lease) with
    | .error e => (.error e, rows)
    | .ok () =>
      let (row, rows) := Sql.delete rows run fun old => Sql.same lease old.leaseId
      (.ok row.isSome, rows)
  | none => (.ok false, rows)

/-! ### The gate lets all three through -/

theorem present_textOf (t : Option Token) : present (textOf t) = t.map Token.text := by
  cases t with
  | none => decide
  | some t => exact t.present_text

/-- The kernel reads a request through its fields. -/
theorem gate_command {r : GateRequest} {op : Queue.Operation}
    (hop : Queue.normalizeOperation ((present r.operation).getD "") = some op) :
    Queue.queueTransitionDecisionCommand (gatePayload r) =
      Queue.decisionOf op (some r.runId.text) (r.workerId.map Token.text)
        ((r.workerId.or r.leaseId).map Token.text)
        (Queue.normalizeStatus ((present r.status).getD "unknown")) 0 Queue.defaultMaxAttempts
        r.stale false none := by
  have hoperation : (stringFieldOr (gatePayload r) "operation" "action").getD "" =
      (present r.operation).getD "" := by
    simp [stringFieldOr, stringField, Json.get, gatePayload, List.lookup_cons, Json.asStr]
  have hid : (stringFieldOr (gatePayload r) "item_id" "run_id").or
      (stringField (gatePayload r) "queue_id") = some r.runId.text := by
    simp [stringFieldOr, stringField, Json.get, gatePayload, List.lookup_cons, Json.asStr,
      Token.present_text]
  have hrequester : (stringFieldOr (gatePayload r) "requester_id" "worker_id").or
      (stringField (gatePayload r) "holder_id") = r.workerId.map Token.text := by
    simp [stringFieldOr, stringField, Json.get, gatePayload, List.lookup_cons, Json.asStr,
      present_textOf]
  have hholder : stringFieldOr (gatePayload r) "lease_holder_id" "current_holder_id" =
      (r.workerId.or r.leaseId).map Token.text := by
    simp [stringFieldOr, stringField, Json.get, gatePayload, List.lookup_cons, Json.asStr,
      present_textOf]
  have hstatus : stringFieldOr (gatePayload r) "status" "current_status" = present r.status := by
    simp [stringFieldOr, stringField, Json.get, gatePayload, List.lookup_cons, Json.asStr]
  have hattempts : (((gatePayload r).get "attempts").bind Json.asU64).getD 0 = 0 := by
    simp [Json.get, gatePayload, List.lookup_cons]
  have hmax : max ((((gatePayload r).get "max_attempts").bind Json.asU64).getD
      Queue.defaultMaxAttempts) 1 = Queue.defaultMaxAttempts := by
    simp [Json.get, gatePayload, List.lookup_cons, Queue.defaultMaxAttempts]
  have hstale : (boolish (gatePayload r) "stale" || boolish (gatePayload r) "lease_stale") =
      r.stale := by
    simp [boolish, Json.get, gatePayload, List.lookup_cons]
  have hforce : boolish (gatePayload r) "force" = false := by
    simp [boolish, Json.get, gatePayload, List.lookup_cons]
  have hblank : present "" = none := by decide
  have hreason : stringField (gatePayload r) "reason" = none := by
    simp [stringField, Json.get, gatePayload, List.lookup_cons, Json.asStr, hblank]
  unfold Queue.queueTransitionDecisionCommand
  rw [hoperation, hop, hid, hrequester, hholder, hstatus, hattempts, hmax, hstale, hforce, hreason]

theorem gate_claim (runId workerId : Token) (leaseId : Option Token) {status : String}
    (hstatus : (Queue.normalizeStatus ((present status).getD "unknown")).isTerminal = false) :
    enforceQueueClaimTransitionDecision (claimGate runId workerId leaseId status) = .ok () := by
  have hop : Queue.normalizeOperation
      ((present (claimGate runId workerId leaseId status).operation).getD "") = some .claim := by
    have h : Queue.normalizeOperation ((present "claim").getD "") = some .claim := by with_unfolding_all decide
    exact h
  unfold enforceQueueClaimTransitionDecision
  rw [gate_command hop]
  simp [claimGate, Queue.decisionOf, Queue.claimDecision, hstatus, Queue.queueResponse, queueVerdict,
    verdict, Queue.nextAction, expectedAction]

theorem gate_release (runId : Token) (leaseId : Option Token) :
    enforceQueueClaimTransitionDecision (releaseGate runId leaseId) = .ok () := by
  have hop : Queue.normalizeOperation
      ((present (releaseGate runId leaseId).operation).getD "") = some .release := by
    have h : Queue.normalizeOperation ((present "release").getD "") = some .release := by
      with_unfolding_all decide
    exact h
  have hstatus : Queue.normalizeStatus ((present "claimed").getD "unknown") = .claimed := by
    with_unfolding_all decide
  unfold enforceQueueClaimTransitionDecision
  rw [gate_command hop]
  simp [releaseGate, Queue.decisionOf, Queue.releaseDecision, hstatus, Queue.Status.isActive,
    Queue.notOwned, Queue.queueResponse, queueVerdict, verdict, Queue.nextAction, expectedAction]

/-! ### What the statements do -/

section Statements

variable {now : Int} {rows : Rows} {runId workerId : String} {run worker : Token}

/-- The statement of a claim, with its arguments read. -/
def claimed (now : Int) (rows : Rows) (run worker : Token) (ttl : Int) (traceId : String)
    (leaseId : Option String) : Option Claim × Rows :=
  Sql.upsert rows run (newClaim now worker (Token.readOpt leaseId) (max 1 ttl) (Token.read traceId))
    (reclaim now worker (Token.readOpt leaseId) (max 1 ttl) (Token.read traceId))

theorem claimRun_blank (h : Token.read runId = none ∨ Token.read workerId = none) (ttl : Int)
    (traceId : String) (leaseId : Option String) :
    claimRun now rows runId workerId ttl traceId leaseId = (.ok (), rows) := by
  unfold claimRun
  rcases h with h | h
  · rw [h]
  · rw [h]
    cases Token.read runId <;> rfl

theorem claimRun_read (hrun : Token.read runId = some run) (hworker : Token.read workerId = some worker)
    (ttl : Int) (traceId : String) (leaseId : Option String) :
    claimRun now rows runId workerId ttl traceId leaseId =
      match claimed now rows run worker ttl traceId leaseId with
      | (some _, rows) => (.ok (), rows)
      | (none, rows) => (.error (.conflict run), rows) := by
  have hstatus : (Queue.normalizeStatus ((present "queued").getD "unknown")).isTerminal = false := by
    with_unfolding_all decide
  unfold claimRun
  simp only [hrun, hworker, gate_claim run worker (Token.readOpt leaseId) hstatus]
  rfl

theorem touch_blank (h : Token.read runId = none ∨ Token.read workerId = none)
    (leaseId note : Option String) (progress : Bool) :
    (touchClaimHeartbeat now rows runId workerId leaseId note progress).2 = rows := by
  unfold touchClaimHeartbeat
  rcases h with h | h
  · rw [h]
  · rw [h]
    cases Token.read runId <;> rfl

theorem touch_read (hrun : Token.read runId = some run) (hworker : Token.read workerId = some worker)
    (leaseId note : Option String) (progress : Bool) :
    (touchClaimHeartbeat now rows runId workerId leaseId note progress).2 =
      (Sql.update rows run
        (heartbeat now worker (Token.readOpt leaseId) (Token.readOpt note) progress)).2 := by
  have hstatus : (Queue.normalizeStatus ((present "claimed").getD "unknown")).isTerminal = false := by
    with_unfolding_all decide
  unfold touchClaimHeartbeat
  simp only [hrun, hworker, gate_claim run worker (Token.readOpt leaseId) hstatus]

theorem release_read (hrun : Token.read runId = some run) (leaseId : Option String) :
    (releaseClaim rows runId leaseId).2 =
      (Sql.delete rows run fun old => Sql.same (Token.readOpt leaseId) old.leaseId).2 := by
  unfold releaseClaim
  simp only [hrun, gate_release]

theorem release_blank (h : Token.read runId = none) (leaseId : Option String) :
    (releaseClaim rows runId leaseId).2 = rows := by
  unfold releaseClaim
  rw [h]

/-- A heartbeat leaves the holder as it was. -/
theorem heartbeat_holder {leaseId note : Option Token} {progress : Bool} {old new : Claim}
    (h : heartbeat now worker leaseId note progress old = some new) : new.holder = old.holder := by
  unfold heartbeat at h
  split at h
  · cases h
    rfl
  · cases h

end Statements

/-! ### Runs -/

/-- The rows, the time, and for each run the leases of the claims that another holder has
    overwritten. -/
structure State where
  clock : Int
  rows : Rows
  displaced : Token → List (Option Token)

/-- A call, with its time. -/
inductive Label where
  | claim (now : Int) (runId workerId : String) (ttl : Int) (traceId : String)
      (leaseId : Option String)
  | touch (now : Int) (runId workerId : String) (leaseId note : Option String) (progress : Bool)
  | release (now : Int) (runId : String) (leaseId : Option String)

/-- The rows after a call. -/
def Label.after (rows : Rows) : Label → Rows
  | .claim now runId workerId ttl traceId leaseId =>
    (claimRun now rows runId workerId ttl traceId leaseId).2
  | .touch now runId workerId leaseId note progress =>
    (touchClaimHeartbeat now rows runId workerId leaseId note progress).2
  | .release _ runId leaseId => (releaseClaim rows runId leaseId).2

def Label.now : Label → Int
  | .claim now .. | .touch now .. | .release now .. => now

/-- The lease of the claim on this run that a claim of `worker` with `lease` overwrites. -/
def displacement (now : Int) (rows : Rows) (run worker : Token) (lease : Option Token) :
    List (Option Token) :=
  match rows.get? run with
  | none => []
  | some old =>
    if claimable now worker lease old && old.holder ≠ (worker, lease) then [old.leaseId] else []

/-- The displaced leases after a call. -/
def Label.displaced (s : State) : Label → Token → List (Option Token)
  | .claim now runId workerId _ _ leaseId => fun run =>
    match Token.read workerId with
    | some worker =>
      if Token.read runId = some run then
        displacement now s.rows run worker (Token.readOpt leaseId) ++ s.displaced run
      else s.displaced run
    | none => s.displaced run
  | _ => s.displaced

/-- Time does not go back. -/
def step (s : State) (l : Label) : Option State :=
  if s.clock ≤ l.now then some ⟨l.now, l.after s.rows, l.displaced s⟩ else none

def start (clock : Int) : State := ⟨clock, Table.empty, fun _ => []⟩

/-- A heartbeat or a release that presents the lease of a displaced claim changes nothing. -/
def Fenced (s : State) : Prop :=
  ∀ run leaseId, Token.readOpt leaseId ∈ s.displaced run → ∀ runId, Token.read runId = some run →
    (∀ now workerId note progress,
      (touchClaimHeartbeat now s.rows runId workerId leaseId note progress).2 = s.rows) ∧
    (releaseClaim s.rows runId leaseId).2 = s.rows

/-- A claim that returns leaves the row of its worker and its lease. -/
def Exact (s : State) : Label → Prop
  | .claim now runId workerId ttl traceId leaseId =>
    (claimRun now s.rows runId workerId ttl traceId leaseId).1 = .ok () →
      ∃ run worker, Token.read runId = some run ∧ Token.read workerId = some worker ∧
        ((claimRun now s.rows runId workerId ttl traceId leaseId).2.get? run).map Claim.holder =
          some (worker, Token.readOpt leaseId)
  | _ => True

/-- Another holder takes the place of one whose time to live has passed since its last heartbeat. -/
def Displaces (s t : State) : Prop :=
  ∀ run c d, s.rows.get? run = some c → t.rows.get? run = some d → d.holder ≠ c.holder →
    expired t.clock c

/-- What is claimed of one call. -/
def Faithful (s : State) (l : Label) : Prop :=
  ∀ t, step s l = some t → Exact s l ∧ Displaces s t ∧ Fenced t

/-- A claim says who claims which run. Where it gets the run, it is made with a lease that no displaced
    claim has had, and it has a lease if it displaces one. -/
def fresh (s : State) : Label → Bool
  | .claim now runId workerId _ _ leaseId =>
    match Token.read runId, Token.read workerId with
    | some run, some worker =>
      let lease := Token.readOpt leaseId
      let displaced := displacement now s.rows run worker lease
      !(s.rows.get? run).all (claimable now worker lease) ||
        (lease ∉ displaced ++ s.displaced run && (displaced = [] || lease ≠ none))
    | _, _ => false
  | _ => true

def Fresh (s : State) (l : Label) : Prop := s.clock ≤ l.now → fresh s l = true

instance (s : State) (l : Label) : Decidable (Fresh s l) :=
  inferInstanceAs (Decidable (s.clock ≤ l.now → fresh s l = true))

/-- No row holds the lease of a displaced claim. -/
def Inv (rows : Rows) (displaced : Token → List (Option Token)) : Prop :=
  ∀ run c, rows.get? run = some c → c.leaseId ∉ displaced run

/-- A heartbeat and a release find the row by its lease. -/
theorem fenced_iff {s : State} : Fenced s ↔ Inv s.rows s.displaced := by
  constructor
  · intro h run c hc hmem
    have hrel := (h run (c.leaseId.map Token.text) (by rwa [Token.readOpt_map]) run.text
      (Token.read_text run)).2
    rw [release_read (Token.read_text run), Token.readOpt_map,
      Sql.delete_some hc ((Sql.same_iff _ _).mpr rfl)] at hrel
    have hgone := congrArg (fun rows => Table.get? rows run) hrel
    simp [hc] at hgone
  · intro h run leaseId hmem runId hrun
    have hlease : ∀ old, s.rows.get? run = some old → Token.readOpt leaseId ≠ old.leaseId := by
      intro old hold heq
      rw [heq] at hmem
      exact h run old hold hmem
    constructor
    · intro now workerId note progress
      cases hworker : Token.read workerId with
      | none => exact touch_blank (.inr hworker) leaseId note progress
      | some worker =>
        rw [touch_read hrun hworker, Sql.update_none]
        intro old hold
        unfold heartbeat
        rw [if_neg]
        rw [Bool.and_eq_true, Sql.same_iff]
        exact fun hand => hlease old hold hand.2
    · rw [release_read hrun, Sql.delete_none]
      intro old hold
      rw [← Bool.not_eq_true, Sql.same_iff]
      exact hlease old hold

/-! ### One call -/

section Calls

variable {s : State} {now : Int} {runId workerId : String} {run worker : Token} {old : Claim}

theorem step_of_le {l : Label} (h : s.clock ≤ l.now) :
    step s l = some ⟨l.now, l.after s.rows, l.displaced s⟩ := if_pos h

theorem faithful_of_le {l : Label} (h : s.clock ≤ l.now) : Faithful s l ↔
    Exact s l ∧ Displaces s ⟨l.now, l.after s.rows, l.displaced s⟩ ∧
      Inv (l.after s.rows) (l.displaced s) := by
  unfold Faithful
  rw [step_of_le h]
  constructor
  · intro hf
    obtain ⟨hexact, hdisplaces, hfenced⟩ := hf _ rfl
    exact ⟨hexact, hdisplaces, fenced_iff.mp hfenced⟩
  · rintro ⟨hexact, hdisplaces, hinv⟩ t ht
    cases ht
    exact ⟨hexact, hdisplaces, fenced_iff.mpr hinv⟩

/-- A call after which each row is one of before with the same holder. -/
theorem faithful_of_kept {l : Label} (hi : Inv s.rows s.displaced) (hexact : Exact s l)
    (hdisplaced : l.displaced s = s.displaced)
    (hkept : ∀ run d, (l.after s.rows).get? run = some d →
      ∃ c, s.rows.get? run = some c ∧ d.holder = c.holder) : Faithful s l := by
  by_cases hle : s.clock ≤ l.now
  · rw [faithful_of_le hle, hdisplaced]
    refine ⟨hexact, ?_, ?_⟩
    · intro run c d hc hd hne
      obtain ⟨c', hc', hholder⟩ := hkept run d hd
      rw [hc', Option.some.injEq] at hc
      exact absurd (hc ▸ hholder) hne
    · intro run d hd
      obtain ⟨c, hc, hholder⟩ := hkept run d hd
      rw [show d.leaseId = c.leaseId from congrArg Prod.snd hholder]
      exact hi run c hc
  · intro t ht
    unfold step at ht
    rw [if_neg hle] at ht
    cases ht

theorem faithful_touch (hi : Inv s.rows s.displaced) (now : Int) (runId workerId : String)
    (leaseId note : Option String) (progress : Bool) :
    Faithful s (.touch now runId workerId leaseId note progress) := by
  refine faithful_of_kept hi trivial rfl fun run d hd => ?_
  rw [Label.after] at hd
  cases hr : Token.read runId with
  | none =>
    rw [touch_blank (.inl hr)] at hd
    exact ⟨d, hd, rfl⟩
  | some key =>
    cases hw : Token.read workerId with
    | none =>
      rw [touch_blank (.inr hw)] at hd
      exact ⟨d, hd, rfl⟩
    | some worker =>
      rw [touch_read hr hw] at hd
      by_cases hrun : run = key
      · subst hrun
        unfold Sql.update at hd
        split at hd
        · rename_i new hnew
          rw [Table.get?_put, if_pos rfl, Option.some.injEq] at hd
          obtain ⟨old, hold, hbeat⟩ := Option.bind_eq_some_iff.mp hnew
          exact ⟨old, hold, by rw [← hd, heartbeat_holder hbeat]⟩
        · exact ⟨d, hd, rfl⟩
      · rw [Sql.update_other hrun] at hd
        exact ⟨d, hd, rfl⟩

theorem faithful_release (hi : Inv s.rows s.displaced) (now : Int) (runId : String) (leaseId : Option String) :
    Faithful s (.release now runId leaseId) := by
  refine faithful_of_kept hi trivial rfl fun run d hd => ⟨d, ?_, rfl⟩
  rw [Label.after] at hd
  cases hr : Token.read runId with
  | none => rwa [release_blank hr] at hd
  | some key =>
    rw [release_read hr] at hd
    unfold Sql.delete at hd
    split at hd
    · rw [Table.get?_erase] at hd
      split at hd
      · cases hd
      · exact hd
    · exact hd

variable {ttl : Int} {traceId : String} {leaseId : Option String}

/-- The rows after a claim whose arguments are read. -/
theorem after_claim (hr : Token.read runId = some run) (hw : Token.read workerId = some worker) :
    (Label.claim now runId workerId ttl traceId leaseId).after s.rows =
      (claimed now s.rows run worker ttl traceId leaseId).2 := by
  rw [Label.after, claimRun_read hr hw]
  split <;> simp [*]

theorem displaced_claim (hr : Token.read runId = some run) (hw : Token.read workerId = some worker)
    (other : Token) : (Label.claim now runId workerId ttl traceId leaseId).displaced s other =
      if run = other then
        displacement now s.rows run worker (Token.readOpt leaseId) ++ s.displaced run
      else s.displaced other := by
  simp only [Label.displaced, hr, hw, Option.some.injEq]
  split
  · rename_i h
    rw [h]
  · rfl

/-- A claim that gets the run, as far as that run and its displaced leases go. -/
theorem faithful_written (hi : Inv s.rows s.displaced) (hle : s.clock ≤ now) (hr : Token.read runId = some run)
    (hw : Token.read workerId = some worker) {new : Claim}
    (hnew : claimed now s.rows run worker ttl traceId leaseId = (some new, s.rows.put run new))
    (hworker : new.workerId = worker)
    (hpast : ∀ old, s.rows.get? run = some old → new.holder ≠ old.holder → expired now old) :
    Faithful s (.claim now runId workerId ttl traceId leaseId) ↔
      new.leaseId = Token.readOpt leaseId ∧
        new.leaseId ∉ displacement now s.rows run worker (Token.readOpt leaseId) ++ s.displaced run := by
  have hafter : (Label.claim now runId workerId ttl traceId leaseId).after s.rows = _ :=
    after_claim hr hw
  rw [hnew] at hafter
  have hexact : Exact s (.claim now runId workerId ttl traceId leaseId) ↔
      new.leaseId = Token.readOpt leaseId := by
    simp only [Exact, claimRun_read hr hw, hnew, hr, hw, true_imp_iff]
    constructor
    · rintro ⟨run', worker', hrun', hworker', hholder⟩
      cases hrun'
      cases hworker'
      rw [Table.get?_put, if_pos rfl, Option.map_some, Option.some.injEq] at hholder
      exact congrArg Prod.snd hholder
    · intro h
      refine ⟨run, worker, rfl, rfl, ?_⟩
      rw [Table.get?_put, if_pos rfl, Option.map_some, Claim.holder, hworker, h]
  rw [faithful_of_le (l := .claim now runId workerId ttl traceId leaseId) hle, hexact, hafter]
  refine and_congr_right fun _ => ?_
  constructor
  · rintro ⟨-, hinv⟩
    have hlease := hinv run new (by simp)
    rwa [displaced_claim hr hw, if_pos rfl] at hlease
  · intro hlease
    refine ⟨?_, ?_⟩
    · intro other c d hc hd hne
      by_cases ho : other = run
      · subst ho
        rw [Table.get?_put, if_pos rfl, Option.some.injEq] at hd
        subst hd
        exact hpast c hc hne
      · rw [Table.get?_put, if_neg ho, hc, Option.some.injEq] at hd
        exact absurd (hd ▸ rfl) hne
    · intro other c hc
      rw [displaced_claim hr hw]
      by_cases ho : other = run
      · subst ho
        rw [Table.get?_put, if_pos rfl, Option.some.injEq] at hc
        rw [if_pos rfl, ← hc]
        exact hlease
      · rw [Table.get?_put, if_neg ho] at hc
        rw [if_neg (Ne.symm ho)]
        exact hi other c hc

theorem displacement_absent (h : s.rows.get? run = none) (lease : Option Token) :
    displacement now s.rows run worker lease = [] := by
  unfold displacement
  rw [h]

theorem displacement_held {lease : Option Token} (h : s.rows.get? run = some old)
    (hclaim : claimable now worker lease old) : displacement now s.rows run worker lease =
      if old.holder = (worker, lease) then [] else [old.leaseId] := by
  simp only [displacement, h, hclaim, Bool.true_and]
  by_cases heq : old.holder = (worker, lease)
  · simp [heq]
  · simp [heq]

/-- Who claims the run of another holder finds its claim expired. -/
theorem expired_of_claimable {lease : Option Token} (h : claimable now worker lease old)
    (hne : old.holder ≠ (worker, lease)) : expired now old := by
  unfold claimable at h
  rw [Bool.or_eq_true] at h
  refine h.resolve_left fun hsame => hne ?_
  simp only [Bool.and_eq_true, decide_eq_true_eq] at hsame
  have hlease : Sql.same lease old.leaseId = true := by
    rw [Sql.same, Bool.or_eq_true]
    simpa [Bool.or_eq_true] using hsame.2
  rw [Claim.holder, hsame.1, (Sql.same_iff _ _).mp hlease]

theorem fresh_claim (hr : Token.read runId = some run) (hw : Token.read workerId = some worker) :
    fresh s (.claim now runId workerId ttl traceId leaseId) = true ↔
      ((∀ old, s.rows.get? run = some old → claimable now worker (Token.readOpt leaseId) old) →
        Token.readOpt leaseId ∉
          displacement now s.rows run worker (Token.readOpt leaseId) ++ s.displaced run ∧
        (displacement now s.rows run worker (Token.readOpt leaseId) ≠ [] →
          Token.readOpt leaseId ≠ none)) := by
  simp only [fresh, hr, hw, Bool.or_eq_true, Bool.and_eq_true, Bool.not_eq_true',
    decide_eq_true_eq, ← Bool.not_eq_true, Option.all_eq_true, ne_eq, or_iff_not_imp_left,
    not_not]

/-- A claim is faithful exactly if it is fresh. -/
theorem faithful_claim (hi : Inv s.rows s.displaced) (hle : s.clock ≤ now)
    (hr : Token.read runId = some run) (hw : Token.read workerId = some worker) :
    Faithful s (.claim now runId workerId ttl traceId leaseId) ↔
      fresh s (.claim now runId workerId ttl traceId leaseId) = true := by
  rw [fresh_claim hr hw]
  cases hrow : s.rows.get? run with
  | none =>
    let new := newClaim now worker (Token.readOpt leaseId) (max 1 ttl) (Token.read traceId)
    have hnew : claimed now s.rows run worker ttl traceId leaseId = (some new, s.rows.put run new) :=
      Sql.upsert_new hrow
    have hpast : ∀ old, s.rows.get? run = some old → new.holder ≠ old.holder → expired now old := by
      intro old hold
      rw [hrow] at hold
      cases hold
    rw [faithful_written hi hle hr hw hnew rfl hpast, displacement_absent hrow]
    simp [new, newClaim]
  | some old =>
    by_cases hclaim : claimable now worker (Token.readOpt leaseId) old
    · let new := overwrite now worker (Token.readOpt leaseId) (max 1 ttl) (Token.read traceId) old
      have hmerge : reclaim now worker (Token.readOpt leaseId) (max 1 ttl) (Token.read traceId) old =
          some new := if_pos hclaim
      have hnew : claimed now s.rows run worker ttl traceId leaseId =
          (some new, s.rows.put run new) := Sql.upsert_some hrow hmerge
      have hpast : ∀ old', s.rows.get? run = some old' → new.holder ≠ old'.holder →
          expired now old' := by
        intro old' hold' hne
        rw [hrow, Option.some.injEq] at hold'
        subst hold'
        refine expired_of_claimable hclaim fun heq => hne ?_
        have hlease : old.leaseId = Token.readOpt leaseId := congrArg Prod.snd heq
        have hworker : old.workerId = worker := congrArg Prod.fst heq
        simp only [new, Claim.holder, overwrite, hlease, hworker]
        simp [Sql.coalesce]
      rw [faithful_written hi hle hr hw hnew rfl hpast, displacement_held hrow hclaim]
      have hkept : old.leaseId ∉ s.displaced run := hi run old hrow
      have hcoalesce : new.leaseId = (Token.readOpt leaseId).or old.leaseId := rfl
      rw [hcoalesce]
      by_cases heq : old.holder = (worker, Token.readOpt leaseId)
      · have hlease : Token.readOpt leaseId = old.leaseId := (congrArg Prod.snd heq).symm
        simp [heq, hlease, hkept]
      · cases hl : Token.readOpt leaseId with
        | none =>
          rw [hl] at heq hclaim
          simp [heq, hclaim]
        | some lease =>
          rw [hl] at heq hclaim
          simp [heq, hclaim]
    · have hmerge : reclaim now worker (Token.readOpt leaseId) (max 1 ttl) (Token.read traceId) old =
          none := if_neg hclaim
      have hnone : claimed now s.rows run worker ttl traceId leaseId = (none, s.rows) :=
        Sql.upsert_none hrow hmerge
      have hsame : (Label.claim now runId workerId ttl traceId leaseId).displaced s =
          s.displaced := by
        funext other
        rw [displaced_claim hr hw]
        split
        · rename_i heq
          subst heq
          simp [displacement, hrow, hclaim]
        · rfl
      refine iff_of_true ?_ fun h => absurd (h old rfl) hclaim
      refine faithful_of_kept hi ?_ hsame fun other d hd => ⟨d, ?_, rfl⟩
      · simp [Exact, claimRun_read hr hw, hnone]
      · rwa [after_claim hr hw, hnone] at hd

/-- A call does what is claimed of it just when it is fresh. -/
theorem faithful_iff (hi : Inv s.rows s.displaced) (l : Label) : Faithful s l ↔ Fresh s l := by
  by_cases hle : s.clock ≤ l.now
  · cases l with
    | touch now runId workerId leaseId note progress =>
      exact iff_of_true (faithful_touch hi now runId workerId leaseId note progress) fun _ => rfl
    | release now runId leaseId =>
      exact iff_of_true (faithful_release hi now runId leaseId) fun _ => rfl
    | claim now runId workerId ttl traceId leaseId =>
      rw [Fresh, forall_prop_of_true hle]
      by_cases hread : ∃ run worker, Token.read runId = some run ∧ Token.read workerId = some worker
      · obtain ⟨run, worker, hr, hw⟩ := hread
        exact faithful_claim hi hle hr hw
      · have hblank : Token.read runId = none ∨ Token.read workerId = none := by
          by_contra hne
          rw [not_or] at hne
          obtain ⟨run, hr⟩ := Option.ne_none_iff_exists'.mp hne.1
          obtain ⟨worker, hw⟩ := Option.ne_none_iff_exists'.mp hne.2
          exact hread ⟨run, worker, hr, hw⟩
        refine iff_of_false ?_ ?_
        · intro h
          have hexact := (h _ (step_of_le hle)).1
          simp only [Exact, claimRun_blank hblank, true_imp_iff] at hexact
          obtain ⟨run, worker, hr, hw, -⟩ := hexact
          exact hread ⟨run, worker, hr, hw⟩
        · rcases hblank with h | h
          · simp [fresh, h]
          · cases hr : Token.read runId <;> simp [fresh, h, hr]
  · refine iff_of_true ?_ fun h => absurd h hle
    intro t ht
    unfold step at ht
    rw [if_neg hle] at ht
    cases ht

theorem inv_of_faithful {l : Label} {t : State} (h : Faithful s l) (hst : step s l = some t) :
    Inv t.rows t.displaced := fenced_iff.mp (h t hst).2.2

end Calls

/-- The claims are fenced in every state of a run just when each claim of it is fresh. -/
theorem durable_claims_fenced (clock : Int) (calls : List Label) :
    Run.Meets step Faithful (start clock) calls ↔ Run.Meets step Fresh (start clock) calls := by
  have hstart : Inv (start clock).rows (start clock).displaced := by
    intro run c _
    exact List.not_mem_nil
  constructor
  · exact Run.meets_inv (I := fun s => Inv s.rows s.displaced)
      (fun s l t _ h hst => inv_of_faithful h hst) (fun s l hi h => (faithful_iff hi l).mp h) hstart
  · exact Run.meets_inv (I := fun s => Inv s.rows s.displaced)
      (fun s l t hi h hst => inv_of_faithful ((faithful_iff hi l).mpr h) hst)
      (fun s l hi h => (faithful_iff hi l).mpr h) hstart

/-- The second worker takes over a claim that has expired without a lease of its own, and keeps that of
    the first, which then releases it. -/
def leftoverLease : List Label :=
  [.claim 0 "run-1" "worker-1" 30 "" (some "lease-1"),
    .claim (60 * second) "run-1" "worker-2" 30 "" none]

/-- The claim of the second worker is gone, released under the lease of the first. -/
theorem durable_claims_leftover_lease :
    ∃ s, Run.run step (start 0) leftoverLease = some s ∧ ¬ Run.Meets step Faithful (start 0) leftoverLease ∧
      (∃ c, s.rows.get? ⟨"run-1", by decide, by decide⟩ = some c ∧
        c.workerId.text = "worker-2" ∧ c.leaseId.map Token.text = some "lease-1") ∧
      (releaseClaim s.rows "run-1" (some "lease-1")).2.get? ⟨"run-1", by decide, by decide⟩ = none := by
  refine ⟨_, rfl, ?_, ?_, ?_⟩
  · rw [durable_claims_fenced]
    with_unfolding_all decide
  · with_unfolding_all decide
  · with_unfolding_all decide

end Empyralis.Server.DurableClaims
