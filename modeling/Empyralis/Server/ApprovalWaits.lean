import Empyralis.Server.Approvals

/-! `wait_for_human_response`: a run asks for an approval and waits until its decision comes on the input
    queue or the time is over. A resolver records a resolution before it puts the decision on the queue,
    and the waiter records how the wait has ended, so both write the record, each statement on its own. A
    restart takes away the queue and the wait; the run goes on from the confirmation saved last. -/

namespace Empyralis.Server.ApprovalWaits
open Kernel RunState Approvals
open Text (strip)

/-- The run that waits, with `approval_correlation_id_fn`. -/
structure Host where
  env : Env
  run : Token
  correlationId : Token → String

def Host.key (h : Host) (approval : Token) : Key := ⟨h.run, approval⟩

variable (h : Host)

/-! ### Decisions -/

/-- `APPROVAL_APPROVE_TOKENS` -/
def approveTokens : List String := ["proceed", "approve", "yes", "y", "continue", "ok"]

/-- `APPROVAL_REJECT_TOKENS` -/
def rejectTokens : List String := ["hold", "reject", "no", "n", "abort", "stop", "cancel"]

/-- `APPROVAL_ESCALATE_TOKENS` -/
def escalateTokens : List String := ["escalate", "escalated"]

/-- The decision that a wait returns, and its note. -/
structure Answer where
  text : String
  note : String
  deriving DecidableEq

namespace Answer

/-- An answer that approves. -/
def approved (a : Answer) : Bool := approveTokens.contains a.text

/-- An answer that passes the question on. -/
def escalated (a : Answer) : Bool := escalateTokens.contains a.text

/-- A decision of no other kind is a rejection. -/
def rejected (a : Answer) : Bool :=
  rejectTokens.contains a.text || (!a.approved && !a.escalated)

/-- What is recorded of an answer. -/
def resolution (a : Answer) : String :=
  if a.approved then "approved" else if a.escalated then "escalated" else "rejected"

end Answer

/-- `str(item.get(key) or "").strip()` -/
def field (item : Fields) (key : String) : String := (item.get key).token h.env.repr

/-- The approval that an item of the input queue names. -/
def incoming (item : Fields) : Option Token := Token.read (field h item "approval_id")

/-- The answer that an item of the queue has. -/
def answerOf (item : Fields) : Answer :=
  ⟨h.env.lowercase.lower (field h item "decision"), field h item "note"⟩

/-! ### The confirmation of a run -/

/-- `pending_confirmation`. A run without one reads every field as blank. -/
structure Confirmation where
  approval : Token
  status : String
  prompt : String
  decision : String := ""
  note : String := ""

/-- The decision of a confirmation, as it is compared with the tokens. -/
def Confirmation.text (p : Confirmation) : String := h.env.lowercase.lower (strip p.decision)

/-- Statuses of a record that has been decided on. -/
def durableStatuses : List String :=
  ["decision_submitted", "resolved", "approved", "rejected", "expired", "cancelled", "canceled",
    "dismissed"]

/-- `durable_status` -/
def durableStatus (row : Approval) : String := h.env.lowercase.token (statusToken h.env row.status)

/-- `durable_resolution` -/
def durableResolution (row : Approval) : String :=
  let resolution := Value.string (h.env.lowercase.token (row.resolution.getD ""))
  let payload := row.decisionPayload
  h.env.lowercase.lower
    ((either (either resolution (payload.get "resolution")) (payload.get "decision")).token h.env.repr)

/-- The decision that the record gives a confirmation without one. -/
def recordedDecision (row : Approval) : Value :=
  let payload := row.decisionPayload
  either (either (payload.get "decision") (payload.get "resolution")) (.string (durableResolution h row))

/-- `hydrated_pending` -/
def Confirmation.hydrate (p : Confirmation) (row : Approval) : Confirmation :=
  if durableStatuses.contains (durableStatus h row) ∧ durableResolution h row ≠ "" then
    { p with
      status := if durableStatus h row = "decision_submitted" then "resolved" else durableStatus h row
      decision := (either (.string p.decision) (recordedDecision h row)).token h.env.repr
      note := (either (.string p.note) (row.decisionPayload.get "note")).token h.env.repr }
  else p

/-- The confirmation of a wait that nobody answered. -/
def Confirmation.expire (p : Confirmation) : Confirmation := { p with status := "expired" }

/-- The confirmation of a wait that was answered. -/
def Confirmation.resolve (text : String) (p : Confirmation) : Confirmation :=
  { p with status := "resolved", decision := text }

/-- The answer of a confirmation that was resolved before, for the same prompt or for any. -/
def Confirmation.resumed (p : Confirmation) (prompt : String) : Option Answer :=
  if h.env.lowercase.token p.status = "resolved" ∧ strip p.decision ≠ "" ∧
      (strip p.prompt = "" ∨ strip p.prompt = strip prompt) then
    some ⟨p.text h, strip p.note⟩
  else none

/-! ### How a wait ends -/

/-- What the waiter records: that the time is over, the answer of an item with the note of the record, or
    the answer of an earlier confirmation. -/
inductive Purpose where
  | expire
  | settle (answer : Answer) (note : String)
  | resume (answer : Answer)

namespace Purpose

/-- The answer that is being recorded. -/
def answer : Purpose → Option Answer
  | .expire => none
  | .settle answer _ | .resume answer => some answer

def approves (p : Purpose) : Bool := p.answer.any Answer.approved

/-- The resolution that is being recorded. -/
def resolution : Purpose → String
  | .expire => "expired"
  | .settle answer _ => answer.resolution
  | .resume answer =>
    if answer.approved then "approved" else if answer.escalated then "escalated"
    else if answer.text = "expired" then "expired" else "rejected"

/-- The call of `record_approval_resolution`. -/
def call (approval : Token) (p : Purpose) : Resolution where
  runId := h.run.text
  approvalId := approval.text
  resolution := p.resolution
  actor := match p with
    | .expire => "system"
    | _ => "runtime"
  traceId := h.correlationId approval
  note := some (match p with
    | .expire => "Confirmation timeout reached while waiting for user decision."
    | .settle _ note => note
    | .resume answer => answer.note)

end Purpose

/-- The waiter records the item as its note where it has none. -/
def settles (item : Fields) : Purpose :=
  let answer := answerOf h item
  .settle answer (if answer.note = "" then (Value.object item).str h.env.repr else answer.note)

/-- What a wait ends with. -/
inductive Outcome where
  | answered (answer : Answer)
  | timedOut
  | raised (e : Error)
  deriving DecidableEq

def Outcome.answer : Outcome → Option Answer
  | .answered answer => some answer
  | _ => none

/-- A wait that has ended. -/
structure Ended where
  approval : Token
  outcome : Outcome

/-- `RunStatePersistenceError` and the errors under it -/
def isPersistence : Error → Bool
  | .persistence _ | .versionConflict _ => true
  | _ => false

/-- What comes of an error of the call that records the end. -/
def Purpose.raise (p : Purpose) (e : Error) : Outcome :=
  match p with
  | .resume answer => if isPersistence e then .answered answer else .raised e
  | _ => .raised e

/-- What the wait ends with once the record is made. -/
def Purpose.outcome : Purpose → Outcome
  | .expire => .timedOut
  | .settle answer _ | .resume answer => .answered answer

/-! ### Runs -/

/-- How far the wait is. -/
inductive Waiter where
  | idle
  | asking (prompt : String)
  | waiting (approval : Token)
  | recording (approval : Token) (purpose : Purpose) (stage : Stage)

/-- The records of the run's approvals, the confirmation in memory and the one that was saved, the input
    queue, the decisions that are recorded but not on the queue yet, the approvals that were asked for,
    and the wait. Of what was, every item that was put on the queue and every record that a wait read
    are kept. -/
structure State where
  rows : Rows
  pending : Option Confirmation
  saved : Option Confirmation
  queue : List Fields
  resolving : List Fields
  asked : List Token
  waiter : Waiter
  put : List Fields
  read : List (Token × Approval)
  ended : Option Ended

/-- Nothing is asked, recorded or queued. -/
def start : State := ⟨Table.empty, none, none, [], [], [], .idle, [], [], none⟩

/-- One step of the wait, of its callers or of the store. -/
inductive Label where
  | ensure (approval : Token)
  | resolve (now : Int) (d : Decision) (item : Fields)
  | put (i : Nat)
  | stray (item : Fields)
  | wait (prompt : String)
  | ask (now : Int) (approval : Token) (r : Request)
  | deadline
  | take
  | proceed (now : Int)
  | save
  | restart

namespace State

/-- The wait is over. -/
def finish (s : State) (approval : Token) (outcome : Outcome) : State :=
  { s with waiter := .idle, ended := some ⟨approval, outcome⟩ }

/-- An answer is returned with no confirmation left. -/
def conclude (s : State) (approval : Token) (outcome : Outcome) : State :=
  { s with pending := if outcome.answer.isSome then none else s.pending }.finish approval outcome

/-- The call that records the end comes to the gate. -/
def record (s : State) (approval : Token) (p : Purpose) : State :=
  match recordGate h.env (h.key approval) (p.call h approval) with
  | .ok () => { s with waiter := .recording approval p .update }
  | .error e => s.conclude approval (p.raise e)

/-- One statement of that call has come this far. -/
def advance (s : State) (approval : Token) (p : Purpose) : Progress → State
  | .next stage => { s with waiter := .recording approval p stage }
  | .returned _ => s.conclude approval p.outcome
  | .raised e => s.conclude approval (p.raise e)

/-- The record of the pending confirmation, as `sync_get_approval_record` finds it. -/
def durable (s : State) : Option (Confirmation × Approval) :=
  s.pending.bind fun p => (s.rows.get? (h.key p.approval)).map fun row => (p, row)

/-- The pending confirmation after its record was read. -/
def hydrated (s : State) : State :=
  match s.durable h with
  | some (p, row) =>
    { s with pending := some (p.hydrate h row), read := (p.approval, row) :: s.read }
  | none => s

/-- The confirmation that a restart finds answered. -/
def resumed (s : State) (prompt : String) : Option (Token × Answer) :=
  s.pending.bind fun p => (p.resumed h prompt).map fun answer => (p.approval, answer)

/-- The first half of `wait_for_human_response`. -/
def wait (s : State) (prompt : String) : State :=
  let s := s.hydrated h
  match s.resumed h prompt with
  | some (approval, answer) => s.record h approval (.resume answer)
  | none => { s with waiter := .asking prompt }

/-- `begin_run_pending_confirmation`. That the request could not be stored is no reason not to wait. -/
def ask (s : State) (prompt : String) (now : Int) (approval : Token) (r : Request) : State :=
  let (result, rows) := createOrUpdateApprovalRequest h.env now s.rows r
  let s := { s with rows, asked := approval :: s.asked }
  let waits :=
    { s with pending := some { approval, status := "waiting", prompt }, waiter := .waiting approval }
  match result with
  | .ok _ => waits
  | .error e => if isPersistence e then waits else s.finish approval (.raised e)

/-- `remaining <= 0` -/
def deadline (s : State) (approval : Token) : State :=
  { s with pending := s.pending.map Confirmation.expire }.record h approval .expire

/-- An item that names another approval. -/
def ignores (approval : Token) (item : Fields) : Bool := (incoming h item).any (· ≠ approval)

/-- An item is taken from the queue. -/
def take (s : State) (approval : Token) (item : Fields) : State :=
  if ignores h approval item then s
  else
    { s with pending := s.pending.map (Confirmation.resolve (answerOf h item).text) }.record h approval
      (settles h item)

end State

/-- A resolver that was returned the record puts the decision on the queue later. -/
def resolving (item : Fields) (result : Except Error (Option Approval)) (items : List Fields) :
    List Fields :=
  if (result.toOption.bind id).isSome then items ++ [item] else items

/-- One step of the waiter, of a resolver, or of what is around them. An item for an approval that the run
    does not know may be on the queue at any time. -/
def act (s : State) : Label → Option State
  | .ensure approval => some { s with rows := ensureRunApprovalTable h.env (h.key approval) s.rows }
  | .resolve now d item =>
    if (incoming h item).isSome ∧ Key.read d.runId d.approvalId = (incoming h item).map h.key then
      let (result, rows) := resolveApprovalIfPending h.env now s.rows d
      some { s with rows, resolving := resolving item result s.resolving }
    else none
  | .put i =>
    s.resolving[i]?.map fun item =>
      { s with resolving := s.resolving.eraseIdx i, queue := s.queue ++ [item], put := item :: s.put }
  | .stray item =>
    if (incoming h item).any fun approval => !s.asked.contains approval then
      some { s with queue := s.queue ++ [item], put := item :: s.put }
    else none
  | .wait prompt =>
    match s.waiter with
    | .idle => some (s.wait h prompt)
    | _ => none
  | .ask now approval r =>
    match s.waiter with
    | .asking prompt =>
      if !s.asked.contains approval ∧ Key.read r.runId r.approvalId = some (h.key approval) ∧
          ∀ item ∈ s.put, incoming h item ≠ some approval then
        some (s.ask h prompt now approval r)
      else none
    | _ => none
  | .deadline =>
    match s.waiter with
    | .waiting approval => some (s.deadline h approval)
    | _ => none
  | .take =>
    match s.waiter, s.queue with
    | .waiting approval, item :: queue => some ({ s with queue }.take h approval item)
    | _, _ => none
  | .proceed now =>
    match s.waiter with
    | .recording approval p stage =>
      let (progress, rows) :=
        recordApprovalResolution h.env (h.key approval) now s.rows (p.call h approval) stage
      some ({ s with rows }.advance approval p progress)
    | _ => none
  | .save => some { s with saved := s.pending }
  | .restart => some { s with pending := s.saved, queue := [], waiter := .idle }

def step (s : State) (l : Label) : Option State := act h { s with ended := none } l

/-! ### What a wait owes its record -/

/-- The durable record of the approval is approved. -/
def Approved (s : State) (approval : Token) : Prop :=
  (s.rows.get? (h.key approval)).bind Approval.resolution = some "approved"

/-- A decision was put for the approval, or a wait has read it from the record of the approval. -/
def Sourced (s : State) (approval : Token) (text : String) : Prop :=
  (∃ item ∈ s.put, State.ignores h approval item = false ∧ (answerOf h item).text = text) ∨
    ∃ entry ∈ s.read, entry.1 = approval ∧
      h.env.lowercase.lower ((recordedDecision h entry.2).token h.env.repr) = text

/-- A wait that has ended obeys the record. -/
structure Obeyed (s : State) (e : Ended) : Prop where
  approved : Approved h s e.approval → e.outcome.answer.any Answer.approved = true
  expired : e.outcome = .timedOut →
    (s.rows.get? (h.key e.approval)).map Approval.status = some "expired"
  sourced : ∀ answer ∈ e.outcome.answer, Sourced h s e.approval answer.text

/-- What is claimed of one step. -/
def Obeys (s : State) (l : Label) : Prop := ∀ t ∈ step h s l, ∀ e ∈ t.ended, Obeyed h t e

instance (s : State) (approval : Token) : Decidable (Approved h s approval) :=
  inferInstanceAs (Decidable (_ = _))

instance (s : State) (approval : Token) (text : String) : Decidable (Sourced h s approval text) :=
  inferInstanceAs (Decidable (_ ∨ _))

instance (s : State) (e : Ended) : Decidable (Obeyed h s e) :=
  decidable_of_iff
    ((Approved h s e.approval → e.outcome.answer.any Answer.approved = true) ∧
      (e.outcome = .timedOut →
        (s.rows.get? (h.key e.approval)).map Approval.status = some "expired") ∧
      ∀ answer ∈ e.outcome.answer, Sourced h s e.approval answer.text)
    ⟨fun hall => ⟨hall.1, hall.2.1, hall.2.2⟩, fun ho => ⟨ho.approved, ho.expired, ho.sourced⟩⟩

instance (s : State) (l : Label) : Decidable (Obeys h s l) :=
  inferInstanceAs (Decidable (∀ t ∈ step h s l, ∀ e ∈ t.ended, Obeyed h t e))

/-- The kernel lets the end of the wait be recorded, if the record is approved. -/
def Admitted (s : State) (approval : Token) (p : Purpose) : Prop :=
  Approved h s approval → recordGate h.env (h.key approval) (p.call h approval) = .ok ()

/-- The waiter comes to an approved record only with a decision that approves, and then it is let write. -/
def Heeds (s : State) : Label → Prop
  | .wait prompt => ∀ approval answer, s.waiter = .idle →
    (s.hydrated h).resumed h prompt = some (approval, answer) → Admitted h s approval (.resume answer)
  | .deadline => ∀ approval, s.waiter = .waiting approval → Admitted h s approval .expire
  | .take => ∀ approval item queue, s.waiter = .waiting approval → s.queue = item :: queue →
    State.ignores h approval item = false → Admitted h s approval (settles h item)
  | .proceed _ => ∀ approval p, s.waiter = .recording approval p .lookup → Approved h s approval →
    p.approves = true
  | _ => True

end Empyralis.Server.ApprovalWaits
