import Empyralis.Server.Tokens
import Mathlib.Data.List.Sort

/-! Rows of `agent_scheduler_wake_requests` and what is done with one: the claim of due rows, the counts
    that the ceilings read, and `update_agent_scheduler_wake_request_status`. -/

namespace Empyralis.Server.Wakes
open Text (strip)

inductive WakeStatus where
  | pending
  | claimed
  | retryScheduled
  | executed
  | completed
  | failed
  | failedPermanent
  | denied
  | cancelled
  | skipped
  deriving DecidableEq, Repr

/-- Not in `NON_TERMINAL_WAKE_STATUSES`. -/
def WakeStatus.terminal : WakeStatus → Bool
  | .pending | .claimed | .retryScheduled => false
  | _ => true

/-- The statuses at which a row gets its `executed_at`. -/
def WakeStatus.executes : WakeStatus → Bool
  | .executed | .completed | .failed | .skipped | .denied => true
  | _ => false

structure WakeRequest where
  id : Token
  triggerKind : String
  reason : String
  summary : String
  payload : Fields
  metadata : Fields
  status : WakeStatus
  denialReason : Option String
  dueAt : Int
  createdAt : Int
  claimedAt : Option Int
  executedAt : Option Int

/-- How a column of JSON comes back from the driver, the text that `->>` gives of a value that is not a
    text, `json.loads`, and the text of a list or a dictionary. -/
structure Env where
  lowercase : Lowercase
  repr : Value → String
  driver : Fields → Value
  jsonText : Value → String
  loads : String → Option Value

variable (env : Env)

/-- The driver gives such a column as text. -/
def Env.GivesText : Prop := ∀ fields, ∃ text, env.driver fields = .string text

/-- `_coerce_dict` -/
def coerceDict : Value → Fields
  | .object fields => fields
  | _ => []

/-- A row as it is read. -/
structure Item where
  id : Token
  triggerKind : String
  reason : String
  summary : String
  payload : Value
  metadata : Value

def WakeRequest.read (row : WakeRequest) : Item where
  id := row.id
  triggerKind := row.triggerKind
  reason := row.reason
  summary := row.summary
  payload := env.driver row.payload
  metadata := env.driver row.metadata

/-- `str(payload.get(key) or "").strip()` -/
def text (fields : Fields) (key : String) : String := (fields.get key).token env.repr

/-! ### Counting and claiming -/

/-- `metadata->>key` -/
def arrow (metadata : Fields) (key : String) : Option String :=
  match metadata.lookup key with
  | none | some .null => none
  | some (.string value) => some value
  | some value => some (env.jsonText value)

/-- The rows that `count_agent_scheduler_wake_requests_since` counts: not denied, and with these keys in their
    metadata. -/
def countedSince (since : Int) (triggerKind : Option String) (keys : List (String × String)) (row : WakeRequest) :
    Bool :=
  since ≤ row.createdAt && row.status ≠ .denied && triggerKind.all (· = row.triggerKind) &&
    keys.all fun key => arrow env row.metadata key.1 = some key.2

/-- `count_agent_scheduler_wake_requests_since` -/
def countWakeRequestsSince (rows : List WakeRequest) (since : Int) (triggerKind : Option String)
    (keys : List (String × String)) : Nat :=
  rows.countP (countedSince env since triggerKind keys)

/-- What the claim makes of a row that it takes. -/
def claimRow (now : Int) (row : WakeRequest) : WakeRequest :=
  { row with status := .claimed, claimedAt := some now }

def due (dueBefore : Int) (row : WakeRequest) : Bool := row.status = .pending && row.dueAt ≤ dueBefore

/-! ### The status of a row -/

/-- The arguments of an update. -/
structure StatusUpdate where
  status : WakeStatus
  denialReason : Option String
  patch : Fields

/-- The `UPDATE`: the metadata and `executed_at` are those of the row as it was selected. -/
def updateRow (now : Int) (existing : WakeRequest) (u : StatusUpdate) (row : WakeRequest) : WakeRequest :=
  { row with
    status := u.status
    denialReason := (u.denialReason.map strip).filter (· ≠ "")
    executedAt := if u.status.executes then some now else existing.executedAt
    metadata := (coerceDict (env.driver existing.metadata)).merge u.patch }

/-! ### Claims and finalizations -/

/-- The order in which due rows are claimed. -/
def claimsBefore (a b : WakeRequest) : Prop := a.dueAt < b.dueAt ∨ (a.dueAt = b.dueAt ∧ a.createdAt ≤ b.createdAt)

instance : DecidableRel claimsBefore := fun a b =>
  inferInstanceAs (Decidable (a.dueAt < b.dueAt ∨ (a.dueAt = b.dueAt ∧ a.createdAt ≤ b.createdAt)))

def candidates (rows : List WakeRequest) (dueBefore : Int) (limit : Nat) : List WakeRequest :=
  ((rows.filter (due dueBefore)).insertionSort claimsBefore).take (max 1 limit)

/-- `claim_due_agent_scheduler_wake_requests` -/
def claimDueWakeRequests (rows : List WakeRequest) (now dueBefore : Int) (limit : Nat) : List WakeRequest :=
  rows.map fun row => if (candidates rows dueBefore limit).any (·.id = row.id) then claimRow now row else row

/-- What `_execute_heartbeat_run` finalizes a wake with. -/
inductive Outcome where
  | executed (runId : Value)
  | failed

def Outcome.update : Outcome → StatusUpdate
  | .executed runId => ⟨.executed, none, [("run_id", runId)]⟩
  | .failed => ⟨.failed, some "execution_failed", []⟩

def finalizeRow (now : Int) (id : Token) (outcome : Outcome) (row : WakeRequest) : WakeRequest :=
  if row.id = id then updateRow env now row outcome.update row else row

/-- `finalize_wake_requests`, one wake after another -/
def finalizeWakeRequests (rows : List WakeRequest) (now : Int) (ids : List Token) (outcome : Outcome) :
    List WakeRequest :=
  ids.foldl (fun rows id => rows.map (finalizeRow env now id outcome)) rows

end Empyralis.Server.Wakes
