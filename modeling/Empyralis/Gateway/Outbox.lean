import Empyralis.Lib.Text
import Mathlib.Data.List.Sort

/-! The gateway's outbox: the requests and events it still owes the cloud, one record per request id,
    kept as a JSON list in `outbox.json`.

    Each operation reads the whole list, computes the next one and writes it back; here are the
    computations. `written` is what an operation hands to `writeJson`, `none` when it writes nothing.
    Timestamps are milliseconds since the epoch, which is the precision of the ISO strings the
    outbox writes and parses; the payload is opaque to the outbox, so its type is a parameter. -/

namespace Empyralis.Gateway.Outbox

/-- How far an item is. -/
inductive Status where
  | pending | acknowledged | failed | abandoned | uncertain
  deriving DecidableEq

/-- `GatewayOutboxItem`. -/
structure Item (π : Type*) where
  id : String
  requestId : String
  messageType : String
  status : Status
  replayable : Bool
  retryCount : Nat
  createdAt : Int
  updatedAt : Int
  lastAttemptAt : Int
  lastError : Option String
  payload : π
  deriving DecidableEq

def maxOutboxItems : Nat := 10000
def maxRetries : Nat := 5
def staleAgeMs : Int := 24 * 60 * 60 * 1000

/-- The statuses that no failure report overwrites and that are never replayed. -/
def Status.isTerminal : Status → Bool
  | .acknowledged | .abandoned | .uncertain => true
  | .pending | .failed => false

variable {π : Type*}

/-- `items.map(item => item.requestId === requestId ? f(item) : item)`. -/
def updateItem (requestId : String) (f : Item π → Item π) (items : List (Item π)) : List (Item π) :=
  items.map fun item => if item.requestId = requestId then f item else item

/-- `get`: a blank request id finds nothing. -/
def get (requestId : String) (items : List (Item π)) : Option (Item π) :=
  let token := Text.trim Text.jsSpace requestId
  if token = "" then none else items.find? fun item => item.requestId = token

/-- The item of a message that is queued. -/
def newItem (requestId messageType : String) (payload : π) (replayable : Option Bool) (id : String)
    (now : Int) : Item π :=
  { id, requestId, messageType, status := .pending, replayable := replayable != some false
    retryCount := 0, createdAt := now, updatedAt := now, lastAttemptAt := now, lastError := none
    payload }

/-- The item returned, with the list to write when it is a new one; an error when the outbox is
    full. -/
def enqueue (requestId messageType : String) (payload : π) (replayable : Option Bool) (id : String)
    (now : Int) (items : List (Item π)) : Except String (Item π × Option (List (Item π))) :=
  match items.find? fun item => item.requestId = requestId with
  | some existing => .ok (existing, none)
  | none =>
    if maxOutboxItems ≤ items.length then
      .error s!"Outbox is full (max {maxOutboxItems} items). Cannot enqueue request \"{requestId}\"."
    else
      let item := newItem requestId messageType payload replayable id now
      .ok (item, some (items ++ [item]))

/-- An item that is tried once more. -/
def recordAttempt (now : Int) (item : Item π) : Item π :=
  { item with status := .pending, lastAttemptAt := now, updatedAt := now }

/-- `markAttemptStarted` -/
def markAttemptStarted (requestId : String) (now : Int) (items : List (Item π)) : List (Item π) :=
  updateItem requestId (recordAttempt now) items

/-- An item that the other side has. -/
def recordAcknowledged (now : Int) (item : Item π) : Item π :=
  { item with status := .acknowledged, updatedAt := now }

/-- `acknowledge` -/
def acknowledge (requestId : String) (now : Int) (items : List (Item π)) : List (Item π) :=
  updateItem requestId (recordAcknowledged now) items

/-- `String(errorMessage || "").trim() || "Gateway request failed."` -/
def failureText (errorMessage : String) : String :=
  let text := Text.trim Text.jsSpace errorMessage
  if text = "" then "Gateway request failed." else text

/-- The record after a failure report; a terminal one is left alone. -/
def recordFailure (errorMessage : String) (nextStatus : Status) (keepReplayablePending : Bool)
    (now : Int) (item : Item π) : Item π :=
  if item.status.isTerminal then item
  else
    let newRetryCount := item.retryCount + 1
    let tooManyRetries := keepReplayablePending && decide (maxRetries ≤ newRetryCount)
    { item with
      status := if tooManyRetries then .abandoned
        else if keepReplayablePending then .pending else nextStatus
      retryCount := newRetryCount
      lastAttemptAt := now
      lastError := some (failureText errorMessage)
      updatedAt := now }

/-- `updateFailureState` -/
def updateFailureState (requestId errorMessage : String) (nextStatus : Status)
    (keepReplayablePending : Bool) (now : Int) (items : List (Item π)) : List (Item π) :=
  updateItem requestId (recordFailure errorMessage nextStatus keepReplayablePending now) items

/-- `markAttemptFailed` -/
def markAttemptFailed (requestId errorMessage : String) (now : Int) (items : List (Item π)) :
    List (Item π) :=
  updateFailureState requestId errorMessage .failed false now items

/-- `markUncertain` -/
def markUncertain (requestId errorMessage : String) (now : Int) (items : List (Item π)) :
    List (Item π) :=
  updateFailureState requestId errorMessage .uncertain false now items

/-- `markForReplay`: the item stays pending. -/
def markForReplay (requestId errorMessage : String) (now : Int) (items : List (Item π)) :
    List (Item π) :=
  updateFailureState requestId errorMessage .pending true now items

/-- The items to replay, oldest first; items of equal age keep their order. -/
def listReplayablePending (items : List (Item π)) : List (Item π) :=
  (items.filter fun item => item.replayable && !item.status.isTerminal).insertionSort
    fun left right => left.createdAt ≤ right.createdAt

/-- Terminal items go after a time, others stay. -/
def keptByPrune (cutoff : Int) (item : Item π) : Bool :=
  !item.status.isTerminal || decide (cutoff < item.updatedAt)

/-- The list without stale terminal items, written only when something is removed. -/
def prune (now : Int) (items : List (Item π)) : Option (List (Item π)) :=
  let filtered := items.filter (keptByPrune (now - staleAgeMs))
  if items.length - filtered.length > 0 then some filtered else none

/-! ### Operations as data -/

/-- An operation on the stored list. -/
inductive Op (π : Type*) where
  | enqueue (requestId messageType : String) (payload : π) (replayable : Option Bool) (id : String)
      (now : Int)
  | markAttemptStarted (requestId : String) (now : Int)
  | acknowledge (requestId : String) (now : Int)
  | markAttemptFailed (requestId errorMessage : String) (now : Int)
  | markUncertain (requestId errorMessage : String) (now : Int)
  | markForReplay (requestId errorMessage : String) (now : Int)
  | prune (now : Int)
  deriving DecidableEq

/-- The list an operation hands to `writeJson` after it has read `items`. -/
def written (op : Op π) (items : List (Item π)) : Option (List (Item π)) :=
  match op with
  | .enqueue requestId messageType payload replayable id now =>
    match enqueue requestId messageType payload replayable id now items with
    | .ok (_, next) => next
    | .error _ => none
  | .markAttemptStarted requestId now => some (markAttemptStarted requestId now items)
  | .acknowledge requestId now => some (acknowledge requestId now items)
  | .markAttemptFailed requestId e now => some (markAttemptFailed requestId e now items)
  | .markUncertain requestId e now => some (markUncertain requestId e now items)
  | .markForReplay requestId e now => some (markForReplay requestId e now items)
  | .prune now => prune now items

/-- An operation that runs from its read to its write without another in between. -/
def perform (items : List (Item π)) (op : Op π) : List (Item π) := (written op items).getD items

/-! ### What one operation does to the list -/

/-- The record an operation rewrites, and how; `none` for the operations that add or remove. -/
def Op.update : Op π → Option (String × (Item π → Item π))
  | .markAttemptStarted r now => some (r, recordAttempt now)
  | .acknowledge r now => some (r, recordAcknowledged now)
  | .markAttemptFailed r e now => some (r, recordFailure e .failed false now)
  | .markUncertain r e now => some (r, recordFailure e .uncertain false now)
  | .markForReplay r e now => some (r, recordFailure e .pending true now)
  | .enqueue .. | .prune _ => none

theorem perform_update {op : Op π} {r : String} {f : Item π → Item π} (h : op.update = some (r, f))
    (items : List (Item π)) : perform items op = updateItem r f items := by
  cases op <;> simp only [Op.update, Option.some.injEq, Prod.mk.injEq, reduceCtorEq] at h <;>
    obtain ⟨rfl, rfl⟩ := h <;> rfl

theorem perform_prune (items : List (Item π)) (now : Int) :
    perform items (.prune now) = items.filter (keptByPrune (now - staleAgeMs)) := by
  simp only [perform, written, prune]
  split
  · rfl
  · rename_i h
    have hlen : (items.filter (keptByPrune (now - staleAgeMs))).length = items.length := by
      have := List.length_filter_le (keptByPrune (now - staleAgeMs)) items
      omega
    exact (List.filter_eq_self.mpr (List.length_filter_eq_length_iff.mp hlen)).symm

theorem perform_enqueue (items : List (Item π)) (r mt : String) (p : π) (rep : Option Bool)
    (id : String) (now : Int) :
    perform items (.enqueue r mt p rep id now) = items ∨
      (∀ item ∈ items, item.requestId ≠ r) ∧ items.length < maxOutboxItems ∧
        perform items (.enqueue r mt p rep id now) = items ++ [newItem r mt p rep id now] := by
  simp only [perform, written, enqueue]
  cases hf : items.find? fun item => item.requestId = r with
  | some existing => exact Or.inl rfl
  | none =>
    by_cases hfull : maxOutboxItems ≤ items.length
    · exact Or.inl (by simp [hfull])
    · refine Or.inr ⟨?_, by omega, by simp [hfull]⟩
      simpa using hf

theorem enqueue_added {items next : List (Item π)} {r mt id : String} {p : π} {rep : Option Bool}
    {now : Int} {item : Item π} (h : enqueue r mt p rep id now items = .ok (item, some next)) :
    (∀ old ∈ items, old.requestId ≠ r) ∧ next = items ++ [newItem r mt p rep id now] := by
  unfold enqueue at h
  split at h <;> rename_i hfind
  · simp at h
  · split at h
    · simp at h
    · simp only [Except.ok.injEq, Prod.mk.injEq, Option.some.injEq] at h
      exact ⟨by simpa using hfind, h.2.symm⟩

/-- All that an operation can do: nothing, add one new record, rewrite the record of one request
    id, or drop stale terminal records. -/
theorem perform_cases (items : List (Item π)) (op : Op π) :
    perform items op = items ∨
    (∃ r mt p rep id now, op = .enqueue r mt p rep id now ∧ (∀ item ∈ items, item.requestId ≠ r) ∧
      items.length < maxOutboxItems ∧ perform items op = items ++ [newItem r mt p rep id now]) ∨
    (∃ r f, op.update = some (r, f) ∧ perform items op = updateItem r f items) ∨
    (∃ now, op = .prune now ∧
      perform items op = items.filter (keptByPrune (now - staleAgeMs))) := by
  cases hu : op.update with
  | some rf => exact Or.inr (Or.inr (Or.inl ⟨rf.1, rf.2, rfl, perform_update hu items⟩))
  | none =>
    cases op with
    | enqueue r mt p rep id now =>
      rcases perform_enqueue items r mt p rep id now with h | ⟨hr, hlen, h⟩
      · exact Or.inl h
      · exact Or.inr (Or.inl ⟨r, mt, p, rep, id, now, rfl, hr, hlen, h⟩)
    | prune now => exact Or.inr (Or.inr (Or.inr ⟨now, rfl, perform_prune items now⟩))
    | _ => simp [Op.update] at hu

/-- The fields no operation ever rewrites. -/
def SameRecord (a b : Item π) : Prop :=
  a.id = b.id ∧ a.requestId = b.requestId ∧ a.messageType = b.messageType ∧
    a.replayable = b.replayable ∧ a.createdAt = b.createdAt ∧ a.payload = b.payload

theorem recordFailure_same (e : String) (st : Status) (keep : Bool) (now : Int) (item : Item π) :
    SameRecord (recordFailure e st keep now item) item := by
  unfold recordFailure
  split <;> exact ⟨rfl, rfl, rfl, rfl, rfl, rfl⟩

theorem update_same {op : Op π} {r : String} {f : Item π → Item π} (h : op.update = some (r, f))
    (item : Item π) : SameRecord (f item) item := by
  cases op <;> simp only [Op.update, Option.some.injEq, Prod.mk.injEq, reduceCtorEq] at h <;>
    obtain ⟨rfl, rfl⟩ := h
  · exact ⟨rfl, rfl, rfl, rfl, rfl, rfl⟩
  · exact ⟨rfl, rfl, rfl, rfl, rfl, rfl⟩
  all_goals exact recordFailure_same ..

theorem mem_updateItem {r : String} {f : Item π → Item π} {items : List (Item π)} {item : Item π} :
    item ∈ updateItem r f items ↔
      (item ∈ items ∧ item.requestId ≠ r) ∨ ∃ old ∈ items, old.requestId = r ∧ item = f old := by
  rw [updateItem, List.mem_map]
  constructor
  · rintro ⟨old, hold, rfl⟩
    by_cases hr : old.requestId = r
    · exact Or.inr ⟨old, hold, hr, by simp [hr]⟩
    · exact Or.inl (by simpa [hr] using hold)
  · rintro (⟨hmem, hr⟩ | ⟨old, hold, hr, rfl⟩)
    · exact ⟨item, hmem, by simp [hr]⟩
    · exact ⟨old, hold, by simp [hr]⟩

/-- An item found after an operation is the one the operation added, or it is an old item, maybe
    rewritten. -/
theorem mem_perform {items : List (Item π)} {op : Op π} {item : Item π} (h : item ∈ perform items op) :
    item ∈ items ∨
    (∃ r mt p rep id now, op = .enqueue r mt p rep id now ∧ (∀ old ∈ items, old.requestId ≠ r) ∧
      item = newItem r mt p rep id now) ∨
    (∃ r f, op.update = some (r, f) ∧ ∃ old ∈ items, old.requestId = r ∧ item = f old) := by
  rcases perform_cases items op with hs | ⟨r, mt, p, rep, id, now, hop, hr, _, hs⟩ |
    ⟨r, f, hu, hs⟩ | ⟨now, _, hs⟩ <;> rw [hs] at h
  · exact Or.inl h
  · rcases List.mem_append.mp h with h | h
    · exact Or.inl h
    · exact Or.inr (Or.inl ⟨r, mt, p, rep, id, now, hop, hr, List.mem_singleton.mp h⟩)
  · rcases mem_updateItem.mp h with ⟨h, _⟩ | ⟨old, hold, hr, rfl⟩
    · exact Or.inl h
    · exact Or.inr (Or.inr ⟨r, f, hu, old, hold, hr, rfl⟩)
  · exact Or.inl (List.mem_filter.mp h).1

theorem SameRecord.refl (a : Item π) : SameRecord a a := ⟨rfl, rfl, rfl, rfl, rfl, rfl⟩

/-- The id an operation gives to the record it may add. -/
def Op.drawn : Op π → Option String
  | .enqueue _ _ _ _ id _ => some id
  | _ => none

/-- A record keeps its fields, unless an operation has just made it. -/
theorem perform_same {items : List (Item π)} {op : Op π} {item : Item π}
    (h : item ∈ perform items op) :
    (∃ old ∈ items, SameRecord item old) ∨ op.drawn = some item.id := by
  rcases mem_perform h with h | ⟨r, mt, p, rep, id, now, rfl, _, rfl⟩ | ⟨r, f, hu, old, hold, _, rfl⟩
  · exact Or.inl ⟨item, h, .refl item⟩
  · exact Or.inr rfl
  · exact Or.inl ⟨old, hold, update_same hu old⟩

/-- Only an acknowledgement makes a record acknowledged. -/
theorem perform_acknowledged {items : List (Item π)} {op : Op π} {item : Item π}
    (h : item ∈ perform items op) (hack : item.status = .acknowledged) :
    ∃ old ∈ items, SameRecord item old ∧ (old.status = .acknowledged ∨
      ∃ now, op = .acknowledge item.requestId now) := by
  rcases mem_perform h with h | ⟨r, mt, p, rep, id, now, rfl, _, rfl⟩ |
    ⟨r, f, hu, old, hold, hr, rfl⟩
  · exact ⟨item, h, .refl item, Or.inl hack⟩
  · simp [newItem] at hack
  · refine ⟨old, hold, update_same hu old, ?_⟩
    cases op <;> simp only [Op.update, Option.some.injEq, Prod.mk.injEq, reduceCtorEq] at hu <;>
      obtain ⟨rfl, rfl⟩ := hu
    · simp [recordAttempt] at hack
    · rename_i now
      exact Or.inr ⟨now, by rw [recordAcknowledged, hr]⟩
    all_goals
      refine Or.inl ?_
      unfold recordFailure at hack
      split at hack
      · exact hack
      · simp only at hack
        split_ifs at hack

end Empyralis.Gateway.Outbox
