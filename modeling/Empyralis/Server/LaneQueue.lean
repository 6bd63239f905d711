import Empyralis.Lib.Run
import Empyralis.Lib.Text
import Mathlib.Logic.Function.Basic
import Mathlib.Data.List.Basic

/-! The runtime lane queue: work items wait in one of four lanes and are dispatched to worker threads
    under a limit per lane and a limit over all lanes, a rotating cursor choosing the lane.

    Every method body runs under the queue's lock, so one label is one such body. A label carries
    what the body takes from outside: the clock, the fresh id, the arguments, and whether the write
    of the checkpoint succeeds. `workers` are the threads that `_start_item` has started and that
    have not called `_finish_item` yet; `accepted`, `dispatched` and `finished` record the history of
    the run. -/

namespace Empyralis.Server.LaneQueue

/-- The lanes of the queue. -/
inductive Lane where
  | main | cron | subagent | system
  deriving DecidableEq

/-- The order in which the lanes take turns. -/
def laneOrder : List Lane := [.main, .cron, .subagent, .system]

/-- `_coerce_lane`, on a string. -/
def coerceLane (value : String) : Option Lane :=
  match ((Text.trim Text.pySpace value).toList.map Char.toLower) with
  | ['m', 'a', 'i', 'n'] => some .main
  | ['c', 'r', 'o', 'n'] => some .cron
  | ['s', 'u', 'b', 'a', 'g', 'e', 'n', 't'] => some .subagent
  | ['s', 'y', 's', 't', 'e', 'm'] => some .system
  | _ => none

/-- `str(value or "").strip() or None` -/
def tokenOf (value : String) : Option String :=
  let token := Text.trim Text.pySpace value
  if token = "" then none else some token

/-- What `to_snapshot` shows of an item. -/
structure Snapshot (μ : Type*) where
  id : String
  lane : Lane
  label : String
  status : String
  enqueuedAt : String
  startedAt : Option String
  finishedAt : Option String
  runId : Option String
  summary : Option String
  error : Option String
  metadata : μ
  deriving DecidableEq

/-- `RuntimeLaneQueueItem`, without the callable. -/
structure Item (μ ρ : Type*) extends Snapshot μ where
  result : Option ρ

/-- The state under the lock. -/
structure State (μ ρ : Type*) where
  laneConcurrency : Lane → Nat
  maxTotalConcurrency : Nat
  recentItemsLimit : Nat
  checkpointEnabled : Bool
  pending : Lane → List (Item μ ρ)
  active : Lane → List (Item μ ρ)
  recent : List (Item μ ρ)
  accepting : Bool
  draining : Bool
  shutdown : Bool
  laneCursor : Nat
  checkpoint : List (Snapshot μ)
  lastCheckpointError : Option String
  persisted : Bool
  workers : List String
  accepted : Lane → List String
  dispatched : Lane → List String
  finished : Lane → List (Item μ ρ)

variable {μ ρ : Type*}

/-! ### Configuration and restore -/

/-- `max(low, int(value or default))` -/
def atLeast (low : Nat) (default value : Int) : Nat :=
  max low (if value = 0 then default else value).toNat

/-- The settings, before they are bounded. -/
structure Config where
  laneConcurrency : List (Lane × Int)
  maxTotalConcurrency : Int
  recentItemsLimit : Int
  checkpointEnabled : Bool

/-- The last setting for a lane counts. -/
def Config.concurrency (cfg : Config) (lane : Lane) : Nat :=
  ((cfg.laneConcurrency.reverse.find? fun kv => kv.1 = lane).map fun kv => atLeast 1 1 kv.2).getD 1

/-- The items that `_restore_checkpoint` builds: each saved item with a run id for which there is
    work again is queued anew. `newId` is the id drawn for a saved item without one. -/
def restoreItem (hasWork : Snapshot μ → Bool) (newId now : String) (saved : Snapshot μ) :
    Option (Item μ ρ) :=
  match saved.runId.bind tokenOf with
  | none => none
  | some runId =>
    if hasWork saved then
      some { saved with
        id := Text.trim Text.pySpace (if saved.id = "" then newId else saved.id)
        label := (tokenOf saved.label).getD "Restored queued work"
        status := "queued"
        enqueuedAt := (tokenOf saved.enqueuedAt).getD now
        startedAt := none
        finishedAt := none
        runId := some runId
        summary := saved.summary.bind tokenOf
        error := none
        result := none }
    else none

/-- `_restore_checkpoint`: the saved items, each with the id drawn in case it has none. -/
def restoreCheckpoint (hasWork : Snapshot μ → Bool) (now : String)
    (saved : List (String × Snapshot μ)) : List (Item μ ρ) :=
  saved.filterMap fun p => restoreItem hasWork p.1 now p.2

/-- A queue over these items, found in this checkpoint. -/
def startOver (cfg : Config) (checkpoint : List (Snapshot μ)) (restored : List (Item μ ρ)) :
    State μ ρ where
  laneConcurrency := cfg.concurrency
  maxTotalConcurrency := atLeast 1 4 cfg.maxTotalConcurrency
  recentItemsLimit := atLeast 4 16 cfg.recentItemsLimit
  checkpointEnabled := cfg.checkpointEnabled
  pending := fun lane => restored.filter fun item => item.lane = lane
  active := fun _ => []
  recent := []
  accepting := true
  draining := false
  shutdown := false
  laneCursor := 0
  checkpoint := checkpoint
  lastCheckpointError := none
  persisted := false
  workers := []
  accepted := fun lane => (restored.filter fun item => item.lane = lane).map (·.id)
  dispatched := fun _ => []
  finished := fun _ => []

/-- A new queue: `__init__` ends with the restore of the saved checkpoint. -/
def start (cfg : Config) (hasWork : Snapshot μ → Bool) (now : String)
    (saved : List (String × Snapshot μ)) : State μ ρ :=
  startOver cfg (saved.map (·.2)) (restoreCheckpoint hasWork now saved)

/-! ### The bodies under the lock -/

def totalActive (s : State μ ρ) : Nat :=
  laneOrder.foldl (fun total lane => total + (s.active lane).length) 0

def hasPending (s : State μ ρ) : Bool := laneOrder.any fun lane => !(s.pending lane).isEmpty

def hasActive (s : State μ ρ) : Bool := laneOrder.any fun lane => !(s.active lane).isEmpty

/-- The items that `_persist_checkpoint_locked` lists. -/
def checkpointItems (s : State μ ρ) : List (Snapshot μ) :=
  laneOrder.flatMap fun lane =>
    ((s.active lane).filter (·.runId.isSome)).map (·.toSnapshot) ++
      ((s.pending lane).filter (·.runId.isSome)).map (·.toSnapshot)

/-- `_persist_checkpoint_locked`; `write` is the outcome of the two calls on the state store. -/
def persistCheckpointLocked (write : Except String Unit) (s : State μ ρ) : State μ ρ :=
  if s.checkpointEnabled then
    match write with
    | .ok () =>
      { s with checkpoint := checkpointItems s, lastCheckpointError := none, persisted := true }
    | .error e => { s with lastCheckpointError := some e, persisted := false }
  else s

def setLaneConcurrency (lane : Lane) (value : Int) (s : State μ ρ) : State μ ρ :=
  { s with laneConcurrency := Function.update s.laneConcurrency lane (atLeast 1 1 value) }

/-- The item of a call. -/
def newItem (lane : Lane) (label : String) (metadata : μ) (runId id now : String) : Item μ ρ :=
  { id, lane, label := (tokenOf label).getD "Queued work", status := "queued", enqueuedAt := now
    startedAt := none, finishedAt := none, runId := tokenOf runId, summary := none, error := none
    metadata, result := none }

/-- The item joins the tail of its lane. -/
def append (item : Item μ ρ) (s : State μ ρ) : State μ ρ :=
  { s with
    pending := Function.update s.pending item.lane (s.pending item.lane ++ [item])
    accepted := Function.update s.accepted item.lane (s.accepted item.lane ++ [item.id]) }

/-- `enqueue`; a queue that is shutting down raises and changes nothing. -/
def enqueue (item : Item μ ρ) (write : Except String Unit) (s : State μ ρ) : State μ ρ :=
  if s.accepting then persistCheckpointLocked write (append item s) else s

/-- `d[item.id] = item` on a dict in insertion order. -/
def putById (item : Item μ ρ) (items : List (Item μ ρ)) : List (Item μ ρ) :=
  if items.any fun other => other.id = item.id then
    items.map fun other => if other.id = item.id then item else other
  else items ++ [item]

/-- The lane at `offset` from the cursor, with its first pending item, if the lane has room. -/
def candidate (s : State μ ρ) (offset : Nat) :
    Option (Nat × Lane × Item μ ρ × List (Item μ ρ)) :=
  let lane := laneOrder.getD ((s.laneCursor + offset) % laneOrder.length) .main
  if s.laneConcurrency lane ≤ (s.active lane).length then none
  else
    match s.pending lane with
    | [] => none
    | item :: queue => some (offset, lane, item, queue)

/-- The item once it is started. -/
def runningItem (now : String) (item : Item μ ρ) : Item μ ρ :=
  { item with status := "running", startedAt := some now }

/-- The item leaves the head of its lane and runs. -/
def activate (now : String) (lane : Lane) (item : Item μ ρ) (queue : List (Item μ ρ))
    (s : State μ ρ) : State μ ρ :=
  { s with
    pending := Function.update s.pending lane queue
    active := Function.update s.active lane (putById (runningItem now item) (s.active lane))
    dispatched := Function.update s.dispatched lane (s.dispatched lane ++ [item.id])
    workers := s.workers ++ [item.id] }

/-- `_next_dispatchable_item_locked` and, for the item it returns, `_start_item`. -/
def nextDispatchableItemLocked (now : String) (write : Except String Unit) (s : State μ ρ) :
    Option (State μ ρ) :=
  if s.maxTotalConcurrency ≤ totalActive s then none
  else
    match (List.range laneOrder.length).findSome? (candidate s) with
    | none => none
    | some (offset, lane, item, queue) =>
      some { persistCheckpointLocked write (activate now lane item queue s) with
        laneCursor := (s.laneCursor + offset + 1) % laneOrder.length }

/-- What a worker reports: the arguments of `_finish_item`. -/
structure Report (ρ : Type*) where
  status : String
  result : Option ρ
  runId : String
  summary : String
  error : String

/-- The item with what its run reports. -/
def finishedItem (report : Report ρ) (now : String) (item : Item μ ρ) : Item μ ρ :=
  { item with
    status := report.status
    finishedAt := some now
    result := report.result
    runId := (tokenOf report.runId).or item.runId
    summary := (tokenOf report.summary).or item.summary
    error := (tokenOf report.error).or item.error }

/-- The item with this id among the active items of a lane. -/
def activeItem (s : State μ ρ) (id : String) (lane : Lane) : Option (Item μ ρ) :=
  (s.active lane).find? fun item => item.id = id

/-- The item leaves the active items of its lane for good. -/
def retire (id : String) (done : Item μ ρ) (s : State μ ρ) : State μ ρ :=
  { s with
    active := Function.update s.active done.lane
      ((s.active done.lane).filter fun other => other.id ≠ id)
    recent := (done :: s.recent).take s.recentItemsLimit
    workers := s.workers.erase id
    finished := Function.update s.finished done.lane (s.finished done.lane ++ [done]) }

/-- `_finish_item`, called once by the worker thread of the item. -/
def finishItem (id : String) (report : Report ρ) (now : String) (write : Except String Unit)
    (s : State μ ρ) : Option (State μ ρ) :=
  if id ∈ s.workers then
    match laneOrder.findSome? (activeItem s id) with
    | none => none
    | some item => some (persistCheckpointLocked write (retire id (finishedItem report now item) s))
  else none

/-! ### Steps and runs -/

/-- What is done under the lock, each time it is taken. -/
inductive Label (μ ρ : Type*) where
  | enqueue (lane label : String) (metadata : μ) (runId id now : String)
      (write : Except String Unit)
  | setLaneConcurrency (lane : String) (value : Int)
  | dispatch (now : String) (write : Except String Unit)
  | finish (id : String) (report : Report ρ) (now : String) (write : Except String Unit)
  | beginShutdown
  | endShutdown (write : Except String Unit)
  | drained

def step (s : State μ ρ) : Label μ ρ → Option (State μ ρ)
  | .enqueue lane label metadata runId id now write =>
    match coerceLane lane with
    | none => some s
    | some lane => some (enqueue (newItem lane label metadata runId id now) write s)
  | .setLaneConcurrency lane value =>
    match coerceLane lane with
    | none => some s
    | some lane => some (setLaneConcurrency lane value s)
  | .dispatch now write => if s.shutdown then none else nextDispatchableItemLocked now write s
  | .finish id report now write => finishItem id report now write s
  | .beginShutdown => some { s with accepting := false, draining := true }
  | .endShutdown write =>
    if s.draining then some (persistCheckpointLocked write { s with shutdown := true }) else none
  | .drained =>
    if s.draining && !hasPending s && !hasActive s then some { s with shutdown := true } else none

/-- An id that the queue draws, `lane_` and twelve hex digits, is not blank and has no space at its
    ends. -/
def Drawn (id : String) : Prop := id ≠ "" ∧ Text.trim Text.pySpace id = id

instance (id : String) : Decidable (Drawn id) := inferInstanceAs (Decidable (_ ∧ _))

/-- `uuid.uuid4()` draws an id that no item of the queue has. -/
def FreshId (s : State μ ρ) : Label μ ρ → Prop
  | .enqueue _ _ _ _ id _ _ => Drawn id ∧ ∀ lane ∈ laneOrder, id ∉ s.accepted lane
  | _ => True

instance (s : State μ ρ) : ∀ l : Label μ ρ, Decidable (FreshId s l)
  | .enqueue _ _ _ _ _ _ _ => inferInstanceAs (Decidable (_ ∧ _))
  | .setLaneConcurrency _ _ | .dispatch _ _ | .finish _ _ _ _ | .beginShutdown | .endShutdown _
  | .drained => .isTrue trivial

/-- The checkpoints a queue can find when it starts: none yet, or the one that an earlier queue left
    behind at any moment of its run. -/
inductive Left (ρ : Type*) : List (Snapshot μ) → Prop
  | empty : Left ρ []
  | queue {cfg : Config} {hasWork : Snapshot μ → Bool} {now : String}
      {saved : List (String × Snapshot μ)} {labels : List (Label μ ρ)} {s : State μ ρ} :
      Left ρ (saved.map (·.2)) → Run.Meets step FreshId (start cfg hasWork now saved) labels →
      Run.run step (start cfg hasWork now saved) labels = some s → Left ρ s.checkpoint

end Empyralis.Server.LaneQueue
