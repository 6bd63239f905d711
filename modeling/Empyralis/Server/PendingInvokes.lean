import Empyralis.Lib.Chain
import Empyralis.Lib.Run
import Empyralis.Server.Values
import Mathlib.Data.List.Nodup
import Mathlib.Logic.Function.Basic

/-! `dispatch_tool_invoke_durable`: the queues of its invokes, the flushes that write them to the sockets of a gateway,
    and the waiters that a response resolves.

    A step is a section under a lock, the write to a socket, or what a call or a flush does between two of them; every
    call and every flush is at a stage of its own, and any of them may be the next to move. -/

namespace Empyralis.Server.PendingInvokes
open Text (strip)

/-- `_PendingInvoke` -/
structure PendingInvoke where
  requestId : String
  gatewayId : String
  payload : Fields
  delivered : Bool
  deliveringSession : Option String

/-- A frame of type `tool.invoke`, on the socket of a session. -/
structure Frame where
  id : String
  session : String
  payload : Fields

/-- `_claim_pending_invoke`, `none` where the claim is refused. -/
def claimPendingInvoke (pending : PendingInvoke) (session : String) : Option PendingInvoke :=
  if pending.delivered then none
  else if pending.deliveringSession = some session then none
  else some { pending with deliveringSession := some session }

/-- `_release_pending_invoke` -/
def releasePendingInvoke (session : String) (pending : PendingInvoke) : PendingInvoke :=
  if pending.deliveringSession = some session then { pending with deliveringSession := none } else pending

/-- `_mark_pending_invoke_delivered` -/
def markPendingInvokeDelivered (pending : PendingInvoke) : PendingInvoke := { pending with delivered := true }

/-- How a call ends: with the payload or the error of the response, with one of the two errors of its deadline, or
    cancelled. -/
inductive Outcome where
  | result
  | failed
  | undelivered
  | unanswered
  | cancelled
  deriving DecidableEq

/-- A call that waits has the index of its invoke. -/
inductive CallStage where
  | enqueueing
  | waiting (pending : Nat)
  | popping (outcome : Outcome)
  | removing (outcome : Outcome)
  | ended (outcome : Outcome)
  deriving DecidableEq

/-- A call of `dispatch_tool_invoke_durable`, with the `ok` of the response that its future holds. -/
structure Call where
  gatewayId : String
  id : String
  payload : Fields
  response : Option Bool
  stage : CallStage

inductive FlushStage where
  | next
  | gates (pending : Nat)
  | sending (pending : Nat)
  | recording (pending : Nat)
  | releasing (pending : Nat)
  | marking (pending : Nat)
  | removing (pending : Nat)
  deriving DecidableEq

/-- `_flush_pending_invokes` over the connection of a session, with the rest of its snapshot. -/
structure Flush where
  session : String
  rest : List Nat
  stage : FlushStage

/-- An invoke is known by its index. `claimants` has for it the flush whose claim was granted last, `resolutions` the
    calls that were resolved, each with the id of the response, and `unrecorded` the invokes whose frame was written and
    whose event could then not be recorded. -/
structure State where
  invokes : List PendingInvoke
  queues : String → List Nat
  waiters : String → Option Nat
  calls : List Call
  flushes : List Flush
  written : List Frame
  claimants : Nat → Option Nat
  resolutions : List (Nat × String)
  unrecorded : List Nat

def start : State := ⟨[], fun _ => [], fun _ => none, [], [], [], fun _ => none, [], []⟩

/-- What a call does next, of its own or because its deadline has passed or it is cancelled. -/
inductive Move where
  | proceed
  | deadline
  | cancel
  deriving DecidableEq

/-- A flush starts on connect, on a heartbeat, or as `_kick_immediate_flush` has scheduled it. `ok` says whether what
    a flush does next succeeds, and `tracked` whether the connection has a request of its own under the id. -/
inductive Label where
  | dispatch (gatewayId : String) (requestId : Option String) (fresh : String) (payload : Fields)
  | move (i : Nat) (m : Move)
  | flush (gatewayId session : String)
  | deliver (i : Nat) (ok : Bool)
  | cancelFlush (i : Nat)
  | respond (id : String) (ok tracked : Bool)

/-- `resolved_request_id`, from a new UUID where the caller has none. -/
def resolvedRequestId (requestId : Option String) (fresh : String) : String :=
  let given := requestId.getD ""
  strip (if given = "" then "greq_" ++ fresh else given)

def State.requestId (s : State) (p : Nat) : Option String := s.invokes[p]?.map PendingInvoke.requestId

/-- `_enqueue_pending_invoke` -/
def enqueuePendingInvoke (s : State) (pending : PendingInvoke) : State :=
  { s with
    invokes := s.invokes ++ [pending]
    queues := Function.update s.queues pending.gatewayId (s.queues pending.gatewayId ++ [s.invokes.length]) }

/-- `_remove_pending_invoke` -/
def removePendingInvoke (s : State) (gatewayId requestId : String) : State :=
  let kept := (s.queues gatewayId).filter fun p => s.requestId p ≠ some requestId
  { s with queues := Function.update s.queues gatewayId kept }

/-- `_pop_durable_waiter` -/
def popDurableWaiter (s : State) (requestId : String) : State :=
  { s with waiters := Function.update s.waiters requestId none }

/-- The error that a call raises at its deadline. -/
def deadlineOutcome (pending : PendingInvoke) : Outcome := if pending.delivered then .unanswered else .undelivered

/-- A call up to its next await. -/
def advance (s : State) (call : Call) : CallStage → Move → Option (State × Call)
  | .enqueueing, .proceed =>
    some (enqueuePendingInvoke s ⟨call.id, strip call.gatewayId, call.payload, false, none⟩,
      { call with stage := .waiting s.invokes.length })
  | .waiting _, .proceed => call.response.map fun ok =>
      (s, { call with stage := .popping (if ok then .result else .failed) })
  | .waiting p, .deadline => s.invokes[p]?.map fun pending =>
      (s, { call with stage := .popping (deadlineOutcome pending) })
  | .waiting _, .cancel => some (s, { call with stage := .popping .cancelled })
  | .popping outcome, .proceed => some (popDurableWaiter s call.id, { call with stage := .removing outcome })
  -- the gateway id as the caller has it, and not the one under which the invoke was enqueued
  | .removing outcome, .proceed =>
    some (removePendingInvoke s call.gatewayId call.id, { call with stage := .ended outcome })
  | _, _ => none

/-- The next step of `_flush_pending_invokes` and `_deliver_pending_invoke_via`: `ok` tells how the gates, the write
    or the recording of the event ends. -/
def deliver (s : State) (i : Nat) (flush : Flush) (ok : Bool) : FlushStage → Option (State × Flush)
  | .next => match flush.rest with
    | [] => none
    | p :: rest => s.invokes[p]?.map fun pending => match claimPendingInvoke pending flush.session with
      | none => (s, { flush with rest })
      | some claimed =>
        ({ s with invokes := s.invokes.set p claimed, claimants := Function.update s.claimants p (some i) },
          { flush with rest, stage := .gates p })
  | .gates p => some (s, { flush with stage := if ok then .sending p else .releasing p })
  | .sending p =>
    if ok then s.invokes[p]?.map fun pending =>
      ({ s with written := s.written ++ [⟨pending.requestId, flush.session, pending.payload⟩] },
        { flush with stage := .recording p })
    else some (s, { flush with stage := .releasing p })
  | .recording p =>
    if ok then some (s, { flush with stage := .marking p })
    else some ({ s with unrecorded := p :: s.unrecorded }, { flush with stage := .releasing p })
  | .releasing p =>
    some ({ s with invokes := s.invokes.modify p (releasePendingInvoke flush.session) }, { flush with stage := .next })
  | .marking p =>
    some ({ s with invokes := s.invokes.modify p markPendingInvokeDelivered }, { flush with stage := .removing p })
  | .removing p => s.invokes[p]?.map fun pending =>
    (removePendingInvoke s pending.gatewayId pending.requestId, { flush with stage := .next })

/-- A flush can be cancelled in its one await, and the claim stays: `except Exception` is not for that. -/
def cancelFlush (flush : Flush) : Option Flush :=
  match flush.stage with
  | .sending _ => some { flush with rest := [], stage := .next }
  | _ => none

/-- The future of a call gets its result, unless it has one. -/
def answer (s : State) (i : Nat) (id : String) (ok : Bool) : State :=
  { popDurableWaiter s id with
    calls := s.calls.modify i fun call => { call with response := some (call.response.getD ok) }
    resolutions := s.resolutions ++ [(i, id)] }

/-- `resolve_response` -/
def resolveResponse (s : State) (id : String) (ok tracked : Bool) : State :=
  if tracked then s
  else match s.waiters (strip id) with
    | none => s
    | some i => answer s i (strip id) ok

def step (s : State) : Label → Option State
  | .dispatch gatewayId requestId fresh payload =>
    let id := resolvedRequestId requestId fresh
    some { s with
      waiters := Function.update s.waiters id (some s.calls.length)
      calls := s.calls ++ [⟨gatewayId, id, payload, none, .enqueueing⟩] }
  | .move i m => s.calls[i]?.bind fun call => (advance s call call.stage m).map fun (t, next) =>
      { t with calls := s.calls.set i next }
  | .flush gatewayId session => some { s with flushes := s.flushes ++ [⟨strip session, s.queues gatewayId, .next⟩] }
  | .deliver i ok => s.flushes[i]?.bind fun flush => (deliver s i flush ok flush.stage).map fun (t, next) =>
      { t with flushes := s.flushes.set i next }
  | .cancelFlush i => s.flushes[i]?.bind fun flush => (cancelFlush flush).map fun next =>
      { s with flushes := s.flushes.set i next }
  | .respond id ok tracked => some (resolveResponse s id ok tracked)

/-- The invoke whose frame a flush may still write before it claims another. -/
def FlushStage.unsent : FlushStage → Option Nat
  | .gates p => some p
  | .sending p => some p
  | _ => none

/-- The invoke whose frame a flush has written and which it has not marked yet. -/
def FlushStage.unmarked : FlushStage → Option Nat
  | .recording p => some p
  | .marking p => some p
  | _ => none

variable {s t : State}

theorem requestId_of_get {p : Nat} {pending : PendingInvoke} (h : s.invokes[p]? = some pending) :
    s.requestId p = some pending.requestId := by
  rw [State.requestId, h, Option.map_some]

theorem requestId_congr (h : t.invokes = s.invokes) (p : Nat) : t.requestId p = s.requestId p := by
  rw [State.requestId, State.requestId, h]

theorem claim_requestId {pending claimed : PendingInvoke} {session : String}
    (h : claimPendingInvoke pending session = some claimed) : claimed.requestId = pending.requestId := by
  unfold claimPendingInvoke at h
  split at h
  · cases h
  · split at h
    · cases h
    · cases h
      rfl

theorem release_requestId (session : String) (pending : PendingInvoke) :
    (releasePendingInvoke session pending).requestId = pending.requestId := by
  unfold releasePendingInvoke
  split <;> rfl

theorem release_delivered (session : String) (pending : PendingInvoke) (h : pending.delivered = true) :
    (releasePendingInvoke session pending).delivered = true := by
  unfold releasePendingInvoke
  split <;> exact h

/-! ### What a call and a flush do -/

structure Advanced (s t : State) (call next : Call) : Prop where
  id : next.id = call.id
  gatewayId : next.gatewayId = call.gatewayId
  response : next.response = call.response
  enqueued : next.stage ≠ .enqueueing
  invokes : t.invokes = s.invokes ∨ call.stage = .enqueueing ∧ next.stage = .waiting s.invokes.length ∧
    t.invokes = s.invokes ++ [⟨call.id, strip call.gatewayId, call.payload, false, none⟩]
  calls : t.calls = s.calls
  flushes : t.flushes = s.flushes
  written : t.written = s.written
  claimants : t.claimants = s.claimants
  resolutions : t.resolutions = s.resolutions
  unrecorded : t.unrecorded = s.unrecorded

/-- Everything that a call can do. -/
theorem advance_advanced {call next : Call} {m : Move} (h : advance s call call.stage m = some (t, next)) :
    Advanced s t call next := by
  unfold advance at h
  split at h
  · rename_i hstage
    cases h
    exact ⟨rfl, rfl, rfl, (fun heq => by cases heq), .inr ⟨hstage, rfl, rfl⟩, rfl, rfl, rfl, rfl, rfl, rfl⟩
  · obtain ⟨ok, -, heq⟩ := Option.map_eq_some_iff.mp h
    cases heq
    exact ⟨rfl, rfl, rfl, (fun heq => by cases heq), .inl rfl, rfl, rfl, rfl, rfl, rfl, rfl⟩
  · obtain ⟨pending, -, heq⟩ := Option.map_eq_some_iff.mp h
    cases heq
    exact ⟨rfl, rfl, rfl, (fun heq => by cases heq), .inl rfl, rfl, rfl, rfl, rfl, rfl, rfl⟩
  · cases h
    exact ⟨rfl, rfl, rfl, (fun heq => by cases heq), .inl rfl, rfl, rfl, rfl, rfl, rfl, rfl⟩
  · cases h
    exact ⟨rfl, rfl, rfl, (fun heq => by cases heq), .inl rfl, rfl, rfl, rfl, rfl, rfl, rfl⟩
  · cases h
    exact ⟨rfl, rfl, rfl, (fun heq => by cases heq), .inl rfl, rfl, rfl, rfl, rfl, rfl, rfl⟩
  · cases h

/-- What is marked stays so. -/
def Marked (s t : State) : Prop :=
  ∀ (p : Nat) (pending : PendingInvoke), s.invokes[p]? = some pending → pending.delivered = true →
    ∃ later ∈ t.invokes[p]?, later.delivered = true

theorem marked_same (h : t.invokes = s.invokes) : Marked s t :=
  fun p pending hp hdelivered => ⟨pending, by rw [h]; exact hp, hdelivered⟩

theorem marked_modify {f : PendingInvoke → PendingInvoke} {q : Nat} (h : t.invokes = s.invokes.modify q f)
    (hf : ∀ pending : PendingInvoke, pending.delivered = true → (f pending).delivered = true) : Marked s t := by
  intro p pending hp hdelivered
  rw [h]
  by_cases heq : q = p
  · subst heq
    exact ⟨f pending, by rw [Option.mem_def, List.getElem?_modify_eq, hp]; rfl, hf pending hdelivered⟩
  · exact ⟨pending, (List.getElem?_modify_ne _ _ heq).trans hp, hdelivered⟩

/-- A claim is granted for what is not marked. -/
theorem marked_claim {q : Nat} {pending claim : PendingInvoke} {session : String} (hq : s.invokes[q]? = some pending)
    (hclaim : claimPendingInvoke pending session = some claim) (h : t.invokes = s.invokes.set q claim) :
    Marked s t := by
  intro p other hp hdelivered
  have hne : q ≠ p := by
    rintro rfl
    obtain rfl := Option.some.inj (hq.symm.trans hp)
    rw [claimPendingInvoke, if_pos hdelivered] at hclaim
    cases hclaim
  rw [h]
  exact ⟨other, (List.getElem?_set_ne hne).trans hp, hdelivered⟩

/-- What a flush leaves as it is. -/
structure Kept (s t : State) : Prop where
  calls : t.calls = s.calls
  waiters : t.waiters = s.waiters
  flushes : t.flushes = s.flushes
  resolutions : t.resolutions = s.resolutions
  requestIds : t.invokes.map PendingInvoke.requestId = s.invokes.map PendingInvoke.requestId
  queues : ∀ gatewayId, ∀ p ∈ t.queues gatewayId, p ∈ s.queues gatewayId
  marked : Marked s t
  unrecorded : ∀ p ∈ s.unrecorded, p ∈ t.unrecorded

theorem Kept.requestId (h : Kept s t) (p : Nat) : t.requestId p = s.requestId p := by
  simpa only [State.requestId, List.getElem?_map] using congrArg (fun ids => ids[p]?) h.requestIds

theorem mem_remove {gatewayId requestId key : String} {p : Nat}
    (h : p ∈ (removePendingInvoke s gatewayId requestId).queues key) :
    p ∈ s.queues key ∧ (key = gatewayId → s.requestId p ≠ some requestId) := by
  by_cases hkey : key = gatewayId
  · subst hkey
    simp only [removePendingInvoke, Function.update_self] at h
    obtain ⟨hmem, hne⟩ := List.mem_filter.mp h
    exact ⟨hmem, fun _ => of_decide_eq_true hne⟩
  · simp only [removePendingInvoke, Function.update_of_ne hkey] at h
    exact ⟨h, fun heq => absurd heq hkey⟩

/-- A flush is granted a claim, writes a frame, or does neither. -/
inductive Delivered (s t : State) (i : Nat) (flush : Flush) (ok : Bool) (next : Flush) : Prop where
  | quiet (hwritten : t.written = s.written) (hclaimants : t.claimants = s.claimants)
      (hunsent : ∀ p ∈ next.stage.unsent, p ∈ flush.stage.unsent)
  | claimed (p : Nat) (rest : List Nat) (pending claim : PendingInvoke) (hstage : flush.stage = .next)
      (hrest : flush.rest = p :: rest) (hp : s.invokes[p]? = some pending)
      (hclaim : claimPendingInvoke pending flush.session = some claim) (hwritten : t.written = s.written)
      (hclaimants : t.claimants = Function.update s.claimants p (some i)) (hnext : next.stage = .gates p)
  | wrote (p : Nat) (pending : PendingInvoke) (hstage : flush.stage = .sending p) (hok : ok = true)
      (hp : s.invokes[p]? = some pending)
      (hwritten : t.written = s.written ++ [⟨pending.requestId, flush.session, pending.payload⟩])
      (hclaimants : t.claimants = s.claimants) (hnext : next.stage.unsent = none)

/-- Everything that a flush can do. -/
theorem deliver_delivered {i : Nat} {flush next : Flush} {ok : Bool}
    (h : deliver s i flush ok flush.stage = some (t, next)) : Kept s t ∧ Delivered s t i flush ok next := by
  rcases hstage : flush.stage with _ | p | p | p | p | p | p
  all_goals rw [hstage] at h
  · rcases hrest : flush.rest with _ | ⟨p, rest⟩
    · simp [deliver, hrest] at h
    · simp only [deliver, hrest] at h
      obtain ⟨pending, hp, hmatch⟩ := Option.map_eq_some_iff.mp h
      rcases hclaim : claimPendingInvoke pending flush.session with _ | claim
      · rw [hclaim] at hmatch
        cases hmatch
        exact ⟨⟨rfl, rfl, rfl, rfl, rfl, fun _ _ hmem => hmem, marked_same rfl, fun _ hp => hp⟩,
          .quiet rfl rfl fun p hp => hp⟩
      · rw [hclaim] at hmatch
        cases hmatch
        exact ⟨⟨rfl, rfl, rfl, rfl, Chain.map_set_eq hp (claim_requestId hclaim), fun _ _ hmem => hmem,
          marked_claim hp hclaim rfl, fun _ hp => hp⟩, .claimed p rest pending claim hstage hrest hp hclaim rfl rfl rfl⟩
  · cases h
    refine ⟨⟨rfl, rfl, rfl, rfl, rfl, fun _ _ hmem => hmem, marked_same rfl, fun _ hp => hp⟩,
      .quiet rfl rfl fun q hq => ?_⟩
    rw [hstage]
    cases ok
    · cases hq
    · exact hq
  · cases ok with
    | false =>
      cases h
      exact ⟨⟨rfl, rfl, rfl, rfl, rfl, fun _ _ hmem => hmem, marked_same rfl, fun _ hp => hp⟩,
        .quiet rfl rfl fun q hq => (by cases hq)⟩
    | true =>
      obtain ⟨pending, hp, heq⟩ := Option.map_eq_some_iff.mp h
      cases heq
      exact ⟨⟨rfl, rfl, rfl, rfl, rfl, fun _ _ hmem => hmem, marked_same rfl, fun _ hp => hp⟩,
        .wrote p pending hstage rfl hp rfl rfl rfl⟩
  · cases ok with
    | false =>
      cases h
      exact ⟨⟨rfl, rfl, rfl, rfl, rfl, fun _ _ hmem => hmem, marked_same rfl, fun _ hp => List.mem_cons_of_mem _ hp⟩,
        .quiet rfl rfl fun q hq => (by cases hq)⟩
    | true =>
      cases h
      exact ⟨⟨rfl, rfl, rfl, rfl, rfl, fun _ _ hmem => hmem, marked_same rfl, fun _ hp => hp⟩,
        .quiet rfl rfl fun q hq => (by cases hq)⟩
  · cases h
    exact ⟨⟨rfl, rfl, rfl, rfl, Chain.map_modify_eq (release_requestId flush.session) s.invokes p, fun _ _ hmem => hmem,
      marked_modify rfl (release_delivered flush.session), fun _ hp => hp⟩, .quiet rfl rfl fun q hq => (by cases hq)⟩
  · cases h
    exact ⟨⟨rfl, rfl, rfl, rfl, Chain.map_modify_eq (fun _ => by rfl) s.invokes p, fun _ _ hmem => hmem,
      marked_modify rfl fun _ _ => rfl, fun _ hp => hp⟩, .quiet rfl rfl fun q hq => (by cases hq)⟩
  · obtain ⟨pending, hp, heq⟩ := Option.map_eq_some_iff.mp h
    cases heq
    exact ⟨⟨rfl, rfl, rfl, rfl, rfl, fun _ _ hmem => (mem_remove hmem).1, marked_same rfl, fun _ hp => hp⟩,
      .quiet rfl rfl fun q hq => (by cases hq)⟩

/-- What a response leaves as it is. -/
structure Unmoved (s t : State) : Prop where
  invokes : t.invokes = s.invokes
  queues : t.queues = s.queues
  flushes : t.flushes = s.flushes
  written : t.written = s.written
  claimants : t.claimants = s.claimants
  unrecorded : t.unrecorded = s.unrecorded

theorem answer_unmoved (s : State) (i : Nat) (id : String) (ok : Bool) : Unmoved s (answer s i id ok) :=
  ⟨rfl, rfl, rfl, rfl, rfl, rfl⟩

theorem resolve_unmoved (s : State) (id : String) (ok tracked : Bool) :
    Unmoved s (resolveResponse s id ok tracked) := by
  unfold resolveResponse
  split
  · exact ⟨rfl, rfl, rfl, rfl, rfl, rfl⟩
  · split
    · exact ⟨rfl, rfl, rfl, rfl, rfl, rfl⟩
    · exact answer_unmoved ..

theorem move_cases {i : Nat} {m : Move} (h : step s (.move i m) = some t) :
    ∃ call u next, s.calls[i]? = some call ∧ advance s call call.stage m = some (u, next) ∧
      Advanced s u call next ∧ t = { u with calls := s.calls.set i next } := by
  obtain ⟨call, hcall, hmap⟩ := Option.bind_eq_some_iff.mp h
  obtain ⟨⟨u, next⟩, hadvance, heq⟩ := Option.map_eq_some_iff.mp hmap
  exact ⟨call, u, next, hcall, hadvance, advance_advanced hadvance, heq.symm⟩

theorem deliver_cases {i : Nat} {ok : Bool} (h : step s (.deliver i ok) = some t) :
    ∃ flush u next, s.flushes[i]? = some flush ∧ Kept s u ∧ Delivered s u i flush ok next ∧
      t = { u with flushes := s.flushes.set i next } := by
  obtain ⟨flush, hflush, hmap⟩ := Option.bind_eq_some_iff.mp h
  obtain ⟨⟨u, next⟩, hdeliver, heq⟩ := Option.map_eq_some_iff.mp hmap
  obtain ⟨hkept, hdelivered⟩ := deliver_delivered hdeliver
  exact ⟨flush, u, next, hflush, hkept, hdelivered, heq.symm⟩

theorem cancelFlush_unsent {flush next : Flush} (h : cancelFlush flush = some next) : next.stage.unsent = none := by
  unfold cancelFlush at h
  split at h
  · cases h
    rfl
  · cases h

/-! ### Request ids of their own -/

/-- A call has a request id that no call before it had. -/
def Distinct (s : State) : Label → Prop
  | .dispatch _ requestId fresh _ => ∀ call ∈ s.calls, call.id ≠ resolvedRequestId requestId fresh
  | _ => True

instance (s : State) : DecidablePred (Distinct s)
  | .dispatch _ requestId fresh _ =>
    inferInstanceAs (Decidable (∀ call ∈ s.calls, call.id ≠ resolvedRequestId requestId fresh))
  | .move _ _ | .flush _ _ | .deliver _ _ | .cancelFlush _ | .respond _ _ _ => inferInstanceAs (Decidable True)

/-- Every id is of one call, and of one invoke once the call has enqueued it. -/
structure Named (s : State) : Prop where
  calls : (s.calls.map Call.id).Nodup
  invokes : (s.invokes.map PendingInvoke.requestId).Nodup
  known : ∀ id ∈ s.invokes.map PendingInvoke.requestId, ∃ call ∈ s.calls, call.id = id ∧ call.stage ≠ .enqueueing

theorem Named.pending_eq (hn : Named s) {p q : Nat} {id : String} (hp : s.requestId p = some id)
    (hq : s.requestId q = some id) : p = q := by
  rw [State.requestId, ← List.getElem?_map] at hp hq
  obtain ⟨hpl, hpe⟩ := List.getElem?_eq_some_iff.mp hp
  obtain ⟨hql, hqe⟩ := List.getElem?_eq_some_iff.mp hq
  exact hn.invokes.getElem_inj_iff.mp (hpe.trans hqe.symm)

theorem Named.call_eq (hn : Named s) {call other : Call} (hcall : call ∈ s.calls) (hother : other ∈ s.calls)
    (hid : call.id = other.id) : call = other :=
  List.inj_on_of_nodup_map hn.calls hcall hother hid

theorem named_set (hn : Named s) {i : Nat} {call next : Call} (hcall : s.calls[i]? = some call)
    (hid : next.id = call.id) (hstage : next.stage ≠ .enqueueing) :
    ((s.calls.set i next).map Call.id).Nodup ∧ ∀ id ∈ s.invokes.map PendingInvoke.requestId,
      ∃ other ∈ s.calls.set i next, other.id = id ∧ other.stage ≠ .enqueueing := by
  constructor
  · rw [Chain.map_set_eq hcall hid]
    exact hn.calls
  · intro id hmem
    obtain ⟨other, hother, heq, hopen⟩ := hn.known id hmem
    rcases @Chain.mem_set_or_eq _ _ _ _ _ next hcall hother with rfl | hset
    · exact ⟨next, List.mem_set (List.getElem?_eq_some_iff.mp hcall).1 next, hid.trans heq, hstage⟩
    · exact ⟨other, hset, heq, hopen⟩

theorem answer_invokes (i : Nat) (id : String) (ok : Bool) : (answer s i id ok).invokes = s.invokes := rfl

/-- One step keeps every id of one call and one invoke. -/
theorem named_step (hn : Named s) {l : Label} (hd : Distinct s l) (hst : step s l = some t) : Named t := by
  cases l with
  | dispatch gatewayId requestId fresh payload =>
    cases hst
    refine ⟨?_, hn.invokes, fun id hmem => ?_⟩
    · rw [List.map_append]
      refine List.Nodup.append hn.calls (List.nodup_singleton _) fun id hold hnew => ?_
      obtain rfl := List.mem_singleton.mp hnew
      obtain ⟨call, hcall, hid⟩ := List.mem_map.mp hold
      exact hd call hcall hid
    · obtain ⟨call, hcall, hid, hstage⟩ := hn.known id hmem
      exact ⟨call, List.mem_append_left _ hcall, hid, hstage⟩
  | move i m =>
    obtain ⟨call, u, next, hcall, -, hadv, rfl⟩ := move_cases hst
    obtain ⟨hcalls, hknown⟩ := named_set hn hcall hadv.id hadv.enqueued
    rcases hadv.invokes with hsame | ⟨hstage, -, hnew⟩
    · refine ⟨hcalls, ?_, ?_⟩
      · rw [hsame]
        exact hn.invokes
      · rw [hsame]
        exact hknown
    · refine ⟨hcalls, ?_, ?_⟩
      · rw [hnew, List.map_append]
        refine List.Nodup.append hn.invokes (List.nodup_singleton _) fun id hold hlast => ?_
        obtain rfl := List.mem_singleton.mp hlast
        obtain ⟨other, hother, hid, hopen⟩ := hn.known _ hold
        obtain rfl := hn.call_eq hother (List.mem_of_getElem? hcall) hid
        exact hopen hstage
      · rw [hnew, List.map_append]
        intro id hmem
        rcases List.mem_append.mp hmem with hold | hlast
        · exact hknown id hold
        · obtain rfl := List.mem_singleton.mp hlast
          exact ⟨next, List.mem_set (List.getElem?_eq_some_iff.mp hcall).1 next, hadv.id, hadv.enqueued⟩
  | flush gatewayId session =>
    cases hst
    exact ⟨hn.calls, hn.invokes, hn.known⟩
  | deliver i ok =>
    obtain ⟨flush, u, next, -, hkept, -, rfl⟩ := deliver_cases hst
    refine ⟨?_, ?_, ?_⟩
    · rw [hkept.calls]
      exact hn.calls
    · rw [hkept.requestIds]
      exact hn.invokes
    · rw [hkept.requestIds, hkept.calls]
      exact hn.known
  | cancelFlush i =>
    obtain ⟨flush, -, hmap⟩ := Option.bind_eq_some_iff.mp hst
    obtain ⟨next, -, rfl⟩ := Option.map_eq_some_iff.mp hmap
    exact ⟨hn.calls, hn.invokes, hn.known⟩
  | respond id ok tracked =>
    cases hst
    unfold resolveResponse
    split
    · exact hn
    · split
      · exact hn
      · rename_i i _
        refine ⟨?_, ?_, fun other hmem => ?_⟩
        · rw [answer, Chain.map_modify_eq (fun _ => by rfl)]
          exact hn.calls
        · rw [answer_invokes]
          exact hn.invokes
        · rw [answer_invokes] at hmem
          obtain ⟨call, hcall, hid, hstage⟩ := hn.known other hmem
          rcases Chain.mem_modify_or _ _ hcall with hsame | hanswered
          · exact ⟨call, hsame, hid, hstage⟩
          · exact ⟨_, hanswered, hid, hstage⟩

end Empyralis.Server.PendingInvokes
