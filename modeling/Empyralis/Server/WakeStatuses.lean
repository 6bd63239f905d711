import Empyralis.Lib.Run
import Empyralis.Server.WakeRequests
import Mathlib.Algebra.Ring.Int.Defs

/-! One wake request under `claim_due_wake_requests`, `cancel_wake_request`, `finalize_wake_requests` and
    `schedule_retry`, each SQL statement a step. -/

namespace Empyralis.Server.WakeStatuses
open Text (strip)
open Wakes

/-! ### Retries -/

/-- How often and when a wake is retried. -/
structure RetryPolicy where
  maxRetries : Int
  baseDelaySeconds : Int
  maxDelaySeconds : Int
  backoffMultiplier : Int

/-- `DEFAULT_RETRY_POLICY` -/
def defaultRetryPolicy : RetryPolicy := ⟨5, 30, 3600, 2⟩

/-- `compute_retry_delay` -/
def computeRetryDelay (attempt : Int) (policy : RetryPolicy) : Int :=
  if attempt < 1 then policy.baseDelaySeconds
  else min (policy.baseDelaySeconds * policy.backoffMultiplier ^ attempt.toNat) policy.maxDelaySeconds

/-- `should_retry` -/
def shouldRetry (attempt : Int) (policy : RetryPolicy) : Bool := attempt < policy.maxRetries

/-- `int(value)` of a count; another value raises. -/
def intOf : Value → Option Int
  | .int n => some n
  | .bool value => some (if value then 1 else 0)
  | _ => none

/-- The number of attempts that the metadata of a wake request has. -/
def currentAttempt (metadata : Value) : Option Int :=
  let retry := coerceDict ((coerceDict metadata).get "retry")
  match (retry.lookup "retry_attempt").or (retry.lookup "attempt") with
  | none => some 0
  | some value => intOf value

/-- `build_retry_metadata`, with the time of the next attempt as it is written -/
def buildRetryMetadata (attempt : Int) (policy : RetryPolicy) (lastError nextAt : String) : Fields :=
  [("retry_attempt", .int attempt), ("retry_max", .int policy.maxRetries),
    ("retry_delay_seconds", .int (computeRetryDelay attempt policy)),
    ("retry_last_error", .string (String.ofList (lastError.toList.take 500))), ("retry_next_at", .string nextAt)]

/-- What `schedule_retry` writes for a wake request with this metadata; nothing when the count raises. -/
def retryUpdate (metadata : Value) (policy : RetryPolicy) (error nextAt : String) : Option StatusUpdate :=
  (currentAttempt metadata).map fun attempt =>
    let next := attempt + 1
    if shouldRetry next policy then
      { status := .pending
        denialReason := none
        patch := [("retry", .object (buildRetryMetadata next policy error nextAt)), ("due_at", .string nextAt)] }
    else ⟨.failedPermanent, some s!"max_retries_exceeded:{next}", []⟩

/-! ### Calls -/

variable (env : Env)

/-- Where a call is: a cancellation reads the row first, and every update selects it again. -/
inductive Stage where
  | reading (agentId cancelledBy : String)
  | selecting (u : StatusUpdate)
  | updating (u : StatusUpdate) (existing : WakeRequest)
  | refetching
  | ended
  | refused (error : String)

/-- A call on its way; a cancellation is one of its own kind. -/
structure Call where
  cancels : Bool
  stage : Stage

/-- The statuses that the row has had, the present one last. -/
structure State where
  row : WakeRequest
  now : Int
  calls : List Call
  history : List WakeStatus

/-- What is done to the wake. -/
inductive Event where
  | claim (dueBefore : Int)
  | cancel (agentId cancelledBy : String)
  | finalize (u : StatusUpdate)
  | retry (metadata : Value) (policy : RetryPolicy) (error nextAt : String)
  | move (i : Nat)
  | wait (time : Nat)

/-- The status as a text. -/
def statusText : WakeStatus → String
  | .pending => "pending"
  | .claimed => "claimed"
  | .retryScheduled => "retry_scheduled"
  | .executed => "executed"
  | .completed => "completed"
  | .failed => "failed"
  | .failedPermanent => "failed_permanent"
  | .denied => "denied"
  | .cancelled => "cancelled"
  | .skipped => "skipped"

/-- The payload that a cancellation reads, from a dictionary or from JSON text. -/
def cancelPayload : Value → Fields
  | .string raw => coerceDict ((env.loads raw).getD (.object []))
  | value => coerceDict value

/-- What a cancellation does with the row that it has read. -/
def cancelRead (row : WakeRequest) (agentId cancelledBy : String) : Stage :=
  if text env (cancelPayload env (env.driver row.payload)) "agent_id" ≠ strip agentId then
    .refused s!"Scheduled wake-up {row.id.text} not found."
  else if row.status.terminal then .refused s!"Can't cancel a wake-up that's already {statusText row.status}."
  else .selecting ⟨.cancelled, some s!"cancelled_by_{cancelledBy}", []⟩

def setRow (s : State) (row : WakeRequest) : State := { s with row := row, history := s.history ++ [row.status] }

/-- A call comes to its next statement. -/
def moveStage (s : State) : Stage → Option (State × Stage)
  | .reading agentId cancelledBy => some (s, cancelRead env s.row agentId cancelledBy)
  | .selecting u => some (s, .updating u s.row)
  | .updating u existing => some (setRow s (updateRow env s.now existing u s.row), .refetching)
  | .refetching => some (s, .ended)
  | .ended => none
  | .refused _ => none

def step (s : State) : Event → Option State
  | .claim dueBefore => some (if due dueBefore s.row then setRow s (claimRow s.now s.row) else s)
  | .cancel agentId cancelledBy => some { s with calls := s.calls ++ [⟨true, .reading agentId cancelledBy⟩] }
  | .finalize u => some { s with calls := s.calls ++ [⟨false, .selecting u⟩] }
  | .retry metadata policy error nextAt =>
    (retryUpdate metadata policy error nextAt).map fun u => { s with calls := s.calls ++ [⟨false, .selecting u⟩] }
  | .move i =>
    (s.calls[i]?).bind fun call => (moveStage env s call.stage).map fun (t, stage) =>
      { t with calls := s.calls.set i { call with stage := stage } }
  | .wait time => some { s with now := s.now + time }

/-! ### Terminal statuses -/

/-- A terminal status is never left, and a cancellation that has returned ok has left it cancelled. -/
structure Final (s : State) : Prop where
  kept : s.history.Pairwise fun earlier later => earlier.terminal = true → later = earlier
  cancelled : ∀ call ∈ s.calls, call.cancels = true → call.stage = .ended → s.row.status = .cancelled

/-- An `UPDATE` is made while the status of the row is not terminal, or it is the one that it writes. -/
def Guarded (s : State) : Event → Prop
  | .move i => ∀ call u existing, s.calls[i]? = some call → call.stage = .updating u existing →
      s.row.status.terminal = true → u.status = s.row.status
  | _ => True

/-- What every reachable state has. -/
structure Inv (s : State) : Prop extends Final s where
  current : s.history.getLast? = some s.row.status
  cancelling : ∀ call ∈ s.calls, call.cancels = true → ∀ u, call.stage = .selecting u ∨
    (∃ existing, call.stage = .updating u existing) → u.status = .cancelled
  written : ∀ call ∈ s.calls, call.cancels = true → call.stage = .refetching → s.row.status = .cancelled

/-- A status that is written while the last is not terminal, or is the same. -/
theorem kept_snoc {history : List WakeStatus} {current next : WakeStatus}
    (hkept : history.Pairwise fun earlier later => earlier.terminal = true → later = earlier)
    (hlast : history.getLast? = some current) (hnext : current.terminal = true → next = current) :
    (history ++ [next]).Pairwise fun earlier later => earlier.terminal = true → later = earlier := by
  refine List.pairwise_append.mpr ⟨hkept, List.pairwise_singleton _ _, ?_⟩
  intro earlier hearlier later hlater hterminal
  obtain rfl := List.mem_singleton.mp hlater
  obtain ⟨before, rfl⟩ := List.getLast?_eq_some_iff.mp hlast
  obtain hbefore | hsame := List.mem_append.mp hearlier
  · have hcurrent : current = earlier :=
      (List.pairwise_append.mp hkept).2.2 earlier hbefore current List.mem_cons_self hterminal
    subst hcurrent
    exact hnext hterminal
  · obtain rfl := List.mem_singleton.mp hsame
    exact hnext hterminal

variable {env} {s t : State}

/-- A row whose status is written keeps the invariant for the calls as they are. -/
theorem inv_setRow (hi : Inv s) {row : WakeRequest}
    (hguard : s.row.status.terminal = true → row.status = s.row.status) :
    Inv (setRow s row) := by
  have hstays : s.row.status = .cancelled → row.status = .cancelled := by
    intro hcancelled
    rw [← hcancelled]
    exact hguard (by rw [hcancelled]; rfl)
  refine ⟨⟨kept_snoc hi.kept hi.current hguard, ?_⟩, ?_, hi.cancelling, ?_⟩
  · exact fun call hmem hcancels hended => hstays (hi.cancelled call hmem hcancels hended)
  · simp [setRow]
  · exact fun call hmem hcancels hstage => hstays (hi.written call hmem hcancels hstage)

/-- A call that has moved on, or a new one. -/
theorem inv_calls (hi : Inv s) {calls : List Call}
    (hcalls : ∀ call ∈ calls, call ∈ s.calls ∨ call.cancels = false ∨
      (call.stage ≠ .ended ∧ call.stage ≠ .refetching ∨ s.row.status = .cancelled) ∧
        ∀ u, call.stage = .selecting u ∨ (∃ existing, call.stage = .updating u existing) → u.status = .cancelled) :
    Inv { s with calls := calls } := by
  refine ⟨⟨hi.kept, ?_⟩, hi.current, ?_, ?_⟩
  · intro call hmem hcancels hended
    obtain hold | hnot | ⟨⟨hnot, -⟩ | hdone, -⟩ := hcalls call hmem
    · exact hi.cancelled call hold hcancels hended
    · exact absurd hcancels (by simp [hnot])
    · exact absurd hended hnot
    · exact hdone
  · intro call hmem hcancels u hu
    obtain hold | hnot | ⟨-, hkeeps⟩ := hcalls call hmem
    · exact hi.cancelling call hold hcancels u hu
    · exact absurd hcancels (by simp [hnot])
    · exact hkeeps u hu
  · intro call hmem hcancels hstage
    obtain hold | hnot | ⟨⟨-, hnot⟩ | hdone, -⟩ := hcalls call hmem
    · exact hi.written call hold hcancels hstage
    · exact absurd hcancels (by simp [hnot])
    · exact absurd hstage hnot
    · exact hdone

theorem inv_new (hi : Inv s) {call : Call} (hnew : call.cancels = false ∨
    ∃ agentId cancelledBy, call.stage = .reading agentId cancelledBy) : Inv { s with calls := s.calls ++ [call] } := by
  refine inv_calls hi fun other hmem => ?_
  obtain hold | hsame := List.mem_append.mp hmem
  · exact .inl hold
  · obtain rfl := List.mem_singleton.mp hsame
    obtain hnot | ⟨agentId, cancelledBy, hstage⟩ := hnew
    · exact .inr (.inl hnot)
    · exact .inr (.inr (by simp [hstage]))

/-- A call that moves on without writing the row. -/
theorem inv_set (hi : Inv s) {i : Nat} {call : Call} (stage : Stage)
    (hstage : call.cancels = true → (stage ≠ .ended ∧ stage ≠ .refetching ∨ s.row.status = .cancelled) ∧
      ∀ u, stage = .selecting u ∨ (∃ existing, stage = .updating u existing) → u.status = .cancelled) :
    Inv { s with calls := s.calls.set i { call with stage := stage } } := by
  refine inv_calls hi fun other hmem => ?_
  obtain hold | hset := List.mem_or_eq_of_mem_set hmem
  · exact .inl hold
  · subst hset
    cases hcancels : call.cancels with
    | false => exact .inr (.inl rfl)
    | true => exact .inr (.inr (hstage hcancels))

theorem cancelRead_stage (row : WakeRequest) (agentId cancelledBy : String) :
    (∃ error, cancelRead env row agentId cancelledBy = .refused error) ∨
      ∃ u : StatusUpdate, cancelRead env row agentId cancelledBy = .selecting u ∧ u.status = .cancelled := by
  unfold cancelRead
  split
  · exact .inl ⟨_, rfl⟩
  · split
    · exact .inl ⟨_, rfl⟩
    · exact .inr ⟨_, rfl, rfl⟩

theorem move_inv (hi : Inv s) {i : Nat} (hc : Guarded s (.move i)) (h : step env s (.move i) = some t) : Inv t := by
  simp only [step, Option.bind_eq_some_iff, Option.map_eq_some_iff] at h
  obtain ⟨call, hcall, ⟨r, stage⟩, hmove, rfl⟩ := h
  have hmem : call ∈ s.calls := List.mem_of_getElem? hcall
  cases hstage : call.stage with
  | reading agentId cancelledBy =>
    rw [hstage] at hmove
    cases hmove
    refine inv_set hi _ fun _ => ?_
    obtain ⟨error, heq⟩ | ⟨u, heq, hu⟩ := @cancelRead_stage env s.row agentId cancelledBy
    · simp [heq]
    · simp [heq, hu]
  | selecting u =>
    rw [hstage] at hmove
    cases hmove
    refine inv_set hi _ fun hcancels => ?_
    have hu : u.status = .cancelled := hi.cancelling call hmem hcancels u (.inl hstage)
    simp [hu]
  | updating u existing =>
    rw [hstage] at hmove
    cases hmove
    have hrow : Inv (setRow s (updateRow env s.now existing u s.row)) :=
      inv_setRow hi fun hterminal => hc call u existing hcall hstage hterminal
    refine inv_set hrow _ fun hcancels => ?_
    have hu : u.status = .cancelled := hi.cancelling call hmem hcancels u (.inr ⟨existing, hstage⟩)
    simp [setRow, updateRow, hu]
  | refetching =>
    rw [hstage] at hmove
    cases hmove
    refine inv_set hi _ fun hcancels => ?_
    simp [hi.written call hmem hcancels hstage]
  | ended =>
    rw [hstage] at hmove
    cases hmove
  | refused error =>
    rw [hstage] at hmove
    cases hmove

/-- One guarded step leaves a final status final. -/
theorem step_inv (hi : Inv s) {e : Event} (hc : Guarded s e) (h : step env s e = some t) : Inv t := by
  cases e with
  | claim dueBefore =>
    cases h
    split
    · rename_i hdue
      refine inv_setRow hi fun hterminal => ?_
      have hpending : s.row.status = .pending := by
        simp only [due, Bool.and_eq_true, decide_eq_true_eq] at hdue
        exact hdue.1
      rw [hpending] at hterminal
      cases hterminal
    · exact hi
  | cancel agentId cancelledBy =>
    cases h
    exact inv_new hi (.inr ⟨agentId, cancelledBy, rfl⟩)
  | finalize u =>
    cases h
    exact inv_new hi (.inl rfl)
  | retry metadata policy error nextAt =>
    simp only [step, Option.map_eq_some_iff] at h
    obtain ⟨u, -, rfl⟩ := h
    exact inv_new hi (.inl rfl)
  | move i => exact move_inv hi hc h
  | wait time =>
    cases h
    exact ⟨⟨hi.kept, hi.cancelled⟩, hi.current, hi.cancelling, hi.written⟩

/-- A step after which no terminal status has been left has made its `UPDATE` as the guard asks. -/
theorem guarded_of_final (hi : Inv s) {e : Event} (h : ∀ t, step env s e = some t → Final t) : Guarded s e := by
  cases e with
  | move i =>
    intro call u existing hcall hstage hterminal
    have hstep : step env s (.move i) = some
        { setRow s (updateRow env s.now existing u s.row) with
          calls := s.calls.set i { call with stage := .refetching } } := by
      simp [step, hcall, hstage, moveStage, setRow]
    have hkept := (h _ hstep).kept
    obtain ⟨before, hbefore⟩ := List.getLast?_eq_some_iff.mp hi.current
    have hlast : s.row.status ∈ s.history := by
      rw [hbefore]
      exact List.mem_append_right before List.mem_cons_self
    exact (List.pairwise_append.mp hkept).2.2 s.row.status hlast u.status List.mem_cons_self hterminal
  | _ => trivial

/-- In every state that a run comes to no terminal status has been left, and every cancellation that has
    returned ok has left the row cancelled, exactly when each `UPDATE` is made while the status is not
    terminal or is the one that it writes. -/
theorem terminal_statuses_kept {start : State} (hcalls : start.calls = [])
    (hhistory : start.history = [start.row.status])
    {events : List Event} :
    (∀ done t, done <+: events → Run.run (step env) start done = some t → Final t) ↔
      Run.Meets (step env) Guarded start events := by
  have hstart : Inv start := by
    have hnone : ∀ call, call ∉ start.calls := fun call hmem => by simp [hcalls] at hmem
    refine ⟨⟨?_, ?_⟩, ?_, ?_, ?_⟩
    · simp [hhistory]
    · exact fun call hmem => absurd hmem (hnone call)
    · simp [hhistory]
    · exact fun call hmem => absurd hmem (hnone call)
    · exact fun call hmem => absurd hmem (hnone call)
  exact Run.all_iff_meets (I := Inv) (L := fun _ => True) (fun _ hi => hi.toFinal)
    (fun _ _ _ hi _ hc hst => step_inv hi hc hst) (fun _ _ hi _ hfinal => guarded_of_final hi hfinal)
    hstart (fun _ _ => trivial)

/-! ### A wake of one agent -/

def dictionaries : Env where
  lowercase := Lowercase.ascii
  repr _ := ""
  driver := .object
  jsonText _ := ""
  loads _ := none

def oneWake : State where
  row :=
    { id := ⟨"wake_5", by decide +kernel, by decide⟩
      triggerKind := "task_assigned"
      reason := "task_assigned"
      summary := "Task assigned: Report"
      payload := [("agent_id", .string "a1")]
      metadata := []
      status := .pending
      denialReason := none
      dueAt := 0
      createdAt := 0
      claimedAt := none
      executedAt := none }
  now := 0
  calls := []
  history := [.pending]

/-- Claimed, executed, and a cancellation that comes too late. -/
def executedWake : List Event :=
  [.claim 0, .finalize ⟨.executed, none, []⟩, .move 0, .move 0, .move 0, .cancel "a1" "owner", .move 1]

theorem terminal_statuses_kept_executed :
    ∃ t, Run.run (step dictionaries) oneWake executedWake = some t ∧ Final t := by
  have hkept := (@terminal_statuses_kept dictionaries oneWake rfl rfl executedWake).mpr
  refine ⟨_, rfl, hkept ?_ executedWake _ (List.prefix_refl _) rfl⟩
  refine ⟨trivial, trivial, ?_, ?_, ?_, trivial, ?_, trivial⟩
  all_goals
    intro call u existing hcall hstage hterminal
    cases hcall
    cases hstage
  cases hterminal

/-- A retry of the claimed wake comes after the cancellation, and it is claimed once more. -/
theorem terminal_statuses_kept_revived :
    ∃ t, Run.run (step dictionaries) oneWake
        ([.claim 0, .cancel "a1" "owner", .move 0, .move 0, .move 0, .move 0, .retry (.object []) defaultRetryPolicy "" "",
          .move 1, .move 1, .claim 0]) = some t ∧
      (t.calls[0]?).any (fun call => call.cancels && match call.stage with | .ended => true | _ => false) = true ∧
      t.row.status = .claimed ∧ ¬ Final t := by
  refine ⟨_, rfl, by decide, by decide, fun h => ?_⟩
  have hkept := h.kept
  revert hkept
  decide

end Empyralis.Server.WakeStatuses
