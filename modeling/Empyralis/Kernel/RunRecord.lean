import Empyralis.Kernel.Protocol

/-! The decision of the kernel on the record of a run: a snapshot of it, a row of its log of transitions,
    its archive, or an event of a transition. The caller sends a run, a tenant and a workspace that are
    not blank, and none of the flags that would block the operation. -/

namespace Empyralis.Kernel.RunRecord

/-- What the repository reads of a reply: with an `allow` the action that is next and, where there is a
    patch of the record, the status in it. -/
inductive Reply where
  | block (reason : String)
  | allow (reason nextAction fromState toState : String) (status : Option String)
  deriving DecidableEq

/-- `normalize_token` -/
def token (value : String) : String :=
  String.ofList (((Text.trim Text.rustSpace value).toList.map Char.toLower).map fun c =>
    if c = '-' then '_' else c)

/-- `normalize_state` -/
def normalizeState (value : String) : String :=
  match token value with
  | "canceled" => "cancelled"
  | "timed_out" => "timeout"
  | "succeeded" => "completed"
  | "waiting" | "hitl_wait" => "waiting_for_input"
  | other => other

/-- `TERMINAL_STATES` -/
def terminalStates : List String :=
  ["completed", "succeeded", "failed", "cancelled", "canceled", "timeout", "timed_out", "archived"]

def isTerminal (state : String) : Bool := terminalStates.contains state

/-- The pairs of states that are allowed. -/
def transitions : List (String × String) :=
  [("unknown", "queued"), ("none", "queued"), ("queued", "running"), ("queued", "awaiting_approval"),
    ("queued", "cancelled"), ("awaiting_approval", "approved"), ("awaiting_approval", "cancelled"),
    ("approved", "running"), ("approved", "queued"), ("running", "waiting_for_input"),
    ("waiting_for_input", "running"), ("running", "completed"), ("running", "failed"),
    ("running", "cancelled"), ("running", "timeout"), ("failed", "queued"), ("timeout", "queued")]

def allowedTransition (fromState toState : String) : Bool := transitions.contains (fromState, toState)

/-- A snapshot needs a state. -/
def persistSnapshotDecision (state : String) : Reply :=
  let state := normalizeState state
  if state = "" then .block "run_record_state_missing"
  else .allow "run_record_snapshot_allowed" "update_live_run_if_version_matches" state state (some state)

/-- A transition needs a pair that is allowed, or is a `noop` between equal states. -/
def recordTransitionDecision (fromState toState : String) : Reply :=
  let fromState := normalizeState fromState
  let toState := normalizeState toState
  if fromState = "" ∨ toState = "" then .block "run_record_transition_state_missing"
  else if fromState = toState then
    .allow "run_record_transition_noop" "noop" fromState toState none
  else if isTerminal fromState then .block "run_record_terminal_transition_locked"
  else if !allowedTransition fromState toState then .block "run_record_transition_invalid"
  else .allow "run_record_transition_allowed" "record_transition" fromState toState (some toState)

/-- Only a terminal state is archived. -/
def archivePayloadDecision (finalState : String) : Reply :=
  let finalState := normalizeState finalState
  if finalState = "" then .block "run_record_final_state_missing"
  else if !isTerminal finalState then .block "run_record_archive_requires_terminal_state"
  else .allow "run_record_archive_allowed" "archive_run" finalState "archived" (some finalState)

/-- An event needs both states, whether or not the pair is allowed. -/
def emitTransitionOutboxDecision (fromState toState : String) : Reply :=
  let fromState := normalizeState fromState
  let toState := normalizeState toState
  if fromState = "" ∨ toState = "" then .block "run_record_outbox_state_missing"
  else .allow "run_record_transition_outbox_allowed"
    (if fromState = toState then "noop" else "emit_run_transition_event") fromState toState none

/-- A state that is not blank is not blank in its normal form. -/
theorem normalizeState_eq_empty {value : String} : normalizeState value = "" ↔ present value = none := by
  have htoken : token value = "" ↔ Text.trim Text.rustSpace value = "" := by
    rw [token, ← String.toList_inj, String.toList_ofList]
    simp
  have hstate : normalizeState value = "" ↔ token value = "" := by
    unfold normalizeState
    split <;> simp_all
  rw [hstate, htoken, present]
  split <;> simp [*]

end Empyralis.Kernel.RunRecord
