import Empyralis.Server.RunTransitions

/-! The log of the transitions of a run: each call that changes the status dispatches a write to
    `run_transitions`, which the kernel has to admit. -/

namespace Empyralis.Server.TransitionLog
open Kernel RunTransitions
open Text (strip)

/-- The statuses that the engine gives a run. -/
inductive EngineStatus where
  | starting | queuedLocal | runningLocal | executing | waitingForInput | completed | failed | timeout
  deriving DecidableEq

namespace EngineStatus

def text : EngineStatus → String
  | .starting => "starting"
  | .queuedLocal => "queued_local"
  | .runningLocal => "running_local"
  | .executing => "executing"
  | .waitingForInput => "waiting_for_input"
  | .completed => "completed"
  | .failed => "failed"
  | .timeout => "timeout"

def all : List EngineStatus :=
  [.starting, .queuedLocal, .runningLocal, .executing, .waitingForInput, .completed, .failed, .timeout]

theorem mem_all (status : EngineStatus) : status ∈ all := by
  cases status <;> decide

theorem strip_text (status : EngineStatus) : strip status.text = status.text := by
  have hall : ∀ a ∈ all, strip a.text = a.text := by decide
  exact hall status status.mem_all

theorem orUnknown_text (status : EngineStatus) : OutboxRows.orText status.text "unknown" = status.text := by
  have hall : ∀ a ∈ all, OutboxRows.orText a.text "unknown" = a.text := by decide
  exact hall status status.mem_all

end EngineStatus

/-- A row of `run_transitions`. -/
structure Row where
  fromState : String
  toState : String
  actor : String
  traceId : Option Token
  deriving DecidableEq

/-- The arguments of a dispatched write. -/
structure Write where
  fromState : String
  toState : String
  actor : String
  traceId : String

/-- `record_transition`: a row that the log has already is not added again. -/
def recordTransition (log : List Row) (w : Write) : List Row :=
  let fromState := OutboxRows.orText w.fromState "unknown"
  let toState := OutboxRows.orText w.toState "unknown"
  match RunRecord.recordTransitionDecision fromState toState with
  | .block _ => log
  | .allow _ nextAction _ _ _ =>
    let row : Row := ⟨fromState, toState, OutboxRows.orText w.actor "runtime", Token.read w.traceId⟩
    if nextAction = "noop" ∨ row ∈ log then log else log ++ [row]

/-- `_record_run_repository_transition` -/
def recordRunRepositoryTransition (dispatched : List Write) (w : Write) : List Write :=
  if strip w.fromState = strip w.toState then dispatched
  else dispatched ++ [{ w with fromState := OutboxRows.orText w.fromState "unknown" }]

/-! ### Runs -/

structure State where
  run : LiveRun
  dispatched : List Write
  log : List Row

inductive Label where
  | call (status : EngineStatus) (nowMono : Int) (nowIso : String) (parentRunId : Option String)
  | write (i : Nat)

def start (first : EngineStatus) (run : LiveRun) : State := ⟨{ run with status := first.text }, [], []⟩

def perform (dispatched : List Write) : Effect → List Write
  | .recordTransition fromState toState actor traceId =>
    recordRunRepositoryTransition dispatched ⟨fromState, toState, actor, traceId⟩
  | _ => dispatched

def step (s : State) : Label → Option State
  | .call status nowMono nowIso parentRunId =>
    let result := transitionLiveRunStatus ⟨status.text, nowMono, nowIso, parentRunId⟩ s.run
    some { s with run := result.1, dispatched := result.2.foldl perform s.dispatched }
  | .write i => s.dispatched[i]?.map fun w =>
    { s with dispatched := s.dispatched.eraseIdx i, log := recordTransition s.log w }

/-- The statuses that the calls ask for. -/
def asked : List Label → List String
  | [] => []
  | .call status .. :: calls => status.text :: asked calls
  | .write _ :: calls => asked calls

/-- The changes that calls make which ask for these statuses, one after the other. -/
def changes : String → List String → List (String × String)
  | _, [] => []
  | status, next :: rest => (if status = next then [] else [(status, next)]) ++ changes next rest

/-- The state that the rows of the log lead to. -/
def foldStates (first : String) (log : List Row) : String := log.foldl (fun _ row => row.toState) first

/-- The log has one row for each change, in order, and leads to the status of the run. -/
def Faithful (first : EngineStatus) (calls : List Label) (s : State) : Prop :=
  s.log.map (fun row => (row.fromState, row.toState)) = changes first.text (asked calls) ∧
    foldStates first.text s.log = s.run.status

/-! ### The kernel admits no change of the engine -/

theorem blocked {a b : EngineStatus} (h : a ≠ b) (log : List Row) (actor traceId : String) :
    recordTransition log ⟨a.text, b.text, actor, traceId⟩ = log := by
  have hall : ∀ a ∈ EngineStatus.all, ∀ b ∈ EngineStatus.all, a ≠ b →
      RunRecord.recordTransitionDecision a.text b.text = .block "run_record_transition_invalid" ∨
        RunRecord.recordTransitionDecision a.text b.text =
          .block "run_record_terminal_transition_locked" := by
    decide
  unfold recordTransition
  simp only [EngineStatus.orUnknown_text]
  obtain hblock | hblock := hall a a.mem_all b b.mem_all h
  · rw [hblock]
  · rw [hblock]

/-- The status is one of the engine, each write waits for a change of the engine, and the log is empty. -/
structure Inv (s : State) : Prop where
  status : ∃ a : EngineStatus, s.run.status = a.text
  dispatched : ∀ w ∈ s.dispatched, ∃ a b : EngineStatus, a ≠ b ∧ w.fromState = a.text ∧ w.toState = b.text
  log : s.log = []

variable {s t : State}

theorem step_call (status : EngineStatus) (nowMono : Int) (nowIso : String) (parentRunId : Option String) :
    step s (.call status nowMono nowIso parentRunId) = some { s with
      run := writeStatus ⟨status.text, nowMono, nowIso, parentRunId⟩ s.run
      dispatched := recordRunRepositoryTransition s.dispatched
        ⟨s.run.status, status.text, actor s.run, s.run.traceId⟩ } := by
  simp only [step, transitionLiveRunStatus, List.foldl_append,
    foldl_parentEffects perform fun _ _ => rfl, endEffects]
  split <;> simp only [statusEffects, List.foldl_cons, List.foldl_nil, perform]

/-- One step leaves the log empty, as the kernel refuses every write. -/
theorem inv_step (hi : Inv s) {l : Label} (h : step s l = some t) : Inv t := by
  cases l with
  | call status nowMono nowIso parentRunId =>
    rw [step_call, Option.some.injEq] at h
    subst h
    refine ⟨⟨status, rfl⟩, fun w hw => ?_, hi.log⟩
    obtain ⟨a, ha⟩ := hi.status
    dsimp only at hw
    rw [recordRunRepositoryTransition] at hw
    split at hw
    · exact hi.dispatched w hw
    · rename_i hne
      rcases List.mem_append.mp hw with hw | hw
      · exact hi.dispatched w hw
      · rw [List.mem_singleton] at hw
        subst hw
        refine ⟨a, status, fun heq => hne ?_, ?_, rfl⟩
        · dsimp only
          rw [ha, heq]
        · dsimp only
          rw [ha, EngineStatus.orUnknown_text]
  | write i =>
    rw [step, Option.map_eq_some_iff] at h
    obtain ⟨w, hget, rfl⟩ := h
    refine ⟨hi.status, fun w hw => hi.dispatched w (List.mem_of_mem_eraseIdx hw), ?_⟩
    obtain ⟨a, b, hne, hfrom, hto⟩ := hi.dispatched w (List.mem_of_getElem? hget)
    have hw : w = ⟨a.text, b.text, w.actor, w.traceId⟩ := by rw [← hfrom, ← hto]
    dsimp only
    rw [hw, blocked hne, hi.log]

theorem inv_start (first : EngineStatus) (run : LiveRun) : Inv (start first run) :=
  ⟨⟨first, rfl⟩, fun _ h => (List.not_mem_nil h).elim, rfl⟩

theorem changes_eq_nil {first : String} : ∀ {asked : List String},
    changes first asked = [] ↔ ∀ next ∈ asked, next = first
  | [] => by simp [changes]
  | next :: rest => by
    rw [changes, List.append_eq_nil_iff, List.forall_mem_cons]
    by_cases h : first = next
    · subst h
      simp [changes_eq_nil]
    · simp [h, Ne.symm h]

/-- The status after a run is the one that was asked for last. -/
theorem status_run : ∀ {calls : List Label} {s t : State}, Run.run step s calls = some t →
    t.run.status = (asked calls).getLast?.getD s.run.status
  | [], s, t, h => by
    cases h
    rfl
  | l :: calls, s, t, h => by
    rw [Run.run_cons, Option.bind_eq_some_iff] at h
    obtain ⟨u, hu, hrest⟩ := h
    rw [status_run hrest]
    cases l with
    | call status nowMono nowIso parentRunId =>
      rw [step_call, Option.some.injEq] at hu
      subst hu
      rw [asked]
      cases hasked : asked calls with
      | nil => rfl
      | cons next rest => simp [List.getLast?_cons]
    | write i =>
      rw [step, Option.map_eq_some_iff] at hu
      obtain ⟨w, -, rfl⟩ := hu
      rfl

/-- The log agrees with the run just when no call changes the status: the kernel admits no change of the
    engine. -/
theorem transition_log_faithful (first : EngineStatus) (run : LiveRun) (calls : List Label) (s : State)
    (hrun : Run.run step (start first run) calls = some s) :
    Faithful first calls s ↔ ∀ next ∈ asked calls, next = first.text := by
  have hinv : Inv s := Run.run_inv_all (fun _ _ _ hi h => inv_step hi h) (inv_start first run) hrun
  rw [Faithful, hinv.log, List.map_nil, eq_comm, changes_eq_nil]
  refine and_iff_left_of_imp fun hsame => ?_
  rw [status_run hrun]
  cases hlast : (asked calls).getLast? with
  | none => rfl
  | some last => exact (hsame last (List.mem_of_getLast? hlast)).symm

section TwoPauses

/-- A run pauses for input twice, and every write that was dispatched has run. -/
def twoPauses : List Label :=
  [.call .waitingForInput 0 "12:00" none, .write 0, .call .executing 1 "12:01" none, .write 0,
    .call .waitingForInput 2 "12:02" none, .write 0]

theorem transition_log_paused : ∃ s, Run.run step (start .executing { runId := "run-1", status := "" })
    twoPauses = some s ∧ (Faithful .executing twoPauses s ↔ ∀ next ∈ asked twoPauses, next = "executing") :=
  ⟨_, rfl, transition_log_faithful .executing { runId := "run-1", status := "" } twoPauses _ rfl⟩

/-- The kernel refuses both pauses, and the log stays empty while the status changes. -/
theorem transition_log_two_pauses : ∃ s, Run.run step (start .executing { runId := "run-1", status := "" })
    twoPauses = some s ∧ s.dispatched.length = 0 ∧ s.log = [] ∧ s.run.status = "waiting_for_input" ∧
      ¬ Faithful .executing twoPauses s := by
  refine ⟨_, rfl, ?_, ?_, ?_, fun h => ?_⟩
  · decide
  · decide
  · decide
  · exact absurd h.1 (by decide)

end TwoPauses

end Empyralis.Server.TransitionLog
