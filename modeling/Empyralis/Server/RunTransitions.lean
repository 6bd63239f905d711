import Empyralis.Kernel.RunRecord
import Empyralis.Lib.Run
import Empyralis.Server.TransitionEvents

/-! The status of a live run: `transition_live_run_status` writes it and everything that follows from
    it. What it asks of other services is the list of its effects, in their order.

    Times are microseconds of the monotonic clock. -/

namespace Empyralis.Server.RunTransitions
open Kernel
open Text (strip)

/-- What the code reads of a live run. -/
structure LiveRun where
  runId : String
  status : String
  tenantId : String := ""
  workspaceId : String := ""
  requestActorType : String := ""
  actorType : String := ""
  traceId : String := ""
  agentInstallId : String := ""
  failureSummary : String := ""
  hitlWaitStartMono : Option Int := none
  hitlWaitTotal : Int := 0
  startedMono : Option Int := none
  finishedMono : Option Int := none
  duration : Option Int := none
  completedAt : String := ""
  updatedAt : String := ""
  archived : Bool := false

/-- The arguments of a transition. -/
structure Call where
  status : String
  nowMono : Int
  nowIso : String
  parentRunId : Option String := none

/-- What a transition does besides the status, in its order. -/
inductive Effect where
  | snapshot (state traceId : String)
  | recordTransition (fromState toState actor traceId : String)
  | emitTransition (change : TransitionEvents.Change) (fromState : String)
  | reconcileMachineLeaseRelease
  | archivePayload (finalState traceId : String)
  | archiveIfTerminal
  | removeLiveRunState
  | persistLiveRunState
  | refreshParentDelegationState (parentRunId : String)

/-- The statuses that end a run here and send it to the archive. -/
def finishing : List String := ["completed", "failed", "timeout"]

/-- `TERMINAL_RUN_STATUSES`, which `set_run_status` passes on. -/
def terminalRunStatuses : List String :=
  ["completed", "failed", "timeout", "waiting_for_input", "stopped", "cancelled"]

/-- `_TERMINAL_DURABLE_STATES` -/
def terminalDurableStates : List String := ["completed", "failed", "timeout", "cancelled", "stopped"]

/-- Who changes the status. -/
def actor (run : LiveRun) : String :=
  if strip run.requestActorType ≠ "" then strip run.requestActorType
  else TransitionEvents.orRuntime run.actorType

/-- The wait for a person ends when the run leaves it. -/
def leaveWait (c : Call) (run : LiveRun) : LiveRun :=
  if run.status = "waiting_for_input" ∧ c.status ≠ "waiting_for_input" then
    match run.hitlWaitStartMono with
    | some start => { run with
        hitlWaitTotal := run.hitlWaitTotal + max 0 (c.nowMono - start)
        hitlWaitStartMono := none }
    | none => run
  else run

def enterWait (c : Call) (run : LiveRun) : LiveRun :=
  if c.status = "waiting_for_input" then { run with hitlWaitStartMono := some c.nowMono } else run

/-- The first end of a run gives it its duration. -/
def finish (c : Call) (run : LiveRun) : LiveRun :=
  if finishing.contains c.status ∧ run.finishedMono = none then
    { run with
      finishedMono := some c.nowMono
      duration := (run.startedMono.map fun start => max 0 (c.nowMono - start)).or run.duration
      completedAt := c.nowIso }
  else run

/-- The fields of the run after a call. There is no guard: every status may follow every other. -/
def writeStatus (c : Call) (run : LiveRun) : LiveRun :=
  { finish c (enterWait c (leaveWait c run)) with
    status := c.status
    updatedAt := c.nowIso }

/-- The change that is emitted. -/
def change (c : Call) (run : LiveRun) : TransitionEvents.Change where
  runId := run.runId
  tenantId := run.tenantId
  workspaceId := run.workspaceId
  toState := c.status
  actor := actor run
  traceId := run.traceId
  agentInstallId := run.agentInstallId
  failureReason :=
    if ["failed", "timeout"].contains (Lowercase.ascii.token c.status) then run.failureSummary else ""
  emittedAt := c.nowIso

/-- What is done of any change. -/
def statusEffects (c : Call) (run : LiveRun) : List Effect :=
  [.snapshot c.status run.traceId, .recordTransition run.status c.status (actor run) run.traceId,
    .emitTransition (change c run) run.status]

/-- What is done of a run that is finished, and else the save. -/
def endEffects (c : Call) (run : LiveRun) : List Effect :=
  if finishing.contains c.status then
    [.reconcileMachineLeaseRelease, .archivePayload c.status run.traceId, .archiveIfTerminal,
      .removeLiveRunState]
  else [.persistLiveRunState]

/-- The parent of a run that is over is refreshed. -/
def parentEffects (c : Call) : List Effect :=
  match c.parentRunId with
  | some parent =>
    if terminalRunStatuses.contains c.status then [.refreshParentDelegationState parent] else []
  | none => []

/-- `transition_live_run_status` -/
def transitionLiveRunStatus (c : Call) (run : LiveRun) : LiveRun × List Effect :=
  (writeStatus c run, statusEffects c run ++ (endEffects c run ++ parentEffects c))

/-- Who handles neither of the effects at the end is not changed by them. -/
theorem foldl_parentEffects {σ : Type} (perform : σ → Effect → σ)
    (h : ∀ s parent, perform s (.refreshParentDelegationState parent) = s) (c : Call) (s : σ) :
    (parentEffects c).foldl perform s = s := by
  unfold parentEffects
  split
  · split
    · exact h s _
    · rfl
  · rfl

@[simp] theorem writeStatus_status (c : Call) (run : LiveRun) : (writeStatus c run).status = c.status :=
  rfl

/-! ### Terminal runs -/

/-- `archive_run`: the kernel gives the state that is stored. -/
def archiveRun (finalState : String) (archive : Option String) : Option String :=
  match RunRecord.archivePayloadDecision (OutboxRows.orText finalState "completed") with
  | .allow _ _ _ _ (some status) => some status
  | _ => archive

/-- The run, the writes to the archive that were dispatched and have not run yet, and the final state in
    the archive. -/
structure State where
  run : LiveRun
  dispatched : List String
  archive : Option String

/-- A call, with what became of the write of `archive_run_if_terminal`, or one of the dispatched writes,
    which may fail. -/
inductive Label where
  | call (c : Call) (archives : Bool)
  | write (i : Nat) (stored : Bool)

/-- `_archive_run_if_terminal` -/
def archiveRunIfTerminal (archives : Bool) (s : State) : State :=
  if s.run.archived || !archives then s
  else { s with
    archive := archiveRun s.run.status s.archive
    run := { s.run with archived := true } }

/-- The state after an effect. -/
def perform (archives : Bool) (s : State) : Effect → State
  | .archivePayload finalState _ => { s with dispatched := s.dispatched ++ [finalState] }
  | .archiveIfTerminal => archiveRunIfTerminal archives s
  | _ => s

def start (run : LiveRun) : State := ⟨run, [], none⟩

def step (s : State) : Label → Option State
  | .call c archives =>
    let result := transitionLiveRunStatus c s.run
    some (result.2.foldl (perform archives) { s with run := result.1 })
  | .write i stored =>
    s.dispatched[i]?.map fun finalState =>
      { s with
        dispatched := s.dispatched.eraseIdx i
        archive := if stored then archiveRun finalState s.archive else s.archive }

/-- The event of a call. -/
def emits (s : State) : Label → Option OutboxRows.NewEvent
  | .call c _ => TransitionEvents.emitted (change c s.run) s.run.status
  | .write .. => none

/-- Once the status is terminal, a step leaves it, announces no way out of it, and keeps the final state
    that is archived. -/
def Absorbing (s : State) (l : Label) : Prop :=
  ∀ t, step s l = some t → s.run.status ∈ terminalDurableStates →
    t.run.status = s.run.status ∧ emits s l = none ∧ ∀ f, s.archive = some f → t.archive = some f

/-- A call on a run whose status is terminal asks for that status. -/
def agrees (s : State) : Label → Bool
  | .call c _ => !terminalDurableStates.contains s.run.status || c.status = s.run.status
  | .write .. => true

def Agrees (s : State) (l : Label) : Prop := agrees s l = true

instance (s : State) (l : Label) : Decidable (Agrees s l) := inferInstanceAs (Decidable (_ = true))

/-- What waits for the archive, and what is in it, is the status the run has ended in. -/
structure Ended (s : State) : Prop where
  dispatched : ∀ f ∈ s.dispatched, f = s.run.status ∧ f ∈ finishing
  archive : ∀ f, s.archive = some f → f = s.run.status ∧ f ∈ finishing

variable {s t : State}

theorem ended_start (run : LiveRun) : Ended (start run) :=
  ⟨fun _ h => (List.not_mem_nil h).elim, fun _ h => nomatch h⟩

theorem archiveRun_finishing {f : String} (h : f ∈ finishing) (archive : Option String) :
    archiveRun f archive = some f := by
  have harchive : ∀ f ∈ finishing, RunRecord.archivePayloadDecision (OutboxRows.orText f "completed") =
      .allow "run_record_archive_allowed" "archive_run" f "archived" (some f) := by decide
  unfold archiveRun
  simp only [harchive f h]

theorem mem_terminal_of_finishing {f : String} (h : f ∈ finishing) : f ∈ terminalDurableStates := by
  have hsub : ∀ f ∈ finishing, f ∈ terminalDurableStates := by decide
  exact hsub f h

/-- The state after a call. -/
theorem step_call (c : Call) (archives : Bool) : step s (.call c archives) =
    some (if finishing.contains c.status then
      archiveRunIfTerminal archives { s with
        run := writeStatus c s.run
        dispatched := s.dispatched ++ [c.status] }
    else { s with run := writeStatus c s.run }) := by
  simp only [step, transitionLiveRunStatus, List.foldl_append,
    foldl_parentEffects (perform archives) fun _ _ => rfl, endEffects]
  split <;> rfl

theorem archiveRunIfTerminal_spec (archives : Bool) (s : State) :
    (archiveRunIfTerminal archives s).run.status = s.run.status ∧
      (archiveRunIfTerminal archives s).dispatched = s.dispatched ∧
      ((archiveRunIfTerminal archives s).archive = s.archive ∨
        (archiveRunIfTerminal archives s).archive = archiveRun s.run.status s.archive) := by
  unfold archiveRunIfTerminal
  split
  · exact ⟨rfl, rfl, .inl rfl⟩
  · refine ⟨rfl, rfl, .inr ?_⟩
    dsimp only

/-- A run that has ended is only called with its own status. -/
theorem status_of_ended {c : Call} {archives : Bool} (ha : Agrees s (.call c archives)) {f : String}
    (h : f = s.run.status ∧ f ∈ finishing) : f = c.status := by
  have hmem : s.run.status ∈ terminalDurableStates := h.1 ▸ mem_terminal_of_finishing h.2
  simp only [Agrees, agrees, List.contains_iff_mem.mpr hmem, Bool.not_true, Bool.false_or,
    decide_eq_true_eq] at ha
  rw [h.1, ha]

theorem ended_call (he : Ended s) {c : Call} {archives : Bool} (ha : Agrees s (.call c archives))
    (h : step s (.call c archives) = some t) : Ended t := by
  rw [step_call, Option.some.injEq] at h
  subst h
  split
  · rename_i hfinish
    rw [List.contains_iff_mem] at hfinish
    obtain ⟨hstatus, hdispatched, harchive⟩ := archiveRunIfTerminal_spec archives
      { s with run := writeStatus c s.run, dispatched := s.dispatched ++ [c.status] }
    refine ⟨fun f hf => ?_, fun f hf => ?_⟩
    · rw [hdispatched, List.mem_append, List.mem_singleton] at hf
      rw [hstatus, writeStatus_status]
      rcases hf with hf | rfl
      · exact ⟨status_of_ended ha (he.dispatched f hf), (he.dispatched f hf).2⟩
      · exact ⟨rfl, hfinish⟩
    · rw [hstatus, writeStatus_status]
      rcases harchive with harchive | harchive
      · rw [harchive] at hf
        exact ⟨status_of_ended ha (he.archive f hf), (he.archive f hf).2⟩
      · rw [harchive, writeStatus_status, archiveRun_finishing hfinish, Option.some.injEq] at hf
        subst hf
        exact ⟨rfl, hfinish⟩
  · exact ⟨fun f hf => ⟨status_of_ended ha (he.dispatched f hf), (he.dispatched f hf).2⟩,
      fun f hf => ⟨status_of_ended ha (he.archive f hf), (he.archive f hf).2⟩⟩

theorem ended_write (he : Ended s) {i : Nat} {stored : Bool} (h : step s (.write i stored) = some t) :
    Ended t ∧ t.run = s.run ∧ ∀ f, s.archive = some f → t.archive = some f := by
  rw [step, Option.map_eq_some_iff] at h
  obtain ⟨finalState, hget, rfl⟩ := h
  obtain ⟨hstatus, hfinish⟩ := he.dispatched finalState (List.mem_of_getElem? hget)
  have harchive : (if stored then archiveRun finalState s.archive else s.archive) =
      if stored then some finalState else s.archive := by
    rw [archiveRun_finishing hfinish]
  refine ⟨⟨fun f hf => he.dispatched f (List.mem_of_mem_eraseIdx hf), fun f hf => ?_⟩, rfl, fun f hf => ?_⟩
  · change (if stored then archiveRun finalState s.archive else s.archive) = some f at hf
    rw [harchive] at hf
    split at hf
    · cases hf
      exact ⟨hstatus, hfinish⟩
    · exact he.archive f hf
  · change (if stored then archiveRun finalState s.archive else s.archive) = some f
    rw [harchive, hf, (he.archive f hf).1, hstatus]
    split <;> rfl

theorem ended_step (he : Ended s) {l : Label} (ha : Agrees s l) (h : step s l = some t) : Ended t := by
  cases l with
  | call c archives => exact ended_call he ha h
  | write i stored => exact (ended_write he h).1

/-- No event is emitted of a call with the status that the run has. -/
theorem emits_same {c : Call} {archives : Bool} (h : c.status = s.run.status) :
    emits s (.call c archives) = none := by
  have hstrip : strip s.run.status = strip (change c s.run).toState := congrArg strip h.symm
  exact if_pos hstrip

/-- A step leaves a run that is over as it is exactly if it asks for the same status. -/
theorem absorbing_iff (he : Ended s) (l : Label) : Absorbing s l ↔ Agrees s l := by
  cases l with
  | write i stored =>
    refine iff_of_true (fun t h _ => ?_) rfl
    obtain ⟨-, hrun, harchive⟩ := ended_write he h
    exact ⟨by rw [hrun], rfl, harchive⟩
  | call c archives =>
    constructor
    · intro h
      rw [Agrees, agrees, Bool.or_eq_true, Bool.not_eq_true', ← Bool.not_eq_true, List.contains_iff_mem,
        decide_eq_true_eq, ← imp_iff_not_or]
      intro hmem
      have hstatus := (h _ (step_call c archives) hmem).1
      split at hstatus
      · rw [(archiveRunIfTerminal_spec archives _).1] at hstatus
        exact hstatus
      · exact hstatus
    · intro ha t h hmem
      have hsame : c.status = s.run.status := by
        simpa only [Agrees, agrees, List.contains_iff_mem.mpr hmem, Bool.not_true, Bool.false_or,
          decide_eq_true_eq] using ha
      have hended := ended_call he ha h
      rw [step_call, Option.some.injEq] at h
      subst h
      split
      · rename_i hfinish
        rw [List.contains_iff_mem] at hfinish
        obtain ⟨hstatus, -, harchive⟩ := archiveRunIfTerminal_spec archives
          { s with run := writeStatus c s.run, dispatched := s.dispatched ++ [c.status] }
        refine ⟨hstatus.trans hsame, emits_same hsame, fun f hf => ?_⟩
        rcases harchive with harchive | harchive
        · rw [harchive, hf]
        · rw [harchive, writeStatus_status, archiveRun_finishing hfinish, hsame, (he.archive f hf).1]
      · exact ⟨hsame, emits_same hsame, fun f hf => hf⟩

/-- A terminal status is absorbing just when every call on a run that has one asks for it again. -/
theorem terminal_status_absorbing (run : LiveRun) (calls : List Label) :
    Run.Meets step Absorbing (start run) calls ↔ Run.Meets step Agrees (start run) calls := by
  constructor
  · exact Run.meets_inv (fun _ l _ he h hst => ended_step he ((absorbing_iff he l).mp h) hst)
      (fun _ l he h => (absorbing_iff he l).mp h) (ended_start run)
  · exact Run.meets_inv (fun _ _ _ he h hst => ended_step he h hst)
      (fun _ l he h => (absorbing_iff he l).mpr h) (ended_start run)

section TimedOut

/-- A run is declared timed out, and its thread then reports that it is through. -/
def timedOut : List Label :=
  [.call ⟨"timeout", 0, "12:00", none⟩ true, .write 0 true, .call ⟨"completed", 1, "12:01", none⟩ true,
    .write 0 true]

/-- The run is archived as timed out, and then as completed. -/
theorem terminal_status_timed_out :
    ¬ Run.Meets step Absorbing (start { runId := "run-1", status := "executing" }) timedOut ∧
      (∃ s, Run.run step (start { runId := "run-1", status := "executing" }) (timedOut.take 2) = some s ∧
        s.run.status = "timeout" ∧ s.archive = some "timeout") ∧
      ∃ s, Run.run step (start { runId := "run-1", status := "executing" }) timedOut = some s ∧
        s.run.status = "completed" ∧ s.archive = some "completed" := by
  refine ⟨?_, ⟨_, rfl, ?_, ?_⟩, _, rfl, ?_, ?_⟩
  · rw [terminal_status_absorbing]
    decide
  all_goals decide

end TimedOut

end Empyralis.Server.RunTransitions
