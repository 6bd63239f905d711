import Empyralis.Kernel.RunRecord
import Empyralis.Server.OutboxDelivery

/-! The events of the transitions of runs: a change of a run's status is persisted in the outbox under an
    id made of the run and the two states, and the deliverers take it from there. -/

namespace Empyralis.Server.TransitionEvents
open Kernel OutboxRows
open Text (strip)

/-- What a change of status says, its new state and the fields of the run that go with it. -/
structure Change where
  runId : String
  tenantId : String := ""
  workspaceId : String := ""
  toState : String
  actor : String := ""
  traceId : String := ""
  agentInstallId : String := ""
  failureReason : String := ""
  emittedAt : String := ""

/-- `_run_transition_metadata` -/
def runTransitionMetadata (c : Change) : Fields :=
  (if strip c.agentInstallId = "" then [] else [("agent_install_id", .string (strip c.agentInstallId))]) ++
    if strip c.failureReason = "" then []
    else [("failure_reason", .string (String.ofList ((strip c.failureReason).toList.take 1000)))]

def runToken (c : Change) : String := strip c.runId

def fromToken (fromState : String) : String := orText fromState "unknown"

def toToken (c : Change) : String := orText c.toState "unknown"

/-- The key has no part that a repeated change would not have. -/
def idempotencyKey (c : Change) (fromState : String) : String :=
  "run_transition:" ++ runToken c ++ ":" ++ fromToken fromState ++ ":" ++ toToken c

/-- `_build_event_id`, where the key is not blank -/
def buildEventId (eventType idempotencyKey : String) : String :=
  eventType ++ ":" ++ strip idempotencyKey

/-- The actor of an event. -/
def orRuntime (actor : String) : String := orText actor "runtime"

/-- The payload of the event. -/
def payload (c : Change) (fromState : String) : Fields :=
  [("run_id", .string (runToken c)), ("from_state", .string (fromToken fromState)),
    ("to_state", .string (toToken c)), ("actor", .string (orRuntime c.actor)),
    ("emitted_at", .string c.emittedAt), ("metadata", .object (runTransitionMetadata c))]

/-- The event that `emit_runtime_event` makes of it. -/
def event (c : Change) (fromState : String) : NewEvent where
  eventId := buildEventId "run_transition" (idempotencyKey c fromState)
  eventType := "run_transition"
  tenantId := orText c.tenantId "default"
  workspaceId := orText c.workspaceId "default"
  runId := some (runToken c)
  traceId := strip c.traceId
  idempotencyKey := strip (idempotencyKey c fromState)
  payload := payload c fromState

/-- `emit_run_transition_event`. The kernel refuses a run without an id, and the caller logs that. -/
def emitRunTransitionEvent (c : Change) (fromState : String) : Option NewEvent :=
  if (present (runToken c)).isNone then none
  else
    match RunRecord.emitTransitionOutboxDecision (fromToken fromState) (toToken c) with
    | .block _ => none
    | .allow _ nextAction _ _ _ => if nextAction = "noop" then none else some (event c fromState)

/-- `_emit_run_transition_outbox_event` -/
def emitted (c : Change) (fromState : String) : Option NewEvent :=
  if strip fromState = strip c.toState then none else emitRunTransitionEvent c fromState

/-- The outbox after a change. -/
def rowsAfter (now : Int) (rows : Rows) (c : Change) (fromState : String) : Rows :=
  match emitted c fromState with
  | none => rows
  | some e => (persistOutboxEvent now rows e).2

/-! ### Which changes are persisted -/

/-- The change is one between two states that the kernel tells apart. -/
def distinct (c : Change) (fromState : String) : Bool :=
  strip c.runId ≠ "" &&
    RunRecord.normalizeState (fromToken fromState) ≠ RunRecord.normalizeState (toToken c)

/-- The id of the event, as the row has it. -/
def eventId (c : Change) (fromState : String) : Option Token :=
  Token.read (event c fromState).eventId

theorem normalizeState_orText (value : String) :
    RunRecord.normalizeState (orText value "unknown") ≠ "" := by
  have hself : strip (orText value "unknown") = orText value "unknown" := by
    unfold orText
    split
    · decide
    · exact Text.trim_trim _ _
  have hwritten : orText value "unknown" ≠ "" := by
    unfold orText
    split
    · decide
    · assumption
  have hpresent := present_strip (orText value "unknown")
  rw [hself, if_neg hwritten] at hpresent
  rw [ne_eq, RunRecord.normalizeState_eq_empty, hpresent]
  exact Option.some_ne_none _

theorem present_runToken (c : Change) : (present (runToken c)).isNone = decide (strip c.runId = "") := by
  rw [runToken, present_strip]
  split <;> simp [*]

/-- An event is emitted of just the changes that the kernel tells apart. -/
theorem emitted_eq (c : Change) (fromState : String) :
    emitted c fromState = if distinct c fromState then some (event c fromState) else none := by
  unfold emitted emitRunTransitionEvent
  by_cases hsame : strip fromState = strip c.toState
  · have hnormal : RunRecord.normalizeState (fromToken fromState) =
        RunRecord.normalizeState (toToken c) := by
      rw [fromToken, toToken, orText, orText, hsame]
    simp [hsame, distinct, hnormal]
  · rw [if_neg hsame, present_runToken]
    by_cases hrun : strip c.runId = ""
    · simp [hrun, distinct]
    · simp only [hrun, decide_false, Bool.false_eq_true, if_false, distinct, ne_eq, not_false_eq_true,
        decide_true, Bool.true_and, RunRecord.emitTransitionOutboxDecision, fromToken, toToken,
        normalizeState_orText, or_self]
      by_cases heq : RunRecord.normalizeState (orText fromState "unknown") =
          RunRecord.normalizeState (orText c.toState "unknown")
      · simp [heq]
      · simp [heq]

theorem not_blank_of_written {text : String} (h : strip text ≠ "") : (present (strip text)).isNone = false := by
  rw [present_strip, if_neg h]
  rfl

theorem strip_orText (value other : String) (h : strip other ≠ "") : strip (orText value other) ≠ "" := by
  unfold orText
  split
  · exact h
  · rename_i hne
    rwa [show strip (strip value) = strip value from Text.trim_trim _ _]

/-- The gate of the outbox lets the events of transitions through. -/
theorem persistDecision_event (c : Change) (fromState : String) :
    persistDecision (event c fromState) = .ok () := by
  have hid : strip (event c fromState).eventId ≠ "" := by
    refine Text.trim_ne_empty (c := 'r') ?_ (by decide)
    simp [event, buildEventId]
  have htype : strip (event c fromState).eventType ≠ "" := by
    have h : strip "run_transition" ≠ "" := by decide
    exact h
  have hdefault : strip "default" ≠ "" := by decide
  have htenant : strip (event c fromState).tenantId ≠ "" := by
    simp only [event]
    exact strip_orText c.tenantId "default" hdefault
  have hworkspace : strip (event c fromState).workspaceId ≠ "" := by
    simp only [event]
    exact strip_orText c.workspaceId "default" hdefault
  simp [persistDecision, not_blank_of_written hid, not_blank_of_written htype,
    not_blank_of_written htenant, not_blank_of_written hworkspace]

theorem eventType_content (c : Change) (fromState : String) :
    (event c fromState).content.eventType = "run_transition" := by
  simp only [NewEvent.content, event]
  decide

theorem eventId_isSome (c : Change) (fromState : String) : ∃ id, eventId c fromState = some id := by
  rw [← Option.ne_none_iff_exists', eventId, ne_eq, Token.read_eq_none]
  refine Text.trim_ne_empty (c := 'r') ?_ (by decide)
  simp [event, buildEventId]

/-- The rows after a change. -/
theorem rowsAfter_eq (now : Int) (rows : Rows) (c : Change) (fromState : String) {id : Token}
    (hid : eventId c fromState = some id) : rowsAfter now rows c fromState =
      if distinct c fromState then
        (Sql.upsert rows id (newRow now (event c fromState).content) fun old =>
          some (repersist (event c fromState).content old)).2
      else rows := by
  rw [eventId] at hid
  simp only [rowsAfter, emitted_eq]
  split
  · rename_i h
    split at h
    · cases h
    · rename_i hne
      rw [if_neg hne]
  · rename_i e h
    split at h
    · rename_i hpos
      cases h
      simp only [if_pos hpos, persistOutboxEvent, hid, persistDecision_event]
    · cases h

/-! ### Runs -/

/-- The outbox with its deliverers, the status of each run, and the ids of the events that were
    persisted. -/
structure State where
  outbox : OutboxDelivery.State
  status : String → String
  persisted : List Token

/-- A change, or a step of the delivery. -/
inductive Label where
  | change (now : Int) (c : Change)
  | deliver (l : OutboxDelivery.Label)

def start (clock : Int) (status : String → String) : State := ⟨OutboxDelivery.start clock, status, []⟩

def setStatus (status : String → String) (run state other : String) : String :=
  if other = run then state else status other

/-- A change of the status of a run, or a statement of a deliverer. -/
def step (s : State) : Label → Option State
  | .change now c =>
    if s.outbox.clock ≤ now then
      some {
        outbox := { s.outbox with
          clock := now
          rows := rowsAfter now s.outbox.rows c (s.status c.runId) }
        status := setStatus s.status c.runId c.toState
        persisted := if distinct c (s.status c.runId) then
            (eventId c (s.status c.runId)).toList ++ s.persisted
          else s.persisted }
    else none
  | .deliver (.persist ..) => none
  | .deliver l => (OutboxDelivery.step s.outbox l).map fun outbox => { s with outbox }

/-- The change has an event of its own, with its payload, which is not delivered yet. -/
def OwnEvent (s t : State) (c : Change) : Prop :=
  ∃ id e, s.outbox.rows.get? id = none ∧ t.outbox.rows.get? id = some e ∧
    e.eventType = "run_transition" ∧ e.payload = payload c (s.status c.runId) ∧ e.deliveredAt = none

/-- What is claimed of a change from one status to a different one. -/
def Faithful (s : State) (l : Label) : Prop :=
  ∀ now c, l = .change now c → s.status c.runId ≠ c.toState →
    ∀ t, step s l = some t → OwnEvent s t c

/-- The kernel tells the two states apart, and the run has not made this change before. -/
def fresh (s : State) : Label → Bool
  | .change now c =>
    let fromState := s.status c.runId
    fromState = c.toState || now < s.outbox.clock ||
      (distinct c fromState && (eventId c fromState).all fun id => !s.persisted.contains id)
  | .deliver _ => true

def Fresh (s : State) (l : Label) : Prop := fresh s l = true

instance (s : State) (l : Label) : Decidable (Fresh s l) := inferInstanceAs (Decidable (_ = true))

/-- The rows are those of the events that were persisted. -/
def Known (s : State) : Prop := ∀ id, s.outbox.rows.get? id = none ↔ id ∉ s.persisted

variable {s t : State}

theorem known_start (clock : Int) (status : String → String) : Known (start clock status) := by
  intro id
  exact iff_of_true rfl List.not_mem_nil

theorem step_deliver {l : OutboxDelivery.Label} (h : step s (.deliver l) = some t) :
    (∀ now e, l ≠ .persist now e) ∧
      ∃ outbox, OutboxDelivery.step s.outbox l = some outbox ∧ t = { s with outbox } := by
  cases l with
  | persist now e => cases h
  | claim now deliverer r chosen =>
    obtain ⟨outbox, hout, rfl⟩ := Option.map_eq_some_iff.mp h
    exact ⟨by simp, outbox, hout, rfl⟩
  | deliver now deliverer outcome through =>
    obtain ⟨outbox, hout, rfl⟩ := Option.map_eq_some_iff.mp h
    exact ⟨by simp, outbox, hout, rfl⟩
  | patch now eventId patch =>
    obtain ⟨outbox, hout, rfl⟩ := Option.map_eq_some_iff.mp h
    exact ⟨by simp, outbox, hout, rfl⟩

/-- One step leaves the rows those of the events that were persisted. -/
theorem known_step (hk : Known s) {l : Label} (h : step s l = some t) : Known t := by
  intro id
  cases l with
  | change now c =>
    rw [step, Option.ite_none_right_eq_some, Option.some.injEq] at h
    obtain ⟨-, rfl⟩ := h
    obtain ⟨key, hkey⟩ := eventId_isSome c (s.status c.runId)
    dsimp only
    rw [rowsAfter_eq now s.outbox.rows c (s.status c.runId) hkey]
    split
    · rw [hkey, Option.toList_some, List.singleton_append, List.mem_cons, not_or]
      by_cases hid : id = key
      · subst hid
        rw [Sql.upsert_self]
        simp
      · rw [Sql.upsert_other hid, hk id]
        simp [hid]
    · exact hk id
  | deliver l =>
    obtain ⟨hl, outbox, hout, rfl⟩ := step_deliver h
    exact (OutboxDelivery.row_none hl hout id).trans (hk id)

/-- A change has an event of its own just when it is distinct and its id is new. -/
theorem ownEvent_iff (hk : Known s) {now : Int} {c : Change} {key : Token}
    (hkey : eventId c (s.status c.runId) = some key) (h : step s (.change now c) = some t) :
    OwnEvent s t c ↔ distinct c (s.status c.runId) = true ∧ key ∉ s.persisted := by
  rw [step, Option.ite_none_right_eq_some, Option.some.injEq] at h
  obtain ⟨-, rfl⟩ := h
  unfold OwnEvent
  dsimp only
  rw [rowsAfter_eq now s.outbox.rows c (s.status c.runId) hkey, ← hk key]
  constructor
  · rintro ⟨id, e, hnone, hnew, -⟩
    split at hnew
    · rename_i hdistinct
      by_cases hid : id = key
      · exact ⟨hdistinct, hid ▸ hnone⟩
      · rw [Sql.upsert_other hid, hnone] at hnew
        cases hnew
    · rw [hnone] at hnew
      cases hnew
  · rintro ⟨hdistinct, hnone⟩
    refine ⟨key, newRow now (event c (s.status c.runId)).content, hnone, ?_, ?_, rfl, rfl⟩
    · rw [if_pos hdistinct, Sql.upsert_self, hnone]
      rfl
    · exact eventType_content c (s.status c.runId)

/-- A step is faithful exactly if its change is fresh. -/
theorem faithful_iff (hk : Known s) (l : Label) : Faithful s l ↔ Fresh s l := by
  cases l with
  | deliver l => exact iff_of_true (fun now c h => nomatch h) rfl
  | change now c =>
    obtain ⟨key, hkey⟩ := eventId_isSome c (s.status c.runId)
    have hfresh : Fresh s (.change now c) ↔ (s.status c.runId ≠ c.toState → s.outbox.clock ≤ now →
        distinct c (s.status c.runId) = true ∧ key ∉ s.persisted) := by
      simp only [Fresh, fresh, hkey, Option.all_some, Bool.or_eq_true, decide_eq_true_eq,
        Bool.and_eq_true, Bool.not_eq_true', List.contains_eq_mem, decide_eq_false_iff_not]
      constructor
      · rintro ((hsame | hlt) | hown) hne hle
        · exact absurd hsame hne
        · exact absurd hlt (Int.not_lt.mpr hle)
        · exact hown
      · intro h
        by_cases hsame : s.status c.runId = c.toState
        · exact .inl (.inl hsame)
        · by_cases hlt : now < s.outbox.clock
          · exact .inl (.inr hlt)
          · exact .inr (h hsame (Int.not_lt.mp hlt))
    rw [hfresh]
    constructor
    · intro h hne hle
      have hstep : ∃ t, step s (.change now c) = some t := ⟨_, if_pos hle⟩
      obtain ⟨t, ht⟩ := hstep
      exact (ownEvent_iff hk hkey ht).mp (h now c rfl hne t ht)
    · rintro h _ _ ⟨rfl, rfl⟩ hne t ht
      refine (ownEvent_iff hk hkey ht).mpr (h hne ?_)
      rw [step, Option.ite_none_right_eq_some] at ht
      exact ht.1

/-- Every change of a run becomes an event of its own just when no change is made twice, and none is
    between two spellings of one state. -/
theorem transition_events_delivered (clock : Int) (status : String → String) (calls : List Label) :
    Run.Meets step Faithful (start clock status) calls ↔
      Run.Meets step Fresh (start clock status) calls := by
  constructor
  · exact Run.meets_inv (fun _ _ _ hk _ hst => known_step hk hst)
      (fun _ l hk h => (faithful_iff hk l).mp h) (known_start clock status)
  · exact Run.meets_inv (fun _ _ _ hk _ hst => known_step hk hst)
      (fun _ l hk h => (faithful_iff hk l).mpr h) (known_start clock status)

section SecondPause

/-- The id of the event of the pause. -/
def pauseEvent : Token :=
  ⟨"run_transition:run_transition:run-1:executing:waiting_for_input", by decide, by decide⟩

def pauseClaim : Token := ⟨"claim-1", by decide, by decide⟩

/-- A run pauses for input, the event is delivered, and the run pauses again. -/
def secondPause : List Label :=
  [.change 0 ⟨"run-1", "", "", "waiting_for_input", "", "", "", "", "12:00"⟩,
    .deliver (.claim 1 0 ⟨0, 200, "deliverer-1", 30, none, none, none, none⟩ [(pauseEvent, pauseClaim)]),
    .deliver (.deliver 2 0 .delivered true),
    .change 3 ⟨"run-1", "", "", "executing", "", "", "", "", "12:01"⟩,
    .change 4 ⟨"run-1", "", "", "waiting_for_input", "", "", "", "", "12:02"⟩]

/-- The second pause has the event id of the first, which is delivered, and makes no row of its own. -/
theorem transition_events_second_pause :
    ¬ Run.Meets step Faithful (start 0 fun _ => "executing") secondPause ∧
      ∃ s e, Run.run step (start 0 fun _ => "executing") secondPause = some s ∧
        s.outbox.rows.get? pauseEvent = some e ∧ e.deliveredAt = some 2 ∧
        s.outbox.rows.keys.length = 2 := by
  have hrun : ¬ Run.Meets step Fresh (start 0 fun _ => "executing") secondPause ∧
      (Run.run step (start 0 fun _ => "executing") secondPause).any (fun s =>
        (s.outbox.rows.get? pauseEvent).any (fun e => e.deliveredAt = some 2) &&
          s.outbox.rows.keys.length = 2) = true := by
    decide +kernel
  rw [Option.any_eq_true] at hrun
  obtain ⟨hfresh, s, hs, hrows⟩ := hrun
  rw [Bool.and_eq_true, Option.any_eq_true, decide_eq_true_eq] at hrows
  obtain ⟨⟨e, he, hdelivered⟩, hlength⟩ := hrows
  refine ⟨?_, s, e, hs, he, of_decide_eq_true hdelivered, hlength⟩
  rwa [transition_events_delivered]

end SecondPause

end Empyralis.Server.TransitionEvents
