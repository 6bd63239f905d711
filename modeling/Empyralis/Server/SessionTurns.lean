import Empyralis.Lib.Text
import Empyralis.Server.ActorQueue

/-! `EmpyralisSessionManager.iter_turn_events`: a turn of an agent and its row in the turn table.

    The generator is taken with all that it meets: the events of the agent, what the sink and the
    consumer do at each of them, how the agent ends, and which writes to the database raise. The calls
    come one after another, as the queue of their actor makes them; each one takes the table of turns
    to the next. -/

namespace Empyralis.Server.SessionTurns
open Text (strip)

/-- A value of a dictionary: its truth value and `str(value)`. -/
structure Value where
  truthy : Bool
  text : String
  deriving DecidableEq

/-- A payload; `encodable` is whether `json.dumps` takes it. -/
structure Payload where
  entries : List (String × Value)
  encodable : Bool
  deriving DecidableEq

def Payload.get (p : Payload) (key : String) : Option Value :=
  (p.entries.find? (·.1 = key)).map (·.2)

/-- What the row gives back of a payload: `_json_blob` stores `{}` for one that it cannot encode. -/
def Payload.stored (p : Payload) : List (String × Value) := if p.encodable then p.entries else []

/-- `str(value or "").strip()` -/
def textOf : Option Value → String
  | some v => if v.truthy then strip v.text else ""
  | none => ""

/-! ### The table -/

/-- The status of a turn. -/
inductive Status where
  | running | completed | error
  deriving DecidableEq

/-- A row of the turns. -/
structure TurnRow where
  sessionId : String
  requestId : String
  status : Status
  finalPayload : Option (List (String × Value))
  errorText : String
  metrics : Option (Nat × Nat)
  deriving DecidableEq

abbrev Turns := String → Option TurnRow

/-- `upsert_runtime_session_turn`, which writes nothing without the three ids. -/
def upsertTurn (turns : Turns) (turnId : String) (row : TurnRow) : Turns :=
  if strip turnId = "" ∨ strip row.sessionId = "" ∨ strip row.requestId = "" then turns
  else Function.update turns (strip turnId) (some { row with
    sessionId := strip row.sessionId
    requestId := strip row.requestId })

/-- `get_runtime_session_turn` -/
def getTurn (turns : Turns) (turnId : String) : Option TurnRow :=
  if strip turnId = "" then none else turns (strip turnId)

/-! ### What a call meets -/

/-- An `Exception` with its text, or another `BaseException`: a `GeneratorExit`, a cancellation. -/
inductive Raise where
  | exception (text : String)
  | interruption
  deriving DecidableEq

/-- `type` is `str(event.get("type") or "")`, `payload` the payload when it is a dictionary. -/
structure Event where
  type : String
  payload : Option Payload
  deriving DecidableEq

/-- An event of the agent, what the sink raises on it, and what the consumer raises at its yield. -/
structure Item where
  event : Event
  sink : Option Raise
  consumer : Option Raise

/-- A call. `drawn` are the `uuid4().hex` it may need; `prepared`, `opening`, `closing`,
    `closingSession`, `failing` and `failingSession` are what the writes to the database raise, by
    the place of the code: until the session is active, the row of the turn that starts, the row and
    the session of the turn that ended, the row and the session of the turn that failed. -/
structure Call where
  sessionId : String
  metaRequestId : Option Value
  metaClientRequestId : Option Value
  metaTurnId : Option Value
  drawn : String × String × String
  items : List Item
  agentEnd : Option Raise
  prepared : Option String
  opening : Option String
  closing : Option String
  closingSession : Option String
  failing : Option String
  failingSession : Option String

/-- `str(first or second or … or default)` -/
def firstTruthy : List (Option Value) → String → String
  | [], default => default
  | some v :: rest, default => if v.truthy then v.text else firstTruthy rest default
  | none :: rest, default => firstTruthy rest default

/-- The request id of a call; one is drawn where it has none. -/
def Call.requestId (c : Call) : String :=
  strip (firstTruthy [c.metaRequestId, c.metaClientRequestId] c.drawn.1)

/-- The id of the turn, which is that of the request unless it has its own. -/
def Call.turnId (c : Call) : String :=
  let token := strip (firstTruthy [c.metaTurnId]
    (if c.requestId = "" then c.drawn.2.1 else c.requestId))
  if token = "" then c.drawn.2.2 else token

/-! ### iter_turn_events -/

/-- What a call yields. -/
inductive Yielded where
  | replay (payload : List (String × Value)) (requestId : String)
  | event (e : Event)
  deriving DecidableEq

/-- `_completed_turn_replay_event` -/
def completedTurnReplayEvent (turns : Turns) (turnId : String) : Option Yielded :=
  match getTurn turns turnId with
  | none => none
  | some row =>
    if row.status ≠ .completed then none
    else match row.finalPayload with
      | none | some [] => none
      | some payload =>
        let token := strip (if row.requestId = "" then turnId else row.requestId)
        some (.replay payload (if token = "" then turnId else token))

variable (lower : String → String)

/-- The payload of a final event; `lower` is `str.lower`. -/
def Event.final (e : Event) : Option Payload :=
  if lower (strip e.type) = "final" then e.payload else none

/-- What has been seen of the events. -/
structure Progress where
  eventCount : Nat
  chunkCount : Nat
  finalPayload : Payload
  finalSeen : Bool

def Progress.start : Progress := ⟨0, 0, ⟨[], true⟩, false⟩

/-- The progress after an event. -/
def Progress.count (p : Progress) (e : Event) : Progress where
  eventCount := p.eventCount + 1
  chunkCount := if lower (strip e.type) = "chunk" then p.chunkCount + 1 else p.chunkCount
  finalPayload := (e.final lower).getD p.finalPayload
  finalSeen := p.finalSeen || (e.final lower).isSome

/-- The loop over the events: what it has counted and yielded, and what ended it. -/
def iterate : Progress → List Yielded → List Item → Option Raise →
    Progress × List Yielded × Option Raise
  | p, yields, [], agentEnd => (p, yields, agentEnd)
  | p, yields, item :: items, agentEnd =>
    match item.sink with
    | some r => (p, yields, some r)
    | none =>
      match item.consumer with
      | some r => (p.count lower item.event, yields ++ [.event item.event], some r)
      | none => iterate (p.count lower item.event) (yields ++ [.event item.event]) items agentEnd

/-- `final_payload or {"reply": ""}`, unless a final event came. -/
def Progress.payload (p : Progress) : Payload :=
  if p.finalSeen then p.finalPayload
  else if p.finalPayload.entries = [] then ⟨[("reply", ⟨false, ""⟩)], true⟩
  else p.finalPayload

/-- The row of a turn that ends. -/
def Call.row (c : Call) (status : Status) (payload : Payload) (errorText : String)
    (p : Progress) : TurnRow where
  sessionId := c.sessionId
  requestId := c.requestId
  status := status
  finalPayload := some payload.stored
  errorText := errorText
  metrics := some (p.eventCount, p.chunkCount)

/-- The row of a turn that begins. -/
def Call.openingRow (c : Call) : TurnRow where
  sessionId := c.sessionId
  requestId := c.requestId
  status := .running
  finalPayload := none
  errorText := ""
  metrics := none

/-- The `except Exception`: the table, and what it raises. -/
def Call.fail (c : Call) (turns : Turns) (p : Progress) (payload : Payload) (text : String) :
    Turns × Option Raise :=
  let errorText := if strip text = "" then "turn_failed" else strip text
  match c.failing with
  | some raised => (turns, some (.exception raised))
  | none => (upsertTurn turns c.turnId (c.row .error payload errorText p),
      some (.exception (c.failingSession.getD text)))

/-- What follows the loop in the `try`. -/
def Call.complete (c : Call) (turns : Turns) (p : Progress) : Turns × Option Raise :=
  let errorText := textOf (p.payload.get "error")
  let status : Status := if errorText = "" then .completed else .error
  match c.closing with
  | some raised => c.fail turns p p.payload raised
  | none =>
    let written := upsertTurn turns c.turnId (c.row status p.payload errorText p)
    match c.closingSession with
    | some raised => c.fail written p p.payload raised
    | none => (written, none)

/-- What ends the turn, by what ended the loop; an interruption passes the `except`. -/
def Call.finish (c : Call) (turns : Turns) (p : Progress) : Option Raise → Turns × Option Raise
  | none => c.complete turns p
  | some (.exception text) => c.fail turns p p.finalPayload text
  | some .interruption => (turns, some .interruption)

/-- The table after a call, what the call yielded, whether it ran the agent, and what it raised. -/
structure Outcome where
  turns : Turns
  yields : List Yielded
  ran : Bool
  raised : Option Raise

/-- A turn that is complete is replayed, any other one is run. -/
def call (turns : Turns) (c : Call) : Outcome :=
  match completedTurnReplayEvent turns c.turnId with
  | some event => ⟨turns, [event], false, none⟩
  | none =>
    if strip c.sessionId = "" then
      ⟨turns, [], false, some (.exception "session_id is required")⟩
    else match c.prepared, c.opening with
      | some raised, _ | none, some raised => ⟨turns, [], false, some (.exception raised)⟩
      | none, none =>
        let opened := upsertTurn turns c.turnId c.openingRow
        let loop := iterate lower .start [] c.items c.agentEnd
        let finished := c.finish opened loop.1 loop.2.2
        ⟨finished.1, loop.2.1, true, finished.2⟩

/-! ### What a call does to its row -/

variable {lower} {turns : Turns} {c : Call} {p : Progress}

/-- The call goes on to the agent with a row of its own. -/
structure Opened (turns : Turns) (c : Call) : Prop where
  fresh : completedTurnReplayEvent turns c.turnId = none
  prepared : c.prepared = none
  opening : c.opening = none
  session : strip c.sessionId ≠ ""
  request : strip c.requestId ≠ ""
  turn : strip c.turnId ≠ ""

/-- What is raised first while the events come. -/
def Call.firstRaise (c : Call) : Option Raise :=
  ((c.items.flatMap fun item => [item.sink, item.consumer]) ++ [c.agentEnd]).findSome? id

/-- The payload of the last final event. -/
def Call.lastFinal (lower : String → String) (c : Call) : Option Payload :=
  (c.items.filterMap fun item => item.event.final lower).getLast?

/-- The last final payload, or `{"reply": ""}`. -/
def Call.payload (lower : String → String) (c : Call) : Payload :=
  (c.lastFinal lower).getD ⟨[("reply", ⟨false, ""⟩)], true⟩

theorem upsertTurn_eq {row : TurnRow} {turnId : String} (ht : strip turnId ≠ "")
    (hs : strip row.sessionId ≠ "") (hr : strip row.requestId ≠ "") :
    upsertTurn turns turnId row = Function.update turns (strip turnId)
      (some { row with sessionId := strip row.sessionId, requestId := strip row.requestId }) := by
  rw [upsertTurn, if_neg (by simp [ht, hs, hr])]

theorem getTurn_update {turnId : String} (ht : strip turnId ≠ "") (row : TurnRow) :
    getTurn (Function.update turns (strip turnId) (some row)) turnId = some row := by
  rw [getTurn, if_neg ht, Function.update_self]

/-- The row that is read back after it was written. -/
theorem Opened.getTurn_upsert (h : Opened turns c) (turns' : Turns) {row : TurnRow}
    (hs : row.sessionId = c.sessionId) (hr : row.requestId = c.requestId) :
    getTurn (upsertTurn turns' c.turnId row) c.turnId =
      some { row with sessionId := strip c.sessionId, requestId := strip c.requestId } := by
  rw [upsertTurn_eq h.turn (hs ▸ h.session) (hr ▸ h.request), getTurn_update h.turn, hs, hr]

theorem row_ids (c : Call) (status : Status) (payload : Payload) (errorText : String)
    (p : Progress) : (c.row status payload errorText p).sessionId = c.sessionId ∧
      (c.row status payload errorText p).requestId = c.requestId :=
  ⟨rfl, rfl⟩

theorem openingRow_ids (c : Call) :
    c.openingRow.sessionId = c.sessionId ∧ c.openingRow.requestId = c.requestId :=
  ⟨rfl, rfl⟩

theorem Opened.call_eq (h : Opened turns c) :
    call lower turns c =
      (let loop := iterate lower .start [] c.items c.agentEnd
      let finished := c.finish (upsertTurn turns c.turnId c.openingRow) loop.1 loop.2.2
      ⟨finished.1, loop.2.1, true, finished.2⟩) := by
  unfold call
  rw [h.fresh]
  dsimp only
  rw [if_neg h.session, h.prepared, h.opening]

/-- The loop ends by what is raised first. -/
theorem iterate_end : ∀ (items : List Item) (p : Progress) (yields : List Yielded)
    (agentEnd : Option Raise), (iterate lower p yields items agentEnd).2.2 =
      ((items.flatMap fun item => [item.sink, item.consumer]) ++ [agentEnd]).findSome? id
  | [], p, yields, agentEnd => by cases agentEnd <;> rfl
  | item :: items, p, yields, agentEnd => by
    unfold iterate
    rcases hsink : item.sink with _ | r
    · rcases hconsumer : item.consumer with _ | r
      · simp only [iterate_end items]
        simp [hsink, hconsumer]
      · simp [hsink, hconsumer]
    · simp [hsink]

/-- The final payload that a loop without a raise has kept. -/
theorem iterate_payload (lower : String → String) : ∀ (items : List Item) (p : Progress) (yields : List Yielded)
    (agentEnd : Option Raise), (iterate lower p yields items agentEnd).2.2 = none →
      (iterate lower p yields items agentEnd).1.finalSeen =
        (p.finalSeen || (items.filterMap fun item => item.event.final lower).getLast?.isSome) ∧
      (iterate lower p yields items agentEnd).1.finalPayload =
        (items.filterMap fun item => item.event.final lower).getLast?.getD p.finalPayload
  | [], p, yields, agentEnd, _ => by simp [iterate]
  | item :: items, p, yields, agentEnd, hend => by
    unfold iterate at hend ⊢
    rcases hsink : item.sink with _ | r
    · rcases hconsumer : item.consumer with _ | r
      · simp only [hsink, hconsumer] at hend ⊢
        obtain ⟨hseen, hpayload⟩ := iterate_payload lower items _ _ agentEnd hend
        rw [hseen, hpayload, List.filterMap_cons]
        cases hfinal : item.event.final lower with
        | none => simp [Progress.count, hfinal]
        | some payload =>
          simp only [Progress.count, hfinal, List.getLast?_cons]
          cases (items.filterMap fun item => item.event.final lower).getLast? <;> simp
      · simp [hsink, hconsumer] at hend
    · simp [hsink] at hend

theorem payload_of_end (hend : c.firstRaise = none) :
    (iterate lower .start [] c.items c.agentEnd).1.payload = c.payload lower := by
  obtain ⟨hseen, hpayload⟩ := iterate_payload lower c.items .start [] c.agentEnd
    ((iterate_end _ _ _ _).trans hend)
  rw [Progress.payload, hseen, hpayload]
  unfold Call.payload Call.lastFinal
  cases (c.items.filterMap fun item => item.event.final lower).getLast? <;> simp [Progress.start]

/-! ### The row closes -/

/-- The way the loop ended lets the code close the row, and a write that would close it succeeds. -/
def Call.Closes (c : Call) : Prop :=
  match c.firstRaise with
  | some .interruption => False
  | some (.exception _) => c.failing = none
  | none => c.closing = none ∨ c.failing = none

theorem fail_status (h : Opened turns c) (turns' : Turns) (payload : Payload) (text : String) :
    (getTurn (c.fail turns' p payload text).1 c.turnId).map (·.status) =
      if c.failing = none then some .error else (getTurn turns' c.turnId).map (·.status) := by
  unfold Call.fail
  cases c.failing with
  | none =>
    simp only
    rw [h.getTurn_upsert turns' (row_ids c _ _ _ _).1 (row_ids c _ _ _ _).2]
    rfl
  | some raised => rfl

/-- The status in which a turn is left, by what raises at its end. -/
theorem complete_status (h : Opened turns c) (turns' : Turns) :
    (getTurn (c.complete turns' p).1 c.turnId).map (·.status) =
      if c.closing = none then
        if c.closingSession ≠ none ∧ c.failing = none then some .error
        else some (if textOf (p.payload.get "error") = "" then .completed else .error)
      else if c.failing = none then some .error else (getTurn turns' c.turnId).map (·.status) := by
  unfold Call.complete
  cases c.closing with
  | some raised => simpa using fail_status h turns' _ _
  | none =>
    cases c.closingSession with
    | some raised =>
      simp only [fail_status h]
      rw [h.getTurn_upsert turns' (row_ids c _ _ _ _).1 (row_ids c _ _ _ _).2]
      simp [Call.row]
    | none =>
      simp only
      rw [h.getTurn_upsert turns' (row_ids c _ _ _ _).1 (row_ids c _ _ _ _).2]
      simp [Call.row]

theorem opened_status (h : Opened turns c) :
    (getTurn (upsertTurn turns c.turnId c.openingRow) c.turnId).map (·.status) = some .running := by
  rw [h.getTurn_upsert turns (openingRow_ids c).1 (openingRow_ids c).2]
  rfl

/-- The table after a call, by what is raised first. -/
theorem Opened.turns_eq (h : Opened turns c) : (call lower turns c).turns =
    (c.finish (upsertTurn turns c.turnId c.openingRow)
      (iterate lower .start [] c.items c.agentEnd).1 c.firstRaise).1 := by
  rw [h.call_eq, Call.firstRaise, ← iterate_end c.items .start [] c.agentEnd]

/-- The row of a call is closed when the call has ended if and only if no interruption ended its loop
    and a write that closes the row went through. -/
theorem turn_closes_iff (h : Opened turns c) :
    (getTurn (call lower turns c).turns c.turnId).map (·.status) ≠ some .running ↔ c.Closes := by
  rw [h.turns_eq]
  unfold Call.Closes
  rcases c.firstRaise with _ | text | _
  · simp only [Call.finish]
    rw [complete_status h, opened_status h]
    split_ifs <;> simp_all
  · simp only [Call.finish]
    rw [fail_status h, opened_status h]
    split_ifs with hfailing <;> simp [hfailing]
  · simp only [Call.finish]
    rw [opened_status h]
    simp

/-- A call for one turn whose writes all succeed. -/
def sampleCall (items : List Item) (agentEnd : Option Raise) : Call where
  sessionId := "session"
  metaRequestId := none
  metaClientRequestId := none
  metaTurnId := some ⟨true, " turn "⟩
  drawn := ("request", "", "")
  items := items
  agentEnd := agentEnd
  prepared := none
  opening := none
  closing := none
  closingSession := none
  failing := none
  failingSession := none

/-- The consumer closes the generator at the first chunk. -/
def closedEarly : Call :=
  sampleCall [⟨⟨"chunk", none⟩, none, some .interruption⟩] none

theorem opened_sample (items : List Item) (agentEnd : Option Raise) :
    Opened (fun _ => none) (sampleCall items agentEnd) where
  fresh := by
    unfold completedTurnReplayEvent getTurn
    split_ifs <;> rfl
  prepared := rfl
  opening := rfl
  session := by
    have hsession : strip "session" ≠ "" := by decide
    exact hsession
  request := by
    have hrequest : strip (strip "request") ≠ "" := by decide
    exact hrequest
  turn := by
    have hturn : strip (if strip " turn " = "" then "" else strip " turn ") ≠ "" := by
      decide
    exact hturn

theorem turn_closes_iff_raised :
    (getTurn (call ActorQueue.lowerAscii (fun _ => none)
      (sampleCall [] (some (.exception "boom")))).turns "turn").map (·.status) ≠ some .running := by
  have hturn : (sampleCall [] (some (.exception "boom"))).turnId = "turn" := by decide
  rw [← hturn]
  exact (turn_closes_iff (opened_sample [] (some (.exception "boom")))).mpr rfl

/-- The turn stays `running`, and no write has failed. -/
theorem closed_early_leaves_running :
    (getTurn (call ActorQueue.lowerAscii (fun _ => none) closedEarly).turns "turn").map (·.status) =
      some .running ∧ closedEarly.failing = none ∧ closedEarly.closing = none := by
  decide

/-! ### A completed turn -/

/-- The call records its turn as completed. -/
structure RecordsCompleted (lower : String → String) (turns : Turns) (c : Call) : Prop where
  opened : Opened turns c
  ended : c.firstRaise = none
  closing : c.closing = none
  noError : textOf ((c.payload lower).get "error") = ""

/-- The last final payload, if there was one, is not empty and can be encoded; and when the write of
    the session after the row raises, the row is not written over. -/
def Call.StoresWhole (lower : String → String) (c : Call) : Prop :=
  (match c.lastFinal lower with
    | none => True
    | some payload => payload.entries ≠ [] ∧ payload.encodable) ∧
  (c.closingSession = none ∨ c.failing ≠ none)

/-- The call does not run the agent but yields the stored completion. -/
def Replays (lower : String → String) (turns : Turns) (c : Call)
    (payload : List (String × Value)) : Prop :=
  (call lower turns c).ran = false ∧
    ∃ requestId, (call lower turns c).yields = [.replay payload requestId]

/-- The row under a key is completed with a payload. -/
def Completed (payload : List (String × Value)) (row : Option TurnRow) : Prop :=
  row.map (·.status) = some .completed ∧ row.bind (·.finalPayload) = some payload

theorem stored_ne_nil : (c.payload lower).stored ≠ [] ↔ match c.lastFinal lower with
    | none => True
    | some payload => payload.entries ≠ [] ∧ payload.encodable := by
  unfold Call.payload
  cases c.lastFinal lower with
  | none => simp [Payload.stored]
  | some payload => cases hcode : payload.encodable <;> simp [Payload.stored, hcode]

theorem replay_of_completed {payload : List (String × Value)} {turnId : String}
    (h : Completed payload (getTurn turns turnId)) (hne : payload ≠ []) :
    ∃ requestId, completedTurnReplayEvent turns turnId = some (.replay payload requestId) := by
  obtain ⟨hstatus, hpayload⟩ := h
  unfold completedTurnReplayEvent
  cases hrow : getTurn turns turnId with
  | none => simp [hrow] at hstatus
  | some row =>
    simp only [hrow, Option.map_some, Option.some.injEq, Option.bind_some] at hstatus hpayload
    cases payload with
    | nil => exact absurd rfl hne
    | cons entry entries => simp [hstatus, hpayload]

theorem completed_of_replay {turnId : String}
    (h : completedTurnReplayEvent turns turnId ≠ none) :
    ∃ payload, payload ≠ [] ∧ Completed payload (getTurn turns turnId) := by
  unfold completedTurnReplayEvent at h
  cases hrow : getTurn turns turnId with
  | none => simp [hrow] at h
  | some row =>
    simp only [hrow] at h
    by_cases hstatus : row.status ≠ .completed
    · simp [hstatus] at h
    rw [if_neg hstatus] at h
    cases hpayload : row.finalPayload with
    | none => simp [hpayload] at h
    | some payload =>
      cases payload with
      | nil => simp [hpayload] at h
      | cons entry entries =>
        exact ⟨_, List.cons_ne_nil entry entries, congrArg some (not_not.mp hstatus), hpayload⟩

theorem replays_of_completed {payload : List (String × Value)} {d : Call}
    (h : Completed payload (getTurn turns d.turnId)) (hne : payload ≠ []) :
    Replays lower turns d payload ∧ (call lower turns d).turns = turns := by
  obtain ⟨requestId, hreplay⟩ := replay_of_completed h hne
  have hcall : call lower turns d = ⟨turns, [.replay payload requestId], false, none⟩ := by
    unfold call
    rw [hreplay]
  exact ⟨⟨by rw [hcall], requestId, by rw [hcall]⟩, by rw [hcall]⟩

theorem upsertTurn_other {turnId key : String} (hkey : strip turnId ≠ key) (row : TurnRow) :
    upsertTurn turns turnId row key = turns key := by
  unfold upsertTurn
  split_ifs
  · rfl
  · rw [Function.update_of_ne (Ne.symm hkey)]

theorem fail_other {d : Call} {key : String} (hkey : strip d.turnId ≠ key) (turns : Turns)
    (p : Progress) (payload : Payload) (text : String) :
    (d.fail turns p payload text).1 key = turns key := by
  unfold Call.fail
  cases d.failing with
  | some raised => rfl
  | none =>
    simp only
    rw [upsertTurn_other hkey]

theorem complete_other {d : Call} {key : String} (hkey : strip d.turnId ≠ key) (turns : Turns)
    (p : Progress) : (d.complete turns p).1 key = turns key := by
  unfold Call.complete
  cases d.closing with
  | some raised =>
    simp only
    rw [fail_other hkey]
  | none =>
    cases d.closingSession with
    | some raised =>
      simp only
      rw [fail_other hkey, upsertTurn_other hkey]
    | none =>
      simp only
      rw [upsertTurn_other hkey]

/-- A call writes no row but its own. -/
theorem call_other {d : Call} {key : String} (hkey : strip d.turnId ≠ key) :
    (call lower turns d).turns key = turns key := by
  unfold call
  split
  · rfl
  split_ifs
  · rfl
  split
  · rfl
  · rfl
  simp only
  rcases (iterate lower .start [] d.items d.agentEnd).2.2 with _ | text | _
  · rw [Call.finish, complete_other hkey, upsertTurn_other hkey]
  · rw [Call.finish, fail_other hkey, upsertTurn_other hkey]
  · simp only [Call.finish]
    rw [upsertTurn_other hkey]

/-- A completed row with a payload that is not empty stays as it is, whatever calls follow. -/
theorem completed_call {payload : List (String × Value)} {turnId : String} {turns : Turns} {d : Call}
    (hne : payload ≠ []) (h : Completed payload (getTurn turns turnId)) :
    Completed payload (getTurn (call lower turns d).turns turnId) := by
  by_cases hkey : strip d.turnId = strip turnId
  · have hsame : getTurn turns d.turnId = getTurn turns turnId := by
      unfold getTurn
      rw [hkey]
    have hrow : Completed payload (getTurn turns d.turnId) := by
      rw [hsame]
      exact h
    rw [(replays_of_completed hrow hne).2]
    exact h
  · have hother : getTurn (call lower turns d).turns turnId = getTurn turns turnId := by
      unfold getTurn
      rw [call_other hkey]
    rw [hother]
    exact h

theorem completed_stays {payload : List (String × Value)} {turnId : String} (hne : payload ≠ [])
    (later : List Call) {turns : Turns} (h : Completed payload (getTurn turns turnId)) :
    Completed payload (getTurn (later.foldl (fun t d => (call lower t d).turns) turns) turnId) := by
  induction later generalizing turns with
  | nil => exact h
  | cons d later ih =>
    rw [List.foldl_cons]
    exact ih (completed_call hne h)

/-- The row of a call that records its turn as completed. -/
theorem RecordsCompleted.turns_eq (h : RecordsCompleted lower turns c) :
    (call lower turns c).turns =
      (let p := (iterate lower .start [] c.items c.agentEnd).1
      let written := upsertTurn (upsertTurn turns c.turnId c.openingRow) c.turnId
        (c.row .completed (c.payload lower) "" p)
      match c.closingSession with
      | some raised => (c.fail written p (c.payload lower) raised).1
      | none => written) := by
  rw [h.opened.turns_eq, h.ended]
  simp only [Call.finish, Call.complete, h.closing, payload_of_end h.ended, h.noError, if_true]
  cases c.closingSession <;> simp only

theorem completed_row (lower : String → String) (h : Opened turns c) (turns' : Turns)
    (p : Progress) : Completed (c.payload lower).stored
      (getTurn (upsertTurn turns' c.turnId (c.row .completed (c.payload lower) "" p)) c.turnId) := by
  rw [h.getTurn_upsert turns' (row_ids c _ _ _ _).1 (row_ids c _ _ _ _).2]
  exact ⟨rfl, rfl⟩

/-- Made again, the call runs the agent where its row is not replayed. -/
theorem Opened.not_ran {turns' : Turns} (h : Opened turns c)
    (hran : (call lower turns' c).ran = false) :
    completedTurnReplayEvent turns' c.turnId ≠ none := by
  intro hnone
  have hopened : Opened turns' c := ⟨hnone, h.prepared, h.opening, h.session, h.request, h.turn⟩
  rw [hopened.call_eq] at hran
  exact absurd hran (Bool.false_ne_true ∘ Eq.symm)

/-- Every later call for the turn yields the stored completion and does not run the agent if and only
    if the call that recorded it stored a payload that is not empty and kept its row. -/
theorem completed_turn_replays_iff (h : RecordsCompleted lower turns c) :
    (∀ (later : List Call) (d : Call), d.turnId = c.turnId →
      Replays lower (later.foldl (fun t d => (call lower t d).turns) (call lower turns c).turns) d
        (c.payload lower).stored) ↔ c.StoresWhole lower := by
  constructor
  · intro hreplays
    -- were the row lost or its payload empty, the same call made again would run the agent
    have hran : (call lower (call lower turns c).turns c).ran = false := (hreplays [] c rfl).1
    have hreplay := h.opened.not_ran hran
    rw [h.turns_eq] at hreplay
    obtain ⟨payload, hne, hstatus, hpayload⟩ := completed_of_replay hreplay
    simp only at hstatus hpayload
    have hwritten := completed_row lower h.opened (upsertTurn turns c.turnId c.openingRow)
      (iterate lower .start [] c.items c.agentEnd).1
    cases hsession : c.closingSession with
    | none =>
      rw [hsession] at hpayload
      rw [← Option.some.inj (hwritten.2.symm.trans hpayload)] at hne
      exact ⟨stored_ne_nil.mp hne, Or.inl hsession⟩
    | some raised =>
      rw [hsession] at hstatus hpayload
      simp only at hstatus hpayload
      rw [fail_status h.opened] at hstatus
      cases hfailing : c.failing with
      | none => simp [hfailing] at hstatus
      | some text =>
        simp only [Call.fail, hfailing] at hpayload
        rw [← Option.some.inj (hwritten.2.symm.trans hpayload)] at hne
        exact ⟨stored_ne_nil.mp hne, Or.inr (by simp [hfailing])⟩
  · rintro ⟨hstored, hkept⟩
    intro later d hd
    have hne : (c.payload lower).stored ≠ [] := stored_ne_nil.mpr hstored
    have hrow : Completed (c.payload lower).stored (getTurn (call lower turns c).turns c.turnId) := by
      rw [h.turns_eq]
      simp only
      cases hsession : c.closingSession with
      | none => exact completed_row lower h.opened _ _
      | some raised =>
        have hfailing : c.failing ≠ none := hkept.resolve_left (by simp [hsession])
        obtain ⟨text, hfailing⟩ := Option.ne_none_iff_exists'.mp hfailing
        simp only [Call.fail, hfailing]
        exact completed_row lower h.opened _ _
    rw [← hd] at hrow
    exact (replays_of_completed (completed_stays hne later hrow) hne).1

/-- The agent ends with a final event whose payload is empty. -/
def emptyFinal : Call := sampleCall [⟨⟨"final", some ⟨[], true⟩⟩, none, none⟩] none

/-- The agent ends with a reply. -/
def replied : Call :=
  sampleCall [⟨⟨" Final ", some ⟨[("reply", ⟨true, "done"⟩)], true⟩⟩, none, none⟩] none

theorem recordsCompleted_sample {items : List Item}
    (hend : (sampleCall items none).firstRaise = none)
    (herror : textOf (((sampleCall items none).payload lower).get "error") = "") :
    RecordsCompleted lower (fun _ => none) (sampleCall items none) where
  opened := opened_sample items none
  ended := hend
  closing := rfl
  noError := herror

theorem completed_turn_replays_iff_replied : Replays ActorQueue.lowerAscii
    (call ActorQueue.lowerAscii (fun _ => none) replied).turns replied [("reply", ⟨true, "done"⟩)] := by
  have hrecords : RecordsCompleted ActorQueue.lowerAscii (fun _ => none) replied := by
    unfold replied
    exact recordsCompleted_sample rfl (by decide)
  have hlast : replied.lastFinal ActorQueue.lowerAscii =
      some ⟨[("reply", ⟨true, "done"⟩)], true⟩ := by decide
  have hpayload : (replied.payload ActorQueue.lowerAscii).stored = [("reply", ⟨true, "done"⟩)] := by
    rw [Call.payload, hlast]
    rfl
  have hwhole : replied.StoresWhole ActorQueue.lowerAscii := by
    unfold Call.StoresWhole
    rw [hlast]
    exact ⟨⟨List.cons_ne_nil _ _, rfl⟩, Or.inl rfl⟩
  have hreplays := (completed_turn_replays_iff hrecords).mpr hwhole [] replied rfl
  rwa [hpayload] at hreplays

/-- The turn is completed, and the same call made again runs the agent. -/
theorem empty_final_runs_again :
    (getTurn (call ActorQueue.lowerAscii (fun _ => none) emptyFinal).turns "turn").map (·.status) =
      some .completed ∧
    (call ActorQueue.lowerAscii (call ActorQueue.lowerAscii (fun _ => none) emptyFinal).turns
      emptyFinal).ran = true := by
  decide

end Empyralis.Server.SessionTurns
