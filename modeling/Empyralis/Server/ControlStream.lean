import Empyralis.Lib.BoundedLog
import Empyralis.Lib.Run
import Empyralis.Lib.Table
import Empyralis.Server.Tokens

/-! The control stream of the local runtimes: `_append_runtime_control_event` from any thread, and any number of
    subscribers that follow one runtime each with `aiter_runtime_control_stream`. -/

namespace Empyralis.Server.ControlStream
open Lib Run

/-- The fields that the callers of `_append_runtime_control_event` put into an event. None is called `sequence`, so the
    payload, which is spread last, does not overwrite the number. -/
structure Payload where
  runId : Option String
  machineId : Option String
  reason : Option String
  scope : Option String
  requestedBy : Option String
  deriving DecidableEq

/-- An event with its number in the sequence of its runtime. -/
structure ControlEvent where
  sequence : Nat
  event : String
  runtimeId : Token
  requestedAt : String
  payload : Payload
  deriving DecidableEq

/-- What a stream yields. -/
inductive Frame where
  | control (event id : String) (data : ControlEvent)
  | heartbeat (id : String) (runtimeId : Token) (sequence : Nat) (requestedAt : String)
  deriving DecidableEq

def Frame.record? : Frame → Option ControlEvent
  | .control _ _ data => some data
  | .heartbeat .. => none

/-- What a stream is doing. -/
inductive Phase where
  | polling
  | yielding
  | waiting
  | closed
  deriving DecidableEq

/-- A call of `aiter_runtime_control_stream` with its locals; it is among the subscribers of its runtime until it is
    closed. `since` is the cursor that it began with, and `yielded` is what it has yielded. Times are in
    milliseconds. -/
structure Stream where
  runtimeId : Token
  since : Nat
  lastSequence : Nat
  start : Int
  lastHeartbeat : Int
  heartbeat : Int
  timeout : Int
  signal : Bool
  phase : Phase
  pending : List ControlEvent
  yielded : List Frame
  deriving DecidableEq

/-- The events among what was yielded. -/
def Stream.delivered (st : Stream) : List ControlEvent := st.yielded.filterMap Frame.record?

/-- `_notify_runtime_control_async_subscribers` after an event: it still has to read the subscribers, or the loop still
    has to set the signal of one. -/
inductive Notice where
  | read (runtimeId : Token)
  | wake (i : Nat)
  deriving DecidableEq

/-- `log` has each event that was appended; of the events themselves only the backlogs are left. -/
structure State where
  sequence : Nat
  events : Table Token (List ControlEvent)
  streams : List Stream
  notices : List Notice
  log : List ControlEvent

def start : State := ⟨0, .empty, [], [], []⟩

/-- How many events are kept of a runtime. -/
def backlogLimit : Nat := 32

variable (l : Lowercase)

/-- `str(event or "runtime_control").strip().lower() or "runtime_control"` -/
def eventToken (event : String) : String :=
  let token := l.token (if event = "" then "runtime_control" else event)
  if token = "" then "runtime_control" else token

/-- The events that are kept of a runtime. -/
def State.backlog (s : State) (runtimeId : Token) : List ControlEvent := (s.events.get? runtimeId).getD []

/-- `backlog[-_RUNTIME_CONTROL_STREAM_BACKLOG_LIMIT:]` of one that is too long. -/
def cutBacklog (backlog : List ControlEvent) : List ControlEvent :=
  if backlogLimit < backlog.length then BoundedLog.latest backlogLimit backlog else backlog

/-- The statements of `_append_runtime_control_event` under the lock. -/
def publish (s : State) (runtimeId : Token) (event : String) (payload : Payload) (requestedAt : String) : State :=
  let record := ⟨s.sequence + 1, event, runtimeId, requestedAt, payload⟩
  { s with
    sequence := s.sequence + 1
    events := s.events.put runtimeId (cutBacklog (s.backlog runtimeId ++ [record]))
    notices := s.notices ++ [.read runtimeId]
    log := s.log ++ [record] }

/-- `_append_runtime_control_event` up to its notifications -/
def appendRuntimeControlEvent (s : State) (runtimeId eventType : String) (payload : Payload) (requestedAt : String) :
    Except (Nat × String) State :=
  match Token.read runtimeId with
  | none => .error (400, "runtime_id is required.")
  | some runtimeId => .ok (publish s runtimeId (eventToken l eventType) payload requestedAt)

/-- `_list_runtime_control_events` -/
def listRuntimeControlEvents (s : State) (runtimeId : String) (sinceSequence : Nat) : List ControlEvent :=
  match Token.read runtimeId with
  | none => []
  | some runtimeId => BoundedLog.after ControlEvent.sequence sinceSequence (s.backlog runtimeId)

/-- `max(1.0, float(value or default))` -/
def safeSeconds (value default : Int) : Int := max 1000 (if value = 0 then default else value)

def State.setStream (s : State) (i : Nat) (st : Stream) : State := { s with streams := s.streams.set i st }

/-- The head of `aiter_runtime_control_stream`. -/
def Stream.opened (runtimeId : Token) (sinceSequence heartbeat timeout now : Int) : Stream where
  runtimeId
  since := (max 0 sinceSequence).toNat
  lastSequence := (max 0 sinceSequence).toNat
  start := now
  lastHeartbeat := now
  heartbeat := safeSeconds heartbeat 5000
  timeout := safeSeconds timeout 30000
  signal := false
  phase := .polling
  pending := []
  yielded := []

/-- A stream is opened; a blank id opens none. -/
def subscribe (s : State) (runtimeId : String) (sinceSequence heartbeat timeout now : Int) : State :=
  match Token.read runtimeId with
  | none => s
  | some runtimeId => { s with streams := s.streams ++ [.opened runtimeId sinceSequence heartbeat timeout now] }

/-- One event of `pending` is yielded. -/
def Stream.deliver (st : Stream) (record : ControlEvent) (rest : List ControlEvent) : Stream :=
  { st with
    lastSequence := max st.lastSequence record.sequence
    pending := rest
    yielded := st.yielded ++ [.control (eventToken l record.event) (toString record.sequence) record] }

/-- The end of a turn of the loop: the stream ends, or sends a heartbeat and goes on, or waits. -/
def Stream.decide (st : Stream) (now : Int) (requestedAt : String) : Stream :=
  if st.timeout - (now - st.start) ≤ 0 then { st with phase := .closed }
  else if st.heartbeat ≤ now - st.lastHeartbeat then
    { st with
      lastHeartbeat := now, phase := .polling
      yielded := st.yielded ++ [.heartbeat (toString st.lastSequence) st.runtimeId st.lastSequence requestedAt] }
  else { st with phase := .waiting }

/-- A subscriber of the runtime. -/
def Stream.follows (runtimeId : Token) (st : Stream) : Bool := st.runtimeId = runtimeId && st.phase ≠ .closed

/-- The signals that a notification sets. -/
def State.subscribers (s : State) (runtimeId : Token) : List Notice :=
  (s.streams.zipIdx.filter fun e => e.1.follows runtimeId).map fun e => .wake e.2

/-- One notice is worked off. -/
def notify (s : State) (k : Nat) : Notice → State
  | .read runtimeId => { s with notices := s.notices.eraseIdx k ++ s.subscribers runtimeId }
  | .wake i =>
    { s with
      notices := s.notices.eraseIdx k
      streams := s.streams.modify i fun st => { st with signal := true } }

/-- What a stream may do next: it may be woken by its signal or by the clock, and closed at any time. -/
inductive Move where
  | poll
  | deliver
  | decide (now : Int) (requestedAt : String)
  | wake
  | close

/-- What happens: an event, its notice, a new stream, a move of one. -/
inductive Label where
  | append (runtimeId eventType : String) (payload : Payload) (requestedAt : String)
  | notify (k : Nat)
  | subscribe (runtimeId : String) (sinceSequence heartbeat timeout now : Int)
  | move (i : Nat) (m : Move)

/-- The stream after its move. -/
def turn (s : State) (st : Stream) : Move → Option Stream
  | .poll =>
    if st.phase = .polling then
      some { st with
        phase := .yielding
        pending := listRuntimeControlEvents s st.runtimeId.text st.lastSequence }
    else none
  | .deliver =>
    match st.pending with
    | record :: rest => if st.phase = .yielding then some (st.deliver l record rest) else none
    | [] => none
  | .decide now requestedAt => if st.phase = .yielding ∧ st.pending = [] then some (st.decide now requestedAt) else none
  | .wake => if st.phase = .waiting then some { st with phase := .polling, signal := false } else none
  | .close => some { st with phase := .closed }

def step (s : State) : Label → Option State
  | .append runtimeId eventType payload requestedAt =>
    match appendRuntimeControlEvent l s runtimeId eventType payload requestedAt with
    | .error _ => some s
    | .ok t => some t
  | .notify k => s.notices[k]?.map (notify s k)
  | .subscribe runtimeId sinceSequence heartbeat timeout now =>
    some (subscribe s runtimeId sinceSequence heartbeat timeout now)
  | .move i m => s.streams[i]?.bind fun st => (turn l s st m).map (s.setStream i)

/-! ### Steps -/

/-- Everything that a step may do under a label. -/
inductive Effect (s : State) : Label → State → Prop
  | same (a : Label) : Effect s a s
  | published (a : Label) (runtimeId : Token) (eventType : String) (payload : Payload) (requestedAt : String) :
      Effect s a (publish s runtimeId (eventToken l eventType) payload requestedAt)
  | notified {k : Nat} {notice : Notice} (hnotice : s.notices[k]? = some notice) :
      Effect s (.notify k) (notify s k notice)
  | subscribed (a : Label) (runtimeId : Token) (sinceSequence heartbeat timeout now : Int) :
      Effect s a { s with streams := s.streams ++ [.opened runtimeId sinceSequence heartbeat timeout now] }
  | moved {i : Nat} {m : Move} {st next : Stream} (hst : s.streams[i]? = some st) (hturn : turn l s st m = some next) :
      Effect s (.move i m) (s.setStream i next)

variable {l} {s t : State} {a : Label} {st next : Stream} {m : Move}

/-- Everything that a step can do. -/
theorem step_effect (h : step l s a = some t) : Effect l s a t := by
  cases a with
  | append runtimeId eventType payload requestedAt =>
    simp only [step, appendRuntimeControlEvent] at h
    cases hread : Token.read runtimeId with
    | none =>
      rw [hread] at h
      cases h
      exact .same _
    | some token =>
      rw [hread] at h
      cases h
      exact .published _ token eventType payload requestedAt
  | notify k =>
    obtain ⟨notice, hnotice, rfl⟩ := Option.map_eq_some_iff.mp h
    exact .notified hnotice
  | subscribe runtimeId sinceSequence heartbeat timeout now =>
    simp only [step, subscribe, Option.some.injEq] at h
    split at h
    · subst h
      exact .same _
    · subst h
      exact .subscribed ..
  | move i m =>
    obtain ⟨st, hst, hmove⟩ := Option.bind_eq_some_iff.mp h
    obtain ⟨next, hturn, rfl⟩ := Option.map_eq_some_iff.mp hmove
    exact .moved hst hturn

/-- What a turn may do to a stream. -/
theorem turn_cases (h : turn l s st m = some next) :
    (m = .poll ∧ st.phase = .polling ∧ next = { st with
      phase := .yielding
      pending := BoundedLog.after ControlEvent.sequence st.lastSequence (s.backlog st.runtimeId) }) ∨
    (∃ record rest, st.phase = .yielding ∧ st.pending = record :: rest ∧ next = st.deliver l record rest) ∨
    (st.phase = .yielding ∧ st.pending = [] ∧ ∃ now requestedAt, next = st.decide now requestedAt) ∨
    next = { st with phase := .polling, signal := false } ∧ st.phase = .waiting ∨
    next = { st with phase := .closed } := by
  cases m with
  | poll =>
    simp only [turn, listRuntimeControlEvents, Token.read_text] at h
    split at h
    · rename_i hphase
      cases h
      exact .inl ⟨rfl, hphase, rfl⟩
    · cases h
  | deliver =>
    simp only [turn] at h
    split at h
    · rename_i record rest hpending
      split at h
      · rename_i hphase
        cases h
        exact .inr (.inl ⟨record, rest, hphase, hpending, rfl⟩)
      · cases h
    · cases h
  | decide now requestedAt =>
    simp only [turn] at h
    split at h
    · rename_i hready
      cases h
      exact .inr (.inr (.inl ⟨hready.1, hready.2, now, requestedAt, rfl⟩))
    · cases h
  | wake =>
    simp only [turn] at h
    split at h
    · rename_i hphase
      cases h
      exact .inr (.inr (.inr (.inl ⟨rfl, hphase⟩)))
    · cases h
  | close =>
    cases h
    exact .inr (.inr (.inr (.inr rfl)))

/-! ### The log -/

/-- The events of one runtime, from the first one on. -/
def State.runtimeLog (s : State) (runtimeId : Token) : List ControlEvent := s.log.filter (·.runtimeId = runtimeId)

theorem eventToken_eventToken (l : Lowercase) (event : String) :
    eventToken l (eventToken l event) = eventToken l event := by
  have hdefault : eventToken l "runtime_control" = "runtime_control" := by
    have hplain : l.token "runtime_control" = "runtime_control" := l.token_plain (Lowercase.plain_of_all (by decide))
    simp only [eventToken, hplain, if_neg (show "runtime_control" ≠ "" by decide)]
  by_cases h : l.token (if event = "" then "runtime_control" else event) = ""
  · have hevent : eventToken l event = "runtime_control" := by simp only [eventToken, h, if_true]
    rw [hevent, hdefault]
  · have hevent : eventToken l event = l.token (if event = "" then "runtime_control" else event) := by
      simp only [eventToken, if_neg h]
    rw [hevent]
    simp only [eventToken, if_neg h, Lowercase.token_token]

/-- Every event has the next number, and each backlog is the end of the log of its runtime. -/
structure LogInv (l : Lowercase) (s : State) : Prop where
  increasing : BoundedLog.Increasing ControlEvent.sequence s.log
  bounded : ∀ e ∈ s.log, e.sequence ≤ s.sequence
  tokens : ∀ e ∈ s.log, eventToken l e.event = e.event
  kept : ∀ r, s.backlog r = BoundedLog.latest backlogLimit (s.runtimeLog r)

theorem runtimeLog_increasing (hs : LogInv l s) (r : Token) :
    BoundedLog.Increasing ControlEvent.sequence (s.runtimeLog r) := List.Pairwise.filter _ hs.increasing

theorem runtimeLog_publish {r : Token} {event : String} {payload : Payload} {requestedAt : String} (other : Token) :
    (publish s r event payload requestedAt).runtimeLog other =
      s.runtimeLog other ++ if other = r then [⟨s.sequence + 1, event, r, requestedAt, payload⟩] else [] := by
  by_cases h : other = r
  · subst h
    simp [State.runtimeLog, publish]
  · simp [State.runtimeLog, publish, h, Ne.symm h]

theorem cutBacklog_eq (es : List ControlEvent) : cutBacklog es = BoundedLog.latest backlogLimit es := by
  unfold cutBacklog
  split
  · rfl
  · exact (BoundedLog.latest_of_le (by omega)).symm

theorem log_publish (hs : LogInv l s) (r : Token) (eventType : String) (payload : Payload) (requestedAt : String) :
    LogInv l (publish s r (eventToken l eventType) payload requestedAt) := by
  refine ⟨?_, ?_, ?_, fun other => ?_⟩
  · refine List.pairwise_append.mpr ⟨hs.increasing, List.pairwise_singleton _ _, fun e he new hnew => ?_⟩
    rw [List.mem_singleton.mp hnew]
    exact Nat.lt_succ_of_le (hs.bounded e he)
  · intro e he
    rcases List.mem_append.mp he with he | he
    · exact Nat.le_succ_of_le (hs.bounded e he)
    · rw [List.mem_singleton.mp he]
      exact Nat.le_refl _
  · intro e he
    rcases List.mem_append.mp he with he | he
    · exact hs.tokens e he
    · rw [List.mem_singleton.mp he]
      exact eventToken_eventToken l eventType
  · rw [runtimeLog_publish]
    by_cases h : other = r
    · subst h
      have hbacklog : (publish s other (eventToken l eventType) payload requestedAt).backlog other =
          cutBacklog (s.backlog other ++ [⟨s.sequence + 1, eventToken l eventType, other, requestedAt, payload⟩]) := by
        rw [State.backlog, publish, Table.get?_put, if_pos rfl, Option.getD_some]
      rw [hbacklog, cutBacklog_eq, hs.kept other, BoundedLog.latest_push, if_pos rfl]
    · have hsame := hs.kept other
      simpa only [State.backlog, publish, Table.get?_put, if_neg h, List.append_nil] using hsame

theorem log_step (hs : LogInv l s) (h : Effect l s a t) : LogInv l t := by
  cases h with
  | same => exact hs
  | published a r eventType payload requestedAt => exact log_publish hs r eventType payload requestedAt
  | @notified k notice hnotice =>
    cases notice with
    | read r => exact ⟨hs.increasing, hs.bounded, hs.tokens, hs.kept⟩
    | wake i => exact ⟨hs.increasing, hs.bounded, hs.tokens, hs.kept⟩
  | subscribed => exact ⟨hs.increasing, hs.bounded, hs.tokens, hs.kept⟩
  | moved => exact ⟨hs.increasing, hs.bounded, hs.tokens, hs.kept⟩

theorem log_start : LogInv l start := by
  refine ⟨List.Pairwise.nil, ?_, ?_, fun _ => rfl⟩
  · rintro e ⟨⟩
  · rintro e ⟨⟩

/-! ### What a stream yields -/

/-- The events that a stream is there for. -/
def State.wanted (s : State) (st : Stream) : List ControlEvent :=
  BoundedLog.after ControlEvent.sequence st.since (s.runtimeLog st.runtimeId)

/-- Those that it has not been given. -/
def State.unseen (s : State) (st : Stream) : List ControlEvent :=
  BoundedLog.after ControlEvent.sequence st.lastSequence (s.runtimeLog st.runtimeId)

/-- A stream gives what is in the log, in the order of the log, and stands at the last event it has yielded. -/
structure StreamInv (s : State) (st : Stream) : Prop where
  given : (st.delivered ++ st.pending).Sublist (s.wanted st)
  stands : st.lastSequence = BoundedLog.cursor ControlEvent.sequence st.since st.delivered
  idle : st.phase = .polling ∨ st.phase = .waiting → st.pending = []
  frames : ∀ e record, e ∈ st.yielded → e.record? = some record →
    e = .control record.event (toString record.sequence) record

theorem delivered_deliver (record : ControlEvent) (rest : List ControlEvent) :
    (st.deliver l record rest).delivered = st.delivered ++ [record] := by
  simp [Stream.delivered, Stream.deliver, Frame.record?]

/-- A heartbeat is no event. -/
theorem delivered_decide (now : Int) (requestedAt : String) : (st.decide now requestedAt).delivered = st.delivered := by
  unfold Stream.decide
  split
  · rfl
  · split
    · simp [Stream.delivered, List.filterMap_append, Frame.record?]
    · rfl

/-- The rest of a stream that decides, but for its phase. -/
theorem decide_fields (st : Stream) (now : Int) (requestedAt : String) :
    (st.decide now requestedAt).runtimeId = st.runtimeId ∧ (st.decide now requestedAt).since = st.since ∧
      (st.decide now requestedAt).lastSequence = st.lastSequence ∧
      (st.decide now requestedAt).pending = st.pending ∧ (st.decide now requestedAt).signal = st.signal := by
  unfold Stream.decide
  split
  · exact ⟨rfl, rfl, rfl, rfl, rfl⟩
  · split <;> exact ⟨rfl, rfl, rfl, rfl, rfl⟩

theorem wanted_increasing (hs : LogInv l s) (st : Stream) :
    BoundedLog.Increasing ControlEvent.sequence (s.wanted st) :=
  List.Pairwise.filter _ (runtimeLog_increasing hs st.runtimeId)

theorem since_le_last (hi : StreamInv s st) : st.since ≤ st.lastSequence := by
  rw [hi.stands]
  refine BoundedLog.since_le_cursor fun e he => ?_
  exact BoundedLog.lt_of_mem_after (hi.given.subset (List.mem_append_left _ he))

theorem unseen_eq (hi : StreamInv s st) :
    s.unseen st = BoundedLog.after ControlEvent.sequence st.lastSequence (s.wanted st) :=
  (BoundedLog.after_after (since_le_last hi)).symm

theorem poll_eq (hs : LogInv l s) (st : Stream) :
    BoundedLog.after ControlEvent.sequence st.lastSequence (s.backlog st.runtimeId) =
      BoundedLog.latest backlogLimit (s.unseen st) := by
  rw [hs.kept, BoundedLog.after_latest (runtimeLog_increasing hs st.runtimeId), State.unseen]

/-- A stream follows its log into a state that has the same events, or more. -/
theorem stream_mono (hi : StreamInv s st) (hlog : s.wanted st <+: t.wanted st) : StreamInv t st :=
  ⟨hi.given.trans hlog.sublist, hi.stands, hi.idle, hi.frames⟩

theorem wanted_publish (r : Token) (event : String) (payload : Payload) (requestedAt : String) :
    s.wanted st <+: (publish s r event payload requestedAt).wanted st := by
  rw [State.wanted, State.wanted, runtimeLog_publish, BoundedLog.after_append]
  exact List.prefix_append _ _

/-- A move of a stream keeps its order. -/
theorem turn_inv (hs : LogInv l s) (hi : StreamInv s st) (h : turn l s st m = some next) : StreamInv s next := by
  have hdelivered : st.delivered.Sublist (s.wanted st) := (List.sublist_append_left _ _).trans hi.given
  have hincreasing := wanted_increasing hs st
  rcases turn_cases h with ⟨-, hphase, rfl⟩ | ⟨record, rest, hphase, hpending, rfl⟩ |
    ⟨hphase, hpending, now, at_, rfl⟩ | ⟨rfl, hphase⟩ | rfl
  · refine ⟨?_, hi.stands, ?_, hi.frames⟩
    · rw [poll_eq hs]
      refine BoundedLog.sublist_give (c := st.lastSequence) hincreasing hdelivered (fun e he => ?_) ?_
      · rw [hi.stands]
        exact BoundedLog.le_cursor (hincreasing.sublist hdelivered) he
      · rw [unseen_eq hi]
        exact BoundedLog.latest_sublist
    · rintro (hphase | hphase) <;> cases hphase
  · have hgiven := hi.given
    rw [hpending] at hgiven
    have hmem : record ∈ s.wanted st := hgiven.subset (List.mem_append_right _ List.mem_cons_self)
    refine ⟨?_, ?_, ?_, ?_⟩
    · rw [delivered_deliver, List.append_assoc]
      exact hgiven
    · rw [delivered_deliver]
      change max st.lastSequence record.sequence =
        BoundedLog.cursor ControlEvent.sequence st.since (st.delivered ++ [record])
      rw [BoundedLog.cursor_concat, hi.stands]
      exact max_eq_right (BoundedLog.cursor_le (hincreasing.sublist hgiven) (BoundedLog.lt_of_mem_after hmem))
    · rintro (hidle | hidle) <;> exact absurd (hphase.symm.trans hidle) Phase.noConfusion
    · intro e found he hrecord
      rcases List.mem_append.mp he with he | he
      · exact hi.frames e found he hrecord
      · rw [List.mem_singleton.mp he] at hrecord ⊢
        cases hrecord
        have hlog : record ∈ s.log := List.mem_of_mem_filter (List.mem_of_mem_filter hmem)
        rw [hs.tokens record hlog]
  · obtain ⟨hruntime, hsince, hlast, hpend, -⟩ := decide_fields st now at_
    refine ⟨?_, ?_, fun _ => hpend.trans hpending, ?_⟩
    · rw [delivered_decide, hpend, State.wanted, hruntime, hsince]
      exact hi.given
    · rw [delivered_decide, hlast, hsince]
      exact hi.stands
    · intro e found he hrecord
      unfold Stream.decide at he
      split at he
      · exact hi.frames e found he hrecord
      · split at he
        · rcases List.mem_append.mp he with he | he
          · exact hi.frames e found he hrecord
          · rw [List.mem_singleton.mp he] at hrecord
            cases hrecord
        · exact hi.frames e found he hrecord
  · exact ⟨hi.given, hi.stands, fun _ => hi.idle (.inr hphase), hi.frames⟩
  · refine ⟨hi.given, hi.stands, ?_, hi.frames⟩
    rintro (hidle | hidle) <;> cases hidle

theorem opened_inv (runtimeId : Token) (sinceSequence heartbeat timeout now : Int) :
    StreamInv s (.opened runtimeId sinceSequence heartbeat timeout now) := by
  refine ⟨List.nil_sublist _, rfl, fun _ => rfl, ?_⟩
  rintro e record ⟨⟩

/-- One step keeps the order of every stream. -/
theorem streams_step (hs : LogInv l s) (hi : ∀ st ∈ s.streams, StreamInv s st) (h : Effect l s a t) :
    ∀ st ∈ t.streams, StreamInv t st := by
  cases h with
  | same => exact hi
  | published => exact fun st hst => stream_mono (hi st hst) (wanted_publish ..)
  | @notified k notice hnotice =>
    cases notice with
    | read r => exact fun st hst => stream_mono (hi st hst) List.prefix_rfl
    | wake i =>
      intro st hst
      obtain ⟨j, hj⟩ := List.getElem?_of_mem hst
      simp only [notify, List.getElem?_modify] at hj
      obtain ⟨old, hold, hnew⟩ := Option.map_eq_some_iff.mp hj
      have hinv := hi old (List.mem_of_getElem? hold)
      split at hnew
      · subst hnew
        exact ⟨hinv.given, hinv.stands, hinv.idle, hinv.frames⟩
      · subst hnew
        exact ⟨hinv.given, hinv.stands, hinv.idle, hinv.frames⟩
  | subscribed a runtimeId sinceSequence heartbeat timeout now =>
    intro st hst
    rcases List.mem_append.mp hst with hst | hst
    · exact stream_mono (hi st hst) List.prefix_rfl
    · rw [List.mem_singleton.mp hst]
      exact opened_inv ..
  | @moved i m old next hold hturn =>
    intro st hst
    rcases List.mem_or_eq_of_mem_set hst with hst | rfl
    · exact stream_mono (hi st hst) List.prefix_rfl
    · exact stream_mono (turn_inv hs (hi old (List.mem_of_getElem? hold)) hturn) List.prefix_rfl

/-- The invariant of every run. -/
structure Inv (l : Lowercase) (s : State) : Prop where
  log : LogInv l s
  streams : ∀ st ∈ s.streams, StreamInv s st

theorem inv_start : Inv l start := by
  refine ⟨log_start, ?_⟩
  rintro st ⟨⟩

theorem inv_step (hs : Inv l s) (h : Effect l s a t) : Inv l t := ⟨log_step hs.log h, streams_step hs.log hs.streams h⟩

theorem run_inv {as : List Label} (hrun : run (step l) start as = some s) : Inv l s :=
  run_inv_all (fun _ _ _ hi hstep => inv_step hi (step_effect hstep)) inv_start hrun

/-- Whatever threads append and however the streams take their turns: a stream yields events of its runtime above the
    cursor it began with, in the order in which they were appended and each at most once, and each frame has the name
    and the number of its event. -/
theorem stream_in_order {as : List Label} (hrun : run (step l) start as = some s) (hst : st ∈ s.streams) :
    (st.delivered.Pairwise fun a b => a.sequence < b.sequence) ∧ st.delivered.Sublist (s.wanted st) ∧
      ∀ e record, e ∈ st.yielded → e.record? = some record →
        e = .control record.event (toString record.sequence) record := by
  have hinv := run_inv hrun
  have hi := hinv.streams st hst
  have hsub : st.delivered.Sublist (s.wanted st) := (List.sublist_append_left _ _).trans hi.given
  exact ⟨(wanted_increasing hinv.log st).sublist hsub, hsub, hi.frames⟩

/-- A subscriber that comes back with the cursor 1, and lists its events. -/
def reconnection : List Label :=
  [.append "laptop" "hard_kill" ⟨none, some "laptop", none, some "machine", none⟩ "09:00",
    .append " laptop " "" ⟨none, none, none, none, none⟩ "09:01", .subscribe "laptop" 1 5000 30000 0, .move 0 .poll]

theorem stream_in_order_reconnection : ∃ s st,
    run (step Lowercase.ascii) start (reconnection ++ [Label.move 0 .deliver]) = some s ∧
    s.streams = [st] ∧ st.delivered.map ControlEvent.sequence = [2] ∧ st.delivered.Sublist (s.wanted st) := by
  let s := (run (step Lowercase.ascii) start (reconnection ++ [Label.move 0 .deliver])).get (by decide)
  have hs : run (step Lowercase.ascii) start (reconnection ++ [Label.move 0 .deliver]) = some s := (Option.some_get _).symm
  obtain ⟨st, hst⟩ := List.length_eq_one_iff.mp (show s.streams.length = 1 by decide)
  have hgiven : s.streams.map (fun st => st.delivered.map ControlEvent.sequence) = [[2]] := by decide
  rw [hst, List.map_singleton, List.singleton_inj] at hgiven
  have hmem : st ∈ s.streams := hst ▸ List.mem_singleton_self st
  exact ⟨s, st, hs, hst, hgiven, (stream_in_order hs hmem).2.1⟩

end Empyralis.Server.ControlStream
