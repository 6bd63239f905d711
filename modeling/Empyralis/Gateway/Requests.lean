import Empyralis.Gateway.SeqLane

/-! The requests of the gateway: `dispatchRequestFrame`, the map of pending responses, its timers, and
    what `handleRequestTimeout`, `handleSocketFailure` and a response frame do to them.

    A request is one call of `dispatchRequestFrame`. What a step does to the outbox is returned beside
    the next state, as an operation. The outcomes of `encodeFrame` and of the socket's `send` are part
    of the label, as they are for the event frames. -/

namespace Empyralis.Gateway.Cloud

/-- `GatewayRequestEnvelope` -/
structure RequestFrame (π σ : Type*) where
  protocolVersion : String
  id : String
  type : String
  ts : String
  scope : σ
  payload : π

/-- Where a request is: about to look its record up, about to record its attempt or a new record,
    journaling, waiting for its response, about to report a failure, or settled. -/
inductive RequestStage where
  | looking
  | looked (found : Bool)
  | journaling
  | awaiting
  | reporting (reason : String)
  | settled (ok : Bool)

/-- `replayOf` is the item that the request replays; `armed` says that its timer runs. -/
structure Request (π σ : Type*) where
  replayOf : Option (Outbox.Item π)
  frame : RequestFrame π σ
  replayable : Bool
  persistOutbox : Bool
  stage : RequestStage
  armed : Bool

/-- An entry of `pendingResponses`; `request` is the place of the request whose promise it settles. -/
structure PendingResponse where
  requestId : String
  replayable : Bool
  request : Nat

/-- What `handleRequestTimeout` still reports to the outbox. -/
structure TimeoutReport where
  requestId : String
  replayable : Bool
  error : String

/-- A call of `handleSocketFailure`, with the entries it has not reported yet. -/
structure SocketFailure where
  reason : String
  rest : List PendingResponse

/-- A response frame, and whether `handleIncomingFrame` has acknowledged it. -/
structure Response where
  id : String
  ok : Bool
  acknowledged : Bool

/-- `sent` are the request frames handed to an open socket, with the items they replay. -/
structure Exchange (π σ : Type*) where
  requests : List (Request π σ)
  pendingResponses : List PendingResponse
  timeouts : List TimeoutReport
  failures : List SocketFailure
  responses : List Response
  sent : List (Option (Outbox.Item π) × RequestFrame π σ)

def Exchange.start {π σ : Type*} : Exchange π σ where
  requests := []
  pendingResponses := []
  timeouts := []
  failures := []
  responses := []
  sent := []

variable {π σ : Type*}

/-- `pendingResponses.set` -/
def setPending (l : List PendingResponse) (entry : PendingResponse) : List PendingResponse :=
  if l.any fun p => p.requestId = entry.requestId then
    l.map fun p => if p.requestId = entry.requestId then entry else p
  else l ++ [entry]

/-- `pendingResponses.delete` -/
def deletePending (l : List PendingResponse) (requestId : String) : List PendingResponse :=
  l.filter fun p => p.requestId ≠ requestId

/-- The promise of a request settles and its timer is cleared. -/
def Request.settle (r : Request π σ) (ok : Bool) : Request π σ :=
  { r with stage := .settled ok, armed := false }

/-- The promises of the entries settle. -/
def settleAll (entries : List PendingResponse) (ok : Bool) (requests : List (Request π σ)) :
    List (Request π σ) :=
  entries.foldl (fun rs p => rs.modify p.request fun r => r.settle ok) requests

/-- `dispatchRequestFrame` once it has found the socket open. -/
def Exchange.dispatch (x : Exchange π σ) (replayOf : Option (Outbox.Item π))
    (frame : RequestFrame π σ) (replayable persistOutbox : Bool) : Exchange π σ :=
  { x with requests := x.requests ++
      [⟨replayOf, frame, replayable, persistOutbox,
        if persistOutbox then .looking else .journaling, false⟩] }

def Exchange.setRequest (x : Exchange π σ) (q : Nat) (r : Request π σ) : Exchange π σ :=
  { x with requests := x.requests.set q r }

/-- A request that could not be sent reports it to the outbox, if it has a record there. -/
def Exchange.sendFailed (x : Exchange π σ) (q : Nat) (r : Request π σ) (reason : String) :
    Exchange π σ :=
  { x.setRequest q { r with stage := if r.persistOutbox then .reporting reason else .settled false }
    with pendingResponses := deletePending x.pendingResponses r.frame.id }

/-- From `trackPendingResponse` on: the socket is checked once more before the frame is sent. -/
def Exchange.transmit (x : Exchange π σ) (socket : Option ReadyState) (q : Nat) (r : Request π σ)
    (encoded sent : Except String Unit) : Exchange π σ :=
  match encoded with
  | .error e => x.sendFailed q r e
  | .ok () =>
    if socket ≠ some .opened then x.sendFailed q r "Gateway socket is not connected."
    else
      match sent with
      | .error e => x.sendFailed q r e
      | .ok () =>
        { x.setRequest q { r with stage := .awaiting, armed := true } with
          pendingResponses := setPending x.pendingResponses ⟨r.frame.id, r.replayable, q⟩
          sent := x.sent ++ [(r.replayOf, r.frame)] }

/-- `handleSocketFailure` up to its first report. -/
def Exchange.socketFailure (x : Exchange π σ) (reason : String) : Exchange π σ :=
  { x with
    requests := settleAll x.pendingResponses false x.requests
    pendingResponses := []
    failures := x.failures ++ [⟨reason, x.pendingResponses⟩] }

/-- A failed attempt is reported for another one, or as the last one. -/
def reportOp (replayable : Bool) (requestId reason : String) (now : Int) : Outbox.Op π :=
  if replayable then .markForReplay requestId reason now
  else .markAttemptFailed requestId reason now

/-- The report of `handleRequestTimeout`. -/
def TimeoutReport.op (report : TimeoutReport) (now : Int) : Outbox.Op π :=
  if report.replayable then .markForReplay report.requestId report.error now
  else .markUncertain report.requestId s!"Request timed out: {report.error}" now

/-- The report of `handleSocketFailure` for one entry. -/
def PendingResponse.op (entry : PendingResponse) (reason : String) (outbox : List (Outbox.Item π))
    (now : Int) : Option (Outbox.Op π) :=
  let text := s!"Gateway socket closed before response: {reason}"
  if entry.replayable then some (.markForReplay entry.requestId text now)
  else if outbox.any fun item => item.requestId = entry.requestId then
    some (.markUncertain entry.requestId text now)
  else none

inductive ExchangeLabel where
  | lookup (q : Nat)
  | record (q : Nat) (id : String) (now : Int)
  | transmit (q : Nat) (encoded sent : Except String Unit)
  | report (q : Nat) (now : Int)
  | fail (q : Nat)
  | timeout (q : Nat)
  | reportTimeout (i : Nat) (now : Int)
  | reportFailure (i : Nat) (now : Int)
  | response (id : String) (ok : Bool)
  | acknowledge (i : Nat) (now : Int)

/-- The state after a step, and what the step does to the outbox. -/
def Exchange.step (x : Exchange π σ) (socket : Option ReadyState) (outbox : List (Outbox.Item π)) :
    ExchangeLabel → Option (Exchange π σ × Option (Outbox.Op π))
  | .lookup q =>
    match x.requests[q]? with
    | some r =>
      match r.stage with
      | .looking =>
        let found := outbox.any fun item => item.requestId = r.frame.id
        some (x.setRequest q { r with stage := .looked found }, none)
      | _ => none
    | none => none
  | .record q id now =>
    match x.requests[q]? with
    | some r =>
      match r.stage with
      | .looked true =>
        some (x.setRequest q { r with stage := .journaling },
          some (.markAttemptStarted r.frame.id now))
      | .looked false =>
        match Outbox.enqueue r.frame.id r.frame.type r.frame.payload (some r.replayable) id now
          outbox with
        | .error _ => some (x.setRequest q (r.settle false), none)
        | .ok _ =>
          some (x.setRequest q { r with stage := .journaling },
            some (.enqueue r.frame.id r.frame.type r.frame.payload (some r.replayable) id now))
      | _ => none
    | none => none
  | .transmit q encoded sent =>
    match x.requests[q]? with
    | some r =>
      match r.stage with
      | .journaling => some (x.transmit socket q r encoded sent, none)
      | _ => none
    | none => none
  | .report q now =>
    match x.requests[q]? with
    | some r =>
      match r.stage with
      | .reporting reason =>
        some (x.setRequest q (r.settle false), some (reportOp r.replayable r.frame.id reason now))
      | _ => none
    | none => none
  | .fail q =>
    match x.requests[q]? with
    | some r =>
      match r.stage with
      | .looking | .looked _ | .journaling | .reporting _ =>
        some (x.setRequest q (r.settle false), none)
      | _ => none
    | none => none
  | .timeout q =>
    match x.requests[q]? with
    | some r =>
      if r.armed then
        some ({ x.setRequest q (r.settle false) with
          pendingResponses := deletePending x.pendingResponses r.frame.id
          timeouts := if r.persistOutbox then
              x.timeouts ++
                [⟨r.frame.id, r.replayable, s!"Gateway request timed out: {r.frame.type}"⟩]
            else x.timeouts }, none)
      else none
    | none => none
  | .reportTimeout i now =>
    match x.timeouts[i]? with
    | some report => some ({ x with timeouts := x.timeouts.eraseIdx i }, some (report.op now))
    | none => none
  | .reportFailure i now =>
    match x.failures[i]? with
    | some ⟨reason, entry :: rest⟩ =>
      some ({ x with failures := x.failures.set i ⟨reason, rest⟩ }, entry.op reason outbox now)
    | _ => none
  | .response id ok => some ({ x with responses := x.responses ++ [⟨id, ok, false⟩] }, none)
  | .acknowledge i now =>
    match x.responses[i]? with
    | some ⟨id, ok, false⟩ =>
      some ({ x with
        responses := x.responses.set i ⟨id, ok, true⟩
        requests := settleAll (x.pendingResponses.filter fun p => p.requestId = id) true x.requests
        pendingResponses := deletePending x.pendingResponses id }, some (.acknowledge id now))
    | _ => none

/-! ### What a step does -/

/-- The record id drawn by the step. -/
def ExchangeLabel.drawn : ExchangeLabel → Option String
  | .record _ id _ => some id
  | _ => none

/-- What a request is about and what the cloud has answered stay; a frame that was sent is that of a
    request. -/
structure Exchange.Keeps (x y : Exchange π σ) : Prop where
  requests : ∀ r' ∈ y.requests, ∃ r ∈ x.requests, r'.replayOf = r.replayOf ∧ r'.frame = r.frame
  sent : ∀ e ∈ y.sent, e ∈ x.sent ∨ ∃ r ∈ x.requests, e = (r.replayOf, r.frame)
  responses : ∀ r ∈ x.responses, ∃ r' ∈ y.responses, r'.id = r.id ∧ r'.ok = r.ok

theorem Exchange.Keeps.refl (x : Exchange π σ) : x.Keeps x where
  requests := fun r hr => ⟨r, hr, rfl, rfl⟩
  sent := fun _ he => Or.inl he
  responses := fun r hr => ⟨r, hr, rfl, rfl⟩

theorem mem_settleAll {entries : List PendingResponse} {ok : Bool} {r' : Request π σ} :
    ∀ {requests : List (Request π σ)}, r' ∈ settleAll entries ok requests →
      ∃ r ∈ requests, r'.replayOf = r.replayOf ∧ r'.frame = r.frame := by
  induction entries with
  | nil => exact fun h => ⟨r', h, rfl, rfl⟩
  | cons p ps ih =>
    intro requests h
    have hrest : r' ∈ settleAll ps ok (requests.modify p.request fun r => r.settle ok) := h
    obtain ⟨r, hr, horigin, hframe⟩ := ih hrest
    obtain ⟨i, hi⟩ := List.mem_iff_getElem?.mp hr
    rw [List.getElem?_modify] at hi
    obtain ⟨old, hold, rfl⟩ := Option.map_eq_some_iff.mp hi
    refine ⟨old, List.mem_of_getElem? hold, ?_⟩
    rw [horigin, hframe]
    split <;> exact ⟨rfl, rfl⟩

/-- One request moves on, or settles. -/
theorem keeps_setRequest {x y : Exchange π σ} {q : Nat} {r r' : Request π σ}
    (hq : x.requests[q]? = some r) (hrequests : y.requests = x.requests.set q r')
    (hr : r'.replayOf = r.replayOf ∧ r'.frame = r.frame) (hsent : y.sent = x.sent)
    (hresponses : y.responses = x.responses) : x.Keeps y where
  requests := by
    intro r'' h
    rw [hrequests] at h
    rcases List.mem_or_eq_of_mem_set h with h | rfl
    · exact ⟨r'', h, rfl, rfl⟩
    · exact ⟨r, List.mem_of_getElem? hq, hr⟩
  sent := fun e he => Or.inl (hsent ▸ he)
  responses := fun r hr => ⟨r, hresponses ▸ hr, rfl, rfl⟩

theorem transmit_keeps {x : Exchange π σ} {socket : Option ReadyState} {q : Nat} {r : Request π σ}
    (hq : x.requests[q]? = some r) (encoded sent : Except String Unit) :
    x.Keeps (x.transmit socket q r encoded sent) := by
  have hfailed (reason : String) : x.Keeps (x.sendFailed q r reason) :=
    keeps_setRequest hq rfl ⟨rfl, rfl⟩ rfl rfl
  unfold Exchange.transmit
  split
  · exact hfailed _
  · split_ifs
    · exact hfailed _
    · split
      · exact hfailed _
      · have hset : x.Keeps (x.setRequest q { r with stage := .awaiting, armed := true }) :=
          keeps_setRequest hq rfl ⟨rfl, rfl⟩ rfl rfl
        refine ⟨hset.requests, fun e he => ?_, hset.responses⟩
        rcases List.mem_append.mp he with he | he
        · exact Or.inl he
        · exact Or.inr ⟨r, List.mem_of_getElem? hq, List.mem_singleton.mp he⟩

theorem Exchange.step_keeps {x y : Exchange π σ} {socket : Option ReadyState}
    {outbox : List (Outbox.Item π)} {l : ExchangeLabel} {op : Option (Outbox.Op π)}
    (h : x.step socket outbox l = some (y, op)) : x.Keeps y := by
  cases l with
  | lookup q | fail q | record q id now | report q now =>
    simp only [Exchange.step] at h
    split at h <;> [skip; simp at h]
    rename_i r hq
    repeat' split at h
    all_goals first
      | (simp at h; done)
      | (obtain ⟨rfl, rfl⟩ := Prod.mk.inj (Option.some.inj h)
         exact keeps_setRequest hq rfl ⟨rfl, rfl⟩ rfl rfl)
  | transmit q encoded sent =>
    simp only [Exchange.step] at h
    split at h <;> [skip; simp at h]
    rename_i r hq
    split at h <;> [skip; simp at h]
    obtain ⟨rfl, rfl⟩ := Prod.mk.inj (Option.some.inj h)
    exact transmit_keeps hq encoded sent
  | timeout q =>
    simp only [Exchange.step] at h
    split at h <;> [skip; simp at h]
    rename_i r hq
    split at h <;> [skip; simp at h]
    obtain ⟨rfl, rfl⟩ := Prod.mk.inj (Option.some.inj h)
    exact keeps_setRequest hq rfl ⟨rfl, rfl⟩ rfl rfl
  | reportTimeout i now | reportFailure i now =>
    simp only [Exchange.step] at h
    split at h <;> [skip; simp at h]
    obtain ⟨rfl, rfl⟩ := Prod.mk.inj (Option.some.inj h)
    exact ⟨(Exchange.Keeps.refl x).requests, (Exchange.Keeps.refl x).sent,
      (Exchange.Keeps.refl x).responses⟩
  | response id ok =>
    obtain ⟨rfl, rfl⟩ := Prod.mk.inj (Option.some.inj h)
    exact ⟨(Exchange.Keeps.refl x).requests, (Exchange.Keeps.refl x).sent,
      fun r hr => ⟨r, List.mem_append_left _ hr, rfl, rfl⟩⟩
  | acknowledge i now =>
    simp only [Exchange.step] at h
    split at h <;> [skip; simp at h]
    rename_i id ok hi
    obtain ⟨rfl, rfl⟩ := Prod.mk.inj (Option.some.inj h)
    refine ⟨fun r' hr' => mem_settleAll hr', fun e he => Or.inl he, fun r hr => ?_⟩
    obtain ⟨k, hk⟩ := List.mem_iff_getElem?.mp hr
    rcases Chain.getElem?_set_of ⟨id, ok, true⟩ hi hk with ⟨-, rfl, hget⟩ | ⟨-, hget⟩
    · exact ⟨_, List.mem_of_getElem? hget, rfl, rfl⟩
    · exact ⟨r, List.mem_of_getElem? hget, rfl, rfl⟩

/-- What a step does to the outbox: it adds a record with the id it draws, or it acknowledges the id
    of a response, or it does neither. -/
theorem Exchange.step_op {x y : Exchange π σ} {socket : Option ReadyState}
    {outbox : List (Outbox.Item π)} {l : ExchangeLabel} {op : Outbox.Op π}
    (h : x.step socket outbox l = some (y, some op)) :
    (∀ id, op.drawn = some id → l.drawn = some id) ∧ ∀ requestId now, op = .acknowledge requestId now →
      ∃ i ok, l = .acknowledge i now ∧ x.responses[i]? = some ⟨requestId, ok, false⟩ ∧
        ∃ r ∈ y.responses, r.id = requestId ∧ r.ok = ok := by
  cases l with
  | acknowledge i now =>
    simp only [Exchange.step] at h
    split at h <;> [skip; simp at h]
    rename_i id ok hi
    obtain ⟨rfl, hop⟩ := Prod.mk.inj (Option.some.inj h)
    obtain rfl := Option.some.inj hop
    obtain ⟨hlt, -⟩ := List.getElem?_eq_some_iff.mp hi
    refine ⟨by simp [Outbox.Op.drawn], fun requestId now' heq => ?_⟩
    obtain ⟨rfl, rfl⟩ : id = requestId ∧ now = now' := by simpa using heq
    exact ⟨i, ok, rfl, hi, _, List.mem_set hlt _, rfl, rfl⟩
  | record q id now =>
    simp only [Exchange.step] at h
    split at h <;> [skip; simp at h]
    split at h <;> [skip; skip; simp at h]
    · obtain ⟨rfl, hop⟩ := Prod.mk.inj (Option.some.inj h)
      obtain rfl := Option.some.inj hop
      simp [Outbox.Op.drawn]
    · split at h
      · simp at h
      · obtain ⟨rfl, hop⟩ := Prod.mk.inj (Option.some.inj h)
        obtain rfl := Option.some.inj hop
        simp [Outbox.Op.drawn, ExchangeLabel.drawn]
  | report q now =>
    simp only [Exchange.step] at h
    split at h <;> [skip; simp at h]
    split at h <;> [skip; simp at h]
    obtain ⟨rfl, hop⟩ := Prod.mk.inj (Option.some.inj h)
    obtain rfl := Option.some.inj hop
    unfold reportOp
    split <;> simp [Outbox.Op.drawn]
  | reportTimeout i now =>
    simp only [Exchange.step] at h
    split at h <;> [skip; simp at h]
    obtain ⟨rfl, hop⟩ := Prod.mk.inj (Option.some.inj h)
    obtain rfl := Option.some.inj hop
    unfold TimeoutReport.op
    split <;> simp [Outbox.Op.drawn]
  | reportFailure i now =>
    simp only [Exchange.step] at h
    split at h <;> [skip; simp at h]
    obtain ⟨rfl, hop⟩ := Prod.mk.inj (Option.some.inj h)
    simp only [PendingResponse.op] at hop
    split_ifs at hop <;> obtain rfl := Option.some.inj hop <;> simp [Outbox.Op.drawn]
  | lookup q | transmit q _ _ | fail q | timeout q | response id ok =>
    simp only [Exchange.step] at h
    repeat' split at h
    all_goals simp at h

end Empyralis.Gateway.Cloud
