import Empyralis.Lib.Sql
import Empyralis.Server.RunState

/-! The rows of `runtime_outbox` and the statements that write them: an event is persisted, claimed by a
    deliverer, and then marked as delivered or its failure recorded.

    Times are microseconds, as the database keeps them. -/

namespace Empyralis.Server.OutboxRows
open Kernel RunState
open Text (strip)

def second : Int := 1000000

/-- What the event says. -/
structure Content where
  eventType : String
  tenantId : String
  workspaceId : String
  runId : Option Token
  machineId : Option Token
  traceId : Option Token
  idempotencyKey : Option Token
  payload : Fields

/-- How its delivery stands. -/
structure Delivery where
  deliveredAt : Option Int
  lastReplayedAt : Option Int
  retryCount : Nat
  lastDeliveryError : Option String
  lastAttemptedAt : Option Int
  nextAttemptAt : Option Int
  poisonedAt : Option Int
  deriving DecidableEq

/-- Who delivers it. -/
structure Claim where
  claimToken : Option Token
  claimedBy : Option String
  claimedAt : Option Int
  claimExpiresAt : Option Int
  deriving DecidableEq

/-- A row of the outbox. -/
structure Event extends Content, Delivery, Claim where
  createdAt : Int

abbrev Rows := Table Token Event

/-- The columns of the delivery before the first attempt. -/
def undelivered : Delivery := ⟨none, none, 0, none, none, none, none⟩

def unclaimed : Claim := ⟨none, none, none, none⟩

def orText (value other : String) : String := if strip value = "" then other else strip value

/-! ### Persisting -/

/-- The arguments of `persist_outbox_event`. -/
structure NewEvent where
  eventId : String
  eventType : String
  tenantId : String
  workspaceId : String
  runId : Option String := none
  machineId : Option String := none
  traceId : String := ""
  idempotencyKey : String := ""
  payload : Fields

/-- `persist_event_decision`, on the fields that `_enforce_outbox_delivery_decision` sends. -/
def persistDecision (e : NewEvent) : Except Error Unit :=
  if (present (strip e.eventId)).isNone then .error (.decision "outbox_event_id_missing")
  else if (present (strip e.eventType)).isNone then .error (.decision "outbox_event_type_missing")
  else if (present (strip e.tenantId)).isNone then .error (.decision "tenant_id_missing")
  else if (present (strip e.workspaceId)).isNone then .error (.decision "workspace_id_missing")
  else .ok ()

/-- The columns of the event itself. -/
def NewEvent.content (e : NewEvent) : Content where
  eventType := orText e.eventType "runtime_event"
  tenantId := orText e.tenantId "default"
  workspaceId := orText e.workspaceId "default"
  runId := Token.readOpt e.runId
  machineId := Token.readOpt e.machineId
  traceId := Token.read e.traceId
  idempotencyKey := Token.read e.idempotencyKey
  payload := e.payload

def newRow (now : Int) (content : Content) : Event :=
  { toContent := content, toDelivery := undelivered, toClaim := unclaimed, createdAt := now }

/-- The `SET` of `ON CONFLICT`: the content is written over, delivery and claim stay. -/
def repersist (content : Content) (old : Event) : Event :=
  { old with
    toContent := { content with
      traceId := Sql.coalesce content.traceId old.traceId
      idempotencyKey := Sql.coalesce content.idempotencyKey old.idempotencyKey } }

theorem repersist_toDelivery (content : Content) (old : Event) :
    (repersist content old).toDelivery = old.toDelivery := by
  rw [repersist]

theorem repersist_toClaim (content : Content) (old : Event) : (repersist content old).toClaim = old.toClaim := by
  rw [repersist]

/-- `persist_outbox_event` -/
def persistOutboxEvent (now : Int) (rows : Rows) (e : NewEvent) : Except Error Unit × Rows :=
  match Token.read e.eventId with
  | none => (.ok (), rows)
  | some id =>
    match persistDecision e with
    | .error error => (.error error, rows)
    | .ok () =>
      (.ok (), (Sql.upsert rows id (newRow now e.content) fun old => some (repersist e.content old)).2)

/-! ### Claiming -/

/-- The arguments of a claim. -/
structure ClaimRequest where
  olderThanSeconds : Int := 0
  limit : Int := 200
  claimedBy : String
  claimTtlSeconds : Int := 30
  tenantId : Option Token := none
  workspaceId : Option Token := none
  runId : Option Token := none
  eventType : Option Token := none

/-- `$n IS NULL OR column = $n` -/
def admits (wanted : Option Token) (column : Option String) : Bool :=
  wanted.all fun token => column = some token.text

/-- The `WHERE` of the events that are due. -/
def due (now : Int) (r : ClaimRequest) (e : Event) : Bool :=
  e.deliveredAt.isNone && e.poisonedAt.isNone &&
    e.nextAttemptAt.getD e.createdAt ≤ now - max 0 r.olderThanSeconds * second &&
    e.claimExpiresAt.all (· ≤ now) &&
    admits r.tenantId (some e.tenantId) && admits r.workspaceId (some e.workspaceId) &&
    admits r.runId (e.runId.map Token.text) && admits r.eventType (some e.eventType)

/-- A row that a deliverer claims. -/
def claimRow (now : Int) (r : ClaimRequest) (token : Token) (e : Event) : Event :=
  { e with
    claimToken := some token
    claimedBy := some (orText r.claimedBy "outbox-delivery")
    claimedAt := some now
    claimExpiresAt := some (now + max 1 r.claimTtlSeconds * second) }

/-- The `UPDATE` of the events chosen, each with the token that is made for it. -/
def claimRows (now : Int) (r : ClaimRequest) : Rows → List (Token × Token) → Rows
  | rows, [] => rows
  | rows, (id, token) :: chosen =>
    claimRows now r (Sql.update rows id fun e => some (claimRow now r token e)).2 chosen

/-- The chosen events are due, each is chosen once, and there are no more of them than the limit. Which
    of the events that are due come first is left open, so are the rows that others have locked. -/
def claimable (now : Int) (r : ClaimRequest) (rows : Rows) (chosen : List (Token × Token)) : Bool :=
  (chosen.map Prod.fst).Nodup && chosen.length ≤ (max 1 r.limit).toNat &&
    chosen.all fun choice => (rows.get? choice.1).any (due now r)

/-! ### Marks -/

/-- The `WHERE` of both marks. -/
def fenced (claim : Token) (e : Event) : Bool :=
  Sql.eq e.claimToken (some claim) && e.deliveredAt.isNone

/-- A row that is delivered. -/
def delivered (now : Int) (e : Event) : Event :=
  { e with
    toDelivery := { e.toDelivery with
      deliveredAt := some now
      lastReplayedAt := some now
      lastAttemptedAt := some now
      lastDeliveryError := none
      nextAttemptAt := none
      poisonedAt := none }
    toClaim := unclaimed }

/-- `mark_outbox_event_delivered` -/
def markOutboxEventDelivered (now : Int) (claim : Token) (e : Event) : Option Event :=
  if fenced claim e then some (delivered now e) else none

/-- A row whose delivery has failed. -/
def failed (now : Int) (errorText : String) (retryDelaySeconds : Option Int)
    (poison incrementRetry : Bool) (e : Event) : Event :=
  { e with
    toDelivery := { e.toDelivery with
      retryCount := e.retryCount + if incrementRetry then 1 else 0
      lastDeliveryError := some (String.ofList
        ((orText errorText "outbox_delivery_failed").toList.take 2000))
      lastAttemptedAt := some now
      lastReplayedAt := some now
      nextAttemptAt := if poison then none else
        retryDelaySeconds.map fun delay => now + max 0 delay * second
      poisonedAt := if poison then some now else none }
    toClaim := unclaimed }

/-- `record_outbox_delivery_failure` -/
def recordOutboxDeliveryFailure (now : Int) (claim : Token) (errorText : String)
    (retryDelaySeconds : Option Int) (poison incrementRetry : Bool) (e : Event) : Option Event :=
  if fenced claim e then some (failed now errorText retryDelaySeconds poison incrementRetry e)
  else none

/-- `patch_outbox_event_payload`, which a delivery may call. -/
def patchOutboxEventPayload (now : Int) (rows : Rows) (eventId : String) (patch : Fields) : Rows :=
  match Token.read eventId with
  | none => rows
  | some id =>
    if patch = [] then rows
    else (Sql.update rows id fun e => some { e with
      payload := e.payload.merge patch
      lastReplayedAt := some now }).2

/-! ### What they do -/

theorem fenced_iff {claim : Token} {e : Event} :
    fenced claim e = true ↔ e.claimToken = some claim ∧ e.deliveredAt = none := by
  simp [fenced, Option.isNone_iff_eq_none]

section Statements

variable {now : Int} {rows : Rows}

/-- What a persisted event is afterwards. -/
theorem persist_get (now : Int) (rows : Rows) (e : NewEvent) (id : Token) :
    (persistOutboxEvent now rows e).2.get? id = rows.get? id ∨
      ((persistOutboxEvent now rows e).2.get? id = some (newRow now e.content) ∧
        rows.get? id = none) ∨
      ∃ old, rows.get? id = some old ∧
        (persistOutboxEvent now rows e).2.get? id = some (repersist e.content old) := by
  unfold persistOutboxEvent
  split
  · exact .inl rfl
  · rename_i key _
    split
    · exact .inl rfl
    · by_cases hid : id = key
      · subst hid
        dsimp only
        rw [Sql.upsert_self]
        cases hrow : rows.get? id with
        | none => exact .inr (.inl ⟨rfl, rfl⟩)
        | some old => exact .inr (.inr ⟨old, rfl, rfl⟩)
      · exact .inl (Sql.upsert_other hid)

/-- What a patched event is afterwards. -/
theorem patch_get (now : Int) (rows : Rows) (eventId : String) (patch : Fields) (id : Token) :
    (patchOutboxEventPayload now rows eventId patch).get? id = rows.get? id ∨
      ∃ old, rows.get? id = some old ∧
        (patchOutboxEventPayload now rows eventId patch).get? id =
          some { old with payload := old.payload.merge patch, lastReplayedAt := some now } := by
  unfold patchOutboxEventPayload
  split
  · exact .inl rfl
  · rename_i key _
    split
    · exact .inl rfl
    · by_cases hid : id = key
      · subst hid
        rw [Sql.update_self]
        cases hrow : rows.get? id with
        | none => exact .inl rfl
        | some old => exact .inr ⟨old, rfl, rfl⟩
      · exact .inl (Sql.update_other hid)

/-- A claim writes the events that are chosen and no others. -/
theorem claimRows_get {r : ClaimRequest} (id : Token) : ∀ {chosen : List (Token × Token)} {rows : Rows},
    (chosen.map Prod.fst).Nodup → (claimRows now r rows chosen).get? id =
      (rows.get? id).map fun e => ((chosen.lookup id).map fun token => claimRow now r token e).getD e
  | [], rows, _ => by simp [claimRows]
  | (key, token) :: chosen, rows, h => by
    rw [List.map_cons, List.nodup_cons] at h
    rw [claimRows, claimRows_get id h.2, List.lookup_cons]
    by_cases hid : id = key
    · subst hid
      have hout : chosen.lookup id = none := by
        rw [List.lookup_eq_none_iff]
        intro p hp
        rw [bne_iff_ne]
        intro heq
        exact h.1 (List.mem_map.mpr ⟨p, hp, heq.symm⟩)
      rw [Sql.update_self, hout]
      simp [Function.comp_def]
    · rw [Sql.update_other hid, beq_eq_false_iff_ne.mpr hid]

end Statements

end Empyralis.Server.OutboxRows
