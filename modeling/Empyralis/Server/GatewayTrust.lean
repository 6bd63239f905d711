import Empyralis.Kernel.GatewayState
import Empyralis.Lib.Run
import Empyralis.Lib.Sql
import Empyralis.Server.Values

/-! What the server keeps of the gateways it trusts: pairing intents, registrations and sessions. Each operation runs
    under `_DB_LOCK` from its first read to its commit, so that a run is a sequence of operations. -/

namespace Empyralis.Server.GatewayTrust
open Kernel (Json)
open Kernel.GatewayState (Answer gatewayStateDecisionCommand)
open Text (strip)

/-- `isoformat` is the text of a time in microseconds without its offset, `repr` the text of a list or a dictionary. -/
structure Env where
  isoformat : Int → String
  sha256 : String → String
  lower : String → String
  repr : Value → String

/-- `_utc_now_iso` -/
def Env.utcNowIso (e : Env) (now : Int) : String := e.isoformat now ++ "Z"

/-- `(_utc_now() - timedelta(seconds=seconds)).isoformat()` -/
def Env.cutoff (e : Env) (now seconds : Int) : String := e.isoformat (now - seconds * 1000000) ++ "+00:00"

/-- `_hash_token` -/
def Env.hashToken (e : Env) (token : String) : String := e.sha256 (strip token)

/-- `_expires_at_iso` -/
def expiresAt (ttlSeconds now : Int) : Int := now + max ttlSeconds 1 * 1000000

/-- `str(value or "").strip()` -/
def textOf (value : Option String) : String := strip (value.getD "")

/-- `str(value or "").strip() or None` -/
def optional (value : Option String) : Option String := if textOf value = "" then none else some (textOf value)

/-- `str(value or default).strip()` -/
def textOr (value : Option String) (default : String) : String :=
  strip ((value.filter (· ≠ "")).getD default)

/-- `text or default` -/
def orText (text default : String) : String := if text = "" then default else text

/-! ### Rows -/

/-- How far a pairing is. -/
inductive PairingStatus where
  | pending
  | expired
  | consumed
  deriving DecidableEq

/-- The text in the column. -/
def PairingStatus.text : PairingStatus → String
  | .pending => "pending"
  | .expired => "expired"
  | .consumed => "consumed"

/-- A row of `gateway_pairing_intents`, kept under its token hash, which is unique as its id is. -/
structure Pairing where
  pairingId : String
  tenantId : String
  workspaceId : String
  userId : String
  status : PairingStatus
  displayName : Option String
  platform : Option String
  metadata : Fields
  createdAt : Int
  expiresAt : Int
  consumedAt : Option Int
  consumedGatewayId : Option String

/-- A row of `gateway_registrations`, kept under its gateway id. -/
structure Registration where
  deviceId : String
  tenantId : String
  workspaceId : String
  userId : String
  status : String
  deviceTrustState : String
  displayName : Option String
  platform : Option String
  gatewayTokenHash : String
  metadata : Fields
  capabilities : List String
  journalCursor : Int
  checkpointCursor : Int
  createdAt : Int
  updatedAt : Int
  lastSeenAt : Option Int
  lastHeartbeatAt : Option Int
  tokenRotatedAt : Option Int
  revokedAt : Option Int
  revokedReason : Option String

/-- How far a session is. -/
inductive SessionStatus where
  | pending
  | connected
  | disconnected
  | expired
  | revoked
  deriving DecidableEq

/-- The text in the column. -/
def SessionStatus.text : SessionStatus → String
  | .pending => "pending"
  | .connected => "connected"
  | .disconnected => "disconnected"
  | .expired => "expired"
  | .revoked => "revoked"

/-- `_GATEWAY_SESSION_PRUNABLE_STATUSES` -/
def SessionStatus.prunable (status : SessionStatus) : Bool :=
  [SessionStatus.expired, .disconnected, .revoked].contains status

/-- A row of `gateway_sessions`, kept under its session id. -/
structure Session where
  gatewayId : String
  deviceId : String
  tenantId : String
  workspaceId : String
  userId : String
  sessionTokenHash : String
  status : SessionStatus
  metadata : Fields
  createdAt : Int
  updatedAt : Int
  connectedAt : Option Int
  disconnectedAt : Option Int
  expiresAt : Int
  lastSeq : Int
  lastAck : Int
  lastHeartbeatAt : Option Int

/-- The three tables of the store. -/
structure State where
  pairings : Table String Pairing
  registrations : Table String Registration
  sessions : Table String Session

/-- A store without rows. -/
def start : State := ⟨.empty, .empty, .empty⟩

/-! ### The kernel's word -/

/-- What a function raises: a `ValueError`, a refusal of the kernel, or what the database raises of a constraint. -/
inductive Raised where
  | value (text : String)
  | decision (reason : String)
  | approvalRequired (reason : String)
  | unexpectedNextAction (nextAction : String)
  | integrity
  deriving DecidableEq

/-- Whom and what the kernel is asked about. -/
structure Scope where
  tenantId : String
  workspaceId : String
  userId : String
  deviceId : String
  gatewayId : String
  sessionId : String

/-- An integer as JSON has it. -/
def jsonInt : Int → Json
  | .ofNat n => .number (.posInt n)
  | .negSucc n => .number (.negInt (n + 1))

/-- A value of the metadata, of which the kernel reads only texts. -/
def jsonText : Value → Json
  | .string text => .string text
  | _ => .null

/-- The payload of a request to the kernel, with the fields that its operation adds. -/
def request (operation : String) (s : Scope) (role : String) (fields : List (String × Json)) : Json :=
  .object ([("operation", Json.string operation), ("tenant_id", .string (strip s.tenantId)),
    ("workspace_id", .string (strip s.workspaceId)), ("user_id", .string (strip s.userId)),
    ("device_id", .string (strip s.deviceId)), ("gateway_id", .string (strip s.gatewayId)),
    ("session_id", .string (strip s.sessionId)), ("actor_role", .string role),
    ("is_service", .bool (["system", "service"].contains role))] ++ fields)

/-- What the kernel may answer as the next action of an operation. -/
def expectedNextActions : String → List String
  | "create_pairing_intent" => ["create_pairing_intent"]
  | "expire_pairing_intent" => ["mark_pairing_intent_expired"]
  | "register_gateway" => ["consume_pairing_and_register_gateway"]
  | "issue_session" => ["issue_gateway_session"]
  | "mark_session_connected" => ["mark_gateway_session_connected"]
  | "mark_session_disconnected" => ["mark_gateway_session_disconnected"]
  | "touch_session" => ["touch_gateway_session"]
  | "rotate_token" => ["rotate_gateway_token"]
  | "revoke_registration" => ["revoke_gateway_registration"]
  | "update_registration_state" => ["update_gateway_registration_state"]
  | "sweep_stale_sessions" => ["sweep_stale_gateway_sessions", "noop"]
  | _ => []

/-- `_enforce_gateway_state_decision` -/
def enforceGatewayStateDecision (operation : String) (s : Scope) (role : String) (fields : List (String × Json)) :
    Except Raised Answer :=
  match gatewayStateDecisionCommand (request operation s role fields) with
  | .block reason _ => .error (.decision reason)
  | .requireApproval answer => .error (.approvalRequired answer.reason)
  | .allow answer =>
    if (expectedNextActions operation).contains answer.nextAction then .ok answer
    else .error (.unexpectedNextAction answer.nextAction)

/-- What follows an allowed operation; where the kernel does not allow it, the state is left as it was. -/
def gated {α : Type} (s : State) (granted : Except Raised Answer) (next : Answer → Except Raised α × State) :
    Except Raised α × State :=
  match granted with
  | .error raised => (.error raised, s)
  | .ok answer => next answer

theorem gated_state {α : Type} {s : State} {granted : Except Raised Answer}
    {next : Answer → Except Raised α × State} {P : State → Prop} (hs : P s)
    (h : ∀ answer, granted = .ok answer → P (next answer).2) : P (gated s granted next).2 := by
  cases granted with
  | error raised => exact hs
  | ok answer => exact h answer rfl

theorem gated_ok {α : Type} {s t : State} {granted : Except Raised Answer} {next : Answer → Except Raised α × State}
    {value : α} (h : gated s granted next = (.ok value, t)) :
    ∃ answer, granted = .ok answer ∧ next answer = (.ok value, t) := by
  cases granted with
  | error raised => cases h
  | ok answer => exact ⟨answer, rfl, h⟩

/-- The scope of a pairing, which has no device yet. -/
def Pairing.scope (p : Pairing) : Scope := ⟨p.tenantId, p.workspaceId, p.userId, "", "", ""⟩

/-- The scope of a registration, without a session. -/
def Registration.scope (r : Registration) (gatewayId : String) : Scope :=
  ⟨r.tenantId, r.workspaceId, r.userId, r.deviceId, gatewayId, ""⟩

/-- The scope of a session. -/
def Session.scope (s : Session) (sessionId : String) : Scope :=
  ⟨s.tenantId, s.workspaceId, s.userId, s.deviceId, s.gatewayId, sessionId⟩

/-! ### Pairing -/

/-- The arguments of `create_pairing_intent`, with the id and the token that it makes. -/
structure PairingCall where
  tenantId : String
  workspaceId : String
  userId : String
  ttlSeconds : Int
  displayName : Option String
  platform : Option String
  metadata : Fields
  maxPendingIntents : Option Int
  pairingId : String
  pairingToken : String
  now : Int

/-- The row of a new pairing. -/
def PairingCall.record (c : PairingCall) : Pairing where
  pairingId := c.pairingId
  tenantId := orText (strip c.tenantId) "default"
  workspaceId := orText (strip c.workspaceId) "default"
  userId := orText (strip c.userId) "unknown-user"
  status := .pending
  displayName := optional c.displayName
  platform := optional c.platform
  metadata := c.metadata
  createdAt := c.now
  expiresAt := expiresAt c.ttlSeconds c.now
  consumedAt := none
  consumedGatewayId := none

/-- `tenant_id = ? AND workspace_id = ? AND user_id = ? AND status = 'pending'` -/
def Pairing.pendingOf (record p : Pairing) : Bool :=
  p.tenantId = record.tenantId && p.workspaceId = record.workspaceId && p.userId = record.userId &&
    p.status = .pending

/-- `UPDATE gateway_pairing_intents SET status = 'expired'` of what is past its time -/
def expirePairings (e : Env) (pairings : Table String Pairing) (record : Pairing) (now : Int) : Table String Pairing :=
  Sql.updateAll pairings fun _ p =>
    if record.pendingOf p ∧ e.utcNowIso p.expiresAt ≤ e.utcNowIso now then
      some { p with status := .expired, consumedAt := p.consumedAt.or (some now) }
    else none

/-- `SELECT COUNT(*)` of the pairings of the owner that are pending and not past their time -/
def pendingCount (e : Env) (pairings : Table String Pairing) (record : Pairing) (now : Int) : Nat :=
  pairings.count fun p => record.pendingOf p && e.utcNowIso now < e.utcNowIso p.expiresAt

/-- `INSERT INTO gateway_pairing_intents`: neither the token hash nor the pairing id is there already. -/
def insertPairing (pairings : Table String Pairing) (tokenHash : String) (record : Pairing) :
    Option (Table String Pairing) :=
  if pairings.entries.any (·.2.pairingId = record.pairingId) then none
  else Sql.insert pairings tokenHash record

/-- `create_pairing_intent`: what is past its time is expired before the pending ones are counted. -/
def createPairingIntent (e : Env) (s : State) (c : PairingCall) : Except Raised Pairing × State :=
  let record := c.record
  let granted := do
    let _ ← enforceGatewayStateDecision "create_pairing_intent" record.scope "user"
      [("ttl_seconds", jsonInt (max 1 c.ttlSeconds))]
    enforceGatewayStateDecision "expire_pairing_intent" record.scope "system"
      [("pairing_status", .string "pending"), ("bulk_expire", .bool true)]
  gated s granted fun _ =>
    let pairings := expirePairings e s.pairings record c.now
    if c.maxPendingIntents.any fun limit => max 1 limit ≤ (pendingCount e pairings record c.now : Int) then
      (.error (.value
        "Too many pending gateway pairing requests. Use an existing code or wait for one to expire."), s)
    else match insertPairing pairings (e.hashToken c.pairingToken) record with
      | none => (.error .integrity, s)
      | some pairings => (.ok record, { s with pairings })

/-! ### Registration -/

def guardedRuntimeAccessMode : String := "default_guarded"
def fullRuntimeAccessMode : String := "full_access"
def customRuntimeAccessMode : String := "custom"

/-- `normalize_runtime_access_mode` without an execution mode -/
def normalizeRuntimeAccessMode (e : Env) (value : Value) : String :=
  let mode := String.ofList ((e.lower (value.token e.repr)).toList.map fun c => if c = '-' ∨ c = ' ' then '_' else c)
  if mode = fullRuntimeAccessMode then fullRuntimeAccessMode
  else if mode = customRuntimeAccessMode then customRuntimeAccessMode
  else guardedRuntimeAccessMode

/-- `public_runtime_access_label` of a mode -/
def publicRuntimeAccessLabel (mode : String) : String :=
  if mode = fullRuntimeAccessMode then "Full Access"
  else if mode = customRuntimeAccessMode then "Custom"
  else "Default"

/-- `runtime_access_setup_warning` of a mode -/
def runtimeAccessSetupWarning (mode : String) : Option String :=
  if mode = fullRuntimeAccessMode then
    some ("Full Access lets this agent run commands, read, write, delete files, and access secrets, browser data, " ++
      "tokens, SSH keys, and connected accounts on this Agent Computer; dedicated hardware is recommended.")
  else none

/-- `_OWNER_RUNTIME_ACCESS_METADATA_KEYS` -/
def ownerRuntimeAccessMetadataKeys : List String :=
  ["runtime_access_mode", "runtime_access_label", "runtime_access_setup_warning",
    "autonomous_agent_setup_warning_acknowledged", "autonomous_agent_setup_warning_acknowledged_at"]

/-- `_strip_owner_runtime_access_metadata` -/
def stripOwnerRuntimeAccessMetadata (metadata : Fields) : Fields :=
  metadata.filter fun field => !ownerRuntimeAccessMetadataKeys.contains field.1

/-- `a or b` -/
def orValue (a b : Value) : Value := if a.truthy then a else b

/-- `_runtime_access_metadata_from_pairing` -/
def runtimeAccessMetadataFromPairing (e : Env) (pairing existing : Fields) : Fields :=
  let mode := normalizeRuntimeAccessMode e
    (orValue (pairing.get "runtime_access_mode") (existing.get "runtime_access_mode"))
  let acknowledged := orValue (pairing.get "autonomous_agent_setup_warning_acknowledged")
    (existing.get "autonomous_agent_setup_warning_acknowledged")
  let acknowledgedAt := orValue (pairing.get "autonomous_agent_setup_warning_acknowledged_at")
    (existing.get "autonomous_agent_setup_warning_acknowledged_at")
  let access : Fields := [("runtime_access_mode", .string mode),
    ("runtime_access_label", .string (publicRuntimeAccessLabel mode))]
  match runtimeAccessSetupWarning mode with
  | none => access ++ [("autonomous_agent_setup_warning_acknowledged", .bool false)]
  | some warning =>
    access ++ [("runtime_access_setup_warning", .string warning),
      ("autonomous_agent_setup_warning_acknowledged", .bool acknowledged.truthy)] ++
      if acknowledgedAt.truthy then
        [("autonomous_agent_setup_warning_acknowledged_at", .string (acknowledgedAt.str e.repr))]
      else []

/-- The arguments of `register_gateway_from_pairing`, with the token and the id that it makes. -/
structure RegisterCall where
  pairingToken : String
  deviceId : String
  gatewayId : Option String
  displayName : Option String
  platform : Option String
  metadata : Fields
  capabilities : List String
  gatewayToken : String
  freshGatewayId : String
  now : Int

/-- The registration that the device has for the pairing's owner. -/
def existingOf (s : State) (p : Pairing) (deviceId : String) : Option (String × Registration) :=
  s.registrations.entries.find? fun entry =>
    entry.2.workspaceId = p.workspaceId && entry.2.userId = p.userId && entry.2.deviceId = deviceId

/-- The id that the device names, else that of the registration that it has, else a fresh one. -/
def RegisterCall.resolvedGatewayId (c : RegisterCall) (existing : Option (String × Registration)) : String :=
  orText (textOf c.gatewayId) (orText ((existing.map Prod.fst).getD "") c.freshGatewayId)

/-- What the metadata repeats of the scope. -/
def scopeMetadata (tenantId workspaceId userId deviceId gatewayId : String) : Fields :=
  [("tenant_id", .string tenantId), ("workspace_id", .string workspaceId), ("user_id", .string userId),
    ("device_id", .string deviceId), ("gateway_id", .string gatewayId)]

/-- The metadata of the registration: the access mode is that of the pairing, whatever the device says. -/
def RegisterCall.mergedMetadata (e : Env) (c : RegisterCall) (p : Pairing) (existing : Fields)
    (gatewayId : String) : Fields :=
  Fields.merge (Fields.merge (Fields.merge (existing.merge p.metadata) (stripOwnerRuntimeAccessMetadata c.metadata))
    (runtimeAccessMetadataFromPairing e p.metadata existing))
    (scopeMetadata p.tenantId p.workspaceId p.userId (strip c.deviceId) gatewayId)

/-- The row of a device that is registered once more. -/
def RegisterCall.updated (e : Env) (c : RegisterCall) (p : Pairing) (existing : Registration) (metadata : Fields)
    (old : Registration) : Registration :=
  { old with
    tenantId := p.tenantId
    workspaceId := p.workspaceId
    userId := p.userId
    status := "active"
    deviceTrustState := "verified"
    displayName := optional ((c.displayName.filter (· ≠ "")).or existing.displayName)
    platform := optional ((c.platform.filter (· ≠ "")).or existing.platform)
    gatewayTokenHash := e.hashToken c.gatewayToken
    metadata
    capabilities := if c.capabilities = [] then existing.capabilities else c.capabilities
    updatedAt := c.now
    lastSeenAt := some c.now
    tokenRotatedAt := some c.now
    revokedAt := none
    revokedReason := none }

/-- The row of a device that is registered for the first time. -/
def RegisterCall.inserted (e : Env) (c : RegisterCall) (p : Pairing) (metadata : Fields) : Registration where
  deviceId := strip c.deviceId
  tenantId := p.tenantId
  workspaceId := p.workspaceId
  userId := p.userId
  status := "active"
  deviceTrustState := "verified"
  displayName := optional ((c.displayName.filter (· ≠ "")).or p.displayName)
  platform := optional ((c.platform.filter (· ≠ "")).or p.platform)
  gatewayTokenHash := e.hashToken c.gatewayToken
  metadata
  capabilities := c.capabilities
  journalCursor := 0
  checkpointCursor := 0
  createdAt := c.now
  updatedAt := c.now
  lastSeenAt := some c.now
  lastHeartbeatAt := none
  tokenRotatedAt := some c.now
  revokedAt := none
  revokedReason := none

/-- The statement that writes the registration; an update may find no row under the id. -/
def RegisterCall.write (e : Env) (s : State) (c : RegisterCall) (p : Pairing)
    (existing : Option (String × Registration)) (gatewayId : String) : Option (Table String Registration) :=
  match existing with
  | some (_, old) =>
    let metadata := c.mergedMetadata e p old.metadata gatewayId
    some (Sql.update s.registrations gatewayId fun row => some (c.updated e p old metadata row)).2
  | none => Sql.insert s.registrations gatewayId (c.inserted e p (c.mergedMetadata e p [] gatewayId))

/-- The pairing after the registration that it was for. -/
def Pairing.consume (p : Pairing) (gatewayId : String) (now : Int) : Pairing :=
  { p with status := .consumed, consumedAt := some now, consumedGatewayId := some gatewayId }

variable (e : Env)

/-- `register_gateway_from_pairing`: the pairing is consumed in the transaction that writes the registration. -/
def registerGatewayFromPairing (s : State) (c : RegisterCall) : Except Raised (Option Registration) × State :=
  let tokenHash := e.hashToken c.pairingToken
  if strip c.deviceId = "" then (.error (.value "device_id is required."), s)
  else match s.pairings.get? tokenHash with
  | none => (.error (.value "Pairing token is invalid."), s)
  | some p =>
    if p.status ≠ .pending then (.error (.value "Pairing token is no longer active."), s)
    else if p.expiresAt ≤ c.now then
      gated s (enforceGatewayStateDecision "expire_pairing_intent" p.scope "gateway"
          [("pairing_id", .string p.pairingId), ("pairing_status", .string p.status.text),
            ("pairing_expired", .bool true)]) fun _ =>
        (.error (.value "Pairing token has expired."),
          { s with pairings := s.pairings.put tokenHash { p with status := .expired, consumedAt := some c.now } })
    else
      let existing := existingOf s p (strip c.deviceId)
      let gatewayId := c.resolvedGatewayId existing
      gated s (enforceGatewayStateDecision "register_gateway"
          ⟨p.tenantId, p.workspaceId, p.userId, strip c.deviceId, gatewayId, ""⟩ "gateway"
          [("token_valid", .bool true), ("pairing_status", .string p.status.text), ("pairing_expired", .bool false),
            ("existing_gateway", .bool existing.isSome)]) fun _ =>
        match c.write e s p existing gatewayId with
        | none => (.error .integrity, s)
        | some registrations =>
          (.ok (registrations.get? gatewayId),
            { s with
              registrations
              pairings := s.pairings.put tokenHash (p.consume gatewayId c.now) })

/-! ### Changes of a registration -/

/-- `_registration_scope_matches` -/
def registrationScopeMatches (r : Registration) (tenantId workspaceId userId : Option String) : Bool :=
  (optional tenantId).all (· = strip r.tenantId) && (optional workspaceId).all (· = strip r.workspaceId) &&
    (optional userId).all (· = strip r.userId)

/-- `metadata.get("reason") or metadata.get("revoked_reason") or metadata.get("note")` -/
def reasonOf (metadata : Fields) : Json :=
  jsonText (orValue (metadata.get "reason") (orValue (metadata.get "revoked_reason") (metadata.get "note")))

/-- The arguments of `sync_gateway_registration_identity`. -/
structure SyncCall where
  gatewayId : String
  tenantId : Option String
  workspaceId : Option String
  userId : Option String
  deviceId : Option String
  deviceTrustState : Option String
  metadata : Fields
  status : Option String
  now : Int

/-- `sync_gateway_registration_identity` -/
def syncGatewayRegistrationIdentity (s : State) (c : SyncCall) : Except Raised (Option Registration) × State :=
  let gatewayId := strip c.gatewayId
  match s.registrations.get? gatewayId with
  | none => (.ok none, s)
  | some r =>
    let tenantId := textOr c.tenantId r.tenantId
    let workspaceId := textOr c.workspaceId r.workspaceId
    let userId := textOr c.userId r.userId
    let deviceId := textOr c.deviceId r.deviceId
    let status := orText (textOr c.status (orText r.status "active")) "active"
    let trust := orText (textOr c.deviceTrustState (orText r.deviceTrustState "verified")) "verified"
    let metadata :=
      Fields.merge (Fields.merge r.metadata c.metadata) (scopeMetadata tenantId workspaceId userId deviceId gatewayId)
    gated s (enforceGatewayStateDecision "update_registration_state" (r.scope gatewayId) "system"
        [("registration_status", .string r.status), ("next_status", .string status),
          ("next_tenant_id", .string tenantId), ("next_workspace_id", .string workspaceId),
          ("next_user_id", .string userId), ("next_device_id", .string deviceId),
          ("next_device_trust_state", .string trust), ("reason", reasonOf metadata)]) fun _ =>
      let row := { r with
        tenantId, workspaceId, userId, deviceId, status, deviceTrustState := trust, metadata, updatedAt := c.now }
      (.ok (some row), { s with registrations := s.registrations.put gatewayId row })

/-- The arguments of `rotate_gateway_token`, with the token that it makes. -/
structure RotateCall where
  gatewayId : String
  tenantId : Option String
  workspaceId : Option String
  userId : Option String
  gatewayToken : String
  now : Int

/-- `rotate_gateway_token` -/
def rotateGatewayToken (s : State) (c : RotateCall) : Except Raised Registration × State :=
  let gatewayId := strip c.gatewayId
  match s.registrations.get? gatewayId with
  | none => (.error (.value "Gateway registration was not found."), s)
  | some r =>
    if ¬ registrationScopeMatches r c.tenantId c.workspaceId c.userId then
      (.error (.value "Gateway registration scope mismatch."), s)
    else if strip r.status = "revoked" then (.error (.value "Gateway registration has been revoked."), s)
    else gated s (enforceGatewayStateDecision "rotate_token" (r.scope gatewayId) "system"
        [("registration_status", .string r.status)]) fun _ =>
        let row := { r with
          gatewayTokenHash := e.hashToken c.gatewayToken, tokenRotatedAt := some c.now, updatedAt := c.now }
        (.ok row, { s with registrations := s.registrations.put gatewayId row })

/-- The arguments of `update_gateway_registration_state`; the capabilities are normalized. -/
structure UpdateCall where
  gatewayId : String
  metadata : Fields
  metadataKeysToRemove : List String
  journalCursor : Option Int
  checkpointCursor : Option Int
  deviceTrustState : Option String
  status : Option String
  capabilities : Option (List String)
  now : Int

/-- `update_gateway_registration_state` -/
def updateGatewayRegistrationState (s : State) (c : UpdateCall) : Except Raised (Option Registration) × State :=
  let gatewayId := strip c.gatewayId
  match s.registrations.get? gatewayId with
  | none => (.ok none, s)
  | some r =>
    let removed := (c.metadataKeysToRemove.map strip).filter (· ≠ "")
    let kept : Fields := r.metadata.filter fun field => !removed.contains field.1
    let metadata := kept.merge c.metadata
    let status := orText (textOr c.status (orText r.status "active")) "active"
    gated s (enforceGatewayStateDecision "update_registration_state" (r.scope gatewayId) "system"
        [("registration_status", .string r.status), ("next_status", .string status),
          ("reason", reasonOf metadata)]) fun _ =>
      let row := { r with
        metadata
        updatedAt := c.now
        lastSeenAt := some c.now
        journalCursor := c.journalCursor.getD r.journalCursor
        checkpointCursor := c.checkpointCursor.getD r.checkpointCursor
        deviceTrustState := orText (textOr c.deviceTrustState (orText r.deviceTrustState "verified")) "verified"
        status
        capabilities := c.capabilities.getD r.capabilities }
      (.ok (some row), { s with registrations := s.registrations.put gatewayId row })

/-- `rename_gateway_registration` -/
def renameGatewayRegistration (s : State) (gatewayId displayName tenantId workspaceId : String) (now : Int) :
    Option Registration × State :=
  let name := String.ofList ((strip displayName).toList.take 80)
  let (row, registrations) := Sql.update s.registrations (strip gatewayId) fun r =>
    if registrationScopeMatches r (some tenantId) (some workspaceId) none then
      some { r with displayName := if name = "" then none else some name, updatedAt := now }
    else none
  (row, { s with registrations })

/-- `set_gateway_project_sharing_opt_in` -/
def setGatewayProjectSharingOptIn (s : State) (gatewayId : String) (optedIn : Bool)
    (tenantId workspaceId userId : String) (now : Int) : Option Registration × State :=
  if strip userId = "" then (none, s)
  else
    let (row, registrations) := Sql.update s.registrations (strip gatewayId) fun r =>
      if registrationScopeMatches r (some tenantId) (some workspaceId) (some (strip userId)) then
        some { r with
          metadata := Fields.merge r.metadata [("project_sharing_opt_in", .bool optedIn),
            ("project_sharing_opt_in_at", .string (e.utcNowIso now)),
            ("project_sharing_opt_in_by", .string (strip userId))]
          updatedAt := now }
      else none
    (row, { s with registrations })

/-- The arguments of `revoke_gateway_registration`. -/
structure RevokeCall where
  gatewayId : String
  tenantId : Option String
  workspaceId : Option String
  userId : Option String
  reason : Option String
  now : Int

/-- The reason that is stored. -/
def RevokeCall.cleanReason (c : RevokeCall) : String := orText (textOf c.reason) "Gateway registration revoked."

/-- The row of a session that is revoked with its gateway. -/
def Session.revoke (row : Session) (reason : String) (now : Int) : Session :=
  { row with
    status := .revoked
    updatedAt := now
    disconnectedAt := some now
    metadata := row.metadata.put "disconnect_reason" (.string reason) }

/-- `UPDATE gateway_sessions SET status = 'revoked'` of each session of the gateway that is not revoked yet -/
def revokeSessions (sessions : Table String Session) (gatewayId reason : String) (now : Int) : Table String Session :=
  Sql.updateAll sessions fun _ row =>
    if row.gatewayId = gatewayId ∧ row.status ≠ .revoked then some (row.revoke reason now) else none

/-- `revoke_gateway_registration`: the registration and the sessions of the gateway, in one transaction. -/
def revokeGatewayRegistration (s : State) (c : RevokeCall) : Except Raised (Option Registration) × State :=
  let gatewayId := strip c.gatewayId
  match s.registrations.get? gatewayId with
  | none => (.ok none, s)
  | some r =>
    if ¬ registrationScopeMatches r c.tenantId c.workspaceId c.userId then
      (.error (.value "Gateway registration scope mismatch."), s)
    else gated s (enforceGatewayStateDecision "revoke_registration" (r.scope gatewayId) "system"
        [("registration_status", .string r.status), ("reason", .string c.cleanReason)]) fun _ =>
        let row := { r with
          status := "revoked"
          deviceTrustState := "revoked"
          updatedAt := c.now
          revokedAt := some c.now
          revokedReason := some c.cleanReason
          metadata := r.metadata.put "revoked_reason" (.string c.cleanReason) }
        (.ok (some row), { s with
          registrations := s.registrations.put gatewayId row
          sessions := revokeSessions s.sessions gatewayId c.cleanReason c.now })

/-! ### Sessions -/

/-- The arguments of `issue_gateway_session`, with the id and the token that it makes. -/
structure IssueCall where
  gatewayId : String
  gatewayToken : String
  ttlSeconds : Int
  metadata : Fields
  sessionId : String
  sessionToken : String
  now : Int

/-- The row of a new session, in the scope of its registration. -/
def IssueCall.row (c : IssueCall) (r : Registration) : Session where
  gatewayId := strip c.gatewayId
  deviceId := r.deviceId
  tenantId := r.tenantId
  workspaceId := r.workspaceId
  userId := r.userId
  sessionTokenHash := e.hashToken c.sessionToken
  status := .pending
  metadata := Fields.merge (c.metadata.merge
    (scopeMetadata r.tenantId r.workspaceId r.userId r.deviceId (strip c.gatewayId)))
    [("session_kind", .string "local_gateway")]
  createdAt := c.now
  updatedAt := c.now
  connectedAt := none
  disconnectedAt := none
  expiresAt := expiresAt c.ttlSeconds c.now
  lastSeq := 0
  lastAck := 0
  lastHeartbeatAt := none

/-- `INSERT INTO gateway_sessions`: neither the id nor the token hash is there already. -/
def insertSession (sessions : Table String Session) (sessionId : String) (row : Session) :
    Option (Table String Session) :=
  if sessions.entries.any (·.2.sessionTokenHash = row.sessionTokenHash) then none
  else Sql.insert sessions sessionId row

/-- `issue_gateway_session`, to a device that has the token of an active registration -/
def issueGatewaySession (s : State) (c : IssueCall) : Except Raised Session × State :=
  let gatewayId := strip c.gatewayId
  let found := (s.registrations.get? gatewayId).filter fun r =>
    r.gatewayTokenHash = e.hashToken c.gatewayToken && r.status = "active"
  match found with
  | none => (.error (.value "Gateway credentials are invalid."), s)
  | some r =>
    if strip r.deviceTrustState = "revoked" then (.error (.value "Gateway device trust was revoked."), s)
    else gated s (enforceGatewayStateDecision "issue_session" (r.scope gatewayId) "system"
        [("token_valid", .bool true), ("registration_status", .string r.status),
          ("device_trust_state", .string r.deviceTrustState), ("ttl_seconds", jsonInt c.ttlSeconds)]) fun _ =>
        match insertSession s.sessions c.sessionId (c.row e r) with
        | none => (.error .integrity, s)
        | some sessions => (.ok (c.row e r), { s with sessions })

/-- `_session_scope_matches`, of a session of this gateway -/
def sessionScopeMatches (row : Session) (r : Registration) : Bool :=
  strip row.tenantId = strip r.tenantId && strip row.workspaceId = strip r.workspaceId &&
    strip row.userId = strip r.userId && orText (strip row.deviceId) (strip r.deviceId) = strip r.deviceId

/-- What is raised of a session that is not valid; the session is marked as disconnected before that, under the lock
    taken once more, when there is a reason for it. -/
structure Refusal where
  text : String
  marked : Option (String × String)
  deriving DecidableEq

/-- `validate_gateway_session`, with the checks in the order in which they are made -/
def validateGatewaySession (s : State) (gatewayId sessionToken : String) (now : Int) :
    Except Refusal (String × Session) :=
  let found := s.sessions.entries.find? fun entry =>
    entry.2.gatewayId = strip gatewayId && entry.2.sessionTokenHash = e.hashToken sessionToken
  match found with
  | none => .error ⟨"Gateway session is invalid.", none⟩
  | some (sessionId, row) =>
    match s.registrations.get? (strip gatewayId) with
    | none => .error ⟨"Gateway registration was not found.", none⟩
    | some r =>
      if strip r.status = "revoked" then .error ⟨"Gateway registration has been revoked.", none⟩
      else if strip r.deviceTrustState = "revoked" then .error ⟨"Gateway device trust was revoked.", none⟩
      else if row.status = .revoked then .error ⟨"Gateway session has been revoked.", none⟩
      else if row.expiresAt ≤ now then .error ⟨"Gateway session has expired.", some (sessionId, "expired")⟩
      else if ¬ sessionScopeMatches row r then
        .error ⟨"Gateway session scope does not match its registration.", some (sessionId, "scope_mismatch")⟩
      else .ok (sessionId, row)

/-- The row of a session whose socket is open. -/
def Session.connect (row : Session) (now : Int) : Session :=
  { row with
    status := .connected, connectedAt := row.connectedAt.or (some now), updatedAt := now, disconnectedAt := none }

def markGatewaySessionConnected (s : State) (sessionId : String) (now : Int) :
    Except Raised (Option Session) × State :=
  match s.sessions.get? (strip sessionId) with
  | none => (.ok none, s)
  | some row =>
    gated s (enforceGatewayStateDecision "mark_session_connected" (row.scope (strip sessionId)) "system"
        [("session_status", .string row.status.text)]) fun _ =>
      (.ok (some (row.connect now)), { s with sessions := s.sessions.put (strip sessionId) (row.connect now) })

/-- The row of a session whose socket is closed; a revoked session stays revoked. -/
def Session.disconnect (row : Session) (reason : Option String) (now : Int) : Session :=
  { row with
    status := if row.status = .revoked then .revoked else .disconnected
    disconnectedAt := some now
    updatedAt := now
    metadata := match reason.filter (· ≠ "") with
      | none => row.metadata
      | some text => row.metadata.put "disconnect_reason" (.string (strip text)) }

/-- `mark_gateway_session_disconnected` -/
def markGatewaySessionDisconnected (s : State) (sessionId : String) (reason : Option String) (now : Int) :
    Except Raised (Option Session) × State :=
  match s.sessions.get? (strip sessionId) with
  | none => (.ok none, s)
  | some row =>
    gated s (enforceGatewayStateDecision "mark_session_disconnected" (row.scope (strip sessionId)) "system"
        [("session_status", .string row.status.text), ("reason", .string (textOf reason))]) fun _ =>
      (.ok (some (row.disconnect reason now)),
        { s with sessions := s.sessions.put (strip sessionId) (row.disconnect reason now) })

/-- The arguments of `touch_gateway_session`. -/
structure TouchCall where
  sessionId : String
  gatewayId : String
  seq : Option Int
  ack : Option Int
  healthState : Option String
  journalCursor : Option Int
  checkpointCursor : Option Int
  metadata : Fields
  ttlSeconds : Option Int
  now : Int

/-- The metadata after a heartbeat, with the health that it reports. -/
def TouchCall.merged (c : TouchCall) (metadata : Fields) : Fields :=
  match c.healthState.filter (· ≠ "") with
  | none => metadata.merge c.metadata
  | some state => (metadata.merge c.metadata).put "health_state" (.string (strip state))

/-- What the kernel is told of the numbers of a heartbeat, each with the one before it. -/
def TouchCall.cursorFields (c : TouchCall) (row : Session) : List (String × Json) :=
  (match c.seq with
    | none => []
    | some seq => [("seq", jsonInt seq), ("previous_seq", jsonInt row.lastSeq)]) ++
  match c.ack with
    | none => []
    | some ack => [("ack", jsonInt ack), ("previous_ack", jsonInt row.lastAck)]

/-- The row after a heartbeat: its numbers never go back. -/
def TouchCall.touched (c : TouchCall) (row : Session) : Session :=
  { row with
    status := if row.status = .pending then .connected else row.status
    updatedAt := c.now
    lastHeartbeatAt := some c.now
    lastSeq := max (c.seq.getD 0) row.lastSeq
    lastAck := max (c.ack.getD 0) row.lastAck
    metadata := c.merged row.metadata
    expiresAt := (c.ttlSeconds.map fun ttl => expiresAt ttl c.now).getD row.expiresAt }

/-- `touch_gateway_session`, of the session and of the registration -/
def touchGatewaySession (s : State) (c : TouchCall) : Except Raised Unit × State :=
  match s.sessions.get? (strip c.sessionId) with
  | none => (.ok (), s)
  | some row =>
    gated s (enforceGatewayStateDecision "touch_session" (row.scope (strip c.sessionId)) "system"
        (("session_status", .string row.status.text) :: c.cursorFields row)) fun _ =>
      (.ok (), { s with
        sessions := s.sessions.put (strip c.sessionId) (c.touched row)
        registrations := (Sql.update s.registrations (strip c.gatewayId) fun r => some { r with
          updatedAt := c.now
          lastSeenAt := some c.now
          lastHeartbeatAt := some c.now
          metadata := c.merged r.metadata
          journalCursor := c.journalCursor.getD r.journalCursor
          checkpointCursor := c.checkpointCursor.getD r.checkpointCursor }).2 })

/-- The row of a session that a sweep found stale. -/
def Session.expire (row : Session) (sweptAt : String) : Session :=
  { row with status := .expired, metadata := row.metadata.put "swept_at" (.string sweptAt) }

/-- A session that `sweep_stale_gateway_sessions` lists, and finds stale. -/
def stale (cutoff gatewayId : String) (row : Session) : Bool :=
  row.gatewayId = gatewayId && (row.status = .connected || row.status = .disconnected) &&
    e.utcNowIso row.updatedAt < cutoff

/-- `sweep_stale_gateway_sessions` -/
def sweepStaleGatewaySessions (s : State) (gatewayId : String) (staleThresholdSeconds now : Int) :
    Except Raised Nat × State :=
  let gateway := strip gatewayId
  let cutoff := e.cutoff now staleThresholdSeconds
  let rows := s.sessions.entries.filter fun entry =>
    entry.2.gatewayId = gateway && (entry.2.status = .connected || entry.2.status = .disconnected)
  let staleCount := s.sessions.count (stale e cutoff gateway)
  let scope : Scope := match rows.head? with
    | none => ⟨"", "", "", "", gateway, ""⟩
    | some (_, row) => ⟨row.tenantId, row.workspaceId, row.userId, row.deviceId, gateway, ""⟩
  if gateway = "" then (.ok 0, s)
  else gated s (enforceGatewayStateDecision "sweep_stale_sessions" scope "system"
      [("stale_count", jsonInt staleCount), ("candidate_count", jsonInt rows.length)]) fun answer =>
      if strip answer.nextAction = "noop" then (.ok 0, s)
      else
        (.ok staleCount, { s with
          sessions := Sql.updateAll s.sessions fun _ row =>
            if stale e cutoff gateway row then some (row.expire (e.utcNowIso now)) else none })

/-- `prune_gateway_state`, of the sessions -/
def pruneGatewayState (s : State) (sessionRetentionDays now : Int) : State :=
  let cutoff := e.cutoff now (max 1 sessionRetentionDays * 86400)
  { s with
    sessions := s.sessions.filter fun _ row => !(row.status.prunable && e.utcNowIso row.updatedAt < cutoff) }

/-! ### Runs -/

/-- One operation on the store. -/
inductive Label where
  | createPairing (c : PairingCall)
  | register (c : RegisterCall)
  | sync (c : SyncCall)
  | rotate (c : RotateCall)
  | update (c : UpdateCall)
  | rename (gatewayId displayName tenantId workspaceId : String) (now : Int)
  | shareOptIn (gatewayId : String) (optedIn : Bool) (tenantId workspaceId userId : String) (now : Int)
  | revoke (c : RevokeCall)
  | issue (c : IssueCall)
  | connected (sessionId : String) (now : Int)
  | disconnected (sessionId : String) (reason : Option String) (now : Int)
  | touch (c : TouchCall)
  | sweep (gatewayId : String) (staleThresholdSeconds now : Int)
  | prune (sessionRetentionDays now : Int)

/-- The store after an operation, whether it raises or not. -/
def next (s : State) : Label → State
  | .createPairing c => (createPairingIntent e s c).2
  | .register c => (registerGatewayFromPairing e s c).2
  | .sync c => (syncGatewayRegistrationIdentity s c).2
  | .rotate c => (rotateGatewayToken e s c).2
  | .update c => (updateGatewayRegistrationState s c).2
  | .rename gatewayId displayName tenantId workspaceId now =>
    (renameGatewayRegistration s gatewayId displayName tenantId workspaceId now).2
  | .shareOptIn gatewayId optedIn tenantId workspaceId userId now =>
    (setGatewayProjectSharingOptIn e s gatewayId optedIn tenantId workspaceId userId now).2
  | .revoke c => (revokeGatewayRegistration s c).2
  | .issue c => (issueGatewaySession e s c).2
  | .connected sessionId now => (markGatewaySessionConnected s sessionId now).2
  | .disconnected sessionId reason now => (markGatewaySessionDisconnected s sessionId reason now).2
  | .touch c => (touchGatewaySession s c).2
  | .sweep gatewayId staleThresholdSeconds now => (sweepStaleGatewaySessions e s gatewayId staleThresholdSeconds now).2
  | .prune sessionRetentionDays now => pruneGatewayState e s sessionRetentionDays now

/-- Every operation can be called in every state. -/
def step (s : State) (a : Label) : Option State := some (next e s a)

end Empyralis.Server.GatewayTrust
