import Empyralis.Lib.Keeps
import Empyralis.Lib.Run
import Empyralis.Lib.Sql
import Empyralis.Lib.Text

/-! The grants of the OAuth server in front of the MCP endpoint: consents, authorization codes and the token pairs
    that descend from them, with any number of calls at once. A call is interleaved with the others between its
    statements, and may stop at any of them for good. -/

namespace Empyralis.Server.OAuth
open Text (strip)

/-! ### Rows -/

/-- The two tables of tokens, which have the same columns. -/
inductive Kind where
  | access
  | refresh
  deriving DecidableEq

/-- The other token of a pair. -/
def Kind.other : Kind → Kind
  | .access => .refresh
  | .refresh => .access

/-- For whom a code or a token was made. -/
structure Subject where
  clientId : String
  workspaceId : String
  tenantId : String
  userId : String
  deriving DecidableEq

/-- A row of `mcp_oauth_authorization_codes`; its expiry is in microseconds. -/
structure CodeRow where
  subject : Subject
  codeChallenge : String
  redirectUri : String
  redirectUriExplicit : Bool
  scopes : List String
  resource : Option String
  expiresAt : Int
  createdAt : Int
  consumedAt : Option Int
  deriving DecidableEq

/-- A row of `mcp_oauth_access_tokens` or `mcp_oauth_refresh_tokens`; `pairHash` is the `refresh_token_hash` of the
    first and the `access_token_hash` of the second. `grant` is no column: it is the hash of the code from which the
    token descends. -/
structure TokenRow where
  subject : Subject
  scopes : List String
  resource : Option String
  expiresAt : Option Int
  createdAt : Int
  revokedAt : Option Int
  pairHash : Option String
  grant : String
  deriving DecidableEq

/-- `row.get("resource") or default` -/
def resourceOr (resource : Option String) (default : String) : String :=
  match resource with
  | none => default
  | some text => if text = "" then default else text

/-! ### Calls -/

/-- A code as the caller sees it. -/
structure AuthorizationCode where
  code : String
  scopes : List String
  expiresAt : Int
  codeChallenge : String
  redirectUri : String
  redirectUriProvidedExplicitly : Bool
  resource : Option String
  subject : Subject
  deriving DecidableEq

/-- A refresh token as the caller sees it. -/
structure RefreshToken where
  token : String
  scopes : List String
  expiresAt : Option Int
  subject : Subject
  deriving DecidableEq

/-- An access token as the caller sees it. -/
structure AccessToken where
  token : String
  scopes : List String
  expiresAt : Option Int
  resource : Option String
  subject : Subject
  deriving DecidableEq

/-- What a call has taken out of its table. -/
inductive Credential where
  | code (hash : String)
  | refresh (hash : String)
  deriving DecidableEq

/-- The locals of `_mint_token_pair`, with the credential for which the pair is made and the code it descends from. -/
structure Mint where
  subject : Subject
  scopes : List String
  resource : String
  accessToken : String
  refreshToken : String
  now : Int
  redeemed : Credential
  grant : String
  deriving DecidableEq

def Mint.token (m : Mint) : Kind → String
  | .access => m.accessToken
  | .refresh => m.refreshToken

/-- Where a call is: it has loaded its credential for a client, is before one of its statements, or has ended. -/
inductive Stage where
  | code (clientId : String) (loaded : AuthorizationCode)
  | refresh (clientId : String) (loaded : RefreshToken)
  | storing (kind : Kind) (m : Mint)
  | issued (m : Mint)
  | revoking (kind : Kind) (hash : String)
  | returned
  | tokenError (error description : String)
  | integrityError (m : Mint)
  deriving DecidableEq

/-- The clients and rows, and the calls on their way. -/
structure State where
  clients : List String
  codes : Table String CodeRow
  tokens : Kind → Table String TokenRow
  calls : List Stage

def start : State := ⟨[], .empty, fun _ => .empty, []⟩

/-! ### Consents -/

/-- The consent ticket that `authorize` has signed. -/
structure Payload where
  clientId : String
  redirectUri : String
  redirectUriExplicit : Bool
  codeChallenge : String
  scopes : List String
  resource : Option String
  deriving DecidableEq

/-- The user of the dashboard session, with the workspaces of `_accessible_workspace_ids`. -/
structure User where
  userId : String
  workspaces : List String

/-- What `decide_consent` reads: the form, the cookies, the session, and the tenant of the workspace. -/
structure ConsentRequest where
  ticket : String
  cookieCsrf : String
  formCsrf : String
  currentUser : Option User
  decision : String
  workspaceId : String
  tenantId : String

/-- The settings of the module, and what it takes from elsewhere: SHA-256, the signature of a ticket, `str.lower`, and
    which scopes the SDK lets a refresh ask for. Times to live are in seconds. -/
structure Config where
  hashToken : String → String
  hashToken_ne : ∀ raw, hashToken raw ≠ ""
  resourceServerUrl : String
  accessTokenTtl : Int
  refreshTokenTtl : Int
  authorizationCodeTtl : Int
  verifyConsentTicket : Int → String → Except String Payload
  lower : String → String
  admitsScopes : List String → List String → Bool

/-- What the consent page answers. -/
inductive ConsentResponse where
  | message (status : Nat) (title text : String)
  | login
  | denied
  | granted (code : String)
  deriving DecidableEq

variable (c : Config)

/-- `int(time.time())` -/
def seconds (now : Int) : Int := now / 1000000

/-- `EmpyralisOAuthProvider.get_client`, of which the callers use the id. -/
def getClient (s : State) (clientId : String) : Option String :=
  if strip clientId = "" then none else s.clients.find? (· = strip clientId)

/-- The row of `_store_authorization_code` in `decide_consent`. -/
def consentRow (payload : Payload) (clientId workspaceId tenantId userId : String) (now : Int) : CodeRow where
  subject := ⟨clientId, workspaceId, tenantId, userId⟩
  codeChallenge := payload.codeChallenge
  redirectUri := payload.redirectUri
  redirectUriExplicit := payload.redirectUriExplicit
  scopes := payload.scopes
  resource := payload.resource
  expiresAt := now + c.authorizationCodeTtl * 1000000
  createdAt := seconds now
  consumedAt := none

/-- `_store_authorization_code`: `ON CONFLICT (code_hash) DO NOTHING` -/
def storeAuthorizationCode (s : State) (code : String) (row : CodeRow) : State :=
  { s with codes := (Sql.upsert s.codes (c.hashToken code) row fun _ => none).2 }

/-- `decide_consent`. A client stays registered, so nothing that is read here has changed when the row is written. -/
def decideConsent (s : State) (request : ConsentRequest) (code : String) (now : Int) : ConsentResponse × State :=
  match c.verifyConsentTicket now request.ticket with
  | .error text => (.message 400 "Connection request expired" text, s)
  | .ok payload =>
    if request.cookieCsrf = "" ∨ request.formCsrf = "" ∨ request.cookieCsrf ≠ request.formCsrf then
      (.message 400 "Session expired"
        "Your consent session expired or this form was not submitted from the page you were shown.", s)
    else match request.currentUser with
    | none => (.login, s)
    | some user =>
      if c.lower (strip request.decision) ≠ "allow" then (.denied, s)
      else if strip request.workspaceId ∉ user.workspaces then
        (.message 403 "Workspace not accessible" "That workspace is not accessible for this account.", s)
      else match getClient s payload.clientId with
      | none =>
        (.message 400 "Unknown application" "This application is no longer registered with Empyralis.", s)
      | some clientId =>
        (.granted code, storeAuthorizationCode c s code
          (consentRow c payload clientId (strip request.workspaceId) request.tenantId user.userId now))

/-! ### Codes -/

/-- The `WHERE` of the statements on one code. -/
def CodeRow.redeemable (clientId : String) (now : Int) (row : CodeRow) : Bool :=
  row.subject.clientId = clientId && row.consumedAt.isNone && now < row.expiresAt

/-- `_load_authorization_code_row` -/
def loadAuthorizationCodeRow (s : State) (clientId code : String) (now : Int) : Option CodeRow :=
  (s.codes.get? (c.hashToken code)).filter (·.redeemable clientId now)

/-- `_consume_authorization_code_row` -/
def consumeAuthorizationCodeRow (s : State) (clientId code : String) (now : Int) :
    Option CodeRow × Table String CodeRow :=
  Sql.update s.codes (c.hashToken code) fun row =>
    if row.redeemable clientId now then some { row with consumedAt := some (seconds now) } else none

/-- `_authorization_code_from_row` -/
def authorizationCodeFromRow (code : String) (row : CodeRow) : AuthorizationCode :=
  ⟨code, row.scopes, row.expiresAt, row.codeChallenge, row.redirectUri, row.redirectUriExplicit, row.resource,
    row.subject⟩

/-! ### Tokens -/

/-- `revoked_at IS NULL AND (expires_at IS NULL OR expires_at > now)` -/
def TokenRow.live (now : Int) (row : TokenRow) : Bool := row.revokedAt.isNone && row.expiresAt.all (seconds now < ·)

/-- `_load_access_token_row` -/
def loadAccessTokenRow (s : State) (token : String) (now : Int) : Option TokenRow :=
  ((s.tokens .access).get? (c.hashToken token)).filter (·.live now)

/-- `_load_refresh_token_row` -/
def loadRefreshTokenRow (s : State) (clientId token : String) (now : Int) : Option TokenRow :=
  ((s.tokens .refresh).get? (c.hashToken token)).filter fun row => row.subject.clientId = clientId && row.live now

/-- `_consume_refresh_token_row` -/
def consumeRefreshTokenRow (s : State) (clientId token : String) (now : Int) :
    Option TokenRow × Table String TokenRow :=
  Sql.update (s.tokens .refresh) (c.hashToken token) fun row =>
    if row.subject.clientId = clientId && row.live now then some { row with revokedAt := some (seconds now) } else none

/-- `_refresh_token_from_row` -/
def refreshTokenFromRow (token : String) (row : TokenRow) : RefreshToken :=
  ⟨token, row.scopes, row.expiresAt, row.subject⟩

/-- A `/` at the end goes, as `rstrip("/")` does it. -/
def stripSlashes (text : String) : String := String.ofList (text.toList.rdropWhile (· = '/'))

/-- `_resource_matches` -/
def resourceMatches (requested expected : String) : Bool :=
  let a := stripSlashes (strip requested)
  let b := stripSlashes (strip expected)
  a ≠ "" && b ≠ "" && a = b

def legacyClientId : String := "legacy-api-key"

/-- `EmpyralisOAuthProvider.load_access_token`; `legacy` answers for `resolve_workspace_from_api_key` with the
    workspace of a key and whether it may write. -/
def loadAccessToken (legacy : String → Option (String × Bool)) (s : State) (token : String) (now : Int) :
    Option AccessToken :=
  let raw := strip token
  if raw = "" then none
  else match loadAccessTokenRow c s raw now with
  | some row =>
    if row.resource.any fun resource => resource ≠ "" && !resourceMatches resource c.resourceServerUrl then none
    else some ⟨raw, row.scopes, row.expiresAt, row.resource, row.subject⟩
  | none => (legacy raw).map fun (workspaceId, writesEnabled) =>
      ⟨raw, if writesEnabled then ["empyralis:read", "empyralis:write"] else ["empyralis:read"], none,
        some c.resourceServerUrl, ⟨legacyClientId, workspaceId, "", ""⟩⟩

/-- The row that `_mint_token_pair` makes for one of its two tokens. -/
def Mint.row (m : Mint) (now : Int) (kind : Kind) : TokenRow where
  subject := m.subject
  scopes := m.scopes
  resource := some m.resource
  expiresAt := some (m.now + match kind with | .access => c.accessTokenTtl | .refresh => c.refreshTokenTtl)
  createdAt := seconds now
  revokedAt := none
  pairHash := some (c.hashToken (m.token kind.other))
  grant := m.grant

def State.setTokens (s : State) (kind : Kind) (table : Table String TokenRow) : State :=
  { s with tokens := Function.update s.tokens kind table }

/-- A call goes on to a stage. -/
def State.setCall (s : State) (i : Nat) (stage : Stage) : State := { s with calls := s.calls.set i stage }

def State.addCall (s : State) (stage : Stage) : State := { s with calls := s.calls ++ [stage] }

/-- `_store_access_token` and `_store_refresh_token`, one after the other. -/
def store (s : State) (i : Nat) (kind : Kind) (m : Mint) (now : Int) : State :=
  match Sql.insert (s.tokens kind) (c.hashToken (m.token kind)) (m.row c now kind) with
  | none => s.setCall i (.integrityError m)
  | some table =>
    (s.setTokens kind table).setCall i (match kind with | .access => .storing .refresh m | .refresh => .issued m)

/-- `UPDATE ... SET revoked_at = now WHERE token_hash = hash AND revoked_at IS NULL` -/
def revokeRow (s : State) (kind : Kind) (hash : String) (now : Int) : Option TokenRow × Table String TokenRow :=
  Sql.update (s.tokens kind) hash fun row =>
    if row.revokedAt.isNone then some { row with revokedAt := some (seconds now) } else none

/-! ### The provider -/

/-- `exchange_authorization_code` up to the first statement of `_mint_token_pair`, with the two new tokens. -/
def exchangeAuthorizationCode (s : State) (i : Nat) (clientId : String) (loaded : AuthorizationCode)
    (accessToken refreshToken : String) (now : Int) : State :=
  match consumeAuthorizationCodeRow c s clientId loaded.code now with
  | (none, _) => s.setCall i (.tokenError "invalid_grant" "Authorization code already used or expired.")
  | (some row, codes) => { s with codes }.setCall i (.storing .access
      { subject := { row.subject with clientId }
        scopes := loaded.scopes
        resource := resourceOr row.resource c.resourceServerUrl
        accessToken, refreshToken, now := seconds now
        redeemed := .code (c.hashToken loaded.code)
        grant := c.hashToken loaded.code })

/-- `exchange_refresh_token`, likewise. -/
def exchangeRefreshToken (s : State) (i : Nat) (clientId : String) (loaded : RefreshToken) (scopes : List String)
    (accessToken refreshToken : String) (now : Int) : State :=
  match consumeRefreshTokenRow c s clientId loaded.token now with
  | (none, _) => s.setCall i (.tokenError "invalid_grant" "Refresh token already used, revoked, or expired.")
  | (some row, table) => (s.setTokens .refresh table).setCall i (.storing .access
      { subject := { row.subject with clientId }
        scopes := if scopes = [] then loaded.scopes else scopes
        resource := resourceOr row.resource c.resourceServerUrl
        accessToken, refreshToken, now := seconds now
        redeemed := .refresh (c.hashToken loaded.token)
        grant := row.grant })

/-- `revoke_token` up to its first statement, and what is left of it. -/
def revokeToken (s : State) (kind : Kind) (clientId token : String) (now : Int) : State :=
  if kind = .access ∧ clientId = legacyClientId then s.addCall .returned
  else match revokeRow s kind (c.hashToken token) now with
  | (none, _) => s.addCall .returned
  | (some row, table) => (s.setTokens kind table).addCall (match row.pairHash.filter (· ≠ "") with
      | none => .returned
      | some hash => .revoking kind.other hash)

/-- A credential without a row that it may be loaded from goes no further in the SDK. -/
inductive Label where
  | registerClient (clientId : String)
  | decideConsent (request : ConsentRequest) (code : String) (now : Int)
  | loadAuthorizationCode (clientId code : String) (now : Int)
  | loadRefreshToken (clientId token : String) (now : Int)
  | exchange (i : Nat) (scopes : List String) (accessToken refreshToken : String) (now : Int)
  | statement (i : Nat) (now : Int)
  | revokeToken (kind : Kind) (clientId token : String) (now : Int)

/-- The SDK calls the exchange of the credential that it has loaded. -/
def exchange (s : State) (i : Nat) (scopes : List String) (accessToken refreshToken : String) (now : Int) :
    Stage → Option State
  | .code clientId loaded => some (exchangeAuthorizationCode c s i clientId loaded accessToken refreshToken now)
  | .refresh clientId loaded =>
    if c.admitsScopes loaded.scopes scopes then
      some (exchangeRefreshToken c s i clientId loaded scopes accessToken refreshToken now)
    else none
  | _ => none

/-- The next statement of a call. -/
def statement (s : State) (i : Nat) (now : Int) : Stage → Option State
  | .storing kind m => some (store c s i kind m now)
  | .revoking kind hash => some ((s.setTokens kind (revokeRow s kind hash now).2).setCall i .returned)
  | _ => none

def step (s : State) : Label → Option State
  | .registerClient clientId => if clientId = "" then none else some { s with clients := s.clients ++ [clientId] }
  | .decideConsent request code now => some (decideConsent c s request code now).2
  | .loadAuthorizationCode clientId code now => (loadAuthorizationCodeRow c s clientId code now).map fun row =>
      s.addCall (.code clientId (authorizationCodeFromRow code row))
  | .loadRefreshToken clientId token now => (loadRefreshTokenRow c s clientId token now).map fun row =>
      s.addCall (.refresh clientId (refreshTokenFromRow token row))
  | .exchange i scopes accessToken refreshToken now =>
    s.calls[i]?.bind (exchange c s i scopes accessToken refreshToken now)
  | .statement i now => s.calls[i]?.bind (statement c s i now)
  | .revokeToken kind clientId token now => some (revokeToken c s kind clientId token now)

end Empyralis.Server.OAuth
