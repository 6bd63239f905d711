import Empyralis.Server.OAuthGrants

/-! What one step of the OAuth server can do: everything that is proved of its runs is proved of these cases. No row of
    its tables goes, and of no row changes more than that it is consumed or revoked, once. -/

namespace Empyralis.Server.OAuth
open Run
open Text (strip)

variable (c : Config)

/-! ### What one step does -/

/-- A person with access to the workspace has allowed what the ticket asks for. -/
structure Allows (request : ConsentRequest) (now : Int) (payload : Payload) (user : User) : Prop where
  ticket : c.verifyConsentTicket now request.ticket = .ok payload
  csrf : request.cookieCsrf = request.formCsrf ∧ request.formCsrf ≠ ""
  session : request.currentUser = some user
  allow : c.lower (strip request.decision) = "allow"
  member : strip request.workspaceId ∈ user.workspaces

/-- The row that such a consent leaves. -/
def ConsentRequest.row (request : ConsentRequest) (now : Int) (payload : Payload) (user : User) (clientId : String) :
    CodeRow := consentRow c payload clientId (strip request.workspaceId) request.tenantId user.userId now

/-- Everything that a step may do under a label. -/
inductive Effect (s : State) (a : Label) : State → Prop
  | same : Effect s a s
  | registered (clientId : String) : Effect s a { s with clients := s.clients ++ [clientId] }
  | consented {request : ConsentRequest} {code : String} {now : Int} {payload : Payload} {user : User}
      {clientId : String} (hlabel : a = .decideConsent request code now)
      (hallows : Allows c request now payload user) (hclient : clientId = strip payload.clientId)
      (hnew : s.codes.get? (c.hashToken code) = none) :
      Effect s a { s with codes := s.codes.put (c.hashToken code) (request.row c now payload user clientId) }
  | loadedCode {clientId code : String} {row : CodeRow} (hrow : s.codes.get? (c.hashToken code) = some row) :
      Effect s a (s.addCall (.code clientId (authorizationCodeFromRow code row)))
  | loadedRefresh {clientId token : String} {row : TokenRow}
      (hrow : (s.tokens .refresh).get? (c.hashToken token) = some row) :
      Effect s a (s.addCall (.refresh clientId (refreshTokenFromRow token row)))
  | refused {i : Nat} {stage : Stage} {error description : String} (hcall : s.calls[i]? = some stage)
      (hloaded : (∃ clientId loaded, stage = .code clientId loaded) ∨ ∃ clientId loaded,
        stage = .refresh clientId loaded) :
      Effect s a (s.setCall i (.tokenError error description))
  | redeemedCode {i : Nat} {clientId : String} {loaded : AuthorizationCode} {row : CodeRow} {m : Mint} {now : Int}
      (hcall : s.calls[i]? = some (.code clientId loaded))
      (hrow : s.codes.get? (c.hashToken loaded.code) = some row) (hlive : row.consumedAt = none)
      (hsubject : m.subject = row.subject) (hscopes : m.scopes = loaded.scopes)
      (hredeemed : m.redeemed = .code (c.hashToken loaded.code)) (hgrant : m.grant = c.hashToken loaded.code) :
      Effect s a (State.setCall
        { s with codes := s.codes.put (c.hashToken loaded.code) { row with consumedAt := some now } } i
        (.storing .access m))
  | redeemedRefresh {i : Nat} {clientId : String} {loaded : RefreshToken} {row : TokenRow} {m : Mint} {now : Int}
      {scopes : List String} (hcall : s.calls[i]? = some (.refresh clientId loaded))
      (hrow : (s.tokens .refresh).get? (c.hashToken loaded.token) = some row) (hlive : row.revokedAt = none)
      (hadmits : c.admitsScopes loaded.scopes scopes = true)
      (hsubject : m.subject = row.subject) (hscopes : m.scopes = if scopes = [] then loaded.scopes else scopes)
      (hredeemed : m.redeemed = .refresh (c.hashToken loaded.token)) (hgrant : m.grant = row.grant) :
      Effect s a ((s.setTokens .refresh ((s.tokens .refresh).put (c.hashToken loaded.token)
        { row with revokedAt := some now })).setCall i (.storing .access m))
  | collided {i : Nat} {kind : Kind} {m : Mint} (hcall : s.calls[i]? = some (.storing kind m)) :
      Effect s a (s.setCall i (.integrityError m))
  | storedAccess {i : Nat} {m : Mint} {now : Int} (hcall : s.calls[i]? = some (.storing .access m))
      (hnew : (s.tokens .access).get? (c.hashToken m.accessToken) = none) :
      Effect s a ((s.setTokens .access ((s.tokens .access).put (c.hashToken m.accessToken)
        (m.row c now .access))).setCall i (.storing .refresh m))
  | storedRefresh {i : Nat} {m : Mint} {now : Int} (hcall : s.calls[i]? = some (.storing .refresh m))
      (hnew : (s.tokens .refresh).get? (c.hashToken m.refreshToken) = none) :
      Effect s a ((s.setTokens .refresh ((s.tokens .refresh).put (c.hashToken m.refreshToken)
        (m.row c now .refresh))).setCall i (.issued m))
  | missed : Effect s a (s.addCall .returned)
  | revoked {kind : Kind} {hash : String} {row : TokenRow} {now : Int} {stage : Stage}
      (hrow : (s.tokens kind).get? hash = some row) (hlive : row.revokedAt = none)
      (hstage : stage = .returned ∨ ∃ other hash, stage = .revoking other hash) :
      Effect s a ((s.setTokens kind ((s.tokens kind).put hash { row with revokedAt := some now })).addCall stage)
  | revokedPair {i : Nat} {kind : Kind} {hash : String} {now : Int} (hcall : s.calls[i]? = some (.revoking kind hash)) :
      Effect s a ((s.setTokens kind (revokeRow s kind hash now).2).setCall i .returned)

variable {c} {s t : State} {a : Label}

theorem getClient_some {clientId found : String} (h : getClient s clientId = some found) : found = strip clientId := by
  unfold getClient at h
  split at h
  · cases h
  · simpa using List.find?_some h

theorem decideConsent_effect (request : ConsentRequest) (code : String) (now : Int) :
    Effect c s (.decideConsent request code now) (decideConsent c s request code now).2 := by
  unfold decideConsent
  split
  · exact .same
  · rename_i payload hticket
    split
    · exact .same
    · rename_i hcsrf
      simp only [not_or, not_not] at hcsrf
      split
      · exact .same
      · rename_i user hsession
        split
        · exact .same
        · rename_i hallow
          split
          · exact .same
          · rename_i hmember
            split
            · exact .same
            · rename_i clientId hclient
              simp only [storeAuthorizationCode]
              cases hrow : s.codes.get? (c.hashToken code) with
              | some old =>
                rw [Sql.upsert_none hrow rfl]
                exact .same
              | none =>
                rw [Sql.upsert_new hrow]
                exact .consented rfl ⟨hticket, ⟨hcsrf.2.2, hcsrf.2.1⟩, hsession, not_not.mp hallow, not_not.mp hmember⟩
                  (getClient_some hclient) hrow

theorem exchangeAuthorizationCode_effect {i : Nat} {clientId : String} {loaded : AuthorizationCode}
    (hcall : s.calls[i]? = some (.code clientId loaded)) (accessToken refreshToken : String) (now : Int) :
    Effect c s a (exchangeAuthorizationCode c s i clientId loaded accessToken refreshToken now) := by
  unfold exchangeAuthorizationCode
  split
  · exact .refused hcall (.inl ⟨clientId, loaded, rfl⟩)
  · rename_i new codes hconsume
    simp only [consumeAuthorizationCodeRow, Sql.update] at hconsume
    split at hconsume
    · rename_i found hfound
      obtain ⟨rfl, rfl⟩ := hconsume
      obtain ⟨row, hrow, hchange⟩ := Option.bind_eq_some_iff.mp hfound
      split at hchange
      · rename_i hredeemable
        cases hchange
        simp only [CodeRow.redeemable, Bool.and_eq_true, decide_eq_true_eq, Option.isNone_iff_eq_none] at hredeemable
        obtain ⟨⟨rfl, hlive⟩, -⟩ := hredeemable
        exact .redeemedCode hcall hrow hlive rfl rfl rfl rfl
      · cases hchange
    · cases hconsume

theorem exchangeRefreshToken_effect {i : Nat} {clientId : String} {loaded : RefreshToken} {scopes : List String}
    (hcall : s.calls[i]? = some (.refresh clientId loaded)) (hadmits : c.admitsScopes loaded.scopes scopes = true)
    (accessToken refreshToken : String) (now : Int) :
    Effect c s a (exchangeRefreshToken c s i clientId loaded scopes accessToken refreshToken now) := by
  unfold exchangeRefreshToken
  split
  · exact .refused hcall (.inr ⟨clientId, loaded, rfl⟩)
  · rename_i new table hconsume
    simp only [consumeRefreshTokenRow, Sql.update] at hconsume
    split at hconsume
    · rename_i found hfound
      obtain ⟨rfl, rfl⟩ := hconsume
      obtain ⟨row, hrow, hchange⟩ := Option.bind_eq_some_iff.mp hfound
      split at hchange
      · rename_i hlive
        cases hchange
        simp only [TokenRow.live, Bool.and_eq_true, decide_eq_true_eq, Option.isNone_iff_eq_none] at hlive
        obtain ⟨rfl, hlive, -⟩ := hlive
        exact .redeemedRefresh hcall hrow hlive hadmits rfl rfl rfl rfl
      · cases hchange
    · cases hconsume

theorem store_effect {i : Nat} {kind : Kind} {m : Mint} (hcall : s.calls[i]? = some (.storing kind m)) (now : Int) :
    Effect c s a (store c s i kind m now) := by
  unfold store
  split
  · exact .collided hcall
  · rename_i table hinsert
    obtain ⟨hnew, rfl⟩ := Sql.insert_eq_some.mp hinsert
    cases kind with
    | access => exact .storedAccess hcall hnew
    | refresh => exact .storedRefresh hcall hnew

/-- A row is revoked that was not. -/
theorem revokeRow_some {kind : Kind} {hash : String} {now : Int} {row : TokenRow} {table : Table String TokenRow}
    (h : revokeRow s kind hash now = (some row, table)) :
    ∃ old, (s.tokens kind).get? hash = some old ∧ old.revokedAt = none ∧
      row = { old with revokedAt := some (seconds now) } ∧
      table = (s.tokens kind).put hash row := by
  simp only [revokeRow, Sql.update] at h
  split at h
  · rename_i found hfound
    obtain ⟨rfl, rfl⟩ := h
    obtain ⟨old, hold, hchange⟩ := Option.bind_eq_some_iff.mp hfound
    split at hchange
    · rename_i hnone
      cases hchange
      exact ⟨old, hold, Option.isNone_iff_eq_none.mp hnone, rfl, rfl⟩
    · cases hchange
  · cases h

theorem revokeToken_effect (kind : Kind) (clientId token : String) (now : Int) :
    Effect c s a (revokeToken c s kind clientId token now) := by
  unfold revokeToken
  split
  · exact .missed
  · split
    · exact .missed
    · rename_i row table hrevoke
      obtain ⟨old, hold, hlive, rfl, rfl⟩ := revokeRow_some hrevoke
      refine .revoked hold hlive ?_
      split
      · exact .inl rfl
      · exact .inr ⟨_, _, rfl⟩

/-- Everything that a step can do. -/
theorem step_effect (hstep : step c s a = some t) : Effect c s a t := by
  cases a with
  | registerClient clientId =>
    simp only [step] at hstep
    split at hstep
    · cases hstep
    · cases hstep
      exact .registered clientId
  | decideConsent request code now =>
    cases hstep
    exact decideConsent_effect request code now
  | loadAuthorizationCode clientId code now =>
    obtain ⟨row, hload, rfl⟩ := Option.map_eq_some_iff.mp hstep
    exact .loadedCode (Option.filter_eq_some_iff.mp hload).1
  | loadRefreshToken clientId token now =>
    obtain ⟨row, hload, rfl⟩ := Option.map_eq_some_iff.mp hstep
    exact .loadedRefresh (Option.filter_eq_some_iff.mp hload).1
  | exchange i scopes accessToken refreshToken now =>
    obtain ⟨stage, hcall, hexchange⟩ := Option.bind_eq_some_iff.mp hstep
    cases stage with
    | code clientId loaded =>
      cases hexchange
      exact exchangeAuthorizationCode_effect hcall accessToken refreshToken now
    | refresh clientId loaded =>
      simp only [exchange] at hexchange
      split at hexchange
      · rename_i hadmits
        cases hexchange
        exact exchangeRefreshToken_effect hcall hadmits accessToken refreshToken now
      · cases hexchange
    | _ => cases hexchange
  | statement i now =>
    obtain ⟨stage, hcall, hstatement⟩ := Option.bind_eq_some_iff.mp hstep
    cases stage with
    | storing kind m =>
      cases hstatement
      exact store_effect hcall now
    | revoking kind hash =>
      cases hstatement
      exact .revokedPair hcall
    | _ => cases hstatement
  | revokeToken kind clientId token now =>
    cases hstep
    exact revokeToken_effect kind clientId token now

/-! ### Rows stay -/

def consumedAt : Mark CodeRow Int := ⟨CodeRow.consumedAt, fun x row => { row with consumedAt := some x },
    fun _ _ => rfl⟩

def revokedAt : Mark TokenRow Int := ⟨TokenRow.revokedAt, fun x row => { row with revokedAt := some x }, fun _ _ => rfl⟩

/-- No row goes, and of no row changes more than that it is consumed or revoked, once. -/
structure State.Keeps (s t : State) : Prop where
  codes : Table.Keeps consumedAt.Once s.codes t.codes
  tokens : ∀ kind, Table.Keeps revokedAt.Once (s.tokens kind) (t.tokens kind)

theorem keeps_refl (s : State) : s.Keeps s := ⟨.refl (.refl _) _, fun _ => .refl (.refl _) _⟩

theorem keeps_setCall (h : s.Keeps t) (i : Nat) (stage : Stage) : s.Keeps (t.setCall i stage) := ⟨h.codes, h.tokens⟩

theorem keeps_addCall (h : s.Keeps t) (stage : Stage) : s.Keeps (t.addCall stage) := ⟨h.codes, h.tokens⟩

theorem keeps_put_code {hash : String} {row : CodeRow}
    (h : ∀ old, s.codes.get? hash = some old → consumedAt.Once old row) :
    s.Keeps { s with codes := s.codes.put hash row } := ⟨.put (.refl _) h, (keeps_refl s).tokens⟩

theorem keeps_setTokens {kind : Kind} {table : Table String TokenRow}
    (h : Table.Keeps revokedAt.Once (s.tokens kind) table) :
    s.Keeps (s.setTokens kind table) := by
  refine ⟨(keeps_refl s).codes, fun k => ?_⟩
  by_cases hk : k = kind
  · subst hk
    simpa only [State.setTokens, Function.update_self] using h
  · simpa only [State.setTokens, Function.update_of_ne hk] using (keeps_refl s).tokens k

theorem keeps_put_token {kind : Kind} {hash : String} {row : TokenRow}
    (h : ∀ old, (s.tokens kind).get? hash = some old → revokedAt.Once old row) :
    s.Keeps (s.setTokens kind ((s.tokens kind).put hash row)) := keeps_setTokens (.put (.refl _) h)

theorem revokeRow_keeps (s : State) (kind : Kind) (hash : String) (now : Int) :
    Table.Keeps revokedAt.Once (s.tokens kind) (revokeRow s kind hash now).2 := by
  cases hrevoke : revokeRow s kind hash now with
  | mk found table =>
    cases found with
    | none =>
      simp only [revokeRow, Sql.update] at hrevoke
      split at hrevoke
      · cases hrevoke
      · cases hrevoke
        exact .refl (.refl _) _
    | some row =>
      obtain ⟨old, hold, hlive, rfl, rfl⟩ := revokeRow_some hrevoke
      refine .put (.refl _) fun other hother => ?_
      obtain rfl : old = other := Option.some.inj (hold.symm.trans hother)
      exact .set (m := revokedAt) hlive _

/-- No row goes, and none is unspent again. -/
theorem effect_keeps (h : Effect c s a t) : s.Keeps t := by
  cases h with
  | same => exact keeps_refl s
  | registered => exact ⟨(keeps_refl s).codes, (keeps_refl s).tokens⟩
  | consented hlabel hallows hclient hnew =>
    refine keeps_put_code fun old hold => ?_
    rw [hnew] at hold
    cases hold
  | loadedCode => exact keeps_addCall (keeps_refl s) _
  | loadedRefresh => exact keeps_addCall (keeps_refl s) _
  | refused => exact keeps_setCall (keeps_refl s) _ _
  | redeemedCode hcall hrow hlive =>
    refine keeps_setCall (keeps_put_code fun old hold => ?_) _ _
    obtain rfl := Option.some.inj (hrow.symm.trans hold)
    exact .set (m := consumedAt) hlive _
  | redeemedRefresh hcall hrow hlive =>
    refine keeps_setCall (keeps_put_token fun old hold => ?_) _ _
    obtain rfl := Option.some.inj (hrow.symm.trans hold)
    exact .set (m := revokedAt) hlive _
  | collided => exact keeps_setCall (keeps_refl s) _ _
  | storedAccess hcall hnew =>
    refine keeps_setCall (keeps_put_token fun old hold => ?_) _ _
    rw [hnew] at hold
    cases hold
  | storedRefresh hcall hnew =>
    refine keeps_setCall (keeps_put_token fun old hold => ?_) _ _
    rw [hnew] at hold
    cases hold
  | missed => exact keeps_addCall (keeps_refl s) _
  | revoked hrow hlive =>
    refine keeps_addCall (keeps_put_token fun old hold => ?_) _
    obtain rfl := Option.some.inj (hrow.symm.trans hold)
    exact .set (m := revokedAt) hlive _
  | revokedPair => exact keeps_setCall (keeps_setTokens (revokeRow_keeps s _ _ _)) _ _

variable {i j : Nat} {stage old : Stage}

theorem getElem?_setCall (hcall : s.calls[i]? = some old) :
    (s.setCall i stage).calls[j]? = if j = i then some stage else s.calls[j]? := by
  obtain ⟨hlt, -⟩ := List.getElem?_eq_some_iff.mp hcall
  simp only [State.setCall, List.getElem?_set, eq_comm (a := i)]
  split
  · rename_i h
    subst h
    simp
  · rfl

theorem getElem?_addCall {found : Stage} (h : (s.addCall stage).calls[j]? = some found) :
    s.calls[j]? = some found ∨ found = stage := by
  simp only [State.addCall, List.getElem?_append] at h
  split at h
  · exact .inl h
  · obtain ⟨hlt, rfl⟩ := List.getElem?_eq_some_iff.mp h
    exact .inr (List.getElem_singleton ..)

/-- A call more. -/
theorem forall_addCall {P : Stage → Prop} (h : ∀ st ∈ s.calls, P st) (hstage : P stage) :
    ∀ st ∈ (s.addCall stage).calls, P st := by
  intro st hst
  rcases List.mem_append.mp hst with hst | hst
  · exact h st hst
  · rw [List.mem_singleton.mp hst]
    exact hstage

/-- A call that goes on. -/
theorem forall_setCall {P : Stage → Prop} (h : ∀ st ∈ s.calls, P st) (hstage : P stage) :
    ∀ st ∈ (s.setCall i stage).calls, P st := by
  intro st hst
  rcases List.mem_or_eq_of_mem_set hst with hst | rfl
  · exact h st hst
  · exact hstage

/-! ### A server -/

/-- A server where one ticket is signed. -/
def signed : Config where
  hashToken raw := String.ofList ('#' :: raw.toList)
  hashToken_ne raw h := by simpa using congrArg String.toList h
  resourceServerUrl := "https://empyralis.example/mcp"
  accessTokenTtl := 3600
  refreshTokenTtl := 15552000
  authorizationCodeTtl := 120
  verifyConsentTicket _ ticket :=
    if ticket = "signed" then .ok ⟨"claude", "https://claude.example/back", true, "challenge", ["empyralis:read"], none⟩
    else .error "This connection request is invalid. Go back to Claude and try connecting again."
  lower text := String.ofList (text.toList.map Char.toLower)
  admitsScopes granted asked := asked.all granted.contains

/-- A consent, the exchange of its code, and the statements that store the pair. -/
def issuance : List Label :=
  [.registerClient "claude",
    .decideConsent ⟨"signed", "csrf", "csrf", some ⟨"user", ["workspace"]⟩, "Allow", " workspace ", "tenant"⟩ "code" 0,
    .loadAuthorizationCode "claude" "code" 1000000, .exchange 0 [] "access" "refresh" 2000000, .statement 0 2000000,
    .statement 0 2000000]

end Empyralis.Server.OAuth
