import Empyralis.Server.GatewayTrust

/-! The life of a gateway session over a run, and what a revocation leaves of it. -/

namespace Empyralis.Server.GatewayTrust
open Kernel (Json)
open Kernel.GatewayFrame (textAny textAny_of_get)
open Kernel.GatewayState (Answer gatewayStateDecisionCommand operationDecision operationDecision_of_allow
  operationDecision_connect normalizeOperation status_of_connect_allowed)
open Run (run run_inv run_inv_all Meets meets_of_forall)
open Text (strip)

variable {e : Env} {s t u : State} {a : Label} {as : List Label}

/-! ### What each operation leaves alone -/

theorem createPairing_frame (e : Env) (s : State) (c : PairingCall) :
    ∃ pairings, (createPairingIntent e s c).2 = { s with pairings } := by
  unfold createPairingIntent
  dsimp only
  refine gated_state (P := fun t => ∃ pairings, t = { s with pairings }) ⟨_, rfl⟩ fun _ _ => ?_
  split
  · exact ⟨_, rfl⟩
  split <;> exact ⟨_, rfl⟩

theorem register_frame (e : Env) (s : State) (c : RegisterCall) :
    ∃ pairings registrations, (registerGatewayFromPairing e s c).2 = { s with pairings, registrations } := by
  unfold registerGatewayFromPairing
  dsimp only
  split
  · exact ⟨_, _, rfl⟩
  split
  · exact ⟨_, _, rfl⟩
  split
  · exact ⟨_, _, rfl⟩
  split
  · exact gated_state (P := fun t => ∃ pairings registrations, t = { s with pairings, registrations }) ⟨_, _, rfl⟩
      fun _ _ => ⟨_, _, rfl⟩
  · refine gated_state (P := fun t => ∃ pairings registrations, t = { s with pairings, registrations }) ⟨_, _, rfl⟩
      fun _ _ => ?_
    split <;> exact ⟨_, _, rfl⟩

theorem sync_frame (s : State) (c : SyncCall) :
    ∃ registrations, (syncGatewayRegistrationIdentity s c).2 = { s with registrations } := by
  unfold syncGatewayRegistrationIdentity
  dsimp only
  split
  · exact ⟨_, rfl⟩
  · exact gated_state (P := fun t => ∃ registrations, t = { s with registrations }) ⟨_, rfl⟩ fun _ _ => ⟨_, rfl⟩

theorem rotate_frame (e : Env) (s : State) (c : RotateCall) :
    ∃ registrations, (rotateGatewayToken e s c).2 = { s with registrations } := by
  unfold rotateGatewayToken
  dsimp only
  split
  · exact ⟨_, rfl⟩
  split
  · exact ⟨_, rfl⟩
  split
  · exact ⟨_, rfl⟩
  · exact gated_state (P := fun t => ∃ registrations, t = { s with registrations }) ⟨_, rfl⟩ fun _ _ => ⟨_, rfl⟩

theorem update_frame (s : State) (c : UpdateCall) :
    ∃ registrations, (updateGatewayRegistrationState s c).2 = { s with registrations } := by
  unfold updateGatewayRegistrationState
  dsimp only
  split
  · exact ⟨_, rfl⟩
  · exact gated_state (P := fun t => ∃ registrations, t = { s with registrations }) ⟨_, rfl⟩ fun _ _ => ⟨_, rfl⟩

theorem shareOptIn_frame (e : Env) (s : State) (gatewayId : String) (optedIn : Bool)
    (tenantId workspaceId userId : String) (now : Int) :
    ∃ registrations, (setGatewayProjectSharingOptIn e s gatewayId optedIn tenantId workspaceId userId now).2 =
      { s with registrations } := by
  unfold setGatewayProjectSharingOptIn
  split
  · exact ⟨_, rfl⟩
  · exact ⟨_, rfl⟩

theorem issue_frame (e : Env) (s : State) (c : IssueCall) :
    ∃ sessions, (issueGatewaySession e s c).2 = { s with sessions } := by
  unfold issueGatewaySession
  dsimp only
  split
  · exact ⟨_, rfl⟩
  split
  · exact ⟨_, rfl⟩
  refine gated_state (P := fun t => ∃ sessions, t = { s with sessions }) ⟨_, rfl⟩ fun _ _ => ?_
  split <;> exact ⟨_, rfl⟩

theorem connected_frame (s : State) (sessionId : String) (now : Int) :
    ∃ sessions, (markGatewaySessionConnected s sessionId now).2 = { s with sessions } := by
  unfold markGatewaySessionConnected
  split
  · exact ⟨_, rfl⟩
  · exact gated_state (P := fun t => ∃ sessions, t = { s with sessions }) ⟨_, rfl⟩ fun _ _ => ⟨_, rfl⟩

theorem disconnected_frame (s : State) (sessionId : String) (reason : Option String) (now : Int) :
    ∃ sessions, (markGatewaySessionDisconnected s sessionId reason now).2 = { s with sessions } := by
  unfold markGatewaySessionDisconnected
  split
  · exact ⟨_, rfl⟩
  · exact gated_state (P := fun t => ∃ sessions, t = { s with sessions }) ⟨_, rfl⟩ fun _ _ => ⟨_, rfl⟩

theorem sweep_frame (e : Env) (s : State) (gatewayId : String) (seconds now : Int) :
    ∃ sessions, (sweepStaleGatewaySessions e s gatewayId seconds now).2 = { s with sessions } := by
  unfold sweepStaleGatewaySessions
  dsimp only
  split
  · exact ⟨_, rfl⟩
  refine gated_state (P := fun t => ∃ sessions, t = { s with sessions }) ⟨_, rfl⟩ fun _ _ => ?_
  split <;> exact ⟨_, rfl⟩

/-! ### The gate of a connection -/

/-- A session is connected from no status but `pending` and `connected`. -/
theorem status_of_connect {row : Session} {id : String} {answer : Answer}
    (h : enforceGatewayStateDecision "mark_session_connected" (row.scope id) "system"
      [("session_status", .string row.status.text)] = .ok answer) :
    row.status = .pending ∨ row.status = .connected := by
  unfold enforceGatewayStateDecision at h
  split at h
  · cases h
  · cases h
  rename_i reply hreply
  have hoperation := operationDecision_of_allow hreply
  have hname : textAny (request "mark_session_connected" (row.scope id) "system"
      [("session_status", .string row.status.text)]) ["operation", "action"] =
      (Kernel.present "mark_session_connected").getD "" :=
    textAny_of_get (by simp [request, Json.get]) (by simp [request, Json.get, List.lookup_cons])
  have hnormal : normalizeOperation ((Kernel.present "mark_session_connected").getD "") = "mark_session_connected" := by
    decide
  rw [hname, hnormal, operationDecision_connect] at hoperation
  have hstatus := status_of_connect_allowed hoperation
  have htext : textAny (request "mark_session_connected" (row.scope id) "system"
      [("session_status", .string row.status.text)]) ["session_status", "status"] =
      (Kernel.present row.status.text).getD "" :=
    textAny_of_get (by simp [request, Json.get, List.lookup_cons]) (by simp [request, Json.get, List.lookup_cons])
  rw [htext] at hstatus
  revert hstatus
  cases row.status <;> decide

/-! ### What a step does to a session -/

/-- How far a session is in its life. -/
def SessionStatus.rank : SessionStatus → Nat
  | .pending => 0
  | .connected => 1
  | .disconnected => 2
  | .expired => 2
  | .revoked => 3

/-- What is never written again. -/
def Session.identity (row : Session) : String × String × String × String × String × String × Int :=
  (row.sessionTokenHash, row.gatewayId, row.deviceId, row.tenantId, row.workspaceId, row.userId, row.createdAt)

/-- `b` is `a` at a later time. -/
structure Moves (a b : Session) : Prop where
  identity : b.identity = a.identity
  status : a.status.rank ≤ b.status.rank
  lastSeq : a.lastSeq ≤ b.lastSeq
  lastAck : a.lastAck ≤ b.lastAck
  connectedAt : ∀ time, a.connectedAt = some time → b.connectedAt = some time

theorem Moves.refl (row : Session) : Moves row row :=
  ⟨rfl, Nat.le_refl _, Int.le_refl _, Int.le_refl _, fun _ h => h⟩

theorem Moves.trans {a b c : Session} (hab : Moves a b) (hbc : Moves b c) : Moves a c where
  identity := hbc.identity.trans hab.identity
  status := Nat.le_trans hab.status hbc.status
  lastSeq := Int.le_trans hab.lastSeq hbc.lastSeq
  lastAck := Int.le_trans hab.lastAck hbc.lastAck
  connectedAt := fun time h => hbc.connectedAt time (hab.connectedAt time h)

theorem Moves.sessionTokenHash {a b : Session} (h : Moves a b) : b.sessionTokenHash = a.sessionTokenHash :=
  congrArg Prod.fst h.identity

theorem Moves.gatewayId {a b : Session} (h : Moves a b) : b.gatewayId = a.gatewayId :=
  congrArg (fun x => x.2.1) h.identity

/-- A revoked session stays revoked. -/
theorem Moves.revoked {a b : Session} (h : Moves a b) (ha : a.status = .revoked) : b.status = .revoked := by
  have hrank := h.status
  rw [ha] at hrank
  revert hrank
  cases b.status <;> decide

theorem connect_moves {row : Session} (now : Int) (h : row.status = .pending ∨ row.status = .connected) :
    Moves row (row.connect now) where
  identity := rfl
  status := by rcases h with h | h <;> simp [h, Session.connect, SessionStatus.rank]
  lastSeq := Int.le_refl _
  lastAck := Int.le_refl _
  connectedAt := fun time htime => by simp [Session.connect, htime]

theorem disconnect_moves (row : Session) (reason : Option String) (now : Int) :
    Moves row (row.disconnect reason now) where
  identity := rfl
  status := by
    dsimp only [Session.disconnect]
    cases row.status <;> decide
  lastSeq := Int.le_refl _
  lastAck := Int.le_refl _
  connectedAt := fun _ h => h

theorem revoke_moves (row : Session) (reason : String) (now : Int) : Moves row (row.revoke reason now) where
  identity := rfl
  status := by
    dsimp only [Session.revoke]
    cases row.status <;> decide
  lastSeq := Int.le_refl _
  lastAck := Int.le_refl _
  connectedAt := fun _ h => h

theorem expire_moves {row : Session} (sweptAt : String) (h : row.status = .connected ∨ row.status = .disconnected) :
    Moves row (row.expire sweptAt) where
  identity := rfl
  status := by rcases h with h | h <;> simp [h, Session.expire, SessionStatus.rank]
  lastSeq := Int.le_refl _
  lastAck := Int.le_refl _
  connectedAt := fun _ h => h

theorem touched_moves (c : TouchCall) (row : Session) : Moves row (c.touched row) where
  identity := rfl
  status := by
    dsimp only [TouchCall.touched]
    cases row.status <;> decide
  lastSeq := Int.le_max_right _ _
  lastAck := Int.le_max_right _ _
  connectedAt := fun _ h => h

/-- What a label does to the row under an id. -/
inductive Change (e : Env) (a : Label) (id : String) : Option Session → Option Session → Prop
  | absent : Change e a id none none
  | moved {row later : Session} (h : Moves row later) : Change e a id (some row) (some later)
  | pruned {row : Session} (h : row.status.prunable) : Change e a id (some row) none
  | issued {c : IssueCall} {r : Registration} (ha : a = .issue c) (hid : c.sessionId = id) :
      Change e a id none (some (c.row e r))

theorem Change.same {id : String} (row : Option Session) : Change e a id row row := by
  cases row with
  | none => exact .absent
  | some row => exact .moved (.refl row)

/-- An update of all rows that meet its condition. -/
theorem Change.updateAll {sessions : Table String Session} {change : String → Session → Option Session}
    (h : ∀ id row later, change id row = some later → Moves row later) (id : String) :
    Change e a id (sessions.get? id) ((Sql.updateAll sessions change).get? id) := by
  rw [Sql.get?_updateAll]
  cases hrow : sessions.get? id with
  | none => exact .absent
  | some row =>
    refine .moved ?_
    dsimp only
    cases hchange : change id row with
    | none => exact .refl row
    | some later => exact h id row later hchange

/-- A row written over the one that is there. -/
theorem Change.put {sessions : Table String Session} {key : String} {row later : Session}
    (hrow : sessions.get? key = some row) (h : Moves row later) (id : String) :
    Change e a id (sessions.get? id) ((sessions.put key later).get? id) := by
  rw [Table.get?_put]
  split
  · rename_i heq
    rw [heq, hrow]
    exact .moved h
  · exact .same _

theorem change_revokeSessions (sessions : Table String Session) (gatewayId reason : String) (now : Int) (id : String) :
    Change e a id (sessions.get? id) ((revokeSessions sessions gatewayId reason now).get? id) := by
  refine .updateAll (fun id row later h => ?_) id
  split at h
  · cases h
    exact revoke_moves row reason now
  · cases h

theorem change_revoke (s : State) (c : RevokeCall) (id : String) :
    Change e a id (s.sessions.get? id) ((revokeGatewayRegistration s c).2.sessions.get? id) := by
  unfold revokeGatewayRegistration
  dsimp only
  split
  · exact .same _
  split
  · exact .same _
  · exact gated_state (P := fun t => Change e a id (s.sessions.get? id) (t.sessions.get? id)) (.same _)
      fun _ _ => change_revokeSessions _ _ _ _ id

/-- What an issue does to the row under an id. -/
theorem change_issue (s : State) (c : IssueCall) (id : String) :
    Change e (.issue c) id (s.sessions.get? id) ((issueGatewaySession e s c).2.sessions.get? id) := by
  unfold issueGatewaySession
  dsimp only
  split
  · exact .same _
  split
  · exact .same _
  refine gated_state (P := fun t => Change e (.issue c) id (s.sessions.get? id) (t.sessions.get? id)) (.same _)
    fun _ _ => ?_
  split
  · exact .same _
  rename_i sessions hinsert
  unfold insertSession at hinsert
  split at hinsert
  · cases hinsert
  obtain ⟨hnone, rfl⟩ := Sql.insert_eq_some.mp hinsert
  dsimp only
  rw [Table.get?_put]
  split
  · rename_i heq
    rw [heq, hnone]
    exact .issued rfl rfl
  · exact .same _

theorem change_connected (s : State) (sessionId : String) (now : Int) (id : String) :
    Change e a id (s.sessions.get? id) ((markGatewaySessionConnected s sessionId now).2.sessions.get? id) := by
  unfold markGatewaySessionConnected
  split
  · exact .same _
  rename_i row hrow
  exact gated_state (P := fun t => Change e a id (s.sessions.get? id) (t.sessions.get? id)) (.same _)
    fun _ hgate => .put hrow (connect_moves now (status_of_connect hgate)) id

theorem change_disconnected (s : State) (sessionId : String) (reason : Option String) (now : Int) (id : String) :
    Change e a id (s.sessions.get? id)
      ((markGatewaySessionDisconnected s sessionId reason now).2.sessions.get? id) := by
  unfold markGatewaySessionDisconnected
  split
  · exact .same _
  rename_i row hrow
  exact gated_state (P := fun t => Change e a id (s.sessions.get? id) (t.sessions.get? id)) (.same _)
    fun _ _ => .put hrow (disconnect_moves row reason now) id

theorem change_touch (s : State) (c : TouchCall) (id : String) :
    Change e a id (s.sessions.get? id) ((touchGatewaySession s c).2.sessions.get? id) := by
  unfold touchGatewaySession
  split
  · exact .same _
  rename_i row hrow
  exact gated_state (P := fun t => Change e a id (s.sessions.get? id) (t.sessions.get? id)) (.same _)
    fun _ _ => .put hrow (touched_moves c row) id

theorem change_sweep (s : State) (gatewayId : String) (seconds now : Int) (id : String) :
    Change e a id (s.sessions.get? id) ((sweepStaleGatewaySessions e s gatewayId seconds now).2.sessions.get? id) := by
  unfold sweepStaleGatewaySessions
  dsimp only
  split
  · exact .same _
  refine gated_state (P := fun t => Change e a id (s.sessions.get? id) (t.sessions.get? id)) (.same _) fun _ _ => ?_
  split
  · exact .same _
  dsimp only
  refine .updateAll (fun id row later h => ?_) id
  split at h
  · rename_i hstale
    simp only [stale, Bool.and_eq_true, Bool.or_eq_true, decide_eq_true_eq] at hstale
    cases h
    exact expire_moves _ hstale.1.2
  · cases h

/-- Rows that are deleted only where they may be pruned. -/
theorem Change.filter {sessions : Table String Session} {kept : String → Session → Bool} {id : String}
    (h : ∀ row, kept id row = false → row.status.prunable) :
    Change e a id (sessions.get? id) ((sessions.filter kept).get? id) := by
  cases hrow : sessions.get? id with
  | none =>
    have hnone : (sessions.filter kept).get? id = none := by
      rw [Option.eq_none_iff_forall_ne_some]
      intro row hkept
      rw [(Table.get?_filter.mp hkept).1] at hrow
      cases hrow
    rw [hnone]
    exact .absent
  | some row =>
    cases hkept : kept id row with
    | true =>
      rw [Table.get?_filter.mpr ⟨hrow, hkept⟩]
      exact .moved (.refl row)
    | false =>
      have hnone : (sessions.filter kept).get? id = none := by
        rw [Option.eq_none_iff_forall_ne_some]
        intro later hlater
        obtain ⟨hsame, htrue⟩ := Table.get?_filter.mp hlater
        rw [hrow, Option.some.injEq] at hsame
        rw [← hsame, hkept] at htrue
        cases htrue
      rw [hnone]
      exact .pruned (h row hkept)

theorem change_prune (s : State) (days now : Int) (id : String) :
    Change e a id (s.sessions.get? id) ((pruneGatewayState e s days now).sessions.get? id) := by
  refine .filter fun row hkept => ?_
  simp only [Bool.not_eq_false', Bool.and_eq_true] at hkept
  exact hkept.1

/-- Everything that a label can do to the session under an id. -/
theorem change_next (e : Env) (s : State) (a : Label) (id : String) :
    Change e a id (s.sessions.get? id) ((next e s a).sessions.get? id) := by
  cases a with
  | createPairing c =>
    obtain ⟨_, hframe⟩ := createPairing_frame e s c
    rw [next, hframe]
    exact .same _
  | register c =>
    obtain ⟨_, _, hframe⟩ := register_frame e s c
    rw [next, hframe]
    exact .same _
  | sync c =>
    obtain ⟨_, hframe⟩ := sync_frame s c
    rw [next, hframe]
    exact .same _
  | rotate c =>
    obtain ⟨_, hframe⟩ := rotate_frame e s c
    rw [next, hframe]
    exact .same _
  | update c =>
    obtain ⟨_, hframe⟩ := update_frame s c
    rw [next, hframe]
    exact .same _
  | rename gatewayId displayName tenantId workspaceId now => exact .same _
  | shareOptIn gatewayId optedIn tenantId workspaceId userId now =>
    obtain ⟨_, hframe⟩ := shareOptIn_frame e s gatewayId optedIn tenantId workspaceId userId now
    rw [next, hframe]
    exact .same _
  | revoke c => exact change_revoke s c id
  | issue c => exact change_issue s c id
  | connected sessionId now => exact change_connected s sessionId now id
  | disconnected sessionId reason now => exact change_disconnected s sessionId reason now id
  | touch c => exact change_touch s c id
  | sweep gatewayId seconds now =>
    rw [next]
    exact change_sweep s gatewayId seconds now id
  | prune days now => exact change_prune s days now id

/-! ### A run -/

/-- The row under an id is what the one before has become, where no session is issued under the id. -/
theorem moves_of_next {id : String} {later : Session} (hid : ∀ c, a = .issue c → c.sessionId ≠ id)
    (hlater : (next e s a).sessions.get? id = some later) : ∃ row, s.sessions.get? id = some row ∧ Moves row later := by
  have hchange := change_next e s a id
  rw [hlater] at hchange
  generalize hrow : s.sessions.get? id = before at hchange
  cases hchange with
  | moved hmoves => exact ⟨_, rfl, hmoves⟩
  | issued ha heq => exact absurd heq (hid _ ha)

/-- However the operations come, a session that is there before and after them, and whose id is not issued again, is
    the same session, further in its life: one that was disconnected, expired or revoked is never pending or connected
    again, one that was revoked stays so, and its cursors and the time of its first connection do not go back. -/
theorem session_lifecycle {id : String} {row later : Session} (hrun : run (step e) s as = some t)
    (hid : ∀ c, .issue c ∈ as → c.sessionId ≠ id) (hrow : s.sessions.get? id = some row)
    (hlater : t.sessions.get? id = some later) : Moves row later := by
  have hinv : ∀ v, t.sessions.get? id = some v → Moves row v := by
    refine run_inv (I := fun u => ∀ v, u.sessions.get? id = some v → Moves row v)
      (C := fun _ a => ∀ c, a = .issue c → c.sessionId ≠ id) ?_ (meets_of_forall as ?_ s) ?_ hrun
    · rintro u a w hu ha hstep v hv
      obtain rfl := Option.some.inj hstep
      obtain ⟨old, hold, hmoves⟩ := moves_of_next ha hv
      exact (hu old hold).trans hmoves
    · rintro a ha c rfl
      exact hid c ha
    · intro v hv
      rw [hrow, Option.some.injEq] at hv
      exact hv ▸ .refl row
  exact hinv later hlater

/-- The digests of the tokens of one gateway, and the texts of two times on its first day. -/
def firstDay : Env where
  isoformat := fun time => (([(1767261600000000, "2026-01-01T10:00:00"), (1767262200000000, "2026-01-01T10:10:00")] :
    List (Int × String)).lookup time).getD ""
  sha256 := fun text => (([
    ("gpair_VWJ0yWJ5", "91533bf94decc31e03236a11abdadd5cc541397e599ffa841de919b61e8d21eb"),
    ("ggt_x1Qm8rT2", "914de3e3eb88d416fd2c5bd10fe061d170afafe6c805ff9c383dd1c0b347743e"),
    ("gws_k3LpZ9aa", "a7087c60308f912eaf88b9978af622ed9a20dca3d2c22932516d0626c2832981"),
    ("gpair_Hh4Tq0s7", "7bbcc15453e092d2fb0cc00f1a2b2d604c3756a1b618333d368ba648ab5418d6"),
    ("ggt_9dPf2LwE", "5e08ee02bea61a66957a8c634dbb37ac878aae19959ff966f070df1beaca20bb"),
    ("gws_Rt7uV1bb", "7753ce13de197a0d947a55703fde2cd139b72d8a04b8243dfb85fe3448fe07a6")] :
      List (String × String)).lookup text).getD ""
  lower := fun text => String.ofList (text.toList.map Char.toLower)
  repr := fun _ => ""

def second (seconds : Int) : Int := 1767261600000000 + seconds * 1000000

def pairing : PairingCall :=
  ⟨"tenant-1", "workspace-1", "user-1", 600, some "Studio", none, [("runtime_access_mode", .string "full-access")],
    some 3, "gpairing_1", "gpair_VWJ0yWJ5", second 0⟩

def registration : RegisterCall :=
  ⟨"gpair_VWJ0yWJ5", "device-1", none, none, some "macos", [], ["shell.execute"], "ggt_x1Qm8rT2", "gateway_1",
    second 10⟩

def issuance : IssueCall := ⟨"gateway_1", "ggt_x1Qm8rT2", 900, [], "gsess_1", "gws_k3LpZ9aa", second 20⟩

def enrolment : List Label := [.createPairing pairing, .register registration, .issue issuance]

def heartbeat : TouchCall := ⟨"gsess_1", "gateway_1", some 3, some 2, some "ok", none, none, [], some 900, second 30⟩

def revocation : RevokeCall := ⟨"gateway_1", some "tenant-1", some "workspace-1", none, none, second 60⟩

/-- The session is connected, sends a heartbeat, and is revoked before its socket is closed. -/
def connection : List Label :=
  [.connected "gsess_1" (second 21), .touch heartbeat, .revoke revocation,
    .disconnected "gsess_1" (some "socket_closed") (second 61)]

theorem reply_eq {α : Type} {reply : Except Raised (Option α) × State} {row : α}
    (h : reply.1.toOption.bind id = some row) : reply = (.ok (some row), reply.2) := by
  rcases reply with ⟨raised | (_ | found), t⟩
  · cases h
  · cases h
  · cases h
    rfl

theorem session_lifecycle_revoked : ∃ row later : Session, row.status = .pending ∧ later.status = .revoked ∧
    later.lastSeq = 3 ∧ Moves row later := by
  have hruns : ((run (step firstDay) start enrolment).bind fun s => (s.sessions.get? "gsess_1").bind fun row =>
      (run (step firstDay) s connection).bind fun t => (t.sessions.get? "gsess_1").map fun later =>
        (row.status, later.status, later.lastSeq)) = some (.pending, .revoked, 3) := by
    decide +kernel
  obtain ⟨s, -, hruns⟩ := Option.bind_eq_some_iff.mp hruns
  obtain ⟨row, hrow, hruns⟩ := Option.bind_eq_some_iff.mp hruns
  obtain ⟨t, hrun, hruns⟩ := Option.bind_eq_some_iff.mp hruns
  obtain ⟨later, hlater, hends⟩ := Option.map_eq_some_iff.mp hruns
  obtain ⟨hpending, hends⟩ := Prod.mk.inj hends
  obtain ⟨hrevoked, hseq⟩ := Prod.mk.inj hends
  have hid : ∀ c, .issue c ∈ connection → c.sessionId ≠ "gsess_1" := by
    intro c hc
    simp [connection] at hc
  exact ⟨row, later, hpending, hrevoked, hseq, session_lifecycle hrun hid hrow hlater⟩

end Empyralis.Server.GatewayTrust
