import Empyralis.Server.GatewaySessions

/-! A gateway that was revoked stays out until it is registered or reactivated again, and the sessions that it had
    stay out for good. -/

namespace Empyralis.Server.GatewayTrust
open Run (run run_inv Meets meets_of_forall)
open Text (strip)

variable {e : Env} {s t u : State} {a : Label} {as : List Label} {g hash : String}

/-! ### Sessions of a revoked gateway -/

/-- Each session of the gateway with this token hash is revoked. -/
def Revoked (g hash : String) (s : State) : Prop :=
  ∀ id row, s.sessions.get? id = some row → row.gatewayId = g → row.sessionTokenHash = hash → row.status = .revoked

/-- The sessions of a gateway are revoked with it. -/
theorem revoked_of_revokeSessions {sessions : Table String Session} {reason : String} {now : Int} {id : String}
    {row : Session} (hrow : (revokeSessions sessions g reason now).get? id = some row) (hgateway : row.gatewayId = g) :
    row.status = .revoked := by
  rw [revokeSessions, Sql.get?_updateAll, Option.map_eq_some_iff] at hrow
  obtain ⟨old, -, heq⟩ := hrow
  split at heq
  · rw [← heq]
    rfl
  · rename_i hnot
    rw [Option.getD_none] at heq
    subst heq
    by_contra hlive
    exact hnot ⟨hgateway, hlive⟩

theorem revoked_next (hfresh : ∀ c, a = .issue c → e.hashToken c.sessionToken ≠ hash) (h : Revoked g hash s) :
    Revoked g hash (next e s a) := by
  intro id row hrow hgateway hhash
  have hchange := change_next e s a id
  rw [hrow] at hchange
  generalize hbefore : s.sessions.get? id = before at hchange
  cases hchange with
  | moved hmoves =>
    exact hmoves.revoked (h id _ hbefore (hmoves.gatewayId.symm.trans hgateway)
      (hmoves.sessionTokenHash.symm.trans hhash))
  | issued ha => exact absurd hhash (hfresh _ ha)

/-- A token of revoked sessions only is not accepted. -/
theorem validate_of_revoked {gatewayId token : String} (h : Revoked (strip gatewayId) (e.hashToken token) s)
    (now : Int) : ∃ refusal, validateGatewaySession e s gatewayId token now = .error refusal := by
  unfold validateGatewaySession
  dsimp only
  split
  · exact ⟨_, rfl⟩
  rename_i id row hfind
  have hmatch := List.find?_some hfind
  simp only [Bool.and_eq_true, decide_eq_true_eq] at hmatch
  have hstatus := h id row (Table.get?_eq_some.mpr (List.mem_of_find?_eq_some hfind)) hmatch.1 hmatch.2
  split
  · exact ⟨_, rfl⟩
  split
  · exact ⟨_, rfl⟩
  split
  · exact ⟨_, rfl⟩
  -- the split has taken the branch of a revoked session
  · exact ⟨_, rfl⟩

/-! ### A revoked registration -/

def Shut (g : String) (registrations : Table String Registration) : Prop :=
  ∃ r, registrations.get? g = some r ∧ r.status = "revoked"

/-- The label registers the gateway once more, or gives it another status. -/
def reactivates (e : Env) (g : String) (s : State) : Label → Bool
  | .register c =>
    (s.pairings.get? (e.hashToken c.pairingToken)).any fun p =>
      c.resolvedGatewayId (existingOf s p (strip c.deviceId)) = g
  | .sync c => strip c.gatewayId = g && c.status.any fun status => status ≠ "" && strip status ≠ "revoked"
  | .update c => strip c.gatewayId = g && c.status.any fun status => status ≠ "" && strip status ≠ "revoked"
  | _ => false

theorem Shut.status_of_get {registrations : Table String Registration} {r : Registration} (h : Shut g registrations)
    (hr : registrations.get? g = some r) : r.status = "revoked" := by
  obtain ⟨found, hfound, hstatus⟩ := h
  rw [hr, Option.some.injEq] at hfound
  rw [hfound]
  exact hstatus

theorem Shut.put {registrations : Table String Registration} {key : String} {row : Registration}
    (h : Shut g registrations) (hrow : key = g → row.status = "revoked") : Shut g (registrations.put key row) := by
  unfold Shut
  rw [Table.get?_put]
  split
  · rename_i heq
    exact ⟨row, rfl, hrow heq.symm⟩
  · exact h

theorem Shut.update {registrations : Table String Registration} {key : String}
    {change : Registration → Option Registration} (h : Shut g registrations)
    (hchange : ∀ r new, change r = some new → new.status = r.status) :
    Shut g (Sql.update registrations key change).2 := by
  obtain ⟨r, hr, hstatus⟩ := h
  by_cases hkey : g = key
  · subst hkey
    refine ⟨(change r).getD r, by rw [Sql.update_self, hr]; rfl, ?_⟩
    cases hnew : change r with
    | none => exact hstatus
    | some new => exact (hchange r new hnew).trans hstatus
  · exact ⟨r, (Sql.update_other hkey).trans hr, hstatus⟩

/-- The status that is written where none but `revoked` is asked for. -/
theorem status_stays {status : Option String} (h : status.any (fun x => x ≠ "" && strip x ≠ "revoked") = false) :
    orText (textOr status (orText "revoked" "active")) "active" = "revoked" := by
  have hsame : orText (strip "revoked") "active" = "revoked" := by decide
  cases status with
  | none => exact hsame
  | some text =>
    by_cases hempty : text = ""
    · subst hempty
      exact hsame
    · have hrevoked : strip text = "revoked" := by simpa [hempty] using h
      have htext : textOr (some text) (orText "revoked" "active") = "revoked" := by
        simp only [textOr, Option.filter_some, hempty, not_false_eq_true, decide_true, if_true, Option.getD_some, ne_eq,
          hrevoked]
      rw [htext]
      rfl

/-- A registration of another gateway leaves this one shut. -/
theorem shut_register (c : RegisterCall) (h : Shut g s.registrations)
    (hnot : reactivates e g s (.register c) = false) :
    Shut g (registerGatewayFromPairing e s c).2.registrations := by
  unfold registerGatewayFromPairing
  dsimp only
  split
  · exact h
  split
  · exact h
  rename_i p hp
  split
  · exact h
  split
  · exact gated_state (P := fun t => Shut g t.registrations) h fun _ _ => h
  refine gated_state (P := fun t => Shut g t.registrations) h fun _ _ => ?_
  have hother : g ≠ c.resolvedGatewayId (existingOf s p (strip c.deviceId)) := by
    intro heq
    simp [reactivates, hp, heq] at hnot
  split
  · exact h
  rename_i registrations hwrite
  obtain ⟨r, hr, hstatus⟩ := h
  refine ⟨r, ?_, hstatus⟩
  unfold RegisterCall.write at hwrite
  split at hwrite
  · rw [Option.some.injEq] at hwrite
    rw [← hwrite, Sql.update_other hother, hr]
  · obtain ⟨-, rfl⟩ := Sql.insert_eq_some.mp hwrite
    rw [Table.get?_put, if_neg hother, hr]

theorem shut_sync (c : SyncCall) (h : Shut g s.registrations) (hnot : reactivates e g s (.sync c) = false) :
    Shut g (syncGatewayRegistrationIdentity s c).2.registrations := by
  unfold syncGatewayRegistrationIdentity
  dsimp only
  split
  · exact h
  rename_i r hr
  refine gated_state (P := fun t => Shut g t.registrations) h fun _ _ => h.put fun heq => ?_
  have hstatus : r.status = "revoked" := h.status_of_get (heq ▸ hr)
  simp only [reactivates, heq, decide_true, Bool.true_and] at hnot
  dsimp only
  rw [hstatus]
  exact status_stays hnot

theorem shut_update (c : UpdateCall) (h : Shut g s.registrations) (hnot : reactivates e g s (.update c) = false) :
    Shut g (updateGatewayRegistrationState s c).2.registrations := by
  unfold updateGatewayRegistrationState
  dsimp only
  split
  · exact h
  rename_i r hr
  refine gated_state (P := fun t => Shut g t.registrations) h fun _ _ => h.put fun heq => ?_
  have hstatus : r.status = "revoked" := h.status_of_get (heq ▸ hr)
  simp only [reactivates, heq, decide_true, Bool.true_and] at hnot
  dsimp only
  rw [hstatus]
  exact status_stays hnot

theorem shut_rotate (c : RotateCall) (h : Shut g s.registrations) :
    Shut g (rotateGatewayToken e s c).2.registrations := by
  unfold rotateGatewayToken
  dsimp only
  split
  · exact h
  rename_i r hr
  split
  · exact h
  split
  · exact h
  refine gated_state (P := fun t => Shut g t.registrations) h fun _ _ => h.put fun heq => ?_
  have hstatus : r.status = "revoked" := h.status_of_get (heq ▸ hr)
  exact hstatus

theorem shut_revoke (c : RevokeCall) (h : Shut g s.registrations) :
    Shut g (revokeGatewayRegistration s c).2.registrations := by
  unfold revokeGatewayRegistration
  dsimp only
  split
  · exact h
  split
  · exact h
  · exact gated_state (P := fun t => Shut g t.registrations) h fun _ _ => h.put fun _ => rfl

theorem shut_touch (c : TouchCall) (h : Shut g s.registrations) : Shut g (touchGatewaySession s c).2.registrations := by
  unfold touchGatewaySession
  split
  · exact h
  · refine gated_state (P := fun t => Shut g t.registrations) h fun _ _ => h.update fun r new heq => ?_
    cases heq
    rfl

/-- Only a label that reactivates it takes a registration out of `revoked`. -/
theorem shut_next (h : Shut g s.registrations) (hnot : reactivates e g s a = false) :
    Shut g (next e s a).registrations := by
  cases a with
  | createPairing c =>
    obtain ⟨_, hframe⟩ := createPairing_frame e s c
    rw [next, hframe]
    exact h
  | register c =>
    rw [next]
    exact shut_register c h hnot
  | sync c => exact shut_sync c h hnot
  | rotate c => exact shut_rotate c h
  | update c => exact shut_update c h hnot
  | rename gatewayId displayName tenantId workspaceId now =>
    refine h.update fun r new heq => ?_
    split at heq <;> cases heq
    rfl
  | shareOptIn gatewayId optedIn tenantId workspaceId userId now =>
    rw [next, setGatewayProjectSharingOptIn]
    split
    · exact h
    · refine h.update fun r new heq => ?_
      split at heq <;> cases heq
      rfl
  | revoke c => exact shut_revoke c h
  | issue c =>
    obtain ⟨_, hframe⟩ := issue_frame e s c
    rw [next, hframe]
    exact h
  | connected sessionId now =>
    obtain ⟨_, hframe⟩ := connected_frame s sessionId now
    rw [next, hframe]
    exact h
  | disconnected sessionId reason now =>
    obtain ⟨_, hframe⟩ := disconnected_frame s sessionId reason now
    rw [next, hframe]
    exact h
  | touch c => exact shut_touch c h
  | sweep gatewayId seconds now =>
    obtain ⟨_, hframe⟩ := sweep_frame e s gatewayId seconds now
    rw [next, hframe]
    exact h
  | prune days now => exact h

/-- No session of a gateway whose registration is revoked is valid. -/
theorem validate_of_shut {gatewayId : String} (h : Shut (strip gatewayId) s.registrations) (token : String)
    (now : Int) : ∃ refusal, validateGatewaySession e s gatewayId token now = .error refusal := by
  obtain ⟨r, hr, hstatus⟩ := h
  have hrevoked : strip r.status = "revoked" := by rw [hstatus]; decide
  unfold validateGatewaySession
  dsimp only
  split
  · exact ⟨_, rfl⟩
  · rw [hr]
    dsimp only
    rw [if_pos hrevoked]
    exact ⟨_, rfl⟩

theorem issue_of_shut {c : IssueCall} (h : Shut (strip c.gatewayId) s.registrations) :
    issueGatewaySession e s c = (.error (.value "Gateway credentials are invalid."), s) := by
  obtain ⟨r, hr, hstatus⟩ := h
  have hnone : (s.registrations.get? (strip c.gatewayId)).filter (fun r =>
      r.gatewayTokenHash = e.hashToken c.gatewayToken && r.status = "active") = none := by
    rw [hr]
    simp [hstatus]
  unfold issueGatewaySession
  dsimp only
  rw [hnone]

/-! ### After a revocation -/

theorem revoke_eq {c : RevokeCall} {r : Registration} (h : revokeGatewayRegistration s c = (.ok (some r), t)) :
    Shut (strip c.gatewayId) t.registrations ∧
      t.sessions = revokeSessions s.sessions (strip c.gatewayId) c.cleanReason c.now := by
  cases hr : s.registrations.get? (strip c.gatewayId) with
  | none =>
    rw [revokeGatewayRegistration, hr] at h
    cases h
  | some old =>
    rw [revokeGatewayRegistration, hr] at h
    dsimp only at h
    split at h
    · cases h
    · obtain ⟨answer, -, heq⟩ := gated_ok h
      cases heq
      exact ⟨⟨_, by rw [Table.get?_put, if_pos rfl], rfl⟩, rfl⟩

/-- After a gateway was revoked, however the operations come: a session token that it had is never accepted again,
    not even when the gateway is registered once more, as long as the token is not given to a new session; and until
    the gateway is registered or reactivated, no token at all is accepted for it and no session is issued to it. -/
theorem revoked_gateway_shut {c : RevokeCall} {r : Registration}
    (hrevoke : revokeGatewayRegistration s c = (.ok (some r), t)) (hrun : run (step e) t as = some u) :
    (∀ token now, (∀ d, .issue d ∈ as → e.hashToken d.sessionToken ≠ e.hashToken token) →
      ∃ refusal, validateGatewaySession e u c.gatewayId token now = .error refusal) ∧
    (Meets (step e) (fun v a => reactivates e (strip c.gatewayId) v a = false) t as →
      (∀ token now, ∃ refusal, validateGatewaySession e u c.gatewayId token now = .error refusal) ∧
      ∀ d : IssueCall, strip d.gatewayId = strip c.gatewayId →
        issueGatewaySession e u d = (.error (.value "Gateway credentials are invalid."), u)) := by
  obtain ⟨hshut, hsessions⟩ := revoke_eq hrevoke
  constructor
  · intro token now hfresh
    refine validate_of_revoked ?_ now
    refine run_inv (I := Revoked (strip c.gatewayId) (e.hashToken token))
      (C := fun _ a => ∀ d, a = .issue d → e.hashToken d.sessionToken ≠ e.hashToken token) ?_ (meets_of_forall as ?_ t)
      ?_ hrun
    · rintro v a w hv ha hstep
      obtain rfl := Option.some.inj hstep
      exact revoked_next ha hv
    · rintro a ha d rfl
      exact hfresh d ha
    · intro id row hrow hgateway _
      rw [hsessions] at hrow
      exact revoked_of_revokeSessions hrow hgateway
  · intro hmeets
    have hlast : Shut (strip c.gatewayId) u.registrations := by
      refine run_inv (I := fun v => Shut (strip c.gatewayId) v.registrations) ?_ hmeets hshut hrun
      rintro v a w hv ha hstep
      obtain rfl := Option.some.inj hstep
      exact shut_next hv ha
    exact ⟨fun token now => validate_of_shut hlast token now, fun d hd => issue_of_shut (hd ▸ hlast)⟩

def secondPairing : PairingCall :=
  { pairing with pairingId := "gpairing_2", pairingToken := "gpair_Hh4Tq0s7", now := second 600 }

def secondRegistration : RegisterCall :=
  { registration with
    pairingToken := "gpair_Hh4Tq0s7", gatewayToken := "ggt_9dPf2LwE", freshGatewayId := "gateway_2", now := second 610 }

/-- The device is registered once more, under the gateway id that it had. -/
def secondEnrolment : List Label := [.createPairing secondPairing, .register secondRegistration]

/-- The gateway is active, is revoked, and its session is refused. -/
theorem revoked_gateway_shut_enrolled : ∃ u, u.registrations.keys = ["gateway_1"] ∧
    (u.registrations.get? "gateway_1").any (·.status = "active") ∧
    ∃ refusal, validateGatewaySession firstDay u "gateway_1" "gws_k3LpZ9aa" (second 620) = .error refusal := by
  have hruns : ((run (step firstDay) start enrolment).bind fun s =>
      ((revokeGatewayRegistration s revocation).1.toOption.bind id).bind fun _ =>
        (run (step firstDay) (revokeGatewayRegistration s revocation).2 secondEnrolment).map fun u =>
          (u.registrations.keys, (u.registrations.get? "gateway_1").any (·.status = "active"))) =
      some (["gateway_1"], true) := by
    decide +kernel
  obtain ⟨s, -, hruns⟩ := Option.bind_eq_some_iff.mp hruns
  obtain ⟨row, hrow, hruns⟩ := Option.bind_eq_some_iff.mp hruns
  obtain ⟨u, hrun, hends⟩ := Option.map_eq_some_iff.mp hruns
  obtain ⟨hkeys, hactive⟩ := Prod.mk.inj hends
  have hshut := revoked_gateway_shut (reply_eq hrow) hrun
  refine ⟨u, hkeys, hactive, hshut.1 "gws_k3LpZ9aa" (second 620) fun d hd => ?_⟩
  simp [secondEnrolment] at hd

end Empyralis.Server.GatewayTrust
