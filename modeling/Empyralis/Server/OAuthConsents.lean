import Empyralis.Server.OAuthSteps

/-! Every code and every token carries what a person with access to its workspace has consented to. -/

namespace Empyralis.Server.OAuth
open Run
open Text (strip)

/-- One of the labels is a consent of a person with access to the workspace, for this client and user, to a ticket that
    asks for these scopes or more. -/
def Granted (c : Config) (as : List Label) (subject : Subject) (scopes : List String) : Prop :=
  ∃ request code now payload user, .decideConsent request code now ∈ as ∧ Allows c request now payload user ∧
    subject = ⟨strip payload.clientId, strip request.workspaceId, request.tenantId, user.userId⟩ ∧
    scopes ⊆ payload.scopes

variable {c : Config} {s t : State} {a : Label} {as : List Label} {stage : Stage}

theorem granted_mono {subject : Subject} {scopes fewer : List String}
    (h : Granted c as subject scopes) (hsub : fewer ⊆ scopes) : Granted c as subject fewer := by
  obtain ⟨request, code, now, payload, user, hmem, hallows, hsubject, hscopes⟩ := h
  exact ⟨request, code, now, payload, user, hmem, hallows, hsubject, List.Subset.trans hsub hscopes⟩

/-- What a call carries was granted; what it has loaded has the scopes of a row. -/
def Stage.Sourced (c : Config) (as : List Label) (s : State) : Stage → Prop
  | .code _ loaded => ∃ row, s.codes.get? (c.hashToken loaded.code) = some row ∧ row.scopes = loaded.scopes
  | .refresh _ loaded =>
    ∃ row, (s.tokens .refresh).get? (c.hashToken loaded.token) = some row ∧ row.scopes = loaded.scopes
  | .storing _ m => Granted c as m.subject m.scopes
  | _ => True

structure Sourced (c : Config) (as : List Label) (s : State) : Prop where
  codes : ∀ hash row, s.codes.get? hash = some row → Granted c as row.subject row.scopes
  tokens : ∀ kind hash row, (s.tokens kind).get? hash = some row → Granted c as row.subject row.scopes
  calls : ∀ stage ∈ s.calls, stage.Sourced c as s

theorem stage_sourced_keeps (hk : s.Keeps t) (h : stage.Sourced c as s) : stage.Sourced c as t := by
  cases stage with
  | code clientId loaded =>
    obtain ⟨row, hrow, hscopes⟩ := h
    obtain ⟨new, hnew, rfl | ⟨-, x, rfl⟩⟩ := hk.codes _ row hrow
    · exact ⟨new, hnew, hscopes⟩
    · exact ⟨_, hnew, hscopes⟩
  | refresh clientId loaded =>
    obtain ⟨row, hrow, hscopes⟩ := h
    obtain ⟨new, hnew, rfl | ⟨-, x, rfl⟩⟩ := hk.tokens .refresh _ row hrow
    · exact ⟨new, hnew, hscopes⟩
    · exact ⟨_, hnew, hscopes⟩
  | storing kind m => exact h
  | issued m => exact trivial
  | revoking kind hash => exact trivial
  | returned => exact trivial
  | tokenError error description => exact trivial
  | integrityError m => exact trivial

theorem tokens_put {kind : Kind} {hash : String} {row : TokenRow} (hs : Sourced c as s)
    (hrow : Granted c as row.subject row.scopes) (k : Kind) (key : String) (found : TokenRow)
    (h : ((s.setTokens kind ((s.tokens kind).put hash row)).tokens k).get? key = some found) :
    Granted c as found.subject found.scopes := by
  by_cases hk : k = kind
  · subst hk
    simp only [State.setTokens, Function.update_self, Table.get?_put] at h
    split at h
    · cases h
      exact hrow
    · exact hs.tokens k key found h
  · simp only [State.setTokens, Function.update_of_ne hk] at h
    exact hs.tokens k key found h

theorem codes_put {hash : String} {row : CodeRow} (hs : Sourced c as s) (hrow : Granted c as row.subject row.scopes)
    (key : String) (found : CodeRow) (h : (s.codes.put hash row).get? key = some found) :
    Granted c as found.subject found.scopes := by
  rw [Table.get?_put] at h
  split at h
  · cases h
    exact hrow
  · exact hs.codes key found h

/-- One step leaves every token with a consent behind it. -/
theorem sourced_step (hsdk : ∀ granted asked, c.admitsScopes granted asked = true → asked ⊆ granted)
    (hs : Sourced c as s) (ha : a ∈ as) (h : Effect c s a t) : Sourced c as t := by
  have hcalls : ∀ st ∈ s.calls, st.Sourced c as t :=
    fun st hst => stage_sourced_keeps (effect_keeps h) (hs.calls st hst)
  cases h with
  | same => exact hs
  | registered => exact ⟨hs.codes, hs.tokens, hcalls⟩
  | @consented request code now payload user clientId hlabel hallows hclient hnew =>
    subst hlabel hclient
    refine ⟨codes_put hs ?_, hs.tokens, hcalls⟩
    exact ⟨request, code, now, payload, user, ha, hallows, rfl, List.Subset.refl _⟩
  | loadedCode hrow => exact ⟨hs.codes, hs.tokens, forall_addCall hcalls ⟨_, hrow, rfl⟩⟩
  | loadedRefresh hrow => exact ⟨hs.codes, hs.tokens, forall_addCall hcalls ⟨_, hrow, rfl⟩⟩
  | refused => exact ⟨hs.codes, hs.tokens, forall_setCall hcalls trivial⟩
  | @redeemedCode i clientId loaded row m now hcall hrow hlive hsubject hscopes hredeemed hgrant =>
    have hgranted := hs.codes _ row hrow
    refine ⟨codes_put hs hgranted, hs.tokens, forall_setCall hcalls ?_⟩
    obtain ⟨found, hfound, hloaded⟩ := hs.calls _ (List.mem_of_getElem? hcall)
    obtain rfl := Option.some.inj (hrow.symm.trans hfound)
    change Granted c as m.subject m.scopes
    rw [hsubject, hscopes, ← hloaded]
    exact hgranted
  | @redeemedRefresh i clientId loaded row m now scopes hcall hrow hlive hadmits hsubject hscopes hredeemed hgrant =>
    have hgranted := hs.tokens .refresh _ row hrow
    refine ⟨hs.codes, tokens_put hs hgranted, forall_setCall hcalls ?_⟩
    obtain ⟨found, hfound, hloaded⟩ := hs.calls _ (List.mem_of_getElem? hcall)
    obtain rfl := Option.some.inj (hrow.symm.trans hfound)
    change Granted c as m.subject m.scopes
    rw [hsubject, hscopes]
    refine granted_mono hgranted ?_
    rw [hloaded]
    split
    · exact List.Subset.refl _
    · exact hsdk _ _ hadmits
  | collided => exact ⟨hs.codes, hs.tokens, forall_setCall hcalls trivial⟩
  | storedAccess hcall hnew =>
    have hgranted := hs.calls _ (List.mem_of_getElem? hcall)
    exact ⟨hs.codes, tokens_put hs hgranted, forall_setCall hcalls hgranted⟩
  | storedRefresh hcall hnew =>
    have hgranted := hs.calls _ (List.mem_of_getElem? hcall)
    exact ⟨hs.codes, tokens_put hs hgranted, forall_setCall hcalls trivial⟩
  | missed => exact ⟨hs.codes, hs.tokens, forall_addCall hcalls trivial⟩
  | revoked hrow hlive hstage =>
    have hgranted := hs.tokens _ _ _ hrow
    refine ⟨hs.codes, tokens_put hs hgranted, forall_addCall hcalls ?_⟩
    rcases hstage with rfl | ⟨_, _, rfl⟩ <;> exact trivial
  | @revokedPair i kind hash now hcall =>
    refine ⟨hs.codes, ?_, forall_setCall hcalls trivial⟩
    cases hrevoke : revokeRow s kind hash now with
    | mk found table =>
      cases found with
      | some row =>
        obtain ⟨old, hold, -, rfl, rfl⟩ := revokeRow_some hrevoke
        exact tokens_put hs (hs.tokens kind hash old hold)
      | none =>
        simp only [revokeRow, Sql.update] at hrevoke
        split at hrevoke
        · cases hrevoke
        · cases hrevoke
          simpa only [State.setCall, State.setTokens, Function.update_eq_self] using hs.tokens

theorem sourced_start : Sourced c as start := by
  refine ⟨?_, ?_, ?_⟩
  · rintro hash row ⟨⟩
  · rintro kind hash row ⟨⟩
  · rintro stage ⟨⟩

/-- A bearer token that the server accepts is a legacy key, or one with a row: then a person with access to its
    workspace has consented to this client and to at least its scopes, and it is for this server. -/
theorem access_granted (hsdk : ∀ granted asked, c.admitsScopes granted asked = true → asked ⊆ granted)
    (hrun : run (step c) start as = some s) {legacy : String → Option (String × Bool)} {token : String} {now : Int}
    {accessToken : AccessToken} (hload : loadAccessToken c legacy s token now = some accessToken) :
    (Granted c as accessToken.subject accessToken.scopes ∧
      ∀ resource, accessToken.resource = some resource → resource ≠ "" → resourceMatches resource c.resourceServerUrl) ∨
    ∃ workspaceId writesEnabled, legacy (strip token) = some (workspaceId, writesEnabled) ∧
      accessToken.subject = ⟨legacyClientId, workspaceId, "", ""⟩ := by
  have hsourced : Sourced c as s := by
    refine run_inv (C := fun _ a => a ∈ as) (fun _ _ _ hi ha hstep => ?_) (meets_of_forall as (fun _ ha => ha) start)
      sourced_start hrun
    exact sourced_step hsdk hi ha (step_effect hstep)
  unfold loadAccessToken at hload
  simp only at hload
  split at hload
  · cases hload
  · split at hload
    · rename_i row hrow
      split at hload
      · cases hload
      · rename_i hresource
        cases hload
        refine .inl ⟨hsourced.tokens .access _ row (Option.filter_eq_some_iff.mp hrow).1, fun resource hsome hne => ?_⟩
        change row.resource = some resource at hsome
        rw [hsome] at hresource
        simpa [hne] using hresource
    · obtain ⟨⟨workspaceId, writesEnabled⟩, hlegacy, rfl⟩ := Option.map_eq_some_iff.mp hload
      exact .inr ⟨workspaceId, writesEnabled, hlegacy, rfl⟩

theorem access_granted_issued : ∃ s accessToken, run (step signed) start issuance = some s ∧
    loadAccessToken signed (fun _ => none) s "access" 3000000 = some accessToken ∧
    Granted signed issuance accessToken.subject accessToken.scopes := by
  have hload : ((run (step signed) start issuance).bind fun s =>
      loadAccessToken signed (fun _ => none) s "access" 3000000).isSome = true := by decide
  obtain ⟨accessToken, hload⟩ := Option.isSome_iff_exists.mp hload
  obtain ⟨s, hs, hload⟩ := Option.bind_eq_some_iff.mp hload
  refine ⟨s, accessToken, hs, hload, ?_⟩
  have hsdk : ∀ granted asked, signed.admitsScopes granted asked = true → asked ⊆ granted := by
    intro granted asked h scope hscope
    simpa using List.all_eq_true.mp h scope hscope
  rcases access_granted hsdk hs hload with ⟨hgranted, -⟩ | ⟨_, _, hlegacy, -⟩
  · exact hgranted
  · cases hlegacy

end Empyralis.Server.OAuth
