import Empyralis.Lib.Baton
import Empyralis.Server.OAuthSteps

/-! A grant is in one place at a time: an authorization code, a call that makes tokens for it, or a refresh token. -/

namespace Empyralis.Server.OAuth
open Lib Run

/-- Where a grant may be. -/
inductive Place where
  | code
  | call (i : Nat)
  | token (hash : String)
  deriving DecidableEq

/-- A grant is in its code until that is consumed, then in the call that stores the tokens for it, then in a refresh
    token until that is revoked. -/
def Holds (s : State) (grant : String) : Place → Prop
  | .code => ∃ row, s.codes.get? grant = some row ∧ row.consumedAt = none
  | .call i => ∃ kind m, s.calls[i]? = some (.storing kind m) ∧ m.grant = grant
  | .token hash => ∃ row, (s.tokens .refresh).get? hash = some row ∧ row.revokedAt = none ∧ row.grant = grant

/-- The pair that a call has taken a credential for. -/
def Stage.mint? : Stage → Option Mint
  | .storing _ m => some m
  | .issued m => some m
  | .integrityError m => some m
  | _ => none

def Redeems (s : State) (credential : Credential) (i : Nat) : Prop :=
  ∃ stage m, s.calls[i]? = some stage ∧ stage.mint? = some m ∧ m.redeemed = credential

def Spent (s : State) : Credential → Prop
  | .code hash => ∃ row x, s.codes.get? hash = some row ∧ row.consumedAt = some x
  | .refresh hash => ∃ row x, (s.tokens .refresh).get? hash = some row ∧ row.revokedAt = some x

variable {c : Config} {s t : State} {a : Label} {grant : String} {p : Place} {i j : Nat} {stage old : Stage}
  {credential : Credential}

theorem holds_setCall (hcall : s.calls[i]? = some old) (h : Holds (s.setCall i stage) grant p) :
    (p = .call i ∧ ∃ kind m, stage = .storing kind m ∧ m.grant = grant) ∨ (p ≠ .call i ∧ Holds s grant p) := by
  cases p with
  | code => exact .inr ⟨Place.noConfusion, h⟩
  | token hash => exact .inr ⟨Place.noConfusion, h⟩
  | call j =>
    obtain ⟨kind, m, hj, hm⟩ := h
    rw [getElem?_setCall hcall] at hj
    split at hj
    · rename_i heq
      subst heq
      exact .inl ⟨rfl, kind, m, Option.some.inj hj, hm⟩
    · rename_i hne
      exact .inr ⟨fun heq => hne (Place.call.inj heq), kind, m, hj, hm⟩

/-- A call that goes on without storing tokens holds no grant. -/
theorem holds_of_setCall (hcall : s.calls[i]? = some old) (hstage : ∀ kind m, stage ≠ .storing kind m)
    (h : Holds (s.setCall i stage) grant p) : Holds s grant p := by
  rcases holds_setCall hcall h with ⟨-, kind, m, rfl, -⟩ | ⟨-, h⟩
  · exact absurd rfl (hstage kind m)
  · exact h

theorem holds_of_addCall (hstage : ∀ kind m, stage ≠ .storing kind m) (h : Holds (s.addCall stage) grant p) :
    Holds s grant p := by
  cases p with
  | code => exact h
  | token hash => exact h
  | call j =>
    obtain ⟨kind, m, hj, hm⟩ := h
    rcases getElem?_addCall hj with hj | rfl
    · exact ⟨kind, m, hj, hm⟩
    · exact absurd rfl (hstage kind m)

theorem holds_put_code {hash : String} {row : CodeRow} (h : Holds { s with codes := s.codes.put hash row } grant p) :
    (grant = hash ∧ p = .code ∧ row.consumedAt = none) ∨ (Holds s grant p ∧ ¬(grant = hash ∧ p = .code)) := by
  cases p with
  | call j => exact .inr ⟨h, fun heq => Place.noConfusion heq.2⟩
  | token hash => exact .inr ⟨h, fun heq => Place.noConfusion heq.2⟩
  | code =>
    obtain ⟨found, hfound, hlive⟩ := h
    rw [Table.get?_put] at hfound
    split at hfound
    · cases hfound
      exact .inl ⟨by assumption, rfl, hlive⟩
    · rename_i hne
      exact .inr ⟨⟨found, hfound, hlive⟩, fun heq => hne heq.1⟩

theorem holds_put_token {hash : String} {row : TokenRow}
    (h : Holds (s.setTokens .refresh ((s.tokens .refresh).put hash row)) grant p) :
    (p = .token hash ∧ row.revokedAt = none ∧ row.grant = grant) ∨ (p ≠ .token hash ∧ Holds s grant p) := by
  cases p with
  | code => exact .inr ⟨Place.noConfusion, h⟩
  | call j => exact .inr ⟨Place.noConfusion, h⟩
  | token other =>
    obtain ⟨found, hfound, hlive⟩ := h
    simp only [State.setTokens, Function.update_self, Table.get?_put] at hfound
    split at hfound
    · rename_i heq
      cases hfound
      exact .inl ⟨by rw [heq], hlive⟩
    · rename_i hne
      exact .inr ⟨fun heq => hne (Place.token.inj heq), found, hfound, hlive⟩

theorem holds_setTokens_access {table : Table String TokenRow} :
    Holds (s.setTokens .access table) grant p ↔ Holds s grant p := by
  cases p with
  | code => exact Iff.rfl
  | call j => exact Iff.rfl
  | token hash =>
    simp only [Holds, State.setTokens]
    rw [Function.update_of_ne Kind.noConfusion]

/-- A row that is revoked holds nothing more. -/
theorem holds_of_revoke {kind : Kind} {hash : String} {row : TokenRow} {x : Int}
    (h : Holds (s.setTokens kind ((s.tokens kind).put hash { row with revokedAt := some x })) grant p) :
    Holds s grant p := by
  cases kind with
  | access => exact holds_setTokens_access.mp h
  | refresh =>
    rcases holds_put_token h with ⟨-, hlive, -⟩ | ⟨-, h⟩
    · cases hlive
    · exact h

theorem holds_of_revokeRow {kind : Kind} {hash : String} {now : Int}
    (h : Holds (s.setTokens kind (revokeRow s kind hash now).2) grant p) : Holds s grant p := by
  cases hrevoke : revokeRow s kind hash now with
  | mk found table =>
    rw [hrevoke] at h
    cases found with
    | some row =>
      obtain ⟨old, -, -, rfl, rfl⟩ := revokeRow_some hrevoke
      exact holds_of_revoke h
    | none =>
      simp only [revokeRow, Sql.update] at hrevoke
      split at hrevoke
      · cases hrevoke
      · cases hrevoke
        simpa only [State.setTokens, Function.update_eq_self] using h

/-- A step leaves each grant where it is or drops it, or moves one on, or is a consent. -/
theorem effect_moves (h : Effect c s a t) :
    (∀ grant p, Holds t grant p → Holds s grant p) ∨
    (∃ k from_ to_, Holds s k from_ ∧
      ∀ grant p, Holds t grant p → (grant = k ∧ p = to_) ∨ (Holds s grant p ∧ ¬(grant = k ∧ p = from_))) ∨
    ∃ k to_, s.codes.get? k = none ∧ (∃ row, t.codes.get? k = some row) ∧
      ∀ grant p, Holds t grant p → (grant = k ∧ p = to_) ∨ Holds s grant p := by
  cases h with
  | same => exact .inl fun _ _ h => h
  | registered =>
    refine .inl fun grant p h => ?_
    cases p <;> exact h
  | consented hlabel hallows hclient hnew =>
    refine .inr (.inr ⟨_, .code, hnew, ⟨_, by rw [Table.get?_put, if_pos rfl]⟩, fun grant p h => ?_⟩)
    rcases holds_put_code h with ⟨rfl, rfl, -⟩ | ⟨h, -⟩
    · exact .inl ⟨rfl, rfl⟩
    · exact .inr h
  | loadedCode => exact .inl fun _ _ => holds_of_addCall fun _ _ => Stage.noConfusion
  | loadedRefresh => exact .inl fun _ _ => holds_of_addCall fun _ _ => Stage.noConfusion
  | refused hcall => exact .inl fun _ _ => holds_of_setCall hcall fun _ _ => Stage.noConfusion
  | @redeemedCode i clientId loaded row m now hcall hrow hlive hsubject hscopes hredeemed hgrant =>
    refine .inr (.inl ⟨c.hashToken loaded.code, .code, .call i, ⟨row, hrow, hlive⟩, fun grant p h => ?_⟩)
    rcases holds_setCall (by exact hcall) h with ⟨rfl, kind, m', hstage, rfl⟩ | ⟨-, h⟩
    · cases hstage
      exact .inl ⟨hgrant, rfl⟩
    · rcases holds_put_code h with ⟨-, -, hnone⟩ | h
      · cases hnone
      · exact .inr h
  | @redeemedRefresh i clientId loaded row m now scopes hcall hrow hlive hadmits hsubject hscopes hredeemed hgrant =>
    refine .inr (.inl ⟨row.grant, .token (c.hashToken loaded.token), .call i, ⟨row, hrow, hlive, rfl⟩,
      fun grant p h => ?_⟩)
    rcases holds_setCall (by exact hcall) h with ⟨rfl, kind, m', hstage, rfl⟩ | ⟨-, h⟩
    · cases hstage
      exact .inl ⟨hgrant, rfl⟩
    · rcases holds_put_token h with ⟨-, hnone, -⟩ | ⟨hne, h⟩
      · cases hnone
      · exact .inr ⟨h, fun heq => hne heq.2⟩
  | collided hcall => exact .inl fun _ _ => holds_of_setCall hcall fun _ _ => Stage.noConfusion
  | storedAccess hcall hnew =>
    refine .inl fun grant p h => ?_
    rcases holds_setCall (by exact hcall) h with ⟨rfl, kind, m', hstage, rfl⟩ | ⟨-, h⟩
    · cases hstage
      exact ⟨_, _, hcall, rfl⟩
    · exact holds_setTokens_access.mp h
  | @storedRefresh i m now hcall hnew =>
    refine .inr (.inl ⟨m.grant, .call i, .token (c.hashToken m.refreshToken), ⟨_, _, hcall, rfl⟩, fun grant p h => ?_⟩)
    rcases holds_setCall (by exact hcall) h with ⟨-, kind, m', hstage, -⟩ | ⟨hne, h⟩
    · cases hstage
    · rcases holds_put_token h with ⟨rfl, -, rfl⟩ | ⟨-, h⟩
      · exact .inl ⟨rfl, rfl⟩
      · exact .inr ⟨h, fun heq => hne heq.2⟩
  | missed => exact .inl fun _ _ => holds_of_addCall fun _ _ => Stage.noConfusion
  | revoked hrow hlive hstage =>
    refine .inl fun _ _ h => holds_of_revoke (holds_of_addCall (fun kind m heq => ?_) h)
    rcases hstage with rfl | ⟨_, _, rfl⟩ <;> cases heq
  | revokedPair hcall =>
    exact .inl fun _ _ h => holds_of_revokeRow (holds_of_setCall (by exact hcall) (fun _ _ => Stage.noConfusion) h)

theorem redeems_setCall (hcall : s.calls[i]? = some old) (h : Redeems (s.setCall i stage) credential j) :
    (j = i ∧ ∃ m, stage.mint? = some m ∧ m.redeemed = credential) ∨ (j ≠ i ∧ Redeems s credential j) := by
  obtain ⟨found, m, hj, hm, hcred⟩ := h
  rw [getElem?_setCall hcall] at hj
  split at hj
  · cases hj
    exact .inl ⟨by assumption, m, hm, hcred⟩
  · exact .inr ⟨by assumption, found, m, hj, hm, hcred⟩

/-- A call that goes on without a pair redeems nothing. -/
theorem redeems_of_setCall (hcall : s.calls[i]? = some old) (hstage : stage.mint? = none)
    (h : Redeems (s.setCall i stage) credential j) : Redeems s credential j := by
  rcases redeems_setCall hcall h with ⟨rfl, m, hm, -⟩ | ⟨-, h⟩
  · rw [hstage] at hm
    cases hm
  · exact h

/-- A call that goes on with its pair redeems nothing new. -/
theorem redeems_of_storing {kind : Kind} {m : Mint} (hcall : s.calls[i]? = some (.storing kind m))
    (hstage : stage.mint? = some m) (h : Redeems (s.setCall i stage) credential j) : Redeems s credential j := by
  rcases redeems_setCall hcall h with ⟨rfl, m', hm, hcred⟩ | ⟨-, h⟩
  · exact ⟨_, m', hcall, hstage.symm.trans hm, hcred⟩
  · exact h

theorem redeems_of_addCall (hstage : stage.mint? = none) (h : Redeems (s.addCall stage) credential j) :
    Redeems s credential j := by
  obtain ⟨found, m, hj, hm, hcred⟩ := h
  rcases getElem?_addCall hj with hj | rfl
  · exact ⟨found, m, hj, hm, hcred⟩
  · rw [hstage] at hm
    cases hm

theorem spent_keeps (hk : s.Keeps t) (h : Spent s credential) : Spent t credential := by
  cases credential with
  | code hash =>
    obtain ⟨row, x, hrow, hx⟩ := h
    obtain ⟨new, hnew, honce⟩ := hk.codes hash row hrow
    obtain rfl := honce.get_eq hx
    exact ⟨new, x, hnew, hx⟩
  | refresh hash =>
    obtain ⟨row, x, hrow, hx⟩ := h
    obtain ⟨new, hnew, honce⟩ := hk.tokens .refresh hash row hrow
    obtain rfl := honce.get_eq hx
    exact ⟨new, x, hnew, hx⟩

/-- A step redeems one credential that was not spent, and spends it, or none. -/
theorem effect_redeems (h : Effect c s a t) :
    (∀ credential j, Redeems t credential j → Redeems s credential j) ∨
    ∃ credential i, ¬Spent s credential ∧ Spent t credential ∧
      ∀ other j, Redeems t other j → (other = credential ∧ j = i) ∨ Redeems s other j := by
  cases h with
  | same => exact .inl fun _ _ h => h
  | registered => exact .inl fun _ _ h => h
  | consented => exact .inl fun _ _ h => h
  | loadedCode => exact .inl fun _ _ => redeems_of_addCall rfl
  | loadedRefresh => exact .inl fun _ _ => redeems_of_addCall rfl
  | refused hcall => exact .inl fun _ _ => redeems_of_setCall hcall rfl
  | @redeemedCode i clientId loaded row m now hcall hrow hlive hsubject hscopes hredeemed hgrant =>
    refine .inr ⟨.code (c.hashToken loaded.code), i, ?_,
      ⟨_, now, by exact Table.get?_put .. |>.trans (if_pos rfl), rfl⟩, ?_⟩
    · rintro ⟨found, x, hfound, hx⟩
      obtain rfl := Option.some.inj (hrow.symm.trans hfound)
      rw [hlive] at hx
      cases hx
    · intro other j h
      rcases redeems_setCall (by exact hcall) h with ⟨rfl, m', hm, rfl⟩ | ⟨-, h⟩
      · cases hm
        exact .inl ⟨hredeemed, rfl⟩
      · exact .inr h
  | @redeemedRefresh i clientId loaded row m now scopes hcall hrow hlive hadmits hsubject hscopes hredeemed hgrant =>
    refine .inr ⟨.refresh (c.hashToken loaded.token), i, ?_, ⟨{ row with revokedAt := some now }, now, ?_, rfl⟩, ?_⟩
    · rintro ⟨found, x, hfound, hx⟩
      obtain rfl := Option.some.inj (hrow.symm.trans hfound)
      rw [hlive] at hx
      cases hx
    · simp only [State.setCall, State.setTokens, Function.update_self, Table.get?_put, if_true]
    · intro other j h
      rcases redeems_setCall (by exact hcall) h with ⟨rfl, m', hm, rfl⟩ | ⟨-, h⟩
      · cases hm
        exact .inl ⟨hredeemed, rfl⟩
      · exact .inr h
  | collided hcall => exact .inl fun _ _ => redeems_of_storing hcall rfl
  | storedAccess hcall => exact .inl fun _ _ => redeems_of_storing (by exact hcall) rfl
  | storedRefresh hcall => exact .inl fun _ _ => redeems_of_storing (by exact hcall) rfl
  | missed => exact .inl fun _ _ => redeems_of_addCall rfl
  | revoked hrow hlive hstage =>
    refine .inl fun _ _ => redeems_of_addCall ?_
    rcases hstage with rfl | ⟨_, _, rfl⟩ <;> rfl
  | revokedPair hcall => exact .inl fun _ _ => redeems_of_setCall (by exact hcall) rfl

/-- Each grant is a code that was stored and is in one place; each credential that a call has redeemed is spent, and by
    that call alone. -/
structure Single (s : State) : Prop where
  known : ∀ grant p, Holds s grant p → ∃ row, s.codes.get? grant = some row
  grants : Exclusive (Holds s)
  spent : ∀ credential i, Redeems s credential i → Spent s credential
  redeemed : Exclusive (Redeems s)

theorem single_start : Single start := by
  refine ⟨?_, ?_, ?_, ?_⟩
  · rintro grant p h
    cases p with
    | code =>
      obtain ⟨row, hrow, -⟩ := h
      exact ⟨row, hrow⟩
    | call i =>
      obtain ⟨kind, m, hi, -⟩ := h
      cases hi
    | token hash =>
      obtain ⟨row, hrow, -⟩ := h
      cases hrow
  · rintro grant p q h
    cases p with
    | code =>
      obtain ⟨row, hrow, -⟩ := h
      cases hrow
    | call i =>
      obtain ⟨kind, m, hi, -⟩ := h
      cases hi
    | token hash =>
      obtain ⟨row, hrow, -⟩ := h
      cases hrow
  · rintro credential i ⟨stage, m, hi, -⟩
    cases hi
  · rintro credential i j ⟨stage, m, hi, -⟩
    cases hi

theorem known_keeps (hk : s.Keeps t) (h : ∃ row, s.codes.get? grant = some row) :
    ∃ row, t.codes.get? grant = some row := by
  obtain ⟨row, hrow⟩ := h
  obtain ⟨new, hnew, -⟩ := hk.codes grant row hrow
  exact ⟨new, hnew⟩

/-- One step leaves every grant in one place, and every credential with the call that redeemed it. -/
theorem single_step (hs : Single s) (h : Effect c s a t) : Single t := by
  have hk := effect_keeps h
  refine ⟨?_, ?_, ?_, ?_⟩
  · intro grant p hp
    rcases effect_moves h with hsub | ⟨k, from_, to_, hfrom, hnext⟩ | ⟨k, to_, -, hstored, hnext⟩
    · exact known_keeps hk (hs.known grant p (hsub grant p hp))
    · rcases hnext grant p hp with ⟨rfl, -⟩ | ⟨hp, -⟩
      · exact known_keeps hk (hs.known grant from_ hfrom)
      · exact known_keeps hk (hs.known grant p hp)
    · rcases hnext grant p hp with ⟨rfl, -⟩ | hp
      · exact hstored
      · exact known_keeps hk (hs.known grant p hp)
  · rcases effect_moves h with hsub | ⟨k, from_, to_, hfrom, hnext⟩ | ⟨k, to_, hnew, -, hnext⟩
    · exact hs.grants.mono hsub
    · exact hs.grants.pass hfrom hnext
    · refine hs.grants.create (fun p hp => ?_) hnext
      obtain ⟨row, hrow⟩ := hs.known k p hp
      rw [hnew] at hrow
      cases hrow
  · intro credential j hj
    rcases effect_redeems h with hsub | ⟨k, i, -, hspent, hnext⟩
    · exact spent_keeps hk (hs.spent credential j (hsub credential j hj))
    · rcases hnext credential j hj with ⟨rfl, -⟩ | hj
      · exact hspent
      · exact spent_keeps hk (hs.spent credential j hj)
  · rcases effect_redeems h with hsub | ⟨k, i, hunspent, -, hnext⟩
    · exact hs.redeemed.mono hsub
    · exact hs.redeemed.create (fun j hj => hunspent (hs.spent k j hj)) hnext

theorem run_single {as : List Label} (hrun : run (step c) start as = some s) : Single s :=
  run_inv_all (fun _ _ _ hi hstep => single_step hi (step_effect hstep)) single_start hrun

/-- However the calls are interleaved and wherever they stop: of each grant there is one code that can be redeemed, or
    one call that stores its tokens, or one refresh token that can be redeemed, and never two of these; and no two
    calls have redeemed the same code or the same refresh token. -/
theorem grant_single {as : List Label} (hrun : run (step c) start as = some s) :
    Exclusive (Holds s) ∧ Exclusive (Redeems s) :=
  ⟨(run_single hrun).grants, (run_single hrun).redeemed⟩

theorem grant_single_issued : ∃ s, run (step signed) start issuance = some s ∧
    Exclusive (Holds s) ∧ Exclusive (Redeems s) := by
  have hsome : (run (step signed) start issuance).isSome = true := by decide
  obtain ⟨s, hs⟩ := Option.isSome_iff_exists.mp hsome
  exact ⟨s, hs, grant_single hs⟩

end Empyralis.Server.OAuth
