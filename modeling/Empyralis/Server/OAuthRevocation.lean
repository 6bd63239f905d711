import Empyralis.Server.OAuthSteps

/-! A revocation is final: once it has ended, neither token of its pair is good for anything. -/

namespace Empyralis.Server.OAuth
open Run

/-- One token of a pair has its row, which names the other one. -/
def Linked (c : Config) (s : State) (m : Mint) (kind : Kind) : Prop :=
  ∃ row, (s.tokens kind).get? (c.hashToken (m.token kind)) = some row ∧
    row.pairHash = some (c.hashToken (m.token kind.other))

/-- The tokens that a call has stored are linked. -/
def Stage.Stored (c : Config) (s : State) : Stage → Prop
  | .storing .refresh m => Linked c s m .access
  | .issued m => ∀ kind, Linked c s m kind
  | _ => True

def Revoked (s : State) (kind : Kind) (hash : String) : Prop :=
  ∃ row x, (s.tokens kind).get? hash = some row ∧ row.revokedAt = some x

variable {c : Config} {s t : State} {a : Label} {as : List Label} {i j : Nat} {stage : Stage} {m : Mint} {kind : Kind}
  {hash : String}

theorem linked_keeps (hk : s.Keeps t) (h : Linked c s m kind) : Linked c t m kind := by
  obtain ⟨row, hrow, hpair⟩ := h
  obtain ⟨new, hnew, rfl | ⟨-, x, rfl⟩⟩ := hk.tokens kind _ row hrow
  · exact ⟨new, hnew, hpair⟩
  · exact ⟨_, hnew, hpair⟩

theorem stored_keeps (hk : s.Keeps t) (h : stage.Stored c s) : stage.Stored c t := by
  cases stage with
  | storing kind m =>
    cases kind with
    | access => exact trivial
    | refresh => exact linked_keeps hk h
  | issued m => exact fun kind => linked_keeps hk (h kind)
  | code clientId loaded => exact trivial
  | refresh clientId loaded => exact trivial
  | revoking kind hash => exact trivial
  | returned => exact trivial
  | tokenError error description => exact trivial
  | integrityError m => exact trivial

/-- One step leaves what the calls have stored in the tables. -/
theorem stored_step (hs : ∀ st ∈ s.calls, st.Stored c s) (h : Effect c s a t) : ∀ st ∈ t.calls, st.Stored c t := by
  have hcalls : ∀ st ∈ s.calls, st.Stored c t := fun st hst => stored_keeps (effect_keeps h) (hs st hst)
  cases h with
  | same => exact hs
  | registered => exact hcalls
  | consented => exact hcalls
  | loadedCode => exact forall_addCall hcalls trivial
  | loadedRefresh => exact forall_addCall hcalls trivial
  | refused => exact forall_setCall hcalls trivial
  | redeemedCode => exact forall_setCall hcalls trivial
  | redeemedRefresh => exact forall_setCall hcalls trivial
  | collided => exact forall_setCall hcalls trivial
  | @storedAccess i m now hcall hnew =>
    refine forall_setCall hcalls ⟨m.row c now .access, ?_, rfl⟩
    simp only [State.setCall, State.setTokens, Function.update_self, Table.get?_put, Mint.token, if_true]
  | @storedRefresh i m now hcall hnew =>
    have hother := hcalls _ (List.mem_of_getElem? hcall)
    refine forall_setCall hcalls fun kind => ?_
    cases kind with
    | access => exact hother
    | refresh =>
      refine ⟨m.row c now .refresh, ?_, rfl⟩
      simp only [State.setCall, State.setTokens, Function.update_self, Table.get?_put, Mint.token, if_true]
  | missed => exact forall_addCall hcalls trivial
  | revoked hrow hlive hstage =>
    refine forall_addCall hcalls ?_
    rcases hstage with rfl | ⟨_, _, rfl⟩ <;> exact trivial
  | revokedPair => exact forall_setCall hcalls trivial

end Empyralis.Server.OAuth
