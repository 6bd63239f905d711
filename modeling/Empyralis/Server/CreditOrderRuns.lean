import Empyralis.Server.CreditOrders
import Empyralis.Server.SettingsUpdates
import Mathlib.Algebra.BigOperators.Group.Finset.Basic

/-! Runs of deliveries and debits: when the balance is the starting balance with each order added once
    and each reported debit taken off. -/

namespace Empyralis.Server.Workspaces

/-! ### What every record of the workspace has -/

variable (P : Fields → Prop)

def Get.Holds : Get → Prop
  | .put row => P row.metadata
  | _ => True

def Stage.Holds : Stage → Prop
  | .reading get => get.Holds P
  | .selecting base => P base.metadata
  | .updating base _ => P base.metadata
  | .answering get => get.Holds P
  | _ => True

/-- The row is there, and has `P` with every entry of a cache. -/
structure Store.Holds (s : Store) : Prop where
  row : ∃ row, s.row = some row ∧ P row.metadata
  caches : ∀ process cached, s.caches process = some cached → P cached.value.metadata

variable {P} {env : Env} {s t : Store} {process : Nat}

theorem Store.Holds.setCache (h : s.Holds P) {entry : Option Cached}
    (hentry : ∀ cached, entry = some cached → P cached.value.metadata) : (s.setCache process entry).Holds P where
  row := h.row
  caches := by
    intro q cached hq
    simp only [Store.setCache] at hq
    split at hq
    · exact hentry cached hq
    · exact h.caches q cached hq

/-- A read leaves the row alone, and comes to a record. -/
theorem getWorkspaceById_cases (env : Env) (process : Nat) (hs : s.Holds P) {get : Get} (hget : get.Holds P) :
    ∃ store : Store, store.row = s.row ∧ store.Holds P ∧
      ((∃ next, getWorkspaceById env s process get = (store, .going next) ∧ next.Holds P) ∨
        ∃ record, getWorkspaceById env s process get = (store, .got (some record)) ∧ P record.metadata) := by
  obtain ⟨row, hrow, hp⟩ := hs.row
  cases get with
  | look =>
    unfold getWorkspaceById workspaceLookupCacheGet
    cases hentry : s.caches process with
    | none => exact ⟨s, rfl, hs, .inl ⟨.select, rfl, trivial⟩⟩
    | some cached =>
      by_cases hold : cached.expiresAt ≤ s.now
      · simp only [hold, if_true]
        exact ⟨s.setCache process none, rfl, hs.setCache (by simp), .inl ⟨.select, rfl, trivial⟩⟩
      · simp only [hold, if_false]
        exact ⟨s, rfl, hs, .inr ⟨cached.value, rfl, hs.caches process cached hentry⟩⟩
  | select => exact ⟨s, rfl, hs, .inl ⟨.put row, by simp only [getWorkspaceById, hrow], hp⟩⟩
  | put record =>
    refine ⟨workspaceLookupCachePut env s process record, rfl, hs.setCache ?_, .inr ⟨record, rfl, hget⟩⟩
    intro cached hcached
    obtain rfl : (⟨s.now + env.ttl, record⟩ : Cached) = cached := by simpa using hcached
    exact hget

/-- The call has made its `UPDATE`. -/
def Stage.past : Stage → Prop
  | .dropping | .answering _ | .ended _ => True
  | _ => False

/-- The step of an update: its `UPDATE`, or one that leaves the row alone and does not pass it. -/
theorem updateStep_holds (hs : s.Holds P) {u v : Update} (hu : u.stage.Holds P)
    (hwrites : ∀ base : Workspace, P base.metadata → P (nextMetadata u.part u.payload base))
    (h : u.step env s process = some (t, v)) :
    t.Holds P ∧ v.stage.Holds P ∧ v.part = u.part ∧ v.payload = u.payload ∧
      ((t.row = s.row ∧ (v.stage.past → u.stage.past) ∧ ∀ base existing, u.stage ≠ .updating base existing) ∨
        ∃ base existing, u.stage = .updating base existing ∧
          t = updateWorkspaceProfile env s base existing (nextMetadata u.part u.payload base)) := by
  obtain ⟨row, hrow, hp⟩ := hs.row
  obtain ⟨part, payload, stage⟩ := u
  cases stage with
  | reading get =>
    obtain ⟨store, hsame, ht, ⟨next, heq, hnext⟩ | ⟨record, heq, hrecord⟩⟩ := getWorkspaceById_cases env process hs hu
    · simp only [Update.step, heq] at h
      cases h
      exact ⟨ht, hnext, rfl, rfl, .inl ⟨hsame, fun hpast => hpast.elim, fun _ _ h => by cases h⟩⟩
    · simp only [Update.step, heq] at h
      cases h
      exact ⟨ht, hrecord, rfl, rfl, .inl ⟨hsame, fun hpast => hpast.elim, fun _ _ h => by cases h⟩⟩
  | selecting base =>
    simp only [Update.step, hrow] at h
    split at h
    · cases h
      exact ⟨hs, hu, rfl, rfl, .inl ⟨rfl, fun hpast => hpast.elim, fun _ _ h => by cases h⟩⟩
    · cases h
      exact ⟨hs, trivial, rfl, rfl, .inl ⟨rfl, fun hpast => hpast.elim, fun _ _ h => by cases h⟩⟩
  | updating base existing =>
    cases h
    refine ⟨⟨?_, hs.caches⟩, trivial, rfl, rfl, .inr ⟨base, existing, rfl, rfl⟩⟩
    refine ⟨{ row with
      name := updatedName env base existing
      workspaceType := updatedType env base existing
      metadata := nextMetadata part payload base }, ?_, hwrites base hu⟩
    simp only [updateWorkspaceProfile, hrow, Option.map_some]
  | dropping =>
    cases h
    exact ⟨hs.setCache (by simp), trivial, rfl, rfl, .inl ⟨rfl, fun _ => trivial, fun _ _ h => by cases h⟩⟩
  | answering get =>
    obtain ⟨store, hsame, ht, ⟨next, heq, hnext⟩ | ⟨record, heq, hrecord⟩⟩ := getWorkspaceById_cases env process hs hu
    · simp only [Update.step, heq] at h
      cases h
      exact ⟨ht, hnext, rfl, rfl, .inl ⟨hsame, fun _ => trivial, fun _ _ h => by cases h⟩⟩
    · simp only [Update.step, heq] at h
      cases h
      exact ⟨ht, trivial, rfl, rfl, .inl ⟨hsame, fun _ => trivial, fun _ _ h => by cases h⟩⟩
  | ended result => cases h
  | blocked => cases h

end Empyralis.Server.Workspaces

namespace Empyralis.Server.CreditOrders
open Credits (coerceDict balanceKey balanceIn workspaceAdminDefaultsPayload workspaceCreditTransactions
  withBalance withWorkspaceAdminDefaultsPayload Turn Result balanceOf payloadOf wrappedOf transactionsOf recorded
  hasGrant)
open Text (strip)
open Workspaces (Workspace Store Get Update getWorkspaceById workspaceLookupCacheDrop nextMetadata
  updateWorkspaceProfile)

/-- No object stands under a key `payload` in a section, apart from the envelope of the admin defaults. -/
def PlainSection (section_ : Fields) : Prop := ∀ fields, ("payload", Value.object fields) ∉ section_

/-- The sections of the metadata hold no key twice. -/
structure Plain (metadata : Fields) : Prop where
  entitlements : PlainSection (coerceDict (metadata.get "entitlements"))
  billing : PlainSection (coerceDict (metadata.get "billing"))
  adminDefaults : PlainSection (payloadOf metadata)

theorem plainSection_put {fields : Fields} (h : PlainSection fields) {key : String} (hkey : key ≠ "payload")
    (value : Value) : PlainSection (fields.put key value) := by
  intro inner hmem
  obtain heq | hold := Fields.mem_put hmem
  · exact hkey (congrArg Prod.fst heq).symm
  · exact h inner hold

theorem plainSection_withBalance {fields : Fields} (h : PlainSection fields) (balance : Int)
    (transactions : List Fields) : PlainSection (withBalance fields balance transactions) :=
  plainSection_put (plainSection_put h (by decide) _) (by decide) _

theorem get_plain {fields : Fields} (h : PlainSection fields) (inner : Fields) :
    fields.get "payload" ≠ .object inner := by
  intro heq
  unfold Fields.get at heq
  cases hlookup : fields.lookup "payload" with
  | none => simp [hlookup] at heq
  | some value =>
    rw [hlookup, Option.getD_some] at heq
    subst heq
    obtain ⟨before, after, rfl, -⟩ := List.lookup_eq_some_iff.mp hlookup
    exact h inner (List.mem_append_right before List.mem_cons_self)

theorem plainSection_seen {metadata : Fields} (h : Plain metadata) :
    PlainSection (workspaceBillingMetadata metadata) := by
  intro inner hmem
  obtain hrest | hadmin := Fields.mem_merge hmem
  · obtain hentitlements | hbilling := Fields.mem_merge hrest
    · exact h.entitlements inner hentitlements
    · exact h.billing inner hbilling
  · exact h.adminDefaults inner hadmin

/-- A payload that is not an envelope, written unwrapped. -/
theorem payload_plain {metadata payload : Fields} (h : PlainSection payload) :
    workspaceAdminDefaultsPayload (withWorkspaceAdminDefaultsPayload metadata payload false) = (payload, false) := by
  have hplain : ∀ inner, payload.get "payload" ≠ .object inner := get_plain h
  simp only [workspaceAdminDefaultsPayload, withWorkspaceAdminDefaultsPayload, Fields.get_put, if_true, coerceDict,
    Bool.false_eq_true, if_false]

theorem plain_written {metadata payload : Fields} {wrapped : Bool} (h : Plain metadata)
    (hread : payloadOf (withWorkspaceAdminDefaultsPayload metadata payload wrapped) = payload)
    (hpayload : PlainSection payload) : Plain (withWorkspaceAdminDefaultsPayload metadata payload wrapped) where
  entitlements := by
    have hget : (withWorkspaceAdminDefaultsPayload metadata payload wrapped).get "entitlements" =
        metadata.get "entitlements" := by simp [withWorkspaceAdminDefaultsPayload]
    rw [hget]
    exact h.entitlements
  billing := by
    rw [Credits.billing_written]
    exact h.billing
  adminDefaults := by
    rw [hread]
    exact hpayload

/-- The admin defaults that a paid order writes are read back as it has written them. -/
theorem credited_read (amountUsd : Int) (entry : Fields) {seen base : Fields} (hseen : Plain seen)
    (hbase : Plain base) :
    Plain (base.put "admin_defaults" (.object (creditedSection amountUsd entry seen))) ∧
      payloadOf (base.put "admin_defaults" (.object (creditedSection amountUsd entry seen))) =
        creditedSection amountUsd entry seen := by
  have hwith : base.put "admin_defaults" (.object (creditedSection amountUsd entry seen)) =
      withWorkspaceAdminDefaultsPayload base (creditedSection amountUsd entry seen) false := by
    simp [withWorkspaceAdminDefaultsPayload]
  have hsection : PlainSection (creditedSection amountUsd entry seen) :=
    plainSection_withBalance (plainSection_seen hseen) _ _
  have hpayload : payloadOf (withWorkspaceAdminDefaultsPayload base (creditedSection amountUsd entry seen) false) =
      creditedSection amountUsd entry seen := by rw [payloadOf, payload_plain hsection]
  rw [hwith]
  exact ⟨plain_written hbase hpayload hsection, hpayload⟩

/-- A paid order leaves the balance that it has read, and its amount. -/
theorem credited_written (env : Env) (order : String) {seen base : Fields} (hseen : Plain seen) (hbase : Plain base) :
    Plain (base.put "admin_defaults" (.object (creditedDefaults env order seen))) ∧
      balanceOf (base.put "admin_defaults" (.object (creditedDefaults env order seen))) =
        balanceIn (workspaceBillingMetadata seen) + env.amountUsd order := by
  obtain ⟨hplain, hpayload⟩ := credited_read (env.amountUsd order)
    (purchase (env.amountUsd order) env.creditsPerUsd env.createdAt (.string order)) hseen hbase
  refine ⟨hplain, ?_⟩
  rw [balanceOf, creditedDefaults, hpayload]
  refine Credits.currentBalance_stored (Credits.lookup_withBalance _ _ _) ?_
  have hbefore : 0 ≤ balanceIn (workspaceBillingMetadata seen) := Credits.balanceIn_nonneg _
  have hpaid : 0 < env.amountUsd order := env.paid order
  omega

/-- A debit that the balance covers without the allowance, or that has been recorded before. -/
def Covered (texts : Credits.Env) (metadata : Fields) (turn : Turn) : Prop :=
  recorded texts (transactionsOf metadata) turn.requestId.text = true ∨
    hasGrant texts (transactionsOf metadata) = true ∨ max 0 turn.floorUsd ≤ balanceOf metadata

/-- A debit takes off what it reports, and nothing else moves unless it grants the allowance. -/
theorem debited_written (texts : Credits.Env) {metadata : Fields} (turn : Turn) (hplain : Plain metadata) :
    Plain (Credits.buildWorkspaceCreditTurnDebitResult texts metadata turn).1 ∧
      (Covered texts metadata turn → balanceOf (Credits.buildWorkspaceCreditTurnDebitResult texts metadata turn).1 =
        balanceOf metadata - (Credits.buildWorkspaceCreditTurnDebitResult texts metadata turn).2.debitedUsd) := by
  cases hold : recorded texts (transactionsOf metadata) turn.requestId.text with
  | true =>
    obtain ⟨hp, -, hb⟩ := Credits.balance_rewritten metadata
    rw [Credits.turn_recorded texts hold]
    refine ⟨plain_written hplain hp hplain.adminDefaults, fun _ => ?_⟩
    rw [hb, sub_zero]
  | false =>
    obtain ⟨granted, entries, balance, heq, hpos, hgranted, -, hbalance, hdebited⟩ := Credits.turn_written texts hold
    have hp : payloadOf (withWorkspaceAdminDefaultsPayload metadata
        (withBalance (payloadOf metadata) balance (transactionsOf metadata ++ granted ++ entries))
        (wrappedOf metadata)) =
        withBalance (payloadOf metadata) balance (transactionsOf metadata ++ granted ++ entries) :=
      congrArg Prod.fst (Credits.read_written metadata (Credits.payload_withBalance _ _ _))
    have hb : balanceOf (Credits.buildWorkspaceCreditTurnDebitResult texts metadata turn).1 = balance := by
      rw [heq, balanceOf, hp]
      exact Credits.currentBalance_stored (Credits.lookup_withBalance _ _ _) hpos
    constructor
    · rw [heq]
      exact plain_written hplain hp (plainSection_withBalance hplain.adminDefaults _ _)
    · intro hcovered
      have hnone : granted = [] := by
        rw [hgranted]
        obtain hrecorded | hgrant | hlow := hcovered
        · rw [hold] at hrecorded
          exact absurd hrecorded (by decide)
        · simp [Credits.backfill, hgrant]
        · have hnot : ¬ balanceOf metadata < max 0 turn.floorUsd := not_lt.mpr hlow
          simp only [Credits.backfill, hnot, decide_false, Bool.and_false, Bool.false_eq_true, if_false]
      rw [hb, hbalance, hdebited, hnone]
      simp only [List.map_nil, List.sum_nil]
      omega

/-! ### What the claim is about -/

/-- The orders of the deliveries. -/
def delivered (calls : List (Nat × Call)) : List String :=
  calls.filterMap fun
    | (_, .order d) => some d.order
    | (_, .debit _) => none

/-- The balance is the starting balance, each credited order once, less what the debits have reported. -/
def Balanced (env : Env) (start : Int) (s : State) : Prop :=
  ∀ row, s.store.row = some row →
    balanceOf row.metadata = start + (∑ order ∈ s.credited.toFinset, env.amountUsd order) - s.debited.sum

/-- The same of all orders that have been delivered. -/
def Settled (env : Env) (start : Int) (s : State) : Prop :=
  ∀ row, s.store.row = some row →
    balanceOf row.metadata = start + (∑ order ∈ (delivered s.calls).toFinset, env.amountUsd order) - s.debited.sum

def Call.Ended : Call → Prop
  | .order d => d.stage = .ended
  | .debit c => ∃ debitedUsd, c.stage = .ended debitedUsd

def Finished (s : State) : Prop := ∀ process call, (process, call) ∈ s.calls → call.Ended

/-- The `UPDATE` of an order is made while the balance is the one that it has read, or where the order
    has been credited before, the one that it is about to write. -/
def Delivery.Current (env : Env) (credited : List String) (d : Delivery) (row : Workspace) : Prop :=
  ∀ seen part payload base existing, d.stage = .updating seen ⟨part, payload, .updating base existing⟩ →
    if d.order ∈ credited then
      balanceIn (workspaceBillingMetadata seen) + env.amountUsd d.order = balanceOf row.metadata
    else balanceIn (workspaceBillingMetadata seen) = balanceOf row.metadata

def DebitCall.Covered (env : Env) (c : DebitCall) (row : Workspace) : Prop :=
  c.stage = .locking → strip row.tenantId = strip c.tenantId → CreditOrders.Covered env.texts row.metadata c.turn

/-- A step that adds an order once, or takes off what its debit reports. -/
def Sound (env : Env) (s : State) : Event → Prop
  | .move i => ∀ row, s.store.row = some row → ∀ process call, s.calls[i]? = some (process, call) →
      match call with
      | .order d => d.Current env s.credited row
      | .debit c => c.Covered env row
  | _ => True

/-! ### The steps -/

variable {env : Env} {s t : Store} {process : Nat}

/-- What a delivery holds is plain, and once it has passed its `UPDATE` its order is among the credited. -/
def Stage.Ok (env : Env) (credited : List String) (order : String) : Stage → Prop
  | .accounting _ get => get.Holds Plain
  | .reading get => get.Holds Plain
  | .updating seen update => Plain seen ∧ update.part = .adminDefaults ∧
      update.payload = creditedDefaults env order seen ∧ update.stage.Holds Plain ∧
        (update.stage.past → order ∈ credited)
  | .closing _ get => get.Holds Plain ∧ order ∈ credited
  | .ended => order ∈ credited
  | .failed => True

theorem Stage.Ok.mono {credited : List String} (more : List String) {order : String} {stage : Stage}
    (h : stage.Ok env credited order) : stage.Ok env (credited ++ more) order := by
  cases stage with
  | accounting left get => exact h
  | reading get => exact h
  | updating seen update =>
    obtain ⟨hseen, hpart, hpayload, hholds, hpast⟩ := h
    exact ⟨hseen, hpart, hpayload, hholds, fun hp => List.mem_append_left more (hpast hp)⟩
  | closing left get => exact ⟨h.1, List.mem_append_left more h.2⟩
  | ended => exact List.mem_append_left more h
  | failed => trivial

theorem plain_nil : Plain [] := ⟨nofun, nofun, nofun⟩

theorem update_ends {u : Update} (h : u.step env.toEnv s process = none) :
    u.stage = .blocked ∨ ∃ result, u.stage = .ended result := by
  obtain ⟨part, payload, stage⟩ := u
  cases stage with
  | ended result => exact .inr ⟨result, rfl⟩
  | blocked => exact .inl rfl
  | reading get =>
    simp only [Update.step] at h
    split at h <;> cases h
  | selecting base =>
    simp only [Update.step] at h
    split at h
    · cases h
    · split at h <;> cases h
  | updating base existing => cases h
  | dropping => cases h
  | answering get =>
    simp only [Update.step] at h
    split at h <;> cases h

/-- The step is the `UPDATE` that credits the order. -/
structure Crediting (env : Env) (s t : Store) (d : Delivery) (seen : Fields) (base existing : Workspace) : Prop where
  stage : d.stage = .updating seen ⟨.adminDefaults, creditedDefaults env d.order seen, .updating base existing⟩
  plain : Plain seen ∧ Plain base.metadata
  credits : d.credits s = [d.order]
  row : ∃ row, t.row = some row ∧
    row.metadata = base.metadata.put "admin_defaults" (.object (creditedDefaults env d.order seen))

/-- What a step of a delivery does to the row: nothing, or the one credit of its order. -/
theorem delivery_step (hs : s.Holds Plain) {credited : List String} {d e : Delivery}
    (hd : d.stage.Ok env credited d.order) (h : d.step env s process = some (t, e)) :
    t.Holds Plain ∧ e.order = d.order ∧ e.stage.Ok env (credited ++ d.credits s) d.order ∧
      ((t.row = s.row ∧ d.credits s = []) ∨ ∃ seen base existing, Crediting env s t d seen base existing) := by
  obtain ⟨order, stage⟩ := d
  cases stage with
  | accounting left get =>
    obtain ⟨store, hsame, ht, ⟨next, heq, hnext⟩ | ⟨record, heq, -⟩⟩ :=
      Workspaces.getWorkspaceById_cases env.toEnv process hs hd
    · simp only [Delivery.step, heq] at h
      cases h
      exact ⟨ht, rfl, hnext, .inl ⟨hsame, rfl⟩⟩
    · simp only [Delivery.step, heq] at h
      cases h
      refine ⟨ht, rfl, ?_, .inl ⟨hsame, rfl⟩⟩
      dsimp only
      split <;> trivial
  | reading get =>
    obtain ⟨store, hsame, ht, ⟨next, heq, hnext⟩ | ⟨record, heq, hrecord⟩⟩ :=
      Workspaces.getWorkspaceById_cases env.toEnv process hs hd
    · simp only [Delivery.step, heq] at h
      cases h
      exact ⟨ht, rfl, hnext, .inl ⟨hsame, rfl⟩⟩
    · simp only [Delivery.step, heq] at h
      cases h
      exact ⟨ht, rfl, ⟨hrecord, rfl, rfl, trivial, fun hpast => hpast.elim⟩, .inl ⟨hsame, rfl⟩⟩
  | updating seen update =>
    obtain ⟨part, payload, stage⟩ := update
    obtain ⟨hseen, hpart, hpayload, hholds, hpast⟩ := hd
    dsimp only at hpart hpayload hholds hpast
    subst hpart hpayload
    simp only [Delivery.step] at h
    cases hstep : Update.step env.toEnv s process ⟨.adminDefaults, creditedDefaults env order seen, stage⟩ with
    | none =>
      rw [hstep] at h
      obtain hblocked | ⟨result, hended⟩ := update_ends hstep
      · dsimp only at hblocked
        subst hblocked
        cases h
        exact ⟨hs, rfl, trivial, .inl ⟨rfl, rfl⟩⟩
      · dsimp only at hended
        subst hended
        cases h
        exact ⟨hs, rfl, ⟨trivial, List.mem_append_left [] (hpast trivial)⟩, .inl ⟨rfl, rfl⟩⟩
    | some next =>
      obtain ⟨store, update⟩ := next
      rw [hstep] at h
      cases h
      have hwrites : ∀ base : Workspace, Plain base.metadata →
          Plain (nextMetadata .adminDefaults (creditedDefaults env order seen) base) :=
        fun base hbase => (credited_written env order hseen hbase).1
      obtain ⟨ht, hnext, hpart, hpayload, ⟨hsame, hback, hnot⟩ | ⟨base, existing, hstage, hwrite⟩⟩ :=
        Workspaces.updateStep_holds hs hholds hwrites hstep
      · have hnone : Delivery.credits s ⟨order, .updating seen ⟨.adminDefaults, creditedDefaults env order seen, stage⟩⟩ =
            [] := by
          cases stage with
          | updating base existing => exact absurd rfl (hnot base existing)
          | _ => rfl
        refine ⟨ht, rfl, ⟨hseen, hpart, hpayload, hnext, fun hp => ?_⟩, .inl ⟨hsame, hnone⟩⟩
        exact List.mem_append_left _ (hpast (hback hp))
      · dsimp only at hstage
        subst hstage
        obtain ⟨row, hrow, -⟩ := hs.row
        have hcredits : Delivery.credits s
            ⟨order, .updating seen ⟨.adminDefaults, creditedDefaults env order seen, .updating base existing⟩⟩ =
              [order] := by simp only [Delivery.credits, hrow]
        refine ⟨ht, rfl, ⟨hseen, hpart, hpayload, hnext, fun _ => ?_⟩,
          .inr ⟨seen, base, existing, rfl, ⟨hseen, hholds⟩, hcredits, ?_⟩⟩
        · rw [hcredits]
          exact List.mem_append_right credited List.mem_cons_self
        · rw [hwrite]
          refine ⟨{ row with
            name := Workspaces.updatedName env.toEnv base existing
            workspaceType := Workspaces.updatedType env.toEnv base existing
            metadata := nextMetadata .adminDefaults (creditedDefaults env order seen) base }, ?_, rfl⟩
          simp only [updateWorkspaceProfile, hrow, Option.map_some]
  | closing left get =>
    obtain ⟨hget, hcredited⟩ := hd
    have hcredited' : order ∈ credited ++ [] := List.mem_append_left [] hcredited
    obtain ⟨store, hsame, ht, ⟨next, heq, hnext⟩ | ⟨record, heq, -⟩⟩ :=
      Workspaces.getWorkspaceById_cases env.toEnv process hs hget
    · simp only [Delivery.step, heq] at h
      cases h
      exact ⟨ht, rfl, ⟨hnext, hcredited'⟩, .inl ⟨hsame, rfl⟩⟩
    · simp only [Delivery.step, heq] at h
      cases h
      refine ⟨ht, rfl, ?_, .inl ⟨hsame, rfl⟩⟩
      dsimp only
      split
      · exact hcredited'
      · exact ⟨trivial, hcredited'⟩
  | ended => cases h
  | failed => cases h

/-- What a step of a debit does to the balance. -/
theorem debit_step (hs : s.Holds Plain) {c e : DebitCall} (h : c.step env s process = some (t, e)) :
    t.Holds Plain ∧ ∀ row, s.row = some row → c.Covered env row →
      ∃ row', t.row = some row' ∧ balanceOf row'.metadata = balanceOf row.metadata - (c.debits env s).sum := by
  obtain ⟨tenantId, turn, stage⟩ := c
  obtain ⟨row, hrow, hplain⟩ := hs.row
  cases stage with
  | locking =>
    obtain ⟨hwritten, hbalance⟩ := debited_written env.texts turn hplain
    simp only [DebitCall.step, hrow, debitRow] at h
    by_cases htenant : strip row.tenantId = strip tenantId
    · simp only [htenant, if_true] at h
      cases h
      refine ⟨⟨⟨_, rfl, hwritten⟩, hs.caches⟩, ?_⟩
      intro row' hrow' hcovered
      obtain rfl : row = row' := by simpa [hrow] using hrow'
      refine ⟨_, rfl, ?_⟩
      rw [hbalance (hcovered rfl htenant)]
      simp [DebitCall.debits, debitRow, hrow, htenant]
    · simp only [htenant, if_false] at h
      cases h
      refine ⟨hs, ?_⟩
      intro row' hrow' _
      exact ⟨row', hrow', by simp [DebitCall.debits, debitRow, hrow, htenant]⟩
  | dropping debitedUsd =>
    cases h
    refine ⟨hs.setCache (by simp), ?_⟩
    intro row' hrow' _
    exact ⟨row', hrow', by simp [DebitCall.debits]⟩
  | ended debitedUsd => cases h

/-! ### Runs -/

theorem sum_credited (env : Env) (credited : List String) (order : String) :
    ∑ o ∈ (credited ++ [order]).toFinset, env.amountUsd o =
      (∑ o ∈ credited.toFinset, env.amountUsd o) + if order ∈ credited then 0 else env.amountUsd order := by
  rw [List.toFinset_append]
  by_cases hmem : order ∈ credited
  · simp [hmem, Finset.union_eq_left.mpr]
  · have hnot : order ∉ credited.toFinset := by simpa using hmem
    simp only [hmem, if_false, List.toFinset_cons, List.toFinset_nil, insert_empty_eq]
    rw [Finset.sum_union (by simpa using hmem), Finset.sum_singleton]

/-- What every reachable state has. -/
structure Inv (env : Env) (start : Int) (s : State) : Prop where
  holds : s.store.Holds Plain
  orders : ∀ process d, (process, Call.order d) ∈ s.calls → d.stage.Ok env s.credited d.order
  known : ∀ order ∈ s.credited, order ∈ delivered s.calls
  balanced : Balanced env start s

theorem delivered_set {calls : List (Nat × Call)} {i process : Nat} {old new : Call}
    (hold : calls[i]? = some (process, old)) (hsame : delivered [(process, new)] = delivered [(process, old)]) :
    delivered (calls.set i (process, new)) = delivered calls := by
  induction calls generalizing i with
  | nil => rfl
  | cons call calls ih =>
    cases i with
    | zero =>
      obtain rfl : call = (process, old) := by simpa using hold
      change delivered ([(process, new)] ++ calls) = delivered ([(process, old)] ++ calls)
      unfold delivered at hsame ⊢
      rw [List.filterMap_append, List.filterMap_append, hsame]
    | succ i =>
      have htail : delivered (calls.set i (process, new)) = delivered calls := ih (by simpa using hold)
      change delivered ([call] ++ calls.set i (process, new)) = delivered ([call] ++ calls)
      unfold delivered at htail ⊢
      rw [List.filterMap_append, List.filterMap_append, htail]

/-- A call's step leaves what holds of the other calls. -/
theorem orders_set {calls : List (Nat × Call)} {credited more : List String} {i process : Nat} {new : Call}
    (hcalls : ∀ p d, (p, Call.order d) ∈ calls → d.stage.Ok env credited d.order)
    (hnew : ∀ d, new = .order d → d.stage.Ok env (credited ++ more) d.order) :
    ∀ p d, (p, Call.order d) ∈ calls.set i (process, new) → d.stage.Ok env (credited ++ more) d.order := by
  intro p d hmem
  obtain hold | hset := List.mem_or_eq_of_mem_set hmem
  · exact (hcalls p d hold).mono more
  · exact hnew d (congrArg Prod.snd hset).symm

theorem order_inv {start : Int} {s t : State} {i process : Nat} {d : Delivery} (hi : Inv env start s)
    (hcall : s.calls[i]? = some (process, .order d))
    (hcurrent : ∀ row, s.store.row = some row → d.Current env s.credited row)
    (h : moveCall env s i process (.order d) = some t) : Inv env start t := by
  simp only [moveCall, Option.map_eq_some_iff] at h
  obtain ⟨⟨store, e⟩, hstep, rfl⟩ := h
  have hmem : (process, Call.order d) ∈ s.calls := List.mem_of_getElem? hcall
  obtain ⟨hholds, horder, hok, hwrites⟩ := delivery_step hi.holds (hi.orders process d hmem) hstep
  have hdelivered : delivered (s.calls.set i (process, .order e)) = delivered s.calls :=
    delivered_set hcall (by simp [delivered, horder])
  have hown : d.order ∈ delivered s.calls := List.mem_filterMap.mpr ⟨_, hmem, rfl⟩
  have horders : ∀ p f, (p, Call.order f) ∈ s.calls.set i (process, .order e) →
      f.stage.Ok env (s.credited ++ d.credits s.store) f.order := by
    refine orders_set hi.orders ?_
    rintro f hf
    cases hf
    rw [horder]
    exact hok
  obtain ⟨row, hrow, -⟩ := hi.holds.row
  obtain ⟨hsame, hnone⟩ | ⟨seen, base, existing, hcredit⟩ := hwrites
  · refine ⟨hholds, horders, ?_, ?_⟩
    · dsimp only
      rw [hdelivered, hnone, List.append_nil]
      exact hi.known
    · intro row' hrow'
      dsimp only at hrow' ⊢
      rw [hnone, List.append_nil]
      exact hi.balanced row' (hsame ▸ hrow')
  · refine ⟨hholds, horders, ?_, ?_⟩
    · intro order hadd
      dsimp only at hadd ⊢
      rw [hdelivered]
      rw [hcredit.credits, List.mem_append, List.mem_singleton] at hadd
      obtain hold | rfl := hadd
      · exact hi.known order hold
      · exact hown
    · intro row' hrow'
      dsimp only at hrow' ⊢
      obtain ⟨row'', hrow'', hmetadata⟩ := hcredit.row
      obtain rfl : row'' = row' := Option.some.inj (hrow''.symm.trans hrow')
      have hbefore : balanceOf row.metadata =
          start + (∑ order ∈ s.credited.toFinset, env.amountUsd order) - s.debited.sum := hi.balanced row hrow
      have hread := hcurrent row hrow seen _ _ base existing hcredit.stage
      rw [hmetadata, (credited_written env d.order hcredit.plain.1 hcredit.plain.2).2, hcredit.credits, sum_credited]
      split at hread
      · rw [if_pos ‹_›]
        omega
      · rw [if_neg ‹_›]
        omega

theorem debit_inv {start : Int} {s t : State} {i process : Nat} {c : DebitCall} (hi : Inv env start s)
    (hcall : s.calls[i]? = some (process, .debit c)) (hcovered : ∀ row, s.store.row = some row → c.Covered env row)
    (h : moveCall env s i process (.debit c) = some t) : Inv env start t := by
  simp only [moveCall, Option.map_eq_some_iff] at h
  obtain ⟨⟨store, e⟩, hstep, rfl⟩ := h
  obtain ⟨hholds, hbalance⟩ := debit_step hi.holds hstep
  have hdelivered : delivered (s.calls.set i (process, .debit e)) = delivered s.calls :=
    delivered_set hcall (by simp [delivered])
  obtain ⟨row, hrow, -⟩ := hi.holds.row
  obtain ⟨row', hrow', htaken⟩ := hbalance row hrow (hcovered row hrow)
  have horders := @orders_set env _ _ [] i process (.debit e) hi.orders nofun
  rw [List.append_nil] at horders
  refine ⟨hholds, horders, ?_, ?_⟩
  · dsimp only
    rw [hdelivered]
    exact hi.known
  · intro row'' hrow''
    obtain rfl : row' = row'' := Option.some.inj (hrow'.symm.trans hrow'')
    have hbefore : balanceOf row.metadata =
        start + (∑ order ∈ s.credited.toFinset, env.amountUsd order) - s.debited.sum := hi.balanced row hrow
    dsimp only
    rw [htaken, hbefore, List.sum_append]
    omega

/-- One sound step keeps the books. -/
theorem inv_step {start : Int} {s t : State} {e : Event} (hi : Inv env start s) (hsound : Sound env s e)
    (h : step env s e = some t) : Inv env start t := by
  cases e with
  | deliver process order =>
    cases h
    refine ⟨hi.holds, ?_, ?_, hi.balanced⟩
    · intro p d hmem
      obtain hold | hnew := List.mem_append.mp hmem
      · exact hi.orders p d hold
      · cases List.mem_singleton.mp hnew
        trivial
    · intro o ho
      unfold delivered
      rw [List.filterMap_append]
      exact List.mem_append_left _ (hi.known o ho)
  | debit process tenantId turn =>
    cases h
    refine ⟨hi.holds, ?_, ?_, hi.balanced⟩
    · intro p d hmem
      obtain hold | hnew := List.mem_append.mp hmem
      · exact hi.orders p d hold
      · cases List.mem_singleton.mp hnew
    · intro o ho
      unfold delivered
      rw [List.filterMap_append]
      exact List.mem_append_left _ (hi.known o ho)
  | move i =>
    simp only [step, Option.bind_eq_some_iff] at h
    obtain ⟨⟨process, call⟩, hcall, hmove⟩ := h
    cases call with
    | order d => exact order_inv hi hcall (fun row hrow => hsound row hrow process _ hcall) hmove
    | debit c => exact debit_inv hi hcall (fun row hrow => hsound row hrow process _ hcall) hmove
  | wait time =>
    cases h
    exact ⟨⟨hi.holds.row, hi.holds.caches⟩, hi.orders, hi.known, hi.balanced⟩

/-- When every call has ended, the credited orders are those that have been delivered. -/
theorem settled_of_finished {start : Int} {s : State} (hi : Inv env start s) (hfinished : Finished s) :
    Settled env start s := by
  have hsame : s.credited.toFinset = (delivered s.calls).toFinset := by
    ext order
    rw [List.mem_toFinset, List.mem_toFinset]
    refine ⟨hi.known order, fun hmem => ?_⟩
    obtain ⟨⟨process, call⟩, hcall, horder⟩ := List.mem_filterMap.mp hmem
    cases call with
    | debit c => cases horder
    | order d =>
      obtain rfl : d.order = order := by simpa using horder
      have hok : d.stage.Ok env s.credited d.order := hi.orders process d hcall
      rw [show d.stage = .ended from hfinished process _ hcall] at hok
      exact hok
  intro row hrow
  rw [← hsame]
  exact hi.balanced row hrow

/-- The workspace before any call: its row is plain, and what a cache holds of it too. -/
structure Fresh (start : Int) (s : State) : Prop where
  holds : s.store.Holds Plain
  balance : ∀ row, s.store.row = some row → balanceOf row.metadata = start
  calls : s.calls = []
  credited : s.credited = []
  debited : s.debited = []

/-- The balance is what was paid for less what was taken; once no call is left, the orders are settled. -/
theorem paid_credits_settle {start : Int} {s t : State} {events : List Event} (hs : Fresh start s)
    (hsound : Run.Meets (step env) (Sound env) s events) (h : Run.run (step env) s events = some t) :
    Balanced env start t ∧ (Finished t → Settled env start t) := by
  have hinit : Inv env start s := by
    refine ⟨hs.holds, ?_, ?_, ?_⟩
    · rw [hs.calls]
      nofun
    · rw [hs.credited]
      nofun
    · intro row hrow
      rw [hs.balance row hrow, hs.credited, hs.debited]
      simp
  have hi : Inv env start t := Run.run_inv (fun _ _ _ hi hc hst => inv_step hi hc hst) hsound hinit h
  exact ⟨hi.balanced, settled_of_finished hi⟩

/-! ### One order -/

def fiveDollars : Env where
  lowercase := Lowercase.ascii
  workspaceId := "w1"
  ttl := 3
  allows _ := true
  repr _ := ""
  amountUsd _ := 5000000
  paid _ := by decide
  creditsPerUsd := 100
  createdAt := 0

def oneWorkspace : State where
  store :=
    { row := some { tenantId := "t1", name := "Home", workspaceType := "personal", metadata := [] }
      caches := fun _ => none
      now := 0 }
  calls := []
  credited := []
  debited := []

theorem fresh_oneWorkspace : Fresh 0 oneWorkspace where
  holds := ⟨⟨_, rfl, plain_nil⟩, nofun⟩
  balance := by
    rintro row hrow
    cases hrow
    decide
  calls := rfl
  credited := rfl
  debited := rfl

/-- One delivery, to its end. -/
def delivery : List Event := .deliver 0 "o1" :: List.replicate 16 (.move 0)

theorem sound_delivery : Run.Meets (step fiveDollars) (Sound fiveDollars) oneWorkspace delivery := by
  refine ⟨trivial, ?_, ?_, ?_, ?_, ?_, ?_, ?_, ?_, ?_, ?_, ?_, ?_, ?_, ?_, ?_, ?_, trivial⟩
  -- the eighth step is the `UPDATE`
  on_goal 8 =>
    intro row hrow process call hcall
    cases hcall
    cases hrow
    intro seen part payload base existing hstage
    cases hstage
    decide
  all_goals
    intro row hrow process call hcall
    cases hcall
    nofun

theorem paid_credits_settle_once :
    ∃ t, Run.run (step fiveDollars) oneWorkspace delivery = some t ∧ Finished t ∧ Settled fiveDollars 0 t := by
  refine ⟨_, rfl, ?_⟩
  have hfinished : Finished ((Run.run (step fiveDollars) oneWorkspace delivery).get (by rfl)) := by
    intro process call hmem
    cases List.mem_singleton.mp hmem
    rfl
  exact ⟨hfinished, (paid_credits_settle fresh_oneWorkspace sound_delivery rfl).2 hfinished⟩

/-- The order is delivered again after its first delivery has ended. -/
theorem paid_credits_settle_twice :
    ∃ t, Run.run (step fiveDollars) oneWorkspace
        (.deliver 0 "o1" :: List.replicate 16 (.move 0) ++ .deliver 0 "o1" :: List.replicate 14 (.move 1)) = some t ∧
      Finished t ∧ ¬ Settled fiveDollars 0 t := by
  refine ⟨_, rfl, ?_, fun h => ?_⟩
  · intro process call hmem
    obtain hfirst | hmem := List.mem_cons.mp hmem
    · cases hfirst
      rfl
    · obtain hsecond | hmem := List.mem_cons.mp hmem
      · cases hsecond
        rfl
      · cases hmem
  · have hbalance := h _ rfl
    revert hbalance
    decide

end Empyralis.Server.CreditOrders
