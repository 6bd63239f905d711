import Empyralis.Server.BillingPlans
import Empyralis.Server.CreditOrderRuns

/-! Histories of credit purchases and subscription events: when the plan follows the subscription. -/

namespace Empyralis.Server.BillingPlans
open Credits (coerceDict text payloadOf withBalance balanceKey workspaceAdminDefaultsPayload)
open CreditOrders (workspaceBillingMetadata creditedSection purchase PlainSection Plain credited_read)
open Text (strip)

/-! ### Metadata -/

/-- The sections are dictionaries, and none has an object under `payload` but the envelope. -/
structure Tidy (metadata : Fields) : Prop extends Plain metadata where
  entitlementKeys : (coerceDict (metadata.get "entitlements")).Nodup
  billingKeys : (coerceDict (metadata.get "billing")).Nodup
  adminKeys : (payloadOf metadata).Nodup

theorem nodup_withBalance {fields : Fields} (h : fields.Nodup) (balance : Int) (transactions : List Fields) :
    (withBalance fields balance transactions).Nodup := Fields.nodup_put (Fields.nodup_put h _ _) _ _

theorem nodup_seen {metadata : Fields} (h : Tidy metadata) : (workspaceBillingMetadata metadata).Nodup :=
  Fields.nodup_merge (Fields.nodup_merge h.entitlementKeys)

/-- A paid order writes every key that it has read into the admin defaults. -/
theorem tidy_credited (amountUsd : Int) (entry : Fields) {metadata : Fields} (h : Tidy metadata) :
    Tidy (metadata.put "admin_defaults" (.object (creditedSection amountUsd entry metadata))) := by
  obtain ⟨hplain, hpayload⟩ := credited_read amountUsd entry h.toPlain h.toPlain
  refine ⟨hplain, ?_, ?_, ?_⟩
  · rw [Fields.get_put, if_neg (by decide)]
    exact h.entitlementKeys
  · rw [Fields.get_put, if_neg (by decide)]
    exact h.billingKeys
  · rw [hpayload]
    exact nodup_withBalance (nodup_seen h) _ _

/-- What is read of the metadata, apart from the balance and the transactions, stays as it was. -/
theorem get_credited (amountUsd : Int) (entry : Fields) {metadata : Fields} (h : Tidy metadata) {key : String}
    (hbalance : key ≠ balanceKey) (htransactions : key ≠ "credit_transactions") :
    (workspaceBillingMetadata
        (metadata.put "admin_defaults" (.object (creditedSection amountUsd entry metadata)))).get key =
      (workspaceBillingMetadata metadata).get key := by
  obtain ⟨-, hpayload⟩ := credited_read amountUsd entry h.toPlain h.toPlain
  have hcredited : (creditedSection amountUsd entry metadata).Nodup := nodup_withBalance (nodup_seen h) _ _
  have hsame : (creditedSection amountUsd entry metadata).lookup key =
    (workspaceBillingMetadata metadata).lookup key := by
    simp only [creditedSection, withBalance, Fields.lookup_put, hbalance, htransactions, if_false]
  unfold Fields.get
  rw [workspaceBillingMetadata, ← payloadOf, hpayload, Fields.lookup_merge hcredited, hsame,
    Fields.get_put, if_neg (by decide), Fields.get_put, if_neg (by decide)]
  rw [workspaceBillingMetadata, ← payloadOf, Fields.lookup_merge h.adminKeys, Option.or_assoc, Option.or_self]

theorem explicitPlan_credited (env : Env) (amountUsd : Int) (entry : Fields) {metadata : Fields} (h : Tidy metadata) :
    explicitWorkspaceBillingPlanId env
        (metadata.put "admin_defaults" (.object (creditedSection amountUsd entry metadata))) =
      explicitWorkspaceBillingPlanId env metadata := by
  have hpolicy := get_credited amountUsd entry h (by decide : "hosted_sage_ai_policy" ≠ balanceKey) (by decide)
  have hbillingPlan := get_credited amountUsd entry h (by decide : "billing_plan" ≠ balanceKey) (by decide)
  have hplan := get_credited amountUsd entry h (by decide : "plan" ≠ balanceKey) (by decide)
  have hplanId := get_credited amountUsd entry h (by decide : "plan_id" ≠ balanceKey) (by decide)
  have hplanTier := get_credited amountUsd entry h (by decide : "plan_tier" ≠ balanceKey) (by decide)
  simp only [explicitWorkspaceBillingPlanId, planKeys, List.findSome?_cons, List.findSome?_nil, text, hpolicy,
    hbillingPlan, hplan, hplanId,
    hplanTier]
  rfl

theorem tidy_withoutPlanKeys {metadata : Fields} (h : Tidy metadata) : Tidy (withoutPlanKeys metadata) := by
  have hadmin : payloadOf (withoutPlanKeys metadata) = payloadOf metadata := by
    simp only [payloadOf, workspaceAdminDefaultsPayload, withoutPlanKeys, Fields.get_put,
      if_neg (by decide : "admin_defaults" ≠ "billing")]
  have hbilling : coerceDict ((withoutPlanKeys metadata).get "billing") =
      (coerceDict (metadata.get "billing")).filter fun field => field.1 ∉ planKeys := by
    rw [withoutPlanKeys, Fields.get_put, if_pos rfl, coerceDict]
  have hentitlements : (withoutPlanKeys metadata).get "entitlements" = metadata.get "entitlements" := by
    rw [withoutPlanKeys, Fields.get_put, if_neg (by decide)]
  refine ⟨⟨?_, ?_, ?_⟩, ?_, ?_, ?_⟩
  · rw [hentitlements]
    exact h.entitlements
  · rw [hbilling]
    exact fun fields hmem => h.billing fields (List.mem_of_mem_filter hmem)
  · rw [hadmin]
    exact h.adminDefaults
  · rw [hentitlements]
    exact h.entitlementKeys
  · rw [hbilling]
    exact h.billingKeys.sublist (List.filter_sublist.map Prod.fst)
  · rw [hadmin]
    exact h.adminKeys

/-! ### The subscription row -/

variable {env : Env}

theorem token_text (env : Env) (value : Value) :
    env.lowercase.token (env.lowercase.lower (value.token env.repr)) = env.lowercase.lower (value.token env.repr) := by
  unfold Value.token
  split
  · exact env.lowercase.stable _
  · have hempty : env.lowercase.lower "" = "" := env.lowercase.plain "" (by simp)
    rw [hempty]
    exact env.lowercase.token_plain (by simp)

theorem token_known (env : Env) {known : String}
    (h : (known.toList.all fun c => c.isLower || c = '_') = true) : env.lowercase.token known = known :=
  env.lowercase.token_plain (Lowercase.plain_of_all h)

/-- What a blank text stands for is not changed by writing it and reading it back. -/
theorem normalize_stored (env : Env) (planId : String) :
    normalizeBillingPlanId env (.string (if env.lowercase.token planId = "" then "free" else env.lowercase.token planId)) =
      normalizeBillingPlanId env (.string planId) := by
  unfold normalizeBillingPlanId
  rw [Value.token_string, Value.token_string]
  by_cases hblank : env.lowercase.token planId = ""
  · have hfree : env.lowercase.lower (strip "free") = "free" := token_known env (by decide)
    have hempty : env.lowercase.lower (strip planId) = "" := hblank
    rw [if_pos hblank, hfree, hempty]
    decide
  · have hsame : env.lowercase.lower (strip (env.lowercase.token planId)) = env.lowercase.lower (strip planId) :=
      env.lowercase.token_token planId
    rw [if_neg hblank, hsame]

/-- The current plan after an upsert is that of the row it has written. -/
theorem subscriptionPlan_upsert (env : Env) (s : State) (planId : String) {status : String} (id : Option Token)
    (hstatus : env.lowercase.token status = status) (hwritten : status ≠ "") :
    subscriptionPlan env (upsertWorkspaceBillingSubscription env s planId status id) =
      if status ∈ terminalSubscriptionStatuses ∨ status ∈ checkoutStatuses then defaultBillingPlanId
      else normalizeBillingPlanId env (.string planId) := by
  simp only [subscriptionPlan, ensureWorkspaceBillingDefaults, upsertWorkspaceBillingSubscription, reduceCtorEq,
    if_false, subscriptionFromRow, subscriptionEffectivePlan, hstatus, hwritten]
  rw [normalize_stored, normalize_stored]

theorem rows_upsert (env : Env) (s : State) (planId status : String) (id : Option Token) :
    (upsertWorkspaceBillingSubscription env s planId status id).rows ≠ [] := List.cons_ne_nil _ _

/-! ### Credit purchases -/

def Event.isCredit : Event → Bool
  | .subscription _ => false
  | _ => true

/-- The event gets as far as its upsert of the subscription row. -/
def Event.pays (env : Env) : Event → Bool
  | .creditCheckout amountUsd opened => opened && !amountUsd.all (· < minCreditPurchaseUsd)
  | .orderPaid obj => isCreditPurchase env obj
  | .subscription _ => false

/-- A purchase leaves everything as it is, or writes the row and perhaps the admin defaults. -/
theorem credit_cases {s : State} (hrows : s.rows ≠ []) {e : Event} (he : e.isCredit) :
    (e.pays env = false ∧ apply env s e = s) ∨
      e.pays env = true ∧ ∃ metadata planId status,
        apply env s e = upsertWorkspaceBillingSubscription env ⟨metadata, s.rows⟩ planId status none ∧
          status ∈ checkoutStatuses ∧ (metadata = s.metadata ∨ ∃ amountUsd entry, metadata =
            s.metadata.put "admin_defaults" (.object (creditedSection amountUsd entry s.metadata))) := by
  obtain ⟨metadata, rows⟩ := s
  obtain ⟨row, rest, rfl⟩ := List.exists_cons_of_ne_nil hrows
  cases e with
  | subscription obj => cases he
  | creditCheckout amountUsd opened =>
    cases hlow : amountUsd.all (· < minCreditPurchaseUsd) with
    | true =>
      refine .inl ⟨?_, ?_⟩
      · simp only [Event.pays, hlow, Bool.not_true, Bool.and_false]
      · simp only [apply, createCreditPurchaseCheckoutSession, hlow, if_true]
    | false =>
      cases opened with
      | false => exact .inl ⟨rfl, by simp [apply, createCreditPurchaseCheckoutSession, hlow, ensureWorkspaceBillingDefaults]⟩
      | true =>
        refine .inr ⟨by simp [Event.pays, hlow], metadata, currentPlan env row, "checkout_pending", ?_, by decide,
          .inl rfl⟩
        simp [apply, createCreditPurchaseCheckoutSession, hlow, ensureWorkspaceBillingDefaults]
  | orderPaid obj =>
    cases hcredit : isCreditPurchase env obj with
    | false => exact .inl ⟨hcredit, by simp [apply, orderPaid, hcredit]⟩
    | true =>
      refine .inr ⟨hcredit, ?_⟩
      cases hamount : creditedAmount obj with
      | none =>
        refine ⟨metadata, currentPlan env row, "checkout_completed", ?_, by decide, .inl rfl⟩
        simp [apply, orderPaid, hcredit, hamount]
      | some amountUsd =>
        let entry := purchase amountUsd env.creditsPerUsd env.createdAt (checkoutOf env obj)
        refine ⟨metadata.put "admin_defaults" (.object (creditedSection amountUsd entry metadata)), currentPlan env row,
          "checkout_completed", ?_, by decide, .inr ⟨amountUsd, entry, rfl⟩⟩
        simp only [apply, orderPaid, hcredit, hamount, if_true, entry]

/-- A purchase keeps the explicit plan, and one that pays takes the plan of the row away. -/
theorem credit_step {s : State} (hs : Tidy s.metadata) (hrows : s.rows ≠ []) {e : Event} (he : e.isCredit) :
    Tidy (apply env s e).metadata ∧ (apply env s e).rows ≠ [] ∧
      explicitWorkspaceBillingPlanId env (apply env s e).metadata = explicitWorkspaceBillingPlanId env s.metadata ∧
      subscriptionPlan env (apply env s e) =
        if e.pays env then defaultBillingPlanId else subscriptionPlan env s := by
  obtain ⟨hpays, hsame⟩ | ⟨hpays, metadata, planId, status, heq, hstatus, hmetadata⟩ := @credit_cases env _ hrows _ he
  · rw [hsame, hpays]
    exact ⟨hs, hrows, rfl, rfl⟩
  · have hplan : subscriptionPlan env (upsertWorkspaceBillingSubscription env ⟨metadata, s.rows⟩ planId status none) =
        defaultBillingPlanId := by
      have hknown : env.lowercase.token status = status ∧ status ≠ "" := by
        simp only [checkoutStatuses, List.mem_cons, List.not_mem_nil, or_false] at hstatus
        obtain rfl | rfl := hstatus
        · exact ⟨token_known env (by decide), by decide⟩
        · exact ⟨token_known env (by decide), by decide⟩
      rw [subscriptionPlan_upsert env _ planId none hknown.1 hknown.2, if_pos (.inr hstatus)]
    rw [heq, hplan, hpays]
    refine ⟨?_, rows_upsert env _ _ _ _, ?_, rfl⟩
    · obtain rfl | ⟨amountUsd, entry, rfl⟩ := hmetadata
      · exact hs
      · exact tidy_credited amountUsd entry hs
    · obtain rfl | ⟨amountUsd, entry, rfl⟩ := hmetadata
      · rfl
      · exact explicitPlan_credited env amountUsd entry hs

/-- The same of any number of purchases. -/
theorem credit_run {later : List Event} : ∀ {s : State}, Tidy s.metadata → s.rows ≠ [] → (∀ e ∈ later, e.isCredit) →
    explicitWorkspaceBillingPlanId env (applyAll env s later).metadata = explicitWorkspaceBillingPlanId env s.metadata ∧
      subscriptionPlan env (applyAll env s later) =
        if later.any (·.pays env) then defaultBillingPlanId else subscriptionPlan env s := by
  induction later with
  | nil => exact fun _ _ _ => ⟨rfl, rfl⟩
  | cons e later ih =>
    intro s hs hrows hcredit
    obtain ⟨he, hlater⟩ := List.forall_mem_cons.mp hcredit
    obtain ⟨htidy, hrows', hexplicit, hplan⟩ := @credit_step env _ hs hrows _ he
    obtain ⟨hexplicit', hplan'⟩ := ih htidy hrows' hlater
    have hfold : applyAll env s (e :: later) = applyAll env (apply env s e) later := rfl
    rw [hfold, hexplicit', hexplicit, hplan', hplan, List.any_cons]
    refine ⟨rfl, ?_⟩
    cases e.pays env <;> cases later.any (·.pays env) <;> rfl

/-! ### The plan of a subscription event -/

/-- The plan that a subscription event gives. -/
def givenPlan (env : Env) (obj : Fields) : String :=
  if statusOf env obj ∈ terminalSubscriptionStatuses ∨ statusOf env obj ∈ checkoutStatuses then defaultBillingPlanId
  else normalizeBillingPlanId env (.string (planIdFromPolarSubscriptionObject env obj))

theorem token_statusOf (env : Env) (obj : Fields) :
    env.lowercase.token (statusOf env obj) = statusOf env obj ∧ statusOf env obj ≠ "" := by
  unfold statusOf
  dsimp only
  split
  · exact ⟨token_known env (by decide), by decide⟩
  · exact ⟨token_text env _, ‹_›⟩

theorem subscription_written (env : Env) (s : State) (obj : Fields) :
    (apply env s (.subscription obj)).rows ≠ [] ∧
      subscriptionPlan env (apply env s (.subscription obj)) = givenPlan env obj ∧
      (apply env s (.subscription obj)).metadata =
        if statusOf env obj ∈ terminalSubscriptionStatuses then withoutPlanKeys s.metadata else s.metadata := by
  obtain ⟨htoken, hwritten⟩ := token_statusOf env obj
  have hplan := subscriptionPlan_upsert env s (planIdFromPolarSubscriptionObject env obj)
    (Token.read (text env.toEnv obj "id")) htoken hwritten
  simp only [apply, subscriptionEvent]
  split
  · exact ⟨rows_upsert env s _ _ _, hplan, rfl⟩
  · exact ⟨rows_upsert env s _ _ _, hplan, rfl⟩

theorem tidy_subscription {s : State} (hs : Tidy s.metadata) (obj : Fields) :
    Tidy (apply env s (.subscription obj)).metadata := by
  obtain ⟨-, -, hmetadata⟩ := subscription_written env s obj
  rw [hmetadata]
  split
  · exact tidy_withoutPlanKeys hs
  · exact hs

/-- An event leaves no key twice. -/
theorem tidy_apply {s : State} (hs : Tidy s.metadata) (e : Event) : Tidy (apply env s e).metadata := by
  cases e with
  | subscription obj => exact tidy_subscription hs obj
  | creditCheckout amountUsd opened =>
    simp only [apply, createCreditPurchaseCheckoutSession]
    split
    · exact hs
    · split
      · exact hs
      · split
        · exact hs
        · exact hs
  | orderPaid obj =>
    have hwritten : ∀ amountUsd entry,
        Tidy (s.metadata.put "admin_defaults" (.object (creditedSection amountUsd entry s.metadata))) :=
      fun amountUsd entry => tidy_credited amountUsd entry hs
    simp only [apply, orderPaid]
    split
    · cases creditedAmount obj with
      | none =>
        dsimp only
        split
        · exact hs
        · exact hs
      | some amountUsd =>
        dsimp only
        split
        · exact hwritten _ _
        · exact hwritten _ _
    · exact hs

theorem tidy_applyAll {history : List Event} : ∀ {s : State}, Tidy s.metadata →
    Tidy (applyAll env s history).metadata := by
  induction history with
  | nil => exact fun hs => hs
  | cons e history ih => exact fun hs => ih (tidy_apply hs e)

/-- The effective plan after a subscription event and some purchases. -/
theorem effectivePlan_after {s : State} (hs : Tidy s.metadata) (obj : Fields) {later : List Event}
    (hlater : ∀ e ∈ later, e.isCredit) :
    effectivePlan env (applyAll env (apply env s (.subscription obj)) later) =
      if later.any (·.pays env) ∨ givenPlan env obj = defaultBillingPlanId then
        (explicitWorkspaceBillingPlanId env (apply env s (.subscription obj)).metadata).getD defaultBillingPlanId
      else givenPlan env obj := by
  obtain ⟨hrows, hplan, -⟩ := subscription_written env s obj
  obtain ⟨hexplicit, hlast⟩ := @credit_run env _ _ (tidy_subscription hs obj) hrows hlater
  rw [effectivePlan, hexplicit, hlast, hplan]
  cases explicitWorkspaceBillingPlanId env (apply env s (.subscription obj)).metadata with
  | none =>
    cases later.any (·.pays env) with
    | true => simp
    | false => by_cases hgiven : givenPlan env obj = defaultBillingPlanId <;> simp [hgiven]
  | some plan =>
    cases later.any (·.pays env) with
    | true => simp
    | false => by_cases hgiven : givenPlan env obj = defaultBillingPlanId <;> simp [hgiven]

theorem applyAll_subscription (env : Env) (start : State) (before later : List Event) (obj : Fields) :
    applyAll env start (before ++ .subscription obj :: later) =
      applyAll env (apply env (applyAll env start before) (.subscription obj)) later := by
  rw [applyAll, List.foldl_append, List.foldl_cons]
  rfl

/-- A terminal event leads to the free plan exactly when the metadata has no other plan outside its billing
    section. After any other event the plan stays through the purchases that follow exactly when none of
    them pays, the event gives the free plan, or the metadata has the plan that it gives. -/
theorem plan_follows_subscription {start : State} (hstart : Tidy start.metadata) (before later : List Event)
    (obj : Fields) (hlater : ∀ e ∈ later, e.isCredit) :
    (statusOf env obj ∈ terminalSubscriptionStatuses →
      (effectivePlan env (applyAll env start (before ++ .subscription obj :: later)) = defaultBillingPlanId ↔
        ∀ plan, explicitWorkspaceBillingPlanId env (withoutPlanKeys (applyAll env start before).metadata) = some plan →
          plan = defaultBillingPlanId)) ∧
    (statusOf env obj ∉ terminalSubscriptionStatuses →
      ((∀ done, done <+: later → effectivePlan env (applyAll env start (before ++ .subscription obj :: done)) =
          effectivePlan env (applyAll env start (before ++ [.subscription obj]))) ↔
        (∀ e ∈ later, e.pays env = false) ∨ givenPlan env obj = defaultBillingPlanId ∨
          explicitWorkspaceBillingPlanId env (applyAll env start before).metadata = some (givenPlan env obj))) := by
  have hs : Tidy (applyAll env start before).metadata := tidy_applyAll hstart
  obtain ⟨-, -, hmetadata⟩ := subscription_written env (applyAll env start before) obj
  have heach : ∀ done, done <+: later → effectivePlan env (applyAll env start (before ++ .subscription obj :: done)) =
      if done.any (·.pays env) ∨ givenPlan env obj = defaultBillingPlanId then
        (explicitWorkspaceBillingPlanId env
          (apply env (applyAll env start before) (.subscription obj)).metadata).getD defaultBillingPlanId
      else givenPlan env obj := by
    intro done hdone
    rw [applyAll_subscription]
    exact effectivePlan_after hs obj fun e he => hlater e (hdone.subset he)
  constructor
  · intro hterminal
    have hgiven : givenPlan env obj = defaultBillingPlanId := if_pos (.inl hterminal)
    rw [heach later (List.prefix_refl later), if_pos (.inr hgiven), hmetadata, if_pos hterminal]
    cases explicitWorkspaceBillingPlanId env (withoutPlanKeys (applyAll env start before).metadata) with
    | none => simp
    | some plan => simp
  · intro hnot
    rw [if_neg hnot] at hmetadata
    rw [hmetadata] at heach
    have hfirst := heach [] (List.nil_prefix)
    simp only [List.any_nil, Bool.false_eq_true, false_or] at hfirst
    constructor
    · intro hkept
      by_cases hpays : later.any (·.pays env) = true
      · refine .inr ?_
        have hlast := (heach later (List.prefix_refl later)).symm.trans (hkept later (List.prefix_refl later))
        rw [hfirst, if_pos (.inl hpays)] at hlast
        by_cases hgiven : givenPlan env obj = defaultBillingPlanId
        · exact .inl hgiven
        · rw [if_neg hgiven] at hlast
          refine .inr ?_
          cases hplan : explicitWorkspaceBillingPlanId env (applyAll env start before).metadata with
          | none =>
            rw [hplan, Option.getD_none] at hlast
            exact absurd hlast.symm hgiven
          | some plan =>
            rw [hplan, Option.getD_some] at hlast
            rw [hlast]
      · refine .inl fun e he => ?_
        have hnone := List.any_eq_false.mp (Bool.eq_false_iff.mpr hpays) e he
        simpa using hnone
    · intro hcond done hdone
      rw [heach done hdone, hfirst]
      obtain hnone | hgiven | hplan := hcond
      · have hnever : done.any (·.pays env) = false :=
          List.any_eq_false.mpr fun e he => by simp [hnone e (hdone.subset he)]
        simp [hnever]
      · simp [hgiven]
      · rw [hplan, Option.getD_some]
        simp

/-! ### A new workspace -/

def asciiTexts : Env where
  lowercase := Lowercase.ascii
  repr _ := ""
  productToPlan := []
  creditsPerUsd := 100
  createdAt := 0

/-- `_new_workspace_billing_metadata`, without the grant -/
def newWorkspace : State where
  metadata := [("billing", .object [("plan_id", .string "personal"), ("hosted_sage_ai_policy", .string "enabled_with_cap")])]
  rows := []

def pro : Fields := [("id", .string "sub1"), ("status", .string "active"),
    ("metadata", .object [("plan_id", .string "pro")])]

def canceled : Fields := [("id", .string "sub1"), ("status", .string "canceled")]

def tenDollars : Fields :=
  [("checkout_id", .string "c1"),
    ("metadata", .object [("purchase_kind", .string "credits"), ("amount_usd", .int 10000000)])]

theorem tidy_newWorkspace : Tidy newWorkspace.metadata where
  entitlements := nofun
  billing fields hmem := by
    obtain hplan | hmem := List.mem_cons.mp hmem
    · have hkey : "payload" = "plan_id" := congrArg Prod.fst hplan
      exact absurd hkey (by decide)
    · have hkey : "payload" = "hosted_sage_ai_policy" := congrArg Prod.fst (List.mem_singleton.mp hmem)
      exact absurd hkey (by decide)
  adminDefaults := nofun
  entitlementKeys := List.nodup_nil
  billingKeys := by
    unfold Fields.Nodup
    decide
  adminKeys := List.nodup_nil

/-- The plan stays through a checkout, and goes with the subscription. -/
theorem plan_follows_subscription_new :
    effectivePlan asciiTexts (applyAll asciiTexts newWorkspace [.subscription pro, .creditCheckout (some 10000000) true]) =
        effectivePlan asciiTexts (applyAll asciiTexts newWorkspace [.subscription pro]) ∧
      effectivePlan asciiTexts (applyAll asciiTexts newWorkspace [.subscription canceled]) = "free" := by
  constructor
  · refine ((@plan_follows_subscription asciiTexts newWorkspace tidy_newWorkspace [] [.creditCheckout (some 10000000) true]
      pro (by decide)).2 (by decide)).mpr ?_ _ (List.prefix_refl _)
    exact .inr (.inr (by decide))
  · refine ((@plan_follows_subscription asciiTexts newWorkspace tidy_newWorkspace [] [] canceled (by decide)).1
      (by decide)).mpr ?_
    have hnone : explicitWorkspaceBillingPlanId asciiTexts (withoutPlanKeys newWorkspace.metadata) = none := by
      decide
    intro plan hplan
    rw [show applyAll asciiTexts newWorkspace [] = newWorkspace from rfl, hnone] at hplan
    cases hplan

/-- A checkout takes a plan that only the subscription gives; a paid order copies the plan keys to where a
    cancellation leaves them. -/
theorem plan_follows_subscription_lost :
    effectivePlan asciiTexts (applyAll asciiTexts ⟨[], []⟩ [.subscription pro]) = "pro" ∧
      effectivePlan asciiTexts (applyAll asciiTexts ⟨[], []⟩ [.subscription pro, .creditCheckout (some 10000000) true]) =
        "free" ∧
      statusOf asciiTexts canceled ∈ terminalSubscriptionStatuses ∧
      effectivePlan asciiTexts
          (applyAll asciiTexts newWorkspace [.subscription pro, .orderPaid tenDollars, .subscription canceled]) =
        "pro" := by
  refine ⟨by decide, by decide, by decide, by decide⟩

end Empyralis.Server.BillingPlans
