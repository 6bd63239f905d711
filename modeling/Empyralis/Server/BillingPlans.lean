import Empyralis.Server.CreditOrders

/-! The plan of a workspace (`billing_service`): its subscription row, the plan keys of its metadata, and
    what credit checkouts and the webhooks of the provider do to both, one after another. -/

namespace Empyralis.Server.BillingPlans
open Credits (coerceDict text usd)
open CreditOrders (workspaceBillingMetadata creditedSection purchase)

/-- The texts of values, and the plan of each product of the provider. -/
structure Env extends Credits.Env where
  productToPlan : List (String × String)
  creditsPerUsd : Int
  createdAt : Int

variable (env : Env)

/-! ### Plans -/

/-- `PLAN_LABELS`, by its keys -/
def planLabels : List String := ["free", "pilot", "pro"]

/-- The other names of the plans. -/
def planAliases : List (String × String) :=
  [("starter", "free"), ("free_personal", "free"), ("standard", "pro"), ("personal", "pro"), ("business", "pro"),
    ("power", "pro"), ("team", "pro"), ("enterprise", "pro"), ("enterprise_plus", "pro"), ("beta", "pilot"),
    ("early_access", "pilot"), ("pilot_program", "pilot")]

def defaultBillingPlanId : String := "free"

/-- `normalize_billing_plan_id` -/
def normalizeBillingPlanId (value : Value) : String :=
  let token := env.lowercase.lower (value.token env.repr)
  let token := (planAliases.lookup token).getD token
  if token ∈ planLabels then token else defaultBillingPlanId

/-- `_hosted_sage_ai_policy` -/
def hostedSageAiPolicy (value : Value) : String :=
  let token := env.lowercase.lower (value.token env.repr)
  if token ∈ ["disabled", "owner_opt_in", "enabled_with_cap"] then token else "owner_opt_in"

/-- The keys under which a section names its plan. -/
def planKeys : List String := ["billing_plan", "plan", "plan_id", "plan_tier"]

/-- `_explicit_workspace_billing_plan_id` -/
def explicitWorkspaceBillingPlanId (metadata : Fields) : Option String :=
  let billing := workspaceBillingMetadata metadata
  if hostedSageAiPolicy env (billing.get "hosted_sage_ai_policy") ≠ "enabled_with_cap" then none
  else planKeys.findSome? fun key =>
    if text env.toEnv billing key = "" then none else some (normalizeBillingPlanId env (billing.get key))

/-! ### The subscription row -/

/-- What is stored of a subscription. -/
structure Subscription where
  planId : String
  status : String
  providerSubscriptionId : Option Token

/-- A row in `workspace_billing_subscriptions`, as it is read: `str(… or default).strip().lower() or default`. -/
def subscriptionFromRow (row : Subscription) : Subscription :=
  let planId := env.lowercase.token row.planId
  let status := env.lowercase.token row.status
  { row with
    planId := if planId = "" then "free" else planId
    status := if status = "" then "active" else status }

/-- The statuses of a subscription that is over. -/
def terminalSubscriptionStatuses : List String := ["canceled", "cancelled", "incomplete_expired", "paused", "unpaid"]

def checkoutStatuses : List String := ["checkout_pending", "checkout_completed"]

/-- `_subscription_effective_plan` -/
def subscriptionEffectivePlan (subscription : Subscription) : String :=
  let status := env.lowercase.token subscription.status
  if status ∈ terminalSubscriptionStatuses ∨ status ∈ checkoutStatuses then defaultBillingPlanId
  else normalizeBillingPlanId env (.string subscription.planId)

/-- The metadata of the workspace and its subscription rows, the one updated last first. -/
structure State where
  metadata : Fields
  rows : List Subscription

/-- `ensure_workspace_billing_defaults` -/
def ensureWorkspaceBillingDefaults (s : State) : State :=
  { s with rows := if s.rows = [] then [⟨"free", "active", none⟩] else s.rows }

/-- The row that an upsert updates: that of the provider's subscription, or the one updated last. -/
def existingRow (rows : List Subscription) (providerSubscriptionId : Option Token) : Option Nat :=
  match providerSubscriptionId.bind fun id => rows.findIdx? (·.providerSubscriptionId = some id) with
  | some i => some i
  | none => if rows = [] then none else some 0

/-- `upsert_workspace_billing_subscription` -/
def upsertWorkspaceBillingSubscription (s : State) (planId status : String)
    (providerSubscriptionId : Option Token) : State :=
  let existing := existingRow s.rows providerSubscriptionId
  let planId := env.lowercase.token planId
  let status := env.lowercase.token status
  let row : Subscription :=
    { planId := if planId = "" then "free" else planId
      status := if status = "" then "active" else status
      providerSubscriptionId :=
        providerSubscriptionId.or ((existing.bind (s.rows[·]?)).bind Subscription.providerSubscriptionId) }
  { s with rows := row :: existing.elim s.rows s.rows.eraseIdx }

/-- The effective plan of the row that a summary reads. -/
def subscriptionPlan (s : State) : String :=
  match (ensureWorkspaceBillingDefaults s).rows with
  | [] => defaultBillingPlanId
  | row :: _ => subscriptionEffectivePlan env (subscriptionFromRow env row)

/-- The plan that `workspace_billing_summary_for_workspace_id` reports as effective. -/
def effectivePlan (s : State) : String :=
  match explicitWorkspaceBillingPlanId env s.metadata with
  | some planId => if subscriptionPlan env s = defaultBillingPlanId then planId else subscriptionPlan env s
  | none => subscriptionPlan env s

/-! ### Checkouts and webhooks -/

/-- The plan of the current row, normalized. -/
def currentPlan (row : Subscription) : String :=
  normalizeBillingPlanId env (.string (subscriptionFromRow env row).planId)

/-- The least purchase: ten dollars, in millionths. -/
def minCreditPurchaseUsd : Int := 10000000

/-- `create_credit_purchase_checkout_session`; `opened` says whether the provider is configured and has
    answered with a session and its address. -/
def createCreditPurchaseCheckoutSession (s : State) (amountUsd : Option Int) (opened : Bool) : State :=
  if amountUsd.all (· < minCreditPurchaseUsd) then s
  else
    let s := ensureWorkspaceBillingDefaults s
    match s.rows with
    | [] => s
    | row :: _ => if opened then upsertWorkspaceBillingSubscription env s (currentPlan env row) "checkout_pending" none else s

/-- The amount that a paid order credits. -/
def creditedAmount (obj : Fields) : Option Int :=
  (usd ((coerceDict (obj.get "metadata")).get "amount_usd")).filter (0 < ·)

/-- The checkout was for credits. -/
def isCreditPurchase (obj : Fields) : Bool :=
  env.lowercase.lower (text env.toEnv (coerceDict (obj.get "metadata")) "purchase_kind") = "credits"

/-- The checkout of an order, `None` when it is blank. -/
def checkoutOf (obj : Fields) : Value :=
  let checkout := text env.toEnv obj "checkout_id"
  if checkout = "" then .null else .string checkout

/-- `order.paid`: without a row the read of its plan raises, after the amount has been credited. -/
def orderPaid (s : State) (obj : Fields) : State :=
  if isCreditPurchase env obj then
    let metadata := match creditedAmount obj with
      | none => s.metadata
      | some amountUsd =>
        let entry := purchase amountUsd env.creditsPerUsd env.createdAt (checkoutOf env obj)
        s.metadata.put "admin_defaults" (.object (creditedSection amountUsd entry s.metadata))
    let s := { s with metadata := metadata }
    match s.rows with
    | [] => s
    | row :: _ => upsertWorkspaceBillingSubscription env s (currentPlan env row) "checkout_completed" none
  else s

/-- `_plan_id_from_polar_subscription_object` -/
def planIdFromPolarSubscriptionObject (obj : Fields) : String :=
  let metadata := coerceDict (obj.get "metadata")
  let planId := metadata.get "plan_id"
  let chosen := if planId.truthy then planId else metadata.get "target_plan"
  let metadataPlan := chosen.token env.repr
  if metadataPlan ≠ "" then normalizeBillingPlanId env (.string metadataPlan)
  else (env.productToPlan.lookup (text env.toEnv obj "product_id")).getD defaultBillingPlanId

/-- The status of a subscription event. -/
def statusOf (obj : Fields) : String :=
  let status := env.lowercase.lower (text env.toEnv obj "status")
  if status = "" then "active" else status

/-- The metadata without the plan keys of its billing section. -/
def withoutPlanKeys (metadata : Fields) : Fields :=
  metadata.put "billing" (.object ((coerceDict (metadata.get "billing")).filter fun field => field.1 ∉ planKeys))

/-- A webhook `subscription.*` -/
def subscriptionEvent (s : State) (obj : Fields) : State :=
  let s := upsertWorkspaceBillingSubscription env s (planIdFromPolarSubscriptionObject env obj) (statusOf env obj)
    (Token.read (text env.toEnv obj "id"))
  if statusOf env obj ∈ terminalSubscriptionStatuses then { s with metadata := withoutPlanKeys s.metadata } else s

/-- What happens to the billing of a workspace. -/
inductive Event where
  | creditCheckout (amountUsd : Option Int) (opened : Bool)
  | orderPaid (obj : Fields)
  | subscription (obj : Fields)

/-- The state after an event. -/
def apply (s : State) : Event → State
  | .creditCheckout amountUsd opened => createCreditPurchaseCheckoutSession env s amountUsd opened
  | .orderPaid obj => orderPaid env s obj
  | .subscription obj => subscriptionEvent env s obj

/-- The state after all of them, in order. -/
def applyAll (s : State) (history : List Event) : State := history.foldl (apply env) s

end Empyralis.Server.BillingPlans
