import Empyralis.Server.Tokens
import Mathlib.Algebra.Order.BigOperators.Group.List
import Mathlib.Algebra.Order.Group.Int
import Mathlib.Algebra.Order.Group.Unbundled.Abs
import Mathlib.Algebra.Ring.Int.Defs

/-! The debits of a workspace's credit: `_build_workspace_credit_debit_result` for the usage above the
    monthly cap and `_build_workspace_credit_turn_debit_result` for one turn. Amounts of dollars are
    whole micro-dollars, and stand as such in the metadata. -/

namespace Empyralis.Server.Credits
open Text (strip)

/-- `str.lower`, and the text of a list or a dictionary. -/
structure Env where
  lowercase : Lowercase
  repr : Value → String

variable (env : Env)

/-! ### Reading the metadata -/

/-- `_coerce_dict` -/
def coerceDict : Value → Fields
  | .object fields => fields
  | _ => []

/-- `float(value)`, nothing when it raises; a text is not an amount. -/
def usd : Value → Option Int
  | .int amount => some amount
  | .bool value => some (if value then 1000000 else 0)
  | _ => none

/-- `_billing_float` -/
def billingFloat (value : Value) (default : Int) : Int := (usd value).getD default

/-- `str(item.get(key) or "").strip()` -/
def text (item : Fields) (key : String) : String := (item.get key).token env.repr

/-- `_workspace_admin_defaults_payload` -/
def workspaceAdminDefaultsPayload (metadata : Fields) : Fields × Bool :=
  let adminDefaults := coerceDict (metadata.get "admin_defaults")
  match adminDefaults.get "payload" with
  | .object payload => (payload, true)
  | _ => (adminDefaults, false)

/-- `_with_workspace_admin_defaults_payload` -/
def withWorkspaceAdminDefaultsPayload (metadata payload : Fields) (wrapped : Bool) : Fields :=
  metadata.put "admin_defaults" (.object (if wrapped then [("payload", .object payload)] else payload))

def asDict : Value → Option Fields
  | .object fields => some fields
  | _ => none

/-- `_workspace_credit_transactions` -/
def workspaceCreditTransactions (payload : Fields) : List Fields :=
  match payload.get "credit_transactions" with
  | .array items => items.filterMap asDict
  | _ => []

def amountOf (transaction : Fields) : Int := billingFloat (transaction.get "amount_usd") 0

def isUsageDebit (transaction : Fields) : Bool :=
  env.lowercase.lower (text env transaction "kind") = "usage_debit"

/-- A debit of this month. -/
def inMonth (usageMonth : String) (transaction : Fields) : Bool :=
  isUsageDebit env transaction && text env transaction "usage_month" = usageMonth

/-- What the debits of a month among the transactions come to. -/
def debitsOf (usageMonth : String) (transactions : List Fields) : Int :=
  ((transactions.filter (inMonth env usageMonth)).map fun t => |amountOf t|).sum

/-- `_workspace_credit_debits_for_month` -/
def workspaceCreditDebitsForMonth (payload : Fields) (usageMonth : String) : Int :=
  debitsOf env usageMonth (workspaceCreditTransactions payload)

/-- Some transaction has this request id. -/
def recorded (transactions : List Fields) (requestId : String) : Bool :=
  transactions.any fun item => text env item "request_id" = requestId

def balanceKey : String := "credit_balance_usd"

/-- `round(max(0, …), 6)` of the balance that a section holds. -/
def balanceIn (section_ : Fields) : Int := max 0 (billingFloat (section_.get balanceKey) 0)

/-- The current balance: that of the admin defaults, or before they have one that of the grant in the
    billing section. -/
def currentBalance (metadata payload : Fields) : Int :=
  if (payload.lookup balanceKey).isSome then balanceIn payload
  else max (balanceIn payload) (balanceIn (coerceDict (metadata.get "billing")))

/-! ### The debits -/

/-- `round` of a quotient: half goes to the even neighbour. -/
def roundQuotient (n d : Int) : Int :=
  if 2 * (n % d) < d then n / d
  else if d < 2 * (n % d) then n / d + 1
  else if n / d % 2 = 0 then n / d else n / d + 1

/-- The credits of an amount. -/
def creditsFor (amount creditsPerUsd : Int) : Int := roundQuotient (amount * max 0 creditsPerUsd) 1000000

def transaction (kind : String) (amount credits : Int) (requestId usageMonth source : String) (createdAt : Int) :
    Fields :=
  [("kind", .string kind), ("amount_usd", .int amount), ("credits", .int credits),
    ("request_id", .string requestId), ("usage_month", .string usageMonth), ("source", .string source),
    ("created_at", .int createdAt)]

/-- `{**payload, "credit_balance_usd": …, "credit_transactions": …}` -/
def withBalance (payload : Fields) (balance : Int) (transactions : List Fields) : Fields :=
  (payload.put balanceKey (.int balance)).put "credit_transactions" (.array (transactions.map .object))

/-- A debit for hosted usage: the cost of a month so far, and the cap where the workspace has none. -/
structure Overage where
  requestId : Token
  usageMonth : Token
  monthlyCostUsd : Int
  monthlyCapUsd : Int
  creditsPerUsd : Int
  createdAt : Int

/-- A debit for one turn. -/
structure Turn where
  requestId : Token
  creditsToCharge : Int
  floorUsd : Int
  creditsPerUsd : Int
  source : String
  createdAt : Int

/-- What a debit reports; `monthlyOverageUsd` is of a debit for hosted usage, the rest after it of one
    for a turn. -/
structure Result where
  debitedUsd : Int
  reason : Option String
  creditBalanceUsd : Option Int
  monthlyOverageUsd : Option Int
  creditsOwed : Int
  creditsDebited : Int
  insufficient : Bool
  backfilled : Bool

/-- `_build_workspace_credit_debit_result` -/
def buildWorkspaceCreditDebitResult (metadata : Fields) (debit : Overage) : Fields × Result :=
  let (payload, wrapped) := workspaceAdminDefaultsPayload metadata
  let transactions := workspaceCreditTransactions payload
  if recorded env transactions debit.requestId.text then
    (withWorkspaceAdminDefaultsPayload metadata payload wrapped,
      ⟨0, some "already_recorded", none, none, 0, 0, false, false⟩)
  else
    let current := currentBalance metadata payload
    let payload := if (payload.lookup balanceKey).isSome then payload else payload.put balanceKey (.int current)
    let cap := max 0 (billingFloat (payload.get "hosted_sage_ai_monthly_cap_usd") debit.monthlyCapUsd)
    let overage := max 0 (max 0 debit.monthlyCostUsd - cap)
    let needed := max 0 (overage - workspaceCreditDebitsForMonth env payload debit.usageMonth.text)
    let debited := min current needed
    if debited ≤ 0 then
      (withWorkspaceAdminDefaultsPayload metadata payload wrapped,
        ⟨0, some "no_debit_needed", some current, some overage, 0, 0, false, false⟩)
    else
      let entry := transaction "usage_debit" (-debited) (-creditsFor debited debit.creditsPerUsd)
        debit.requestId.text debit.usageMonth.text "hosted_sage_ai" debit.createdAt
      let next := max 0 (current - debited)
      (withWorkspaceAdminDefaultsPayload metadata (withBalance payload next (transactions ++ [entry])) wrapped,
        ⟨debited, none, some next, some overage, 0, 0, false, false⟩)

def hasGrant (transactions : List Fields) : Bool :=
  transactions.any fun item => text env item "source" = "safety_backfill_grant"

/-- The free allowance, made up to the floor when it has not been granted before. -/
def backfill (transactions : List Fields) (current : Int) (turn : Turn) : List Fields :=
  let floor := max 0 turn.floorUsd
  if !hasGrant env transactions && current < floor then
    [transaction "bonus" (floor - current) (creditsFor (floor - current) turn.creditsPerUsd) "" ""
      "safety_backfill_grant" turn.createdAt]
  else []

/-- `owed_usd` -/
def owedUsd (turn : Turn) : Int :=
  if turn.creditsPerUsd = 0 then 0
  else roundQuotient (max 0 turn.creditsToCharge * 1000000) (max 1 turn.creditsPerUsd)

/-- `_build_workspace_credit_turn_debit_result` -/
def buildWorkspaceCreditTurnDebitResult (metadata : Fields) (turn : Turn) : Fields × Result :=
  let (payload, wrapped) := workspaceAdminDefaultsPayload metadata
  let transactions := workspaceCreditTransactions payload
  if recorded env transactions turn.requestId.text then
    (withWorkspaceAdminDefaultsPayload metadata payload wrapped,
      ⟨0, some "already_recorded", some (balanceIn payload), none, max 0 turn.creditsToCharge, 0, false, false⟩)
  else
    let resolved := currentBalance metadata payload
    let granted := backfill env transactions resolved turn
    let current := if granted = [] then resolved else max 0 turn.floorUsd
    let debited := min current (owedUsd turn)
    let next := max 0 (current - debited)
    let creditsDebited := creditsFor debited turn.creditsPerUsd
    let entries := if 0 < debited then
        [transaction "usage_debit" (-debited) (-creditsDebited) turn.requestId.text ""
          (if strip turn.source = "" then "hosted_sage_ai_turn" else strip turn.source) turn.createdAt]
      else []
    (withWorkspaceAdminDefaultsPayload metadata (withBalance payload next (transactions ++ granted ++ entries)) wrapped,
      ⟨debited, none, some next, none, max 0 turn.creditsToCharge, creditsDebited,
        debited < owedUsd turn, granted ≠ []⟩)

end Empyralis.Server.Credits
