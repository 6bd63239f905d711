import Empyralis.Lib.Run
import Empyralis.Server.CreditRuns
import Empyralis.Server.Workspaces

/-! Deliveries of `order.paid` for credits (`apply_polar_webhook_event`) and debits for turns
    (`debit_workspace_credits_for_turn_atomic`) on one workspace, by any number of processes. A step is
    one SQL statement or the row-locked transaction of a debit, or what a process does between two. -/

namespace Empyralis.Server.CreditOrders
open Credits (coerceDict balanceKey balanceIn workspaceAdminDefaultsPayload workspaceCreditTransactions
  withBalance transaction creditsFor Turn Result balanceOf payloadOf transactionsOf)
open Text (strip)
open Workspaces (Workspace Store Get Update getWorkspaceById workspaceLookupCacheDrop)

/-- The amount of each order, and what the two modules below read. -/
structure Env extends Workspaces.Env where
  repr : Value → String
  amountUsd : String → Int
  paid : ∀ order, 0 < amountUsd order
  creditsPerUsd : Int
  createdAt : Int

variable (env : Env)

def Env.texts : Credits.Env := ⟨env.lowercase, env.repr⟩

/-- `_workspace_billing_metadata` -/
def workspaceBillingMetadata (metadata : Fields) : Fields :=
  ((coerceDict (metadata.get "entitlements")).merge (coerceDict (metadata.get "billing"))).merge
    (workspaceAdminDefaultsPayload metadata).1

/-- The entry that a paid order appends: a purchase, with its checkout and the provider. -/
def purchase (amountUsd creditsPerUsd createdAt : Int) (checkout : Value) : Fields :=
  [("kind", .string "purchase"), ("amount_usd", .int amountUsd),
    ("credits", .int (creditsFor amountUsd creditsPerUsd)),
    ("checkout_session_id", checkout), ("provider", .string "polar"), ("created_at", .int createdAt)]

/-- The admin defaults that a paid order writes, from the metadata that it has read. -/
def creditedSection (amountUsd : Int) (entry seen : Fields) : Fields :=
  let metadata := workspaceBillingMetadata seen
  withBalance metadata (balanceIn metadata + amountUsd) (workspaceCreditTransactions metadata ++ [entry])

def creditedDefaults (order : String) (seen : Fields) : Fields :=
  creditedSection (env.amountUsd order)
    (purchase (env.amountUsd order) env.creditsPerUsd env.createdAt (.string order)) seen

/-- Where a delivery is. The account and the subscription are rows of their own, which it writes before
    and after; of the calls for them only the reads of the workspace count here, and how many are left. -/
inductive Stage where
  | accounting (left : Nat) (get : Get)
  | reading (get : Get)
  | updating (seen : Fields) (update : Update)
  | closing (left : Nat) (get : Get)
  | ended
  | failed

/-- The delivery of an order. -/
structure Delivery where
  order : String
  stage : Stage

/-- The next step of a delivery, while it has one. -/
def Delivery.step (s : Store) (process : Nat) (d : Delivery) : Option (Store × Delivery) :=
  match d.stage with
  | .accounting left get =>
    match getWorkspaceById env.toEnv s process get with
    | (s, .going get) => some (s, { d with stage := .accounting left get })
    | (s, .got _) =>
      some (s, { d with stage := if left = 0 then .reading .look else .accounting (left - 1) .look })
  | .reading get =>
    match getWorkspaceById env.toEnv s process get with
    | (s, .going get) => some (s, { d with stage := .reading get })
    | (s, .got workspace) =>
      let seen := (workspace.map Workspace.metadata).getD []
      let update : Update := ⟨.adminDefaults, creditedDefaults env d.order seen, .reading .look⟩
      some (s, { d with stage := .updating seen update })
  | .updating seen update =>
    match update.step env.toEnv s process with
    | some (s, update) => some (s, { d with stage := .updating seen update })
    | none =>
      match update.stage with
      | .blocked => some (s, { d with stage := .failed })
      | _ => some (s, { d with stage := .closing 2 .look })
  | .closing left get =>
    match getWorkspaceById env.toEnv s process get with
    | (s, .going get) => some (s, { d with stage := .closing left get })
    | (s, .got _) => some (s, { d with stage := if left = 0 then .ended else .closing (left - 1) .look })
  | .ended => none
  | .failed => none

/-- Where a debit is. -/
inductive DebitStage where
  | locking
  | dropping (debitedUsd : Int)
  | ended (debitedUsd : Int)

/-- A debit on its way. -/
structure DebitCall where
  tenantId : String
  turn : Turn
  stage : DebitStage

/-- The row as the transaction of a debit writes it, and what it reports as debited; `none` where it finds no
    row, or the row of another tenant, and writes nothing. -/
def debitRow (row : Option Workspace) (call : DebitCall) : Option (Workspace × Int) :=
  match row with
  | none => none
  | some row =>
    if strip row.tenantId = strip call.tenantId then
      let (metadata, result) := Credits.buildWorkspaceCreditTurnDebitResult env.texts row.metadata call.turn
      some ({ row with metadata := metadata }, result.debitedUsd)
    else none

/-- The next step of a debit: its transaction, and after a write the drop of the cache entry. -/
def DebitCall.step (s : Store) (process : Nat) (call : DebitCall) : Option (Store × DebitCall) :=
  match call.stage with
  | .locking =>
    match debitRow env s.row call with
    | some (row, debitedUsd) => some ({ s with row := some row }, { call with stage := .dropping debitedUsd })
    | none => some (s, { call with stage := .ended 0 })
  | .dropping debitedUsd =>
    some (workspaceLookupCacheDrop s process, { call with stage := .ended debitedUsd })
  | .ended _ => none

/-- The two calls on the metadata. -/
inductive Call where
  | order (delivery : Delivery)
  | debit (call : DebitCall)

/-- The calls, each with its process; the orders whose update has been made, and the amounts that
    debits have reported. -/
structure State where
  store : Store
  calls : List (Nat × Call)
  credited : List String
  debited : List Int

/-- A call begins, comes to its next statement, or time goes by. -/
inductive Event where
  | deliver (process : Nat) (order : String)
  | debit (process : Nat) (tenantId : String) (turn : Turn)
  | move (i : Nat)
  | wait (time : Nat)

/-- The order that the step of a delivery credits: its `UPDATE` finds the row. -/
def Delivery.credits (s : Store) (d : Delivery) : List String :=
  match d.stage, s.row with
  | .updating _ ⟨_, _, .updating _ _⟩, some _ => [d.order]
  | _, _ => []

/-- What the step of a debit reports as debited. -/
def DebitCall.debits (s : Store) (call : DebitCall) : List Int :=
  match call.stage with
  | .locking => [((debitRow env s.row call).map Prod.snd).getD 0]
  | _ => []

/-- A call comes to its next statement. -/
def moveCall (s : State) (i process : Nat) : Call → Option State
  | .order d => (d.step env s.store process).map fun (store, d') =>
    { s with store := store, calls := s.calls.set i (process, .order d'), credited := s.credited ++ d.credits s.store }
  | .debit c => (c.step env s.store process).map fun (store, c') =>
    { s with store := store, calls := s.calls.set i (process, .debit c'), debited := s.debited ++ c.debits env s.store }

def step (s : State) : Event → Option State
  | .deliver process order =>
    some { s with calls := s.calls ++ [(process, .order ⟨order, .accounting 1 .look⟩)] }
  | .debit process tenantId turn =>
    some { s with calls := s.calls ++ [(process, .debit ⟨tenantId, turn, .locking⟩)] }
  | .move i => (s.calls[i]?).bind fun (process, call) => moveCall env s i process call
  | .wait time => some { s with store := { s.store with now := s.store.now + time } }

end Empyralis.Server.CreditOrders
