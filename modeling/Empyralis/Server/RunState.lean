import Empyralis.Kernel.StateStore
import Empyralis.Server.Tokens
import Empyralis.Server.Values

/-! What the functions of the run state repository share: the library they call, the gate of the kernel
    before each write, and what they raise. -/

namespace Empyralis.Server
open Text (strip)

/-- `fields.setdefault(key, value)` -/
def Fields.setDefault (fields : Fields) (key : String) (value : Value) : Fields :=
  if fields.any (·.1 = key) then fields else fields ++ [(key, value)]

namespace RunState
open Kernel

/-- `datetime.fromisoformat` after `Z` is written as an offset, the length of `json.dumps` in bytes,
    and the lower case of Python and of the database. -/
structure Env where
  repr : Value → String
  fromIsoFormat : String → Option Int
  jsonBytes : Fields → Nat
  lowercase : Lowercase
  sqlLower : Lowercase

inductive Error where
  | persistence (detail : String)
  | versionConflict (detail : String)
  | decision (reason : String)
  | approvalRequired (reason : String)
  deriving DecidableEq

/-- `_enforce_runtime_state_store_decision`. The action that an allowed operation names is always the
    one expected. -/
def enforceRuntimeStateStoreDecision (r : StateStore.Request) : Except Error Unit :=
  match StateStore.decision r with
  | .allow => .ok ()
  | .block => .error (.decision (StateStore.reason r))
  | .requireApproval => .error (.approvalRequired (StateStore.reason r))

/-- `_coerce_postgres_timestamptz` -/
def coercePostgresTimestamptz (env : Env) (value : Value) : Option Int :=
  let token := value.token env.repr
  if token = "" then none else env.fromIsoFormat token

/-- `a or b` of two values -/
def either (a b : Value) : Value := if a.truthy then a else b

end RunState

end Empyralis.Server
