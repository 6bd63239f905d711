import Empyralis.Server.GatewaySessions

/-! A pairing token registers one gateway, and what the registration has comes from the owner's pairing. -/

namespace Empyralis.Server.GatewayTrust
open Run (run run_inv_all)
open Text (strip)

variable {e : Env} {s t u : State} {a : Label} {as : List Label} {hash : String} {p : Pairing}

/-! ### A pairing that is no longer pending -/

/-- The pairing under this token hash, no longer pending. -/
def Closed (hash : String) (p : Pairing) (s : State) : Prop :=
  s.pairings.get? hash = some p ∧ p.status ≠ .pending

end Empyralis.Server.GatewayTrust
