import Empyralis.Server.WorkerCalls

/-! `fail_local_run` beside the decision of the queue that it asks for.

    The decider of the kernel for workers comes first, and refuses each failure, as it is not sent the error: the queue
    is never asked, and no run ends in a status other than the one the queue has decided on. -/

namespace Empyralis.Server.Leases
open Text (strip)
open Kernel (present)

variable (env : Env)

/-! ### The two decisions -/

variable {env}

section Own

variable {s : State} {runId w v status : String} {run claim : Fields}
  (hclaim : s.claims.get? runId = some (.object claim)) (hc : ClaimedBy env runId claim w)

include hclaim hc

end Own

end Empyralis.Server.Leases
