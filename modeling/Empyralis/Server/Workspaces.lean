import Empyralis.Lib.Run
import Empyralis.Server.Tokens

/-! The row of a workspace, the lookup cache that each process keeps of it, and the calls that write
    one section of its metadata: `update_workspace_policy_metadata`,
    `update_workspace_admin_defaults_metadata` and `update_workspace_kill_switch_metadata`, by way of
    `update_workspace_profile`. A step is one SQL statement, or what a process does between two. -/

namespace Empyralis.Server.Workspaces
open Text (strip)

structure Workspace where
  tenantId : String
  name : String
  workspaceType : String
  metadata : Fields

/-- An entry of `WORKSPACE_LOOKUP_CACHE`. -/
structure Cached where
  expiresAt : Nat
  value : Workspace

/-- The row in `workspaces`, and the entry for it in the cache of each process. -/
structure Store where
  row : Option Workspace
  caches : Nat → Option Cached
  now : Nat

/-- The workspace, `WORKSPACE_LOOKUP_CACHE_TTL_SECONDS`, and whether the kernel allows a
    `workspace_update` in a tenant. -/
structure Env where
  lowercase : Lowercase
  workspaceId : String
  ttl : Nat
  allows : String → Bool

variable (env : Env)

/-! ### The cache -/

def Store.setCache (s : Store) (process : Nat) (entry : Option Cached) : Store :=
  { s with caches := fun q => if q = process then entry else s.caches q }

/-- `_workspace_lookup_cache_get` -/
def workspaceLookupCacheGet (s : Store) (process : Nat) : Store × Option Workspace :=
  match s.caches process with
  | none => (s, none)
  | some cached =>
    if cached.expiresAt ≤ s.now then (s.setCache process none, none) else (s, some cached.value)

/-- `_workspace_lookup_cache_put` -/
def workspaceLookupCachePut (s : Store) (process : Nat) (row : Workspace) : Store :=
  s.setCache process (some ⟨s.now + env.ttl, row⟩)

/-- `_workspace_lookup_cache_drop` -/
def workspaceLookupCacheDrop (s : Store) (process : Nat) : Store := s.setCache process none

/-- Where a call of `get_workspace_by_id` is. -/
inductive Get where
  | look
  | select
  | put (row : Workspace)

/-- What a step of it gives. -/
inductive Got where
  | going (get : Get)
  | got (workspace : Option Workspace)

def getWorkspaceById (s : Store) (process : Nat) : Get → Store × Got
  | .look =>
    match workspaceLookupCacheGet s process with
    | (s, some workspace) => (s, .got (some workspace))
    | (s, none) => (s, .going .select)
  | .select =>
    match s.row with
    | none => (s, .got none)
    | some row => (s, .going (.put row))
  | .put row => (workspaceLookupCachePut env s process row, .got (some row))

/-! ### Writing a section -/

inductive Part where
  | policies
  | adminDefaults
  | killSwitch
  deriving DecidableEq

def Part.key : Part → String
  | .policies => "policies"
  | .adminDefaults => "admin_defaults"
  | .killSwitch => "kill_switch"

/-- Where a call is: it reads the workspace, selects the row again, updates it, drops the entry of its
    own cache and reads the workspace once more. -/
inductive Stage where
  | reading (get : Get)
  | selecting (base : Workspace)
  | updating (base existing : Workspace)
  | dropping
  | answering (get : Get)
  | ended (result : Option Workspace)
  | blocked

structure Update where
  part : Part
  payload : Fields
  stage : Stage

/-- `{**existing_metadata, "policies": payload}`, and the same of the other sections. -/
def nextMetadata (part : Part) (payload : Fields) (base : Workspace) : Fields :=
  base.metadata.put part.key (.object payload)

def workspaceTypes : List String := ["personal", "professional", "team", "shared"]

/-- `_normalize_workspace_type` -/
def normalizeWorkspaceType (value fallback : String) : String :=
  let token := env.lowercase.token value
  let fallback := env.lowercase.token (if fallback = "" then "personal" else fallback)
  if token ∈ workspaceTypes then token
  else if fallback ∈ workspaceTypes then fallback else "personal"

/-- The name that the updates ask for. -/
def updatedName (base existing : Workspace) : String :=
  let name := if strip base.name = "" then strip env.workspaceId else strip base.name
  if name = "" then strip existing.name else name

def updatedType (base existing : Workspace) : String :=
  normalizeWorkspaceType env (if base.workspaceType = "" then "personal" else base.workspaceType)
    (if existing.workspaceType = "" then "personal" else existing.workspaceType)

/-- The `UPDATE` of `update_workspace_profile`. -/
def updateWorkspaceProfile (s : Store) (base existing : Workspace) (metadata : Fields) : Store :=
  { s with row := s.row.map fun row =>
      { row with
        name := updatedName env base existing
        workspaceType := updatedType env base existing
        metadata := metadata } }

/-- The next step of a call in a process, while it has one. -/
def Update.step (s : Store) (process : Nat) (u : Update) : Option (Store × Update) :=
  match u.stage with
  | .reading get =>
    match getWorkspaceById env s process get with
    | (s, .going get) => some (s, { u with stage := .reading get })
    | (s, .got none) => some (s, { u with stage := .ended none })
    | (s, .got (some base)) => some (s, { u with stage := .selecting base })
  | .selecting base =>
    match s.row with
    | none => some (s, { u with stage := .ended none })
    | some existing =>
      if env.allows (strip existing.tenantId) then some (s, { u with stage := .updating base existing })
      else some (s, { u with stage := .blocked })
  | .updating base existing =>
    some (updateWorkspaceProfile env s base existing (nextMetadata u.part u.payload base),
      { u with stage := .dropping })
  | .dropping => some (workspaceLookupCacheDrop s process, { u with stage := .answering .look })
  | .answering get =>
    match getWorkspaceById env s process get with
    | (s, .going get) => some (s, { u with stage := .answering get })
    | (s, .got result) => some (s, { u with stage := .ended result })
  | .ended _ => none
  | .blocked => none

end Empyralis.Server.Workspaces
