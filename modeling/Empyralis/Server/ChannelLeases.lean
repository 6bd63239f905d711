import Empyralis.Lib.Run
import Empyralis.Lib.Text
import Mathlib.Data.List.Basic

/-! `acquire_channel_execution_lease` and `release_channel_execution_lease`: the turns of a channel
    under a quota.

    An acquire is one transaction under the advisory lock of its workspace, so it is one step; when
    it raises, what it deleted is back. `now` is the `NOW()` of the transaction and `clock` the time
    of the server that asks, which need not agree. A row keeps the number of the turn that inserted
    it, and `issued` the lease ids that the turns got. -/

namespace Empyralis.Server.ChannelLeases
open Text (strip)

/-! ### Quotas -/

/-- A value of the metadata, as `_coerce_int` and `or` see it: its truth value and `int(value)`, or
    none when that raises a `TypeError` or a `ValueError`. -/
structure Setting where
  truthy : Bool
  int : Option Int

/-- The two dictionaries of the metadata that hold quotas. -/
structure QuotaMetadata where
  concurrency : String → Option Setting
  planLimits : String → Option Setting

/-- `{**concurrency, **plan_limits}.get(key)`; without a workspace or an install there is none. -/
def get (metadata : Option QuotaMetadata) (key : String) : Option Setting :=
  metadata.bind fun m => (m.planLimits key).or (m.concurrency key)

/-- `value or other` -/
def either (value other : Option Setting) : Option Setting :=
  if value.any (·.truthy) then value else other

/-- `_coerce_int` -/
def coerceInt (value : Option Setting) (default minimum maximum : Int) : Int :=
  max minimum (min maximum ((value.bind (·.int)).getD default))

/-- The limits of a channel, resolved. -/
structure ChannelQuotaSnapshot where
  maxWorkspaceActiveThreads : Int
  maxAgentActiveThreads : Int
  maxWorkspaceTurnsPerMinute : Int
  maxRuntimeSeconds : Int
  deriving DecidableEq

/-- `resolve_channel_quota_snapshot`, each field with its default and its bounds -/
def resolveChannelQuotaSnapshot (workspace install : Option QuotaMetadata) :
    ChannelQuotaSnapshot where
  maxWorkspaceActiveThreads :=
    coerceInt (either (get workspace "max_concurrent_customer_threads")
      (get workspace "max_workspace_active_threads")) 24 1 1000
  maxAgentActiveThreads :=
    coerceInt (either (either (get install "max_active_threads")
      (get workspace "max_concurrent_threads_per_agent"))
      (get workspace "max_agent_active_threads")) 8 1 1000
  maxWorkspaceTurnsPerMinute :=
    coerceInt (either (get workspace "max_customer_turns_per_minute")
      (get workspace "max_workspace_turns_per_minute")) 180 1 10000
  maxRuntimeSeconds :=
    coerceInt (either (either (get install "max_runtime_seconds")
      (get workspace "max_customer_runtime_seconds"))
      (get workspace "max_runtime_seconds")) 45 5 300

/-- `ttl_seconds` -/
def ttlSeconds (quota : ChannelQuotaSnapshot) : Int := max (quota.maxRuntimeSeconds + 15) 30

/-! ### The table of leases -/

/-- A row of the lease table, with the turn that it was given to. -/
structure Lease where
  id : String
  tenantId : String
  workspaceId : String
  responderInstallId : Option String
  threadId : String
  expiresAt : Int
  turn : Nat
  deriving DecidableEq

/-- The lease is still good. -/
def Lease.unexpired (now : Int) (l : Lease) : Bool := now < l.expiresAt

def Lease.inWorkspace (tenantId workspaceId : String) (l : Lease) : Bool :=
  l.tenantId = tenantId && l.workspaceId = workspaceId

/-- The lease is on the thread of a workspace. -/
def Lease.onThread (tenantId workspaceId threadId : String) (l : Lease) : Bool :=
  l.inWorkspace tenantId workspaceId && l.threadId = threadId

/-- The lease is of a responder in a workspace. -/
def Lease.ofAgent (tenantId workspaceId agent : String) (l : Lease) : Bool :=
  l.inWorkspace tenantId workspaceId && l.responderInstallId = some agent

/-- The rows, and the ids of the leases that were ever issued. -/
structure State where
  rows : List Lease
  issued : List String

def start : State where
  rows := []
  issued := []

/-! ### acquire and release -/

/-- `reason` of a `ChannelExecutionLimitError` -/
inductive Reason where
  | threadBusy | agentLimitExceeded | workspaceLimitExceeded | workspaceRateLimited
  deriving DecidableEq

/-- The code of a refusal. -/
def Reason.text : Reason → String
  | .threadBusy => "thread_busy"
  | .agentLimitExceeded => "agent_limit_exceeded"
  | .workspaceLimitExceeded => "workspace_limit_exceeded"
  | .workspaceRateLimited => "workspace_rate_limited"

/-- After how many seconds a turn may try again. -/
def Reason.retryAfterSeconds : Reason → Nat
  | .threadBusy => 2
  | .agentLimitExceeded | .workspaceLimitExceeded => 5
  | .workspaceRateLimited => 10

/-- What an acquire raises: the refusal of the kernel, a limit, or an error of the database. -/
inductive Failure where
  | gate
  | limit (reason : Reason) (quota : ChannelQuotaSnapshot)
  | database
  deriving DecidableEq

/-- The arguments of an acquire, and what it meets: whether the kernel lets it pass and the database
    answers, the two times, the inbound messages of the last minute, the random digits of the id and
    whether the thread and the install that the row refers to exist. -/
structure Request where
  tenantId : String
  workspaceId : String
  responderInstallId : Option String
  threadId : String
  workspace : Option QuotaMetadata
  install : Option QuotaMetadata
  allowed : Bool
  connected : Bool
  now : Int
  clock : Int
  recentTurns : Nat
  digits : List (Fin 16)
  references : Bool

def Request.tenant (r : Request) : String := strip r.tenantId
def Request.space (r : Request) : String := strip r.workspaceId
def Request.thread (r : Request) : String := strip r.threadId

/-- `str(responder_install_id or "").strip() or None` -/
def Request.agent (r : Request) : Option String :=
  match r.responderInstallId with
  | none => none
  | some id => if strip id = "" then none else some (strip id)

/-- The limits that the request comes under. -/
def Request.quota (r : Request) : ChannelQuotaSnapshot :=
  resolveChannelQuotaSnapshot r.workspace r.install

def hexDigit (d : Fin 16) : Char :=
  if d.val < 10 then Char.ofNat (48 + d.val) else Char.ofNat (87 + d.val)

/-- `f"lease_{uuid.uuid4().hex[:16]}"` -/
def leaseId (digits : List (Fin 16)) : String :=
  String.ofList ("lease_".toList ++ digits.map hexDigit)

/-- The DELETE of an acquire. -/
def deleteExpired (rows : List Lease) (r : Request) : List Lease :=
  rows.filter fun l => !(l.inWorkspace r.tenant r.space && !l.unexpired r.now)

/-- A lease on the thread is still good. -/
def activeThread (rows : List Lease) (r : Request) : Bool :=
  rows.any fun l => l.onThread r.tenant r.space r.thread && l.unexpired r.now

/-- `COUNT(*)` of the unexpired leases of the agent. -/
def activeAgentCount (rows : List Lease) (r : Request) (agent : String) : Nat :=
  rows.countP fun l => l.ofAgent r.tenant r.space agent && l.unexpired r.now

/-- `COUNT(*)` of the unexpired leases of the workspace. -/
def activeWorkspaceCount (rows : List Lease) (r : Request) : Nat :=
  rows.countP fun l => l.inWorkspace r.tenant r.space && l.unexpired r.now

/-- Without an agent there is no limit of its own. -/
def agentLimitReached (rows : List Lease) (r : Request) : Bool :=
  match r.agent with
  | none => false
  | some agent => r.quota.maxAgentActiveThreads ≤ activeAgentCount rows r agent

/-- The row that is inserted. -/
def State.newLease (s : State) (r : Request) : Lease where
  id := leaseId r.digits
  tenantId := r.tenant
  workspaceId := r.space
  responderInstallId := r.agent
  threadId := r.thread
  expiresAt := r.clock + ttlSeconds r.quota
  turn := s.issued.length

/-- The INSERT: the id is the primary key, and a unique index spans the tenant, the workspace and
    the thread. -/
def State.insert (s : State) (rows : List Lease) (r : Request) : Except Failure State :=
  if rows.any (·.id = leaseId r.digits) then .error .database
  else if rows.any (·.onThread r.tenant r.space r.thread) then
    .error (.limit .threadBusy r.quota)
  else if ¬ r.references then .error .database
  else .ok ⟨rows ++ [s.newLease r], s.issued ++ [leaseId r.digits]⟩

/-- The checks in the order of the source, then the `INSERT`. -/
def State.acquire (s : State) (r : Request) : Except Failure State :=
  let rows := deleteExpired s.rows r
  if ¬ r.allowed then .error .gate
  else if ¬ r.connected then .error (.limit .workspaceLimitExceeded r.quota)
  else if activeThread rows r then .error (.limit .threadBusy r.quota)
  else if agentLimitReached rows r then .error (.limit .agentLimitExceeded r.quota)
  else if r.quota.maxWorkspaceActiveThreads ≤ activeWorkspaceCount rows r then
    .error (.limit .workspaceLimitExceeded r.quota)
  else if r.quota.maxWorkspaceTurnsPerMinute ≤ r.recentTurns then
    .error (.limit .workspaceRateLimited r.quota)
  else s.insert rows r

/-- The rows that the DELETE of a release names. -/
def Lease.named (tenantId workspaceId leaseId : String) (l : Lease) : Bool :=
  l.id = strip leaseId && l.inWorkspace (strip tenantId) (strip workspaceId)

/-- `reached` is whether the kernel lets the release pass and the database answers. -/
def State.release (s : State) (tenantId workspaceId leaseId : String) (reached : Bool) : State :=
  if strip leaseId = "" ∨ ¬ reached then s
  else { s with rows := s.rows.filter fun l => !l.named tenantId workspaceId leaseId }

/-- A call of the service; a release may fail to reach the database. -/
inductive Label where
  | acquire (r : Request)
  | release (tenantId workspaceId leaseId : String) (reached : Bool)

/-- An acquire that raises leaves the table as it was. -/
def step (s : State) : Label → Option State
  | .acquire r =>
    match s.acquire r with
    | .ok t => some t
    | .error _ => some s
  | .release tenantId workspaceId leaseId reached =>
    some (s.release tenantId workspaceId leaseId reached)

/-! ### What an acquire and a release do -/

/-- Every row was inserted by the turn it names, and no two rows are for one thread. -/
structure Sound (s : State) : Prop where
  threads : s.rows.Pairwise fun a b =>
    ¬ (a.tenantId = b.tenantId ∧ a.workspaceId = b.workspaceId ∧ a.threadId = b.threadId)
  owner : ∀ l ∈ s.rows, s.issued[l.turn]? = some l.id

theorem sound_start : Sound start where
  threads := List.Pairwise.nil
  owner := fun _ hl => absurd hl List.not_mem_nil

variable {s t : State} {r : Request} {l : Lease}

theorem coerceInt_bounds (value : Option Setting) (default : Int) {minimum maximum : Int}
    (h : minimum ≤ maximum) : minimum ≤ coerceInt value default minimum maximum ∧
      coerceInt value default minimum maximum ≤ maximum := by
  unfold coerceInt
  omega

theorem mem_deleteExpired : l ∈ deleteExpired s.rows r ↔
    l ∈ s.rows ∧ (l.inWorkspace r.tenant r.space → l.unexpired r.now) := by
  cases hw : l.inWorkspace r.tenant r.space <;> simp [deleteExpired, hw]

/-- An acquire that succeeds has passed every check and inserted its row. -/
theorem acquire_ok (h : s.acquire r = .ok t) :
    t = ⟨deleteExpired s.rows r ++ [s.newLease r], s.issued ++ [leaseId r.digits]⟩ ∧
    (∀ l ∈ deleteExpired s.rows r, l.onThread r.tenant r.space r.thread = false) ∧
    agentLimitReached (deleteExpired s.rows r) r = false ∧
    (activeWorkspaceCount (deleteExpired s.rows r) r : Int) < r.quota.maxWorkspaceActiveThreads := by
  unfold State.acquire at h
  simp only at h
  split at h <;> [simp at h; skip]
  split at h <;> [simp at h; skip]
  split at h <;> [simp at h; skip]
  split at h <;> [simp at h; skip]
  rename_i hagent
  split at h <;> [simp at h; skip]
  rename_i hworkspace
  split at h <;> [simp at h; skip]
  unfold State.insert at h
  split at h <;> [simp at h; skip]
  split at h <;> [simp at h; skip]
  rename_i hthread
  split at h <;> [simp at h; skip]
  rw [Except.ok.injEq] at h
  refine ⟨h.symm, ?_, Bool.eq_false_iff.mpr hagent, Int.not_le.mp hworkspace⟩
  intro l hl
  rw [Bool.not_eq_true, List.any_eq_false] at hthread
  exact Bool.eq_false_iff.mpr (hthread l hl)

theorem onThread_iff {tenantId workspaceId threadId : String} :
    l.onThread tenantId workspaceId threadId ↔
      l.tenantId = tenantId ∧ l.workspaceId = workspaceId ∧ l.threadId = threadId := by
  simp [Lease.onThread, Lease.inWorkspace, and_assoc]

theorem sound_acquire (hs : Sound s) (h : s.acquire r = .ok t) : Sound t := by
  obtain ⟨rfl, hthread, -, -⟩ := acquire_ok h
  constructor
  · refine List.pairwise_append.mpr
      ⟨hs.threads.sublist List.filter_sublist, List.pairwise_singleton _ _, ?_⟩
    rintro a ha b hb hab
    rw [List.mem_singleton] at hb
    subst hb
    exact absurd (onThread_iff.mpr hab) (Bool.eq_false_iff.mp (hthread a ha))
  · intro l hl
    rcases List.mem_append.mp hl with hl | hl
    · obtain ⟨hlt, hget⟩ := List.getElem?_eq_some_iff.mp
        (hs.owner l (mem_deleteExpired.mp hl).1)
      simp only [List.getElem?_append_left hlt, hs.owner l (mem_deleteExpired.mp hl).1]
    · rw [List.mem_singleton] at hl
      subst hl
      simp [State.newLease]

theorem sound_release (hs : Sound s) (tenantId workspaceId leaseId : String) (reached : Bool) :
    Sound (s.release tenantId workspaceId leaseId reached) := by
  unfold State.release
  split
  · exact hs
  · exact ⟨hs.threads.sublist List.filter_sublist,
      fun l hl => hs.owner l (List.mem_filter.mp hl).1⟩

theorem sound_step {label : Label} (hs : Sound s) (h : step s label = some t) : Sound t := by
  cases label with
  | acquire r =>
    simp only [step] at h
    split at h
    · rename_i u hu
      exact Option.some.inj h ▸ sound_acquire hs hu
    · exact Option.some.inj h ▸ hs
  | release tenantId workspaceId leaseId reached =>
    exact Option.some.inj h ▸ sound_release hs tenantId workspaceId leaseId reached

theorem sound_run {labels : List Label} (h : Run.run step start labels = some s) : Sound s :=
  Run.run_inv_all (fun _ _ _ hs hst => sound_step hs hst) sound_start h

/-- The row of a thread is the only one. -/
theorem Sound.count_thread (hs : Sound s) (tenantId workspaceId threadId : String) :
    s.rows.countP (·.onThread tenantId workspaceId threadId) ≤ 1 := by
  rw [List.countP_eq_length_filter]
  have hpair := hs.threads.filter (·.onThread tenantId workspaceId threadId)
  have hmem : ∀ l ∈ s.rows.filter (·.onThread tenantId workspaceId threadId),
      l.tenantId = tenantId ∧ l.workspaceId = workspaceId ∧ l.threadId = threadId :=
    fun l hl => onThread_iff.mp (List.mem_filter.mp hl).2
  revert hpair hmem
  generalize s.rows.filter (·.onThread tenantId workspaceId threadId) = rows
  intro hpair hmem
  match rows with
  | [] => exact Nat.zero_le 1
  | [_] => exact Nat.le_refl 1
  | a :: b :: rest =>
    obtain ⟨hat, haw, hath⟩ := hmem a (by simp)
    obtain ⟨hbt, hbw, hbth⟩ := hmem b (by simp)
    exact absurd ⟨hat.trans hbt.symm, haw.trans hbw.symm, hath.trans hbth.symm⟩
      (List.rel_of_pairwise_cons hpair (List.mem_cons_self ..))

/-! ### The token of a turn -/

theorem hexDigit_not_space : ∀ d : Fin 16, Text.pySpace (hexDigit d) = false := by decide

theorem mem_leaseId {digits : List (Fin 16)} {c : Char} (hc : c ∈ (leaseId digits).toList) :
    c ∈ "lease_".toList ∨ ∃ d ∈ digits, hexDigit d = c := by
  unfold leaseId at hc
  rw [String.toList_ofList] at hc
  rw [List.mem_append] at hc
  rw [List.mem_map] at hc
  exact hc

theorem leasePrefix_not_space : ∀ c ∈ "lease_".toList, Text.pySpace c = false := by
  have hall : "lease_".toList.all fun c => !Text.pySpace c := by decide
  intro c hc
  simpa using List.all_eq_true.mp hall c hc

/-- A lease id is handed back as it was given out. -/
theorem strip_leaseId (digits : List (Fin 16)) : strip (leaseId digits) = leaseId digits := by
  unfold strip
  apply Text.trim_eq_self
  intro c hc
  exact (mem_leaseId hc).elim (leasePrefix_not_space c)
    fun ⟨d, _, hd⟩ => hd ▸ hexDigit_not_space d

theorem issued_step {label : Label} (hs : ∀ id ∈ s.issued, strip id = id)
    (h : step s label = some t) : ∀ id ∈ t.issued, strip id = id := by
  cases label with
  | acquire r =>
    simp only [step] at h
    split at h
    · rename_i u hu
      obtain ⟨rfl, -⟩ := acquire_ok hu
      rw [← Option.some.inj h]
      intro id hid
      rcases List.mem_append.mp hid with hid | hid
      · exact hs id hid
      · exact List.mem_singleton.mp hid ▸ strip_leaseId r.digits
    · exact Option.some.inj h ▸ hs
  | release tenantId workspaceId leaseId reached =>
    rw [← Option.some.inj h]
    unfold State.release
    split <;> exact hs

theorem issued_run {labels : List Label} (h : Run.run step start labels = some s) :
    ∀ id ∈ s.issued, strip id = id :=
  Run.run_inv_all (I := fun s => ∀ id ∈ s.issued, strip id = id)
    (fun _ _ _ hs hst => issued_step hs hst) (fun _ hid => absurd hid List.not_mem_nil) h

/-- A release removes nothing but the row with its token. -/
theorem Sound.released (hs : Sound s) {tenantId workspaceId token : String} {reached : Bool}
    (hl : l ∈ s.rows) (hgone : l ∉ (s.release tenantId workspaceId token reached).rows) :
    s.issued[l.turn]? = some (strip token) := by
  unfold State.release at hgone
  split at hgone
  · exact absurd hl hgone
  · have hnamed : l.named tenantId workspaceId token := by
      by_contra hnot
      exact hgone (List.mem_filter.mpr ⟨hl, by simp [hnot]⟩)
    rw [hs.owner l hl]
    simp only [Lease.named, Bool.and_eq_true, decide_eq_true_eq] at hnamed
    rw [hnamed.1]

/-! ### The limits -/

theorem countP_snoc_le (p : Lease → Bool) (rows : List Lease) (l : Lease) :
    (rows ++ [l]).countP p ≤ rows.countP p + 1 := by
  rw [List.countP_append]
  exact Nat.add_le_add_left (List.countP_le_length (p := p) (l := [l])) _

/-- What an acquire leaves: its agent and its workspace within the limits, and every row that had
    not expired. -/
theorem acquire_within (h : s.acquire r = .ok t) :
    (∀ agent, r.agent = some agent →
      (activeAgentCount t.rows r agent : Int) ≤ r.quota.maxAgentActiveThreads) ∧
    (activeWorkspaceCount t.rows r : Int) ≤ r.quota.maxWorkspaceActiveThreads ∧
    (∀ l ∈ s.rows, l ∉ t.rows → l.expiresAt ≤ r.now) := by
  obtain ⟨rfl, -, hagent, hworkspace⟩ := acquire_ok h
  refine ⟨?_, ?_, ?_⟩
  · intro agent hr
    simp only [agentLimitReached, hr, decide_eq_false_iff_not, Int.not_le] at hagent
    have hle := countP_snoc_le (fun l => l.ofAgent r.tenant r.space agent && l.unexpired r.now)
      (deleteExpired s.rows r) (s.newLease r)
    simp only [activeAgentCount] at hagent ⊢
    omega
  · have hle := countP_snoc_le (fun l => l.inWorkspace r.tenant r.space && l.unexpired r.now)
      (deleteExpired s.rows r) (s.newLease r)
    simp only [activeWorkspaceCount] at hworkspace ⊢
    omega
  · intro l hl hgone
    by_contra hlive
    have hunexpired : l.unexpired r.now := by
      simpa [Lease.unexpired] using hlive
    exact hgone (List.mem_append_left _ (mem_deleteExpired.mpr ⟨hl, fun _ => hunexpired⟩))

/-- A thread has one lease at most; an acquire that succeeds leaves its agent and its workspace
    within the limits it was given, its own lease counted, and drops expired leases only; and a
    release removes only leases with the id it names, so with the token of a turn that of no other
    turn, as long as no two turns drew the same id. -/
theorem channel_leases_bounded {labels : List Label}
    (h : Run.run step start labels = some s) :
    (∀ tenantId workspaceId threadId : String,
      s.rows.countP (·.onThread tenantId workspaceId threadId) ≤ 1) ∧
    (∀ (r : Request) (t : State), s.acquire r = .ok t →
      (∀ agent, r.agent = some agent →
        (activeAgentCount t.rows r agent : Int) ≤ r.quota.maxAgentActiveThreads) ∧
      (activeWorkspaceCount t.rows r : Int) ≤ r.quota.maxWorkspaceActiveThreads ∧
      ∀ l ∈ s.rows, l ∉ t.rows → l.expiresAt ≤ r.now) ∧
    (∀ (tenantId workspaceId token : String) (reached : Bool) (turn : Nat),
      s.issued[turn]? = some token → ∀ l ∈ s.rows,
        l ∉ (s.release tenantId workspaceId token reached).rows →
          l.id = token ∧ (s.issued.Nodup → l.turn = turn)) := by
  have hs := sound_run h
  refine ⟨hs.count_thread, fun r t hr => acquire_within hr, ?_⟩
  intro tenantId workspaceId token reached turn hturn l hl hgone
  have hrow := hs.released hl hgone
  rw [issued_run h token (List.mem_of_getElem? hturn)] at hrow
  refine ⟨Option.some.inj ((hs.owner l hl).symm.trans hrow), fun hnodup => ?_⟩
  rw [← hturn] at hrow
  obtain ⟨hlt, -⟩ := List.getElem?_eq_some_iff.mp (hrow.trans hturn)
  exact (List.getElem?_inj hlt hnodup).mp hrow

/-- A turn of one thread at the time `now`. -/
def turnAt (now : Int) (digits : List (Fin 16)) : Request where
  tenantId := "t"
  workspaceId := "w"
  responderInstallId := some " agent "
  threadId := "thread"
  workspace := none
  install := none
  allowed := true
  connected := true
  now := now
  clock := now
  recentTurns := 1
  digits := digits
  references := true

/-- The lease of the first turn expires, the second turn takes the thread, a third is refused, and
    the first turn comes to its release. -/
def staleRelease : List Label :=
  [.acquire (turnAt 0 [1, 15]), .acquire (turnAt 60 [2, 10]), .acquire (turnAt 61 [3, 0]),
    .release "t" "w" "lease_1f" true]

theorem channel_leases_bounded_stale : ∃ s, Run.run step start staleRelease = some s ∧
    s.rows = [⟨"lease_2a", "t", "w", some "agent", "thread", 120, 1⟩] ∧
    s.rows.countP (·.onThread "t" "w" "thread") ≤ 1 := by
  have hrows : (Run.run step start staleRelease).map (·.rows) =
      some [⟨"lease_2a", "t", "w", some "agent", "thread", 120, 1⟩] := by decide
  obtain ⟨s, hrun, hs⟩ := Option.map_eq_some_iff.mp hrows
  exact ⟨s, hrun, hs, (channel_leases_bounded hrun).1 "t" "w" "thread"⟩

end Empyralis.Server.ChannelLeases
