import Empyralis.Server.LeaseRuns

/-! Which of the runs that wait `claim_local_machine_lease` gives to a worker, and what it leaves. -/

namespace Empyralis.Server.Leases
open Text (strip)

variable (env : Env)

/-- `claim_local_machine_lease`, with the cleanup that it begins with. -/
def claimAfterCleanup (cleanupStaleLocalClaims : State → Outcome Unit) (call : Call) (s : State) (workerId : String)
    (requiredCapabilities : List String) : Outcome (Option String) :=
  match cleanupStaleLocalClaims s with
  | (.error e, t) => (.error e, t)
  | (.ok (), t) => claimLocalMachineLease env call t workerId requiredCapabilities

/-! ### The runs that a worker may have -/

/-- A run is queued under this id. -/
def queued (s : State) (runId : String) : Bool :=
  match s.runs.get? runId with
  | some (.object run) => ["queued_local", "starting"].contains (statusOf env run)
  | _ => false

/-- The runtime that is to have the run, of those that are online. -/
def preferredOf (s : State) (now : Int) (run : Fields) : Option String :=
  bestOnlinePreferredRuntime env s.registry now (env.orderedRuntimePreferences run)

/-- The queued run may go to the worker. -/
structure Fit (s : State) (now : Int) (workerId runId : String) (run : Fields) : Prop where
  there : s.runs.get? runId = some (.object run)
  status : statusOf env run ∈ ["queued_local", "starting"]
  due : ∀ due, (Fields.get (metadataOf run) "local_queue_next_retry_at").truthy →
    env.parseUtcTs (Fields.get (metadataOf run) "local_queue_next_retry_at") = some due → due ≤ now
  preferred : ∀ runtime, preferredOf env s now run = some runtime → runtime = workerId
  capable : ∀ capability ∈ env.requiredCapabilities run,
    capability ∈ env.normalizeCapabilityIds ((s.registry.get? workerId).getD {}).capabilities
  allowed : workerRuntimeScopeAllowsRun env (s.registry.get? workerId) (runScope env run)

/-- The run needs no more than the call asks for, if it asks for anything. -/
def Asked (requiredCapabilities : List String) (run : Fields) : Prop :=
  env.normalizeCapabilityIds requiredCapabilities = [] ∨
    ∀ capability ∈ env.requiredCapabilities run, capability ∈ env.normalizeCapabilityIds requiredCapabilities

def retryCountOf (run : Fields) : Option Int :=
  env.int (orValue (Fields.get (metadataOf run) "local_queue_retry_count") (.int 0))

/-- The score of a run at a place of the queue. -/
def scoreOf (s : State) (now : Int) (queueIndex : Nat) (run : Fields) : List Nat :=
  [if (preferredOf env s now run).isSome then 0 else 1,
    (claimScopes env s).countP (·.workspaceId = (runScope env run).workspaceId),
    (claimScopes env s).countP (·.specialistKey = (runScope env run).specialistKey),
    (pendingScopes env s).countP (·.workspaceId = (runScope env run).workspaceId),
    (pendingScopes env s).countP (·.specialistKey = (runScope env run).specialistKey),
    (max 0 ((retryCountOf env run).getD 0)).toNat, queueIndex]

def candidate (s : State) (now : Int) (queueIndex : Nat) (runId : String) (run : Fields) : Eligible where
  runId := runId
  run := run
  requiredCapabilities := env.requiredCapabilities run
  scope := runScope env run
  score := scoreOf env s now queueIndex run

theorem subsetOf_iff {a b : List String} : subsetOf a b ↔ ∀ x ∈ a, x ∈ b := by
  simp [subsetOf]

/-- What a look at an id of the queue finds. -/
inductive Found (s : State) (now : Int) (workerId : String) (requiredCapabilities : List String) (queueIndex : Nat)
    (runId : String) : Except Error Look → Prop
  | dropped (h : queued env s runId = false) : Found s now workerId requiredCapabilities queueIndex runId (.ok .dropped)
  | deferred (hqueued : queued env s runId)
    (h : ∀ run, Fit env s now workerId runId run → ¬Asked env requiredCapabilities run) :
    Found s now workerId requiredCapabilities queueIndex runId (.ok .deferred)
  | uncounted : Found s now workerId requiredCapabilities queueIndex runId (.error .value)
  | eligible {run : Fields} (hfit : Fit env s now workerId runId run) (hasked : Asked env requiredCapabilities run) :
    Found s now workerId requiredCapabilities queueIndex runId
      (.ok (.eligible (candidate env s now queueIndex runId run)))

/-- The item of an id at a place of the queue, if its run may go to the worker. -/
def Offered (s : State) (now : Int) (workerId : String) (requiredCapabilities : List String) (queueIndex : Nat)
    (runId : String) (item : Eligible) : Prop :=
  ∃ run, Fit env s now workerId runId run ∧ Asked env requiredCapabilities run ∧
    item = candidate env s now queueIndex runId run

theorem exists_place_cons {α : Type} {x : α} {xs : List α} {P : Nat → α → Prop} :
    (∃ i a, (x :: xs)[i]? = some a ∧ P i a) ↔ P 0 x ∨ ∃ i a, xs[i]? = some a ∧ P (i + 1) a := by
  constructor
  · rintro ⟨i, a, hget, h⟩
    cases i with
    | zero =>
      obtain rfl := Option.some.inj hget
      exact .inl h
    | succ i => exact .inr ⟨i, a, hget, h⟩
  · rintro (h | ⟨i, a, hget, h⟩)
    · exact ⟨0, x, rfl, h⟩
    · exact ⟨i + 1, a, hget, h⟩

section Look

variable {env} {s : State} {now : Int} {workerId runId : String} {requiredCapabilities : List String} {queueIndex : Nat}

theorem Fit.queued {run : Fields} (h : Fit env s now workerId runId run) : queued env s runId := by
  rw [Leases.queued, h.there]
  exact List.contains_iff_mem.mpr h.status

theorem Fit.unique {run other : Fields} (h : Fit env s now workerId runId run)
    (h' : s.runs.get? runId = some (.object other)) : run = other := by
  have heq := Option.some.inj (h.there.symm.trans h')
  exact Value.object.inj heq

/-- What the look at a run finds out. -/
theorem look_found : Found env s now workerId requiredCapabilities queueIndex runId
    (look env s now workerId (s.registry.get? workerId) (env.normalizeCapabilityIds requiredCapabilities) queueIndex
      runId) := by
  unfold look
  split
  · rename_i run hthere
    split
    · rename_i hstatus
      refine .dropped ?_
      rw [queued, hthere]
      exact Bool.not_eq_true' _ |>.mp hstatus
    rename_i hstatus
    have hstatus' : ["queued_local", "starting"].contains (statusOf env run) := by
      rwa [Bool.not_eq_true, Bool.not_eq_false'] at hstatus
    have hqueued : queued env s runId := by
      rw [queued, hthere]
      exact hstatus'
    dsimp only
    split
    · rename_i hdue
      rw [Bool.and_eq_true, Option.any_eq_true] at hdue
      obtain ⟨htruthy, due, hparse, hlater⟩ := hdue
      refine .deferred hqueued fun other hfit => ?_
      obtain rfl := hfit.unique hthere
      exact absurd (hfit.due due htruthy hparse) (Int.not_le.mpr (of_decide_eq_true hlater))
    rename_i hdue
    split
    · rename_i hpreferred
      obtain ⟨runtime, hruntime, hother⟩ := Option.any_eq_true _ _ |>.mp hpreferred
      refine .deferred hqueued fun other hfit => ?_
      obtain rfl := hfit.unique hthere
      exact absurd (hfit.preferred runtime hruntime) (of_decide_eq_true hother)
    rename_i hpreferred
    split
    · rename_i hcapable
      refine .deferred hqueued fun other hfit => ?_
      obtain rfl := hfit.unique hthere
      rw [subsetOf_iff.mpr hfit.capable] at hcapable
      cases hcapable
    rename_i hcapable
    split
    · rename_i hasked
      rw [Bool.and_eq_true, decide_eq_true_iff] at hasked
      refine .deferred hqueued fun other hfit hother => ?_
      obtain rfl := hfit.unique hthere
      rw [subsetOf_iff.mpr (hother.resolve_left hasked.1)] at hasked
      cases hasked.2
    rename_i hasked
    split
    · rename_i hallowed
      refine .deferred hqueued fun other hfit => ?_
      obtain rfl := hfit.unique hthere
      rw [hfit.allowed] at hallowed
      cases hallowed
    rename_i hallowed
    rw [Bool.not_eq_true, Bool.not_eq_false'] at hcapable hallowed
    have hfit : Fit env s now workerId runId run :=
      { there := hthere
        status := List.contains_iff_mem.mp hstatus'
        due := by
          intro due htruthy hparse
          rw [htruthy, hparse, Bool.true_and, Option.any_some, decide_eq_true_iff] at hdue
          exact Int.not_lt.mp hdue
        preferred := by
          intro runtime hruntime
          rw [preferredOf] at hruntime
          rw [hruntime, Option.any_some, decide_eq_true_iff] at hpreferred
          exact not_not.mp hpreferred
        capable := subsetOf_iff.mp hcapable
        allowed := hallowed }
    have hasked' : Asked env requiredCapabilities run := by
      rw [Bool.and_eq_true, decide_eq_true_iff, Bool.not_eq_true', ← Bool.not_eq_true, subsetOf_iff] at hasked
      exact Decidable.or_iff_not_imp_left.mpr fun h => not_not.mp fun hnot => hasked ⟨h, hnot⟩
    split
    · exact .uncounted
    · rename_i count hcount
      have helig : Found env s now workerId requiredCapabilities queueIndex runId _ := .eligible hfit hasked'
      rw [candidate, scoreOf, retryCountOf, hcount] at helig
      exact helig
  · rename_i hthere
    refine .dropped ?_
    rw [queued]
    split
    · rename_i run h
      exact absurd h (hthere run)
    · rfl

/-- A scan keeps the queued runs, and has an item for each of them that may go to the worker. -/
theorem scan_found {pending remaining : List String} {items : List Eligible}
    (h : scan env s now workerId (s.registry.get? workerId) (env.normalizeCapabilityIds requiredCapabilities) queueIndex
      pending = .ok (remaining, items)) :
    remaining = pending.filter (queued env s) ∧
      ∀ item, item ∈ items ↔ ∃ i runId, pending[i]? = some runId ∧
        Offered env s now workerId requiredCapabilities (queueIndex + i) runId item := by
  induction pending generalizing queueIndex remaining items with
  | nil =>
    cases h
    simp
  | cons runId rest ih =>
    rw [scan] at h
    have hfound : Found env s now workerId requiredCapabilities queueIndex runId _ := look_found
    generalize look env s now workerId (s.registry.get? workerId) (env.normalizeCapabilityIds requiredCapabilities)
      queueIndex runId = found at h hfound
    rcases hs : scan env s now workerId (s.registry.get? workerId) (env.normalizeCapabilityIds requiredCapabilities)
      (queueIndex + 1) rest with e | ⟨remaining', items'⟩
    · cases hfound <;> simp only [hs, reduceCtorEq] at h
    obtain ⟨hremaining, hitems⟩ := ih hs
    have hrest (item : Eligible) : item ∈ items' ↔ ∃ i other, rest[i]? = some other ∧
        Offered env s now workerId requiredCapabilities (queueIndex + (i + 1)) other item := by
      rw [hitems]
      simp only [Nat.add_right_comm queueIndex 1, Nat.add_assoc]
    cases hfound with
    | uncounted => cases h
    | dropped hnot =>
      simp only [hs] at h
      cases h
      rw [List.filter_cons_of_neg (by simp [hnot])]
      refine ⟨hremaining, fun item => ?_⟩
      rw [exists_place_cons, hrest]
      refine (or_iff_right ?_).symm
      rintro ⟨run, hfit, -⟩
      cases hnot.symm.trans hfit.queued
    | deferred hqueued hnone =>
      simp only [hs] at h
      cases h
      rw [List.filter_cons_of_pos hqueued, hremaining]
      refine ⟨rfl, fun item => ?_⟩
      rw [exists_place_cons, hrest]
      refine (or_iff_right ?_).symm
      rintro ⟨run, hfit, hasked, -⟩
      exact hnone run hfit hasked
    | eligible hfit hasked =>
      simp only [hs] at h
      cases h
      rw [List.filter_cons_of_pos hfit.queued, hremaining]
      refine ⟨rfl, fun item => ?_⟩
      rw [List.mem_cons, hrest, exists_place_cons]
      refine or_congr_left ?_
      constructor
      · rintro rfl
        exact ⟨_, hfit, hasked, rfl⟩
      · rintro ⟨run, hfit', -, rfl⟩
        obtain rfl := hfit.unique hfit'.there
        rfl

end Look

/-! ### The least score -/

/-- No other run has a lower score. -/
theorem best_least (items : List Eligible) (item : Eligible) :
    ∀ other ∈ item :: items, ¬other.score < (best item items).score := by
  induction items generalizing item with
  | nil =>
    intro other hother
    rw [List.mem_singleton.mp hother, best]
    exact List.lt_irrefl _
  | cons next items ih =>
    intro other hother
    rw [best]
    split
    · rename_i hlt
      rcases List.mem_cons.mp hother with rfl | hother
      · exact fun h => ih next next List.mem_cons_self (List.lt_trans hlt h)
      · exact ih next other hother
    · rename_i hle
      rcases List.mem_cons.mp hother with rfl | hother
      · exact ih other other List.mem_cons_self
      rcases List.mem_cons.mp hother with rfl | hother
      · exact fun h => ih item item List.mem_cons_self (List.lt_of_le_of_lt (List.not_lt.mp hle) h)
      · exact ih item other (List.mem_cons_of_mem _ hother)

/-- Two runs that only their places in the queue tell apart. -/
structure SameRank (s : State) (now : Int) (run other : Fields) : Prop where
  workspace : (runScope env run).workspaceId = (runScope env other).workspaceId
  specialist : (runScope env run).specialistKey = (runScope env other).specialistKey
  preferred : (preferredOf env s now run).isSome = (preferredOf env s now other).isSome
  retries : retryCountOf env run = retryCountOf env other

theorem place_le {env : Env} {s : State} {now : Int} {i j : Nat} {run other : Fields}
    (hrank : SameRank env s now run other) (h : ¬scoreOf env s now j other < scoreOf env s now i run) : i ≤ j := by
  by_contra hlt
  refine h ?_
  rw [scoreOf, scoreOf, hrank.workspace, hrank.specialist, hrank.preferred, hrank.retries]
  simp only [List.cons_lt_cons_iff, lt_irrefl, false_or, true_and]
  omega

/-- The claimed run may go to the worker, with the least score of all that may, and it waits no more; the other queued
    runs wait as they did. -/
structure Selected (s : State) (now : Int) (workerId : String) (requiredCapabilities : List String)
    (claimedRunId : String) (t : State) : Prop where
  run : ∃ i runId run, s.pending[i]? = some runId ∧ strip runId = claimedRunId ∧ Fit env s now workerId runId run ∧
    Asked env requiredCapabilities run ∧
    ∀ j other otherRun, s.pending[j]? = some other → Fit env s now workerId other otherRun →
      Asked env requiredCapabilities otherRun →
        ¬scoreOf env s now j otherRun < scoreOf env s now i run ∧ (SameRank env s now run otherRun → i ≤ j)
  pending : t.pending = (s.pending.filter (queued env s)).filter (· ≠ claimedRunId)

theorem selected_best {env : Env} {s t : State} {now : Int} {workerId : String}
    {requiredCapabilities remaining : List String} {first : Eligible} {rest : List Eligible}
    (h : scan env s now workerId (s.registry.get? workerId) (env.normalizeCapabilityIds requiredCapabilities) 0
      s.pending = .ok (remaining, first :: rest))
    (ht : t.pending = remaining.filter (· ≠ strip (best first rest).runId)) :
    Selected env s now workerId requiredCapabilities (strip (best first rest).runId) t := by
  obtain ⟨hremaining, hitems⟩ := scan_found h
  refine ⟨?_, hremaining ▸ ht⟩
  obtain ⟨i, runId, hget, run, hfit, hasked, hbest⟩ := (hitems _).mp (best_mem rest first)
  refine ⟨i, runId, run, hget, by rw [hbest, candidate], hfit, hasked, ?_⟩
  intro j other otherRun hother hfit' hasked'
  have hleast := best_least rest first _ ((hitems _).mpr ⟨j, other, hother, otherRun, hfit', hasked', rfl⟩)
  rw [hbest, candidate, candidate, Nat.zero_add, Nat.zero_add] at hleast
  exact ⟨hleast, fun hrank => place_le hrank hleast⟩

/-- The run that a call claims has the least score of those that may go to the worker and that the call asks for. A call
    that claims nothing leaves the queued runs as they wait, and one that a gate stops leaves all as the cleanup did. -/
theorem claim_selection (cleanupStaleLocalClaims : State → Outcome Unit) (call : Call) (s : State) (workerId : String)
    (requiredCapabilities : List String) :
    let o := claimAfterCleanup env cleanupStaleLocalClaims call s workerId requiredCapabilities
    let cleaned := (cleanupStaleLocalClaims s).2
    (∀ e, o.1 = .error e → o.2 = cleaned) ∧
      (o.1 = .ok none → o.2.claims = cleaned.claims ∧
        o.2.pending.filter (queued env cleaned) = cleaned.pending.filter (queued env cleaned)) ∧
      ∀ claimedRunId, o.1 = .ok (some claimedRunId) →
        Selected env cleaned call.now workerId requiredCapabilities claimedRunId o.2 := by
  dsimp only
  rw [claimAfterCleanup]
  rcases cleanupStaleLocalClaims s with ⟨e | ⟨⟩, cleaned⟩
  · refine ⟨fun e he => rfl, ?_, ?_⟩
    · rintro ⟨⟩
    · rintro claimedRunId ⟨⟩
  dsimp only
  unfold claimLocalMachineLease
  dsimp only
  split
  · refine ⟨?_, fun _ => ?_, ?_⟩
    · rintro e ⟨⟩
    · rw [claims_seen, pending_seen]
      exact ⟨rfl, rfl⟩
    · rintro claimedRunId ⟨⟩
  split
  · refine ⟨fun e he => rfl, ?_, ?_⟩
    · rintro ⟨⟩
    · rintro claimedRunId ⟨⟩
  · rename_i remaining hscan
    refine ⟨?_, fun _ => ?_, ?_⟩
    · rintro e ⟨⟩
    · rw [claims_seen, pending_seen, (scan_found hscan).1, List.filter_filter]
      exact ⟨rfl, List.filter_congr fun _ _ => Bool.and_self _⟩
    · rintro claimedRunId ⟨⟩
  · rename_i remaining first rest hscan
    split
    · refine ⟨fun e he => rfl, ?_, ?_⟩
      · rintro ⟨⟩
      · rintro claimedRunId ⟨⟩
    split
    · refine ⟨fun e he => rfl, ?_, ?_⟩
      · rintro ⟨⟩
      · rintro claimedRunId ⟨⟩
    · refine ⟨?_, ?_, ?_⟩
      · rintro e ⟨⟩
      · rintro ⟨⟩
      · rintro claimedRunId ⟨⟩
        refine selected_best hscan ?_
        rw [pending_seen]

/-- Runs name the one capability that they require. -/
def kindEnv : Env :=
  { plainEnv with
    requiredCapabilities := fun run =>
      match Fields.get run "requires" with
      | .string capability => [capability]
      | _ => [] }

def gpuRun : Fields := [("status", .string "queued_local"), ("requires", .string "gpu")]

def cpuRun : Fields := [("status", .string "starting"), ("requires", .string "cpu")]

/-- Two runs wait for a worker that has the capabilities of both. -/
def gpuFirst : State :=
  start ["r1", "r2"] (Table.empty.put "w1" { capabilities := ["cpu", "gpu"], maxConcurrentSessions := 1 })
    ((Table.empty.put "r1" (.object gpuRun)).put "r2" (.object cpuRun))

def heldLease : Table String Value := Table.empty.put "r0" (.object [("worker_id", .string "w1")])

def noCleanup (s : State) : Outcome Unit := (.ok (), s)

theorem claim_selection_asked :
    Selected kindEnv gpuFirst claimCall.now "w1" ["cpu"] "r2"
        (claimAfterCleanup kindEnv noCleanup claimCall gpuFirst "w1" ["cpu"]).2 ∧
      (claimAfterCleanup kindEnv noCleanup claimCall { gpuFirst with pending := ["r3"] } "w1" ["cpu"]).2.claims =
        gpuFirst.claims ∧
      (claimAfterCleanup kindEnv noCleanup claimCall { gpuFirst with claims := heldLease } "w1" ["cpu"]).2 =
        { gpuFirst with claims := heldLease } := by
  have hclaimed : (claimAfterCleanup kindEnv noCleanup claimCall gpuFirst "w1" ["cpu"]).1 = .ok (some "r2") := by
    with_unfolding_all decide
  have hnothing : (claimAfterCleanup kindEnv noCleanup claimCall { gpuFirst with pending := ["r3"] } "w1" ["cpu"]).1 =
      .ok none := by decide
  have hstopped : (claimAfterCleanup kindEnv noCleanup claimCall { gpuFirst with claims := heldLease } "w1" ["cpu"]).1 =
      .error (.http 409 "Rust machine-lease gate blocked acquire: lease_capacity_exhausted") := by decide
  exact ⟨(claim_selection kindEnv noCleanup claimCall gpuFirst "w1" ["cpu"]).2.2 "r2" hclaimed,
    ((claim_selection kindEnv noCleanup claimCall _ "w1" ["cpu"]).2.1 hnothing).1,
    (claim_selection kindEnv noCleanup claimCall _ "w1" ["cpu"]).1 _ hstopped⟩

/-- A call that asks for one capability leaves out a run with a lesser score that the worker could do. -/
theorem lesser_score_passed_over :
    ¬∀ requiredCapabilities claimedRunId,
      (claimAfterCleanup kindEnv noCleanup claimCall gpuFirst "w1" requiredCapabilities).1 = .ok (some claimedRunId) →
        ∃ i runId run, gpuFirst.pending[i]? = some runId ∧ strip runId = claimedRunId ∧
          Fit kindEnv gpuFirst claimCall.now "w1" runId run ∧
          ∀ j other otherRun, gpuFirst.pending[j]? = some other →
            Fit kindEnv gpuFirst claimCall.now "w1" other otherRun →
              ¬scoreOf kindEnv gpuFirst claimCall.now j otherRun < scoreOf kindEnv gpuFirst claimCall.now i run := by
  intro h
  obtain ⟨i, runId, run, hget, hstrip, hfit, hleast⟩ := h ["cpu"] "r2" (by with_unfolding_all decide)
  have hother : Fit kindEnv gpuFirst claimCall.now "w1" "r1" gpuRun :=
    { there := rfl
      status := by decide
      due := by
        rintro due ⟨⟩
      preferred := by
        intro runtime hruntime
        have hnone : preferredOf kindEnv gpuFirst claimCall.now gpuRun = none := by decide
        cases hnone.symm.trans hruntime
      capable := by decide
      allowed := by decide }
  match i with
  | 0 =>
    obtain rfl := Option.some.inj hget
    revert hstrip
    decide
  | 1 =>
    obtain rfl := Option.some.inj hget
    obtain rfl := hfit.unique (rfl : gpuFirst.runs.get? "r2" = some (.object cpuRun))
    exact hleast 0 "r1" gpuRun rfl hother (by decide)
  | i + 2 => cases hget

end Empyralis.Server.Leases
