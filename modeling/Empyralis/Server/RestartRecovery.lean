import Empyralis.Server.ClaimSelection
import Empyralis.Server.StaleRecovery

/-! `load_live_runtime_state`: the local queue and the run table after a restart. -/

namespace Empyralis.Server.Leases
open Text (strip)

variable (env : Env)

/-! ### The persisted lists -/

/-- The first loop, over the ids that wait, with those that it has seen. -/
def prunePending (s : State) : List String → List String → List String
  | _, [] => []
  | seen, runId :: rest =>
    if !queued env s runId then prunePending s seen rest
    else if seen.contains runId then prunePending s seen rest
    else runId :: prunePending s (runId :: seen) rest

/-- The run of a claim is in the table, and is not over. -/
def alive (s : State) (runId : String) : Bool :=
  match s.runs.get? runId with
  | some (.object run) => !(terminalStatuses.contains (statusOf env run))
  | _ => false

/-- The second loop. Claims that are no dictionary are left out of both copies, and go when there is anything else to
    leave out. -/
def pruneClaims (s : State) : Table String Value :=
  let snapshot := s.claims.filter fun _ claim => (dictOf claim).isSome
  let next := snapshot.filter fun runId _ => alive env s runId
  if next.keys ≠ snapshot.keys then next else s.claims

/-! ### The run table -/

/-- `is_local_runtime_run`. The target that was asked for stands in for the one that was selected, where the
    cleanup of stale leases falls back to `execution_target`. -/
def isLocalRuntimeRun (run : Fields) : Bool :=
  "_local".toList.isSuffixOf (statusOf env run).toList ||
    ["local", "local_companion"].contains (lowered env
      (orValue (Fields.get (metadataOf run) "execution_target_selected")
        (Fields.get (metadataOf run) "execution_target_requested")))

/-- A run that no worker has any more. -/
def unclaimedRun (nowIso : String) (run : Fields) : Fields :=
  Fields.put (Fields.put (Fields.put (Fields.put (Fields.put run "status" (.string "queued_local")) "local_worker_id"
    .null) "local_claimed_at" .null) "local_last_heartbeat_at" .null) "updated_at" (.string nowIso)

def requeued (nowIso : String) (run : Fields) : Fields :=
  Fields.put (Fields.put run "status" (.string "queued_local")) "updated_at" (.string nowIso)

/-- One run of the last loop. -/
def restoreRun (nowIso : String) (s : State) (runId : String) (run : Fields) : Outcome Unit :=
  let status := statusOf env run
  if terminalStatuses.contains status then (.ok (), { s with runs := s.runs.erase runId })
  else if isLocalRuntimeRun env run then
    if status = "running_local" ∧ runId ∉ s.claims.keys then
      (.ok (), enqueue (store s runId (unclaimedRun nowIso run)) runId)
    else if ["starting", "queued_local"].contains status then
      let stored := store s runId (requeued nowIso run)
      (.ok (), if runId ∈ s.claims.keys then stored else enqueue stored runId)
    else (.ok (), s)
  else if ["starting", "running"].contains status then
    setRunStatus env (store s runId (Fields.put run "result"
      (.string "Run interrupted when the runtime restarted."))) runId "failed"
  else (.ok (), s)

/-- The last loop, over the runs as they are when it begins. -/
def restoreRuns (nowIso : String) : List (String × Value) → State → Outcome Unit
  | [], s => (.ok (), s)
  | (runId, value) :: rest, s =>
    match dictOf value with
    | none => (.error .attribute, s)
    | some run =>
      match restoreRun env nowIso s runId run with
      | (.error e, t) => (.error e, t)
      | (.ok (), t) => restoreRuns nowIso rest t

/-- `load_live_runtime_state`, from what the sync at its start has loaded. -/
def loadLiveRuntimeState (nowIso : String) (s : State) : Outcome Unit :=
  restoreRuns env nowIso s.runs.entries
    { s with pending := prunePending env s [] s.pending, claims := pruneClaims env s }

/-! ### What is pruned -/

theorem filter_eraseDups (p : String → Bool) (ids : List String) :
    ids.eraseDups.filter p = (ids.filter p).eraseDups := by
  induction hn : ids.length using Nat.strong_induction_on generalizing ids with
  | _ n ih =>
    cases ids with
    | nil => rfl
    | cons id ids =>
      have hlt : (ids.filter fun other => !other == id).length < n := by
        rw [← hn, List.length_cons]
        exact Nat.lt_succ_of_le (List.length_filter_le _ _)
      have hrest := ih _ hlt _ rfl
      rw [List.filter_comm] at hrest
      rw [List.eraseDups_cons]
      by_cases hp : p id
      · rw [List.filter_cons_of_pos hp, List.filter_cons_of_pos hp, List.eraseDups_cons, hrest]
      · rw [List.filter_cons_of_neg hp, List.filter_cons_of_neg hp, hrest, List.filter_eq_self.mpr]
        intro other hother
        have hother := (List.mem_filter.mp hother).2
        simp only [Bool.not_eq_true', beq_eq_false_iff_ne]
        rintro rfl
        exact hp hother

/-- The first pass keeps what is queued, once. -/
theorem prunePending_eq (s : State) (pending seen : List String) :
    prunePending env s seen pending = ((pending.filter (queued env s)).filter (· ∉ seen)).eraseDups := by
  induction pending generalizing seen with
  | nil => rfl
  | cons runId rest ih =>
    rw [prunePending]
    cases hqueued : queued env s runId with
    | false =>
      rw [List.filter_cons_of_neg (by simp [hqueued])]
      exact ih seen
    | true =>
      rw [List.filter_cons_of_pos hqueued, Bool.not_true, if_neg Bool.false_ne_true]
      by_cases hseen : runId ∈ seen
      · rw [if_pos (List.contains_iff_mem.mpr hseen), List.filter_cons_of_neg (by simpa using hseen)]
        exact ih seen
      · rw [if_neg (by simpa using hseen), List.filter_cons_of_pos (by simpa using hseen), List.eraseDups_cons, ih,
          List.filter_filter, List.filter_filter, List.filter_filter]
        refine congrArg _ (congrArg _ (List.filter_congr fun other _ => ?_))
        rw [Bool.eq_iff_iff]
        simp [and_assoc]

theorem mem_prunePending {s : State} {pending seen : List String} {q : String} :
    q ∈ prunePending env s seen pending ↔ q ∈ pending ∧ queued env s q ∧ q ∉ seen := by
  rw [prunePending_eq, List.mem_eraseDups, List.mem_filter, List.mem_filter, decide_eq_true_eq, and_assoc]

theorem nodup_prunePending (s : State) (pending seen : List String) : (prunePending env s seen pending).Nodup := by
  induction pending generalizing seen with
  | nil => exact List.nodup_nil
  | cons runId rest ih =>
    rw [prunePending]
    split
    · exact ih seen
    split
    · exact ih seen
    · refine List.nodup_cons.mpr ⟨fun hmem => ?_, ih _⟩
      exact ((mem_prunePending env).mp hmem).2.2 List.mem_cons_self

section Claims

variable {env} {s : State}

/-- A claim that is a dictionary stays just when its run is alive. -/
theorem get?_pruneClaims (hclaims : ∀ runId value, s.claims.get? runId = some value → (dictOf value).isSome)
    (runId : String) (value : Value) :
    (pruneClaims env s).get? runId = some value ↔ s.claims.get? runId = some value ∧ alive env s runId := by
  have hsnapshot (q : String) (v : Value) :
      (s.claims.filter fun _ claim => (dictOf claim).isSome).get? q = some v ↔ s.claims.get? q = some v := by
    rw [Table.get?_filter]
    exact and_iff_left_of_imp (hclaims q v)
  unfold pruneClaims
  dsimp only
  split
  · rw [Table.get?_filter, hsnapshot]
  · rename_i hsame
    refine (and_iff_left_of_imp fun h => ?_).symm
    have hkey := Table.mem_keys.mpr ⟨value, (hsnapshot runId value).mpr h⟩
    rw [← not_not.mp hsame] at hkey
    obtain ⟨other, hother⟩ := Table.mem_keys.mp hkey
    exact (Table.get?_filter.mp hother).2

end Claims

/-! ### One run of the loop -/

section Step

variable {env} {s t u : State} {runId q : String} {run : Fields} {nowIso : String}

/-- Only this run and its places in the lists may be different. -/
structure Touches (s t : State) (runId : String) : Prop where
  claims : ∀ q, q ≠ runId → t.claims.get? q = s.claims.get? q
  runs : ∀ q, q ≠ runId → t.runs.get? q = s.runs.get? q
  pending : t.pending.filter (· ≠ runId) = s.pending.filter (· ≠ runId)
  nodup : s.pending.Nodup → t.pending.Nodup

theorem Touches.trans (h : Touches s t runId) (h' : Touches t u runId) : Touches s u runId where
  claims q hq := (h'.claims q hq).trans (h.claims q hq)
  runs q hq := (h'.runs q hq).trans (h.runs q hq)
  pending := h'.pending.trans h.pending
  nodup hs := h'.nodup (h.nodup hs)

theorem touches_refl (s : State) (runId : String) : Touches s s runId where
  claims _ _ := rfl
  runs _ _ := rfl
  pending := rfl
  nodup h := h

theorem touches_store (s : State) (runId : String) (run : Fields) : Touches s (store s runId run) runId where
  claims _ _ := rfl
  runs q hq := by rw [store, Table.get?_put, if_neg hq]
  pending := rfl
  nodup h := h

theorem touches_forget (s : State) (runId : String) : Touches s { s with runs := s.runs.erase runId } runId where
  claims _ _ := rfl
  runs q hq := by rw [Table.get?_erase, if_neg hq]
  pending := rfl
  nodup h := h

theorem touches_enqueue (s : State) (runId : String) : Touches s (enqueue s runId) runId where
  claims _ _ := rfl
  runs _ _ := rfl
  pending := by
    simp only [enqueue]
    split
    · rfl
    · simp
  nodup h := by
    simp only [enqueue]
    split
    · exact h
    · rename_i hnot
      exact h.append (List.nodup_singleton runId) (List.disjoint_singleton.mpr hnot)

theorem touches_reconcile (s : State) (runId : String) :
    Touches s (reconcileMachineLeaseRelease env s runId).2 runId := by
  have hwaiting : Touches s { s with pending := s.pending.filter (· ≠ runId) } runId :=
    ⟨fun _ _ => rfl, fun _ _ => rfl, by simp [List.filter_filter], fun h => h.filter _⟩
  unfold reconcileMachineLeaseRelease
  dsimp only
  split
  · split
    · exact hwaiting
    · refine hwaiting.trans ⟨fun q hq => ?_, fun _ _ => rfl, rfl, fun h => h⟩
      rw [Table.get?_erase, if_neg hq]
  · exact hwaiting

theorem touches_setRunStatus (s : State) (runId status : String) :
    Touches s (setRunStatus env s runId status).2 runId := by
  unfold setRunStatus
  split
  · split
    · exact touches_refl s runId
    dsimp only
    split
    · exact (touches_store ..).trans (touches_reconcile ..)
    · exact touches_store ..
  · exact touches_refl s runId

theorem touches_restoreRun (s : State) (runId : String) (run : Fields) :
    Touches s (restoreRun env nowIso s runId run).2 runId := by
  unfold restoreRun
  dsimp only
  split
  · exact touches_forget s runId
  split
  · split
    · exact (touches_store ..).trans (touches_enqueue ..)
    split
    · dsimp only
      split
      · exact touches_store ..
      · exact (touches_store ..).trans (touches_enqueue ..)
    · exact touches_refl s runId
  split
  · exact (touches_store ..).trans (touches_setRunStatus ..)
  · exact touches_refl s runId

/-- How the lists are about a run before its turn. -/
structure Pruned (env : Env) (s : State) (runId : String) (run : Fields) : Prop where
  there : s.runs.get? runId = some (.object run)
  waits : runId ∈ s.pending → statusOf env run ∈ ["queued_local", "starting"]
  disjoint : runId ∈ s.pending → runId ∉ s.claims.keys
  claimed : runId ∈ s.claims.keys → statusOf env run ∉ terminalStatuses
  dictionary : ∀ value, s.claims.get? runId = some value → (dictOf value).isSome

/-- How they are after it. -/
structure Restored (env : Env) (t : State) (runId : String) (run : Fields) : Prop where
  once : isLocalRuntimeRun env run → statusOf env run ∈ ["starting", "queued_local", "running_local"] →
    (runId ∈ t.pending ↔ runId ∉ t.claims.keys)
  finished : statusOf env run ∈ terminalStatuses → runId ∉ t.pending ∧ runId ∉ t.claims.keys
  alive : runId ∈ t.pending ∨ runId ∈ t.claims.keys →
    ∃ run', t.runs.get? runId = some (.object run') ∧ statusOf env run' ∉ terminalStatuses

theorem statusOf_put_of_ne {key : String} (h : key ≠ "status") (run : Fields) (value : Value) :
    statusOf env (Fields.put run key value) = statusOf env run := by
  rw [statusOf, Fields.get_put, if_neg h.symm, statusOf]

theorem statusOf_requeued : statusOf env (requeued nowIso run) = "queued_local" := by
  rw [requeued, statusOf_put_of_ne (by decide), statusOf_put env (by decide)]

theorem statusOf_unclaimedRun : statusOf env (unclaimedRun nowIso run) = "queued_local" := by
  rw [unclaimedRun, statusOf_put_of_ne (by decide), statusOf_put_of_ne (by decide), statusOf_put_of_ne (by decide),
    statusOf_put_of_ne (by decide), statusOf_put env (by decide)]

/-- A run that has failed is in neither list, when the gates let its claim go. -/
theorem not_mem_of_failed (hdict : ∀ value, s.claims.get? runId = some value → (dictOf value).isSome)
    (hrun : run.isEmpty = false) (h : setRunStatus env (store s runId run) runId "failed" = (.ok (), t)) :
    runId ∉ t.pending ∧ runId ∉ t.claims.keys := by
  simp only [setRunStatus, get?_store, hrun, Bool.false_eq_true, if_false] at h
  rw [if_pos (by decide), reconcileMachineLeaseRelease] at h
  have hclaims : (store (store s runId run) runId (Fields.put run "status" (.string "failed"))).claims = s.claims := rfl
  rw [hclaims] at h
  cases hclaim : s.claims.get? runId with
  | none =>
    rw [hclaim] at h
    cases h
    exact ⟨by simp, Table.get?_eq_none.mp hclaim⟩
  | some value =>
    have hvalue := hdict value hclaim
    rw [hclaim] at h
    cases value with
    | object claim =>
      dsimp only at h
      split at h
      · cases h
      · cases h
        exact ⟨by simp, by rw [← Table.get?_eq_none, Table.get?_erase, if_pos rfl]⟩
    | _ => cases hvalue

theorem not_over_of_active {status : String} (h : status ∈ ["starting", "queued_local", "running_local"]) :
    status ∉ terminalStatuses := by
  simp only [List.mem_cons, List.not_mem_nil, or_false] at h
  rcases h with rfl | rfl | rfl <;> decide

theorem active_of_waits {status : String} (h : status ∈ ["queued_local", "starting"]) :
    status ∈ ["starting", "queued_local", "running_local"] := by
  simp only [List.mem_cons, List.not_mem_nil, or_false] at h ⊢
  rcases h with rfl | rfl
  · exact .inr (.inl rfl)
  · exact .inl rfl

theorem mem_keys_congr {α : Type} {c d : Table String α} (h : c.get? q = d.get? q) : q ∈ c.keys ↔ q ∈ d.keys := by
  rw [Table.mem_keys, Table.mem_keys, h]

/-- A run that is active, waits or has a claim, but not both, and is not over. -/
theorem restored_of_active {run' : Fields} (hactive : statusOf env run ∉ terminalStatuses)
    (honce : runId ∈ t.pending ↔ runId ∉ t.claims.keys) (hthere : t.runs.get? runId = some (.object run'))
    (hstatus : statusOf env run' ∉ terminalStatuses) : Restored env t runId run where
  once _ _ := honce
  finished hover := absurd hover hactive
  alive _ := ⟨run', hthere, hstatus⟩

/-- What the second pass does to a run. -/
theorem restoreRun_spec (hp : Pruned env s runId run) (h : restoreRun env nowIso s runId run = (.ok (), t)) :
    Restored env t runId run := by
  have hqueued : "queued_local" ∉ terminalStatuses := by decide
  unfold restoreRun at h
  dsimp only at h
  split at h
  · rename_i hover
    have hover := List.contains_iff_mem.mp hover
    cases h
    have hpending : runId ∉ s.pending := fun hmem => not_over_of_active (active_of_waits (hp.waits hmem)) hover
    have hclaims : runId ∉ s.claims.keys := fun hmem => hp.claimed hmem hover
    exact ⟨fun _ hactive => absurd hover (not_over_of_active hactive), fun _ => ⟨hpending, hclaims⟩,
      fun hmem => absurd hmem (not_or.mpr ⟨hpending, hclaims⟩)⟩
  rename_i hover
  have hover : statusOf env run ∉ terminalStatuses := fun hmem => hover (List.contains_iff_mem.mpr hmem)
  split at h
  · split at h
    · rename_i hrunning
      cases h
      refine restored_of_active hover ?_ (get?_store ..) (statusOf_unclaimedRun ▸ hqueued)
      exact iff_of_true ((mem_enqueue ..).mpr (.inr rfl)) hrunning.2
    rename_i hlocal hrunning
    split at h
    · split at h
      · rename_i hclaimed
        cases h
        refine restored_of_active hover ?_ (get?_store ..) (statusOf_requeued ▸ hqueued)
        exact iff_of_false (fun hmem => hp.disjoint hmem hclaimed) (not_not.mpr hclaimed)
      · rename_i hclaimed
        cases h
        refine restored_of_active hover ?_ (get?_store ..) (statusOf_requeued ▸ hqueued)
        exact iff_of_true ((mem_enqueue ..).mpr (.inr rfl)) hclaimed
    · rename_i hwaits
      cases h
      refine ⟨fun _ hactive => ?_, fun h => absurd h hover, fun _ => ⟨run, hp.there, hover⟩⟩
      have hstatus : statusOf env run = "running_local" := by
        simp only [List.contains_iff_mem, List.mem_cons, List.not_mem_nil, or_false, not_or] at hwaits hactive
        exact hactive.resolve_left hwaits.1 |>.resolve_left hwaits.2
      refine iff_of_false (fun hmem => ?_) (fun hnot => hrunning ⟨hstatus, hnot⟩)
      have hwait := hp.waits hmem
      rw [hstatus] at hwait
      revert hwait
      decide
  rename_i hlocal
  split at h
  · obtain ⟨hpending, hclaims⟩ := not_mem_of_failed hp.dictionary (put_not_empty ..) h
    exact ⟨fun h => absurd h hlocal, fun h => absurd h hover, fun hmem => absurd hmem (not_or.mpr ⟨hpending, hclaims⟩)⟩
  · cases h
    exact ⟨fun h => absurd h hlocal, fun h => absurd h hover, fun _ => ⟨run, hp.there, hover⟩⟩

/-- A run that waits in the list keeps its place. -/
theorem restoreRun_pending (hlocal : isLocalRuntimeRun env run)
    (hwaits : statusOf env run ∈ ["queued_local", "starting"]) (hmem : runId ∈ s.pending) :
    (restoreRun env nowIso s runId run).2.pending = s.pending := by
  have hover : ¬terminalStatuses.contains (statusOf env run) := by
    rw [List.contains_iff_mem]
    exact not_over_of_active (active_of_waits hwaits)
  have hrunning : statusOf env run ≠ "running_local" := by
    intro hstatus
    rw [hstatus] at hwaits
    revert hwaits
    decide
  have hstarting : ["starting", "queued_local"].contains (statusOf env run) := by
    simp only [List.contains_iff_mem, List.mem_cons, List.not_mem_nil, or_false] at hwaits ⊢
    exact hwaits.symm
  rw [restoreRun]
  dsimp only
  rw [if_neg hover, if_pos hlocal, if_neg fun h => hrunning h.1, if_pos hstarting]
  split
  · rfl
  · exact if_pos hmem

/-! ### The loop -/

/-- A run that the states agree on, and its places in the lists. -/
structure Kept (s t : State) (q : String) : Prop where
  claims : t.claims.get? q = s.claims.get? q
  runs : t.runs.get? q = s.runs.get? q
  pending : q ∈ t.pending ↔ q ∈ s.pending

theorem Kept.trans (h : Kept s t q) (h' : Kept t u q) : Kept s u q :=
  ⟨h'.claims.trans h.claims, h'.runs.trans h.runs, h'.pending.trans h.pending⟩

theorem Touches.kept (h : Touches s t runId) (hq : q ≠ runId) : Kept s t q where
  claims := h.claims q hq
  runs := h.runs q hq
  pending := by
    have hmem (l : List String) : q ∈ l ↔ q ∈ l.filter (· ≠ runId) := by simp [hq]
    rw [hmem t.pending, hmem s.pending, h.pending]

theorem Pruned.kept (h : Pruned env s runId run) (hk : Kept s t runId) : Pruned env t runId run where
  there := hk.runs.trans h.there
  waits hmem := h.waits (hk.pending.mp hmem)
  disjoint hmem hclaimed := h.disjoint (hk.pending.mp hmem) ((mem_keys_congr hk.claims).mp hclaimed)
  claimed hmem := h.claimed ((mem_keys_congr hk.claims).mp hmem)
  dictionary value hvalue := h.dictionary value (hk.claims ▸ hvalue)

theorem Restored.kept (h : Restored env s runId run) (hk : Kept s t runId) : Restored env t runId run where
  once hlocal hactive := by
    rw [hk.pending, mem_keys_congr hk.claims]
    exact h.once hlocal hactive
  finished hover := by
    rw [hk.pending, mem_keys_congr hk.claims]
    exact h.finished hover
  alive hmem := by
    rw [hk.pending, mem_keys_congr hk.claims] at hmem
    rw [hk.runs]
    exact h.alive hmem

theorem restoreRuns_cons {value : Value} {rest : List (String × Value)}
    (h : restoreRuns env nowIso ((runId, value) :: rest) s = (.ok (), t)) :
    ∃ run u, value = .object run ∧ restoreRun env nowIso s runId run = (.ok (), u) ∧
      restoreRuns env nowIso rest u = (.ok (), t) := by
  rw [restoreRuns] at h
  cases value with
  | object run =>
    dsimp only [dictOf] at h
    rcases hrun : restoreRun env nowIso s runId run with ⟨e | ⟨⟩, u⟩
    · rw [hrun] at h
      cases h
    · rw [hrun] at h
      exact ⟨run, u, rfl, hrun, h⟩
  | _ => cases h

theorem restoreRuns_dictionary {entries : List (String × Value)}
    (h : restoreRuns env nowIso entries s = (.ok (), t)) : ∀ entry ∈ entries, ∃ run, entry.2 = .object run := by
  induction entries generalizing s with
  | nil => exact fun entry hentry => by cases hentry
  | cons entry rest ih =>
    obtain ⟨run, u, hvalue, -, hrest⟩ := restoreRuns_cons h
    exact List.forall_mem_cons.mpr ⟨⟨run, hvalue⟩, ih hrest⟩

theorem restoreRuns_nodup {entries : List (String × Value)} (h : restoreRuns env nowIso entries s = (.ok (), t))
    (hs : s.pending.Nodup) : t.pending.Nodup := by
  induction entries generalizing s with
  | nil =>
    cases h
    exact hs
  | cons entry rest ih =>
    obtain ⟨run, u, -, hrun, hrest⟩ := restoreRuns_cons h
    have htouches : Touches s (restoreRun env nowIso s entry.1 run).2 entry.1 := touches_restoreRun ..
    rw [hrun] at htouches
    exact ih hrest (htouches.nodup hs)

/-- Each run of the table has its turn, and what it leaves of the run stays. -/
theorem restoreRuns_spec {entries : List (String × Value)} (hnodup : (entries.map Prod.fst).Nodup)
    (h : restoreRuns env nowIso entries s = (.ok (), t)) (q : String) :
    (q ∉ entries.map Prod.fst → Kept s t q) ∧
      ∀ run, (q, .object run) ∈ entries → Pruned env s q run → Restored env t q run := by
  induction entries generalizing s with
  | nil =>
    cases h
    exact ⟨fun _ => ⟨rfl, rfl, .rfl⟩, fun run hmem => by cases hmem⟩
  | cons entry rest ih =>
    obtain ⟨run, u, hvalue, hrun, hrest⟩ := restoreRuns_cons h
    obtain ⟨hnot, hrestNodup⟩ := List.nodup_cons.mp hnodup
    have htouches : Touches s (restoreRun env nowIso s entry.1 run).2 entry.1 := touches_restoreRun ..
    rw [hrun] at htouches
    obtain ⟨hout, hin⟩ := ih hrestNodup hrest
    constructor
    · intro hq
      obtain ⟨hne, hq⟩ := List.ne_and_not_mem_of_not_mem_cons hq
      exact (htouches.kept hne).trans (hout hq)
    · intro other hmem hp
      rcases List.mem_cons.mp hmem with heq | hmem
      · subst heq
        obtain rfl := Value.object.inj hvalue
        exact (restoreRun_spec hp hrun).kept (hout hnot)
      · have hne : q ≠ entry.1 := by
          rintro rfl
          exact hnot (List.mem_map.mpr ⟨_, hmem, rfl⟩)
        exact hin other hmem (hp.kept (htouches.kept hne))

/-- The runs that wait in the list keep their order. -/
theorem restoreRuns_order {entries : List (String × Value)} (hnodup : (entries.map Prod.fst).Nodup)
    (h : restoreRuns env nowIso entries s = (.ok (), t)) {p : String → Bool}
    (hp : ∀ q run, (q, .object run) ∈ entries → p q → q ∈ s.pending ∧ isLocalRuntimeRun env run ∧
      statusOf env run ∈ ["queued_local", "starting"]) : t.pending.filter p = s.pending.filter p := by
  induction entries generalizing s with
  | nil =>
    cases h
    rfl
  | cons entry rest ih =>
    obtain ⟨run, u, hvalue, hrun, hrest⟩ := restoreRuns_cons h
    obtain ⟨hnot, hrestNodup⟩ := List.nodup_cons.mp hnodup
    have htouches : Touches s (restoreRun env nowIso s entry.1 run).2 entry.1 := touches_restoreRun ..
    rw [hrun] at htouches
    have hstep : u.pending.filter p = s.pending.filter p := by
      by_cases hentry : p entry.1
      · obtain ⟨hpending, hlocal, hwaits⟩ := hp entry.1 run (hvalue ▸ List.mem_cons_self ..) hentry
        have hsame : (restoreRun env nowIso s entry.1 run).2.pending = s.pending :=
          restoreRun_pending hlocal hwaits hpending
        rw [hrun] at hsame
        rw [hsame]
      · have hfilter (l : List String) : l.filter p = (l.filter (· ≠ entry.1)).filter p := by
          rw [List.filter_filter]
          refine List.filter_congr fun q _ => ?_
          by_cases hq : q = entry.1
          · simp [hq, hentry]
          · simp [hq]
        rw [hfilter, hfilter s.pending, htouches.pending]
    rw [← hstep]
    refine ih hrestNodup hrest fun q other hmem hq => ?_
    obtain ⟨hpending, hlocal⟩ := hp q other (List.mem_cons_of_mem _ hmem) hq
    have hne : q ≠ entry.1 := by
      rintro rfl
      exact hnot (List.mem_map.mpr ⟨_, hmem, rfl⟩)
    exact ⟨(htouches.kept hne).pending.mpr hpending, hlocal⟩

end Step

/-! ### The restart -/

/-- The queue takes a run by this id, which is local. -/
def queuedLocal (s : State) (runId : String) : Bool :=
  match s.runs.get? runId with
  | some (.object run) => isLocalRuntimeRun env run && ["queued_local", "starting"].contains (statusOf env run)
  | _ => false

theorem queued_of_queuedLocal {s : State} {runId : String} (h : queuedLocal env s runId) : queued env s runId := by
  unfold queuedLocal at h
  split at h
  · rename_i run hthere
    rw [queued, hthere]
    exact (Bool.and_eq_true _ _ |>.mp h).2
  · cases h

/-- What a restart loads: each claim is a dictionary, and no run waits that is claimed. -/
structure Persisted (s : State) : Prop where
  dictionary : ∀ runId value, s.claims.get? runId = some value → (dictOf value).isSome
  disjoint : ∀ runId ∈ s.pending, runId ∉ s.claims.keys

theorem pruned_of_there {s : State} (hs : Persisted s) {runId : String} {run : Fields}
    (h : s.runs.get? runId = some (.object run)) :
    Pruned env { s with pending := prunePending env s [] s.pending, claims := pruneClaims env s } runId run where
  there := h
  waits hmem := by
    have hqueued := ((mem_prunePending env).mp hmem).2.1
    rw [queued, h] at hqueued
    exact List.contains_iff_mem.mp hqueued
  disjoint hmem hclaimed := by
    obtain ⟨value, hvalue⟩ := Table.mem_keys.mp hclaimed
    have hclaim := ((get?_pruneClaims hs.dictionary runId value).mp hvalue).1
    exact hs.disjoint runId ((mem_prunePending env).mp hmem).1 (Table.mem_keys.mpr ⟨value, hclaim⟩)
  claimed hmem hover := by
    obtain ⟨value, hvalue⟩ := Table.mem_keys.mp hmem
    have halive := ((get?_pruneClaims hs.dictionary runId value).mp hvalue).2
    rw [alive, h, Bool.not_eq_true', ← Bool.not_eq_true, List.contains_iff_mem] at halive
    exact halive hover
  dictionary value hvalue := hs.dictionary runId value ((get?_pruneClaims hs.dictionary runId value).mp hvalue).1

/-- After a restart each local run that was active is in just one of the two lists. The list of those that wait has no
    id twice, with the queued runs that it had in their order, and no run in either is over. -/
theorem restart_keeps_runs (nowIso : String) {s t : State} (hs : Persisted s)
    (h : loadLiveRuntimeState env nowIso s = (.ok (), t)) :
    (∀ runId run, s.runs.get? runId = some (.object run) → isLocalRuntimeRun env run →
      statusOf env run ∈ ["starting", "queued_local", "running_local"] → (runId ∈ t.pending ↔ runId ∉ t.claims.keys)) ∧
    t.pending.Nodup ∧
    t.pending.filter (fun runId => s.pending.contains runId && queuedLocal env s runId) =
      (s.pending.filter (queuedLocal env s)).eraseDups ∧
    (∀ runId run, s.runs.get? runId = some (.object run) → statusOf env run ∈ terminalStatuses →
      runId ∉ t.pending ∧ runId ∉ t.claims.keys) ∧
    ∀ runId, runId ∈ t.pending ∨ runId ∈ t.claims.keys →
      ∃ run, t.runs.get? runId = some (.object run) ∧ statusOf env run ∉ terminalStatuses := by
  have hspec := restoreRuns_spec s.runs.nodup h
  have hrestored (runId : String) (run : Fields) (hthere : s.runs.get? runId = some (.object run)) :
      Restored env t runId run :=
    (hspec runId).2 run (Table.get?_eq_some.mp hthere) (pruned_of_there env hs hthere)
  refine ⟨fun runId run hthere => (hrestored runId run hthere).once, ?_, ?_,
    fun runId run hthere => (hrestored runId run hthere).finished, ?_⟩
  · exact restoreRuns_nodup h (nodup_prunePending env s s.pending [])
  · rw [restoreRuns_order s.runs.nodup h]
    · rw [prunePending_eq, filter_eraseDups, List.filter_filter, List.filter_filter]
      refine congrArg _ (List.filter_congr fun runId hmem => ?_)
      cases hlocal : queuedLocal env s runId with
      | false => simp
      | true => simp [hmem, queued_of_queuedLocal env hlocal]
    · intro runId run hmem hp
      obtain ⟨hpending, hlocal⟩ := Bool.and_eq_true _ _ |>.mp hp
      have hthere : s.runs.get? runId = some (.object run) := Table.get?_eq_some.mpr hmem
      have hqueued := queued_of_queuedLocal env hlocal
      rw [queuedLocal, hthere, Bool.and_eq_true, List.contains_iff_mem] at hlocal
      exact ⟨(mem_prunePending env).mpr ⟨List.contains_iff_mem.mp hpending, hqueued, List.not_mem_nil⟩, hlocal⟩
  · intro runId hmem
    cases hvalue : s.runs.get? runId with
    | some value =>
      obtain ⟨run, rfl⟩ := restoreRuns_dictionary h _ (Table.get?_eq_some.mp hvalue)
      exact (hrestored runId run hvalue).alive hmem
    | none =>
      have hkept := (hspec runId).1 (Table.get?_eq_none.mp hvalue)
      rw [hkept.pending, mem_keys_congr hkept.claims] at hmem
      rcases hmem with hmem | hmem
      · have hqueued := ((mem_prunePending env).mp hmem).2.1
        rw [queued, hvalue] at hqueued
        cases hqueued
      · obtain ⟨claim, hclaim⟩ := Table.mem_keys.mp hmem
        have halive := ((get?_pruneClaims hs.dictionary runId claim).mp hclaim).2
        rw [alive, hvalue] at halive
        cases halive

def localRunIn (status : String) : Value :=
  .object [("status", .string status),
    ("context", .object [("metadata", .object [("execution_target_selected", .string "local")])])]

/-- Two runs wait, of which one is there twice, one is claimed, one has lost its claim and one is over. -/
def beforeRestart : State where
  pending := ["r2", "r1", "r2", "r5"]
  claims := Table.empty.put "r3" (.object [("worker_id", .string "w1")])
  registry := Table.empty
  runs := ((((Table.empty.put "r1" (localRunIn "starting")).put "r2" (localRunIn "queued_local")).put "r3"
    (localRunIn "running_local")).put "r4" (localRunIn "running_local")).put "r5" (localRunIn "completed")

theorem persisted_beforeRestart : Persisted beforeRestart where
  dictionary runId value h := by
    have hmem := Table.get?_eq_some.mp h
    obtain ⟨-, rfl⟩ := Prod.mk.inj (List.mem_singleton.mp hmem)
    rfl
  disjoint := by decide

/-- What waits is queued once, what has lost its claim is queued again, and what is claimed is not. -/
theorem restart_keeps_runs_mixed : ∃ t, loadLiveRuntimeState plainEnv "" beforeRestart = (.ok (), t) ∧
    t.pending = ["r2", "r1", "r4"] ∧ t.pending.Nodup ∧ ("r3" ∈ t.pending ↔ "r3" ∉ t.claims.keys) := by
  have hok : (loadLiveRuntimeState plainEnv "" beforeRestart).1 = .ok () := by decide
  have hpending : (loadLiveRuntimeState plainEnv "" beforeRestart).2.pending = ["r2", "r1", "r4"] := by decide
  obtain ⟨honce, hnodup, -⟩ := restart_keeps_runs plainEnv "" persisted_beforeRestart (Prod.ext hok rfl)
  exact ⟨_, Prod.ext hok rfl, hpending, hnodup,
    honce "r3" [("status", .string "running_local"),
      ("context", .object [("metadata", .object [("execution_target_selected", .string "local")])])]
      rfl (by decide) (by decide)⟩

/-- A run without a claim, that runs by its status and still waits by the list. -/
def stillListed : State where
  pending := ["r1", "r2"]
  claims := Table.empty
  registry := Table.empty
  runs := (Table.empty.put "r1" (localRunIn "running_local")).put "r2" (localRunIn "queued_local")

theorem persisted_stillListed : Persisted stillListed where
  dictionary runId value h := by cases h
  disjoint runId _ := List.not_mem_nil

/-- It loses its place to the runs behind it. -/
theorem restart_moves_run_back :
    ¬∀ s t, Persisted s → loadLiveRuntimeState plainEnv "" s = (.ok (), t) →
      t.pending.filter s.pending.contains = s.pending.eraseDups.filter t.pending.contains := by
  intro h
  have hok : (loadLiveRuntimeState plainEnv "" stillListed).1 = .ok () := by decide
  have hsame := h stillListed _ persisted_stillListed (Prod.ext hok rfl)
  revert hsame
  decide

end Empyralis.Server.Leases
