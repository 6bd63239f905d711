import Empyralis.Lib.Run
import Empyralis.Server.StaleCleanup

/-! The local queue over whole runs: claims, heartbeats, completions, releases, cleanups of stale claims and
    requeues in any order, each one step. A claim is stored under the machine id that the registry has for
    the worker, while the limit of leases and the requests about the claim go by the worker id; the
    invariant holds while the two are the same. -/

namespace Empyralis.Server.Leases
open Text (strip)

variable (env : Env) (stateGate : String → Fields → Except String String)

/-! ### The operations as one system -/

/-- The gates in front of the release of a stale claim. -/
def staleRelease (runId : String) (claim : Fields) : Except Error Unit :=
  let holder := either (claimWorker env claim) (claimMachine env claim)
  let lease := text env (Fields.get claim "lease_id")
  match enforceQueueTransitionDecision (queueRelease runId holder holder true) with
  | .error e => .error e
  | .ok _ => enforceMachineLeaseDecision (releaseRequest holder holder lease lease true false)

inductive Label where
  | claim (workerId : String) (requiredCapabilities : List String) (call : Call)
  | heartbeat (runId workerId note nowIso : String)
  | complete (runId workerId resultText nowIso : String)
  | release (runId workerId leaseId statusHint note nowIso : String)
  | cleanup (settings : Cleanup)
  | requeue (runId : String)
  | write (runId : String) (run : Fields)

/-- Each operation may be asked for at any time; one that raises leaves what it has changed. The rest of
    the server writes the runs as it likes. -/
def step (s : State) : Label → Option State
  | .claim workerId capabilities call =>
    some (claimLocalMachineLease env call s workerId capabilities).2
  | .heartbeat runId workerId note nowIso => some (heartbeatLocalRun env nowIso s runId workerId note).2
  | .complete runId workerId resultText nowIso =>
    some (completeLocalRun env stateGate nowIso s runId workerId resultText).2
  | .release runId workerId leaseId statusHint note nowIso =>
    some (releaseMachineLeaseClaim env nowIso s runId workerId leaseId statusHint note).2
  | .cleanup settings => some (cleanupStaleMachineLeases env (staleRelease env) settings s).2
  | .requeue runId => some (enqueueLocalCompanionRun env s runId).2
  | .write runId run => some (store s runId run)

/-! ### The invariant -/

/-- The worker that obtained a claim, as the claim records it. -/
def obtainedBy (claim : Fields) : Option String :=
  match Fields.get (fieldsOf (Fields.get claim "metadata")) "runtime_id" with
  | .string workerId => some workerId
  | _ => none

def obtained (workerId : String) : Value → Bool
  | .object claim => obtainedBy claim = some workerId
  | _ => false

/-- `max_concurrent_sessions` of a worker. -/
def sessions (s : State) (workerId : String) : Int :=
  ((s.registry.get? workerId).getD {}).maxConcurrentSessions

/-- A claim that names the worker that obtained it. -/
structure Owned (runId : String) (claim : Fields) (workerId : String) : Prop where
  obtained : obtainedBy claim = some workerId
  named : workerId ≠ ""
  trimmed : strip workerId = workerId
  worker : Fields.get claim "worker_id" = .string workerId
  run : Fields.get claim "run_id" = .string runId
  runNamed : strip runId ≠ ""
  lease : strip (text env (Fields.get claim "lease_id")) ≠ ""

structure Inv (s : State) : Prop where
  apart : ∀ r ∈ s.pending, r ∉ s.claims.keys
  owned : ∀ r v, s.claims.get? r = some v → ∃ claim workerId, v = .object claim ∧
    Owned env r claim workerId
  bound : ∀ w, s.claims.count (obtained w) ≤ leaseLimit (sessions s w)

/-! ### Steps that claim nothing -/

/-- A claim that only its heartbeat may have changed. -/
def SameLease (u v : Value) : Prop :=
  ∀ claim, u = .object claim → ∃ claim', v = .object claim' ∧
    ∀ key, key ≠ "last_heartbeat_at" → Fields.get claim' key = Fields.get claim key

theorem SameLease.refl (v : Value) : SameLease v v := fun claim h => ⟨claim, h, fun _ _ => rfl⟩

theorem SameLease.trans {u v w : Value} (h : SameLease u v) (h' : SameLease v w) : SameLease u w := by
  intro claim hu
  obtain ⟨claim', hv, hget⟩ := h claim hu
  obtain ⟨claim'', hw, hget'⟩ := h' claim' hv
  exact ⟨claim'', hw, fun key hkey => (hget' key hkey).trans (hget key hkey)⟩

/-- What a step that claims nothing may do: the claims that are left were there before, and a run that
    begins to wait is not claimed. -/
structure Follows (s t : State) : Prop where
  sessions : ∀ w, sessions t w = sessions s w
  claims : ∀ r v, t.claims.get? r = some v → ∃ u, s.claims.get? r = some u ∧ SameLease u v
  pending : ∀ r ∈ t.pending, r ∈ s.pending ∨ r ∉ t.claims.keys

theorem Follows.refl (s : State) : Follows s s :=
  ⟨fun _ => rfl, fun _ v h => ⟨v, h, .refl v⟩, fun _ h => .inl h⟩

theorem Follows.keys {s t : State} (h : Follows s t) {r : String} (hr : r ∈ t.claims.keys) :
    r ∈ s.claims.keys := by
  obtain ⟨v, hv⟩ := Table.mem_keys.mp hr
  obtain ⟨u, hu, -⟩ := h.claims r v hv
  exact Table.mem_keys.mpr ⟨u, hu⟩

theorem Follows.trans {s t u : State} (h : Follows s t) (h' : Follows t u) : Follows s u := by
  refine ⟨fun w => (h'.sessions w).trans (h.sessions w), fun r v hv => ?_, fun r hr => ?_⟩
  · obtain ⟨v', hv', hsame'⟩ := h'.claims r v hv
    obtain ⟨v'', hv'', hsame⟩ := h.claims r v' hv'
    exact ⟨v'', hv'', hsame.trans hsame'⟩
  · rcases h'.pending r hr with ht | hout
    · exact (h.pending r ht).imp_right fun hout hin => hout (h'.keys hin)
    · exact .inr hout

theorem owned_of_sameLease {runId workerId : String} {claim claim' : Fields}
    (h : ∀ key, key ≠ "last_heartbeat_at" → Fields.get claim' key = Fields.get claim key)
    (ho : Owned env runId claim workerId) : Owned env runId claim' workerId := by
  refine ⟨?_, ho.named, ho.trimmed, ?_, ?_, ho.runNamed, ?_⟩
  · rw [obtainedBy, h "metadata" (by decide)]
    exact ho.obtained
  · rw [h "worker_id" (by decide)]
    exact ho.worker
  · rw [h "run_id" (by decide)]
    exact ho.run
  · rw [h "lease_id" (by decide)]
    exact ho.lease

theorem inv_follows {s t : State} (hi : Inv env s) (h : Follows s t) : Inv env t := by
  refine ⟨fun r hr hin => ?_, fun r v hv => ?_, fun w => ?_⟩
  · rcases h.pending r hr with hs | hout
    · exact hi.apart r hs (h.keys hin)
    · exact hout hin
  · obtain ⟨u, hu, hsame⟩ := h.claims r v hv
    obtain ⟨claim, workerId, rfl, ho⟩ := hi.owned r u hu
    obtain ⟨claim', rfl, hget⟩ := hsame claim rfl
    exact ⟨claim', workerId, rfl, owned_of_sameLease env hget ho⟩
  · rw [h.sessions]
    refine le_trans (Table.count_le fun r v hv hp => ?_) (hi.bound w)
    obtain ⟨u, hu, hsame⟩ := h.claims r v hv
    obtain ⟨claim, workerId, rfl, -⟩ := hi.owned r u hu
    obtain ⟨claim', rfl, hget⟩ := hsame claim rfl
    refine ⟨.object claim, hu, ?_⟩
    rw [obtained, obtainedBy, hget "metadata" (by decide)] at hp
    exact hp

/-! ### The parts of the operations -/

theorem sessions_put {s t : State} {workerId : String} {record : Worker}
    (ht : t.registry = s.registry.put workerId record)
    (h : record.maxConcurrentSessions = sessions s workerId) (w : String) :
    sessions t w = sessions s w := by
  rw [sessions, ht, Table.get?_put]
  split
  · rename_i hw
    rw [hw, Option.getD_some, h]
  · rfl

theorem presence_sessions (previous : Worker) (machineId statusHint nowIso note : String)
    (currentRunId : Option String) (leaseSeconds : Int) :
    (buildMachinePresenceRecord env previous machineId currentRunId statusHint leaseSeconds nowIso
      note).maxConcurrentSessions = previous.maxConcurrentSessions := by
  unfold buildMachinePresenceRecord
  dsimp only
  split <;> rfl

@[simp] theorem claims_seen (s : State) (workerId statusHint nowIso note : String)
    (currentRunId : Option String) :
    (markLocalWorkerSeen env s workerId currentRunId statusHint nowIso note).claims = s.claims := by
  unfold markLocalWorkerSeen
  dsimp only
  split <;> rfl

@[simp] theorem pending_seen (s : State) (workerId statusHint nowIso note : String)
    (currentRunId : Option String) :
    (markLocalWorkerSeen env s workerId currentRunId statusHint nowIso note).pending = s.pending := by
  unfold markLocalWorkerSeen
  dsimp only
  split <;> rfl

theorem follows_seen (s : State) (workerId statusHint nowIso note : String)
    (currentRunId : Option String) :
    Follows s (markLocalWorkerSeen env s workerId currentRunId statusHint nowIso note) := by
  unfold markLocalWorkerSeen
  dsimp only
  split
  · exact .refl s
  · exact ⟨sessions_put rfl (presence_sessions ..), fun _ v h => ⟨v, h, .refl v⟩, fun _ h => .inl h⟩

theorem follows_erase (s : State) (runId : String) :
    Follows s { s with claims := s.claims.erase runId } := by
  refine ⟨fun _ => rfl, fun r v hv => ?_, fun _ h => .inl h⟩
  rw [Table.get?_erase] at hv
  split at hv
  · cases hv
  · exact ⟨v, hv, .refl v⟩

/-- A claim is written in place. -/
theorem follows_put {s : State} {runId : String} {u v : Value} (hu : s.claims.get? runId = some u)
    (h : SameLease u v) : Follows s { s with claims := s.claims.put runId v } := by
  refine ⟨fun _ => rfl, fun r w hw => ?_, fun _ h => .inl h⟩
  rw [Table.get?_put] at hw
  split at hw
  · rename_i hr
    cases hw
    exact ⟨u, hr ▸ hu, h⟩
  · exact ⟨w, hw, .refl w⟩

theorem sameLease_touch (claim : Fields) (nowIso : String) :
    SameLease (.object claim) (.object (Fields.put claim "last_heartbeat_at" (.string nowIso))) := by
  intro claim' h
  cases h
  refine ⟨_, rfl, fun key hkey => ?_⟩
  rw [Fields.get_put, if_neg hkey]

theorem follows_store (s : State) (runId : String) (run : Fields) : Follows s (store s runId run) :=
  ⟨fun _ => rfl, fun _ v h => ⟨v, h, .refl v⟩, fun _ h => .inl h⟩

theorem follows_pending {s : State} {pending : List String} (h : ∀ r ∈ pending, r ∈ s.pending) :
    Follows s { s with pending } :=
  ⟨fun _ => rfl, fun _ v h => ⟨v, h, .refl v⟩, fun r hr => .inl (h r hr)⟩

/-- Only a run that is not claimed may begin to wait. -/
theorem follows_enqueue {s : State} {runId : String} (hr : runId ∉ s.claims.keys) :
    Follows s (enqueue s runId) := by
  refine ⟨fun _ => rfl, fun _ v h => ⟨v, h, .refl v⟩, fun r hin => ?_⟩
  rcases (mem_enqueue s runId).mp hin with hin | rfl
  · exact .inl hin
  · exact .inr hr

theorem follows_reconcile (s : State) (runId : String) :
    Follows s (reconcileMachineLeaseRelease env s runId).2 := by
  have hwaiting : Follows s { s with pending := s.pending.filter (· ≠ runId) } :=
    follows_pending fun _ h => (List.mem_filter.mp h).1
  unfold reconcileMachineLeaseRelease
  dsimp only
  split
  · split
    · exact hwaiting
    · exact hwaiting.trans (follows_erase ..)
  · exact hwaiting

theorem follows_setRunStatus (s : State) (runId status : String) :
    Follows s (setRunStatus env s runId status).2 := by
  unfold setRunStatus
  split
  · split
    · exact .refl s
    · dsimp only
      split
      · exact (follows_store ..).trans (follows_reconcile ..)
      · exact follows_store ..
  · exact .refl s

theorem follows_settle (s : State) (runId : String) (run : Fields) (status : String) :
    Follows s (settle env s runId run status).2 :=
  (follows_store ..).trans (follows_setRunStatus ..)

/-! ### Heartbeats, releases and completions -/

theorem follows_heartbeat (nowIso : String) (s : State) (runId workerId note : String) :
    Follows s (heartbeatLocalRun env nowIso s runId workerId note).2 := by
  unfold heartbeatLocalRun
  split
  · dsimp only
    split
    · exact .refl s
    · rename_i run hrun _ hgate
      obtain ⟨hmissing, -⟩ := worker_ok hgate
      -- the gate has seen a claim, and the heartbeat is written into it
      obtain ⟨claim, hclaim⟩ : ∃ claim, s.claims.get? runId = some (.object claim) := by
        simp only [workerRequest] at hmissing
        split at hmissing
        · rename_i claim hclaim
          exact ⟨claim, hclaim⟩
        · cases hmissing
      have htouched := follows_put hclaim (sameLease_touch claim nowIso)
      simp only [hclaim, Option.getD_some, fieldsOf]
      split
      · exact htouched.trans (follows_store ..)
      · exact (htouched.trans (follows_store ..)).trans (follows_seen ..)
  · exact .refl s

theorem follows_release (nowIso : String) (s : State) (runId workerId leaseId statusHint note : String) :
    Follows s (releaseMachineLeaseClaim env nowIso s runId workerId leaseId statusHint note).2 := by
  unfold releaseMachineLeaseClaim
  dsimp only
  split
  · exact .refl s
  · dsimp only
    split
    · exact (follows_erase ..).trans (follows_seen ..)
    · exact follows_erase ..

theorem follows_complete (nowIso : String) (s : State) (runId workerId resultText : String) :
    Follows s (completeLocalRun env stateGate nowIso s runId workerId resultText).2 := by
  unfold completeLocalRun
  split
  · rename_i run hrun
    dsimp only
    split
    · exact .refl s
    split
    · exact .refl s
    split
    · exact .refl s
    split
    · exact .refl s
    have hreleased := (follows_store s runId (completedRun run resultText)).trans (follows_release env
      nowIso (store s runId (completedRun run resultText)) runId
      (either (resolvedWorker env (strip workerId) (s.claims.get? runId)) workerId) "" "idle"
      "completed_run")
    split
    · rename_i hr
      rw [hr] at hreleased
      exact hreleased
    · rename_i hr
      rw [hr] at hreleased
      split
      · exact (hreleased.trans (follows_seen ..)).trans (follows_setRunStatus ..)
      · exact hreleased.trans (follows_setRunStatus ..)
  · exact .refl s

/-! ### Requeues and the cleanup of stale claims -/

theorem follows_requeue {s : State} {runId : String} (hr : runId ∉ s.claims.keys) :
    Follows s (enqueueLocalCompanionRun env s runId).2 := by
  unfold enqueueLocalCompanionRun
  split
  · have hstatus := follows_setRunStatus env s runId "queued_local"
    exact hstatus.trans (follows_enqueue fun hin => hr (hstatus.keys hin))
  · exact .refl s

theorem follows_requeueOrFail (c : Cleanup) {s : State} {runId : String} (hr : runId ∉ s.claims.keys)
    (run : Fields) (isLocal : Bool) : Follows s (requeueOrFail env c s runId run isLocal).2 := by
  unfold requeueOrFail
  dsimp only
  split
  · split
    · rename_i previous retries _ _ _
      have hs := follows_settle env s runId (requeuedRun c run (previous + 1) (max 0 retries))
        "queued_local"
      split
      · rename_i ho
        rw [ho] at hs
        exact hs
      · rename_i ho
        rw [ho] at hs
        exact hs.trans (follows_enqueue fun hin => hr (hs.keys hin))
    · exact follows_settle ..
  · exact follows_store ..

theorem follows_recoverRun (c : Cleanup) {s : State} {runId : String} (hr : runId ∉ s.claims.keys)
    (run : Fields) : Follows s (recoverRun env c s runId run).2 := by
  unfold recoverRun
  dsimp only
  split
  · split
    · exact follows_store ..
    · rename_i previous _
      split
      · exact follows_settle ..
      · have hs := follows_settle env s runId (retriedRun c run (previous + 1)
          (backoffAt c.backoffSeconds (previous + 1))) "waiting_for_input"
        split
        · rename_i ho
          rw [ho] at hs
          exact hs
        · rename_i ho
          rw [ho] at hs
          split
          · exact hs
          · split
            · exact hs.trans (follows_store ..)
            · exact hs.trans (follows_requeueOrFail env c (fun hin => hr (hs.keys hin)) ..)
  · exact follows_requeueOrFail env c hr ..

theorem follows_recover (c : Cleanup) {s : State} {runId : String} (hr : runId ∉ s.claims.keys) :
    Follows s (recover env c s runId).2 := by
  unfold recover
  split
  · split
    · exact .refl s
    · exact follows_recoverRun env c hr _
  · exact .refl s

theorem follows_recoverAll (c : Cleanup) {rs : List String} {s : State}
    (h : ∀ r ∈ rs, r ∉ s.claims.keys) : Follows s (recoverAll env c rs s).2 := by
  induction rs generalizing s with
  | nil => exact .refl s
  | cons r rs ih =>
    obtain ⟨hr, hrs⟩ := List.forall_mem_cons.mp h
    have hfirst := follows_recover env c hr
    rw [recoverAll]
    rcases ho : recover env c s r with ⟨e | u, t⟩
    · rw [ho] at hfirst
      exact hfirst
    · rw [ho] at hfirst
      exact hfirst.trans (ih fun q hq hin => hrs q hq (hfirst.keys hin))

theorem follows_offline (c : Cleanup) (s : State) (claim : Fields) (leaseSeconds : Int) :
    Follows s { s with registry := markOffline env c s.registry claim leaseSeconds } := by
  refine ⟨fun w => ?_, fun _ v h => ⟨v, h, .refl v⟩, fun _ h => .inl h⟩
  unfold markOffline
  dsimp only
  split
  · rfl
  · exact sessions_put rfl (presence_sessions ..) w

theorem follows_removeStale (gates : String → Fields → Except Error Unit) (c : Cleanup)
    (es : List (String × Value)) (s : State) : Follows s (removeStale env gates c es s).2 := by
  induction es generalizing s with
  | nil => exact .refl s
  | cons e rest ih =>
    obtain ⟨runId, value⟩ := e
    have herased := follows_erase s runId
    rw [removeStale]
    split
    · exact herased.trans (ih _)
    · rename_i claim _
      split
      · exact .refl s
      · rename_i leaseSeconds _
        split
        · exact ih s
        · split
          · exact .refl s
          · have hfreed := (follows_offline env c s claim leaseSeconds).trans (follows_erase _ runId)
            have hrest := hfreed.trans (ih _)
            dsimp only
            split
            · rename_i ho
              rw [ho] at hrest
              exact hrest
            · rename_i ho
              rw [ho] at hrest
              exact hrest

theorem follows_cleanup (gates : String → Fields → Except Error Unit) (c : Cleanup) (s : State) :
    Follows s (cleanupStaleMachineLeases env gates c s).2 := by
  have hremoved := follows_removeStale env gates c s.claims.entries s
  have hspec := removeStale_spec env gates c s.claims.entries s
  unfold cleanupStaleMachineLeases
  split
  · rename_i ho
    rw [ho] at hremoved
    exact hremoved
  · rename_i items t ho
    rw [ho] at hremoved hspec
    obtain ⟨hall, hitems⟩ := hspec.ok items rfl
    -- the second loop is about runs whose claims the first one has removed
    have hfree : ∀ r ∈ items.map (·.runId), r ∉ t.claims.keys := by
      intro r hr hin
      rw [hitems] at hr
      obtain ⟨e, he, hl, rfl⟩ := (mem_lostRuns env c).mp hr
      refine ((hspec.keys e.1).mp hin).2 ?_
      rw [List.takeWhile_eq_self_iff.mpr (List.all_eq_true.mp hall)]
      exact (mem_goneRuns env c).mpr ⟨e, he, isGone_of_lost env c hl, rfl⟩
    have hrecovered := hremoved.trans (follows_recoverAll env c hfree)
    split
    · rename_i hr
      rw [hr] at hrecovered
      exact hrecovered
    · rename_i hr
      rw [hr] at hrecovered
      exact hrecovered

/-! ### Claims -/

theorem look_eligible {s : State} {now : Int} {workerId : String} {record : Option Worker}
    {requested : List String} {i : Nat} {runId : String} {item : Eligible}
    (h : look env s now workerId record requested i runId = .ok (.eligible item)) :
    item.runId = runId := by
  unfold look at h
  split at h
  · split at h
    · cases h
    dsimp only at h
    split at h
    · cases h
    split at h
    · cases h
    split at h
    · cases h
    split at h
    · cases h
    split at h
    · cases h
    split at h
    · cases h
    · cases h
      rfl
  · cases h

/-- A scan finds nothing that does not wait. -/
theorem scan_spec {s : State} {now : Int} {workerId : String} {record : Option Worker}
    {requested pending remaining : List String} {i : Nat} {eligible : List Eligible}
    (h : scan env s now workerId record requested i pending = .ok (remaining, eligible)) :
    (∀ q ∈ remaining, q ∈ pending) ∧ ∀ item ∈ eligible, item.runId ∈ pending := by
  induction pending generalizing i remaining eligible with
  | nil =>
    cases h
    exact ⟨nofun, nofun⟩
  | cons runId rest ih =>
    rw [scan] at h
    cases hl : look env s now workerId record requested i runId with
    | error e => simp only [hl, reduceCtorEq] at h
    | ok found =>
      rcases hs : scan env s now workerId record requested (i + 1) rest with e | ⟨remaining', eligible'⟩
      · simp only [hl, hs, reduceCtorEq] at h
      obtain ⟨hrem, helig⟩ := ih hs
      have hrem' : ∀ q ∈ remaining', q ∈ runId :: rest := fun q hq =>
        List.mem_cons_of_mem _ (hrem q hq)
      have helig' : ∀ item ∈ eligible', item.runId ∈ runId :: rest := fun item hi =>
        List.mem_cons_of_mem _ (helig item hi)
      cases found with
      | dropped =>
        simp only [hl, hs] at h
        cases h
        exact ⟨hrem', helig'⟩
      | deferred =>
        simp only [hl, hs] at h
        cases h
        exact ⟨List.forall_mem_cons.mpr ⟨List.mem_cons_self, hrem'⟩, helig'⟩
      | eligible item =>
        simp only [hl, hs] at h
        cases h
        refine ⟨List.forall_mem_cons.mpr ⟨List.mem_cons_self, hrem'⟩,
          List.forall_mem_cons.mpr ⟨?_, helig'⟩⟩
        rw [look_eligible env hl]
        exact List.mem_cons_self

theorem best_mem (items : List Eligible) (item : Eligible) : best item items ∈ item :: items := by
  induction items generalizing item with
  | nil => exact List.mem_cons_self
  | cons other rest ih =>
    have h := ih (if other.score < item.score then other else item)
    rw [best]
    rcases List.mem_cons.mp h with h | h
    · rw [h]
      split
      · exact List.mem_cons_of_mem _ List.mem_cons_self
      · exact List.mem_cons_self
    · exact List.mem_cons_of_mem _ (List.mem_cons_of_mem _ h)

/-- The kernel lets no run without an id be claimed. -/
theorem queue_claim_ok {workerId reason : String} {item : Eligible}
    (h : enforceQueueTransitionDecision (queueClaim env workerId item) = .ok reason) :
    strip item.runId ≠ "" := by
  have hop : Kernel.Queue.normalizeOperation
      ((Kernel.present (queueClaim env workerId item).operation).getD "") = some .claim := by
    have h : Kernel.Queue.normalizeOperation ((Kernel.present "claim").getD "") = some .claim := by
      with_unfolding_all decide
    exact h
  obtain ⟨next, hv⟩ := queue_allowed h
  obtain ⟨m, hm⟩ := move_of_allowed hv
  rw [queue_command hop, Kernel.Queue.decisionOf, Kernel.Queue.claim_move] at hm
  obtain ⟨hid, -⟩ := hm
  intro hblank
  have hrun : strip (queueClaim env workerId item).runId = "" := by
    simp only [queueClaim, hblank]
    decide
  rw [present_strip, if_pos hrun] at hid
  cases hid

/-- What a claim has done that gave out a run. -/
structure Claimed (s : State) (call : Call) (w : String) (item : Eligible)
    (o : Outcome (Option String)) : Prop where
  result : o.1 = .ok (some (strip item.runId))
  waited : item.runId ∈ s.pending
  allowed : s.claims.count (heldBy env w) ≤ Kernel.u64Max →
    strip w ≠ "" ∧ s.claims.count (heldBy env w) < leaseLimit (sessions s w)
  runNamed : strip item.runId ≠ ""
  claims : o.2.claims = s.claims.put (strip item.runId)
    (.object (claimRecord env call w (s.registry.get? w) item))
  pending : ∀ q ∈ o.2.pending, q ∈ s.pending ∧ q ≠ strip item.runId
  sessions : ∀ v, sessions o.2 v = sessions s v

/-- What a claim has done that gave out nothing. -/
structure Idle (s : State) (o : Outcome (Option String)) : Prop where
  follows : Follows s o.2
  nothing : ∀ runId, o.1 ≠ .ok (some runId)

theorem idle_none {s t : State} (h : Follows s t) : Idle s (.ok none, t) :=
  ⟨h, fun _ hr => by cases hr⟩

theorem idle_error (s : State) (e : Error) : Idle s (.error e, s) :=
  ⟨.refl s, fun _ hr => by cases hr⟩

/-- The state that a claim leaves, before its worker is marked as seen. -/
def granted (call : Call) (s : State) (w : String) (item : Eligible) (remaining : List String) :
    State where
  pending := remaining.filter (· ≠ strip item.runId)
  claims := s.claims.put (strip item.runId)
    (.object (claimRecord env call w (s.registry.get? w) item))
  registry := s.registry
  runs := s.runs

theorem claimed_of {call : Call} {s : State} {w reason : String} {item : Eligible}
    {remaining : List String} (hitem : item.runId ∈ s.pending)
    (hremaining : ∀ q ∈ remaining, q ∈ s.pending)
    (hacquire : enforceMachineLeaseDecision (acquireRequest w (s.claims.count (heldBy env w))
      (sessions s w) env.leaseSeconds) = .ok ())
    (hqueue : enforceQueueTransitionDecision (queueClaim env w item) = .ok reason) :
    Claimed env s call w item (.ok (some (strip item.runId)),
      markLocalWorkerSeen env (granted env call s w item remaining) w (some (strip item.runId)) "busy"
        call.nowIso "claimed_local_run") where
  result := rfl
  waited := hitem
  allowed hcount := acquire_ok hcount hacquire
  runNamed := queue_claim_ok env hqueue
  claims := by
    dsimp only
    rw [claims_seen, granted]
  pending q hq := by
    dsimp only at hq
    rw [pending_seen] at hq
    obtain ⟨hq, hne⟩ := List.mem_filter.mp hq
    exact ⟨hremaining q hq, of_decide_eq_true hne⟩
  sessions := (follows_seen env (granted env call s w item remaining) w "busy" call.nowIso
    "claimed_local_run" (some (strip item.runId))).sessions

/-- A claim changes nothing, or moves one run from the queue to its worker. -/
theorem claim_cases (call : Call) (s : State) (w : String) (capabilities : List String) :
    Idle s (claimLocalMachineLease env call s w capabilities) ∨
      ∃ item, Claimed env s call w item (claimLocalMachineLease env call s w capabilities) := by
  unfold claimLocalMachineLease
  dsimp only
  split
  · exact .inl (idle_none (follows_seen ..))
  split
  · exact .inl (idle_error ..)
  · rename_i remaining hscan
    exact .inl (idle_none ((follows_pending (scan_spec env hscan).1).trans (follows_seen ..)))
  · rename_i remaining first rest hscan
    obtain ⟨hremaining, heligible⟩ := scan_spec env hscan
    split
    · exact .inl (idle_error ..)
    rename_i hacquire
    split
    · exact .inl (idle_error ..)
    rename_i reason hqueue
    exact .inr ⟨_, claimed_of env (heligible _ (best_mem rest first)) hremaining hacquire hqueue⟩

theorem text_string (t : String) : text env (.string t) = strip t := by
  rw [text, Value.token, Value.str]
  by_cases h : t = ""
  · subst h
    rfl
  · simp [Value.truthy, h]

theorem strip_strip (t : String) : strip (strip t) = strip t := Text.trim_trim Text.pySpace t

theorem strip_either (a b : String) :
    strip (either (strip a) (strip b)) = either (strip a) (strip b) := by
  by_cases h : strip a = ""
  · rw [either, if_pos h, strip_strip b]
  · rw [either, if_neg h, strip_strip a]

theorem strip_machineIdOf (record : Option Worker) (workerId : String) :
    strip (machineIdOf record workerId) = machineIdOf record workerId := by
  rw [machineIdOf]
  exact strip_either (either (record.getD {}).machineId (either (record.getD {}).runtimeId workerId))
    workerId

section Record

variable (call : Call) (w : String) (record : Option Worker) (item : Eligible)

theorem worker_claimRecord : Fields.get (claimRecord env call w record item) "worker_id" =
    .string (strip (machineIdOf record w)) := by
  simp [claimRecord, buildMachineLeaseRecord, Fields.get_cons]

theorem run_claimRecord : Fields.get (claimRecord env call w record item) "run_id" =
    .string (strip (strip item.runId)) := by
  simp [claimRecord, buildMachineLeaseRecord, Fields.get_cons]

theorem lease_claimRecord : Fields.get (claimRecord env call w record item) "lease_id" =
    .string (either (strip call.leaseId) call.uuid.hex) := by
  simp [claimRecord, buildMachineLeaseRecord, Fields.get_cons]

theorem obtainedBy_claimRecord : obtainedBy (claimRecord env call w record item) = some w := by
  simp [obtainedBy, claimRecord, buildMachineLeaseRecord, Fields.get_cons, fieldsOf]

end Record

/-- A claim by a worker that the registry knows under its own id names that worker. -/
theorem owned_claimRecord {record : Option Worker} {w : String} (hw : machineIdOf record w = w)
    (hne : strip w ≠ "") {call : Call} {item : Eligible} (hr : strip item.runId ≠ "") :
    Owned env (strip item.runId) (claimRecord env call w record item) w := by
  have htrim : strip w = w := by
    have h := strip_machineIdOf record w
    rwa [hw] at h
  refine ⟨obtainedBy_claimRecord .., htrim ▸ hne, htrim, ?_, ?_, (strip_strip item.runId).symm ▸ hr, ?_⟩
  · rw [worker_claimRecord, hw, htrim]
  · rw [run_claimRecord, strip_strip]
  · rw [lease_claimRecord, text_string, strip_strip, either]
    split
    · exact call.uuid.written
    · rename_i hlease
      rwa [strip_strip]

theorem holderOf_owned {runId w : String} {claim : Fields} (ho : Owned env runId claim w) :
    holderOf env claim = w := by
  have htruthy : (Value.string w).truthy = true := by simp [Value.truthy, ho.named]
  rw [holderOf, ho.worker, orValue, if_pos htruthy, text_string, ho.trimmed]

/-- While the invariant holds the leases that count for a worker are those that it obtained. -/
theorem count_heldBy {s : State} (hi : Inv env s) (w : String) :
    s.claims.count (heldBy env w) = s.claims.count (obtained w) := by
  refine Table.count_congr fun e he => ?_
  obtain ⟨claim, workerId, hv, ho⟩ := hi.owned e.1 e.2 (Table.get?_eq_some.mpr he)
  simp only [hv, heldBy, obtained, holderOf_owned env ho, ho.obtained, Option.some.injEq]

/-- A claim keeps the queue and the claims apart. -/
theorem inv_claimed {s : State} {call : Call} {w : String} {item : Eligible}
    {o : Outcome (Option String)} (hi : Inv env s) (hw : machineIdOf (s.registry.get? w) w = w)
    (htrim : ∀ q ∈ s.pending, strip q = q) (hc : Claimed env s call w item o) :
    strip item.runId ∉ s.claims.keys ∧ Inv env o.2 := by
  have hnew : strip item.runId ∉ s.claims.keys := by
    rw [htrim _ hc.waited]
    exact hi.apart _ hc.waited
  have hcount : s.claims.count (heldBy env w) ≤ Kernel.u64Max := by
    rw [count_heldBy env hi]
    exact (hi.bound w).trans (leaseLimit_le_u64 _)
  obtain ⟨hne, hlt⟩ := hc.allowed hcount
  rw [count_heldBy env hi] at hlt
  have ho : Owned env (strip item.runId) (claimRecord env call w (s.registry.get? w) item) w :=
    owned_claimRecord env hw hne hc.runNamed
  refine ⟨hnew, fun r hr hin => ?_, fun r v hv => ?_, fun v => ?_⟩
  · obtain ⟨hr, hner⟩ := hc.pending r hr
    rw [hc.claims, Table.mem_keys_put] at hin
    exact hi.apart r hr (hin.resolve_left hner)
  · rw [hc.claims, Table.get?_put] at hv
    split at hv
    · rename_i hr
      cases hv
      exact ⟨_, w, rfl, hr ▸ ho⟩
    · exact hi.owned r v hv
  · rw [hc.claims, hc.sessions, Table.count_put_new hnew, obtained, ho.obtained]
    by_cases hv : w = v
    · subst hv
      simp only [decide_true, if_true]
      exact hlt
    · simpa [hv] using hi.bound v

/-! ### Who is recognised as the owner -/

/-- The worker that obtained the claim is the one that is recognised as its owner: the requests of others
    do not get through, its own are not refused as those of another worker, and it can always give the
    run back. -/
structure Recognised (s : State) (runId workerId : String) : Prop where
  heartbeat_other : ∀ v note nowIso, strip v ≠ "" → strip v ≠ workerId →
    (heartbeatLocalRun env nowIso s runId v note).1 ≠ .ok ()
  complete_other : ∀ v resultText nowIso, strip v ≠ "" → strip v ≠ workerId →
    (completeLocalRun env stateGate nowIso s runId v resultText).1 ≠ .ok ()
  release_other : ∀ v leaseId statusHint note nowIso, strip v ≠ "" → strip v ≠ workerId → ∀ result,
    (releaseMachineLeaseClaim env nowIso s runId v leaseId statusHint note).1 ≠ .ok result
  heartbeat_owner : ∀ v note nowIso, strip v = workerId → ∀ e ∈ refusals,
    (heartbeatLocalRun env nowIso s runId v note).1 ≠ .error e
  complete_owner : ∀ v resultText nowIso, strip v = workerId → ∀ e ∈ refusals,
    (completeLocalRun env stateGate nowIso s runId v resultText).1 ≠ .error e
  release_owner : ∀ v statusHint note nowIso, strip v = workerId → ∃ result,
    (releaseMachineLeaseClaim env nowIso s runId v "" statusHint note).1 = .ok result

theorem either_named {a : String} (h : a ≠ "") (b : String) : either a b = a := if_neg h

theorem resolvedWorker_named {v : String} (hv : v ≠ "") : ∀ claim : Option Value,
    resolvedWorker env v claim = v
  | some (.object _) => either_named hv _
  | some .null | some (.bool _) | some (.int _) | some (.float _) | some (.string _)
  | some (.array _) | none => rfl

section Owner

variable {env} {s : State} {runId w : String} {claim : Fields}

theorem resolvedWorker_owned (ho : Owned env runId claim w) :
    resolvedWorker env "" (some (.object claim)) = w := by
  rw [resolvedWorker, either, if_pos rfl, ho.worker, text_string, ho.trimmed]

/-- The gate of the local workers compares the worker that asks with the one that obtained the claim. -/
theorem mismatch_owned (ho : Owned env runId claim w) {v : String} (hv : strip v ≠ "") :
    Kernel.LocalWorker.workerMismatch (Kernel.present (strip v))
      (Kernel.present (resolvedWorker env "" (some (.object claim)))) = decide (strip v ≠ w) := by
  have hw : Kernel.present w = some w := by
    have h := present_strip w
    rwa [ho.trimmed, if_neg ho.named] at h
  rw [resolvedWorker_owned ho, present_strip v, if_neg hv, hw]
  rfl

variable {operation : Kernel.LocalWorker.Operation} {run : Fields} {runStatus : String}

/-- A request of another worker does not get through. -/
theorem gate_other (ho : Owned env runId claim w) {v : String} (hv : strip v ≠ "")
    (h : enforceLocalWorkerDecision (workerRequest env operation runId (strip v) run runStatus
      (some (.object claim))) = .ok ()) : strip v = w := by
  obtain ⟨-, hmatch⟩ := worker_ok h
  simp only [workerRequest, mismatch_owned ho hv] at hmatch
  simpa using hmatch

/-- The owner's request is not refused as that of another worker. -/
theorem gate_owner (ho : Owned env runId claim w) {e : Error}
    (h : enforceLocalWorkerDecision (workerRequest env operation runId w run runStatus
      (some (.object claim))) = .error e) : e ∉ refusals := by
  rcases worker_refused h with rfl | ⟨reason, rfl⟩ | hmismatch
  · decide
  · exact denied_not_refusal _ reason
  · have hown := mismatch_owned ho (ho.trimmed.symm ▸ ho.named)
    rw [ho.trimmed] at hown
    simp only [workerRequest, hown] at hmismatch
    exact absurd rfl (of_decide_eq_true hmismatch)

variable (hclaim : s.claims.get? runId = some (.object claim)) (ho : Owned env runId claim w)

include hclaim ho

theorem heartbeat_other (v note nowIso : String) (hv : strip v ≠ "") (hother : strip v ≠ w) :
    (heartbeatLocalRun env nowIso s runId v note).1 ≠ .ok () := by
  intro h
  unfold heartbeatLocalRun at h
  simp only [hclaim, resolvedWorker_named env hv] at h
  split at h
  · split at h
    · cases h
    · rename_i hgate
      exact hother (gate_other ho hv hgate)
  · cases h

theorem complete_other (v resultText nowIso : String) (hv : strip v ≠ "") (hother : strip v ≠ w) :
    (completeLocalRun env stateGate nowIso s runId v resultText).1 ≠ .ok () := by
  intro h
  unfold completeLocalRun at h
  simp only [hclaim, resolvedWorker_named env hv, either_named hv] at h
  split at h
  · split at h
    · cases h
    · rename_i hgate
      exact hother (gate_other ho hv hgate)
  · cases h

theorem release_other (v leaseId statusHint note nowIso : String) (hv : strip v ≠ "")
    (hother : strip v ≠ w) (result : Release) :
    (releaseMachineLeaseClaim env nowIso s runId v leaseId statusHint note).1 ≠ .ok result := by
  intro h
  simp only [releaseMachineLeaseClaim, hclaim, resolvedWorker_named env hv, workerRelease] at h
  cases hq : enforceQueueTransitionDecision
      (queueRelease runId (strip v) (holderOf env claim) false) with
  | error e => simp only [hq, reduceCtorEq] at h
  | ok reason =>
    have hsame := queue_release_owner hq ((strip_strip v).symm ▸ hv)
      (by rw [holderOf_owned env ho, ho.trimmed]; exact ho.named)
    rw [holderOf_owned env ho, ho.trimmed, strip_strip] at hsame
    exact hother hsame

theorem heartbeat_owner (v note nowIso : String) (hv : strip v = w) {e : Error} (he : e ∈ refusals) :
    (heartbeatLocalRun env nowIso s runId v note).1 ≠ .error e := by
  intro h
  unfold heartbeatLocalRun at h
  simp only [hclaim, hv, resolvedWorker_named env ho.named] at h
  split at h
  · split at h
    · rename_i hgate
      cases h
      exact gate_owner ho hgate he
    · cases h
  · cases h
    exact absurd he (by decide)

omit hclaim in
theorem workerRelease_owner : workerRelease env runId w "" claim = .ok () := by
  obtain ⟨reason, hqueue⟩ : ∃ reason,
      enforceQueueTransitionDecision (queueRelease runId w w false) = .ok reason :=
    queue_release_ok ho.runNamed
  have hlease : either (strip "") (text env (Fields.get claim "lease_id")) =
      text env (Fields.get claim "lease_id") := rfl
  simp only [workerRelease, holderOf_owned env ho, hqueue, hlease]
  exact lease_release_ok (ho.trimmed.symm ▸ ho.named) ho.lease

/-- The owner gives its run back. -/
theorem release_owner (v statusHint note nowIso : String) (hv : strip v = w) :
    (releaseMachineLeaseClaim env nowIso s runId v "" statusHint note).1 = .ok ⟨w, true⟩ ∧
      (releaseMachineLeaseClaim env nowIso s runId v "" statusHint note).2.claims =
        s.claims.erase runId := by
  have hworker : resolvedWorker env (strip v) (some (.object claim)) = w := by
    rw [hv, resolvedWorker_named env ho.named]
  simp only [releaseMachineLeaseClaim, hclaim, hworker, workerRelease_owner ho, true_and]
  split
  · exact claims_seen ..
  · rfl

omit hclaim ho in
theorem setRunStatus_ok {t : State} (ht : t.claims.get? runId = none) (status : String) :
    (setRunStatus env t runId status).1 = .ok () := by
  unfold setRunStatus
  split
  · split
    · rfl
    · dsimp only
      split
      · have hstored : ∀ run, (store t runId run).claims.get? runId = none := fun _ => ht
        simp only [reconcileMachineLeaseRelease, hstored]
      · rfl
  · rfl

theorem complete_owner (v resultText nowIso : String) (hv : strip v = w) {e : Error}
    (he : e ∈ refusals) :
    (completeLocalRun env stateGate nowIso s runId v resultText).1 ≠ .error e := by
  intro h
  have hworker : resolvedWorker env (strip v) (some (.object claim)) = w := by
    rw [hv, resolvedWorker_named env ho.named]
  unfold completeLocalRun at h
  simp only [hclaim, hworker, either_named ho.named, ho.trimmed, holderOf_owned env ho] at h
  split at h
  · rename_i run hrun
    split at h
    · rename_i hgate
      cases h
      exact gate_owner ho hgate he
    split at h
    · cases h
      exact denied_not_refusal _ _ he
    split at h
    · rename_i hqueue
      cases h
      exact queue_complete_owner hqueue he
    split at h
    · cases h
    -- the release goes through, and there is no claim left for the status to end
    obtain ⟨hreleased, hclaims⟩ := release_owner (s := store s runId (completedRun run resultText)) hclaim
      ho w "idle" "completed_run" nowIso ho.trimmed
    rcases hr : releaseMachineLeaseClaim env nowIso (store s runId (completedRun run resultText)) runId w
      "" "idle" "completed_run" with ⟨o, t⟩
    rw [hr] at hreleased hclaims h
    have hnone : t.claims.get? runId = none := by
      rw [hclaims, Table.get?_erase, if_pos rfl]
    obtain rfl : o = .ok ⟨w, true⟩ := hreleased
    simp only [Bool.not_true, Bool.false_and, Bool.false_eq_true, if_false,
      setRunStatus_ok hnone, reduceCtorEq] at h
  · cases h
    exact absurd he (by decide)

theorem recognised : Recognised env stateGate s runId w where
  heartbeat_other := heartbeat_other hclaim ho
  complete_other := complete_other stateGate hclaim ho
  release_other := release_other hclaim ho
  heartbeat_owner v note nowIso hv _ he := heartbeat_owner hclaim ho v note nowIso hv he
  complete_owner v resultText nowIso hv _ he :=
    complete_owner stateGate hclaim ho v resultText nowIso hv he
  release_owner v statusHint note nowIso hv :=
    ⟨_, (release_owner hclaim ho v statusHint note nowIso hv).1⟩

end Owner

/-! ### Runs -/

/-- A worker claims under its own id, no pending id has white space around it, and no claimed run is
    requeued. -/
def Orderly (s : State) : Label → Prop
  | .claim workerId _ _ => machineIdOf (s.registry.get? workerId) workerId = workerId ∧
      ∀ r ∈ s.pending, strip r = r
  | .requeue runId => runId ∉ s.claims.keys
  | _ => True

/-- One orderly step keeps the queue and the claims apart. -/
theorem inv_step {s t : State} {l : Label} (hi : Inv env s) (ho : Orderly s l)
    (h : step env stateGate s l = some t) : Inv env t := by
  cases l with
  | claim workerId capabilities call =>
    cases h
    rcases claim_cases env call s workerId capabilities with hidle | ⟨item, hc⟩
    · exact inv_follows env hi hidle.follows
    · exact (inv_claimed env hi ho.1 ho.2 hc).2
  | heartbeat runId workerId note nowIso =>
    cases h
    exact inv_follows env hi (follows_heartbeat ..)
  | complete runId workerId resultText nowIso =>
    cases h
    exact inv_follows env hi (follows_complete ..)
  | release runId workerId leaseId statusHint note nowIso =>
    cases h
    exact inv_follows env hi (follows_release ..)
  | cleanup settings =>
    cases h
    exact inv_follows env hi (follows_cleanup ..)
  | requeue runId =>
    cases h
    exact inv_follows env hi (follows_requeue env ho)
  | write runId run =>
    cases h
    exact inv_follows env hi (follows_store ..)

/-- Nothing is claimed yet; any runs may wait and any workers be registered. -/
def start (pending : List String) (registry : Table String Worker) (runs : Table String Value) :
    State where
  pending := pending
  claims := Table.empty
  registry := registry
  runs := runs

theorem inv_start (pending : List String) (registry : Table String Worker)
    (runs : Table String Value) : Inv env (start pending registry runs) :=
  ⟨fun _ _ => List.not_mem_nil, fun _ _ h => (by cases h), fun _ => Nat.zero_le _⟩

/-- What is asked of the queue in every state that a run reaches. -/
structure Sound (s : State) : Prop where
  apart : ∀ r ∈ s.pending, r ∉ s.claims.keys
  single : ∀ r r' claim claim', s.claims.get? r = some (.object claim) →
    s.claims.get? r' = some (.object claim') →
    Fields.get claim "run_id" = Fields.get claim' "run_id" → r = r'
  claimed : ∀ w capabilities call r, Orderly s (.claim w capabilities call) →
    (claimLocalMachineLease env call s w capabilities).1 = .ok (some r) → r ∉ s.claims.keys ∧
      ∃ claim, (claimLocalMachineLease env call s w capabilities).2.claims.get? r =
        some (.object claim) ∧ obtainedBy claim = some w
  bound : ∀ w, (s.claims.count (obtained w) : Int) ≤ max 1 (sessions s w)
  owner : ∀ r v, s.claims.get? r = some v → ∃ claim w, v = .object claim ∧
    obtainedBy claim = some w ∧ Recognised env stateGate s r w

theorem sound_of_inv {s : State} (hi : Inv env s) : Sound env stateGate s where
  apart := hi.apart
  single r r' claim claim' h h' heq := by
    obtain ⟨_, w, hv, ho⟩ := hi.owned r _ h
    obtain ⟨_, w', hv', ho'⟩ := hi.owned r' _ h'
    cases hv
    cases hv'
    rw [ho.run, ho'.run] at heq
    cases heq
    rfl
  claimed w capabilities call r horderly hresult := by
    rcases claim_cases env call s w capabilities with hidle | ⟨item, hc⟩
    · exact absurd hresult (hidle.nothing r)
    · rw [hc.result] at hresult
      cases hresult
      obtain ⟨hnew, -⟩ := inv_claimed env hi horderly.1 horderly.2 hc
      exact ⟨hnew, _, by rw [hc.claims, Table.get?_put, if_pos rfl], obtainedBy_claimRecord ..⟩
  bound w := by
    have hlimit := (hi.bound w).trans (leaseLimit_le _)
    omega
  owner r v h := by
    obtain ⟨claim, w, rfl, ho⟩ := hi.owned r v h
    exact ⟨claim, w, rfl, ho.obtained, recognised stateGate h ho⟩

/-- Every run whose steps are orderly keeps pending and claimed runs apart, claims a run once, keeps each
    worker to its limit, and knows the owner of each claim. -/
theorem local_leases {pending : List String} {registry : Table String Worker}
    {runs : Table String Value} {labels : List Label} {s : State}
    (hm : Run.Meets (step env stateGate) Orderly (start pending registry runs) labels)
    (h : Run.run (step env stateGate) (start pending registry runs) labels = some s) :
    Sound env stateGate s :=
  sound_of_inv env stateGate
    (Run.run_inv (fun _ _ _ => inv_step env stateGate) hm (inv_start env pending registry runs) h)

instance decidableOrderly (s : State) : ∀ l : Label, Decidable (Orderly s l)
  | .claim _ _ _ => inferInstanceAs (Decidable (_ ∧ _))
  | .requeue _ => inferInstanceAs (Decidable (¬ _))
  | .heartbeat _ _ _ _ | .complete _ _ _ _ | .release _ _ _ _ _ _ | .cleanup _ | .write _ _ =>
    inferInstanceAs (Decidable True)

/-- Two runs wait for a worker that may have one session. -/
def twoWaiting (machineId : String) : State :=
  start ["r1", "r2"] (Table.empty.put "w1" { machineId, maxConcurrentSessions := 1 })
    ((Table.empty.put "r1" (.object [("status", .string "queued_local")])).put "r2"
      (.object [("status", .string "queued_local")]))

def claimCall : Call where
  now := 1767225600000000
  nowIso := "2026-01-01T00:00:00Z"
  leaseId := ""
  uuid := ⟨"c0ffee", by decide⟩

def allowComplete (_ : String) (_ : Fields) : Except String String := .ok "state_complete_allowed"

/-- The worker gets the second run when it has completed the first. -/
def oneByOne : List Label :=
  [.claim "w1" [] claimCall, .claim "w1" [] claimCall,
    .write "r1" [("status", .string "running_local")],
    .complete "r1" "w1" "done" "2026-01-01T00:00:01Z", .claim "w1" [] claimCall,
    .heartbeat "r2" "w1" "" "2026-01-01T00:00:02Z"]

theorem local_leases_one_by_one : ∃ s,
    Run.run (step plainEnv allowComplete) (twoWaiting "") oneByOne = some s ∧
      s.claims.keys = ["r2"] ∧ s.pending = [] ∧ Sound plainEnv allowComplete s := by
  have hends : (Run.run (step plainEnv allowComplete) (twoWaiting "") oneByOne).map
      (fun s => (s.claims.keys, s.pending)) = some (["r2"], []) := by decide +kernel
  have horderly : Run.Meets (step plainEnv allowComplete) Orderly (twoWaiting "") oneByOne := by
    decide +kernel
  obtain ⟨s, hrun, hs⟩ := Option.map_eq_some_iff.mp hends
  obtain ⟨hkeys, hpending⟩ := Prod.mk.inj hs
  exact ⟨s, hrun, hkeys, hpending, local_leases plainEnv allowComplete horderly hrun⟩

/-- A worker that the registry knows under another machine id claims twice. -/
def claimsTwice : List Label :=
  [.claim "w1" [] claimCall, .claim "w1" [] claimCall,
    .write "r1" [("status", .string "running_local")]]

/-- It is then beyond its limit, and refused as the owner of what it has claimed. -/
theorem local_leases_machine_id : ∃ s,
    Run.run (step plainEnv allowComplete) (twoWaiting "m1") claimsTwice = some s ∧
      s.claims.count (obtained "w1") = 2 ∧ sessions s "w1" = 1 ∧
      (heartbeatLocalRun plainEnv "2026-01-01T00:00:01Z" s "r1" "w1" "").1 = .error notOwner ∧
      ¬ Sound plainEnv allowComplete s := by
  have hends : (Run.run (step plainEnv allowComplete) (twoWaiting "m1") claimsTwice).map
      (fun s => (s.claims.count (obtained "w1"), sessions s "w1",
        (heartbeatLocalRun plainEnv "2026-01-01T00:00:01Z" s "r1" "w1" "").1)) =
      some (2, 1, .error notOwner) := by decide +kernel
  obtain ⟨s, hrun, hs⟩ := Option.map_eq_some_iff.mp hends
  obtain ⟨hcount, hs⟩ := Prod.mk.inj hs
  obtain ⟨hsessions, hheartbeat⟩ := Prod.mk.inj hs
  refine ⟨s, hrun, hcount, hsessions, hheartbeat, fun hsound => ?_⟩
  have hbound := hsound.bound "w1"
  rw [hcount, hsessions] at hbound
  exact absurd hbound (by decide)

end Empyralis.Server.Leases
