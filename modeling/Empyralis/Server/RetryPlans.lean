import Empyralis.Server.ChildRetries

/-! What waits to be retried: planning and settling keep what is known of each entry and each timer. -/

namespace Empyralis.Server.Delegation
open Text (strip)

variable {cfg : Config}

/-! ### What is waiting -/

section Kept

variable {Ok : String → Nat → Prop}

/-- `Ok failed time` holds of each entry: the failed run, and the time before which it is not retried. -/
def Waits (Ok : String → Nat → Prop) (entries : Table String PendingRetry) : Prop :=
  ∀ lineage entry, entries.get? lineage = some entry →
    ∃ time, entry.nextRetryAt = some time ∧ Ok (strip entry.failedChildRunId) time

theorem waits_empty : Waits Ok Table.empty := by
  intro lineage entry h
  cases h

theorem Waits.erase {entries : Table String PendingRetry} (h : Waits Ok entries) (lineage : String) :
    Waits Ok (entries.erase lineage) := by
  intro l entry hl
  rw [Table.get?_erase] at hl
  split at hl
  · cases hl
  · exact h l entry hl

theorem Waits.eraseAll : ∀ (lineages : List String) {entries : Table String PendingRetry},
    Waits Ok entries → Waits Ok (eraseAll entries lineages)
  | [], _, h => h
  | lineage :: lineages, _, h => Waits.eraseAll lineages (h.erase lineage)

theorem Waits.put {entries : Table String PendingRetry} (h : Waits Ok entries) (lineage : String)
    {entry : PendingRetry} {time : Nat} (htime : entry.nextRetryAt = some time)
    (hok : Ok (strip entry.failedChildRunId) time) : Waits Ok (entries.put lineage entry) := by
  intro l other hl
  rw [Table.get?_put] at hl
  split at hl
  · cases hl
    exact ⟨time, htime, hok⟩
  · exact h l other hl

/-- The same of all that the state has waiting. -/
structure Kept (Ok : String → Nat → Prop) (s : State) : Prop where
  timers : ∀ timer ∈ s.timers, Ok (strip timer.failedChild.runId) timer.due
  pending : Waits Ok s.pendingRetries
  dicts : ∀ dict ∈ s.dicts, Waits Ok dict

structure KeptCall (Ok : String → Nat → Prop) (call : Call) : Prop where
  state : Kept Ok call.state
  retryState : Waits Ok call.retryState

theorem persist_kept {call : Call} (h : KeptCall Ok call) : KeptCall Ok (persistParentRetryState call) := by
  unfold persistParentRetryState
  split
  · exact ⟨{ h.state with pending := h.retryState }, h.retryState⟩
  · exact h

theorem forget_kept {call : Call} (h : KeptCall Ok call) (lineage : String) :
    KeptCall Ok (forget call lineage) :=
  persist_kept ⟨h.state, h.retryState.erase lineage⟩

theorem enter_kept {call : Call} (h : KeptCall Ok call) (lineage : String) {entry : PendingRetry}
    {time : Nat} (htime : entry.nextRetryAt = some time) (hok : Ok (strip entry.failedChildRunId) time) :
    KeptCall Ok { call with retryState := call.retryState.put lineage entry } :=
  ⟨h.state, h.retryState.put lineage htime hok⟩

theorem scheduleRetryTimer_kept {call : Call} (h : KeptCall Ok call) {lineage : String}
    {child : Snapshot} {due : Nat} (attempt : Int) (hok : Ok (strip child.runId) due) :
    KeptCall Ok (scheduleRetryTimer cfg call lineage child due attempt) := by
  refine ⟨{ h.state with timers := ?_ }, h.retryState⟩
  intro timer htimer
  rcases List.mem_append.mp htimer with hold | hnew
  · exact h.state.timers timer hold
  · obtain rfl := List.mem_singleton.mp hnew
    exact hok

theorem get?_forget (call : Call) (lineage : String) : (forget call lineage).retryState.get? lineage = none := by
  have hsame : (forget call lineage).retryState = call.retryState.erase lineage := by
    unfold forget persistParentRetryState
    split <;> rfl
  rw [hsame, Table.get?_erase, if_pos rfl]

theorem dropOther_kept {call : Call} (h : KeptCall Ok call) (lineage : String) (child : Snapshot) :
    KeptCall Ok (dropOther call lineage child) := by
  unfold dropOther
  split
  · exact h
  · split
    · exact forget_kept h lineage
    · exact h

/-- The entry that is left is about this child. -/
theorem dropOther_entry {call : Call} {lineage : String} {child : Snapshot} {entry : PendingRetry}
    (h : (dropOther call lineage child).retryState.get? lineage = some entry)
    (hne : strip entry.failedChildRunId ≠ "") :
    strip entry.failedChildRunId = strip child.runId := by
  unfold dropOther at h
  split at h
  · rename_i hnone
    cases hnone.symm.trans h
  · rename_i other hother
    split at h
    · rw [get?_forget] at h
      cases h
    · rename_i hkeep
      obtain rfl : other = entry := Option.some.inj (hother.symm.trans h)
      exact not_not.mp fun hdiff => hkeep ⟨hne, hdiff⟩

/-- What planning needs of `Ok`: a later start is as good, and a retry that the scheduler allows is. -/
structure Plans (cfg : Config) (Ok : String → Nat → Prop) (now : Nat) (child : Snapshot) : Prop where
  named : ∀ failed time, Ok failed time → failed ≠ ""
  later : ∀ failed time due, time ≤ due → Ok failed time → Ok failed due
  allowed : failureStatus cfg.toEnv child.status = true → ∀ retryCount,
    childRetryCount cfg.toEnv child ≤ retryCount → (schedulerRetryDecision cfg retryCount).isSome →
      ∀ due, now < due → Ok (strip child.runId) due

theorem resumeRetry_kept {call : Call} (h : KeptCall Ok call) {lineage : String} {child : Snapshot}
    {entry : PendingRetry} (hplans : Plans cfg Ok call.state.now child)
    (hentry : call.retryState.get? lineage = some entry)
    (hsame : strip entry.failedChildRunId ≠ "" →
      strip entry.failedChildRunId = strip child.runId) :
    KeptCall Ok (resumeRetry cfg call lineage child entry) := by
  obtain ⟨time, htime, hok⟩ := h.retryState lineage entry hentry
  simp only [resumeRetry]
  split
  · exact forget_kept h lineage
  · split
    · exact ⟨h.state, h.retryState⟩
    · rw [htime, Option.getD_some]
      refine scheduleRetryTimer_kept h _ (hplans.later _ time _ (le_max_right _ _) ?_)
      exact hsame (hplans.named _ _ hok) ▸ hok

theorem schedulerDelay_pos (delaySeconds : Nat) : 0 < schedulerDelay delaySeconds := by
  simp only [schedulerDelay, microseconds, autoRetryDelaySeconds]
  split <;> omega

theorem startRetry_kept {call : Call} (h : KeptCall Ok call) (lineage : String) {child : Snapshot}
    (hplans : Plans cfg Ok call.state.now child) (hfail : failureStatus cfg.toEnv child.status = true) :
    KeptCall Ok (startRetry cfg call lineage child) := by
  simp only [startRetry]
  split
  · exact h
  · rename_i delaySeconds hallowed
    have hok : Ok (strip child.runId) (call.state.now + schedulerDelay delaySeconds) :=
      hplans.allowed hfail _ (le_max_left _ _) (by rw [hallowed]; rfl) _
        (Nat.lt_add_of_pos_right (schedulerDelay_pos delaySeconds))
    have hstripped : strip (strip child.runId) = strip child.runId := Text.trim_trim Text.pySpace _
    exact scheduleRetryTimer_kept (persist_kept (enter_kept h lineage rfl (hstripped.symm ▸ hok))) _ hok

/-- A call changes neither the runs nor the time. -/
structure SameRuns (s t : State) : Prop where
  runs : t.runs = s.runs
  now : t.now = s.now
  dicts : t.dicts = s.dicts

theorem SameRuns.trans {s t u : State} (h : SameRuns s t) (h' : SameRuns t u) : SameRuns s u :=
  ⟨h'.runs.trans h.runs, h'.now.trans h.now, h'.dicts.trans h.dicts⟩

theorem persist_same (call : Call) : SameRuns call.state (persistParentRetryState call).state := by
  unfold persistParentRetryState
  split <;> exact ⟨rfl, rfl, rfl⟩

theorem forget_same (call : Call) (lineage : String) : SameRuns call.state (forget call lineage).state :=
  persist_same { call with retryState := call.retryState.erase lineage }

theorem dropOther_same (call : Call) (lineage : String) (child : Snapshot) :
    SameRuns call.state (dropOther call lineage child).state := by
  unfold dropOther
  split
  · exact ⟨rfl, rfl, rfl⟩
  · split
    · exact forget_same call lineage
    · exact ⟨rfl, rfl, rfl⟩

variable (cfg)

theorem startRetry_same (call : Call) (lineage : String) (child : Snapshot) :
    SameRuns call.state (startRetry cfg call lineage child).state := by
  simp only [startRetry]
  split
  · exact ⟨rfl, rfl, rfl⟩
  · rename_i delaySeconds _
    have hsame := persist_same { call with
      retryState := call.retryState.put lineage
        ⟨strip child.runId,
          max (childRetryCount cfg.toEnv child) (attempts call.state (cfg.parentRunId, lineage)) + 1,
          some (call.state.now + schedulerDelay delaySeconds)⟩ }
    exact ⟨hsame.runs, hsame.now, hsame.dicts⟩

theorem visitLineage_same (call : Call) (entry : String × Snapshot) :
    SameRuns call.state (visitLineage cfg call entry).state := by
  simp only [visitLineage]
  split
  · exact ⟨rfl, rfl, rfl⟩
  · refine (dropOther_same call entry.1 entry.2).trans ?_
    split
    · simp only [resumeRetry]
      split
      · exact forget_same _ entry.1
      · split <;> exact ⟨rfl, rfl, rfl⟩
    · exact startRetry_same cfg _ entry.1 entry.2

theorem visitLineage_kept {call : Call} (h : KeptCall Ok call) {entry : String × Snapshot}
    (hplans : Plans cfg Ok call.state.now entry.2) : KeptCall Ok (visitLineage cfg call entry) := by
  have hkept := dropOther_kept h entry.1 entry.2
  have hnow := (dropOther_same call entry.1 entry.2).now
  simp only [visitLineage]
  split
  · exact h
  · rename_i hgoes
    split
    · rename_i pending hpending
      exact resumeRetry_kept hkept (hnow ▸ hplans) hpending (dropOther_entry hpending)
    · refine startRetry_kept hkept _ (hnow ▸ hplans) ?_
      by_contra hfail
      exact hgoes (by simp [hfail])

theorem visitAll_same : ∀ (latest : List (String × Snapshot)) (call : Call),
    SameRuns call.state (latest.foldl (visitLineage cfg) call).state
  | [], _ => ⟨rfl, rfl, rfl⟩
  | entry :: latest, call => (visitLineage_same cfg call entry).trans (visitAll_same latest _)

theorem visitAll_kept : ∀ (latest : List (String × Snapshot)) {call : Call}, KeptCall Ok call →
    (∀ entry ∈ latest, Plans cfg Ok call.state.now entry.2) →
      KeptCall Ok (latest.foldl (visitLineage cfg) call)
  | [], _, h, _ => h
  | entry :: latest, call, h, hplans => by
    refine visitAll_kept latest (visitLineage_kept cfg h (hplans entry List.mem_cons_self)) ?_
    intro other hother
    rw [(visitLineage_same cfg call entry).now]
    exact hplans other (List.mem_cons_of_mem entry hother)

theorem openCall_same (s : State) (latest : Table String Snapshot) :
    SameRuns s (openCall cfg s latest).state := by
  simp only [openCall]
  split
  · exact ⟨rfl, rfl, rfl⟩
  · exact persist_same ⟨s, _, []⟩

theorem openCall_kept {s : State} (h : Kept Ok s) (latest : Table String Snapshot) :
    KeptCall Ok (openCall cfg s latest) := by
  have hstart : Waits Ok (parentRetries s) := by
    unfold parentRetries
    split
    · exact h.pending
    · exact waits_empty
  have hcall : KeptCall Ok ⟨s, eraseAll (parentRetries s) (staleLineages cfg latest (parentRetries s)), []⟩ :=
    ⟨h, hstart.eraseAll _⟩
  simp only [openCall]
  split
  · exact hcall
  · exact persist_kept hcall

theorem refresh_runs (s : State) : (refresh cfg s).runs = s.runs ∧ (refresh cfg s).now = s.now := by
  simp only [refresh, scheduleAutoRetry]
  split
  · exact ⟨rfl, rfl⟩
  · have hsame := (openCall_same cfg s (latestByLineage cfg.toEnv (children cfg s))).trans
      (visitAll_same cfg (latestByLineage cfg.toEnv (children cfg s)).entries _)
    exact ⟨hsame.runs, hsame.now⟩

/-- What is waiting after the parent's state was refreshed. -/
theorem refresh_kept {s : State} (h : Kept Ok s)
    (hplans : ∀ child ∈ children cfg s, Plans cfg Ok s.now child) : Kept Ok (refresh cfg s) := by
  simp only [refresh, scheduleAutoRetry]
  split
  · exact h
  · have hopen := openCall_kept cfg h (latestByLineage cfg.toEnv (children cfg s))
    have hkept := visitAll_kept cfg (latestByLineage cfg.toEnv (children cfg s)).entries hopen
      fun entry hentry => by
        rw [(openCall_same cfg s _).now]
        exact hplans entry.2 (Latest.latestBy_mem (Table.get?_eq_some.mpr hentry)).1
    refine { hkept.state with dicts := fun dict hdict => ?_ }
    rcases List.mem_append.mp hdict with hold | hnew
    · exact hkept.state.dicts dict hold
    · obtain rfl := List.mem_singleton.mp hnew
      exact hkept.retryState

variable {cfg}

theorem settleRetry_kept {s : State} (h : Kept Ok s) (timer : Timer) : Kept Ok (settleRetry s timer) := by
  have hdicts : ∀ dict ∈ s.dicts.modify timer.dict (fun dict => dict.erase timer.pending.2),
      Waits Ok dict := by
    intro dict hdict
    obtain ⟨i, hi⟩ := List.mem_iff_getElem?.mp hdict
    rw [List.getElem?_modify] at hi
    obtain ⟨old, hold, rfl⟩ := Option.map_eq_some_iff.mp hi
    have hkept := h.dicts old (List.mem_of_getElem? hold)
    split
    · exact hkept.erase _
    · exact hkept
  refine ⟨h.timers, ?_, hdicts⟩
  simp only [settleRetry]
  split
  · rw [List.getD_eq_getElem?_getD]
    cases hdict : (s.dicts.modify timer.dict fun dict => dict.erase timer.pending.2)[timer.dict]? with
    | none => exact h.pending
    | some dict => exact hdicts dict (List.mem_of_getElem? hdict)
  · exact h.pending

theorem Waits.mono {Ok' : String → Nat → Prop} (hle : ∀ failed time, Ok failed time → Ok' failed time)
    {entries : Table String PendingRetry} (h : Waits Ok entries) : Waits Ok' entries := by
  intro lineage entry hentry
  obtain ⟨time, htime, hok⟩ := h lineage entry hentry
  exact ⟨time, htime, hle _ _ hok⟩

theorem Kept.mono {Ok' : String → Nat → Prop} (hle : ∀ failed time, Ok failed time → Ok' failed time)
    {s : State} (h : Kept Ok s) : Kept Ok' s :=
  ⟨fun timer htimer => hle _ _ (h.timers timer htimer), h.pending.mono hle,
    fun dict hdict => (h.dicts dict hdict).mono hle⟩

end Kept

end Empyralis.Server.Delegation
