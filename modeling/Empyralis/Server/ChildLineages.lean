import Empyralis.Server.RetryPlans

/-! How long the retries of a child stay in its lineage, and how many of them there are. -/

namespace Empyralis.Server.Delegation
open Text (strip)

/-! ### Originals and retries -/

/-- A child that is a retry of none. -/
def isOriginal (env : Env) (child : Snapshot) : Bool :=
  (normalizeRunIdToken env child.retryOfRunId).isNone &&
    (normalizeRunIdToken env child.retryRootRunId).isNone

variable (cfg : Config)

/-- A run of the table that is a child of the parent. -/
def ChildRun (runs : Table String Run) (runId : String) (run : Run) : Prop :=
  runs.get? runId = some run ∧
    isChildOf cfg.toEnv cfg.parentRunId (serializeRunSnapshot runId run) = true

/-- A child that is no retry. -/
def OriginalRun (runs : Table String Run) (runId : String) (run : Run) : Prop :=
  ChildRun cfg runs runId run ∧ isOriginal cfg.toEnv (summaryOf runId run) = true

/-- The run `a` was started to retry the run `b`. -/
def RetryOf (runs : Table String Run) (a b : String) : Prop :=
  ∃ run, ChildRun cfg runs a run ∧
    normalizeRunIdToken cfg.toEnv run.context.metadata.retryOfRunId = some b

/-- The lineage of a run of the table. -/
def lineageOf (runs : Table String Run) (runId : String) : Option String :=
  (runs.get? runId).map fun run => childLineageKey cfg.toEnv (summaryOf runId run)

/-- Each child that was delegated has had no more retries than the limit, they are all in its lineage,
    and it counts as one child with them. -/
structure OneLineage (s : State) : Prop where
  bounded : ∀ original run, OriginalRun cfg s.runs original run → ∀ retries : List String,
    retries.Nodup → (∀ retry ∈ retries, Relation.TransGen (RetryOf cfg s.runs) retry original) →
      retries.length ≤ cfg.autoRetryMaxRetries
  lineage : ∀ original run, OriginalRun cfg s.runs original run → ∀ retry,
    Relation.TransGen (RetryOf cfg s.runs) retry original →
      lineageOf cfg s.runs retry = lineageOf cfg s.runs original
  counted : ∀ terminal pendingRetries summary,
    buildDelegationSummary cfg.toEnv terminal pendingRetries (children cfg s) = some summary →
      summary.effectiveChildren = ((children cfg s).filter (isOriginal cfg.toEnv)).length

/-- If the event starts a retry, it is one of a child that is no retry itself. -/
def RetriesOriginal (s : State) : Event → Prop
  | .fire index (some _) _ => ∀ timer ∈ s.timers[index]?, ∀ child ∈ retryTarget cfg s timer,
      isOriginal cfg.toEnv child = true
  | _ => True

instance (s : State) (event : Event) : Decidable (RetriesOriginal cfg s event) := by
  unfold RetriesOriginal
  split <;> infer_instance

/-- Before the first event: the children were delegated, none was retried, and no retry is planned. -/
structure Initial (s : State) : Prop where
  parent : Canonical cfg cfg.parentRunId
  canonical : ∀ runId ∈ s.runs.keys, Canonical cfg runId
  past : ∀ runId run, s.runs.get? runId = some run → (run.updatedAt.or run.createdAt).getD 0 ≤ s.now
  originals : ∀ runId run, ChildRun cfg s.runs runId run →
    isOriginal cfg.toEnv (summaryOf runId run) = true
  pendingRetries : s.pendingRetries = Table.empty
  dicts : s.dicts = []
  timers : s.timers = []

/-! ### Keys -/

variable {cfg}

theorem normalize_canonical {runId : String} (h : Canonical cfg runId) :
    normalizeRunIdToken cfg.toEnv (.string runId) = some runId := by
  obtain ⟨hne, hstrip, huuid⟩ := h
  have htoken : (Value.string runId).token cfg.repr = runId := by
    simp only [Value.token, Value.truthy, Value.str, decide_eq_true hne, if_true, hstrip]
  simp only [normalizeRunIdToken, htoken, if_neg hne, huuid]

theorem normalize_null (env : Env) : normalizeRunIdToken env .null = none := rfl

/-- The metadata of a retry of the run. -/
structure Retries (run : Run) (runId : String) : Prop where
  retryOf : run.context.metadata.retryOfRunId = .string runId
  root : run.context.metadata.retryRootRunId = .string runId
  sequence : run.context.metadata.retrySequence = .int 1

theorem lineageKey_original {runId : String} {run : Run} (hid : Canonical cfg runId)
    (h : isOriginal cfg.toEnv (summaryOf runId run) = true) :
    childLineageKey cfg.toEnv (summaryOf runId run) = runId := by
  simp only [isOriginal, Bool.and_eq_true, Option.isNone_iff_eq_none] at h
  have hown : normalizeRunIdToken cfg.toEnv (.string (summaryOf runId run).runId) = some runId :=
    normalize_canonical hid
  simp only [childLineageKey, h.1, h.2, hown]
  rfl

theorem lineageKey_retry {runId original : String} {run : Run} (horiginal : Canonical cfg original)
    (h : Retries run original) : childLineageKey cfg.toEnv (summaryOf runId run) = original := by
  have hroot : normalizeRunIdToken cfg.toEnv (summaryOf runId run).retryRootRunId = some original := by
    rw [← normalize_canonical horiginal, ← h.root]
    rfl
  simp only [childLineageKey, hroot]
  rfl

theorem Retries.not_original {runId original : String} {run : Run} (horiginal : Canonical cfg original)
    (h : Retries run original) : isOriginal cfg.toEnv (summaryOf runId run) = false := by
  have hof : normalizeRunIdToken cfg.toEnv (summaryOf runId run).retryOfRunId = some original := by
    rw [← normalize_canonical horiginal, ← h.retryOf]
    rfl
  simp only [isOriginal, hof]
  rfl

/-- A retry has been counted. -/
theorem Retries.one_le_retryCount {runId original : String} {run : Run} (h : Retries run original) :
    1 ≤ childRetryCount cfg.toEnv (summaryOf runId run) := by
  have hsequence : safeInt cfg.toEnv (summaryOf runId run).retrySequence 0 = 1 := by
    have hvalue : (summaryOf runId run).retrySequence = .int 1 := h.sequence
    rw [hvalue]
    rfl
  rw [childRetryCount, hsequence]
  exact le_max_right _ _

/-- What is asked for when a child is retried as its parent sees it: the child is the root. -/
theorem buildRetryChildPayload_summary {runId : String} (hid : Canonical cfg runId) (run : Run) :
    ∃ payload, buildRetryChildPayload cfg.toEnv (summaryOf runId run) = some payload ∧
      ∀ status now, Retries (delegatedRun cfg.parentRunId status now payload) runId := by
  have hstrip : strip (summaryOf runId run).runId = runId := hid.2.1
  have hroot : ((normalizeRunIdToken cfg.toEnv .null).or
      (normalizeRunIdToken cfg.toEnv (.string (summaryOf runId run).runId))) = some runId := by
    rw [normalize_null, Option.none_or]
    exact normalize_canonical hid
  have hsome : ∃ payload, buildRetryChildPayload cfg.toEnv (summaryOf runId run) = some payload ∧
      payload.metadata.retryOfRunId = .string (strip (summaryOf runId run).runId) ∧
      payload.metadata.retryRootRunId = ((((normalizeRunIdToken cfg.toEnv .null).or
        (normalizeRunIdToken cfg.toEnv (.string (summaryOf runId run).runId))).map
          Value.string).getD .null) ∧
      payload.metadata.retrySequence = .int (0 + 1) := ⟨_, rfl, rfl, rfl, rfl⟩
  obtain ⟨payload, hpayload, hof, hrootValue, hsequence⟩ := hsome
  rw [hstrip] at hof
  rw [hroot] at hrootValue
  exact ⟨payload, hpayload, fun status now => ⟨hof, hrootValue, hsequence⟩⟩

/-! ### Over a run of the system -/

def sortTime (run : Run) : Nat := (run.updatedAt.or run.createdAt).getD 0

/-- The run has failed before `time`; under a limit of one it is no retry. -/
def Awaited (cfg : Config) (runs : Table String Run) (failed : String) (time : Nat) : Prop :=
  failed ≠ "" ∧ ∃ run, runs.get? failed = some run ∧ failureStatus cfg.toEnv run.status = true ∧
    sortTime run < time ∧
    (cfg.autoRetryMaxRetries = 1 → isOriginal cfg.toEnv (summaryOf failed run) = true)

/-- The child has failed before this retry of it started, and this is the only one. -/
structure RetryFor (cfg : Config) (runs : Table String Run) (run : Run) (original : String) : Prop where
  retries : Retries run original
  after : ∃ failed, OriginalRun cfg runs original failed ∧
    failureStatus cfg.toEnv failed.status = true ∧ sortTime failed < sortTime run

/-- Each child is an original or the one retry of an original. -/
structure Lineages (cfg : Config) (runs : Table String Run) (now : Nat) : Prop where
  parent : Canonical cfg cfg.parentRunId
  canonical : ∀ runId ∈ runs.keys, Canonical cfg runId
  past : ∀ runId run, runs.get? runId = some run → sortTime run ≤ now
  child : ∀ runId run, ChildRun cfg runs runId run →
    isOriginal cfg.toEnv (summaryOf runId run) = true ∨ ∃ original, RetryFor cfg runs run original
  unique : ∀ original a b arun brun, Canonical cfg original → ChildRun cfg runs a arun →
    ChildRun cfg runs b brun → Retries arun original → Retries brun original → a = b

/-- What every reachable state has. -/
structure Good (cfg : Config) (s : State) : Prop where
  lineages : Lineages cfg s.runs s.now
  kept : Kept (Awaited cfg s.runs) s

/-- A run as it is after a step. -/
structure Carried (cfg : Config) (run after : Run) : Prop where
  context : after.context = run.context
  time : sortTime run ≤ sortTime after
  failed : failureStatus cfg.toEnv run.status = true → after = run

theorem Carried.refl (run : Run) : Carried cfg run run := ⟨rfl, le_refl _, fun _ => rfl⟩

theorem Carried.original {run after : Run} (h : Carried cfg run after) (runId : String) :
    isOriginal cfg.toEnv (summaryOf runId after) = isOriginal cfg.toEnv (summaryOf runId run) := by
  simp only [isOriginal, summaryOf, buildRunRelationSummary, serializeRunSnapshot, h.context]

theorem Carried.child {run after : Run} (h : Carried cfg run after) (runId : String) :
    isChildOf cfg.toEnv cfg.parentRunId (serializeRunSnapshot runId after) =
      isChildOf cfg.toEnv cfg.parentRunId (serializeRunSnapshot runId run) := by
  have hparent : (serializeRunSnapshot runId after).parentRunId =
      (serializeRunSnapshot runId run).parentRunId := by
    simp only [serializeRunSnapshot, h.context]
  simp only [isChildOf, hparent]
  rfl

/-- Every run is still there. -/
def Grows (cfg : Config) (runs after : Table String Run) : Prop :=
  ∀ runId run, runs.get? runId = some run → ∃ run', after.get? runId = some run' ∧ Carried cfg run run'

theorem Awaited.grows {runs after : Table String Run} (hgrows : Grows cfg runs after) {failed : String}
    {time : Nat} (h : Awaited cfg runs failed time) : Awaited cfg after failed time := by
  obtain ⟨hne, run, hrun, hfail, htime, horiginal⟩ := h
  obtain ⟨run', hrun', hcarried⟩ := hgrows failed run hrun
  obtain rfl := hcarried.failed hfail
  exact ⟨hne, run', hrun', hfail, htime, horiginal⟩

theorem OriginalRun.grows {runs after : Table String Run} (hgrows : Grows cfg runs after)
    {runId : String} {run : Run} (h : OriginalRun cfg runs runId run)
    (hfail : failureStatus cfg.toEnv run.status = true) : OriginalRun cfg after runId run := by
  obtain ⟨run', hrun', hcarried⟩ := hgrows runId run h.1.1
  obtain rfl := hcarried.failed hfail
  exact ⟨⟨hrun', h.1.2⟩, h.2⟩

theorem RetryFor.grows {runs after : Table String Run} (hgrows : Grows cfg runs after)
    {run run' : Run} (hcarried : Carried cfg run run') {original : String}
    (h : RetryFor cfg runs run original) : RetryFor cfg after run' original := by
  obtain ⟨failed, hfailed, hfail, htime⟩ := h.after
  refine ⟨?_, failed, hfailed.grows hgrows hfail, hfail, htime.trans_le hcarried.time⟩
  obtain ⟨hof, hroot, hsequence⟩ := h.retries
  rw [← hcarried.context] at hof hroot hsequence
  exact ⟨hof, hroot, hsequence⟩

theorem Lineages.later {runs : Table String Run} {now later : Nat} (h : Lineages cfg runs now)
    (hle : now ≤ later) : Lineages cfg runs later :=
  { h with past := fun runId run hrun => (h.past runId run hrun).trans hle }

/-! ### A run gets a status -/

theorem grows_report {runs : Table String Run} {runId : String} {run : Run} {now : Nat}
    (hrun : runs.get? runId = some run) (hfail : failureStatus cfg.toEnv run.status = false)
    (hpast : sortTime run ≤ now) (status : String) :
    Grows cfg runs (runs.put runId { run with status := status, updatedAt := some now }) ∧
      ∀ id after, (runs.put runId { run with status := status, updatedAt := some now }).get? id =
        some after → ∃ before, runs.get? id = some before ∧ Carried cfg before after := by
  have hcarried : Carried cfg run { run with status := status, updatedAt := some now } :=
    ⟨rfl, hpast, fun h => by rw [hfail] at h; cases h⟩
  constructor
  · intro id before hbefore
    rw [Table.get?_put]
    by_cases hid : id = runId
    · subst hid
      obtain rfl : run = before := Option.some.inj (hrun.symm.trans hbefore)
      exact ⟨_, if_pos rfl, hcarried⟩
    · exact ⟨before, by rw [if_neg hid, hbefore], .refl before⟩
  · intro id after hafter
    rw [Table.get?_put] at hafter
    by_cases hid : id = runId
    · rw [if_pos hid] at hafter
      cases hafter
      exact ⟨run, hid ▸ hrun, hcarried⟩
    · rw [if_neg hid] at hafter
      exact ⟨after, hafter, .refl after⟩

theorem Lineages.report {runs : Table String Run} {runId : String} {run : Run} {now later : Nat}
    (h : Lineages cfg runs now) (hrun : runs.get? runId = some run)
    (hfail : failureStatus cfg.toEnv run.status = false) (hle : now ≤ later) (status : String) :
    Lineages cfg (runs.put runId { run with status := status, updatedAt := some later }) later := by
  obtain ⟨hgrows, hback⟩ := grows_report hrun hfail ((h.past runId run hrun).trans hle) status
  refine ⟨h.parent, ?_, ?_, ?_, ?_⟩
  · intro id hid
    rcases Table.mem_keys_put.mp hid with rfl | hold
    · exact h.canonical _ (Table.mem_keys.mpr ⟨run, hrun⟩)
    · exact h.canonical id hold
  · intro id after hafter
    rw [Table.get?_put] at hafter
    split at hafter
    · cases hafter
      exact le_refl later
    · exact (h.past id after hafter).trans hle
  · rintro id after ⟨hafter, hchild⟩
    obtain ⟨before, hbefore, hcarried⟩ := hback id after hafter
    rw [hcarried.child] at hchild
    rw [hcarried.original]
    refine (h.child id before ⟨hbefore, hchild⟩).imp_right ?_
    rintro ⟨original, hretry⟩
    exact ⟨original, hretry.grows hgrows hcarried⟩
  · rintro original a b arun brun horiginal ⟨ha, hachild⟩ ⟨hb, hbchild⟩ ⟨haof, haroot, haseq⟩ ⟨hbof, hbroot, hbseq⟩
    obtain ⟨abefore, habefore, hacarried⟩ := hback a arun ha
    obtain ⟨bbefore, hbbefore, hbcarried⟩ := hback b brun hb
    rw [hacarried.child] at hachild
    rw [hbcarried.child] at hbchild
    rw [hacarried.context] at haof haroot haseq
    rw [hbcarried.context] at hbof hbroot hbseq
    exact h.unique original a b abefore bbefore horiginal ⟨habefore, hachild⟩ ⟨hbbefore, hbchild⟩
      ⟨haof, haroot, haseq⟩ ⟨hbof, hbroot, hbseq⟩

/-! ### A retry is started -/

theorem grows_put {runs : Table String Run} {new : String} (hnew : new ∉ runs.keys) (created : Run) :
    Grows cfg runs (runs.put new created) := by
  intro id run hrun
  have hne : id ≠ new := by
    rintro rfl
    exact hnew (Table.mem_keys.mpr ⟨run, hrun⟩)
  exact ⟨run, by rw [Table.get?_put, if_neg hne, hrun], .refl run⟩

/-- A child after the put is the new run or was one before. -/
theorem childRun_put {runs : Table String Run} {new id : String} {created run : Run}
    (h : ChildRun cfg (runs.put new created) id run) :
    (id = new ∧ run = created) ∨ ChildRun cfg runs id run := by
  obtain ⟨hrun, hchild⟩ := h
  rw [Table.get?_put] at hrun
  split at hrun
  · rename_i hid
    exact .inl ⟨hid, (Option.some.inj hrun).symm⟩
  · exact .inr ⟨hrun, hchild⟩

theorem Lineages.key_original {runs : Table String Run} {now : Nat} (h : Lineages cfg runs now)
    {id : String} {run : Run} (hrun : OriginalRun cfg runs id run) :
    childLineageKey cfg.toEnv (summaryOf id run) = id :=
  lineageKey_original (h.canonical id (Table.mem_keys.mpr ⟨run, hrun.1.1⟩)) hrun.2

theorem Lineages.key_retry {runs : Table String Run} {now : Nat} (h : Lineages cfg runs now)
    {id original : String} {run : Run} (hretry : RetryFor cfg runs run original) :
    childLineageKey cfg.toEnv (summaryOf id run) = original := by
  obtain ⟨failed, hfailed, -⟩ := hretry.after
  exact lineageKey_retry (h.canonical original (Table.mem_keys.mpr ⟨failed, hfailed.1.1⟩)) hretry.retries

theorem sortTime_le {id id' : String} {run run' : Run}
    (h : childSortKey (summaryOf id run) ≤ childSortKey (summaryOf id' run')) :
    sortTime run ≤ sortTime run' := by
  rcases Prod.Lex.le_iff.mp h with hlt | ⟨heq, -⟩
  · exact le_of_lt hlt
  · exact le_of_eq heq

/-- No retry of a run that is the latest of its lineage is there. -/
theorem Lineages.no_retry {runs : Table String Run} {now : Nat} (h : Lineages cfg runs now)
    {id : String} {run : Run} (hrun : OriginalRun cfg runs id run)
    (hlatest : ∀ id' run', ChildRun cfg runs id' run' →
      childLineageKey cfg.toEnv (summaryOf id' run') = id → sortTime run' ≤ sortTime run)
    {other : String} {orun : Run} (hother : ChildRun cfg runs other orun) : ¬ Retries orun id := by
  intro hretries
  have hid : Canonical cfg id := h.canonical id (Table.mem_keys.mpr ⟨run, hrun.1.1⟩)
  rcases h.child other orun hother with horiginal | ⟨original, hretry⟩
  · rw [hretries.not_original hid] at horiginal
    cases horiginal
  · obtain rfl : original = id := by
      have hsame := hretry.retries.retryOf.symm.trans hretries.retryOf
      injection hsame
    obtain ⟨failed, hfailed, -, htime⟩ := hretry.after
    obtain rfl : failed = run := Option.some.inj (hfailed.1.1.symm.trans hrun.1.1)
    have hle := hlatest other orun hother (h.key_retry hretry)
    omega

theorem Lineages.retry {runs : Table String Run} {now : Nat} (h : Lineages cfg runs now) {id : String}
    {run : Run} (hrun : OriginalRun cfg runs id run)
    (hfail : failureStatus cfg.toEnv run.status = true) (hbefore : sortTime run < now)
    (hlatest : ∀ id' run', ChildRun cfg runs id' run' →
      childLineageKey cfg.toEnv (summaryOf id' run') = id → sortTime run' ≤ sortTime run)
    {new : String} (hcanonical : Canonical cfg new) (hfresh : new ∉ runs.keys) {created : Run}
    (hretries : Retries created id) (htime : sortTime created = now) :
    Lineages cfg (runs.put new created) now := by
  have hgrows : Grows cfg runs (runs.put new created) := grows_put hfresh created
  refine ⟨h.parent, ?_, ?_, ?_, ?_⟩
  · intro other hother
    rcases Table.mem_keys_put.mp hother with rfl | hold
    · exact hcanonical
    · exact h.canonical other hold
  · intro other orun horun
    rw [Table.get?_put] at horun
    split at horun
    · cases horun
      exact le_of_eq htime
    · exact h.past other orun horun
  · intro other orun hother
    rcases childRun_put hother with ⟨rfl, rfl⟩ | hold
    · exact .inr ⟨id, hretries, run, hrun.grows hgrows hfail, hfail, htime ▸ hbefore⟩
    · refine (h.child other orun hold).imp_right ?_
      rintro ⟨original, hretry⟩
      exact ⟨original, hretry.grows hgrows (.refl orun)⟩
  · intro original a b arun brun horiginal ha hb haretries hbretries
    have hself : ∀ {other orun}, ChildRun cfg runs other orun → Retries orun original →
        ¬ Retries created original := by
      intro other orun hother horetries hcreated
      obtain rfl : original = id := by
        have hsame := hcreated.retryOf.symm.trans hretries.retryOf
        injection hsame
      exact h.no_retry hrun hlatest hother horetries
    rcases childRun_put ha with ⟨rfl, rfl⟩ | hold
    · rcases childRun_put hb with ⟨rfl, -⟩ | hbold
      · rfl
      · exact absurd haretries (hself hbold hbretries)
    · rcases childRun_put hb with ⟨rfl, rfl⟩ | hbold
      · exact absurd hbretries (hself hold haretries)
      · exact h.unique original a b arun brun horiginal hold hbold haretries hbretries

/-! ### The steps -/

theorem mem_children {s : State} {child : Snapshot} :
    child ∈ children cfg s ↔ ∃ id run, ChildRun cfg s.runs id run ∧ summaryOf id run = child := by
  simp only [children, mem_findChildRuns, ChildRun, and_assoc]

/-- What a timer retries has failed, is the run that the timer was set for, and the latest of its
    lineage. -/
theorem retryTarget_spec {s : State} {timer : Timer} {child : Snapshot}
    (h : retryTarget cfg s timer = some child) : ∃ id run, ChildRun cfg s.runs id run ∧
      summaryOf id run = child ∧ strip id = strip timer.failedChild.runId ∧
      failureStatus cfg.toEnv run.status = true ∧ ∀ id' run', ChildRun cfg s.runs id' run' →
        childLineageKey cfg.toEnv (summaryOf id' run') = childLineageKey cfg.toEnv child →
          sortTime run' ≤ sortTime run := by
  obtain ⟨latest, hlatest, hgoes⟩ := Option.bind_eq_some_iff.mp h
  split at hgoes
  · cases hgoes
  · rename_i hsame
    split at hgoes
    · rename_i hfail
      obtain rfl := Option.some.inj hgoes
      have hmem := List.mem_filter.mp (Latest.latest_mem childSortKey hlatest)
      have hkey : childLineageKey cfg.toEnv latest = timer.pending.2 := of_decide_eq_true hmem.2
      obtain ⟨id, run, hchild, rfl⟩ := mem_children.mp hmem.1
      refine ⟨id, run, hchild, rfl, not_not.mp hsame, hfail, fun id' run' hchild' hkey' => ?_⟩
      have hother : summaryOf id' run' ∈ (children cfg s).filter fun other =>
          childLineageKey cfg.toEnv other = timer.pending.2 :=
        List.mem_filter.mpr ⟨mem_children.mpr ⟨id', run', hchild', rfl⟩,
          decide_eq_true (hkey'.trans hkey)⟩
      exact sortTime_le (Latest.latest_le childSortKey hlatest hother)
    · cases hgoes

/-- What planning keeps. -/
theorem Lineages.plans {s : State} (h : Lineages cfg s.runs s.now) {child : Snapshot}
    (hchild : child ∈ children cfg s) : Plans cfg (Awaited cfg s.runs) s.now child := by
  obtain ⟨id, run, hrun, rfl⟩ := mem_children.mp hchild
  have hid : Canonical cfg id := h.canonical id (Table.mem_keys.mpr ⟨run, hrun.1⟩)
  have hstrip : strip (summaryOf id run).runId = id := hid.2.1
  refine ⟨fun failed time hok => hok.1, ?_, ?_⟩
  · rintro failed time due hle ⟨hne, frun, hfrun, hfail, htime, horiginal⟩
    exact ⟨hne, frun, hfrun, hfail, htime.trans_le hle, horiginal⟩
  · intro hfail retryCount hcount hallowed due hdue
    rw [hstrip]
    refine ⟨hid.1, run, hrun.1, hfail, (h.past id run hrun.1).trans_lt hdue, fun hone => ?_⟩
    -- Under a limit of one the scheduler allows no retry of what has been counted once.
    rcases h.child id run hrun with horiginal | ⟨original, hretry⟩
    · exact horiginal
    · have hcounted : 1 ≤ childRetryCount cfg.toEnv (summaryOf id run) := hretry.retries.one_le_retryCount
      simp only [schedulerRetryDecision, hone, Option.isSome_ite] at hallowed
      omega

theorem refresh_good {s : State} (h : Lineages cfg s.runs s.now) (hkept : Kept (Awaited cfg s.runs) s) :
    Good cfg (refresh cfg s) := by
  obtain ⟨hruns, hnow⟩ := refresh_runs cfg s
  have hafter := refresh_kept cfg hkept fun child hchild => h.plans hchild
  constructor
  · rw [hruns, hnow]
    exact h
  · rw [hruns]
    exact hafter

theorem settle_good {s : State} (h : Lineages cfg s.runs s.now) (hkept : Kept (Awaited cfg s.runs) s)
    (timer : Timer) : Good cfg (refresh cfg (settleRetry s timer)) :=
  refresh_good h (settleRetry_kept hkept timer)

/-- A job leaves the state as it is, or starts a retry of the child that its timer was set for. -/
theorem retryJob_cases (s : State) (timer : Timer) (created : Option Created) :
    retryJob cfg s timer created = s ∨ ∃ new child payload, created = some new ∧
      retryTarget cfg s timer = some child ∧
      buildRetryChildPayload cfg.toEnv child = some payload ∧
      retryJob cfg s timer created = { s with
        runs := s.runs.put new.runId (delegatedRun cfg.parentRunId new.status s.now payload) } := by
  unfold retryJob
  split
  · rename_i new payload hpayload
    obtain ⟨child, hchild, hbuilt⟩ := Option.bind_eq_some_iff.mp hpayload
    exact .inr ⟨new, child, payload, rfl, hchild, hbuilt, rfl⟩
  · exact .inl rfl

theorem fire_cases {s t : State} {index now : Nat} {created : Option Created}
    (h : step cfg s (.fire index created now) = some t) : ∃ timer, s.timers[index]? = some timer ∧
      s.now ≤ now ∧ timer.due ≤ now ∧ Fresh cfg s created ∧
      t = fire cfg { s with timers := s.timers.eraseIdx index, now := now } timer created := by
  simp only [step] at h
  split at h
  · rename_i timer htimer
    split at h
    · rename_i hgoes
      exact ⟨timer, htimer, hgoes.1, hgoes.2.1, hgoes.2.2, (Option.some.inj h).symm⟩
    · cases h
  · cases h

/-- So does a timer that fires. -/
theorem fire_good {s t : State} {index now : Nat} {created : Option Created} (h : Good cfg s)
    (hcondition : RetriesOriginal cfg s (.fire index created now))
    (hstep : step cfg s (.fire index created now) = some t) : Good cfg t := by
  obtain ⟨timer, htimer, hle, hdue, hfresh, rfl⟩ := fire_cases hstep
  have hlater : Lineages cfg s.runs now := h.lineages.later hle
  have hkept : Kept (Awaited cfg s.runs) { s with timers := s.timers.eraseIdx index, now := now } :=
    { h.kept with timers := fun other hother => h.kept.timers other (List.mem_of_mem_eraseIdx hother) }
  unfold fire
  rcases @retryJob_cases cfg { s with timers := s.timers.eraseIdx index, now := now } timer created
    with hsame | ⟨new, child, payload, rfl, hchild, hpayload, hjob⟩
  · rw [hsame]
    exact settle_good hlater hkept timer
  · obtain ⟨id, run, hrun, rfl, hid, hfail, hlatest⟩ := retryTarget_spec hchild
    have hcanonical : Canonical cfg id := hlater.canonical id (Table.mem_keys.mpr ⟨run, hrun.1⟩)
    have horiginal : OriginalRun cfg s.runs id run := ⟨hrun, hcondition timer htimer _ hchild⟩
    obtain ⟨-, frun, hfrun, -, hbefore, -⟩ := h.kept.timers timer (List.mem_of_getElem? htimer)
    rw [← hid, hcanonical.2.1] at hfrun
    obtain rfl : frun = run := Option.some.inj (hfrun.symm.trans hrun.1)
    obtain ⟨built, hbuilt, hretries⟩ := buildRetryChildPayload_summary hcanonical frun
    obtain rfl : built = payload := Option.some.inj (hbuilt.symm.trans hpayload)
    obtain ⟨hnew, -, hunused⟩ := hfresh new rfl
    rw [hlater.key_original horiginal] at hlatest
    rw [hjob]
    refine settle_good (hlater.retry horiginal hfail (hbefore.trans_le hdue) hlatest hnew hunused
      (hretries new.status now) rfl) ?_ timer
    exact Kept.mono (fun failed time => Awaited.grows (grows_put hunused _))
      ⟨hkept.timers, hkept.pending, hkept.dicts⟩

/-- One step keeps the lineages, if a retry is one of an original child. -/
theorem step_good {s t : State} {event : Event} (h : Good cfg s) (hcondition : RetriesOriginal cfg s event)
    (hstep : step cfg s event = some t) : Good cfg t := by
  cases event with
  | report runId status now =>
    simp only [step] at hstep
    split at hstep
    · rename_i run hrun
      split at hstep
      · rename_i hgoes
        cases hstep
        obtain ⟨hgrows, -⟩ := grows_report hrun hgoes.2 ((h.lineages.past runId run hrun).trans hgoes.1) status
        exact ⟨h.lineages.report hrun hgoes.2 hgoes.1 status,
          Kept.mono (fun failed time => Awaited.grows hgrows) ⟨h.kept.timers, h.kept.pending, h.kept.dicts⟩⟩
      · cases hstep
    · cases hstep
  | refresh now =>
    simp only [step] at hstep
    split at hstep
    · rename_i hle
      cases hstep
      exact refresh_good (h.lineages.later hle) ⟨h.kept.timers, h.kept.pending, h.kept.dicts⟩
    · cases hstep
  | fire index created now => exact fire_good h hcondition hstep

theorem initial_good {s : State} (h : Initial cfg s) : Good cfg s := by
  refine ⟨⟨h.parent, h.canonical, h.past, fun id run hrun => .inl (h.originals id run hrun), ?_⟩, ?_, ?_, ?_⟩
  · intro original a b arun brun horiginal ha hb haretries hbretries
    have hnot : isOriginal cfg.toEnv (summaryOf a arun) = false := haretries.not_original horiginal
    cases hnot.symm.trans (h.originals a arun ha)
  · rw [h.timers]
    simp
  · rw [h.pendingRetries]
    exact waits_empty
  · rw [h.dicts]
    simp

/-! ### One lineage -/

theorem Lineages.retryOf {runs : Table String Run} {now : Nat} (h : Lineages cfg runs now)
    {a b : String} (hretry : RetryOf cfg runs a b) :
    ∃ run, ChildRun cfg runs a run ∧ RetryFor cfg runs run b := by
  obtain ⟨run, hrun, hof⟩ := hretry
  rcases h.child a run hrun with horiginal | ⟨original, hfor⟩
  · have hnone : normalizeRunIdToken cfg.toEnv run.context.metadata.retryOfRunId = none := by
      rw [isOriginal, Bool.and_eq_true, Option.isNone_iff_eq_none] at horiginal
      exact horiginal.1
    cases hnone.symm.trans hof
  · obtain ⟨failed, hfailed, -⟩ := hfor.after
    have hcanonical : Canonical cfg original :=
      h.canonical original (Table.mem_keys.mpr ⟨failed, hfailed.1.1⟩)
    rw [hfor.retries.retryOf, normalize_canonical hcanonical, Option.some.injEq] at hof
    exact ⟨run, hrun, hof ▸ hfor⟩

theorem Lineages.retryOf_canonical {runs : Table String Run} {now : Nat} (h : Lineages cfg runs now)
    {a b : String} (hretry : RetryOf cfg runs a b) : Canonical cfg b := by
  obtain ⟨run, -, hfor⟩ := h.retryOf hretry
  obtain ⟨failed, hfailed, -⟩ := hfor.after
  exact h.canonical b (Table.mem_keys.mpr ⟨failed, hfailed.1.1⟩)

/-- What is retried is no retry. -/
theorem Lineages.retried_original {runs : Table String Run} {now : Nat} (h : Lineages cfg runs now)
    {a b c : String} (hab : RetryOf cfg runs a b) : ¬ RetryOf cfg runs b c := by
  intro hbc
  obtain ⟨run, -, hfor⟩ := h.retryOf hab
  obtain ⟨failed, hfailed, -⟩ := hfor.after
  obtain ⟨brun, hbrun, hbfor⟩ := h.retryOf hbc
  obtain rfl : failed = brun := Option.some.inj (hfailed.1.1.symm.trans hbrun.1)
  have hnot : isOriginal cfg.toEnv (summaryOf b failed) = false :=
    hbfor.retries.not_original (h.retryOf_canonical hbc)
  exact Bool.false_ne_true (hnot.symm.trans hfailed.2)

theorem Lineages.retry_direct {runs : Table String Run} {now : Nat} (h : Lineages cfg runs now)
    {a b : String} (hretry : Relation.TransGen (RetryOf cfg runs) a b) : RetryOf cfg runs a b := by
  induction hretry with
  | single hab => exact hab
  | tail _ hbc ih => exact absurd hbc (h.retried_original ih)

theorem length_le_one {l : List String} (hnodup : l.Nodup) (h : ∀ a ∈ l, ∀ b ∈ l, a = b) :
    l.length ≤ 1 := by
  match l with
  | [] => exact Nat.zero_le 1
  | [_] => exact le_refl 1
  | a :: b :: _ =>
    have hsame : a = b := h a (by simp) b (by simp)
    simp [hsame] at hnodup

theorem Lineages.bounded {runs : Table String Run} {now : Nat} (h : Lineages cfg runs now)
    {original : String} {retries : List String} (hnodup : retries.Nodup)
    (hretries : ∀ retry ∈ retries, Relation.TransGen (RetryOf cfg runs) retry original) :
    retries.length ≤ 1 := by
  refine length_le_one hnodup fun a ha b hb => ?_
  have hretry := h.retry_direct (hretries a ha)
  obtain ⟨arun, harun, hafor⟩ := h.retryOf hretry
  obtain ⟨brun, hbrun, hbfor⟩ := h.retryOf (h.retry_direct (hretries b hb))
  exact h.unique original a b arun brun (h.retryOf_canonical hretry) harun hbrun hafor.retries
    hbfor.retries

theorem lineageOf_eq {runs : Table String Run} {id : String} {run : Run} (h : ChildRun cfg runs id run) :
    lineageOf cfg runs id = some (childLineageKey cfg.toEnv (summaryOf id run)) := by
  rw [lineageOf, h.1]
  rfl

theorem Lineages.lineage {runs : Table String Run} {now : Nat} (h : Lineages cfg runs now)
    {original retry : String} {run : Run} (horiginal : OriginalRun cfg runs original run)
    (hretry : Relation.TransGen (RetryOf cfg runs) retry original) :
    lineageOf cfg runs retry = lineageOf cfg runs original := by
  obtain ⟨rrun, hrrun, hfor⟩ := h.retryOf (h.retry_direct hretry)
  rw [lineageOf_eq hrrun, lineageOf_eq horiginal.1, h.key_retry hfor, h.key_original horiginal]

/-! ### The count -/

theorem nodup_children (s : State) : ((children cfg s).map Snapshot.runId).Nodup := by
  have hperm : (children cfg s).Perm _ := List.perm_insertionSort _ _
  refine (hperm.map Snapshot.runId).nodup_iff.mpr ?_
  rw [List.map_map]
  have hkeys : (iterKnownRunSnapshots s.runs).map (Snapshot.runId ∘ buildRunRelationSummary) =
      s.runs.keys := by
    rw [iterKnownRunSnapshots, List.map_map]
    rfl
  have hsub := (List.filter_sublist (p := isChildOf cfg.toEnv cfg.parentRunId)
    (l := iterKnownRunSnapshots s.runs)).map (Snapshot.runId ∘ buildRunRelationSummary)
  rw [hkeys] at hsub
  exact s.runs.nodup.sublist hsub

/-- The lineages of the children are their originals. -/
theorem Lineages.mem_keys {s : State} (h : Lineages cfg s.runs s.now) (key : String) :
    key ∈ (latestByLineage cfg.toEnv (children cfg s)).keys ↔
      key ∈ ((children cfg s).filter (isOriginal cfg.toEnv)).map Snapshot.runId := by
  simp only [latestByLineage, Latest.mem_keys_latestBy, List.mem_map, List.mem_filter]
  constructor
  · rintro ⟨child, hchild, rfl⟩
    obtain ⟨id, run, hrun, rfl⟩ := mem_children.mp hchild
    rcases h.child id run hrun with horiginal | ⟨original, hfor⟩
    · exact ⟨_, ⟨hchild, horiginal⟩, (h.key_original ⟨hrun, horiginal⟩).symm⟩
    · obtain ⟨failed, hfailed, -⟩ := hfor.after
      exact ⟨_, ⟨mem_children.mpr ⟨original, failed, hfailed.1, rfl⟩, hfailed.2⟩, (h.key_retry hfor).symm⟩
  · rintro ⟨child, ⟨hchild, horiginal⟩, rfl⟩
    obtain ⟨id, run, hrun, rfl⟩ := mem_children.mp hchild
    exact ⟨_, hchild, h.key_original ⟨hrun, horiginal⟩⟩

theorem Lineages.counted {s : State} (h : Lineages cfg s.runs s.now)
    {terminal pendingRetries : List String} {summary : DelegationSummary}
    (hsummary : buildDelegationSummary cfg.toEnv terminal pendingRetries (children cfg s) = some summary) :
    summary.effectiveChildren = ((children cfg s).filter (isOriginal cfg.toEnv)).length := by
  have hnodup : (((children cfg s).filter (isOriginal cfg.toEnv)).map Snapshot.runId).Nodup :=
    (nodup_children s).sublist (List.filter_sublist.map _)
  have hperm := (List.perm_ext_iff_of_nodup (latestByLineage cfg.toEnv (children cfg s)).nodup hnodup).mpr
    h.mem_keys
  rw [effectiveChildren_eq cfg.toEnv hsummary, Table.keys, hperm.length_eq, List.length_map]

theorem good_oneLineage {s : State} (h : Good cfg s) (hlimit : 1 ≤ cfg.autoRetryMaxRetries) :
    OneLineage cfg s where
  bounded := fun _ _ _ _ hnodup hretries => (h.lineages.bounded hnodup hretries).trans hlimit
  lineage := fun _ _ horiginal _ hretry => h.lineages.lineage horiginal hretry
  counted := fun _ _ _ hsummary => h.lineages.counted hsummary

/-! ### A retry of a retry -/

theorem childRun_created (runs : Table String Run) {new : String} (hparent : Canonical cfg cfg.parentRunId)
    (hnew : Canonical cfg new) (hne : new ≠ cfg.parentRunId) (status : String) (now : Nat)
    (payload : RetryPayload) :
    ChildRun cfg (runs.put new (delegatedRun cfg.parentRunId status now payload)) new
      (delegatedRun cfg.parentRunId status now payload) := by
  refine ⟨by rw [Table.get?_put, if_pos rfl], ?_⟩
  have hid : strip (serializeRunSnapshot new (delegatedRun cfg.parentRunId status now payload)).runId =
      new := hnew.2.1
  have hof : normalizeRunIdToken cfg.toEnv (serializeRunSnapshot new
      (delegatedRun cfg.parentRunId status now payload)).parentRunId = some cfg.parentRunId :=
    normalize_canonical hparent
  simp only [isChildOf, hid, hof, hnew.1, hne, decide_true, Bool.and_true, ne_eq, not_false_eq_true]

theorem fire_runs (s : State) (timer : Timer) (created : Option Created) :
    (fire cfg s timer created).runs = (retryJob cfg s timer created).runs :=
  (refresh_runs cfg _).1

theorem retryJob_started {s : State} {timer : Timer} {child : Snapshot} {payload : RetryPayload}
    (hchild : retryTarget cfg s timer = some child)
    (hpayload : buildRetryChildPayload cfg.toEnv child = some payload) (new : Created) :
    (retryJob cfg s timer (some new)).runs =
      s.runs.put new.runId (delegatedRun cfg.parentRunId new.status s.now payload) := by
  simp only [retryJob, hchild, Option.bind_some, hpayload]

/-- A retry of a retry has that one as its root, and so leaves the lineage. -/
theorem Lineages.leaves {runs after : Table String Run} {now : Nat} (h : Lineages cfg runs now)
    (hgrows : Grows cfg runs after) {id new original : String} {run created : Run}
    (hrun : ChildRun cfg runs id run) (hfor : RetryFor cfg runs run original)
    (hcreated : ChildRun cfg after new created) (hretries : Retries created id) :
    ∃ failed, OriginalRun cfg after original failed ∧
      Relation.TransGen (RetryOf cfg after) new original ∧
      lineageOf cfg after new ≠ lineageOf cfg after original := by
  obtain ⟨failed, hfailed, hfail, -⟩ := hfor.after
  have hid : Canonical cfg id := h.canonical id (Table.mem_keys.mpr ⟨run, hrun.1⟩)
  have hcanonical : Canonical cfg original :=
    h.canonical original (Table.mem_keys.mpr ⟨failed, hfailed.1.1⟩)
  have hfirst : RetryOf cfg runs id original :=
    ⟨run, hrun, by rw [hfor.retries.retryOf, normalize_canonical hcanonical]⟩
  have hkept : RetryOf cfg after id original := by
    obtain ⟨run', hrun', hcarried⟩ := hgrows id run hrun.1
    refine ⟨run', ⟨hrun', by rw [hcarried.child]; exact hrun.2⟩, ?_⟩
    rw [hcarried.context, hfor.retries.retryOf, normalize_canonical hcanonical]
  have hnew : RetryOf cfg after new id :=
    ⟨created, hcreated, by rw [hretries.retryOf, normalize_canonical hid]⟩
  refine ⟨failed, hfailed.grows hgrows hfail, .trans (.single hnew) (.single hkept), fun hsame => ?_⟩
  rw [lineageOf_eq hcreated, lineageOf_eq (hfailed.grows hgrows hfail).1, lineageKey_retry hid hretries,
    h.key_original hfailed, Option.some.injEq] at hsame
  subst hsame
  exact h.retried_original hfirst hfirst

/-- A retry of a child that is a retry itself leaves the lineage. -/
theorem retry_leaves {s t : State} {event : Event} (h : Good cfg s) (hstep : step cfg s event = some t)
    (hretry : ¬ RetriesOriginal cfg s event) : ¬ OneLineage cfg t := by
  intro hone
  match event with
  | .report _ _ _ => exact hretry trivial
  | .refresh _ => exact hretry trivial
  | .fire _ none _ => exact hretry trivial
  | .fire index (some new) now =>
    obtain ⟨timer, htimer, -, -, hfresh, rfl⟩ := fire_cases hstep
    obtain ⟨hnew, hne, hunused⟩ := hfresh new rfl
    simp only [RetriesOriginal, not_forall] at hretry
    obtain ⟨timer', htimer', child, hchild, hnot⟩ := hretry
    obtain rfl : timer = timer' := Option.some.inj (htimer.symm.trans (Option.mem_def.mp htimer'))
    obtain ⟨id, run, hrun, rfl, -⟩ := retryTarget_spec hchild
    obtain ⟨original, hfor⟩ := (h.lineages.child id run hrun).resolve_left hnot
    have hid : Canonical cfg id := h.lineages.canonical id (Table.mem_keys.mpr ⟨run, hrun.1⟩)
    obtain ⟨payload, hpayload, hretries⟩ := buildRetryChildPayload_summary hid run
    have hstarted := (fire_runs _ timer (some new)).trans (@retryJob_started cfg
      { s with timers := s.timers.eraseIdx index, now := now } timer _ payload hchild hpayload new)
    have hcreated := childRun_created s.runs h.lineages.parent hnew hne new.status now payload
    obtain ⟨failed, horiginal, hchain, hleft⟩ := h.lineages.leaves (grows_put hunused _) hrun hfor
      hcreated (hretries new.status now)
    rw [← hstarted] at horiginal hchain hleft
    exact hleft (hone.lineage original failed horiginal new.runId hchain)

theorem limit_one {s : State} (h : Good cfg s) (hlimit : cfg.autoRetryMaxRetries = 1) (event : Event) :
    RetriesOriginal cfg s event := by
  match event with
  | .report _ _ _ => exact trivial
  | .refresh _ => exact trivial
  | .fire _ none _ => exact trivial
  | .fire index (some _) now =>
    intro timer htimer child hchild
    obtain ⟨id, run, hrun, rfl, hid, -⟩ := retryTarget_spec hchild
    have hcanonical : Canonical cfg id :=
      h.lineages.canonical id (Table.mem_keys.mpr ⟨run, hrun.1⟩)
    obtain ⟨-, frun, hfrun, -, -, horiginal⟩ := h.kept.timers timer (List.mem_of_getElem? htimer)
    rw [← hid, hcanonical.2.1] at hfrun horiginal
    obtain rfl : frun = run := Option.some.inj (hfrun.symm.trans hrun.1)
    exact horiginal hlimit

theorem meets_of_oneLineage : ∀ {events : List Event} {s t : State}, Good cfg s →
    Run.run (step cfg) s events = some t →
    (∀ before after u, events = before ++ after → Run.run (step cfg) s before = some u →
      OneLineage cfg u) → Run.Meets (step cfg) (RetriesOriginal cfg) s events
  | [], _, _, _, _, _ => trivial
  | event :: events, s, t, h, hrun, hone => by
    rw [Run.run_cons, Option.bind_eq_some_iff] at hrun
    obtain ⟨u, hu, hrest⟩ := hrun
    have hcondition : RetriesOriginal cfg s event := by
      by_contra hretry
      refine retry_leaves h hu hretry (hone [event] events u rfl ?_)
      rw [Run.run_cons, hu, Option.bind_some, Run.run_nil]
    refine ⟨hcondition, ?_⟩
    rw [hu]
    refine meets_of_oneLineage (step_good h hcondition hu) hrest fun before after v hsplit hbefore => ?_
    refine hone (event :: before) after v (by rw [hsplit]; rfl) ?_
    rw [Run.run_cons, hu, Option.bind_some, hbefore]

/-- The retries of the children keep to the limit and to their lineages just as long as no retry is
    retried, and under a limit of one none is. -/
theorem child_retries_bounded {s t : State} {events : List Event} (hinitial : Initial cfg s)
    (hlimit : 1 ≤ cfg.autoRetryMaxRetries) (hrun : Run.run (step cfg) s events = some t) :
    ((∀ before after u, events = before ++ after → Run.run (step cfg) s before = some u →
        OneLineage cfg u) ↔ Run.Meets (step cfg) (RetriesOriginal cfg) s events) ∧
      (cfg.autoRetryMaxRetries = 1 → Run.Meets (step cfg) (RetriesOriginal cfg) s events) := by
  have hgood := initial_good hinitial
  refine ⟨⟨meets_of_oneLineage hgood hrun, ?_⟩, fun hone => ?_⟩
  · rintro hmeets before after u rfl hbefore
    exact good_oneLineage (Run.run_inv (fun _ _ _ => step_good) (Run.meets_prefix hmeets) hgood hbefore)
      hlimit
  · exact Run.meets_inv (C := fun _ _ => True)
      (fun a event _ h _ hstep => step_good h (limit_one h hone event) hstep)
      (fun _ event h _ => limit_one h hone event) hgood (Run.meets_of_forall events (fun _ _ => trivial) s)

section Retried

def parentId : String := "5d2c9b1e-7a40-4c11-9f6e-0d8f6a3b2c01"

def childId : String := "1f0e6c52-93b7-4d2a-8a55-6b1de0c4f702"

def retryId : String := "8c4b7a90-2e6d-4f3b-b1a8-94d7c5e20f03"

def secondRetryId : String := "e37d1f64-0b58-4a9c-a2c6-3f9b8d71e504"

/-- The delays are those of the kernel's scheduler. -/
def retryConfig (limit : Nat) : Config where
  repr := fun _ => ""
  lowercase := .ascii
  uuid := some
  parseInt := fun _ => none
  truncate := fun _ => none
  agentRole := fun _ => ""
  parentRunId := parentId
  autoRetryMaxRetries := limit
  delaySeconds := fun retryCount => min (30 * 2 ^ min retryCount 5) 960

/-- A child on its way, not retried. -/
def runningChild : Run where
  status := "running"
  createdAt := some 1
  updatedAt := some 1
  context := { metadata := { parentRunId := .string parentId } }

/-- One child, which runs. -/
def oneChild : State where
  runs := Table.empty.put childId runningChild
  parentLive := true
  pendingRetries := Table.empty
  dicts := []
  autoRetryPending := []
  autoRetryAttempts := Table.empty
  timers := []
  now := 1

theorem oneChild_runs {id : String} {run : Run} (h : oneChild.runs.get? id = some run) :
    id = childId ∧ run = runningChild := by
  simp only [oneChild, Table.get?_put] at h
  split at h
  · rename_i hid
    exact ⟨hid, (Option.some.inj h).symm⟩
  · cases h

theorem canonical_of_strip (limit : Nat) {id : String} (h : id ≠ "" ∧ strip id = id) :
    Canonical (retryConfig limit) id :=
  ⟨h.1, h.2, rfl⟩

theorem initial_oneChild (limit : Nat) : Initial (retryConfig limit) oneChild where
  parent := @canonical_of_strip limit parentId (by decide)
  canonical id hid := by
    obtain ⟨run, hrun⟩ := Table.mem_keys.mp hid
    rw [(oneChild_runs hrun).1]
    exact canonical_of_strip limit (by decide)
  past id run hrun := by
    rw [(oneChild_runs hrun).2]
    decide
  originals id run hrun := by
    rw [(oneChild_runs hrun.1).1, (oneChild_runs hrun.1).2]
    rfl
  pendingRetries := rfl
  dicts := rfl
  timers := rfl

/-- The child fails and is retried. -/
def firstRetry : List Event :=
  [.report childId "failed" 2, .refresh 3, .fire 0 (some ⟨retryId, "starting"⟩) 40000000]

/-- The retry fails, and it is retried too. -/
def secondRetry : List Event :=
  [.report retryId "failed" 50000000, .refresh 50000001,
    .fire 0 (some ⟨secondRetryId, "starting"⟩) 200000000]

theorem child_retries_bounded_once : ∃ t,
    Run.run (step (retryConfig 1)) oneChild firstRetry = some t ∧
      Run.Meets (step (retryConfig 1)) (RetriesOriginal (retryConfig 1)) oneChild firstRetry := by
  have hrun : (Run.run (step (retryConfig 1)) oneChild firstRetry).isSome := by decide
  obtain ⟨t, ht⟩ := Option.isSome_iff_exists.mp hrun
  exact ⟨t, ht, (child_retries_bounded (initial_oneChild 1) (by decide) ht).2 rfl⟩

/-- Under a limit of two the second retry is alone in the lineage of the first one. -/
theorem child_retries_bounded_twice :
    (Run.run (step (retryConfig 2)) oneChild (firstRetry ++ secondRetry)).map
        (fun t => (lineageOf (retryConfig 2) t.runs retryId,
          lineageOf (retryConfig 2) t.runs secondRetryId)) =
      some (some childId, some retryId) ∧
    ¬ ∀ before after u, firstRetry ++ secondRetry = before ++ after →
      Run.run (step (retryConfig 2)) oneChild before = some u → OneLineage (retryConfig 2) u := by
  have hruns : (Run.run (step (retryConfig 2)) oneChild (firstRetry ++ secondRetry)).map
      (fun t => (lineageOf (retryConfig 2) t.runs retryId,
        lineageOf (retryConfig 2) t.runs secondRetryId)) = some (some childId, some retryId) ∧
      ¬ Run.Meets (step (retryConfig 2)) (RetriesOriginal (retryConfig 2)) oneChild (firstRetry ++ secondRetry) := by
    decide +kernel
  obtain ⟨hlineages, hmeets⟩ := hruns
  refine ⟨hlineages, fun hone => ?_⟩
  obtain ⟨t, ht, -⟩ := Option.map_eq_some_iff.mp hlineages
  exact hmeets ((child_retries_bounded (initial_oneChild 2) (by decide) ht).1.mp hone)

end Retried

end Empyralis.Server.Delegation
