import Empyralis.Lib.Chain
import Empyralis.Lib.Run
import Mathlib.Algebra.Ring.Int.Defs

/-! The monthly cost cap of a deployed agent: `settle_deployed_agent_monthly_cost_cap`.

    Settles come one after another, with changes of the cap and of the deployment state between them.
    Money is in millionths of a dollar and times are numbers. `level` is what the code makes of
    `total_cost_usd >= cap_usd * 0.8` in floating point; nothing is assumed of it. -/

namespace Empyralis.Server.CostCap

/-- The two thresholds, in percent. -/
inductive Threshold where
  | eighty | hundred
  deriving DecidableEq

/-- `threshold_…_notified_at` and `threshold_…_cap_usd` -/
structure Notice where
  time : Int
  cap : Int
  deriving DecidableEq

/-- The cycle of a month, as it is stored with the agent. -/
structure Cycle where
  usageMonth : String
  cap : Option Int
  burn : Int
  runsCount : Nat
  lastThresholdReached : Option String
  autoPausedAt : Option Int
  accountingState : String
  lastError : Option String
  eighty : Option Notice
  hundred : Option Notice
  deriving DecidableEq

def Cycle.notice (cycle : Cycle) : Threshold → Option Notice
  | .eighty => cycle.eighty
  | .hundred => cycle.hundred

/-- `_threshold_already_notified` -/
def thresholdAlreadyNotified (cycle : Option Cycle) (θ : Threshold) (cap : Int) (usageMonth : String) :
    Bool :=
  cycle.any fun cycle => cycle.usageMonth = usageMonth && (cycle.notice θ).any (·.cap = cap)

/-- `_build_budget_cycle`: the notices of the existing cycle stay. -/
def buildBudgetCycle (existing : Option Cycle) (usageMonth : String) (cap : Option Int) (burn : Int)
    (runsCount : Nat) (lastThresholdReached : Option String) (autoPausedAt : Option Int)
    (accountingState : String) (lastError : Option String) : Cycle where
  usageMonth := usageMonth
  cap := cap
  burn := burn
  runsCount := runsCount
  lastThresholdReached := lastThresholdReached
  autoPausedAt := autoPausedAt
  accountingState := accountingState
  lastError := lastError.map fun text => String.ofList (text.toList.take 400)
  eighty := existing.bind (·.eighty)
  hundred := existing.bind (·.hundred)

/-! ### The ledger and the state -/

/-- An entry of the ledger. -/
structure Entry where
  runId : String
  usageMonth : String
  cost : Int
  deriving DecidableEq

/-- An entry replaces that of the same run. -/
def record (ledger : List Entry) (entry : Entry) : List Entry :=
  if ledger.any (·.runId = entry.runId) then
    ledger.map fun e => if e.runId = entry.runId then entry else e
  else ledger ++ [entry]

def monthEntries (ledger : List Entry) (usageMonth : String) : List Entry :=
  ledger.filter (·.usageMonth = usageMonth)

/-- What a month has cost. -/
def monthTotal (ledger : List Entry) (usageMonth : String) : Int :=
  ((monthEntries ledger usageMonth).map (·.cost)).sum

/-- What a settle has found and sent out. -/
structure Settled where
  usageMonth : String
  cap : Option Int
  total : Int
  fired : List Threshold
  deriving DecidableEq

/-- `cap` is the amount of the configuration. `log` is a record for the statements alone, of the
    settles that have computed a total. -/
structure State where
  ledger : List Entry
  cap : Option Int
  cycle : Option Cycle
  suspended : Bool
  log : List Settled
  deriving DecidableEq

def start (ledger : List Entry) (cap : Option Int) (suspended : Bool) : State where
  ledger := ledger
  cap := cap
  cycle := none
  suspended := suspended
  log := []

/-- `_parse_positive_usd` of the cap -/
def State.capUsd (s : State) : Option Int := s.cap.filter (0 < ·)

/-! ### A settle -/

/-- A usage row; `invalid` is the error that its validation gives. -/
structure Usage where
  month : String
  cost : Option Int
  invalid : Option String
  deriving DecidableEq

/-- How far the writes of the two ledgers get. -/
inductive Store where
  | complete | recorded | failed
  deriving DecidableEq

/-- A run that has ended, with what the settling of it meets. -/
structure FinishedRun where
  id : String
  now : Int
  nowMonth : String
  signal : Bool
  usage : Option Usage
  platformPaid : Bool
  store : Store
  deriving DecidableEq

/-- What a settle comes to, with the ledger after it. -/
inductive Verdict where
  | skip (ledger : List Entry)
  | failClosed (ledger : List Entry) (usageMonth error : String)
  | track (ledger : List Entry) (usageMonth : String)
  deriving DecidableEq

/-- What the settling does with a run. -/
def State.verdict (s : State) (run : FinishedRun) : Verdict :=
  let guarded := s.capUsd.isSome || run.platformPaid
  match run.usage with
  | none =>
    if guarded && run.signal then
      .failClosed s.ledger run.nowMonth
        ("Run " ++ run.id ++ " completed with usage that could not be priced safely.")
    else .skip s.ledger
  | some usage =>
    if run.platformPaid && usage.invalid.isSome then
      .failClosed s.ledger usage.month
        ("Run " ++ run.id ++ " platform-credit AI usage was not exact enough for deployment billing (" ++
          usage.invalid.getD "" ++ ").")
    else if s.capUsd.isSome && usage.cost.isNone && run.signal then
      .failClosed s.ledger usage.month
        ("Run " ++ run.id ++ " usage could not be priced safely for deployment budget enforcement.")
    else
      let ledger :=
        if run.store = .failed then s.ledger
        else record s.ledger ⟨run.id, usage.month, usage.cost.getD 0⟩
      if run.store = .complete then .track ledger usage.month
      else if guarded then
        .failClosed ledger usage.month
          ("Run " ++ run.id ++ " could not be recorded in the monthly deployment budget ledger.")
      else .skip ledger

/-- `_pause_deployment_fail_closed` -/
def State.pauseFailClosed (s : State) (now : Int) (usageMonth error : String) : State :=
  { s with
    cycle := some (buildBudgetCycle s.cycle usageMonth s.capUsd 0
      ((s.cycle.map (·.runsCount)).getD 0) (some "fail_closed") (some now)
      "suspended_accounting_error" (some error))
    suspended := true }

variable (level : Int → Int → Bool)

/-- A total that reaches a threshold. -/
def reaches : Threshold → Int → Int → Bool
  | .eighty, cap, total => level cap total
  | .hundred, cap, total => cap ≤ total

/-- The notification of a threshold goes out. -/
def fires (cycle : Option Cycle) (usageMonth : String) (cap : Option Int) (total : Int)
    (θ : Threshold) : Bool :=
  cap.any fun cap => reaches level θ cap total && !thresholdAlreadyNotified cycle θ cap usageMonth

/-- The higher threshold that is reached. -/
def thresholdReached (cap : Option Int) (total : Int) : Option String :=
  if cap.any (reaches level .hundred · total) then some "100"
  else if cap.any (reaches level .eighty · total) then some "80"
  else none

/-- A new notice, or the one before. -/
def noticeAfter (fired : Bool) (now : Int) (cap : Option Int) (before : Option Notice) :
    Option Notice :=
  if fired then cap.map (⟨now, ·⟩) else before

/-- The cycle of a settle that computes a total; that of another month is not built on. -/
def nextCycle (cycle : Option Cycle) (ledger : List Entry) (usageMonth : String) (cap : Option Int)
    (now : Int) : Cycle :=
  let total := monthTotal ledger usageMonth
  let built := buildBudgetCycle (cycle.filter (·.usageMonth = usageMonth)) usageMonth cap total
    (monthEntries ledger usageMonth).length (thresholdReached level cap total)
    (cycle.bind (·.autoPausedAt)) "tracked" none
  { built with
    eighty := noticeAfter (fires level cycle usageMonth cap total .eighty) now cap built.eighty
    hundred := noticeAfter (fires level cycle usageMonth cap total .hundred) now cap built.hundred
    autoPausedAt := if cap.any (· ≤ total) then some now else built.autoPausedAt }

/-- The cycle after a total, and the suspension. -/
def State.track (s : State) (now : Int) (usageMonth : String) : State :=
  { s with
    cycle := some (nextCycle level s.cycle s.ledger usageMonth s.capUsd now)
    suspended := s.suspended || s.capUsd.any (· ≤ monthTotal s.ledger usageMonth)
    log := s.log ++ [⟨usageMonth, s.capUsd, monthTotal s.ledger usageMonth,
      [.eighty, .hundred].filter
        (fires level s.cycle usageMonth s.capUsd (monthTotal s.ledger usageMonth))⟩] }

/-- `settle_deployed_agent_monthly_cost_cap` -/
def State.settle (s : State) (run : FinishedRun) : State :=
  match s.verdict run with
  | .skip ledger => { s with ledger := ledger }
  | .failClosed ledger usageMonth error =>
    { s with ledger := ledger }.pauseFailClosed run.now usageMonth error
  | .track ledger usageMonth => { s with ledger := ledger }.track level run.now usageMonth

/-- A run that is settled, or a change of the agent by its owner. -/
inductive Label where
  | settle (run : FinishedRun)
  | setCap (cap : Option Int)
  | setSuspended (suspended : Bool)
  deriving DecidableEq

def step (s : State) : Label → Option State
  | .settle run => some (s.settle level run)
  | .setCap cap => some { s with cap := cap }
  | .setSuspended suspended => some { s with suspended := suspended }

/-- A settle that fails closed does so in the month of the stored cycle, or that has no notices. -/
def Regular (s : State) : Label → Prop
  | .settle run =>
    match s.verdict run with
    | .failClosed _ usageMonth _ =>
      ∀ cycle ∈ s.cycle, cycle.usageMonth = usageMonth ∨ (cycle.eighty = none ∧ cycle.hundred = none)
    | _ => True
  | _ => True

instance (s : State) : (l : Label) → Decidable (Regular s l)
  | .settle run => by
    unfold Regular
    dsimp only
    split <;> infer_instance
  | .setCap _ | .setSuspended _ => .isTrue trivial

/-! ### What the settles send out -/

/-- A threshold that a total reaches has been notified for its month and cap. -/
def Timely (log : List Settled) : Prop :=
  ∀ (θ : Threshold) (j : Nat) (e : Settled) (cap : Int), log[j]? = some e → e.cap = some cap →
    reaches level θ cap e.total → ∃ i ≤ j, ∃ e', log[i]? = some e' ∧ e'.usageMonth = e.usageMonth ∧
      e'.cap = some cap ∧ θ ∈ e'.fired

/-- A threshold is notified when it is reached. -/
def Earned (log : List Settled) : Prop :=
  ∀ e ∈ log, ∀ θ ∈ e.fired, ∃ cap ∈ e.cap, reaches level θ cap e.total

/-- A threshold is notified again for its month and cap only when another month has been settled or
    another cap notified in between. -/
def Sparing (log : List Settled) : Prop :=
  ∀ (θ : Threshold) (i j : Nat) (e e' : Settled), i < j → log[i]? = some e → log[j]? = some e' →
    θ ∈ e.fired → θ ∈ e'.fired → e'.usageMonth = e.usageMonth → e'.cap = e.cap →
    ∃ k e'', i < k ∧ k < j ∧ log[k]? = some e'' ∧
      (e''.usageMonth ≠ e.usageMonth ∨ (θ ∈ e''.fired ∧ e''.cap ≠ e.cap))

/-- The notice of the cycle is that of an entry of the log; and that of an entry stands in the cycle
    until another month is settled or another cap notified. -/
structure Sound (s : State) : Prop where
  recorded : ∀ cycle ∈ s.cycle, ∀ θ, ∀ n ∈ cycle.notice θ, ∃ (i : Nat) (e : Settled),
    s.log[i]? = some e ∧ e.usageMonth = cycle.usageMonth ∧ e.cap = some n.cap ∧ θ ∈ e.fired
  standing : ∀ (θ : Threshold) (i : Nat) (e : Settled), s.log[i]? = some e → θ ∈ e.fired →
    (∀ (k : Nat) (e' : Settled), i < k → s.log[k]? = some e' →
      e'.usageMonth = e.usageMonth ∧ (θ ∈ e'.fired → e'.cap = e.cap)) →
    ∃ cycle ∈ s.cycle, cycle.usageMonth = e.usageMonth ∧ ∃ n ∈ cycle.notice θ, e.cap = some n.cap
  timely : Timely level s.log
  earned : Earned level s.log
  sparing : Sparing s.log

variable {level} {s t : State} {l : Label} {run : FinishedRun}

theorem sound_start (ledger : List Entry) (cap : Option Int) (suspended : Bool) :
    Sound level (start ledger cap suspended) where
  recorded _ hcycle := absurd hcycle (Option.not_mem_none _)
  standing _ _ _ he := absurd he (by simp [start])
  timely _ _ _ _ he := absurd he (by simp [start])
  earned _ he := absurd he List.not_mem_nil
  sparing _ _ _ _ _ _ he := absurd he (by simp [start])

theorem sound_congr (h : Sound level s) (hcycle : t.cycle = s.cycle) (hlog : t.log = s.log) :
    Sound level t where
  recorded := by rw [hcycle, hlog]; exact h.recorded
  standing := by rw [hcycle, hlog]; exact h.standing
  timely := hlog ▸ h.timely
  earned := hlog ▸ h.earned
  sparing := hlog ▸ h.sparing

theorem buildBudgetCycle_notice (existing : Option Cycle) (usageMonth : String) (cap : Option Int)
    (burn : Int) (runsCount : Nat) (last : Option String) (paused : Option Int) (state : String)
    (error : Option String) (θ : Threshold) :
    (buildBudgetCycle existing usageMonth cap burn runsCount last paused state error).notice θ =
      existing.bind (·.notice θ) := by
  cases θ <;> rfl

theorem nextCycle_notice (cycle : Option Cycle) (ledger : List Entry) (usageMonth : String)
    (cap : Option Int) (now : Int) (θ : Threshold) :
    (nextCycle level cycle ledger usageMonth cap now).notice θ =
      noticeAfter (fires level cycle usageMonth cap (monthTotal ledger usageMonth) θ) now cap
        ((cycle.filter (·.usageMonth = usageMonth)).bind (·.notice θ)) := by
  cases θ <;> rfl

theorem mem_fired {p : Threshold → Bool} {θ : Threshold} :
    θ ∈ [Threshold.eighty, .hundred].filter p ↔ p θ := by
  cases θ <;> simp

theorem fires_iff {cycle : Option Cycle} {usageMonth : String} {cap : Option Int} {total : Int}
    {θ : Threshold} : fires level cycle usageMonth cap total θ ↔
      ∃ c ∈ cap, reaches level θ c total ∧ ¬ thresholdAlreadyNotified cycle θ c usageMonth := by
  cases cap <;> simp [fires]

theorem thresholdAlreadyNotified_iff {cycle : Option Cycle} {θ : Threshold} {cap : Int}
    {usageMonth : String} : thresholdAlreadyNotified cycle θ cap usageMonth ↔
      ∃ old ∈ cycle, old.usageMonth = usageMonth ∧ ∃ n ∈ old.notice θ, n.cap = cap := by
  cases cycle <;> simp [thresholdAlreadyNotified, Option.any_eq_true]

/-- What a settle that computes a total does to the log and to the cycle. -/
structure Tracks (level : Int → Int → Bool) (s t : State) (now : Int) (e : Settled) : Prop where
  log : t.log = s.log ++ [e]
  fired : ∀ θ, θ ∈ e.fired ↔ fires level s.cycle e.usageMonth e.cap e.total θ
  cycle : ∃ cycle, t.cycle = some cycle ∧ cycle.usageMonth = e.usageMonth ∧
    ∀ θ, cycle.notice θ = noticeAfter (fires level s.cycle e.usageMonth e.cap e.total θ) now e.cap
      ((s.cycle.filter (·.usageMonth = e.usageMonth)).bind (·.notice θ))

def State.entry (level : Int → Int → Bool) (s : State) (usageMonth : String) : Settled where
  usageMonth := usageMonth
  cap := s.capUsd
  total := monthTotal s.ledger usageMonth
  fired := [.eighty, .hundred].filter
    (fires level s.cycle usageMonth s.capUsd (monthTotal s.ledger usageMonth))

theorem tracks_track (s : State) (now : Int) (usageMonth : String) :
    Tracks level s (s.track level now usageMonth) now (s.entry level usageMonth) where
  log := rfl
  fired _ := mem_fired
  cycle := ⟨_, rfl, rfl, nextCycle_notice s.cycle s.ledger usageMonth s.capUsd now⟩

variable {now : Int} {e : Settled}

theorem Tracks.last (h : Tracks level s t now e) : t.log[s.log.length]? = some e := by
  rw [h.log, List.getElem?_concat_length]

theorem Tracks.earlier (h : Tracks level s t now e) {i : Nat} {e' : Settled}
    (he : s.log[i]? = some e') : t.log[i]? = some e' :=
  h.log ▸ Chain.getElem?_snoc_of e he

theorem Tracks.cases (h : Tracks level s t now e) {i : Nat} {e' : Settled}
    (he : t.log[i]? = some e') : (i < s.log.length ∧ s.log[i]? = some e') ∨
      (i = s.log.length ∧ e' = e) := by
  rw [h.log] at he
  rcases Chain.getElem?_snoc_cases he with he | ⟨hi, heq⟩
  · exact Or.inl ⟨(List.getElem?_eq_some_iff.mp he).1, he⟩
  · exact Or.inr ⟨hi.symm, heq.symm⟩

/-- After the notification the cycle has its notice. -/
theorem Tracks.notice_of_fired (h : Tracks level s t now e) {θ : Threshold} (hfire : θ ∈ e.fired) :
    ∃ cycle ∈ t.cycle, cycle.usageMonth = e.usageMonth ∧
      ∃ n ∈ cycle.notice θ, e.cap = some n.cap := by
  obtain ⟨cycle, hcycle, hmonth, hnotice⟩ := h.cycle
  have hfires := (h.fired θ).mp hfire
  obtain ⟨c, hc, -⟩ := fires_iff.mp hfires
  refine ⟨cycle, hcycle, hmonth, ⟨now, c⟩, ?_, hc⟩
  rw [hnotice, noticeAfter, if_pos hfires, Option.mem_def.mp hc]
  rfl

theorem Tracks.notice_kept (h : Tracks level s t now e) {θ : Threshold} (hfire : θ ∉ e.fired)
    {old : Cycle} (hold : old ∈ s.cycle) (hmonth : old.usageMonth = e.usageMonth) :
    ∃ cycle ∈ t.cycle, cycle.usageMonth = e.usageMonth ∧ cycle.notice θ = old.notice θ := by
  obtain ⟨cycle, hcycle, hsame, hnotice⟩ := h.cycle
  refine ⟨cycle, hcycle, hsame, ?_⟩
  have hkept : s.cycle.filter (·.usageMonth = e.usageMonth) = some old :=
    Option.filter_eq_some_iff.mpr ⟨hold, by simpa using hmonth⟩
  have hfires : ¬ fires level s.cycle e.usageMonth e.cap e.total θ := fun hfires =>
    hfire ((h.fired θ).mpr hfires)
  rw [hnotice, noticeAfter, if_neg hfires, hkept]
  rfl

theorem recorded_track (h : Sound level s) (ht : Tracks level s t now e) :
    ∀ cycle ∈ t.cycle, ∀ θ, ∀ n ∈ cycle.notice θ, ∃ (i : Nat) (e : Settled),
      t.log[i]? = some e ∧ e.usageMonth = cycle.usageMonth ∧ e.cap = some n.cap ∧ θ ∈ e.fired := by
  obtain ⟨cycle, hcycle, hmonth, hnotice⟩ := ht.cycle
  intro cycle' hc θ n hn
  obtain rfl : cycle = cycle' := Option.some.inj (hcycle.symm.trans hc)
  rw [hnotice, noticeAfter] at hn
  split at hn
  · rename_i hfires
    obtain ⟨c, hc, rfl⟩ := Option.map_eq_some_iff.mp hn
    exact ⟨s.log.length, e, ht.last, hmonth.symm, hc, (ht.fired θ).mpr hfires⟩
  · obtain ⟨old, hold, hn⟩ := Option.bind_eq_some_iff.mp hn
    obtain ⟨hold, hsame⟩ := Option.filter_eq_some_iff.mp hold
    obtain ⟨i, e', he', hmonth', hcap', hfired'⟩ := h.recorded old hold θ n hn
    have hsame' : old.usageMonth = e.usageMonth := by simpa using hsame
    exact ⟨i, e', ht.earlier he', hmonth'.trans (hsame'.trans hmonth.symm), hcap', hfired'⟩

theorem standing_track (h : Sound level s) (ht : Tracks level s t now e) :
    ∀ (θ : Threshold) (i : Nat) (e₀ : Settled), t.log[i]? = some e₀ → θ ∈ e₀.fired →
      (∀ (k : Nat) (e' : Settled), i < k → t.log[k]? = some e' →
        e'.usageMonth = e₀.usageMonth ∧ (θ ∈ e'.fired → e'.cap = e₀.cap)) →
      ∃ cycle ∈ t.cycle, cycle.usageMonth = e₀.usageMonth ∧
        ∃ n ∈ cycle.notice θ, e₀.cap = some n.cap := by
  intro θ i e₀ he₀ hfire hafter
  rcases ht.cases he₀ with ⟨hlt, he₀⟩ | ⟨-, rfl⟩
  · obtain ⟨hmonth, hcap⟩ := hafter s.log.length e hlt ht.last
    by_cases hagain : θ ∈ e.fired
    · obtain ⟨cycle, hcycle, hsame, hnotice⟩ := ht.notice_of_fired hagain
      exact ⟨cycle, hcycle, hsame.trans hmonth, hcap hagain ▸ hnotice⟩
    · obtain ⟨old, hold, holdmonth, n, hn, hcap₀⟩ := h.standing θ i e₀ he₀ hfire fun k e' hk he' =>
        hafter k e' hk (ht.earlier he')
      obtain ⟨cycle, hcycle, hsame, hnotice⟩ :=
        ht.notice_kept hagain hold (holdmonth.trans hmonth.symm)
      exact ⟨cycle, hcycle, hsame.trans hmonth, n, hnotice ▸ hn, hcap₀⟩
  · exact ht.notice_of_fired hfire

theorem timely_track (h : Sound level s) (ht : Tracks level s t now e) : Timely level t.log := by
  intro θ j e₀ c he₀ hc hreaches
  rcases ht.cases he₀ with ⟨-, he₀'⟩ | ⟨rfl, rfl⟩
  · obtain ⟨i, hij, e', he', hrest⟩ := h.timely θ j e₀ c he₀' hc hreaches
    exact ⟨i, hij, e', ht.earlier he', hrest⟩
  · by_cases hfire : θ ∈ e₀.fired
    · exact ⟨s.log.length, Nat.le_refl _, e₀, he₀, rfl, hc, hfire⟩
    · -- the cycle has a notice of this month and cap, which an earlier entry has left
      have hnotified : thresholdAlreadyNotified s.cycle θ c e₀.usageMonth := by
        by_contra hnot
        exact hfire ((ht.fired θ).mpr (fires_iff.mpr ⟨c, hc, hreaches, hnot⟩))
      obtain ⟨old, hold, holdmonth, n, hn, rfl⟩ := thresholdAlreadyNotified_iff.mp hnotified
      obtain ⟨i, e', he', hmonth', hcap', hfired'⟩ := h.recorded old hold θ n hn
      exact ⟨i, Nat.le_of_lt (List.getElem?_eq_some_iff.mp he').1, e', ht.earlier he',
        hmonth'.trans holdmonth, hcap', hfired'⟩

theorem earned_track (h : Sound level s) (ht : Tracks level s t now e) : Earned level t.log := by
  intro e₀ he₀ θ hfire
  rw [ht.log] at he₀
  rcases List.mem_append.mp he₀ with he₀ | he₀
  · exact h.earned e₀ he₀ θ hfire
  · rw [List.mem_singleton.mp he₀] at hfire ⊢
    obtain ⟨c, hc, hreaches, -⟩ := fires_iff.mp ((ht.fired θ).mp hfire)
    exact ⟨c, hc, hreaches⟩

theorem sparing_track (h : Sound level s) (ht : Tracks level s t now e) : Sparing t.log := by
  intro θ i j e₀ e' hij he₀ he' hfire hfire' hsame hsamecap
  rcases ht.cases he' with ⟨hj, he'⟩ | ⟨rfl, rfl⟩
  · rcases ht.cases he₀ with ⟨-, he₀⟩ | ⟨hi, -⟩
    · obtain ⟨k, e'', hik, hkj, he'', hchange⟩ :=
        h.sparing θ i j e₀ e' hij he₀ he' hfire hfire' hsame hsamecap
      exact ⟨k, e'', hik, hkj, ht.earlier he'', hchange⟩
    · omega
  · rcases ht.cases he₀ with ⟨-, he₀⟩ | ⟨hi, -⟩
    · by_contra hnone
      -- then the notice still stands, and the threshold does not fire
      have hafter (k : Nat) (e'' : Settled) (hik : i < k) (he'' : s.log[k]? = some e'') :
          e''.usageMonth = e₀.usageMonth ∧ (θ ∈ e''.fired → e''.cap = e₀.cap) := by
        by_contra hchange
        rw [not_and_or, Classical.not_imp] at hchange
        exact hnone ⟨k, e'', hik, (List.getElem?_eq_some_iff.mp he'').1, ht.earlier he'', hchange⟩
      obtain ⟨old, hold, holdmonth, n, hn, hcap₀⟩ := h.standing θ i e₀ he₀ hfire hafter
      obtain ⟨c, hc, -, hnot⟩ := fires_iff.mp ((ht.fired θ).mp hfire')
      have hcap : n.cap = c := Option.some.inj (hcap₀.symm.trans (hsamecap.symm.trans hc))
      exact hnot (thresholdAlreadyNotified_iff.mpr
        ⟨old, hold, holdmonth.trans hsame.symm, n, hn, hcap⟩)
    · omega

theorem sound_track (h : Sound level s) (ht : Tracks level s t now e) : Sound level t :=
  ⟨recorded_track h ht, standing_track h ht, timely_track h ht, earned_track h ht,
    sparing_track h ht⟩

/-- A settle that fails closed keeps the notices; it must not take them into another month. -/
theorem sound_pauseFailClosed (h : Sound level s) {usageMonth : String} (error : String)
    (hregular : ∀ cycle ∈ s.cycle,
      cycle.usageMonth = usageMonth ∨ (cycle.eighty = none ∧ cycle.hundred = none)) :
    Sound level (s.pauseFailClosed now usageMonth error) := by
  have hmonth : ∀ cycle ∈ s.cycle, ∀ θ, ∀ n ∈ cycle.notice θ, cycle.usageMonth = usageMonth := by
    intro cycle hcycle θ n hn
    rcases hregular cycle hcycle with hsame | ⟨heighty, hhundred⟩
    · exact hsame
    · cases θ <;> simp [Cycle.notice, heighty, hhundred] at hn
  refine ⟨?_, ?_, h.timely, h.earned, h.sparing⟩
  · intro cycle hcycle θ n hn
    obtain rfl := Option.mem_some_iff.mp hcycle
    rw [buildBudgetCycle_notice] at hn
    obtain ⟨old, hold, hn⟩ := Option.bind_eq_some_iff.mp hn
    obtain ⟨i, e, he, hsame, hrest⟩ := h.recorded old hold θ n hn
    exact ⟨i, e, he, hsame.trans (hmonth old hold θ n hn), hrest⟩
  · intro θ i e he hfire hafter
    obtain ⟨old, hold, holdmonth, n, hn, hcap⟩ := h.standing θ i e he hfire hafter
    refine ⟨_, rfl, (hmonth old hold θ n hn).symm.trans holdmonth, n, ?_, hcap⟩
    rw [buildBudgetCycle_notice, Option.mem_def.mp hold]
    exact hn

theorem sound_settle (h : Sound level s) (hregular : Regular s (.settle run)) :
    Sound level (s.settle level run) := by
  unfold Regular at hregular
  unfold State.settle
  cases hverdict : s.verdict run with
  | skip ledger => exact sound_congr h rfl rfl
  | failClosed ledger usageMonth error =>
    simp only [hverdict] at hregular
    have hs : Sound level { s with ledger := ledger } := sound_congr h rfl rfl
    exact sound_pauseFailClosed hs error hregular
  | track ledger usageMonth =>
    have hs : Sound level { s with ledger := ledger } := sound_congr h rfl rfl
    exact sound_track hs (tracks_track _ run.now usageMonth)

theorem sound_step (h : Sound level s) (hregular : Regular s l) (hst : step level s l = some t) :
    Sound level t := by
  cases l with
  | settle run => exact Option.some.inj hst ▸ sound_settle h hregular
  | setCap cap => exact Option.some.inj hst ▸ sound_congr h rfl rfl
  | setSuspended suspended => exact Option.some.inj hst ▸ sound_congr h rfl rfl

/-! ### The cap over a run -/

/-- A settle that adds an entry has computed a total. -/
theorem settle_track (h : (s.settle level run).log = s.log ++ [e]) :
    ∃ ledger usageMonth, s.verdict run = .track ledger usageMonth ∧
      e = State.entry level ⟨ledger, s.cap, s.cycle, s.suspended, s.log⟩ usageMonth := by
  unfold State.settle at h
  cases hverdict : s.verdict run with
  | skip ledger => simp [hverdict] at h
  | failClosed ledger usageMonth error => simp [hverdict, State.pauseFailClosed] at h
  | track ledger usageMonth =>
    simp only [hverdict, State.track] at h
    exact ⟨ledger, usageMonth, rfl, (List.singleton_inj.mp (List.append_cancel_left h)).symm⟩

/-- The agent is suspended when its total has reached the cap. -/
theorem settle_suspends (h : (s.settle level run).log = s.log ++ [e]) :
    e.cap = s.capUsd ∧ e.total = monthTotal (s.settle level run).ledger e.usageMonth ∧
      ((∃ cap ∈ e.cap, cap ≤ e.total) → (s.settle level run).suspended) := by
  obtain ⟨ledger, usageMonth, hverdict, rfl⟩ := settle_track h
  simp only [State.settle, hverdict]
  refine ⟨rfl, rfl, ?_⟩
  rintro ⟨cap, hcap, hle⟩
  have hreached : State.capUsd ⟨ledger, s.cap, s.cycle, s.suspended, s.log⟩ = some cap := hcap
  simp only [State.track, hreached, Option.any_some, Bool.or_eq_true, decide_eq_true_eq]
  exact Or.inr hle

/-- The cycle that the first settle of a month builds: its notices are its own, and its auto-pause
    marker is its own or that of the cycle before. -/
theorem settle_new_month (h : (s.settle level run).log = s.log ++ [e])
    (hnew : ∀ cycle ∈ s.cycle, cycle.usageMonth ≠ e.usageMonth) :
    ∃ cycle, (s.settle level run).cycle = some cycle ∧ cycle.usageMonth = e.usageMonth ∧
      (∀ θ, ∀ n ∈ cycle.notice θ, θ ∈ e.fired ∧ n.time = run.now) ∧
      cycle.autoPausedAt =
        if e.cap.any (· ≤ e.total) then some run.now else s.cycle.bind (·.autoPausedAt) := by
  obtain ⟨ledger, usageMonth, hverdict, rfl⟩ := settle_track h
  simp only [State.settle, hverdict]
  refine ⟨_, rfl, rfl, ?_, rfl⟩
  intro θ n hn
  have hnone : s.cycle.filter (·.usageMonth = usageMonth) = none :=
    Option.filter_eq_none_iff.mpr fun cycle hcycle => by
      have hother : cycle.usageMonth ≠ usageMonth := hnew cycle hcycle
      simpa using hother
  rw [nextCycle_notice, hnone, noticeAfter] at hn
  split at hn
  · rename_i hfires
    obtain ⟨c, -, rfl⟩ := Option.map_eq_some_iff.mp hn
    exact ⟨mem_fired.mpr hfires, rfl⟩
  · exact absurd hn (Option.not_mem_none n)

/-- In every regular run a settle whose total reaches a positive cap leaves the agent suspended, and the
    first of a month builds a cycle without the notices of another month. A threshold is notified by
    the first settle whose total reaches it, and again for its month and cap only when another month
    has been settled or another cap notified in between. -/
theorem cost_cap_settled {ledger : List Entry} {cap : Option Int} {suspended : Bool}
    {labels : List Label}
    (hregular : Run.Meets (step level) Regular (start ledger cap suspended) labels)
    (hrun : Run.run (step level) (start ledger cap suspended) labels = some s) :
    (∀ run e, (s.settle level run).log = s.log ++ [e] →
      (e.cap = s.capUsd ∧ e.total = monthTotal (s.settle level run).ledger e.usageMonth ∧
        ((∃ cap ∈ e.cap, cap ≤ e.total) → (s.settle level run).suspended)) ∧
      ((∀ cycle ∈ s.cycle, cycle.usageMonth ≠ e.usageMonth) →
        ∃ cycle, (s.settle level run).cycle = some cycle ∧ cycle.usageMonth = e.usageMonth ∧
          (∀ θ, ∀ n ∈ cycle.notice θ, θ ∈ e.fired ∧ n.time = run.now) ∧
          cycle.autoPausedAt =
            if e.cap.any (· ≤ e.total) then some run.now else s.cycle.bind (·.autoPausedAt))) ∧
      Timely level s.log ∧ Earned level s.log ∧ Sparing s.log := by
  have hs : Sound level s := Run.run_inv (fun _ _ _ hs hl hst => sound_step hs hl hst) hregular
    (sound_start ledger cap suspended) hrun
  exact ⟨fun _ _ hlog => ⟨settle_suspends hlog, settle_new_month hlog⟩, hs.timely, hs.earned,
    hs.sparing⟩

/-- A run of a month that costs so much. -/
def costing (id usageMonth : String) (now cost : Int) : Label :=
  .settle ⟨id, now, usageMonth, true, some ⟨usageMonth, some cost, none⟩, false, .complete⟩

/-- `total >= cap * 0.8`, exactly. -/
def exactLevel (cap total : Int) : Bool := 4 * cap ≤ 5 * total

/-- Two runs of March reach the levels one by one; the owner resumes the agent in April. -/
def twoMonths : List Label :=
  [costing "a" "2026-03-01" 1 9000000, costing "b" "2026-03-01" 2 1000000, .setSuspended false,
    costing "c" "2026-04-01" 3 8000000]

/-- Each level is reported once in a month, and again in the next one. -/
theorem cost_cap_settled_twoMonths :
    ∃ s, Run.run (step exactLevel) (start [] (some 10000000) false) twoMonths = some s ∧
      s.log.map (·.fired) = [[.eighty], [.hundred], [.eighty]] ∧
      Timely exactLevel s.log ∧ Earned exactLevel s.log ∧ Sparing s.log := by
  have hregular : Run.Meets (step exactLevel) Regular (start [] (some 10000000) false) twoMonths := by
    decide
  have hend : (Run.run (step exactLevel) (start [] (some 10000000) false) twoMonths).map
      (·.log.map (·.fired)) = some [[.eighty], [.hundred], [.eighty]] := by
    decide
  obtain ⟨s, hrun, hs⟩ := Option.map_eq_some_iff.mp hend
  exact ⟨s, hrun, hs, (cost_cap_settled hregular hrun).2⟩

/-- The cap goes down and up again. -/
def recapped : List Label :=
  [costing "a" "2026-03-01" 1 16000000, .setCap (some 18000000), costing "b" "2026-03-01" 2 0,
    .setCap (some 20000000), costing "c" "2026-03-01" 3 0]

/-- A month that pauses the agent, and a small run in the next. -/
def carried : List Label :=
  [costing "a" "2026-03-01" 1 10000000, .setSuspended false, costing "b" "2026-04-01" 2 1000000]

/-- The first run of April has no price. -/
def unpriced : List Label :=
  [costing "a" "2026-03-01" 1 9000000, .settle ⟨"b", 2, "2026-04-01", true, none, false, .complete⟩,
    costing "c" "2026-04-01" 3 9000000]

theorem markers_outlive_cap_and_month :
    (Run.run (step exactLevel) (start [] (some 20000000) false) recapped).map
        (fun s => s.log.map fun e => (e.usageMonth, e.cap, e.fired)) =
      some [("2026-03-01", some 20000000, [.eighty]), ("2026-03-01", some 18000000, [.eighty]),
        ("2026-03-01", some 20000000, [.eighty])] ∧
    (Run.run (step exactLevel) (start [] (some 10000000) false) carried).map
        (fun s => s.cycle.map fun cycle => (cycle.usageMonth, cycle.burn, cycle.autoPausedAt)) =
      some (some ("2026-04-01", 1000000, some 1)) ∧
    (Run.run (step exactLevel) (start [] (some 10000000) false) unpriced).map
        (fun s => s.log.map fun e => (e.usageMonth, e.total, e.fired)) =
      some [("2026-03-01", 9000000, [.eighty]), ("2026-04-01", 9000000, [])] := by
  decide

end Empyralis.Server.CostCap
