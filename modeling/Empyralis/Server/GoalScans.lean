import Empyralis.Lib.Sweep
import Empyralis.Server.GoalBounds
import Mathlib.Data.List.Dedup
import Mathlib.Data.List.Perm.Subperm

/-! `process_due_goals_once`: which of the goals that are due one scan hands to `_fire_goal`, and what further
    scans do, whatever the firings come to. -/

namespace Empyralis.Server.Wakes

variable (env : Env)

/-! ### The table -/

/-- The tenant and the workspace. -/
abbrev Scope := Token × Token

/-- A row in `agent_goals`, with the columns that the scan goes by. -/
structure GoalRow where
  goal : Goal
  scope : Scope
  nextFireAt : Int
  createdAt : Int

/-- The goal is not over. -/
def GoalRow.live (row : GoalRow) : Bool := !row.goal.status.terminal

/-- A live goal whose next firing has come. -/
def GoalRow.due (now : Int) (row : GoalRow) : Bool := row.live && row.nextFireAt ≤ now

def GoalRow.id (row : GoalRow) : Token := row.goal.id

/-- The table: its primary key is the id. -/
structure GoalTable where
  rows : List GoalRow
  ids_nodup : (rows.map GoalRow.id).Nodup

/-- In which order the database comes across what a query leaves without one. -/
structure Plan where
  rows : List GoalRow → List GoalRow
  rows_perm : ∀ l, (rows l).Perm l
  scopes : List Scope → List Scope
  scopes_perm : ∀ l, (scopes l).Perm l

/-- `max(1, int(limit or default))` -/
def pageSize (limit default : Int) : Nat := (max 1 (if limit = 0 then default else limit)).toNat

variable (plan : Plan)

/-- The non-terminal goals of a scope, the newest first. -/
def liveGoals (rows : List GoalRow) (scope : Scope) : List GoalRow :=
  (plan.rows (rows.filter fun row => row.scope = scope && row.live)).mergeSort fun a b => b.createdAt ≤ a.createdAt

/-- `list_agent_goals` with the non-terminal statuses -/
def listAgentGoals (rows : List GoalRow) (scope : Scope) (limit : Int) : List GoalRow :=
  (liveGoals plan rows scope).take (pageSize limit 100)

/-- The scopes that have a goal that is due. -/
def dueScopes (rows : List GoalRow) (dueBefore : Int) : List Scope :=
  plan.scopes ((rows.filter (·.due dueBefore)).map (·.scope)).dedup

/-- `list_due_agent_goal_scopes` -/
def listDueAgentGoalScopes (rows : List GoalRow) (dueBefore limit : Int) : List Scope :=
  (dueScopes plan rows dueBefore).take (pageSize limit 200)

/-! ### A scan -/

/-- What one firing meets: the wake requests and the clock, the time of the next attempt, and whether something
    raises before or after the row has been updated. -/
structure Firing where
  scan : Scan
  retryAt : Int
  raisesBefore : Bool
  raisesAfter : Bool

/-- The row as `_fire_goal` leaves it. -/
def firedRow (firing : Firing) (row : GoalRow) : GoalRow :=
  if firing.raisesBefore then row
  else
    let (goal, fired) := fireGoal env firing.scan.cap firing.scan.rows firing.scan.placing row.goal
    match fired with
    | .ended => { row with goal }
    | .skipped => { row with goal, nextFireAt := firing.scan.placing.checkedAt + 3600 * second }
    | .fired _ => { row with goal, nextFireAt := firing.retryAt }

/-- What a firing comes to. -/
inductive FireAction where
  | error
  | ended
  | skipped
  | fired (wake : WakeRequest)

/-- What the scan records of a firing. -/
def fireAction (firing : Firing) (row : GoalRow) : FireAction :=
  if firing.raisesBefore || firing.raisesAfter then .error
  else
    match (fireGoal env firing.scan.cap firing.scan.rows firing.scan.placing row.goal).2 with
    | .ended => .ended
    | .skipped => .skipped
    | .fired wake => .fired wake

/-- The firing of a goal that was listed, with what it writes to the table. -/
def handOver (firings : GoalRow → Firing) (rows : List GoalRow) (listed : GoalRow) : List GoalRow :=
  rows.map fun row =>
    if row.id = listed.id ∧ row.scope = listed.scope then firedRow env (firings listed) listed else row

/-- What a scan does for one scope before the firings. -/
def dueGoals (now : Int) (rows : List GoalRow) (scope : Scope) : List GoalRow :=
  (listAgentGoals plan rows scope 100).filter (·.nextFireAt ≤ now)

/-- The goals that were handed out, what came of them, and the rows. -/
structure ScanResult where
  handed : List GoalRow
  results : List (Scope × FireAction)
  rows : List GoalRow

/-- `process_due_goals_once` -/
def processDueGoalsOnce (limit now : Int) (firings : GoalRow → Firing) (rows : List GoalRow) : ScanResult :=
  let swept := Sweep.sweep (dueGoals plan now) (handOver env firings) rows (listDueAgentGoalScopes plan rows now limit)
  { handed := swept.1
    results := swept.1.map fun row => (row.scope, fireAction env (firings row) row)
    rows := swept.2 }

/-! ### What is handed over -/

theorem fireGoal_id (cap : Nat) (rows : List WakeRequest) (placing : Placing) (goal : Goal) :
    (fireGoal env cap rows placing goal).1.id = goal.id := by
  rw [fireGoal]
  dsimp only
  split_ifs <;> rfl

@[simp] theorem firedRow_id (firing : Firing) (row : GoalRow) : (firedRow env firing row).id = row.id := by
  rw [firedRow]
  split_ifs
  · rfl
  · have hid := fireGoal_id env firing.scan.cap firing.scan.rows firing.scan.placing row.goal
    dsimp only
    split <;> exact hid

@[simp] theorem firedRow_scope (firing : Firing) (row : GoalRow) : (firedRow env firing row).scope = row.scope := by
  rw [firedRow]
  split_ifs
  · rfl
  · dsimp only
    split <;> rfl

theorem handOver_ids (firings : GoalRow → Firing) (rows : List GoalRow) (listed : GoalRow) :
    (handOver env firings rows listed).map GoalRow.id = rows.map GoalRow.id := by
  rw [handOver, List.map_map]
  refine List.map_congr_left fun row _ => ?_
  rw [Function.comp_apply]
  split_ifs with h
  · rw [firedRow_id, h.1]
  · rfl

/-- A firing leaves what the other scopes have. -/
theorem filter_handOver (firings : GoalRow → Firing) (listed : GoalRow) {scope : Scope} (h : listed.scope ≠ scope)
    (rows : List GoalRow) :
    (handOver env firings rows listed).filter (fun row => row.scope = scope && row.live) =
      rows.filter fun row => row.scope = scope && row.live := by
  induction rows with
  | nil => rfl
  | cons row rows ih =>
    rw [handOver, List.map_cons, List.filter_cons, List.filter_cons]
    rw [handOver] at ih
    rw [ih]
    by_cases heq : row.id = listed.id ∧ row.scope = listed.scope
    · rw [if_pos heq]
      simp [heq.2, h]
    · rw [if_neg heq]

variable {env plan}

theorem mem_liveGoals {rows : List GoalRow} {scope : Scope} {row : GoalRow} :
    row ∈ liveGoals plan rows scope ↔ row ∈ rows ∧ row.scope = scope ∧ row.live = true := by
  rw [liveGoals, List.mem_mergeSort, (plan.rows_perm _).mem_iff, List.mem_filter, Bool.and_eq_true,
    decide_eq_true_eq]

theorem mem_dueGoals {now : Int} {rows : List GoalRow} {scope : Scope} {row : GoalRow} :
    row ∈ dueGoals plan now rows scope ↔ row ∈ (liveGoals plan rows scope).take 100 ∧ row.nextFireAt ≤ now := by
  rw [dueGoals, List.mem_filter, decide_eq_true_eq]
  rfl

theorem of_mem_dueGoals {now : Int} {rows : List GoalRow} {scope : Scope} {row : GoalRow}
    (h : row ∈ dueGoals plan now rows scope) : row ∈ rows ∧ row.scope = scope := by
  have hlive := mem_liveGoals.mp (List.mem_of_mem_take (mem_dueGoals.mp h).1)
  exact ⟨hlive.1, hlive.2.1⟩

theorem dueGoals_handOver (now : Int) (firings : GoalRow → Firing) (rows : List GoalRow) (listed : GoalRow)
    (scope : Scope) (h : listed.scope ≠ scope) :
    dueGoals plan now (handOver env firings rows listed) scope = dueGoals plan now rows scope := by
  rw [dueGoals, listAgentGoals, liveGoals, filter_handOver env firings listed h, dueGoals, listAgentGoals, liveGoals]

theorem dueScopes_nodup (rows : List GoalRow) (now : Int) : (dueScopes plan rows now).Nodup :=
  (plan.scopes_perm _).nodup_iff.mpr (List.nodup_dedup _)

theorem mem_dueScopes {rows : List GoalRow} {now : Int} {scope : Scope} :
    scope ∈ dueScopes plan rows now ↔ ∃ row ∈ rows, row.due now = true ∧ row.scope = scope := by
  rw [dueScopes, (plan.scopes_perm _).mem_iff, List.mem_dedup, List.mem_map]
  simp only [List.mem_filter, and_assoc]

theorem scanned_nodup (rows : List GoalRow) (now limit : Int) :
    (listDueAgentGoalScopes plan rows now limit).Nodup :=
  (dueScopes_nodup rows now).sublist (List.take_sublist _ _)

/-- The goals that a scan hands over are those that its scopes had at the start, whatever the firings come to. -/
theorem handed_eq (limit now : Int) (firings : GoalRow → Firing) (rows : List GoalRow) :
    (processDueGoalsOnce env plan limit now firings rows).handed =
      (listDueAgentGoalScopes plan rows now limit).flatMap (dueGoals plan now rows) :=
  Sweep.sweep_fst (fun _ _ _ h => (of_mem_dueGoals h).2) (fun rows listed scope h =>
    dueGoals_handOver now firings rows listed scope h) _ rows (scanned_nodup rows now limit)

theorem rows_ids (limit now : Int) (firings : GoalRow → Firing) (rows : List GoalRow) :
    ((processDueGoalsOnce env plan limit now firings rows).rows).map GoalRow.id = rows.map GoalRow.id :=
  Sweep.sweep_inv (I := fun s => s.map GoalRow.id = rows.map GoalRow.id)
    (fun s listed h => (handOver_ids env firings s listed).trans h) _ rows rfl

/-! ### How often -/

/-- Of a table no two rows have one id. -/
theorem GoalTable.eq_of_id (table : GoalTable) {a b : GoalRow} (ha : a ∈ table.rows) (hb : b ∈ table.rows)
    (h : a.id = b.id) : a = b := List.inj_on_of_nodup_map table.ids_nodup ha hb h

theorem liveGoals_ids_nodup {plan : Plan} (table : GoalTable) (scope : Scope) :
    ((liveGoals plan table.rows scope).map GoalRow.id).Nodup := by
  have hperm : (liveGoals plan table.rows scope).Perm
      (table.rows.filter fun row => row.scope = scope && row.live) :=
    (List.mergeSort_perm _ _).trans (plan.rows_perm _)
  exact ((hperm.map _).nodup_iff).mpr (table.ids_nodup.sublist (List.filter_sublist.map _))

/-- How many goals come before this one when its scope is listed. -/
def placeOf (plan : Plan) (rows : List GoalRow) (row : GoalRow) : Nat :=
  ((liveGoals plan rows row.scope).map GoalRow.id).idxOf row.id

theorem mem_map_dueGoals_iff (table : GoalTable) {row : GoalRow} {now : Int} (hmem : row ∈ table.rows)
    (hdue : row.due now = true) :
    row.id ∈ (dueGoals plan now table.rows row.scope).map GoalRow.id ↔ placeOf plan table.rows row < 100 := by
  have hdue' : row.live = true ∧ row.nextFireAt ≤ now := by simpa [GoalRow.due] using hdue
  have hlive : row ∈ liveGoals plan table.rows row.scope := mem_liveGoals.mpr ⟨hmem, rfl, hdue'.1⟩
  rw [placeOf, ← List.mem_take_iff_idxOf_lt (List.mem_map_of_mem (f := GoalRow.id) hlive), ← List.map_take]
  constructor
  · intro h
    obtain ⟨other, hother, hid⟩ := List.mem_map.mp h
    exact List.mem_map.mpr ⟨other, (mem_dueGoals.mp hother).1, hid⟩
  · intro h
    obtain ⟨other, hother, hid⟩ := List.mem_map.mp h
    have hrows := (mem_liveGoals.mp (List.mem_of_mem_take hother)).1
    obtain rfl := table.eq_of_id hrows hmem hid
    exact List.mem_map_of_mem (mem_dueGoals.mpr ⟨hother, hdue'.2⟩)

theorem count_dueGoals (table : GoalTable) {row : GoalRow} {now : Int} (hmem : row ∈ table.rows)
    (hdue : row.due now = true) :
    ((dueGoals plan now table.rows row.scope).map GoalRow.id).count row.id =
      if placeOf plan table.rows row < 100 then 1 else 0 := by
  have hsub : (dueGoals plan now table.rows row.scope).Sublist (liveGoals plan table.rows row.scope) :=
    List.filter_sublist.trans (List.take_sublist _ _)
  have hnodup := (liveGoals_ids_nodup table row.scope).sublist (hsub.map GoalRow.id)
  rw [List.Nodup.count hnodup]
  exact if_congr (mem_map_dueGoals_iff table hmem hdue) rfl rfl

/-- A goal that is due is handed over once when its scope is scanned and fewer than a hundred of the live goals
    there come before it, and else not at all. -/
theorem count_handed (table : GoalTable) (limit : Int) {now : Int} (firings : GoalRow → Firing) {row : GoalRow}
    (hmem : row ∈ table.rows) (hdue : row.due now = true) :
    ((processDueGoalsOnce env plan limit now firings table.rows).handed.map GoalRow.id).count row.id =
      if row.scope ∈ listDueAgentGoalScopes plan table.rows now limit ∧ placeOf plan table.rows row < 100 then 1
      else 0 := by
  have hname : ∀ scope, ∀ other ∈ dueGoals plan now table.rows scope, other.id = row.id → scope = row.scope := by
    intro scope other hother hid
    obtain ⟨hrows, hscope⟩ := of_mem_dueGoals hother
    rw [← table.eq_of_id hrows hmem hid, hscope]
  rw [handed_eq, Sweep.count_flatMap GoalRow.scope GoalRow.id hname _ (scanned_nodup table.rows now limit),
    count_dueGoals table hmem hdue]
  by_cases hscanned : row.scope ∈ listDueAgentGoalScopes plan table.rows now limit
  · simp [hscanned]
  · simp [hscanned]

/-- Some live goal of the scope has each place. -/
theorem exists_placeOf (plan : Plan) (table : GoalTable) {scope : Scope} {n : Nat}
    (h : n < (liveGoals plan table.rows scope).length) :
    ∃ row ∈ table.rows, row.scope = scope ∧ placeOf plan table.rows row = n := by
  obtain ⟨hmem, hscope, -⟩ := mem_liveGoals.mp (List.getElem_mem h)
  refine ⟨(liveGoals plan table.rows scope)[n], hmem, hscope, ?_⟩
  have hlen : n < ((liveGoals plan table.rows scope).map GoalRow.id).length := by simpa using h
  have hidx := (liveGoals_ids_nodup table scope).idxOf_getElem n hlen
  rw [List.getElem_map] at hidx
  rw [placeOf, hscope]
  exact hidx

/-! ### Runs of scans -/

/-- A scan with its time, its limit and its firings. -/
structure ScanCall where
  plan : Plan
  limit : Int
  now : Int
  firings : GoalRow → Firing

/-- The scopes that a scan goes through. -/
def ScanCall.scanned (call : ScanCall) (table : GoalTable) : List Scope :=
  listDueAgentGoalScopes call.plan table.rows call.now call.limit

variable (env)

def ScanCall.handed (call : ScanCall) (table : GoalTable) : List GoalRow :=
  (processDueGoalsOnce env call.plan call.limit call.now call.firings table.rows).handed

/-- The table after a scan. -/
def ScanCall.after (call : ScanCall) (table : GoalTable) : GoalTable where
  rows := (processDueGoalsOnce env call.plan call.limit call.now call.firings table.rows).rows
  ids_nodup := by
    rw [rows_ids]
    exact table.ids_nodup

/-- Between scans anyone may change the table to any other. -/
inductive ScanLabel where
  | scan (call : ScanCall)
  | change (table : GoalTable)

/-- A scan, or any change of the table between two scans. -/
def scanStep (table : GoalTable) : ScanLabel → Option GoalTable
  | .scan call => some (call.after env table)
  | .change table => some table

/-- The scan hands over each goal that is due in a scope that it scans, and once. -/
def ReachesScanned (table : GoalTable) : ScanLabel → Prop
  | .scan call => ∀ row ∈ table.rows, row.due call.now = true → row.scope ∈ call.scanned table →
      ((call.handed env table).map GoalRow.id).count row.id = 1
  | .change _ => True

/-- The scan hands over each goal that is due, and once. -/
def ReachesAll (table : GoalTable) : ScanLabel → Prop
  | .scan call => ∀ row ∈ table.rows, row.due call.now = true →
      ((call.handed env table).map GoalRow.id).count row.id = 1
  | .change _ => True

/-- Fewer than a hundred live goals of its scope come before each goal that is due in a scope that is scanned. -/
def WithinPages (table : GoalTable) : ScanLabel → Prop
  | .scan call => ∀ row ∈ table.rows, row.due call.now = true → row.scope ∈ call.scanned table →
      placeOf call.plan table.rows row < 100
  | .change _ => True

/-- No more scopes have a goal that is due than one scan takes. -/
def WithinScopes (table : GoalTable) : ScanLabel → Prop
  | .scan call => (dueScopes call.plan table.rows call.now).length ≤ pageSize call.limit 200
  | .change _ => True

theorem reachesScanned_iff (table : GoalTable) (label : ScanLabel) :
    ReachesScanned env table label ↔ WithinPages table label := by
  cases label with
  | change => exact Iff.rfl
  | scan call =>
    refine forall₄_congr fun row hmem hdue hscanned => ?_
    rw [ScanCall.handed, count_handed table call.limit call.firings hmem hdue]
    rw [ScanCall.scanned] at hscanned
    simp [hscanned]

theorem scanned_all_iff (table : GoalTable) (call : ScanCall) :
    (∀ row ∈ table.rows, row.due call.now = true → row.scope ∈ call.scanned table) ↔
      WithinScopes table (.scan call) := by
  rw [WithinScopes]
  constructor
  · intro h
    have hsub : dueScopes call.plan table.rows call.now ⊆ call.scanned table := by
      intro scope hscope
      obtain ⟨row, hmem, hdue, rfl⟩ := mem_dueScopes.mp hscope
      exact h row hmem hdue
    have hle := ((dueScopes_nodup table.rows call.now).subperm hsub).length_le
    exact hle.trans (List.length_take_le _ _)
  · intro h row hmem hdue
    rw [ScanCall.scanned, listDueAgentGoalScopes, List.take_of_length_le h]
    exact mem_dueScopes.mpr ⟨row, hmem, hdue, rfl⟩

theorem reachesAll_iff (table : GoalTable) (label : ScanLabel) :
    ReachesAll env table label ↔ WithinPages table label ∧ WithinScopes table label := by
  cases label with
  | change => exact ⟨fun _ => ⟨trivial, trivial⟩, fun _ => trivial⟩
  | scan call =>
    rw [← reachesScanned_iff env, ← scanned_all_iff]
    constructor
    · intro h
      refine ⟨fun row hmem hdue _ => h row hmem hdue, fun row hmem hdue => ?_⟩
      have hone := h row hmem hdue
      rw [ScanCall.handed, count_handed table call.limit call.firings hmem hdue] at hone
      by_contra hout
      rw [ScanCall.scanned] at hout
      simp [hout] at hone
    · rintro ⟨hreach, hscanned⟩ row hmem hdue
      exact hreach row hmem hdue (hscanned row hmem hdue)

/-- In a run of scans, with any changes of the table in between and whatever raises, each scan hands over every
    goal that is due in the scopes that it scans, once, exactly when fewer than a hundred live goals come before
    it in each case; and every goal that is due anywhere, exactly when no more scopes than one scan takes have
    one besides. Which goals a scan hands over does not depend on what its firings come to. -/
theorem scans_reach_due_goals (table : GoalTable) (labels : List ScanLabel) :
    (Run.Meets (scanStep env) (ReachesScanned env) table labels ↔
      Run.Meets (scanStep env) WithinPages table labels) ∧
    (Run.Meets (scanStep env) (ReachesAll env) table labels ↔
      Run.Meets (scanStep env) (fun t label => WithinPages t label ∧ WithinScopes t label) table labels) ∧
    ∀ plan limit now firings other,
      (processDueGoalsOnce env plan limit now firings table.rows).handed =
        (processDueGoalsOnce env plan limit now other table.rows).handed := by
  refine ⟨⟨?_, ?_⟩, ⟨?_, ?_⟩, ?_⟩
  · exact Run.meets_mono fun t label => (reachesScanned_iff env t label).mp
  · exact Run.meets_mono fun t label => (reachesScanned_iff env t label).mpr
  · exact Run.meets_mono fun t label => (reachesAll_iff env t label).mp
  · exact Run.meets_mono fun t label => (reachesAll_iff env t label).mpr
  · intro plan limit now firings other
    rw [handed_eq, handed_eq]

/-! ### A goal that no scan comes to -/

/-- An id of so many letters. -/
def letters (n : Nat) : Token where
  text := String.ofList (List.replicate (n + 1) 'g')
  trimmed := by
    refine Text.trim_eq_self fun c hc => ?_
    rw [String.toList_ofList] at hc
    rw [List.eq_of_mem_replicate hc]
    rfl
  written := by
    intro h
    have hnil := String.ofList_eq_empty_iff.mp h
    cases hnil

theorem letters_injective : Function.Injective letters := by
  intro m n h
  have htext : String.ofList (List.replicate (m + 1) 'g') = String.ofList (List.replicate (n + 1) 'g') :=
    congrArg Token.text h
  have hlen := congrArg (fun s : String => s.toList.length) htext
  simpa using hlen

def crowdScope : Scope := (letters 0, letters 1)

/-- A goal that is due, created at `n`. -/
def crowdRow (n : Nat) : GoalRow where
  goal := ⟨letters n, "", "", "", "", "", .todo, 0, 5, none, []⟩
  scope := crowdScope
  nextFireAt := 0
  createdAt := n

/-- So many goals of one workspace. -/
def crowd (n : Nat) : GoalTable where
  rows := (List.range n).map crowdRow
  ids_nodup := by
    rw [List.map_map]
    exact List.nodup_range.map letters_injective

/-- A scan in which every firing raises. -/
def crowdCall : ScanCall :=
  ⟨⟨id, fun _ => .rfl, id, fun _ => .rfl⟩, 200, 0, fun _ => ⟨firedAt 0, 0, true, false⟩⟩

set_option maxRecDepth 20000 in
/-- Of a hundred and one goals one is not handed over. -/
theorem oldest_goal_not_reached :
    ¬∀ (env : Env) (table : GoalTable) (labels : List ScanLabel),
      Run.Meets (scanStep env) (ReachesScanned env) table labels := by
  intro h
  have hwithin := (reachesScanned_iff texts _ _).mp (h texts (crowd 101) [.scan crowdCall]).1
  have hscanned : crowdScope ∈ crowdCall.scanned (crowd 101) := by decide
  have hlive : (liveGoals crowdCall.plan (crowd 101).rows crowdScope).length = 101 := by
    rw [liveGoals, List.length_mergeSort]
    decide
  obtain ⟨row, hmem, hscope, hplace⟩ := exists_placeOf crowdCall.plan (crowd 101)
    (show 100 < (liveGoals crowdCall.plan (crowd 101).rows crowdScope).length by rw [hlive]; decide)
  have hdue : row.due crowdCall.now = true := by
    obtain ⟨n, -, rfl⟩ := List.mem_map.mp hmem
    rfl
  have hlt := hwithin row hmem hdue (hscope ▸ hscanned)
  rw [hplace] at hlt
  exact absurd hlt (by decide)

end Empyralis.Server.Wakes
