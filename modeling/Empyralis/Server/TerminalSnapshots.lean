import Empyralis.Server.LiveRunSnapshots

/-! `_persist_run_snapshot_confirmed` among other writers of the row: the snapshot of a status that ends a run is
    attempted until it is written, a bounded number of times, while others may write or delete the row between any
    two statements, and any statement may fail. -/

namespace Empyralis.Server.TerminalSnapshots
open Kernel RunState RunTransitions LiveRunSnapshots
open OutboxRows (orText)
open Text (strip)

variable (env : LiveRunSnapshots.Env)

inductive Outcome where
  | returned
  | reported
  deriving DecidableEq

/-- A call in the course of its attempts. `version` is what the run remembers; `commits` counts the writes of
    others since it began, `wrote` has the rows that it has written over and what it made of them, and `found` the
    row that it took for its own snapshot. -/
structure Persisting where
  run : LiveRun
  row : Option Row
  version : Nat
  write : Write
  attempt : Nat := 1
  reconciling : Bool := false
  outcome : Option Outcome := none
  commits : Nat := 0
  wrote : List (Row × Row) := []
  found : Option Row := none

/-- `_persist_run_snapshot_confirmed` as it is called -/
def begin (run : LiveRun) (row : Option Row) (version : Nat) (state traceId : String) (payload : Fields)
    (expected : Nat) : Persisting where
  run := run
  row := row
  version := version
  write := { state, traceId, payload, expected }

/-- The next attempt, or the report that there is none left. -/
def again (p : Persisting) (expected : Nat) : Persisting :=
  if p.attempt < maxTerminalPersistAttempts then
    { p with
      write := { p.write with expected, stage := .update }
      attempt := p.attempt + 1
      reconciling := false }
  else { p with outcome := some .reported }

/-- `_reconcile_durable_version`, and the version that is tried next. -/
def reconcile (p : Persisting) : Persisting :=
  match p.row with
  | none => again p p.write.expected
  | some row =>
    again { p with version := row.version } (if row.version = p.write.expected then row.version + 1 else row.version)

/-- The rows that an `UPDATE` has found and left. -/
def updated (p : Persisting) : List (Row × Row) :=
  (p.row.map fun old => (old, p.write.row p.run old)).toList

/-- The next statement of the call. -/
def statement (p : Persisting) : Persisting :=
  if p.reconciling then reconcile p
  else
    let result := updateLiveRunIfVersionMatches env p.run p.row p.write
    match result.1 with
    | .missed => { p with write := { p.write with stage := .lookup } }
    | .conflict => { p with reconciling := true }
    | .raised _ => again p p.write.expected
    | .returned version =>
      match p.write.stage with
      | .update => { p with row := result.2, version, outcome := some .returned, wrote := updated p ++ p.wrote }
      | _ => { p with version, outcome := some .returned, found := p.row }

/-- The next statement raises. An `UPDATE` may have been carried out all the same. -/
def failing (carriedOut : Bool) (p : Persisting) : Persisting :=
  if p.reconciling then again p p.write.expected
  else
    let result := updateLiveRunIfVersionMatches env p.run p.row p.write
    match result.1, p.write.stage with
    | .returned _, .update =>
      if carriedOut then again { p with row := result.2, wrote := updated p ++ p.wrote } p.write.expected
      else again p p.write.expected
    | _, _ => again p p.write.expected

inductive Label where
  | statement
  | failing (carriedOut : Bool)
  | commit (row : Option Row)

def Label.own : Label → Bool
  | .commit _ => false
  | _ => true

def step (p : Persisting) : Label → Option Persisting
  | .statement => if p.outcome.isSome then none else some (statement env p)
  | .failing carriedOut => if p.outcome.isSome then none else some (failing env carriedOut p)
  | .commit row => some { p with row, commits := p.commits + 1 }

/-! ### Statements -/

/-- The row holds the snapshot that is to be written, under a version above the one that was tried. -/
def HoldsSnapshot (run : LiveRun) (w : Write) (row : Row) : Prop :=
  ((liveRunPayloadFromRow env run.runId row).get "status").token env.repr = orText w.state "queued" ∧
    env.equal (comparePayload (liveRunPayloadFromRow env run.runId row)) (comparePayload (w.desired run)) ∧
    w.expected + 1 ≤ row.version

theorem update_cases (run : LiveRun) (row : Option Row) {w : Write} (hstage : w.stage = .update) :
    (∃ e, enforceRuntimeStateStoreDecision (w.request env run) = .error e ∧
      updateLiveRunIfVersionMatches env run row w = (.raised e, row)) ∨
    (∃ old, row = some old ∧ old.version = w.expected ∧
      updateLiveRunIfVersionMatches env run row w = (.returned (w.expected + 1), some (w.row run old))) ∨
    ((∀ old, row = some old → old.version ≠ w.expected) ∧
      updateLiveRunIfVersionMatches env run row w = (.missed, row)) := by
  unfold updateLiveRunIfVersionMatches
  rw [hstage]
  dsimp only
  cases hgate : enforceRuntimeStateStoreDecision (w.request env run) with
  | error e => exact .inl ⟨e, rfl, rfl⟩
  | ok u =>
    dsimp only
    cases hfilter : row.filter (·.version = w.expected) with
    | none =>
      refine .inr (.inr ⟨fun old hold hversion => ?_, rfl⟩)
      rw [hold, Option.filter_some, decide_eq_true hversion, if_pos rfl] at hfilter
      cases hfilter
    | some old =>
      obtain ⟨hold, hversion⟩ := Option.filter_eq_some_iff.mp hfilter
      exact .inr (.inl ⟨old, hold, of_decide_eq_true hversion, rfl⟩)

theorem lookup_cases (run : LiveRun) (row : Option Row) {w : Write} (hstage : w.stage = .lookup) :
    (∃ old, row = some old ∧ HoldsSnapshot env run w old ∧
      updateLiveRunIfVersionMatches env run row w = (.returned old.version, row)) ∨
    updateLiveRunIfVersionMatches env run row w = (.conflict, row) := by
  unfold updateLiveRunIfVersionMatches
  rw [hstage]
  cases row with
  | none => exact .inr rfl
  | some old =>
    dsimp only
    split
    · exact .inl ⟨old, rfl, ‹_›, rfl⟩
    · exact .inr rfl

/-! ### The call of the run -/

/-- A call that confirms a snapshot, as one in the course of its attempts. -/
def persisting (s : LiveRunSnapshots.State) (c : Confirmation) : Persisting where
  run := s.run
  row := s.row
  version := s.version
  write := c.write
  attempt := c.attempt
  reconciling := c.reconciling

/-- The call where it stands. -/
def stand (s : LiveRunSnapshots.State) (c : Confirmation) (p : Persisting) : LiveRunSnapshots.State :=
  match p.outcome with
  | none =>
    { s with
      row := p.row
      version := p.version
      confirming := some { c with write := p.write, attempt := p.attempt, reconciling := p.reconciling } }
  | some _ => afterConfirmation env { s with row := p.row, version := p.version } c

theorem stand_again (s : LiveRunSnapshots.State) (c : Confirmation) (p : Persisting) (hattempt : p.attempt = c.attempt)
    (hwrite : p.write = c.write) (hnone : p.outcome = none) (expected : Nat) :
    stand env s c (again p expected) = retry env { s with row := p.row, version := p.version } c expected := by
  rw [again, retry, hattempt]
  split_ifs
  · simp only [stand, hnone, hwrite]
  · rfl

/-- Each statement of a call that nothing comes between is one of `_persist_run_snapshot_confirmed`. -/
theorem confirm_eq (s : LiveRunSnapshots.State) (c : Confirmation) :
    confirm env s c = stand env s c (statement env (persisting s c)) := by
  rw [confirm, statement]
  by_cases hreconciling : c.reconciling = true
  · rw [if_pos hreconciling, if_pos (show (persisting s c).reconciling = true from hreconciling), reconcile]
    change (match s.row with | none => _ | some row => _) = stand env s c (match s.row with | none => _ | some row => _)
    cases hrow : s.row with
    | none =>
      dsimp only
      rw [stand_again env s c (persisting s c) rfl rfl rfl]
      rfl
    | some row =>
      dsimp only
      rw [stand_again env s c { persisting s c with version := row.version } rfl rfl rfl]
      congr
      rw [← hrow]
      rfl
  · rw [if_neg hreconciling, if_neg (show ¬(persisting s c).reconciling = true from hreconciling)]
    change _ = stand env s c (match (updateLiveRunIfVersionMatches env s.run s.row c.write).1 with
      | .missed => _ | .conflict => _ | .raised _ => _ | .returned version => _)
    cases hstage : c.write.stage with
    | update =>
      rcases update_cases env s.run s.row hstage with ⟨e, -, h⟩ | ⟨old, hold, -, h⟩ | ⟨-, h⟩
      · rw [h]
        dsimp only
        rw [stand_again env s c (persisting s c) rfl rfl rfl]
        rfl
      · rw [h]
        dsimp only
        have h' : updateLiveRunIfVersionMatches env (persisting s c).run (persisting s c).row (persisting s c).write =
            (.returned (c.write.expected + 1), some (c.write.row s.run old)) := h
        rw [show (persisting s c).write.stage = .update from hstage, h']
        rfl
      · rw [h]
        rfl
    | lookup =>
      rcases lookup_cases env s.run s.row hstage with ⟨old, -, -, h⟩ | h
      · rw [h]
        dsimp only
        rw [show (persisting s c).write.stage = .lookup from hstage]
        rfl
      · rw [h]
        rfl
    | handBack version =>
      have h : updateLiveRunIfVersionMatches env s.run s.row c.write = (.returned version, s.row) := by
        unfold updateLiveRunIfVersionMatches
        rw [hstage]
      rw [h]
      dsimp only
      rw [show (persisting s c).write.stage = .handBack version from hstage]
      rfl

/-! ### Attempts -/

/-- What the next statement of a call can do. -/
inductive Next (p : Persisting) : Persisting → Prop where
  | absent (hreconciling : p.reconciling = true) (hrow : p.row = none) : Next p (again p p.write.expected)
  | reread (row : Row) (hreconciling : p.reconciling = true) (hrow : p.row = some row) :
    Next p (again { p with version := row.version }
      (if row.version = p.write.expected then row.version + 1 else row.version))
  | refused (e : Error) (hreconciling : p.reconciling = false) (hstage : p.write.stage = .update)
    (hgate : enforceRuntimeStateStoreDecision (p.write.request env p.run) = .error e) :
    Next p (again p p.write.expected)
  | written (old : Row) (hreconciling : p.reconciling = false) (hstage : p.write.stage = .update)
    (hrow : p.row = some old) (hversion : old.version = p.write.expected) :
    Next p { p with
      row := some (p.write.row p.run old)
      version := p.write.expected + 1
      outcome := some .returned
      wrote := (old, p.write.row p.run old) :: p.wrote }
  | missed (hreconciling : p.reconciling = false) (hstage : p.write.stage = .update)
    (hrow : ∀ old, p.row = some old → old.version ≠ p.write.expected) :
    Next p { p with write := { p.write with stage := .lookup } }
  | found (old : Row) (hreconciling : p.reconciling = false) (hstage : p.write.stage = .lookup)
    (hrow : p.row = some old) (hholds : HoldsSnapshot env p.run p.write old) :
    Next p { p with version := old.version, outcome := some .returned, found := some old }
  | conflict (hreconciling : p.reconciling = false) (hstage : p.write.stage = .lookup) :
    Next p { p with reconciling := true }

/-- The call is at its `UPDATE` or at the `SELECT` after it. -/
def Trying (p : Persisting) : Prop := p.write.stage = .update ∨ p.write.stage = .lookup

/-- Everything that a statement can do. -/
theorem next_statement {p : Persisting} (htrying : Trying p) : Next env p (statement env p) := by
  obtain ⟨run, row, version, write, attempt, reconciling, outcome, commits, wrote, found⟩ := p
  cases reconciling with
  | true =>
    cases row with
    | none => exact .absent rfl rfl
    | some row => exact .reread row rfl rfl
  | false =>
    rw [statement, if_neg Bool.false_ne_true]
    dsimp only [Trying] at htrying ⊢
    rcases htrying with hstage | hstage
    · rcases update_cases env run row hstage with ⟨e, hgate, h⟩ | ⟨old, hrow, hversion, h⟩ | ⟨hrow, h⟩
      · rw [h]
        exact .refused e rfl hstage hgate
      · subst hrow
        rw [h, hstage]
        exact .written old rfl hstage rfl hversion
      · rw [h]
        exact .missed rfl hstage hrow
    · rcases lookup_cases env run row hstage with ⟨old, hrow, hholds, h⟩ | h
      · subst hrow
        rw [h, hstage]
        exact .found old rfl hstage rfl hholds
      · rw [h]
        exact .conflict rfl hstage

/-- A statement that raises leads to the next attempt, with or without what an `UPDATE` has done. -/
theorem failing_cases (carriedOut : Bool) (p : Persisting) :
    failing env carriedOut p = again p p.write.expected ∨
      ∃ old, p.row = some old ∧ old.version = p.write.expected ∧
        failing env carriedOut p = again { p with
          row := some (p.write.row p.run old)
          wrote := (old, p.write.row p.run old) :: p.wrote } p.write.expected := by
  rw [failing]
  split_ifs with hreconciling hcarried
  · exact .inl rfl
  · dsimp only
    split
    · rename_i version hresult hstage
      rcases update_cases env p.run p.row hstage with ⟨e, -, h⟩ | ⟨old, hrow, hversion, h⟩ | ⟨-, h⟩
      · rw [h] at hresult
        cases hresult
      · rw [h, updated, hrow]
        exact .inr ⟨old, rfl, hversion, rfl⟩
      · rw [h] at hresult
        cases hresult
    · exact .inl rfl
  · dsimp only
    split <;> exact .inl rfl

theorem again_cases (p : Persisting) (expected : Nat) :
    (p.attempt < maxTerminalPersistAttempts ∧ again p expected =
      { p with
        write := { p.write with expected, stage := .update }
        attempt := p.attempt + 1
        reconciling := false }) ∨
    (maxTerminalPersistAttempts ≤ p.attempt ∧ again p expected = { p with outcome := some .reported }) := by
  rw [again]
  split_ifs with h
  · exact .inl ⟨h, rfl⟩
  · exact .inr ⟨not_lt.mp h, rfl⟩

/-! ### A call comes to its end -/

/-- How many statements the call has left at most. -/
def left (p : Persisting) : Nat :=
  if p.outcome.isSome then 0
  else 3 * (maxTerminalPersistAttempts - p.attempt) +
    if p.reconciling then 1 else match p.write.stage with | .update => 3 | .lookup => 2 | .handBack _ => 1

theorem left_pos {p : Persisting} (h : p.outcome = none) :
    3 * (maxTerminalPersistAttempts - p.attempt) + 1 ≤ left p := by
  rw [left, h]
  simp only [Option.isSome_none, Bool.false_eq_true, if_false]
  split
  · omega
  · split <;> omega

theorem left_again (p : Persisting) (hnone : p.outcome = none) (expected : Nat) :
    left (again p expected) ≤ 3 * (maxTerminalPersistAttempts - p.attempt) := by
  rcases again_cases p expected with ⟨hlt, h⟩ | ⟨-, h⟩
  · rw [h, left, hnone]
    simp only [Option.isSome_none, Bool.false_eq_true, if_false]
    omega
  · rw [h, left]
    simp

theorem left_ended {p : Persisting} {o : Outcome} (h : p.outcome = some o) : left p = 0 := by
  rw [left, h]
  rfl

/-- Each statement leaves fewer to come. -/
theorem left_next {p q : Persisting} (hnone : p.outcome = none) (h : Next env p q) : left q < left p := by
  have hpos := left_pos hnone
  cases h with
  | absent | refused =>
    have hle := left_again p hnone p.write.expected
    omega
  | reread row =>
    have hle := left_again { p with version := row.version } hnone
      (if row.version = p.write.expected then row.version + 1 else row.version)
    dsimp only at hle
    omega
  | written old =>
    rw [left_ended rfl]
    omega
  | found old =>
    rw [left_ended rfl]
    omega
  | missed hreconciling hstage => simp [left, hnone, hreconciling, hstage]
  | conflict hreconciling hstage => simp [left, hnone, hreconciling, hstage]

theorem left_failing {p : Persisting} (hnone : p.outcome = none) (carriedOut : Bool) :
    left (failing env carriedOut p) < left p := by
  have hpos := left_pos hnone
  rcases failing_cases env carriedOut p with h | ⟨old, -, -, h⟩
  · have hle := left_again p hnone p.write.expected
    rw [h]
    omega
  · have hle := left_again { p with
      row := some (p.write.row p.run old)
      wrote := (old, p.write.row p.run old) :: p.wrote } hnone p.write.expected
    dsimp only at hle
    rw [h]
    omega

/-! ### Whatever comes between -/

/-- `q` is the call `p` at some later point: it has the same snapshot, and how it ended is how it said. -/
structure Inv (p q : Persisting) : Prop where
  run : q.run = p.run
  snapshot : ∃ expected stage, q.write = { p.write with expected, stage }
  trying : Trying q
  wrote : ∀ pair ∈ q.wrote, pair.2.state = orText p.write.state "queued" ∧ pair.2.version = pair.1.version + 1
  unfound : q.outcome ≠ some .returned → q.found = none
  returned : q.outcome = some .returned →
    (∃ pair ∈ q.wrote, q.version = pair.2.version ∧ q.found = none) ∨
      ∃ row, q.found = some row ∧ q.version = row.version ∧ HoldsSnapshot env q.run q.write row

variable {env}

theorem inv_begin (run : LiveRun) (row : Option Row) (version : Nat) (state traceId : String) (payload : Fields)
    (expected : Nat) : Inv env (begin run row version state traceId payload expected)
      (begin run row version state traceId payload expected) where
  run := rfl
  snapshot := ⟨expected, .update, rfl⟩
  trying := .inl rfl
  wrote := by
    rintro pair ⟨⟩
  unfound _ := rfl
  returned := by
    rintro ⟨⟩

/-- The row that a call leaves over another. -/
theorem written_row {p q : Persisting} (h : Inv env p q) {old : Row} (hversion : old.version = q.write.expected) :
    (q.write.row q.run old).state = orText p.write.state "queued" ∧
      (q.write.row q.run old).version = old.version + 1 := by
  obtain ⟨expected, stage, hwrite⟩ := h.snapshot
  refine ⟨?_, ?_⟩
  · rw [Write.row, hwrite]
  · rw [hversion]
    rfl

theorem inv_again {p q : Persisting} (h : Inv env p q) (hnone : q.outcome = none) (expected : Nat) :
    Inv env p (again q expected) := by
  have hfound : q.found = none := h.unfound (by rw [hnone]; exact Option.some_ne_none _ ∘ Eq.symm)
  obtain ⟨expected', stage, hwrite⟩ := h.snapshot
  rcases again_cases q expected with ⟨-, hq⟩ | ⟨-, hq⟩
  · rw [hq]
    refine ⟨h.run, ⟨expected, .update, by rw [hwrite]⟩, .inl rfl, h.wrote, fun _ => hfound, ?_⟩
    dsimp only
    rw [hnone]
    rintro ⟨⟩
  · rw [hq]
    refine ⟨h.run, ⟨expected', stage, hwrite⟩, h.trying, h.wrote, fun _ => hfound, ?_⟩
    rintro ⟨⟩

/-- One statement leaves the call the same call at a later point. -/
theorem inv_next {p q r : Persisting} (h : Inv env p q) (hnone : q.outcome = none) (hnext : Next env q r) :
    Inv env p r := by
  have hnot : q.outcome ≠ some .returned := by
    rw [hnone]
    rintro ⟨⟩
  have hfound : q.found = none := h.unfound hnot
  obtain ⟨expected, stage, hwrite⟩ := h.snapshot
  cases hnext with
  | absent | refused => exact inv_again h hnone _
  | reread row =>
    refine inv_again (q := { q with version := row.version }) ?_ hnone _
    exact ⟨h.run, ⟨expected, stage, hwrite⟩, h.trying, h.wrote, fun _ => hfound, fun hret => absurd hret hnot⟩
  | written old hreconciling hstage hrow hversion =>
    refine ⟨h.run, ⟨expected, stage, hwrite⟩, h.trying, ?_, fun _ => hfound, fun _ => .inl ?_⟩
    · intro pair hpair
      rcases List.mem_cons.mp hpair with rfl | hpair
      · exact written_row h hversion
      · exact h.wrote pair hpair
    · exact ⟨(old, q.write.row q.run old), List.mem_cons_self .., rfl, hfound⟩
  | missed =>
    refine ⟨h.run, ⟨expected, .lookup, by rw [hwrite]⟩, .inr rfl, h.wrote, fun _ => hfound, fun hret => ?_⟩
    exact absurd hret hnot
  | found old hreconciling hstage hrow hholds =>
    exact ⟨h.run, ⟨expected, stage, hwrite⟩, h.trying, h.wrote, fun hret => absurd rfl hret, fun _ =>
      .inr ⟨old, rfl, rfl, hholds⟩⟩
  | conflict =>
    exact ⟨h.run, ⟨expected, stage, hwrite⟩, h.trying, h.wrote, fun _ => hfound, fun hret => absurd hret hnot⟩

theorem inv_failing {p q : Persisting} (h : Inv env p q) (hnone : q.outcome = none) (carriedOut : Bool) :
    Inv env p (failing env carriedOut q) := by
  rcases failing_cases env carriedOut q with hq | ⟨old, -, hversion, hq⟩
  · rw [hq]
    exact inv_again h hnone _
  · rw [hq]
    refine inv_again (q := { q with
      row := some (q.write.row q.run old)
      wrote := (old, q.write.row q.run old) :: q.wrote }) ?_ hnone _
    refine ⟨h.run, h.snapshot, h.trying, ?_, h.unfound, fun hret => ?_⟩
    · intro pair hpair
      rcases List.mem_cons.mp hpair with rfl | hpair
      · exact written_row h hversion
      · exact h.wrote pair hpair
    · cases hnone.symm.trans hret

/-- A step is a statement of a call that has not ended, or a write of another. -/
theorem step_cases {p q : Persisting} {l : Label} (h : step env p l = some q) :
    (∃ row, l = .commit row ∧ q = { p with row, commits := p.commits + 1 }) ∨
      p.outcome = none ∧ ((l = .statement ∧ q = statement env p) ∨
        ∃ carriedOut, l = .failing carriedOut ∧ q = failing env carriedOut p) := by
  cases l with
  | commit row => exact .inl ⟨row, rfl, (Option.some.inj h).symm⟩
  | statement =>
    rw [step] at h
    split_ifs at h with hsome
    exact .inr ⟨Option.not_isSome_iff_eq_none.mp hsome, .inl ⟨rfl, (Option.some.inj h).symm⟩⟩
  | failing carriedOut =>
    rw [step] at h
    split_ifs at h with hsome
    exact .inr ⟨Option.not_isSome_iff_eq_none.mp hsome, .inr ⟨carriedOut, rfl, (Option.some.inj h).symm⟩⟩

theorem inv_step {p q r : Persisting} {l : Label} (h : Inv env p q) (hstep : step env q l = some r) :
    Inv env p r := by
  rcases step_cases hstep with ⟨row, -, rfl⟩ | ⟨hnone, ⟨-, rfl⟩ | ⟨carriedOut, -, rfl⟩⟩
  · exact ⟨h.run, h.snapshot, h.trying, h.wrote, h.unfound, h.returned⟩
  · exact inv_next h hnone (next_statement env h.trying)
  · exact inv_failing h hnone carriedOut

/-! ### Among other writers -/

variable (env) in
/-- The statement does not raise, the kernel lets the snapshot through, and the row stays there. -/
def Undisturbed (q : Persisting) : Label → Prop
  | .statement => q.write.stage = .update → enforceRuntimeStateStoreDecision (q.write.request env q.run) = .ok ()
  | .failing _ => False
  | .commit row => row.isSome = true

/-- Each attempt that has failed but the first was overtaken by a commit of its own: in the course of an attempt
    there have been as many commits as attempts but two, one more once the version expected is not that of the
    row, and one more again where the row has come to have it after the `UPDATE`. -/
structure Contended (q : Persisting) : Prop where
  row : q.row.isSome = true
  reconciling : q.write.stage = .update → q.reconciling = false
  update : q.outcome = none → q.write.stage = .update →
    q.attempt ≤ q.commits + 2 ∧ ∀ row, q.row = some row → row.version ≠ q.write.expected → q.attempt ≤ q.commits + 1
  lookup : q.outcome = none → q.write.stage = .lookup →
    q.attempt ≤ q.commits + 1 ∧ ∀ row, q.row = some row → row.version = q.write.expected → q.attempt ≤ q.commits
  unwritten : q.outcome = none → q.wrote = []
  found : q.found ≠ none → q.wrote = []
  once : q.wrote.length ≤ 1
  reported : q.outcome = some .reported → 3 ≤ q.commits

theorem contended_begin (run : LiveRun) {row : Option Row} (hrow : row.isSome = true) (version : Nat)
    (state traceId : String) (payload : Fields) (expected : Nat) :
    Contended (begin run row version state traceId payload expected) where
  row := hrow
  reconciling _ := rfl
  update _ _ := ⟨Nat.le_succ 1, fun _ _ _ => Nat.le_refl 1⟩
  lookup _ := by
    rintro ⟨⟩
  unwritten _ := rfl
  found _ := rfl
  once := Nat.zero_le _
  reported := by
    rintro ⟨⟩

theorem contended_commit {q : Persisting} (h : Contended q) {row : Option Row} (hrow : row.isSome = true) :
    Contended { q with row, commits := q.commits + 1 } where
  row := hrow
  reconciling := h.reconciling
  update hnone hstage := by
    have hle := (h.update hnone hstage).1
    dsimp only
    exact ⟨by omega, fun _ _ _ => by omega⟩
  lookup hnone hstage := by
    have hle := (h.lookup hnone hstage).1
    dsimp only
    exact ⟨by omega, fun _ _ _ => by omega⟩
  unwritten := h.unwritten
  found := h.found
  once := h.once
  reported hreported := by
    have hle := h.reported hreported
    dsimp only
    omega

/-- The next attempt is made with the version that the row has, or with one above it after a commit that brought
    the row to the version of this attempt. -/
theorem contended_reread {q : Persisting} (h : Contended q) (hnone : q.outcome = none)
    (hreconciling : q.reconciling = true) (htrying : Trying q) {row : Row} (hrow : q.row = some row) :
    Contended (again { q with version := row.version }
      (if row.version = q.write.expected then row.version + 1 else row.version)) := by
  have hstage : q.write.stage = .lookup := by
    refine htrying.resolve_left fun hupdate => ?_
    rw [h.reconciling hupdate] at hreconciling
    cases hreconciling
  obtain ⟨hattempt, hsame⟩ := h.lookup hnone hstage
  have hwrote := h.unwritten hnone
  rcases again_cases { q with version := row.version }
      (if row.version = q.write.expected then row.version + 1 else row.version) with ⟨-, heq⟩ | ⟨hmax, heq⟩
  · rw [heq]
    refine ⟨h.row, fun _ => rfl, ?_, ?_, fun _ => hwrote, fun _ => hwrote, h.once, ?_⟩
    · intro _ _
      dsimp only
      refine ⟨by omega, fun other hother hne => ?_⟩
      cases hrow.symm.trans hother
      split_ifs at hne with hversion
      · have hle := hsame row hrow hversion
        omega
      · exact absurd rfl hne
    · rintro - ⟨⟩
    · dsimp only
      rw [hnone]
      rintro ⟨⟩
  · rw [heq]
    refine ⟨h.row, h.reconciling, ?_, ?_, fun _ => hwrote, fun _ => hwrote, h.once, fun _ => ?_⟩
    · rintro ⟨⟩
    · rintro ⟨⟩
    · have hmax' : 4 ≤ q.attempt := hmax
      dsimp only
      omega

theorem contended_next {p q r : Persisting} (hinv : Inv env p q) (h : Contended q) (hnone : q.outcome = none)
    (hadmitted : Undisturbed env q .statement) (hnext : Next env q r) : Contended r := by
  have hwrote := h.unwritten hnone
  cases hnext with
  | absent hreconciling hrow =>
    have hsome := h.row
    rw [hrow] at hsome
    cases hsome
  | reread row hreconciling hrow => exact contended_reread h hnone hreconciling hinv.trying hrow
  | refused e hreconciling hstage hgate => cases (hadmitted hstage).symm.trans hgate
  | written old hreconciling hstage hrow hversion =>
    refine ⟨rfl, h.reconciling, ?_, ?_, ?_, ?_, ?_, ?_⟩
    · rintro ⟨⟩
    · rintro ⟨⟩
    · rintro ⟨⟩
    · intro hfound
      exact absurd (hinv.unfound (by rw [hnone]; rintro ⟨⟩)) hfound
    · rw [hwrote]
      rfl
    · rintro ⟨⟩
  | missed hreconciling hstage hrow =>
    obtain ⟨-, hne⟩ := h.update hnone hstage
    refine ⟨h.row, ?_, ?_, ?_, fun _ => hwrote, fun _ => hwrote, h.once, h.reported⟩
    · rintro ⟨⟩
    · rintro - ⟨⟩
    · intro _ _
      obtain ⟨old, hold⟩ := Option.isSome_iff_exists.mp h.row
      exact ⟨hne old hold (hrow old hold), fun other hother hversion => absurd hversion (hrow other hother)⟩
  | found old hreconciling hstage hrow hholds =>
    refine ⟨h.row, h.reconciling, ?_, ?_, ?_, fun _ => hwrote, h.once, ?_⟩ <;> rintro ⟨⟩
  | conflict hreconciling hstage =>
    refine ⟨h.row, fun hupdate => ?_, fun hn hupdate => ?_, h.lookup, h.unwritten, h.found, h.once, h.reported⟩
    · cases hstage.symm.trans hupdate
    · cases hstage.symm.trans hupdate

theorem contended_step {p q r : Persisting} (hinv : Inv env p q) (h : Contended q) {l : Label}
    (hquiet : Undisturbed env q l) (hstep : step env q l = some r) : Contended r := by
  rcases step_cases hstep with ⟨row, rfl, rfl⟩ | ⟨hnone, ⟨rfl, rfl⟩ | ⟨carriedOut, rfl, -⟩⟩
  · exact contended_commit h hquiet
  · exact contended_next hinv h hnone hquiet (next_statement env hinv.trying)
  · cases hquiet

/-! ### Runs -/

/-- Each statement of the call leaves fewer. -/
theorem own_length_le {p : Persisting} : ∀ {labels : List Label} {q r : Persisting}, Inv env p q →
    Run.run (step env) q labels = some r → (labels.filter Label.own).length + left r ≤ left q
  | [], q, r, _, hrun => by
    cases hrun
    simp
  | l :: labels, q, r, hinv, hrun => by
    rw [Run.run_cons, Option.bind_eq_some_iff] at hrun
    obtain ⟨u, hu, hrest⟩ := hrun
    have hle := own_length_le (inv_step hinv hu) hrest
    rcases step_cases hu with ⟨row, rfl, rfl⟩ | ⟨hnone, ⟨rfl, rfl⟩ | ⟨carriedOut, rfl, rfl⟩⟩
    · exact hle
    · have hlt := left_next env hnone (next_statement env hinv.trying)
      rw [List.filter_cons_of_pos rfl, List.length_cons]
      omega
    · have hlt := left_failing env hnone carriedOut
      rw [List.filter_cons_of_pos rfl, List.length_cons]
      omega

/-- A call among at most two commits of others ends with its snapshot in the row: it has written it over the row
    of that moment, or found it there, and the run remembers the version. A call ends within twelve statements,
    and one that has neither written its snapshot nor found it has reported a failure. -/
theorem terminal_snapshot_survives (env : LiveRunSnapshots.Env) {run : LiveRun} {row : Option Row}
    {version expected : Nat} {state traceId : String} {payload : Fields} {labels : List Label} {q : Persisting}
    (hrun : Run.run (step env) (begin run row version state traceId payload expected) labels = some q) :
    (labels.filter Label.own).length ≤ 12 ∧
    (q.outcome = none → (step env q .statement).isSome = true) ∧
    (q.outcome ≠ none → q.wrote = [] → q.found = none → q.outcome = some .reported) ∧
    (row.isSome = true →
      Run.Meets (step env) (Undisturbed env) (begin run row version state traceId payload expected) labels →
      q.commits ≤ 2 → q.outcome ≠ none →
      q.outcome = some .returned ∧
        ((∃ old new, q.wrote = [(old, new)] ∧ new.state = orText state "queued" ∧
            new.version = old.version + 1 ∧ q.version = new.version) ∨
          q.wrote = [] ∧ ∃ there, q.found = some there ∧ HoldsSnapshot env run q.write there ∧
            q.version = there.version)) := by
  have hbegin : Inv env _ _ := inv_begin run row version state traceId payload expected
  have hinv : Inv env (begin run row version state traceId payload expected) q :=
    Run.run_inv_all (fun _ _ _ h hstep => inv_step h hstep) hbegin hrun
  refine ⟨?_, ?_, ?_, ?_⟩
  · have hle := own_length_le hbegin hrun
    have hleft : left (begin run row version state traceId payload expected) = 12 := rfl
    omega
  · intro hnone
    rw [step, hnone]
    rfl
  · intro hended hwrote hfound
    cases ho : q.outcome with
    | none => exact absurd ho hended
    | some o =>
      cases o with
      | reported => rfl
      | returned =>
        rcases hinv.returned ho with ⟨pair, hpair, -, -⟩ | ⟨there, hthere, -, -⟩
        · rw [hwrote] at hpair
          cases hpair
        · cases hfound.symm.trans hthere
  · intro hrow hquiet hcommits hended
    have hcontended : Contended q := by
      refine (Run.run_inv (I := fun r => Inv env (begin run row version state traceId payload expected) r ∧
          Contended r) ?_ hquiet ⟨hbegin, contended_begin run hrow version state traceId payload expected⟩ hrun).2
      rintro a l b ⟨ha, hcontended⟩ hl hab
      exact ⟨inv_step ha hab, contended_step ha hcontended hl hab⟩
    have hreturned : q.outcome = some .returned := by
      cases ho : q.outcome with
      | none => exact absurd ho hended
      | some o =>
        cases o with
        | returned => rfl
        | reported =>
          have hle := hcontended.reported ho
          omega
    refine ⟨hreturned, ?_⟩
    rcases hinv.returned hreturned with ⟨⟨old, new⟩, hpair, hversion, -⟩ | ⟨there, hthere, hversion, hholds⟩
    · obtain ⟨hstate, hnew⟩ := hinv.wrote _ hpair
      refine .inl ⟨old, new, ?_, hstate, hnew, hversion⟩
      obtain ⟨only, hlist⟩ := List.length_eq_one_iff.mp
        (le_antisymm hcontended.once (List.length_pos_of_mem hpair))
      rw [hlist, List.mem_singleton] at hpair
      rw [hlist, hpair]
    · refine .inr ⟨hcontended.found (by rw [hthere]; rintro ⟨⟩), there, hthere, ?_, hversion⟩
      rw [hinv.run] at hholds
      exact hholds

section Run

def endedRun : LiveRun := { runId := "run-64", status := "completed" }

/-- The row of the run before it ended. -/
def runningRow : Row := ⟨"default", "default", "executing", [], none, 3⟩

def endedPayload : Fields := [("run_id", .string "run-64"), ("status", .string "completed")]

/-- The call that confirms the end of the run, which remembers version 3. -/
def ending (row : Row) : Persisting := begin endedRun (some row) 3 "completed" "" endedPayload 3

/-- Two others write the row, each before an attempt. -/
def twice : List Label :=
  [.commit (some { runningRow with version := 4 }), .statement, .statement, .statement,
    .commit (some { runningRow with version := 5 }), .statement, .statement, .statement, .statement]

local instance decidableOk {ε : Type} : ∀ e : Except ε Unit, Decidable (e = .ok ())
  | .ok () => .isTrue rfl
  | .error _ => .isFalse fun h => by cases h

instance decidableUndisturbed (q : Persisting) : ∀ l : Label, Decidable (Undisturbed flatEnv q l)
  | .statement =>
    match hstage : q.write.stage with
    | .update => decidable_of_iff (enforceRuntimeStateStoreDecision (q.write.request flatEnv q.run) = .ok ())
      ⟨fun h _ => h, fun h => h hstage⟩
    | .lookup | .handBack _ => .isTrue fun h => by cases hstage.symm.trans h
  | .failing _ => .isFalse id
  | .commit row => inferInstanceAs (Decidable (row.isSome = true))

theorem terminal_snapshot_survives_twice : ∃ q, Run.run (step flatEnv) (ending runningRow) twice = some q ∧
    q.outcome = some .returned := by
  have hends : (Run.run (step flatEnv) (ending runningRow) twice).any fun q =>
      q.commits ≤ 2 ∧ q.outcome ≠ none := by decide
  obtain ⟨q, hq, hend⟩ := (Option.any_eq_true _ _).mp hends
  obtain ⟨hcommits, hended⟩ := of_decide_eq_true hend
  have hquiet : Run.Meets (step flatEnv) (Undisturbed flatEnv) (ending runningRow) twice := by decide
  exact ⟨q, hq, ((terminal_snapshot_survives flatEnv hq).2.2.2 rfl hquiet hcommits hended).1⟩

/-- The row that the same snapshot has left. -/
def endedRow : Row := (ending runningRow).write.row endedRun runningRow

/-- Nothing comes between, the row is there and holds the snapshot: nothing is written and nothing reported. -/
theorem snapshot_already_there : ∃ q,
    Run.run (step flatEnv) (ending endedRow) [.statement, .statement] = some q ∧
      q.commits = 0 ∧ q.wrote = [] ∧ q.outcome = some .returned := by
  have hends : (Run.run (step flatEnv) (ending endedRow) [.statement, .statement]).any fun q =>
      q.commits = 0 ∧ q.wrote.isEmpty ∧ q.outcome = some .returned := by decide
  obtain ⟨q, hq, hend⟩ := (Option.any_eq_true _ _).mp hends
  obtain ⟨hcommits, hwrote, houtcome⟩ := of_decide_eq_true hend
  exact ⟨q, hq, hcommits, List.isEmpty_iff.mp hwrote, houtcome⟩

end Run

end Empyralis.Server.TerminalSnapshots
