import Empyralis.Lib.Run
import Empyralis.Lib.Text
import Mathlib.Data.List.Nodup

/-! The local queue and its copy in SQLite: `enqueue_local_companion_run` and
    `_persist_local_runtime_state`.

    Both take a snapshot under `LOCAL_QUEUE_LOCK` and write it once they have let the lock go, so a call
    is two steps: the section under the lock and the write, which is one transaction. In the section a
    run that is appended also lets the list in memory write itself. A write that the kernel or the
    database refuses is given up without a word; `accepts` says that it is not. -/

namespace Empyralis.Server.LocalRuntimeState
open Run
open Text (strip)

/-- The runs that wait, the claims and the workers. -/
structure LocalState (κ ρ : Type) where
  pendingRunIds : List String
  claimedRuns : List (String × κ)
  runtimeRegistrations : List (String × ρ)
  deriving DecidableEq

variable {α κ ρ : Type}

/-- Ids are stripped, and blank ones are skipped. -/
def cleanIds (ids : List String) : List String := (ids.map strip).filter (· ≠ "")

def cleanKeys (items : List (String × α)) : List (String × α) :=
  (items.map fun item => (strip item.1, item.2)).filter (·.1 ≠ "")

/-- What `replace_local_runtime_state` inserts. -/
def LocalState.rows (state : LocalState κ ρ) : LocalState κ ρ where
  pendingRunIds := cleanIds state.pendingRunIds
  claimedRuns := cleanKeys state.claimedRuns
  runtimeRegistrations := cleanKeys state.runtimeRegistrations

/-- The ids are primary keys. -/
def LocalState.Distinct (state : LocalState κ ρ) : Prop :=
  state.pendingRunIds.Nodup ∧ (state.claimedRuns.map Prod.fst).Nodup ∧
    (state.runtimeRegistrations.map Prod.fst).Nodup

instance (state : LocalState κ ρ) : Decidable state.Distinct :=
  inferInstanceAs (Decidable (_ ∧ _ ∧ _))

def IsId (id : String) : Prop := strip id = id ∧ id ≠ ""

instance (id : String) : Decidable (IsId id) := inferInstanceAs (Decidable (_ ∧ _))

structure LocalState.Clean (state : LocalState κ ρ) : Prop where
  pending : ∀ id ∈ state.pendingRunIds, IsId id
  claimed : ∀ item ∈ state.claimedRuns, IsId item.1
  registered : ∀ item ∈ state.runtimeRegistrations, IsId item.1

theorem isId_strip {id : String} (h : strip id ≠ "") : IsId (strip id) := ⟨Text.trim_trim .., h⟩

theorem mem_cleanIds {ids : List String} : ∀ id ∈ cleanIds ids, IsId id := by
  intro id hid
  obtain ⟨hmem, hne⟩ := List.mem_filter.mp hid
  obtain ⟨raw, -, rfl⟩ := List.mem_map.mp hmem
  exact isId_strip (of_decide_eq_true hne)

theorem mem_cleanKeys {items : List (String × α)} : ∀ item ∈ cleanKeys items, IsId item.1 := by
  intro item hitem
  obtain ⟨hmem, hne⟩ := List.mem_filter.mp hitem
  obtain ⟨raw, -, rfl⟩ := List.mem_map.mp hmem
  exact isId_strip (of_decide_eq_true hne)

theorem cleanIds_eq {ids : List String} (h : ∀ id ∈ ids, IsId id) : cleanIds ids = ids := by
  have hstrip : ids.map strip = ids := by
    conv_rhs => rw [← List.map_id ids]
    exact List.map_congr_left fun id hid => (h id hid).1
  rw [cleanIds, hstrip, List.filter_eq_self]
  exact fun id hid => decide_eq_true (h id hid).2

theorem cleanKeys_eq {items : List (String × α)} (h : ∀ item ∈ items, IsId item.1) :
    cleanKeys items = items := by
  have hstrip : items.map (fun item => (strip item.1, item.2)) = items := by
    conv_rhs => rw [← List.map_id items]
    exact List.map_congr_left fun item hitem => Prod.ext (h item hitem).1 rfl
  rw [cleanKeys, hstrip, List.filter_eq_self]
  exact fun item hitem => decide_eq_true (h item hitem).2

theorem rows_clean (state : LocalState κ ρ) : state.rows.Clean :=
  ⟨mem_cleanIds, mem_cleanKeys, mem_cleanKeys⟩

theorem rows_eq {state : LocalState κ ρ} (h : state.Clean) : state.rows = state := by
  rw [LocalState.rows, cleanIds_eq h.pending, cleanKeys_eq h.claimed, cleanKeys_eq h.registered]

/-- The three tables of the database. -/
structure Tables (κ ρ : Type) where
  state : LocalState κ ρ
  clean : state.Clean
  distinct : state.Distinct

def replaceLocalRuntimeState (accepts : Bool) (snapshot : LocalState κ ρ) (tables : Tables κ ρ) :
    Tables κ ρ :=
  if h : accepts ∧ snapshot.rows.Distinct then ⟨snapshot.rows, rows_clean snapshot, h.2⟩ else tables

/-- The ids of the runs that the server knows. The run store strips its keys, and a run has an id. -/
structure RunStore where
  ids : List String
  isId : ∀ id ∈ ids, IsId id

/-- A call that has let the lock go and has not yet written. `runId` is the run it has queued. -/
structure Call (κ ρ : Type) where
  runId : Option String
  snapshot : LocalState κ ρ

/-- `accepted` lists the runs of the enqueues that have returned `True`. -/
structure State (κ ρ : Type) where
  memory : LocalState κ ρ
  tables : Tables κ ρ
  calls : List (Call κ ρ)
  accepted : List String

/-- The server after it has loaded the tables. -/
def State.start (tables : Tables κ ρ) : State κ ρ := ⟨tables.state, tables, [], []⟩

inductive Label where
  | enqueue (runId : String) (accepts : Bool)
  | persist
  | write (call : Nat) (accepts : Bool)
  deriving DecidableEq

def LocalState.append (state : LocalState κ ρ) (runId : String) : LocalState κ ρ :=
  { state with pendingRunIds := state.pendingRunIds ++ [runId] }

/-- The section of an enqueue. -/
def State.enqueue (s : State κ ρ) (runId : String) (accepts : Bool) : State κ ρ :=
  if runId ∈ s.memory.pendingRunIds then { s with calls := s.calls ++ [⟨some runId, s.memory⟩] }
  else
    { s with
      memory := s.memory.append runId
      tables := replaceLocalRuntimeState accepts (s.memory.append runId) s.tables
      calls := s.calls ++ [⟨some runId, s.memory.append runId⟩] }

/-- An unknown run is not queued. -/
def step (store : RunStore) (s : State κ ρ) : Label → Option (State κ ρ)
  | .enqueue runId accepts => some (if runId ∈ store.ids then s.enqueue runId accepts else s)
  | .persist => some { s with calls := s.calls ++ [⟨none, s.memory⟩] }
  | .write i accepts =>
    (s.calls[i]?).map fun call =>
      { s with
        tables := replaceLocalRuntimeState accepts call.snapshot s.tables
        calls := s.calls.eraseIdx i
        accepted := s.accepted ++ call.runId.toList }

/-- A write lands, and its snapshot is what the memory still holds. -/
def Current (s : State κ ρ) : Label → Prop
  | .write i accepts => accepts ∧ ∀ call ∈ s.calls[i]?, call.snapshot = s.memory
  | _ => True

instance [DecidableEq κ] [DecidableEq ρ] (s : State κ ρ) : (l : Label) → Decidable (Current s l)
  | .write i accepts =>
    inferInstanceAs (Decidable (accepts ∧ ∀ call ∈ s.calls[i]?, call.snapshot = s.memory))
  | .enqueue .. | .persist => .isTrue trivial

/-- The tables hold what the memory holds, unless a call has still to write. -/
structure Sound (loaded : Tables κ ρ) (s : State κ ρ) : Prop where
  clean : s.memory.Clean
  distinct : s.memory.Distinct
  claimed : s.memory.claimedRuns = loaded.state.claimedRuns
  queued : ∀ call ∈ s.calls, ∀ id ∈ call.runId, id ∈ s.memory.pendingRunIds
  accepted : ∀ id ∈ s.accepted, id ∈ s.memory.pendingRunIds
  persisted : s.calls = [] → s.tables.state = s.memory

variable {store : RunStore} {loaded : Tables κ ρ} {s t : State κ ρ}

theorem sound_start : Sound loaded (State.start loaded) where
  clean := loaded.clean
  distinct := loaded.distinct
  claimed := rfl
  queued := by simp [State.start]
  accepted := by simp [State.start]
  persisted _ := rfl

theorem sound_enqueue {runId : String} (hid : runId ∈ store.ids) (accepts : Bool) (hs : Sound loaded s) :
    Sound loaded (s.enqueue runId accepts) := by
  unfold State.enqueue
  split_ifs with hmem
  · refine ⟨hs.clean, hs.distinct, hs.claimed, ?_, hs.accepted, fun h => by simp at h⟩
    simp only [List.mem_append, List.mem_singleton]
    rintro call (hcall | rfl) id hrun
    · exact hs.queued call hcall id hrun
    · exact Option.some.inj hrun ▸ hmem
  · have hgrow : ∀ id ∈ s.memory.pendingRunIds, id ∈ (s.memory.append runId).pendingRunIds :=
      fun id hid => List.mem_append_left _ hid
    refine ⟨⟨?_, hs.clean.claimed, hs.clean.registered⟩, ⟨?_, hs.distinct.2⟩, hs.claimed, ?_,
      fun id hid => hgrow id (hs.accepted id hid), fun h => by simp at h⟩
    · simp only [LocalState.append, List.mem_append, List.mem_singleton]
      rintro id (hpending | rfl)
      · exact hs.clean.pending id hpending
      · exact store.isId id hid
    · exact List.nodup_append.mpr ⟨hs.distinct.1, List.nodup_singleton _, by
        rintro id hpending _ hrun rfl
        exact hmem (List.mem_singleton.mp hrun ▸ hpending)⟩
    · simp only [List.mem_append, List.mem_singleton]
      rintro call (hcall | rfl) id hrun
      · exact hgrow id (hs.queued call hcall id hrun)
      · exact Option.some.inj hrun ▸ List.mem_append_right _ (List.mem_singleton_self _)

theorem replace_memory (hclean : s.memory.Clean) (hdistinct : s.memory.Distinct) :
    (replaceLocalRuntimeState true s.memory s.tables).state = s.memory := by
  rw [replaceLocalRuntimeState, dif_pos ⟨rfl, (rows_eq hclean).symm ▸ hdistinct⟩]
  exact rows_eq hclean

/-- One step leaves the tables at what the memory holds, but for the writes to come. -/
theorem sound_step (l : Label) (hs : Sound loaded s) (hl : Current s l) (hst : step store s l = some t) :
    Sound loaded t := by
  cases l with
  | enqueue runId accepts =>
    rw [step, Option.some.injEq] at hst
    split_ifs at hst with hid
    · exact hst ▸ sound_enqueue hid accepts hs
    · exact hst ▸ hs
  | persist =>
    rw [step, Option.some.injEq] at hst
    subst hst
    refine ⟨hs.clean, hs.distinct, hs.claimed, ?_, hs.accepted, fun h => by simp at h⟩
    simp only [List.mem_append, List.mem_singleton]
    rintro call (hcall | rfl) id hrun
    · exact hs.queued call hcall id hrun
    · exact absurd hrun (by simp)
  | write i accepts =>
    rw [step, Option.map_eq_some_iff] at hst
    obtain ⟨call, hcall, rfl⟩ := hst
    obtain ⟨rfl, hsnapshot⟩ := hl
    rw [hsnapshot call hcall]
    refine ⟨hs.clean, hs.distinct, hs.claimed, ?_, ?_, fun _ => replace_memory hs.clean hs.distinct⟩
    · exact fun other hother => hs.queued other (List.mem_of_mem_eraseIdx hother)
    · intro id hid
      rcases List.mem_append.mp hid with hid | hid
      · exact hs.accepted id hid
      · exact hs.queued call (List.mem_of_getElem? hcall) id (Option.mem_toList.mp hid)

/-- When every write lands while its snapshot is current, the tables hold the queue of the memory once
    all calls have ended, and no run that was accepted and no claim is lost. -/
theorem persisted_when_current (store : RunStore) (loaded : Tables κ ρ) (labels : List Label)
    (s : State κ ρ) (hrun : run (step store) (State.start loaded) labels = some s)
    (hcurrent : Meets (step store) Current (State.start loaded) labels) (hdone : s.calls = []) :
    s.tables.state = s.memory ∧ (∀ id ∈ s.accepted, id ∈ s.tables.state.pendingRunIds) ∧
      s.tables.state.claimedRuns = loaded.state.claimedRuns := by
  have hs : Sound loaded s :=
    run_inv (fun _ l _ hs hl hst => sound_step l hs hl hst) hcurrent sound_start hrun
  rw [hs.persisted hdone]
  exact ⟨rfl, hs.accepted, hs.claimed⟩

def twoRuns : RunStore := ⟨["r1", "r2"], by decide +kernel⟩

def emptyTables : Tables Unit Unit := ⟨⟨[], [], []⟩, ⟨by simp, by simp, by simp⟩, by decide⟩

theorem persisted_when_current_two : ∃ s,
    run (step twoRuns) (State.start emptyTables)
      [.enqueue "r1" true, .write 0 true, .enqueue "r2" true, .write 0 true] = some s ∧
    s.tables.state = s.memory ∧ s.memory.pendingRunIds = ["r1", "r2"] := by
  have hrun : (run (step twoRuns) (State.start emptyTables)
      [.enqueue "r1" true, .write 0 true, .enqueue "r2" true, .write 0 true]).map (fun s =>
        (s.calls.length, s.memory.pendingRunIds)) = some (0, ["r1", "r2"]) := by decide
  obtain ⟨s, hs, hlast⟩ := Option.map_eq_some_iff.mp hrun
  obtain ⟨hcalls, hpending⟩ := Prod.mk.inj hlast
  refine ⟨s, hs, (persisted_when_current _ _ _ s hs ?_ (List.length_eq_zero_iff.mp hcalls)).1, hpending⟩
  decide

/-- The first of two runs is written last, and the second is gone from the tables. -/
theorem older_snapshot_lands_last :
    (run (step twoRuns) (State.start emptyTables)
        [.enqueue "r1" true, .enqueue "r2" true, .write 1 true, .write 0 true]).map (fun s =>
      (s.calls.length, s.accepted, s.memory.pendingRunIds, s.tables.state.pendingRunIds)) =
    some (0, ["r2", "r1"], ["r1", "r2"], ["r1"]) := by
  decide

end Empyralis.Server.LocalRuntimeState
