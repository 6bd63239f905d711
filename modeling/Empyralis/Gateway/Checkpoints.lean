import Empyralis.Lib.Chain
import Empyralis.Lib.Run
import Empyralis.Lib.SerializedFile
import Mathlib.Data.Fintype.Basic
import Mathlib.Logic.Function.Basic

/-! `GatewayCheckpoints`: the gateway's checkpoint record, kept in `checkpoints.json` behind a
    debounced write, and the allocation of outbound sequence numbers from it.

    A `save` reads the file, merges its patch onto what it read and merges the result into the
    pending write, if there is one. The timer, or `flush`, hands the pending snapshot to `writeJson`,
    which awaits `ensureReady()` and then joins the chain of the file's writes. `allocateClientSeq`
    queues on the gate, seeds the mirror from disk the first time, and awaits a `save` of its own.
    One label is what happens between two awaits of one of these calls, so a run is an interleaving
    of any number of calls. `restart` ends the process and starts it again over the same file. -/

namespace Empyralis.Gateway.Checkpoints

/-- The health that a gateway reports. -/
inductive HealthState where
  | online | offline | reconnecting | degraded
  deriving DecidableEq

/-- The fields of `GatewayStateSnapshot`. -/
inductive Key where
  | lastAck | lastServerSeq | lastClientSeq | sessionId | sessionExpiresAt | healthState
  | lastDisconnectReason | lastOutboxError | lastRecoveryAt | resumeReady | pendingOutboxCount
  | uncertainOutboxCount | updatedAt
  deriving DecidableEq

/-- The fields of a snapshot. -/
def Key.all : List Key :=
  [.lastAck, .lastServerSeq, .lastClientSeq, .sessionId, .sessionExpiresAt, .healthState,
    .lastDisconnectReason, .lastOutboxError, .lastRecoveryAt, .resumeReady, .pendingOutboxCount,
    .uncertainOutboxCount, .updatedAt]

instance : Fintype Key := ⟨⟨Key.all, by decide⟩, fun f => by cases f <;> decide⟩

/-- The type of a field. -/
abbrev Key.Ty : Key → Type
  | .lastAck | .lastServerSeq | .lastClientSeq | .pendingOutboxCount | .uncertainOutboxCount => Int
  | .healthState => HealthState
  | .resumeReady => Bool
  | .sessionId | .sessionExpiresAt | .lastDisconnectReason | .lastOutboxError | .lastRecoveryAt
  | .updatedAt => String

instance : ∀ f : Key, DecidableEq f.Ty
  | .lastAck | .lastServerSeq | .lastClientSeq | .pendingOutboxCount | .uncertainOutboxCount =>
    inferInstanceAs (DecidableEq Int)
  | .healthState => inferInstanceAs (DecidableEq HealthState)
  | .resumeReady => inferInstanceAs (DecidableEq Bool)
  | .sessionId | .sessionExpiresAt | .lastDisconnectReason | .lastOutboxError | .lastRecoveryAt
  | .updatedAt => inferInstanceAs (DecidableEq String)

/-- A snapshot in memory: each key is absent, or `undefined`, or has a value. -/
abbrev Snapshot := (f : Key) → Option (Option f.Ty)

/-- A snapshot on disk; JSON has no `undefined`. -/
abbrev File := (f : Key) → Option f.Ty

/-- A patch that changes nothing. -/
def Snapshot.empty : Snapshot := fun _ => none

/-- `{ ...s, [f]: v }` -/
def Snapshot.set (s : Snapshot) (f : Key) (v : Option f.Ty) : Snapshot :=
  Function.update s f (some v)

/-- `{ ...base, ...patch }` -/
def spread (base patch : Snapshot) : Snapshot := fun f => (patch f).or (base f)

/-- The file as a snapshot; a field that it lacks is not set. -/
def parse (c : File) : Snapshot := fun f => (c f).map some

/-- `JSON.stringify` leaves out the keys that are `undefined`. -/
def stringify (s : Snapshot) : File := fun f => (s f).join

@[simp] theorem stringify_parse (c : File) (f : Key) : stringify (parse c) f = c f := by
  cases h : c f <;> simp [stringify, parse, h]

/-! ### State -/

/-- How far a save is. -/
inductive SaveStage where
  | loading
  | loaded (seen : File)
  | merged
  | failed

/-- A save: its patch, and how far it is. -/
structure Save where
  patch : Snapshot
  stage : SaveStage

def Save.isMerged (sv : Save) : Bool :=
  match sv.stage with
  | .merged => true
  | _ => false

/-- The promise of the save has settled. -/
def Save.isSettled (sv : Save) : Bool :=
  match sv.stage with
  | .merged | .failed => true
  | _ => false

/-- A call of `writeJson`: what it writes, and whether it has joined the chain of the file. -/
structure Write where
  content : File
  entered : Bool

/-- A call of `allocateClientSeq`. -/
inductive Alloc where
  | waiting
  | seeding (read : Option File)
  | saving (next : Int) (save : Nat)
  | returned (next : Int)
  | failed

def Alloc.isWaiting : Alloc → Bool
  | .waiting => true
  | _ => false

def Alloc.isSettled : Alloc → Bool
  | .returned _ | .failed => true
  | _ => false

/-- The number the call has drawn. -/
def Alloc.drawn : Alloc → Option Int
  | .saving n _ | .returned n => some n
  | _ => none

/-- `saves`, `writes` and `allocs` are the calls of the process so far, in the order in which they
    were made; `returned` are the numbers handed out so far, in earlier processes too. -/
structure State where
  file : SerializedFile File
  pending : Option Snapshot
  saves : List Save
  writes : List Write
  allocs : List Alloc
  lastKnownHealthState : HealthState
  lastKnownClientSeq : Option Int
  returned : List Int

/-- A process that starts over a file. -/
def start (content : File) (returned : List Int) : State where
  file := ⟨content, []⟩
  pending := none
  saves := []
  writes := []
  allocs := []
  lastKnownHealthState := .offline
  lastKnownClientSeq := none
  returned := returned

/-! ### Steps -/

/-- `Math.max(Number(snapshot.lastClientSeq ?? 0), 0)` -/
def seqOf (c : File) : Int := max ((c .lastClientSeq).getD 0) 0

/-- The patch of an allocation. -/
def seqPatch (next : Int) : Snapshot := Snapshot.empty.set .lastClientSeq (some next)

def State.setSave (s : State) (i : Nat) (sv : Save) : State := { s with saves := s.saves.set i sv }

def State.setAlloc (s : State) (j : Nat) (a : Alloc) : State :=
  { s with allocs := s.allocs.set j a }

/-- `save` up to its first await. -/
def State.save (s : State) (patch : Snapshot) : State :=
  { s with saves := s.saves ++ [⟨patch, .loading⟩] }

/-- What a save merges: `{ ...current, ...snapshot, updatedAt }`. -/
def mergedOf (seen : File) (patch : Snapshot) (now : String) : Snapshot :=
  (spread (parse seen) patch).set .updatedAt (some now)

/-- `debouncedWrite` -/
def debounced (pending : Option Snapshot) (merged : Snapshot) : Snapshot :=
  match pending with
  | none => merged
  | some existing => spread existing merged

/-- `save` from its read on. -/
def State.merge (s : State) (i : Nat) (patch : Snapshot) (seen : File) (now : String) : State :=
  let merged := mergedOf seen patch now
  { s with
    saves := s.saves.set i ⟨patch, .merged⟩
    pending := some (debounced s.pending merged)
    lastKnownHealthState := ((merged .healthState).join).getD s.lastKnownHealthState }

/-- The pending snapshot is handed to `writeJson`. -/
def State.issue (s : State) : State :=
  match s.pending with
  | none => s
  | some p => { s with pending := none, writes := s.writes ++ [⟨stringify p, false⟩] }

theorem issue_allocs (s : State) : s.issue.allocs = s.allocs := by
  unfold State.issue
  split <;> rfl

theorem issue_mirror (s : State) : s.issue.lastKnownClientSeq = s.lastKnownClientSeq := by
  unfold State.issue
  split <;> rfl

/-- The mirror moves on, and the save of the new number begins. -/
def State.draw (s : State) (j : Nat) (last : Int) : State :=
  { s with
    lastKnownClientSeq := some (last + 1)
    allocs := s.allocs.set j (.saving (last + 1) s.saves.length)
    saves := s.saves ++ [⟨seqPatch (last + 1), .loading⟩] }

inductive Label where
  | save (patch : Snapshot)
  | saveRead (i : Nat)
  | saveReadFail (i : Nat)
  | saveMerge (i : Nat) (now : String)
  | timer
  | flush
  | writeReady (k : Nat)
  | writeLand
  | writeFail
  | alloc
  | allocStart (j : Nat)
  | allocSeedRead (j : Nat)
  | allocSeedFail (j : Nat)
  | allocSeed (j : Nat)
  | allocReturn (j : Nat)
  | restart

/-- `saveHealthState` -/
def saveHealthState (healthState : HealthState) (snapshot : Snapshot) : Label :=
  .save (snapshot.set .healthState (some healthState))

/-- `markRecovered` -/
def markRecovered (snapshot : Snapshot) (now : String) : Label :=
  .save (((snapshot.set .resumeReady (some true)).set .lastRecoveryAt (some now)).set
    .lastDisconnectReason none)

def step (s : State) : Label → Option State
  | .save patch => some (s.save patch)
  | .saveRead i =>
    match s.saves[i]? with
    | some ⟨patch, .loading⟩ => some (s.setSave i ⟨patch, .loaded s.file.content⟩)
    | _ => none
  | .saveReadFail i =>
    match s.saves[i]? with
    | some ⟨patch, .loading⟩ => some (s.setSave i ⟨patch, .failed⟩)
    | _ => none
  | .saveMerge i now =>
    match s.saves[i]? with
    | some ⟨patch, .loaded seen⟩ => some (s.merge i patch seen now)
    | _ => none
  | .timer => if s.pending.isSome then some s.issue else none
  | .flush => some s.issue
  | .writeReady k =>
    match s.writes[k]? with
    | some ⟨c, false⟩ =>
      some { s with writes := s.writes.set k ⟨c, true⟩, file := s.file.join c }
    | _ => none
  | .writeLand => s.file.land.map fun f => { s with file := f }
  | .writeFail => s.file.drop.map fun f => { s with file := f }
  | .alloc => some { s with allocs := s.allocs ++ [.waiting] }
  | .allocStart j =>
    match s.allocs[j]? with
    | some .waiting =>
      if Chain.ready Alloc.isSettled s.allocs j then
        match s.lastKnownClientSeq with
        | none => some (s.setAlloc j (.seeding none))
        | some last => some (s.draw j last)
      else none
    | _ => none
  | .allocSeedRead j =>
    match s.allocs[j]? with
    | some (.seeding none) => some (s.setAlloc j (.seeding (some s.file.content)))
    | _ => none
  | .allocSeedFail j =>
    match s.allocs[j]? with
    | some (.seeding none) => some (s.setAlloc j .failed)
    | _ => none
  | .allocSeed j =>
    match s.allocs[j]? with
    | some (.seeding (some seen)) => some (s.draw j (seqOf seen))
    | _ => none
  | .allocReturn j =>
    match s.allocs[j]? with
    | some (.saving next i) =>
      if (s.saves[i]?).any Save.isSettled then
        some { s.setAlloc j (.returned next) with returned := s.returned ++ [next] }
      else none
    | _ => none
  | .restart => if s.pending.isNone then some (start s.file.content s.returned) else none

/-- What a step does, in the parts of the state that it changes. -/
inductive Moves (s : State) : Label → State → Prop
  | save (patch : Snapshot) : Moves s (.save patch) (s.save patch)
  | saveRead {i : Nat} {patch : Snapshot} (h : s.saves[i]? = some ⟨patch, .loading⟩) :
      Moves s (.saveRead i) (s.setSave i ⟨patch, .loaded s.file.content⟩)
  | saveReadFail {i : Nat} {patch : Snapshot} (h : s.saves[i]? = some ⟨patch, .loading⟩) :
      Moves s (.saveReadFail i) (s.setSave i ⟨patch, .failed⟩)
  | saveMerge {i : Nat} {now : String} {patch : Snapshot} {seen : File}
      (h : s.saves[i]? = some ⟨patch, .loaded seen⟩) :
      Moves s (.saveMerge i now) (s.merge i patch seen now)
  | timer : Moves s .timer s.issue
  | flush : Moves s .flush s.issue
  | writeReady {k : Nat} {c : File} (h : s.writes[k]? = some ⟨c, false⟩) :
      Moves s (.writeReady k) { s with writes := s.writes.set k ⟨c, true⟩, file := s.file.join c }
  | writeLand {f : SerializedFile File} (h : s.file.land = some f) :
      Moves s .writeLand { s with file := f }
  | writeFail {f : SerializedFile File} (h : s.file.drop = some f) :
      Moves s .writeFail { s with file := f }
  | alloc : Moves s .alloc { s with allocs := s.allocs ++ [.waiting] }
  | allocWait {j : Nat} (h : s.allocs[j]? = some .waiting)
      (hr : Chain.ready Alloc.isSettled s.allocs j) (hm : s.lastKnownClientSeq = none) :
      Moves s (.allocStart j) (s.setAlloc j (.seeding none))
  | allocStart {j : Nat} {last : Int} (h : s.allocs[j]? = some .waiting)
      (hr : Chain.ready Alloc.isSettled s.allocs j) (hm : s.lastKnownClientSeq = some last) :
      Moves s (.allocStart j) (s.draw j last)
  | allocSeedRead {j : Nat} (h : s.allocs[j]? = some (.seeding none)) :
      Moves s (.allocSeedRead j) (s.setAlloc j (.seeding (some s.file.content)))
  | allocSeedFail {j : Nat} (h : s.allocs[j]? = some (.seeding none)) :
      Moves s (.allocSeedFail j) (s.setAlloc j .failed)
  | allocSeed {j : Nat} {seen : File} (h : s.allocs[j]? = some (.seeding (some seen))) :
      Moves s (.allocSeed j) (s.draw j (seqOf seen))
  | allocReturn {j i : Nat} {next : Int} (h : s.allocs[j]? = some (.saving next i))
      (hs : (s.saves[i]?).any Save.isSettled) : Moves s (.allocReturn j)
        { s.setAlloc j (.returned next) with returned := s.returned ++ [next] }
  | restart (h : s.pending = none) : Moves s .restart (start s.file.content s.returned)

/-- Everything that a step can do. -/
theorem step_moves {s t : State} {l : Label} (h : step s l = some t) : Moves s l t := by
  cases l with
  | save patch =>
    rw [step, Option.some.injEq] at h
    exact h ▸ .save patch
  | saveRead i =>
    simp only [step] at h
    split at h <;> [skip; simp at h]
    rename_i hi
    exact Option.some.inj h ▸ .saveRead hi
  | saveReadFail i =>
    simp only [step] at h
    split at h <;> [skip; simp at h]
    rename_i hi
    exact Option.some.inj h ▸ .saveReadFail hi
  | saveMerge i now =>
    simp only [step] at h
    split at h <;> [skip; simp at h]
    rename_i hi
    exact Option.some.inj h ▸ .saveMerge hi
  | timer =>
    simp only [step] at h
    split at h <;> [skip; simp at h]
    exact Option.some.inj h ▸ .timer
  | flush =>
    rw [step, Option.some.injEq] at h
    exact h ▸ .flush
  | writeReady k =>
    simp only [step] at h
    split at h <;> [skip; simp at h]
    rename_i hk
    exact Option.some.inj h ▸ .writeReady hk
  | writeLand =>
    simp only [step, Option.map_eq_some_iff] at h
    obtain ⟨f, hf, rfl⟩ := h
    exact .writeLand hf
  | writeFail =>
    simp only [step, Option.map_eq_some_iff] at h
    obtain ⟨f, hf, rfl⟩ := h
    exact .writeFail hf
  | alloc =>
    rw [step, Option.some.injEq] at h
    exact h ▸ .alloc
  | allocStart j =>
    simp only [step] at h
    split at h <;> [skip; simp at h]
    rename_i hj
    split at h <;> [skip; simp at h]
    rename_i hr
    split at h <;> rename_i hm
    · exact Option.some.inj h ▸ .allocWait hj hr hm
    · exact Option.some.inj h ▸ .allocStart hj hr hm
  | allocSeedRead j =>
    simp only [step] at h
    split at h <;> [skip; simp at h]
    rename_i hj
    exact Option.some.inj h ▸ .allocSeedRead hj
  | allocSeedFail j =>
    simp only [step] at h
    split at h <;> [skip; simp at h]
    rename_i hj
    exact Option.some.inj h ▸ .allocSeedFail hj
  | allocSeed j =>
    simp only [step] at h
    split at h <;> [skip; simp at h]
    rename_i hj
    exact Option.some.inj h ▸ .allocSeed hj
  | allocReturn j =>
    simp only [step] at h
    split at h <;> [skip; simp at h]
    rename_i hj
    split at h <;> [skip; simp at h]
    rename_i hs
    exact Option.some.inj h ▸ .allocReturn hj hs
  | restart =>
    simp only [step] at h
    split at h <;> [skip; simp at h]
    rename_i hp
    exact Option.some.inj h ▸ .restart (Option.isNone_iff_eq_none.mp hp)

/-! ### The gate -/

theorem settled_not_waiting (a : Alloc) (h : a.isSettled) : ¬ a.isWaiting := by
  cases a <;> simp_all [Alloc.isSettled, Alloc.isWaiting]

/-- The calls of `allocateClientSeq` take turns, the mirror stays unseeded while one of them seeds
    it, and no number drawn is above the mirror. -/
structure Gate (s : State) : Prop where
  inTurn : Chain.InTurn Alloc.isWaiting Alloc.isSettled s.allocs
  seeding : ∀ (j : Nat) (read : Option File), s.allocs[j]? = some (.seeding read) →
    s.lastKnownClientSeq = none
  drawn : ∀ (j : Nat) (a : Alloc), s.allocs[j]? = some a → ∀ n ∈ a.drawn,
    ∃ m ∈ s.lastKnownClientSeq, n ≤ m

theorem gate_start (content : File) (returned : List Int) : Gate (start content returned) where
  inTurn := Chain.inTurn_nil
  seeding := by simp [start]
  drawn := by simp [start]

/-- A step that leaves the calls and the mirror alone. -/
theorem gate_same {s t : State} (h : Gate s) (ha : t.allocs = s.allocs)
    (hm : t.lastKnownClientSeq = s.lastKnownClientSeq) : Gate t where
  inTurn := ha ▸ h.inTurn
  seeding := fun j read hj => hm.trans (h.seeding j read (ha ▸ hj))
  drawn := fun j a hj n hn => hm ▸ h.drawn j a (ha ▸ hj) n hn

/-- One call moves to a stage in which it has drawn what it had drawn before. -/
theorem gate_setAlloc {s : State} {j : Nat} {a b : Alloc} (h : Gate s)
    (hj : s.allocs[j]? = some a) (hab : b.drawn = a.drawn)
    (hturn : Chain.InTurn Alloc.isWaiting Alloc.isSettled (s.allocs.set j b))
    (hseeding : ∀ read, b = .seeding read → s.lastKnownClientSeq = none) :
    Gate (s.setAlloc j b) where
  inTurn := hturn
  seeding := by
    intro k read hk
    rcases Chain.getElem?_set_cases hk with ⟨-, rfl⟩ | ⟨-, hk⟩
    · exact hseeding read rfl
    · exact h.seeding k read hk
  drawn := by
    intro k c hk n hn
    rcases Chain.getElem?_set_cases hk with ⟨-, rfl⟩ | ⟨-, hk⟩
    · exact h.drawn j a hj n (hab ▸ hn)
    · exact h.drawn k c hk n hn

/-- The call whose turn it is draws a number above the mirror. -/
theorem gate_draw {s : State} {j : Nat} {last : Int} (h : Gate s)
    (hturn : Chain.InTurn Alloc.isWaiting Alloc.isSettled
      (s.allocs.set j (.saving (last + 1) s.saves.length)))
    (hidle : ∀ (k : Nat) (b : Alloc), k ≠ j → s.allocs[k]? = some b → b.isWaiting ∨ b.isSettled)
    (hlast : ∀ m ∈ s.lastKnownClientSeq, m ≤ last) : Gate (s.draw j last) where
  inTurn := hturn
  seeding := by
    intro k read hk
    rcases Chain.getElem?_set_cases hk with ⟨-, heq⟩ | ⟨hkj, hk⟩
    · simp at heq
    · rcases hidle k _ (Ne.symm hkj) hk with hw | hs <;>
        simp [Alloc.isWaiting, Alloc.isSettled] at *
  drawn := by
    intro k c hk n hn
    refine ⟨last + 1, rfl, ?_⟩
    rcases Chain.getElem?_set_cases hk with ⟨-, rfl⟩ | ⟨-, hk⟩
    · obtain rfl : last + 1 = n := by simpa [Alloc.drawn] using hn
      exact le_refl _
    · obtain ⟨m, hm, hle⟩ := h.drawn k c hk n hn
      exact hle.trans ((hlast m hm).trans (by omega))

/-- While one call is in progress the others wait or have settled. -/
theorem gate_alone {s : State} {j : Nat} {a : Alloc} (h : Gate s) (hj : s.allocs[j]? = some a)
    (ha : ¬ a.isWaiting ∧ ¬ a.isSettled) (k : Nat) (b : Alloc) (hkj : k ≠ j)
    (hk : s.allocs[k]? = some b) : b.isWaiting ∨ b.isSettled := by
  by_contra hb
  rw [not_or] at hb
  exact hkj (Chain.busy_unique h.inTurn hj ha hk hb).symm

/-- One step keeps the turns of those who wait for a number. -/
theorem gate_step {s t : State} {l : Label} (h : Gate s) (hst : step s l = some t) : Gate t := by
  cases step_moves hst with
  | save _ => exact gate_same h rfl rfl
  | saveRead _ => exact gate_same h rfl rfl
  | saveReadFail _ => exact gate_same h rfl rfl
  | saveMerge _ => exact gate_same h rfl rfl
  | timer => exact gate_same h (issue_allocs s) (issue_mirror s)
  | flush => exact gate_same h (issue_allocs s) (issue_mirror s)
  | writeReady _ => exact gate_same h rfl rfl
  | writeLand _ => exact gate_same h rfl rfl
  | writeFail _ => exact gate_same h rfl rfl
  | alloc =>
    refine ⟨Chain.inTurn_queue h.inTurn rfl, fun j read hj => ?_, fun j a hj n hn => ?_⟩
    · rcases Chain.getElem?_snoc_cases hj with hj | ⟨-, heq⟩
      · exact h.seeding j read hj
      · simp at heq
    · rcases Chain.getElem?_snoc_cases hj with hj | ⟨-, rfl⟩
      · exact h.drawn j a hj n hn
      · simp [Alloc.drawn] at hn
  | allocWait hj hr hm =>
    exact gate_setAlloc h hj rfl (Chain.inTurn_start settled_not_waiting h.inTurn hj rfl hr)
      fun _ _ => hm
  | allocStart hj hr hm =>
    refine gate_draw h (Chain.inTurn_start settled_not_waiting h.inTurn hj rfl hr)
      (fun k b _ hk => Chain.ready_idle settled_not_waiting h.inTurn hj rfl hr hk) fun m hmem => ?_
    rw [hm, Option.mem_some_iff] at hmem
    exact hmem ▸ le_refl _
  | allocSeedRead hj =>
    exact gate_setAlloc h hj rfl (Chain.inTurn_step h.inTurn hj (by simp [Alloc.isWaiting])
      (by simp [Alloc.isSettled])) fun _ _ => h.seeding _ _ hj
  | allocSeedFail hj =>
    exact gate_setAlloc h hj rfl (Chain.inTurn_step h.inTurn hj (by simp [Alloc.isWaiting])
      (by simp [Alloc.isSettled])) fun _ hb => by simp at hb
  | @allocSeed j seen hj =>
    have hbusy : ¬ (Alloc.seeding (some seen)).isWaiting ∧
        ¬ (Alloc.seeding (some seen)).isSettled := by simp [Alloc.isWaiting, Alloc.isSettled]
    refine gate_draw h (Chain.inTurn_step h.inTurn hj hbusy.1 hbusy.2) (gate_alone h hj hbusy) ?_
    simp [h.seeding _ _ hj]
  | @allocReturn j i next hj _ =>
    have hset : Gate (s.setAlloc j (.returned next)) :=
      gate_setAlloc h hj rfl (Chain.inTurn_step h.inTurn hj (by simp [Alloc.isWaiting])
        (by simp [Alloc.isSettled])) fun _ hb => by simp at hb
    exact gate_same hset rfl rfl
  | restart _ => exact gate_start _ _

/-- What the steps of one process keep for those who wait for a number: the mirror does not go back,
    and a number drawn is above what the mirror was. -/
structure Advance (s t : State) : Prop where
  mirror : ∀ m ∈ s.lastKnownClientSeq, ∃ m' ∈ t.lastKnownClientSeq, m ≤ m'
  drawn : ∀ (j : Nat) (a : Alloc), s.allocs[j]? = some a → ∃ b, t.allocs[j]? = some b ∧
    ∀ n ∈ b.drawn, n ∈ a.drawn ∨ ∀ m ∈ s.lastKnownClientSeq, m < n

theorem advance_same {s t : State} (ha : t.allocs = s.allocs)
    (hm : t.lastKnownClientSeq = s.lastKnownClientSeq) : Advance s t where
  mirror := fun m hmem => ⟨m, hm ▸ hmem, le_refl _⟩
  drawn := fun _ a hj => ⟨a, ha ▸ hj, fun _ hn => Or.inl hn⟩

theorem advance_setAlloc {s : State} {j : Nat} {a b : Alloc} (hj : s.allocs[j]? = some a)
    (hab : b.drawn = a.drawn) : Advance s (s.setAlloc j b) where
  mirror := fun m hmem => ⟨m, hmem, le_refl _⟩
  drawn := by
    intro k c hk
    rcases Chain.getElem?_set_of b hj hk with ⟨-, rfl, hset⟩ | ⟨-, hset⟩
    · exact ⟨b, hset, fun n hn => Or.inl (hab ▸ hn)⟩
    · exact ⟨c, hset, fun n hn => Or.inl hn⟩

theorem advance_draw {s : State} {j : Nat} {a : Alloc} {last : Int} (hj : s.allocs[j]? = some a)
    (hlast : ∀ m ∈ s.lastKnownClientSeq, m ≤ last) : Advance s (s.draw j last) where
  mirror := fun m hmem => ⟨last + 1, rfl, (hlast m hmem).trans (by omega)⟩
  drawn := by
    intro k c hk
    rcases Chain.getElem?_set_of (.saving (last + 1) s.saves.length) hj hk with
      ⟨-, -, hset⟩ | ⟨-, hset⟩
    · refine ⟨_, hset, fun n hn => Or.inr fun m hmem => ?_⟩
      obtain rfl : last + 1 = n := by simpa [Alloc.drawn] using hn
      exact (hlast m hmem).trans_lt (by omega)
    · exact ⟨c, hset, fun n hn => Or.inl hn⟩

/-- But for a restart the mirror does not go back, and what is drawn is above it. -/
theorem step_advance {s t : State} {l : Label} (g : Gate s) (hst : step s l = some t)
    (hl : l ≠ .restart) : Advance s t := by
  cases step_moves hst with
  | save _ => exact advance_same rfl rfl
  | saveRead _ => exact advance_same rfl rfl
  | saveReadFail _ => exact advance_same rfl rfl
  | saveMerge _ => exact advance_same rfl rfl
  | timer => exact advance_same (issue_allocs s) (issue_mirror s)
  | flush => exact advance_same (issue_allocs s) (issue_mirror s)
  | writeReady _ => exact advance_same rfl rfl
  | writeLand _ => exact advance_same rfl rfl
  | writeFail _ => exact advance_same rfl rfl
  | alloc =>
    exact ⟨fun m hmem => ⟨m, hmem, le_refl _⟩,
      fun j a hj => ⟨a, Chain.getElem?_snoc_of _ hj, fun n hn => Or.inl hn⟩⟩
  | allocWait hj _ _ => exact advance_setAlloc hj rfl
  | allocStart hj _ hm =>
    refine advance_draw hj fun m hmem => ?_
    rw [hm, Option.mem_some_iff] at hmem
    exact hmem ▸ le_refl _
  | allocSeedRead hj => exact advance_setAlloc hj rfl
  | allocSeedFail hj => exact advance_setAlloc hj rfl
  | allocSeed hj => exact advance_draw hj (by simp [g.seeding _ _ hj])
  | @allocReturn j i next hj _ =>
    have hset : Advance s (s.setAlloc j (.returned next)) := advance_setAlloc hj rfl
    exact ⟨hset.mirror, hset.drawn⟩
  | restart _ => exact absurd rfl hl

/-! ### Runs -/

/-- Every call has ended and every write has landed. -/
structure Quiet (s : State) : Prop where
  pending : s.pending = none
  saves : ∀ sv ∈ s.saves, sv.isSettled
  writes : ∀ w ∈ s.writes, w.entered
  lane : s.file.lane = []

/-- The newest snapshot, as it is stored: the pending one, or the last one handed to `writeJson`, or
    what the file holds. -/
def State.newest (s : State) : File :=
  match s.pending with
  | some p => stringify p
  | none => ((s.writes.map (·.content)).getLast?).getD s.file.latest

end Empyralis.Gateway.Checkpoints
