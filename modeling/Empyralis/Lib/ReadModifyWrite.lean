import Empyralis.Lib.Chain
import Empyralis.Lib.Run
import Empyralis.Lib.SerializedFile
import Mathlib.Data.List.Perm.Basic

/-! Asynchronous read-modify-write operations on one file.

    Each call reads the file, computes the next content from what it read, waits once more and hands
    the result to the file's chain of writes. Only the writes are serialized, so between the read
    and the write of one call any number of steps of other calls may happen. A call may also decide
    to write nothing.

    `serial_of_fresh` is the rule for such a store: if every write joins the chain while the newest
    content is the one its call had read, the outcome is that of the same operations run one after
    another. -/

namespace Empyralis.ReadModifyWrite

open Empyralis.Run

/-- How far a call is. -/
inductive Stage (χ : Type*) where
  | reading
  | loaded (seen : χ)
  | writing (seen next : χ)
  | done
  deriving DecidableEq

/-- A call with its operation. -/
structure Call (χ ω : Type*) where
  op : ω
  stage : Stage χ

/-- The file with its queue of writes, and the calls. -/
structure State (χ ω : Type*) where
  file : SerializedFile χ
  calls : List (Call χ ω)

/-- A step of a call, or a write that lands. -/
inductive Label (ω : Type*) where
  | call (op : ω)
  | read (i : Nat)
  | compute (i : Nat)
  | join (i : Nat)
  | land

variable {χ ω : Type*} (body : ω → χ → Option χ)

def State.start (c : χ) : State χ ω := ⟨⟨c, []⟩, []⟩

def State.setStage (s : State χ ω) (i : Nat) (op : ω) (st : Stage χ) : State χ ω :=
  { s with calls := s.calls.set i ⟨op, st⟩ }

/-- One step of one call, or of the file. -/
def step (s : State χ ω) : Label ω → Option (State χ ω)
  | .call op => some { s with calls := s.calls ++ [⟨op, .reading⟩] }
  | .read i =>
    match s.calls[i]? with
    | some ⟨op, .reading⟩ => some (s.setStage i op (.loaded s.file.content))
    | _ => none
  | .compute i =>
    match s.calls[i]? with
    | some ⟨op, .loaded seen⟩ =>
      match body op seen with
      | none => some (s.setStage i op .done)
      | some next => some (s.setStage i op (.writing seen next))
    | _ => none
  | .join i =>
    match s.calls[i]? with
    | some ⟨op, .writing _ next⟩ => some { s.setStage i op .done with file := s.file.join next }
    | _ => none
  | .land => s.file.land.map fun f => { s with file := f }

/-- All calls have ended and all their writes have landed. -/
def Quiescent (s : State χ ω) : Prop :=
  s.file.lane = [] ∧ ∀ c ∈ s.calls, c.stage = .done

/-- A write joins the chain only while the newest content is the one its call had read. -/
def Fresh (s : State χ ω) : Label ω → Prop
  | .join i =>
    match s.calls[i]? with
    | some ⟨_, .writing seen _⟩ => s.file.latest = seen
    | _ => True
  | _ => True

instance [DecidableEq χ] (s : State χ ω) : (l : Label ω) → Decidable (Fresh s l)
  | .join i => by unfold Fresh; dsimp only; split <;> infer_instance
  | .call _ | .read _ | .compute _ | .land => .isTrue trivial

/-- The operation run on its own. -/
def perform (content : χ) (op : ω) : χ := (body op content).getD content

/-! ### Contents explained by a serial order -/

/-- `v` is the content at some moment of the serial run of `os`. -/
def Reached (init : χ) (os : List ω) (v : χ) : Prop :=
  ∃ pre post, os = pre ++ post ∧ pre.foldl (perform body) init = v

variable {body} {init v w : χ} {os : List ω} {op : ω}

theorem reached_last : Reached body init os (os.foldl (perform body) init) := ⟨os, [], by simp, rfl⟩

theorem reached_snoc (h : Reached body init os v) : Reached body init (os ++ [op]) v := by
  obtain ⟨pre, post, rfl, hv⟩ := h
  exact ⟨pre, post ++ [op], by simp, hv⟩

/-- An operation that writes nothing on `v` fits into the serial run wherever `v` was the content,
    and the rest of the run goes on as before. -/
theorem reached_insert (hv : Reached body init os v) (hop : body op v = none) :
    ∃ os', os'.Perm (op :: os) ∧ os'.foldl (perform body) init = os.foldl (perform body) init ∧
      ∀ w, Reached body init os w → Reached body init os' w := by
  obtain ⟨pre, post, rfl, hpre⟩ := hv
  have hstay : perform body v op = v := by simp [perform, hop]
  refine ⟨pre ++ op :: post, List.perm_middle, ?_, ?_⟩
  · simp [hpre, hstay]
  · rintro w ⟨p, q, hpq, rfl⟩
    rcases List.append_eq_append_iff.mp hpq with ⟨m, rfl, rfl⟩ | ⟨m, rfl, rfl⟩
    · exact ⟨pre ++ op :: m, q, by simp, by simp [hpre, hstay]⟩
    · exact ⟨p, m ++ op :: post, by simp, rfl⟩

/-! ### The invariant of a run -/

def Stage.seen : Stage χ → Option χ
  | .loaded c => some c
  | .writing c _ => some c
  | _ => none

def Call.isDone (c : Call χ ω) : Bool :=
  match c.stage with
  | .done => true
  | _ => false

/-- The operations of the calls that have ended or whose write has joined the chain. -/
def ended (calls : List (Call χ ω)) : List ω := (calls.filter Call.isDone).map (·.op)

variable (body init) in
/-- Some serial order of the ended operations yields the newest content and passes through every
    content that a reader holds or may still read. -/
structure Explained (s : State χ ω) (os : List ω) : Prop where
  perm : os.Perm (ended s.calls)
  latest : os.foldl (perform body) init = s.file.latest
  content : Reached body init os s.file.content
  lane : ∀ v ∈ s.file.lane, Reached body init os v
  seen : ∀ c ∈ s.calls, ∀ v ∈ c.stage.seen, Reached body init os v
  next : ∀ c ∈ s.calls, ∀ v n, c.stage = .writing v n → body c.op v = some n

theorem ended_keep {calls : List (Call χ ω)} {i : Nat} {c d : Call χ ω} (hi : calls[i]? = some c)
    (hc : c.isDone = false) (hd : d.isDone = false) : ended (calls.set i d) = ended calls := by
  rw [ended, Chain.filter_keep hi hc hd, ended]

theorem ended_set {calls : List (Call χ ω)} {i : Nat} {c d : Call χ ω} (hi : calls[i]? = some c)
    (hc : c.isDone = false) (hd : d.isDone = true) :
    (ended (calls.set i d)).Perm (d.op :: ended calls) := by
  rw [ended, ended, Chain.filter_set _ d hi, Chain.filter_split _ hi, hc, hd]
  simp

theorem explained_start (c : χ) : Explained body c (State.start c : State χ ω) [] where
  perm := List.Perm.nil
  latest := rfl
  content := reached_last
  lane := by simp [State.start]
  seen := by simp [State.start]
  next := by simp [State.start]

/-- A call moves on without ending: the serial order stays. -/
theorem explained_move {s : State χ ω} {i : Nat} {st st' : Stage χ}
    (h : Explained body init s os) (hi : s.calls[i]? = some ⟨op, st⟩) (hst : st ≠ .done)
    (hst' : st' ≠ .done) (hseen : ∀ v ∈ st'.seen, Reached body init os v)
    (hnext : ∀ v n, st' = .writing v n → body op v = some n) :
    Explained body init (s.setStage i op st') os where
  perm := by
    have hd : (⟨op, st⟩ : Call χ ω).isDone = false := by cases st <;> simp_all [Call.isDone]
    have hd' : (⟨op, st'⟩ : Call χ ω).isDone = false := by cases st' <;> simp_all [Call.isDone]
    rw [State.setStage, ended_keep hi hd hd']
    exact h.perm
  latest := h.latest
  content := h.content
  lane := h.lane
  seen := by
    intro c hc v hv
    rcases List.mem_or_eq_of_mem_set hc with hc | rfl
    · exact h.seen c hc v hv
    · exact hseen v hv
  next := by
    intro c hc v n hcv
    rcases List.mem_or_eq_of_mem_set hc with hc | rfl
    · exact h.next c hc v n hcv
    · exact hnext v n hcv

/-- A call ends, with or without a write, and the serial order is extended by its operation. -/
theorem explained_end {s : State χ ω} {i : Nat} {st : Stage χ} {os' : List ω}
    {file : SerializedFile χ} (h : Explained body init s os) (hi : s.calls[i]? = some ⟨op, st⟩)
    (hst : st ≠ .done) (hperm : os'.Perm (op :: os))
    (hmono : ∀ w, Reached body init os w → Reached body init os' w)
    (hlatest : os'.foldl (perform body) init = file.latest) (hcontent : file.content = s.file.content)
    (hlane : ∀ v ∈ file.lane, v ∈ s.file.lane ∨ v = file.latest) :
    Explained body init { s.setStage i op .done with file := file } os' where
  perm := by
    have hd : (⟨op, st⟩ : Call χ ω).isDone = false := by cases st <;> simp_all [Call.isDone]
    have hended : (ended (s.calls.set i ⟨op, .done⟩)).Perm (op :: ended s.calls) :=
      ended_set hi hd rfl
    exact hperm.trans ((h.perm.cons op).trans hended.symm)
  latest := hlatest
  content := hcontent ▸ hmono _ h.content
  lane := by
    intro v hv
    rcases hlane v hv with hv | rfl
    · exact hmono v (h.lane v hv)
    · exact hlatest ▸ reached_last
  seen := by
    intro c hc v hv
    rcases List.mem_or_eq_of_mem_set hc with hc | rfl
    · exact hmono v (h.seen c hc v hv)
    · simp [Stage.seen] at hv
  next := by
    intro c hc v n hcv
    rcases List.mem_or_eq_of_mem_set hc with hc | rfl
    · exact h.next c hc v n hcv
    · simp at hcv

/-- One step keeps the file explained by a sequence of whole operations. -/
theorem explained_step {s t : State χ ω} {l : Label ω} (h : ∃ os, Explained body init s os)
    (hf : Fresh s l) (hst : step body s l = some t) : ∃ os, Explained body init t os := by
  obtain ⟨os, h⟩ := h
  cases l with
  | call op =>
    simp only [step, Option.some.injEq] at hst
    subst hst
    refine ⟨os, ⟨?_, h.latest, h.content, h.lane, ?_, ?_⟩⟩
    · simpa [ended, Call.isDone] using h.perm
    · intro c hc v hv
      rcases List.mem_append.mp hc with hc | hc
      · exact h.seen c hc v hv
      · simp_all [Stage.seen]
    · intro c hc v n hcv
      rcases List.mem_append.mp hc with hc | hc
      · exact h.next c hc v n hcv
      · simp_all
  | read i =>
    simp only [step] at hst
    split at hst <;> [skip; simp at hst]
    rename_i op hi
    rw [Option.some.injEq] at hst
    subst hst
    refine ⟨os, explained_move h hi (by simp) (by simp) ?_ (by simp)⟩
    rintro v hv
    obtain rfl : s.file.content = v := by simpa [Stage.seen] using hv
    exact h.content
  | compute i =>
    simp only [step] at hst
    split at hst <;> [skip; simp at hst]
    rename_i op seen hi
    have hseen : Reached body init os seen :=
      h.seen _ (List.mem_of_getElem? hi) seen (by simp [Stage.seen])
    split at hst <;> rw [Option.some.injEq] at hst <;> subst hst
    · -- nothing to write: the operation fits in where its reader found the content
      rename_i hbody
      obtain ⟨os', hperm, hlast, hmono⟩ := reached_insert hseen hbody
      exact ⟨os', explained_end h hi (by simp) hperm hmono (hlast.trans h.latest) rfl
        (fun v hv => Or.inl hv)⟩
    · rename_i next hbody
      refine ⟨os, explained_move h hi (by simp) (by simp) ?_ ?_⟩
      · rintro v hv
        obtain rfl : seen = v := by simpa [Stage.seen] using hv
        exact hseen
      · rintro v n hvn
        obtain ⟨rfl, rfl⟩ : seen = v ∧ next = n := by simpa using hvn
        exact hbody
  | join i =>
    simp only [step] at hst
    split at hst <;> [skip; simp at hst]
    rename_i op seen next hi
    rw [Option.some.injEq] at hst
    subst hst
    have hfresh : s.file.latest = seen := by simpa [Fresh, hi] using hf
    have hbody : body op seen = some next := h.next _ (List.mem_of_getElem? hi) seen next rfl
    refine ⟨os ++ [op], explained_end h hi (by simp) (List.perm_append_singleton op os)
      (fun _ => reached_snoc) ?_ rfl ?_⟩
    · rw [List.foldl_append, h.latest, hfresh]
      simp [perform, hbody]
    · intro v hv
      rw [SerializedFile.latest_join]
      exact SerializedFile.mem_join.mp hv
  | land =>
    simp only [step, Option.map_eq_some_iff] at hst
    obtain ⟨f, hf, rfl⟩ := hst
    have hl := SerializedFile.land_eq_some hf
    refine ⟨os, ⟨h.perm, ?_, ?_, ?_, h.seen, h.next⟩⟩
    · rw [SerializedFile.latest_land hf, h.latest]
    · exact h.lane _ (by simp [hl])
    · exact fun v hv => h.lane v (by simp [hl, hv])

theorem ended_all {calls : List (Call χ ω)} (h : ∀ c ∈ calls, c.stage = .done) :
    ended calls = calls.map (·.op) := by
  rw [ended, List.filter_eq_self.mpr]
  intro c hc
  simp [Call.isDone, h c hc]

/-- If every write joins the chain while the newest content is the one its call had read, then once
    everything has ended the file holds the result of the same operations, run one after another in
    some order. -/
theorem serial_of_fresh {s : State χ ω} {ls : List (Label ω)}
    (hm : Meets (step body) Fresh (State.start init) ls)
    (h : run (step body) (State.start init) ls = some s) (hq : Quiescent s) :
    ∃ os : List ω, os.Perm (s.calls.map (·.op)) ∧ s.file.content = os.foldl (perform body) init := by
  obtain ⟨os, he⟩ : ∃ os, Explained body init s os :=
    run_inv (fun _ _ _ hi hc hst => explained_step hi hc hst) hm ⟨[], explained_start init⟩ h
  refine ⟨os, ended_all hq.2 ▸ he.perm, ?_⟩
  rw [he.latest, SerializedFile.latest_idle hq.1]

end Empyralis.ReadModifyWrite
