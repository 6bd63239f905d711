import Empyralis.Lib.Chain
import Empyralis.Lib.Run
import Mathlib.Algebra.GroupWithZero.Nat
import Mathlib.Data.List.Basic
import Mathlib.Logic.Function.Basic

/-! `GatewayJournal`: cursors drawn from a cached number, and a file that is archived when it has
    grown large.

    A step is what one call does between two awaits, or one access to the file system. `append` and
    `lastCursor` calls run at the same time in any number. A line of the journal is its cursor, its
    length in bytes and the call that appended it; the lines that the journal starts with have none. -/

namespace Empyralis.Gateway.Journal

/-- A line of the journal; its origin is the append that wrote it, if one of the run did. -/
structure Line where
  cursor : ℕ
  bytes : ℕ
  origin : Option ℕ
  deriving DecidableEq

/-- `MAX_JOURNAL_BYTES` -/
def maxJournalBytes : ℕ := 100 * 1024 * 1024

/-- Where a call is. `scanning` to `found` are the stages of `durableLastCursor`, `measuring` to
    `truncating` those of `maybeRotate`; an archive goes by the time in its name. -/
inductive Stage where
  | scanning
  | scanned (last : ℕ)
  | found (last : ℕ)
  | measuring
  | reading (path : ℕ)
  | archiving (path : ℕ) (contents : List Line)
  | truncating (path : ℕ) (contents : List Line)
  | writing
  | done
  | failed
  | answered (last : ℕ)
  deriving DecidableEq

/-- A call, an `append` of a line of so many bytes or a `lastCursor`. `before` are the cursors of the
    entries that were finished when it started. -/
structure Call where
  bytes : Option ℕ
  before : List ℕ
  cursor : Option ℕ
  stage : Stage
  deriving DecidableEq

/-- `old` are the lines that the journal started with. -/
structure State where
  lastKnownCursor : ℕ
  file : Option (List Line)
  archives : ℕ → Option (List Line)
  calls : List Call
  old : List Line

def start (file : Option (List Line)) : State where
  lastKnownCursor := 0
  file := file
  archives := fun _ => none
  calls := []
  old := file.getD []

/-- The scan of `durableLastCursor`: the last line with a cursor. -/
def scan (file : Option (List Line)) : ℕ :=
  (((file.getD []).reverse.find? (0 < ·.cursor)).map (·.cursor)).getD 0

/-- The bytes of a file. -/
def size (lines : List Line) : ℕ := (lines.map (·.bytes)).sum

/-- The cursors of the entries that have been appended. -/
def State.finished (s : State) : List ℕ :=
  s.calls.filterMap fun c => if c.stage = .done then c.cursor else none

def State.setStage (s : State) (i : ℕ) (c : Call) (stage : Stage) : State :=
  { s with calls := s.calls.set i { c with stage := stage } }

/-- A call starts and runs up to its first await. -/
def State.call (s : State) (bytes : Option ℕ) : State :=
  { s with calls := s.calls ++ [{
      bytes := bytes
      before := s.old.map (·.cursor) ++ s.finished
      cursor := none
      stage := if 0 < s.lastKnownCursor then .found s.lastKnownCursor else .scanning }] }

/-- `durableLastCursor` keeps what it has read off the file. -/
def State.cache (s : State) (i : ℕ) (c : Call) (last : ℕ) : State :=
  { s with
    lastKnownCursor := last
    calls := s.calls.set i { c with stage := .found last } }

/-- What `append` does once it has the last cursor. -/
def State.take (s : State) (i : ℕ) (c : Call) (last : ℕ) : State :=
  { s with
    lastKnownCursor := last + 1
    calls := s.calls.set i { c with cursor := some (last + 1), stage := .measuring } }

/-- The lines as they were read go to an archive. -/
def State.archive (s : State) (i : ℕ) (c : Call) (path : ℕ) (contents : List Line) : State :=
  { s with
    archives := Function.update s.archives path (some contents)
    calls := s.calls.set i { c with stage := .truncating path contents } }

/-- The file is emptied, whatever it holds by now. -/
def State.truncate (s : State) (i : ℕ) (c : Call) : State :=
  { s with
    file := some []
    calls := s.calls.set i { c with stage := .writing } }

/-- The line that a call appends. -/
def Call.line (c : Call) (i : ℕ) : Line := ⟨c.cursor.getD 0, c.bytes.getD 0, some i⟩

/-- The line of an append goes to the end of the file. -/
def State.write (s : State) (i : ℕ) (c : Call) (stage : Stage) : State :=
  { s with
    file := some (s.file.getD [] ++ [c.line i])
    calls := s.calls.set i { c with stage := stage } }

/-- `scan` to `truncate` come with whether the file system answers; `now` is the time in the name of
    the archive. An append may be rejected with its line in the file or without. -/
inductive Label where
  | call (bytes : Option ℕ)
  | scan (i : ℕ) (ok : Bool)
  | cache (i : ℕ)
  | take (i : ℕ)
  | measure (i : ℕ) (now : ℕ) (ok : Bool)
  | read (i : ℕ) (ok : Bool)
  | archive (i : ℕ) (ok : Bool)
  | truncate (i : ℕ) (ok : Bool)
  | write (i : ℕ)
  | reject (i : ℕ) (landed : Bool)

def State.stageOf (s : State) (i : ℕ) : Option (Call × Stage) :=
  (s.calls[i]?).map fun c => (c, c.stage)

def step (s : State) : Label → Option State
  | .call bytes => some (s.call bytes)
  | .scan i ok =>
    match s.stageOf i with
    | some (c, .scanning) => some (s.setStage i c (.scanned (if ok then scan s.file else 0)))
    | _ => none
  | .cache i =>
    match s.stageOf i with
    | some (c, .scanned last) => some (s.cache i c last)
    | _ => none
  | .take i =>
    match s.stageOf i with
    | some (c, .found last) =>
      if c.bytes = none then some (s.setStage i c (.answered last)) else some (s.take i c last)
    | _ => none
  | .measure i now ok =>
    match s.stageOf i with
    | some (c, .measuring) =>
      if ok ∧ maxJournalBytes ≤ size (s.file.getD []) then some (s.setStage i c (.reading now))
      else some (s.setStage i c .writing)
    | _ => none
  | .read i ok =>
    match s.stageOf i with
    | some (c, .reading path) =>
      match s.file, ok with
      | some lines, true => some (s.setStage i c (.archiving path lines))
      | _, _ => some (s.setStage i c .writing)
    | _ => none
  | .archive i ok =>
    match s.stageOf i with
    | some (c, .archiving path contents) =>
      if ok then some (s.archive i c path contents) else some (s.setStage i c .writing)
    | _ => none
  | .truncate i ok =>
    match s.stageOf i with
    | some (c, .truncating _ _) =>
      if ok then some (s.truncate i c) else some (s.setStage i c .writing)
    | _ => none
  | .write i =>
    match s.stageOf i with
    | some (c, .writing) => some (s.write i c .done)
    | _ => none
  | .reject i landed =>
    match s.stageOf i with
    | some (c, .writing) =>
      if landed then some (s.write i c .failed) else some (s.setStage i c .failed)
    | _ => none

/-! ### The steps on which the journal relies -/

/-- A cursor is taken while the one that the call found is still the largest; an archive is written
    under a name of its own; and the journal is cut off while it holds nothing but what was read. -/
def Safe (s : State) : Label → Prop
  | .take i =>
    match s.stageOf i with
    | some (_, .found last) =>
      (∀ line ∈ s.old, line.cursor ≤ last) ∧ ∀ d ∈ s.calls, ∀ n ∈ d.cursor, n ≤ last
    | _ => True
  | .archive i _ =>
    match s.stageOf i with
    | some (_, .archiving path _) => s.archives path = none
    | _ => True
  | .truncate i _ =>
    match s.stageOf i with
    | some (_, .truncating _ contents) => ∀ line ∈ s.file.getD [], line ∈ contents
    | _ => True
  | _ => True

instance (s : State) : (l : Label) → Decidable (Safe s l)
  | .take i => by unfold Safe; dsimp only; split <;> infer_instance
  | .archive i _ => by unfold Safe; dsimp only; split <;> infer_instance
  | .truncate i _ => by unfold Safe; dsimp only; split <;> infer_instance
  | .call _ | .scan _ _ | .cache _ | .measure _ _ _ | .read _ _ | .write _ | .reject _ _ =>
    .isTrue trivial

/-- The call has not taken a cursor yet. -/
def Stage.early : Stage → Bool
  | .scanning | .scanned _ | .found _ => true
  | _ => false

/-- What a safe step does. In a `pass` nothing but the stage of one call changes. -/
inductive Moves (s : State) : State → Prop
  | call (bytes : Option ℕ) : Moves s (s.call bytes)
  | pass {i : ℕ} {c : Call} {stage : Stage} (hi : s.calls[i]? = some c)
      (hearly : stage.early → c.stage.early) (hdone : stage ≠ .done)
      (htruncating : ∀ path contents, stage ≠ .truncating path contents) :
      Moves s (s.setStage i c stage)
  | cache {i : ℕ} {c : Call} {last : ℕ} (hi : s.calls[i]? = some c)
      (hc : c.stage = .scanned last) : Moves s (s.cache i c last)
  | take {i : ℕ} {c : Call} {last : ℕ} (hi : s.calls[i]? = some c) (hc : c.stage = .found last)
      (hold : ∀ line ∈ s.old, line.cursor ≤ last)
      (hgiven : ∀ d ∈ s.calls, ∀ n ∈ d.cursor, n ≤ last) : Moves s (s.take i c last)
  | archive {i : ℕ} {c : Call} {path : ℕ} {contents : List Line} (hi : s.calls[i]? = some c)
      (hpath : s.archives path = none) : Moves s (s.archive i c path contents)
  | truncate {i : ℕ} {c : Call} {path : ℕ} {contents : List Line} (hi : s.calls[i]? = some c)
      (hc : c.stage = .truncating path contents) (hfile : ∀ line ∈ s.file.getD [], line ∈ contents) :
      Moves s (s.truncate i c)
  | write {i : ℕ} {c : Call} {stage : Stage} (hi : s.calls[i]? = some c)
      (hstage : stage = .done ∨ stage = .failed) : Moves s (s.write i c stage)

variable {s t : State} {l : Label}

theorem stageOf_eq {i : ℕ} {c : Call} {stage : Stage} (h : s.stageOf i = some (c, stage)) :
    s.calls[i]? = some c ∧ c.stage = stage := by
  obtain ⟨d, hd, heq⟩ := Option.map_eq_some_iff.mp h
  rw [Prod.mk.injEq] at heq
  exact ⟨heq.1 ▸ hd, heq.1 ▸ heq.2⟩

/-- Everything that a safe step can do. -/
theorem step_moves (hsafe : Safe s l) (h : step s l = some t) : Moves s t := by
  cases l with
  | call bytes => exact Option.some.inj h ▸ .call bytes
  | scan i ok =>
    simp only [step] at h
    split at h <;> [skip; simp at h]
    rename_i c hc
    obtain ⟨hi, hstage⟩ := stageOf_eq hc
    rw [← Option.some.inj h]
    exact .pass hi (fun _ => by rw [hstage]; rfl) (by simp) (by simp)
  | cache i =>
    simp only [step] at h
    split at h <;> [skip; simp at h]
    rename_i c last hc
    rw [← Option.some.inj h]
    exact .cache (stageOf_eq hc).1 (stageOf_eq hc).2
  | take i =>
    simp only [step] at h
    split at h <;> [skip; simp at h]
    rename_i c last hc
    obtain ⟨hi, hstage⟩ := stageOf_eq hc
    split at h
    · rw [← Option.some.inj h]
      exact .pass hi (fun hearly => absurd hearly Bool.false_ne_true) (by simp) (by simp)
    · rw [← Option.some.inj h]
      simp only [Safe, hc] at hsafe
      exact .take hi hstage hsafe.1 hsafe.2
  | measure i now ok =>
    simp only [step] at h
    split at h <;> [skip; simp at h]
    rename_i c hc
    split at h <;>
    · rw [← Option.some.inj h]
      exact .pass (stageOf_eq hc).1 (fun hearly => absurd hearly Bool.false_ne_true) (by simp)
        (by simp)
  | read i ok =>
    simp only [step] at h
    split at h <;> [skip; simp at h]
    rename_i c path hc
    split at h <;>
    · rw [← Option.some.inj h]
      exact .pass (stageOf_eq hc).1 (fun hearly => absurd hearly Bool.false_ne_true) (by simp)
        (by simp)
  | archive i ok =>
    simp only [step] at h
    split at h <;> [skip; simp at h]
    rename_i c path contents hc
    split at h
    · rw [← Option.some.inj h]
      simp only [Safe, hc] at hsafe
      exact .archive (stageOf_eq hc).1 hsafe
    · rw [← Option.some.inj h]
      exact .pass (stageOf_eq hc).1 (fun hearly => absurd hearly Bool.false_ne_true) (by simp)
        (by simp)
  | truncate i ok =>
    simp only [step] at h
    split at h <;> [skip; simp at h]
    rename_i c path contents hc
    split at h
    · rw [← Option.some.inj h]
      simp only [Safe, hc] at hsafe
      exact .truncate (stageOf_eq hc).1 (stageOf_eq hc).2 hsafe
    · rw [← Option.some.inj h]
      exact .pass (stageOf_eq hc).1 (fun hearly => absurd hearly Bool.false_ne_true) (by simp)
        (by simp)
  | write i =>
    simp only [step] at h
    split at h <;> [skip; simp at h]
    rename_i c hc
    rw [← Option.some.inj h]
    exact .write (stageOf_eq hc).1 (Or.inl rfl)
  | reject i landed =>
    simp only [step] at h
    split at h <;> [skip; simp at h]
    rename_i c hc
    split at h
    · rw [← Option.some.inj h]
      exact .write (stageOf_eq hc).1 (Or.inr rfl)
    · rw [← Option.some.inj h]
      exact .pass (stageOf_eq hc).1 (fun hearly => absurd hearly Bool.false_ne_true) (by simp)
        (by simp)

/-! ### Cursors -/

/-- Cursors are given once each, above those of the old lines and of the entries that were finished
    before. -/
structure Cursors (s : State) : Prop where
  early : ∀ c ∈ s.calls, c.stage.early → c.cursor = none
  finished : ∀ c ∈ s.calls, ∀ x ∈ c.before,
    (∃ line ∈ s.old, line.cursor = x) ∨ ∃ d ∈ s.calls, d.cursor = some x
  above : ∀ c ∈ s.calls, ∀ n ∈ c.cursor, ∀ x ∈ c.before, x < n
  newer : ∀ c ∈ s.calls, ∀ n ∈ c.cursor, ∀ line ∈ s.old, line.cursor < n
  distinct : ∀ (i j : ℕ) (c d : Call) (n : ℕ), s.calls[i]? = some c → s.calls[j]? = some d →
    c.cursor = some n → d.cursor = some n → i = j

theorem cursors_start (file : Option (List Line)) : Cursors (start file) where
  early := fun _ hc => absurd hc List.not_mem_nil
  finished := fun _ hc => absurd hc List.not_mem_nil
  above := fun _ hc => absurd hc List.not_mem_nil
  newer := fun _ hc => absurd hc List.not_mem_nil
  distinct := fun i _ c _ _ hi => by simp [start] at hi

theorem mem_finished {x : ℕ} (h : x ∈ s.finished) : ∃ d ∈ s.calls, d.cursor = some x := by
  obtain ⟨d, hd, hx⟩ := List.mem_filterMap.mp h
  split_ifs at hx
  exact ⟨d, hd, hx⟩

theorem cursors_call (h : Cursors s) (bytes : Option ℕ) : Cursors (s.call bytes) := by
  have hmem : ∀ c ∈ (s.call bytes).calls, c ∈ s.calls ∨
      (c.before = s.old.map (·.cursor) ++ s.finished ∧ c.cursor = none) := by
    intro c hc
    rcases List.mem_append.mp hc with hc | hc
    · exact Or.inl hc
    · rw [List.mem_singleton] at hc
      exact Or.inr ⟨by rw [hc], by rw [hc]⟩
  have hgrow : ∀ x, (∃ d ∈ s.calls, d.cursor = some x) →
      ∃ d ∈ (s.call bytes).calls, d.cursor = some x := fun x ⟨d, hd, hx⟩ =>
    ⟨d, List.mem_append_left _ hd, hx⟩
  refine ⟨?_, ?_, ?_, ?_, ?_⟩
  · intro c hc hearly
    rcases hmem c hc with hc | ⟨-, hnone⟩
    · exact h.early c hc hearly
    · exact hnone
  · intro c hc x hx
    rcases hmem c hc with hc | ⟨hbefore, -⟩
    · exact (h.finished c hc x hx).imp id (hgrow x)
    · rw [hbefore] at hx
      rcases List.mem_append.mp hx with hx | hx
      · exact Or.inl (List.mem_map.mp hx)
      · exact Or.inr (hgrow x (mem_finished hx))
  · intro c hc n hn
    rcases hmem c hc with hc | ⟨-, hnone⟩
    · exact h.above c hc n hn
    · simp [hnone] at hn
  · intro c hc n hn
    rcases hmem c hc with hc | ⟨-, hnone⟩
    · exact h.newer c hc n hn
    · simp [hnone] at hn
  · intro i j c d n hi hj hc hd
    rcases Chain.getElem?_snoc_cases hi with hi | ⟨-, rfl⟩
    · rcases Chain.getElem?_snoc_cases hj with hj | ⟨-, rfl⟩
      · exact h.distinct i j c d n hi hj hc hd
      · simp at hd
    · simp at hc

/-- A step that gives no cursor. -/
theorem cursors_stay {i : ℕ} {c : Call} {stage : Stage} (h : Cursors s)
    (hi : s.calls[i]? = some c) (hearly : stage.early → c.stage.early) (hold : t.old = s.old)
    (hcalls : t.calls = s.calls.set i { c with stage := stage }) : Cursors t := by
  have hmem : ∀ d ∈ t.calls, ∃ d' ∈ s.calls, d.cursor = d'.cursor ∧ d.before = d'.before ∧
      (d.stage.early → d'.stage.early) := by
    intro d hd
    rw [hcalls] at hd
    rcases List.mem_or_eq_of_mem_set hd with hd | rfl
    · exact ⟨d, hd, rfl, rfl, id⟩
    · exact ⟨c, List.mem_of_getElem? hi, rfl, rfl, hearly⟩
  have hget : ∀ (k : ℕ) (d : Call), t.calls[k]? = some d →
      ∃ d', s.calls[k]? = some d' ∧ d.cursor = d'.cursor := by
    intro k d hd
    rw [hcalls] at hd
    rcases Chain.getElem?_set_cases hd with ⟨rfl, rfl⟩ | ⟨-, hd⟩
    · exact ⟨c, hi, rfl⟩
    · exact ⟨d, hd, rfl⟩
  have hgrow : ∀ x, (∃ d ∈ s.calls, d.cursor = some x) → ∃ d ∈ t.calls, d.cursor = some x := by
    rintro x ⟨d, hd, hx⟩
    obtain ⟨k, hk⟩ := List.mem_iff_getElem?.mp hd
    rw [hcalls]
    rcases Chain.getElem?_set_of { c with stage := stage } hi hk with ⟨-, rfl, hk'⟩ | ⟨-, hk'⟩
    · exact ⟨{ c with stage := stage }, List.mem_of_getElem? hk', hx⟩
    · exact ⟨d, List.mem_of_getElem? hk', hx⟩
  refine ⟨?_, ?_, ?_, ?_, ?_⟩
  · intro d hd hdearly
    obtain ⟨d', hd', hcur, -, hearly'⟩ := hmem d hd
    rw [hcur]
    exact h.early d' hd' (hearly' hdearly)
  · intro d hd x hx
    obtain ⟨d', hd', -, hbef, -⟩ := hmem d hd
    rw [hbef] at hx
    rw [hold]
    exact (h.finished d' hd' x hx).imp id (hgrow x)
  · intro d hd n hn
    obtain ⟨d', hd', hcur, hbef, -⟩ := hmem d hd
    rw [hcur] at hn
    rw [hbef]
    exact h.above d' hd' n hn
  · intro d hd n hn
    obtain ⟨d', hd', hcur, -, -⟩ := hmem d hd
    rw [hcur] at hn
    rw [hold]
    exact h.newer d' hd' n hn
  · intro j k d e n hj hk hd he
    obtain ⟨d', hj', hcur⟩ := hget j d hj
    obtain ⟨e', hk', hcur'⟩ := hget k e hk
    exact h.distinct j k d' e' n hj' hk' (hcur.symm.trans hd) (hcur'.symm.trans he)

/-- A cursor above all that were given. -/
theorem cursors_take {i : ℕ} {c : Call} {last : ℕ} (h : Cursors s) (hi : s.calls[i]? = some c)
    (hc : c.stage = .found last) (hold : ∀ line ∈ s.old, line.cursor ≤ last)
    (hgiven : ∀ d ∈ s.calls, ∀ n ∈ d.cursor, n ≤ last) : Cursors (s.take i c last) := by
  have hnone : c.cursor = none := h.early c (List.mem_of_getElem? hi) (by rw [hc]; rfl)
  have hgrow : ∀ x, (∃ d ∈ s.calls, d.cursor = some x) →
      ∃ d ∈ (s.take i c last).calls, d.cursor = some x := by
    rintro x ⟨d, hd, hx⟩
    obtain ⟨k, hk⟩ := List.mem_iff_getElem?.mp hd
    rcases Chain.getElem?_set_of { c with cursor := some (last + 1), stage := .measuring } hi hk with
      ⟨-, rfl, -⟩ | ⟨-, hk'⟩
    · simp [hnone] at hx
    · exact ⟨d, List.mem_of_getElem? hk', hx⟩
  have hbound : ∀ x ∈ c.before, x ≤ last := by
    intro x hx
    rcases h.finished c (List.mem_of_getElem? hi) x hx with ⟨line, hline, rfl⟩ | ⟨d, hd, hdx⟩
    · exact hold line hline
    · exact hgiven d hd x hdx
  refine ⟨?_, ?_, ?_, ?_, ?_⟩
  · intro d hd hearly
    rcases List.mem_or_eq_of_mem_set hd with hd | rfl
    · exact h.early d hd hearly
    · exact absurd hearly Bool.false_ne_true
  · intro d hd x hx
    rcases List.mem_or_eq_of_mem_set hd with hd | rfl
    · exact (h.finished d hd x hx).imp id (hgrow x)
    · exact (h.finished c (List.mem_of_getElem? hi) x hx).imp id (hgrow x)
  · intro d hd n hn x hx
    rcases List.mem_or_eq_of_mem_set hd with hd | rfl
    · exact h.above d hd n hn x hx
    · rw [Option.mem_some_iff] at hn
      have := hbound x hx
      omega
  · intro d hd n hn line hline
    rcases List.mem_or_eq_of_mem_set hd with hd | rfl
    · exact h.newer d hd n hn line hline
    · rw [Option.mem_some_iff] at hn
      have := hold line hline
      omega
  · intro j k d e n hj hk hd he
    rcases Chain.getElem?_set_cases hj with ⟨rfl, rfl⟩ | ⟨hij, hj⟩ <;>
      rcases Chain.getElem?_set_cases hk with ⟨rfl, rfl⟩ | ⟨hik, hk⟩
    · rfl
    · have := hgiven e (List.mem_of_getElem? hk) n he
      rw [Option.some.injEq] at hd
      omega
    · have := hgiven d (List.mem_of_getElem? hj) n hd
      rw [Option.some.injEq] at he
      omega
    · exact h.distinct j k d e n hj hk hd he

/-- One step keeps the cursors given once each, and above the old ones. -/
theorem cursors_step (h : Cursors s) (hst : Moves s t) : Cursors t := by
  cases hst with
  | call bytes => exact cursors_call h bytes
  | pass hi hearly _ _ => exact cursors_stay h hi hearly rfl rfl
  | @cache i c last hi hc =>
    have hearly : (Stage.found last).early → c.stage.early := fun _ => by rw [hc]; rfl
    exact cursors_stay h hi hearly rfl rfl
  | take hi hc hold hgiven => exact cursors_take h hi hc hold hgiven
  | @archive i c path contents hi _ =>
    have hearly : (Stage.truncating path contents).early → c.stage.early :=
      fun hearly => absurd hearly Bool.false_ne_true
    exact cursors_stay h hi hearly rfl rfl
  | @truncate i c _ _ hi _ _ =>
    have hearly : Stage.writing.early → c.stage.early :=
      fun hearly => absurd hearly Bool.false_ne_true
    exact cursors_stay h hi hearly rfl rfl
  | @write i c stage hi hstage =>
    have hearly : stage.early → c.stage.early := by
      rcases hstage with rfl | rfl <;> exact fun hearly => absurd hearly Bool.false_ne_true
    exact cursors_stay h hi hearly rfl rfl

/-! ### Lines -/

/-- The journal or an archive holds the line. -/
def Kept (s : State) (line : Line) : Prop :=
  line ∈ s.file.getD [] ∨ ∃ path contents, s.archives path = some contents ∧ line ∈ contents

/-- Every entry that was appended is kept, and the old lines with them; a call that is about to cut
    the journal off has archived what it read. -/
structure Stored (s : State) : Prop where
  old : ∀ line ∈ s.old, Kept s line
  appended : ∀ (i : ℕ) (c : Call), s.calls[i]? = some c → c.stage = .done → Kept s (c.line i)
  archived : ∀ c ∈ s.calls, ∀ path contents, c.stage = .truncating path contents →
    s.archives path = some contents

theorem stored_start (file : Option (List Line)) : Stored (start file) where
  old := fun _ hline => Or.inl hline
  appended := fun i c hi => by simp [start] at hi
  archived := fun _ hc => absurd hc List.not_mem_nil

/-- No step loses a line. -/
theorem kept_step (h : Stored s) (hst : Moves s t) {line : Line} (hline : Kept s line) :
    Kept t line := by
  cases hst with
  | call bytes => exact hline
  | pass _ _ _ _ => exact hline
  | cache _ _ => exact hline
  | take _ _ _ _ => exact hline
  | archive hi hpath =>
    rename_i c path contents
    rcases hline with hline | ⟨path', contents', hpath', hline⟩
    · exact Or.inl hline
    · have hne : path' ≠ path := fun heq => by simp [heq, hpath] at hpath'
      exact Or.inr ⟨path', contents', (Function.update_of_ne hne _ _).trans hpath', hline⟩
  | @truncate i c path contents hi hc hfile =>
    rcases hline with hline | hline
    · exact Or.inr ⟨path, contents, h.archived c (List.mem_of_getElem? hi) path contents hc,
        hfile line hline⟩
    · exact Or.inr hline
  | write _ _ =>
    rcases hline with hline | hline
    · exact Or.inl (List.mem_append_left _ hline)
    · exact Or.inr hline

theorem old_step (hst : Moves s t) : t.old = s.old := by
  cases hst <;> rfl

/-- A step that appends no entry and archives nothing. -/
theorem stored_stay {i : ℕ} {c' : Call} (h : Stored s) (hst : Moves s t)
    (hcalls : t.calls = s.calls.set i c') (harchives : t.archives = s.archives)
    (hdone : c'.stage ≠ .done) (htruncating : ∀ path contents, c'.stage ≠ .truncating path contents) :
    Stored t := by
  refine ⟨fun line hline => kept_step h hst (h.old line (old_step hst ▸ hline)), ?_, ?_⟩
  · intro k d hk hd
    rw [hcalls] at hk
    rcases Chain.getElem?_set_cases hk with ⟨-, rfl⟩ | ⟨-, hk⟩
    · exact absurd hd hdone
    · exact kept_step h hst (h.appended k d hk hd)
  · intro d hd path contents hstage
    rw [harchives]
    rw [hcalls] at hd
    rcases List.mem_or_eq_of_mem_set hd with hd | rfl
    · exact h.archived d hd path contents hstage
    · exact absurd hstage (htruncating path contents)

/-- One step keeps every line that was written, in the file or in an archive. -/
theorem stored_step (h : Stored s) (hst : Moves s t) : Stored t := by
  have hold : ∀ line ∈ t.old, Kept t line := fun line hline =>
    kept_step h hst (h.old line (old_step hst ▸ hline))
  cases hst with
  | call bytes =>
    refine ⟨hold, ?_, ?_⟩
    · intro k d hk hd
      rcases Chain.getElem?_snoc_cases hk with hk | ⟨-, rfl⟩
      · exact h.appended k d hk hd
      · simp only at hd
        split_ifs at hd
    · intro d hd path contents hstage
      rcases List.mem_append.mp hd with hd | hd
      · exact h.archived d hd path contents hstage
      · rw [List.mem_singleton.mp hd] at hstage
        simp only at hstage
        split_ifs at hstage
  | pass hi hearly hdone htruncating =>
    exact stored_stay h (.pass hi hearly hdone htruncating) rfl rfl hdone htruncating
  | cache hi hc => exact stored_stay h (.cache hi hc) rfl rfl (by simp) (by simp)
  | take hi hc hle hgiven =>
    exact stored_stay h (.take hi hc hle hgiven) rfl rfl (by simp) (by simp)
  | @archive i c path contents hi hpath =>
    have hst : Moves s (s.archive i c path contents) := .archive hi hpath
    refine ⟨hold, ?_, ?_⟩
    · intro k d hk hd
      rcases Chain.getElem?_set_cases hk with ⟨-, rfl⟩ | ⟨-, hk⟩
      · simp at hd
      · exact kept_step h hst (h.appended k d hk hd)
    · intro d hd path' contents' hstage
      rcases List.mem_or_eq_of_mem_set hd with hd | rfl
      · have harchived := h.archived d hd path' contents' hstage
        have hne : path' ≠ path := fun heq => by simp [heq, hpath] at harchived
        exact (Function.update_of_ne hne _ _).trans harchived
      · simp only [Stage.truncating.injEq] at hstage
        obtain ⟨rfl, rfl⟩ := hstage
        exact Function.update_self _ _ _
  | truncate hi hc hfile =>
    exact stored_stay h (.truncate hi hc hfile) rfl rfl (by simp) (by simp)
  | @write i c stage hi hstage =>
    have hst : Moves s (s.write i c stage) := .write hi hstage
    refine ⟨hold, ?_, ?_⟩
    · intro k d hk hd
      rcases Chain.getElem?_set_cases hk with ⟨rfl, rfl⟩ | ⟨-, hk⟩
      · exact Or.inl (List.mem_append_right _ (List.mem_singleton.mpr rfl))
      · exact kept_step h hst (h.appended k d hk hd)
    · intro d hd path contents hstage'
      rcases List.mem_or_eq_of_mem_set hd with hd | rfl
      · exact h.archived d hd path contents hstage'
      · rcases hstage with rfl | rfl <;> simp at hstage'

/-! ### The journal -/

/-- What the journal promises: an entry comes after all that were finished before its append
    started, no two entries have one cursor, and what was appended is kept. -/
def Promise (s : State) : Prop :=
  (∀ c ∈ s.calls, ∀ n ∈ c.cursor, ∀ x ∈ c.before, x < n) ∧
  (∀ (i j : ℕ) (c d : Call) (n : ℕ), s.calls[i]? = some c → s.calls[j]? = some d →
    c.cursor = some n → d.cursor = some n → i = j) ∧
  (∀ c ∈ s.calls, ∀ n ∈ c.cursor, ∀ line ∈ s.old, line.cursor ≠ n) ∧
  (∀ line ∈ s.old, Kept s line) ∧
  ∀ (i : ℕ) (c : Call), s.calls[i]? = some c → c.stage = .done → Kept s (c.line i)

/-- In a run whose steps are all safe the journal keeps its promise in every state. -/
theorem journal_promise_of_safe {file : Option (List Line)} {labels : List Label}
    (hsafe : Run.Meets step Safe (start file) labels)
    (hrun : Run.run step (start file) labels = some s) : Promise s := by
  have hinv : Cursors s ∧ Stored s := by
    refine Run.run_inv (I := fun s => Cursors s ∧ Stored s) ?_ hsafe
      ⟨cursors_start file, stored_start file⟩ hrun
    intro u l v hu hl hst
    have hmoves := step_moves hl hst
    exact ⟨cursors_step hu.1 hmoves, stored_step hu.2 hmoves⟩
  exact ⟨hinv.1.above, hinv.1.distinct,
    fun c hc n hn line hline => Nat.ne_of_lt (hinv.1.newer c hc n hn line hline),
    hinv.2.old, hinv.2.appended⟩

/-- A large entry, and a second append that archives it before it writes its own. -/
def rotating : List Label :=
  [.call (some maxJournalBytes), .scan 0 true, .cache 0, .take 0, .measure 0 1 true, .write 0,
    .call (some 80), .take 1, .measure 1 2 true, .read 1 true, .archive 1 true, .truncate 1 true,
    .write 1]

/-- The large entry is in the archive and the new one in the file. -/
theorem journal_promise_of_safe_rotating :
    ∃ s, Run.run step (start none) rotating = some s ∧ Promise s ∧
      s.file = some [⟨2, 80, some 1⟩] ∧ s.archives 2 = some [⟨1, maxJournalBytes, some 0⟩] := by
  have hsafe : Run.Meets step Safe (start none) rotating := by decide
  exact ⟨_, rfl, journal_promise_of_safe hsafe rfl, rfl, rfl⟩

/-- Two appends find the same last cursor before either of them takes one. -/
def sharedCursor : List Label :=
  [.call (some 80), .scan 0 true, .cache 0, .take 0, .measure 0 1 true, .write 0,
    .call (some 80), .call (some 80), .take 1, .take 2, .measure 1 2 true, .measure 2 2 true,
    .write 1, .write 2]

/-- An append writes its line between the reading of the journal and its truncation. -/
def lostLine : List Label :=
  [.call (some maxJournalBytes), .scan 0 true, .cache 0, .take 0, .measure 0 1 true,
    .call (some 80), .take 1, .measure 1 1 true, .write 0,
    .call (some 80), .take 2, .measure 2 2 true, .read 2 true, .write 1, .archive 2 true,
    .truncate 2 true, .write 2]

/-- The line with the cursor 2 is in no file. -/
def lostState : State where
  lastKnownCursor := 3
  file := some [⟨3, 80, some 2⟩]
  archives := Function.update (fun _ => none) 2 (some [⟨1, maxJournalBytes, some 0⟩])
  calls := [⟨some maxJournalBytes, [], some 1, .done⟩, ⟨some 80, [], some 2, .done⟩,
    ⟨some 80, [1], some 3, .done⟩]
  old := []

/-- The cursor 2 is given twice, and the line of an append is in neither file. -/
theorem overlapping_appends_break_promise :
    (∃ s, Run.run step (start none) sharedCursor = some s ∧
      s.calls.map (·.cursor) = [some 1, some 2, some 2] ∧ ¬ Promise s) ∧
    Run.run step (start none) lostLine = some lostState ∧ ¬ Promise lostState := by
  constructor
  · refine ⟨_, rfl, rfl, ?_⟩
    rintro ⟨-, hdistinct, -⟩
    exact absurd (hdistinct 1 2 _ _ 2 rfl rfl rfl rfl) (by decide)
  · refine ⟨rfl, ?_⟩
    rintro ⟨-, -, -, -, happended⟩
    have hkept : Kept lostState ⟨2, 80, some 1⟩ := happended 1 _ rfl rfl
    rcases hkept with hfile | ⟨path, contents, hpath, hline⟩
    · revert hfile
      decide
    · simp only [lostState, Function.update_apply] at hpath
      split_ifs at hpath
      rw [← Option.some.inj hpath] at hline
      revert hline
      decide

end Empyralis.Gateway.Journal
