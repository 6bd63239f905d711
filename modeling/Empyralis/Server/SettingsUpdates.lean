import Empyralis.Server.Workspaces

/-! Runs of the calls that write a section of a workspace's metadata, by any number of processes: when
    each section holds what was written to it last. -/

namespace Empyralis.Server.Workspaces

/-- The calls, each with its process, and the sections written so far with their payloads. -/
structure State where
  store : Store
  calls : List (Nat × Update)
  written : List (Part × Fields)

inductive Event where
  | call (process : Nat) (part : Part) (payload : Fields)
  | move (i : Nat)
  | wait (time : Nat)

/-- What the step of a call writes: an `UPDATE` that finds the row. -/
def Update.writes (s : Store) (u : Update) : List (Part × Fields) :=
  match u.stage, s.row with
  | .updating _ _, some _ => [(u.part, u.payload)]
  | _, _ => []

variable (env : Env)

def step (s : State) : Event → Option State
  | .call process part payload =>
    some { s with calls := s.calls ++ [(process, ⟨part, payload, .reading .look⟩)] }
  | .move i =>
    (s.calls[i]?).bind fun (process, u) => (u.step env s.store process).map fun (store, u') =>
      { store := store, calls := s.calls.set i (process, u'), written := s.written ++ u.writes s.store }
  | .wait time => some { s with store := { s.store with now := s.store.now + time } }

/-- The payload that was written to a section last. -/
def lastWritten (written : List (Part × Fields)) (part : Part) : Option Fields :=
  ((written.filter fun w => w.1 = part).getLast?).map Prod.snd

/-- Each section holds the payload of the last call that wrote it, or what it held at the start. -/
def Saved (start : Fields) (s : State) : Prop :=
  ∀ row, s.store.row = some row → ∀ part : Part,
    row.metadata.lookup part.key = ((lastWritten s.written part).map Value.object).or (start.lookup part.key)

/-- An `UPDATE` is made while the other sections are those of the record that its call has read. -/
def Current (s : State) : Event → Prop
  | .move i => ∀ process part payload base existing row,
      s.calls[i]? = some (process, ⟨part, payload, .updating base existing⟩) → s.store.row = some row →
      ∀ other : Part, other ≠ part → base.metadata.lookup other.key = row.metadata.lookup other.key
  | _ => True

theorem key_injective {a b : Part} (h : a.key = b.key) : a = b := by
  revert h
  cases a <;> cases b <;> decide

theorem lastWritten_snoc (written : List (Part × Fields)) (part other : Part) (payload : Fields) :
    lastWritten (written ++ [(part, payload)]) other =
      if other = part then some payload else lastWritten written other := by
  by_cases h : other = part
  · subst h
    simp [lastWritten]
  · have hne : part ≠ other := Ne.symm h
    simp [lastWritten, h, hne]

/-- Only the entry of the process changes when the workspace is read. -/
theorem getWorkspaceById_row (s : Store) (process : Nat) (get : Get) :
    (getWorkspaceById env s process get).1.row = s.row := by
  cases get with
  | look =>
    unfold getWorkspaceById workspaceLookupCacheGet
    cases hentry : s.caches process with
    | none => rfl
    | some cached =>
      by_cases hold : cached.expiresAt ≤ s.now
      · simp [hold, Store.setCache]
      · simp [hold]
  | select =>
    unfold getWorkspaceById
    cases hrow : s.row <;> simp [hrow]
  | put row => rfl

/-- A step of a call leaves the row alone, or is its `UPDATE`. -/
theorem updateStep_row {s t : Store} {process : Nat} {u v : Update} (h : u.step env s process = some (t, v)) :
    (t.row = s.row ∧ u.writes s = []) ∨
      ∃ base existing, u.stage = .updating base existing ∧
        t = updateWorkspaceProfile env s base existing (nextMetadata u.part u.payload base) := by
  cases hstage : u.stage with
  | reading get =>
    have hrow := getWorkspaceById_row env s process get
    simp only [Update.step, hstage] at h
    refine .inl ⟨?_, by simp [Update.writes, hstage]⟩
    split at h <;> simp_all
  | selecting base =>
    simp only [Update.step, hstage] at h
    refine .inl ⟨?_, by simp [Update.writes, hstage]⟩
    split at h
    · simp_all
    · split at h <;> simp_all
  | updating base existing =>
    simp only [Update.step, hstage, Option.some.injEq, Prod.mk.injEq] at h
    exact .inr ⟨base, existing, rfl, h.1.symm⟩
  | dropping =>
    simp only [Update.step, hstage, Option.some.injEq, Prod.mk.injEq] at h
    exact .inl ⟨by rw [← h.1]; rfl, by simp [Update.writes, hstage]⟩
  | answering get =>
    have hrow := getWorkspaceById_row env s process get
    simp only [Update.step, hstage] at h
    refine .inl ⟨?_, by simp [Update.writes, hstage]⟩
    split at h <;> simp_all
  | ended result => simp [Update.step, hstage] at h
  | blocked => simp [Update.step, hstage] at h

variable {env} {start : Fields} {s t : State}

/-- The step of a call, when it is not an `UPDATE` that finds the row. -/
theorem saved_same (h : Saved start s) (hrow : t.store.row = s.store.row) (hwritten : t.written = s.written) :
    Saved start t := by
  intro row hr part
  rw [hwritten]
  exact h row (hrow ▸ hr) part

/-- A move writes nothing, or the part of its call over what it has read. -/
theorem move_cases {i : Nat} (hst : step env s (.move i) = some t) :
    (t.store.row = s.store.row ∧ t.written = s.written) ∨
      ∃ process part payload base existing row, s.calls[i]? = some (process, ⟨part, payload, .updating base existing⟩) ∧
        s.store.row = some row ∧ t.written = s.written ++ [(part, payload)] ∧
        ∃ row', t.store.row = some row' ∧ row'.metadata = nextMetadata part payload base := by
  simp only [step, Option.bind_eq_some_iff] at hst
  obtain ⟨⟨process, u⟩, hcall, hst⟩ := hst
  rw [Option.map_eq_some_iff] at hst
  obtain ⟨⟨store, v⟩, hu, rfl⟩ := hst
  obtain ⟨hrow, hnone⟩ | ⟨base, existing, hstage, rfl⟩ := updateStep_row env hu
  · exact .inl ⟨hrow, by simp [hnone]⟩
  · cases hrow : s.store.row with
    | none => exact .inl ⟨by simp [updateWorkspaceProfile, hrow], by simp [Update.writes, hrow]⟩
    | some row =>
      obtain ⟨part, payload, stage⟩ := u
      obtain rfl : stage = .updating base existing := hstage
      refine .inr ⟨process, part, payload, base, existing, row, hcall, rfl, by simp [Update.writes, hrow],
        { row with
          name := updatedName env base existing
          workspaceType := updatedType env base existing
          metadata := nextMetadata part payload base }, ?_, rfl⟩
      simp only [updateWorkspaceProfile, hrow, Option.map_some]

/-- One step keeps every update, if it writes over the current metadata. -/
theorem saved_step (h : Saved start s) {e : Event} (hc : Current s e) (hst : step env s e = some t) :
    Saved start t := by
  cases e with
  | call process part payload =>
    obtain rfl : _ = t := by simpa [step] using hst
    exact saved_same h rfl rfl
  | wait time =>
    obtain rfl : _ = t := by simpa [step] using hst
    exact saved_same h rfl rfl
  | move i =>
    obtain ⟨hrow, hwritten⟩ | ⟨process, part, payload, base, existing, row, hcall, hrow, hwritten, row', hrow',
      hmeta⟩ :=
      move_cases hst
    · exact saved_same h hrow hwritten
    · intro r hr other
      obtain rfl : row' = r := by simpa [hrow'] using hr
      rw [hmeta, hwritten, lastWritten_snoc, nextMetadata, Fields.lookup_put]
      by_cases hother : other = part
      · simp [hother]
      · have hkey : ¬ other.key = part.key := fun heq => hother (key_injective heq)
        rw [if_neg hkey, if_neg hother, hc process part payload base existing row hcall hrow other hother]
        exact h row hrow other

/-- An `UPDATE` that keeps every section has been made while they were those it had read. -/
theorem current_of_saved (h : Saved start s) {e : Event} (hsaved : ∀ t, step env s e = some t → Saved start t) :
    Current s e := by
  cases e with
  | call process part payload => trivial
  | wait time => trivial
  | move i =>
    intro process part payload base existing row hcall hrow other hother
    have hkey : ¬ other.key = part.key := fun heq => hother (key_injective heq)
    have hst : step env s (.move i) = some
        { store := updateWorkspaceProfile env s.store base existing (nextMetadata part payload base)
          calls := s.calls.set i (process, ⟨part, payload, .dropping⟩)
          written := s.written ++ [(part, payload)] } := by
      simp [step, hcall, Update.step, Update.writes, hrow]
    have hrow' : (updateWorkspaceProfile env s.store base existing (nextMetadata part payload base)).row = some
        { row with
          name := updatedName env base existing
          workspaceType := updatedType env base existing
          metadata := nextMetadata part payload base } := by
      simp only [updateWorkspaceProfile, hrow, Option.map_some]
    have hafter := hsaved _ hst _ hrow' other
    rw [lastWritten_snoc, if_neg hother, nextMetadata, Fields.lookup_put, if_neg hkey] at hafter
    rw [hafter, h row hrow other]

/-- No section is lost in any state that a run comes to exactly when each `UPDATE` is made while the
    other sections are those of the record that its call has read, from the row or from a cache. -/
theorem settings_updates_kept {es : List Event} {row : Workspace} (hrow : s.store.row = some row)
    (hnone : s.written = []) :
    (∀ done t, done <+: es → Run.run (step env) s done = some t → Saved row.metadata t) ↔
      Run.Meets (step env) Current s es := by
  have hstart : Saved row.metadata s := by
    intro r hr part
    obtain rfl : row = r := by simpa [hrow] using hr
    simp [hnone, lastWritten]
  exact Run.all_iff_meets (I := Saved row.metadata) (L := fun _ => True) (fun _ h => h)
    (fun _ _ _ h _ hc hst => saved_step h hc hst) (fun _ _ h _ hsaved => current_of_saved h hsaved)
    hstart (fun _ _ => trivial)

/-! ### Two processes -/

def allowAll : Env where
  lowercase := Lowercase.ascii
  workspaceId := "w1"
  ttl := 3
  allows _ := true

def twoProcesses : State where
  store :=
    { row := some { tenantId := "t1", name := "Home", workspaceType := "personal", metadata := [] }
      caches := fun _ => none
      now := 0 }
  calls := []
  written := []

/-- A call that turns the kill switch on, up to its `UPDATE`. -/
def switchOn : List Event := .call 0 .killSwitch [("active", .bool true)] :: List.replicate 5 (.move 0)

theorem settings_updates_kept_alone :
    ∃ t, Run.run (step allowAll) twoProcesses switchOn = some t ∧ Saved [] t := by
  have hkept := (@settings_updates_kept allowAll twoProcesses switchOn ⟨"t1", "Home", "personal", []⟩ rfl rfl).mpr
  refine ⟨_, rfl, hkept ?_ switchOn _ (List.prefix_refl _) rfl⟩
  refine ⟨trivial, ?_, ?_, ?_, ?_, ?_, trivial⟩
  all_goals intro process part payload base existing row hcall hrow other _
  · cases hcall
  · cases hcall
  · cases hcall
  · cases hcall
  · cases hcall
    cases hrow
    rfl

/-- Both have read the workspace before either writes, and the kill switch is turned off again. -/
theorem settings_updates_kept_overlapping :
    ∃ t, Run.run (step allowAll) twoProcesses
        ([.call 0 .killSwitch [("active", .bool true)], .call 1 .policies []] ++
          List.replicate 3 (.move 0) ++ List.replicate 3 (.move 1) ++ List.replicate 6 (.move 0) ++
          List.replicate 6 (.move 1)) = some t ∧
      (∀ c ∈ t.calls, ∃ result, c.2.stage = .ended result) ∧ ¬ Saved [] t := by
  refine ⟨_, rfl, ?_, fun h => ?_⟩
  · intro c hc
    obtain rfl | hc := List.mem_cons.mp hc
    · exact ⟨_, rfl⟩
    · obtain rfl | hc := List.mem_cons.mp hc
      · exact ⟨_, rfl⟩
      · cases hc
  · have hkept := h _ rfl .killSwitch
    have hsome := congrArg Option.isSome hkept
    revert hsome
    decide

end Empyralis.Server.Workspaces
