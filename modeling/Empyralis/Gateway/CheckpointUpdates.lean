import Empyralis.Gateway.Checkpoints

/-! Which updates of the checkpoint record survive. A save writes back every field that it read from
    disk, so over a pending write it can put back an older value of a field that it does not give.
    Where that does not happen, and the writes reach the file in the order in which they were issued,
    the file ends with the last value given for each field. -/

namespace Empyralis.Gateway.Checkpoints

open Run (run Meets)

/-- The value of a field after these saves, one after another. -/
def lastGiven (f : Key) (init : Option f.Ty) (saves : List Save) : Option f.Ty :=
  saves.foldl (fun v sv => (sv.patch f).getD v) init

/-- Two contents differ in the time stamp only. -/
def Agree (a b : File) : Prop := ∀ f, f ≠ .updatedAt → a f = b f

instance (a b : File) : Decidable (Agree a b) := inferInstanceAs (Decidable (∀ _, _ → _))

/-- The save of `patch` may merge what it read of the field: it gives the field, and no later save
    that gives it has been merged before; or what it read is the newest value, or, over a pending
    write, nothing. -/
def FieldKept (s : State) (i : Nat) (patch : Snapshot) (seen : File) (f : Key) : Prop :=
  if (patch f).isSome then ∀ sv ∈ s.saves.drop (i + 1), sv.isMerged → sv.patch f = none
  else seen f = s.newest f ∨ (s.pending.isSome ∧ seen f = none)

instance (s : State) (i : Nat) (patch : Snapshot) (seen : File) (f : Key) :
    Decidable (FieldKept s i patch seen f) := by
  unfold FieldKept
  infer_instance

/-- No save puts an older value back, no write overtakes another one that differs, and no read or
    write fails. -/
def Unspoiled (s : State) : Label → Prop
  | .saveMerge i _ =>
    match s.saves[i]? with
    | some ⟨patch, .loaded seen⟩ => ∀ f, f ≠ .updatedAt → FieldKept s i patch seen f
    | _ => True
  | .writeReady k => (∀ w ∈ s.writes.drop (k + 1), w.entered = false) ∨
      ∀ w ∈ s.writes[k]?, Agree w.content s.file.latest
  | .saveReadFail _ | .writeFail | .allocSeedFail _ | .restart => False
  | _ => True

instance (s : State) : ∀ l : Label, Decidable (Unspoiled s l)
  | .saveMerge i _ => by
    unfold Unspoiled
    dsimp only
    split <;> infer_instance
  | .writeReady k => inferInstanceAs (Decidable (_ ∨ _))
  | .saveReadFail _ | .writeFail | .allocSeedFail _ | .restart => .isFalse id
  | .save _ | .saveRead _ | .timer | .flush | .writeLand | .alloc | .allocStart _
  | .allocSeedRead _ | .allocSeed _ | .allocReturn _ => .isTrue trivial

/-! ### Saves in their order -/

theorem lastGiven_append (f : Key) (init : Option f.Ty) (xs ys : List Save) :
    lastGiven f init (xs ++ ys) = lastGiven f (lastGiven f init xs) ys :=
  List.foldl_append

theorem lastGiven_silent {f : Key} {saves : List Save} (init : Option f.Ty)
    (h : ∀ sv ∈ saves, sv.patch f = none) : lastGiven f init saves = init := by
  induction saves with
  | nil => rfl
  | cons sv saves ih =>
    rw [lastGiven, List.foldl_cons, h sv List.mem_cons_self]
    exact ih fun x hx => h x (List.mem_cons_of_mem _ hx)

section Merge

variable {f : Key} {saves : List Save} {i : Nat} {patch : Snapshot} {seen : File}

theorem lastGiven_merge {v : Option f.Ty} (init : Option f.Ty)
    (h : saves[i]? = some ⟨patch, .loaded seen⟩) (hv : patch f = some v)
    (hlater : ∀ sv ∈ saves.drop (i + 1), sv.isMerged → sv.patch f = none) :
    lastGiven f init ((saves.set i ⟨patch, .merged⟩).filter Save.isMerged) = v := by
  rw [Chain.filter_set _ _ h, lastGiven_append, lastGiven_append]
  refine (lastGiven_silent _ fun sv hsv => ?_).trans ?_
  · obtain ⟨hmem, hmerged⟩ := List.mem_filter.mp hsv
    exact hlater sv hmem hmerged
  · simp [lastGiven, Save.isMerged, hv]

theorem lastGiven_merge_silent (init : Option f.Ty) (h : saves[i]? = some ⟨patch, .loaded seen⟩)
    (hv : patch f = none) : lastGiven f init ((saves.set i ⟨patch, .merged⟩).filter Save.isMerged) =
      lastGiven f init (saves.filter Save.isMerged) := by
  rw [Chain.filter_set _ _ h, Chain.filter_split _ h]
  simp only [lastGiven_append]
  simp [lastGiven, Save.isMerged, hv]

end Merge

/-- What the merge leaves in a field other than the time stamp. -/
theorem debounced_field (pending : Option Snapshot) (seen : File) (patch : Snapshot) (now : String)
    {f : Key} (hf : f ≠ .updatedAt) :
    stringify (debounced pending (mergedOf seen patch now)) f =
      match patch f, seen f with
      | some v, _ => v
      | none, some x => some x
      | none, none => (pending.bind fun p => p f).join := by
  have hmerged : mergedOf seen patch now f = (patch f).or ((seen f).map some) := by
    rw [mergedOf, Snapshot.set, Function.update_of_ne hf]
    rfl
  cases hp : patch f <;> cases hs : seen f <;> cases pending <;>
    simp [debounced, stringify, spread, hmerged, hp, hs]

/-! ### Writes in their order -/

def entered (writes : List Write) : List Write := writes.filter (·.entered)

/-- The content of the last write, in the order of issue, that has joined the chain. -/
def topEntered (init : File) (writes : List Write) : File :=
  (((entered writes).map (·.content)).getLast?).getD init

/-- A write that joins is the last one, or the last one stays. -/
theorem topEntered_set (init : File) {writes : List Write} {k : Nat} {c : File}
    (h : writes[k]? = some ⟨c, false⟩) :
    topEntered init (writes.set k ⟨c, true⟩) =
      if entered (writes.drop (k + 1)) = [] then c else topEntered init writes := by
  rw [topEntered, topEntered, entered, entered, entered, Chain.filter_set _ _ h,
    Chain.filter_split _ h]
  cases hd : (writes.drop (k + 1)).filter (·.entered) with
  | nil => simp
  | cons w ws => simp [List.getLast?_append, List.getLast?_cons]

/-! ### The invariant -/

/-- The newest snapshot has the last value given by the merged saves, and the file will end with the
    last write that has joined its chain. -/
structure Kept (init : File) (s : State) : Prop where
  newest : ∀ f, f ≠ .updatedAt →
    s.newest f = lastGiven f (init f) (s.saves.filter Save.isMerged)
  entered : Agree s.file.latest (topEntered init s.writes)
  noFail : ∀ sv ∈ s.saves, sv.stage ≠ .failed

theorem kept_start (init : File) : Kept init (start init []) where
  newest := fun f _ => by simp [State.newest, start, SerializedFile.latest, lastGiven]
  entered := fun f _ => by simp [topEntered, entered, start, SerializedFile.latest]
  noFail := by simp [start]

/-- A step that adds or moves saves that are not merged, and leaves pending and writes alone. -/
theorem kept_saves {init : File} {s t : State} (h : Kept init s) (hp : t.pending = s.pending)
    (hw : t.writes = s.writes) (hf : t.file = s.file)
    (hs : t.saves.filter Save.isMerged = s.saves.filter Save.isMerged)
    (hfail : ∀ sv ∈ t.saves, sv.stage ≠ .failed) : Kept init t where
  newest := by
    intro f hne
    rw [hs, ← h.newest f hne, State.newest, State.newest, hp, hw, hf]
  entered := by
    rw [hf, hw]
    exact h.entered
  noFail := hfail

theorem noFail_snoc {saves : List Save} {patch : Snapshot} (h : ∀ sv ∈ saves, sv.stage ≠ .failed) :
    ∀ sv ∈ saves ++ [⟨patch, .loading⟩], sv.stage ≠ .failed := by
  intro sv hsv
  rcases List.mem_append.mp hsv with hsv | hsv
  · exact h sv hsv
  · rw [List.mem_singleton.mp hsv]
    simp

theorem noFail_set {saves : List Save} {i : Nat} {sv : Save} (h : ∀ sv ∈ saves, sv.stage ≠ .failed)
    (hsv : sv.stage ≠ .failed) : ∀ x ∈ saves.set i sv, x.stage ≠ .failed := by
  intro x hx
  rcases List.mem_or_eq_of_mem_set hx with hx | rfl
  · exact h x hx
  · exact hsv

theorem kept_merge {init : File} {s : State} {i : Nat} {patch : Snapshot} {seen : File}
    (h : Kept init s) (now : String) (hi : s.saves[i]? = some ⟨patch, .loaded seen⟩)
    (hc : ∀ f, f ≠ .updatedAt → FieldKept s i patch seen f) :
    Kept init (s.merge i patch seen now) where
  newest := by
    intro f hf
    have hfield := hc f hf
    unfold FieldKept at hfield
    have hnew : (s.merge i patch seen now).newest f =
        stringify (debounced s.pending (mergedOf seen patch now)) f := rfl
    rw [hnew, debounced_field _ _ _ _ hf]
    cases hv : patch f with
    | some v =>
      rw [if_pos (by simp [hv])] at hfield
      simp only [State.merge, lastGiven_merge _ hi hv hfield]
    | none =>
      rw [if_neg (by simp [hv])] at hfield
      simp only [State.merge, lastGiven_merge_silent _ hi hv, ← h.newest f hf]
      rcases hfield with hseen | ⟨hpending, hseen⟩
      · cases hs : seen f with
        | some x => simpa [hs] using hseen
        | none =>
          cases hp : s.pending with
          | none => simpa [hs] using hseen
          | some p => simp [State.newest, hp, stringify]
      · obtain ⟨p, hp⟩ := Option.isSome_iff_exists.mp hpending
        simp [hseen, State.newest, hp, stringify]
  entered := h.entered
  noFail := noFail_set h.noFail (by simp)

theorem kept_issue {init : File} {s : State} (h : Kept init s) : Kept init s.issue := by
  unfold State.issue
  split
  · exact h
  rename_i p hp
  refine ⟨fun f hf => ?_, ?_, h.noFail⟩
  · rw [← h.newest f hf]
    simp [State.newest, hp]
  · simpa [topEntered, entered] using h.entered

theorem kept_ready {init : File} {s : State} {k : Nat} {c : File} (h : Kept init s)
    (hk : s.writes[k]? = some ⟨c, false⟩) (hc : Unspoiled s (.writeReady k)) :
    Kept init { s with writes := s.writes.set k ⟨c, true⟩, file := s.file.join c } where
  newest := by
    intro f hf
    have hmap : (s.writes.set k ⟨c, true⟩).map (·.content) = s.writes.map (·.content) := by
      obtain ⟨hlt, hget⟩ := List.getElem?_eq_some_iff.mp hk
      have hlt' : k < (s.writes.map (·.content)).length := by rwa [List.length_map]
      have hval : (s.writes.map (·.content))[k] = c := by simp [hget]
      rw [List.map_set]
      exact hval ▸ List.set_getElem_self hlt'
    have hne : s.writes.map (·.content) ≠ [] := by
      intro hnil
      rw [List.map_eq_nil_iff] at hnil
      simp [hnil] at hk
    rw [← h.newest f hf, State.newest, State.newest, hmap, List.getLast?_eq_some_getLast hne]
    cases s.pending <;> rfl
  entered := by
    intro f hf
    rw [topEntered_set init hk, SerializedFile.latest_join]
    split_ifs with hlater
    · rfl
    · rw [← h.entered f hf]
      rcases hc with hc | hc
      · refine absurd ?_ hlater
        simpa [entered] using hc
      · exact hc ⟨c, false⟩ hk f hf
  noFail := h.noFail

/-- One step keeps the last value given for each field, if nothing is spoiled by it. -/
theorem kept_step {init : File} {s t : State} {l : Label} (h : Kept init s) (hc : Unspoiled s l)
    (hst : step s l = some t) : Kept init t := by
  cases step_moves hst with
  | save patch =>
    exact kept_saves h rfl rfl rfl (by simp [State.save, Save.isMerged]) (noFail_snoc h.noFail)
  | saveRead hi =>
    exact kept_saves h rfl rfl rfl (Chain.filter_keep hi rfl rfl) (noFail_set h.noFail (by simp))
  | saveReadFail hi => exact absurd hc id
  | saveMerge hi => exact kept_merge h _ hi (by simpa only [Unspoiled, hi] using hc)
  | timer => exact kept_issue h
  | flush => exact kept_issue h
  | writeReady hk => exact kept_ready h hk hc
  | writeLand hf =>
    have hl := SerializedFile.latest_land hf
    refine ⟨fun f hne => ?_, hl ▸ h.entered, h.noFail⟩
    rw [← h.newest f hne, State.newest, State.newest, hl]
  | writeFail hf => exact absurd hc id
  | alloc => exact kept_saves h rfl rfl rfl rfl h.noFail
  | allocWait hj hr hm => exact kept_saves h rfl rfl rfl rfl h.noFail
  | allocStart hj hr hm =>
    exact kept_saves h rfl rfl rfl (by simp [State.draw, Save.isMerged]) (noFail_snoc h.noFail)
  | allocSeedRead hj => exact kept_saves h rfl rfl rfl rfl h.noFail
  | allocSeedFail hj => exact absurd hc id
  | allocSeed hj =>
    exact kept_saves h rfl rfl rfl (by simp [State.draw, Save.isMerged]) (noFail_snoc h.noFail)
  | allocReturn hj hs => exact kept_saves h rfl rfl rfl rfl h.noFail
  | restart hp => exact absurd hc id

/-! ### Whole runs -/

/-- When all has landed, the file has for each field but the time stamp the value given by the last
    save that gave it. -/
theorem last_save_kept {init : File} {ls : List Label} {s : State}
    (hm : Meets step Unspoiled (start init []) ls) (hrun : run step (start init []) ls = some s)
    (hq : Quiet s) (f : Key) (hf : f ≠ .updatedAt) :
    s.file.content f = lastGiven f (init f) s.saves := by
  have h : Kept init s :=
    Run.run_inv (fun _ _ _ hi hc hst => kept_step hi hc hst) hm (kept_start init) hrun
  have hsaves : s.saves.filter Save.isMerged = s.saves := by
    refine List.filter_eq_self.mpr fun sv hsv => ?_
    have hsettled := hq.saves sv hsv
    have hfail := h.noFail sv hsv
    cases hstage : sv.stage <;> simp_all [Save.isMerged, Save.isSettled]
  have hwrites : entered s.writes = s.writes := List.filter_eq_self.mpr hq.writes
  have hlast : s.file.content f = (((s.writes.map (·.content)).getLast?).getD init) f := by
    rw [← SerializedFile.latest_idle hq.lane, h.entered f hf, topEntered, hwrites]
  rw [← hsaves, ← h.newest f hf, State.newest, hq.pending, hlast]
  cases hw : (s.writes.map (·.content)).getLast? with
  | some c => rfl
  | none =>
    rw [hw] at hlast
    rw [SerializedFile.latest_idle hq.lane]
    exact hlast.symm

def ackPatch (n : Int) : Snapshot := Snapshot.empty.set .lastAck (some n)

def sessionPatch (id : String) : Snapshot := Snapshot.empty.set .sessionId (some id)

/-- A disk that holds an acknowledgement of 1. -/
def ackedDisk : File := stringify (ackPatch 1)

/-- The second save reads after the write of the first one has landed. -/
def savedInTurn : List Label :=
  [.save (ackPatch 2), .saveRead 0, .saveMerge 0 "t0", .timer, .writeReady 0, .writeLand,
    .save (sessionPatch "s"), .saveRead 1, .saveMerge 1 "t1", .flush, .writeReady 1, .writeLand]

theorem last_save_kept_inTurn : ∃ s, run step (start ackedDisk []) savedInTurn = some s ∧
    s.file.content .lastAck = lastGiven .lastAck (some 1) s.saves := by
  have hm : Meets step Unspoiled (start ackedDisk []) savedInTurn := by decide
  exact ⟨_, rfl, last_save_kept hm rfl ⟨rfl, by decide, by decide, rfl⟩ .lastAck (by decide)⟩

/-- The second save reads the disk while the first one is pending. -/
def savedOverPending : List Label :=
  [.save (ackPatch 2), .saveRead 0, .saveMerge 0 "t0", .save (sessionPatch "s"), .saveRead 1,
    .saveMerge 1 "t1", .timer, .writeReady 0, .writeLand]

/-- It puts the acknowledgement of 1 back, and the one of 2 is lost. -/
theorem pending_update_lost : ∃ s, run step (start ackedDisk []) savedOverPending = some s ∧
    Quiet s ∧ s.file.content .lastAck = some 1 ∧
    lastGiven .lastAck (some 1) s.saves = some 2 :=
  ⟨_, rfl, ⟨rfl, by decide, by decide, rfl⟩, by decide, by decide⟩

end Empyralis.Gateway.Checkpoints
