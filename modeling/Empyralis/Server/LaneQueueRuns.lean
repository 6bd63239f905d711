import Empyralis.Server.LaneQueue
import Mathlib.Data.List.Nodup

/-! What holds of the lane queue in every state of every run.

    The invariant counts ids: per lane, what was accepted is what was dispatched followed by what is
    pending, and what was dispatched is active or finished; over all lanes no id was accepted twice.
    So an accepted item is in one place only, and the order of dispatch in a lane is the order of
    acceptance. -/

namespace Empyralis.Server.LaneQueue

open Run (Meets)

variable {μ ρ : Type*}

/-! ### Ids and their counts -/

def idsOf (items : Lane → List (Item μ ρ)) (lane : Lane) : List String := (items lane).map (·.id)

/-- The ids of all lanes. -/
def allLanes (f : Lane → List String) : List String := laneOrder.flatMap f

theorem count_allLanes (f : Lane → List String) (id : String) : (allLanes f).count id =
    (f .main).count id + ((f .cron).count id + ((f .subagent).count id + (f .system).count id)) := by
  simp [allLanes, laneOrder, List.count_append]

theorem count_allLanes_snoc (f : Lane → List String) (lane : Lane) (x id : String) :
    (allLanes (Function.update f lane (f lane ++ [x]))).count id =
      (allLanes f).count id + if x = id then 1 else 0 := by
  rw [count_allLanes, count_allLanes]
  cases lane <;> simp [List.count_singleton] <;> omega

theorem count_le_allLanes (f : Lane → List String) (lane : Lane) (id : String) :
    (f lane).count id ≤ (allLanes f).count id := by
  rw [count_allLanes]
  cases lane <;> omega

theorem mem_laneOrder (lane : Lane) : lane ∈ laneOrder := by cases lane <;> decide

theorem mem_allLanes {f : Lane → List String} {id : String} :
    id ∈ allLanes f ↔ ∃ lane, id ∈ f lane := by
  constructor
  · intro h
    obtain ⟨lane, _, hid⟩ := List.mem_flatMap.mp h
    exact ⟨lane, hid⟩
  · rintro ⟨lane, hid⟩
    exact List.mem_flatMap.mpr ⟨lane, mem_laneOrder lane, hid⟩

theorem count_filter_ne (items : List (Item μ ρ)) (x id : String) :
    ((items.filter fun other => other.id ≠ x).map (·.id)).count id =
      if id = x then 0 else (items.map (·.id)).count id := by
  induction items with
  | nil => simp
  | cons a as ih =>
    by_cases hax : a.id = x
    · by_cases hid : id = x
      · simpa [hax, hid] using ih
      · have : x ≠ id := fun h => hid h.symm
        simpa [hax, hid, List.count_cons, this] using ih
    · by_cases hid : id = x
      · have : a.id ≠ id := fun h => hax (h.trans hid)
        simpa [hax, hid, List.count_cons, this] using ih
      · simpa [hax, hid, List.count_cons] using ih

theorem putById_fresh {item : Item μ ρ} {items : List (Item μ ρ)}
    (h : item.id ∉ items.map (·.id)) : putById item items = items ++ [item] := by
  have : (items.any fun other => other.id = item.id) = false := by
    simpa [List.any_eq_false] using h
  simp [putById, this]

/-! ### The invariant -/

/-- Every id is where it belongs. -/
structure Placed (s : State μ ρ) : Prop where
  fifo : ∀ lane, s.accepted lane = s.dispatched lane ++ idsOf s.pending lane
  split : ∀ lane id, (s.dispatched lane).count id =
    (idsOf s.active lane).count id + (idsOf s.finished lane).count id
  unique : ∀ id, (allLanes s.accepted).count id ≤ 1
  pendingLane : ∀ lane, ∀ item ∈ s.pending lane, item.lane = lane
  activeLane : ∀ lane, ∀ item ∈ s.active lane, item.lane = lane
  workers : ∀ id, s.workers.count id = (allLanes (idsOf s.active)).count id
  drawn : ∀ lane, ∀ id ∈ s.accepted lane, Drawn id

/-- The ids of a checkpoint can be restored: they are distinct and as the queue draws them. -/
def Restorable (checkpoint : List (Snapshot μ)) : Prop :=
  (checkpoint.map (·.id)).Nodup ∧ ∀ saved ∈ checkpoint, Drawn saved.id

structure Valid (s : State μ ρ) : Prop extends Placed s where
  enabled : s.persisted = true → s.checkpointEnabled = true
  checkpoint : s.persisted = true → s.checkpoint = checkpointItems s
  restorable : Restorable s.checkpoint

/-- Two states that differ in limits, flags, cursor, checkpoint and recent items only. -/
structure SameItems (s t : State μ ρ) : Prop where
  pending : t.pending = s.pending
  active : t.active = s.active
  workers : t.workers = s.workers
  accepted : t.accepted = s.accepted
  dispatched : t.dispatched = s.dispatched
  finished : t.finished = s.finished

theorem placed_same {s t : State μ ρ} (hp : Placed s) (h : SameItems s t) : Placed t where
  fifo := by simpa only [h.accepted, h.dispatched, h.pending] using hp.fifo
  split := by simpa only [h.dispatched, h.active, h.finished] using hp.split
  unique := by simpa only [h.accepted] using hp.unique
  pendingLane := by simpa only [h.pending] using hp.pendingLane
  activeLane := by simpa only [h.active] using hp.activeLane
  workers := by simpa only [h.workers, h.active] using hp.workers
  drawn := by simpa only [h.accepted] using hp.drawn

/-- A step that touches limits, flags or the cursor only. -/
theorem valid_same {s t : State μ ρ} (hv : Valid s) (h : SameItems s t)
    (hc : t.checkpoint = s.checkpoint) (he : t.checkpointEnabled = s.checkpointEnabled)
    (hp : t.persisted = s.persisted) : Valid t where
  toPlaced := placed_same hv.toPlaced h
  enabled := by simpa only [hp, he] using hv.enabled
  checkpoint := by
    simpa only [hp, hc, checkpointItems, h.pending, h.active] using hv.checkpoint
  restorable := by simpa only [hc] using hv.restorable

theorem persist_same (write : Except String Unit) (s : State μ ρ) :
    SameItems s (persistCheckpointLocked write s) := by
  unfold persistCheckpointLocked
  split
  · split <;> exact ⟨rfl, rfl, rfl, rfl, rfl, rfl⟩
  · exact ⟨rfl, rfl, rfl, rfl, rfl, rfl⟩

theorem persist_limits (write : Except String Unit) (s : State μ ρ) :
    (persistCheckpointLocked write s).laneConcurrency = s.laneConcurrency ∧
      (persistCheckpointLocked write s).maxTotalConcurrency = s.maxTotalConcurrency := by
  unfold persistCheckpointLocked
  split
  · split <;> exact ⟨rfl, rfl⟩
  · exact ⟨rfl, rfl⟩

/-- The active and the pending items of a lane are among the accepted ones, each once. -/
theorem open_count_le {s : State μ ρ} (h : Placed s) (id : String) :
    ((checkpointItems s).map (·.id)).count id ≤ (allLanes s.accepted).count id := by
  have hlane : ∀ lane, ((((s.active lane).filter (·.runId.isSome)).map (·.toSnapshot) ++
      ((s.pending lane).filter (·.runId.isSome)).map (·.toSnapshot)).map (·.id)).count id ≤
      (s.accepted lane).count id := by
    intro lane
    have hs := h.split lane id
    have ha : ((((s.active lane).filter (·.runId.isSome)).map (·.toSnapshot)).map (·.id)).count id ≤
        (idsOf s.active lane).count id := by
      rw [List.map_map]
      exact (List.filter_sublist.map _).count_le id
    have hp : ((((s.pending lane).filter (·.runId.isSome)).map (·.toSnapshot)).map (·.id)).count
        id ≤ (idsOf s.pending lane).count id := by
      rw [List.map_map]
      exact (List.filter_sublist.map _).count_le id
    rw [h.fifo lane, List.map_append, List.count_append, List.count_append]
    omega
  rw [count_allLanes]
  simp only [checkpointItems, laneOrder, List.flatMap_cons, List.flatMap_nil, List.append_nil,
    List.map_append, List.count_append] at hlane ⊢
  have h1 := hlane .main
  have h2 := hlane .cron
  have h3 := hlane .subagent
  have h4 := hlane .system
  omega

theorem checkpointItems_restorable {s : State μ ρ} (h : Placed s) :
    Restorable (checkpointItems s) := by
  refine ⟨List.nodup_iff_count_le_one.mpr fun id => (open_count_le h id).trans (h.unique id), ?_⟩
  intro c hc
  have hpos : 0 < (allLanes s.accepted).count c.id :=
    Nat.lt_of_lt_of_le (List.count_pos_iff.mpr (List.mem_map_of_mem hc)) (open_count_le h c.id)
  obtain ⟨lane, hid⟩ := mem_allLanes.mp (List.count_pos_iff.mp hpos)
  exact h.drawn lane c.id hid

/-- A body that moves items ends with the checkpoint, which lists them when its write succeeds. -/
theorem valid_persist {s : State μ ρ} (write : Except String Unit) (hp : Placed s)
    (he : s.persisted = true → s.checkpointEnabled = true) (hr : Restorable s.checkpoint) :
    Valid (persistCheckpointLocked write s) where
  toPlaced := placed_same hp (persist_same write s)
  enabled := by
    unfold persistCheckpointLocked
    split
    · rename_i h
      cases write <;> simp [h]
    · exact he
  checkpoint := by
    unfold persistCheckpointLocked
    split
    · cases write <;> simp [checkpointItems]
    · rename_i h
      exact fun hpers => absurd (he hpers) h
  restorable := by
    unfold persistCheckpointLocked
    split
    · cases write
      · exact hr
      · exact checkpointItems_restorable hp
    · exact hr

theorem valid_startOver (cfg : Config) {checkpoint : List (Snapshot μ)} {restored : List (Item μ ρ)}
    (hc : Restorable checkpoint) (h : (restored.map (·.id)).Nodup)
    (hd : ∀ item ∈ restored, Drawn item.id) : Valid (startOver cfg checkpoint restored) where
  fifo := fun lane => by simp [startOver, idsOf]
  split := fun lane id => by simp [startOver, idsOf]
  unique := fun id => by
    have hsum : ∀ items : List (Item μ ρ),
        (allLanes fun lane => (items.filter fun item => item.lane = lane).map (·.id)).count id =
          (items.map (·.id)).count id := by
      intro items
      induction items with
      | nil => simp [allLanes, laneOrder]
      | cons a as ih =>
        rw [count_allLanes] at ih ⊢
        cases hl : a.lane <;> simp [hl, List.count_cons] <;> omega
    have := List.nodup_iff_count_le_one.mp h id
    simpa [startOver, hsum] using this
  pendingLane := fun lane item hitem => by simpa using (List.mem_filter.mp hitem).2
  activeLane := fun lane item hitem => by simp [startOver] at hitem
  workers := fun id => by simp [startOver, allLanes, idsOf, laneOrder]
  drawn := fun lane id hid => by
    obtain ⟨item, hitem, rfl⟩ := List.mem_map.mp hid
    exact hd item (List.mem_filter.mp hitem).1
  enabled := by simp [startOver]
  checkpoint := by simp [startOver]
  restorable := hc

theorem restoreItem_id {hasWork : Snapshot μ → Bool} {newId now : String} {saved : Snapshot μ}
    {item : Item μ ρ} (h : restoreItem hasWork newId now saved = some item)
    (hd : Drawn saved.id) : item.id = saved.id := by
  unfold restoreItem at h
  split at h <;> [simp at h; skip]
  split at h <;> [skip; simp at h]
  rw [Option.some.injEq] at h
  rw [← h, if_neg hd.1, hd.2]

/-- What is restored from the checkpoint of an earlier queue keeps its ids. -/
theorem restored_ids (hasWork : Snapshot μ → Bool) (now : String)
    {saved : List (String × Snapshot μ)} (h : ∀ c ∈ saved.map (·.2), Drawn c.id) :
    ((restoreCheckpoint hasWork now saved : List (Item μ ρ)).map (·.id)).Sublist
      ((saved.map (·.2)).map (·.id)) := by
  induction saved with
  | nil => simp [restoreCheckpoint]
  | cons c saved ih =>
    have ih := ih fun d hd => h d (List.mem_cons_of_mem _ hd)
    rw [restoreCheckpoint] at ih ⊢
    cases hitem : (restoreItem hasWork c.1 now c.2 : Option (Item μ ρ)) with
    | none => simpa [hitem] using ih.cons c.2.id
    | some item =>
      have hid := restoreItem_id hitem (h c.2 (by simp))
      simpa [hitem, hid] using ih

theorem valid_start (cfg : Config) (hasWork : Snapshot μ → Bool) (now : String)
    {saved : List (String × Snapshot μ)} (h : Restorable (saved.map (·.2))) :
    Valid (start cfg hasWork now saved : State μ ρ) := by
  have hsub := restored_ids (ρ := ρ) hasWork now h.2
  refine valid_startOver cfg h (h.1.sublist hsub) fun item hitem => ?_
  obtain ⟨c, hc, hid⟩ := List.mem_map.mp (hsub.subset (List.mem_map_of_mem hitem))
  exact hid ▸ h.2 c hc

/-! ### One body at a time -/

theorem lane_update {f : Lane → List (Item μ ρ)} (hf : ∀ lane, ∀ item ∈ f lane, item.lane = lane)
    {lane : Lane} {items : List (Item μ ρ)} (hi : ∀ item ∈ items, item.lane = lane) :
    ∀ l, ∀ item ∈ Function.update f lane items l, item.lane = l := by
  intro l item hitem
  by_cases hl : l = lane
  · subst hl
    rw [Function.update_self] at hitem
    exact hi item hitem
  · rw [Function.update_of_ne hl] at hitem
    exact hf l item hitem

theorem placed_append {s : State μ ρ} (h : Placed s) (item : Item μ ρ)
    (hid : ∀ lane, item.id ∉ s.accepted lane) (hd : Drawn item.id) : Placed (append item s) where
  fifo := by
    intro lane
    by_cases hl : lane = item.lane
    · subst hl
      simp [append, idsOf, h.fifo item.lane]
    · simpa [append, idsOf, Function.update_of_ne hl] using h.fifo lane
  split := h.split
  unique := by
    intro id
    rw [append, count_allLanes_snoc]
    split_ifs with hx
    · have : id ∉ allLanes s.accepted := by
        rw [mem_allLanes]
        exact fun ⟨lane, hl⟩ => hid lane (hx ▸ hl)
      rw [List.count_eq_zero.mpr this]
    · exact h.unique id
  pendingLane := by
    refine lane_update h.pendingLane fun other hother => ?_
    rcases List.mem_append.mp hother with hother | hother
    · exact h.pendingLane _ other hother
    · rw [List.mem_singleton.mp hother]
  activeLane := h.activeLane
  workers := h.workers
  drawn := by
    intro lane id hmem
    by_cases hl : lane = item.lane
    · subst hl
      simp only [append, Function.update_self, List.mem_append, List.mem_singleton] at hmem
      rcases hmem with hmem | rfl
      · exact h.drawn _ id hmem
      · exact hd
    · simp only [append, Function.update_of_ne hl] at hmem
      exact h.drawn lane id hmem

theorem accepted_head {s : State μ ρ} (h : Placed s) {lane : Lane} {item : Item μ ρ}
    {queue : List (Item μ ρ)} (hq : s.pending lane = item :: queue) :
    s.accepted lane = s.dispatched lane ++ item.id :: queue.map (·.id) := by
  simp [h.fifo lane, idsOf, hq]

/-- A pending item is not active, so it enters the active items of its lane at the end. -/
theorem activate_active {s : State μ ρ} (h : Placed s) {lane : Lane} {item : Item μ ρ}
    {queue : List (Item μ ρ)} (now : String) (hq : s.pending lane = item :: queue) :
    (activate now lane item queue s).active = Function.update s.active lane
      (s.active lane ++ [runningItem now item]) := by
  have hfresh : (idsOf s.active lane).count item.id = 0 := by
    have h1 := count_le_allLanes s.accepted lane item.id
    have h2 := h.unique item.id
    have h3 := h.split lane item.id
    rw [accepted_head h hq, List.count_append, List.count_cons_self] at h1
    omega
  have hput : putById (runningItem now item) (s.active lane) =
      s.active lane ++ [runningItem now item] :=
    putById_fresh (List.count_eq_zero.mp hfresh)
  rw [activate, hput]

/-- The first pending item of a lane becomes active. -/
theorem placed_activate {s : State μ ρ} (h : Placed s) {lane : Lane} {item : Item μ ρ}
    {queue : List (Item μ ρ)} (now : String) (hq : s.pending lane = item :: queue) :
    Placed (activate now lane item queue s) := by
  have hacc := accepted_head h hq
  have hact := activate_active h now hq
  have hids : idsOf (activate now lane item queue s).active =
      Function.update (idsOf s.active) lane (idsOf s.active lane ++ [item.id]) := by
    rw [hact]
    funext l
    by_cases hl : l = lane
    · subst hl
      simp [idsOf, runningItem]
    · simp [idsOf, Function.update_of_ne hl]
  refine ⟨?_, ?_, h.unique, ?_, ?_, ?_, h.drawn⟩
  · intro l
    by_cases hl : l = lane
    · subst hl
      simp [activate, idsOf, hacc]
    · simpa [activate, idsOf, Function.update_of_ne hl] using h.fifo l
  · intro l id
    rw [hids]
    by_cases hl : l = lane
    · subst hl
      have := h.split l id
      simp only [activate, Function.update_self, List.count_append]
      omega
    · simpa [activate, Function.update_of_ne hl] using h.split l id
  · exact lane_update h.pendingLane fun other hother =>
      h.pendingLane lane other (hq ▸ List.mem_cons_of_mem _ hother)
  · rw [hact]
    refine lane_update h.activeLane fun other hother => ?_
    rcases List.mem_append.mp hother with hother | hother
    · exact h.activeLane lane other hother
    · rw [List.mem_singleton.mp hother]
      exact h.pendingLane lane item (hq ▸ List.mem_cons_self)
  · intro id
    rw [hids, count_allLanes_snoc, activate, List.count_append, List.count_singleton, h.workers id]
    simp

/-- The id of an active item occurs once among the active items. -/
theorem active_once {s : State μ ρ} (h : Placed s) {lane : Lane} {item : Item μ ρ}
    (hitem : item ∈ s.active lane) (l : Lane) :
    (idsOf s.active l).count item.id = if l = lane then 1 else 0 := by
  have hsum : (allLanes (idsOf s.active)).count item.id ≤ 1 := by
    have hle : ∀ l, (idsOf s.active l).count item.id ≤ (s.accepted l).count item.id := by
      intro l
      have := h.split l item.id
      rw [h.fifo l, List.count_append]
      omega
    refine le_trans ?_ (h.unique item.id)
    rw [count_allLanes, count_allLanes]
    exact Nat.add_le_add (hle _) (Nat.add_le_add (hle _) (Nat.add_le_add (hle _) (hle _)))
  have hpos : 0 < (idsOf s.active lane).count item.id :=
    List.count_pos_iff.mpr (List.mem_map_of_mem hitem)
  rw [count_allLanes] at hsum
  cases l <;> cases lane <;> simp only [reduceCtorEq, ↓reduceIte] <;> omega

/-- An active item becomes finished. -/
theorem placed_retire {s : State μ ρ} (h : Placed s) {item done : Item μ ρ}
    (hitem : item ∈ s.active done.lane) (hid : done.id = item.id) :
    Placed (retire item.id done s) := by
  have hone := active_once h hitem
  obtain ⟨lane, hlane⟩ : ∃ lane, done.lane = lane := ⟨_, rfl⟩
  rw [hlane] at hitem hone
  have hids : ∀ l id, (idsOf (Function.update s.active lane
      ((s.active lane).filter fun other => other.id ≠ item.id)) l).count id =
      if id = item.id then 0 else (idsOf s.active l).count id := by
    intro l id
    by_cases hl : l = lane
    · subst hl
      simpa [idsOf] using count_filter_ne (s.active l) item.id id
    · rw [idsOf, Function.update_of_ne hl]
      split_ifs with hx
      · have := hone l
        rw [if_neg hl] at this
        rw [hx]
        exact this
      · rfl
  rw [retire, hlane]
  refine ⟨h.fifo, ?_, h.unique, h.pendingLane, ?_, ?_, h.drawn⟩
  · intro l id
    have := h.split l id
    have hl1 := hone l
    rw [hids]
    by_cases hl : l = lane
    · subst hl
      simp only [idsOf, Function.update_self, List.map_append, List.map_cons, List.map_nil, hid,
        List.count_append, List.count_singleton] at this hl1 ⊢
      by_cases hx : id = item.id
      · subst hx
        simp at hl1 ⊢
        omega
      · have hx' : item.id ≠ id := fun e => hx e.symm
        simp [hx, hx']
        omega
    · simp only [idsOf, Function.update_of_ne hl] at this hl1 ⊢
      split_ifs with hx
      · subst hx
        simp [hl] at hl1
        simpa [hl1] using this
      · exact this
  · exact lane_update h.activeLane fun other hother =>
      h.activeLane lane other (List.mem_filter.mp hother).1
  · intro id
    have hw := h.workers id
    have h1 := hone .main
    have h2 := hone .cron
    have h3 := hone .subagent
    have h4 := hone .system
    rw [count_allLanes] at hw ⊢
    rw [hids, hids, hids, hids, List.count_erase]
    by_cases hx : id = item.id
    · subst hx
      cases lane <;> simp at h1 h2 h3 h4 ⊢ <;> omega
    · have hx' : ¬ item.id = id := fun e => hx e.symm
      simp [hx, hx']
      omega

/-! ### Steps and runs -/

/-- All that a dispatch does, with the room it found in its lane and over all lanes. -/
theorem dispatch_cases {now : String} {write : Except String Unit} {s t : State μ ρ}
    (h : nextDispatchableItemLocked now write s = some t) :
    totalActive s < s.maxTotalConcurrency ∧ ∃ lane item queue cursor,
      s.pending lane = item :: queue ∧ (s.active lane).length < s.laneConcurrency lane ∧
      t = { persistCheckpointLocked write (activate now lane item queue s) with
        laneCursor := cursor } := by
  unfold nextDispatchableItemLocked at h
  split at h
  · simp at h
  rename_i hmax
  refine ⟨by omega, ?_⟩
  split at h
  · simp at h
  rename_i offset lane item queue hfound
  obtain ⟨offset', _, hc⟩ := List.exists_of_findSome?_eq_some hfound
  unfold candidate at hc
  simp only at hc
  split at hc
  · simp at hc
  rename_i hroom
  split at hc
  · simp at hc
  rename_i item' queue' hq
  simp only [Option.some.injEq, Prod.mk.injEq] at hc
  obtain ⟨_, rfl, rfl, rfl⟩ := hc
  exact ⟨_, _, _, _, hq, by omega, by simpa using h.symm⟩

theorem finish_cases {id : String} {report : Report ρ} {now : String} {write : Except String Unit}
    {s t : State μ ρ} (h : finishItem id report now write s = some t) :
    ∃ lane, ∃ item ∈ s.active lane, item.id = id ∧
      t = persistCheckpointLocked write (retire id (finishedItem report now item) s) := by
  unfold finishItem at h
  split at h <;> [skip; simp at h]
  split at h <;> [simp at h; skip]
  rename_i item hfound
  obtain ⟨lane, _, hitem⟩ := List.exists_of_findSome?_eq_some hfound
  exact ⟨lane, item, List.mem_of_find?_eq_some hitem, by simpa using List.find?_some hitem,
    by simpa using h.symm⟩

/-- One step with a fresh id keeps the items in their places and the checkpoint up to date. -/
theorem valid_step {s t : State μ ρ} {l : Label μ ρ} (hv : Valid s) (hf : FreshId s l)
    (hst : step s l = some t) : Valid t := by
  cases l with
  | enqueue lane label metadata runId id now write =>
    simp only [step] at hst
    split at hst <;> rw [Option.some.injEq] at hst <;> subst hst
    · exact hv
    · unfold enqueue
      split
      · exact valid_persist write (placed_append hv.toPlaced _ (fun l => hf.2 l (mem_laneOrder l)) hf.1) hv.enabled
          hv.restorable
      · exact hv
  | setLaneConcurrency lane value =>
    simp only [step] at hst
    split at hst <;> rw [Option.some.injEq] at hst <;> subst hst
    · exact hv
    · exact valid_same hv ⟨rfl, rfl, rfl, rfl, rfl, rfl⟩ rfl rfl rfl
  | dispatch now write =>
    simp only [step] at hst
    split at hst <;> [simp at hst; skip]
    obtain ⟨_, lane, item, queue, cursor, hq, _, rfl⟩ := dispatch_cases hst
    have hact := valid_persist write (placed_activate hv.toPlaced now hq) hv.enabled hv.restorable
    exact valid_same hact ⟨rfl, rfl, rfl, rfl, rfl, rfl⟩ rfl rfl rfl
  | finish id report now write =>
    simp only [step] at hst
    obtain ⟨lane, item, hitem, rfl, rfl⟩ := finish_cases hst
    have hlane : (finishedItem report now item).lane = lane := hv.activeLane lane item hitem
    exact valid_persist write (placed_retire hv.toPlaced (hlane ▸ hitem) rfl) hv.enabled
      hv.restorable
  | beginShutdown =>
    simp only [step, Option.some.injEq] at hst
    subst hst
    exact valid_same hv ⟨rfl, rfl, rfl, rfl, rfl, rfl⟩ rfl rfl rfl
  | endShutdown write =>
    simp only [step] at hst
    split at hst <;> [skip; simp at hst]
    rw [Option.some.injEq] at hst
    subst hst
    exact valid_persist write (placed_same hv.toPlaced ⟨rfl, rfl, rfl, rfl, rfl, rfl⟩) hv.enabled
      hv.restorable
  | drained =>
    simp only [step] at hst
    split at hst <;> [skip; simp at hst]
    rw [Option.some.injEq] at hst
    subst hst
    exact valid_same hv ⟨rfl, rfl, rfl, rfl, rfl, rfl⟩ rfl rfl rfl

/-- A worker thread's item is active, so the lookup of `_finish_item` never fails. -/
theorem worker_active {s : State μ ρ} (hv : Valid s) {id : String} (hid : id ∈ s.workers) :
    ∃ lane, id ∈ idsOf s.active lane := by
  have hpos : 0 < (allLanes (idsOf s.active)).count id := by
    rw [← hv.workers id]
    exact List.count_pos_iff.mpr hid
  exact mem_allLanes.mp (List.count_pos_iff.mp hpos)

/-- The item a dispatch starts finds room in its lane and over all lanes. -/
theorem dispatch_room {now : String} {write : Except String Unit} {s t : State μ ρ} (hv : Valid s)
    (h : nextDispatchableItemLocked now write s = some t) :
    ∃ lane id, t.dispatched = Function.update s.dispatched lane (s.dispatched lane ++ [id]) ∧
      (idsOf s.pending lane).head? = some id ∧
      (t.active lane).length ≤ t.laneConcurrency lane ∧ totalActive t ≤ t.maxTotalConcurrency := by
  obtain ⟨hmax, lane, item, queue, cursor, hq, hroom, rfl⟩ := dispatch_cases h
  have hact : (persistCheckpointLocked write (activate now lane item queue s)).active =
      Function.update s.active lane (s.active lane ++ [runningItem now item]) :=
    (persist_same write _).active.trans (activate_active hv.toPlaced now hq)
  have hconc : (persistCheckpointLocked write (activate now lane item queue s)).laneConcurrency =
      s.laneConcurrency := (persist_limits write _).1
  have hmaxc : (persistCheckpointLocked write
      (activate now lane item queue s)).maxTotalConcurrency = s.maxTotalConcurrency :=
    (persist_limits write _).2
  refine ⟨lane, item.id, (persist_same write _).dispatched, by simp [idsOf, hq], ?_, ?_⟩
  · simp only [hact, hconc, Function.update_self, List.length_append, List.length_singleton]
    omega
  · simp only [totalActive, laneOrder, hact, hmaxc, List.foldl_cons, List.foldl_nil] at hmax ⊢
    cases lane <;> simp <;> omega

/-! ### Whole runs -/

/-- A queue starts valid over whatever checkpoint an earlier queue left, and stays so. -/
theorem valid_run {cfg : Config} {hasWork : Snapshot μ → Bool} {now : String}
    {saved : List (String × Snapshot μ)} {labels : List (Label μ ρ)} {s : State μ ρ}
    (h : Restorable (saved.map (·.2)))
    (hm : Meets step FreshId (start cfg hasWork now saved) labels)
    (hrun : Run.run step (start cfg hasWork now saved) labels = some s) : Valid s :=
  Run.run_inv (I := Valid) (fun _ _ _ hv hf hst => valid_step hv hf hst) hm
    (valid_start cfg hasWork now h) hrun

theorem left_restorable {checkpoint : List (Snapshot μ)} (h : Left ρ checkpoint) :
    Restorable checkpoint := by
  induction h with
  | empty => exact ⟨List.nodup_nil, fun c hc => absurd hc (by simp)⟩
  | queue _ hm hrun ih => exact (valid_run ih hm hrun).restorable

/-- In every state of every run: an accepted item is in one of pending, active and finished, once;
    the lanes are first in, first out; a dispatch stays within both limits; the checkpoint lists the
    unfinished items that have a run id. -/
theorem lane_queue_runs (cfg : Config) (hasWork : Snapshot μ → Bool) (now : String)
    {saved : List (String × Snapshot μ)} {labels : List (Label μ ρ)} {s : State μ ρ}
    (hleft : Left ρ (saved.map (·.2)))
    (hm : Meets step FreshId (start cfg hasWork now saved) labels)
    (hrun : Run.run step (start cfg hasWork now saved) labels = some s) :
    (∀ id, (allLanes (idsOf s.pending)).count id + (allLanes (idsOf s.active)).count id +
        (allLanes (idsOf s.finished)).count id = if id ∈ allLanes s.accepted then 1 else 0) ∧
      (allLanes s.dispatched).Nodup ∧
      (∀ lane, s.accepted lane = s.dispatched lane ++ idsOf s.pending lane) ∧
      (∀ now write t, step s (.dispatch now write) = some t → ∃ lane id,
        t.dispatched = Function.update s.dispatched lane (s.dispatched lane ++ [id]) ∧
          (idsOf s.pending lane).head? = some id ∧
          (t.active lane).length ≤ t.laneConcurrency lane ∧
          totalActive t ≤ t.maxTotalConcurrency) ∧
      (s.persisted = true → s.checkpoint = laneOrder.flatMap fun lane =>
        ((s.active lane ++ s.pending lane).filter (·.runId.isSome)).map (·.toSnapshot)) := by
  have hv := valid_run (left_restorable hleft) hm hrun
  refine ⟨?_, ?_, hv.fifo, ?_, ?_⟩
  · intro id
    have hsum : (allLanes (idsOf s.pending)).count id + (allLanes (idsOf s.active)).count id +
        (allLanes (idsOf s.finished)).count id = (allLanes s.accepted).count id := by
      simp only [count_allLanes, hv.fifo, List.count_append, hv.split]
      omega
    rw [hsum]
    split_ifs with hid
    · exact Nat.le_antisymm (hv.unique id) (List.count_pos_iff.mpr hid)
    · exact List.count_eq_zero.mpr hid
  · refine List.nodup_iff_count_le_one.mpr fun id => le_trans ?_ (hv.unique id)
    simp only [count_allLanes, hv.fifo, List.count_append]
    omega
  · intro now write t hst
    simp only [step] at hst
    split at hst <;> [simp at hst; exact dispatch_room hv hst]
  · intro hp
    simp only [hv.checkpoint hp, checkpointItems, List.filter_append, List.map_append]

/-- Two items of one lane, the second dispatched after the lane is widened, the first finished. -/
def widenedLane : List (Label Unit Unit) :=
  [.enqueue "main" "first" () "r1" "lane_1" "t0" (.ok ()),
    .enqueue " Main" "second" () "r2" "lane_2" "t1" (.ok ()),
    .dispatch "t2" (.ok ()),
    .setLaneConcurrency "main" 2,
    .dispatch "t3" (.error "disk full"),
    .finish "lane_1" ⟨"completed", none, "", "done", ""⟩ "t4" (.ok ())]

def fourLanes : Config := ⟨[], 4, 16, true⟩

/-- Both are dispatched in their order, and the checkpoint is what is still active. -/
theorem lane_queue_runs_widened : ∃ s, Run.run step
    (start fourLanes (fun _ => true) "t" [] : State Unit Unit) widenedLane = some s ∧
      s.dispatched .main = ["lane_1", "lane_2"] ∧
      s.checkpoint = ((s.active .main).map (·.toSnapshot)) ∧
      ∀ id, (allLanes (idsOf s.pending)).count id + (allLanes (idsOf s.active)).count id +
        (allLanes (idsOf s.finished)).count id = if id ∈ allLanes s.accepted then 1 else 0 := by
  obtain ⟨s, hs⟩ := Option.isSome_iff_exists.mp (by decide :
    (Run.run step (start fourLanes (fun _ => true) "t" [] : State Unit Unit)
      widenedLane).isSome = true)
  have hruns := lane_queue_runs fourLanes (fun _ => true) "t" Left.empty (by decide) hs
  have hd : (Run.run step (start fourLanes (fun _ => true) "t" [] : State Unit Unit)
      widenedLane).map (fun s => (s.dispatched .main, decide (s.checkpoint =
        (s.active .main).map (·.toSnapshot)))) = some (["lane_1", "lane_2"], true) := by decide
  rw [hs, Option.map_some, Option.some.injEq, Prod.mk.injEq, decide_eq_true_iff] at hd
  exact ⟨s, hs, hd.1, hd.2, hruns.1⟩

end Empyralis.Server.LaneQueue
