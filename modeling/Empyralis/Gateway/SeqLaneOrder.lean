import Empyralis.Gateway.SeqLane

/-! The order of the frames that the lane writes. The invariant ties the lane, the gate of
    `allocateClientSeq` and the mirror together: what a task in progress holds, or is waiting for, is
    above every number written so far, and what is written came from tasks that have settled, so from
    earlier ones. -/

namespace Empyralis.Gateway.Cloud

open Checkpoints (Alloc Gate Advance)

variable {π σ : Type*}

/-- The number is above all those written. -/
def Lane.Above (s : Lane π σ) (n : Int) : Prop := ∀ w ∈ s.written, w.frame.seq < n

/-- What a task in progress may rely on. -/
def Lane.StageOk (s : Lane π σ) : TaskStage π σ → Prop
  | .allocating _ j => ∃ a, s.checkpoints.allocs[j]? = some a ∧ ∀ n ∈ a.drawn, s.Above n
  | .journaling frame =>
    s.Above frame.seq ∧ ∃ m ∈ s.checkpoints.lastKnownClientSeq, frame.seq ≤ m
  | _ => True

structure Lane.Ordered (s : Lane π σ) : Prop where
  gate : Gate s.checkpoints
  turn : Chain.InTurn Task.isWaiting Task.isSettled s.tasks
  increasing : s.written.Pairwise fun a b => a.place < b.place ∧ a.frame.seq < b.frame.seq
  sent : ∀ w ∈ s.written, ∃ task, s.tasks[w.place]? = some task ∧ task.isSettled
  mirror : ∀ w ∈ s.written, ∃ m ∈ s.checkpoints.lastKnownClientSeq, w.frame.seq ≤ m
  stages : ∀ task ∈ s.tasks, s.StageOk task.stage

theorem ordered_start (content : Checkpoints.File) (outbox : List (Outbox.Item π)) :
    (Lane.start content outbox : Lane π σ).Ordered where
  gate := Checkpoints.gate_start content []
  turn := Chain.inTurn_nil
  increasing := List.Pairwise.nil
  sent := by simp [Lane.start]
  mirror := by simp [Lane.start]
  stages := by simp [Lane.start]

theorem task_settled_not_waiting (task : Task π σ) (h : task.isSettled) : ¬ task.isWaiting := by
  unfold Task.isSettled at h
  unfold Task.isWaiting
  split at h <;> simp_all

/-- The store moves on: a number drawn meanwhile is above the mirror, so above what is written. -/
theorem stageOk_advance {s : Lane π σ} {ck : Checkpoints.State} (h : s.Ordered)
    (hadv : Advance s.checkpoints ck) {stage : TaskStage π σ} (hs : s.StageOk stage) :
    ({ s with checkpoints := ck } : Lane π σ).StageOk stage := by
  cases stage with
  | allocating ack j =>
    obtain ⟨a, ha, habove⟩ := hs
    obtain ⟨b, hb, hdrawn⟩ := hadv.drawn j a ha
    refine ⟨b, hb, fun n hn => ?_⟩
    rcases hdrawn n hn with hold | hnew
    · exact habove n hold
    · intro w hw
      obtain ⟨m, hm, hle⟩ := h.mirror w hw
      exact hle.trans_lt (hnew m hm)
  | journaling frame =>
    obtain ⟨habove, m, hm, hle⟩ := hs
    obtain ⟨m', hm', hle'⟩ := hadv.mirror m hm
    exact ⟨habove, m', hm', hle.trans hle'⟩
  | waiting | loading | loaded _ | enqueueing _ _ _ | marking _ _ _ | settled _ => trivial

theorem advance_refl (ck : Checkpoints.State) : Advance ck ck := Checkpoints.advance_same rfl rfl

/-- One task moves, on its turn, to a stage that it may be in; the store may move on under it. -/
theorem ordered_setStage {s : Lane π σ} {k : Nat} {task : Task π σ} {stage : TaskStage π σ}
    {ck : Checkpoints.State} (outbox : List (Outbox.Item π)) (h : s.Ordered) (gate : Gate ck)
    (hadv : Advance s.checkpoints ck) (hk : s.tasks[k]? = some task) (hsettled : ¬ task.isSettled)
    (hturn : Chain.InTurn Task.isWaiting Task.isSettled (s.setStage k task stage).tasks)
    (hstage : ({ s with checkpoints := ck } : Lane π σ).StageOk stage) :
    ({ s.setStage k task stage with checkpoints := ck, outbox := outbox } : Lane π σ).Ordered where
  gate := gate
  turn := hturn
  increasing := h.increasing
  sent := by
    intro w hw
    obtain ⟨task', hget, hset⟩ := h.sent w hw
    rcases Chain.getElem?_set_of { task with stage := stage } hk hget with ⟨-, heq, -⟩ | ⟨-, hget'⟩
    · exact absurd (heq ▸ hset) hsettled
    · exact ⟨task', hget', hset⟩
  mirror := by
    intro w hw
    obtain ⟨m, hm, hle⟩ := h.mirror w hw
    obtain ⟨m', hm', hle'⟩ := hadv.mirror m hm
    exact ⟨m', hm', hle.trans hle'⟩
  stages := by
    intro task' htask
    rcases List.mem_or_eq_of_mem_set htask with htask | rfl
    · exact stageOk_advance h hadv (h.stages task' htask)
    · exact hstage

theorem ordered_checkpoint {s : Lane π σ} {ck : Checkpoints.State} (h : s.Ordered) (gate : Gate ck)
    (hadv : Advance s.checkpoints ck) : ({ s with checkpoints := ck } : Lane π σ).Ordered where
  gate := gate
  turn := h.turn
  increasing := h.increasing
  sent := h.sent
  mirror := by
    intro w hw
    obtain ⟨m, hm, hle⟩ := h.mirror w hw
    obtain ⟨m', hm', hle'⟩ := hadv.mirror m hm
    exact ⟨m', hm', hle.trans hle'⟩
  stages := fun task htask => stageOk_advance h hadv (h.stages task htask)

theorem ordered_queue {s : Lane π σ} {task : Task π σ} (h : s.Ordered)
    (hw : task.stage = .waiting) : ({ s with tasks := s.tasks ++ [task] } : Lane π σ).Ordered where
  gate := h.gate
  turn := Chain.inTurn_queue h.turn (by simp [Task.isWaiting, hw])
  increasing := h.increasing
  sent := by
    intro w hw
    obtain ⟨task', hget, hset⟩ := h.sent w hw
    exact ⟨task', Chain.getElem?_snoc_of _ hget, hset⟩
  mirror := h.mirror
  stages := by
    intro task' htask
    rcases List.mem_append.mp htask with htask | htask
    · exact h.stages task' htask
    · rw [List.mem_singleton.mp htask, hw]
      trivial

/-- The task in progress writes its frame and settles. -/
theorem ordered_write {s : Lane π σ} {k : Nat} {task : Task π σ} {frame : EventFrame π σ}
    {ok : Bool} (h : s.Ordered) (hk : s.tasks[k]? = some task)
    (hstage : task.stage = .journaling frame) :
    ({ s.setStage k task (.settled ok) with
      written := s.written ++ [⟨k, task.origin, frame⟩] } : Lane π σ).Ordered := by
  have hbusy := busy_of_stage hstage (by simp) (by simp)
  obtain ⟨habove, hmirror⟩ : s.Above frame.seq ∧ _ := by
    simpa [hstage, Lane.StageOk] using h.stages task (List.mem_of_getElem? hk)
  have hset : (s.tasks.set k { task with stage := .settled ok })[k]? =
      some { task with stage := .settled ok } := by
    obtain ⟨hlt, -⟩ := List.getElem?_eq_some_iff.mp hk
    exact List.getElem?_set_self hlt
  -- the tasks that have written before have settled, so they are those before this one
  have hbefore : ∀ w ∈ s.written, w.place < k := by
    intro w hw
    obtain ⟨task', hget, hsettled⟩ := h.sent w hw
    rcases Nat.lt_trichotomy w.place k with hlt | heq | hgt
    · exact hlt
    · rw [heq, hk, Option.some.injEq] at hget
      exact absurd (hget ▸ hsettled) hbusy.2
    · exact absurd (Chain.after_waiting h.turn hk hbusy.2 hgt hget)
        (task_settled_not_waiting task' hsettled)
  -- no other task is in progress
  have hothers : ∀ (i : Nat) (other : Task π σ),
      (s.tasks.set k { task with stage := .settled ok })[i]? = some other →
        other.isWaiting ∨ other.isSettled := by
    intro i other hi
    rcases Chain.getElem?_set_cases hi with ⟨-, rfl⟩ | ⟨hki, hi⟩
    · exact Or.inr rfl
    · by_contra hother
      rw [not_or] at hother
      exact hki (Chain.busy_unique h.turn hk hbusy hi hother)
  refine ⟨h.gate, Chain.inTurn_step h.turn hk hbusy.1 hbusy.2, ?_, ?_, ?_, ?_⟩
  · refine List.pairwise_append.mpr ⟨h.increasing, List.pairwise_singleton _ _, fun a ha b hb => ?_⟩
    rw [List.mem_singleton.mp hb]
    exact ⟨hbefore a ha, habove a ha⟩
  · intro w hw
    rcases List.mem_append.mp hw with hw | hw
    · obtain ⟨task', hget, hsettled⟩ := h.sent w hw
      refine ⟨task', ?_, hsettled⟩
      simpa [Lane.setStage, List.getElem?_set_ne (Nat.ne_of_gt (hbefore w hw))] using hget
    · rw [List.mem_singleton.mp hw]
      exact ⟨_, hset, rfl⟩
  · intro w hw
    rcases List.mem_append.mp hw with hw | hw
    · exact h.mirror w hw
    · rw [List.mem_singleton.mp hw]
      exact hmirror
  · intro other hother
    obtain ⟨i, hi⟩ := List.mem_iff_getElem?.mp hother
    rcases hothers i other hi with hw | hs
    · unfold Task.isWaiting at hw
      split at hw <;> simp_all [Lane.StageOk]
    · unfold Task.isSettled at hs
      split at hs <;> simp_all [Lane.StageOk]

/-- The task goes on without number and frame, and settles when an open socket took its frame. -/
theorem sendFrame_cases (socket : Option ReadyState) (origin : Origin π) (frame : EventFrame π σ)
    (encoded sent : Except String Unit) :
    (∃ ok, sendFrame socket origin frame encoded sent = (.settled ok, true)) ∨
      ∃ stage, sendFrame socket origin frame encoded sent = (stage, false) ∧
        ∀ s : Lane π σ, s.StageOk stage := by
  cases origin with
  | publish =>
    simp only [sendFrame, publishSend]
    split_ifs
    · exact Or.inr ⟨_, rfl, fun _ => trivial⟩
    cases encoded <;> cases sent <;>
      first | exact Or.inl ⟨_, rfl⟩ | exact Or.inr ⟨_, rfl, fun _ => trivial⟩
  | replay item =>
    simp only [sendFrame, replaySend]
    cases encoded with
    | error e => exact Or.inr ⟨_, rfl, fun _ => trivial⟩
    | ok _ =>
      rcases socket with _ | (_ | _ | _ | _) <;> cases sent <;>
        first | exact Or.inl ⟨_, rfl⟩ | exact Or.inr ⟨_, rfl, fun _ => trivial⟩

/-- What a step keeps. -/
theorem ordered_step {s t : Lane π σ} {l : LaneLabel π σ} (h : s.Ordered)
    (hst : s.step l = some t) : t.Ordered := by
  cases Lane.step_moves hst with
  | checkpoint hl hck =>
    exact ordered_checkpoint h (Checkpoints.gate_step h.gate hck)
      (Checkpoints.step_advance h.gate hck hl)
  | socket _ => exact ⟨h.gate, h.turn, h.increasing, h.sent, h.mirror, h.stages⟩
  | outbox _ => exact ⟨h.gate, h.turn, h.increasing, h.sent, h.mirror, h.stages⟩
  | queue _ _ _ _ => exact ordered_queue h rfl
  | @begin k task hk hw hr =>
    exact ordered_setStage s.outbox h h.gate (advance_refl _) hk
      (fun hs => task_settled_not_waiting task hs hw)
      (Chain.inTurn_start task_settled_not_waiting h.turn hk hw hr) trivial
  | @move _ k task stage outbox hk hbusy hplain _ _ =>
    refine ordered_setStage outbox h h.gate (advance_refl _) hk hbusy.2
      (Chain.inTurn_step h.turn hk hbusy.1 hbusy.2) ?_
    cases stage <;> trivial
  | @allocate k task ack hk hstage =>
    have hbusy := busy_of_stage hstage (by simp) (by simp)
    have halloc : Checkpoints.step s.checkpoints .alloc =
        some { s.checkpoints with allocs := s.checkpoints.allocs ++ [.waiting] } := rfl
    refine ordered_setStage s.outbox h (Checkpoints.gate_step h.gate halloc)
      (Checkpoints.step_advance h.gate halloc (by simp)) hk hbusy.2
      (Chain.inTurn_step h.turn hk hbusy.1 hbusy.2) ?_
    exact ⟨.waiting, by simp, by simp [Alloc.drawn]⟩
  | @build k ts task ack seq j hk hstage hj =>
    have hbusy := busy_of_stage hstage (by simp) (by simp)
    obtain ⟨a, ha, habove⟩ : ∃ a, s.checkpoints.allocs[j]? = some a ∧ ∀ n ∈ a.drawn, s.Above n := by
      simpa [hstage, Lane.StageOk] using h.stages task (List.mem_of_getElem? hk)
    obtain rfl : a = .returned seq := Option.some.inj (ha.symm.trans hj)
    exact ordered_setStage s.outbox h h.gate (advance_refl _) hk hbusy.2
      (Chain.inTurn_step h.turn hk hbusy.1 hbusy.2)
      ⟨habove seq rfl, h.gate.drawn j _ hj seq rfl⟩
  | @divert k task frame reason id ok now hk hstage _ =>
    have hbusy := busy_of_stage hstage (by simp) (by simp)
    have hmoved : (s.setStage k task
        (.marking (eventRequestId frame.type frame.seq) reason ok)).Ordered :=
      ordered_setStage s.outbox h h.gate (advance_refl _) hk hbusy.2
        (Chain.inTurn_step h.turn hk hbusy.1 hbusy.2) trivial
    exact ⟨hmoved.gate, hmoved.turn, hmoved.increasing, hmoved.sent, hmoved.mirror, hmoved.stages⟩
  | @transmit k task frame encoded sent hk hstage =>
    have hbusy := busy_of_stage hstage (by simp) (by simp)
    rcases sendFrame_cases s.socket task.origin frame encoded sent with ⟨ok, hout⟩ |
      ⟨stage, hout, hok⟩
    · simpa [Lane.transmit, hout] using ordered_write h hk hstage
    · simp only [Lane.transmit, hout]
      exact ordered_setStage s.outbox h h.gate (advance_refl _) hk hbusy.2
        (Chain.inTurn_step h.turn hk hbusy.1 hbusy.2) (hok _)

end Empyralis.Gateway.Cloud
