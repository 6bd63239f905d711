import Empyralis.Gateway.Client

/-! Acknowledgement and delivery. A replayed event is acknowledged once its lane task has settled
    without an error, a request once a response frame with its id has come in. Neither says that the
    item was delivered: `this.socket?.send` of a socket that is gone or closing throws nothing, and a
    response may report a failure. `Heard` is the condition under which an acknowledgement means
    delivery, in every run. -/

namespace Empyralis.Gateway.Cloud

open Outbox (Item SameRecord)

variable {π σ : Type*}

/-- An open socket took the frame of a replayed item with this request id. -/
def Lane.Handed (s : Lane π σ) (requestId : String) : Prop :=
  ∃ w ∈ s.written, ∃ item, w.origin = .replay item ∧ item.requestId = requestId

/-- The frame of an event item was handed to an open socket; the request of a request item was
    answered with success. -/
def Delivered (s : Client π σ) (item : Item π) : Prop :=
  if item.messageType = channelInbound then s.lane.Handed item.requestId
  else ∃ r ∈ s.exchange.responses, r.id = item.requestId ∧ r.ok

/-- Sockets on which `this.socket?.send` does nothing and throws nothing. -/
def dropsSilently : Option ReadyState → Bool
  | none | some .closing | some .closed => true
  | some .connecting | some .opened => false

def Origin.isReplay : Origin π → Bool
  | .publish => false
  | .replay _ => true

/-- No replayed frame is dropped in silence; a replay acknowledges event items only; a response that
    acknowledges anything acknowledges request items, and reports success. -/
def Heard (s : Client π σ) : ClientLabel π σ → Prop
  | .lane (.transmit k (.ok ()) _) =>
    match s.lane.tasks[k]? with
    | some task => task.origin.isReplay → dropsSilently s.lane.socket = false
    | none => True
  | .acknowledge r _ =>
    match s.replays[r]? with
    | some replay => ∀ item ∈ s.lane.outbox, item.requestId = replay.item.requestId →
        item.status ≠ .acknowledged → item.messageType = channelInbound
    | none => True
  | .exchange (.acknowledge i _) =>
    match s.exchange.responses[i]? with
    | some response => ∀ item ∈ s.lane.outbox, item.requestId = response.id →
        item.status ≠ .acknowledged → response.ok ∧ item.messageType ≠ channelInbound
    | none => True
  | _ => True

instance (s : Client π σ) (l : ClientLabel π σ) : Decidable (Heard s l) := by
  unfold Heard
  split
  · split <;> infer_instance
  · split <;> infer_instance
  · split <;> infer_instance
  · infer_instance

/-! ### The lane -/

/-- A replay that has settled without an error had its frame handed to an open socket. -/
def Lane.Honest (s : Lane π σ) : Prop :=
  ∀ task ∈ s.tasks, ∀ item, task.origin = .replay item → task.stage.succeeds →
    s.Handed item.requestId

theorem handed_mono {s t : Lane π σ} (hw : ∀ w ∈ s.written, w ∈ t.written) {requestId : String}
    (h : s.Handed requestId) : t.Handed requestId := by
  obtain ⟨w, hmem, item, horigin, hid⟩ := h
  exact ⟨w, hw w hmem, item, horigin, hid⟩

/-- What has been written and who queued each task stay. -/
structure Lane.Grows (s t : Lane π σ) : Prop where
  written : ∀ w ∈ s.written, w ∈ t.written
  origins : ∀ (k : Nat) (task : Task π σ), s.tasks[k]? = some task →
    ∃ task', t.tasks[k]? = some task' ∧ task'.origin = task.origin

theorem grows_setStage {s t : Lane π σ} {k : Nat} {task : Task π σ} {stage : TaskStage π σ}
    (hk : s.tasks[k]? = some task) (ht : t.tasks = (s.setStage k task stage).tasks)
    (hw : ∀ w ∈ s.written, w ∈ t.written) : s.Grows t where
  written := hw
  origins := by
    intro i other hi
    rw [ht]
    rcases Chain.getElem?_set_of { task with stage := stage } hk hi with ⟨-, rfl, hget⟩ | ⟨-, hget⟩
    · exact ⟨_, hget, rfl⟩
    · exact ⟨other, hget, rfl⟩

theorem mem_transmit_written {s : Lane π σ} {k : Nat} {task : Task π σ} {frame : EventFrame π σ}
    {encoded sent : Except String Unit} :
    ∀ w ∈ s.written, w ∈ (s.transmit k task frame encoded sent).written := by
  intro w hw
  rw [transmit_written]
  split
  · exact List.mem_append_left _ hw
  · exact hw

theorem Lane.step_grows {s t : Lane π σ} {l : LaneLabel π σ} (h : s.step l = some t) :
    s.Grows t := by
  cases Lane.step_moves h with
  | checkpoint _ _ | socket _ | outbox _ => exact ⟨fun _ hw => hw, fun k task hk => ⟨task, hk, rfl⟩⟩
  | queue _ _ _ _ =>
    exact ⟨fun _ hw => hw, fun k task hk => ⟨task, Chain.getElem?_snoc_of _ hk, rfl⟩⟩
  | begin hk _ _ => exact grows_setStage hk rfl fun _ hw => hw
  | move hk _ _ _ _ => exact grows_setStage hk rfl fun _ hw => hw
  | allocate hk _ => exact grows_setStage hk rfl fun _ hw => hw
  | build hk _ _ => exact grows_setStage hk rfl fun _ hw => hw
  | divert hk _ _ => exact grows_setStage hk rfl fun _ hw => hw
  | transmit hk _ => exact grows_setStage hk (transmit_tasks ..) mem_transmit_written

/-- One task moves to a stage in which it does not succeed, unless it did so before. -/
theorem honest_setStage {s t : Lane π σ} {k : Nat} {task : Task π σ} {stage : TaskStage π σ}
    (h : s.Honest) (hk : s.tasks[k]? = some task) (ht : t.tasks = (s.setStage k task stage).tasks)
    (hw : ∀ w ∈ s.written, w ∈ t.written)
    (hok : ∀ item, task.origin = .replay item → stage.succeeds →
      task.stage.succeeds ∨ t.Handed item.requestId) : t.Honest := by
  intro task' htask item horigin hsucceeds
  rw [ht] at htask
  rcases List.mem_or_eq_of_mem_set htask with htask | rfl
  · exact handed_mono hw (h task' htask item horigin hsucceeds)
  · rcases hok item horigin hsucceeds with hbefore | hhanded
    · exact handed_mono hw (h task (List.mem_of_getElem? hk) item horigin hbefore)
    · exact hhanded

/-- A replay's frame is dropped, or it is reported, or an open socket took it. -/
theorem replaySend_succeeds {socket : Option ReadyState} {requestId : String}
    {encoded sent : Except String Unit}
    (h : (replaySend socket requestId encoded sent : TaskStage π σ × Bool).1.succeeds)
    (hdrop : encoded = .ok () → dropsSilently socket = false) :
    (replaySend socket requestId encoded sent : TaskStage π σ × Bool).2 := by
  cases encoded with
  | error e => simp [replaySend, TaskStage.succeeds] at h
  | ok u =>
    have hdrop := hdrop rfl
    rcases socket with _ | (_ | _ | _ | _)
    · simp [dropsSilently] at hdrop
    · simp [replaySend, TaskStage.succeeds] at h
    · cases sent
      · simp [replaySend, TaskStage.succeeds] at h
      · rfl
    · simp [dropsSilently] at hdrop
    · simp [dropsSilently] at hdrop

/-- One step keeps the lane honest, unless a replayed frame is dropped in silence. -/
theorem Lane.step_honest {s t : Lane π σ} {l : LaneLabel π σ} (h : s.Honest)
    (hdrop : ∀ (k : Nat) (task : Task π σ) (sent : Except String Unit),
      l = .transmit k (.ok ()) sent → s.tasks[k]? = some task → task.origin.isReplay →
        dropsSilently s.socket = false)
    (hst : s.step l = some t) : t.Honest := by
  cases Lane.step_moves hst with
  | checkpoint _ _ | socket _ | outbox _ => exact h
  | queue origin type payload scope =>
    intro task htask item horigin hsucceeds
    rcases List.mem_append.mp htask with htask | htask
    · exact h task htask item horigin hsucceeds
    · rw [List.mem_singleton.mp htask] at hsucceeds
      simp [TaskStage.succeeds] at hsucceeds
  | begin hk _ _ =>
    exact honest_setStage h hk rfl (fun _ hw => hw) (by simp [TaskStage.succeeds])
  | move hk _ _ hok _ =>
    exact honest_setStage h hk rfl (fun _ hw => hw) fun _ _ hs => Or.inl (hok hs)
  | allocate hk _ =>
    exact honest_setStage h hk rfl (fun _ hw => hw) (by simp [TaskStage.succeeds])
  | build hk _ _ =>
    exact honest_setStage h hk rfl (fun _ hw => hw) (by simp [TaskStage.succeeds])
  | divert hk hstage _ =>
    refine honest_setStage h hk rfl (fun _ hw => hw) fun _ _ hs => Or.inl ?_
    rw [hstage]
    exact hs
  | @transmit k task frame encoded sent hk hstage =>
    refine honest_setStage h hk (transmit_tasks ..) mem_transmit_written fun item horigin hs => ?_
    rw [horigin] at hs
    have hsent : (sendFrame s.socket task.origin frame encoded sent).2 = true := by
      rw [horigin]
      refine replaySend_succeeds hs ?_
      rintro rfl
      exact hdrop k task sent rfl hk (by rw [horigin]; rfl)
    refine Or.inr ⟨⟨k, task.origin, frame⟩, ?_, item, horigin, rfl⟩
    simp [transmit_written, hsent]

/-- The tasks of the lane acknowledge nothing. -/
theorem Lane.step_acknowledged {s t : Lane π σ} {l : LaneLabel π σ} (hown : l.isOwn)
    (h : s.step l = some t) {item : Item π} (hitem : item ∈ t.outbox)
    (hack : item.status = .acknowledged) :
    ∃ old ∈ s.outbox, SameRecord item old ∧ old.status = .acknowledged := by
  cases Lane.step_moves h with
  | socket _ | outbox _ | queue _ _ _ _ => simp [LaneLabel.isOwn] at hown
  | checkpoint _ _ | begin _ _ _ | allocate _ _ | build _ _ _ => exact ⟨item, hitem, .refl item, hack⟩
  | move _ _ _ _ hout =>
    rcases hout with rfl | ⟨requestId, reason, now, rfl⟩
    · exact ⟨item, hitem, .refl item, hack⟩
    · have hperform : item ∈ Outbox.perform s.outbox (.markForReplay requestId reason now) := hitem
      obtain ⟨old, hold, hsame, hold' | ⟨now', heq⟩⟩ := Outbox.perform_acknowledged hperform hack
      · exact ⟨old, hold, hsame, hold'⟩
      · simp at heq
  | divert _ _ _ =>
    rcases List.mem_append.mp hitem with hitem | hitem
    · exact ⟨item, hitem, .refl item, hack⟩
    · rw [List.mem_singleton.mp hitem] at hack
      simp [Outbox.newItem] at hack
  | transmit _ _ =>
    rw [transmit_outbox] at hitem
    exact ⟨item, hitem, .refl item, hack⟩

/-! ### The client -/

/-- A replay on the lane has its task there; one that is about to acknowledge was handed over. -/
def Client.ReplaySound (s : Client π σ) (replay : Replay π σ) : Prop :=
  match replay.stage with
  | .inLane k => ∃ task, s.lane.tasks[k]? = some task ∧ task.origin = .replay replay.item
  | .acknowledging => s.lane.Handed replay.item.requestId
  | _ => True

structure Client.Sound (s : Client π σ) : Prop where
  honest : s.lane.Honest
  replays : ∀ replay ∈ s.replays, s.ReplaySound replay

theorem sound_start (content : Checkpoints.File) (outbox : List (Item π)) :
    (Client.start content outbox : Client π σ).Sound where
  honest := by simp [Lane.Honest, Client.start, Lane.start]
  replays := by simp [Client.start]

theorem grows_refl (s : Lane π σ) : s.Grows s := ⟨fun _ hw => hw, fun _ task hk => ⟨task, hk, rfl⟩⟩

theorem replaySound_mono {s t : Client π σ} (hgrows : s.lane.Grows t.lane) {replay : Replay π σ}
    (h : s.ReplaySound replay) : t.ReplaySound replay := by
  unfold Client.ReplaySound at h ⊢
  split
  · rename_i k hstage
    rw [hstage] at h
    obtain ⟨task, hk, horigin⟩ := h
    obtain ⟨task', hk', horigin'⟩ := hgrows.origins k task hk
    exact ⟨task', hk', horigin'.trans horigin⟩
  · rename_i hstage
    rw [hstage] at h
    exact handed_mono hgrows.written h
  · trivial

/-- The lane moves on; the replays stay, or are sound where they are new. -/
theorem sound_of {s t : Client π σ} (h : s.Sound) (hgrows : s.lane.Grows t.lane)
    (hhonest : t.lane.Honest)
    (hreplays : ∀ replay ∈ t.replays, replay ∈ s.replays ∨ t.ReplaySound replay) : t.Sound where
  honest := hhonest
  replays := by
    intro replay hreplay
    rcases hreplays replay hreplay with hold | hnew
    · exact replaySound_mono hgrows (h.replays replay hold)
    · exact hnew

theorem grows_perform (s : Lane π σ) (op : Option (Outbox.Op π)) : s.Grows (s.perform op) where
  written := by simp
  origins := fun k task hk => ⟨task, by rw [perform_tasks, hk], rfl⟩

theorem honest_perform {s : Lane π σ} (h : s.Honest) (op : Option (Outbox.Op π)) :
    (s.perform op).Honest := by
  intro task htask item horigin hs
  rw [perform_tasks] at htask
  exact handed_mono (grows_perform s op).written (h task htask item horigin hs)

theorem honest_queue {s : Lane π σ} (h : s.Honest) (origin : Origin π) (type : String) (payload : π)
    (scope : σ) : (s.queue origin type payload scope).Honest := by
  have hstep : s.step (.queue origin type payload scope) =
      some (s.queue origin type payload scope) := rfl
  exact Lane.step_honest h (by simp) hstep

theorem grows_queue (s : Lane π σ) (op : Option (Outbox.Op π)) (origin : Origin π) (type : String)
    (payload : π) (scope : σ) : s.Grows ((s.perform op).queue origin type payload scope) where
  written := by simp [Lane.queue]
  origins := fun k task hk =>
    ⟨task, Chain.getElem?_snoc_of _ (by rw [perform_tasks, hk]), rfl⟩

/-- A replay moves to a stage that is sound. -/
theorem replays_setReplay {s t : Client π σ} {r : Nat} {replay : Replay π σ} {stage : ReplayStage}
    (ht : t.replays = (s.setReplay r replay stage).replays)
    (hstage : t.ReplaySound { replay with stage := stage }) :
    ∀ replay ∈ t.replays, replay ∈ s.replays ∨ t.ReplaySound replay := by
  intro replay' hreplay'
  rw [ht] at hreplay'
  rcases List.mem_or_eq_of_mem_set hreplay' with hmem | rfl
  · exact Or.inl hmem
  · exact Or.inr hstage

/-- One step keeps the acknowledgements sound, if what it sends is heard. -/
theorem sound_step {s t : Client π σ} {l : ClientLabel π σ} (h : s.Sound) (hc : Heard s l)
    (hst : s.step l = some t) : t.Sound := by
  cases Client.step_moves hst with
  | lane hown hl =>
    refine sound_of h (Lane.step_grows hl) (Lane.step_honest h.honest ?_ hl) fun _ hr => Or.inl hr
    rintro k task sent rfl hk hreplay
    simp only [Heard, hk] at hc
    exact hc hreplay
  | exchange _ =>
    exact sound_of h (grows_perform ..) (honest_perform h.honest _) fun _ hr => Or.inl hr
  | prune now =>
    exact sound_of h (grows_perform s.lane (some _)) (honest_perform h.honest _)
      fun _ hr => Or.inl hr
  | publish type payload scope =>
    exact sound_of h (grows_queue s.lane none ..) (honest_queue h.honest _ _ _ _)
      fun _ hr => Or.inl hr
  | connection _ _ _ =>
    exact sound_of h ⟨fun _ hw => hw, fun _ task hk => ⟨task, hk, rfl⟩⟩ h.honest
      fun _ hr => Or.inl hr
  | failed _ _ | request _ _ _ | list _ | endPass _ _ _ =>
    exact sound_of h (grows_refl _) h.honest fun _ hr => Or.inl hr
  | next _ _ =>
    refine sound_of h (grows_refl _) h.honest fun replay hr => ?_
    rcases List.mem_append.mp hr with hr | hr
    · exact Or.inl hr
    · rw [List.mem_singleton.mp hr]
      exact Or.inr trivial
  | replayEvent _ _ _ =>
    refine sound_of h (grows_queue ..) (honest_queue (honest_perform h.honest _) _ _ _ _)
      (replays_setReplay rfl ?_)
    simp [Client.ReplaySound, Lane.queue]
  | replayRequest _ _ _ =>
    exact sound_of h (grows_perform ..) (honest_perform h.honest _) (replays_setReplay rfl trivial)
  | settle _ _ =>
    exact sound_of h (grows_perform ..) (honest_perform h.honest _) (replays_setReplay rfl trivial)
  | acknowledge _ _ =>
    exact sound_of h (grows_perform s.lane (some _)) (honest_perform h.honest _)
      (replays_setReplay rfl trivial)
  | @confirm _ r k replay task hr hstage hk hok =>
    refine sound_of h (grows_refl _) h.honest (replays_setReplay rfl ?_)
    -- the task of the replay settled without an error, so its frame was handed over
    have hlane : s.ReplaySound replay := h.replays replay (List.mem_of_getElem? hr)
    simp only [Client.ReplaySound, hstage] at hlane
    obtain ⟨task', hk', horigin⟩ := hlane
    obtain rfl : task = task' := Option.some.inj (hk.symm.trans hk')
    exact h.honest task (List.mem_of_getElem? hk) replay.item horigin (by rw [hok]; rfl)

/-! ### Acknowledgements -/

/-- Whatever the step makes acknowledged is delivered by then. -/
def AcksDelivered (s : Client π σ) (l : ClientLabel π σ) : Prop :=
  ∀ t, s.step l = some t → ∀ item ∈ t.lane.outbox, item.status = .acknowledged →
    (∃ old ∈ s.lane.outbox, SameRecord item old ∧ old.status = .acknowledged) ∨ Delivered t item

theorem perform_out {s : Lane π σ} {op : Option (Outbox.Op π)} {item : Item π}
    (h : item ∈ (s.perform op).outbox) (hack : item.status = .acknowledged) :
    ∃ old ∈ s.outbox, SameRecord item old ∧
      (old.status = .acknowledged ∨ ∃ now, op = some (.acknowledge item.requestId now)) := by
  cases op with
  | none => exact ⟨item, h, .refl item, Or.inl hack⟩
  | some op =>
    obtain ⟨old, hold, hsame, hold' | ⟨now, heq⟩⟩ := Outbox.perform_acknowledged h hack
    · exact ⟨old, hold, hsame, Or.inl hold'⟩
    · exact ⟨old, hold, hsame, Or.inr ⟨now, congrArg some heq⟩⟩

/-- An operation that is no acknowledgement makes nothing acknowledged. -/
theorem perform_quiet {s : Lane π σ} {op : Option (Outbox.Op π)} {item : Item π}
    (hop : ∀ requestId now, op ≠ some (.acknowledge requestId now))
    (h : item ∈ (s.perform op).outbox) (hack : item.status = .acknowledged) :
    ∃ old ∈ s.outbox, SameRecord item old ∧ old.status = .acknowledged := by
  obtain ⟨old, hold, hsame, hold' | ⟨now, heq⟩⟩ := perform_out h hack
  · exact ⟨old, hold, hsame, hold'⟩
  · exact absurd heq (hop _ _)

theorem isMark_not_acknowledge {op : Option (Outbox.Op π)} (h : IsMark op) (requestId : String)
    (now : Int) : op ≠ some (.acknowledge requestId now) := by
  rcases h with rfl | ⟨r, n, rfl⟩ <;> simp

theorem acksDelivered_of_heard {s : Client π σ} {l : ClientLabel π σ} (h : s.Sound)
    (hc : Heard s l) : AcksDelivered s l := by
  intro t hst item hitem hack
  cases Client.step_moves hst with
  | lane hown hl => exact Or.inl (Lane.step_acknowledged hown hl hitem hack)
  | connection _ _ _ | failed _ _ | request _ _ _ | list _ | endPass _ _ _ | next _ _
  | confirm _ _ _ _ => exact Or.inl ⟨item, hitem, .refl item, hack⟩
  | publish _ _ _ => exact Or.inl ⟨item, hitem, .refl item, hack⟩
  | prune now => exact Or.inl (perform_quiet (by simp) hitem hack)
  | replayEvent _ _ hop => exact Or.inl (perform_quiet (isMark_not_acknowledge hop) hitem hack)
  | replayRequest _ _ hop => exact Or.inl (perform_quiet (isMark_not_acknowledge hop) hitem hack)
  | settle _ hop => exact Or.inl (perform_quiet (isMark_not_acknowledge hop) hitem hack)
  | @exchange l x op hx =>
    obtain ⟨old, hold, hsame, hold' | ⟨now, rfl⟩⟩ := perform_out hitem hack
    · exact Or.inl ⟨old, hold, hsame, hold'⟩
    · by_cases hbefore : old.status = .acknowledged
      · exact Or.inl ⟨old, hold, hsame, hbefore⟩
      · obtain ⟨-, hop⟩ := Exchange.step_op hx
        obtain ⟨i, ok, rfl, hi, r, hr, hid, hok⟩ := hop _ _ rfl
        simp only [Heard, hi] at hc
        obtain ⟨hsuccess, htype⟩ := hc old hold hsame.2.1.symm hbefore
        refine Or.inr ?_
        rw [Delivered, if_neg (hsame.2.2.1 ▸ htype)]
        exact ⟨r, hr, hid, hok.trans hsuccess⟩
  | @acknowledge r replay now hr hstage =>
    obtain ⟨old, hold, hsame, hold' | ⟨now', heq⟩⟩ := perform_out hitem hack
    · exact Or.inl ⟨old, hold, hsame, hold'⟩
    · by_cases hbefore : old.status = .acknowledged
      · exact Or.inl ⟨old, hold, hsame, hbefore⟩
      · simp only [Option.some.injEq, Outbox.Op.acknowledge.injEq] at heq
        simp only [Heard, hr] at hc
        have htype := hc old hold (hsame.2.1.symm.trans heq.1.symm) hbefore
        have hhanded : s.ReplaySound replay := h.replays replay (List.mem_of_getElem? hr)
        simp only [Client.ReplaySound, hstage] at hhanded
        refine Or.inr ?_
        rw [Delivered, if_pos (hsame.2.2.1.trans htype), ← heq.1]
        exact handed_mono (grows_perform s.lane _).written hhanded

/-- In a run that meets `Heard` no record becomes acknowledged before it is delivered. -/
theorem acknowledged_delivered {content : Checkpoints.File} {outbox : List (Item π)}
    {labels : List (ClientLabel π σ)}
    (hm : Run.Meets Client.step Heard (Client.start content outbox) labels) :
    Run.Meets Client.step AcksDelivered (Client.start content outbox) labels :=
  Run.meets_inv (fun _ _ _ hi hc hst => sound_step hi hc hst)
    (fun _ _ hi hc => acksDelivered_of_heard hi hc) (sound_start content outbox) hm

/-- The replay of the held item up to the frame that it is about to send. -/
def replayHeld : List (ClientLabel String Unit) :=
  [.socket (some .opened), .scope (some ()), .replayPendingOutbox, .replayNext 0,
    .replayItem 0 "t" 1] ++ firstTask.dropLast

/-- The frame is handed over, or is not, and the item is acknowledged. -/
def finishReplay : List (ClientLabel String Unit) :=
  [.lane (.transmit 0 (.ok ()) (.ok ())), .replaySettle 0, .acknowledge 0 2]

theorem acknowledged_delivered_open :
    (∃ t, Run.run Client.step (Client.start Checkpoints.emptyDisk [heldItem])
      (replayHeld ++ finishReplay) = some t ∧
        t.lane.outbox.map (·.status) = [Outbox.Status.acknowledged]) ∧
    Run.Meets Client.step AcksDelivered (Client.start Checkpoints.emptyDisk [heldItem])
      (replayHeld ++ finishReplay) :=
  ⟨⟨_, rfl, rfl⟩, acknowledged_delivered (by decide)⟩

/-- The socket closes while the replay awaits the journal: nothing is sent, and the item is
    acknowledged all the same. -/
theorem closed_socket_acknowledged :
    (∃ t, Run.run Client.step (Client.start Checkpoints.emptyDisk [heldItem])
      (replayHeld ++ [.closed "gone"] ++ finishReplay) = some t ∧
        t.lane.outbox.map (·.status) = [Outbox.Status.acknowledged] ∧ t.lane.written = []) ∧
    ¬ Run.Meets Client.step AcksDelivered (Client.start Checkpoints.emptyDisk [heldItem])
      (replayHeld ++ [.closed "gone"] ++ finishReplay) := by
  refine ⟨⟨_, rfl, rfl, rfl⟩, fun h => ?_⟩
  have hsplit : Run.Meets Client.step AcksDelivered
      (Client.start Checkpoints.emptyDisk [heldItem])
      ((replayHeld ++ [.closed "gone"] ++
        [.lane (.transmit 0 (.ok ()) (.ok ())), .replaySettle 0]) ++ [.acknowledge 0 2]) := h
  have hlast := Run.meets_append hsplit rfl
  rcases hlast.1 _ rfl _ List.mem_cons_self rfl with ⟨old, hold, -, hack⟩ | hdelivered
  · obtain rfl := List.mem_singleton.mp hold
    exact absurd hack (by decide)
  · rw [Delivered, if_pos (by decide)] at hdelivered
    obtain ⟨w, hw, -⟩ := hdelivered
    exact List.not_mem_nil hw

end Empyralis.Gateway.Cloud
