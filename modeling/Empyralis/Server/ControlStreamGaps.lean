import Empyralis.Server.ControlStream

/-! When a control stream misses an event, and that it does not wait while it has one to yield. -/

namespace Empyralis.Server.ControlStream
open Lib Run

variable {l : Lowercase} {s t : State} {a : Label} {st next : Stream} {m : Move}

/-! ### Gaps -/

/-- The `i`-th stream has missed nothing: it has been given the first of the events it is there for. -/
def Gapless (i : Nat) (s : State) : Prop := ∀ st, s.streams[i]? = some st → st.delivered ++ st.pending <+: s.wanted st

/-- When the `i`-th stream lists its events, the backlog still has all that it has not seen. -/
def KeepsUp (i : Nat) (s : State) (a : Label) : Prop :=
  ∀ st, a = .move i .poll → s.streams[i]? = some st → st.phase = .polling → (s.unseen st).length ≤ backlogLimit

theorem unseen_of_gapless (hs : Inv l s) (hst : st ∈ s.streams) (hpending : st.pending = [])
    (hgap : st.delivered ++ st.pending <+: s.wanted st) : s.wanted st = st.delivered ++ s.unseen st := by
  have hi := hs.streams st hst
  rw [hpending, List.append_nil] at hgap
  obtain ⟨rest, hrest⟩ := hgap
  have hincreasing := wanted_increasing hs.log st
  have hseen : BoundedLog.after ControlEvent.sequence st.lastSequence (s.wanted st) = rest := by
    rw [hi.stands, ← hrest]
    rw [← hrest] at hincreasing
    exact BoundedLog.after_cursor hincreasing fun e he => BoundedLog.lt_of_mem_after (hrest ▸ he)
  rw [unseen_eq hi, hseen, hrest]

/-- A poll that lists fewer events than there are leaves a gap, and one that lists all leaves none. -/
theorem poll_gapless_iff (hs : Inv l s) (hst : st ∈ s.streams) (hpending : st.pending = [])
    (hgap : st.delivered ++ st.pending <+: s.wanted st) :
    st.delivered ++ BoundedLog.after ControlEvent.sequence st.lastSequence (s.backlog st.runtimeId) <+: s.wanted st ↔
      (s.unseen st).length ≤ backlogLimit := by
  have hincreasing : BoundedLog.Increasing ControlEvent.sequence (s.unseen st) :=
    List.Pairwise.filter _ (runtimeLog_increasing hs.log st.runtimeId)
  rw [poll_eq hs.log, unseen_of_gapless hs hst hpending hgap, List.prefix_append_right_inj]
  exact BoundedLog.latest_prefix_iff (by decide) hincreasing

/-- One step leaves no gap, if the stream keeps up. -/
theorem gapless_step {i : Nat} (hs : Inv l s) (hgap : Gapless i s) (hkeeps : KeepsUp i s a) (h : Effect l s a t) :
    Gapless i t := by
  cases h with
  | same => exact hgap
  | published => exact fun st hst => (hgap st hst).trans (wanted_publish ..)
  | @notified k notice hnotice =>
    cases notice with
    | read r => exact hgap
    | wake j =>
      intro st hst
      simp only [notify, List.getElem?_modify] at hst
      obtain ⟨old, hold, hnew⟩ := Option.map_eq_some_iff.mp hst
      split at hnew
      · subst hnew
        exact hgap old hold
      · subst hnew
        exact hgap old hold
  | subscribed a runtimeId sinceSequence heartbeat timeout now =>
    intro st hst
    rcases Nat.lt_or_ge i s.streams.length with hlt | hge
    · rw [List.getElem?_append_left hlt] at hst
      exact hgap st hst
    · rw [List.getElem?_append_right hge, List.getElem?_singleton] at hst
      split at hst
      · cases hst
        exact List.nil_prefix
      · cases hst
  | @moved j m old next hold hturn =>
    intro st hst
    simp only [State.setStream, List.getElem?_set] at hst
    split at hst
    · rename_i hij
      subst hij
      split at hst
      · cases hst
        have hmem := List.mem_of_getElem? hold
        have hprefix := hgap old hold
        rcases turn_cases hturn with ⟨rfl, hphase, rfl⟩ | ⟨record, rest, hphase, hpending, rfl⟩ |
          ⟨hphase, hpending, now, at_, rfl⟩ | ⟨rfl, hphase⟩ | rfl
        · have hpending := (hs.streams old hmem).idle (.inl hphase)
          exact (poll_gapless_iff hs hmem hpending hprefix).mpr (hkeeps old rfl hold hphase)
        · rw [hpending, ← List.singleton_append, ← List.append_assoc,
            ← delivered_deliver (l := l) record rest] at hprefix
          exact hprefix
        · obtain ⟨hruntime, hsince, -, hpend, -⟩ := decide_fields old now at_
          rw [delivered_decide, hpend, State.wanted, hruntime, hsince]
          exact hprefix
        · exact hprefix
        · exact hprefix
      · cases hst
    · exact hgap st hst

/-- A stream has a gap in no state of a run just when it always keeps up: whenever it lists its events, no more than the
    backlog holds have come for its runtime since the last one that it has yielded. -/
theorem gapless_iff_keepsUp (i : Nat) (as : List Label) :
    (∀ bs t, bs <+: as → run (step l) start bs = some t → Gapless i t) ↔ Meets (step l) (KeepsUp i) start as := by
  refine all_iff_meets (I := fun s => Inv l s ∧ Gapless i s) (L := fun _ => True) (fun s hs => hs.2) ?_ ?_ ?_
    (fun _ _ => trivial)
  · intro s a t hs _ hkeeps hstep
    have heffect := step_effect hstep
    exact ⟨inv_step hs.1 heffect, gapless_step hs.1 hs.2 hkeeps heffect⟩
  · rintro s a ⟨hs, hgap⟩ - hnext st rfl hst hphase
    have hmem := List.mem_of_getElem? hst
    have hpending := (hs.streams st hmem).idle (.inl hphase)
    -- the poll is a step of the run, and leaves no gap
    have hpoll := hnext (s.setStream i { st with
      phase := .yielding
      pending := BoundedLog.after ControlEvent.sequence st.lastSequence (s.backlog st.runtimeId) })
      (by simp only [step, hst, Option.bind_some, turn, hphase, if_true, listRuntimeControlEvents, Token.read_text,
            Option.map_some])
    obtain ⟨hlt, -⟩ := List.getElem?_eq_some_iff.mp hst
    have hprefix := hpoll _ (by rw [State.setStream, List.getElem?_set_self hlt])
    exact (poll_gapless_iff hs hmem hpending (hgap st hst)).mp hprefix
  · refine ⟨inv_start, ?_⟩
    rintro st ⟨⟩

/-! ### Signals -/

/-- A stream that has listed its events does not wait in vain: when more have come, its signal is set, or will be. -/
def Alerted (s : State) (i : Nat) (st : Stream) : Prop :=
  st.phase = .yielding ∨ st.phase = .waiting →
    BoundedLog.after ControlEvent.sequence
      (BoundedLog.cursor ControlEvent.sequence st.since (st.delivered ++ st.pending)) (s.runtimeLog st.runtimeId) ≠ [] →
    st.signal = true ∨ .read st.runtimeId ∈ s.notices ∨ .wake i ∈ s.notices

theorem mem_eraseIdx {α : Type} {xs : List α} {x y : α} {k : Nat} (hy : xs[k]? = some y) (hx : x ∈ xs) (hne : x ≠ y) :
    x ∈ xs.eraseIdx k := by
  obtain ⟨j, hj⟩ := List.getElem?_of_mem hx
  refine List.mem_eraseIdx_iff_getElem?.mpr ⟨j, ?_, hj⟩
  rintro rfl
  exact hne (Option.some.inj (hj.symm.trans hy))

theorem alerted_turn {i : Nat} (hs : Inv l s) (hmem : st ∈ s.streams) (hi : Alerted s i st)
    (h : turn l s st m = some next) : Alerted (s.setStream i next) i next := by
  have hinv := hs.streams st hmem
  rcases turn_cases h with ⟨rfl, hphase, rfl⟩ | ⟨record, rest, hphase, hpending, rfl⟩ |
    ⟨hphase, hpending, now, at_, rfl⟩ | ⟨rfl, hphase⟩ | rfl
  · -- everything that had come is listed
    rintro - hmore
    refine absurd ?_ hmore
    have hleft : BoundedLog.after ControlEvent.sequence (BoundedLog.cursor ControlEvent.sequence st.since
        (st.delivered ++ BoundedLog.latest backlogLimit (BoundedLog.after ControlEvent.sequence
          (BoundedLog.cursor ControlEvent.sequence st.since st.delivered) (s.runtimeLog st.runtimeId))))
        (s.runtimeLog st.runtimeId) = [] :=
      BoundedLog.after_cursor_latest (by decide) (runtimeLog_increasing hs.log st.runtimeId)
    rw [← hinv.stands] at hleft
    change BoundedLog.after ControlEvent.sequence (BoundedLog.cursor ControlEvent.sequence st.since (st.delivered ++
      BoundedLog.after ControlEvent.sequence st.lastSequence (s.backlog st.runtimeId))) (s.runtimeLog st.runtimeId) = []
    rw [poll_eq hs.log st]
    exact hleft
  · have hnew : (st.deliver l record rest).delivered ++ rest = st.delivered ++ st.pending := by
      rw [delivered_deliver, List.append_assoc, List.singleton_append, hpending]
    rintro - hmore
    exact hi (.inl hphase) (by rw [← hnew]; exact hmore)
  · unfold Stream.decide
    split
    · rintro (hidle | hidle) <;> cases hidle
    · split
      · rintro (hidle | hidle) <;> cases hidle
      · exact fun _ hmore => hi (.inl hphase) hmore
  · rintro (hidle | hidle) <;> cases hidle
  · rintro (hidle | hidle) <;> cases hidle

/-- One step leaves no stream waiting unalerted. -/
theorem alerted_step (hs : Inv l s) (hi : ∀ i st, s.streams[i]? = some st → Alerted s i st) (h : Effect l s a t) :
    ∀ i st, t.streams[i]? = some st → Alerted t i st := by
  cases h with
  | same => exact hi
  | published a r eventType payload requestedAt =>
    intro i st hst hphase hmore
    by_cases hr : st.runtimeId = r
    · exact .inr (.inl (List.mem_append_right _ (by rw [hr]; exact List.mem_singleton_self _)))
    · rw [runtimeLog_publish, if_neg hr, List.append_nil] at hmore
      rcases hi i st hst hphase hmore with hsignal | hread | hwake
      · exact .inl hsignal
      · exact .inr (.inl (List.mem_append_left _ hread))
      · exact .inr (.inr (List.mem_append_left _ hwake))
  | @notified k notice hnotice =>
    cases notice with
    | read r =>
      intro i st hst hphase hmore
      by_cases hr : st.runtimeId = r
      · -- the stream is among the subscribers that are read
        refine .inr (.inr (List.mem_append_right _ ?_))
        refine List.mem_map.mpr ⟨(st, i), List.mem_filter.mpr ⟨List.mem_zipIdx_iff_getElem?.mpr hst, ?_⟩, rfl⟩
        simp only [Stream.follows, hr, decide_true, Bool.true_and, decide_eq_true_eq]
        rcases hphase with hphase | hphase <;> rw [hphase] <;> exact Phase.noConfusion
      · rcases hi i st hst hphase hmore with hsignal | hread | hwake
        · exact .inl hsignal
        · exact .inr (.inl (List.mem_append_left _ (mem_eraseIdx hnotice hread fun h => hr (Notice.read.inj h))))
        · exact .inr (.inr (List.mem_append_left _ (mem_eraseIdx hnotice hwake Notice.noConfusion)))
    | wake j =>
      intro i st hst hphase hmore
      simp only [notify, List.getElem?_modify] at hst
      obtain ⟨old, hold, hnew⟩ := Option.map_eq_some_iff.mp hst
      split at hnew
      · subst hnew
        exact .inl rfl
      · rename_i hne
        subst hnew
        rcases hi i old hold hphase hmore with hsignal | hread | hwake
        · exact .inl hsignal
        · exact .inr (.inl (mem_eraseIdx hnotice hread Notice.noConfusion))
        · exact .inr (.inr (mem_eraseIdx hnotice hwake fun h => hne (Notice.wake.inj h).symm))
  | subscribed a runtimeId sinceSequence heartbeat timeout now =>
    intro i st hst
    rcases Nat.lt_or_ge i s.streams.length with hlt | hge
    · rw [List.getElem?_append_left hlt] at hst
      exact hi i st hst
    · rw [List.getElem?_append_right hge, List.getElem?_singleton] at hst
      split at hst
      · cases hst
        rintro (hidle | hidle) <;> cases hidle
      · cases hst
  | @moved j m old next hold hturn =>
    intro i st hst
    simp only [State.setStream, List.getElem?_set] at hst
    split at hst
    · rename_i hij
      subst hij
      split at hst
      · cases hst
        exact alerted_turn hs (List.mem_of_getElem? hold) (hi j old hold) hturn
      · cases hst
    · exact hi i st hst

/-- No wakeup is lost: a stream that waits while there are events that it has not yielded has its signal set, or a
    notification that will set it is on its way. -/
theorem waiting_alerted {as : List Label} (hrun : run (step l) start as = some s) {i : Nat}
    (hst : s.streams[i]? = some st)
    (hphase : st.phase = .waiting) (hunseen : s.unseen st ≠ []) :
    st.signal = true ∨ .read st.runtimeId ∈ s.notices ∨ .wake i ∈ s.notices := by
  have hinv : Inv l s ∧ ∀ i st, s.streams[i]? = some st → Alerted s i st := by
    refine run_inv_all (I := fun s => Inv l s ∧ ∀ i st, s.streams[i]? = some st → Alerted s i st)
      (fun s a t hi hstep => ?_) ⟨inv_start, ?_⟩ hrun
    · have heffect := step_effect hstep
      exact ⟨inv_step hi.1 heffect, alerted_step hi.1 hi.2 heffect⟩
    · rintro i st ⟨⟩
  have hi := hinv.1.streams st (List.mem_of_getElem? hst)
  refine hinv.2 i st hst (.inr hphase) ?_
  rw [hi.idle (.inr hphase), List.append_nil, ← hi.stands]
  exact hunseen

theorem waiting_alerted_reconnection : ∃ s st, run (step Lowercase.ascii) start (reconnection ++ [Label.move 0 .deliver,
      .move 0 (.decide 1000 "09:02"), .append "laptop" "resume" ⟨none, none, none, none, none⟩ "09:03"]) = some s ∧
    s.streams[0]? = some st ∧ st.phase = .waiting ∧
    (st.signal = true ∨ .read st.runtimeId ∈ s.notices ∨ .wake 0 ∈ s.notices) := by
  let s := (run (step Lowercase.ascii) start (reconnection ++ [Label.move 0 .deliver, .move 0 (.decide 1000 "09:02"),
    .append "laptop" "resume" ⟨none, none, none, none, none⟩ "09:03"])).get (by decide)
  let st := s.streams[0]?.get (by decide)
  have hst : s.streams[0]? = some st := (Option.some_get _).symm
  have hphase : st.phase = .waiting := by decide
  exact ⟨s, st, (Option.some_get _).symm, hst, hphase,
    waiting_alerted (Option.some_get _).symm hst hphase (by decide)⟩

end Empyralis.Server.ControlStream
