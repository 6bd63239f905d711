import Empyralis.Server.PendingInvokes
import Mathlib.Data.List.Infix

/-! How often the frame of a durable `tool.invoke` is written.

    A claim is taken over from a session whose write may still be under way, and released when anything fails after
    the write, so a second flush may write the frame again. -/

namespace Empyralis.Server.InvokeWrites
open PendingInvokes

/-- At most one frame is written for each request id. -/
def WrittenOnce (s : State) : Prop := (s.written.map Frame.id).Nodup

/-- A claim is not granted for a frame that has been written, and a write that completes is of the flush whose claim
    was granted last. -/
def Clear (s : State) (i : Nat) (flush : Flush) (ok : Bool) : FlushStage → Prop
  | .next => ∀ p ∈ flush.rest.head?, ∀ pending ∈ s.invokes[p]?,
      (claimPendingInvoke pending flush.session).isSome → pending.requestId ∉ s.written.map Frame.id
  | .sending p => ok = true → s.claimants p = some i
  | _ => True

def Sole (s : State) : Label → Prop
  | .deliver i ok => ∀ flush ∈ s.flushes[i]?, Clear s i flush ok flush.stage
  | label => Distinct s label

structure Inv (s : State) : Prop where
  named : Named s
  once : WrittenOnce s
  unsent : ∀ i flush p id, s.flushes[i]? = some flush → p ∈ flush.stage.unsent → s.claimants p = some i →
    s.requestId p = some id → id ∉ s.written.map Frame.id
  claimed : ∀ p i, s.claimants p = some i → p < s.invokes.length

variable {s t : State}

theorem distinct_of_sole {l : Label} (h : Sole s l) : Distinct s l := by
  cases l with
  | dispatch gatewayId requestId fresh payload => exact h
  | _ => exact trivial

theorem requestId_of_grown (hids : s.invokes.map PendingInvoke.requestId <+: t.invokes.map PendingInvoke.requestId)
    {p : Nat} (hp : p < s.invokes.length) : t.requestId p = s.requestId p := by
  obtain ⟨rest, hrest⟩ := hids
  rw [State.requestId, State.requestId, ← List.getElem?_map, ← List.getElem?_map, ← hrest]
  exact List.getElem?_append_left (by rw [List.length_map]; exact hp)

/-- A step that writes no frame and grants no claim. -/
theorem Inv.mono (hi : Inv s) (hn : Named t) (hwritten : t.written = s.written) (hclaimants : t.claimants = s.claimants)
    (hflushes : ∀ (i : Nat) (flush : Flush), t.flushes[i]? = some flush → ∀ p ∈ flush.stage.unsent,
      ∃ old : Flush, s.flushes[i]? = some old ∧ p ∈ old.stage.unsent)
    (hids : s.invokes.map PendingInvoke.requestId <+: t.invokes.map PendingInvoke.requestId) : Inv t := by
  refine ⟨hn, ?_, fun i flush p id hflush hp hclaim hid => ?_, fun p i hclaim => ?_⟩
  · unfold WrittenOnce
    rw [hwritten]
    exact hi.once
  · rw [hclaimants] at hclaim
    rw [requestId_of_grown hids (hi.claimed p i hclaim)] at hid
    obtain ⟨old, hold, hunsent⟩ := hflushes i flush hflush p hp
    rw [hwritten]
    exact hi.unsent i old p id hold hunsent hclaim hid
  · rw [hclaimants] at hclaim
    have hlt := hi.claimed p i hclaim
    have hle := hids.length_le
    rw [List.length_map, List.length_map] at hle
    omega

theorem Inv.same (hi : Inv s) (hn : Named t) (hwritten : t.written = s.written) (hclaimants : t.claimants = s.claimants)
    (hflushes : t.flushes = s.flushes)
    (hids : s.invokes.map PendingInvoke.requestId <+: t.invokes.map PendingInvoke.requestId) : Inv t := by
  refine hi.mono hn hwritten hclaimants (fun i flush hflush p hp => ⟨flush, ?_, hp⟩) hids
  rw [← hflushes]
  exact hflush

/-- A flush is replaced by one that may write no other frame. -/
theorem unsent_set {i : Nat} {flush next : Flush} (hflush : s.flushes[i]? = some flush)
    (hnext : ∀ p ∈ next.stage.unsent, p ∈ flush.stage.unsent) (j : Nat) (other : Flush)
    (hother : (s.flushes.set i next)[j]? = some other) (p : Nat) (hp : p ∈ other.stage.unsent) :
    ∃ old, s.flushes[j]? = some old ∧ p ∈ old.stage.unsent := by
  rcases Chain.getElem?_set_cases hother with ⟨rfl, rfl⟩ | ⟨-, hsame⟩
  · exact ⟨flush, hflush, hnext p hp⟩
  · exact ⟨other, hsame, hp⟩

/-- The claim of a frame that has not been written. -/
theorem inv_claimed (hi : Inv s) {u : State} (hkept : Kept s u) {i : Nat} {next : Flush} {p : Nat}
    {pending : PendingInvoke} (hp : s.invokes[p]? = some pending)
    (hclear : pending.requestId ∉ s.written.map Frame.id) (hwritten : u.written = s.written)
    (hclaimants : u.claimants = Function.update s.claimants p (some i)) (hnext : next.stage = .gates p)
    (hn : Named { u with flushes := s.flushes.set i next }) : Inv { u with flushes := s.flushes.set i next } := by
  refine ⟨hn, ?_, fun j other q id hother hq hclaim hid => ?_, fun q j hclaim => ?_⟩
  · unfold WrittenOnce
    dsimp only
    rw [hwritten]
    exact hi.once
  · dsimp only at hother hclaim ⊢
    change u.requestId q = some id at hid
    rw [hkept.requestId] at hid
    rw [hwritten]
    by_cases hqp : q = p
    · subst hqp
      rw [requestId_of_get hp] at hid
      cases hid
      exact hclear
    · rw [hclaimants, Function.update_of_ne hqp] at hclaim
      rcases Chain.getElem?_set_cases hother with ⟨rfl, rfl⟩ | ⟨-, hsame⟩
      · rw [hnext] at hq
        cases hq
        exact absurd rfl hqp
      · exact hi.unsent j other q id hsame hq hclaim hid
  · have hlength : u.invokes.length = s.invokes.length := by
      simpa only [List.length_map] using congrArg List.length hkept.requestIds
    dsimp only at hclaim ⊢
    rw [hlength]
    by_cases hqp : q = p
    · subst hqp
      exact (List.getElem?_eq_some_iff.mp hp).1
    · rw [hclaimants, Function.update_of_ne hqp] at hclaim
      exact hi.claimed q j hclaim

/-- The write of the flush whose claim was granted last. -/
theorem inv_wrote (hi : Inv s) {u : State} (hkept : Kept s u) {i : Nat} {flush next : Flush} {p : Nat}
    {pending : PendingInvoke} (hflush : s.flushes[i]? = some flush) (hstage : flush.stage = .sending p)
    (hp : s.invokes[p]? = some pending) (hclaim : s.claimants p = some i)
    (hwritten : u.written = s.written ++ [⟨pending.requestId, flush.session, pending.payload⟩])
    (hclaimants : u.claimants = s.claimants) (hnext : next.stage.unsent = none)
    (hn : Named { u with flushes := s.flushes.set i next }) : Inv { u with flushes := s.flushes.set i next } := by
  have hpid := requestId_of_get hp
  have hnew : pending.requestId ∉ s.written.map Frame.id := by
    refine hi.unsent i flush p _ hflush ?_ hclaim hpid
    rw [hstage]
    rfl
  refine ⟨hn, ?_, fun j other q id hother hq hj hid => ?_, fun q j hj => ?_⟩
  · unfold WrittenOnce
    dsimp only
    rw [hwritten, List.map_append]
    refine List.Nodup.append hi.once (List.nodup_singleton _) fun id hold hlast => ?_
    obtain rfl := List.mem_singleton.mp hlast
    exact hnew hold
  · dsimp only at hother hj ⊢
    change u.requestId q = some id at hid
    rw [hkept.requestId] at hid
    rw [hclaimants] at hj
    rcases Chain.getElem?_set_cases hother with ⟨rfl, rfl⟩ | ⟨hij, hsame⟩
    · rw [hnext] at hq
      cases hq
    · rw [hwritten, List.map_append]
      intro hmem
      rcases List.mem_append.mp hmem with hold | hlast
      · exact hi.unsent j other q id hsame hq hj hid hold
      · -- the frame that was written is of the invoke that `i` has claimed
        obtain rfl := List.mem_singleton.mp hlast
        obtain rfl := hi.named.pending_eq hpid hid
        exact hij (Option.some.inj (hclaim.symm.trans hj))
  · have hlength : u.invokes.length = s.invokes.length := by
      simpa only [List.length_map] using congrArg List.length hkept.requestIds
    dsimp only at hj ⊢
    rw [hclaimants] at hj
    rw [hlength]
    exact hi.claimed q j hj

/-- One step keeps every invoke written at most once, if its claim is the only one. -/
theorem inv_step (hi : Inv s) {l : Label} (hc : Sole s l) (hst : step s l = some t) : Inv t := by
  have hn := named_step hi.named (distinct_of_sole hc) hst
  cases l with
  | dispatch gatewayId requestId fresh payload =>
    cases hst
    exact hi.same hn rfl rfl rfl (List.prefix_refl _)
  | move i m =>
    obtain ⟨call, u, next, -, -, hadv, rfl⟩ := move_cases hst
    refine hi.same hn hadv.written hadv.claimants hadv.flushes ?_
    rcases hadv.invokes with hsame | ⟨-, -, hnew⟩
    · dsimp only
      rw [hsame]
    · dsimp only
      rw [hnew, List.map_append]
      exact List.prefix_append _ _
  | flush gatewayId session =>
    cases hst
    refine hi.mono hn rfl rfl (fun i flush hflush p hp => ?_) (List.prefix_refl _)
    rcases Chain.getElem?_snoc_cases hflush with hold | ⟨-, rfl⟩
    · exact ⟨flush, hold, hp⟩
    · cases hp
  | deliver i ok =>
    obtain ⟨flush, u, next, hflush, hkept, hdelivered, rfl⟩ := deliver_cases hst
    have hclear := hc flush hflush
    cases hdelivered with
    | quiet hwritten hclaimants hunsent =>
      refine hi.mono hn hwritten hclaimants (unsent_set hflush hunsent) ?_
      dsimp only
      rw [hkept.requestIds]
    | claimed p rest pending claim hstage hrest hp hclaim hwritten hclaimants hnext =>
      rw [hstage] at hclear
      refine inv_claimed hi hkept hp ?_ hwritten hclaimants hnext hn
      exact hclear p (by rw [hrest]; rfl) pending hp (by rw [hclaim]; rfl)
    | wrote p pending hstage hok hp hwritten hclaimants hnext =>
      rw [hstage] at hclear
      exact inv_wrote hi hkept hflush hstage hp (hclear hok) hwritten hclaimants hnext hn
  | cancelFlush i =>
    obtain ⟨flush, hflush, hmap⟩ := Option.bind_eq_some_iff.mp hst
    obtain ⟨next, hnext, rfl⟩ := Option.map_eq_some_iff.mp hmap
    refine hi.mono hn rfl rfl (unsent_set hflush fun p hp => ?_) (List.prefix_refl _)
    rw [cancelFlush_unsent hnext] at hp
    cases hp
  | respond id ok tracked =>
    cases hst
    have hunmoved := resolve_unmoved s id ok tracked
    refine hi.same hn hunmoved.written hunmoved.claimants hunmoved.flushes ?_
    rw [hunmoved.invokes]

theorem inv_start : Inv start := by
  refine ⟨⟨List.nodup_nil, List.nodup_nil, fun _ h => (by cases h)⟩, List.nodup_nil, fun i flush p id h => ?_,
    fun p i h => ?_⟩
  · cases h
  · cases h

/-- A frame is written once in a run in which the calls have request ids of their own, no claim is granted for a
    frame that has been written, and a write completes only for the flush whose claim was granted last. -/
theorem invoke_written_once (labels : List Label) (h : Run.Meets step Sole start labels) (first : List Label)
    (t : State) (hfirst : first <+: labels) (hrun : Run.run step start first = some t) : WrittenOnce t := by
  obtain ⟨rest, rfl⟩ := hfirst
  have hinv := Run.run_inv (fun _ _ _ hi hc hst => inv_step hi hc hst) (Run.meets_prefix h) inv_start hrun
  exact hinv.once

/-! ### One dispatch -/

def enqueued : List Label := [.dispatch "gw-1" (some "req-1") "" [], .move 0 .proceed]

/-- The invoke is delivered, and another session comes too late. -/
def deliveredOnce : List Label :=
  enqueued ++ Label.flush "gw-1" "sess-a" :: .flush "gw-1" "sess-b" :: List.replicate 6 (.deliver 0 true) ++
    [Label.deliver 1 true]

/-- The event of a frame that was written is not recorded, and the next heartbeat flushes. -/
def unrecorded : List Label :=
  enqueued ++ Label.flush "gw-1" "sess-a" :: List.replicate 3 (.deliver 0 true) ++
    Label.deliver 0 false :: .deliver 0 true :: .flush "gw-1" "sess-a" :: List.replicate 3 (.deliver 1 true)

instance (s : State) (i : Nat) (flush : Flush) (ok : Bool) : DecidablePred (Clear s i flush ok)
  | .next => inferInstanceAs (Decidable (∀ p ∈ flush.rest.head?, ∀ pending ∈ s.invokes[p]?,
      (claimPendingInvoke pending flush.session).isSome → pending.requestId ∉ s.written.map Frame.id))
  | .sending p => inferInstanceAs (Decidable (ok = true → s.claimants p = some i))
  | .gates _ | .recording _ | .releasing _ | .marking _ | .removing _ => inferInstanceAs (Decidable True)

instance (s : State) : DecidablePred (Sole s)
  | .deliver i ok => inferInstanceAs (Decidable (∀ flush ∈ s.flushes[i]?, Clear s i flush ok flush.stage))
  | .dispatch gatewayId requestId fresh payload =>
    inferInstanceAs (Decidable (Distinct s (.dispatch gatewayId requestId fresh payload)))
  | .move _ _ | .flush _ _ | .cancelFlush _ | .respond _ _ _ => inferInstanceAs (Decidable True)

instance (s : State) : Decidable (WrittenOnce s) := inferInstanceAs (Decidable (List.Nodup _))

theorem invoke_written_once_sent : ∃ t, Run.run step start deliveredOnce = some t ∧ WrittenOnce t := by
  obtain ⟨t, hrun⟩ := Option.isSome_iff_exists.mp
    (by decide : (Run.run step start deliveredOnce).isSome = true)
  exact ⟨t, hrun, invoke_written_once deliveredOnce (by decide) deliveredOnce t (List.prefix_refl _) hrun⟩

/-- The frame is sent, its recording fails, and the next flush sends it again. -/
theorem invoke_written_twice : ∃ t, Run.run step start unrecorded = some t ∧ ¬ WrittenOnce t := by
  have hany : (Run.run step start unrecorded).any fun t => ¬ WrittenOnce t := by decide
  obtain ⟨t, hrun, hnot⟩ := (Option.any_eq_true _ _).mp hany
  exact ⟨t, hrun, of_decide_eq_true hnot⟩

end Empyralis.Server.InvokeWrites
