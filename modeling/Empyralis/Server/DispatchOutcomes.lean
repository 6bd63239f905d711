import Empyralis.Server.PendingInvokes

/-! What a call of `dispatch_tool_invoke_durable` tells its caller, and what it leaves behind.

    The deadline reads `delivered` and dequeues the invoke without a claim, so a flush that has the invoke already may
    write its frame later; and it dequeues under the gateway id of the caller, which may not be the one of the queue. -/

namespace Empyralis.Server.DispatchOutcomes
open Text (strip)
open PendingInvokes

/-- How a call ends that has ended its wait. -/
def outcome : CallStage → Option Outcome
  | .popping o => some o
  | .removing o => some o
  | .ended o => some o
  | _ => none

/-- A call has its waiter until it pops it. -/
def registered : CallStage → Bool
  | .removing _ => false
  | .ended _ => false
  | _ => true

def hasEnded : CallStage → Bool
  | .ended _ => true
  | _ => false

/-- A call that raises 'could not be delivered' has no frame on a socket, a response resolves the call with its id
    and no call twice, and a call that has ended has no waiter and no queue entry. -/
structure Truthful (s : State) : Prop where
  undelivered : ∀ call ∈ s.calls, outcome call.stage = some .undelivered → call.id ∉ s.written.map Frame.id
  resolved : ∀ r ∈ s.resolutions, ∃ call, s.calls[r.1]? = some call ∧ call.id = r.2
  once : (s.resolutions.map Prod.fst).Nodup
  answered : ∀ i call, s.calls[i]? = some call → call.response.isSome → i ∈ s.resolutions.map Prod.fst
  ended : ∀ call ∈ s.calls, hasEnded call.stage = true →
    s.waiters call.id = none ∧ ∀ gatewayId, ∀ p ∈ s.queues gatewayId, s.requestId p ≠ some call.id

/-- No frame of the id is written, and no flush is on its way to write one. -/
structure Untouched (s : State) (id : String) : Prop where
  written : id ∉ s.written.map Frame.id
  unsent : ∀ flush ∈ s.flushes, ∀ p ∈ flush.stage.unsent, s.requestId p ≠ some id

/-- A deadline that finds the invoke undelivered finds no flush between its claim and its mark, and none whose event
    could not be recorded. -/
def DeadlineClear (s : State) : CallStage → Prop
  | .waiting p => ∀ pending ∈ s.invokes[p]?, pending.delivered = false →
      p ∉ s.unrecorded ∧ ∀ flush ∈ s.flushes, flush.stage.unsent ≠ some p ∧ flush.stage.unmarked ≠ some p
  | _ => True

/-- A claim is not granted for the invoke of a call that has raised 'could not be delivered'. -/
def ClaimClear (s : State) (flush : Flush) : FlushStage → Prop
  | .next => ∀ p ∈ flush.rest.head?, ∀ pending ∈ s.invokes[p]?, (claimPendingInvoke pending flush.session).isSome →
      ∀ call ∈ s.calls, call.id = pending.requestId → outcome call.stage ≠ some .undelivered
  | _ => True

/-- The calls have request ids of their own and a gateway id without white space around it. -/
def Timely (s : State) : Label → Prop
  | .dispatch gatewayId requestId fresh payload =>
    Distinct s (.dispatch gatewayId requestId fresh payload) ∧ strip gatewayId = gatewayId
  | .move i .deadline => ∀ call ∈ s.calls[i]?, DeadlineClear s call.stage
  | .deliver i _ => ∀ flush ∈ s.flushes[i]?, ClaimClear s flush flush.stage
  | _ => True

structure Inv (s : State) : Prop where
  named : Named s
  stripped : ∀ call ∈ s.calls, strip call.gatewayId = call.gatewayId
  undelivered : ∀ call ∈ s.calls, outcome call.stage = some .undelivered → Untouched s call.id
  waiting : ∀ id i, s.waiters id = some i → (∃ call, s.calls[i]? = some call ∧ call.id = id ∧
    registered call.stage = true) ∧ i ∉ s.resolutions.map Prod.fst
  queued : ∀ gatewayId, ∀ p ∈ s.queues gatewayId, ∃ call ∈ s.calls, s.requestId p = some call.id ∧
    gatewayId = call.gatewayId ∧ hasEnded call.stage = false
  resolved : ∀ r ∈ s.resolutions, ∃ call, s.calls[r.1]? = some call ∧ call.id = r.2
  once : (s.resolutions.map Prod.fst).Nodup
  answered : ∀ i call, s.calls[i]? = some call → call.response.isSome → i ∈ s.resolutions.map Prod.fst

/-- A frame that was written for it does not go unnoticed: the invoke is marked, its event could not be recorded, or a
    flush has yet to mark it. -/
def Stands (s : State) (p : Nat) : Prop :=
  (∃ pending ∈ s.invokes[p]?, pending.delivered = true) ∨ p ∈ s.unrecorded ∨
    ∃ flush ∈ s.flushes, flush.stage.unmarked = some p

/-- Every frame is of an invoke that stands so, and a call waits for the invoke with its id. -/
structure Accounted (s : State) : Prop where
  waits : ∀ call ∈ s.calls, ∀ p, call.stage = .waiting p → s.requestId p = some call.id
  written : ∀ id ∈ s.written.map Frame.id, ∃ p, s.requestId p = some id ∧ Stands s p

variable {s t : State}

theorem distinct_of_timely {l : Label} (h : Timely s l) : Distinct s l := by
  cases l with
  | dispatch gatewayId requestId fresh payload => exact h.1
  | _ => exact trivial

theorem Inv.truthful (hi : Inv s) : Truthful s := by
  refine ⟨fun call hcall hout => (hi.undelivered call hcall hout).written, hi.resolved, hi.once, hi.answered,
    fun call hcall hended => ⟨?_, fun gatewayId p hp hid => ?_⟩⟩
  · rcases hwaiter : s.waiters call.id with _ | i
    · rfl
    · obtain ⟨⟨other, hother, hid, hregistered⟩, -⟩ := hi.waiting _ i hwaiter
      obtain rfl := hi.named.call_eq (List.mem_of_getElem? hother) hcall hid
      cases hstage : other.stage <;> simp_all [registered, hasEnded]
  · obtain ⟨other, hother, hid', -, hopen⟩ := hi.queued gatewayId p hp
    obtain rfl := hi.named.call_eq hother hcall (Option.some.inj (hid'.symm.trans hid))
    rw [hended] at hopen
    cases hopen

theorem Untouched.congr {id : String} (h : Untouched s id) (hwritten : t.written = s.written)
    (hflushes : t.flushes = s.flushes) (hinvokes : t.invokes = s.invokes) : Untouched t id := by
  refine ⟨?_, fun flush hflush p hp => ?_⟩
  · rw [hwritten]
    exact h.written
  · rw [hflushes] at hflush
    rw [requestId_congr hinvokes]
    exact h.unsent flush hflush p hp

theorem lt_of_resolved (hi : Inv s) {i : Nat} (h : i ∈ s.resolutions.map Prod.fst) : i < s.calls.length := by
  obtain ⟨r, hr, rfl⟩ := List.mem_map.mp h
  obtain ⟨call, hcall, -⟩ := hi.resolved r hr
  exact (List.getElem?_eq_some_iff.mp hcall).1

theorem inv_dispatch (hi : Inv s) {gatewayId : String} {requestId : Option String} {fresh : String} {payload : Fields}
    (hc : Timely s (.dispatch gatewayId requestId fresh payload))
    (hst : step s (.dispatch gatewayId requestId fresh payload) = some t) : Inv t := by
  have hn := named_step hi.named (distinct_of_timely hc) hst
  cases hst
  refine ⟨hn, ?_, ?_, fun id i hwaiter => ?_, fun g p hp => ?_, fun r hr => ?_, hi.once,
    fun i call hcall hresponse => ?_⟩
  · intro call hmem
    rcases List.mem_append.mp hmem with hold | hlast
    · exact hi.stripped call hold
    · obtain rfl := List.mem_singleton.mp hlast
      exact hc.2
  · intro call hmem hout
    rcases List.mem_append.mp hmem with hold | hlast
    · exact (hi.undelivered call hold hout).congr rfl rfl rfl
    · obtain rfl := List.mem_singleton.mp hlast
      exact absurd hout.symm (Option.some_ne_none _)
  · by_cases hid : id = resolvedRequestId requestId fresh
    · subst hid
      dsimp only at hwaiter
      rw [Function.update_self] at hwaiter
      cases hwaiter
      refine ⟨⟨_, List.getElem?_concat_length .., rfl, rfl⟩, fun hmem => ?_⟩
      exact absurd (lt_of_resolved hi hmem) (Nat.lt_irrefl _)
    · dsimp only at hwaiter
      rw [Function.update_of_ne hid] at hwaiter
      obtain ⟨⟨call, hcall, hrest⟩, hnew⟩ := hi.waiting id i hwaiter
      refine ⟨⟨call, ?_, hrest⟩, hnew⟩
      rw [List.getElem?_append_left (List.getElem?_eq_some_iff.mp hcall).1]
      exact hcall
  · obtain ⟨call, hcall, hid, hrest⟩ := hi.queued g p hp
    exact ⟨call, List.mem_append_left _ hcall, (requestId_congr (by rfl) p).trans hid, hrest⟩
  · obtain ⟨call, hcall, hid⟩ := hi.resolved r hr
    refine ⟨call, ?_, hid⟩
    rw [List.getElem?_append_left (List.getElem?_eq_some_iff.mp hcall).1]
    exact hcall
  · rcases Chain.getElem?_snoc_cases hcall with hold | ⟨-, rfl⟩
    · exact hi.answered i call hold hresponse
    · exact absurd hresponse Bool.false_ne_true

/-- A call moves on: it pops no waiter but its own, and of its own entries it leaves none when it ends. -/
theorem inv_advanced (hi : Inv s) {u : State} {i : Nat} {call next : Call} (hcall : s.calls[i]? = some call)
    (hadv : Advanced s u call next) (hn : Named { u with calls := s.calls.set i next })
    (hout : outcome next.stage = some .undelivered → Untouched s call.id)
    (hwaiters : ∀ id j, u.waiters id = some j → s.waiters id = some j ∧ (j = i → registered next.stage = true))
    (hqueues : ∀ gatewayId, ∀ p ∈ u.queues gatewayId,
      (∃ other ∈ s.calls, u.requestId p = some other.id ∧ gatewayId = other.gatewayId ∧ hasEnded other.stage = false ∧
        (other = call → hasEnded next.stage = false)) ∨
      u.requestId p = some call.id ∧ gatewayId = call.gatewayId ∧ hasEnded next.stage = false) :
    Inv { u with calls := s.calls.set i next } := by
  have hlt := (List.getElem?_eq_some_iff.mp hcall).1
  have hmem := List.mem_of_getElem? hcall
  refine ⟨hn, fun other hother => ?_, fun other hother hundelivered => ?_, fun id j hwaiter => ?_, fun g p hp => ?_,
    fun r hr => ?_, ?_, fun j other hother hresponse => ?_⟩
  · rcases List.mem_or_eq_of_mem_set hother with hold | rfl
    · exact hi.stripped other hold
    · rw [hadv.gatewayId]
      exact hi.stripped call hmem
  · have huntouched : Untouched s other.id := by
      rcases List.mem_or_eq_of_mem_set hother with hold | rfl
      · exact hi.undelivered other hold hundelivered
      · rw [hadv.id]
        exact hout hundelivered
    refine ⟨?_, fun flush hflush p hp hid => ?_⟩
    · dsimp only
      rw [hadv.written]
      exact huntouched.written
    · dsimp only at hflush
      rw [hadv.flushes] at hflush
      change u.requestId p = some other.id at hid
      rcases hadv.invokes with hsame | ⟨-, hstage, hnew⟩
      · rw [State.requestId, hsame] at hid
        exact huntouched.unsent flush hflush p hp hid
      · rw [State.requestId, hnew] at hid
        obtain ⟨pending, hpending, hpid⟩ := Option.map_eq_some_iff.mp hid
        rcases Chain.getElem?_snoc_cases hpending with hold | ⟨-, rfl⟩
        · exact huntouched.unsent flush hflush p hp (by rw [requestId_of_get hold, hpid])
        · -- the invoke is new, and so is the stage of the call that has its id
          obtain rfl := hn.call_eq hother (List.mem_set hlt next) (hpid.symm.trans hadv.id.symm)
          rw [hstage] at hundelivered
          cases hundelivered
  · dsimp only at hwaiter ⊢
    obtain ⟨hold, hregistered⟩ := hwaiters id j hwaiter
    obtain ⟨⟨other, hother, hid, hopen⟩, hnew⟩ := hi.waiting id j hold
    rw [hadv.resolutions]
    rcases Chain.getElem?_set_of next hcall hother with ⟨rfl, rfl, hset⟩ | ⟨-, hset⟩
    · exact ⟨⟨next, hset, hadv.id.trans hid, hregistered rfl⟩, hnew⟩
    · exact ⟨⟨other, hset, hid, hopen⟩, hnew⟩
  · rcases hqueues g p hp with ⟨other, hother, hid, hg, hopen, hsame⟩ | ⟨hid, hg, hopen⟩
    · rcases @Chain.mem_set_or_eq _ _ _ _ _ next hcall hother with rfl | hset
      · exact ⟨next, List.mem_set hlt next, by rw [hadv.id]; exact hid, by rw [hadv.gatewayId]; exact hg, hsame rfl⟩
      · exact ⟨other, hset, hid, hg, hopen⟩
    · exact ⟨next, List.mem_set hlt next, by rw [hadv.id]; exact hid, by rw [hadv.gatewayId]; exact hg, hopen⟩
  · dsimp only at hr ⊢
    rw [hadv.resolutions] at hr
    obtain ⟨other, hother, hid⟩ := hi.resolved r hr
    rcases Chain.getElem?_set_of next hcall hother with ⟨-, rfl, hset⟩ | ⟨-, hset⟩
    · exact ⟨next, hset, hadv.id.trans hid⟩
    · exact ⟨other, hset, hid⟩
  · dsimp only
    rw [hadv.resolutions]
    exact hi.once
  · dsimp only at hother ⊢
    rw [hadv.resolutions]
    rcases Chain.getElem?_set_cases hother with ⟨rfl, rfl⟩ | ⟨-, hsame⟩
    · rw [hadv.response] at hresponse
      exact hi.answered i call hcall hresponse
    · exact hi.answered j other hsame hresponse

/-- The entries of a queue that a call leaves alone, when it does not end. -/
theorem queued_same (hi : Inv s) {u : State} {call next : Call} (hqueues : u.queues = s.queues)
    (hinvokes : u.invokes = s.invokes) (hopen : hasEnded next.stage = false) :
    ∀ gatewayId, ∀ p ∈ u.queues gatewayId,
      (∃ other ∈ s.calls, u.requestId p = some other.id ∧ gatewayId = other.gatewayId ∧ hasEnded other.stage = false ∧
        (other = call → hasEnded next.stage = false)) ∨
      u.requestId p = some call.id ∧ gatewayId = call.gatewayId ∧ hasEnded next.stage = false := by
  intro g p hp
  rw [hqueues] at hp
  obtain ⟨other, hother, hid, hg, hlive⟩ := hi.queued g p hp
  exact .inl ⟨other, hother, (requestId_congr hinvokes p).trans hid, hg, hlive, fun _ => hopen⟩

theorem queued_enqueue (hi : Inv s) {call : Call} (hmem : call ∈ s.calls) (pending : PendingInvoke)
    (hid : pending.requestId = call.id) (hg : pending.gatewayId = strip call.gatewayId) (g : String) (p : Nat)
    (hp : p ∈ (enqueuePendingInvoke s pending).queues g) :
    (∃ other ∈ s.calls, (enqueuePendingInvoke s pending).requestId p = some other.id ∧ g = other.gatewayId ∧
      hasEnded other.stage = false) ∨
    (enqueuePendingInvoke s pending).requestId p = some call.id ∧ g = call.gatewayId := by
  have hcases : p ∈ s.queues g ∨ g = pending.gatewayId ∧ p = s.invokes.length := by
    by_cases hkey : g = pending.gatewayId
    · subst hkey
      simp only [enqueuePendingInvoke, Function.update_self] at hp
      rcases List.mem_append.mp hp with hold | hlast
      · exact .inl hold
      · exact .inr ⟨rfl, List.mem_singleton.mp hlast⟩
    · simp only [enqueuePendingInvoke, Function.update_of_ne hkey] at hp
      exact .inl hp
  rcases hcases with hold | ⟨rfl, rfl⟩
  · obtain ⟨other, hother, hpid, hgo, hlive⟩ := hi.queued g p hold
    refine .inl ⟨other, hother, ?_, hgo, hlive⟩
    obtain ⟨old, hold', hoid⟩ := Option.map_eq_some_iff.mp hpid
    rw [State.requestId, enqueuePendingInvoke, List.getElem?_append_left (List.getElem?_eq_some_iff.mp hold').1]
    exact hpid
  · refine .inr ⟨?_, hg.trans (hi.stripped call hmem)⟩
    rw [State.requestId, enqueuePendingInvoke, List.getElem?_concat_length, Option.map_some, hid]

/-! ### The frames that are written -/

theorem Accounted.mono (ha : Accounted s) (hwaits : ∀ call ∈ t.calls, ∀ p, call.stage = .waiting p →
      t.requestId p = some call.id)
    (hids : ∀ p id, s.requestId p = some id → t.requestId p = some id)
    (hwritten : ∀ id ∈ t.written.map Frame.id, id ∈ s.written.map Frame.id ∨
      ∃ p, t.requestId p = some id ∧ Stands t p)
    (hstands : ∀ p id, s.requestId p = some id → Stands s p → Stands t p) : Accounted t := by
  refine ⟨hwaits, fun id hid => ?_⟩
  rcases hwritten id hid with hold | hnew
  · obtain ⟨p, hp, hs⟩ := ha.written id hold
    exact ⟨p, hids p id hp, hstands p id hp hs⟩
  · exact hnew

/-- Where invokes, flushes and frames stay as they are, the calls are all that is to be shown. -/
theorem Accounted.same (ha : Accounted s) (hinvokes : t.invokes = s.invokes) (hunrecorded : t.unrecorded = s.unrecorded)
    (hwritten : t.written = s.written) (hflushes : ∀ flush ∈ s.flushes, flush ∈ t.flushes)
    (hwaits : ∀ call ∈ t.calls, ∀ p, call.stage = .waiting p → s.requestId p = some call.id) : Accounted t := by
  refine ha.mono (fun call hcall p hstage => (requestId_congr hinvokes p).trans (hwaits call hcall p hstage))
    (fun p _ hid => (requestId_congr hinvokes p).trans hid) (fun _ hid => .inl (hwritten ▸ hid)) fun p _ _ hs => ?_
  rcases hs with ⟨pending, hp, hdelivered⟩ | hfailed | ⟨flush, hflush, hunmarked⟩
  · exact .inl ⟨pending, hinvokes.symm ▸ hp, hdelivered⟩
  · exact .inr (.inl (hunrecorded.symm ▸ hfailed))
  · exact .inr (.inr ⟨flush, hflushes flush hflush, hunmarked⟩)

theorem advance_waiting {call next : Call} {m : Move} {p : Nat}
    (h : advance s call call.stage m = some (t, next)) (hstage : next.stage = .waiting p) :
    t.requestId p = some call.id := by
  unfold advance at h
  split at h
  · cases h
    cases hstage
    rw [State.requestId, enqueuePendingInvoke, List.getElem?_concat_length, Option.map_some]
  · obtain ⟨ok, -, heq⟩ := Option.map_eq_some_iff.mp h
    cases heq
    cases hstage
  · obtain ⟨pending, -, heq⟩ := Option.map_eq_some_iff.mp h
    cases heq
    cases hstage
  all_goals
    cases h
    try cases hstage

theorem accounted_move (ha : Accounted s) {i : Nat} {m : Move} (hst : step s (.move i m) = some t) : Accounted t := by
  obtain ⟨call, u, next, hcall, hadvance, hadv, rfl⟩ := move_cases hst
  have hget : ∀ (p : Nat) (pending : PendingInvoke), s.invokes[p]? = some pending → u.invokes[p]? = some pending := by
    intro p pending hp
    rcases hadv.invokes with hsame | ⟨-, -, hnew⟩
    · rw [hsame]
      exact hp
    · rw [hnew, List.getElem?_append_left (List.getElem?_eq_some_iff.mp hp).1]
      exact hp
  have hids : ∀ p id, s.requestId p = some id → u.requestId p = some id := by
    intro p id hid
    obtain ⟨pending, hp, hpid⟩ := Option.map_eq_some_iff.mp hid
    rw [requestId_of_get (hget p pending hp), hpid]
  refine ha.mono (fun other hother p hstage => ?_) hids (fun id hid => .inl ?_) fun p id _ hs => ?_
  · rcases List.mem_or_eq_of_mem_set hother with hold | rfl
    · exact hids p other.id (ha.waits other hold p hstage)
    · have hnext := advance_waiting hadvance hstage
      rw [hadv.id]
      exact hnext
  · rw [← hadv.written]
    exact hid
  · rcases hs with ⟨pending, hp, hdelivered⟩ | hunrecorded | ⟨flush, hflush, hunmarked⟩
    · exact .inl ⟨pending, hget p pending hp, hdelivered⟩
    · exact .inr (.inl (hadv.unrecorded.symm ▸ hunrecorded))
    · exact .inr (.inr ⟨flush, hadv.flushes.symm ▸ hflush, hunmarked⟩)

/-- The flushes after one of them has moved on. -/
theorem stands_set {i p : Nat} {flush next : Flush} (hflush : s.flushes[i]? = some flush)
    (h : ∃ other ∈ s.flushes, other.stage.unmarked = some p) (hown : flush.stage.unmarked ≠ some p) :
    ∃ other ∈ s.flushes.set i next, other.stage.unmarked = some p := by
  obtain ⟨other, hother, hunmarked⟩ := h
  rcases @Chain.mem_set_or_eq _ _ _ _ _ next hflush hother with rfl | hset
  · exact absurd hunmarked hown
  · exact ⟨other, hset, hunmarked⟩

/-- A flush that has written a frame comes to the mark, or fails to record the event. -/
theorem deliver_unmarked {i : Nat} {flush next : Flush} {ok : Bool}
    (h : deliver s i flush ok flush.stage = some (t, next)) {p : Nat} {pending : PendingInvoke}
    (hp : s.invokes[p]? = some pending) (hown : flush.stage.unmarked = some p) :
    (∃ later ∈ t.invokes[p]?, later.delivered = true) ∨ p ∈ t.unrecorded ∨ next.stage.unmarked = some p := by
  rcases hstage : flush.stage with _ | q | q | q | q | q | q
  all_goals rw [hstage] at h hown
  case recording =>
    cases hown
    cases ok with
    | false =>
      cases h
      exact .inr (.inl (List.mem_cons_self ..))
    | true =>
      cases h
      exact .inr (.inr rfl)
  case marking =>
    cases hown
    cases h
    refine .inl ⟨markPendingInvokeDelivered pending, ?_, rfl⟩
    rw [Option.mem_def, List.getElem?_modify_eq, hp]
    rfl
  all_goals cases hown

theorem accounted_deliver (ha : Accounted s) {i : Nat} {ok : Bool} (hst : step s (.deliver i ok) = some t) :
    Accounted t := by
  obtain ⟨flush, hflush, hmap⟩ := Option.bind_eq_some_iff.mp hst
  obtain ⟨⟨u, next⟩, hdeliver, rfl⟩ := Option.map_eq_some_iff.mp hmap
  obtain ⟨hkept, hdelivered⟩ := deliver_delivered hdeliver
  have hmem := List.mem_set (List.getElem?_eq_some_iff.mp hflush).1 next
  refine ha.mono (fun call hcall p hstage => ?_) (fun p id hid => (hkept.requestId p).trans hid) (fun id hid => ?_)
    fun p id hid hs => ?_
  · exact (hkept.requestId p).trans (ha.waits call (hkept.calls ▸ hcall) p hstage)
  · cases hdelivered with
    | quiet hwritten _ _ => exact .inl (hwritten ▸ hid)
    | claimed p rest pending claim _ _ _ _ hwritten _ _ => exact .inl (hwritten ▸ hid)
    | wrote p pending hstage hok hp hwritten _ _ =>
      dsimp only at hid
      rw [hwritten, List.map_append] at hid
      rcases List.mem_append.mp hid with hold | hlast
      · exact .inl hold
      · -- the flush that has written it records the event next
        rw [hstage, hok] at hdeliver
        obtain ⟨sent, -, heq⟩ := Option.map_eq_some_iff.mp hdeliver
        cases heq
        obtain rfl := List.mem_singleton.mp hlast
        exact .inr ⟨p, (hkept.requestId p).trans (requestId_of_get hp), .inr (.inr ⟨_, hmem, rfl⟩)⟩
  · obtain ⟨pending, hp, -⟩ := Option.map_eq_some_iff.mp hid
    rcases hs with ⟨marked, hmarked, htrue⟩ | hunrecorded | hflushes
    · exact .inl (hkept.marked p marked hmarked htrue)
    · exact .inr (.inl (hkept.unrecorded p hunrecorded))
    · by_cases hown : flush.stage.unmarked = some p
      · rcases deliver_unmarked hdeliver hp hown with hlater | hfailed | hnext
        · exact .inl hlater
        · exact .inr (.inl hfailed)
        · exact .inr (.inr ⟨next, hmem, hnext⟩)
      · exact .inr (.inr (stands_set hflush hflushes hown))

theorem accounted_respond (ha : Accounted s) (id : String) (ok tracked : Bool) :
    Accounted (resolveResponse s id ok tracked) := by
  have hunmoved := resolve_unmoved s id ok tracked
  refine ha.same hunmoved.invokes hunmoved.unrecorded hunmoved.written (fun _ hflush => hunmoved.flushes.symm ▸ hflush)
    fun call hcall p hstage => ?_
  unfold resolveResponse at hcall
  split at hcall
  · exact ha.waits call hcall p hstage
  · split at hcall
    · exact ha.waits call hcall p hstage
    · obtain ⟨k, hk⟩ := List.mem_iff_getElem?.mp hcall
      obtain ⟨old, hold, ⟨-, rfl⟩ | ⟨-, rfl⟩⟩ := Chain.getElem?_modify_cases hk
      · exact ha.waits old (List.mem_of_getElem? hold) p hstage
      · exact ha.waits call (List.mem_of_getElem? hold) p hstage

/-- One step keeps every call accounted for. -/
theorem accounted_step (ha : Accounted s) {l : Label} (hst : step s l = some t) : Accounted t := by
  cases l with
  | dispatch gatewayId requestId fresh payload =>
    cases hst
    refine ha.same rfl rfl rfl (fun _ hflush => hflush) fun call hcall p hstage => ?_
    rcases List.mem_append.mp hcall with hold | hlast
    · exact ha.waits call hold p hstage
    · obtain rfl := List.mem_singleton.mp hlast
      cases hstage
  | move i m => exact accounted_move ha hst
  | flush gatewayId session =>
    cases hst
    exact ha.same rfl rfl rfl (fun _ hflush => List.mem_append_left _ hflush) ha.waits
  | deliver i ok => exact accounted_deliver ha hst
  | cancelFlush i =>
    obtain ⟨flush, hflush, hmap⟩ := Option.bind_eq_some_iff.mp hst
    obtain ⟨next, hnext, rfl⟩ := Option.map_eq_some_iff.mp hmap
    refine ha.mono ha.waits (fun _ _ hid => hid) (fun _ hid => .inl hid) fun p id _ hs => ?_
    rcases hs with hmarked | hunrecorded | hflushes
    · exact .inl hmarked
    · exact .inr (.inl hunrecorded)
    · refine .inr (.inr (stands_set hflush hflushes fun hunmarked => ?_))
      unfold cancelFlush at hnext
      split at hnext
      · rename_i hstage
        rw [hstage] at hunmarked
        cases hunmarked
      · cases hnext
  | respond id ok tracked =>
    cases hst
    exact accounted_respond ha id ok tracked

theorem accounted_start : Accounted start :=
  ⟨fun _ hcall => (by cases hcall), fun _ hid => (by cases hid)⟩

/-- The deadline of a call, and everything else that it does. -/
theorem inv_move (hi : Inv s) (ha : Accounted s) {i : Nat} {m : Move} (hc : Timely s (.move i m))
    (hst : step s (.move i m) = some t) : Inv t := by
  have hn := named_step hi.named (distinct_of_timely hc) hst
  obtain ⟨call, u, next, hcall, hadvance, hadv, rfl⟩ := move_cases hst
  have hmem := List.mem_of_getElem? hcall
  have hkept : ∀ o, outcome call.stage = some o → o = .undelivered → Untouched s call.id :=
    fun o ho heq => hi.undelivered call hmem (heq ▸ ho)
  rcases hstage : call.stage with _ | p | o | o | o
  all_goals rw [hstage] at hadvance
  · cases m with
    | proceed =>
      cases hadvance
      refine inv_advanced hi hcall hadv hn (fun h => (by cases h)) (fun id j h => ⟨h, fun _ => rfl⟩) fun g p hp => ?_
      rcases queued_enqueue hi hmem _ rfl rfl g p hp with ⟨other, hother, hid, hg, hlive⟩ | ⟨hid, hg⟩
      · exact .inl ⟨other, hother, hid, hg, hlive, fun _ => rfl⟩
      · exact .inr ⟨hid, hg, rfl⟩
    | deadline => cases hadvance
    | cancel => cases hadvance
  · cases m with
    | proceed =>
      obtain ⟨ok, -, heq⟩ := Option.map_eq_some_iff.mp hadvance
      cases heq
      refine inv_advanced hi hcall hadv hn (fun h => ?_) (fun id j h => ⟨h, fun _ => rfl⟩) (queued_same hi rfl rfl rfl)
      cases ok <;> cases h
    | deadline =>
      obtain ⟨pending, hpending, heq⟩ := Option.map_eq_some_iff.mp hadvance
      cases heq
      refine inv_advanced hi hcall hadv hn (fun h => ?_) (fun id j h => ⟨h, fun _ => rfl⟩) (queued_same hi rfl rfl rfl)
      have hclear := hc call hcall
      rw [hstage] at hclear
      cases hdelivered : pending.delivered with
      | false =>
        obtain ⟨hunrecorded, hflushes⟩ := hclear pending hpending hdelivered
        have hid := ha.waits call hmem p hstage
        refine ⟨fun hwritten => ?_, fun flush hflush q hq hqid => ?_⟩
        · obtain ⟨q, hq, hstands⟩ := ha.written call.id hwritten
          obtain rfl := hi.named.pending_eq hq hid
          rcases hstands with ⟨marked, hmarked, htrue⟩ | hfailed | ⟨flush, hflush, hunmarked⟩
          · rw [hpending] at hmarked
            cases hmarked
            rw [hdelivered] at htrue
            cases htrue
          · exact hunrecorded hfailed
          · exact (hflushes flush hflush).2 hunmarked
        · obtain rfl := hi.named.pending_eq hqid hid
          exact (hflushes flush hflush).1 hq
      | true =>
        rw [deadlineOutcome, hdelivered] at h
        cases h
    | cancel =>
      cases hadvance
      exact inv_advanced hi hcall hadv hn (fun h => (by cases h)) (fun id j h => ⟨h, fun _ => rfl⟩)
        (queued_same hi rfl rfl rfl)
  · cases m with
    | proceed =>
      cases hadvance
      refine inv_advanced hi hcall hadv hn (fun h => hkept o (by rw [hstage]; rfl) (Option.some.inj h))
        (fun id j h => ?_)
        (queued_same hi rfl rfl rfl)
      by_cases hid : id = call.id
      · subst hid
        simp only [popDurableWaiter, Function.update_self] at h
        cases h
      · simp only [popDurableWaiter, Function.update_of_ne hid] at h
        refine ⟨h, fun hj => ?_⟩
        subst hj
        obtain ⟨⟨other, hother, hoid, -⟩, -⟩ := hi.waiting id j h
        rw [hcall] at hother
        cases hother
        exact absurd hoid.symm hid
    | deadline => cases hadvance
    | cancel => cases hadvance
  · cases m with
    | proceed =>
      cases hadvance
      refine inv_advanced hi hcall hadv hn (fun h => hkept o (by rw [hstage]; rfl) (Option.some.inj h))
        (fun id j h => ⟨h, fun hj => ?_⟩) fun g p hp => ?_
      · subst hj
        obtain ⟨⟨other, hother, -, hregistered⟩, -⟩ := hi.waiting id j h
        rw [hcall] at hother
        cases hother
        rw [hstage] at hregistered
        cases hregistered
      · obtain ⟨hold, hremoved⟩ := mem_remove hp
        obtain ⟨other, hother, hid, hg, hlive⟩ := hi.queued g p hold
        refine .inl ⟨other, hother, hid, hg, hlive, fun heq => ?_⟩
        subst heq
        exact absurd hid (hremoved hg)
    | deadline => cases hadvance
    | cancel => cases hadvance
  · cases m <;> cases hadvance

/-- A step of a flush, which for a call that was told that its invoke is undelivered writes nothing and claims nothing. -/
theorem inv_kept (hi : Inv s) {u : State} (hkept : Kept s u) {flushes : List Flush}
    (hn : Named { u with flushes })
    (huntouched : ∀ call ∈ s.calls, outcome call.stage = some .undelivered → Untouched { u with flushes } call.id) :
    Inv { u with flushes } := by
  refine ⟨hn, ?_, ?_, ?_, fun g p hp => ?_, ?_, ?_, ?_⟩
  · dsimp only
    rw [hkept.calls]
    exact hi.stripped
  · intro call hcall hout
    dsimp only at hcall
    rw [hkept.calls] at hcall
    exact huntouched call hcall hout
  · dsimp only
    rw [hkept.waiters, hkept.calls, hkept.resolutions]
    exact hi.waiting
  · obtain ⟨call, hcall, hid, hrest⟩ := hi.queued g p (hkept.queues g p hp)
    dsimp only
    rw [hkept.calls]
    exact ⟨call, hcall, (hkept.requestId p).trans hid, hrest⟩
  · dsimp only
    rw [hkept.resolutions, hkept.calls]
    exact hi.resolved
  · dsimp only
    rw [hkept.resolutions]
    exact hi.once
  · dsimp only
    rw [hkept.resolutions, hkept.calls]
    exact hi.answered

theorem inv_deliver (hi : Inv s) {i : Nat} {ok : Bool} (hc : Timely s (.deliver i ok))
    (hst : step s (.deliver i ok) = some t) : Inv t := by
  have hn := named_step hi.named (distinct_of_timely hc) hst
  obtain ⟨flush, u, next, hflush, hkept, hdelivered, rfl⟩ := deliver_cases hst
  have hclear := hc flush hflush
  refine inv_kept hi hkept hn fun call hcall hout => ?_
  have huntouched := hi.undelivered call hcall hout
  -- the frames that are not written yet are those of the other flushes, and of this one
  have hunsent : (∀ p ∈ next.stage.unsent, s.requestId p ≠ some call.id) →
      ∀ other ∈ s.flushes.set i next, ∀ p ∈ other.stage.unsent,
        State.requestId { u with flushes := s.flushes.set i next } p ≠ some call.id := by
    intro hnext other hother p hp
    change u.requestId p ≠ some call.id
    rw [hkept.requestId]
    rcases List.mem_or_eq_of_mem_set hother with hold | rfl
    · exact huntouched.unsent other hold p hp
    · exact hnext p hp
  cases hdelivered with
  | quiet hwritten hclaimants hquiet =>
    refine ⟨?_, hunsent fun p hp => huntouched.unsent flush (List.mem_of_getElem? hflush) p (hquiet p hp)⟩
    dsimp only
    rw [hwritten]
    exact huntouched.written
  | claimed p rest pending claim hstage hrest hp hclaim hwritten hclaimants hnext =>
    rw [hstage] at hclear
    refine ⟨?_, hunsent fun q hq hid => ?_⟩
    · dsimp only
      rw [hwritten]
      exact huntouched.written
    · rw [hnext] at hq
      cases hq
      rw [requestId_of_get hp] at hid
      exact hclear p (by rw [hrest]; rfl) pending hp (by rw [hclaim]; rfl) call hcall (Option.some.inj hid).symm hout
  | wrote p pending hstage hok hp hwritten hclaimants hnext =>
    refine ⟨?_, hunsent fun q hq => ?_⟩
    · dsimp only
      rw [hwritten, List.map_append]
      intro hmem
      rcases List.mem_append.mp hmem with hold | hlast
      · exact huntouched.written hold
      · have hid := List.mem_singleton.mp hlast
        refine huntouched.unsent flush (List.mem_of_getElem? hflush) p (by rw [hstage]; rfl) ?_
        rw [requestId_of_get hp, hid]
    · rw [hnext] at hq
      cases hq

/-- The flushes that there are, and one that has nothing in its hands. -/
theorem inv_flushes (hi : Inv s) {flushes : List Flush} (hn : Named { s with flushes })
    (hnew : ∀ flush ∈ flushes, flush ∈ s.flushes ∨ flush.stage.unsent = none) : Inv { s with flushes } := by
  refine inv_kept hi ⟨rfl, rfl, rfl, rfl, rfl, fun _ _ hp => hp, marked_same rfl, fun _ hp => hp⟩ hn
    fun call hcall hout => ?_
  have huntouched := hi.undelivered call hcall hout
  refine ⟨huntouched.written, fun flush hflush p hp => ?_⟩
  rcases hnew flush hflush with hold | hnone
  · exact huntouched.unsent flush hold p hp
  · rw [hnone] at hp
    cases hp

theorem resolved_modify {i : Nat} {call : Call} {id : String} {ok : Bool} (hcall : s.calls[i]? = some call)
    (hid : call.id = id) (k : Nat) : ∃ other : Call,
    (s.calls.modify k fun c => { c with response := some (c.response.getD ok) })[i]? = some other ∧ other.id = id := by
  by_cases hki : k = i
  · subst hki
    refine ⟨{ call with response := some (call.response.getD ok) }, ?_, hid⟩
    rw [List.getElem?_modify_eq, hcall]
    rfl
  · exact ⟨call, by rw [List.getElem?_modify_ne _ _ hki, hcall], hid⟩

/-- An answer ends the call that waits for it, and no other. -/
theorem inv_answer (hi : Inv s) {i : Nat} {id : String} {ok : Bool} (hwaiter : s.waiters id = some i)
    (hn : Named (answer s i id ok)) : Inv (answer s i id ok) := by
  obtain ⟨⟨call, hcall, hid, -⟩, hnew⟩ := hi.waiting id i hwaiter
  have hunmoved := answer_unmoved s i id ok
  refine ⟨hn, ?_, ?_, fun other j hj => ?_, fun g p hp => ?_, fun r hr => ?_, ?_, fun j other hother hresponse => ?_⟩
  · intro other hother
    obtain ⟨k, hk⟩ := List.mem_iff_getElem?.mp hother
    obtain ⟨old, hold, ⟨-, rfl⟩ | ⟨-, rfl⟩⟩ := Chain.getElem?_modify_cases hk
    · exact hi.stripped old (List.mem_of_getElem? hold)
    · exact hi.stripped other (List.mem_of_getElem? hold)
  · intro other hother hout
    obtain ⟨k, hk⟩ := List.mem_iff_getElem?.mp hother
    obtain ⟨old, hold, ⟨-, rfl⟩ | ⟨-, rfl⟩⟩ := Chain.getElem?_modify_cases hk
    · exact (hi.undelivered old (List.mem_of_getElem? hold) hout).congr hunmoved.written hunmoved.flushes hunmoved.invokes
    · exact (hi.undelivered other (List.mem_of_getElem? hold) hout).congr hunmoved.written hunmoved.flushes hunmoved.invokes
  · -- another id, and so another call
    by_cases hother : other = id
    · subst hother
      simp only [answer, popDurableWaiter, Function.update_self] at hj
      cases hj
    · simp only [answer, popDurableWaiter, Function.update_of_ne hother] at hj
      obtain ⟨⟨old, hold, hoid, hregistered⟩, hunresolved⟩ := hi.waiting other j hj
      have hij : i ≠ j := by
        rintro rfl
        rw [hcall] at hold
        cases hold
        exact hother (hoid.symm.trans hid)
      refine ⟨⟨old, ?_, hoid, hregistered⟩, fun hmem => ?_⟩
      · exact (List.getElem?_modify_ne _ _ hij).trans hold
      · rw [answer, List.map_append] at hmem
        rcases List.mem_append.mp hmem with hresolved | hlast
        · exact hunresolved hresolved
        · exact hij (List.mem_singleton.mp hlast).symm
  · obtain ⟨old, hold, hpid, hrest⟩ := hi.queued g p hp
    rcases Chain.mem_modify_or (fun c : Call => { c with response := some (c.response.getD ok) }) i hold with hsame | hset
    · exact ⟨old, hsame, (requestId_congr hunmoved.invokes p).trans hpid, hrest⟩
    · exact ⟨_, hset, (requestId_congr hunmoved.invokes p).trans hpid, hrest⟩
  · rcases List.mem_append.mp hr with hold | hlast
    · obtain ⟨old, hget, hoid⟩ := hi.resolved r hold
      exact resolved_modify hget hoid i
    · obtain rfl := List.mem_singleton.mp hlast
      exact resolved_modify hcall hid i
  · rw [answer, List.map_append]
    refine List.Nodup.append hi.once (List.nodup_singleton _) fun k hold hlast => ?_
    obtain rfl := List.mem_singleton.mp hlast
    exact hnew hold
  · rw [answer, List.map_append]
    obtain ⟨old, hold, ⟨rfl, -⟩ | ⟨-, rfl⟩⟩ := Chain.getElem?_modify_cases hother
    · exact List.mem_append_right _ (List.mem_singleton.mpr rfl)
    · exact List.mem_append_left _ (hi.answered j other hold hresponse)

theorem inv_respond (hi : Inv s) {id : String} {ok tracked : Bool} (hn : Named (resolveResponse s id ok tracked)) :
    Inv (resolveResponse s id ok tracked) := by
  unfold resolveResponse at hn ⊢
  by_cases htracked : tracked = true
  · rw [if_pos htracked]
    exact hi
  · rw [if_neg htracked] at hn ⊢
    rcases hwaiter : s.waiters (strip id) with _ | i
    · exact hi
    · rw [hwaiter] at hn
      exact inv_answer hi hwaiter hn

/-- One timely step keeps what is reported true. -/
theorem inv_step (hi : Inv s) (ha : Accounted s) {l : Label} (hc : Timely s l) (hst : step s l = some t) : Inv t := by
  have hn := named_step hi.named (distinct_of_timely hc) hst
  cases l with
  | dispatch gatewayId requestId fresh payload => exact inv_dispatch hi hc hst
  | move i m => exact inv_move hi ha hc hst
  | flush gatewayId session =>
    cases hst
    refine inv_flushes hi hn fun flush hflush => ?_
    rcases List.mem_append.mp hflush with hold | hlast
    · exact .inl hold
    · obtain rfl := List.mem_singleton.mp hlast
      exact .inr rfl
  | deliver i ok => exact inv_deliver hi hc hst
  | cancelFlush i =>
    obtain ⟨flush, hflush, hmap⟩ := Option.bind_eq_some_iff.mp hst
    obtain ⟨next, hnext, rfl⟩ := Option.map_eq_some_iff.mp hmap
    refine inv_flushes hi hn fun other hother => ?_
    rcases List.mem_or_eq_of_mem_set hother with hold | rfl
    · exact .inl hold
    · exact .inr (cancelFlush_unsent hnext)
  | respond id ok tracked =>
    cases hst
    exact inv_respond hi hn

theorem inv_start : Inv start := by
  refine ⟨⟨List.nodup_nil, List.nodup_nil, fun _ h => (by cases h)⟩, fun _ h => (by cases h), fun _ h => (by cases h),
    fun _ _ h => (by cases h), fun _ _ h => (by cases h), fun _ h => (by cases h), List.nodup_nil, fun _ _ h =>
      (by cases h)⟩

/-- A dispatch is told the truth in a run in which no gateway id has white space around it, a deadline that finds the
    invoke undelivered finds no flush between its claim and its mark and no frame of it left unrecorded, and no flush
    claims it after that. -/
theorem dispatch_truthful (labels : List Label) (h : Run.Meets step Timely start labels) (first : List Label)
    (t : State) (hfirst : first <+: labels) (hrun : Run.run step start first = some t) : Truthful t := by
  obtain ⟨rest, rfl⟩ := hfirst
  have hinv : Inv t ∧ Accounted t := by
    refine @Run.run_inv _ _ step Timely (fun u => Inv u ∧ Accounted u) (fun u l v hi hc hst => ?_) _ _ _
      (Run.meets_prefix h) ⟨inv_start, accounted_start⟩ hrun
    exact ⟨inv_step hi.1 hi.2 hc hst, accounted_step hi.2 hst⟩
  exact hinv.1.truthful

/-! ### A call that is answered, and one that is not -/

/-- The first call is answered, and the second comes to its deadline with no flush on its way. -/
def answeredAndLate : List Label :=
  [Label.dispatch "gw-1" (some "req-1") "" [], .move 0 .proceed, .flush "gw-1" "sess-a"] ++
    List.replicate 6 (Label.deliver 0 true) ++ Label.respond "req-1" true false ::
    List.replicate 3 (.move 0 .proceed) ++
    [Label.dispatch "gw-1" (some "req-2") "" [], .move 1 .proceed, .move 1 .deadline, .move 1 .proceed, .move 1 .proceed]

/-- The deadline comes when a flush has its snapshot but no claim. -/
def racedDeadline : List Label :=
  [Label.dispatch "gw-1" (some "req-1") "" [], .move 0 .proceed, .flush "gw-1" "sess-a", .move 0 .deadline,
    .move 0 .proceed, .move 0 .proceed] ++ List.replicate 3 (Label.deliver 0 true)

/-- The gateway id has a blank before it, and the queue is that of the id without it. -/
def paddedGateway : List Label :=
  [.dispatch " gw-1" (some "req-1") "" [], .move 0 .proceed, .move 0 .deadline, .move 0 .proceed, .move 0 .proceed]

instance (s : State) : DecidablePred (DeadlineClear s)
  | .waiting p => inferInstanceAs (Decidable (∀ pending ∈ s.invokes[p]?, pending.delivered = false →
      p ∉ s.unrecorded ∧ ∀ flush ∈ s.flushes, flush.stage.unsent ≠ some p ∧ flush.stage.unmarked ≠ some p))
  | .enqueueing | .popping _ | .removing _ | .ended _ => inferInstanceAs (Decidable True)

instance (s : State) (flush : Flush) : DecidablePred (ClaimClear s flush)
  | .next => inferInstanceAs (Decidable (∀ p ∈ flush.rest.head?, ∀ pending ∈ s.invokes[p]?,
      (claimPendingInvoke pending flush.session).isSome →
        ∀ call ∈ s.calls, call.id = pending.requestId → outcome call.stage ≠ some .undelivered))
  | .gates _ | .sending _ | .recording _ | .releasing _ | .marking _ | .removing _ => inferInstanceAs (Decidable True)

instance (s : State) : DecidablePred (Timely s)
  | .dispatch gatewayId requestId fresh payload =>
    inferInstanceAs (Decidable (Distinct s (.dispatch gatewayId requestId fresh payload) ∧ strip gatewayId = gatewayId))
  | .move i .deadline => inferInstanceAs (Decidable (∀ call ∈ s.calls[i]?, DeadlineClear s call.stage))
  | .deliver i _ => inferInstanceAs (Decidable (∀ flush ∈ s.flushes[i]?, ClaimClear s flush flush.stage))
  | .move _ .proceed | .move _ .cancel | .flush _ _ | .cancelFlush _ | .respond _ _ _ =>
    inferInstanceAs (Decidable True)

theorem dispatch_truthful_twice : ∃ t, Run.run step start answeredAndLate = some t ∧ Truthful t := by
  obtain ⟨t, hrun⟩ := Option.isSome_iff_exists.mp
    (by decide : (Run.run step start answeredAndLate).isSome = true)
  exact ⟨t, hrun, dispatch_truthful answeredAndLate (by decide) answeredAndLate t (List.prefix_refl _) hrun⟩

/-- A frame is written for a call that was told that it is undelivered, and a call that has ended is still queued. -/
theorem dispatch_untruthful : (∃ t, Run.run step start racedDeadline = some t ∧ ¬ Truthful t) ∧
    ∃ t, Run.run step start paddedGateway = some t ∧ ¬ Truthful t := by
  constructor
  · have hany : (Run.run step start racedDeadline).any fun t => ∃ call ∈ t.calls,
        outcome call.stage = some .undelivered ∧ call.id ∈ t.written.map Frame.id := by decide
    obtain ⟨t, hrun, hwritten⟩ := (Option.any_eq_true _ _).mp hany
    obtain ⟨call, hcall, hout, hmem⟩ := of_decide_eq_true hwritten
    exact ⟨t, hrun, fun htrue => htrue.undelivered call hcall hout hmem⟩
  · have hany : (Run.run step start paddedGateway).any fun t => ∃ call ∈ t.calls, hasEnded call.stage = true ∧
        ∃ p ∈ t.queues "gw-1", t.requestId p = some call.id := by decide
    obtain ⟨t, hrun, hqueued⟩ := (Option.any_eq_true _ _).mp hany
    obtain ⟨call, hcall, hended, p, hp, hid⟩ := of_decide_eq_true hqueued
    exact ⟨t, hrun, fun htrue => (htrue.ended call hcall hended).2 "gw-1" p hp hid⟩

end Empyralis.Server.DispatchOutcomes
