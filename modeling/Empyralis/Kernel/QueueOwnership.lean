import Empyralis.Kernel.QueueItem

/-! Ownership over whole runs. The deciders of `claim`, `complete`, `cancel` and `release` compare the
    requester with the holder; the one of `fail` does not, and the one of `enqueue` blocks running
    items and not claimed ones. So another worker moves a held item by a `fail`, or by an `enqueue`
    while it is claimed, and in no other way. -/

namespace Empyralis.Kernel.Queue

open Run (Meets)

/-- The item is running or claimed by this worker. -/
def Item.HeldBy (item : Item) (worker : String) : Prop :=
  item.currentStatus.isActive = true ∧ item.holderId = some worker

/-- A request of another worker leaves the status and the holder of a held item alone. -/
def Owned (item : Item) (r : Request) : Prop :=
  ∀ worker, item.HeldBy worker → present r.requester ≠ some worker →
    (next item r).status = item.status ∧ (next item r).holder = item.holder

/-- A request that moves an active item whoever asks: a failure, or an enqueue of a claimed item.
    Without a name of the requester the names are not compared at all. -/
def Foreign (op : Operation) (requesterId : Option String) (status : Status) : Prop :=
  op = .fail ∨ (op = .enqueue ∧ status = .claimed) ∨
    (requesterId = none ∧ (op = .complete ∨ op = .cancel ∨ op = .release))

/-- Who is not the holder makes no such request. -/
def Guarded (item : Item) (r : Request) : Prop :=
  ∀ worker, item.HeldBy worker → present r.requester ≠ some worker → (present item.id).isSome →
    ∀ op, r.op = some op → ¬ Foreign op (present r.requester) item.currentStatus

/-- The requests that the law speaks of. -/
def Plain (r : Request) : Prop := r.stale = false ∧ r.force = false ∧ r.op ≠ some .deadLetter

theorem notOwned_of_ne {requester holder : Option String} {worker : String}
    (hh : holder = some worker) (hr : requester ≠ some worker) :
    notOwned requester holder = requester.isSome := by
  subst hh
  cases requester with
  | none => rfl
  | some name => simpa [notOwned] using hr

theorem active_open {status : Status} (h : status.isActive = true) :
    status.isTerminal = false ∧ status ≠ .queued := by
  cases status <;> simp_all [Status.isActive, Status.isTerminal]

section Foreign

variable {op : Operation} {itemId requesterId reason : Option String} {worker : String}
  {status : Status} {attempts maxAttempts : Nat}

/-- A worker who is not the holder moves an active item in no other way, and it is then no longer
    active. -/
theorem foreign_of_move {m : Move} (ha : status.isActive = true) (hr : requesterId ≠ some worker)
    (hop : op ≠ .deadLetter) (h : (decisionOf op itemId requesterId (some worker) status attempts
      maxAttempts false false reason).move = some m) :
    Foreign op requesterId status ∧ m.nextStatus.isActive = false := by
  obtain ⟨ht, hq⟩ := active_open ha
  have hnotOwned := notOwned_of_ne rfl hr
  cases op with
  | enqueue =>
    obtain ⟨-, hst, rfl⟩ := enqueue_move.mp h
    refine ⟨Or.inr (Or.inl ⟨rfl, ?_⟩), rfl⟩
    cases status <;> simp [Status.isActive] at ha hst ⊢
  | claim =>
    obtain ⟨-, -, howner, -⟩ := claim_move.mp h
    rcases howner ha with heq | hf | hf
    · exact absurd heq.symm hr
    · simp at hf
    · simp at hf
  | complete =>
    rcases complete_move.mp h with ⟨hterminal, -⟩ | ⟨-, -, hown, rfl⟩
    · simp [ht] at hterminal
    · rw [hnotOwned, Option.isSome_eq_false_iff, Option.isNone_iff_eq_none] at hown
      exact ⟨Or.inr (Or.inr ⟨hown, Or.inl rfl⟩), rfl⟩
  | fail =>
    refine ⟨Or.inl rfl, ?_⟩
    rcases fail_move.mp h with ⟨-, ⟨hterminal, -⟩ | ⟨-, -, rfl⟩ | ⟨-, -, rfl⟩⟩
    · simp [ht] at hterminal
    · rfl
    · rfl
  | retry =>
    obtain ⟨-, -, hst, -⟩ := retry_move.mp h
    cases status <;> simp [Status.isActive] at ha hst
  | cancel =>
    rcases cancel_move.mp h with ⟨-, hqueued, -⟩ | ⟨hterminal, -⟩ | ⟨-, -, hown, rfl⟩
    · exact absurd hqueued hq
    · simp [ht] at hterminal
    · simp only [hnotOwned, Bool.false_eq_true, imp_false, Bool.not_eq_true,
        Option.isSome_eq_false_iff, Option.isNone_iff_eq_none] at hown
      exact ⟨Or.inr (Or.inr ⟨hown, Or.inr (Or.inl rfl)⟩), rfl⟩
  | release =>
    obtain ⟨-, -, hown, rfl⟩ := release_move.mp h
    simp only [hnotOwned, Bool.false_eq_true, imp_false, Bool.not_eq_true,
      Option.isSome_eq_false_iff, Option.isNone_iff_eq_none] at hown
    exact ⟨Or.inr (Or.inr ⟨hown, Or.inr (Or.inr rfl)⟩), rfl⟩
  | deadLetter => exact absurd rfl hop

/-- Each of these requests moves it. -/
theorem move_of_foreign (ha : status.isActive = true) (hid : itemId.isSome)
    (h : Foreign op requesterId status) :
    ∃ m, (decisionOf op itemId requesterId (some worker) status attempts maxAttempts false false
      reason).move = some m := by
  rcases h with rfl | ⟨rfl, rfl⟩ | ⟨rfl, rfl | rfl | rfl⟩
  · by_cases hlt : saturatingSucc attempts < maxAttempts
    · exact ⟨_, fail_move.mpr ⟨hid, Or.inr (Or.inl ⟨ha, hlt, rfl⟩)⟩⟩
    · exact ⟨_, fail_move.mpr ⟨hid, Or.inr (Or.inr ⟨ha, hlt, rfl⟩)⟩⟩
  · have hm : (enqueueDecision itemId .claimed).move = some ⟨.enqueue, none, .queued, false⟩ :=
      enqueue_move.mpr ⟨hid, by decide, rfl⟩
    exact ⟨_, hm⟩
  · exact ⟨_, complete_move.mpr (Or.inr ⟨hid, ha, rfl, rfl⟩)⟩
  · exact ⟨_, cancel_move.mpr (Or.inr (Or.inr ⟨hid, ha, by simp [notOwned], rfl⟩))⟩
  · exact ⟨_, release_move.mpr ⟨hid, ha, by simp [notOwned], rfl⟩⟩

end Foreign

/-- Without an item id an open item stays where it is. -/
theorem unnamed_stays {op : Operation} {requesterId holderId reason : Option String}
    {status : Status} {attempts maxAttempts : Nat} {stale force : Bool}
    (h : status.isTerminal = false) : (decisionOf op none requesterId holderId status attempts
      maxAttempts stale force reason).move = none := by
  cases op <;> simp [decisionOf, enqueueDecision, claimDecision, completeDecision, failDecision,
    retryDecision, cancelDecision, releaseDecision, deadLetterDecision, terminalDecision, h]

/-! ### One request -/

/-- A plain request that is guarded leaves what another worker holds alone. -/
theorem owned_of_guarded {item : Item} {r : Request} (hp : Plain r) (hg : Guarded item r) :
    Owned item r := by
  intro worker hheld hr
  obtain ⟨hstale, hforce, hop⟩ := hp
  cases h : (reply item r).move with
  | none =>
    rw [next_stay h]
    exact ⟨rfl, rfl⟩
  | some m =>
    obtain ⟨op, hr_op, hm⟩ := move_decision h
    rw [hstale, hforce, hheld.2] at hm
    have hne : op ≠ .deadLetter := fun e => hop (e ▸ hr_op)
    have hforeign := (foreign_of_move hheld.1 hr hne hm).1
    have hid : (present item.id).isSome := by
      cases hi : present item.id with
      | some id => rfl
      | none =>
        rw [hi] at hm
        exact absurd hm (by simp [unnamed_stays (active_open hheld.1).1])
    exact absurd hforeign (hg worker hheld hr hid op hr_op)

theorem guarded_of_owned {item : Item} {r : Request} (hp : Plain r) (ho : Owned item r) :
    Guarded item r := by
  intro worker hheld hr hid op hop hforeign
  obtain ⟨hstale, hforce, hne⟩ := hp
  obtain ⟨m, hm⟩ : ∃ m, (decisionOf op (present item.id) (present r.requester) (some worker)
      item.currentStatus item.attempts item.maxAttempts false false
      (present r.reason)).move = some m := move_of_foreign hheld.1 hid hforeign
  have hinactive := (foreign_of_move hheld.1 hr (fun e => hne (e ▸ hop)) hm).2
  have hreply : (reply item r).move = some m := by
    rw [reply_of_op hop, hstale, hforce, hheld.2]
    exact hm
  have hstatus : (next item r).currentStatus = item.currentStatus := by
    rw [Item.currentStatus, (ho worker hheld hr).1, Item.currentStatus]
  rw [next_move hreply, advance_currentStatus] at hstatus
  rw [hstatus, hheld.1] at hinactive
  exact absurd hinactive (by simp)

/-! ### Whole runs -/

/-- In every run, each request respects the holder exactly if it is guarded. -/
theorem ownership_runs (item : Item) (rs : List Request) (hplain : ∀ r ∈ rs, Plain r) :
    Meets step Owned item rs ↔ Meets step Guarded item rs := by
  induction rs generalizing item with
  | nil => exact Iff.rfl
  | cons r rs ih =>
    have hr := hplain r List.mem_cons_self
    have hrest := ih (next item r) fun q hq => hplain q (List.mem_cons_of_mem _ hq)
    exact and_congr ⟨guarded_of_owned hr, owned_of_guarded hr⟩ hrest

/-- An item that worker 1 may claim, and three requests for it. -/
def waiting : Item := .fresh "run-1" "queued" none

def claimBy (worker : String) : Request := ⟨"claim", worker, "", false, false⟩

def failBy (worker : String) : Request := ⟨"fail", worker, "", false, false⟩

def completeBy (worker : String) : Request := ⟨"complete", worker, "", false, false⟩

theorem plain_claim_complete : ∀ r ∈ [claimBy "worker-1", claimBy "worker-2",
    completeBy "worker-2"], Plain r := by
  intro r hr
  simp only [List.mem_cons, List.not_mem_nil, or_false] at hr
  rcases hr with rfl | rfl | rfl <;> exact ⟨rfl, rfl, by with_unfolding_all decide⟩

/-- The second worker neither takes nor completes what the first one holds. -/
theorem ownership_runs_two :
    Meets step Owned waiting [claimBy "worker-1", claimBy "worker-2", completeBy "worker-2"] := by
  refine (ownership_runs waiting _ plain_claim_complete).mpr ⟨?_, ?_, ?_, trivial⟩
  · exact fun worker hheld => absurd hheld.2 (by simp [waiting, Item.fresh, Item.holderId])
  · intro worker _ _ _ op hop
    obtain rfl : op = .claim := Option.some.inj (hop.symm.trans (by with_unfolding_all decide))
    simp [Foreign]
  · intro worker _ _ _ op hop
    obtain rfl : op = .complete := Option.some.inj (hop.symm.trans (by with_unfolding_all decide))
    have hname : present (completeBy "worker-2").requester ≠ none := by decide
    simp [Foreign, hname]

/-- Worker 2 ends the run that worker 1 holds. -/
theorem fail_by_other :
    (∀ r ∈ [claimBy "worker-1", failBy "worker-2"], Plain r) ∧
      ¬ Meets step Owned waiting [claimBy "worker-1", failBy "worker-2"] := by
  refine ⟨fun r hr => ?_, fun h => ?_⟩
  · simp only [List.mem_cons, List.not_mem_nil, or_false] at hr
    rcases hr with rfl | rfl <;> exact ⟨rfl, rfl, by with_unfolding_all decide⟩
  · have hheld : (next waiting (claimBy "worker-1")).HeldBy "worker-1" :=
      ⟨by with_unfolding_all decide, by with_unfolding_all decide⟩
    have hkept := h.2.1 "worker-1" hheld (by decide)
    exact absurd hkept.1 (by with_unfolding_all decide)

end Empyralis.Kernel.Queue
