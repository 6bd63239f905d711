import Empyralis.Kernel.QueueItem

/-! Terminal statuses over whole runs. Without force, an item leaves `completed`, `failed` and
    `cancelled` in one way only, by the retry of a failed item that has attempts left; and the
    attempts bound how often an active item fails. -/

namespace Empyralis.Kernel.Queue

open Run (run Meets)

/-- What a move without force does to the status. -/
structure StatusLaw (op : Operation) (status : Status) (attempts maxAttempts : Nat) (m : Move) :
    Prop where
  operation : m.operation = op
  terminal : m.terminal = true → m.nextStatus.isTerminal = true
  stays : status.isTerminal = true → m.nextStatus = status ∨
    (op = .retry ∧ status = .failed ∧ attempts < maxAttempts)
  fails : op = .fail → status.isActive = true →
    m.nextStatus = .failed ∨ saturatingSucc attempts < maxAttempts

/-- What a move does to the status, operation by operation. -/
theorem move_status {op : Operation} {itemId requesterId holderId : Option String}
    {status : Status} {attempts maxAttempts : Nat} {stale : Bool} {reason : Option String} {m : Move}
    (h : (decisionOf op itemId requesterId holderId status attempts maxAttempts stale false
      reason).move = some m) : StatusLaw op status attempts maxAttempts m := by
  cases op with
  | enqueue =>
    obtain ⟨-, hst, rfl⟩ := enqueue_move.mp h
    refine ⟨rfl, by simp, fun ht => ?_, by simp⟩
    cases status <;> simp [Status.isTerminal] at hst ht
  | claim =>
    obtain ⟨-, -, -, hst, -, rfl⟩ := claim_move.mp h
    exact ⟨rfl, by simp, fun ht => absurd ht (by simp [hst]), by simp⟩
  | complete =>
    rcases complete_move.mp h with ⟨ht, rfl⟩ | ⟨-, ha, -, rfl⟩
    · exact ⟨rfl, fun _ => ht, fun _ => Or.inl rfl, by simp⟩
    · refine ⟨rfl, fun _ => rfl, fun ht => ?_, by simp⟩
      cases status <;> simp [Status.isTerminal, Status.isActive] at ha ht
  | fail =>
    rcases fail_move.mp h with ⟨-, ⟨ht, rfl⟩ | ⟨ha, hlt, rfl⟩ | ⟨ha, -, rfl⟩⟩
    · refine ⟨rfl, fun _ => ht, fun _ => Or.inl rfl, fun _ ha => ?_⟩
      cases status <;> simp [Status.isTerminal, Status.isActive] at ha ht
    · refine ⟨rfl, by simp, fun ht => ?_, fun _ _ => Or.inr hlt⟩
      cases status <;> simp [Status.isTerminal, Status.isActive] at ha ht
    · refine ⟨rfl, fun _ => rfl, fun ht => ?_, fun _ _ => Or.inl rfl⟩
      cases status <;> simp [Status.isTerminal, Status.isActive] at ha ht
  | retry =>
    obtain ⟨-, hlt, hst, rfl⟩ := retry_move.mp h
    refine ⟨rfl, by simp, fun ht => Or.inr ⟨rfl, ?_, hlt⟩, by simp⟩
    cases status <;> simp [Status.isTerminal] at hst ht ⊢
  | cancel =>
    rcases cancel_move.mp h with ⟨-, rfl, rfl⟩ | ⟨ht, rfl⟩ | ⟨-, ha, -, rfl⟩
    · exact ⟨rfl, fun _ => rfl, by simp [Status.isTerminal], by simp⟩
    · exact ⟨rfl, fun _ => ht, fun _ => Or.inl rfl, by simp⟩
    · refine ⟨rfl, fun _ => rfl, fun ht => ?_, by simp⟩
      cases status <;> simp [Status.isTerminal, Status.isActive] at ha ht
  | release =>
    obtain ⟨-, ha, -, rfl⟩ := release_move.mp h
    refine ⟨rfl, by simp, fun ht => ?_, by simp⟩
    cases status <;> simp [Status.isTerminal, Status.isActive] at ha ht
  | deadLetter =>
    obtain ⟨-, -, hst, rfl⟩ := deadLetter_move.mp h
    refine ⟨rfl, fun _ => rfl, fun ht => Or.inl ?_, by simp⟩
    cases status <;> simp [Status.isTerminal] at hst ht ⊢

/-- The same of an item and a request. -/
theorem request_status {item : Item} {r : Request} {m : Move} (hforce : r.force = false)
    (h : (reply item r).move = some m) :
    ∃ op, r.op = some op ∧ StatusLaw op item.currentStatus item.attempts item.maxAttempts m := by
  obtain ⟨op, hop, hm⟩ := move_decision h
  rw [hforce] at hm
  exact ⟨op, hop, move_status hm⟩

@[simp] theorem next_maxAttempts (item : Item) (r : Request) :
    (next item r).maxAttempts = item.maxAttempts := by
  cases h : (reply item r).move with
  | none => rw [next_stay h]
  | some m => rw [next_move h, Item.advance]

/-! ### Leaving a terminal status -/

/-- A terminal item stays terminal, or it is a failed one with attempts left and is retried. -/
def Stays (item : Item) (r : Request) : Prop :=
  item.currentStatus.isTerminal = true → (next item r).currentStatus.isTerminal = true ∨
    (r.op = some .retry ∧ item.currentStatus = .failed ∧ item.attempts < item.maxAttempts)

/-- No request without force moves the item any more. -/
structure Closed (item : Item) : Prop where
  terminal : item.currentStatus.isTerminal = true
  noRetry : item.currentStatus = .failed → item.maxAttempts ≤ item.attempts

theorem stays_step {item : Item} {r : Request} (hforce : r.force = false) : Stays item r := by
  intro ht
  cases h : (reply item r).move with
  | none => exact Or.inl (by rwa [next_stay h])
  | some m =>
    obtain ⟨op, hop, hlaw⟩ := request_status hforce h
    rw [next_move h, advance_currentStatus]
    rcases hlaw.stays ht with hnext | ⟨rfl, hfailed, hlt⟩
    · exact Or.inl (hnext ▸ ht)
    · exact Or.inr ⟨hop, hfailed, hlt⟩

theorem saturatingSucc_le {n k : Nat} (hk : k ≤ u64Max) (h : k ≤ n) : k ≤ saturatingSucc n :=
  le_min (by omega) hk

/-- What is closed stays closed without force. -/
theorem closed_step {item : Item} {r : Request} (hc : Closed item) (hforce : r.force = false) :
    Closed (next item r) := by
  cases h : (reply item r).move with
  | none => rwa [next_stay h]
  | some m =>
    obtain ⟨op, hop, hlaw⟩ := request_status hforce h
    have hnext : m.nextStatus = item.currentStatus := by
      refine (hlaw.stays hc.terminal).resolve_right ?_
      rintro ⟨-, hfailed, hlt⟩
      exact absurd (hc.noRetry hfailed) (by omega)
    rw [next_move h]
    refine ⟨by rw [advance_currentStatus, hnext, hc.terminal], fun hfailed => ?_⟩
    rw [advance_currentStatus, hnext] at hfailed
    have hle := hc.noRetry hfailed
    simp only [Item.advance]
    split
    · exact saturatingSucc_le item.maxAttempts_le hle
    · exact hle

/-! ### How often an active item fails -/

/-- The request is a `fail` that an active item is allowed. -/
def failsActive (item : Item) (r : Request) : Bool :=
  item.currentStatus.isActive &&
    ((reply item r).move.map fun m => decide (m.operation = .fail)).getD false

def activeFails : Item → List Request → Nat
  | _, [] => 0
  | item, r :: rs => (if failsActive item r then 1 else 0) + activeFails (next item r) rs

/-- How many failures of the active item are still to come at most. -/
def failuresLeft (item : Item) : Nat :=
  if item.attempts < item.maxAttempts then item.maxAttempts - item.attempts
  else if item.currentStatus.isTerminal then 0 else 1

theorem failuresLeft_le (item : Item) : failuresLeft item ≤ item.maxAttempts := by
  have := item.maxAttempts_pos
  unfold failuresLeft
  split_ifs <;> omega

/-- A failure of an active item uses up one of those that are left. -/
theorem failuresLeft_step {item : Item} {r : Request} (hforce : r.force = false) :
    (if failsActive item r then 1 else 0) + failuresLeft (next item r) ≤ failuresLeft item := by
  cases h : (reply item r).move with
  | none => simp [failsActive, h, next_stay h]
  | some m =>
    obtain ⟨op, -, hlaw⟩ := request_status hforce h
    have hle := item.maxAttempts_le
    have hstays : item.maxAttempts ≤ item.attempts → item.currentStatus.isTerminal = true →
        m.nextStatus.isTerminal = true := by
      intro hle ht
      rcases hlaw.stays ht with hnext | ⟨-, -, hlt⟩
      · rwa [hnext]
      · omega
    have hfails : failsActive item r = true → m.operation = .fail ∧
        item.currentStatus.isTerminal = false ∧ (m.nextStatus.isTerminal = true ∨
          saturatingSucc item.attempts < item.maxAttempts) := by
      intro hf
      simp only [failsActive, h, Option.map_some, Option.getD_some, Bool.and_eq_true,
        decide_eq_true_eq] at hf
      obtain ⟨ha, hop⟩ := hf
      refine ⟨hop, ?_, ?_⟩
      · cases hs : item.currentStatus <;> simp [hs, Status.isActive, Status.isTerminal] at ha ⊢
      · rcases hlaw.fails (hlaw.operation ▸ hop) ha with hnext | hlt
        · exact Or.inl (by rw [hnext]; rfl)
        · exact Or.inr hlt
    rw [next_move h, failuresLeft, failuresLeft, advance_currentStatus]
    simp only [Item.advance]
    unfold saturatingSucc at hfails ⊢
    cases hf : failsActive item r with
    | true =>
      obtain ⟨hop, hopen, hnext⟩ := hfails hf
      rcases hnext with hnext | hlt
      · simp only [hop, hopen, hnext, if_true, Bool.false_eq_true, if_false]
        split_ifs <;> omega
      · simp only [hop, hopen, if_true, Bool.false_eq_true, if_false]
        split_ifs <;> omega
    | false =>
      cases ht : item.currentStatus.isTerminal with
      | false =>
        simp only [Bool.false_eq_true, if_false]
        split_ifs <;> omega
      | true =>
        by_cases hle' : item.maxAttempts ≤ item.attempts
        · simp only [hstays hle' ht, Bool.false_eq_true, if_true, if_false]
          split_ifs <;> omega
        · simp only [Bool.false_eq_true, if_true, if_false]
          split_ifs <;> omega

theorem activeFails_le (rs : List Request) : ∀ item : Item, (∀ r ∈ rs, r.force = false) →
    activeFails item rs ≤ failuresLeft item := by
  induction rs with
  | nil => intro item _; exact Nat.zero_le _
  | cons r rs ih =>
    intro item h
    have hstep : _ ≤ failuresLeft item := failuresLeft_step (h r List.mem_cons_self)
    have hrest := ih (next item r) fun q hq => h q (List.mem_cons_of_mem _ hq)
    rw [activeFails]
    omega

/-! ### Whole runs -/

theorem terminal_next {item : Item} {r : Request} {m : Move} (hforce : r.force = false)
    (h : (reply item r).move = some m) (ht : m.terminal = true) :
    (next item r).currentStatus.isTerminal = true := by
  obtain ⟨op, -, hlaw⟩ := request_status hforce h
  rw [next_move h, advance_currentStatus]
  exact hlaw.terminal ht

theorem meets_stays {rs : List Request} : ∀ {item : Item}, (∀ r ∈ rs, r.force = false) →
    Meets step Stays item rs := by
  induction rs with
  | nil => intro item _; trivial
  | cons r rs ih =>
    intro item h
    exact ⟨stays_step (h r List.mem_cons_self), ih fun q hq => h q (List.mem_cons_of_mem _ hq)⟩

theorem closed_run {rs : List Request} {item last : Item} (hc : Closed item)
    (h : ∀ r ∈ rs, r.force = false) (hrun : run step item rs = some last) : Closed last := by
  induction rs generalizing item with
  | nil =>
    rw [Run.run_nil, Option.some.injEq] at hrun
    exact hrun ▸ hc
  | cons r rs ih =>
    exact ih (closed_step hc (h r List.mem_cons_self)) (fun q hq => h q (List.mem_cons_of_mem _ hq))
      hrun

/-- Once a terminal decision is allowed the item is terminal, and whatever follows it leaves the
    terminal statuses only by a retry of a failed item with attempts left; completed, cancelled, or
    failed with no attempt left, it is terminal for good. An active item fails at most `maxAttempts`
    times in a run. -/
theorem terminality_runs (item : Item) (before : List Request) (r : Request) (after : List Request)
    (hforce : ∀ q ∈ before ++ r :: after, q.force = false) :
    activeFails item (before ++ r :: after) ≤ item.maxAttempts ∧
      ∀ s m, run step item before = some s → (reply s r).move = some m → m.terminal = true →
        (next s r).currentStatus.isTerminal = true ∧
          Meets step Stays (next s r) after ∧
          (((next s r).currentStatus = .failed → s.maxAttempts ≤ (next s r).attempts) →
            ∀ last, run step (next s r) after = some last →
              last.currentStatus.isTerminal = true) := by
  have hr : r.force = false := hforce r (by simp)
  have hafter : ∀ q ∈ after, q.force = false := fun q hq => hforce q (by simp [hq])
  refine ⟨(activeFails_le _ item hforce).trans (failuresLeft_le item), fun s m _ hm ht => ?_⟩
  have hterminal := terminal_next hr hm ht
  refine ⟨hterminal, meets_stays hafter, fun hclosed last hlast => ?_⟩
  have hc : Closed (next s r) := ⟨hterminal, by rwa [next_maxAttempts]⟩
  exact (closed_run hc hafter hlast).terminal

/-- An item on its first attempt, and an owner that buries it and retries it. -/
def firstAttempt : Item := .fresh "run-1" "running" (some "worker-1")

def bury : Request := ⟨"dead_letter", "worker-1", "poisoned", false, false⟩

def requeue : Request := ⟨"retry", "worker-1", "", false, false⟩

theorem terminality_runs_retry : activeFails firstAttempt [bury, requeue] ≤ 3 ∧
    Meets step Stays (next firstAttempt bury) [requeue] :=
  have h := terminality_runs firstAttempt [] bury [requeue] (by decide)
  ⟨h.1, (h.2 firstAttempt ⟨.deadLetter, none, .failed, true⟩ rfl (by with_unfolding_all decide) rfl).2.1⟩

/-- A dead letter is terminal, and a retry puts the item back into the queue. -/
theorem dead_letter_retried :
    ((reply firstAttempt bury).move.map (·.terminal) = some true ∧
      (next firstAttempt bury).currentStatus = .failed ∧
      (next (next firstAttempt bury) requeue).currentStatus = .queued) ∧
    bury.force = false ∧ requeue.force = false := by
  with_unfolding_all decide

end Empyralis.Kernel.Queue
