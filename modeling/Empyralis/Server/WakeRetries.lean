import Empyralis.Lib.Run
import Empyralis.Server.SchedulerGates

/-! One wake request that is claimed and fails, again and again: how often `schedule_retry` makes it pending, and
    when it is claimed after that. -/

namespace Empyralis.Server.WakeRetries
open Wakes
open Heartbeat (PolicyBounds)
open SchedulerGates

/-- What a workspace has: how its rows are read, the policy of its scheduler, and that of the retries. -/
structure Host where
  env : Env
  workspaceId : Token
  policy : PolicyBounds
  retryPolicy : RetryPolicy

/-- `ready` is when the delay of the last retry is over, until the wake is claimed; `claims` has for each claim of a
    retried wake when it was ready and when it was claimed. -/
structure State where
  row : WakeRequest
  now : Int
  claimed : Option Item
  retries : Nat
  ready : Option Int
  claims : List (Int × Int)

inductive Label where
  | wait (time : Nat)
  | claim (hours : Hours)
  | fail (hours : Hours) (error nextAt : String)

variable (h : Host)

def start (row : WakeRequest) (now : Int) : State := ⟨row, now, none, 0, none, []⟩

/-- The gates of `claim_due_wake_requests` -/
def claimGates (hours : Hours) : Except Raised Unit := do
  enforceSessionSchedulerDecision h.policy hours.service
    { operation := .claimWakeRequests, workspaceId := h.workspaceId.text, triggerId := "claim_due_wake_requests" }
  enforceSchedulerWakeRepositoryDecision hours.repository
    { operation := .claimWakeRequests, workspaceId := h.workspaceId.text, wakeId := "claim_due_wake_requests",
      triggerKind := "", policy := none, payload := .empty }

/-- The claim of the repository: the due row is claimed, and handed out as it is read. -/
def claim (s : State) : State :=
  if due s.now s.row then
    { s with
      row := claimRow s.now s.row
      claimed := some ((claimRow s.now s.row).read h.env)
      ready := none
      claims := s.claims ++ (s.ready.map fun ready => (ready, s.now)).toList }
  else s

/-- `claim_due_wake_requests` -/
def claimDueWakeRequests (s : State) (hours : Hours) : State :=
  match claimGates h hours with
  | .ok _ => claim h s
  | .error _ => s

/-- The wake as `schedule_retry` is handed it; a row has no column for an override of the quiet hours. -/
def failedWake (item : Item) : FailedWake :=
  ⟨h.workspaceId, item.id, item.triggerKind, item.metadata, false⟩

/-- `schedule_retry` writes its update, and a raised error leaves the row. -/
def fail (s : State) (hours : Hours) (item : Item) (error nextAt : String) : State :=
  match scheduleRetry h.policy hours h.retryPolicy (failedWake h item) error nextAt with
  | .error _ => { s with claimed := none }
  | .ok (u, attempt) =>
    let row := updateRow h.env s.now s.row u s.row
    if u.status = .pending then
      { s with
        row
        claimed := none
        retries := s.retries + 1
        ready := (computeRetryDelay attempt h.retryPolicy).map fun delay => s.now + delay * second }
    else { s with row, claimed := none }

def step (s : State) : Label → Option State
  | .wait time => some { s with now := s.now + time }
  | .claim hours => some (claimDueWakeRequests h s hours)
  | .fail hours error nextAt => s.claimed.map fun item => fail h s hours item error nextAt

/-! ### What is claimed of a run -/

/-- A failure whose retry the gates let pass. -/
def retried : Label → Bool
  | .fail hours _ _ => (computeRetryDelay 1 h.retryPolicy).isSome && !exhausted 1 h.retryPolicy.maxRetries &&
    !retryQuiet h.policy hours.service false && !repositoryQuiet hours.repository
  | _ => false

/-- A claim waits for the end of the delay. -/
def Patient (s : State) : Label → Prop
  | .claim _ => ∀ ready ∈ s.ready, ready ≤ s.now
  | _ => True

instance (s : State) : DecidablePred (Patient s)
  | .claim _ => inferInstanceAs (Decidable (∀ ready ∈ s.ready, ready ≤ s.now))
  | .wait _ | .fail _ _ _ => inferInstanceAs (Decidable True)

/-- No retried wake was claimed before its delay was over. -/
def Delayed (s : State) : Prop := ∀ claim ∈ s.claims, claim.1 ≤ claim.2

instance (s : State) : Decidable (Delayed s) := inferInstanceAs (Decidable (∀ claim ∈ s.claims, claim.1 ≤ claim.2))

/-- What a run keeps: a claimed wake was due and carries its metadata as text, and a retried one is due at once. -/
structure Inv (s : State) : Prop where
  claimed : ∀ item ∈ s.claimed, s.row.dueAt ≤ s.now ∧ WakeStatuses.currentAttempt item.metadata = some 0 ∧
    s.ready = none
  ready : s.ready.isSome → due s.now s.row = true

variable {h : Host} {s t : State}

theorem claimGates_ok (hours : Hours) : claimGates h hours = .ok () := by
  have hworkspace : (Kernel.present (Text.strip h.workspaceId.text)).isSome := by
    rw [h.workspaceId.trimmed, h.workspaceId.present_text]
    rfl
  refine gate_bind_ok.mpr ⟨?_, ?_⟩
  · exact claim_ok _ rfl rfl rfl hworkspace
  · exact claim_ok _ rfl rfl rfl hworkspace

theorem claimDueWakeRequests_eq (hours : Hours) : claimDueWakeRequests h s hours = claim h s := by
  unfold claimDueWakeRequests
  rw [claimGates_ok]

theorem retried_iff {item : Item} (hattempt : WakeStatuses.currentAttempt item.metadata = some 0)
    (hretry : shouldRetry 1 h.retryPolicy = true) (hours : Hours) (error nextAt : String) :
    (∃ u, scheduleRetry h.policy hours h.retryPolicy (failedWake h item) error nextAt = .ok (u, 1) ∧
      u.status = .pending) ↔ retried h (.fail hours error nextAt) = true := by
  have hok := @retry_ok h.policy hours h.retryPolicy (failedWake h item) 0 error nextAt hattempt hretry
  have hfive : exhausted 1 5 = false := by decide
  simp only [zero_add, hfive, true_and] at hok
  rw [hok]
  simp only [retried, Bool.and_eq_true, Bool.not_eq_true', failedWake, and_assoc]

/-- What a failure comes to: the wake is pending again, or it is left without a retry. -/
theorem fail_cases {item : Item} (hattempt : WakeStatuses.currentAttempt item.metadata = some 0) (hours : Hours)
    (error nextAt : String) :
    (shouldRetry 1 h.retryPolicy = true ∧ retried h (.fail hours error nextAt) = true ∧
      ∃ u : StatusUpdate, ∃ ready : Option Int, u.status = .pending ∧ fail h s hours item error nextAt =
        { s with row := updateRow h.env s.now s.row u s.row, claimed := none, retries := s.retries + 1, ready }) ∨
    ((shouldRetry 1 h.retryPolicy && retried h (.fail hours error nextAt)) = false ∧
      ∃ row, fail h s hours item error nextAt = { s with row, claimed := none }) := by
  unfold fail
  rcases hresult : scheduleRetry h.policy hours h.retryPolicy (failedWake h item) error nextAt with e | ⟨u, n⟩
  · refine .inr ⟨?_, s.row, rfl⟩
    by_contra hboth
    simp only [Bool.not_eq_false, Bool.and_eq_true] at hboth
    obtain ⟨u, hok, -⟩ := (retried_iff hattempt hboth.1 hours error nextAt).mpr hboth.2
    rw [hresult] at hok
    cases hok
  · obtain ⟨rfl, hstatus⟩ := retry_status hattempt hresult
    dsimp only
    rw [zero_add] at hresult hstatus
    by_cases hretry : shouldRetry 1 h.retryPolicy = true
    · rw [if_pos hretry] at hstatus
      rw [if_pos hstatus]
      exact .inl ⟨hretry, (retried_iff hattempt hretry hours error nextAt).mp ⟨u, hresult, hstatus⟩, u, _, hstatus, rfl⟩
    · rw [if_neg hretry] at hstatus
      rw [if_neg (by rw [hstatus]; decide)]
      rw [Bool.not_eq_true] at hretry
      exact .inr ⟨by rw [hretry, Bool.false_and], _, rfl⟩

theorem due_update {u : StatusUpdate} (hpending : u.status = .pending) (hdue : s.row.dueAt ≤ s.now) :
    due s.now (updateRow h.env s.now s.row u s.row) = true := by
  simp only [due, updateRow, hpending, decide_true, Bool.true_and, decide_eq_true_eq]
  exact hdue

theorem claimed_read (htext : h.env.GivesText) (row : WakeRequest) :
    WakeStatuses.currentAttempt (row.read h.env).metadata = some 0 := by
  obtain ⟨text, heq⟩ := htext row.metadata
  rw [WakeRequest.read, heq]
  rfl

theorem due_later {row : WakeRequest} {now : Int} (time : Nat) (hdue : due now row = true) :
    due (now + time) row = true := by
  simp only [due, Bool.and_eq_true, decide_eq_true_eq] at hdue ⊢
  exact ⟨hdue.1, by omega⟩

/-- One step keeps what is said of the claimed wakes. -/
theorem inv_step (htext : h.env.GivesText) (hi : Inv s) {l : Label} (hst : step h s l = some t) : Inv t := by
  cases l with
  | wait time =>
    rw [← Option.some.inj hst]
    refine ⟨fun item hitem => ?_, fun hready => due_later time (hi.ready hready)⟩
    obtain ⟨hdue, hrest⟩ := hi.claimed item hitem
    exact ⟨by dsimp only; omega, hrest⟩
  | claim hours =>
    rw [← Option.some.inj hst, claimDueWakeRequests_eq, claim]
    split
    · rename_i hdue
      simp only [due, Bool.and_eq_true, decide_eq_true_eq] at hdue
      refine ⟨?_, fun hready => by cases hready⟩
      rintro _ ⟨⟩
      exact ⟨hdue.2, claimed_read htext _, rfl⟩
    · exact hi
  | fail hours error nextAt =>
    obtain ⟨item, hitem, rfl⟩ := Option.map_eq_some_iff.mp hst
    obtain ⟨hdue, hattempt, hready⟩ := hi.claimed item hitem
    rcases @fail_cases h s item hattempt hours error nextAt with ⟨-, -, u, ready, hpending, heq⟩ | ⟨-, row, heq⟩
    · rw [heq]
      exact ⟨fun _ hnone => (by cases hnone), fun _ => due_update hpending hdue⟩
    · rw [heq]
      refine ⟨fun _ hnone => (by cases hnone), fun hsome => ?_⟩
      dsimp only at hsome
      rw [hready] at hsome
      cases hsome

theorem inv_start (row : WakeRequest) (now : Int) : Inv (start row now) :=
  ⟨fun _ hnone => (by cases hnone), fun hnone => (by cases hnone)⟩

/-! ### How often -/

/-- The retries that a step adds. -/
def added (h : Host) (l : Label) : Nat := if shouldRetry 1 h.retryPolicy && retried h l then 1 else 0

theorem retries_step (hi : Inv s) {l : Label} (hst : step h s l = some t) : t.retries = s.retries + added h l := by
  cases l with
  | wait time =>
    rw [← Option.some.inj hst]
    simp [added, retried]
  | claim hours =>
    rw [← Option.some.inj hst, claimDueWakeRequests_eq, claim]
    split <;> simp [added, retried]
  | fail hours error nextAt =>
    obtain ⟨item, hitem, rfl⟩ := Option.map_eq_some_iff.mp hst
    obtain ⟨-, hattempt, -⟩ := hi.claimed item hitem
    rcases @fail_cases h s item hattempt hours error nextAt with ⟨hretry, hretried, u, ready, -, heq⟩ | ⟨hnot, row, heq⟩
    · rw [heq, added, hretry, hretried]
      rfl
    · rw [heq, added, hnot]
      rfl

/-- A run makes the wake pending once for each failure that the gates let pass, or never. -/
theorem retries_run (htext : h.env.GivesText) {labels : List Label} (hi : Inv s)
    (hrun : Run.run (step h) s labels = some t) :
    t.retries = s.retries + if shouldRetry 1 h.retryPolicy then labels.countP (retried h) else 0 := by
  induction labels generalizing s with
  | nil =>
    rw [Run.run_nil, Option.some.injEq] at hrun
    simp [hrun]
  | cons l labels ih =>
    rw [Run.run_cons, Option.bind_eq_some_iff] at hrun
    obtain ⟨u, hst, hrest⟩ := hrun
    rw [ih (inv_step htext hi hst) hrest, retries_step hi hst, added, List.countP_cons]
    rcases shouldRetry 1 h.retryPolicy with _ | _
    · simp
    · simp only [Bool.true_and, if_true]
      omega

/-! ### How soon -/

/-- One step keeps the delays, if the claim is patient. -/
theorem delayed_step (hd : Delayed s) {l : Label} (hp : Patient s l) (hi : Inv s) (hst : step h s l = some t) :
    Delayed t := by
  cases l with
  | wait time =>
    rw [← Option.some.inj hst]
    exact hd
  | claim hours =>
    rw [← Option.some.inj hst, claimDueWakeRequests_eq, claim]
    split
    · intro claim hclaim
      rcases List.mem_append.mp hclaim with hold | hnew
      · exact hd claim hold
      · rw [Option.mem_toList] at hnew
        obtain ⟨ready, hready, rfl⟩ := Option.map_eq_some_iff.mp hnew
        exact hp ready hready
    · exact hd
  | fail hours error nextAt =>
    obtain ⟨item, hitem, rfl⟩ := Option.map_eq_some_iff.mp hst
    obtain ⟨-, hattempt, -⟩ := hi.claimed item hitem
    rcases @fail_cases h s item hattempt hours error nextAt with ⟨-, -, u, ready, -, heq⟩ | ⟨-, row, heq⟩
    · rw [heq]
      exact hd
    · rw [heq]
      exact hd

theorem patient_of_delayed (hi : Inv s) {l : Label} (hd : ∀ t, step h s l = some t → Delayed t) : Patient s l := by
  cases l with
  | claim hours =>
    intro ready hready
    have hdue := hi.ready (Option.isSome_iff_exists.mpr ⟨ready, hready⟩)
    have hclaims := hd _ rfl
    rw [claimDueWakeRequests_eq, claim, if_pos hdue] at hclaims
    refine hclaims (ready, s.now) (List.mem_append_right _ ?_)
    rw [Option.mem_toList, Option.mem_def.mp hready]
    rfl
  | wait time => trivial
  | fail hours error nextAt => trivial

/-- A wake is made pending at most `max_retries` times exactly when that is 1 or no more failures pass the gates, and
    it waits for its delays exactly when nothing claims it before. -/
theorem retries_bounded (h : Host) (htext : h.env.GivesText) (hmax : 1 ≤ h.retryPolicy.maxRetries) (row : WakeRequest)
    (now : Int) (labels : List Label) :
    (∀ t, Run.run (step h) (start row now) labels = some t →
      ((t.retries : Int) ≤ h.retryPolicy.maxRetries ↔
        h.retryPolicy.maxRetries = 1 ∨ (labels.countP (retried h) : Int) ≤ h.retryPolicy.maxRetries)) ∧
    ((∀ first t, first <+: labels → Run.run (step h) (start row now) first = some t → Delayed t) ↔
      Run.Meets (step h) Patient (start row now) labels) := by
  constructor
  · intro t hrun
    have hretries := retries_run htext (inv_start row now) hrun
    change t.retries = 0 + _ at hretries
    rw [hretries]
    by_cases hone : h.retryPolicy.maxRetries = 1
    · simp [shouldRetry, hone]
    · have hmore : shouldRetry 1 h.retryPolicy = true := decide_eq_true (by omega)
      simp [hmore, hone]
  · exact Run.all_iff_meets (I := fun s => Inv s ∧ Delayed s) (L := fun _ => True) (fun _ hi => hi.2)
      (fun _ _ _ hi _ hp hst => ⟨inv_step htext hi.1 hst, delayed_step hi.2 hp hi.1 hst⟩)
      (fun _ _ hi _ hd => patient_of_delayed hi.1 hd)
      ⟨inv_start row now, fun _ hclaim => (by cases hclaim)⟩ (fun _ _ => trivial)

/-! ### A wake that fails three times -/

def textHost (maxRetries : Int) : Host :=
  ⟨texts, workspace, defaultPolicy, { defaultRetryPolicy with maxRetries }⟩

/-- A goal's wake, due at noon. -/
def noonWake : WakeRequest :=
  persistWakeup placed "goal" "goal_retry" "Goal: Ship it" [] []

def failure : Label := .fail ⟨12, 12⟩ "timeout" "2026-01-01T12:01:00Z"

/-- Claimed, failed, and claimed again after a minute. -/
def retriedOnce : List Label := [.claim ⟨12, 12⟩, failure, .wait 60000000, .claim ⟨12, 12⟩]

/-- Claimed and failed three times in a row. -/
def failedThrice : List Label :=
  [.claim ⟨12, 12⟩, failure, .claim ⟨12, 12⟩, failure, .claim ⟨12, 12⟩, failure]

theorem retries_bounded_once :
    ∃ t, Run.run (step (textHost 2)) (start noonWake 0) retriedOnce = some t ∧
      (t.retries : Int) ≤ (textHost 2).retryPolicy.maxRetries ∧ Delayed t := by
  obtain ⟨hcount, hdelayed⟩ := retries_bounded (textHost 2) texts_givesText (by decide) noonWake 0 retriedOnce
  obtain ⟨t, hrun⟩ := Option.isSome_iff_exists.mp
    (by decide : (Run.run (step (textHost 2)) (start noonWake 0) retriedOnce).isSome = true)
  exact ⟨t, hrun, (hcount t hrun).mpr (.inr (by decide)),
    hdelayed.mpr (by decide) retriedOnce t (List.prefix_refl _) hrun⟩

/-- Two retries are allowed, and the wake is retried three times without a delay. -/
theorem retries_unbounded :
    ∃ t, Run.run (step (textHost 2)) (start noonWake 0) failedThrice = some t ∧
      ¬ (t.retries : Int) ≤ (textHost 2).retryPolicy.maxRetries ∧ ¬ Delayed t := by
  have hrun : (Run.run (step (textHost 2)) (start noonWake 0) failedThrice).any fun t =>
      ¬ (t.retries : Int) ≤ (textHost 2).retryPolicy.maxRetries ∧ ¬ Delayed t := by decide
  obtain ⟨t, hrun, hnot⟩ := (Option.any_eq_true _ _).mp hrun
  exact ⟨t, hrun, of_decide_eq_true hnot⟩

end Empyralis.Server.WakeRetries
