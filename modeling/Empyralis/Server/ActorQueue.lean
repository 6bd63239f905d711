import Empyralis.Lib.Chain
import Empyralis.Lib.Run
import Empyralis.Lib.Text
import Mathlib.Logic.Function.Basic

/-! `SessionActorQueue`: one `threading.Lock` per actor key, made when a claim first asks for it and
    dropped when the last claim that counted itself under the key has taken its count back.

    Two places of `claim` run under the global lock, the look-up and the clean-up; each is one step
    here, and so is `lock.acquire()`, `lock.release()` and the entry into the `try`. A lock is the
    number it was made under. A claim may be interrupted wherever no `finally` catches it: while it
    waits for the lock, between the lock and the `try`, and before its clean-up. It then keeps its
    count, and in the second case the lock too. -/

namespace Empyralis.Server.ActorQueue

/-- Where a claim is. A `lost` claim was interrupted outside the `try`, `holding` or not. -/
inductive Stage where
  | waiting | acquired | body | released | left
  | lost (holding : Bool)
  deriving DecidableEq

/-- The claim has its lock. -/
def Stage.holding : Stage → Bool
  | .acquired | .body | .lost true => true
  | .waiting | .released | .left | .lost false => false

/-- The claim waits for its lock or has it. -/
def Stage.inUse : Stage → Bool
  | .waiting => true
  | stage => stage.holding

/-- The claim counts among the pending ones of its key. -/
def Stage.counted : Stage → Bool
  | .left => false
  | _ => true

structure Claim where
  token : String
  lock : Nat
  stage : Stage
  deriving DecidableEq

/-- `madeFor` are the keys that the locks were made for, in the order in which they were made;
    `locked` is their state. -/
structure State where
  lockByActor : String → Option Nat
  pendingByActor : String → Option Nat
  locked : Nat → Bool
  madeFor : List String
  claims : List Claim

def start : State where
  lockByActor := fun _ => none
  pendingByActor := fun _ => none
  locked := fun _ => false
  madeFor := []
  claims := []

variable (lower : String → String)

/-- `_normalize_actor_key`; `lower` is `str.lower`. -/
def normalizeActorKey (actorKey : String) : String :=
  let token := lower (Text.trim Text.pySpace actorKey)
  if token = "" then "__default__" else token

/-- The first block under the global lock. -/
def State.claim (s : State) (token : String) : State :=
  let found := s.lockByActor token
  let lock := found.getD s.madeFor.length
  { s with
    lockByActor := Function.update s.lockByActor token (some lock)
    madeFor := if found = none then s.madeFor ++ [token] else s.madeFor
    pendingByActor :=
      Function.update s.pendingByActor token (some ((s.pendingByActor token).getD 0 + 1))
    claims := s.claims ++ [⟨token, lock, .waiting⟩] }

/-- A claim moves on; `locked` are the locks from then on. -/
def State.setStage (s : State) (i : Nat) (c : Claim) (stage : Stage) (locked : Nat → Bool) :
    State :=
  { s with claims := s.claims.set i { c with stage := stage }, locked := locked }

/-- `(self._pending_by_actor.get(token) or 1) - 1` -/
def pendingAfter (pending : Option Nat) : Nat :=
  (match pending with
    | none | some 0 => 1
    | some n => n) - 1

/-- The block under the global lock in the `finally`. -/
def State.settle (s : State) (token : String) : State :=
  let pending := pendingAfter (s.pendingByActor token)
  { s with
    pendingByActor :=
      Function.update s.pendingByActor token (if pending = 0 then none else some pending)
    lockByActor :=
      if pending = 0 then Function.update s.lockByActor token none else s.lockByActor }

inductive Label where
  | claim (actorKey : String)
  | acquire (i : Nat)
  | enter (i : Nat)
  | release (i : Nat)
  | settle (i : Nat)
  | interrupt (i : Nat)

/-- One step of one claim. The body may end by a return, by an exception or by a cancellation: the
    `finally` releases the lock in each case. -/
def step (s : State) : Label → Option State
  | .claim actorKey => some (s.claim (normalizeActorKey lower actorKey))
  | .acquire i =>
    match s.claims[i]? with
    | some c =>
      if c.stage = .waiting ∧ s.locked c.lock = false then
        some (s.setStage i c .acquired (Function.update s.locked c.lock true))
      else none
    | none => none
  | .enter i =>
    match s.claims[i]? with
    | some c => if c.stage = .acquired then some (s.setStage i c .body s.locked) else none
    | none => none
  | .release i =>
    match s.claims[i]? with
    | some c =>
      if c.stage = .body then
        some (s.setStage i c .released (Function.update s.locked c.lock false))
      else none
    | none => none
  | .settle i =>
    match s.claims[i]? with
    | some c =>
      if c.stage = .released then some ((s.setStage i c .left s.locked).settle c.token) else none
    | none => none
  | .interrupt i =>
    match s.claims[i]? with
    | some c =>
      match c.stage with
      | .waiting | .released => some (s.setStage i c (.lost false) s.locked)
      | .acquired => some (s.setStage i c (.lost true) s.locked)
      | _ => none
    | none => none

/-! ### What a step does -/

/-- The steps of a claim that keeps its count are taken together: `locked` follows its lock. -/
inductive Moves (s : State) : State → Prop
  | claim (token : String) : Moves s (s.claim token)
  | move {i : Nat} {c : Claim} {stage : Stage} {locked : Nat → Bool} (hi : s.claims[i]? = some c)
      (hc : c.stage.counted) (hc' : stage.counted)
      (hlocked : ∀ n, locked n = if n = c.lock ∧ (c.stage.holding ∨ stage.holding) then
        stage.holding else s.locked n)
      (hfree : stage.holding → c.stage.holding ∨ s.locked c.lock = false) :
      Moves s (s.setStage i c stage locked)
  | settle {i : Nat} {c : Claim} (hi : s.claims[i]? = some c) (hc : c.stage = .released) :
      Moves s ((s.setStage i c .left s.locked).settle c.token)

/-- A lock is locked while one claim has it, and serves the key it was made for. -/
structure Locks (s : State) : Prop where
  locked : ∀ n, s.locked n ↔ ∃ c ∈ s.claims, c.lock = n ∧ c.stage.holding
  exclusive : s.claims.Pairwise fun a b => a.lock = b.lock → ¬ (a.stage.holding ∧ b.stage.holding)
  owner : ∀ c ∈ s.claims, s.madeFor[c.lock]? = some c.token

/-- The counts are those of the claims, and the table has the lock of every claim that counts. -/
structure Table (s : State) : Prop where
  pending : ∀ token, (s.pendingByActor token).getD 0 =
    s.claims.countP fun c => c.token = token ∧ c.stage.counted
  table : ∀ c ∈ s.claims, c.stage.counted → s.lockByActor c.token = some c.lock
  owner : ∀ token n, s.lockByActor token = some n → s.madeFor[n]? = some token

/-- What holds of the queue at every moment. -/
structure Sound (s : State) : Prop where
  locks : Locks s
  table : Table s

theorem sound_start : Sound start where
  locks :=
    { locked := by simp [start]
      exclusive := List.Pairwise.nil
      owner := fun _ hc => absurd hc List.not_mem_nil }
  table :=
    { pending := fun _ => rfl
      table := fun _ hc => absurd hc List.not_mem_nil
      owner := by simp [start] }

variable {lower} {s t : State} {l : Label} {i : Nat} {c : Claim}

theorem Locks.locked_of_holding (h : Locks s) (hi : s.claims[i]? = some c)
    (hc : c.stage.holding) : s.locked c.lock = true :=
  (h.locked c.lock).mpr ⟨c, List.mem_of_getElem? hi, rfl, hc⟩

/-- A step of one claim that leaves every lock as it is. -/
theorem Locks.stay (h : Locks s) (hi : s.claims[i]? = some c) {stage : Stage}
    (hc : c.stage.counted) (hc' : stage.counted) (hh : c.stage.holding = stage.holding) :
    Moves s (s.setStage i c stage s.locked) := by
  refine .move hi hc hc' (fun n => ?_) (fun hs => Or.inl (hh ▸ hs))
  split_ifs with hn
  · obtain ⟨rfl, hn⟩ := hn
    have hs : stage.holding = true := hn.elim (fun hn => hh ▸ hn) id
    rw [hs]
    exact h.locked_of_holding hi (hh ▸ hs)
  · rfl

/-- Everything that a step can do. -/
theorem step_moves (h : Locks s) (hst : step lower s l = some t) : Moves s t := by
  cases l with
  | claim actorKey =>
    rw [← Option.some.inj hst]
    exact .claim _
  | acquire i =>
    simp only [step] at hst
    split at hst <;> [skip; simp at hst]
    rename_i c hi
    split at hst <;> [skip; simp at hst]
    rename_i hc
    rw [← Option.some.inj hst]
    refine .move hi (by rw [hc.1]; rfl) rfl (fun n => ?_) (fun _ => Or.inr hc.2)
    simp [Function.update_apply, Stage.holding]
  | enter i =>
    simp only [step] at hst
    split at hst <;> [skip; simp at hst]
    rename_i c hi
    split at hst <;> [skip; simp at hst]
    rename_i hc
    rw [← Option.some.inj hst]
    exact h.stay hi (by rw [hc]; rfl) rfl (by rw [hc]; rfl)
  | release i =>
    simp only [step] at hst
    split at hst <;> [skip; simp at hst]
    rename_i c hi
    split at hst <;> [skip; simp at hst]
    rename_i hc
    rw [← Option.some.inj hst]
    refine .move hi (by rw [hc]; rfl) rfl (fun n => ?_) (fun hs => absurd hs Bool.false_ne_true)
    simp [Function.update_apply, hc, Stage.holding]
  | settle i =>
    simp only [step] at hst
    split at hst <;> [skip; simp at hst]
    rename_i c hi
    split at hst <;> [skip; simp at hst]
    rename_i hc
    rw [← Option.some.inj hst]
    exact .settle hi hc
  | interrupt i =>
    simp only [step] at hst
    split at hst <;> [skip; simp at hst]
    rename_i c hi
    split at hst <;> [skip; skip; skip; simp at hst] <;>
    · rename_i hc
      rw [← Option.some.inj hst]
      exact h.stay hi (by rw [hc]; rfl) rfl (by rw [hc]; rfl)

/-! ### Every step keeps the invariant -/

theorem sound_claim (h : Sound s) (token : String) : Sound (s.claim token) := by
  have hlock : (s.claim token).madeFor[(s.lockByActor token).getD s.madeFor.length]? =
      some token := by
    cases hfound : s.lockByActor token with
    | none => simp [State.claim, hfound]
    | some n => simpa [State.claim, hfound] using h.table.owner token n hfound
  have hgrow : ∀ (n : Nat) (token' : String), s.madeFor[n]? = some token' →
      (s.claim token).madeFor[n]? = some token' := by
    intro n token' hn
    simp only [State.claim]
    split_ifs
    · exact Chain.getElem?_snoc_of _ hn
    · exact hn
  have hmem : ∀ d ∈ (s.claim token).claims, d ∈ s.claims ∨
      d = ⟨token, (s.lockByActor token).getD s.madeFor.length, .waiting⟩ := by
    intro d hd
    simpa [State.claim] using hd
  refine ⟨⟨?_, ?_, ?_⟩, ⟨?_, ?_, ?_⟩⟩
  · intro n
    simp only [State.claim, List.mem_append, List.mem_singleton]
    rw [h.locks.locked n]
    constructor
    · rintro ⟨d, hd, hn⟩
      exact ⟨d, Or.inl hd, hn⟩
    · rintro ⟨d, hd | rfl, hn⟩
      · exact ⟨d, hd, hn⟩
      · exact absurd hn.2 Bool.false_ne_true
  · refine List.pairwise_append.mpr ⟨h.locks.exclusive, List.pairwise_singleton _ _, ?_⟩
    rintro a _ b hb _ ⟨_, hbh⟩
    rw [List.mem_singleton.mp hb] at hbh
    exact absurd hbh Bool.false_ne_true
  · intro d hd
    rcases hmem d hd with hd | rfl
    · exact hgrow _ _ (h.locks.owner d hd)
    · exact hlock
  · intro token'
    simp only [State.claim, Function.update_apply, List.countP_append, List.countP_singleton,
      ← h.table.pending]
    by_cases ht : token' = token
    · simp [ht, Stage.counted]
    · simp [ht, Ne.symm ht]
  · intro d hd hc
    rcases hmem d hd with hd | rfl
    · by_cases ht : d.token = token
      · have hd' := h.table.table d hd hc
        rw [ht] at hd'
        simp [State.claim, ht, hd']
      · simpa [State.claim, Function.update_apply, ht] using h.table.table d hd hc
    · simp [State.claim]
  · intro token' n hn
    simp only [State.claim, Function.update_apply] at hn
    split_ifs at hn with ht
    · rw [← Option.some.inj hn, ht]
      exact hlock
    · exact hgrow _ _ (h.table.owner token' n hn)

/-- While the claim has its lock or takes it, no other claim has that lock. -/
theorem Locks.alone (h : Locks s) (hi : s.claims[i]? = some c) {stage : Stage}
    (hfree : stage.holding → c.stage.holding ∨ s.locked c.lock = false)
    (hh : c.stage.holding ∨ stage.holding) {j : Nat} {d : Claim} (hji : j ≠ i)
    (hj : s.claims[j]? = some d) (hdl : d.lock = c.lock) : ¬ d.stage.holding := by
  intro hd
  have hlock : s.locked c.lock = true := hdl ▸ h.locked_of_holding hj hd
  have hc : c.stage.holding := by
    rcases hh with hh | hh
    · exact hh
    · exact (hfree hh).resolve_right (by simp [hlock])
  rcases Nat.lt_or_gt_of_ne hji with hlt | hgt
  · exact Chain.pairwise_getElem? h.exclusive hlt hj hi hdl ⟨hd, hc⟩
  · exact Chain.pairwise_getElem? h.exclusive hgt hi hj hdl.symm ⟨hc, hd⟩

/-- A claim takes a lock that is free, or gives back its own. -/
theorem locks_move (h : Locks s) {stage : Stage} {locked : Nat → Bool}
    (hi : s.claims[i]? = some c)
    (hlocked : ∀ n, locked n = if n = c.lock ∧ (c.stage.holding ∨ stage.holding) then
      stage.holding else s.locked n)
    (hfree : stage.holding → c.stage.holding ∨ s.locked c.lock = false) :
    Locks (s.setStage i c stage locked) := by
  refine ⟨?_, ?_, ?_⟩
  · intro n
    simp only [State.setStage]
    rw [hlocked n]
    constructor
    · intro hn
      split_ifs at hn with hcase
      · exact ⟨{ c with stage := stage }, List.mem_set (List.getElem?_eq_some_iff.mp hi).1 _,
          hcase.1.symm, hn⟩
      · obtain ⟨d, hd, rfl, hdh⟩ := (h.locked n).mp hn
        obtain ⟨j, hj⟩ := List.mem_iff_getElem?.mp hd
        rcases Chain.getElem?_set_of { c with stage := stage } hi hj with ⟨-, rfl, -⟩ | ⟨-, hj'⟩
        · exact absurd ⟨rfl, Or.inl hdh⟩ hcase
        · exact ⟨d, List.mem_of_getElem? hj', rfl, hdh⟩
    · rintro ⟨d, hd, rfl, hdh⟩
      obtain ⟨j, hj⟩ := List.mem_iff_getElem?.mp hd
      rcases Chain.getElem?_set_cases hj with ⟨-, rfl⟩ | ⟨hij, hj⟩
      · rw [if_pos ⟨rfl, Or.inr hdh⟩]
        exact hdh
      · have hother : ¬ (d.lock = c.lock ∧ (c.stage.holding ∨ stage.holding)) := fun hcase =>
          h.alone hi hfree hcase.2 (Ne.symm hij) hj hcase.1 hdh
        rw [if_neg hother]
        exact h.locked_of_holding hj hdh
  · refine Chain.pairwise_set h.exclusive ?_ ?_
    · rintro j d hji hj hdl ⟨hd, hs⟩
      exact h.alone hi hfree (Or.inr hs) (Nat.ne_of_lt hji) hj hdl hd
    · rintro j d hij hj hdl ⟨hs, hd⟩
      exact h.alone hi hfree (Or.inr hs) (Nat.ne_of_gt hij) hj hdl.symm hd
  · intro d hd
    rcases List.mem_or_eq_of_mem_set hd with hd | rfl
    · exact h.owner d hd
    · exact h.owner c (List.mem_of_getElem? hi)

theorem table_move (h : Table s) {stage : Stage} {locked : Nat → Bool}
    (hi : s.claims[i]? = some c) (hc : c.stage.counted) (hc' : stage.counted) :
    Table (s.setStage i c stage locked) where
  pending := by
    intro token
    have hcount := Chain.countP_set_add
      (fun d : Claim => decide (d.token = token ∧ d.stage.counted)) { c with stage := stage } hi
    simp only [hc, hc'] at hcount
    exact (h.pending token).trans (Nat.add_right_cancel hcount).symm
  table := by
    intro d hd hdc
    rcases List.mem_or_eq_of_mem_set hd with hd | rfl
    · exact h.table d hd hdc
    · exact h.table c (List.mem_of_getElem? hi) hc
  owner := h.owner

theorem pendingAfter_eq (pending : Option Nat) : pendingAfter pending = pending.getD 0 - 1 := by
  unfold pendingAfter
  split <;> rfl

/-- The lock of an actor is dropped with its last claim. -/
theorem table_settle (h : Table s) (hi : s.claims[i]? = some c) (hc : c.stage = .released) :
    Table ((s.setStage i c .left s.locked).settle c.token) := by
  have hcount : ∀ token, (s.claims.set i { c with stage := .left }).countP
      (fun d => decide (d.token = token ∧ d.stage.counted)) =
        (s.pendingByActor token).getD 0 - (if token = c.token then 1 else 0) := by
    intro token
    have hadd := Chain.countP_set_add
      (fun d : Claim => decide (d.token = token ∧ d.stage.counted)) { c with stage := .left } hi
    rw [h.pending token]
    by_cases ht : token = c.token
    · simp only [hc, ht, Stage.counted] at hadd ⊢
      simp at hadd ⊢
      omega
    · simp only [hc, Ne.symm ht, Stage.counted] at hadd ⊢
      simp [ht] at hadd ⊢
      omega
  refine ⟨?_, ?_, ?_⟩
  · intro token
    simp only [State.settle, State.setStage, pendingAfter_eq]
    rw [hcount token, Function.update_apply]
    by_cases ht : token = c.token
    · rw [if_pos ht, if_pos ht, ht]
      split_ifs with hzero
      · exact hzero.symm
      · rfl
    · rw [if_neg ht, if_neg ht, Nat.sub_zero]
  · intro d hd hdc
    have hold : s.lockByActor d.token = some d.lock := by
      rcases List.mem_or_eq_of_mem_set hd with hd | rfl
      · exact h.table d hd hdc
      · exact absurd hdc Bool.false_ne_true
    simp only [State.settle, State.setStage, pendingAfter_eq]
    split_ifs with hzero
    · -- no claim counts under the key that is dropped
      have hne : d.token ≠ c.token := by
        intro ht
        have hnone := hcount c.token
        rw [if_pos rfl, hzero, List.countP_eq_zero] at hnone
        exact hnone d hd (by simpa [ht] using hdc)
      rw [Function.update_of_ne hne]
      exact hold
    · exact hold
  · intro token n hn
    simp only [State.settle, State.setStage, pendingAfter_eq] at hn
    split_ifs at hn
    · rw [Function.update_apply] at hn
      split_ifs at hn
      exact h.owner token n hn
    · exact h.owner token n hn

theorem sound_step (h : Sound s) (hst : step lower s l = some t) : Sound t := by
  cases step_moves h.locks hst with
  | claim token => exact sound_claim h token
  | move hi hc hc' hlocked hfree =>
    exact ⟨locks_move h.locks hi hlocked hfree, table_move h.table hi hc hc'⟩
  | @settle i c hi hc =>
    have hlocks : Locks (s.setStage i c .left s.locked) :=
      locks_move h.locks hi (by simp [hc, Stage.holding]) (by simp [Stage.holding])
    exact ⟨⟨hlocks.locked, hlocks.exclusive, hlocks.owner⟩, table_settle h.table hi hc⟩

/-! ### Mutual exclusion -/

theorem sound_run {labels : List Label} (h : Run.run (step lower) start labels = some s) :
    Sound s :=
  Run.run_inv_all (fun _ _ _ hi hst => sound_step hi hst) sound_start h

/-- The claims that use a lock of one key use the same one, that of the table. -/
theorem Sound.same_lock (h : Sound s) {a b : Claim} (ha : a ∈ s.claims) (hb : b ∈ s.claims)
    (hac : a.stage.counted) (hbc : b.stage.counted) (hab : a.token = b.token) :
    a.lock = b.lock := by
  have hat := h.table.table a ha hac
  have hbt := h.table.table b hb hbc
  rw [hab, hbt] at hat
  exact (Option.some.inj hat).symm

theorem Stage.counted_of_inUse {stage : Stage} (h : stage.inUse) : stage.counted := by
  cases stage <;> first | rfl | exact absurd h Bool.false_ne_true

theorem Locks.holder_unique (h : Locks s) {j : Nat} {a b : Claim} (hi : s.claims[i]? = some a)
    (hj : s.claims[j]? = some b) (ha : a.stage.holding) (hb : b.stage.holding)
    (hab : a.lock = b.lock) : i = j := by
  by_contra hij
  exact h.alone hi (fun hs => Or.inl hs) (Or.inl ha) (Ne.symm hij) hj hab.symm hb

/-- One claim at most is inside the body for a key; a claim that cannot take its lock finds it with
    a claim of its own key; the table keeps the lock of every claim that waits for it or has it, so
    the claims of one key never use two locks. -/
theorem actor_queue_exclusive {labels : List Label}
    (h : Run.run (step lower) start labels = some s) :
    (∀ (i j : Nat) (a b : Claim), s.claims[i]? = some a → s.claims[j]? = some b →
      a.stage = .body → b.stage = .body → a.token = b.token → i = j) ∧
    (∀ (i : Nat) (c : Claim), s.claims[i]? = some c → c.stage = .waiting →
      step lower s (.acquire i) = none →
        ∃ d ∈ s.claims, d.stage.holding ∧ d.token = c.token) ∧
    (∀ c ∈ s.claims, c.stage.inUse → s.lockByActor c.token = some c.lock) ∧
    (∀ a ∈ s.claims, ∀ b ∈ s.claims, a.stage.inUse → b.stage.inUse → a.token = b.token →
      a.lock = b.lock) := by
  have hs := sound_run h
  refine ⟨?_, ?_, ?_, ?_⟩
  · intro i j a b hi hj ha hb hab
    have hlock : a.lock = b.lock := hs.same_lock (List.mem_of_getElem? hi)
      (List.mem_of_getElem? hj) (by rw [ha]; rfl) (by rw [hb]; rfl) hab
    exact hs.locks.holder_unique hi hj (by rw [ha]; rfl) (by rw [hb]; rfl) hlock
  · intro i c hi hc hblocked
    have hlocked : s.locked c.lock = true := by
      by_contra hfree
      rw [Bool.not_eq_true] at hfree
      simp [step, hi, hc, hfree] at hblocked
    obtain ⟨d, hd, hdl, hdh⟩ := (hs.locks.locked c.lock).mp hlocked
    refine ⟨d, hd, hdh, ?_⟩
    have hdo := hs.locks.owner d hd
    rw [hdl, hs.locks.owner c (List.mem_of_getElem? hi)] at hdo
    exact (Option.some.inj hdo).symm
  · intro c hc hu
    exact hs.table.table c hc (Stage.counted_of_inUse hu)
  · intro a ha b hb hau hbu hab
    exact hs.same_lock ha hb (Stage.counted_of_inUse hau) (Stage.counted_of_inUse hbu) hab

/-- Two claims of one actor and one of another: the first is in its body while the second waits. -/
def twoActors : List Label :=
  [.claim " Actor-1 ", .acquire 0, .enter 0, .claim "actor-1", .claim "actor-2", .acquire 2]

/-- `str.lower` on text in ASCII. -/
def lowerAscii (text : String) : String := String.ofList (text.toList.map Char.toLower)

theorem actor_queue_exclusive_two : ∃ s, Run.run (step lowerAscii) start twoActors = some s ∧
    s.claims = [⟨"actor-1", 0, .body⟩, ⟨"actor-1", 0, .waiting⟩, ⟨"actor-2", 1, .acquired⟩] ∧
    ∀ c ∈ s.claims, c.stage.inUse → s.lockByActor c.token = some c.lock := by
  have hclaims : (Run.run (step lowerAscii) start twoActors).map (·.claims) = some
      [⟨"actor-1", 0, .body⟩, ⟨"actor-1", 0, .waiting⟩, ⟨"actor-2", 1, .acquired⟩] := by decide +kernel
  obtain ⟨s, hrun, hs⟩ := Option.map_eq_some_iff.mp hclaims
  exact ⟨s, hrun, hs, (actor_queue_exclusive hrun).2.2.1⟩

end Empyralis.Server.ActorQueue
