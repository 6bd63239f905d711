import Empyralis.Lib.Run

/-! Calls on one row that decide on what they have read of it and write it later.

    A call reads the row, may put something out, selects the row again and writes it; other calls do the
    same in between, and a call may fail before each of its steps. `outputs_le` says when the row puts out
    no more than its limit, and `final_iff` when what has ended stays ended. -/

namespace Empyralis.SnapshotCalls

/-- What a call makes of the row that it has read: the number under which it puts something out counts what
    was put out before. -/
inductive Decision (υ ω : Type) where
  | nothing
  | write (u : υ)
  | emit (number : Int) (out : ω) (u : υ)

/-- Rows `ρ` with their updates `υ`, their outputs `ω`, what a decision depends on besides the row, and the
    edits that write the row without an output. An update carries a status, its own or that of the row as it
    was selected, which is the one that its write leaves. -/
structure Kind (ρ υ ω π ε : Type) where
  live : ρ → Bool
  carries : υ → ρ → Bool
  limit : ρ → Option Int
  decision : π → ρ → Decision υ ω
  edit : ε → ρ → Option υ
  write : υ → ρ → ρ → ρ
  within : ∀ p row number out u, decision p row = .emit number out u → ∀ n ∈ limit row, number ≤ n
  keeps : ∀ u existing row, limit (write u existing row) = limit row
  carried : ∀ u existing row, live (write u existing row) = carries u existing

inductive Stage (ρ υ ω : Type) where
  | deciding (snapshot : ρ)
  | emitting (number : Int) (out : ω) (u : υ)
  | selecting (u : υ)
  | updating (u : υ) (existing : ρ)
  | ended

/-- A status that was written, or an output. -/
inductive Mark where
  | status (live : Bool)
  | output
  deriving DecidableEq

structure State (ρ υ ω : Type) where
  row : ρ
  calls : List (Stage ρ υ ω)
  outputs : List ω
  marks : List Mark

inductive Label (π ε : Type) where
  | scan
  | edit (e : ε)
  | move (i : Nat) (p : π)
  | fail (i : Nat)

variable {ρ υ ω π ε : Type} (K : Kind ρ υ ω π ε)

/-- A row that is live, with the calls that are on their way. -/
def start (row : ρ) (calls : List (Stage ρ υ ω)) : State ρ υ ω := ⟨row, calls, [], [.status true]⟩

def Decision.stage : Decision υ ω → Stage ρ υ ω
  | .nothing => .ended
  | .write u => .selecting u
  | .emit number out u => .emitting number out u

/-- One statement of a call. -/
def moved (s : State ρ υ ω) (p : π) : Stage ρ υ ω → Option (State ρ υ ω × Stage ρ υ ω)
  | .deciding snapshot => some (s, (K.decision p snapshot).stage)
  | .emitting _ out u =>
    some ({ s with outputs := s.outputs ++ [out], marks := s.marks ++ [.output] }, .selecting u)
  | .selecting u => some (s, .updating u s.row)
  | .updating u existing =>
    let row := K.write u existing s.row
    some ({ s with row, marks := s.marks ++ [.status (K.live row)] }, .ended)
  | .ended => none

def step (s : State ρ υ ω) : Label π ε → Option (State ρ υ ω)
  | .scan => if K.live s.row then some { s with calls := s.calls ++ [.deciding s.row] } else none
  | .edit e => (K.edit e s.row).map fun u => { s with calls := s.calls ++ [.selecting u] }
  | .move i p =>
    s.calls[i]?.bind fun stage => (moved K s p stage).map fun (t, stage) =>
      { t with calls := s.calls.set i stage }
  | .fail i => some { s with calls := s.calls.set i .ended }

/-- What a call puts out next has a number above `n`. -/
def Stage.Counts (n : Nat) : Stage ρ υ ω → Prop
  | .emitting number _ _ => (n : Int) < number
  | _ => True

/-- An output is put out under a number that counts every output before it. -/
def Counted (s : State ρ υ ω) : Label π ε → Prop
  | .move i _ => ∀ stage ∈ s.calls[i]?, stage.Counts s.outputs.length
  | _ => True

/-- A call puts something out only for a live row, and carries no live status to a row that has ended. -/
def Stage.Spares (row : ρ) : Stage ρ υ ω → Prop
  | .emitting _ _ _ => K.live row = true
  | .updating u existing => K.live row = false → K.carries u existing = false
  | _ => True

/-- What a call does next spares the row that has ended. -/
def Unrevived (s : State ρ υ ω) : Label π ε → Prop
  | .move i _ => ∀ stage ∈ s.calls[i]?, stage.Spares K s.row
  | _ => True

instance (n : Nat) : DecidablePred (Stage.Counts n : Stage ρ υ ω → Prop)
  | .emitting number _ _ => inferInstanceAs (Decidable ((n : Int) < number))
  | .deciding _ | .selecting _ | .updating _ _ | .ended => inferInstanceAs (Decidable True)

instance (row : ρ) : DecidablePred (Stage.Spares K row)
  | .emitting _ _ _ => inferInstanceAs (Decidable (_ = true))
  | .updating _ _ => inferInstanceAs (Decidable (_ = false → _ = false))
  | .deciding _ | .selecting _ | .ended => inferInstanceAs (Decidable True)

instance (s : State ρ υ ω) : DecidablePred (Counted s : Label π ε → Prop)
  | .move i _ => inferInstanceAs (Decidable (∀ stage ∈ s.calls[i]?, stage.Counts s.outputs.length))
  | .scan | .edit _ | .fail _ => inferInstanceAs (Decidable True)

instance (s : State ρ υ ω) : DecidablePred (Unrevived K s : Label π ε → Prop)
  | .move i _ => inferInstanceAs (Decidable (∀ stage ∈ s.calls[i]?, stage.Spares K s.row))
  | .scan | .edit _ | .fail _ => inferInstanceAs (Decidable True)

/-- After the row has ended nothing is put out and no live status is written. -/
def Final (s : State ρ υ ω) : Prop :=
  s.marks.Pairwise fun earlier later => earlier = .status false → later = .status false

instance (s : State ρ υ ω) : Decidable (Final s) := inferInstanceAs (Decidable (List.Pairwise _ s.marks))

/-- What the calls carry of the row is within its limit. -/
def Stage.Within (limit : Option Int) : Stage ρ υ ω → Prop
  | .deciding snapshot => K.limit snapshot = limit
  | .emitting number _ _ => ∀ n ∈ limit, number ≤ n
  | _ => True

structure Bounded (limit : Option Int) (s : State ρ υ ω) : Prop where
  row : K.limit s.row = limit
  calls : ∀ stage ∈ s.calls, stage.Within K limit
  outputs : ∀ n ∈ limit, (s.outputs.length : Int) ≤ n

structure Ending (s : State ρ υ ω) : Prop where
  final : Final s
  marked : Mark.status false ∈ s.marks ↔ K.live s.row = false

variable {K} {s t : State ρ υ ω} {limit : Option Int}

theorem move_eq {i : Nat} {p : π} (h : step K s (.move i p : Label π ε) = some t) :
    ∃ stage u next, s.calls[i]? = some stage ∧ moved K s p stage = some (u, next) ∧
      t = { u with calls := s.calls.set i next } := by
  obtain ⟨stage, hstage, hmap⟩ := Option.bind_eq_some_iff.mp h
  obtain ⟨⟨u, next⟩, hmoved, heq⟩ := Option.map_eq_some_iff.mp hmap
  exact ⟨stage, u, next, hstage, hmoved, heq.symm⟩

theorem step_move {i : Nat} {p : π} {stage next : Stage ρ υ ω} {u : State ρ υ ω}
    (hstage : s.calls[i]? = some stage) (hmoved : moved K s p stage = some (u, next)) :
    step K s (.move i p : Label π ε) = some { u with calls := s.calls.set i next } := by
  rw [step, hstage, Option.bind_some, hmoved, Option.map_some]

/-! ### The limit -/

theorem within_append {calls : List (Stage ρ υ ω)} (h : ∀ stage ∈ calls, stage.Within K limit)
    {new : Stage ρ υ ω} (hnew : new.Within K limit) : ∀ stage ∈ calls ++ [new], stage.Within K limit := by
  intro stage hstage
  rcases List.mem_append.mp hstage with hold | hlast
  · exact h stage hold
  · obtain rfl := List.mem_singleton.mp hlast
    exact hnew

theorem within_set {calls : List (Stage ρ υ ω)} (h : ∀ stage ∈ calls, stage.Within K limit) (i : Nat)
    {new : Stage ρ υ ω} (hnew : new.Within K limit) : ∀ stage ∈ calls.set i new, stage.Within K limit := by
  intro stage hstage
  rcases List.mem_or_eq_of_mem_set hstage with hold | rfl
  · exact h stage hold
  · exact hnew

theorem within_decision (p : π) {snapshot : ρ} (h : K.limit snapshot = limit) :
    (K.decision p snapshot).stage.Within K limit := by
  cases hd : K.decision p snapshot with
  | nothing => exact trivial
  | write u => exact trivial
  | emit number out u => exact h ▸ K.within p snapshot number out u hd

/-- One step keeps the outputs within the limit, if what a call has read counts all of them. -/
theorem bounded_step (hb : Bounded K limit s) {l : Label π ε} (hc : Counted s l)
    (h : step K s l = some t) : Bounded K limit t := by
  cases l with
  | scan =>
    simp only [step] at h
    split at h
    · cases h
      exact ⟨hb.row, within_append hb.calls hb.row, hb.outputs⟩
    · cases h
  | edit e =>
    obtain ⟨u, -, rfl⟩ := Option.map_eq_some_iff.mp h
    exact ⟨hb.row, within_append hb.calls trivial, hb.outputs⟩
  | fail i =>
    cases h
    exact ⟨hb.row, within_set hb.calls i trivial, hb.outputs⟩
  | move i p =>
    obtain ⟨stage, u, next, hstage, hmoved, rfl⟩ := move_eq h
    have hwithin := hb.calls stage (List.mem_of_getElem? hstage)
    cases stage with
    | deciding snapshot =>
      cases hmoved
      exact ⟨hb.row, within_set hb.calls i (within_decision p hwithin), hb.outputs⟩
    | emitting number out u =>
      cases hmoved
      refine ⟨hb.row, within_set hb.calls i trivial, fun n hn => ?_⟩
      have hlt := hc _ hstage
      change (s.outputs.length : Int) < number at hlt
      have hle : number ≤ n := hwithin n hn
      rw [List.length_append, List.length_singleton]
      omega
    | selecting u =>
      cases hmoved
      exact ⟨hb.row, within_set hb.calls i trivial, hb.outputs⟩
    | updating u existing =>
      cases hmoved
      exact ⟨(K.keeps u existing s.row).trans hb.row, within_set hb.calls i trivial, hb.outputs⟩
    | ended => cases hmoved

/-- A row puts out no more than its limit in a run in which each number counts what was put out before. -/
theorem outputs_le {labels : List (Label π ε)} (hb : Bounded K limit s)
    (hc : Run.Meets (step K) Counted s labels) (h : Run.run (step K) s labels = some t) :
    ∀ n ∈ limit, (t.outputs.length : Int) ≤ n :=
  (Run.run_inv (fun _ _ _ hi hcounted hst => bounded_step hi hcounted hst) hc hb h).outputs

/-! ### The end -/

theorem ending_output (he : Ending K s) (hlive : K.live s.row = true) (outputs : List ω)
    (calls : List (Stage ρ υ ω)) :
    Ending K { s with outputs, calls, marks := s.marks ++ [.output] } := by
  have hnot : Mark.status false ∉ s.marks := by
    rw [he.marked, hlive]
    decide
  refine ⟨List.pairwise_append.mpr ⟨he.final, List.pairwise_singleton _ _, ?_⟩, ?_⟩
  · rintro _ hmem _ - rfl
    exact absurd hmem hnot
  · simp [hnot, hlive]

theorem ending_status (he : Ending K s) {row : ρ} (hends : K.live s.row = false → K.live row = false)
    (calls : List (Stage ρ υ ω)) :
    Ending K { s with row, calls, marks := s.marks ++ [.status (K.live row)] } := by
  refine ⟨List.pairwise_append.mpr ⟨he.final, List.pairwise_singleton _ _, ?_⟩, ?_⟩
  · rintro _ hmem later hlater rfl
    rw [List.mem_singleton.mp hlater, hends (he.marked.mp hmem)]
  · rw [List.mem_append, List.mem_singleton, he.marked]
    constructor
    · rintro (hold | hnew)
      · exact hends hold
      · exact (Mark.status.inj hnew).symm
    · intro hnew
      exact .inr (congrArg Mark.status hnew.symm)

/-- One step leaves an ended row ended, if it is not revived. -/
theorem ending_step (he : Ending K s) {l : Label π ε} (hc : Unrevived K s l)
    (h : step K s l = some t) : Ending K t := by
  cases l with
  | scan =>
    simp only [step] at h
    split at h
    · cases h
      exact ⟨he.final, he.marked⟩
    · cases h
  | edit e =>
    obtain ⟨u, -, rfl⟩ := Option.map_eq_some_iff.mp h
    exact ⟨he.final, he.marked⟩
  | fail i =>
    cases h
    exact ⟨he.final, he.marked⟩
  | move i p =>
    obtain ⟨stage, u, next, hstage, hmoved, rfl⟩ := move_eq h
    cases stage with
    | deciding snapshot =>
      cases hmoved
      exact ⟨he.final, he.marked⟩
    | emitting number out u =>
      cases hmoved
      exact ending_output he (hc _ hstage) _ _
    | selecting u =>
      cases hmoved
      exact ⟨he.final, he.marked⟩
    | updating u existing =>
      cases hmoved
      exact ending_status he (fun hdead => (K.carried u existing s.row).trans (hc _ hstage hdead)) _
    | ended => cases hmoved

/-- A step that keeps what has ended was taken as `Unrevived` asks. -/
theorem unrevived_of_final (he : Ending K s) {l : Label π ε}
    (h : ∀ t, step K s l = some t → Final t) : Unrevived K s l := by
  cases l with
  | move i p =>
    intro stage hstage
    cases stage with
    | emitting number out u =>
      change K.live s.row = true
      by_contra hlive
      rw [Bool.not_eq_true] at hlive
      have hfinal := h _ (step_move hstage rfl)
      have hlast := (List.pairwise_append.mp hfinal).2.2 _ (he.marked.mpr hlive) Mark.output List.mem_cons_self rfl
      cases hlast
    | updating u existing =>
      intro hdead
      have hfinal := h _ (step_move hstage rfl)
      have hlast := (List.pairwise_append.mp hfinal).2.2 _ (he.marked.mpr hdead) _ List.mem_cons_self rfl
      exact (K.carried u existing s.row).symm.trans (Mark.status.inj hlast)
    | deciding snapshot => trivial
    | selecting u => trivial
    | ended => trivial
  | scan => trivial
  | edit e => trivial
  | fail i => trivial

/-- What has ended stays ended in every state that a run comes to, exactly when each output and each live
    status comes while the row is live. -/
theorem final_iff {labels : List (Label π ε)} (he : Ending K s) :
    (∀ first t, first <+: labels → Run.run (step K) s first = some t → Final t) ↔
      Run.Meets (step K) (Unrevived K) s labels :=
  Run.all_iff_meets (fun _ hi => hi.final) (fun _ _ _ hi _ hc hst => ending_step hi hc hst)
    (fun _ _ hi _ h => unrevived_of_final hi h) he (fun _ _ => trivial)

theorem ending_start {row : ρ} (hlive : K.live row = true) (calls : List (Stage ρ υ ω)) :
    Ending K (start row calls) := by
  refine ⟨List.pairwise_singleton _ _, ?_⟩
  simp [start, hlive]

theorem bounded_start {row : ρ} {calls : List (Stage ρ υ ω)}
    (hcalls : ∀ stage ∈ calls, stage.Within K (K.limit row)) (hlimit : ∀ n ∈ K.limit row, 0 ≤ n) :
    Bounded K (K.limit row) (start row calls) :=
  ⟨rfl, hcalls, fun n hn => by simpa [start] using hlimit n hn⟩

end Empyralis.SnapshotCalls
