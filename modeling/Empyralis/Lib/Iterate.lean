import Mathlib.Order.Defs.LinearOrder

/-! Loops without a bound: a body that either leaves the loop with a result or goes round again, run for as many
    rounds as there is fuel. -/

namespace Empyralis.Iterate

variable {σ β : Type*} (body : σ → β ⊕ σ)

def iterate : Nat → σ → Option β
  | 0, _ => none
  | fuel + 1, s =>
    match body s with
    | .inl b => some b
    | .inr t => iterate fuel t

variable {body}

/-- A result stays what it is with more fuel. -/
theorem iterate_mono {b : β} : ∀ {fuel more : Nat} {s : σ}, fuel ≤ more → iterate body fuel s = some b →
    iterate body more s = some b
  | fuel + 1, more + 1, s, hle, h => by
    rw [iterate] at h ⊢
    split at h
    · exact h
    · exact iterate_mono (Nat.le_of_succ_le_succ hle) h

/-- A loop whose rounds take away from a measure ends, within as many rounds as it measures at first and one. -/
theorem exists_iterate {size : σ → Nat} (hsize : ∀ s t, body s = .inr t → size t < size s) :
    ∀ {fuel : Nat} {s : σ}, size s < fuel → ∃ b, iterate body fuel s = some b
  | fuel + 1, s, h => by
    rw [iterate]
    cases hbody : body s with
    | inl b => exact ⟨b, rfl⟩
    | inr t => exact exists_iterate hsize (Nat.lt_of_lt_of_le (hsize s t hbody) (Nat.le_of_lt_succ h))

/-- What each round keeps holds of the state that the loop is left in. -/
theorem iterate_inv {I : σ → Prop} (hstep : ∀ s t, I s → body s = .inr t → I t) {b : β} :
    ∀ {fuel : Nat} {s : σ}, I s → iterate body fuel s = some b → ∃ t, I t ∧ body t = .inl b
  | fuel + 1, s, hs, h => by
    rw [iterate] at h
    cases hbody : body s with
    | inl c =>
      rw [hbody] at h
      cases h
      exact ⟨s, hs, hbody⟩
    | inr t =>
      rw [hbody] at h
      exact iterate_inv hstep (hstep s t hs hbody) h

end Empyralis.Iterate
