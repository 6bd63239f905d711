import Mathlib.Order.Basic
import Mathlib.Order.Lattice

/-! The integers between two bounds, as a machine word holds them. An operation whose exact result is out of the bounds
    is an error, or it stops at the bound. -/

namespace Empyralis

structure BoundedInt (low high : Int) where
  val : Int
  inside : low ≤ val ∧ val ≤ high
  deriving DecidableEq

namespace BoundedInt

variable {low high : Int}

theorem val_injective : Function.Injective (val : BoundedInt low high → Int)
  | ⟨_, _⟩, ⟨_, _⟩, rfl => rfl

instance : LinearOrder (BoundedInt low high) := LinearOrder.lift' val val_injective

theorem le_iff {a b : BoundedInt low high} : a ≤ b ↔ a.val ≤ b.val := Iff.rfl

@[simp] theorem val_max (a b : BoundedInt low high) : (max a b).val = max a.val b.val := by
  rcases le_total a b with h | h
  · rw [max_eq_right h, Int.max_eq_right (le_iff.mp h)]
  · rw [max_eq_left h, Int.max_eq_left (le_iff.mp h)]

@[simp] theorem val_min (a b : BoundedInt low high) : (min a b).val = min a.val b.val := by
  rcases le_total a b with h | h
  · rw [min_eq_left h, Int.min_eq_left (le_iff.mp h)]
  · rw [min_eq_right h, Int.min_eq_right (le_iff.mp h)]

def ofInt? (n : Int) : Option (BoundedInt low high) := if h : low ≤ n ∧ n ≤ high then some ⟨n, h⟩ else none

/-- The nearest of the integers. -/
def saturate (h : low ≤ high) (n : Int) : BoundedInt low high := ⟨max low (min n high), by omega⟩

theorem low_le_high (a : BoundedInt low high) : low ≤ high := a.inside.1.trans a.inside.2

def clamp (a least most : BoundedInt low high) : BoundedInt low high := max least (min a most)

/-- The difference where it is one of the integers. -/
def sub (a b : BoundedInt low high) : Except String (BoundedInt low high) :=
  match ofInt? (a.val - b.val) with
  | some n => .ok n
  | none => .error "attempt to subtract with overflow"

def saturatingMul (a b : BoundedInt low high) : BoundedInt low high := saturate a.low_le_high (a.val * b.val)

theorem val_saturatingMul (a b : BoundedInt low high) :
    (a.saturatingMul b).val = max low (min (a.val * b.val) high) := rfl

theorem ofInt?_isSome {n : Int} : (ofInt? n : Option (BoundedInt low high)).isSome = true ↔ low ≤ n ∧ n ≤ high := by
  rw [ofInt?]
  split
  · rename_i h
    exact iff_of_true rfl h
  · rename_i h
    exact iff_of_false Bool.false_ne_true h

/-- A difference is an error exactly when it is out of the bounds. -/
theorem sub_ok_iff {a b : BoundedInt low high} :
    (∃ n, a.sub b = .ok n) ↔ low ≤ a.val - b.val ∧ a.val - b.val ≤ high := by
  rw [← ofInt?_isSome, sub]
  cases (ofInt? (a.val - b.val) : Option (BoundedInt low high)) with
  | none => simp
  | some n => simp

/-- What saturates is not seen below a bound that is one of the integers. -/
theorem val_min_saturatingMul {a b most : BoundedInt low high} (h : low ≤ a.val * b.val) :
    (min (a.saturatingMul b) most).val = min (a.val * b.val) most.val := by
  rw [val_min, val_saturatingMul]
  have hmost := most.inside.2
  omega

end BoundedInt

end Empyralis
