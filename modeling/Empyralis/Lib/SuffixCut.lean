import Mathlib.Algebra.BigOperators.Group.List.Basic
import Mathlib.Algebra.Order.Monoid.Defs
import Mathlib.Order.Bounds.Basic
import Mathlib.Order.Monotone.Basic

/-! Cutting a list at the last index from which on its elements weigh at least a bound.

    The element that crosses the bound is kept, so what is kept weighs more than the bound unless some suffix weighs
    just as much. -/

namespace Empyralis.SuffixCut

variable {α M : Type*} [AddCommMonoid M] (weight : α → M)

/-- The weight of the elements from an index on. -/
def weightFrom (as : List α) (i : Nat) : M := ((as.drop i).map weight).sum

variable {weight} {as : List α} {i : Nat}

theorem weightFrom_of_le (h : as.length ≤ i) : weightFrom weight as i = 0 := by
  rw [weightFrom, List.drop_eq_nil_of_le h]
  rfl

theorem weightFrom_succ (h : i < as.length) :
    weightFrom weight as i = weight as[i] + weightFrom weight as (i + 1) := by
  rw [weightFrom, List.drop_eq_getElem_cons h, List.map_cons, List.sum_cons]
  rfl

theorem weightFrom_last (h : i + 1 = as.length) : ∃ a, as.getLast? = some a ∧ weightFrom weight as i = weight a := by
  have hi : i < as.length := by omega
  refine ⟨as[i], ?_, ?_⟩
  · rw [List.getLast?_eq_getElem?, ← h, Nat.add_sub_cancel, List.getElem?_eq_getElem hi]
  · rw [weightFrom_succ hi, weightFrom_of_le (by omega), add_zero]

variable [LinearOrder M] {bound : M}

variable (weight) in
def Reaches (as : List α) (bound : M) (i : Nat) : Prop := i < as.length ∧ bound ≤ weightFrom weight as i

variable (weight) in
/-- The last index that reaches the bound, or the first one of the list when none does. -/
def IsCut (as : List α) (bound : M) (i : Nat) : Prop :=
  IsGreatest {j | Reaches weight as bound j} i ∨ (∀ j, ¬Reaches weight as bound j) ∧ i = 0

variable (weight) in
/-- All weighs less than the bound, or the last element reaches it by itself, or some suffix weighs just as much. -/
def Fits (as : List α) (bound : M) : Prop :=
  weightFrom weight as 0 < bound ∨ (∀ a ∈ as.getLast?, bound ≤ weight a) ∨ ∃ i, weightFrom weight as i = bound

/-- The first index that reaches the bound on the way down from the end is the last one of all. -/
theorem isCut_of_above (hreaches : Reaches weight as bound i) (habove : ∀ j, i < j → ¬Reaches weight as bound j) :
    IsCut weight as bound i := by
  refine .inl ⟨hreaches, fun j hj => ?_⟩
  by_contra h
  exact habove j (Nat.lt_of_not_le h) hj

variable [IsOrderedAddMonoid M]

theorem antitone_weightFrom (hweight : ∀ a, 0 ≤ weight a) : Antitone (weightFrom weight as) := by
  refine antitone_nat_of_succ_le fun i => ?_
  by_cases h : i < as.length
  · rw [weightFrom_succ h]
    exact le_add_of_nonneg_left (hweight _)
  · rw [weightFrom_of_le (by omega), weightFrom_of_le (by omega)]

/-- More than one element is kept, and within the bound, just when the list fits. -/
theorem IsCut.within_iff (hweight : ∀ a, 0 ≤ weight a) (hi : IsCut weight as bound i) :
    (1 < as.length - i → weightFrom weight as i ≤ bound) ↔ Fits weight as bound := by
  have hanti : Antitone (weightFrom weight as) := antitone_weightFrom hweight
  rcases hi with ⟨⟨hlength, hreaches⟩, hlast⟩ | ⟨hnone, rfl⟩
  · constructor
    · intro h
      by_cases hone : i + 1 = as.length
      · obtain ⟨a, ha, hweighs⟩ : ∃ a, as.getLast? = some a ∧ weightFrom weight as i = weight a := weightFrom_last hone
        refine .inr (.inl fun b hb => ?_)
        rw [ha] at hb
        cases hb
        exact hweighs ▸ hreaches
      · exact .inr (.inr ⟨i, le_antisymm (h (by omega)) hreaches⟩)
    · rintro (htotal | hend | ⟨k, hk⟩) hmany
      · exact absurd (hreaches.trans (hanti (Nat.zero_le i))) (not_le_of_gt htotal)
      · have hthere : as.length - 1 + 1 = as.length := by omega
        obtain ⟨a, ha, hweighs⟩ : ∃ a, as.getLast? = some a ∧ weightFrom weight as (as.length - 1) = weight a :=
          weightFrom_last hthere
        have hle : as.length - 1 ≤ i := hlast ⟨by omega, hweighs ▸ hend a ha⟩
        omega
      · have hle : min k (as.length - 1) ≤ i := hlast ⟨by omega, hk ▸ hanti (min_le_left _ _)⟩
        rcases Nat.lt_or_ge i k with hik | hki
        · omega
        · exact hk ▸ hanti hki
  · have hall : ∀ j < as.length, weightFrom weight as j < bound := fun j hj =>
      lt_of_not_ge fun hreaches => hnone j ⟨hj, hreaches⟩
    constructor
    · intro _
      rcases as with - | ⟨a, as⟩
      · exact .inr (.inl fun b hb => by cases hb)
      · exact .inl (hall 0 (Nat.zero_lt_succ _))
    · intro _ hmany
      exact (hall 0 (by omega)).le

end Empyralis.SuffixCut
