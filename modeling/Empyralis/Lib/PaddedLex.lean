import Mathlib.Data.List.GetD
import Mathlib.Order.PiLex

/-! Lists compared place by place, where a list that ends goes on with one value forever.

    `padded zero l` is the list as a function on all places, under the lexicographic order of
    functions; so it is linearly ordered, and `[1]` and `[1, 0]` are one. -/

namespace Empyralis.PaddedLex

variable {α β σ κ : Type*}

/-- `r` is a strict order, and not being ordered is transitive among the elements with `P`. -/
structure WeakOrderOn (r : σ → σ → Prop) (P : σ → Prop) : Prop where
  irrefl : ∀ a, ¬ r a a
  trans : ∀ a b c, r a b → r b c → r a c
  incomparable : ∀ a b c, P a → P b → P c →
    ¬ r a b ∧ ¬ r b a → ¬ r b c ∧ ¬ r c b → ¬ r a c ∧ ¬ r c a

/-- A relation that compares keys, where some elements have none, is a weak order on those that have
    one. -/
theorem weakOrderOn_of_key [LinearOrder κ] (key : σ → Option κ) {r : σ → σ → Prop}
    (hr : ∀ a b, r a b ↔ ∃ x y, key a = some x ∧ key b = some y ∧ x < y) :
    WeakOrderOn r fun a => (key a).isSome where
  irrefl := by
    intro a ha
    obtain ⟨x, y, hx, hy, hxy⟩ := (hr a a).mp ha
    rw [hx, Option.some.injEq] at hy
    exact absurd hxy (hy ▸ lt_irrefl x)
  trans := by
    intro a b c hab hbc
    obtain ⟨x, y, hx, hy, hxy⟩ := (hr a b).mp hab
    obtain ⟨y', z, hy', hz, hyz⟩ := (hr b c).mp hbc
    rw [hy, Option.some.injEq] at hy'
    exact (hr a c).mpr ⟨x, z, hx, hz, hxy.trans (hy' ▸ hyz)⟩
  incomparable := by
    intro a b c ha hb hc hab hbc
    obtain ⟨x, hx⟩ := Option.isSome_iff_exists.mp ha
    obtain ⟨y, hy⟩ := Option.isSome_iff_exists.mp hb
    obtain ⟨z, hz⟩ := Option.isSome_iff_exists.mp hc
    have hequal : ∀ {a b : σ} {x y : κ}, key a = some x → key b = some y →
        ¬ r a b ∧ ¬ r b a → x = y := by
      intro a b x y hx hy hab
      exact le_antisymm (not_lt.mp fun hyx => hab.2 ((hr b a).mpr ⟨y, x, hy, hx, hyx⟩))
        (not_lt.mp fun hxy => hab.1 ((hr a b).mpr ⟨x, y, hx, hy, hxy⟩))
    obtain rfl := hequal hx hy hab
    obtain rfl := hequal hy hz hbc
    constructor
    · rintro hac
      obtain ⟨x', z', hx', hz', hlt⟩ := (hr a c).mp hac
      rw [hx, Option.some.injEq] at hx'
      rw [hz, Option.some.injEq] at hz'
      exact absurd hlt (hx' ▸ hz' ▸ lt_irrefl x)
    · rintro hca
      obtain ⟨z', x', hz', hx', hlt⟩ := (hr c a).mp hca
      rw [hx, Option.some.injEq] at hx'
      rw [hz, Option.some.injEq] at hz'
      exact absurd hlt (hx' ▸ hz' ▸ lt_irrefl x)

variable (zero : α)

def padded (l : List α) : Lex (ℕ → α) := toLex fun i => l.getD i zero

variable {zero}

theorem padded_append_replicate (l : List α) (n : ℕ) :
    padded zero (l ++ List.replicate n zero) = padded zero l := by
  refine congrArg toLex (funext fun i => ?_)
  rcases Nat.lt_or_ge i l.length with hi | hi
  · rw [List.getD_append _ _ _ _ hi]
  · rw [List.getD_append_right _ _ _ _ hi, List.getD_eq_default _ _ hi]
    rcases Nat.lt_or_ge (i - l.length) n with hn | hn
    · rw [List.getD_replicate _ hn]
    · rw [List.getD_eq_default _ _ (by simpa using hn)]

variable [LinearOrder α] {a b : List α} {x y : α}

theorem padded_lt_iff : padded zero a < padded zero b ↔
    ∃ i, (∀ j < i, a.getD j zero = b.getD j zero) ∧ a.getD i zero < b.getD i zero := Iff.rfl

theorem padded_cons_lt : padded zero (x :: a) < padded zero (y :: b) ↔
    x < y ∨ x = y ∧ padded zero a < padded zero b := by
  simp only [padded_lt_iff]
  constructor
  · rintro ⟨i, hbefore, hlt⟩
    cases i with
    | zero => exact Or.inl (by simpa using hlt)
    | succ i =>
      have hxy : x = y := by simpa using hbefore 0 (Nat.succ_pos i)
      refine Or.inr ⟨hxy, i, fun j hj => ?_, by simpa using hlt⟩
      simpa using hbefore (j + 1) (Nat.succ_lt_succ hj)
  · rintro (hxy | ⟨rfl, i, hbefore, hlt⟩)
    · exact ⟨0, fun j hj => absurd hj (Nat.not_lt_zero j), by simpa using hxy⟩
    · refine ⟨i + 1, fun j hj => ?_, by simpa using hlt⟩
      cases j with
      | zero => rfl
      | succ j => simpa using hbefore j (Nat.lt_of_succ_lt_succ hj)

/-- On lists of one length the order is that of lists. -/
theorem lt_iff_padded_lt (zero : α) : ∀ {a b : List α}, a.length = b.length →
    (a < b ↔ padded zero a < padded zero b)
  | [], [], _ => iff_of_false (List.not_lt_nil _) (lt_irrefl _)
  | x :: a, y :: b, hlen => by
    have hlen' : a.length = b.length := by simpa using hlen
    rw [List.cons_lt_cons_iff, padded_cons_lt, lt_iff_padded_lt zero hlen']

/-- An order embedding that keeps `zero` keeps the order. -/
theorem padded_map_lt [LinearOrder β] {f : α → β} (hf : StrictMono f) :
    padded (f zero) (a.map f) < padded (f zero) (b.map f) ↔ padded zero a < padded zero b := by
  simp only [padded_lt_iff, List.getD_map, hf.lt_iff_lt, hf.injective.eq_iff]

end Empyralis.PaddedLex
