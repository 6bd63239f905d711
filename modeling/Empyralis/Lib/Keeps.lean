import Empyralis.Lib.Table

/-! Tables that lose no row: each row is there later too, as it was or changed along an order. -/

namespace Empyralis.Table

variable {κ α : Type} [DecidableEq κ] {R : α → α → Prop} {s t u : Table κ α}

/-- Each row of `s` has under its key in `t` a row that it may become. -/
def Keeps (R : α → α → Prop) (s t : Table κ α) : Prop :=
  ∀ k v, s.get? k = some v → ∃ w, t.get? k = some w ∧ R v w

theorem Keeps.refl (hrefl : ∀ v, R v v) (s : Table κ α) : Keeps R s s := fun _ v h => ⟨v, h, hrefl v⟩

theorem Keeps.trans (htrans : ∀ v w x, R v w → R w x → R v x) (hst : Keeps R s t) (htu : Keeps R t u) :
    Keeps R s u := by
  intro k v hv
  obtain ⟨w, hw, hvw⟩ := hst k v hv
  obtain ⟨x, hx, hwx⟩ := htu k w hw
  exact ⟨x, hx, htrans v w x hvw hwx⟩

/-- A row is written under a key where there was none, or over one that may become it. -/
theorem Keeps.put (hrefl : ∀ v, R v v) {k : κ} {w : α} (h : ∀ v, s.get? k = some v → R v w) :
    Keeps R s (s.put k w) := by
  intro l v hv
  rw [get?_put]
  split
  · rename_i heq
    subst heq
    exact ⟨w, rfl, h v hv⟩
  · exact ⟨v, hv, hrefl v⟩

end Empyralis.Table

namespace Empyralis

/-- A column that is null until it is set. -/
structure Mark (α τ : Type) where
  get : α → Option τ
  set : τ → α → α
  get_set : ∀ x a, get (set x a) = some x

/-- `b` is `a`, or `a` with the column set that was null. -/
def Mark.Once {α τ : Type} (m : Mark α τ) (a b : α) : Prop := b = a ∨ (m.get a = none ∧ ∃ x, b = m.set x a)

namespace Mark.Once

variable {α τ : Type} {m : Mark α τ} {a b d : α}

theorem refl (m : Mark α τ) (a : α) : m.Once a a := .inl rfl

theorem set (h : m.get a = none) (x : τ) : m.Once a (m.set x a) := .inr ⟨h, x, rfl⟩

theorem trans (hab : m.Once a b) (hbd : m.Once b d) : m.Once a d := by
  rcases hbd with rfl | ⟨hnone, x, rfl⟩
  · exact hab
  · rcases hab with rfl | ⟨-, y, rfl⟩
    · exact set hnone x
    · rw [m.get_set] at hnone
      cases hnone

/-- What is set stays. -/
theorem get_eq {x : τ} (h : m.Once a b) (hset : m.get a = some x) : b = a := by
  rcases h with rfl | ⟨hnone, -⟩
  · rfl
  · rw [hset] at hnone
    cases hnone

end Mark.Once

end Empyralis
