/-! Batons that are in at most one place at a time: a place hands its baton on or drops it, and a new baton comes
    to one place. -/

namespace Empyralis.Lib

universe u v

variable {κ : Type u} {γ : Type v} {holds next : κ → γ → Prop}

/-- No two places hold one baton. -/
def Exclusive (holds : κ → γ → Prop) : Prop := ∀ k a b, holds k a → holds k b → a = b

namespace Exclusive

theorem mono (h : Exclusive holds) (hsub : ∀ k a, next k a → holds k a) : Exclusive next :=
  fun k a b ha hb => h k a b (hsub k a ha) (hsub k b hb)

/-- The place `a`, which held the baton `k`, hands it to `b`. -/
theorem pass {k : κ} {a b : γ} (h : Exclusive holds) (hk : holds k a)
    (hnext : ∀ l c, next l c → (l = k ∧ c = b) ∨ (holds l c ∧ ¬(l = k ∧ c = a))) : Exclusive next := by
  intro l c d hc hd
  rcases hnext l c hc with ⟨rfl, rfl⟩ | ⟨hc, hnc⟩ <;> rcases hnext l d hd with ⟨hl, rfl⟩ | ⟨hd, hnd⟩
  · rfl
  · exact absurd ⟨rfl, h l d a hd hk⟩ hnd
  · subst hl
    exact absurd ⟨rfl, h l c a hc hk⟩ hnc
  · exact h l c d hc hd

/-- A baton that nobody held comes to `b`. -/
theorem create {k : κ} {b : γ} (h : Exclusive holds) (hnew : ∀ c, ¬holds k c)
    (hnext : ∀ l c, next l c → (l = k ∧ c = b) ∨ holds l c) : Exclusive next := by
  intro l c d hc hd
  rcases hnext l c hc with ⟨rfl, rfl⟩ | hc <;> rcases hnext l d hd with ⟨hl, rfl⟩ | hd
  · rfl
  · exact absurd hd (hnew d)
  · subst hl
    exact absurd hc (hnew c)
  · exact h l c d hc hd

end Exclusive

end Empyralis.Lib
