import Mathlib.Algebra.Order.ToIntervalMod

/-! A window that recurs with a period, closing at `e` and at every whole number of periods from there, and
    open for `len` before it closes. Waiting until a time outside of it is a closure operator. -/

namespace Empyralis.Recurring

/-! ### Holds -/

section Holds

variable {α : Type*} [LinearOrder α]

theorem le_foldl_max (t : α) (holds : List α) : t ≤ holds.foldl max t := by
  induction holds generalizing t with
  | nil => exact le_rfl
  | cons hold holds ih => exact (le_max_left t hold).trans (ih (max t hold))

theorem hold_le_foldl_max (t : α) {holds : List α} {hold : α} (h : hold ∈ holds) : hold ≤ holds.foldl max t := by
  induction holds generalizing t with
  | nil => cases h
  | cons other holds ih =>
    rcases List.mem_cons.mp h with rfl | h
    · exact (le_max_right t hold).trans (le_foldl_max (max t hold) holds)
    · exact ih (max t other) h

theorem foldl_max_le {t u : α} {holds : List α} (ht : t ≤ u) (h : ∀ hold ∈ holds, hold ≤ u) :
    holds.foldl max t ≤ u := by
  induction holds generalizing t with
  | nil => exact ht
  | cons hold holds ih =>
    exact ih (max_le ht (h hold (List.mem_cons_self ..))) fun other hmem => h other (List.mem_cons_of_mem _ hmem)

theorem foldl_max_mem (t : α) (holds : List α) : holds.foldl max t = t ∨ holds.foldl max t ∈ holds := by
  induction holds generalizing t with
  | nil => exact .inl rfl
  | cons hold holds ih =>
    rw [List.foldl_cons]
    rcases ih (max t hold) with heq | hmem
    · rcases max_choice t hold with hmax | hmax
      · exact .inl (heq.trans hmax)
      · exact .inr (by rw [heq, hmax]; exact List.mem_cons_self ..)
    · exact .inr (List.mem_cons_of_mem _ hmem)

/-- A time held up is the least that no hold is later than. -/
theorem isLeast_foldl_max (t : α) (holds : List α) :
    IsLeast {u | t ≤ u ∧ ∀ hold ∈ holds, hold ≤ u} (holds.foldl max t) :=
  ⟨⟨le_foldl_max t holds, fun _ h => hold_le_foldl_max t h⟩, fun _ hu => foldl_max_le hu.1 hu.2⟩

end Holds

/-! ### Closing -/

variable {α : Type*} [AddCommGroup α] [LinearOrder α] [IsOrderedAddMonoid α] [Archimedean α]
variable {p : α} (hp : 0 < p) (e len : α)

/-- The first time after `t` at which the window closes. -/
noncomputable def closing (t : α) : α := toIocMod hp t e

def Inside (t : α) : Prop := closing hp e t ≤ t + len

theorem lt_closing (t : α) : t < closing hp e t := (toIocMod_mem_Ioc hp t e).1

theorem closing_le (t : α) : closing hp e t ≤ t + p := (toIocMod_mem_Ioc hp t e).2

theorem closing_eq_iff {t c : α} :
    closing hp e t = c ↔ (t < c ∧ c ≤ t + p) ∧ ∃ z : ℤ, e = c + z • p := toIocMod_eq_iff hp

theorem closing_spec (t : α) : ∃ z : ℤ, e = closing hp e t + z • p := ((closing_eq_iff hp e).mp rfl).2

/-- Until it closes the next closing stays the same. -/
theorem closing_of_lt {t u : α} (hle : t ≤ u) (hlt : u < closing hp e t) :
    closing hp e u = closing hp e t := by
  refine (closing_eq_iff hp e).mpr ⟨⟨hlt, ?_⟩, closing_spec hp e t⟩
  calc closing hp e t ≤ t + p := closing_le hp e t
    _ ≤ u + p := by gcongr

theorem closing_closing (t : α) : closing hp e (closing hp e t) = closing hp e t + p := by
  obtain ⟨z, hz⟩ := closing_spec hp e t
  refine (closing_eq_iff hp e).mpr ⟨⟨lt_add_of_pos_right _ hp, le_rfl⟩, z - 1, ?_⟩
  rw [sub_smul, one_smul, add_assoc, add_sub_cancel]
  exact hz

/-- The window is not left before it closes. -/
theorem inside_of_lt {t u : α} (h : Inside hp e len t) (hle : t ≤ u) (hlt : u < closing hp e t) :
    Inside hp e len u := by
  rw [Inside, closing_of_lt hp e hle hlt]
  calc closing hp e t ≤ t + len := h
    _ ≤ u + len := by gcongr

theorem not_inside_closing (hlen : len < p) (t : α) : ¬Inside hp e len (closing hp e t) := by
  rw [Inside, closing_closing, not_le]
  gcongr

/-! ### Waiting -/

open Classical in
/-- The first time from `t` on that is outside. -/
noncomputable def wait (t : α) : α := if Inside hp e len t then closing hp e t else t

theorem wait_of_not_inside {t : α} (h : ¬Inside hp e len t) : wait hp e len t = t := if_neg h

theorem wait_of_inside {t : α} (h : Inside hp e len t) : wait hp e len t = closing hp e t := if_pos h

theorem isLeast_wait (hlen : len < p) (t : α) : IsLeast {u | t ≤ u ∧ ¬Inside hp e len u} (wait hp e len t) := by
  by_cases h : Inside hp e len t
  · rw [wait_of_inside hp e len h]
    refine ⟨⟨(lt_closing hp e t).le, not_inside_closing hp e len hlen t⟩, ?_⟩
    rintro u ⟨hle, hu⟩
    by_contra hlt
    exact hu (inside_of_lt hp e len h hle (not_le.mp hlt))
  · rw [wait_of_not_inside hp e len h]
    exact ⟨⟨le_rfl, h⟩, fun u hu => hu.1⟩

variable {len}

theorem le_wait (hlen : len < p) (t : α) : t ≤ wait hp e len t := (isLeast_wait hp e len hlen t).1.1

theorem not_inside_wait (hlen : len < p) (t : α) : ¬Inside hp e len (wait hp e len t) :=
  (isLeast_wait hp e len hlen t).1.2

theorem wait_le (hlen : len < p) {t u : α} (hle : t ≤ u) (hu : ¬Inside hp e len u) : wait hp e len t ≤ u :=
  (isLeast_wait hp e len hlen t).2 ⟨hle, hu⟩

/-! ### Waiting while held up -/

theorem le_wait_iff (hlen : len < p) (t u : α) :
    u ≤ wait hp e len t ↔ ∀ v, t ≤ v → v < u → Inside hp e len v := by
  constructor
  · intro h v hle hlt
    by_contra hv
    exact (wait_le hp e hlen hle hv).not_gt (hlt.trans_le h)
  · intro h
    by_contra hlt
    exact not_inside_wait hp e hlen t (h _ (le_wait hp e hlen t) (not_le.mp hlt))

/-- A wait that is then held up ends where a wait for all of it would, unless the latest hold is inside and
    was not inside all the while from `t` on. -/
theorem isLeast_foldl_max_wait_iff (hlen : len < p) (t : α) (holds : List α) :
    IsLeast {u | t ≤ u ∧ (∀ hold ∈ holds, hold ≤ u) ∧ ¬Inside hp e len u} (holds.foldl max (wait hp e len t)) ↔
      ∀ hold ∈ holds, (∀ other ∈ holds, other ≤ hold) → Inside hp e len hold →
        ∀ u, t ≤ u → u < hold → Inside hp e len u := by
  constructor
  · intro h hold hmem hlatest hin
    rw [← le_wait_iff hp e hlen]
    by_contra hlt
    have heq : holds.foldl max (wait hp e len t) = hold :=
      le_antisymm (foldl_max_le (not_le.mp hlt).le hlatest) (hold_le_foldl_max _ hmem)
    have hout := h.1.2.2
    rw [heq] at hout
    exact hout hin
  · intro h
    have hout : ¬Inside hp e len (holds.foldl max (wait hp e len t)) := by
      rcases foldl_max_mem (wait hp e len t) holds with heq | hmem
      · rw [heq]
        exact not_inside_wait hp e hlen t
      · intro hin
        have hall := h _ hmem (fun other hother => hold_le_foldl_max _ hother) hin
        have hle := (le_wait_iff hp e hlen t _).mpr hall
        rw [le_antisymm hle (le_foldl_max _ _)] at hin
        exact not_inside_wait hp e hlen t hin
    refine ⟨⟨(le_wait hp e hlen t).trans (le_foldl_max _ _), fun _ hmem => hold_le_foldl_max _ hmem, hout⟩, ?_⟩
    rintro u ⟨hle, hhold, hu⟩
    exact foldl_max_le (wait_le hp e hlen hle hu) hhold

end Empyralis.Recurring
