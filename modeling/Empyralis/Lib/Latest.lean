import Empyralis.Lib.Table
import Mathlib.Data.List.Induction
import Mathlib.Order.Lattice

/-! The latest element of a list by a rank, and the latest of each group.

    Both are kept in one pass: an element takes the place of the one that is kept when its rank is
    greater, and the first of two that tie stays. -/

namespace Empyralis.Latest

variable {α β κ : Type} [LinearOrder β] (rank : α → β)

/-- The one of the two that is kept. -/
def keep : Option α → α → Option α
  | none, x => some x
  | some y, x => if rank y < rank x then some x else some y

def latest (xs : List α) : Option α := xs.foldl (keep rank) none

/-- What is kept is one of the elements, and none is above it. -/
theorem foldl_keep : ∀ (xs : List α) {kept : Option α} {x : α},
    xs.foldl (keep rank) kept = some x →
      (x ∈ xs ∨ kept = some x) ∧ (∀ y ∈ xs, rank y ≤ rank x) ∧ ∀ y, kept = some y → rank y ≤ rank x
  | [], kept, x, h => by
    refine ⟨.inr h, by simp, fun y hy => ?_⟩
    rw [List.foldl_nil] at h
    cases h.symm.trans hy
    exact le_refl _
  | z :: xs, kept, x, h => by
    rw [List.foldl_cons] at h
    obtain ⟨hmem, hle, hkept⟩ := foldl_keep xs h
    cases kept with
    | none =>
      refine ⟨.inl ?_, ?_, by simp⟩
      · rcases hmem with hmem | hmem
        · exact List.mem_cons_of_mem z hmem
        · cases hmem
          exact List.mem_cons_self
      · intro y hy
        rcases List.mem_cons.mp hy with rfl | hy
        · exact hkept y rfl
        · exact hle y hy
    | some y =>
      by_cases hlt : rank y < rank z
      · rw [keep, if_pos hlt] at hmem hkept
        have hz := hkept z rfl
        refine ⟨?_, ?_, ?_⟩
        · rcases hmem with hmem | hmem
          · exact .inl (List.mem_cons_of_mem z hmem)
          · cases hmem
            exact .inl List.mem_cons_self
        · intro w hw
          rcases List.mem_cons.mp hw with rfl | hw
          · exact hz
          · exact hle w hw
        · intro w hw
          cases hw
          exact le_trans (le_of_lt hlt) hz
      · rw [keep, if_neg hlt] at hmem hkept
        have hy := hkept y rfl
        refine ⟨?_, ?_, hkept⟩
        · exact hmem.imp (List.mem_cons_of_mem z) id
        · intro w hw
          rcases List.mem_cons.mp hw with rfl | hw
          · exact le_trans (not_lt.mp hlt) hy
          · exact hle w hw

theorem latest_mem {xs : List α} {x : α} (h : latest rank xs = some x) : x ∈ xs := by
  rcases (foldl_keep rank xs h).1 with hmem | hnone
  · exact hmem
  · cases hnone

theorem latest_le {xs : List α} {x y : α} (h : latest rank xs = some x) (hy : y ∈ xs) :
    rank y ≤ rank x :=
  (foldl_keep rank xs h).2.1 y hy

theorem latest_concat (xs : List α) (x : α) : latest rank (xs ++ [x]) = keep rank (latest rank xs) x := by
  rw [latest, List.foldl_append]
  rfl

theorem latest_eq_none {xs : List α} : latest rank xs = none ↔ xs = [] := by
  rcases List.eq_nil_or_concat xs with rfl | ⟨ys, y, rfl⟩
  · simp [latest]
  · rw [List.concat_eq_append, latest_concat]
    cases latest rank ys with
    | none => simp [keep]
    | some z =>
      rw [keep]
      split <;> simp

/-- The first of the greatest. -/
def First (xs : List α) (x : α) : Prop :=
  ∃ front back, xs = front ++ x :: back ∧ (∀ y ∈ front, rank y < rank x) ∧ ∀ y ∈ back, rank y ≤ rank x

/-- Of several elements of the highest rank the first one is kept. -/
theorem first_of_latest (xs : List α) : ∀ {x : α}, latest rank xs = some x → First rank xs x := by
  induction xs using List.reverseRecOn with
  | nil => intro x h; cases h
  | append_singleton xs z ih =>
    intro x h
    rw [latest_concat] at h
    cases hlatest : latest rank xs with
    | none =>
      obtain rfl := (latest_eq_none rank).mp hlatest
      rw [hlatest, keep, Option.some.injEq] at h
      subst h
      exact ⟨[], [], rfl, by simp, by simp⟩
    | some y =>
      rw [hlatest, keep] at h
      split at h
      · rename_i hlt
        cases h
        exact ⟨xs, [], rfl, fun w hw => (latest_le rank hlatest hw).trans_lt hlt, by simp⟩
      · rename_i hle
        cases h
        obtain ⟨front, back, rfl, hfront, hback⟩ := ih hlatest
        refine ⟨front, back ++ [z], by simp, hfront, ?_⟩
        intro w hw
        rcases List.mem_append.mp hw with hw | hw
        · exact hback w hw
        · rw [List.mem_singleton.mp hw]
          exact not_lt.mp hle

theorem First.le {xs : List α} {x y : α} (h : First rank xs x) (hy : y ∈ xs) : rank y ≤ rank x := by
  obtain ⟨front, back, rfl, hfront, hback⟩ := h
  rcases List.mem_append.mp hy with hy | hy
  · exact (hfront y hy).le
  · rcases List.mem_cons.mp hy with rfl | hy
    · exact le_rfl
    · exact hback y hy

theorem First.unique {xs : List α} {x y : α} (hx : First rank xs x) (hy : First rank xs y) : x = y := by
  have hxmem : x ∈ xs := by
    obtain ⟨front, back, rfl, -⟩ := hx
    simp
  have hymem : y ∈ xs := by
    obtain ⟨front, back, rfl, -⟩ := hy
    simp
  have heq : rank x = rank y := le_antisymm (hy.le rank hxmem) (hx.le rank hymem)
  obtain ⟨front, back, rfl, hfront, -⟩ := hx
  obtain ⟨front', back', hxs, hfront', -⟩ := hy
  rcases List.append_eq_append_iff.mp hxs with ⟨middle, rfl, hrest⟩ | ⟨middle, rfl, hrest⟩
  · cases middle with
    | nil => exact (List.cons.inj hrest).1
    | cons z middle =>
      obtain ⟨rfl, -⟩ := List.cons.inj hrest
      exact absurd heq (hfront' x (by simp)).ne
  · cases middle with
    | nil => exact (List.cons.inj hrest).1.symm
    | cons z middle =>
      obtain ⟨rfl, -⟩ := List.cons.inj hrest
      exact absurd heq (hfront y (by simp)).ne'

theorem latest_eq_some_iff {xs : List α} {x : α} : latest rank xs = some x ↔ First rank xs x := by
  constructor
  · exact first_of_latest rank xs
  · intro h
    cases hlatest : latest rank xs with
    | none =>
      obtain rfl := (latest_eq_none rank).mp hlatest
      obtain ⟨front, back, hnil, -⟩ := h
      simp at hnil
    | some y => rw [(first_of_latest rank xs hlatest).unique rank h]

/-- Where no two tie the order of the list does not matter. -/
theorem latest_perm {xs ys : List α} (h : xs.Perm ys) (hnodup : (xs.map rank).Nodup) :
    latest rank xs = latest rank ys := by
  cases hx : latest rank xs with
  | none =>
    obtain rfl := (latest_eq_none rank).mp hx
    rw [h.nil_eq.symm]
    rfl
  | some x =>
    cases hy : latest rank ys with
    | none =>
      obtain rfl := (latest_eq_none rank).mp hy
      obtain rfl := h.eq_nil
      cases hx
    | some y =>
      have hxy : rank x ≤ rank y := latest_le rank hy (h.mem_iff.mp (latest_mem rank hx))
      have hyx : rank y ≤ rank x := latest_le rank hx (h.mem_iff.mpr (latest_mem rank hy))
      rw [List.inj_on_of_nodup_map hnodup (latest_mem rank hx) (h.mem_iff.mpr (latest_mem rank hy))
        (le_antisymm hxy hyx)]

/-! ### Groups -/

section Groups

variable [DecidableEq κ] (key : α → κ)

def enter (groups : Table κ α) (x : α) : Table κ α :=
  match groups.get? (key x) with
  | none => groups.put (key x) x
  | some y => if rank y < rank x then groups.put (key x) x else groups

/-- The latest element under each key, the keys in the order in which they came. -/
def latestBy (xs : List α) : Table κ α := xs.foldl (enter rank key) Table.empty

theorem get?_enter (groups : Table κ α) (x : α) (k : κ) :
    (enter rank key groups x).get? k =
      if key x = k then keep rank (groups.get? k) x else groups.get? k := by
  by_cases hk : key x = k
  · subst hk
    rw [if_pos rfl, enter]
    cases h : groups.get? (key x) with
    | none => simp [keep]
    | some y =>
      simp only [keep]
      split
      · simp
      · exact h
  · rw [if_neg hk, enter]
    cases groups.get? (key x) with
    | none => simp [Ne.symm hk]
    | some y =>
      simp only
      split
      · simp [Ne.symm hk]
      · rfl

theorem get?_foldl_enter (k : κ) : ∀ (xs : List α) (groups : Table κ α),
    (xs.foldl (enter rank key) groups).get? k =
      (xs.filter (key · = k)).foldl (keep rank) (groups.get? k)
  | [], groups => rfl
  | x :: xs, groups => by
    rw [List.foldl_cons, get?_foldl_enter k xs, get?_enter]
    by_cases hk : key x = k <;> simp [hk]

theorem get?_latestBy (xs : List α) (k : κ) :
    (latestBy rank key xs).get? k = latest rank (xs.filter (key · = k)) := by
  rw [latestBy, get?_foldl_enter]
  rfl

theorem latestBy_perm {xs ys : List α} (h : xs.Perm ys) (hnodup : (xs.map rank).Nodup) (k : κ) :
    (latestBy rank key xs).get? k = (latestBy rank key ys).get? k := by
  rw [get?_latestBy, get?_latestBy]
  exact latest_perm rank (h.filter _) (hnodup.sublist (List.filter_sublist.map rank))

variable {rank key}

theorem latestBy_mem {xs : List α} {k : κ} {x : α} (h : (latestBy rank key xs).get? k = some x) :
    x ∈ xs ∧ key x = k := by
  rw [get?_latestBy] at h
  simpa using latest_mem rank h

theorem foldl_keep_isSome : ∀ (xs : List α) {kept : Option α}, kept.isSome ∨ xs ≠ [] →
    (xs.foldl (keep rank) kept).isSome
  | [], _, h => h.resolve_right (· rfl)
  | x :: xs, kept, _ => by
    refine foldl_keep_isSome xs (.inl ?_)
    cases kept with
    | none => rfl
    | some y =>
      rw [keep]
      split <;> rfl

/-- Each element's group has its latest. -/
theorem mem_keys_latestBy {xs : List α} {k : κ} :
    k ∈ (latestBy rank key xs).keys ↔ ∃ x ∈ xs, key x = k := by
  rw [Table.mem_keys]
  constructor
  · rintro ⟨x, hx⟩
    exact ⟨x, latestBy_mem hx⟩
  · rintro ⟨x, hx, hk⟩
    rw [get?_latestBy, ← Option.isSome_iff_exists]
    refine foldl_keep_isSome _ (.inr (List.ne_nil_of_mem (a := x) ?_))
    simpa using ⟨hx, hk⟩

end Groups

end Empyralis.Latest
