import Mathlib.Data.List.Nodup
import Mathlib.Data.List.Perm.Subperm

/-! A dictionary that keeps its keys in the order in which they came: a key that is there is written
    in place, a new one at the end. The keys are distinct by construction, so what is proved of one
    entry is proved of the value under its key. -/

namespace Empyralis

/-- A list of entries with no key twice. -/
structure Table (κ α : Type) where
  entries : List (κ × α)
  nodup : (entries.map Prod.fst).Nodup

namespace Table

variable {κ α : Type}

def empty : Table κ α := ⟨[], List.nodup_nil⟩

def keys (t : Table κ α) : List κ := t.entries.map Prod.fst

theorem mem_keys_of_mem {t : Table κ α} {e : κ × α} (h : e ∈ t.entries) : e.1 ∈ t.keys :=
  List.mem_map.mpr ⟨e, h, rfl⟩

/-- How many values have a property. -/
def count (t : Table κ α) (p : α → Bool) : Nat := t.entries.countP fun e => p e.2

theorem count_congr {t : Table κ α} {p q : α → Bool} (h : ∀ e ∈ t.entries, p e.2 = q e.2) :
    t.count p = t.count q :=
  List.countP_congr fun e he => by rw [h e he]

variable [DecidableEq κ]

def get? (t : Table κ α) (k : κ) : Option α := t.entries.lookup k

def set (k : κ) (v : α) (e : κ × α) : κ × α := if e.1 = k then (k, v) else e

theorem map_set_keys (k : κ) (v : α) (es : List (κ × α)) :
    (es.map (set k v)).map Prod.fst = es.map Prod.fst := by
  induction es with
  | nil => rfl
  | cons e es ih =>
    rw [List.map_cons, List.map_cons, List.map_cons, ih, set]
    split
    · rename_i h
      rw [h]
    · rfl

/-- The value in the place of the key, or at the end. -/
def put (t : Table κ α) (k : κ) (v : α) : Table κ α :=
  if h : k ∈ t.keys then
    ⟨t.entries.map (set k v), by rw [map_set_keys]; exact t.nodup⟩
  else
    ⟨t.entries ++ [(k, v)], by
      rw [List.map_append]
      exact t.nodup.append (List.nodup_singleton k) (List.disjoint_singleton.mpr h)⟩

def erase (t : Table κ α) (k : κ) : Table κ α :=
  ⟨t.entries.filter fun e => e.1 ≠ k, t.nodup.sublist (List.filter_sublist.map _)⟩

def filter (t : Table κ α) (p : κ → α → Bool) : Table κ α :=
  ⟨t.entries.filter fun e => p e.1 e.2, t.nodup.sublist (List.filter_sublist.map _)⟩

/-! ### Entries and values -/

theorem lookup_eq_some {k : κ} {v : α} : ∀ {es : List (κ × α)}, (es.map Prod.fst).Nodup →
    (es.lookup k = some v ↔ (k, v) ∈ es)
  | [], _ => by simp
  | (l, w) :: es, h => by
    rw [List.map_cons, List.nodup_cons] at h
    rw [List.lookup_cons]
    by_cases hk : k = l
    · subst hk
      have hout : (k, v) ∉ es := fun hmem => h.1 (List.mem_map.mpr ⟨_, hmem, rfl⟩)
      simp [hout, eq_comm]
    · rw [beq_eq_false_iff_ne.mpr hk, List.mem_cons]
      simp [hk, lookup_eq_some h.2]

theorem get?_eq_some {t : Table κ α} {k : κ} {v : α} :
    t.get? k = some v ↔ (k, v) ∈ t.entries := lookup_eq_some t.nodup

theorem get?_filter {t : Table κ α} {p : κ → α → Bool} {k : κ} {v : α} :
    (t.filter p).get? k = some v ↔ t.get? k = some v ∧ p k v := by
  rw [get?_eq_some, get?_eq_some]
  exact List.mem_filter

/-- Tables that agree under each key have the same entries, in some order. -/
theorem entries_perm {s t : Table κ α} (h : ∀ k, s.get? k = t.get? k) : s.entries.Perm t.entries := by
  refine (List.perm_ext_iff_of_nodup (List.Nodup.of_map _ s.nodup) (List.Nodup.of_map _ t.nodup)).mpr ?_
  rintro ⟨k, v⟩
  rw [← get?_eq_some, ← get?_eq_some, h k]

theorem mem_keys {t : Table κ α} {k : κ} : k ∈ t.keys ↔ ∃ v, t.get? k = some v := by
  rw [keys, List.mem_map]
  constructor
  · rintro ⟨⟨l, v⟩, hmem, rfl⟩
    exact ⟨v, get?_eq_some.mpr hmem⟩
  · rintro ⟨v, hv⟩
    exact ⟨(k, v), get?_eq_some.mp hv, rfl⟩

theorem get?_eq_none {t : Table κ α} {k : κ} : t.get? k = none ↔ k ∉ t.keys := by
  rw [mem_keys, Option.eq_none_iff_forall_ne_some, not_exists]

theorem entries_put_new {t : Table κ α} {k : κ} (h : k ∉ t.keys) (v : α) :
    (t.put k v).entries = t.entries ++ [(k, v)] := by
  simp only [put]
  rw [dif_neg h]

theorem entries_put_old {t : Table κ α} {k : κ} (h : k ∈ t.keys) (v : α) :
    (t.put k v).entries = t.entries.map (set k v) := by
  simp only [put]
  rw [dif_pos h]

theorem mem_entries_put {t : Table κ α} {k : κ} {v : α} {e : κ × α} :
    e ∈ (t.put k v).entries ↔ e = (k, v) ∨ (e ∈ t.entries ∧ e.1 ≠ k) := by
  by_cases h : k ∈ t.keys
  · rw [entries_put_old h, List.mem_map]
    constructor
    · rintro ⟨f, hf, rfl⟩
      rw [set]
      split
      · exact .inl rfl
      · exact .inr ⟨hf, by assumption⟩
    · rintro (rfl | ⟨he, hne⟩)
      · obtain ⟨f, hf, rfl⟩ := List.mem_map.mp h
        exact ⟨f, hf, by rw [set, if_pos rfl]⟩
      · exact ⟨e, he, by rw [set, if_neg hne]⟩
  · rw [entries_put_new h, List.mem_append, List.mem_singleton]
    constructor
    · rintro (he | rfl)
      · refine .inr ⟨he, ?_⟩
        rintro rfl
        exact h (mem_keys_of_mem he)
      · exact .inl rfl
    · rintro (rfl | ⟨he, -⟩)
      · exact .inr rfl
      · exact .inl he

theorem mem_entries_erase {t : Table κ α} {k : κ} {e : κ × α} :
    e ∈ (t.erase k).entries ↔ e ∈ t.entries ∧ e.1 ≠ k := by
  simp [erase]

@[simp] theorem get?_put (t : Table κ α) (k l : κ) (v : α) :
    (t.put k v).get? l = if l = k then some v else t.get? l := by
  apply Option.ext
  intro w
  rw [get?_eq_some, mem_entries_put]
  by_cases h : l = k
  · subst h
    simp [eq_comm]
  · simp [h, get?_eq_some]

@[simp] theorem get?_erase (t : Table κ α) (k l : κ) :
    (t.erase k).get? l = if l = k then none else t.get? l := by
  apply Option.ext
  intro w
  rw [get?_eq_some, mem_entries_erase]
  by_cases h : l = k
  · simp [h]
  · simp [h, get?_eq_some]

@[simp] theorem mem_keys_put {t : Table κ α} {k l : κ} {v : α} :
    l ∈ (t.put k v).keys ↔ l = k ∨ l ∈ t.keys := by
  rw [mem_keys, mem_keys, get?_put]
  by_cases h : l = k <;> simp [h]

@[simp] theorem mem_keys_erase {t : Table κ α} {k l : κ} :
    l ∈ (t.erase k).keys ↔ l ≠ k ∧ l ∈ t.keys := by
  rw [mem_keys, mem_keys, get?_erase]
  by_cases h : l = k <;> simp [h]

/-! ### Counting values -/

theorem count_put_new {t : Table κ α} {k : κ} (h : k ∉ t.keys) (v : α) (p : α → Bool) :
    (t.put k v).count p = t.count p + if p v then 1 else 0 := by
  rw [count, entries_put_new h, List.countP_append, List.countP_singleton]
  rfl

/-- A table whose counted values are counted in another one has no more of them. -/
theorem count_le {s t : Table κ α} {p : α → Bool}
    (h : ∀ k v, t.get? k = some v → p v → ∃ u, s.get? k = some u ∧ p u) : t.count p ≤ s.count p := by
  have hsub : (t.entries.filter fun e => p e.2).map Prod.fst ⊆
      (s.entries.filter fun e => p e.2).map Prod.fst := by
    intro k hk
    obtain ⟨e, he, rfl⟩ := List.mem_map.mp hk
    obtain ⟨he, hp⟩ := List.mem_filter.mp he
    obtain ⟨u, hu, hpu⟩ := h e.1 e.2 (get?_eq_some.mpr he) hp
    exact List.mem_map.mpr ⟨(e.1, u), List.mem_filter.mpr ⟨get?_eq_some.mp hu, hpu⟩, rfl⟩
  have hnodup : ((t.entries.filter fun e => p e.2).map Prod.fst).Nodup :=
    t.nodup.sublist (List.filter_sublist.map _)
  have hlen := (hnodup.subperm hsub).length_le
  rwa [List.length_map, List.length_map, ← List.countP_eq_length_filter,
    ← List.countP_eq_length_filter] at hlen

end Table

end Empyralis
