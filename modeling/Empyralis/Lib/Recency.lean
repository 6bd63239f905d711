import Mathlib.Data.Finset.Card
import Mathlib.Data.Finset.Dedup
import Mathlib.Data.List.Nodup

/-! The most recent entries of a log, one for each key.

    A log has its newest entry first. `recent` leaves of each key its newest entry, so the first `n` of them are what a
    store of `n` entries holds that drops the key that was written longest ago. An ordered dictionary has its entries the
    other way round. -/

namespace Empyralis.Recency

variable {α κ : Type*} [DecidableEq κ] (key : α → κ)

def recent : List α → List α
  | [] => []
  | a :: log => a :: (recent log).filter fun b => key b ≠ key a

/-- An entry is written into a store of `n` entries. -/
def push (n : Nat) (a : α) (entries : List α) : List α := (a :: entries.filter fun b => key b ≠ key a).take n

variable {key} {log : List α} {a : α}

theorem mem_of_mem_recent : ∀ {log : List α} {a : α}, a ∈ recent key log → a ∈ log
  | [], a, h => by cases h
  | b :: log, a, h => by
    rw [recent] at h
    rcases List.mem_cons.mp h with rfl | h
    · exact List.mem_cons_self
    · exact List.mem_cons_of_mem b (mem_of_mem_recent (List.mem_filter.mp h).1)

theorem key_mem_recent : ∀ {log : List α} {k : κ}, k ∈ (recent key log).map key ↔ k ∈ log.map key
  | [], k => by simp [recent]
  | b :: log, k => by
    have ih : k ∈ (recent key log).map key ↔ k ∈ log.map key := key_mem_recent
    rw [List.map_cons, List.mem_cons, ← ih, recent, List.map_cons, List.mem_cons]
    refine or_congr_right' fun hne => ?_
    simp only [List.mem_map, List.mem_filter, decide_eq_true_eq]
    constructor
    · rintro ⟨c, ⟨hc, _⟩, rfl⟩
      exact ⟨c, hc, rfl⟩
    · rintro ⟨c, hc, rfl⟩
      exact ⟨c, ⟨hc, hne⟩, rfl⟩

theorem nodup_recent : ∀ log : List α, ((recent key log).map key).Nodup
  | [] => List.nodup_nil
  | b :: log => by
    rw [recent, List.map_cons, List.nodup_cons]
    refine ⟨?_, (nodup_recent log).sublist (List.filter_sublist.map key)⟩
    rw [List.mem_map]
    rintro ⟨c, hc, hkey⟩
    exact of_decide_eq_true (List.mem_filter.mp hc).2 hkey

theorem recent_append (newer : List α) :
    recent key (newer ++ log) = recent key newer ++ (recent key log).filter fun b => key b ∉ newer.map key := by
  induction newer with
  | nil => simp [recent]
  | cons a newer ih =>
    rw [List.cons_append, recent, ih, recent, List.cons_append, List.filter_append, List.filter_filter]
    refine congrArg (fun rest => a :: (_ ++ rest)) (List.filter_congr fun b _ => ?_)
    simp [List.map_cons, not_or]

/-- As many entries are left as there are keys. -/
theorem length_recent (log : List α) : (recent key log).length = (log.map key).toFinset.card := by
  have hsame : (log.map key).toFinset = ((recent key log).map key).toFinset := by
    ext k
    rw [List.mem_toFinset, List.mem_toFinset, key_mem_recent]
  rw [hsame, List.toFinset_card_of_nodup (nodup_recent log), List.length_map]

/-- Of entries with keys of their own, leaving out one key and taking `n` is taking one more first. -/
theorem take_filter {k : κ} : ∀ {entries : List α} (n : Nat), (entries.map key).Nodup →
    ((entries.take (n + 1)).filter fun b => key b ≠ k).take n = (entries.filter fun b => key b ≠ k).take n
  | [], n, _ => by simp
  | b :: entries, n, h => by
    rw [List.map_cons, List.nodup_cons] at h
    rw [List.take_succ_cons]
    by_cases hb : key b = k
    · have hothers : ∀ c ∈ entries, decide (key c ≠ k) = true := by
        intro c hc
        refine decide_eq_true fun hck => h.1 ?_
        rw [hb, ← hck]
        exact List.mem_map_of_mem hc
      rw [List.filter_cons_of_neg (by simp [hb]), List.filter_cons_of_neg (by simp [hb]),
        List.filter_eq_self.mpr hothers,
        List.filter_eq_self.mpr fun c hc => hothers c (List.mem_of_mem_take hc), List.take_take, Nat.min_self]
    · rw [List.filter_cons_of_pos (by simp [hb]), List.filter_cons_of_pos (by simp [hb])]
      cases n with
      | zero => rfl
      | succ n => rw [List.take_succ_cons, List.take_succ_cons, take_filter n h.2]

/-- A store that had the `n` most recent entries has them again when one more is written. -/
theorem push_recent (n : Nat) (a : α) (log : List α) :
    push key n a ((recent key log).take n) = (recent key (a :: log)).take n := by
  rw [push, recent]
  cases n with
  | zero => rfl
  | succ n => rw [List.take_succ_cons, List.take_succ_cons, take_filter n (nodup_recent log)]

/-- An entry is among the `n` most recent ones as long as fewer than `n` keys were written since. -/
theorem mem_take_recent {n : Nat} {newer : List α} (hkey : key a ∉ newer.map key)
    (hfew : (newer.map key).toFinset.card < n) : a ∈ (recent key (newer ++ a :: log)).take n := by
  have hshort : (recent key newer).length < n := (length_recent newer).trans_lt hfew
  obtain ⟨more, rfl⟩ := Nat.exists_eq_add_of_lt hshort
  rw [recent_append, recent, List.filter_cons_of_pos (by simpa using hkey), List.take_append, Nat.add_assoc,
    Nat.add_sub_cancel_left, List.take_succ_cons]
  exact List.mem_append_right _ List.mem_cons_self

/-! ### An ordered dictionary, with the oldest entry first -/

variable {β : Type*}

/-- `entries[key] = value`: a key keeps its place. -/
def setItem (k : κ) (value : β) : List (κ × β) → List (κ × β)
  | [] => [(k, value)]
  | (k', value') :: entries => if k' = k then (k, value) :: entries else (k', value') :: setItem k value entries

/-- `entries.move_to_end(key)` of a key that is in it. -/
def moveToEnd (k : κ) (entries : List (κ × β)) : List (κ × β) :=
  entries.filter (fun entry => entry.1 ≠ k) ++ entries.filter fun entry => entry.1 = k

theorem filter_setItem (k : κ) (value : β) : ∀ entries : List (κ × β),
    (setItem k value entries).filter (fun entry => entry.1 ≠ k) = entries.filter fun entry => entry.1 ≠ k
  | [] => by simp [setItem]
  | (k', value') :: entries => by
    rw [setItem]
    by_cases hk : k' = k
    · rw [if_pos hk, List.filter_cons_of_neg (by simp), List.filter_cons_of_neg (by simp [hk])]
    · rw [if_neg hk, List.filter_cons_of_pos (by simp [hk]), List.filter_cons_of_pos (by simp [hk]),
        filter_setItem k value entries]

theorem item_setItem (k : κ) (value : β) : ∀ {entries : List (κ × β)}, (entries.map Prod.fst).Nodup →
    (setItem k value entries).filter (fun entry => entry.1 = k) = [(k, value)]
  | [], _ => by simp [setItem]
  | (k', value') :: entries, h => by
    rw [List.map_cons, List.nodup_cons] at h
    rw [setItem]
    by_cases hk : k' = k
    · subst hk
      rw [if_pos rfl, List.filter_cons_of_pos (by simp), List.filter_eq_nil_iff.mpr]
      intro entry hentry hsame
      exact h.1 (List.mem_map.mpr ⟨entry, hentry, of_decide_eq_true hsame⟩)
    · rw [if_neg hk, List.filter_cons_of_neg (by simp [hk]), item_setItem k value h.2]

/-- Writing at the end and dropping the first of too many entries is a store of the most recent ones. -/
theorem reverse_write {n : Nat} {k : κ} {value : β} {entries : List (κ × β)} (hkeys : (entries.map Prod.fst).Nodup)
    (hlength : entries.length ≤ n) :
    (if n < (moveToEnd k (setItem k value entries)).length then (moveToEnd k (setItem k value entries)).tail
      else moveToEnd k (setItem k value entries)).reverse = push Prod.fst n (k, value) entries.reverse := by
  have hwritten : moveToEnd k (setItem k value entries) = entries.filter (fun entry => entry.1 ≠ k) ++
    [(k, value)] := by
    rw [moveToEnd, filter_setItem, item_setItem k value hkeys]
  have hreverse : (moveToEnd k (setItem k value entries)).reverse =
      (k, value) :: entries.reverse.filter fun entry => entry.1 ≠ k := by
    rw [hwritten, List.reverse_append, List.filter_reverse]
    rfl
  have hkept : (entries.reverse.filter fun entry => entry.1 ≠ k).length ≤ n := by
    refine (List.length_filter_le _ _).trans ?_
    rwa [List.length_reverse]
  rw [push, ← List.length_reverse, hreverse, List.length_cons]
  by_cases hmany : n < (entries.reverse.filter fun entry => entry.1 ≠ k).length + 1
  · have hfull : (entries.reverse.filter fun entry => entry.1 ≠ k).length = n := by omega
    rw [if_pos hmany, ← List.dropLast_reverse, hreverse, List.dropLast_eq_take, List.length_cons, hfull,
      Nat.add_sub_cancel]
  · rw [if_neg hmany, hreverse, List.take_of_length_le]
    exact Nat.not_lt.mp hmany

end Empyralis.Recency
