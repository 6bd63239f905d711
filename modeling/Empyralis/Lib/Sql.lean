import Empyralis.Lib.Table

/-! Rows of a table of a database, found by their primary key, and columns that may be null.

    Each statement is one function from the table to the table: it returns the row it leaves, or nothing
    when no row meets its condition, and then the table is as it was. -/

namespace Empyralis.Sql

/-! ### Nullable columns -/

section Columns

variable {α : Type} [DecidableEq α]

/-- `a = b`, which is not true when one side is null. -/
def eq (a b : Option α) : Bool := a.isSome && a = b

/-- `(a IS NULL AND b IS NULL) OR b = a` -/
def same (a b : Option α) : Bool := (a.isNone && b.isNone) || eq b a

@[simp] theorem same_iff (a b : Option α) : same a b = true ↔ a = b := by
  cases a <;> cases b <;> simp [same, eq, eq_comm]

@[simp] theorem eq_some (a : Option α) (b : α) : eq a (some b) = true ↔ a = some b := by
  cases a <;> simp [eq]

/-- `NULLIF(a, b)` -/
def nullif (a : Option α) (b : α) : Option α := if a = some b then none else a

/-- `COALESCE(a, b)` -/
def coalesce (a b : Option α) : Option α := a.or b

end Columns

/-! ### Statements -/

section Statements

variable {κ ρ : Type} [DecidableEq κ]

/-- `INSERT ... ON CONFLICT (key) DO UPDATE ... WHERE ... RETURNING`: `merge` makes the new row of the
    one that is there, or nothing where the condition of the clause does not hold. -/
def upsert (t : Table κ ρ) (key : κ) (row : ρ) (merge : ρ → Option ρ) : Option ρ × Table κ ρ :=
  match t.get? key with
  | none => (some row, t.put key row)
  | some old =>
    match merge old with
    | some new => (some new, t.put key new)
    | none => (none, t)

/-- `INSERT`, which raises when there is a row with this key. -/
def insert (t : Table κ ρ) (key : κ) (row : ρ) : Option (Table κ ρ) :=
  if (t.get? key).isSome then none else some (t.put key row)

/-- `UPDATE ... WHERE key = ... AND ... RETURNING` -/
def update (t : Table κ ρ) (key : κ) (change : ρ → Option ρ) : Option ρ × Table κ ρ :=
  match (t.get? key).bind change with
  | some new => (some new, t.put key new)
  | none => (none, t)

/-- `DELETE ... WHERE key = ... AND ... RETURNING` -/
def delete (t : Table κ ρ) (key : κ) (doomed : ρ → Bool) : Option ρ × Table κ ρ :=
  match (t.get? key).filter doomed with
  | some old => (some old, t.erase key)
  | none => (none, t)

/-- `UPDATE ... WHERE ...` of all rows that meet the condition. -/
def updateAll (t : Table κ ρ) (change : κ → ρ → Option ρ) : Table κ ρ :=
  ⟨t.entries.map fun e => (e.1, (change e.1 e.2).getD e.2), by
    rw [List.map_map]
    exact t.nodup⟩

variable {t : Table κ ρ} {key other : κ} {row : ρ} {merge change : ρ → Option ρ} {doomed : ρ → Bool}

theorem upsert_new (h : t.get? key = none) :
    upsert t key row merge = (some row, t.put key row) := by
  simp only [upsert, h]

theorem upsert_some {old new : ρ} (h : t.get? key = some old) (hm : merge old = some new) :
    upsert t key row merge = (some new, t.put key new) := by
  simp only [upsert, h, hm]

theorem upsert_none {old : ρ} (h : t.get? key = some old) (hm : merge old = none) :
    upsert t key row merge = (none, t) := by
  simp only [upsert, h, hm]

theorem insert_eq_some {u : Table κ ρ} : insert t key row = some u ↔ t.get? key = none ∧ u = t.put key row := by
  unfold insert
  cases h : t.get? key with
  | none => simp [eq_comm]
  | some old => simp

theorem update_some {old new : ρ} (h : t.get? key = some old) (hc : change old = some new) :
    update t key change = (some new, t.put key new) := by
  simp only [update, h, Option.bind_some, hc]

theorem update_none (h : ∀ old, t.get? key = some old → change old = none) :
    update t key change = (none, t) := by
  have hbind : (t.get? key).bind change = none := by
    cases hold : t.get? key with
    | none => rfl
    | some old => exact h old hold
  simp only [update, hbind]

theorem delete_some {old : ρ} (h : t.get? key = some old) (hd : doomed old = true) :
    delete t key doomed = (some old, t.erase key) := by
  simp only [delete, h, Option.filter_some, hd, if_true]

theorem delete_none (h : ∀ old, t.get? key = some old → doomed old = false) :
    delete t key doomed = (none, t) := by
  have hfilter : (t.get? key).filter doomed = none := by
    cases hold : t.get? key with
    | none => rfl
    | some old => simp [h old hold]
  simp only [delete, hfilter]

theorem update_fst : (update t key change).1 = (t.get? key).bind change := by
  unfold update
  split
  · rename_i h
    rw [h]
  · rename_i h
    rw [h]

/-- The row under the key after a statement. -/
theorem upsert_self : (upsert t key row merge).2.get? key =
    some (((t.get? key).map fun old => (merge old).getD old).getD row) := by
  unfold upsert
  split
  · rename_i h
    simp [h]
  · rename_i old h
    split
    · rename_i hm
      simp [h, hm]
    · rename_i hm
      simp [h, hm]

theorem update_self (t : Table κ ρ) (key : κ) (change : ρ → Option ρ) :
    (update t key change).2.get? key =
    (t.get? key).map fun old => (change old).getD old := by
  unfold update
  cases h : t.get? key with
  | none => simp [h]
  | some old => cases hc : change old <;> simp [h, hc]

/-- A statement writes no row but its own. -/
theorem upsert_other (h : other ≠ key) : (upsert t key row merge).2.get? other = t.get? other := by
  unfold upsert
  split
  · rw [Table.get?_put, if_neg h]
  · split
    · rw [Table.get?_put, if_neg h]
    · rfl

theorem update_other (h : other ≠ key) : (update t key change).2.get? other = t.get? other := by
  unfold update
  split
  · rw [Table.get?_put, if_neg h]
  · rfl

@[simp] theorem get?_updateAll (t : Table κ ρ) (change : κ → ρ → Option ρ) (key : κ) :
    (updateAll t change).get? key = (t.get? key).map fun old => (change key old).getD old := by
  apply Option.ext
  intro row
  rw [Table.get?_eq_some, Option.map_eq_some_iff]
  constructor
  · intro h
    obtain ⟨⟨k, old⟩, hmem, heq⟩ := List.mem_map.mp h
    obtain ⟨rfl, rfl⟩ := Prod.mk.inj heq
    exact ⟨old, Table.get?_eq_some.mpr hmem, rfl⟩
  · rintro ⟨old, hold, rfl⟩
    exact List.mem_map.mpr ⟨(key, old), Table.get?_eq_some.mp hold, rfl⟩

end Statements

end Empyralis.Sql
