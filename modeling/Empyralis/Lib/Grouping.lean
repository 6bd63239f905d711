import Mathlib.Data.List.Nodup

/-! Grouping the elements of a list by a key, with the groups and the elements of each in the order in which
    they come: what `grouped.setdefault(key, []).append(x)` builds. -/

namespace Empyralis.Grouping

variable {κ α : Type*} [DecidableEq κ]

/-- The element joins the group of the key, or opens it. -/
def insert (groups : List (κ × List α)) (k : κ) (x : α) : List (κ × List α) :=
  if groups.any (·.1 = k) then groups.map fun g => if g.1 = k then (k, g.2 ++ [x]) else g
  else groups ++ [(k, [x])]

def groupBy (key : α → κ) (xs : List α) : List (κ × List α) := xs.foldl (fun groups x => insert groups (key x) x) []

/-- The groups of the elements seen: one for each key, with all the elements that have it. -/
structure GroupsOf (key : α → κ) (seen : List α) (groups : List (κ × List α)) : Prop where
  nodup : (groups.map Prod.fst).Nodup
  elements : ∀ g ∈ groups, g.2 = seen.filter fun x => key x = g.1
  covered : ∀ x ∈ seen, ∃ g ∈ groups, g.1 = key x

variable {key : α → κ}

theorem keys_insert (groups : List (κ × List α)) (k : κ) (x : α) :
    (insert groups k x).map Prod.fst =
      if groups.any (·.1 = k) then groups.map Prod.fst else groups.map Prod.fst ++ [k] := by
  unfold insert
  split
  · rw [List.map_map]
    refine List.map_congr_left fun g _ => ?_
    dsimp only [Function.comp_apply]
    split
    · exact Eq.symm ‹_›
    · rfl
  · simp

/-- One more element goes into the group of its key, or opens it. -/
theorem groupsOf_insert {seen : List α} {groups : List (κ × List α)} (h : GroupsOf key seen groups) (x : α) :
    GroupsOf key (seen ++ [x]) (insert groups (key x) x) := by
  have hother : ∀ k, k ≠ key x → (seen ++ [x]).filter (fun y => key y = k) = seen.filter fun y => key y = k := by
    intro k hk
    simp [List.filter_append, Ne.symm hk]
  have hown : (seen ++ [x]).filter (fun y => key y = key x) = (seen.filter fun y => key y = key x) ++ [x] := by
    simp [List.filter_append]
  by_cases hany : groups.any (·.1 = key x) = true
  · have hinsert : insert groups (key x) x = groups.map fun g => if g.1 = key x then (key x, g.2 ++ [x]) else g :=
      if_pos hany
    refine ⟨?_, ?_, ?_⟩
    · rw [keys_insert, if_pos hany]
      exact h.nodup
    · rw [hinsert]
      intro g hg
      obtain ⟨old, hold, rfl⟩ := List.mem_map.mp hg
      by_cases hkey : old.1 = key x
      · rw [if_pos hkey, hown, h.elements old hold, hkey]
      · rw [if_neg hkey, hother old.1 hkey]
        exact h.elements old hold
    · intro y hy
      have hkeys : ∃ g ∈ groups, g.1 = key y := by
        obtain hseen | hlast := List.mem_append.mp hy
        · exact h.covered y hseen
        · obtain rfl := List.mem_singleton.mp hlast
          obtain ⟨g, hg, heq⟩ := List.any_eq_true.mp hany
          exact ⟨g, hg, by simpa using heq⟩
      obtain ⟨g, hg, heq⟩ := hkeys
      rw [hinsert]
      refine ⟨_, List.mem_map.mpr ⟨g, hg, rfl⟩, ?_⟩
      split
      · rw [← heq]
        exact Eq.symm ‹_›
      · exact heq
  · have hinsert : insert groups (key x) x = groups ++ [(key x, [x])] := if_neg hany
    have hnew : ∀ g ∈ groups, g.1 ≠ key x := by
      intro g hg heq
      exact hany (List.any_eq_true.mpr ⟨g, hg, by simp [heq]⟩)
    refine ⟨?_, ?_, ?_⟩
    · rw [keys_insert, if_neg hany]
      refine List.nodup_append.mpr ⟨h.nodup, List.pairwise_singleton _ _, ?_⟩
      intro k hk other hother' heq
      obtain rfl := List.mem_singleton.mp hother'
      obtain ⟨g, hg, rfl⟩ := List.mem_map.mp hk
      exact hnew g hg heq
    · rw [hinsert]
      intro g hg
      obtain hold | hlast := List.mem_append.mp hg
      · rw [hother g.1 (hnew g hold)]
        exact h.elements g hold
      · obtain rfl := List.mem_singleton.mp hlast
        have hnone : seen.filter (fun y => key y = key x) = [] := by
          refine List.filter_eq_nil_iff.mpr fun y hy heq => ?_
          obtain ⟨g, hg, hkey⟩ := h.covered y hy
          exact hnew g hg (hkey.trans (by simpa using heq))
        rw [hown, hnone, List.nil_append]
    · rw [hinsert]
      intro y hy
      obtain hseen | hlast := List.mem_append.mp hy
      · obtain ⟨g, hg, heq⟩ := h.covered y hseen
        exact ⟨g, List.mem_append_left _ hg, heq⟩
      · obtain rfl := List.mem_singleton.mp hlast
        exact ⟨_, List.mem_append_right _ List.mem_cons_self, rfl⟩

theorem groupsOf_foldl {xs : List α} : ∀ {seen : List α} {groups : List (κ × List α)}, GroupsOf key seen groups →
    GroupsOf key (seen ++ xs) (xs.foldl (fun groups x => insert groups (key x) x) groups) := by
  induction xs with
  | nil =>
    intro seen groups h
    rw [List.append_nil]
    exact h
  | cons x xs ih =>
    intro seen groups h
    have hnext := ih (groupsOf_insert h x)
    rw [List.append_assoc] at hnext
    exact hnext

theorem groupsOf_groupBy (key : α → κ) (xs : List α) : GroupsOf key xs (groupBy key xs) :=
  @groupsOf_foldl κ α _ key xs [] [] ⟨List.nodup_nil, nofun, nofun⟩

/-- An element is in the group of its own key, and in no other. -/
theorem mem_group {seen : List α} {groups : List (κ × List α)} (h : GroupsOf key seen groups) {g : κ × List α}
    (hg : g ∈ groups) {x : α} : x ∈ g.2 ↔ x ∈ seen ∧ key x = g.1 := by
  rw [h.elements g hg, List.mem_filter]
  simp

/-- What names the elements apart names those of all groups apart. -/
theorem nodup_groups {β : Type*} {name : α → β} {seen : List α} {groups : List (κ × List α)}
    (h : GroupsOf key seen groups)
    (hnames : (seen.map name).Nodup) : ((groups.flatMap Prod.snd).map name).Nodup := by
  have hinj : ∀ x ∈ seen, ∀ y ∈ seen, name x = name y → x = y := fun x hx y hy => List.inj_on_of_nodup_map hnames hx hy
  rw [List.map_flatMap, List.nodup_flatMap]
  refine ⟨fun g hg => ?_, ?_⟩
  · rw [h.elements g hg]
    exact hnames.sublist (List.filter_sublist.map name)
  · refine (List.pairwise_map.mp h.nodup).imp_of_mem fun {g other} hg hother hkeys b hb hb' => ?_
    obtain ⟨x, hx, rfl⟩ := List.mem_map.mp hb
    obtain ⟨y, hy, hname⟩ := List.mem_map.mp hb'
    obtain ⟨hx, hkey⟩ := (mem_group h hg).mp hx
    obtain ⟨hy, hkey'⟩ := (mem_group h hother).mp hy
    rw [hinj y hy x hx hname] at hkey'
    exact hkeys (hkey.symm.trans hkey')

end Empyralis.Grouping
