import Mathlib.Data.List.Basic

/-! A log of numbered entries of which only the latest are kept, and a reader that asks for what comes after the number
    of the last entry it was given. It misses nothing as long as no more than the kept entries came since. -/

namespace Empyralis.Lib.BoundedLog

variable {α : Type*} (seq : α → Nat)

/-- The entries are in the order of their numbers. -/
def Increasing (l : List α) : Prop := l.Pairwise fun a b => seq a < seq b

/-- The last entries, at most `limit` of them. -/
def latest (limit : Nat) (l : List α) : List α := l.drop (l.length - limit)

/-- The entries with a number above the cursor. -/
def after (cursor : Nat) (l : List α) : List α := l.filter fun a => cursor < seq a

/-- Where a reader stands that started at `since` and was given `got`. -/
def cursor (since : Nat) (got : List α) : Nat := (got.getLast?.map seq).getD since

variable {seq} {l got rest : List α} {limit since c : Nat} {a : α}

theorem latest_of_le (h : l.length ≤ limit) : latest limit l = l := by
  rw [latest, Nat.sub_eq_zero_of_le h, List.drop_zero]

theorem latest_sublist : (latest limit l).Sublist l := List.drop_sublist ..

/-- A log that is cut whenever an entry comes is the cut of the whole log. -/
theorem latest_push : latest limit (latest limit l ++ [a]) = latest limit (l ++ [a]) := by
  rcases Nat.le_total l.length limit with h | h
  · rw [latest_of_le h]
  · have hcut : l.length - limit ≤ l.length := Nat.sub_le ..
    rw [latest, latest, latest, ← List.drop_append_of_le_length hcut, List.drop_drop]
    congr 1
    simp only [List.length_drop, List.length_append, List.length_singleton]
    omega

/-- The entries up to a number come first. -/
theorem split_after (h : Increasing seq l) : ∃ seen, l = seen ++ after seq c l ∧ ∀ a ∈ seen, seq a ≤ c := by
  induction l with
  | nil => exact ⟨[], rfl, fun _ ha => absurd ha List.not_mem_nil⟩
  | cons a l ih =>
    obtain ⟨hfirst, hrest⟩ := List.pairwise_cons.mp h
    by_cases ha : c < seq a
    · refine ⟨[], ?_, fun _ ha => absurd ha List.not_mem_nil⟩
      rw [List.nil_append, after, List.filter_eq_self.mpr]
      intro b hb
      rcases List.mem_cons.mp hb with rfl | hb
      · simpa using ha
      · simpa using Nat.lt_trans ha (hfirst b hb)
    · obtain ⟨seen, hsplit, hseen⟩ := ih hrest
      refine ⟨a :: seen, ?_, ?_⟩
      · rw [after, List.filter_cons_of_neg (by simpa using ha), List.cons_append]
        exact congrArg (a :: ·) hsplit
      · exact List.forall_mem_cons.mpr ⟨Nat.le_of_not_lt ha, hseen⟩

theorem after_eq_self (h : ∀ a ∈ l, c < seq a) : after seq c l = l :=
  List.filter_eq_self.mpr fun a ha => by simpa using h a ha

theorem after_eq_nil (h : ∀ a ∈ l, seq a ≤ c) : after seq c l = [] :=
  List.filter_eq_nil_iff.mpr fun a ha => by simpa using h a ha

theorem after_append : after seq c (got ++ rest) = after seq c got ++ after seq c rest := List.filter_append ..

theorem lt_of_mem_after (h : a ∈ after seq c l) : c < seq a := by simpa using (List.mem_filter.mp h).2

/-- A cursor further on. -/
theorem after_after (h : since ≤ c) : after seq c (after seq since l) = after seq c l := by
  rw [after, after, after, List.filter_filter]
  refine List.filter_congr fun a _ => ?_
  simp only [Bool.and_eq_left_iff_imp, decide_eq_true_eq]
  omega

/-- Of what is kept a reader is given the latest of what it has not seen. -/
theorem after_latest (h : Increasing seq l) : after seq c (latest limit l) = latest limit (after seq c l) := by
  obtain ⟨seen, hsplit, hseen⟩ := split_after (c := c) h
  set fresh := after seq c l with hfresh
  have habove : ∀ a ∈ fresh, c < seq a := fun a ha => lt_of_mem_after ha
  rw [hsplit, latest, List.length_append, List.drop_append, after_append]
  rw [after_eq_nil fun a ha => hseen a (List.mem_of_mem_drop ha), List.nil_append]
  rw [after_eq_self fun a ha => habove a (List.mem_of_mem_drop ha), latest]
  congr 1
  omega

/-- The latest entries are also the first ones only when they are all. -/
theorem latest_prefix_iff (hlimit : 0 < limit) (h : Increasing seq l) : latest limit l <+: l ↔ l.length ≤ limit := by
  refine ⟨fun hprefix => ?_, fun hle => by simp only [latest_of_le hle, List.prefix_refl]⟩
  by_contra hlong
  obtain ⟨a, l, rfl⟩ := List.exists_cons_of_length_pos (l := l) (by omega)
  obtain ⟨k, hk⟩ : ∃ k, (a :: l).length - limit = k + 1 := ⟨(a :: l).length - limit - 1, by omega⟩
  rw [latest, hk, List.drop_succ_cons] at hprefix
  have hlength : (l.drop k).length = limit := by
    rw [List.length_cons] at hk
    rw [List.length_drop]
    omega
  obtain ⟨b, bs, hb⟩ := List.exists_cons_of_length_pos (l := l.drop k) (by omega)
  rw [hb] at hprefix
  obtain ⟨rfl, -⟩ := List.cons_prefix_cons.mp hprefix
  have hmem : b ∈ l := List.mem_of_mem_drop (i := k) (hb ▸ List.mem_cons_self)
  exact Nat.lt_irrefl _ ((List.pairwise_cons.mp h).1 b hmem)

/-! ### A reader -/

@[simp] theorem cursor_nil : cursor seq since [] = since := rfl

@[simp] theorem cursor_concat : cursor seq since (got ++ [a]) = seq a := by
  simp [cursor]

/-- What a reader was given is not above its cursor. -/
theorem le_cursor (h : Increasing seq got) (ha : a ∈ got) : seq a ≤ cursor seq since got := by
  obtain ⟨front, b, rfl⟩ := (List.eq_nil_or_concat got).resolve_left (List.ne_nil_of_mem ha)
  rw [List.concat_eq_append] at *
  rw [cursor_concat]
  rcases List.mem_append.mp ha with ha | ha
  · exact Nat.le_of_lt ((List.pairwise_append.mp h).2.2 a ha b (List.mem_singleton_self b))
  · exact Nat.le_of_eq (congrArg seq (List.mem_singleton.mp ha))

theorem since_le_cursor (h : ∀ a ∈ got, since < seq a) : since ≤ cursor seq since got := by
  rcases List.eq_nil_or_concat got with rfl | ⟨front, b, rfl⟩
  · exact Nat.le_refl since
  · rw [List.concat_eq_append] at *
    rw [cursor_concat]
    exact Nat.le_of_lt (h b (List.mem_append_right _ (List.mem_singleton_self b)))

/-- The next entry is not below the cursor. -/
theorem cursor_le (h : Increasing seq (got ++ a :: rest)) (hsince : since < seq a) :
    cursor seq since got ≤ seq a := by
  rcases List.eq_nil_or_concat got with rfl | ⟨front, b, rfl⟩
  · exact Nat.le_of_lt hsince
  · rw [List.concat_eq_append] at *
    rw [cursor_concat]
    have hcross := (List.pairwise_append.mp h).2.2
    exact Nat.le_of_lt (hcross b (List.mem_append_right _ (List.mem_singleton_self b)) a List.mem_cons_self)

/-- What is given above a number comes after what was given up to it. -/
theorem sublist_give (h : Increasing seq l) (hgot : got.Sublist l) (hle : ∀ a ∈ got, seq a ≤ c)
    (hrest : rest.Sublist (after seq c l)) : (got ++ rest).Sublist l := by
  obtain ⟨seen, hsplit, hseen⟩ := split_after (c := c) h
  have hfilter : (l.filter fun a => seq a ≤ c) = seen := by
    rw [hsplit, List.filter_append, List.filter_eq_self.mpr fun a ha => by simpa using hseen a ha,
      List.filter_eq_nil_iff.mpr fun a ha => by simpa using lt_of_mem_after ha, List.append_nil]
  have hfirst : got.Sublist seen := by
    have hsub := hgot.filter fun a => seq a ≤ c
    rwa [hfilter, List.filter_eq_self.mpr fun a ha => by simpa using hle a ha] at hsub
  rw [hsplit]
  exact hfirst.append hrest

/-- A reader that has been given a first part of the log has not seen the rest. -/
theorem after_cursor (h : Increasing seq (got ++ rest)) (hsince : ∀ a ∈ got ++ rest, since < seq a) :
    after seq (cursor seq since got) (got ++ rest) = rest := by
  obtain ⟨hgot, -, hcross⟩ := List.pairwise_append.mp h
  rw [after_append, after_eq_nil fun a ha => le_cursor hgot ha, List.nil_append]
  refine after_eq_self fun a ha => ?_
  rcases List.eq_nil_or_concat got with rfl | ⟨front, b, rfl⟩
  · exact hsince a ha
  · rw [List.concat_eq_append] at *
    rw [cursor_concat]
    exact hcross b (List.mem_append_right _ (List.mem_singleton_self b)) a ha

/-- Once a reader has been given the latest entries above its cursor, nothing is left above it. -/
theorem after_cursor_latest (hlimit : 0 < limit) (h : Increasing seq l) :
    after seq (cursor seq since (got ++ latest limit (after seq (cursor seq since got) l))) l = [] := by
  set fresh := after seq (cursor seq since got) l with hfresh
  obtain ⟨seen, hsplit, hseen⟩ := split_after (c := cursor seq since got) h
  rw [← hfresh] at hsplit
  rcases List.eq_nil_or_concat fresh with hnil | ⟨front, b, hconcat⟩
  · rw [hnil]
    simpa only [latest, List.drop_nil, List.append_nil, hfresh] using hnil
  · rw [List.concat_eq_append] at hconcat
    have hlast : latest limit fresh = (front.drop (fresh.length - limit)) ++ [b] := by
      rw [latest, hconcat, List.drop_append_of_le_length]
      simp only [List.length_append, List.length_singleton]
      omega
    rw [hlast, ← List.append_assoc, cursor_concat]
    refine after_eq_nil fun a ha => ?_
    rw [hsplit, hconcat] at ha h
    rw [← List.append_assoc] at ha h
    rcases List.mem_append.mp ha with ha | ha
    · exact Nat.le_of_lt ((List.pairwise_append.mp h).2.2 a ha b (List.mem_singleton_self b))
    · exact Nat.le_of_eq (congrArg seq (List.mem_singleton.mp ha))

end Empyralis.Lib.BoundedLog
