import Mathlib.Data.List.DropRight

/-! The words of a text, which are the pieces between white space, and the text that they make with single gaps. -/

namespace Empyralis.Words

variable {α β : Type*} (space : α → Bool) (gap : α)

def words (text : List α) : List (List α) := (text.splitOnP space).filter fun word => !word.isEmpty

/-- The text with each run of white space made one gap, and none at its ends. -/
def collapse (text : List α) : List α := [gap].intercalate (words space text)

variable {space gap}

@[simp] theorem words_nil : words space [] = [] := rfl

theorem words_append_cons {sep : α} (hsep : space sep = true) (a b : List α) :
    words space (a ++ sep :: b) = words space a ++ words space b := by
  rw [words, List.splitOnP_append_cons _ _ hsep, List.filter_append]
  rfl

theorem words_cons_of_space {sep : α} (hsep : space sep = true) (b : List α) :
    words space (sep :: b) = words space b := by
  simpa using words_append_cons hsep [] b

/-- What stands before the next white space is one word. -/
theorem words_of_forall {a : List α} (ha : ∀ x ∈ a, space x = false) (hne : a ≠ []) : words space a = [a] := by
  rw [words, List.splitOnP_eq_singleton ha]
  simp [hne]

theorem words_cons {c : α} (hc : space c = false) (text : List α) :
    ∃ w ws, words space (c :: text) = (c :: w) :: ws ∧ words space text = if w = [] then ws else w :: ws := by
  obtain ⟨first, rest, hsplit⟩ := List.exists_cons_of_ne_nil (List.splitOnP_ne_nil space text)
  refine ⟨first, rest.filter fun word => !word.isEmpty, ?_, ?_⟩
  · rw [words, List.splitOnP_cons_eq_if_modifyHead, if_neg (by simp [hc]), hsplit]
    rfl
  · rw [words, hsplit]
    split
    · rename_i hfirst
      rw [hfirst]
      rfl
    · rename_i hfirst
      rw [List.filter_cons_of_pos (by simpa using hfirst)]

theorem mem_words {text word : List α} (h : word ∈ words space text) :
    word ≠ [] ∧ ∀ x ∈ word, space x = false := by
  induction text generalizing word with
  | nil => cases h
  | cons c text ih =>
    by_cases hc : space c = true
    · rw [words_cons_of_space hc] at h
      exact ih h
    · rw [Bool.not_eq_true] at hc
      obtain ⟨w, ws, hcons, htail⟩ := words_cons hc text
      rw [hcons, List.mem_cons] at h
      rw [htail] at ih
      rcases h with rfl | h
      · refine ⟨List.cons_ne_nil c w, fun x hx => ?_⟩
        rcases List.mem_cons.mp hx with rfl | hx
        · exact hc
        · have hw : w ≠ [] := List.ne_nil_of_mem hx
          rw [if_neg hw] at ih
          exact (ih List.mem_cons_self).2 x hx
      · split at ih
        · exact ih h
        · exact ih (List.mem_cons_of_mem w h)

theorem subset_words {text word : List α} (h : word ∈ words space text) : word ⊆ text := by
  induction text generalizing word with
  | nil => cases h
  | cons c text ih =>
    by_cases hc : space c = true
    · rw [words_cons_of_space hc] at h
      exact fun x hx => List.mem_cons_of_mem c (ih h hx)
    · rw [Bool.not_eq_true] at hc
      obtain ⟨w, ws, hcons, htail⟩ := words_cons hc text
      rw [hcons, List.mem_cons] at h
      rw [htail] at ih
      rcases h with rfl | h
      · intro x hx
        rcases List.mem_cons.mp hx with rfl | hx
        · exact List.mem_cons_self
        · rw [if_neg (List.ne_nil_of_mem hx)] at ih
          exact List.mem_cons_of_mem c (ih List.mem_cons_self hx)
      · intro x hx
        split at ih
        · exact List.mem_cons_of_mem c (ih h hx)
        · exact List.mem_cons_of_mem c (ih (List.mem_cons_of_mem w h) hx)

theorem mem_collapse {text : List α} {x : α} (h : x ∈ collapse space gap text) : x = gap ∨ x ∈ text := by
  have hwords : ∀ word ∈ words space text, word ⊆ text := fun word => subset_words
  rw [collapse] at h
  generalize words space text = ws at h hwords
  induction ws with
  | nil => cases h
  | cons w ws ih =>
    obtain ⟨hw, hws⟩ := List.forall_mem_cons.mp hwords
    rcases ws with - | ⟨u, us⟩
    · rw [List.intercalate_singleton] at h
      exact .inr (hw h)
    · rw [List.intercalate_cons_cons, List.mem_append, List.mem_append] at h
      rcases h with (h | h) | h
      · exact .inr (hw h)
      · exact .inl (List.mem_singleton.mp h)
      · exact ih h hws

/-- The word that a text goes on with is empty when white space comes next. -/
theorem words_cons_head {c d : α} (hc : space c = false) (text : List α) :
    words space (c :: d :: text) =
      if space d then [c] :: words space (d :: text) else (words space (d :: text)).modifyHead (c :: ·) := by
  by_cases hd : space d = true
  · rw [if_pos hd, ← List.singleton_append, words_append_cons hd, words_of_forall (by simpa using hc) (by simp),
      words_cons_of_space hd]
    rfl
  · obtain ⟨first, rest, hsplit⟩ := List.exists_cons_of_ne_nil (List.splitOnP_ne_nil space text)
    rw [if_neg hd, words, List.splitOnP_cons_eq_if_modifyHead, if_neg (by simp [hc]), words,
      List.splitOnP_cons_eq_if_modifyHead, if_neg hd, hsplit]
    rfl

/-- The end of a text without white space ends its last word. -/
theorem words_append {ending : List α} (hending : ∀ x ∈ ending, space x = false) (hne : ending ≠ []) (text : List α) :
    ∃ ws w, words space (text ++ ending) = ws ++ [w ++ ending] := by
  induction text with
  | nil => exact ⟨[], [], words_of_forall hending hne⟩
  | cons c text ih =>
    obtain ⟨ws, w, hwords⟩ := ih
    by_cases hc : space c = true
    · exact ⟨ws, w, by rw [List.cons_append, words_cons_of_space hc, hwords]⟩
    · rw [Bool.not_eq_true] at hc
      obtain ⟨v, vs, hcons, htail⟩ := words_cons hc (text ++ ending)
      rw [hwords] at htail
      rw [List.cons_append, hcons]
      split at htail
      · rename_i hv
        exact ⟨[c] :: ws, w, by rw [← htail, hv]; rfl⟩
      · rcases ws with - | ⟨u, us⟩
        · obtain ⟨rfl, rfl⟩ := List.cons.inj htail
          exact ⟨[], c :: w, rfl⟩
        · obtain ⟨rfl, rfl⟩ := List.cons.inj htail
          exact ⟨(c :: u) :: us, w, rfl⟩

/-- White space at the ends is no word. -/
theorem words_dropWhile (text : List α) : words space (text.dropWhile space) = words space text := by
  induction text with
  | nil => rfl
  | cons c text ih =>
    by_cases hc : space c = true
    · rw [List.dropWhile_cons_of_pos hc, ih, words_cons_of_space hc]
    · rw [List.dropWhile_cons_of_neg hc]

theorem words_rdropWhile (text : List α) : words space (text.rdropWhile space) = words space text := by
  induction text using List.reverseRecOn with
  | nil => rfl
  | append_singleton text c ih =>
    by_cases hc : space c = true
    · rw [List.rdropWhile_concat_pos _ _ _ hc, ih, words_append_cons hc, words_nil, List.append_nil]
    · rw [List.rdropWhile_concat_neg _ _ _ hc]

theorem splitOnP_map {other : β → Bool} {f : α → β} {text : List α} (h : ∀ x ∈ text, other (f x) = space x) :
    (text.map f).splitOnP other = (text.splitOnP space).map (List.map f) := by
  induction text with
  | nil => rfl
  | cons c text ih =>
    have htext : (text.map f).splitOnP other = (text.splitOnP space).map (List.map f) :=
      ih fun x hx => h x (List.mem_cons_of_mem c hx)
    rw [List.map_cons, List.splitOnP_cons_eq_if_modifyHead, List.splitOnP_cons_eq_if_modifyHead,
      h c List.mem_cons_self, htext]
    split
    · rfl
    · cases text.splitOnP space with
      | nil => rfl
      | cons w ws => rfl

theorem words_map {other : β → Bool} {f : α → β} {text : List α} (h : ∀ x ∈ text, other (f x) = space x) :
    words other (text.map f) = (words space text).map (List.map f) := by
  rw [words, splitOnP_map h, List.filter_map, words]
  congr 1
  exact List.filter_congr fun w _ => by simp

theorem intercalate_append {ws vs : List (List α)} (hws : ws ≠ []) (hvs : vs ≠ []) :
    [gap].intercalate (ws ++ vs) = [gap].intercalate ws ++ gap :: [gap].intercalate vs := by
  induction ws with
  | nil => exact absurd rfl hws
  | cons w ws ih =>
    rcases ws with - | ⟨u, us⟩
    · obtain ⟨v, rest, rfl⟩ := List.exists_cons_of_ne_nil hvs
      simp
    · have htail := ih (List.cons_ne_nil u us)
      rw [List.cons_append, List.cons_append, List.intercalate_cons_cons, List.intercalate_cons_cons,
        ← List.cons_append, htail]
      simp

theorem words_collapse (hgap : space gap = true) (text : List α) :
    words space (collapse space gap text) = words space text := by
  rw [collapse]
  have hwords : ∀ word ∈ words space text, word ≠ [] ∧ ∀ x ∈ word, space x = false := fun word => mem_words
  generalize words space text = ws at hwords
  induction ws with
  | nil => rfl
  | cons w ws ih =>
    obtain ⟨⟨hw, hspace⟩, hrest⟩ := List.forall_mem_cons.mp hwords
    rcases ws with - | ⟨u, us⟩
    · rw [List.intercalate_singleton, words_of_forall hspace hw]
    · have hjoin : [gap].intercalate ([w] ++ u :: us) = w ++ gap :: [gap].intercalate (u :: us) := by
        rw [intercalate_append (List.cons_ne_nil w []) (List.cons_ne_nil u us), List.intercalate_singleton]
      rw [List.singleton_append] at hjoin
      rw [hjoin, words_append_cons hgap, ih hrest, words_of_forall hspace hw]
      rfl

/-- Two texts with white space between them collapse apart. -/
theorem collapse_append_cons (gap : α) {sep : α} (hsep : space sep = true) {a b : List α} (ha : words space a ≠ [])
    (hb : words space b ≠ []) :
    collapse space gap (a ++ sep :: b) = collapse space gap a ++ gap :: collapse space gap b := by
  rw [collapse, words_append_cons hsep, intercalate_append ha hb]
  rfl

theorem suffix_collapse {ending : List α} (hending : ∀ x ∈ ending, space x = false) (hne : ending ≠ [])
    (text : List α) : ending <:+ collapse space gap (text ++ ending) := by
  obtain ⟨ws, w, hwords⟩ := words_append hending hne text
  rw [collapse, hwords]
  rcases ws with - | ⟨u, us⟩
  · rw [List.nil_append, List.intercalate_singleton]
    exact List.suffix_append w ending
  · rw [intercalate_append (List.cons_ne_nil u us) (List.cons_ne_nil _ _), List.intercalate_singleton]
    exact (List.suffix_append w ending).trans ((List.suffix_cons gap _).trans (List.suffix_append _ _))

theorem collapse_eq_nil {text : List α} (h : words space text = []) : collapse space gap text = [] := by
  rw [collapse, h]
  rfl

theorem collapse_collapse (hgap : space gap = true) (text : List α) :
    collapse space gap (collapse space gap text) = collapse space gap text := by
  rw [collapse, words_collapse hgap]
  rfl

theorem collapse_map (gap : α) {other : β → Bool} {f : α → β} {text : List α} (h : ∀ x ∈ text, other (f x) = space x) :
    collapse other (f gap) (text.map f) = (collapse space gap text).map f := by
  rw [collapse, words_map h, collapse]
  induction words space text with
  | nil => rfl
  | cons w ws ih =>
    rcases ws with - | ⟨u, us⟩
    · simp
    · have hrest : [f gap].intercalate ((u :: us).map (List.map f)) = ([gap].intercalate (u :: us)).map f := ih
      rw [List.map_cons, List.map_cons, List.intercalate_cons_cons, ← List.map_cons, hrest,
        List.intercalate_cons_cons, List.map_append, List.map_append]
      rfl

end Empyralis.Words
