import Mathlib.Data.List.Infix

/-! The first occurrence of a part in a text, and what stands to the right of it.

    Two texts that are joined by a gap have no occurrence across the gap when no beginning of the part up to a gap can
    end the first text; then the first occurrence is that of the first text, or else that of the second. -/

namespace Empyralis.Occurrence

variable {α β : Type*} [DecidableEq α] [DecidableEq β]

def firstAt (part : List α) : List α → Option Nat
  | [] => if part = [] then some 0 else none
  | a :: text => if part.isPrefixOf (a :: text) then some 0 else (firstAt part text).map (· + 1)

def occurs (part text : List α) : Bool := (firstAt part text).isSome

/-- What follows the first occurrence, `some none` at the end of the text. -/
def firstRight (part text : List α) : Option (Option α) :=
  (firstAt part text).map fun i => (text.drop (i + part.length)).head?

/-- The part occurs; as a whole word, its first occurrence ends at a gap or at the end of the text. -/
def found (whole : Bool) (gap : α) (text part : List α) : Bool :=
  (firstRight part text).any fun after => after.all (· = gap) || !whole

/-- No beginning of the part up to a gap agrees with the ending. -/
def Apart (ending : List α) (gap : α) (part : List α) : Prop :=
  ∀ k < part.length, part[k]? = some gap → ¬part.take k <:+ ending ∧ ¬ending <:+ part.take k

instance (ending : List α) (gap : α) (part : List α) : Decidable (Apart ending gap part) :=
  inferInstanceAs (Decidable (∀ k < part.length, _ → _))

theorem firstAt_le {part : List α} : ∀ {text : List α} {i : Nat}, firstAt part text = some i →
    i + part.length ≤ text.length
  | [], i, h => by
    rw [firstAt, Option.ite_none_right_eq_some, Option.some.injEq] at h
    rw [h.1, ← h.2, List.length_nil]
  | a :: text, i, h => by
    rw [firstAt] at h
    split at h
    · rename_i hprefix
      cases h
      rw [Nat.zero_add]
      exact (List.isPrefixOf_iff_prefix.mp hprefix).length_le
    · obtain ⟨j, hj, rfl⟩ := Option.map_eq_some_iff.mp h
      have hle : j + part.length ≤ text.length := firstAt_le hj
      rw [List.length_cons]
      omega

/-- An occurrence up to the gap lies in the first text, one from the gap on in the second. -/
theorem firstAt_append_cons {ending part : List α} {gap : α} (hapart : Apart ending gap part) (b : List α) :
    ∀ {a : List α}, a <:+ ending ∨ ending <:+ a →
      firstAt part (a ++ gap :: b) = (firstAt part a).or ((firstAt part b).map (· + (a.length + 1))) := by
  intro a
  induction a with
  | nil =>
    intro _
    rw [List.nil_append, firstAt, firstAt]
    rcases part with - | ⟨p, part⟩
    · rfl
    · have hp : ¬(p :: part).isPrefixOf (gap :: b) = true := by
        rw [List.isPrefixOf_iff_prefix, List.cons_prefix_cons]
        rintro ⟨rfl, -⟩
        exact (hapart 0 (Nat.succ_pos _) rfl).1 (List.nil_suffix)
      rw [if_neg hp, if_neg (List.cons_ne_nil p part)]
      rfl
  | cons c a ih =>
    intro hends
    have htail : a <:+ ending ∨ ending <:+ a := by
      rcases hends with h | h
      · exact .inl ((List.suffix_cons c a).trans h)
      · rcases List.suffix_cons_iff.mp h with rfl | h
        · exact .inl (List.suffix_cons c a)
        · exact .inr h
    rw [List.cons_append, firstAt, firstAt]
    by_cases hprefix : part.isPrefixOf (c :: a) = true
    · have hlonger : part.isPrefixOf (c :: (a ++ gap :: b)) = true := List.isPrefixOf_iff_prefix.mpr
        ((List.isPrefixOf_iff_prefix.mp hprefix).trans (List.prefix_append (c :: a) (gap :: b)))
      rw [if_pos hprefix, if_pos hlonger]
      rfl
    · have hnone : ¬part.isPrefixOf (c :: (a ++ gap :: b)) = true := by
        rw [List.isPrefixOf_iff_prefix, ← List.cons_append]
        -- an occurrence from here on would reach over the gap
        rintro ⟨rest, hrest⟩
        rcases List.append_eq_append_iff.mp hrest with ⟨as, ha, -⟩ | ⟨bs, hpart, hbs⟩
        · exact hprefix (List.isPrefixOf_iff_prefix.mpr ⟨as, ha.symm⟩)
        · rcases bs with - | ⟨g, bs⟩
          · rw [List.append_nil] at hpart
            exact hprefix (by rw [hpart, List.isPrefixOf_iff_prefix])
          · obtain ⟨rfl, -⟩ := List.cons.inj hbs
            have hat : part[(c :: a).length]? = some gap := by
              rw [hpart, List.getElem?_append_right (Nat.le_refl _), Nat.sub_self]
              rfl
            have hlt : (c :: a).length < part.length := by
              rw [hpart, List.length_append]
              exact Nat.lt_add_of_pos_right (Nat.succ_pos _)
            obtain ⟨hleft, hright⟩ : ¬part.take (c :: a).length <:+ ending ∧ ¬ending <:+ part.take (c :: a).length :=
              hapart _ hlt hat
            rw [hpart, List.take_left] at hleft hright
            exact hends.elim hleft hright
      rw [if_neg hprefix, if_neg hnone, ih htail]
      cases firstAt part a with
      | some i => rfl
      | none =>
        rw [Option.none_or, Option.map_none, Option.none_or, Option.map_map]
        exact congrArg (Option.map · (firstAt part b)) (funext fun i => by
          show i + (a.length + 1) + 1 = i + ((c :: a).length + 1)
          rw [List.length_cons]; omega)

/-- The first occurrence in two texts is that of the first, where its end is now at the gap, or else that of the
    second. -/
theorem firstRight_append_cons {ending part a b : List α} {gap : α} (hapart : Apart ending gap part)
    (hends : ending <:+ a) :
    firstRight part (a ++ gap :: b) =
      ((firstRight part a).map fun after => some (after.getD gap)).or (firstRight part b) := by
  rw [firstRight, firstRight, firstRight, firstAt_append_cons hapart b (.inr hends)]
  cases ha : firstAt part a with
  | some i =>
    have hle : i + part.length ≤ a.length := firstAt_le ha
    rw [Option.some_or, Option.map_some, Option.map_some, Option.map_some, Option.some_or,
      List.drop_append_of_le_length hle]
    cases a.drop (i + part.length) with
    | nil => rfl
    | cons c rest => rfl
  | none =>
    rw [Option.none_or, Option.map_none, Option.map_none, Option.none_or, Option.map_map]
    cases firstAt part b with
    | none => rfl
    | some i =>
      have hdrop : (a ++ gap :: b).drop (i + (a.length + 1) + part.length) = b.drop (i + part.length) := by
        rw [List.drop_append, List.drop_eq_nil_of_le (by omega), List.nil_append,
          show i + (a.length + 1) + part.length - a.length = (i + part.length) + 1 by omega, List.drop_succ_cons]
      rw [Option.map_some, Option.map_some, Function.comp_apply, hdrop]

/-- What a search does that looks at the right of the first occurrence. -/
theorem found_eq (whole : Bool) (gap : α) (text part : List α) :
    found whole gap text part =
      match firstAt part text with
      | none => false
      | some pos =>
        let after := (text.drop (pos + part.length)).head?
        if after = none ∨ after = some gap then true else if whole then false else true := by
  rw [found, firstRight]
  cases firstAt part text with
  | none => rfl
  | some pos =>
    show ((text.drop (pos + part.length)).head?.all (· = gap) || !whole) = _
    dsimp only
    generalize (text.drop (pos + part.length)).head? = after
    cases after with
    | none => rfl
    | some c =>
      by_cases hc : c = gap
      · simp [hc]
      · cases whole <;> simp [hc]

/-- In two texts a part is found in the first, or in the second when it does not occur in the first. -/
theorem found_append_cons {ending part a b : List α} {gap : α} (whole : Bool) (hapart : Apart ending gap part)
    (hends : ending <:+ a) :
    found whole gap (a ++ gap :: b) part =
      (found whole gap a part || (!occurs part a && found whole gap b part)) := by
  rw [found, firstRight_append_cons hapart hends, found, found, occurs, firstRight, firstRight]
  cases firstAt part a with
  | none => simp
  | some i =>
    rw [Option.map_some, Option.map_some, Option.some_or, Option.any_some, Option.any_some, Option.isSome_some,
      Bool.not_true, Bool.false_and, Bool.or_false]
    cases (a.drop (i + part.length)).head? with
    | none => simp
    | some c => rfl

omit [DecidableEq α] [DecidableEq β] in
theorem prefix_of_map {f : α → β} {part : List α} : ∀ {text : List α},
    (∀ a ∈ part, ∀ b ∈ text, f a = f b → a = b) → part.map f <+: text.map f → part <+: text := by
  induction part with
  | nil => exact fun _ _ => List.nil_prefix
  | cons p part ih =>
    rintro (- | ⟨c, text⟩) hinj h
    · exact absurd (List.prefix_nil.mp h) (by simp)
    · rw [List.map_cons, List.map_cons, List.cons_prefix_cons] at h
      rw [List.cons_prefix_cons]
      exact ⟨hinj p (by simp) c (by simp) h.1,
        ih (fun a ha b hb => hinj a (List.mem_cons_of_mem p ha) b (List.mem_cons_of_mem c hb)) h.2⟩

/-- A change of letters that keeps those of the part apart from all others keeps the first occurrence. -/
theorem firstAt_map {f : α → β} {part text : List α} (hinj : ∀ a ∈ part, ∀ b ∈ text, f a = f b → a = b) :
    firstAt (part.map f) (text.map f) = firstAt part text := by
  induction text with
  | nil => simp [firstAt]
  | cons c text ih =>
    have hprefix : (part.map f).isPrefixOf ((c :: text).map f) = part.isPrefixOf (c :: text) := by
      rw [Bool.eq_iff_iff, List.isPrefixOf_iff_prefix, List.isPrefixOf_iff_prefix]
      exact ⟨prefix_of_map hinj, fun hpart => hpart.map f⟩
    rw [List.map_cons, firstAt, ← List.map_cons, hprefix, firstAt,
      ih fun a ha b hb => hinj a ha b (List.mem_cons_of_mem c hb)]

theorem found_map {f : α → β} {part text : List α} (gap : α) (whole : Bool)
    (hinj : ∀ a ∈ part, ∀ b ∈ text, f a = f b → a = b) (hgap : ∀ b ∈ text, f b = f gap → b = gap) :
    found whole (f gap) (text.map f) (part.map f) = found whole gap text part := by
  rw [found, firstRight, firstAt_map hinj, found, firstRight, List.length_map]
  cases firstAt part text with
  | none => rfl
  | some i =>
    rw [Option.map_some, Option.map_some, Option.any_some, Option.any_some, ← List.map_drop]
    cases hdrop : text.drop (i + part.length) with
    | nil => rfl
    | cons c rest =>
      have hc : c ∈ text := List.mem_of_mem_drop (hdrop ▸ List.mem_cons_self)
      have hiff : f c = f gap ↔ c = gap := ⟨hgap c hc, congrArg f⟩
      simp [hiff]

end Empyralis.Occurrence
