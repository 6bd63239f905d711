import Mathlib.Data.List.Basic

/-! Callbacks that run one after another on a promise chain.

    `tail = tail.then(fn, fn)` queues `fn` behind everything queued before it: `fn` starts only once
    the promise of the call before it has settled, by a value or by a rejection. The calls of one
    chain are kept as a list in the order in which they were queued, each with a state of its own in
    `τ`; `waiting` holds of a call whose callback has not started and `settled` of one whose promise
    has settled. `InTurn` is the discipline this gives: of two calls, the later one waits as long as
    the earlier one has not settled. So at most one call is ever in between. -/

namespace Empyralis.Chain

variable {τ : Type*}

/-! ### Replacing one entry of a list -/

theorem pairwise_set {R : τ → τ → Prop} {l : List τ} {k : Nat} {x : τ} (h : l.Pairwise R)
    (hbefore : ∀ i a, i < k → l[i]? = some a → R a x)
    (hafter : ∀ j b, k < j → l[j]? = some b → R x b) : (l.set k x).Pairwise R := by
  rw [List.pairwise_iff_getElem] at h ⊢
  intro i j hi hj hij
  rw [List.length_set] at hi hj
  rw [List.getElem_set, List.getElem_set]
  split_ifs with hki hkj hkj
  · omega
  · exact hafter j _ (by omega) (List.getElem?_eq_getElem hj)
  · exact hbefore i _ (by omega) (List.getElem?_eq_getElem hi)
  · exact h i j hi hj hij

theorem pairwise_getElem? {R : τ → τ → Prop} {l : List τ} (h : l.Pairwise R) {i j : Nat} {a b : τ}
    (hij : i < j) (ha : l[i]? = some a) (hb : l[j]? = some b) : R a b := by
  obtain ⟨hi, rfl⟩ := List.getElem?_eq_some_iff.mp ha
  obtain ⟨hj, rfl⟩ := List.getElem?_eq_some_iff.mp hb
  exact (List.pairwise_iff_getElem.mp h) i j hi hj hij

theorem getElem?_set_cases {l : List τ} {i k : Nat} {y z : τ} (h : (l.set i y)[k]? = some z) :
    (i = k ∧ y = z) ∨ (i ≠ k ∧ l[k]? = some z) := by
  by_cases hik : i = k
  · rw [List.getElem?_set, if_pos hik] at h
    split at h
    · exact Or.inl ⟨hik, Option.some.inj h⟩
    · simp at h
  · rw [List.getElem?_set_ne hik] at h
    exact Or.inr ⟨hik, h⟩

/-- An entry of the old list and the one in its place. -/
theorem getElem?_set_of {l : List τ} {i k : Nat} {x y : τ} (y' : τ) (hi : l[i]? = some x)
    (hk : l[k]? = some y) : (i = k ∧ x = y ∧ (l.set i y')[k]? = some y') ∨
      (i ≠ k ∧ (l.set i y')[k]? = some y) := by
  by_cases hik : i = k
  · subst hik
    obtain ⟨hlt, -⟩ := List.getElem?_eq_some_iff.mp hi
    exact Or.inl ⟨rfl, Option.some.inj (hi.symm.trans hk), List.getElem?_set_self hlt⟩
  · exact Or.inr ⟨hik, by rw [List.getElem?_set_ne hik, hk]⟩

theorem mem_set_or_eq {l : List τ} {i : Nat} {x y z : τ} (hi : l[i]? = some x) (hy : y ∈ l) :
    y = x ∨ y ∈ l.set i z := by
  obtain ⟨k, hk⟩ := List.mem_iff_getElem?.mp hy
  rcases getElem?_set_of z hi hk with ⟨-, rfl, -⟩ | ⟨-, hother⟩
  · exact .inl rfl
  · exact .inr (List.mem_of_getElem? hother)

theorem mem_modify_or {l : List τ} (f : τ → τ) {y : τ} (i : Nat) (hy : y ∈ l) :
    y ∈ l.modify i f ∨ f y ∈ l.modify i f := by
  obtain ⟨k, hk⟩ := List.mem_iff_getElem?.mp hy
  by_cases hik : i = k
  · subst hik
    exact .inr (List.mem_of_getElem? (by rw [List.getElem?_modify_eq, hk]; rfl))
  · exact .inl (List.mem_of_getElem? (by rw [List.getElem?_modify_ne _ _ hik, hk]))

theorem getElem?_modify_cases {l : List τ} {f : τ → τ} {i k : Nat} {z : τ} (h : (l.modify i f)[k]? = some z) :
    ∃ y, l[k]? = some y ∧ (i = k ∧ z = f y ∨ i ≠ k ∧ z = y) := by
  by_cases hik : i = k
  · subst hik
    rw [List.getElem?_modify_eq] at h
    obtain ⟨y, hy, rfl⟩ := Option.map_eq_some_iff.mp h
    exact ⟨y, hy, .inl ⟨rfl, rfl⟩⟩
  · rw [List.getElem?_modify_ne _ _ hik] at h
    exact ⟨z, h, .inr ⟨hik, rfl⟩⟩

/-- What an entry keeps when it is replaced, the list keeps. -/
theorem map_set_eq {α : Type*} {g : τ → α} {l : List τ} {i : Nat} {x z : τ} (hi : l[i]? = some x) (hz : g z = g x) :
    (l.set i z).map g = l.map g := by
  apply List.ext_getElem?
  intro k
  rw [List.getElem?_map, List.getElem?_map]
  by_cases hik : i = k
  · subst hik
    rw [List.getElem?_set_self (List.getElem?_eq_some_iff.mp hi).1, hi, Option.map_some, Option.map_some, hz]
  · rw [List.getElem?_set_ne hik]

theorem map_modify_eq {α : Type*} {g : τ → α} {f : τ → τ} (hf : ∀ x, g (f x) = g x) (l : List τ) (i : Nat) :
    (l.modify i f).map g = l.map g := by
  induction l generalizing i with
  | nil => simp
  | cons x rest ih =>
    cases i with
    | zero => simp [hf x]
    | succ i => simp [ih i]

theorem getElem?_snoc_cases {l : List τ} {k : Nat} {y z : τ} (h : (l ++ [y])[k]? = some z) :
    l[k]? = some z ∨ (l.length = k ∧ y = z) := by
  obtain ⟨hlt, hget⟩ := List.getElem?_eq_some_iff.mp h
  rw [List.length_append, List.length_singleton] at hlt
  rcases Nat.lt_or_ge k l.length with hk | hk
  · exact Or.inl (by rwa [List.getElem?_append_left hk] at h)
  · obtain rfl : l.length = k := by omega
    exact Or.inr ⟨rfl, by simpa using hget⟩

theorem getElem?_snoc_of {l : List τ} {k : Nat} {z : τ} (y : τ) (h : l[k]? = some z) :
    (l ++ [y])[k]? = some z := by
  obtain ⟨hlt, -⟩ := List.getElem?_eq_some_iff.mp h
  rw [List.getElem?_append_left hlt, h]

theorem filter_set (p : τ → Bool) {l : List τ} {i : Nat} {x : τ} (y : τ) (h : l[i]? = some x) :
    (l.set i y).filter p =
      (l.take i).filter p ++ (if p y then [y] else []) ++ (l.drop (i + 1)).filter p := by
  obtain ⟨hi, -⟩ := List.getElem?_eq_some_iff.mp h
  rw [List.set_eq_take_append_cons_drop, if_pos hi, List.filter_append, List.filter_cons]
  split <;> simp

theorem filter_split (p : τ → Bool) {l : List τ} {i : Nat} {x : τ} (h : l[i]? = some x) :
    l.filter p = (l.take i).filter p ++ (if p x then [x] else []) ++ (l.drop (i + 1)).filter p := by
  rw [← filter_set p x h]
  obtain ⟨hi, rfl⟩ := List.getElem?_eq_some_iff.mp h
  rw [List.set_getElem_self]

/-- An entry that the filter drops is replaced by another such entry. -/
theorem filter_keep {p : τ → Bool} {l : List τ} {i : Nat} {x y : τ} (h : l[i]? = some x)
    (hx : p x = false) (hy : p y = false) : (l.set i y).filter p = l.filter p := by
  simp [filter_set p y h, filter_split p h, hx, hy]

/-- Counting after one entry is replaced. -/
theorem countP_set_add (p : τ → Bool) {l : List τ} {i : Nat} {x : τ} (y : τ) (h : l[i]? = some x) :
    (l.set i y).countP p + (if p x then 1 else 0) = l.countP p + (if p y then 1 else 0) := by
  rw [List.countP_eq_length_filter, List.countP_eq_length_filter, filter_set p y h, filter_split p h]
  simp only [List.length_append]
  split_ifs <;> simp <;> omega

/-! ### The discipline of a chain -/

variable (waiting settled : τ → Bool)

/-- The callback at place `k` may start: nothing was queued before it, or the promise of the call
    before it has settled. -/
def ready (l : List τ) (k : Nat) : Bool :=
  k == 0 || (l[k - 1]?).any settled

/-- Of two calls on the chain the later one waits until the earlier one has settled. -/
def InTurn (l : List τ) : Prop :=
  l.Pairwise fun a b => settled a ∨ waiting b

variable {waiting settled} {l : List τ} {k : Nat} {x y : τ}

theorem inTurn_nil : InTurn waiting settled ([] : List τ) := List.Pairwise.nil

theorem inTurn_queue (h : InTurn waiting settled l) (hx : waiting x) :
    InTurn waiting settled (l ++ [x]) := by
  refine List.pairwise_append.mpr ⟨h, List.pairwise_singleton _ _, ?_⟩
  rintro a _ b hb
  rw [List.mem_singleton] at hb
  exact Or.inr (hb ▸ hx)

theorem before_settled (h : InTurn waiting settled l) (hk : l[k]? = some x) (hx : ¬ waiting x)
    {i : Nat} {a : τ} (hik : i < k) (ha : l[i]? = some a) : settled a :=
  (pairwise_getElem? h hik ha hk).resolve_right hx

theorem after_waiting (h : InTurn waiting settled l) (hk : l[k]? = some x) (hx : ¬ settled x)
    {j : Nat} {b : τ} (hkj : k < j) (hb : l[j]? = some b) : waiting b :=
  (pairwise_getElem? h hkj hk hb).resolve_left hx

/-- The call in progress may move on, settle or not: everything before it has settled and everything
    behind it waits. -/
theorem inTurn_step (h : InTurn waiting settled l) (hk : l[k]? = some x) (hw : ¬ waiting x)
    (hs : ¬ settled x) : InTurn waiting settled (l.set k y) :=
  pairwise_set h (fun _ _ hik ha => Or.inl (before_settled h hk hw hik ha))
    (fun _ _ hkj hb => Or.inr (after_waiting h hk hs hkj hb))

theorem ready_before (hdisj : ∀ a : τ, settled a → ¬ waiting a) (h : InTurn waiting settled l)
    (hr : ready settled l k) {i : Nat} {a : τ} (hik : i < k) (ha : l[i]? = some a) :
    settled a := by
  simp only [ready, Bool.or_eq_true, beq_iff_eq, Option.any_eq_true] at hr
  rcases hr with rfl | ⟨p, hp, hps⟩
  · omega
  rcases Nat.lt_or_ge i (k - 1) with hlt | hge
  · exact before_settled h hp (hdisj p hps) hlt ha
  · have hi : i = k - 1 := by omega
    rw [hi, hp, Option.some.injEq] at ha
    exact ha ▸ hps

/-- One call at most is in progress. -/
theorem busy_unique (h : InTurn waiting settled l) {i : Nat} (hk : l[k]? = some x)
    (hx : ¬ waiting x ∧ ¬ settled x) (hi : l[i]? = some y) (hy : ¬ waiting y ∧ ¬ settled y) :
    k = i := by
  rcases Nat.lt_trichotomy k i with hlt | heq | hgt
  · exact absurd (after_waiting h hk hx.2 hlt hi) hy.1
  · exact heq
  · exact absurd (after_waiting h hi hy.2 hgt hk) hx.1

/-- While a callback may start, none is in progress. -/
theorem ready_idle (hdisj : ∀ a : τ, settled a → ¬ waiting a) (h : InTurn waiting settled l)
    (hk : l[k]? = some x) (hw : waiting x) (hr : ready settled l k) {i : Nat}
    (hi : l[i]? = some y) : waiting y ∨ settled y := by
  rcases Nat.lt_trichotomy i k with hlt | heq | hgt
  · exact Or.inr (ready_before hdisj h hr hlt hi)
  · rw [heq, hk, Option.some.injEq] at hi
    exact Or.inl (hi ▸ hw)
  · exact Or.inl (after_waiting h hk (fun hs => hdisj x hs hw) hgt hi)

/-- The callback whose turn it is may start. -/
theorem inTurn_start (hdisj : ∀ a : τ, settled a → ¬ waiting a) (h : InTurn waiting settled l)
    (hk : l[k]? = some x) (hw : waiting x) (hr : ready settled l k) :
    InTurn waiting settled (l.set k y) := by
  have hs : ¬ settled x := fun hs => hdisj x hs hw
  exact pairwise_set h (fun _ _ hik ha => Or.inl (ready_before hdisj h hr hik ha))
    (fun _ _ hkj hb => Or.inr (after_waiting h hk hs hkj hb))

end Empyralis.Chain
