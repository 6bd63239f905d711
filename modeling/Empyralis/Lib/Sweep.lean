import Mathlib.Data.List.Basic
import Mathlib.Data.List.Nodup

/-! A sweep over a state: for one group after the other its rows are listed, and each that was listed is visited.

    A visit changes the listing of no group but its row's own, and each group is listed before it is visited, so
    that what is listed is what the state had at the start. -/

namespace Empyralis.Sweep

variable {σ κ ρ : Type*} (listing : σ → κ → List ρ) (visit : σ → ρ → σ)

/-- What has been listed, and the state after the visits. -/
def sweep (s : σ) : List κ → List ρ × σ
  | [] => ([], s)
  | k :: ks =>
    let rest := sweep ((listing s k).foldl visit s) ks
    (listing s k ++ rest.1, rest.2)

variable {listing visit} {group : ρ → κ}

theorem listing_foldl (hvisit : ∀ s r k, group r ≠ k → listing (visit s r) k = listing s k) {k : κ} :
    ∀ (rs : List ρ) (s : σ), (∀ r ∈ rs, group r ≠ k) → listing (rs.foldl visit s) k = listing s k
  | [], _, _ => rfl
  | r :: rs, s, h => by
    obtain ⟨hr, hrs⟩ := List.forall_mem_cons.mp h
    rw [List.foldl_cons, listing_foldl hvisit rs (visit s r) hrs, hvisit s r k hr]

theorem sweep_fst (hgroup : ∀ s k r, r ∈ listing s k → group r = k)
    (hvisit : ∀ s r k, group r ≠ k → listing (visit s r) k = listing s k) :
    ∀ (ks : List κ) (s : σ), ks.Nodup → (sweep listing visit s ks).1 = ks.flatMap (listing s)
  | [], _, _ => rfl
  | k :: ks, s, hnodup => by
    obtain ⟨hk, hks⟩ := List.nodup_cons.mp hnodup
    have hsame : ∀ k' ∈ ks, listing ((listing s k).foldl visit s) k' = listing s k' := by
      intro k' hk'
      refine listing_foldl hvisit _ s fun r hr heq => hk ?_
      rw [← hgroup s k r hr, heq]
      exact hk'
    have hrest := sweep_fst hgroup hvisit ks ((listing s k).foldl visit s) hks
    rw [List.flatMap_def, List.map_congr_left hsame, ← List.flatMap_def] at hrest
    rw [sweep, List.flatMap_cons]
    exact congrArg (listing s k ++ ·) hrest

/-- What each visit keeps, the sweep keeps. -/
theorem sweep_inv {I : σ → Prop} (hstep : ∀ s r, I s → I (visit s r)) :
    ∀ (ks : List κ) (s : σ), I s → I (sweep listing visit s ks).2
  | [], _, h => h
  | _ :: ks, _, h => sweep_inv hstep ks _ (List.foldlRecOn _ visit h fun t ht r _ => hstep t r ht)

/-! ### How often a row is listed -/

variable {α : Type*} [DecidableEq α] [DecidableEq κ]

/-- Where rows of one name are of one group, that group decides how often a row is listed. -/
theorem count_flatMap (group : ρ → κ) (name : ρ → α) {found : κ → List ρ} {r : ρ}
    (hname : ∀ k, ∀ r' ∈ found k, name r' = name r → k = group r) :
    ∀ ks : List κ, ks.Nodup → ((ks.flatMap found).map name).count (name r) =
      if group r ∈ ks then ((found (group r)).map name).count (name r) else 0 := by
  intro ks hnodup
  induction ks with
  | nil => rfl
  | cons k ks ih =>
    obtain ⟨hk, hks⟩ := List.nodup_cons.mp hnodup
    rw [List.flatMap_cons, List.map_append, List.count_append, ih hks]
    by_cases heq : k = group r
    · subst heq
      rw [if_neg hk, if_pos (List.mem_cons_self ..), Nat.add_zero]
    · have hzero : ((found k).map name).count (name r) = 0 := by
        refine List.count_eq_zero.mpr fun hmem => heq ?_
        obtain ⟨r', hr', hsame⟩ := List.mem_map.mp hmem
        exact hname k r' hr' hsame
      rw [hzero, Nat.zero_add]
      simp [Ne.symm heq]

end Empyralis.Sweep
