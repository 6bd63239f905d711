import Mathlib.Data.List.Basic

/-! Finite runs of a partial step function.

    A system is a function `step : σ → α → Option σ`: in state `s` the label `a` is enabled when
    `step s a` is `some t`, and then `t` is the next state. A run is the list of its labels, so one
    run is one interleaving. `Meets C` says that each step of a run is taken in a state and under a
    label that satisfy `C`; `run_inv` is the one induction over runs, and every invariant of a
    system is obtained from it and a step lemma. -/

namespace Empyralis.Run

variable {σ α : Type*} (step : σ → α → Option σ)

/-- The state after the labels, `none` as soon as one of them is not enabled. -/
def run : σ → List α → Option σ
  | s, [] => some s
  | s, a :: as => (step s a).bind fun t => run t as

/-- Each step of the run from `s` is taken where `C` holds. -/
def Meets (C : σ → α → Prop) : σ → List α → Prop
  | _, [] => True
  | s, a :: as => C s a ∧ (match step s a with | none => True | some t => Meets C t as)

instance decidableMeets (C : σ → α → Prop) [∀ s a, Decidable (C s a)] :
    ∀ (s : σ) (as : List α), Decidable (Meets step C s as)
  | _, [] => .isTrue trivial
  | s, a :: as => by
    unfold Meets
    cases step s a with
    | none => infer_instance
    | some t =>
      have := decidableMeets C t as
      infer_instance

@[simp] theorem run_nil (s : σ) : run step s [] = some s := rfl

@[simp] theorem run_cons (s : σ) (a : α) (as : List α) :
    run step s (a :: as) = (step s a).bind fun t => run step t as := rfl

theorem run_append (as bs : List α) : ∀ s : σ,
    run step s (as ++ bs) = (run step s as).bind fun t => run step t bs := by
  induction as with
  | nil => intro s; rfl
  | cons a as ih =>
    intro s
    cases h : step s a with
    | none => simp [h]
    | some t => simp [h, ih t]

variable {step} {C : σ → α → Prop}

theorem meets_cons {s t : σ} {a : α} {as : List α} (h : Meets step C s (a :: as))
    (hst : step s a = some t) : C s a ∧ Meets step C t as := by
  obtain ⟨hc, hm⟩ := h
  rw [hst] at hm
  exact ⟨hc, hm⟩

theorem meets_mono {D : σ → α → Prop} (hcd : ∀ s a, C s a → D s a) :
    ∀ {as : List α} {s : σ}, Meets step C s as → Meets step D s as
  | [], _, _ => trivial
  | a :: as, s, h => by
    refine ⟨hcd s a h.1, ?_⟩
    cases hst : step s a with
    | none => trivial
    | some t => exact meets_mono hcd (meets_cons h hst).2

theorem meets_of_forall {D : α → Prop} (as : List α) (h : ∀ a ∈ as, D a) (s : σ) :
    Meets step (fun _ a => D a) s as := by
  induction as generalizing s with
  | nil => exact trivial
  | cons a as ih =>
    obtain ⟨ha, has⟩ := List.forall_mem_cons.mp h
    refine ⟨ha, ?_⟩
    cases step s a with
    | none => trivial
    | some t => exact ih has t

/-- The second half of a run, from where the first half leads. -/
theorem meets_append {bs : List α} {t : σ} : ∀ {as : List α} {s : σ},
    Meets step C s (as ++ bs) → run step s as = some t → Meets step C t bs
  | [], s, h, hrun => by
    rw [run_nil, Option.some.injEq] at hrun
    exact hrun ▸ h
  | a :: as, s, h, hrun => by
    rw [run_cons, Option.bind_eq_some_iff] at hrun
    obtain ⟨u, hu, hrest⟩ := hrun
    exact meets_append (meets_cons h hu).2 hrest

/-- The first half of a run. -/
theorem meets_prefix {bs : List α} : ∀ {as : List α} {s : σ}, Meets step C s (as ++ bs) → Meets step C s as
  | [], _, _ => trivial
  | a :: as, s, h => by
    refine ⟨h.1, ?_⟩
    cases hst : step s a with
    | none => trivial
    | some t => exact meets_prefix (meets_cons h hst).2

/-- What every step that meets `C` preserves, every run whose steps meet `C` preserves. -/
theorem run_inv {I : σ → Prop} (hstep : ∀ s a t, I s → C s a → step s a = some t → I t) :
    ∀ {as : List α} {s t : σ}, Meets step C s as → I s → run step s as = some t → I t
  | [], s, t, _, hs, h => by
    rw [run_nil, Option.some.injEq] at h
    exact h ▸ hs
  | a :: as, s, t, hm, hs, h => by
    rw [run_cons, Option.bind_eq_some_iff] at h
    obtain ⟨u, hu, hrest⟩ := h
    obtain ⟨hc, hm'⟩ := meets_cons hm hu
    exact run_inv hstep hm' (hstep s a u hs hc hu) hrest

/-- What every step preserves, every run preserves. -/
theorem run_inv_all {I : σ → Prop} (hstep : ∀ s a t, I s → step s a = some t → I t)
    {as : List α} {s t : σ} (hs : I s) (h : run step s as = some t) : I t :=
  run_inv (C := fun _ _ => True) (fun s a t hi _ hst => hstep s a t hi hst)
    (meets_of_forall as (fun _ _ => trivial) s) hs h

/-- What holds of each step taken where `I` and `C` hold holds of each step of a run, when `I` holds
    at its start and the steps that meet `C` preserve it. -/
theorem meets_inv {I : σ → Prop} {D : σ → α → Prop}
    (hstep : ∀ s a t, I s → C s a → step s a = some t → I t)
    (hd : ∀ s a, I s → C s a → D s a) :
    ∀ {as : List α} {s : σ}, I s → Meets step C s as → Meets step D s as
  | [], _, _, _ => trivial
  | a :: as, s, hs, h => by
    refine ⟨hd s a hs h.1, ?_⟩
    cases hst : step s a with
    | none => trivial
    | some t => exact meets_inv hstep hd (hstep s a t hs h.1 hst) (meets_cons h hst).2

/-- `P` holds of every state that a run comes to exactly when its steps meet `C`: the steps that do
    preserve an invariant that has `P`, and one that does not leads where `P` fails. -/
theorem all_iff_meets {I P : σ → Prop} {L : α → Prop} (hp : ∀ s, I s → P s)
    (hstep : ∀ s a t, I s → L a → C s a → step s a = some t → I t)
    (hback : ∀ s a, I s → L a → (∀ t, step s a = some t → P t) → C s a) :
    ∀ {as : List α} {s : σ}, I s → (∀ a ∈ as, L a) →
      ((∀ bs t, bs <+: as → run step s bs = some t → P t) ↔ Meets step C s as)
  | [], s, hs, _ => by
    refine ⟨fun _ => trivial, fun _ bs t hbs hrun => ?_⟩
    rw [List.prefix_nil.mp hbs, run_nil, Option.some.injEq] at hrun
    exact hrun ▸ hp s hs
  | a :: as, s, hs, hl => by
    obtain ⟨ha, has⟩ := List.forall_mem_cons.mp hl
    constructor
    · intro h
      have hfirst : C s a := by
        refine hback s a hs ha fun t hst => h [a] t (List.prefix_append [a] as) ?_
        simp [hst]
      refine ⟨hfirst, ?_⟩
      cases hst : step s a with
      | none => trivial
      | some t =>
        refine (all_iff_meets hp hstep hback (hstep s a t hs ha hfirst hst) has).mp ?_
        intro bs u hbs hrun
        exact h (a :: bs) u (List.cons_prefix_cons.mpr ⟨rfl, hbs⟩) (by simp [hst, hrun])
    · intro h bs t hbs hrun
      cases bs with
      | nil =>
        rw [run_nil, Option.some.injEq] at hrun
        exact hrun ▸ hp s hs
      | cons b bs =>
        obtain ⟨rfl, hrest⟩ := List.cons_prefix_cons.mp hbs
        rw [run_cons, Option.bind_eq_some_iff] at hrun
        obtain ⟨u, hst, hrun⟩ := hrun
        obtain ⟨hc, hm⟩ := meets_cons h hst
        exact (all_iff_meets hp hstep hback (hstep s b u hs ha hc hst) has).mpr hm bs t hrest hrun

end Empyralis.Run
