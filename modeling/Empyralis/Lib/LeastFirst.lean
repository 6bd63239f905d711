import Mathlib.Data.Fintype.Basic
import Mathlib.Data.List.Basic
import Mathlib.Logic.Relation
import Mathlib.Order.Bounds.Basic
import Mathlib.Order.WellFounded
import Mathlib.Order.Preorder.Finite

/-! Topological orders that take, of the elements whose dependencies have all been taken, the least one first.

    Such an order is built one element after the other, and each is determined by the set of those before it, so
    two orders that cannot be continued are the same. They leave no element out just when nothing depends on
    itself. -/

namespace Empyralis.LeastFirst

variable {α : Type*} (V : Set α) (dep : α → α → Prop)

/-- `n` can be taken after `out`. -/
def Ready (out : List α) (n : α) : Prop := n ∈ V ∧ n ∉ out ∧ ∀ d, dep n d → d ∈ out

/-- Nothing is left that could be taken. -/
def Maximal (out : List α) : Prop := ∀ n, ¬Ready V dep out n

/-- Where nothing depends on itself something can always be taken. -/
theorem exists_ready {V : Set α} {dep : α → α → Prop} (hfinite : V.Finite) (hclosed : ∀ n ∈ V, ∀ d, dep n d → d ∈ V)
    (hacyclic : ∀ n, ¬Relation.TransGen dep n n) {out : List α} {n : α} (hn : n ∈ V) (hout : n ∉ out) :
    ∃ m, Ready V dep out m := by
  have hrest : Finite {m // m ∈ V ∧ m ∉ out} := (hfinite.subset fun _ h => h.1).to_subtype
  let below (a b : {m // m ∈ V ∧ m ∉ out}) : Prop := Relation.TransGen dep b.1 a.1
  have htrans : IsTrans _ below := ⟨fun a b c hab hbc => hbc.trans hab⟩
  have hirrefl : Std.Irrefl below := ⟨fun a => hacyclic a.1⟩
  have hwf : WellFounded below := Finite.wellFounded_of_trans_of_irrefl below
  obtain ⟨⟨m, hm, hmout⟩, -, hleast⟩ := hwf.has_min Set.univ ⟨⟨n, hn, hout⟩, trivial⟩
  refine ⟨m, hm, hmout, fun d hd => ?_⟩
  by_contra hdout
  exact hleast ⟨d, hclosed m hm d hd, hdout⟩ trivial (.single hd)

variable [PartialOrder α]

inductive Greedy : List α → Prop where
  | nil : Greedy []
  | pick {out : List α} {n : α} (hout : Greedy out) (hn : IsLeast {m | Ready V dep out m} n) : Greedy (out ++ [n])

variable {V dep}

theorem Greedy.subset {out : List α} (h : Greedy V dep out) : ∀ n ∈ out, n ∈ V := by
  induction h with
  | nil => simp
  | pick hout hn ih =>
    intro m hm
    rcases List.mem_append.mp hm with hm | hm
    · exact ih m hm
    · rw [List.mem_singleton.mp hm]
      exact hn.1.1

theorem Greedy.nodup {out : List α} (h : Greedy V dep out) : out.Nodup := by
  induction h with
  | nil => exact List.nodup_nil
  | pick hout hn ih => exact List.nodup_append.mpr ⟨ih, List.nodup_singleton _, fun a ha b hb heq => by
      rw [List.mem_singleton.mp hb] at heq
      exact hn.1.2.1 (heq ▸ ha)⟩

/-- Each element comes after its dependencies. -/
theorem Greedy.deps_mem {out : List α} (h : Greedy V dep out) :
    ∀ {front back : List α} {n : α}, out = front ++ n :: back → ∀ d, dep n d → d ∈ front := by
  induction h with
  | nil =>
    intro front back n heq
    simp at heq
  | @pick out m hout hm ih =>
    intro front back n heq d hd
    rcases List.eq_nil_or_concat back with rfl | ⟨rest, last, rfl⟩
    · obtain ⟨rfl, hlast⟩ := List.append_inj' heq rfl
      rw [List.singleton_inj] at hlast
      exact hm.1.2.2 d (hlast ▸ hd)
    · rw [List.concat_eq_append, ← List.cons_append, ← List.append_assoc] at heq
      exact ih (List.append_inj' heq rfl).1 d hd

/-! ### There is one -/

theorem Greedy.of_concat {out : List α} {n : α} (h : Greedy V dep (out ++ [n])) :
    Greedy V dep out ∧ IsLeast {m | Ready V dep out m} n := by
  generalize hlist : out ++ [n] = list at h
  cases h with
  | nil => simp at hlist
  | pick hout hn =>
    obtain ⟨rfl, heq⟩ := List.append_inj' hlist rfl
    rw [List.singleton_inj] at heq
    exact ⟨hout, heq ▸ hn⟩

theorem Greedy.eq_of_length {a : List α} (ha : Greedy V dep a) :
    ∀ {b : List α}, Greedy V dep b → a.length = b.length → a = b := by
  induction ha with
  | nil =>
    intro b _ hlen
    exact (List.length_eq_zero_iff.mp hlen.symm).symm
  | pick hout hn ih =>
    intro b hb hlen
    cases hb with
    | nil => simp at hlen
    | pick hout' hn' =>
      obtain rfl := ih hout' (by simpa using hlen)
      rw [hn.unique hn']

theorem Greedy.take {out : List α} (h : Greedy V dep out) : ∀ k, Greedy V dep (out.take k) := by
  induction h with
  | nil => intro k; simpa using Greedy.nil
  | @pick out n hout hn ih =>
    intro k
    rcases le_or_gt k out.length with hle | hlt
    · rw [List.take_append_of_le_length hle]
      exact ih k
    · rw [List.take_of_length_le (by rw [List.length_append, List.length_singleton]; exact hlt)]
      exact .pick hout hn

theorem Greedy.length_le {a b : List α} (ha : Greedy V dep a) (hmax : Maximal V dep a) (hb : Greedy V dep b) :
    b.length ≤ a.length := by
  by_contra hlt
  rw [not_le] at hlt
  have heq : a = b.take a.length := ha.eq_of_length (hb.take _) (by rw [List.length_take, min_eq_left hlt.le])
  have hnext := hb.take (a.length + 1)
  rw [List.take_add_one, List.getElem?_eq_getElem hlt, Option.toList_some, ← heq] at hnext
  exact hmax _ hnext.of_concat.2.1

theorem Greedy.unique {a b : List α} (ha : Greedy V dep a) (hb : Greedy V dep b) (hamax : Maximal V dep a)
    (hbmax : Maximal V dep b) : a = b :=
  ha.eq_of_length hb (le_antisymm (hb.length_le hbmax ha) (ha.length_le hamax hb))

/-! ### What it leaves out -/

/-- Each element comes after all that it depends on, directly or not. -/
theorem Greedy.transGen_mem {out front back : List α} {n : α} (h : Greedy V dep out) (heq : out = front ++ n :: back)
    {m : α} (hm : Relation.TransGen dep n m) : m ∈ front := by
  induction hm with
  | single hd => exact h.deps_mem heq _ hd
  | tail _ hd ih =>
    obtain ⟨before, after, rfl⟩ := List.append_of_mem ih
    have hmem := h.deps_mem (heq.trans (by rw [List.append_assoc, List.cons_append])) _ hd
    exact List.mem_append_left _ hmem

theorem Greedy.not_cyclic {out : List α} {n : α} (h : Greedy V dep out) (hn : n ∈ out) :
    ¬Relation.TransGen dep n n := by
  intro hcycle
  obtain ⟨front, back, rfl⟩ := List.append_of_mem hn
  have hmem := h.transGen_mem rfl hcycle
  exact (List.nodup_append.mp h.nodup).2.2 n hmem n (List.mem_cons_self ..) rfl

/-- All is taken just when nothing depends on itself. -/
theorem covers_iff (hfinite : V.Finite) (hdep : ∀ n d, dep n d → n ∈ V ∧ d ∈ V) {out : List α}
    (h : Greedy V dep out) (hmax : Maximal V dep out) :
    (∀ n ∈ V, n ∈ out) ↔ ∀ n, ¬Relation.TransGen dep n n := by
  constructor
  · intro hcovers n hcycle
    obtain ⟨d, hd, -⟩ := Relation.TransGen.head'_iff.mp hcycle
    exact h.not_cyclic (hcovers n (hdep n d hd).1) hcycle
  · intro hacyclic n hn
    by_contra hout
    obtain ⟨m, hm⟩ := exists_ready hfinite (fun k _ d hd => (hdep k d hd).2) hacyclic hn hout
    exact hmax m hm

end Empyralis.LeastFirst
