import Mathlib.Tactic.Ring

/-! Instants that are known by a function `next` to the first of them after an instant.

    `Slot next s` says that `s` is one of them. `latestIn next lo hi n t acc` asks for at most `n` of
    them from `t` on and keeps the last that lies in `(lo, hi]`; when they are more than `d` apart and
    `n` steps of `d` lead past `hi`, it is the last of all that lie there. -/

namespace Empyralis.NextSlot

/-- `next t` is the first slot strictly after `t`. -/
structure First (next : Int → Int) : Prop where
  after : ∀ t, t < next t
  first : ∀ t u, t ≤ u → u < next t → next u = next t

def Slot (next : Int → Int) (s : Int) : Prop := next (s - 1) = s

/-- Consecutive slots are more than `d` apart. -/
def Apart (next : Int → Int) (d : Int) : Prop := ∀ s, Slot next s → d < next s - s

/-- The candidates up to `hi`, at most `n` of them, without those up to `lo`. -/
def latestIn (next : Int → Int) (lo hi : Int) : Nat → Int → Option Int → Option Int
  | 0, _, latest => latest
  | n + 1, t, latest =>
    let candidate := next t
    if candidate ≤ lo then latestIn next lo hi n candidate latest
    else if hi < candidate then latest
    else latestIn next lo hi n candidate (some candidate)

/-- `s` is the last slot up to `t`, and it is after `lo`. -/
structure Latest (next : Int → Int) (lo t s : Int) : Prop where
  slot : Slot next s
  after : lo < s
  upTo : s ≤ t
  last : t < next s

/-- What a scan knows when it has come to `t`. -/
def Found (next : Int → Int) (lo t : Int) : Option Int → Prop
  | none => ∀ u, Slot next u → lo < u → t < u
  | some s => Latest next lo t s

variable {next : Int → Int} (hnext : First next)

include hnext

theorem slot_next (t : Int) : Slot next (next t) := by
  have ht : t < next t := hnext.after t
  exact hnext.first t (next t - 1) (by omega) (by omega)

theorem next_le {s t : Int} (hs : Slot next s) (hts : t < s) : next t ≤ s := by
  by_contra hlt
  have heq : next (s - 1) = next t := hnext.first t (s - 1) (by omega) (by omega)
  rw [hs] at heq
  omega

theorem apart_of_lt {d s u : Int} (hapart : Apart next d) (hs : Slot next s) (hu : Slot next u)
    (hsu : s < u) : d < u - s := by
  have hnear : d < next s - s := hapart s hs
  have hle : next s ≤ u := next_le hnext hu hsu
  omega

theorem Latest.le {lo t s u : Int} (h : Latest next lo t s) (hu : Slot next u) (hut : u ≤ t) :
    u ≤ s := by
  by_contra hlt
  have hnear : next s ≤ u := next_le hnext hu (by omega)
  have hpast : t < next s := h.last
  omega

/-- Nothing lies between `t` and the next slot. -/
theorem found_stop {lo t hi : Int} {acc : Option Int} (h : Found next lo t acc) (hthi : t ≤ hi)
    (hpast : hi < next t) : Found next lo hi acc := by
  cases acc with
  | none =>
    intro u hu hlo
    have hle : next t ≤ u := next_le hnext hu (h u hu hlo)
    omega
  | some s =>
    have hsame : next t = next s := hnext.first s t h.upTo h.last
    exact ⟨h.slot, h.after, by have hst : s ≤ t := h.upTo; omega, by omega⟩

/-- A candidate up to `lo` is passed over: nothing has been kept before it. -/
theorem found_skip {lo t : Int} {acc : Option Int} (h : Found next lo t acc) (hlow : next t ≤ lo) :
    Found next lo (next t) acc := by
  cases acc with
  | none =>
    intro u _ hlo
    omega
  | some s =>
    have hlo : lo < s := h.after
    have hst : s ≤ t := h.upTo
    have htn : t < next t := hnext.after t
    omega

/-- The scan is induction on the steps left: `n + 1` of them lead past `hi`. -/
theorem latestIn_found {lo hi d : Int} (hapart : Apart next d) (hlohi : lo ≤ hi) (n : Nat) :
    ∀ {t : Int} {acc : Option Int}, t ≤ hi → hi < next t + n * d → Found next lo t acc →
      Found next lo hi (latestIn next lo hi (n + 1) t acc) := by
  induction n with
  | zero =>
    intro t acc hthi hfar h
    have hpast : hi < next t := by simpa using hfar
    have hskip : ¬ next t ≤ lo := by omega
    simpa [latestIn, hskip, hpast] using found_stop hnext h hthi hpast
  | succ n ih =>
    intro t acc hthi hfar h
    have hslot : Slot next (next t) := slot_next hnext t
    have hstep : d < next (next t) - next t := hapart (next t) hslot
    have hreach : hi < next (next t) + n * d := by
      have hsum : ((n + 1 : Nat) : Int) * d = n * d + d := by push_cast; ring
      omega
    rw [latestIn]
    by_cases hlow : next t ≤ lo
    · simpa only [hlow, if_true] using ih (by omega) hreach (found_skip hnext h hlow)
    · by_cases hpast : hi < next t
      · simpa only [hlow, hpast, if_false, if_true] using found_stop hnext h hthi hpast
      · have hkept : Found next lo (next t) (some (next t)) :=
          ⟨hslot, by omega, le_refl _, hnext.after _⟩
        simpa only [hlow, hpast, if_false] using ih (by omega) hreach hkept

end Empyralis.NextSlot
