import Mathlib.Algebra.Order.Group.Defs
import Mathlib.Data.List.Basic

/-! Events that are counted in fixed windows.

    A window begins with its first event, and the next begins with the first event that is at least the width later. An
    interval of the width meets two windows at most, and of the first of the two it misses the beginning. -/

namespace Empyralis.FixedWindow

variable {T : Type*} [AddCommGroup T] [LinearOrder T] (width : T) (limit : Nat)

/-- A window with its events, of which the first is named. -/
structure Window where
  start : T
  later : List T
  size : later.length < limit
  inside : ∀ t ∈ later, start ≤ t ∧ t < start + width

variable {width limit}

def Window.events (w : Window width limit) : List T := w.start :: w.later

def events (ws : List (Window width limit)) : List T := ws.flatMap Window.events

/-- Each window begins when those before it have ended. -/
def Apart (ws : List (Window width limit)) : Prop := ws.Pairwise fun v w => v.start + width ≤ w.start

/-- The events from a moment on until the width later. -/
def within (width x : T) (ts : List T) : Nat := ts.countP fun t => x ≤ t && t < x + width

theorem within_append (x : T) (ss ts : List T) : within width x (ss ++ ts) = within width x ss + within width x ts :=
  List.countP_append

theorem events_cons (w : Window width limit) (ws : List (Window width limit)) :
    events (w :: ws) = w.events ++ events ws := List.flatMap_cons

theorem Window.within_le (w : Window width limit) (x : T) : within width x w.events ≤ limit :=
  List.countP_le_length.trans w.size

theorem Window.start_le {w : Window width limit} {t : T} (ht : t ∈ w.events) : w.start ≤ t := by
  rcases List.mem_cons.mp ht with rfl | ht
  · exact le_refl _
  · exact (w.inside t ht).1

theorem within_eq_zero {x : T} {ts : List T} (h : ∀ t ∈ ts, x + width ≤ t) : within width x ts = 0 := by
  rw [within, List.countP_eq_zero]
  intro t ht hin
  rw [Bool.and_eq_true, decide_eq_true_eq, decide_eq_true_eq] at hin
  exact absurd hin.2 (not_lt_of_ge (h t ht))

theorem le_of_mem_events {ws : List (Window width limit)} {x t : T} (h : ∀ w ∈ ws, x ≤ w.start)
    (ht : t ∈ events ws) : x ≤ t := by
  obtain ⟨w, hw, ht⟩ := List.mem_flatMap.mp ht
  exact (h w hw).trans (Window.start_le ht)

/-! ### The last window -/

/-- A window with one more event. -/
def Window.add (w : Window width limit) (t : T) (hsize : w.later.length + 1 < limit)
    (hin : w.start ≤ t ∧ t < w.start + width) : Window width limit where
  start := w.start
  later := w.later ++ [t]
  size := by
    rw [List.length_append, List.length_singleton]
    exact hsize
  inside := by
    intro s hs
    rcases List.mem_append.mp hs with hs | hs
    · exact w.inside s hs
    · rw [List.mem_singleton.mp hs]
      exact hin

theorem Window.events_add (w : Window width limit) (t : T) (hsize : w.later.length + 1 < limit)
    (hin : w.start ≤ t ∧ t < w.start + width) : (w.add t hsize hin).events = w.events ++ [t] := rfl

theorem events_snoc (ws : List (Window width limit)) (w : Window width limit) :
    events (ws ++ [w]) = events ws ++ w.events := by
  rw [events, List.flatMap_append, List.flatMap_singleton, events]

theorem apart_snoc {ws : List (Window width limit)} {w : Window width limit} :
    Apart (ws ++ [w]) ↔ Apart ws ∧ ∀ v ∈ ws, v.start + width ≤ w.start := by
  rw [Apart, List.pairwise_append]
  constructor
  · rintro ⟨hws, -, hlast⟩
    exact ⟨hws, fun v hv => hlast v hv w (List.mem_singleton_self w)⟩
  · rintro ⟨hws, hlast⟩
    refine ⟨hws, List.pairwise_singleton _ w, ?_⟩
    intro v hv u hu
    rw [List.mem_singleton.mp hu]
    exact hlast v hv

variable [IsOrderedAddMonoid T]

/-- A window after the last one. -/
theorem apart_next {ws : List (Window width limit)} {v w : Window width limit} (hwidth : 0 ≤ width)
    (hapart : Apart (ws ++ [v])) (hw : v.start + width ≤ w.start) : Apart (ws ++ [v] ++ [w]) := by
  rw [apart_snoc]
  refine ⟨hapart, ?_⟩
  intro u hu
  rcases List.mem_append.mp hu with hu | hu
  · have hv : u.start + width ≤ v.start := (apart_snoc.mp hapart).2 u hu
    exact hv.trans ((le_add_of_nonneg_right hwidth).trans hw)
  · rw [List.mem_singleton.mp hu]
    exact hw

/-- Where the first window begins in the interval it is the only one that the interval meets. -/
theorem within_of_start {w : Window width limit} {ws : List (Window width limit)} {x : T} (hapart : Apart (w :: ws))
    (hx : x ≤ w.start) : within width x (events (w :: ws)) ≤ limit := by
  have hlater : within width x (events ws) = 0 := by
    refine within_eq_zero fun t ht => ?_
    refine (add_le_add_left hx width).trans ?_
    exact le_of_mem_events (List.pairwise_cons.mp hapart).1 ht
  rw [events_cons, within_append, hlater, Nat.add_zero]
  exact w.within_le x

/-- No interval of the width holds twice the limit. -/
theorem within_lt {ws : List (Window width limit)} (hlimit : 0 < limit) (hapart : Apart ws) (x : T) :
    within width x (events ws) < 2 * limit := by
  induction ws with
  | nil =>
    show 0 < 2 * limit
    omega
  | cons w ws ih =>
    obtain ⟨hnext, hrest⟩ := List.pairwise_cons.mp hapart
    by_cases hx : x ≤ w.start
    · have hle : within width x (events (w :: ws)) ≤ limit := within_of_start hapart hx
      omega
    · rw [events_cons, within_append]
      by_cases hmeets : within width x w.events = 0
      · rw [hmeets, Nat.zero_add]
        exact ih hrest
      · have hfirst : within width x w.events ≤ w.later.length := by
          rw [within, Window.events, List.countP_cons_of_neg (by simp [hx])]
          exact List.countP_le_length
        have hsize : w.later.length < limit := w.size
        -- the interval reaches into the first window, so it begins before the second does
        have hsecond : within width x (events ws) ≤ limit := by
          rcases ws with - | ⟨v, vs⟩
          · exact Nat.zero_le _
          · refine within_of_start hrest ?_
            obtain ⟨t, ht, hin⟩ : ∃ t ∈ w.events, (decide (x ≤ t) && decide (t < x + width)) = true := by
              rw [within, List.countP_eq_zero] at hmeets
              push Not at hmeets
              exact hmeets
            rw [Bool.and_eq_true, decide_eq_true_eq] at hin
            have hend : t < w.start + width := by
              rcases List.mem_cons.mp ht with rfl | ht
              · exact absurd hin.1 hx
              · exact (w.inside t ht).2
            exact hin.1.trans (hend.le.trans (hnext v List.mem_cons_self))
        omega

end Empyralis.FixedWindow
