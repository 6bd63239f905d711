import Empyralis.Lib.FixedWindow
import Empyralis.Lib.Table
import Empyralis.Lib.Text
import Mathlib.Algebra.Order.Field.Basic
import Mathlib.Algebra.Order.Field.Rat
import Mathlib.Algebra.Order.Ring.Cast

/-! The request windows of the server: `consume_window` and `snapshot_window`.

    A key has one stored window, with its beginning and a count. Times are rational numbers of seconds, of which the
    floats that the code computes with are some. -/

namespace Empyralis.Server.QuotaWindows

open FixedWindow Text

/-- A row of `quota_windows`. -/
structure Row where
  windowStartedAt : ℚ
  count : Int
  updatedAt : ℚ
  deriving DecidableEq

abbrev Store := Table String Row

/-- `QuotaWindowDecision` -/
structure Decision where
  allowed : Bool
  limit : Int
  observed : Int
  remaining : Int
  retryAfterSeconds : Int
  windowSeconds : Int
  storage : String

/-- `int(round(seconds))`: a half goes to the even neighbour. -/
def roundSeconds (seconds : ℚ) : Int :=
  let low := seconds.floor
  let rest := seconds - low
  if rest < 1 / 2 then low
  else if 1 / 2 < rest then low + 1
  else if low % 2 = 0 then low
  else low + 1

/-- `max(int(value or 0), 1)` -/
def atLeastOne (value : Int) : Int := max value 1

variable (limit windowSeconds : Int)

/-- The window that a row still holds at a moment. -/
def openWindow (row : Option Row) (current : ℚ) : Option Row :=
  row.filter fun row => ¬(atLeastOne windowSeconds : ℚ) ≤ current - row.windowStartedAt

def consumeWindow (store : Store) (key : String) (now : ℚ) : Except String (Decision × Store) :=
  let normalizedKey := strip key
  if normalizedKey = "" then .error "quota key is required"
  else
    let normalizedLimit := atLeastOne limit
    let normalizedWindow := atLeastOne windowSeconds
    let (windowStartedAt, observed) :=
      match openWindow windowSeconds (store.get? normalizedKey) now with
      | none => (now, 0)
      | some row => (row.windowStartedAt, max row.count 0)
    if normalizedLimit ≤ observed then
      let retryAfter := max 1 (roundSeconds (windowStartedAt + normalizedWindow - now))
      .ok (⟨false, normalizedLimit, observed, 0, retryAfter, normalizedWindow, "sqlite"⟩, store)
    else
      let observed := observed + 1
      .ok (⟨true, normalizedLimit, observed, max 0 (normalizedLimit - observed), 0, normalizedWindow, "sqlite"⟩,
        store.put normalizedKey ⟨windowStartedAt, observed, now⟩)

def snapshotWindow (store : Store) (key : String) (now : ℚ) : Decision :=
  let normalizedKey := strip key
  let normalizedLimit := atLeastOne limit
  let normalizedWindow := atLeastOne windowSeconds
  if normalizedKey = "" then ⟨true, normalizedLimit, 0, normalizedLimit, 0, normalizedWindow, "sqlite"⟩
  else
    let (observed, retryAfter) :=
      match openWindow windowSeconds (store.get? normalizedKey) now with
      | none => (0, 0)
      | some row => (max row.count 0, max 1 (roundSeconds (row.windowStartedAt + normalizedWindow - now)))
    ⟨observed < normalizedLimit, normalizedLimit, observed, max 0 (normalizedLimit - observed),
      if observed < normalizedLimit then 0 else retryAfter, normalizedWindow, "sqlite"⟩

variable {limit windowSeconds}

/-! ### One call -/

theorem one_le_atLeastOne (value : Int) : 1 ≤ atLeastOne value := le_max_right value 1

theorem openWindow_eq_some {row : Option Row} {current : ℚ} {r : Row} :
    openWindow windowSeconds row current = some r ↔
      row = some r ∧ current < r.windowStartedAt + atLeastOne windowSeconds := by
  rw [openWindow, Option.filter_eq_some_iff, decide_eq_true_eq, not_le, sub_lt_iff_lt_add']

theorem openWindow_eq_none {row : Option Row} {current : ℚ} :
    openWindow windowSeconds row current = none ↔
      ∀ r, row = some r → r.windowStartedAt + atLeastOne windowSeconds ≤ current := by
  rw [openWindow, Option.filter_eq_none_iff]
  constructor
  · intro h r hr
    have hout := h r hr
    rw [decide_eq_true_eq, not_not, le_sub_iff_add_le'] at hout
    exact hout
  · intro h r hr
    rw [decide_eq_true_eq, not_not, le_sub_iff_add_le']
    exact h r hr

section
variable {store : Store} {key : String} {now : ℚ}

theorem consumeWindow_first (hkey : strip key ≠ "")
    (hopen : openWindow windowSeconds (store.get? (strip key)) now = none) :
    consumeWindow limit windowSeconds store key now =
      .ok (⟨true, atLeastOne limit, 1, max 0 (atLeastOne limit - 1), 0, atLeastOne windowSeconds, "sqlite"⟩,
        store.put (strip key) ⟨now, 1, now⟩) := by
  have hlimit : ¬atLeastOne limit ≤ 0 := by
    have := one_le_atLeastOne limit
    omega
  simp only [consumeWindow, if_neg hkey, hopen, if_neg hlimit, Int.zero_add]

theorem consumeWindow_next {row : Row} (hkey : strip key ≠ "")
    (hopen : openWindow windowSeconds (store.get? (strip key)) now = some row)
    (hcount : max row.count 0 < atLeastOne limit) :
    consumeWindow limit windowSeconds store key now =
      .ok (⟨true, atLeastOne limit, max row.count 0 + 1, max 0 (atLeastOne limit - (max row.count 0 + 1)), 0,
          atLeastOne windowSeconds, "sqlite"⟩,
        store.put (strip key) ⟨row.windowStartedAt, max row.count 0 + 1, now⟩) := by
  simp only [consumeWindow, if_neg hkey, hopen, if_neg (not_le_of_gt hcount)]

theorem consumeWindow_full {row : Row} (hkey : strip key ≠ "")
    (hopen : openWindow windowSeconds (store.get? (strip key)) now = some row)
    (hcount : atLeastOne limit ≤ max row.count 0) :
    consumeWindow limit windowSeconds store key now =
      .ok (⟨false, atLeastOne limit, max row.count 0, 0,
          max 1 (roundSeconds (row.windowStartedAt + atLeastOne windowSeconds - now)),
          atLeastOne windowSeconds, "sqlite"⟩,
        store) := by
  simp only [consumeWindow, if_neg hkey, hopen, if_pos hcount]

theorem strip_ne_of_ok {answer : Decision × Store} (h : consumeWindow limit windowSeconds store key now = .ok answer) :
    strip key ≠ "" := by
  intro hkey
  rw [consumeWindow, if_pos hkey] at h
  exact nomatch h

/-- The snapshot looks at the row as the call does. -/
theorem snapshotWindow_first (hkey : strip key ≠ "")
    (hopen : openWindow windowSeconds (store.get? (strip key)) now = none) :
    snapshotWindow limit windowSeconds store key now =
      ⟨true, atLeastOne limit, 0, atLeastOne limit, 0, atLeastOne windowSeconds, "sqlite"⟩ := by
  have hlimit : 0 < atLeastOne limit := one_le_atLeastOne limit
  simp only [snapshotWindow, if_neg hkey, hopen, hlimit, decide_true, if_true, Int.sub_zero, max_eq_right_of_lt hlimit]

theorem snapshotWindow_open {row : Row} (hkey : strip key ≠ "")
    (hopen : openWindow windowSeconds (store.get? (strip key)) now = some row) :
    snapshotWindow limit windowSeconds store key now =
      ⟨max row.count 0 < atLeastOne limit, atLeastOne limit, max row.count 0,
        max 0 (atLeastOne limit - max row.count 0),
        if max row.count 0 < atLeastOne limit then 0
        else max 1 (roundSeconds (row.windowStartedAt + atLeastOne windowSeconds - now)),
        atLeastOne windowSeconds, "sqlite"⟩ := by
  simp only [snapshotWindow, if_neg hkey, hopen]

end

theorem roundSeconds_intCast (seconds : Int) : roundSeconds seconds = seconds := by
  have hrest : (seconds : ℚ) - seconds < 1 / 2 := by
    rw [sub_self]
    exact one_half_pos
  rw [roundSeconds, Rat.floor_intCast, if_pos hrest]

variable (limit windowSeconds)

/-! ### Calls one after another -/

structure Call where
  key : String
  time : ℚ

/-- The store, and the calls so far that were allowed, by their keys and times. -/
structure History where
  store : Store
  allowed : List (String × ℚ)

/-- A call that raises changes nothing. -/
def step (h : History) (call : Call) : History :=
  match consumeWindow limit windowSeconds h.store call.key call.time with
  | .error _ => h
  | .ok (decision, store) =>
    ⟨store, if decision.allowed then h.allowed ++ [(strip call.key, call.time)] else h.allowed⟩

def calls (cs : List Call) : History := cs.foldl (step limit windowSeconds) ⟨.empty, []⟩

def allowedTimes (h : History) (key : String) : List ℚ := (h.allowed.filter (·.1 = key)).map Prod.snd

/-- The width of a window, and the calls that it allows. -/
def width : ℚ := atLeastOne windowSeconds

def most : Nat := (atLeastOne limit).toNat

/-! ### What the windows are to be -/

/-- The allowed calls of a key lie in windows with at most the limit each, of which the last is stored; so an interval
    of the width holds less than twice the limit. -/
structure Windowed (h : History) (key : String) : Prop where
  windows : ∃ ws : List (Window (width windowSeconds) (most limit)), Apart ws ∧ events ws = allowedTimes h key ∧
    (h.store.get? key).map (fun row => (row.windowStartedAt, row.count)) =
      ws.getLast?.map fun w => (w.start, (w.events.length : Int))
  bounded : ∀ x, within (width windowSeconds) x (allowedTimes h key) < 2 * most limit

/-- What a call that returns has done. -/
structure Answered (store : Store) (key : String) (now : ℚ) (decision : Decision) (store' : Store) : Prop where
  denied : decision.allowed = false → store' = store
  snapshot : let seen := snapshotWindow limit windowSeconds store key now
    seen.allowed = decision.allowed ∧ seen.retryAfterSeconds = decision.retryAfterSeconds ∧
      seen.remaining = if decision.allowed then decision.remaining + 1 else 0
  retry : decision.allowed = false → ∃ row, store.get? (strip key) = some row ∧
    decision.retryAfterSeconds = max 1 (roundSeconds (row.windowStartedAt + width windowSeconds - now)) ∧
    (∀ later, row.windowStartedAt + width windowSeconds ≤ later → ∃ decision' store'',
      consumeWindow limit windowSeconds store' key later = .ok (decision', store'') ∧ decision'.allowed = true) ∧
    ((∃ seconds : Int, row.windowStartedAt + width windowSeconds = now + seconds) →
      row.windowStartedAt + width windowSeconds = now + decision.retryAfterSeconds)

variable {limit windowSeconds}

/-! ### Runs -/

/-- The windows behind a history of a key, none of which begins after the last call. -/
structure Kept (h : History) (key : String) (last : ℚ) (ws : List (Window (width windowSeconds) (most limit))) :
    Prop where
  apart : Apart ws
  events : events ws = allowedTimes h key
  stored : (h.store.get? key).map (fun row => (row.windowStartedAt, row.count)) =
    ws.getLast?.map fun w => (w.start, (w.events.length : Int))
  past : ∀ w ∈ ws, w.start ≤ last

section
variable {h : History} {key : String} {last : ℚ} {ws : List (Window (width windowSeconds) (most limit))}

theorem width_pos : 0 < width windowSeconds := by
  rw [width, Int.cast_pos]
  exact one_le_atLeastOne windowSeconds

theorem most_eq : (most limit : Int) = atLeastOne limit :=
  Int.toNat_of_nonneg (Int.le_of_lt (one_le_atLeastOne limit))

theorem Kept.later {now : ℚ} (hk : Kept h key last ws) (hle : last ≤ now) : Kept h key now ws :=
  { hk with past := fun w hw => (hk.past w hw).trans hle }

theorem allowedTimes_snoc (store : Store) (as : List (String × ℚ)) (k key : String) (t : ℚ) :
    allowedTimes ⟨store, as ++ [(k, t)]⟩ key = allowedTimes ⟨store, as⟩ key ++ if k = key then [t] else [] := by
  rw [allowedTimes, allowedTimes, List.filter_append, List.map_append]
  by_cases hk : k = key
  · simp [hk]
  · simp [hk]

/-- The row of a key that has had a call is its last window. -/
theorem Kept.row {row : Row} (hk : Kept h key last ws) (hrow : h.store.get? key = some row) :
    ∃ init w, ws = init ++ [w] ∧ row.windowStartedAt = w.start ∧ row.count = w.events.length := by
  have hstored := hk.stored
  rw [hrow, Option.map_some] at hstored
  obtain ⟨w, hw, heq⟩ := Option.map_eq_some_iff.mp hstored.symm
  obtain ⟨init, hinit⟩ := List.getLast?_eq_some_iff.mp hw
  obtain ⟨hstart, hcount⟩ := Prod.mk.inj heq
  exact ⟨init, w, hinit, hstart.symm, hcount.symm⟩

theorem Kept.no_row (hk : Kept h key last ws) (hrow : h.store.get? key = none) : ws = [] := by
  have hstored := hk.stored
  rw [hrow, Option.map_none] at hstored
  exact List.getLast?_eq_none_iff.mp (Option.map_eq_none_iff.mp hstored.symm)

/-- A call of another key leaves the windows of this one. -/
theorem Kept.other {now : ℚ} {k : String} {row : Row} (hk : Kept h key now ws) (hne : k ≠ key) :
    Kept ⟨h.store.put k row, h.allowed ++ [(k, now)]⟩ key now ws where
  apart := hk.apart
  events := by
    rw [allowedTimes_snoc, if_neg hne, List.append_nil]
    exact hk.events
  stored := by
    rw [Table.get?_put, if_neg hne.symm]
    exact hk.stored
  past := hk.past

/-- A call that finds no window open begins one. -/
theorem Kept.first {now : ℚ} (hk : Kept h key now ws)
    (hopen : openWindow windowSeconds (h.store.get? key) now = none) :
    ∃ ws' : List (Window (width windowSeconds) (most limit)),
      Kept ⟨h.store.put key ⟨now, 1, now⟩, h.allowed ++ [(key, now)]⟩ key now ws' := by
  have hmost : 0 < most limit := by
    have := one_le_atLeastOne limit
    have := @most_eq limit
    omega
  let w : Window (width windowSeconds) (most limit) := ⟨now, [], hmost, fun _ ht => absurd ht List.not_mem_nil⟩
  refine ⟨ws ++ [w], ?_, ?_, ?_, ?_⟩
  · cases hrow : h.store.get? key with
    | none =>
      rw [hk.no_row hrow]
      exact List.pairwise_singleton _ w
    | some row =>
      obtain ⟨init, v, rfl, hstart, -⟩ := hk.row hrow
      refine apart_next width_pos.le hk.apart ?_
      rw [← hstart]
      exact openWindow_eq_none.mp hopen row hrow
  · rw [events_snoc, allowedTimes_snoc, if_pos rfl, hk.events]
    rfl
  · rw [Table.get?_put, if_pos rfl, List.getLast?_concat]
    rfl
  · intro v hv
    rcases List.mem_append.mp hv with hv | hv
    · exact hk.past v hv
    · rw [List.mem_singleton.mp hv]

/-- A call that an open window has room for is added to it. -/
theorem Kept.next {now : ℚ} {row : Row} (hk : Kept h key now ws)
    (hopen : openWindow windowSeconds (h.store.get? key) now = some row) (hcount : max row.count 0 < atLeastOne limit) :
    ∃ ws' : List (Window (width windowSeconds) (most limit)),
      Kept ⟨h.store.put key ⟨row.windowStartedAt, max row.count 0 + 1, now⟩, h.allowed ++ [(key, now)]⟩
        key now ws' := by
  obtain ⟨hrow, hend⟩ := openWindow_eq_some.mp hopen
  obtain ⟨init, w, rfl, hstart, hlength⟩ := hk.row hrow
  have hevents : w.events.length = w.later.length + 1 := List.length_cons
  have hsize : w.later.length + 1 < most limit := by
    have := @most_eq limit
    omega
  have hin : w.start ≤ now ∧ now < w.start + width windowSeconds := by
    rw [hstart] at hend
    exact ⟨hk.past w (List.mem_append_right init (List.mem_singleton_self w)), hend⟩
  refine ⟨init ++ [w.add now hsize hin], ?_, ?_, ?_, ?_⟩
  · obtain ⟨hinit, hlast⟩ := apart_snoc.mp hk.apart
    exact apart_snoc.mpr ⟨hinit, hlast⟩
  · rw [events_snoc, Window.events_add, ← List.append_assoc, ← events_snoc, allowedTimes_snoc, if_pos rfl, hk.events]
    rfl
  · rw [Table.get?_put, if_pos rfl, List.getLast?_concat, Option.map_some, Option.map_some, hstart,
      Window.events_add, List.length_append, List.length_singleton]
    have hmax : max row.count 0 = w.events.length := by
      omega
    rw [hmax]
    rfl
  · intro v hv
    rcases List.mem_append.mp hv with hv | hv
    · exact hk.past v (List.mem_append_left [w] hv)
    · rw [List.mem_singleton.mp hv]
      exact hin.1

/-- What one call does to the windows of a key. -/
theorem step_kept {call : Call} (hk : Kept h key call.time ws) :
    ∃ ws' : List (Window (width windowSeconds) (most limit)),
      Kept (step limit windowSeconds h call) key call.time ws' := by
  by_cases hstrip : strip call.key = ""
  · rw [step, consumeWindow, if_pos hstrip]
    exact ⟨ws, hk⟩
  · cases hopen : openWindow windowSeconds (h.store.get? (strip call.key)) call.time with
    | none =>
      rw [step, consumeWindow_first hstrip hopen]
      by_cases hkey : strip call.key = key
      · subst hkey
        exact hk.first hopen
      · exact ⟨ws, hk.other hkey⟩
    | some row =>
      by_cases hcount : max row.count 0 < atLeastOne limit
      · rw [step, consumeWindow_next hstrip hopen hcount]
        by_cases hkey : strip call.key = key
        · subst hkey
          exact hk.next hopen hcount
        · exact ⟨ws, hk.other hkey⟩
      · rw [step, consumeWindow_full hstrip hopen (not_lt.mp hcount)]
        exact ⟨ws, hk⟩

end

theorem calls_snoc (cs : List Call) (call : Call) :
    calls limit windowSeconds (cs ++ [call]) = step limit windowSeconds (calls limit windowSeconds cs) call := by
  rw [calls, List.foldl_append, List.foldl_cons, List.foldl_nil, calls]

/-- Calls that are not after a moment. -/
theorem calls_kept {cs : List Call} (htimes : cs.Pairwise fun a b => a.time ≤ b.time) (key : String) :
    ∀ last, (∀ call ∈ cs, call.time ≤ last) → ∃ ws : List (Window (width windowSeconds) (most limit)),
      Kept (calls limit windowSeconds cs) key last ws := by
  induction cs using List.reverseRecOn with
  | nil =>
    intro last hlast
    exact ⟨[], List.Pairwise.nil, rfl, rfl, fun _ hw => absurd hw List.not_mem_nil⟩
  | append_singleton cs call ih =>
    intro last hlast
    rw [List.pairwise_append] at htimes
    obtain ⟨hcs, -, hcall⟩ := htimes
    obtain ⟨ws, hk⟩ := ih hcs call.time fun c hc => hcall c hc call (List.mem_singleton_self call)
    obtain ⟨ws', hk'⟩ := step_kept hk
    rw [calls_snoc]
    exact ⟨ws', hk'.later (hlast call (List.mem_append_right cs (List.mem_singleton_self call)))⟩

/-- Calls in the order of their times keep every window within the limit. -/
theorem calls_windowed {cs : List Call} (htimes : cs.Pairwise fun a b => a.time ≤ b.time) (key : String) :
    Windowed limit windowSeconds (calls limit windowSeconds cs) key := by
  obtain ⟨last, hlast⟩ : ∃ last : ℚ, ∀ call ∈ cs, call.time ≤ last := by
    rcases cs.eq_nil_or_concat with rfl | ⟨init, call, rfl⟩
    · exact ⟨0, fun _ hcall => absurd hcall List.not_mem_nil⟩
    · refine ⟨call.time, fun c hc => ?_⟩
      rw [List.concat_eq_append] at htimes hc
      rcases List.mem_append.mp hc with hc | hc
      · exact (List.pairwise_append.mp htimes).2.2 c hc call (List.mem_singleton_self call)
      · rw [List.mem_singleton.mp hc]
  obtain ⟨ws, hk⟩ := calls_kept htimes key last hlast
  refine ⟨⟨ws, hk.apart, hk.events, hk.stored⟩, ?_⟩
  intro x
  have hmost : 0 < most limit := by
    have := one_le_atLeastOne limit
    have := @most_eq limit
    omega
  rw [← hk.events]
  exact within_lt hmost hk.apart x

/-- What one call answers and stores. -/
theorem consumeWindow_answered {store store' : Store} {key : String} {now : ℚ} {decision : Decision}
    (h : consumeWindow limit windowSeconds store key now = .ok (decision, store')) :
    Answered limit windowSeconds store key now decision store' := by
  have hkey : strip key ≠ "" := strip_ne_of_ok h
  cases hopen : openWindow windowSeconds (store.get? (strip key)) now with
  | none =>
    rw [consumeWindow_first hkey hopen] at h
    cases h
    have hlimit := one_le_atLeastOne limit
    refine ⟨(fun hdenied => nomatch hdenied), ?_, (fun hdenied => nomatch hdenied)⟩
    rw [snapshotWindow_first hkey hopen]
    refine ⟨rfl, rfl, ?_⟩
    show atLeastOne limit = max 0 (atLeastOne limit - 1) + 1
    omega
  | some row =>
    by_cases hcount : max row.count 0 < atLeastOne limit
    · rw [consumeWindow_next hkey hopen hcount] at h
      cases h
      refine ⟨(fun hdenied => nomatch hdenied), ?_, (fun hdenied => nomatch hdenied)⟩
      rw [snapshotWindow_open hkey hopen]
      refine ⟨decide_eq_true hcount, if_pos hcount, ?_⟩
      show max 0 (atLeastOne limit - max row.count 0) = max 0 (atLeastOne limit - (max row.count 0 + 1)) + 1
      omega
    · rw [consumeWindow_full hkey hopen (not_lt.mp hcount)] at h
      cases h
      refine ⟨fun _ => rfl, ?_, fun _ => ⟨row, (openWindow_eq_some.mp hopen).1, rfl, ?_, ?_⟩⟩
      · rw [snapshotWindow_open hkey hopen]
        refine ⟨decide_eq_false hcount, if_neg hcount, ?_⟩
        show max 0 (atLeastOne limit - max row.count 0) = 0
        omega
      · intro later hlater
        have hended : openWindow windowSeconds (store.get? (strip key)) later = none := by
          rw [openWindow_eq_none]
          intro r hr
          rw [(openWindow_eq_some.mp hopen).1] at hr
          cases hr
          exact hlater
        exact ⟨_, _, consumeWindow_first hkey hended, rfl⟩
      · rintro ⟨seconds, hseconds⟩
        have hleft : row.windowStartedAt + atLeastOne windowSeconds - now = seconds := by
          rw [sub_eq_iff_eq_add']
          exact hseconds
        -- the window is still open, so a second or more is left
        have hpos : 1 ≤ seconds := by
          have hend := (openWindow_eq_some.mp hopen).2
          rw [← sub_pos, hleft, Int.cast_pos] at hend
          exact hend
        rw [hseconds, hleft, roundSeconds_intCast, max_eq_right hpos]

/-- A key's calls that are allowed lie in windows of at most the limit, and a call that is denied leaves the window as
    it is, as the snapshot sees it, until it ends. -/
theorem consumeWindow_windows (limit windowSeconds : Int) (cs : List Call)
    (htimes : cs.Pairwise fun a b => a.time ≤ b.time) :
    (∀ key, Windowed limit windowSeconds (calls limit windowSeconds cs) key) ∧
      ∀ store key now decision store', consumeWindow limit windowSeconds store key now = .ok (decision, store') →
        Answered limit windowSeconds store key now decision store' :=
  ⟨calls_windowed htimes, fun _ _ _ _ _ => consumeWindow_answered⟩

/-- Two calls in a minute: the third is denied. -/
theorem consumeWindow_windows_three :
    Windowed 2 60 (calls 2 60 [⟨"a", 100⟩, ⟨"a", 101⟩]) "a" ∧
      ∃ decision store', consumeWindow 2 60 (calls 2 60 [⟨"a", 100⟩, ⟨"a", 101⟩]).store "a" 102 =
        .ok (decision, store') ∧
        decision.allowed = false ∧
        Answered 2 60 (calls 2 60 [⟨"a", 100⟩, ⟨"a", 101⟩]).store "a" 102 decision store' := by
  have htimes : [Call.mk "a" 100, ⟨"a", 101⟩].Pairwise fun a b => a.time ≤ b.time := by
    decide
  obtain ⟨hwindowed, hanswered⟩ := consumeWindow_windows 2 60 [⟨"a", 100⟩, ⟨"a", 101⟩] htimes
  have hkey : strip "a" ≠ "" := by
    decide
  have hopen : openWindow 60 ((calls 2 60 [⟨"a", 100⟩, ⟨"a", 101⟩]).store.get? (strip "a")) 102 =
      some ⟨100, 2, 101⟩ := by
    rw [openWindow_eq_some]
    with_unfolding_all decide
  have hcall := @consumeWindow_full 2 60 _ _ _ _ hkey hopen (by decide)
  exact ⟨hwindowed "a", _, _, hcall, rfl, hanswered _ _ _ _ _ hcall⟩

/-- The end of one window and the beginning of the next allow more than the limit within the width. -/
theorem not_sliding_window :
    ¬∀ (limit windowSeconds : Int) (cs : List Call), (cs.Pairwise fun a b => a.time ≤ b.time) → ∀ key x,
      within (width windowSeconds) x (allowedTimes (calls limit windowSeconds cs) key) ≤ most limit := by
  intro h
  have hmany := h 2 60 [⟨"a", 0⟩, ⟨"a", 59⟩, ⟨"a", 60⟩, ⟨"a", 61⟩] (by decide) "a" 59
  revert hmany
  with_unfolding_all decide

end Empyralis.Server.QuotaWindows
