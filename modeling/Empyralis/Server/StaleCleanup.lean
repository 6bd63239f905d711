import Empyralis.Server.StaleRecovery

/-! The whole cleanup of stale claims: what its first loop removes, and exactly when no run is revived or
    stranded by the two loops together. -/

namespace Empyralis.Server.Leases
open Text (strip)

variable (env : Env) (gates : String → Fields → Except Error Unit) (c : Cleanup)

/-! ### The claims that the first loop removes -/

def refused {α : Type} : Except Error α → Bool
  | .error _ => true
  | .ok _ => false

/-- The claim stops the first loop: its seconds cannot be read, or it is stale and a gate refuses its
    release. -/
def stops (e : String × Value) : Bool :=
  match dictOf e.2 with
  | none => false
  | some claim => (claimSeconds env claim).isNone || (isStale env c claim && refused (gates e.1 claim))

/-- The entry is a claim of a worker that was lost. -/
def isLost (e : String × Value) : Bool := (dictOf e.2).any (isStale env c)

/-- The entry is not a claim at all. -/
def isMalformed (e : String × Value) : Bool := (dictOf e.2).isNone

def isGone (e : String × Value) : Bool := isMalformed e || isLost env c e

def lostRuns (es : List (String × Value)) : List String := (es.filter (isLost env c)).map Prod.fst

def goneRuns (es : List (String × Value)) : List String := (es.filter (isGone env c)).map Prod.fst

theorem mem_lostRuns {es : List (String × Value)} {q : String} :
    q ∈ lostRuns env c es ↔ ∃ e ∈ es, isLost env c e ∧ e.1 = q := by
  simp only [lostRuns, List.mem_map, List.mem_filter, and_assoc]

theorem mem_goneRuns {es : List (String × Value)} {q : String} :
    q ∈ goneRuns env c es ↔ ∃ e ∈ es, isGone env c e ∧ e.1 = q := by
  simp only [goneRuns, List.mem_map, List.mem_filter, and_assoc]

theorem mem_goneRuns_cons {e : String × Value} {es : List (String × Value)} {q : String} :
    q ∈ goneRuns env c (e :: es) ↔ (isGone env c e ∧ e.1 = q) ∨ q ∈ goneRuns env c es := by
  simp only [mem_goneRuns, List.mem_cons, exists_eq_or_imp]

theorem isGone_of_lost {e : String × Value} (h : isLost env c e) : isGone env c e := by
  rw [isGone, h, Bool.or_true]

theorem malformed_not_lost {e : String × Value} (h : isMalformed e) : isLost env c e = false := by
  rw [isMalformed, Option.isNone_iff_eq_none] at h
  rw [isLost, h, Option.any_none]

/-- What the first loop does, over these entries. -/
structure Removes (es : List (String × Value)) (s : State) (o : Outcome (List Stale)) : Prop where
  runs : o.2.runs = s.runs
  pending : o.2.pending = s.pending
  keys : ∀ q, q ∈ o.2.claims.keys ↔ q ∈ s.claims.keys ∧
    q ∉ goneRuns env c (es.takeWhile fun e => !stops env gates c e)
  ok : ∀ items, o.1 = .ok items → (es.all fun e => !stops env gates c e) = true ∧
    items.map (·.runId) = lostRuns env c es
  error : ∀ e, o.1 = .error e → (es.all fun e => !stops env gates c e) = false

theorem removes_skip {e : String × Value} {es : List (String × Value)} {s u : State}
    {o : Outcome (List Stale)} (hstop : stops env gates c e = false) (hlost : isLost env c e = false)
    (hruns : u.runs = s.runs) (hpending : u.pending = s.pending)
    (hkeys : ∀ q, q ∈ u.claims.keys ↔ q ∈ s.claims.keys ∧ (isGone env c e = true → q ≠ e.1))
    (h : Removes env gates c es u o) : Removes env gates c (e :: es) s o := by
  refine ⟨h.runs.trans hruns, h.pending.trans hpending, fun q => ?_, fun items hi => ?_,
    fun x hx => ?_⟩
  · rw [h.keys, hkeys, List.takeWhile_cons_of_pos (by simp [hstop]), mem_goneRuns_cons, eq_comm]
    tauto
  · obtain ⟨hall, hitems⟩ := h.ok items hi
    rw [List.all_cons, hall, hstop, lostRuns, List.filter_cons_of_neg (by simp [hlost])]
    exact ⟨rfl, hitems⟩
  · rw [List.all_cons, h.error x hx, Bool.and_false]

theorem removes_lost {e : String × Value} {es : List (String × Value)} {s u : State} {item : Stale}
    {o : Outcome (List Stale)} (hstop : stops env gates c e = false) (hlost : isLost env c e = true)
    (hitem : item.runId = e.1) (hruns : u.runs = s.runs) (hpending : u.pending = s.pending)
    (hclaims : u.claims = s.claims.erase e.1) :
    Removes env gates c es u o → Removes env gates c (e :: es) s
      (match o with
        | (.error x, t) => (.error x, t)
        | (.ok items, t) => (.ok (item :: items), t)) := by
  intro h
  have hgone := isGone_of_lost env c hlost
  have hkeys : ∀ q, q ∈ o.2.claims.keys ↔ q ∈ s.claims.keys ∧
      q ∉ goneRuns env c ((e :: es).takeWhile fun e => !stops env gates c e) := by
    intro q
    rw [h.keys, hclaims, Table.mem_keys_erase, List.takeWhile_cons_of_pos (by simp [hstop]),
      mem_goneRuns_cons, eq_comm (a := e.1)]
    tauto
  rcases o with ⟨x | items, t⟩
  · refine ⟨h.runs.trans hruns, h.pending.trans hpending, hkeys, nofun, fun y hy => ?_⟩
    rw [List.all_cons, h.error x rfl, Bool.and_false]
  · refine ⟨h.runs.trans hruns, h.pending.trans hpending, hkeys, fun items' hi => ?_, nofun⟩
    cases hi
    obtain ⟨hall, hitems⟩ := h.ok items rfl
    rw [List.all_cons, hall, hstop, lostRuns, List.filter_cons_of_pos hlost, List.map_cons,
      List.map_cons, hitems, hitem]
    exact ⟨rfl, rfl⟩

/-- An entry at which the loop stops. -/
theorem removes_stop {e : String × Value} {es : List (String × Value)} {s : State} {x : Error}
    (hstop : stops env gates c e = true) : Removes env gates c (e :: es) s (.error x, s) := by
  refine ⟨rfl, rfl, fun q => ?_, nofun, fun y hy => ?_⟩
  · rw [List.takeWhile_cons_of_neg (by simp [hstop])]
    simp [goneRuns]
  · rw [List.all_cons, hstop]
    rfl

/-- What the first loop removes, by recursion over the claims. -/
theorem removeStale_spec (es : List (String × Value)) (s : State) :
    Removes env gates c es s (removeStale env gates c es s) := by
  induction es generalizing s with
  | nil =>
    refine ⟨rfl, rfl, by simp [removeStale, goneRuns], ?_, ?_⟩
    · rintro items h
      cases h
      exact ⟨rfl, rfl⟩
    · rintro e h
      cases h
  | cons e rest ih =>
    obtain ⟨runId, value⟩ := e
    have hstops : stops env gates c (runId, value) = (match dictOf value with
        | none => false
        | some claim =>
          (claimSeconds env claim).isNone || (isStale env c claim && refused (gates runId claim))) :=
      rfl
    have hlost : isLost env c (runId, value) = (dictOf value).any (isStale env c) := rfl
    have hgone : isGone env c (runId, value) = ((dictOf value).isNone || isLost env c (runId, value)) :=
      rfl
    cases hdict : dictOf value with
    | none =>
      simp only [hdict, Option.any_none, Option.isNone_none, Bool.true_or] at hstops hlost hgone
      simp only [removeStale, hdict]
      refine removes_skip env gates c (u := { s with claims := s.claims.erase runId }) hstops hlost
        rfl rfl (fun q => ?_) (ih _)
      rw [Table.mem_keys_erase]
      tauto
    | some claim =>
      simp only [hdict, Option.any_some, Option.isNone_some, Bool.false_or] at hstops hlost hgone
      simp only [removeStale, hdict]
      cases hseconds : claimSeconds env claim with
      | none =>
        simp only [hseconds, Option.isNone_none, Bool.true_or] at hstops
        exact removes_stop env gates c hstops
      | some leaseSeconds =>
        simp only [hseconds, Option.isNone_some, Bool.false_or] at hstops
        cases hstale : isStale env c claim with
        | false =>
          rw [hstale] at hstops hlost
          rw [hlost] at hgone
          refine removes_skip env gates c hstops hlost rfl rfl (fun q => ?_) (ih s)
          rw [hgone]
          tauto
        | true =>
          rw [hstale] at hstops hlost
          cases hgate : gates runId claim with
          | error x =>
            rw [hgate] at hstops
            exact removes_stop env gates c hstops
          | ok u =>
            rw [hgate] at hstops
            let freed : State := { s with
              claims := s.claims.erase runId
              registry := markOffline env c s.registry claim leaseSeconds }
            have hrest : Removes env gates c rest freed (removeStale env gates c rest freed) := ih freed
            simp only [Bool.not_true, Bool.false_eq_true, if_false]
            exact removes_lost env gates c hstops hlost (u := freed) rfl rfl rfl rfl hrest

/-- The first loop does not look at the runs: whatever happens to them until the second one begins might
    as well have happened before. -/
theorem removeStale_of_runs (runs : Table String Value) (es : List (String × Value)) (s : State) :
    removeStale env gates c es { s with runs := runs } =
      ((removeStale env gates c es s).1, { (removeStale env gates c es s).2 with runs := runs }) := by
  induction es generalizing s with
  | nil => rfl
  | cons e rest ih =>
    obtain ⟨runId, value⟩ := e
    cases hdict : dictOf value with
    | none =>
      simp only [removeStale, hdict]
      exact ih { s with claims := s.claims.erase runId }
    | some claim =>
      cases hseconds : claimSeconds env claim with
      | none => simp only [removeStale, hdict, hseconds]
      | some leaseSeconds =>
        cases hstale : isStale env c claim with
        | false =>
          simp only [removeStale, hdict, hseconds, hstale, Bool.not_false, if_true]
          exact ih s
        | true =>
          simp only [removeStale, hdict, hseconds, hstale, Bool.not_true, Bool.false_eq_true, if_false]
          cases hgate : gates runId claim with
          | error e => rfl
          | ok u =>
            let freed : State := { s with
              claims := s.claims.erase runId
              registry := markOffline env c s.registry claim leaseSeconds }
            have hrest := ih freed
            simp only [freed] at hrest
            simp only [hrest]
            rcases removeStale env gates c rest freed with ⟨e | items, t⟩
            · rfl
            · rfl

/-! ### Both loops -/

/-- Runs other than those of the removed claims are left alone, so nothing is asked of them. -/
theorem keeps_iff {s t : State} {gone : List String} (hgone : ∀ q ∈ gone, q ∈ s.claims.keys)
    (hkeys : ∀ q, q ∈ t.claims.keys ↔ q ∈ s.claims.keys ∧ q ∉ gone)
    (hother : ∀ q ∉ gone, Agrees env s t q) : Keeps env s t ↔ ∀ q ∈ gone, Fine env s t q := by
  constructor
  · rintro ⟨hsettled, hover⟩ q hq
    refine ⟨hsettled q (hgone q hq) fun hin => ?_, hover q⟩
    exact ((hkeys q).mp hin).2 hq
  · intro h
    constructor
    · intro q hq hout
      have hin : q ∈ gone := by
        by_contra hnot
        exact hout ((hkeys q).mpr ⟨hq, hnot⟩)
      exact (h q hin).settled
    · intro q
      by_cases hin : q ∈ gone
      · exact (h q hin).stays
      · intro status hst hrun
        exact ⟨status, hst, (hother q hin).status.trans hrun⟩

/-- Where no claim stops the first loop: each run of a removed entry that is no claim is at rest, and the
    second loop keeps the runs of the lost claims. Where one does: each run whose entry was removed
    before it is at rest. -/
def Recoverable (s : State) : Prop :=
  if s.claims.entries.all fun e => !stops env gates c e then
    (∀ e ∈ s.claims.entries, isMalformed e → AtRest env s e.1) ∧
      Recovers env c s (lostRuns env c s.claims.entries)
  else ∀ e ∈ s.claims.entries.takeWhile fun e => !stops env gates c e, isGone env c e → AtRest env s e.1

/-- Entries with the same key are the same entry. -/
theorem entry_unique {s : State} {e f : String × Value} (he : e ∈ s.claims.entries)
    (hf : f ∈ s.claims.entries) (h : e.1 = f.1) : e = f := by
  have hev : s.claims.get? e.1 = some e.2 := Table.get?_eq_some.mpr he
  have hfv : s.claims.get? f.1 = some f.2 := Table.get?_eq_some.mpr hf
  rw [h, hfv, Option.some.injEq] at hev
  exact Prod.ext h hev.symm

/-- The second loop, after a first one that no claim stopped. -/
theorem keeps_of_removed {s u : State} (hruns : u.runs = s.runs) (hpending : u.pending = s.pending)
    (hkeys : ∀ q, q ∈ u.claims.keys ↔ q ∈ s.claims.keys ∧ q ∉ goneRuns env c s.claims.entries) :
    Keeps env s (recoverAll env c (lostRuns env c s.claims.entries) u).2 ↔
      (∀ e ∈ s.claims.entries, isMalformed e → AtRest env s e.1) ∧
        Recovers env c s (lostRuns env c s.claims.entries) := by
  have hstart : ∀ q, Same s u q := fun q => ⟨by rw [hruns], by rw [hpending]⟩
  have hnodup : (lostRuns env c s.claims.entries).Nodup :=
    s.claims.nodup.sublist (List.filter_sublist.map _)
  have hlost : ∀ r ∈ lostRuns env c s.claims.entries, r ∈ goneRuns env c s.claims.entries := by
    intro r hr
    obtain ⟨e, he, hl, rfl⟩ := (mem_lostRuns env c).mp hr
    exact (mem_goneRuns env c).mpr ⟨e, he, isGone_of_lost env c hl, rfl⟩
  have hfree : ∀ r ∈ lostRuns env c s.claims.entries, r ∉ u.claims.keys := fun r hr hin =>
    ((hkeys r).mp hin).2 (hlost r hr)
  obtain ⟨hclaims, hother⟩ := recoverAll_other env c hfree
  -- the runs that the second loop does not see are as they were
  have hagrees : ∀ q ∉ lostRuns env c s.claims.entries,
      Agrees env s (recoverAll env c (lostRuns env c s.claims.entries) u).2 q := fun q hq =>
    ((hstart q).trans (hother q hq)).agrees env
  have hgone : ∀ q ∈ goneRuns env c s.claims.entries, q ∈ s.claims.keys := by
    intro q hq
    obtain ⟨e, he, -, rfl⟩ := (mem_goneRuns env c).mp hq
    exact Table.mem_keys_of_mem he
  rw [keeps_iff env hgone (fun q => by rw [hclaims, hkeys]) fun q hq =>
    hagrees q fun hl => hq (hlost q hl)]
  rw [← recovers_congr env c fun q _ => hstart q, ← recoverAll_iff env c hnodup hfree]
  have hleft : ∀ q, Fine env u (recoverAll env c (lostRuns env c s.claims.entries) u).2 q ↔
      Fine env s (recoverAll env c (lostRuns env c s.claims.entries) u).2 q := fun q =>
    ((hstart q).agrees env).fine_left env
  have hrest : ∀ e ∈ s.claims.entries, isMalformed e →
      (Fine env s (recoverAll env c (lostRuns env c s.claims.entries) u).2 e.1 ↔
        AtRest env s e.1) := by
    intro e he hmalformed
    refine (hagrees e.1 fun hl => ?_).fine_iff env
    obtain ⟨f, hf, hl, heq⟩ := (mem_lostRuns env c).mp hl
    rw [entry_unique hf he heq, malformed_not_lost env c hmalformed] at hl
    cases hl
  constructor
  · intro h
    refine ⟨fun e he hm => (hrest e he hm).mp (h e.1 ?_), fun r hr => (hleft r).mpr (h r (hlost r hr))⟩
    exact (mem_goneRuns env c).mpr ⟨e, he, by rw [isGone, hm, Bool.true_or], rfl⟩
  · rintro ⟨hmalformed, hrecovered⟩ q hq
    obtain ⟨e, he, hg, rfl⟩ := (mem_goneRuns env c).mp hq
    rw [isGone, Bool.or_eq_true] at hg
    rcases hg with hm | hl
    · exact (hrest e he hm).mpr (hmalformed e he hm)
    · exact (hleft e.1).mp (hrecovered e.1 ((mem_lostRuns env c).mpr ⟨e, he, hl, rfl⟩))

/-- The cleanup neither revives nor strands a run exactly when what it can do for each is enough. -/
theorem cleanup_keeps_iff (s : State) :
    Keeps env s (cleanupStaleMachineLeases env gates c s).2 ↔ Recoverable env gates c s := by
  have hspec := removeStale_spec env gates c s.claims.entries s
  rw [cleanupStaleMachineLeases, Recoverable]
  rcases hremoved : removeStale env gates c s.claims.entries s with ⟨e | items, u⟩
  · rw [hremoved] at hspec
    have hagrees : ∀ q, Agrees env s u q := fun q =>
      Same.agrees env ⟨by rw [hspec.runs], by rw [hspec.pending]⟩
    have hgone : ∀ q ∈ goneRuns env c (s.claims.entries.takeWhile fun e => !stops env gates c e),
        q ∈ s.claims.keys := by
      intro q hq
      obtain ⟨e, he, -, rfl⟩ := (mem_goneRuns env c).mp hq
      exact Table.mem_keys_of_mem ((List.takeWhile_sublist _).subset he)
    rw [keeps_iff env hgone hspec.keys fun q _ => hagrees q, hspec.error e rfl,
      if_neg Bool.false_ne_true]
    constructor
    · intro h e he hg
      exact ((hagrees e.1).fine_iff env).mp (h e.1 ((mem_goneRuns env c).mpr ⟨e, he, hg, rfl⟩))
    · intro h q hq
      obtain ⟨e, he, hg, rfl⟩ := (mem_goneRuns env c).mp hq
      exact ((hagrees e.1).fine_iff env).mpr (h e he hg)
  · rw [hremoved] at hspec
    obtain ⟨hall, hitems⟩ := hspec.ok items rfl
    have hkeys := hspec.keys
    rw [List.takeWhile_eq_self_iff.mpr (List.all_eq_true.mp hall)] at hkeys
    rw [if_pos hall, ← keeps_of_removed env c hspec.runs hspec.pending hkeys, ← hitems]
    rcases hrec : recoverAll env c (items.map (·.runId)) u with ⟨e | x, t⟩
    · simp only [hrec]
    · simp only [hrec]

/-! ### A cancelled run whose worker is lost -/

def lowerAscii (t : String) : String := String.ofList (t.toList.map Char.toLower)

theorem lowerAscii_plain (t : String) (h : ∀ c ∈ t.toList, c.isLower ∨ c = '_') :
    lowerAscii t = t := by
  have hchar : ∀ c ∈ t.toList, c.toLower = c := by
    intro c hc
    rcases h c hc with hl | rfl
    · have hbounds : (decide ('a'.val ≤ c.val) && decide (c.val ≤ 'z'.val)) = true := hl
      rw [Bool.and_eq_true, decide_eq_true_eq] at hbounds
      refine dif_neg ?_
      rintro ⟨-, hz⟩
      exact absurd (UInt32.le_trans hbounds.1 hz) (by decide)
    · rfl
  rw [lowerAscii, List.map_congr_left hchar, List.map_id', String.ofList_toList]

/-- An environment in which a few plain values can be read. -/
def plainEnv : Env where
  repr _ := ""
  lower := lowerAscii
  lower_plain := lowerAscii_plain
  int
    | .int n => some n
    | _ => none
  parseUtcTs
    | .string "2026-01-01T00:00:00Z" => some 1767225600000000
    | _ => none
  orderedRuntimePreferences _ := []
  requiredCapabilities _ := []
  normalizeCapabilityIds ids := ids
  leaseSeconds := 30

/-- An hour later. -/
def hourLater : Cleanup where
  now := 1767229200000000
  nowIso := "2026-01-01T01:00:00Z"
  isoAfter _ := "2026-01-01T01:00:05Z"
  workerLostTimeoutSeconds := 90
  maxAutoRetries := 3
  backoffSeconds := [5]
  maxQueueRetryAttempts := 3
  queueRetryBackoffSeconds := [5]
  resumes _ := false

/-- A run that was cancelled while its worker had it. -/
def cancelledRun : Fields :=
  [("status", .string "cancelled"),
    ("context", .object [("metadata", .object [("execution_target_selected", .string "local")])])]

def silentClaim : Fields :=
  [("worker_id", .string "w1"), ("machine_id", .string "w1"), ("lease_id", .string "l1"),
    ("claimed_at", .string "2026-01-01T00:00:00Z"),
    ("last_heartbeat_at", .string "2026-01-01T00:00:00Z"), ("lease_seconds", .int 30)]

def cancelledState : State where
  pending := []
  claims := Table.empty.put "r1" (.object silentClaim)
  registry := Table.empty
  runs := Table.empty.put "r1" (.object cancelledRun)

/-- The cancelled run is put back into the queue. -/
theorem cleanup_revives_cancelled :
    ¬ Keeps plainEnv cancelledState
      (cleanupStaleMachineLeases plainEnv (fun _ _ => .ok ()) hourLater cancelledState).2 := by
  rintro ⟨-, hover⟩
  obtain ⟨status, hst, hstatus⟩ := hover "r1" "cancelled" (by decide) (by decide)
  have hqueued : statusIn plainEnv
      (cleanupStaleMachineLeases plainEnv (fun _ _ => .ok ()) hourLater cancelledState).2 "r1" =
      some "queued_local" := by decide
  rw [hqueued, Option.some.injEq] at hstatus
  exact absurd (hstatus ▸ hst) (by decide)

end Empyralis.Server.Leases
