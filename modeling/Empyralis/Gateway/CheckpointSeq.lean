import Empyralis.Gateway.CheckpointUpdates

/-! The sequence numbers that `allocateClientSeq` returns, over restarts too. Within one process the
    mirror alone makes them increase. A later process takes the number from disk, so what matters is
    that the numbers handed out stay on their way to the disk: that no save puts an older number over
    a pending one, that the writes reach the file in the order of their numbers, and that the process
    ends with none on its way. -/

namespace Empyralis.Gateway.Checkpoints

open Run (run Meets)

/-- A save that gives no number, and has read one, puts no older one over the pending one. -/
def NumberKept (s : State) : Option Save → Prop
  | some ⟨patch, .loaded seen⟩ => patch .lastClientSeq = none → ∀ p ∈ s.pending,
      seen .lastClientSeq = none ∨ seqOf (stringify p) ≤ seqOf seen
  | _ => True

instance (s : State) : ∀ sv : Option Save, Decidable (NumberKept s sv)
  | some ⟨_, .loaded _⟩ => inferInstanceAs (Decidable (_ → _))
  | none | some ⟨_, .loading⟩ | some ⟨_, .merged⟩ | some ⟨_, .failed⟩ => .isTrue trivial

/-- Other saves give no number and put no older one over the pending one, no write lowers the number
    of the file, a restart loses no number, and no read or write fails. -/
def SeqKept (s : State) : Label → Prop
  | .save patch => patch .lastClientSeq = none
  | .saveMerge i _ => NumberKept s s.saves[i]?
  | .writeReady k => ∀ w ∈ s.writes[k]?, seqOf s.file.latest ≤ seqOf w.content
  | .restart => (∀ w ∈ s.writes, w.entered = false → seqOf w.content ≤ seqOf s.file.content) ∧
      ∀ c ∈ s.file.lane, seqOf c ≤ seqOf s.file.content
  | .saveReadFail _ | .writeFail | .allocSeedFail _ => False
  | _ => True

instance (s : State) : ∀ l : Label, Decidable (SeqKept s l)
  | .save patch => inferInstanceAs (Decidable (patch .lastClientSeq = none))
  | .saveMerge i _ => inferInstanceAs (Decidable (NumberKept s s.saves[i]?))
  | .writeReady k => inferInstanceAs (Decidable (∀ w ∈ s.writes[k]?, _))
  | .restart => inferInstanceAs (Decidable (_ ∧ _))
  | .saveReadFail _ | .writeFail | .allocSeedFail _ => .isFalse id
  | .saveRead _ | .timer | .flush | .writeLand | .alloc | .allocStart _ | .allocSeedRead _
  | .allocSeed _ | .allocReturn _ => .isTrue trivial

/-! ### The numbers in the system -/

theorem seqOf_nonneg (c : File) : 0 ≤ seqOf c := le_max_right _ _

/-- What the file holds and what is on its way to it. -/
def State.contents (s : State) : List File :=
  s.file.content :: (s.file.lane ++ (s.writes.filter (!·.entered)).map (·.content) ++
    (s.pending.map stringify).toList)

/-- The mirror, or the number on disk while there is no mirror. -/
def State.bound (s : State) : Int := s.lastKnownClientSeq.getD (seqOf s.file.content)

/-- The number is in the file or on its way to it, or a larger one is. -/
def State.Covers (s : State) (n : Int) : Prop := ∃ c ∈ s.contents, n ≤ seqOf c

theorem seqOf_merge (pending : Option Snapshot) (seen : File) (patch : Snapshot) (now : String) :
    seqOf (stringify (debounced pending (mergedOf seen patch now))) =
      match patch .lastClientSeq, seen .lastClientSeq with
      | some v, _ => max (v.getD 0) 0
      | none, some _ => seqOf seen
      | none, none => ((pending.map stringify).map seqOf).getD 0 := by
  rw [seqOf, debounced_field _ _ _ _ (by decide)]
  cases patch .lastClientSeq with
  | some v => rfl
  | none =>
    cases hs : seen .lastClientSeq with
    | some x => simp [seqOf, hs]
    | none => cases pending <;> simp [seqOf, stringify]

/-! ### The invariant -/

structure Rising (s : State) : Prop where
  sorted : (s.file.content :: s.file.lane).Pairwise fun a b => seqOf a ≤ seqOf b
  below : ∀ c ∈ s.contents, seqOf c ≤ s.bound
  seen : ∀ sv ∈ s.saves, ∀ c, sv.stage = .loaded c → seqOf c ≤ s.bound
  noFail : ∀ sv ∈ s.saves, sv.stage ≠ .failed
  covered : ∀ r ∈ s.returned, s.Covers r
  increasing : s.returned.Pairwise (· < ·)
  /-- A call that has drawn a number has the newest one, and a save of it. -/
  saving : ∀ (j : Nat) (n : Int) (i : Nat), s.allocs[j]? = some (.saving n i) →
    s.lastKnownClientSeq = some n ∧ (∀ r ∈ s.returned, r < n) ∧
      ∃ sv, s.saves[i]? = some sv ∧ sv.patch = seqPatch n ∧ (sv.stage = .merged → s.Covers n)
  /-- A call that seeds the mirror has read a number no smaller than the one on disk. -/
  read : ∀ (j : Nat) (c : File), s.allocs[j]? = some (.seeding (some c)) →
    seqOf s.file.content ≤ seqOf c
  /-- A save that gives a number and has not been merged is that of the call in progress. -/
  owner : ∀ (i : Nat) (sv : Save), s.saves[i]? = some sv → sv.isMerged = false →
    sv.patch .lastClientSeq ≠ none → ∃ (j : Nat) (n : Int), s.allocs[j]? = some (.saving n i)

theorem rising_start (init : File) : Rising (start init []) where
  sorted := by simp [start]
  below := by simp [State.contents, State.bound, start]
  seen := by simp [start]
  noFail := by simp [start]
  covered := by simp [start]
  increasing := by simp [start]
  saving := by simp [start]
  read := by simp [start]
  owner := by simp [start]

theorem returned_le {s : State} (h : Rising s) {r : Int} (hr : r ∈ s.returned) : r ≤ s.bound := by
  obtain ⟨c, hc, hle⟩ := h.covered r hr
  exact hle.trans (h.below c hc)

theorem bound_nonneg {s : State} (h : Rising s) : 0 ≤ s.bound :=
  (seqOf_nonneg _).trans (h.below s.file.content List.mem_cons_self)

theorem covers_mono {s t : State} (h : ∀ c ∈ s.contents, t.Covers (seqOf c)) {n : Int}
    (hn : s.Covers n) : t.Covers n := by
  obtain ⟨c, hc, hle⟩ := hn
  obtain ⟨d, hd, hcd⟩ := h c hc
  exact ⟨d, hd, hle.trans hcd⟩

theorem covers_self {s : State} {c : File} (h : c ∈ s.contents) : s.Covers (seqOf c) :=
  ⟨c, h, le_refl _⟩

/-! ### Steps of the file -/

/-- A step that moves contents towards the file, lowering no number on the way. -/
theorem rising_storage {s t : State} (g : Gate s) (h : Rising s) (ha : t.allocs = s.allocs)
    (hs : t.saves = s.saves) (hr : t.returned = s.returned)
    (hm : t.lastKnownClientSeq = s.lastKnownClientSeq)
    (hsorted : (t.file.content :: t.file.lane).Pairwise fun a b => seqOf a ≤ seqOf b)
    (hcontent : seqOf s.file.content ≤ seqOf t.file.content)
    (hle : ∀ c ∈ t.contents, seqOf c ≤ s.bound) (hcov : ∀ c ∈ s.contents, t.Covers (seqOf c)) :
    Rising t := by
  have hbound : s.bound ≤ t.bound := by
    simp only [State.bound, hm]
    cases s.lastKnownClientSeq with
    | none => exact hcontent
    | some m => exact le_refl _
  exact {
    sorted := hsorted
    below := fun c hc => (hle c hc).trans hbound
    seen := fun sv hsv c hc => (h.seen sv (hs ▸ hsv) c hc).trans hbound
    noFail := hs ▸ h.noFail
    covered := fun r hmem => covers_mono hcov (h.covered r (hr ▸ hmem))
    increasing := hr ▸ h.increasing
    saving := by
      intro j n i hj
      obtain ⟨hlast, hreturned, sv, hsv, hpatch, hmerged⟩ := h.saving j n i (ha ▸ hj)
      exact ⟨hm.trans hlast, hr ▸ hreturned, sv, hs ▸ hsv, hpatch,
        fun hst => covers_mono hcov (hmerged hst)⟩
    read := by
      intro j c hj
      have hb : s.bound = seqOf s.file.content := by
        simp [State.bound, g.seeding j _ (ha ▸ hj)]
      exact ((hle _ List.mem_cons_self).trans_eq hb).trans (h.read j c (ha ▸ hj))
    owner := by
      intro i sv hsv hmerged hpatch
      obtain ⟨j, n, hj⟩ := h.owner i sv (hs ▸ hsv) hmerged hpatch
      exact ⟨j, n, ha ▸ hj⟩ }

theorem rising_issue {s : State} (g : Gate s) (h : Rising s) : Rising s.issue := by
  unfold State.issue
  split
  · exact h
  rename_i p hp
  have hcontents : ({ s with pending := none, writes := s.writes ++ [⟨stringify p, false⟩] } :
      State).contents = s.contents := by
    simp [State.contents, hp]
  refine rising_storage g h rfl rfl rfl rfl h.sorted (le_refl _) ?_ ?_
  · rw [hcontents]
    exact h.below
  · intro c hc
    exact covers_self (hcontents ▸ hc)

/-- A write that becomes ready has no smaller number than the newest one of the file. -/
theorem rising_ready {s : State} {k : Nat} {c : File} (g : Gate s) (h : Rising s)
    (hk : s.writes[k]? = some ⟨c, false⟩) (hc : seqOf s.file.latest ≤ seqOf c) :
    Rising { s with writes := s.writes.set k ⟨c, true⟩, file := s.file.join c } := by
  have hmem : ∀ d, d ∈ ({ s with writes := s.writes.set k ⟨c, true⟩, file := s.file.join c } :
      State).contents ↔ d ∈ s.contents := by
    intro d
    simp only [State.contents, SerializedFile.join, Chain.filter_set _ _ hk,
      Chain.filter_split (fun w : Write => !w.entered) hk]
    simp only [List.mem_cons, List.mem_append, List.map_append, Bool.not_true, Bool.not_false,
      Bool.false_eq_true, if_false, if_true, List.append_nil, List.map_cons, List.map_nil,
      List.not_mem_nil, or_false, or_assoc]
    exact or_congr_right (or_congr_right or_left_comm)
  refine rising_storage g h rfl rfl rfl rfl ?_ (le_refl _) (fun d hd => h.below d ((hmem d).mp hd))
    fun d hd => covers_self ((hmem d).mpr hd)
  have hlatest : ∀ d ∈ s.file.content :: s.file.lane, seqOf d ≤ seqOf s.file.latest :=
    SerializedFile.le_latest (R := fun a b => seqOf a ≤ seqOf b) (fun _ => le_refl _) h.sorted
  rw [SerializedFile.join, ← List.cons_append]
  refine List.pairwise_append.mpr ⟨h.sorted, List.pairwise_singleton _ _, fun d hd e he => ?_⟩
  rw [List.mem_singleton] at he
  exact he ▸ (hlatest d hd).trans hc

theorem rising_land {s : State} {f : SerializedFile File} (g : Gate s) (h : Rising s)
    (hf : s.file.land = some f) : Rising { s with file := f } := by
  have hl := SerializedFile.land_eq_some hf
  have hsorted := h.sorted
  rw [hl, List.pairwise_cons] at hsorted
  have hcontent : seqOf s.file.content ≤ seqOf f.content := hsorted.1 _ List.mem_cons_self
  have hcontents : s.contents = s.file.content :: ({ s with file := f } : State).contents := by
    simp [State.contents, hl]
  refine rising_storage g h rfl rfl rfl rfl hsorted.2 hcontent
    (fun c hc => h.below c (hcontents ▸ List.mem_cons_of_mem _ hc)) fun c hc => ?_
  rw [hcontents, List.mem_cons] at hc
  rcases hc with rfl | hc
  · exact ⟨f.content, List.mem_cons_self, hcontent⟩
  · exact covers_self hc

/-! ### Steps of the saves -/

/-- A step that adds a save without a number or moves one short of its merge. -/
theorem rising_saves {s : State} {saves : List Save} (h : Rising s)
    (hseen : ∀ sv ∈ saves, ∀ c, sv.stage = .loaded c → seqOf c ≤ s.bound)
    (hfail : ∀ sv ∈ saves, sv.stage ≠ .failed)
    (hold : ∀ (i : Nat) (sv : Save), s.saves[i]? = some sv →
      ∃ sv', saves[i]? = some sv' ∧ sv'.patch = sv.patch ∧ sv'.isMerged = sv.isMerged)
    (hnew : ∀ (i : Nat) (sv' : Save), saves[i]? = some sv' → sv'.patch .lastClientSeq ≠ none →
      ∃ sv, s.saves[i]? = some sv ∧ sv'.patch = sv.patch ∧ sv'.isMerged = sv.isMerged) :
    Rising { s with saves := saves } where
  sorted := h.sorted
  below := h.below
  seen := hseen
  noFail := hfail
  covered := h.covered
  increasing := h.increasing
  saving := by
    intro j n i hj
    obtain ⟨hlast, hreturned, sv, hsv, hpatch, hmerged⟩ := h.saving j n i hj
    obtain ⟨sv', hsv', hpatch', hmerged'⟩ := hold i sv hsv
    refine ⟨hlast, hreturned, sv', hsv', hpatch'.trans hpatch, fun hst => hmerged ?_⟩
    cases hstage : sv.stage <;> simp_all [Save.isMerged]
  read := h.read
  owner := by
    intro i sv' hsv' hmerged hpatch
    obtain ⟨sv, hsv, hpatch', hmerged'⟩ := hnew i sv' hsv' hpatch
    exact h.owner i sv hsv (hmerged' ▸ hmerged) (hpatch' ▸ hpatch)

theorem rising_save {s : State} {patch : Snapshot} (h : Rising s)
    (hpatch : patch .lastClientSeq = none) : Rising (s.save patch) := by
  refine rising_saves h ?_ (noFail_snoc h.noFail) ?_ ?_
  · intro sv hsv c hc
    rcases List.mem_append.mp hsv with hsv | hsv
    · exact h.seen sv hsv c hc
    · rw [List.mem_singleton.mp hsv] at hc
      simp at hc
  · intro i sv hi
    exact ⟨sv, Chain.getElem?_snoc_of _ hi, rfl, rfl⟩
  · intro i sv' hi hne
    rcases Chain.getElem?_snoc_cases hi with hi | ⟨-, rfl⟩
    · exact ⟨sv', hi, rfl, rfl⟩
    · exact absurd hpatch hne

theorem rising_read {s : State} {i : Nat} {patch : Snapshot} (h : Rising s)
    (hi : s.saves[i]? = some ⟨patch, .loading⟩) :
    Rising (s.setSave i ⟨patch, .loaded s.file.content⟩) := by
  refine rising_saves h ?_ (noFail_set h.noFail (by simp)) ?_ ?_
  · intro sv hsv c hc
    rcases List.mem_or_eq_of_mem_set hsv with hsv | rfl
    · exact h.seen sv hsv c hc
    · obtain rfl : s.file.content = c := by simpa using hc
      exact h.below _ List.mem_cons_self
  · intro k sv hk
    rcases Chain.getElem?_set_of _ hi hk with ⟨-, rfl, hset⟩ | ⟨-, hset⟩
    · exact ⟨_, hset, rfl, rfl⟩
    · exact ⟨sv, hset, rfl, rfl⟩
  · intro k sv' hk _
    rcases Chain.getElem?_set_cases hk with ⟨rfl, rfl⟩ | ⟨-, hk⟩
    · exact ⟨_, hi, rfl, rfl⟩
    · exact ⟨sv', hk, rfl, rfl⟩

/-- The number of the pending snapshot after a merge is in bounds, and no number is lost. -/
theorem merge_seq {s : State} {i : Nat} {patch : Snapshot} {seen : File} {now : String}
    (h : Rising s) (hi : s.saves[i]? = some ⟨patch, .loaded seen⟩)
    (hc : SeqKept s (.saveMerge i now)) :
    seqOf (stringify (debounced s.pending (mergedOf seen patch now))) ≤ s.bound ∧
      (∀ p ∈ s.pending, seqOf (stringify p) ≤
        seqOf (stringify (debounced s.pending (mergedOf seen patch now)))) ∧
      ∀ n, patch .lastClientSeq = some (some n) →
        n ≤ seqOf (stringify (debounced s.pending (mergedOf seen patch now))) := by
  have hpending : ∀ p ∈ s.pending, seqOf (stringify p) ≤ s.bound :=
    fun p hp => h.below _ (by simp [State.contents, Option.mem_def.mp hp])
  rw [seqOf_merge]
  cases hpatch : patch .lastClientSeq with
  | some v =>
    -- the save is the one of the call in progress, whose number is the mirror
    obtain ⟨j, n, hj⟩ := h.owner i _ hi rfl (by simp [hpatch])
    obtain ⟨hlast, -, sv, hsv, hsvpatch, -⟩ := h.saving j n i hj
    rw [hi, Option.some.injEq] at hsv
    have hgives : patch = seqPatch n := by
      rw [← hsv] at hsvpatch
      exact hsvpatch
    have hv : v = some n := by
      rw [hgives, seqPatch, Snapshot.set, Function.update_self, Option.some.injEq] at hpatch
      exact hpatch.symm
    have hbound : s.bound = n := by simp [State.bound, hlast]
    have hn : max n 0 = n := max_eq_left (hbound ▸ bound_nonneg h)
    simp only [hv, Option.getD_some, hn]
    refine ⟨hbound ▸ le_refl _, fun p hp => hbound ▸ hpending p hp, fun m hm => ?_⟩
    rw [Option.some.injEq, Option.some.injEq] at hm
    exact hm ▸ le_refl _
  | none =>
    simp only [SeqKept, hi, NumberKept] at hc
    have hkept := hc hpatch
    cases hs : seen .lastClientSeq with
    | some x =>
      refine ⟨h.seen _ (List.mem_of_getElem? hi) seen rfl, fun p hp => ?_, by simp⟩
      rcases hkept p hp with hnone | hle
      · simp [hs] at hnone
      · exact hle
    | none =>
      cases hp : s.pending with
      | none => exact ⟨by simpa using bound_nonneg h, by simp, by simp⟩
      | some p => exact ⟨by simpa using hpending p hp, by simp, by simp⟩

/-- A save that merges what it has loaded keeps the number. -/
theorem rising_merge {s : State} {i : Nat} {patch : Snapshot} {seen : File} {now : String}
    (h : Rising s) (hi : s.saves[i]? = some ⟨patch, .loaded seen⟩)
    (hc : SeqKept s (.saveMerge i now)) : Rising (s.merge i patch seen now) := by
  obtain ⟨hbound, hlast, hgiven⟩ := merge_seq h hi hc
  have hcontents : (s.merge i patch seen now).contents = s.file.content ::
      (s.file.lane ++ (s.writes.filter (!·.entered)).map (·.content)) ++
        [stringify (debounced s.pending (mergedOf seen patch now))] := by
    simp [State.contents, State.merge]
  have hcov : ∀ c ∈ s.contents, (s.merge i patch seen now).Covers (seqOf c) := by
    intro c hc
    rw [State.Covers, hcontents]
    rw [State.contents, ← List.cons_append, List.mem_append] at hc
    rcases hc with hc | hc
    · exact ⟨c, List.mem_append_left _ hc, le_refl _⟩
    · obtain ⟨p, hp, rfl⟩ : ∃ p ∈ s.pending, stringify p = c := by simpa using hc
      exact ⟨_, List.mem_append_right _ (List.mem_singleton.mpr rfl), hlast p hp⟩
  have hstage : ∀ sv ∈ (s.merge i patch seen now).saves, sv ∈ s.saves ∨ sv = ⟨patch, .merged⟩ :=
    fun sv hsv => List.mem_or_eq_of_mem_set hsv
  exact {
    sorted := h.sorted
    below := by
      intro c hc
      rw [hcontents] at hc
      rcases List.mem_append.mp hc with hc | hc
      · refine h.below c ?_
        rw [State.contents, ← List.cons_append]
        exact List.mem_append_left _ hc
      · exact List.mem_singleton.mp hc ▸ hbound
    seen := by
      intro sv hsv c hc
      rcases hstage sv hsv with hsv | rfl
      · exact h.seen sv hsv c hc
      · simp at hc
    noFail := noFail_set h.noFail (by simp)
    covered := fun r hr => covers_mono hcov (h.covered r hr)
    increasing := h.increasing
    saving := by
      intro j n k hj
      obtain ⟨hmirror, hreturned, sv, hsv, hpatch, hmerged⟩ := h.saving j n k hj
      refine ⟨hmirror, hreturned, ?_⟩
      rcases Chain.getElem?_set_of ⟨patch, .merged⟩ hi hsv with ⟨-, rfl, hset⟩ | ⟨-, hset⟩
      · refine ⟨_, hset, hpatch, fun _ => ⟨_, ?_, hgiven n ?_⟩⟩
        · rw [hcontents]
          exact List.mem_append_right _ (List.mem_singleton.mpr rfl)
        · have hp : patch = seqPatch n := hpatch
          rw [hp, seqPatch, Snapshot.set, Function.update_self]
      · exact ⟨sv, hset, hpatch, fun hst => covers_mono hcov (hmerged hst)⟩
    read := h.read
    owner := by
      intro k sv hk hmerged hpatch
      rcases Chain.getElem?_set_cases hk with ⟨-, rfl⟩ | ⟨-, hk⟩
      · simp [Save.isMerged] at hmerged
      · exact h.owner k sv hk hmerged hpatch }

/-! ### Steps of the allocations -/

/-- A step that moves calls between stages without a number. -/
theorem rising_allocs {s : State} {allocs : List Alloc} (h : Rising s)
    (hsaving : ∀ (j : Nat) (n : Int) (i : Nat),
      allocs[j]? = some (.saving n i) ↔ s.allocs[j]? = some (.saving n i))
    (hread : ∀ (j : Nat) (c : File), allocs[j]? = some (.seeding (some c)) →
      seqOf s.file.content ≤ seqOf c) :
    Rising { s with allocs := allocs } where
  sorted := h.sorted
  below := h.below
  seen := h.seen
  noFail := h.noFail
  covered := h.covered
  increasing := h.increasing
  saving := fun j n i hj => h.saving j n i ((hsaving j n i).mp hj)
  read := hread
  owner := by
    intro i sv hi hmerged hpatch
    obtain ⟨j, n, hj⟩ := h.owner i sv hi hmerged hpatch
    exact ⟨j, n, (hsaving j n i).mpr hj⟩

theorem rising_setAlloc {s : State} {j : Nat} {a b : Alloc} (h : Rising s)
    (hj : s.allocs[j]? = some a) (ha : a.drawn = none) (hb : b.drawn = none)
    (hread : ∀ c, b = .seeding (some c) → seqOf s.file.content ≤ seqOf c) :
    Rising (s.setAlloc j b) := by
  refine rising_allocs h (fun k n i => ⟨fun hk => ?_, fun hk => ?_⟩) fun k c hk => ?_
  · rcases Chain.getElem?_set_cases hk with ⟨-, rfl⟩ | ⟨-, hk⟩
    · simp [Alloc.drawn] at hb
    · exact hk
  · rcases Chain.getElem?_set_of b hj hk with ⟨-, rfl, -⟩ | ⟨-, hset⟩
    · simp [Alloc.drawn] at ha
    · exact hset
  · rcases Chain.getElem?_set_cases hk with ⟨-, rfl⟩ | ⟨-, hk⟩
    · exact hread c rfl
    · exact h.read k c hk

/-- The call whose turn it is draws the next number. -/
theorem rising_draw {s : State} {j : Nat} {last : Int} {a : Alloc} (h : Rising s)
    (hj : s.allocs[j]? = some a)
    (hidle : ∀ (k : Nat) (b : Alloc), k ≠ j → s.allocs[k]? = some b → b.isWaiting ∨ b.isSettled)
    (hsaving : ∀ n i, a ≠ .saving n i) (hlast : s.bound ≤ last) : Rising (s.draw j last) := by
  have hbound : s.bound ≤ (s.draw j last).bound := by
    simp only [State.bound, State.draw, Option.getD_some]
    exact hlast.trans (by omega)
  have hnone : ∀ (k : Nat) (n : Int) (i : Nat), s.allocs[k]? ≠ some (.saving n i) := by
    intro k n i hk
    by_cases hkj : k = j
    · rw [hkj, hj, Option.some.injEq] at hk
      exact hsaving n i hk
    · rcases hidle k _ hkj hk with hw | hs <;> simp [Alloc.isWaiting, Alloc.isSettled] at *
  exact {
    sorted := h.sorted
    below := fun c hc => (h.below c hc).trans hbound
    seen := by
      intro sv hsv c hc
      rcases List.mem_append.mp hsv with hsv | hsv
      · exact (h.seen sv hsv c hc).trans hbound
      · rw [List.mem_singleton.mp hsv] at hc
        simp at hc
    noFail := noFail_snoc h.noFail
    covered := h.covered
    increasing := h.increasing
    saving := by
      intro k n i hk
      rcases Chain.getElem?_set_cases hk with ⟨-, heq⟩ | ⟨-, hk⟩
      · rw [Alloc.saving.injEq] at heq
        obtain ⟨rfl, rfl⟩ := heq
        refine ⟨rfl, fun r hr => ?_, ⟨seqPatch (last + 1), .loading⟩, ?_, rfl, by simp⟩
        · exact (returned_le h hr).trans_lt (by omega)
        · simp [State.draw]
      · exact absurd hk (hnone k n i)
    read := by
      intro k c hk
      rcases Chain.getElem?_set_cases hk with ⟨-, heq⟩ | ⟨hkj, hk⟩
      · simp at heq
      · rcases hidle k _ (Ne.symm hkj) hk with hw | hs <;>
          simp [Alloc.isWaiting, Alloc.isSettled] at *
    owner := by
      intro i sv hi hmerged hpatch
      rcases Chain.getElem?_snoc_cases hi with hi | ⟨rfl, rfl⟩
      · obtain ⟨k, n, hk⟩ := h.owner i sv hi hmerged hpatch
        exact absurd hk (hnone k n i)
      · obtain ⟨hlt, -⟩ := List.getElem?_eq_some_iff.mp hj
        exact ⟨j, last + 1, List.getElem?_set_self hlt⟩ }

/-- A number that is returned is above those returned before. -/
theorem rising_return {s : State} {j i : Nat} {n : Int} (g : Gate s) (h : Rising s)
    (hj : s.allocs[j]? = some (.saving n i)) (hs : (s.saves[i]?).any Save.isSettled) :
    Rising { s.setAlloc j (.returned n) with returned := s.returned ++ [n] } := by
  have hbusy : ¬ (Alloc.saving n i).isWaiting ∧ ¬ (Alloc.saving n i).isSettled := by
    simp [Alloc.isWaiting, Alloc.isSettled]
  obtain ⟨hmirror, hreturned, sv, hsv, hpatch, hmerged⟩ := h.saving j n i hj
  have hdone : sv.isMerged = true ∧ sv.stage = .merged := by
    have hfail := h.noFail sv (List.mem_of_getElem? hsv)
    rw [hsv, Option.any_some] at hs
    cases hstage : sv.stage <;> simp_all [Save.isSettled, Save.isMerged]
  have halone : ∀ (k : Nat) (m : Int) (i' : Nat),
      (s.allocs.set j (.returned n))[k]? ≠ some (.saving m i') := by
    intro k m i' hk
    rcases Chain.getElem?_set_cases hk with ⟨-, heq⟩ | ⟨hkj, hk⟩
    · simp at heq
    · exact hkj (Chain.busy_unique g.inTurn hj hbusy hk (by simp [Alloc.isWaiting, Alloc.isSettled]))
  exact {
    sorted := h.sorted
    below := h.below
    seen := h.seen
    noFail := h.noFail
    covered := by
      intro r hr
      rcases List.mem_append.mp hr with hr | hr
      · exact h.covered r hr
      · rw [List.mem_singleton.mp hr]
        exact hmerged hdone.2
    increasing := by
      refine List.pairwise_append.mpr ⟨h.increasing, List.pairwise_singleton _ _, fun r hr m hm => ?_⟩
      rw [List.mem_singleton.mp hm]
      exact hreturned r hr
    saving := fun k m i' hk => absurd hk (halone k m i')
    read := by
      intro k c hk
      rcases Chain.getElem?_set_cases hk with ⟨-, heq⟩ | ⟨-, hk⟩
      · simp at heq
      · exact h.read k c hk
    owner := by
      -- a save still to merge would be that of another call in progress
      intro i' sv' hi' hunmerged hgives
      obtain ⟨k, m, hk⟩ := h.owner i' sv' hi' hunmerged hgives
      obtain rfl := Chain.busy_unique g.inTurn hj hbusy hk
        (by simp [Alloc.isWaiting, Alloc.isSettled])
      rw [hj, Option.some.injEq, Alloc.saving.injEq] at hk
      have hi' : s.saves[i']? = some sv' := hi'
      rw [← hk.2, hsv, Option.some.injEq] at hi'
      rw [← hi', hdone.1] at hunmerged
      exact absurd hunmerged (by simp) }

/-- The next process starts from a file that has every returned number behind it. -/
theorem rising_restart {s : State} (h : Rising s) (hp : s.pending = none)
    (hc : SeqKept s .restart) : Rising (start s.file.content s.returned) := by
  have hcov : ∀ c ∈ s.contents,
      (start s.file.content s.returned).Covers (seqOf c) := by
    intro c hmem
    refine ⟨s.file.content, by simp [State.contents, start], ?_⟩
    simp only [State.contents, hp, Option.map_none, Option.toList_none, List.append_nil,
      List.mem_cons, List.mem_append, List.mem_map, List.mem_filter] at hmem
    rcases hmem with rfl | hlane | ⟨w, ⟨hw, hentered⟩, rfl⟩
    · exact le_refl _
    · exact hc.2 c hlane
    · exact hc.1 w hw (by simpa using hentered)
  exact {
    sorted := by simp [start]
    below := by simp [State.contents, State.bound, start]
    seen := by simp [start]
    noFail := by simp [start]
    covered := fun r hr => covers_mono hcov (h.covered r hr)
    increasing := h.increasing
    saving := by simp [start]
    read := by simp [start]
    owner := by simp [start] }

/-- One step keeps the numbers rising, if it keeps the last one. -/
theorem rising_step {s t : State} {l : Label} (g : Gate s) (h : Rising s) (hc : SeqKept s l)
    (hst : step s l = some t) : Rising t := by
  cases step_moves hst with
  | save patch => exact rising_save h hc
  | saveRead hi => exact rising_read h hi
  | saveReadFail hi => exact absurd hc id
  | saveMerge hi => exact rising_merge h hi hc
  | timer => exact rising_issue g h
  | flush => exact rising_issue g h
  | writeReady hk => exact rising_ready g h hk (hc _ hk)
  | writeLand hf => exact rising_land g h hf
  | writeFail hf => exact absurd hc id
  | alloc =>
    refine rising_allocs h (fun j n i => ⟨fun hj => ?_, Chain.getElem?_snoc_of _⟩) fun j c hj => ?_
    · rcases Chain.getElem?_snoc_cases hj with hj | ⟨-, heq⟩
      · exact hj
      · simp at heq
    · rcases Chain.getElem?_snoc_cases hj with hj | ⟨-, heq⟩
      · exact h.read j c hj
      · simp at heq
  | allocWait hj hr hm => exact rising_setAlloc h hj rfl rfl (by simp)
  | allocStart hj hr hm =>
    refine rising_draw h hj
      (fun k b _ hk => Chain.ready_idle settled_not_waiting g.inTurn hj rfl hr hk) (by simp) ?_
    simp [State.bound, hm]
  | allocSeedRead hj =>
    refine rising_setAlloc h hj rfl rfl fun c hread => ?_
    obtain rfl : s.file.content = c := by simpa using hread
    exact le_refl _
  | allocSeedFail hj => exact absurd hc id
  | allocSeed hj =>
    refine rising_draw h hj (gate_alone g hj (by simp [Alloc.isWaiting, Alloc.isSettled]))
      (by simp) ?_
    simpa [State.bound, g.seeding _ _ hj] using h.read _ _ hj
  | allocReturn hj hs => exact rising_return g h hj hs
  | restart hp => exact rising_restart h hp hc

/-! ### Whole runs -/

/-- Every number returned is above all those returned before it, by this process or an earlier
    one. -/
theorem allocated_increasing {init : File} {ls : List Label} {s : State}
    (hm : Meets step SeqKept (start init []) ls) (hrun : run step (start init []) ls = some s) :
    s.returned.Pairwise (· < ·) := by
  have h : Gate s ∧ Rising s := Run.run_inv (I := fun s => Gate s ∧ Rising s)
    (fun _ _ _ hi hc hst => ⟨gate_step hi.1 hst, rising_step hi.1 hi.2 hc hst⟩) hm
    ⟨gate_start init [], rising_start init⟩ hrun
  exact h.2.increasing

def emptyDisk : File := stringify Snapshot.empty

/-- The first allocation of a process, which seeds the mirror. -/
def firstAlloc : List Label :=
  [.alloc, .allocStart 0, .allocSeedRead 0, .allocSeed 0, .saveRead 0, .saveMerge 0 "t",
    .allocReturn 0]

/-- A number is allocated and flushed, and the next process allocates another one. -/
def flushedRestart : List Label :=
  firstAlloc ++ [Label.flush, .writeReady 0, .writeLand, .restart] ++ firstAlloc

theorem allocated_increasing_flushed : ∃ s, run step (start emptyDisk []) flushedRestart = some s ∧
    s.returned = [1, 2] ∧ s.returned.Pairwise (· < ·) := by
  have hm : Meets step SeqKept (start emptyDisk []) flushedRestart := by decide
  exact ⟨_, rfl, rfl, allocated_increasing hm rfl⟩

/-- A health report is saved while the second number is pending, and the process is restarted once
    everything is flushed. -/
def reportOverPending : List Label :=
  firstAlloc ++ [Label.timer, .writeReady 0, .writeLand, .alloc, .allocStart 1, .saveRead 1,
    .saveMerge 1 "t", .allocReturn 1, saveHealthState .degraded Snapshot.empty, .saveRead 2,
    .saveMerge 2 "t", .flush, .writeReady 1, .writeLand, .restart] ++ firstAlloc

/-- The next process returns the second number again. -/
theorem number_returned_twice :
    ∃ s, run step (start emptyDisk []) reportOverPending = some s ∧ s.returned = [1, 2, 2] :=
  ⟨_, rfl, rfl⟩

end Empyralis.Gateway.Checkpoints
