import Empyralis.Gateway.Outbox

/-! The life of an outbox record over whole sequences of operations, each run from its read to its
    write before the next one starts.

    The invariant of the list (`WellFormed`) is that request ids are unique and the size is bounded.
    A record that has reached a terminal status is left alone by every operation except an attempt
    marker (`Op.revives`), which rewrites the status of whatever it finds. -/

namespace Empyralis.Gateway.Outbox

variable {π : Type*}

/-! ### Unique request ids, bounded size -/

structure WellFormed (items : List (Item π)) : Prop where
  nodup : (items.map (·.requestId)).Nodup
  bounded : items.length ≤ maxOutboxItems

theorem wellFormed_nil : WellFormed ([] : List (Item π)) := ⟨List.nodup_nil, Nat.zero_le _⟩

theorem updateItem_requestIds {r : String} {f : Item π → Item π}
    (hf : ∀ item, (f item).requestId = item.requestId) (items : List (Item π)) :
    (updateItem r f items).map (·.requestId) = items.map (·.requestId) := by
  rw [updateItem, List.map_map]
  refine List.map_congr_left fun item _ => ?_
  by_cases hr : item.requestId = r <;> simp [hr, hf]

theorem wellFormed_perform {items : List (Item π)} (h : WellFormed items) (op : Op π) :
    WellFormed (perform items op) := by
  rcases perform_cases items op with hs | ⟨r, mt, p, rep, id, now, _, hr, hlen, hs⟩ |
    ⟨r, f, hu, hs⟩ | ⟨now, _, hs⟩ <;> rw [hs]
  · exact h
  · refine ⟨?_, by simp only [List.length_append, List.length_singleton]; omega⟩
    rw [List.map_append, List.nodup_append']
    refine ⟨h.nodup, List.nodup_singleton _, ?_⟩
    simp only [List.map_singleton, List.disjoint_singleton, List.mem_map, not_exists, not_and]
    exact hr
  · refine ⟨?_, by simpa [updateItem] using h.bounded⟩
    rw [updateItem_requestIds fun item => (update_same hu item).2.1]
    exact h.nodup
  · exact ⟨h.nodup.sublist (List.filter_sublist.map _),
      (List.length_filter_le _ _).trans h.bounded⟩

theorem wellFormed_run (ops : List (Op π)) : WellFormed (ops.foldl perform []) := by
  induction ops using List.reverseRecOn with
  | nil => exact wellFormed_nil
  | append_singleton ops op ih =>
    rw [List.foldl_append]
    exact wellFormed_perform ih op

/-! ### What is replayed -/

theorem mem_listReplayablePending {items : List (Item π)} {item : Item π} :
    item ∈ listReplayablePending items ↔
      item ∈ items ∧ item.replayable = true ∧ item.status.isTerminal = false := by
  simp [listReplayablePending, List.mem_insertionSort]

theorem pending_or_failed {st : Status} (h : st.isTerminal = false) :
    st = .pending ∨ st = .failed := by
  cases st <;> simp [Status.isTerminal] at h ⊢

/-- The operation is neither a plain failure report for `r` nor an attempt marker for a record of
    `r` that has already ended. -/
def Undisturbed (r : String) (items : List (Item π)) : Op π → Prop
  | .markAttemptFailed r' _ _ => r' ≠ r
  | .markAttemptStarted r' _ =>
    r' = r → ∀ item ∈ items, item.requestId = r → item.status.isTerminal = false
  | _ => True

/-- A record of `r` is terminal, or pending with retries left. -/
def WithinLimit (r : String) (items : List (Item π)) : Prop :=
  ∀ item ∈ items, item.requestId = r →
    item.status.isTerminal = true ∨ (item.status = .pending ∧ item.retryCount < maxRetries)

theorem recordFailure_withinLimit {e : String} {st : Status} {keep : Bool} {now : Int}
    {item : Item π} (hst : keep = true ∨ st.isTerminal = true) :
    (recordFailure e st keep now item).status.isTerminal = true ∨
      ((recordFailure e st keep now item).status = .pending ∧
        (recordFailure e st keep now item).retryCount < maxRetries) := by
  unfold recordFailure
  cases ht : item.status.isTerminal
  · cases keep with
    | true =>
      by_cases hmax : maxRetries ≤ item.retryCount + 1
      · exact Or.inl (by simp [hmax, Status.isTerminal])
      · exact Or.inr (by simp [hmax]; omega)
    | false => exact Or.inl (by simpa using hst)
  · exact Or.inl (by simpa using ht)

/-- An undisturbing operation keeps the attempts within the limit. -/
theorem withinLimit_perform {r : String} {items : List (Item π)} {op : Op π}
    (h : WithinLimit r items) (hu : Undisturbed r items op) : WithinLimit r (perform items op) := by
  intro item hmem hr
  rcases mem_perform hmem with hmem | ⟨r', mt, p, rep, id, now, _, _, rfl⟩ |
    ⟨r', f, hup, old, hold, hr', rfl⟩
  · exact h item hmem hr
  · exact Or.inr ⟨rfl, by simp [newItem, maxRetries]⟩
  have hro : old.requestId = r := (update_same hup old).2.1 ▸ hr
  have hrr : r' = r := hr' ▸ hro
  have hlim := h old hold hro
  cases op <;> simp only [Op.update, Option.some.injEq, Prod.mk.injEq, reduceCtorEq] at hup <;>
    obtain ⟨rfl, rfl⟩ := hup
  case markAttemptStarted now =>
    have hopen : old.status.isTerminal = false := hu hrr old hold hro
    exact Or.inr ⟨rfl, (hlim.resolve_left (by simp [hopen])).2⟩
  case acknowledge now => exact Or.inl rfl
  case markAttemptFailed e now => exact absurd hrr hu
  case markUncertain e now => exact recordFailure_withinLimit (Or.inr rfl)
  case markForReplay e now => exact recordFailure_withinLimit (Or.inl rfl)

theorem withinLimit_run {r : String} (ops : List (Op π))
    (hops : ∀ pre op post, ops = pre ++ op :: post → Undisturbed r (pre.foldl perform []) op) :
    WithinLimit r (ops.foldl perform []) := by
  induction ops using List.reverseRecOn with
  | nil => simp [WithinLimit]
  | append_singleton ops op ih =>
    rw [List.foldl_append]
    refine withinLimit_perform (ih ?_) (hops ops op [] rfl)
    intro pre op' post hpre
    exact hops pre op' (post ++ [op]) (by simp [hpre])

/-! ### What is pruned -/

theorem prune_removes {items : List (Item π)} {now : Int} {item : Item π} (h : item ∈ items)
    (hgone : item ∉ perform items (.prune now)) :
    item.status.isTerminal = true ∧ item.updatedAt ≤ now - staleAgeMs := by
  rw [perform_prune, List.mem_filter, not_and, Bool.not_eq_true] at hgone
  simpa [keptByPrune] using hgone h

/-! ### What has ended stays ended -/

/-- The operations that can put a record of `r` back to `pending`. -/
def Op.revives (r : String) : Op π → Bool
  | .enqueue r' .. => r' == r
  | .markAttemptStarted r' _ => r' == r
  | _ => false

/-- Every record of `r` is terminal. -/
def Ended (r : String) (items : List (Item π)) : Prop :=
  ∀ item ∈ items, item.requestId = r → item.status.isTerminal = true

theorem ended_perform {r : String} {items : List (Item π)} {op : Op π} (h : Ended r items)
    (hop : op.revives r = false) : Ended r (perform items op) := by
  intro item hmem hr
  rcases mem_perform hmem with hmem | ⟨r', mt, p, rep, id, now, rfl, _, rfl⟩ |
    ⟨r', f, hup, old, hold, hr', rfl⟩
  · exact h item hmem hr
  · have hrr : r' = r := hr
    simp [Op.revives, hrr] at hop
  have hro : old.requestId = r := (update_same hup old).2.1 ▸ hr
  have hold : old.status.isTerminal = true := h old hold hro
  have hrr : r' = r := hr' ▸ hro
  cases op <;> simp only [Op.update, Option.some.injEq, Prod.mk.injEq, reduceCtorEq] at hup <;>
    obtain ⟨rfl, rfl⟩ := hup
  case markAttemptStarted now => simp [Op.revives, hrr] at hop
  case acknowledge now => rfl
  all_goals simp [recordFailure, hold]

theorem ended_run {r : String} {items : List (Item π)} (h : Ended r items) (ops : List (Op π))
    (hops : ∀ op ∈ ops, op.revives r = false) : Ended r (ops.foldl perform items) := by
  induction ops using List.reverseRecOn with
  | nil => exact h
  | append_singleton ops op ih =>
    rw [List.foldl_append]
    exact ended_perform (ih fun op' h' => hops op' (by simp [h'])) (hops op (by simp))

/-- In a well-formed list one terminal record of `r` is all records of `r`. -/
theorem ended_of_mem {r : String} {items : List (Item π)} (hw : WellFormed items) {item : Item π}
    (hmem : item ∈ items) (hr : item.requestId = r) (ht : item.status.isTerminal = true) :
    Ended r items := by
  intro other hother hr'
  have heq : other = item :=
    List.inj_on_of_nodup_map hw.nodup hother hmem (hr'.trans hr.symm)
  exact heq ▸ ht

/-- The life of the outbox over any sequence of operations. -/
theorem outbox_lifecycle (ops : List (Op π)) :
    ((ops.foldl perform []).map (·.requestId)).Nodup ∧
    (ops.foldl perform []).length ≤ maxOutboxItems ∧
    (∀ item ∈ listReplayablePending (ops.foldl perform []),
      item.replayable = true ∧ (item.status = .pending ∨ item.status = .failed) ∧
      ((∀ pre op post, ops = pre ++ op :: post →
          Undisturbed item.requestId (pre.foldl perform []) op) →
        item.status = .pending ∧ item.retryCount < maxRetries)) ∧
    (∀ now, ∀ item ∈ ops.foldl perform [], item ∉ perform (ops.foldl perform []) (.prune now) →
      item.status.isTerminal = true ∧ item.updatedAt ≤ now - staleAgeMs) ∧
    (∀ item ∈ ops.foldl perform [], item.status.isTerminal = true →
      ∀ later : List (Op π), (∀ op ∈ later, op.revives item.requestId = false) →
        ∀ item' ∈ (ops ++ later).foldl perform [], item'.requestId = item.requestId →
          item'.status.isTerminal = true ∧
            item' ∉ listReplayablePending ((ops ++ later).foldl perform [])) := by
  have hw := wellFormed_run ops
  refine ⟨hw.nodup, hw.bounded, ?_, fun now item hmem => prune_removes hmem, ?_⟩
  · intro item hitem
    obtain ⟨hmem, hrep, hopen⟩ := mem_listReplayablePending.mp hitem
    refine ⟨hrep, pending_or_failed hopen, fun hops => ?_⟩
    exact (withinLimit_run ops hops item hmem rfl).resolve_left (by simp [hopen])
  · intro item hmem ht later hlater item' hmem' hr'
    rw [List.foldl_append] at hmem' ⊢
    have hended := ended_run (ended_of_mem hw hmem rfl ht) later hlater
    have ht' := hended item' hmem' hr'
    exact ⟨ht', fun hlist => by simp [(mem_listReplayablePending.mp hlist).2.2] at ht'⟩

/-- A plain failure report leaves a replayable record `failed`, replayable and without a limit. -/
theorem failed_record_replayed :
    ∃ item ∈ listReplayablePending
        (([.enqueue "req-1" "gateway.state.update" () none "item-1" 0,
          .markAttemptFailed "req-1" "refused" 1, .markAttemptFailed "req-1" "refused" 2,
          .markAttemptFailed "req-1" "refused" 3, .markAttemptFailed "req-1" "refused" 4,
          .markAttemptFailed "req-1" "refused" 5] : List (Op Unit)).foldl perform []),
      item.status ≠ .pending ∧ maxRetries ≤ item.retryCount := by
  decide

end Empyralis.Gateway.Outbox
