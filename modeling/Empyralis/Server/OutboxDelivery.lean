import Empyralis.Lib.Run
import Empyralis.Server.OutboxRows

/-! The deliverers of the durable outbox. Each takes a claim on the events that are due, and then, one
    after the other, delivers them and marks what came of it under the token of its claim. -/

namespace Empyralis.Server.OutboxDelivery
open RunState OutboxRows

/-- `OUTBOX_DELIVERY_RETRY_BACKOFF_SECONDS` -/
def outboxDeliveryRetryBackoffSeconds : List Int := [5, 15, 30, 60, 120]

/-- As many attempts as there are delays. -/
def outboxMaxDeliveryAttempts : Nat := outboxDeliveryRetryBackoffSeconds.length

/-- `_delivery_retry_delay_for_attempt` -/
def deliveryRetryDelayForAttempt (attemptNumber : Nat) : Option Int :=
  if outboxMaxDeliveryAttempts ≤ attemptNumber then none
  else outboxDeliveryRetryBackoffSeconds[attemptNumber - 1]?

theorem poison_iff (attemptNumber : Nat) : (deliveryRetryDelayForAttempt attemptNumber).isNone = true ↔
    outboxMaxDeliveryAttempts ≤ attemptNumber := by
  unfold deliveryRetryDelayForAttempt
  split
  · rename_i h
    exact iff_of_true rfl h
  · rename_i h
    refine iff_of_false ?_ h
    have hlt : attemptNumber - 1 < outboxDeliveryRetryBackoffSeconds.length := by
      rw [not_le, outboxMaxDeliveryAttempts] at h
      omega
    simp [List.getElem?_eq_getElem hlt]

/-- What comes of one delivery: the sink takes the event, fails with an error, or asks for a later try
    with `OutboxRetryLater`. -/
inductive Outcome where
  | delivered
  | failed (error : String)
  | later (error : String) (retryDelaySeconds : Int)

/-- An event of a claim, as the deliverer has it. -/
structure Item where
  event : Token
  claimToken : Token
  retryCount : Nat
  deriving DecidableEq

/-- The statement with which `deliver_due_outbox_events_once` ends a delivery. -/
def finish (now : Int) (item : Item) : Outcome → Event → Option Event
  | .delivered => markOutboxEventDelivered now item.claimToken
  | .failed error =>
    let retryDelaySeconds := deliveryRetryDelayForAttempt (item.retryCount + 1)
    recordOutboxDeliveryFailure now item.claimToken (orText error "delivery failed")
      retryDelaySeconds retryDelaySeconds.isNone true
  | .later error retryDelaySeconds =>
    recordOutboxDeliveryFailure now item.claimToken (orText error "retry later")
      (some (max 1 retryDelaySeconds)) false false

/-- A failure that is recorded counts, unless a later try was asked for. -/
def Outcome.counted : Outcome → Bool
  | .failed _ => true
  | _ => false

/-! ### Runs -/

/-- The rows, the time, the events that deliverers hold, and two histories: the tokens that were made for
    an event and how many failures of it were recorded and counted. -/
structure State where
  clock : Int
  rows : Rows
  items : List (Nat × Item)
  issued : Token → List Token
  failures : Token → Nat

/-- `through` says that the statement of a delivery was reached and the database took it. -/
inductive Label where
  | persist (now : Int) (e : NewEvent)
  | claim (now : Int) (deliverer : Nat) (r : ClaimRequest) (chosen : List (Token × Token))
  | deliver (now : Int) (deliverer : Nat) (outcome : Outcome) (through : Bool)
  | patch (now : Int) (eventId : String) (patch : Fields)

def Label.now : Label → Int
  | .persist now _ => now
  | .claim now .. => now
  | .deliver now .. => now
  | .patch now .. => now

def start (clock : Int) : State := ⟨clock, Table.empty, [], fun _ => [], fun _ => 0⟩

/-- The items of a claim, from the rows that its statement returns. -/
def claimedItems (rows : Rows) (deliverer : Nat) (chosen : List (Token × Token)) : List (Nat × Item) :=
  chosen.filterMap fun choice =>
    (rows.get? choice.1).map fun e => (deliverer, ⟨choice.1, choice.2, e.retryCount⟩)

def issue (chosen : List (Token × Token)) (issued : Token → List Token) (id : Token) : List Token :=
  (chosen.lookup id).toList ++ issued id

/-- The next item of a deliverer. -/
def next (s : State) (deliverer : Nat) : Option Item :=
  (s.items.find? fun item => item.1 = deliverer).map Prod.snd

/-- The items without the next one of the deliverer. -/
def rest (s : State) (deliverer : Nat) : List (Nat × Item) :=
  s.items.eraseP fun item => item.1 = deliverer

/-- One more failure of an event. -/
def counting (failures : Token → Nat) (id other : Token) : Nat :=
  failures other + if other = id then 1 else 0

/-- One statement, with what the deliverers hold after it. -/
def act (s : State) : Label → Option State
  | .persist now e => some { s with rows := (persistOutboxEvent now s.rows e).2 }
  | .claim now deliverer r chosen =>
    if claimable now r s.rows chosen then
      some { s with
        rows := claimRows now r s.rows chosen
        items := s.items ++ claimedItems s.rows deliverer chosen
        issued := issue chosen s.issued }
    else none
  | .deliver now deliverer outcome through =>
    (next s deliverer).map fun item =>
      if through then
        let (row, rows) := Sql.update s.rows item.event (finish now item outcome)
        { s with
          rows
          items := rest s deliverer
          failures := if row.isSome && outcome.counted then counting s.failures item.event
            else s.failures }
      else { s with items := rest s deliverer }
  | .patch now eventId patch => some { s with rows := patchOutboxEventPayload now s.rows eventId patch }

/-- Time does not go back. -/
def step (s : State) (l : Label) : Option State :=
  if s.clock ≤ l.now then (act s l).map fun t => { t with clock := l.now } else none

/-- The tokens that a claim makes are random, so they are not those of an earlier claim. -/
def freshTokens (s : State) : Label → Bool
  | .claim _ _ _ chosen => chosen.all fun choice => !(s.issued choice.1).contains choice.2
  | _ => true

def FreshTokens (s : State) (l : Label) : Prop := freshTokens s l = true

instance (s : State) (l : Label) : Decidable (FreshTokens s l) := inferInstanceAs (Decidable (_ = true))

/-- The label ends a delivery of the event by the deliverer that has its current token. -/
def Holder (s : State) (l : Label) (id : Token) (e : Event) : Prop :=
  ∃ now deliverer outcome item, l = .deliver now deliverer outcome true ∧
    next s deliverer = some item ∧ item.event = id ∧ e.claimToken = some item.claimToken

/-- What is claimed of one step, from `s` to `t`. -/
structure Lifecycle (s : State) (l : Label) (t : State) : Prop where
  /-- An event that is delivered stays so, at the same time. -/
  delivered : ∀ id e, s.rows.get? id = some e → e.deliveredAt.isSome →
    ∃ new, t.rows.get? id = some new ∧ new.deliveredAt = e.deliveredAt
  /-- An event that is poisoned stays so, at the same time. -/
  poisoned : ∀ id e, s.rows.get? id = some e → e.poisonedAt.isSome →
    ∃ new, t.rows.get? id = some new ∧ new.poisonedAt = e.poisonedAt
  /-- An event that is delivered or poisoned is not claimed. -/
  unclaimed : ∀ id e, s.rows.get? id = some e → e.deliveredAt.isSome ∨ e.poisonedAt.isSome →
    ∀ now deliverer r chosen, l = .claim now deliverer r chosen → id ∉ chosen.map Prod.fst
  /-- Only the holder of the current token changes how the delivery stands. A patch of the payload
      notes its time. -/
  fenced : ∀ id e new, s.rows.get? id = some e → t.rows.get? id = some new →
    new.toDelivery = e.toDelivery ∨ Holder s l id e ∨ ∃ now eventId patch,
      l = .patch now eventId patch ∧ new.toDelivery = { e.toDelivery with lastReplayedAt := some now }
  /-- A token is held for one item by one deliverer. -/
  holders : (t.items.map fun item => (item.2.event, item.2.claimToken)).Nodup
  /-- An event is poisoned when its fifth failure has been recorded, and then no other is. -/
  counted : ∀ id e, t.rows.get? id = some e →
    (e.poisonedAt.isSome ↔ t.failures id = outboxMaxDeliveryAttempts) ∧
      t.failures id ≤ outboxMaxDeliveryAttempts

/-- A step of the delivery keeps to the lifecycle. -/
def Faithful (s : State) (l : Label) : Prop := ∀ t, step s l = some t → Lifecycle s l t

/-! ### The invariant -/

/-- The count of a row is that of the failures recorded, it is poisoned at the fifth, and a row that is
    poisoned has no claim. -/
structure Sound (issued : List Token) (failures : Nat) (e : Event) : Prop where
  retryCount : e.retryCount = failures
  bounded : failures ≤ outboxMaxDeliveryAttempts
  poisoned : e.poisonedAt.isSome ↔ failures = outboxMaxDeliveryAttempts
  released : e.poisonedAt.isSome → e.claimToken = none
  issued : ∀ token, e.claimToken = some token → token ∈ issued

/-- An item has a token that was made for its event, and the count of the row while it is current. -/
def Current (s : State) (item : Item) : Prop :=
  item.claimToken ∈ s.issued item.event ∧
    ∀ e, s.rows.get? item.event = some e → e.claimToken = some item.claimToken →
      item.retryCount = e.retryCount

/-- What every reachable state has. -/
structure Inv (s : State) : Prop where
  sound : ∀ id e, s.rows.get? id = some e → Sound (s.issued id) (s.failures id) e
  unknown : ∀ id, s.rows.get? id = none → s.failures id = 0
  items : ∀ item ∈ s.items, Current s item.2
  holders : (s.items.map fun item => (item.2.event, item.2.claimToken)).Nodup

theorem inv_start (clock : Int) : Inv (start clock) where
  sound id e h := by cases h
  unknown id _ := rfl
  items item h := by cases h
  holders := List.nodup_nil

variable {s t : State} {now : Int}

/-- A row that is written outside of a delivery: it is new, or its count, its poison and its claim are
    those it had. -/
inductive Kept : Option Event → Option Event → Prop where
  | same (x : Option Event) : Kept x x
  | new (e : Event) (hdelivery : e.toDelivery = undelivered) (hclaim : e.toClaim = OutboxRows.unclaimed) :
      Kept none (some e)
  | old (e new : Event) (hcount : new.retryCount = e.retryCount)
      (hpoison : new.poisonedAt = e.poisonedAt) (hclaim : new.toClaim = e.toClaim) :
      Kept (some e) (some new)

theorem kept_persist {rows : Rows} (e : NewEvent) (id : Token) :
    Kept (rows.get? id) ((persistOutboxEvent now rows e).2.get? id) := by
  rcases persist_get now rows e id with h | ⟨h, hnone⟩ | ⟨old, hold, h⟩
  · rw [h]
    exact .same _
  · rw [h, hnone]
    exact .new _ rfl rfl
  · rw [h, hold]
    have hdelivery := repersist_toDelivery e.content old
    exact .old _ _ (congrArg Delivery.retryCount hdelivery) (congrArg Delivery.poisonedAt hdelivery)
      (repersist_toClaim e.content old)

theorem kept_patch {rows : Rows} (eventId : String) (patch : Fields) (id : Token) :
    Kept (rows.get? id) ((patchOutboxEventPayload now rows eventId patch).get? id) := by
  rcases patch_get now rows eventId patch id with h | ⟨old, hold, h⟩
  · rw [h]
    exact .same _
  · rw [h, hold]
    exact .old _ _ rfl rfl rfl

theorem sound_new {e : Event} (hdelivery : e.toDelivery = undelivered)
    (hclaim : e.toClaim = OutboxRows.unclaimed) (issued : List Token) : Sound issued 0 e where
  retryCount := by rw [hdelivery]; rfl
  bounded := Nat.zero_le _
  poisoned := by
    rw [hdelivery]
    exact iff_of_false (by decide) (by decide)
  released _ := by rw [hclaim]; rfl
  issued token h := by
    rw [hclaim] at h
    cases h

/-- A run keeps its invariant when each row is kept. -/
theorem inv_of_kept (hi : Inv s) {rows : Rows} (h : ∀ id, Kept (s.rows.get? id) (rows.get? id)) :
    Inv { s with rows } where
  sound id e he := by
    have hk := h id
    change rows.get? id = some e at he
    rw [he] at hk
    generalize hx : s.rows.get? id = x at hk
    cases hk with
    | same => exact hi.sound id e hx
    | new _ hdelivery hclaim =>
      have hzero : s.failures id = 0 := hi.unknown id hx
      exact hzero ▸ sound_new hdelivery hclaim _
    | old old _ hcount hpoison hclaim =>
      obtain ⟨hretry, hbound, hpoisoned, hreleased, hissued⟩ := hi.sound id old hx
      have htoken : e.claimToken = old.claimToken := congrArg Claim.claimToken hclaim
      refine ⟨hcount.trans hretry, hbound, ?_, ?_, ?_⟩
      · rwa [hpoison]
      · rwa [hpoison, htoken]
      · rwa [htoken]
  unknown id hnone := by
    have hk := h id
    change rows.get? id = none at hnone
    rw [hnone] at hk
    generalize hx : s.rows.get? id = x at hk
    cases hk with
    | same => exact hi.unknown id hx
  items item hmem := by
    obtain ⟨hissued, hcount⟩ := hi.items item hmem
    refine ⟨hissued, fun e he htoken => ?_⟩
    have hk := h item.2.event
    change rows.get? item.2.event = some e at he
    rw [he] at hk
    generalize hx : s.rows.get? item.2.event = x at hk
    cases hk with
    | same => exact hcount e hx htoken
    | new _ _ hclaim =>
      rw [show e.claimToken = none from congrArg Claim.claimToken hclaim] at htoken
      cases htoken
    | old old _ hretry _ hclaim =>
      rw [show e.claimToken = old.claimToken from congrArg Claim.claimToken hclaim] at htoken
      rw [hretry]
      exact hcount old hx htoken
  holders := hi.holders

/-! ### Claims -/

section Claims

variable {deliverer : Nat} {r : ClaimRequest} {chosen : List (Token × Token)}

theorem claimable_nodup {rows : Rows} (hc : claimable now r rows chosen) :
    (chosen.map Prod.fst).Nodup := by
  simp only [claimable, Bool.and_eq_true, decide_eq_true_eq] at hc
  exact hc.1.1

/-- The row of an event after a claim. -/
theorem claimed_row (hc : claimable now r s.rows chosen) {id : Token} {new : Event}
    (h : (claimRows now r s.rows chosen).get? id = some new) :
    ∃ e, s.rows.get? id = some e ∧
      ((chosen.lookup id = none ∧ new = e) ∨
        ∃ token, chosen.lookup id = some token ∧ due now r e ∧ new = claimRow now r token e) := by
  simp only [claimable, Bool.and_eq_true, decide_eq_true_eq, List.all_eq_true] at hc
  obtain ⟨⟨hnodup, -⟩, hdue⟩ := hc
  rw [claimRows_get id hnodup, Option.map_eq_some_iff] at h
  obtain ⟨e, he, hnew⟩ := h
  refine ⟨e, he, ?_⟩
  cases hlookup : chosen.lookup id with
  | none =>
    rw [hlookup] at hnew
    exact .inl ⟨rfl, hnew.symm⟩
  | some token =>
    rw [hlookup] at hnew
    refine .inr ⟨token, rfl, ?_, hnew.symm⟩
    have hmem := hdue _ ((Table.lookup_eq_some hnodup).mp hlookup)
    rwa [he, Option.any_some] at hmem

theorem not_due_of_marked {e : Event} (h : e.deliveredAt.isSome ∨ e.poisonedAt.isSome) :
    due now r e = false := by
  rcases h with h | h
  · simp [due, Option.isNone_eq_false_iff.mpr h]
  · simp [due, Option.isNone_eq_false_iff.mpr h]

theorem mem_claimedItems {item : Nat × Item} (h : item ∈ claimedItems s.rows deliverer chosen) :
    (item.2.event, item.2.claimToken) ∈ chosen ∧
      ∃ e, s.rows.get? item.2.event = some e ∧ item.2.retryCount = e.retryCount := by
  obtain ⟨⟨id, token⟩, hmem, hitem⟩ := List.mem_filterMap.mp h
  rw [Option.map_eq_some_iff] at hitem
  obtain ⟨e, he, rfl⟩ := hitem
  exact ⟨hmem, e, he, rfl⟩

/-- The tokens of the items of a claim are those that were made for it. -/
theorem claimedItems_tokens : ((claimedItems s.rows deliverer chosen).map fun item =>
    (item.2.event, item.2.claimToken)).Sublist chosen := by
  have hfilter : ∀ chosen : List (Token × Token),
      (claimedItems s.rows deliverer chosen).map (fun item => (item.2.event, item.2.claimToken)) =
        chosen.filter fun choice => (s.rows.get? choice.1).isSome := by
    intro chosen
    induction chosen with
    | nil => rfl
    | cons choice chosen ih =>
      unfold claimedItems at ih ⊢
      cases hrow : s.rows.get? choice.1 with
      | none => simpa [hrow] using ih
      | some e => simpa [hrow] using ih
  rw [hfilter]
  exact List.filter_sublist

theorem inv_claim (hi : Inv s) (hc : claimable now r s.rows chosen)
    (hfresh : ∀ choice ∈ chosen, choice.2 ∉ s.issued choice.1) :
    Inv { s with
      rows := claimRows now r s.rows chosen
      items := s.items ++ claimedItems s.rows deliverer chosen
      issued := issue chosen s.issued } where
  sound id new hnew := by
    obtain ⟨e, he, h⟩ := claimed_row hc hnew
    obtain ⟨hretry, hbound, hpoisoned, hreleased, hissued⟩ := hi.sound id e he
    rcases h with ⟨-, rfl⟩ | ⟨token, hlookup, hdue, rfl⟩
    · exact ⟨hretry, hbound, hpoisoned, hreleased,
        fun token h => List.mem_append_right _ (hissued token h)⟩
    · refine ⟨hretry, hbound, hpoisoned, fun hpoison => ?_, fun other hother => ?_⟩
      · rw [not_due_of_marked (e := e) (.inr hpoison)] at hdue
        cases hdue
      · cases hother
        exact List.mem_append_left _ (by rw [hlookup]; exact List.mem_singleton_self _)
  unknown id hnone := by
    have hnodup := claimable_nodup hc
    change (claimRows now r s.rows chosen).get? id = none at hnone
    rw [claimRows_get id hnodup, Option.map_eq_none_iff] at hnone
    exact hi.unknown id hnone
  items item hmem := by
    rcases List.mem_append.mp hmem with hmem | hmem
    · obtain ⟨hissued, hcount⟩ := hi.items item hmem
      refine ⟨List.mem_append_right _ hissued, fun new hnew htoken => ?_⟩
      obtain ⟨e, he, h⟩ := claimed_row hc hnew
      rcases h with ⟨-, rfl⟩ | ⟨token, hlookup, -, rfl⟩
      · exact hcount _ he htoken
      · cases htoken
        have hnodup := claimable_nodup hc
        exact absurd hissued (hfresh _ ((Table.lookup_eq_some hnodup).mp hlookup))
    · obtain ⟨hchosen, e, he, hcount⟩ := mem_claimedItems hmem
      have hnodup := claimable_nodup hc
      have hlookup := (Table.lookup_eq_some hnodup).mpr hchosen
      refine ⟨List.mem_append_left _ (by rw [hlookup]; exact List.mem_singleton_self _), ?_⟩
      intro new hnew _
      obtain ⟨e', he', h⟩ := claimed_row hc hnew
      cases he.symm.trans he'
      rcases h with ⟨-, rfl⟩ | ⟨token, -, -, rfl⟩ <;> exact hcount
  holders := by
    have hnodup := claimable_nodup hc
    rw [List.map_append]
    refine hi.holders.append (claimedItems_tokens.nodup (List.Nodup.of_map _ hnodup)) ?_
    intro pair hold hnew
    obtain ⟨item, hmem, rfl⟩ := List.mem_map.mp hold
    exact hfresh _ (claimedItems_tokens.subset hnew) (hi.items item hmem).1

end Claims

/-! ### Deliveries -/

section Deliveries

variable {item : Item} {outcome : Outcome} {e new : Event}

/-- A delivery ends by a mark under the token of its item, which clears the claim. -/
theorem finish_spec (h : finish now item outcome e = some new) :
    e.claimToken = some item.claimToken ∧ e.deliveredAt = none ∧
      new.toClaim = OutboxRows.unclaimed ∧
      new.retryCount = e.retryCount + (if outcome.counted then 1 else 0) ∧
      (new.poisonedAt.isSome ↔ outcome.counted ∧ outboxMaxDeliveryAttempts ≤ item.retryCount + 1) := by
  cases outcome with
  | delivered =>
    simp only [finish, markOutboxEventDelivered, Option.ite_none_right_eq_some] at h
    obtain ⟨hfenced, hnew⟩ := h
    obtain ⟨htoken, hopen⟩ := fenced_iff.mp hfenced
    cases hnew
    exact ⟨htoken, hopen, rfl, rfl, by simp [delivered, Outcome.counted]⟩
  | failed error =>
    simp only [finish, recordOutboxDeliveryFailure, Option.ite_none_right_eq_some] at h
    obtain ⟨hfenced, hnew⟩ := h
    obtain ⟨htoken, hopen⟩ := fenced_iff.mp hfenced
    cases hnew
    refine ⟨htoken, hopen, rfl, rfl, ?_⟩
    rw [← poison_iff]
    simp only [OutboxRows.failed, Outcome.counted, true_and]
    split <;> simp [*]
  | later error retryDelaySeconds =>
    simp only [finish, recordOutboxDeliveryFailure, Option.ite_none_right_eq_some] at h
    obtain ⟨hfenced, hnew⟩ := h
    obtain ⟨htoken, hopen⟩ := fenced_iff.mp hfenced
    cases hnew
    exact ⟨htoken, hopen, rfl, rfl, by simp [OutboxRows.failed, Outcome.counted]⟩

theorem next_mem {deliverer : Nat} (h : next s deliverer = some item) :
    ∃ entry ∈ s.items, entry.2 = item := by
  rw [next, Option.map_eq_some_iff] at h
  obtain ⟨entry, hfind, rfl⟩ := h
  exact ⟨entry, List.mem_of_find?_eq_some hfind, rfl⟩

/-- Without its statement a delivery only drops its item. -/
theorem inv_drop (hi : Inv s) (deliverer : Nat) : Inv { s with items := rest s deliverer } where
  sound := hi.sound
  unknown := hi.unknown
  items entry hmem := hi.items entry (List.mem_of_mem_eraseP hmem)
  holders := (List.eraseP_sublist.map _).nodup hi.holders

/-- A failure that counts is the fifth just when it poisons the event. -/
theorem sound_finish {issued : List Token} {failures : Nat} (hs : Sound issued failures e)
    (hcount : e.claimToken = some item.claimToken → item.retryCount = e.retryCount)
    (h : finish now item outcome e = some new) :
    Sound issued (failures + if outcome.counted then 1 else 0) new := by
  obtain ⟨htoken, -, hclaim, hretry, hpoison⟩ := finish_spec h
  -- an event with a claim is not poisoned, so fewer than five failures of it have been recorded
  have hopen : ¬ e.poisonedAt.isSome := fun hp => by
    rw [hs.released hp] at htoken
    cases htoken
  have hlt : failures < outboxMaxDeliveryAttempts :=
    lt_of_le_of_ne hs.bounded fun heq => hopen (hs.poisoned.mpr heq)
  have hitem : item.retryCount = failures := (hcount htoken).trans hs.retryCount
  have hnone : new.claimToken = none := congrArg Claim.claimToken hclaim
  refine ⟨by rw [hretry, hs.retryCount], ?_, ?_, fun _ => hnone, ?_⟩
  · split <;> omega
  · rw [hpoison, hitem]
    cases outcome.counted with
    | true => simp only [true_and, if_true]; omega
    | false => simp only [Bool.false_eq_true, false_and, if_false, false_iff]; omega
  · intro token h
    rw [hnone] at h
    cases h

/-- A delivery whose mark has found the row. -/
theorem inv_finish (hi : Inv s) {deliverer : Nat} (hnext : next s deliverer = some item)
    (he : s.rows.get? item.event = some e) (hnew : finish now item outcome e = some new) :
    Inv { s with
      rows := s.rows.put item.event new
      items := rest s deliverer
      failures := if outcome.counted then counting s.failures item.event else s.failures } where
  sound id row hrow := by
    change (s.rows.put item.event new).get? id = some row at hrow
    rw [Table.get?_put] at hrow
    obtain ⟨entry, hmem, rfl⟩ := next_mem hnext
    split at hrow
    · rename_i hid
      subst hid
      cases hrow
      have hsound := sound_finish (hi.sound _ e he) ((hi.items entry hmem).2 e he) hnew
      cases hc : outcome.counted <;> simpa [hc, counting] using hsound
    · rename_i hid
      have hsame : (if outcome.counted then counting s.failures entry.2.event else s.failures) id =
          s.failures id := by
        split
        · rw [counting, if_neg hid, Nat.add_zero]
        · rfl
      have hsound := hi.sound id row hrow
      rwa [← hsame] at hsound
  unknown id hnone := by
    change (s.rows.put item.event new).get? id = none at hnone
    rw [Table.get?_put] at hnone
    split at hnone
    · cases hnone
    · rename_i hid
      change (if outcome.counted then counting s.failures item.event else s.failures) id = 0
      split
      · rw [counting, if_neg hid, Nat.add_zero, hi.unknown id hnone]
      · exact hi.unknown id hnone
  items entry hmem := by
    obtain ⟨hissued, hcount⟩ := hi.items entry (List.mem_of_mem_eraseP hmem)
    refine ⟨hissued, fun row hrow htoken => ?_⟩
    change (s.rows.put item.event new).get? entry.2.event = some row at hrow
    rw [Table.get?_put] at hrow
    split at hrow
    · cases hrow
      obtain ⟨-, -, hclaim, -⟩ := finish_spec hnew
      rw [show new.claimToken = none from congrArg Claim.claimToken hclaim] at htoken
      cases htoken
    · exact hcount row hrow htoken
  holders := (List.eraseP_sublist.map _).nodup hi.holders

end Deliveries

/-! ### Steps -/

/-- The mark of a delivery finds a row it may write, or does nothing. -/
theorem act_deliver {deliverer : Nat} {outcome : Outcome} {through : Bool}
    (h : act s (.deliver now deliverer outcome through) = some t) :
    ∃ item, next s deliverer = some item ∧
      (t = { s with items := rest s deliverer } ∨
        ∃ e new, through = true ∧ s.rows.get? item.event = some e ∧
          finish now item outcome e = some new ∧
          t = { s with
            rows := s.rows.put item.event new
            items := rest s deliverer
            failures := if outcome.counted then counting s.failures item.event else s.failures }) := by
  rw [act, Option.map_eq_some_iff] at h
  obtain ⟨item, hnext, rfl⟩ := h
  refine ⟨item, hnext, ?_⟩
  cases through with
  | false => exact .inl rfl
  | true =>
    cases hrow : s.rows.get? item.event with
    | none =>
      refine .inl ?_
      rw [if_pos rfl, Sql.update_none fun old hold => by rw [hrow] at hold; cases hold]
      rfl
    | some e =>
      cases hnew : finish now item outcome e with
      | none =>
        refine .inl ?_
        rw [if_pos rfl, Sql.update_none fun old hold => by rw [hrow] at hold; cases hold; exact hnew]
        rfl
      | some new =>
        refine .inr ⟨e, new, rfl, rfl, hnew, ?_⟩
        rw [if_pos rfl, Sql.update_some hrow hnew]
        rfl

/-- One step with fresh tokens keeps the lifecycle of every row. -/
theorem inv_act (hi : Inv s) {l : Label} (hf : FreshTokens s l) (h : act s l = some t) : Inv t := by
  cases l with
  | persist now e =>
    cases h
    exact inv_of_kept hi (kept_persist e)
  | patch now eventId patch =>
    cases h
    exact inv_of_kept hi (kept_patch eventId patch)
  | claim now deliverer r chosen =>
    rw [act, Option.ite_none_right_eq_some, Option.some.injEq] at h
    obtain ⟨hc, rfl⟩ := h
    refine inv_claim hi hc fun choice hmem hissued => ?_
    simp only [FreshTokens, freshTokens, List.all_eq_true] at hf
    have hnot := hf choice hmem
    rw [List.contains_iff_mem.mpr hissued] at hnot
    cases hnot
  | deliver now deliverer outcome through =>
    obtain ⟨item, hnext, rfl | ⟨e, new, -, he, hnew, rfl⟩⟩ := act_deliver h
    · exact inv_drop hi deliverer
    · exact inv_finish hi hnext he hnew

theorem step_spec {l : Label} (h : step s l = some t) :
    ∃ u, act s l = some u ∧ t = { u with clock := l.now } := by
  rw [step, Option.ite_none_right_eq_some, Option.map_eq_some_iff] at h
  obtain ⟨-, u, hu, rfl⟩ := h
  exact ⟨u, hu, rfl⟩

theorem inv_step (hi : Inv s) {l : Label} (hf : FreshTokens s l) (h : step s l = some t) : Inv t := by
  obtain ⟨u, hu, rfl⟩ := step_spec h
  have hinv := inv_act hi hf hu
  exact ⟨hinv.sound, hinv.unknown, hinv.items, hinv.holders⟩

/-- Only an event that is persisted gets a row. -/
theorem row_none {l : Label} (hl : ∀ now e, l ≠ .persist now e) (h : step s l = some t) (id : Token) :
    t.rows.get? id = none ↔ s.rows.get? id = none := by
  obtain ⟨u, hu, rfl⟩ := step_spec h
  cases l with
  | persist now e => exact absurd rfl (hl now e)
  | patch now eventId patch =>
    cases hu
    dsimp only
    rcases patch_get now s.rows eventId patch id with hsame | ⟨old, hold, hnew⟩
    · rw [hsame]
    · exact iff_of_false (by rw [hnew]; exact Option.some_ne_none _) (by rw [hold]; exact Option.some_ne_none _)
  | claim now deliverer r chosen =>
    rw [act, Option.ite_none_right_eq_some, Option.some.injEq] at hu
    obtain ⟨hc, rfl⟩ := hu
    dsimp only
    rw [claimRows_get id (claimable_nodup hc), Option.map_eq_none_iff]
  | deliver now deliverer outcome through =>
    obtain ⟨item, -, rfl | ⟨e, new, -, he, -, rfl⟩⟩ := act_deliver hu
    · exact Iff.rfl
    · by_cases hid : id = item.event
      · simp [hid, he]
      · simp [hid]

/-- What one statement does to the row of an event. -/
theorem row_step (hi : Inv s) {l : Label} (h : act s l = some t) {id : Token} {e : Event}
    (he : s.rows.get? id = some e) : ∃ new, t.rows.get? id = some new ∧
      (e.deliveredAt.isSome → new.deliveredAt = e.deliveredAt) ∧
      (e.poisonedAt.isSome → new.poisonedAt = e.poisonedAt) ∧
      (new.toDelivery = e.toDelivery ∨ Holder s l id e ∨ ∃ now eventId patch,
        l = .patch now eventId patch ∧
          new.toDelivery = { e.toDelivery with lastReplayedAt := some now }) := by
  cases l with
  | persist now event =>
    cases h
    dsimp only
    rcases persist_get now s.rows event id with hsame | ⟨-, hnone⟩ | ⟨old, hold, hnew⟩
    · exact ⟨e, hsame.trans he, fun _ => rfl, fun _ => rfl, .inl rfl⟩
    · cases hnone.symm.trans he
    · obtain rfl : old = e := Option.some.inj (hold.symm.trans he)
      have hdelivery := repersist_toDelivery event.content old
      exact ⟨_, hnew, fun _ => congrArg Delivery.deliveredAt hdelivery,
        fun _ => congrArg Delivery.poisonedAt hdelivery, .inl hdelivery⟩
  | patch now eventId patch =>
    cases h
    dsimp only
    rcases patch_get now s.rows eventId patch id with hsame | ⟨old, hold, hnew⟩
    · exact ⟨e, hsame.trans he, fun _ => rfl, fun _ => rfl, .inl rfl⟩
    · cases hold.symm.trans he
      exact ⟨_, hnew, fun _ => rfl, fun _ => rfl, .inr (.inr ⟨now, eventId, patch, rfl, rfl⟩)⟩
  | claim now deliverer r chosen =>
    rw [act, Option.ite_none_right_eq_some, Option.some.injEq] at h
    obtain ⟨hc, rfl⟩ := h
    refine ⟨_, (claimRows_get id (claimable_nodup hc)).trans (by rw [he]; rfl), ?_⟩
    cases chosen.lookup id <;> exact ⟨fun _ => rfl, fun _ => rfl, .inl rfl⟩
  | deliver now deliverer outcome through =>
    obtain ⟨item, hnext, rfl | ⟨old, new, rfl, hold, hnew, rfl⟩⟩ := act_deliver h
    · exact ⟨e, he, fun _ => rfl, fun _ => rfl, .inl rfl⟩
    · by_cases hid : id = item.event
      · subst hid
        cases hold.symm.trans he
        obtain ⟨htoken, hopen, -⟩ := finish_spec hnew
        refine ⟨new, by simp, fun hd => ?_, fun hp => ?_,
          .inr (.inl ⟨now, deliverer, outcome, item, rfl, hnext, rfl, htoken⟩)⟩
        · rw [hopen] at hd
          cases hd
        · rw [(hi.sound _ e he).released hp] at htoken
          cases htoken
      · exact ⟨e, by simp [hid, he], fun _ => rfl, fun _ => rfl, .inl rfl⟩

/-- A step with fresh tokens is faithful. -/
theorem faithful_step (hi : Inv s) {l : Label} (hf : FreshTokens s l) : Faithful s l := by
  intro t h
  have hinv := inv_step hi hf h
  obtain ⟨u, hu, rfl⟩ := step_spec h
  refine ⟨fun id e he hd => ?_, fun id e he hp => ?_, fun id e he hmark now deliverer r chosen hl => ?_,
    fun id e new he hnew => ?_, hinv.holders, fun id e he => ?_⟩
  · obtain ⟨new, hnew, hdelivered, -⟩ := row_step hi hu he
    exact ⟨new, hnew, hdelivered hd⟩
  · obtain ⟨new, hnew, -, hpoisoned, -⟩ := row_step hi hu he
    exact ⟨new, hnew, hpoisoned hp⟩
  · subst hl
    rw [act, Option.ite_none_right_eq_some] at hu
    obtain ⟨hc, -⟩ := hu
    intro hmem
    obtain ⟨choice, hchoice, rfl⟩ := List.mem_map.mp hmem
    simp only [claimable, Bool.and_eq_true, List.all_eq_true] at hc
    have hdue := hc.2 choice hchoice
    rw [he, Option.any_some, not_due_of_marked hmark] at hdue
    cases hdue
  · obtain ⟨new', hnew', -, -, hfenced⟩ := row_step hi hu he
    cases hnew.symm.trans hnew'
    exact hfenced
  · have hsound := hinv.sound id e he
    exact ⟨hsound.poisoned, hsound.bounded⟩

/-- The lifecycle of the outbox holds at every step of every run. -/
theorem outbox_delivery_lifecycle (clock : Int) (calls : List Label)
    (hfresh : Run.Meets step FreshTokens (start clock) calls) :
    Run.Meets step Faithful (start clock) calls :=
  Run.meets_inv (fun _ _ _ hi hf h => inv_step hi hf h) (fun _ _ hi hf => faithful_step hi hf)
    (inv_start clock) hfresh

section FiveFailures

def transitionEvent : Token := ⟨"run_transition:1", by decide, by decide⟩

/-- The event is claimed and fails, again and again. -/
def fiveFailures : List Label :=
  .persist 0 ⟨"run_transition:1", "run_transition", "default", "default", some "run-1", none, "", "", []⟩ ::
    ((["a", "b", "c", "d", "e"].filterMap Token.read).zipIdx.flatMap fun claim =>
      [.claim (claim.2 * 200 * second) 0 ⟨0, 200, "deliverer-1", 30, none, none, none, none⟩
          [(transitionEvent, claim.1)],
        .deliver ((claim.2 * 200 + 1) * second) 0 (.failed "sink is down") true])

/-- The fifth failure poisons the event. -/
theorem outbox_delivery_lifecycle_five_failures : Run.Meets step Faithful (start 0) fiveFailures ∧
    ∃ s e, Run.run step (start 0) fiveFailures = some s ∧ s.rows.get? transitionEvent = some e ∧
      e.poisonedAt = some (801 * second) ∧ s.failures transitionEvent = outboxMaxDeliveryAttempts := by
  refine ⟨outbox_delivery_lifecycle 0 fiveFailures (by decide), _, _, rfl, rfl, ?_, ?_⟩
  · decide
  · decide

end FiveFailures

end Empyralis.Server.OutboxDelivery
