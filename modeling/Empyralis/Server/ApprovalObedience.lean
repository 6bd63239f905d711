import Empyralis.Server.ApprovalWaits

/-! When a wait obeys the record of its approval, over every order of the steps of the waiter, of the
    resolvers, of the deadline and of restarts. -/

namespace Empyralis.Server.ApprovalWaits
open Kernel RunState Approvals
open Text (strip)

/-! ### What a call writes -/

/-- The rows but the one of this approval stay, which is at most opened or resolved. -/
structure Writes (h : Host) (approval : Token) (rows rows' : Rows) : Prop where
  other : ∀ key ≠ h.key approval, rows'.get? key = rows.get? key
  moves : Moves h.env (standingAt (h.key approval) rows) (standingAt (h.key approval) rows')

/-- No row is new. -/
def Grafts (rows rows' : Rows) : Prop := ∀ key, rows.get? key = none → rows'.get? key = none

/-- The rows are sound, and there is one only for an approval that was asked for. -/
structure Recorded (h : Host) (rows : Rows) (asked : List Token) : Prop where
  sound : ∀ approval, ∀ v ∈ standingAt (h.key approval) rows, Sound h.env v
  asked : ∀ approval, approval ∉ asked → rows.get? (h.key approval) = none

section Rows

variable {h : Host} {approval : Token} {rows rows' : Rows} {asked : List Token}

theorem key_ne {a b : Token} (hab : a ≠ b) : h.key a ≠ h.key b := by
  intro heq
  exact hab (congrArg Key.approval heq)

theorem Recorded.write (hr : Recorded h rows asked) (hw : Writes h approval rows rows')
    (ha : approval ∈ asked) : Recorded h rows' asked where
  sound other v hv := by
    by_cases heq : other = approval
    · subst heq
      exact hw.moves.sound (hr.sound other) v hv
    · rw [standingAt, hw.other _ (key_ne heq)] at hv
      exact hr.sound other v hv
  asked other ho := by
    have hne : other ≠ approval := fun heq => ho (heq ▸ ha)
    rw [hw.other _ (key_ne hne)]
    exact hr.asked other ho

theorem Recorded.graft (hr : Recorded h rows asked) (hw : Writes h approval rows rows')
    (hg : Grafts rows rows') : Recorded h rows' asked where
  sound other v hv := by
    by_cases heq : other = approval
    · subst heq
      exact hw.moves.sound (hr.sound other) v hv
    · rw [standingAt, hw.other _ (key_ne heq)] at hv
      exact hr.sound other v hv
  asked other ho := hg _ (hr.asked other ho)

theorem Recorded.cons (hr : Recorded h rows asked) (other : Token) : Recorded h rows (other :: asked) where
  sound := hr.sound
  asked a ha := hr.asked a (List.not_mem_of_not_mem_cons ha)

theorem grafts_update (key : Key) (change : Approval → Option Approval) :
    Grafts rows (Sql.update rows key change).2 := by
  intro other hnone
  by_cases heq : other = key
  · subst heq
    rw [Sql.update_self, hnone]
    rfl
  · rw [Sql.update_other heq, hnone]

theorem writes_ensure (hr : Recorded h rows asked) (approval : Token) :
    Writes h approval rows (ensureRunApprovalTable h.env (h.key approval) rows) where
  other key hne := Sql.update_other hne
  moves := moves_update (hr.sound approval) fun old new hold hnew => by
    cases hnew
    rw [ensureStatus_standing hold]
    exact .same _

theorem writes_resolve (now : Int) {d : Decision} (hr : Recorded h rows asked)
    (hkey : Key.read d.runId d.approvalId = some (h.key approval)) :
    Writes h approval rows (resolveApprovalIfPending h.env now rows d).2 ∧
      Grafts rows (resolveApprovalIfPending h.env now rows d).2 := by
  refine ⟨⟨fun key hne => ?_, (resolve_spec hkey (hr.sound approval)).1⟩, ?_⟩
  · unfold resolveApprovalIfPending
    simp only [hkey]
    split
    · rfl
    · exact Sql.update_other hne
  · unfold resolveApprovalIfPending
    simp only [hkey]
    split
    · exact fun _ hnone => hnone
    · exact grafts_update _ _

theorem writes_create (now : Int) {r : Request}
    (hkey : Key.read r.runId r.approvalId = some (h.key approval)) :
    Writes h approval rows (createOrUpdateApprovalRequest h.env now rows r).2 := by
  refine ⟨fun key hne => ?_, moves_create hkey⟩
  unfold createOrUpdateApprovalRequest
  simp only [hkey]
  split
  · rfl
  · have hother : (Sql.upsert rows (h.key approval) (r.row h.env now approval) fun old =>
        some (rerequest now (r.row h.env now approval) old)).2.get? key = rows.get? key :=
      Sql.upsert_other hne
    split <;> simp_all [Host.key]

theorem writes_record (now : Int) (r : Resolution) (hr : Recorded h rows asked) (approval : Token)
    (stage : Stage) :
    Writes h approval rows (recordApprovalResolution h.env (h.key approval) now rows r stage).2 := by
  refine ⟨fun key hne => ?_, moves_record (hr.sound approval) stage⟩
  cases stage with
  | update =>
    have hother : (Sql.update rows (h.key approval) (recordFinal h.env now r)).2.get? key = rows.get? key :=
      Sql.update_other hne
    simp only [recordApprovalResolution]
    split <;> simp_all
  | lookup =>
    simp only [recordApprovalResolution]
    split
    · rfl
    · split <;> rfl
  | insert =>
    simp only [recordApprovalResolution, recordInsert]
    exact Sql.upsert_other hne

end Rows

/-! ### What holds in every run -/

section Invariant

variable (h : Host)

/-- The confirmation is of an approval that was asked for, and its decision has a source. -/
def Backed (s : State) (p : Confirmation) : Prop :=
  p.approval ∈ s.asked ∧ (strip p.decision ≠ "" → Sourced h s p.approval (p.text h))

def Attends (s : State) : Waiter → Prop
  | .waiting approval => approval ∈ s.asked ∧ ∀ p ∈ s.pending, p.approval = approval
  | .recording approval p stage =>
    approval ∈ s.asked ∧ (stage = .insert → s.rows.get? (h.key approval) = none) ∧
      ∀ answer ∈ p.answer, Sourced h s approval answer.text
  | _ => True

structure Kept (s : State) : Prop where
  records : Recorded h s.rows s.asked
  queue : ∀ item ∈ s.queue, item ∈ s.put
  pending : ∀ p ∈ s.pending, Backed h s p
  saved : ∀ p ∈ s.saved, Backed h s p

structure Inv (s : State) : Prop extends Kept h s where
  waiter : Attends h s s.waiter

/-- What a state remembers of the past only grows. -/
structure Grows (s t : State) : Prop where
  asked : s.asked ⊆ t.asked
  put : s.put ⊆ t.put
  read : s.read ⊆ t.read

variable {h} {s t : State} {approval : Token}

theorem Grows.sourced (hg : Grows s t) {text : String} (hs : Sourced h s approval text) :
    Sourced h t approval text := by
  rcases hs with ⟨item, hitem, hfor⟩ | ⟨entry, hentry, hfrom⟩
  · exact .inl ⟨item, hg.put hitem, hfor⟩
  · exact .inr ⟨entry, hg.read hentry, hfrom⟩

theorem Grows.backed (hg : Grows s t) {p : Confirmation} (hp : Backed h s p) : Backed h t p :=
  ⟨hg.asked hp.1, fun hne => hg.sourced (hp.2 hne)⟩

/-- A waiter attends as before where its record is not new. -/
theorem Grows.attends (hg : Grows s t) (hrows : Grafts s.rows t.rows) (hpending : t.pending = s.pending)
    {w : Waiter} (hw : Attends h s w) : Attends h t w := by
  cases w with
  | idle => exact trivial
  | asking => exact trivial
  | waiting approval => exact ⟨hg.asked hw.1, hpending ▸ hw.2⟩
  | recording approval p stage =>
    obtain ⟨hasked, hinsert, hanswer⟩ := hw
    exact ⟨hg.asked hasked, fun hstage => hrows _ (hinsert hstage),
      fun answer ha => hg.sourced (hanswer answer ha)⟩

theorem inv_start : Inv h start where
  records := ⟨fun _ _ hv => by simp [start, standingAt, Table.empty, Table.get?] at hv, fun _ _ => rfl⟩
  queue _ hitem := by cases hitem
  pending _ hp := by cases hp
  saved _ hp := by cases hp
  waiter := trivial

/-- The rows are written and no row is new. -/
theorem Inv.graft (hi : Inv h s) {rows : Rows} (hw : Writes h approval s.rows rows)
    (hg : Grafts s.rows rows) : Inv h { s with rows } where
  records := hi.records.graft hw hg
  queue := hi.queue
  pending := hi.pending
  saved := hi.saved
  waiter := by
    have hgrows : Grows s { s with rows } := ⟨List.Subset.refl _, List.Subset.refl _, List.Subset.refl _⟩
    exact hgrows.attends hg rfl hi.waiter

theorem Kept.write (hk : Kept h s) {rows : Rows} (hw : Writes h approval s.rows rows)
    (ha : approval ∈ s.asked) : Kept h { s with rows } :=
  ⟨hk.records.write hw ha, hk.queue, hk.pending, hk.saved⟩

/-- An item is taken from the queue. -/
theorem Inv.dequeue (hi : Inv h s) {item : Fields} {queue : List Fields} (hqueue : s.queue = item :: queue) :
    Inv h { s with queue } ∧ item ∈ s.put := by
  have hall := hi.queue
  rw [hqueue] at hall
  obtain ⟨hitem, hrest⟩ := List.forall_mem_cons.mp hall
  exact ⟨⟨⟨hi.records, hrest, hi.pending, hi.saved⟩, hi.waiter⟩, hitem⟩

/-- The item of a resolution is kept until it is put. -/
theorem Inv.resolving (hi : Inv h s) (resolving : List Fields) : Inv h { s with resolving } :=
  ⟨⟨hi.records, hi.queue, hi.pending, hi.saved⟩, hi.waiter⟩

/-- An item is put on the queue. -/
theorem Inv.enqueue (hi : Inv h s) (item : Fields) (resolving : List Fields) :
    Inv h { s with resolving, queue := s.queue ++ [item], put := item :: s.put } := by
  have hgrows : Grows s { s with resolving, queue := s.queue ++ [item], put := item :: s.put } :=
    ⟨List.Subset.refl _, List.subset_cons_self _ _, List.Subset.refl _⟩
  refine ⟨⟨hi.records, fun other hother => ?_, fun p hp => hgrows.backed (hi.pending p hp),
    fun p hp => hgrows.backed (hi.saved p hp)⟩, hgrows.attends (fun _ hnone => hnone) rfl hi.waiter⟩
  rcases List.mem_append.mp hother with hold | hnew
  · exact List.mem_cons_of_mem _ (hi.queue other hold)
  · exact List.mem_singleton.mp hnew ▸ List.mem_cons_self

/-! ### The end of a wait -/

theorem inv_conclude (hk : Kept h s) (outcome : Outcome) : Inv h (s.conclude approval outcome) where
  records := hk.records
  queue := hk.queue
  pending p hp := by
    simp only [State.conclude, State.finish] at hp
    split at hp
    · cases hp
    · exact hk.pending p hp
  saved := hk.saved
  waiter := trivial

theorem inv_record (hk : Kept h s) (ha : approval ∈ s.asked) {p : Purpose}
    (hp : ∀ answer ∈ p.answer, Sourced h s approval answer.text) : Inv h (s.record h approval p) := by
  unfold State.record
  split
  · exact ⟨⟨hk.records, hk.queue, hk.pending, hk.saved⟩, ha, (fun hstage => by cases hstage), hp⟩
  · exact inv_conclude hk _

theorem inv_advance (hk : Kept h s) (ha : approval ∈ s.asked) {p : Purpose}
    (hp : ∀ answer ∈ p.answer, Sourced h s approval answer.text) {progress : Progress}
    (hstage : ∀ stage, progress = .next stage → stage = .insert → s.rows.get? (h.key approval) = none) :
    Inv h (s.advance approval p progress) := by
  cases progress with
  | next stage =>
    exact ⟨⟨hk.records, hk.queue, hk.pending, hk.saved⟩, ha, hstage stage rfl, hp⟩
  | returned row => exact inv_conclude hk _
  | raised e => exact inv_conclude hk _

/-- The call goes on to insert where it has found no row. -/
theorem absent_of_next {now : Int} {rows : Rows} {key : Key} {r : Resolution} {stage stage' : Stage}
    (hnext : (recordApprovalResolution h.env key now rows r stage).1 = .next stage')
    (hinsert : stage' = .insert) :
    (recordApprovalResolution h.env key now rows r stage).2.get? key = none := by
  subst hinsert
  cases stage with
  | update =>
    simp only [recordApprovalResolution] at hnext
    split at hnext <;> cases hnext
  | lookup =>
    simp only [recordApprovalResolution] at hnext ⊢
    split at hnext
    · rename_i hnone
      exact hnone
    · split at hnext <;> cases hnext
  | insert =>
    simp only [recordApprovalResolution] at hnext
    cases hnext

/-! ### Decisions and where they come from -/

theorem text_resolve (p : Confirmation) (item : Fields) :
    (p.resolve (answerOf h item).text).text h = (answerOf h item).text := by
  have hfield : strip (field h item "decision") = field h item "decision" := Value.strip_token _ _
  have hstable := h.env.lowercase.stable (field h item "decision")
  rw [hfield] at hstable
  exact hstable

/-- A confirmation keeps its decision or takes the one of the record. -/
theorem text_hydrate {p : Confirmation} {row : Approval} (hne : strip (p.hydrate h row).decision ≠ "") :
    (strip p.decision ≠ "" ∧ (p.hydrate h row).text h = p.text h) ∨
      (p.hydrate h row).text h =
        h.env.lowercase.lower ((recordedDecision h row).token h.env.repr) := by
  unfold Confirmation.hydrate at hne ⊢
  split at hne
  · rename_i hfinal
    rw [if_pos hfinal]
    by_cases hblank : p.decision = ""
    · refine .inr ?_
      simp only [Confirmation.text, either, Value.truthy, hblank, ne_eq, not_true_eq_false, decide_false,
        Bool.false_eq_true, if_false, Value.strip_token]
    · refine .inl ?_
      simp only [either, Value.truthy, ne_eq, hblank, not_false_eq_true, decide_true, if_true,
        Value.token_string] at hne ⊢
      have hstrip : strip (strip p.decision) = strip p.decision := Text.trim_trim Text.pySpace _
      rw [hstrip] at hne
      exact ⟨hne, by rw [Confirmation.text, hstrip, Confirmation.text]⟩
  · rename_i hopen
    rw [if_neg hopen]
    exact .inl ⟨hne, rfl⟩

theorem hydrate_approval (p : Confirmation) (row : Approval) :
    (p.hydrate h row).approval = p.approval := by
  unfold Confirmation.hydrate
  split <;> rfl

theorem hydrated_rows : (s.hydrated h).rows = s.rows := by
  unfold State.hydrated
  split <;> rfl

theorem kept_hydrated (hk : Kept h s) : Kept h (s.hydrated h) := by
  unfold State.hydrated
  split
  · rename_i p row hdurable
    obtain ⟨q, hq, hrow⟩ := Option.bind_eq_some_iff.mp hdurable
    obtain ⟨row', -, heq⟩ := Option.map_eq_some_iff.mp hrow
    cases heq
    have hgrows : Grows s { s with pending := some (p.hydrate h row), read := (p.approval, row) :: s.read } :=
      ⟨List.Subset.refl _, List.Subset.refl _, List.subset_cons_self _ _⟩
    obtain ⟨hasked, hsource⟩ := hgrows.backed (hk.pending p hq)
    refine ⟨hk.records, hk.queue, ?_, fun q hq => hgrows.backed (hk.saved q hq)⟩
    rintro _ ⟨⟩
    refine ⟨by rw [hydrate_approval]; exact hasked, fun hne => ?_⟩
    rw [hydrate_approval]
    rcases text_hydrate hne with ⟨hdecision, htext⟩ | htext
    · rw [htext]
      exact hsource hdecision
    · exact .inr ⟨(p.approval, row), List.mem_cons_self, rfl, htext.symm⟩
  · exact hk

theorem resumed_source (hk : Kept h s) {prompt : String} {answer : Answer}
    (hr : s.resumed h prompt = some (approval, answer)) :
    approval ∈ s.asked ∧ Sourced h s approval answer.text := by
  obtain ⟨p, hp, hmap⟩ := Option.bind_eq_some_iff.mp hr
  obtain ⟨answer', hresumed, heq⟩ := Option.map_eq_some_iff.mp hmap
  cases heq
  unfold Confirmation.resumed at hresumed
  split at hresumed
  · rename_i hresolved
    cases hresumed
    obtain ⟨hasked, hsource⟩ := hk.pending p hp
    exact ⟨hasked, hsource hresolved.2.1⟩
  · cases hresumed

/-! ### Steps -/

theorem inv_wait (hk : Kept h s) (prompt : String) : Inv h (s.wait h prompt) := by
  have hh := kept_hydrated hk
  unfold State.wait
  dsimp only
  split
  · rename_i approval answer hresumed
    obtain ⟨hasked, hsource⟩ := resumed_source hh hresumed
    refine inv_record hh hasked ?_
    rintro _ ⟨⟩
    exact hsource
  · exact ⟨⟨hh.records, hh.queue, hh.pending, hh.saved⟩, trivial⟩

/-- The approval is asked for, and its record may be stored. -/
theorem Kept.asking (hk : Kept h s) {rows : Rows} (hw : Writes h approval s.rows rows) :
    Kept h { s with rows, asked := approval :: s.asked } := by
  have hgrows : Grows s { s with rows, asked := approval :: s.asked } :=
    ⟨List.subset_cons_self _ _, List.Subset.refl _, List.Subset.refl _⟩
  have hrecords := (hk.records.cons approval).write hw List.mem_cons_self
  exact ⟨hrecords, hk.queue, fun p hp => hgrows.backed (hk.pending p hp),
    fun p hp => hgrows.backed (hk.saved p hp)⟩

/-- A wait begins on a confirmation without a decision. -/
theorem inv_waiting (hk : Kept h s) (ha : approval ∈ s.asked) (prompt : String) :
    Inv h { s with
      pending := some { approval, status := "waiting", prompt }
      waiter := .waiting approval } := by
  refine ⟨⟨hk.records, hk.queue, ?_, hk.saved⟩, ha, ?_⟩
  · rintro _ ⟨⟩
    exact ⟨ha, fun hne => absurd strip_empty hne⟩
  · rintro _ ⟨⟩
    rfl

theorem inv_finish (hk : Kept h s) (outcome : Outcome) : Inv h (s.finish approval outcome) :=
  ⟨⟨hk.records, hk.queue, hk.pending, hk.saved⟩, trivial⟩

theorem inv_ask (hk : Kept h s) {prompt : String} {now : Int} {r : Request}
    (hkey : Key.read r.runId r.approvalId = some (h.key approval)) :
    Inv h (s.ask h prompt now approval r) := by
  have hwrites : Writes h approval s.rows (createOrUpdateApprovalRequest h.env now s.rows r).2 :=
    writes_create now hkey
  unfold State.ask
  rcases hcreate : createOrUpdateApprovalRequest h.env now s.rows r with ⟨result, rows⟩
  rw [hcreate] at hwrites
  have hasking := hk.asking hwrites
  have hwaits := inv_waiting hasking List.mem_cons_self prompt
  cases result with
  | ok row => exact hwaits
  | error e =>
    dsimp only
    split
    · exact hwaits
    · exact inv_finish hasking _

/-- A confirmation is changed and stays backed. -/
theorem Kept.confirm (hk : Kept h s) (change : Confirmation → Confirmation)
    (hp : ∀ p ∈ s.pending, Backed h s (change p)) : Kept h { s with pending := s.pending.map change } where
  records := hk.records
  queue := hk.queue
  pending _ hq := by
    obtain ⟨p, hpending, rfl⟩ := Option.map_eq_some_iff.mp hq
    exact hp p hpending
  saved := hk.saved

theorem inv_deadline (hk : Kept h s) (ha : approval ∈ s.asked) : Inv h (s.deadline h approval) := by
  have hkept := hk.confirm Confirmation.expire fun p hp => hk.pending p hp
  exact inv_record hkept ha fun _ hanswer => by cases hanswer

theorem inv_take (hi : Inv h s) (hw : s.waiter = .waiting approval) {item : Fields}
    (hitem : item ∈ s.put) : Inv h (s.take h approval item) := by
  have hk : Kept h s := hi.toKept
  have ha := hi.waiter
  rw [hw] at ha
  unfold State.take
  split
  · exact hi
  · rename_i hfor
    rw [Bool.not_eq_true] at hfor
    have hsource : Sourced h s approval (answerOf h item).text := .inl ⟨item, hitem, hfor, rfl⟩
    have hkept := hk.confirm (Confirmation.resolve (answerOf h item).text) fun p hp => by
      refine ⟨(hk.pending p hp).1, fun _ => ?_⟩
      have hsame : p.approval = approval := ha.2 p hp
      rw [text_resolve]
      exact hsame ▸ hsource
    refine inv_record hkept ha.1 ?_
    rintro _ ⟨⟩
    exact hsource

/-- One step keeps the waiter at what the records say. -/
theorem inv_act (hi : Inv h s) {l : Label} (hst : act h s l = some t) : Inv h t := by
  have hk : Kept h s := hi.toKept
  cases l with
  | ensure approval =>
    cases hst
    exact hi.graft (writes_ensure hi.records approval) (grafts_update _ _)
  | resolve now d item =>
    simp only [act] at hst
    split at hst
    · rename_i hnamed
      obtain ⟨approval, hincoming⟩ := Option.isSome_iff_exists.mp hnamed.1
      have hkey : Key.read d.runId d.approvalId = some (h.key approval) := by
        rw [hnamed.2, hincoming, Option.map_some]
      obtain ⟨hwrites, hgrafts⟩ := writes_resolve now hi.records hkey
      rw [← Option.some.inj hst]
      exact (hi.graft hwrites hgrafts).resolving _
    · cases hst
  | put i =>
    obtain ⟨item, -, rfl⟩ := Option.map_eq_some_iff.mp hst
    exact hi.enqueue item _
  | stray item =>
    simp only [act] at hst
    split at hst
    · cases hst
      exact hi.enqueue item _
    · cases hst
  | wait prompt =>
    simp only [act] at hst
    split at hst
    · cases hst
      exact inv_wait hk prompt
    · cases hst
  | ask now approval r =>
    simp only [act] at hst
    split at hst
    · split at hst
      · rename_i hfresh
        rw [← Option.some.inj hst]
        exact inv_ask hk hfresh.2.1
      · cases hst
    · cases hst
  | deadline =>
    simp only [act] at hst
    split at hst
    · rename_i approval hw
      have hwaits := hi.waiter
      rw [hw] at hwaits
      rw [← Option.some.inj hst]
      exact inv_deadline hk hwaits.1
    · cases hst
  | take =>
    simp only [act] at hst
    split at hst
    · rename_i approval item queue hw hqueue
      obtain ⟨hinv, hitem⟩ := hi.dequeue hqueue
      rw [← Option.some.inj hst]
      exact inv_take hinv hw hitem
    · cases hst
  | proceed now =>
    simp only [act] at hst
    split at hst
    · rename_i approval p stage hw
      have hrecording := hi.waiter
      rw [hw] at hrecording
      obtain ⟨hasked, -, hanswer⟩ := hrecording
      have hwrites := writes_record now (p.call h approval) hk.records approval stage
      have hkept := hk.write hwrites hasked
      rw [← Option.some.inj hst]
      exact inv_advance hkept hasked hanswer fun stage' hnext hinsert => absent_of_next hnext hinsert
    · cases hst
  | save =>
    cases hst
    exact ⟨⟨hk.records, hk.queue, hk.pending, hk.pending⟩, hi.waiter⟩
  | restart =>
    cases hst
    exact ⟨⟨hk.records, (fun _ hitem => by cases hitem), hk.saved, hk.saved⟩, trivial⟩

end Invariant

/-! ### What the end of a wait says -/

section Ends

variable {h : Host} {s t : State} {approval : Token}

theorem resolution_mem (p : Purpose) :
    p.resolution ∈ ["approved", "escalated", "expired", "rejected"] := by
  cases p with
  | expire => simp [Purpose.resolution]
  | settle answer note =>
    simp only [Purpose.resolution, Answer.resolution]
    split
    · simp
    · split <;> simp
  | resume answer =>
    simp only [Purpose.resolution]
    split
    · simp
    · split
      · simp
      · split <;> simp

theorem token_resolution (p : Purpose) : resolutionToken h.env p.resolution = p.resolution := by
  have hplain : ∀ text ∈ ["approved", "escalated", "expired", "rejected"],
      text ≠ "" ∧ (text.toList.all fun c => c.isLower || c = '_') = true := by decide
  obtain ⟨hwritten, hall⟩ := hplain _ (resolution_mem p)
  have htoken := h.env.lowercase.token_plain (Lowercase.plain_of_all hall)
  rw [resolutionToken, htoken]
  exact if_neg hwritten

theorem resolution_approved (p : Purpose) : p.resolution = "approved" ↔ p.approves = true := by
  cases p with
  | expire => simp [Purpose.resolution, Purpose.approves, Purpose.answer]
  | settle answer note =>
    simp only [Purpose.resolution, Answer.resolution, Purpose.approves, Purpose.answer, Option.any_some]
    split
    · simp [*]
    · split <;> simp [*]
  | resume answer =>
    simp only [Purpose.resolution, Purpose.approves, Purpose.answer, Option.any_some]
    split
    · simp [*]
    · split
      · simp [*]
      · split <;> simp [*]

theorem answer_outcome (p : Purpose) : p.outcome.answer = p.answer := by
  cases p <;> rfl

/-- The record carries what the waiter has recorded. -/
theorem obeyed_of_resolution {p : Purpose} (hs : ∀ v ∈ standingAt (h.key approval) s.rows, Sound h.env v)
    (hres : (s.rows.get? (h.key approval)).bind Approval.resolution = some p.resolution)
    (hsource : ∀ answer ∈ p.answer, Sourced h s approval answer.text) :
    Obeyed h s ⟨approval, p.outcome⟩ where
  approved happroved := by
    have hsame : p.resolution = "approved" := Option.some.inj (hres.symm.trans happroved)
    rw [answer_outcome]
    exact (resolution_approved p).mp hsame
  expired hexpired := by
    obtain ⟨row, hrow, hresolution⟩ := Option.bind_eq_some_iff.mp hres
    have hexpire : p.resolution = "expired" := by
      cases p with
      | expire => rfl
      | settle answer note => cases hexpired
      | resume answer => cases hexpired
    have hstatus := (hs row.standing (by rw [standingAt, hrow]; rfl)).status_of_resolution
      (hresolution.trans (congrArg some (token_resolution p).symm))
    rw [hrow, Option.map_some, hstatus, finalStatus, token_resolution, hexpire]
    rfl
  sourced answer hanswer := hsource answer (answer_outcome p ▸ hanswer)

theorem obeyed_raised {e : Error} : Obeyed h s ⟨approval, .raised e⟩ ↔ ¬ Approved h s approval := by
  constructor
  · intro hobeyed happroved
    have hany := hobeyed.approved happroved
    cases hany
  · intro hnot
    refine ⟨fun happroved => absurd happroved hnot, (fun heq => by cases heq), ?_⟩
    rintro _ ⟨⟩

/-- An answer of an earlier confirmation is returned. -/
theorem obeyed_answered {answer : Answer} (hsource : Sourced h s approval answer.text) :
    Obeyed h s ⟨approval, .answered answer⟩ ↔ (Approved h s approval → answer.approved = true) := by
  constructor
  · exact fun hobeyed => hobeyed.approved
  · intro happroves
    refine ⟨happroves, (fun heq => by cases heq), ?_⟩
    rintro _ ⟨⟩
    exact hsource

/-- The end of a wait is judged by the records of the state that it leaves. -/
theorem obeys_conclude (outcome : Outcome) :
    (∀ e ∈ (s.conclude approval outcome).ended, Obeyed h (s.conclude approval outcome) e) ↔
      Obeyed h s ⟨approval, outcome⟩ := by
  constructor
  · intro hall
    have hend := hall _ rfl
    exact ⟨hend.approved, hend.expired, hend.sourced⟩
  · rintro hend _ ⟨⟩
    exact ⟨hend.approved, hend.expired, hend.sourced⟩

theorem gate_error {key : Key} {r : Resolution} {e : Error} (hgate : recordGate h.env key r = .error e) :
    isPersistence e = false := by
  unfold recordGate enforceRuntimeStateStoreDecision at hgate
  split at hgate
  · cases hgate
  · cases hgate
    rfl
  · cases hgate
    rfl

theorem raise_gate {p : Purpose} {e : Error} (he : isPersistence e = false) : p.raise e = .raised e := by
  cases p with
  | resume answer => simp [Purpose.raise, he]
  | _ => rfl

theorem obeys_record (hnone : s.ended = none) (p : Purpose) :
    (∀ e ∈ (s.record h approval p).ended, Obeyed h (s.record h approval p) e) ↔ Admitted h s approval p := by
  unfold State.record Admitted
  split
  · rename_i hgate
    refine iff_of_true (fun e he => ?_) fun _ => hgate
    rw [hnone] at he
    cases he
  · rename_i e hgate
    rw [raise_gate (gate_error hgate)]
    rw [obeys_conclude, obeyed_raised]
    constructor
    · exact fun hnot happroved => absurd happroved hnot
    · intro hadmitted happroved
      cases (hadmitted happroved).symm.trans hgate

/-- The statement that looks the record up ends the wait as it should just where it finds no approved
    record, or approves itself. -/
theorem obeys_lookup (hk : Kept h s) (hnone : s.ended = none) {now : Int} {p : Purpose}
    (hsource : ∀ answer ∈ p.answer, Sourced h s approval answer.text) {progress : Progress} {rows : Rows}
    (hlookup : recordApprovalResolution h.env (h.key approval) now s.rows (p.call h approval) .lookup =
      (progress, rows)) :
    (∀ e ∈ ({ s with rows }.advance approval p progress).ended,
        Obeyed h ({ s with rows }.advance approval p progress) e) ↔
      (Approved h s approval → p.approves = true) := by
  simp only [recordApprovalResolution] at hlookup
  split at hlookup
  · rename_i habsent
    cases hlookup
    refine iff_of_true (fun e he => ?_) fun happroved => ?_
    · simp only [State.advance, hnone] at he
      cases he
    · rw [Approved, habsent] at happroved
      cases happroved
  · rename_i row hrow
    have hsound := hk.records.sound approval row.standing (by rw [standingAt, hrow]; rfl)
    have happroved : Approved h s approval ↔ row.resolution = some "approved" := by
      rw [Approved, hrow, Option.bind_some]
    split at hlookup
    · rename_i hcarries
      cases hlookup
      have hres : row.resolution = some p.resolution :=
        (resolution_of_carries hsound hcarries).trans (congrArg some (token_resolution p))
      have hobeyed : Obeyed h s ⟨approval, p.outcome⟩ :=
        obeyed_of_resolution (hk.records.sound approval) (by rw [hrow, Option.bind_some, hres]) hsource
      refine iff_of_true ((obeys_conclude _).mpr hobeyed) fun ha => ?_
      have hsame : p.resolution = "approved" := Option.some.inj (hres.symm.trans (happroved.mp ha))
      exact (resolution_approved p).mp hsame
    · rename_i hconflict
      cases hlookup
      -- a record that is approved does not carry what the waiter asks for
      have hrefused : Approved h s approval → ¬ p.approves = true := by
        intro ha hp
        refine hconflict (carries_of_resolution hsound ?_)
        rw [happroved.mp ha, ← (resolution_approved p).mpr hp]
        exact congrArg some (token_resolution p).symm
      have hraised : ∀ {e : Error}, Obeyed h s ⟨approval, .raised e⟩ ↔
          (Approved h s approval → p.approves = true) := by
        intro e
        rw [obeyed_raised]
        exact ⟨fun hnot ha => absurd ha hnot, fun hp ha => hrefused ha (hp ha)⟩
      refine (obeys_conclude _).trans ?_
      cases p with
      | expire => exact hraised
      | settle answer note => exact hraised
      | resume answer => exact obeyed_answered (hsource answer rfl)

/-- The other statements end the wait with the record that they write. -/
theorem obeys_returned (hk : Kept h s) (hnone : s.ended = none) (ha : approval ∈ s.asked) {now : Int}
    {p : Purpose} (hsource : ∀ answer ∈ p.answer, Sourced h s approval answer.text) {stage : Stage}
    (hstage : stage ≠ .lookup) (hinsert : stage = .insert → s.rows.get? (h.key approval) = none)
    {progress : Progress} {rows : Rows}
    (hcall : recordApprovalResolution h.env (h.key approval) now s.rows (p.call h approval) stage =
      (progress, rows)) :
    ∀ e ∈ ({ s with rows }.advance approval p progress).ended,
      Obeyed h ({ s with rows }.advance approval p progress) e := by
  cases progress with
  | next stage' =>
    intro e he
    simp only [State.advance, hnone] at he
    cases he
  | returned row =>
    have hwrites := writes_record now (p.call h approval) hk.records approval stage
    rw [hcall] at hwrites
    have hres := (resolution_of_returned (hk.records.sound approval) hinsert hcall).2
    refine (obeys_conclude _).mpr (obeyed_of_resolution ((hk.write hwrites ha).records.sound approval) ?_
      hsource)
    exact hres.trans (congrArg some (token_resolution p))
  | raised e =>
    cases stage with
    | update =>
      simp only [recordApprovalResolution] at hcall
      split at hcall <;> cases hcall
    | lookup => exact absurd rfl hstage
    | insert =>
      simp only [recordApprovalResolution] at hcall
      cases hcall

/-- A request that fails has stored nothing. -/
theorem create_error {now : Int} {rows rows' : Rows} {r : Request} {e : Error}
    (hcreate : createOrUpdateApprovalRequest h.env now rows r = (.error e, rows')) : rows' = rows := by
  unfold createOrUpdateApprovalRequest at hcreate
  split at hcreate
  · cases hcreate
    rfl
  · dsimp only at hcreate
    split at hcreate
    · cases hcreate
      rfl
    · split at hcreate
      · cases hcreate
      · rename_i hupsert
        cases hcreate
        unfold Sql.upsert at hupsert
        split at hupsert
        · cases hupsert
        · cases hupsert

theorem obeys_ask (hk : Kept h s) (hnone : s.ended = none) {prompt : String} {now : Int} {r : Request}
    (hfresh : approval ∉ s.asked) :
    ∀ e ∈ (s.ask h prompt now approval r).ended, Obeyed h (s.ask h prompt now approval r) e := by
  unfold State.ask
  rcases hcreate : createOrUpdateApprovalRequest h.env now s.rows r with ⟨result, rows⟩
  cases result with
  | ok row =>
    intro e he
    cases hnone.symm.trans he
  | error e =>
    obtain rfl := create_error hcreate
    dsimp only
    split
    · intro e he
      cases hnone.symm.trans he
    · rintro _ ⟨⟩
      refine obeyed_raised.mpr fun happroved => ?_
      have habsent : s.rows.get? (h.key approval) = none := hk.records.asked approval hfresh
      simp only [Approved, State.finish, habsent] at happroved
      cases happroved

/-! ### One step -/

theorem obeys_of_none {l : Label} (hended : ∀ t, step h s l = some t → t.ended = none) : Obeys h s l := by
  intro t ht e he
  rw [hended t ht] at he
  cases he

theorem obeys_of_step {l : Label} (hst : step h s l = some t) :
    Obeys h s l ↔ ∀ e ∈ t.ended, Obeyed h t e := by
  rw [Obeys, hst]
  simp

/-- The waiter is elsewhere, and nothing is asked of it. -/
theorem obeys_blocked {l : Label} (hst : step h s l = none) : Obeys h s l := by
  intro t ht
  rw [hst] at ht
  cases ht

theorem obeys_wait (prompt : String) : Obeys h s (.wait prompt) ↔ Heeds h s (.wait prompt) := by
  cases hw : s.waiter with
  | idle =>
    have hst : step h s (.wait prompt) = some ({ s with ended := none }.wait h prompt) := by
      simp only [step, act, hw]
    have hclear : { s with ended := none }.hydrated h = { s.hydrated h with ended := none } := by
      unfold State.hydrated
      have hdurable : { s with ended := none }.durable h = s.durable h := rfl
      rw [hdurable]
      cases s.durable h <;> rfl
    rw [obeys_of_step hst, State.wait, hclear]
    dsimp only
    have hresumed : { s.hydrated h with ended := none }.resumed h prompt = (s.hydrated h).resumed h prompt :=
      rfl
    rw [hresumed]
    cases hr : (s.hydrated h).resumed h prompt with
    | none => exact iff_of_true (fun e he => by cases he) (by simp [Heeds, hr])
    | some found =>
      obtain ⟨approval, answer⟩ := found
      have hheeds : Heeds h s (.wait prompt) ↔ Admitted h s approval (.resume answer) := by
        simp [Heeds, hw, hr]
      have hrecord : (∀ e ∈ ({ s.hydrated h with ended := none }.record h approval (.resume answer)).ended,
          Obeyed h ({ s.hydrated h with ended := none }.record h approval (.resume answer)) e) ↔
          Admitted h { s.hydrated h with ended := none } approval (.resume answer) := obeys_record rfl _
      rw [hheeds]
      refine hrecord.trans ?_
      rw [Admitted, Approved, Admitted, Approved]
      dsimp only
      rw [hydrated_rows]
  | _ => exact iff_of_true (obeys_blocked (by simp only [step, act, hw])) (by simp [Heeds, hw])

theorem obeys_deadline : Obeys h s .deadline ↔ Heeds h s .deadline := by
  cases hw : s.waiter with
  | waiting approval =>
    have hst : step h s .deadline = some ({ s with ended := none }.deadline h approval) := by
      simp only [step, act, hw]
    have hheeds : Heeds h s .deadline ↔ Admitted h s approval .expire := by
      simp [Heeds, hw]
    rw [obeys_of_step hst, hheeds, State.deadline]
    exact obeys_record rfl .expire
  | _ => exact iff_of_true (obeys_blocked (by simp only [step, act, hw])) (by simp [Heeds, hw])

theorem obeys_take : Obeys h s .take ↔ Heeds h s .take := by
  cases hw : s.waiter with
  | waiting approval =>
    cases hqueue : s.queue with
    | nil =>
      exact iff_of_true (obeys_blocked (by simp only [step, act, hw, hqueue])) (by simp [Heeds, hqueue])
    | cons item queue =>
      have hst : step h s .take = some ({ s with queue, ended := none }.take h approval item) := by
        simp only [step, act, hw, hqueue]
      have hheeds : Heeds h s .take ↔
          (State.ignores h approval item = false → Admitted h s approval (settles h item)) := by
        simp [Heeds, hw, hqueue]
      rw [obeys_of_step hst, hheeds, State.take]
      split
      · rename_i hignored
        refine iff_of_true (fun e he => by cases he) fun hfor => ?_
        rw [hignored] at hfor
        cases hfor
      · rename_i hfor
        rw [Bool.not_eq_true] at hfor
        exact (obeys_record rfl (settles h item)).trans ⟨fun hadmitted _ => hadmitted, fun himp => himp hfor⟩
  | _ => exact iff_of_true (obeys_blocked (by simp only [step, act, hw])) (by simp [Heeds, hw])

/-- By what the waiter is at. -/
theorem obeys_proceed (hi : Inv h s) (hk : Kept h { s with ended := none }) (now : Int) :
    Obeys h s (.proceed now) ↔ Heeds h s (.proceed now) := by
  cases hw : s.waiter with
  | recording approval p stage =>
    have hrecording := hi.waiter
    rw [hw] at hrecording
    obtain ⟨hasked, hinsert, hsource⟩ := hrecording
    rcases hcall : recordApprovalResolution h.env (h.key approval) now s.rows (p.call h approval) stage with
      ⟨progress, rows⟩
    have hst : step h s (.proceed now) = some ({ s with rows, ended := none }.advance approval p progress) := by
      simp only [step, act, hw, hcall]
    rw [obeys_of_step hst]
    by_cases hlookup : stage = .lookup
    · subst hlookup
      have hheeds : Heeds h s (.proceed now) ↔ (Approved h s approval → p.approves = true) := by
        simp [Heeds, hw]
      rw [hheeds]
      exact obeys_lookup hk rfl hsource hcall
    · refine iff_of_true (obeys_returned hk rfl hasked hsource hlookup hinsert hcall) ?_
      simp [Heeds, hw, hlookup]
  | _ => exact iff_of_true (obeys_blocked (by simp only [step, act, hw])) (by simp [Heeds, hw])

/-- A step obeys the record exactly if it heeds it. -/
theorem obeys_iff (hi : Inv h s) (l : Label) : Obeys h s l ↔ Heeds h s l := by
  have hk : Kept h { s with ended := none } := ⟨hi.records, hi.queue, hi.pending, hi.saved⟩
  cases l with
  | wait prompt => exact obeys_wait prompt
  | deadline => exact obeys_deadline
  | take => exact obeys_take
  | proceed now => exact obeys_proceed hi hk now
  | ask now approval r =>
    refine iff_of_true (fun t ht => ?_) trivial
    simp only [step, act] at ht
    split at ht
    · split at ht
      · rename_i hfresh
        cases ht
        exact obeys_ask hk rfl (by simpa using hfresh.1)
      · cases ht
    · cases ht
  | ensure approval =>
    refine iff_of_true (obeys_of_none ?_) trivial
    rintro _ ⟨⟩
    rfl
  | resolve now d item =>
    refine iff_of_true (obeys_of_none fun t ht => ?_) trivial
    simp only [step, act] at ht
    split at ht
    · cases ht
      rfl
    · cases ht
  | put i =>
    refine iff_of_true (obeys_of_none fun t ht => ?_) trivial
    obtain ⟨item, -, rfl⟩ := Option.map_eq_some_iff.mp ht
    rfl
  | stray item =>
    refine iff_of_true (obeys_of_none fun t ht => ?_) trivial
    simp only [step, act] at ht
    split at ht
    · cases ht
      rfl
    · cases ht
  | save =>
    refine iff_of_true (obeys_of_none ?_) trivial
    rintro _ ⟨⟩
    rfl
  | restart =>
    refine iff_of_true (obeys_of_none ?_) trivial
    rintro _ ⟨⟩
    rfl

theorem inv_step (hi : Inv h s) {l : Label} (hst : step h s l = some t) : Inv h t := by
  have hinv : Inv h { s with ended := none } :=
    ⟨⟨hi.records, hi.queue, hi.pending, hi.saved⟩, hi.waiter⟩
  exact inv_act hinv hst

end Ends

/-- In a run every wait that ends obeys the record of its approval just when the waiter comes to an
    approved record only with a decision that approves, and is let write it. -/
theorem approval_records_obeyed (h : Host) (labels : List Label) :
    Run.Meets (step h) (Obeys h) start labels ↔ Run.Meets (step h) (Heeds h) start labels := by
  constructor
  · exact Run.meets_inv (fun s l t hi _ hst => inv_step hi hst) (fun s l hi hobeys => (obeys_iff hi l).mp hobeys)
      inv_start
  · exact Run.meets_inv (fun s l t hi _ hst => inv_step hi hst) (fun s l hi hheeds => (obeys_iff hi l).mpr hheeds)
      inv_start

section Windows

def plainHost : Host := ⟨plainEnv, ⟨"run-7", by decide, by decide⟩, fun _ => "run-7"⟩

def send : Token := ⟨"approval-7", by decide, by decide⟩

/-- The run asks, and ada approves. -/
def approvedRun : List Label :=
  [.wait "Send it?", .ask 0 send ⟨"run-7", "approval-7", [], "system", "", [], .null⟩, .save,
    .resolve 1 ⟨"run-7", "approval-7", "approved", "ada", "", none, []⟩
      [("approval_id", .string "approval-7"), ("decision", .string "approve")]]

/-- The deadline comes before the decision is on the queue. -/
def late : List Label := approvedRun ++ [Label.deadline, .proceed 2, .proceed 3]

/-- The service is restarted before the decision is on the queue, and the run waits again. -/
def restarted : List Label := approvedRun ++ [Label.restart, .wait "Send it?", .proceed 2, .proceed 3]

/-- The record is approved; the one wait raises, and the other returns a rejection. -/
theorem approval_records_missed :
    (∃ s, Run.run (step plainHost) start late = some s ∧ Approved plainHost s send ∧
      s.ended.any (fun e => e.approval = send ∧ e.outcome.answer = none ∧ e.outcome ≠ .timedOut) = true ∧
      ¬ Run.Meets (step plainHost) (Obeys plainHost) start late) ∧
    ∃ s, Run.run (step plainHost) start restarted = some s ∧ Approved plainHost s send ∧
      s.ended.any (fun e => e.approval = send ∧ e.outcome.answer.any Answer.rejected) = true ∧
      ¬ Run.Meets (step plainHost) (Obeys plainHost) start restarted := by
  refine ⟨⟨_, rfl, ?_, ?_, ?_⟩, _, rfl, ?_, ?_, ?_⟩
  · decide
  · decide
  · decide
  · decide
  · decide
  · decide

end Windows

end Empyralis.Server.ApprovalWaits
