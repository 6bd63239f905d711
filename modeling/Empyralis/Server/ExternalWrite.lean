import Empyralis.Lib.Run
import Empyralis.Server.Values
import Mathlib.Data.List.DropRight

/-! The duplicate guard of external writes: `execute_external_write_once`.

    All calls have the same scope and payload, so they share one record. A call is a chain of stages; its
    steps are the sections under `IDEMPOTENCY_LOCK` and what happens between them: the answer of the
    kernel, the provider, and `_persist_idempotency`, which may raise. Records do not expire. -/

namespace Empyralis.Server.ExternalWrite
open Run
open Text (strip)

/-! ### The response -/

/-- The arguments of `_annotate_external_write_response` next to the response. -/
structure Guard where
  executed : Bool
  idempotencyKey : String
  createdAt : Option String
  completedAt : Option String

/-- `None` or a text -/
def optional : Option String → Value
  | none => .null
  | some text => .string text

/-- The guard as it is put into a result. -/
def Guard.value (guard : Guard) : Value :=
  .object [("executed", .bool guard.executed), ("duplicate_protected", .bool !guard.executed),
    ("idempotency_key", .string guard.idempotencyKey), ("created_at", optional guard.createdAt),
    ("completed_at", optional guard.completedAt)]

/-- A field that holds a dictionary is changed by `f`. -/
def within (key : String) (f : Fields → Fields) (fields : Fields) : Fields :=
  match Fields.get fields key with
  | .object inner => Fields.put fields key (.object (f inner))
  | _ => fields

/-- The two flags that say whether the write was executed here. -/
def mark (executed : Bool) (fields : Fields) : Fields :=
  Fields.put (Fields.put fields "executed" (.bool executed)) "duplicate_protected" (.bool !executed)

/-- The same of an action; what is no dictionary is left alone. -/
def markItem (executed : Bool) : Value → Value
  | .object fields => .object (mark executed fields)
  | item => item

/-- The same of every action in the outputs. -/
def markActions (executed : Bool) (outputs : Fields) : Fields :=
  match Fields.get outputs "actions" with
  | .array actions => Fields.put outputs "actions" (.array (actions.map (markItem executed)))
  | _ => outputs

/-- `annotate_result_data` -/
def annotateResultData (guard : Guard) (data : Fields) : Fields :=
  within "outputs" (markActions guard.executed)
    (within "connector_action" (mark guard.executed)
      (Fields.put data "external_write_guard" guard.value))

/-- The summary of a write that is not executed again. -/
def reusedSummary (summary : String) : String :=
  String.ofList (summary.toList.rdropWhile (· = '.')) ++
    " Skipped duplicate execution and reused the prior result."

/-- `_annotate_external_write_response` -/
def annotate (repr : Value → String) (guard : Guard) (response : Value) : Fields :=
  let payload :=
    match response with
    | .object fields => fields
    | result => [("result", result)]
  let annotated := within "outputs" (markActions guard.executed)
    (within "result_data" (annotateResultData guard)
      (Fields.put payload "duplicate_guard" guard.value))
  let summary := (Fields.get annotated "summary").token repr
  if summary ≠ "" ∧ ¬ guard.executed then
    Fields.put annotated "summary" (.string (reusedSummary summary))
  else annotated

/-! ### The calls -/

/-- How far the write is that a record guards. -/
inductive RecordState where
  | pending | completed | uncertain
  deriving DecidableEq

/-- The record of an idempotency key. -/
structure Record where
  bodyHash : String
  createdAt : String
  completedAt : Option String
  state : RecordState
  response : Option Value

/-- What the calls share: the key and the hash of the payload. -/
structure Write where
  idempotencyKey : String
  payloadHash : String
  repr : Value → String

/-- A call that raises an exception of another function has no message of its own. -/
inductive Stage where
  | calling
  | reserved (createdAt : String)
  | providing (createdAt : String)
  | failing
  | recording (createdAt : String) (response : Value)
  | recorded (annotated : Fields)
  | waiting
  | returned (response : Fields)
  | raised (message : Option String)

/-- The record of one key, and the calls; with ghosts, the executions and what succeeded. -/
structure State where
  record : Option Record
  calls : List Stage
  executions : Nat
  succeeded : List Value

def State.start : State := ⟨none, [], 0, []⟩

/-- How the provider ends: with a response, with an `Exception`, or with one that is none, such as an
    interrupt. -/
inductive Outcome where
  | response (value : Value)
  | exception
  | interrupt

/-- The labels of the call `i`. `stale` says that the record is older than the limit. -/
inductive Label where
  | call
  | reserve (i : Nat) (now : String) (stale : Bool)
  | abandon (i : Nat)
  | timeout (i : Nat)
  | poll (i : Nat)
  | gate (i : Nat) (allows : Bool)
  | provide (i : Nat) (outcome : Outcome)
  | fail (i : Nat)
  | complete (i : Nat) (now : String)
  | finish (i : Nat) (persists : Bool)

def orNone (text : String) : Option String := if strip text = "" then none else some (strip text)

variable (write : Write)

/-- What is returned for a record of another call. -/
def reuse (record : Record) : Fields :=
  annotate write.repr ⟨false, write.idempotencyKey, orNone record.createdAt,
    orNone ((record.completedAt.filter (· ≠ "")).getD record.createdAt)⟩ (record.response.getD .null)

/-- What is stored of a write that has been executed. -/
def own (createdAt completedAt : String) (response : Value) : Fields :=
  annotate write.repr ⟨true, write.idempotencyKey, some createdAt, some completedAt⟩ response

/-- A call with the same key and another body. -/
def conflict : Stage :=
  .raised (some "External write duplicate guard conflict for the same logical operation.")

/-- The first section. -/
def reserve (now : String) (stale : Bool) : Option Record → Option Record × Stage
  | none => (some ⟨write.payloadHash, now, none, .pending, none⟩, .reserved now)
  | some record =>
    if strip record.bodyHash ≠ write.payloadHash then (some record, conflict)
    else
      match record.state with
      | .uncertain =>
        (some record, .raised (some ("Duplicate-protected external write has an uncertain provider " ++
          "outcome; manual reconciliation is required before retry.")))
      | .pending =>
        if stale then
          (some { record with state := .uncertain },
            .raised (some ("Duplicate-protected external write has a stale pending provider " ++
              "outcome; manual reconciliation is required before retry.")))
        else (some record, .waiting)
      | .completed => (some record, .returned (reuse write record))

/-- The section of a call that waits. -/
def poll : Option Record → Stage
  | none => .calling
  | some record =>
    if strip record.bodyHash ≠ write.payloadHash then conflict
    else if record.state ≠ .pending then .returned (reuse write record)
    else .waiting

/-- The section of the handler of exceptions. -/
def markUncertain (record : Option Record) : Option Record :=
  record.map fun record =>
    if strip record.bodyHash = write.payloadHash then { record with state := .uncertain } else record

def State.move (s : State) (i : Nat) (stage : Stage) : State := { s with calls := s.calls.set i stage }

def step (s : State) : Label → Option State
  | .call => some { s with calls := s.calls ++ [.calling] }
  | .reserve i now stale =>
    match s.calls[i]? with
    | some .calling =>
      let (record, stage) := reserve write now stale s.record
      some { s.move i stage with record := record }
    | _ => none
  -- `_persist_idempotency` raises behind the first section
  | .abandon i =>
    match s.calls[i]? with
    | some (.reserved _) | some .waiting => some (s.move i (.raised none))
    | _ => none
  | .timeout i =>
    match s.calls[i]? with
    | some .waiting =>
      some (s.move i (.raised (some
        "Duplicate-protected external write is still pending from another execution.")))
    | _ => none
  | .poll i =>
    match s.calls[i]? with
    | some .waiting => some (s.move i (poll write s.record))
    | _ => none
  | .gate i allows =>
    match s.calls[i]? with
    | some (.reserved createdAt) =>
      if allows then some { s.move i (.providing createdAt) with executions := s.executions + 1 }
      else some (s.move i .failing)
    | _ => none
  | .provide i outcome =>
    match s.calls[i]? with
    | some (.providing createdAt) =>
      match outcome with
      | .response value =>
        some { s.move i (.recording createdAt value) with succeeded := s.succeeded ++ [value] }
      | .exception => some (s.move i .failing)
      | .interrupt => some (s.move i (.raised none))
    | _ => none
  | .fail i =>
    match s.calls[i]? with
    | some .failing => some { s.move i (.raised none) with record := markUncertain write s.record }
    | _ => none
  | .complete i now =>
    match s.calls[i]? with
    | some (.recording createdAt response) =>
      let annotated := own write createdAt now response
      some { s.move i (.recorded annotated) with
        record := some ⟨write.payloadHash, createdAt, some now, .completed, some (.object annotated)⟩ }
    | _ => none
  | .finish i persists =>
    match s.calls[i]? with
    | some (.recorded annotated) =>
      some (s.move i (if persists then .returned annotated else .raised none))
    | _ => none

/-- No call that waits finds a record with an uncertain outcome. -/
def FindsCertain (s : State) : Label → Prop
  | .poll _ => ∀ record ∈ s.record, record.state ≠ .uncertain
  | _ => True

/-- What a call returns that reports this response: its own, or that of another call. -/
inductive Reports (response : Value) : Fields → Prop where
  | own (createdAt completedAt : String) : Reports response (own write createdAt completedAt response)
  | reused (createdAt completedAt : String) (guard : Guard) (hguard : guard.executed = false) :
      Reports response (annotate write.repr guard (.object (own write createdAt completedAt response)))

/-! ### One record, one provider call -/

def Stage.isReserved : Stage → Bool
  | .reserved _ => true
  | _ => false

/-- A reserved call may still execute its write once. -/
def weight (stage : Stage) : Nat := if stage.isReserved then 1 else 0

/-- A record stands for one execution. -/
def capacity (record : Option Record) : Nat := if record.isSome then 1 else 0

/-- What a stage says about the provider calls that succeeded; what a call returns says it as long as
    all calls that waited found a certain outcome. -/
def Fits (certain : Prop) (succeeded : List Value) : Stage → Prop
  | .recording _ response => response ∈ succeeded
  | .recorded fields => ∃ response ∈ succeeded, Reports write response fields
  | .returned fields => certain → ∃ response ∈ succeeded, Reports write response fields
  | _ => True

/-- A completed record holds the response of a provider call that succeeded. -/
def Stored (succeeded : List Value) (record : Option Record) : Prop :=
  ∀ r ∈ record, r.state = .completed → ∃ response ∈ succeeded, ∃ createdAt completedAt,
    r.response = some (.object (own write createdAt completedAt response))

/-- What holds in each state: reserved calls and executions are no more than the record allows. -/
structure Sound (certain : Prop) (s : State) : Prop where
  once : s.calls.countP Stage.isReserved + s.executions ≤ capacity s.record
  stored : Stored write s.succeeded s.record
  fits : ∀ stage ∈ s.calls, Fits write certain s.succeeded stage

variable {write} {certain : Prop} {s t : State} {i : Nat} {stage old : Stage} {succeeded : List Value}

theorem fits_mono {more : List Value} (h : Fits write certain succeeded stage) :
    Fits write certain (succeeded ++ more) stage := by
  cases stage with
  | recording => exact List.mem_append_left _ h
  | recorded =>
    obtain ⟨response, hmem, hreports⟩ := h
    exact ⟨response, List.mem_append_left _ hmem, hreports⟩
  | returned =>
    intro hcertain
    obtain ⟨response, hmem, hreports⟩ := h hcertain
    exact ⟨response, List.mem_append_left _ hmem, hreports⟩
  | _ => trivial

theorem weight_set (hold : s.calls[i]? = some old) :
    (s.calls.set i stage).countP Stage.isReserved + weight old =
      s.calls.countP Stage.isReserved + weight stage := by
  obtain ⟨hi, rfl⟩ := List.getElem?_eq_some_iff.mp hold
  have hle : weight s.calls[i] ≤ s.calls.countP Stage.isReserved := by
    unfold weight
    split_ifs with hreserved
    · exact List.countP_pos_iff.mpr ⟨_, List.getElem_mem hi, hreserved⟩
    · exact Nat.zero_le _
  have hset := List.countP_set (p := Stage.isReserved) (a := stage) hi
  unfold weight at hle ⊢
  omega

/-- A call moves to another stage. -/
theorem sound_move (hs : Sound write certain s) (hold : s.calls[i]? = some old)
    (hcalls : t.calls = s.calls.set i stage)
    (hweight : weight stage + t.executions + capacity s.record ≤
      weight old + s.executions + capacity t.record)
    (hmore : ∃ more, t.succeeded = s.succeeded ++ more)
    (hstored : Stored write t.succeeded t.record) (hfits : Fits write certain t.succeeded stage) :
    Sound write certain t where
  once := by
    have hset : (s.calls.set i stage).countP Stage.isReserved + weight old =
        s.calls.countP Stage.isReserved + weight stage := weight_set hold
    have := hs.once
    rw [hcalls]
    omega
  stored := hstored
  fits := by
    intro other hother
    rw [hcalls] at hother
    obtain ⟨more, hmore⟩ := hmore
    rcases List.mem_or_eq_of_mem_set hother with hmem | rfl
    · exact hmore ▸ fits_mono (hs.fits other hmem)
    · exact hfits

/-- A call moves to a stage that no longer counts for the record. -/
theorem sound_leave (hs : Sound write certain s) (hold : s.calls[i]? = some old)
    (hweight : weight stage = 0) (hfits : Fits write certain s.succeeded stage) :
    Sound write certain (s.move i stage) := by
  refine sound_move hs hold rfl ?_ ⟨[], (List.append_nil _).symm⟩ hs.stored hfits
  show weight stage + s.executions + capacity s.record ≤ weight old + s.executions + capacity s.record
  omega

/-- What is returned for a completed record. -/
theorem reports_reuse {record : Record} (h : Stored write succeeded (some record))
    (hstate : record.state = .completed) : ∃ response ∈ succeeded, Reports write response (reuse write record) := by
  obtain ⟨response, hmem, createdAt, completedAt, hresponse⟩ := h record rfl hstate
  refine ⟨response, hmem, ?_⟩
  unfold reuse
  rw [hresponse]
  exact .reused createdAt completedAt _ rfl

theorem fits_poll {record : Option Record} (h : Stored write succeeded record)
    (hcertain : certain → ∀ r ∈ record, r.state ≠ .uncertain) :
    Fits write certain succeeded (poll write record) := by
  cases record with
  | none => trivial
  | some record =>
    rw [poll]
    split_ifs with hhash hstate
    · trivial
    · intro hc
      refine reports_reuse h ?_
      cases hrecord : record.state with
      | pending => exact absurd hrecord hstate
      | completed => rfl
      | uncertain => exact absurd hrecord (hcertain hc record rfl)
    · trivial

theorem weight_raised (message : Option String) : weight (.raised message) = 0 := rfl

/-- The first section keeps what is stored, and a call goes on with it only where there was no record. -/
theorem reserve_spec (now : String) (stale : Bool) {record : Option Record}
    (h : Stored write succeeded record) :
    weight (reserve write now stale record).2 + capacity record ≤
        capacity (reserve write now stale record).1 ∧
      Stored write succeeded (reserve write now stale record).1 ∧
      Fits write certain succeeded (reserve write now stale record).2 := by
  cases record with
  | none =>
    refine ⟨by simp [reserve, weight, Stage.isReserved, capacity], ?_, trivial⟩
    intro r hr hstate
    obtain rfl := Option.some.inj hr
    exact absurd hstate (by simp)
  | some record =>
    rw [reserve]
    split
    · exact ⟨by simp [conflict, weight_raised, capacity], h, trivial⟩
    · split
      · exact ⟨by simp [weight_raised, capacity], h, trivial⟩
      · split
        · refine ⟨by simp [weight_raised, capacity], ?_, trivial⟩
          intro r hr hstate
          obtain rfl := Option.some.inj hr
          exact absurd hstate (by simp)
        · exact ⟨by simp [weight, Stage.isReserved, capacity], h, trivial⟩
      · rename_i hstate
        exact ⟨by simp [weight, Stage.isReserved, capacity], h, fun _ => reports_reuse h hstate⟩

theorem stored_markUncertain {record : Option Record} (h : Stored write succeeded record) :
    Stored write succeeded (markUncertain write record) := by
  intro r hr hstate
  obtain ⟨before, hbefore, rfl⟩ := Option.map_eq_some_iff.mp hr
  split_ifs at hstate ⊢ with hhash
  · exact h before hbefore hstate

theorem stored_append {more : List Value} {record : Option Record} (h : Stored write succeeded record) :
    Stored write (succeeded ++ more) record := by
  intro r hr hstate
  obtain ⟨response, hmem, hresponse⟩ := h r hr hstate
  exact ⟨response, List.mem_append_left _ hmem, hresponse⟩

theorem sound_start : Sound write certain State.start where
  once := by simp [State.start, capacity]
  stored := fun r hr => by cases hr
  fits := by simp [State.start]

theorem weight_poll (record : Option Record) : weight (poll write record) = 0 := by
  cases record with
  | none => rfl
  | some record =>
    rw [poll]
    split_ifs <;> rfl

/-- One step keeps the executions within what the record allows. -/
theorem sound_step (l : Label) (hs : Sound write certain s) (hl : certain → FindsCertain s l)
    (hst : step write s l = some t) : Sound write certain t := by
  have hsame : ∃ more, s.succeeded = s.succeeded ++ more := ⟨[], (List.append_nil _).symm⟩
  cases l with
  | call =>
    obtain rfl := Option.some.inj hst
    refine ⟨?_, hs.stored, ?_⟩
    · have := hs.once
      simpa [List.countP_append, Stage.isReserved] using this
    · intro stage hstage
      rcases List.mem_append.mp hstage with hmem | hmem
      · exact hs.fits stage hmem
      · rw [List.mem_singleton.mp hmem]
        trivial
  | reserve i now stale =>
    simp only [step] at hst
    split at hst <;> cases hst
    rename_i hold
    obtain ⟨hweight, hstored, hfits⟩ := reserve_spec now stale hs.stored
    refine sound_move hs hold rfl ?_ hsame hstored hfits
    simp only [State.move]
    omega
  | abandon i =>
    simp only [step] at hst
    split at hst <;> cases hst
    all_goals
      rename_i hold
      exact sound_leave hs hold rfl trivial
  | timeout i =>
    simp only [step] at hst
    split at hst <;> cases hst
    rename_i hold
    exact sound_leave hs hold rfl trivial
  | poll i =>
    simp only [step] at hst
    split at hst <;> cases hst
    rename_i hold
    exact sound_leave hs hold (weight_poll _) (fits_poll hs.stored hl)
  | gate i allows =>
    simp only [step] at hst
    split at hst
    · rename_i createdAt hold
      split_ifs at hst <;> cases hst
      · refine sound_move hs hold rfl ?_ hsame hs.stored trivial
        show 0 + (s.executions + 1) + capacity s.record ≤ 1 + s.executions + capacity s.record
        omega
      · exact sound_leave hs hold rfl trivial
    · cases hst
  | provide i outcome =>
    simp only [step] at hst
    split at hst
    · rename_i createdAt hold
      cases outcome with
      | response value =>
        cases hst
        refine sound_move hs hold rfl ?_ ⟨[value], rfl⟩ (stored_append hs.stored)
          (List.mem_append_right _ (List.mem_singleton_self _))
        simp [State.move, weight, Stage.isReserved]
      | exception | interrupt =>
        cases hst
        exact sound_leave hs hold rfl trivial
    · cases hst
  | fail i =>
    simp only [step] at hst
    split at hst <;> cases hst
    rename_i hold
    refine sound_move hs hold rfl ?_ hsame (stored_markUncertain hs.stored) trivial
    simp [State.move, weight, Stage.isReserved, markUncertain, capacity]
  | complete i now =>
    simp only [step] at hst
    split at hst <;> cases hst
    rename_i createdAt response hold
    have hmem : response ∈ s.succeeded := hs.fits _ (List.mem_of_getElem? hold)
    refine sound_move hs hold rfl ?_ hsame ?_ ⟨response, hmem, .own createdAt now⟩
    · have : capacity s.record ≤ 1 := by
        unfold capacity
        split_ifs <;> omega
      simp only [State.move, weight, Stage.isReserved]
      exact Nat.add_le_add_left this _
    · intro r hr _
      obtain rfl := Option.some.inj hr
      exact ⟨response, hmem, createdAt, now, rfl⟩
  | finish i persists =>
    simp only [step] at hst
    split at hst <;> cases hst
    rename_i annotated hold
    have hreports : ∃ response ∈ s.succeeded, Reports write response annotated :=
      hs.fits _ (List.mem_of_getElem? hold)
    cases persists with
    | true => exact sound_leave hs hold rfl fun _ => hreports
    | false => exact sound_leave hs hold rfl trivial

/-- The provider is called at most once; and as long as no call that waits finds an uncertain outcome,
    what a call returns is the response of a provider call that succeeded. -/
theorem executed_once_and_reported (write : Write) (labels : List Label) (s : State)
    (hrun : run (step write) State.start labels = some s) :
    s.executions ≤ 1 ∧ (Meets (step write) FindsCertain State.start labels →
      ∀ fields, .returned fields ∈ s.calls → ∃ response ∈ s.succeeded, Reports write response fields) := by
  constructor
  · have hs : Sound write False s :=
      run_inv_all (fun _ l _ hs hst => sound_step l hs False.elim hst) sound_start hrun
    have hcapacity : capacity s.record ≤ 1 := by
      unfold capacity
      split_ifs <;> omega
    have := hs.once
    omega
  · intro hcertain fields hfields
    have hs : Sound write True s :=
      run_inv (fun _ l _ hs hl hst => sound_step l hs (fun _ => hl) hst) hcertain sound_start hrun
    exact hs.fits _ hfields trivial

instance (s : State) : (l : Label) → Decidable (FindsCertain s l)
  | .poll _ => inferInstanceAs (Decidable (∀ record ∈ s.record, record.state ≠ .uncertain))
  | .call | .reserve .. | .abandon _ | .timeout _ | .gate .. | .provide .. | .fail _ | .complete ..
  | .finish .. => .isTrue trivial

def Stage.isReturned : Stage → Bool
  | .returned _ => true
  | _ => false

def mail : Write := ⟨"key", "hash", fun _ => "[]"⟩

/-- The second call waits for the first, and returns its response. -/
theorem executed_once_and_reported_two : ∃ s,
    run (step mail) State.start [.call, .call, .reserve 0 "12:00" false, .reserve 1 "12:01" false,
      .gate 0 true, .provide 0 (.response (.string "sent")), .complete 0 "12:02", .poll 1] = some s ∧
    s.executions ≤ 1 ∧ ∀ fields, .returned fields ∈ s.calls →
      ∃ response ∈ s.succeeded, Reports mail response fields := by
  have hrun : (run (step mail) State.start [.call, .call, .reserve 0 "12:00" false,
      .reserve 1 "12:01" false, .gate 0 true, .provide 0 (.response (.string "sent")),
      .complete 0 "12:02", .poll 1]).isSome := by decide
  obtain ⟨s, hs⟩ := Option.isSome_iff_exists.mp hrun
  obtain ⟨honce, hreports⟩ := executed_once_and_reported mail _ s hs
  exact ⟨s, hs, honce, hreports (by decide)⟩

/-- The provider fails while the second call waits, and that call returns. -/
theorem waiting_call_returns_nothing :
    (run (step mail) State.start [.call, .call, .reserve 0 "12:00" false, .reserve 1 "12:01" false,
      .gate 0 true, .provide 0 .exception, .fail 0, .poll 1]).map (fun s =>
        (s.executions, s.succeeded.length, s.calls.map Stage.isReturned)) =
      some (1, 0, [false, true]) := by
  decide

end Empyralis.Server.ExternalWrite
