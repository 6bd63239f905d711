import Empyralis.Lib.Run
import Mathlib.Data.List.Infix

/-! The hourly metering of an agent computer, with the debit of its workspace's credits.

    Times are microseconds and money is in millionths of a dollar. A `meter_one_agent_computer` reads
    the high-water mark of the computer's record, makes its plan, debits the hours of the plan one by
    one and writes the mark. Any number of them may be under way, and each may stop at any step. -/

namespace Empyralis.Server.ComputerMetering

/-- An hour, in microseconds. -/
def hourMicros : Int := 3600000000

/-- A computer and the prices it is metered at. `credits` is zero for a size without a price; `owed`
    is what these credits are worth, and `floor` the one-time allowance. -/
structure Computer where
  vpsId : String
  named : vpsId ≠ ""
  created : Int
  credits : Nat
  owed : Nat
  floor : Nat

def Computer.requestPrefix (c : Computer) : String := "agent_computer:" ++ c.vpsId ++ ":"

/-- The request id of an hour. -/
def Computer.requestId (c : Computer) (bucket : Nat) : String := c.requestPrefix ++ toString bucket

/-- The hours that are over. -/
def Computer.completeHours (c : Computer) (moment : Int) : Nat :=
  ((moment - c.created) / hourMicros).toNat

/-- `agent_computer_hourly_credit_debit_plan`, by the buckets of its plans. -/
def Computer.plan (c : Computer) (moment : Int) (lastBilled : Option Int) : List Nat :=
  if c.vpsId = "" ∨ moment ≤ c.created then []
  else
    let startBucket := ((lastBilled.map fun bucket => max 0 (bucket + 1)).getD 0).toNat
    if c.completeHours moment ≤ startBucket ∨ c.credits = 0 then []
    else List.range' startBucket (c.completeHours moment - startBucket)

/-! ### The credits of a workspace -/

/-- A credit transaction; the request id and the source are as they are read, stripped. -/
structure Transaction where
  requestId : String
  amount : Int
  source : String
  deriving DecidableEq

/-- `balance` is that of the admin defaults, which may be missing, `billing` that of the billing
    metadata. -/
structure Account where
  balance : Option Int
  billing : Int
  transactions : List Transaction
  deriving DecidableEq

/-- The balance; before the first transaction it is that of the billing. -/
def Account.current (a : Account) : Nat := (a.balance.getD a.billing).toNat

/-- The request id is among the transactions. -/
def Account.recorded (a : Account) (requestId : String) : Bool :=
  a.transactions.any (·.requestId = requestId)

/-- The allowance, which a workspace is given at most once. -/
def Account.topUp (a : Account) (floor : Nat) : Account :=
  if a.transactions.any (·.source = "safety_backfill_grant") ∨ floor ≤ a.current then a
  else
    { a with
      balance := some floor
      transactions := a.transactions ++ [⟨"", floor - a.current, "safety_backfill_grant"⟩] }

/-- A debit, of no more than there is. -/
def Account.take (a : Account) (requestId : String) (owed : Nat) (source : String) : Account :=
  { a with
    balance := some ((a.current - min a.current owed : Nat) : Int)
    transactions := a.transactions ++
      if 0 < min a.current owed then [⟨requestId, -(min a.current owed : Nat), source⟩] else [] }

/-- `_build_workspace_credit_turn_debit_result` -/
def Account.debit (a : Account) (requestId : String) (owed floor : Nat) (source : String) : Account :=
  if a.recorded requestId then a else (a.topUp floor).take requestId owed source

/-- The transactions of a request. -/
def Account.charges (a : Account) (requestId : String) : List Transaction :=
  a.transactions.filter (·.requestId = requestId)

/-! ### Sweeps -/

/-- Where a sweep is: it has read the record, it debits the hours `todo`, it writes the mark, or it has
    returned, with or without errors. -/
inductive Stage where
  | listed
  | debiting (todo : List Nat)
  | marking (failed : Bool)
  | done (failed : Bool)
  deriving DecidableEq

/-- A sweep over one computer: what it has read, and how far it is. -/
structure Sweep where
  lastBilled : Option Int
  moment : Int
  highest : Option Int
  stage : Stage
  deriving DecidableEq

/-- After the last debit or the first that fails. -/
def Sweep.finish (w : Sweep) (failed : Bool) : Sweep :=
  { w with stage := if w.highest = w.lastBilled then .done failed else .marking failed }

def Sweep.start (w : Sweep) (moment : Int) (todo : List Nat) : Sweep :=
  { w with moment := moment, stage := if todo = [] then .done false else .debiting todo }

/-- The debit of an hour has returned `ok`. -/
def Sweep.billed (w : Sweep) (bucket : Nat) (todo : List Nat) : Sweep :=
  let w := { w with highest := some (bucket : Int) }
  if todo = [] then w.finish false else { w with stage := .debiting todo }

/-- A debit that was not recorded before, and the balance that it found. -/
structure Call where
  bucket : Nat
  available : Nat
  deriving DecidableEq

/-- What the debit takes. -/
def Call.taken (call : Call) (c : Computer) : Nat := min call.available c.owed

/-- `mark` is `metering.last_billed_hour_bucket`. `calls` is a record for the statements alone. -/
structure State where
  now : Int
  mark : Option Int
  account : Account
  sweeps : List Sweep
  calls : List Call
  deriving DecidableEq

def start (now : Int) (account : Account) : State where
  now := now
  mark := none
  account := account
  sweeps := []
  calls := []

/-- A call returns `ok`, or it returns without, or it raises, before or after its write. -/
inductive Outcome where
  | ok
  | notOk
  | raised (written : Bool)
  deriving DecidableEq

/-- `other` is a transaction of someone else's in the workspace's credits, appended with the balance that it
    leaves. -/
inductive Label where
  | tick (micros : Nat)
  | other (balance : Int) (t : Transaction)
  | list
  | plan (i : Nat)
  | debit (i : Nat) (outcome : Outcome)
  | write (i : Nat) (outcome : Outcome)
  deriving DecidableEq

variable (c : Computer)

/-- A request id that has the form of the computer's own. -/
def Computer.owns (requestId : String) : Bool :=
  c.requestPrefix.toList.isPrefixOf requestId.toList &&
    (requestId.toList.drop c.requestPrefix.toList.length).all Char.isDigit

def State.setSweep (s : State) (i : Nat) (w : Sweep) : State :=
  { s with sweeps := s.sweeps.set i w }

/-- The write of a debit. -/
def State.commit (s : State) (bucket : Nat) : State :=
  { s with
    account := s.account.debit (c.requestId bucket) c.owed c.floor "agent_computer_hourly"
    calls :=
      if s.account.recorded (c.requestId bucket) then s.calls
      else s.calls ++ [⟨bucket, (s.account.topUp c.floor).current⟩] }

/-- The state after the debit of an hour. -/
def State.debited (s : State) (i : Nat) (w : Sweep) (bucket : Nat) (todo : List Nat) :
    Outcome → State
  | .ok => (s.commit c bucket).setSweep i (w.billed bucket todo)
  | .raised true => (s.commit c bucket).setSweep i (w.finish true)
  | .notOk | .raised false => s.setSweep i (w.finish true)

/-- `update_vps_record` with the mark; what it returns is not looked at. -/
def State.marked (s : State) (i : Nat) (w : Sweep) (failed : Bool) : Outcome → State
  | .ok => { s with mark := w.highest }.setSweep i { w with stage := .done failed }
  | .notOk => s.setSweep i { w with stage := .done failed }
  | .raised true => { s with mark := w.highest }.setSweep i { w with stage := .done true }
  | .raised false => s.setSweep i { w with stage := .done true }

def step (s : State) : Label → Option State
  | .tick micros => some { s with now := s.now + micros }
  | .other balance t =>
    if c.owns t.requestId then none
    else some { s with
      account := { s.account with
        balance := some balance
        transactions := s.account.transactions ++ [t] } }
  | .list => some { s with sweeps := s.sweeps ++ [⟨s.mark, s.now, s.mark, .listed⟩] }
  | .plan i => (s.sweeps[i]?).bind fun w =>
    match w.stage with
    | .listed => some (s.setSweep i (w.start s.now (c.plan s.now w.lastBilled)))
    | _ => none
  | .debit i outcome => (s.sweeps[i]?).bind fun w =>
    match w.stage with
    | .debiting (bucket :: todo) => some (s.debited c i w bucket todo outcome)
    | _ => none
  | .write i outcome => (s.sweeps[i]?).bind fun w =>
    match w.stage with
    | .marking failed => some (s.marked i w failed outcome)
    | _ => none

/-! ### What a debit does -/

variable {c}

theorem requestId_injective {bucket bucket' : Nat} (h : c.requestId bucket = c.requestId bucket') :
    bucket = bucket' := by
  have hlist := congrArg String.toList h
  rw [Computer.requestId, Computer.requestId, String.toList_append, String.toList_append] at hlist
  have hdigits := congrArg (fun digits => Nat.ofDigitChars 10 digits 0)
    (List.append_cancel_left hlist)
  simpa using hdigits

theorem requestId_ne_empty (bucket : Nat) : c.requestId bucket ≠ "" := by
  intro h
  have hprefix : c.requestPrefix = "" := (String.append_eq_empty_iff.mp h).1
  exact absurd (String.append_eq_empty_iff.mp hprefix).2 (by decide)

theorem owns_requestId (bucket : Nat) : c.owns (c.requestId bucket) := by
  have hdigits : ∀ x ∈ Nat.toDigits 10 bucket, x.isDigit := fun x hx =>
    Nat.isDigit_of_mem_toDigits (by decide) (by decide) hx
  simpa [Computer.owns, Computer.requestId, String.toList_append] using hdigits

theorem charges_append (a : Account) (balance : Option Int) (ts : List Transaction)
    (requestId : String) :
    ({ a with balance := balance, transactions := a.transactions ++ ts } : Account).charges requestId =
      a.charges requestId ++ ts.filter (·.requestId = requestId) :=
  List.filter_append _ _

theorem recorded_iff {a : Account} {requestId : String} :
    a.recorded requestId ↔ a.charges requestId ≠ [] := by
  simp [Account.recorded, Account.charges]

theorem charges_topUp (a : Account) (floor : Nat) (bucket : Nat) :
    (a.topUp floor).charges (c.requestId bucket) = a.charges (c.requestId bucket) := by
  unfold Account.topUp
  split
  · rfl
  · rw [charges_append]
    simp [(requestId_ne_empty bucket).symm]

theorem charges_debit_other (a : Account) (owed floor : Nat) (source : String)
    {bucket bucket' : Nat} (h : bucket' ≠ bucket) :
    (a.debit (c.requestId bucket) owed floor source).charges (c.requestId bucket') =
      a.charges (c.requestId bucket') := by
  have hid : c.requestId bucket ≠ c.requestId bucket' := fun hid =>
    h (requestId_injective hid).symm
  unfold Account.debit
  split
  · rfl
  · rw [Account.take, charges_append, charges_topUp]
    split <;> simp [hid]

theorem charges_debit_self {a : Account} (owed floor : Nat) (source : String) {bucket : Nat}
    (h : a.charges (c.requestId bucket) = []) :
    ((a.debit (c.requestId bucket) owed floor source).charges (c.requestId bucket)).map (·.amount) =
      if 0 < min (a.topUp floor).current owed then [-((min (a.topUp floor).current owed : Nat) : Int)]
      else [] := by
  have hnew : a.recorded (c.requestId bucket) = false := by
    rw [Bool.eq_false_iff]
    exact fun hrecorded => recorded_iff.mp hrecorded h
  rw [Account.debit, if_neg (by simp [hnew]), Account.take, charges_append, charges_topUp, h]
  split <;> simp

/-! ### Every complete hour once -/

/-- The hour is complete. -/
def Computer.Over (c : Computer) (now : Int) (bucket : Nat) : Prop :=
  (bucket + 1) * hourMicros ≤ now - c.created

theorem lt_completeHours {moment : Int} {bucket : Nat} :
    bucket < c.completeHours moment ↔ c.Over moment bucket := by
  have hdiv : (bucket + 1 : Int) ≤ (moment - c.created) / hourMicros ↔
      (bucket + 1) * hourMicros ≤ moment - c.created :=
    Int.le_ediv_iff_mul_le (by decide)
  rw [Computer.Over, ← hdiv, Computer.completeHours]
  omega

theorem over_mono {now now' : Int} {bucket : Nat} (h : c.Over now bucket) (hle : now ≤ now') :
    c.Over now' bucket := by
  unfold Computer.Over at h ⊢
  omega

/-- The debit of the hour has been accepted. -/
def State.Called (s : State) (bucket : Nat) : Prop := ∃ call ∈ s.calls, call.bucket = bucket

/-- The hours up to the mark have been called for. -/
def State.Marked (s : State) (mark : Option Int) : Prop :=
  ∀ m ∈ mark, ∀ bucket : Nat, (bucket : Int) ≤ m → s.Called bucket

/-- What a sweep has behind it at each stage. -/
def Sweep.Fits (c : Computer) (s : State) (w : Sweep) : Prop :=
  match w.stage with
  | .listed => True
  | .debiting todo =>
    ∃ first count, todo = List.range' first count ∧ first + count = c.completeHours w.moment ∧
      ∀ bucket < first, s.Called bucket
  | .marking failed | .done failed =>
    failed = false → 0 < c.credits → ∀ bucket < c.completeHours w.moment, s.Called bucket

/-- The hour has been charged once, with what one of its calls took, or all of them took nothing. -/
def State.Billed (c : Computer) (s : State) (bucket : Nat) : Prop :=
  (s.account.charges (c.requestId bucket) = [] ∧
      ∀ call ∈ s.calls, call.bucket = bucket → call.taken c = 0) ∨
    ∃ call ∈ s.calls, call.bucket = bucket ∧ 0 < call.taken c ∧
      (s.account.charges (c.requestId bucket)).map (·.amount) = [-(call.taken c : Int)]

/-- What is claimed of a state, with what the sweeps know. -/
structure Metered (c : Computer) (s : State) : Prop where
  billed : ∀ bucket, s.Billed c bucket
  complete : ∀ call ∈ s.calls, c.Over s.now call.bucket
  mark : s.Marked s.mark
  moments : ∀ w ∈ s.sweeps, w.moment ≤ s.now
  marks : ∀ w ∈ s.sweeps, s.Marked w.lastBilled ∧ s.Marked w.highest
  sweeps : ∀ w ∈ s.sweeps, w.Fits c s

variable {s t : State} {w : Sweep} {bucket i : Nat} {l : Label}

theorem metered_start {now : Int} {account : Account}
    (hnew : ∀ bucket, account.charges (c.requestId bucket) = []) : Metered c (start now account) where
  billed bucket := Or.inl ⟨hnew bucket, fun _ hcall => absurd hcall List.not_mem_nil⟩
  complete _ hcall := absurd hcall List.not_mem_nil
  mark _ hm := absurd hm (Option.not_mem_none _)
  moments _ hw := absurd hw List.not_mem_nil
  marks _ hw := absurd hw List.not_mem_nil
  sweeps _ hw := absurd hw List.not_mem_nil

theorem marked_mono {mark : Option Int} (h : s.Marked mark)
    (hcalls : ∀ bucket, s.Called bucket → t.Called bucket) : t.Marked mark :=
  fun m hm bucket hle => hcalls bucket (h m hm bucket hle)

theorem fits_mono (h : w.Fits c s) (hcalls : ∀ bucket, s.Called bucket → t.Called bucket) :
    w.Fits c t := by
  cases hstage : w.stage with
  | listed => simp [Sweep.Fits, hstage]
  | debiting todo =>
    simp only [Sweep.Fits, hstage] at h ⊢
    obtain ⟨first, count, htodo, hsum, hbelow⟩ := h
    exact ⟨first, count, htodo, hsum, fun bucket hlt => hcalls bucket (hbelow bucket hlt)⟩
  | marking failed | done failed =>
    simp only [Sweep.Fits, hstage] at h ⊢
    exact fun hfailed hcredits bucket hlt => hcalls bucket (h hfailed hcredits bucket hlt)

/-- A step that leaves the sweeps and the clock alone. -/
theorem metered_frame (h : Metered c s) (hbilled : ∀ bucket, t.Billed c bucket)
    (hover : ∀ call ∈ t.calls, c.Over t.now call.bucket) (hnow : s.now ≤ t.now)
    (hmark : t.Marked t.mark) (hsweeps : t.sweeps = s.sweeps)
    (hcalls : ∀ bucket, s.Called bucket → t.Called bucket) : Metered c t where
  billed := hbilled
  complete := hover
  mark := hmark
  moments w hw := Int.le_trans (h.moments w (hsweeps ▸ hw)) hnow
  marks w hw := (h.marks w (hsweeps ▸ hw)).imp (marked_mono · hcalls) (marked_mono · hcalls)
  sweeps w hw := fits_mono (h.sweeps w (hsweeps ▸ hw)) hcalls

/-- A step of one sweep. -/
theorem metered_setSweep (h : Metered c s) (hmoment : w.moment ≤ s.now)
    (hlast : s.Marked w.lastBilled) (hhighest : s.Marked w.highest) (hfits : w.Fits c s) :
    Metered c (s.setSweep i w) where
  billed := h.billed
  complete := h.complete
  mark := h.mark
  moments w' hw' := by
    rcases List.mem_or_eq_of_mem_set hw' with hw' | rfl
    · exact h.moments w' hw'
    · exact hmoment
  marks w' hw' := by
    rcases List.mem_or_eq_of_mem_set hw' with hw' | rfl
    · exact h.marks w' hw'
    · exact ⟨hlast, hhighest⟩
  sweeps w' hw' := by
    have hcalls (bucket : Nat) (hcalled : s.Called bucket) : (s.setSweep i w).Called bucket := hcalled
    rcases List.mem_or_eq_of_mem_set hw' with hw' | rfl
    · exact fits_mono (h.sweeps w' hw') hcalls
    · exact fits_mono hfits hcalls

/-- The write of a debit, of an hour that is complete. -/
theorem metered_commit (h : Metered c s) (hover : c.Over s.now bucket) :
    Metered c (s.commit c bucket) ∧ (s.commit c bucket).Called bucket ∧
      ∀ bucket', s.Called bucket' → (s.commit c bucket).Called bucket' := by
  by_cases hrecorded : s.account.recorded (c.requestId bucket)
  · -- nothing changes, and the hour has been charged by an earlier call
    have hsame : s.commit c bucket = s := by simp [State.commit, Account.debit, hrecorded]
    rw [hsame]
    refine ⟨h, ?_, fun _ hcalled => hcalled⟩
    rcases h.billed bucket with ⟨hnone, -⟩ | ⟨call, hcall, hbucket, -⟩
    · exact absurd hnone (recorded_iff.mp hrecorded)
    · exact ⟨call, hcall, hbucket⟩
  · have hnone : s.account.charges (c.requestId bucket) = [] := by
      by_contra hsome
      exact hrecorded (recorded_iff.mpr hsome)
    have hcalls : (s.commit c bucket).calls =
        s.calls ++ [⟨bucket, (s.account.topUp c.floor).current⟩] := by
      simp [State.commit, hrecorded]
    have hgrows (bucket' : Nat) (hcalled : s.Called bucket') :
        (s.commit c bucket).Called bucket' := by
      obtain ⟨call, hcall, hbucket⟩ := hcalled
      exact ⟨call, hcalls ▸ List.mem_append_left _ hcall, hbucket⟩
    have hcalled : (s.commit c bucket).Called bucket :=
      ⟨_, hcalls ▸ List.mem_append_right _ (List.mem_singleton.mpr rfl), rfl⟩
    have hnothing : ∀ call ∈ s.calls, call.bucket = bucket → call.taken c = 0 := by
      rcases h.billed bucket with ⟨-, hzero⟩ | ⟨call, -, -, -, hcharge⟩
      · exact hzero
      · simp [hnone] at hcharge
    refine ⟨metered_frame h ?_ ?_ (Int.le_refl _) (marked_mono h.mark hgrows) rfl hgrows, hcalled,
      hgrows⟩
    · intro bucket'
      by_cases hsame : bucket' = bucket
      · subst hsame
        have hcharge := charges_debit_self c.owed c.floor "agent_computer_hourly" hnone
        split at hcharge
        · rename_i htaken
          exact Or.inr ⟨⟨bucket', (s.account.topUp c.floor).current⟩,
            hcalls ▸ List.mem_append_right _ (List.mem_singleton.mpr rfl), rfl, htaken, hcharge⟩
        · rename_i htaken
          refine Or.inl ⟨List.map_eq_nil_iff.mp hcharge, ?_⟩
          intro call hcall hbucket
          rw [hcalls] at hcall
          rcases List.mem_append.mp hcall with hcall | hcall
          · exact hnothing call hcall hbucket
          · rw [List.mem_singleton.mp hcall]
            exact Nat.eq_zero_of_not_pos htaken
      · have hcharge : (s.commit c bucket).account.charges (c.requestId bucket') =
            s.account.charges (c.requestId bucket') := charges_debit_other _ _ _ _ hsame
        rcases h.billed bucket' with ⟨hnone', hzero⟩ | ⟨call, hcall, hbucket, htaken, hamount⟩
        · refine Or.inl ⟨hcharge.trans hnone', ?_⟩
          intro call hcall hbucket
          rw [hcalls] at hcall
          rcases List.mem_append.mp hcall with hcall | hcall
          · exact hzero call hcall hbucket
          · rw [List.mem_singleton.mp hcall] at hbucket
            exact absurd hbucket.symm hsame
        · exact Or.inr ⟨call, hcalls ▸ List.mem_append_left _ hcall, hbucket, htaken,
            hcharge ▸ hamount⟩
    · intro call hcall
      rw [hcalls] at hcall
      rcases List.mem_append.mp hcall with hcall | hcall
      · exact h.complete call hcall
      · rw [List.mem_singleton.mp hcall]
        exact hover

theorem completeHours_of_le {moment : Int} (h : moment ≤ c.created) :
    c.completeHours moment = 0 := by
  by_contra hne
  have hover := lt_completeHours.mp (Nat.pos_of_ne_zero hne)
  unfold Computer.Over hourMicros at hover
  omega

/-- A plan is a stretch of hours, the first of them next to the mark; the plan of a computer with a
    price goes up to the last complete hour. -/
theorem plan_eq (c : Computer) (moment : Int) (lastBilled : Option Int) :
    ∃ first count, c.plan moment lastBilled = List.range' first count ∧
      (∀ bucket < first, ∃ m ∈ lastBilled, (bucket : Int) ≤ m) ∧
      (0 < count → first + count = c.completeHours moment) ∧
      (0 < c.credits → c.completeHours moment ≤ first + count) := by
  unfold Computer.plan
  split
  · rename_i hbefore
    have hzero : c.completeHours moment = 0 := completeHours_of_le (hbefore.resolve_left c.named)
    exact ⟨0, 0, rfl, by simp, by simp, by simp [hzero]⟩
  · dsimp only
    generalize hfirst : ((lastBilled.map fun bucket => max 0 (bucket + 1)).getD 0).toNat = first
    have hmark : ∀ bucket < first, ∃ m ∈ lastBilled, (bucket : Int) ≤ m := by
      intro bucket hlt
      cases lastBilled with
      | none => simp at hfirst; omega
      | some m =>
        simp only [Option.map_some, Option.getD_some] at hfirst
        exact ⟨m, rfl, by omega⟩
    split
    · exact ⟨first, 0, rfl, hmark, by simp, by omega⟩
    · exact ⟨first, _, rfl, hmark, by omega, by omega⟩

theorem fits_start (hlast : s.Marked w.lastBilled) :
    (w.start s.now (c.plan s.now w.lastBilled)).Fits c s := by
  obtain ⟨first, count, hplan, hbelow, hsum, hall⟩ := plan_eq c s.now w.lastBilled
  have hcalled : ∀ bucket < first, s.Called bucket := by
    intro bucket hlt
    obtain ⟨m, hm, hle⟩ := hbelow bucket hlt
    exact hlast m hm bucket hle
  rw [hplan]
  unfold Sweep.start
  cases count with
  | zero => exact fun _ hcredits bucket hlt => hcalled bucket (Nat.lt_of_lt_of_le hlt (hall hcredits))
  | succ count => exact ⟨first, count + 1, rfl, hsum (Nat.succ_pos count), hcalled⟩

theorem fits_finish (hhours : ∀ bucket < c.completeHours w.moment, s.Called bucket) (failed : Bool) :
    (w.finish failed).Fits c s := by
  unfold Sweep.finish
  by_cases hsame : w.highest = w.lastBilled <;> simp only [Sweep.Fits, hsame, if_true, if_false]
  · exact fun _ _ => hhours
  · exact fun _ _ => hhours

theorem fits_failed : (w.finish true).Fits c s := by
  unfold Sweep.finish
  by_cases hsame : w.highest = w.lastBilled <;> simp [Sweep.Fits, hsame]

/-- The next hour of a sweep: it is complete, and with it the mark may move up. -/
theorem fits_next {todo : List Nat} (h : w.Fits c s) (hstage : w.stage = .debiting (bucket :: todo)) :
    c.Over w.moment bucket ∧ ∀ t : State, (∀ bucket, s.Called bucket → t.Called bucket) →
      t.Called bucket → t.Marked (some (bucket : Int)) ∧ (w.billed bucket todo).Fits c t := by
  simp only [Sweep.Fits, hstage] at h
  obtain ⟨first, count, htodo, hsum, hbelow⟩ := h
  cases count with
  | zero => simp at htodo
  | succ count =>
    rw [List.range'_succ, List.cons.injEq] at htodo
    obtain ⟨rfl, rfl⟩ := htodo
    refine ⟨lt_completeHours.mp (by omega), fun t hcalls hcalled => ?_⟩
    have hupto : ∀ bucket' < bucket + 1, t.Called bucket' := by
      intro bucket' hlt
      rcases Nat.lt_succ_iff_lt_or_eq.mp hlt with hlt | rfl
      · exact hcalls _ (hbelow bucket' hlt)
      · exact hcalled
    refine ⟨?_, ?_⟩
    · intro m hm bucket' hle
      rw [← Option.mem_some_iff.mp hm] at hle
      exact hupto bucket' (by omega)
    · unfold Sweep.billed
      dsimp only
      split
      · rename_i hnil
        rw [List.range'_eq_nil_iff] at hnil
        refine fits_finish (w := { w with highest := some (bucket : Int) }) ?_ false
        intro bucket' hlt
        exact hupto bucket' (by dsimp only at hlt; omega)
      · exact ⟨bucket + 1, count, rfl, by dsimp only; omega, hupto⟩

theorem metered_debited {todo : List Nat} (h : Metered c s) (hi : s.sweeps[i]? = some w)
    (hstage : w.stage = .debiting (bucket :: todo)) (outcome : Outcome) :
    Metered c (s.debited c i w bucket todo outcome) := by
  have hw := List.mem_of_getElem? hi
  obtain ⟨hover, hnext⟩ := fits_next (h.sweeps w hw) hstage
  have hmoment := h.moments w hw
  obtain ⟨hlast, hhighest⟩ := h.marks w hw
  obtain ⟨hcommit, hcalled, hcalls⟩ := metered_commit h (over_mono hover hmoment)
  have hfinish : (w.finish true).moment = w.moment ∧ (w.finish true).lastBilled = w.lastBilled ∧
      (w.finish true).highest = w.highest := ⟨rfl, rfl, rfl⟩
  cases outcome with
  | ok =>
    obtain ⟨hmark, hfits⟩ := hnext _ hcalls hcalled
    have hbilled : (w.billed bucket todo).moment = w.moment ∧
        (w.billed bucket todo).lastBilled = w.lastBilled ∧
        (w.billed bucket todo).highest = some (bucket : Int) := by
      unfold Sweep.billed
      dsimp only
      split <;> exact ⟨rfl, rfl, rfl⟩
    refine metered_setSweep hcommit ?_ ?_ ?_ hfits
    · exact hbilled.1 ▸ hmoment
    · exact hbilled.2.1 ▸ marked_mono hlast hcalls
    · exact hbilled.2.2 ▸ hmark
  | notOk => exact metered_setSweep h hmoment hlast hhighest fits_failed
  | raised written =>
    cases written with
    | false => exact metered_setSweep h hmoment hlast hhighest fits_failed
    | true =>
      exact metered_setSweep hcommit hmoment (marked_mono hlast hcalls)
        (marked_mono hhighest hcalls) fits_failed

theorem metered_marked {failed : Bool} (h : Metered c s) (hi : s.sweeps[i]? = some w)
    (hstage : w.stage = .marking failed) (outcome : Outcome) :
    Metered c (s.marked i w failed outcome) := by
  have hw := List.mem_of_getElem? hi
  obtain ⟨hlast, hhighest⟩ := h.marks w hw
  have hfits := h.sweeps w hw
  simp only [Sweep.Fits, hstage] at hfits
  have hmark : Metered c { s with mark := w.highest } :=
    metered_frame h h.billed h.complete (Int.le_refl _) hhighest rfl fun _ hcalled => hcalled
  cases outcome with
  | ok => exact metered_setSweep hmark (h.moments w hw) hlast hhighest hfits
  | notOk => exact metered_setSweep h (h.moments w hw) hlast hhighest hfits
  | raised written =>
    cases written with
    | true =>
      exact metered_setSweep hmark (h.moments w hw) hlast hhighest fun hfailed => by simp at hfailed
    | false =>
      exact metered_setSweep h (h.moments w hw) hlast hhighest fun hfailed => by simp at hfailed

theorem metered_other (h : Metered c s) {balance : Int} {tr : Transaction}
    (hother : ¬ c.owns tr.requestId) :
    Metered c { s with account := { s.account with
      balance := some balance
      transactions := s.account.transactions ++ [tr] } } := by
  refine metered_frame h ?_ h.complete (Int.le_refl _) h.mark rfl fun _ hcalled => hcalled
  intro bucket
  have hid : tr.requestId ≠ c.requestId bucket := fun hid => hother (hid ▸ owns_requestId bucket)
  have hcharge := charges_append s.account (some balance) [tr] (c.requestId bucket)
  rw [List.filter_singleton] at hcharge
  simp only [hid, decide_false, cond_false, List.append_nil] at hcharge
  rcases h.billed bucket with ⟨hnone, hzero⟩ | ⟨call, hcall, hbucket, htaken, hamount⟩
  · exact Or.inl ⟨hcharge.trans hnone, hzero⟩
  · exact Or.inr ⟨call, hcall, hbucket, htaken, hcharge ▸ hamount⟩

/-- One step keeps what is claimed of the account and what the sweeps know. -/
theorem metered_step (h : Metered c s) (hst : step c s l = some t) : Metered c t := by
  cases l with
  | tick micros =>
    rw [← Option.some.inj hst]
    have hlater : s.now ≤ s.now + (micros : Int) := Int.le_add_of_nonneg_right (Int.natCast_nonneg _)
    refine metered_frame h h.billed ?_ hlater h.mark rfl fun _ hcalled => hcalled
    exact fun call hcall => over_mono (h.complete call hcall) hlater
  | other balance tr =>
    simp only [step] at hst
    split at hst
    · simp at hst
    · rename_i hother
      exact Option.some.inj hst ▸ metered_other h hother
  | list =>
    rw [← Option.some.inj hst]
    have hmem (w : Sweep) (hw : w ∈ s.sweeps ++ [⟨s.mark, s.now, s.mark, .listed⟩]) :
        w ∈ s.sweeps ∨ w = ⟨s.mark, s.now, s.mark, .listed⟩ :=
      (List.mem_append.mp hw).imp id List.mem_singleton.mp
    refine ⟨h.billed, h.complete, h.mark, ?_, ?_, ?_⟩
    · intro w hw
      rcases hmem w hw with hw | rfl
      · exact h.moments w hw
      · exact Int.le_refl _
    · intro w hw
      rcases hmem w hw with hw | rfl
      · exact h.marks w hw
      · exact ⟨h.mark, h.mark⟩
    · intro w hw
      rcases hmem w hw with hw | rfl
      · exact fits_mono (h.sweeps w hw) fun _ hcalled => hcalled
      · exact trivial
  | plan i =>
    obtain ⟨w, hi, hw⟩ := Option.bind_eq_some_iff.mp hst
    obtain ⟨hlast, hhighest⟩ := h.marks w (List.mem_of_getElem? hi)
    cases hstage : w.stage with
    | listed =>
      simp only [hstage] at hw
      exact Option.some.inj hw ▸
        metered_setSweep h (Int.le_refl _) hlast hhighest (fits_start hlast)
    | debiting _ | marking _ | done _ => simp [hstage] at hw
  | debit i outcome =>
    obtain ⟨w, hi, hw⟩ := Option.bind_eq_some_iff.mp hst
    cases hstage : w.stage with
    | debiting todo =>
      cases todo with
      | nil => simp [hstage] at hw
      | cons bucket todo =>
        simp only [hstage] at hw
        exact Option.some.inj hw ▸ metered_debited h hi hstage outcome
    | listed | marking _ | done _ => simp [hstage] at hw
  | write i outcome =>
    obtain ⟨w, hi, hw⟩ := Option.bind_eq_some_iff.mp hst
    cases hstage : w.stage with
    | marking failed =>
      simp only [hstage] at hw
      exact Option.some.inj hw ▸ metered_marked h hi hstage outcome
    | listed | debiting _ | done _ => simp [hstage] at hw

/-- In every run an hour is charged at most once, and only when it is complete. Once a sweep has
    returned without errors, each hour that was complete at its moment has been charged what its debit
    found, up to what it owes; an hour whose debit found nothing is not charged. -/
theorem hours_metered {now : Int} {account : Account} {labels : List Label}
    (hnew : ∀ bucket, account.charges (c.requestId bucket) = [])
    (hrun : Run.run (step c) (start now account) labels = some s) :
    (∀ bucket, (s.account.charges (c.requestId bucket)).length ≤ 1) ∧
      (∀ bucket, s.account.charges (c.requestId bucket) ≠ [] → c.Over s.now bucket) ∧
      ∀ w ∈ s.sweeps, w.stage = .done false → 0 < c.credits → ∀ bucket, c.Over w.moment bucket →
        ∃ call ∈ s.calls, call.bucket = bucket ∧
          (s.account.charges (c.requestId bucket)).map (·.amount) =
            if 0 < call.taken c then [-(call.taken c : Int)] else [] := by
  have hs : Metered c s := Run.run_inv_all (fun _ _ _ hs hst => metered_step hs hst)
    (metered_start hnew) hrun
  refine ⟨?_, ?_, ?_⟩
  · intro bucket
    rcases hs.billed bucket with ⟨hnone, -⟩ | ⟨call, -, -, -, hamount⟩
    · simp [hnone]
    · have hlength := congrArg List.length hamount
      simpa using hlength.le
  · intro bucket hcharged
    rcases hs.billed bucket with ⟨hnone, -⟩ | ⟨call, hcall, hbucket, -⟩
    · exact absurd hnone hcharged
    · exact hbucket ▸ hs.complete call hcall
  · intro w hw hstage hcredits bucket hover
    have hfits := hs.sweeps w hw
    simp only [Sweep.Fits, hstage] at hfits
    obtain ⟨call, hcall, hbucket⟩ := hfits trivial hcredits bucket (lt_completeHours.mpr hover)
    rcases hs.billed bucket with ⟨hnone, hzero⟩ | ⟨call', hcall', hbucket', htaken, hamount⟩
    · exact ⟨call, hcall, hbucket, by simp [hnone, hzero call hcall hbucket]⟩
    · exact ⟨call', hcall', hbucket', by rw [hamount, if_pos htaken]⟩

/-- A small computer, at two credits an hour. -/
def small : Computer where
  vpsId := "v1"
  named := by decide
  created := 0
  credits := 2
  owed := 20000
  floor := 1000000

/-- Two sweeps overlap; the mark of the first is lost. -/
def overlapping : List Label :=
  [.tick 7300000000, .list, .list, .plan 0, .plan 1, .debit 0 .ok, .debit 1 .ok, .debit 0 .ok,
    .write 0 (.raised false), .debit 1 .ok, .write 1 .ok]

theorem hours_metered_overlapping :
    ∃ s, Run.run (step small) (start 0 ⟨none, 0, []⟩) overlapping = some s ∧
      s.sweeps.map (·.stage) = [.done true, .done false] ∧
      ∀ w ∈ s.sweeps, w.stage = .done false → 0 < small.credits → ∀ bucket,
        small.Over w.moment bucket → ∃ call ∈ s.calls, call.bucket = bucket ∧
          (s.account.charges (small.requestId bucket)).map (·.amount) =
            if 0 < call.taken small then [-(call.taken small : Int)] else [] := by
  have hend : (Run.run (step small) (start 0 ⟨none, 0, []⟩) overlapping).map
      (·.sweeps.map (·.stage)) = some [.done true, .done false] := by
    decide
  obtain ⟨s, hrun, hs⟩ := Option.map_eq_some_iff.mp hend
  exact ⟨s, hrun, hs, (hours_metered (fun _ => rfl) hrun).2.2⟩

/-- A workspace that has spent its allowance; it buys credits after the first hour was swept. -/
def spent : Account where
  balance := some 0
  billing := 0
  transactions := [⟨"", 1000000, "safety_backfill_grant"⟩, ⟨"turn", -1000000, "hosted_sage_ai_turn"⟩]

/-- The balance is filled up between two hours. -/
def refilled : List Label :=
  [.tick 3600000000, .list, .plan 0, .debit 0 .ok, .write 0 .ok,
    .other 5000000 ⟨"order", 5000000, "purchase"⟩, .tick 3600000000, .list, .plan 1, .debit 1 .ok,
    .write 1 .ok]

/-- The hour of the empty balance is behind the mark and is never charged, the next one is. -/
theorem empty_balance_hour_uncharged :
    (Run.run (step small) (start 0 spent) refilled).map (fun s =>
        (s.sweeps.map (·.stage), s.mark, (s.account.charges (small.requestId 0)).map (·.amount),
          (s.account.charges (small.requestId 1)).map (·.amount))) =
      some ([.done false, .done false], some 1, [], [-20000]) := by
  decide

end Empyralis.Server.ComputerMetering
