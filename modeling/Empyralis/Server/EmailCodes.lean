import Empyralis.Lib.Run
import Empyralis.Server.Tokens

/-! `verify_code` of one user with one pending code, by any number of calls at once: a call reads the row, compares
    the code that was submitted, and then writes the row. -/

namespace Empyralis.Server.EmailCodes
open Text (strip)

/-- The status of a code. -/
inductive CodeStatus where
  | pending
  | verified
  | other
  deriving DecidableEq

/-- A row of `email_verification_codes`, as it is read; `create_email_verification_code` gives it a limit of at
    least 1. The time is in seconds. -/
structure CodeRow where
  codeHash : String
  status : CodeStatus
  attempts : Int
  maxAttempts : Int
  expiresAt : Option Int
  limited : 1 ≤ maxAttempts

/-- What a call raises: the status of the response and its detail. -/
structure HttpException where
  status : Nat
  detail : String
  deriving DecidableEq

/-- How far a call is, from its `SELECT` to its answer. -/
inductive Stage where
  | reading
  | checking (snapshot : CodeRow)
  | recording
  | verifying
  | returned
  | raised (e : HttpException)

/-- A call with the code that was typed. -/
structure Call where
  code : String
  stage : Stage

/-- `wrong` counts the wrong codes that were compared, and `accepted` has for each correct one how many were before
    it. -/
structure State where
  row : CodeRow
  calls : List Call
  wrong : Nat
  accepted : List Nat

/-- A code is typed, or a call comes to its next statement. -/
inductive Label where
  | submit (code : String)
  | move (i : Nat) (now : Int)

def start (row : CodeRow) : State := ⟨row, [], 0, []⟩

-- `_hash_code` of the user
variable (hash : String → String)

/-- What is said of the row before any code is compared. -/
def refusal (now : Int) (row : CodeRow) : Option HttpException :=
  if row.status ≠ .pending then some ⟨410, "This verification code is no longer valid. Request a new one."⟩
  else if row.expiresAt.any (· < now) then some ⟨410, "This verification code has expired. Request a new one."⟩
  else if row.maxAttempts ≤ row.attempts then some ⟨429, "Too many incorrect attempts. Request a new code."⟩
  else none

/-- `_verify_code_hash` -/
def verifyCodeHash (code codeHash : String) : Bool := hash code = codeHash

/-- The checks of `verify_code` and the comparison, which nothing comes between. -/
def check (s : State) (now : Int) (code : String) (snapshot : CodeRow) : State × Stage :=
  if snapshot.status = .verified then (s, .returned)
  else match refusal now snapshot with
    | some e => (s, .raised e)
    | none =>
      if verifyCodeHash hash code snapshot.codeHash then ({ s with accepted := s.accepted ++ [s.wrong] }, .verifying)
      else ({ s with wrong := s.wrong + 1 }, .recording)

/-- `record_email_verification_attempt` -/
def recordAttempt (row : CodeRow) : CodeRow := { row with attempts := row.attempts + 1 }

/-- `mark_email_verification_code_verified` -/
def markVerified (row : CodeRow) : CodeRow := { row with status := .verified }

def moved (s : State) (now : Int) (code : String) : Stage → Option (State × Stage)
  | .reading => some (s, .checking s.row)
  | .checking snapshot => some (check hash s now code snapshot)
  | .recording => some ({ s with row := recordAttempt s.row }, .raised ⟨400, "That code is incorrect."⟩)
  | .verifying => some ({ s with row := markVerified s.row }, .returned)
  | .returned => none
  | .raised _ => none

/-- A submitted code without text is refused before the row is read. -/
def newCall (code : String) : Call :=
  ⟨strip code, if strip code = "" then .raised ⟨400, "Verification code is required."⟩ else .reading⟩

def step (s : State) : Label → Option State
  | .submit code => some { s with calls := s.calls ++ [newCall code] }
  | .move i now => s.calls[i]?.bind fun call => (moved hash s now call.code call.stage).map fun (t, stage) =>
      { t with calls := s.calls.set i { call with stage } }

/-! ### The bound -/

/-- At most `max_attempts` wrong codes have been compared, and fewer before each one that was accepted. -/
structure Bounded (s : State) : Prop where
  wrong : (s.wrong : Int) ≤ s.row.maxAttempts
  accepted : ∀ n ∈ s.accepted, (n : Int) < s.row.maxAttempts

/-- What a call has read counts every wrong code that was compared. -/
def Stage.Fresh (wrong : Nat) : Stage → Prop
  | .checking snapshot => (wrong : Int) ≤ snapshot.attempts
  | _ => True

/-- A code is compared only by a call that has read of every wrong one before it. -/
def Fresh (s : State) : Label → Prop
  | .move i _ => ∀ call ∈ s.calls[i]?, call.stage.Fresh s.wrong
  | .submit _ => True

/-- The limit that a call has read is that of the row. -/
def Stage.Limited (limit : Int) : Stage → Prop
  | .checking snapshot => snapshot.maxAttempts = limit
  | _ => True

/-- What every reachable state has. -/
structure Inv (limit : Int) (s : State) : Prop where
  row : s.row.maxAttempts = limit
  calls : ∀ call ∈ s.calls, call.stage.Limited limit
  wrong : (s.wrong : Int) ≤ limit
  accepted : ∀ n ∈ s.accepted, (n : Int) < limit

variable {hash} {s t : State} {limit : Int}

theorem Inv.bounded (hi : Inv limit s) : Bounded s := by
  obtain rfl := hi.row
  exact ⟨hi.wrong, hi.accepted⟩

/-- A call moves on, with the row that it has written. -/
theorem inv_set (hi : Inv limit s) {row : CodeRow} (hrow : row.maxAttempts = limit) {i : Nat} {call : Call}
    (hcall : call.stage.Limited limit) : Inv limit { s with row, calls := s.calls.set i call } := by
  refine ⟨hrow, fun other hmem => ?_, hi.wrong, hi.accepted⟩
  rcases List.mem_or_eq_of_mem_set hmem with hold | rfl
  · exact hi.calls other hold
  · exact hcall

theorem attempts_lt {now : Int} {row : CodeRow} (h : refusal now row = none) : row.attempts < row.maxAttempts := by
  unfold refusal at h
  split at h
  · cases h
  · split at h
    · cases h
    · split at h
      · cases h
      · rename_i hless
        omega

/-- The comparison of a call that has read of every wrong code before it. -/
theorem inv_check (hi : Inv limit s) {now : Int} {code : String} {snapshot : CodeRow}
    (hlimit : snapshot.maxAttempts = limit) (hfresh : (s.wrong : Int) ≤ snapshot.attempts) :
    Inv limit (check hash s now code snapshot).1 ∧ (check hash s now code snapshot).2.Limited limit ∧
      (check hash s now code snapshot).1.calls = s.calls := by
  unfold check
  split
  · exact ⟨hi, trivial, rfl⟩
  · rcases hrefusal : refusal now snapshot with _ | e
    · have hless := attempts_lt hrefusal
      dsimp only
      split
      · refine ⟨⟨hi.row, hi.calls, hi.wrong, fun n hn => ?_⟩, trivial, rfl⟩
        rcases List.mem_append.mp hn with hold | hnew
        · exact hi.accepted n hold
        · obtain rfl := List.mem_singleton.mp hnew
          omega
      · refine ⟨⟨hi.row, hi.calls, ?_, hi.accepted⟩, trivial, rfl⟩
        dsimp only
        omega
    · exact ⟨hi, trivial, rfl⟩

/-- One step with a fresh reading of the attempts keeps the guesses within the limit. -/
theorem inv_step (hi : Inv limit s) {l : Label} (hf : Fresh s l) (hst : step hash s l = some t) : Inv limit t := by
  cases l with
  | submit code =>
    cases hst
    refine ⟨hi.row, fun call hmem => ?_, hi.wrong, hi.accepted⟩
    rcases List.mem_append.mp hmem with hold | hlast
    · exact hi.calls call hold
    · obtain rfl := List.mem_singleton.mp hlast
      unfold newCall
      dsimp only
      split <;> trivial
  | move i now =>
    obtain ⟨⟨code, stage⟩, hcall, hmap⟩ := Option.bind_eq_some_iff.mp hst
    obtain ⟨⟨u, next⟩, hmoved, rfl⟩ := Option.map_eq_some_iff.mp hmap
    have hlimited := hi.calls _ (List.mem_of_getElem? hcall)
    cases stage with
    | reading =>
      cases hmoved
      exact inv_set hi hi.row (by exact hi.row)
    | checking snapshot =>
      obtain ⟨hinv, hnext, hcalls⟩ := @inv_check hash s limit hi now code snapshot hlimited (hf _ hcall)
      have hcheck : check hash s now code snapshot = (u, next) := Option.some.inj hmoved
      rw [hcheck] at hinv hnext hcalls
      rw [← hcalls]
      exact inv_set hinv hinv.row (by exact hnext)
    | recording =>
      cases hmoved
      exact @inv_set s limit hi (recordAttempt s.row) hi.row i ⟨code, .raised _⟩ trivial
    | verifying =>
      cases hmoved
      exact @inv_set s limit hi (markVerified s.row) hi.row i ⟨code, .returned⟩ trivial
    | returned => cases hmoved
    | raised e => cases hmoved

theorem inv_start (row : CodeRow) : Inv row.maxAttempts (start row) := by
  refine ⟨rfl, fun _ hmem => (by cases hmem), ?_, fun _ hmem => (by cases hmem)⟩
  have hlimited := row.limited
  dsimp only [start]
  omega

/-- A new code is guessed at most `max_attempts` times in a run in which each comparison is made by a call that has read
    of every wrong one before it. -/
theorem guesses_bounded (hash : String → String) (row : CodeRow) (labels : List Label)
    (h : Run.Meets (step hash) Fresh (start row) labels) (first : List Label) (t : State) (hfirst : first <+: labels)
    (hrun : Run.run (step hash) (start row) first = some t) : Bounded t := by
  obtain ⟨rest, rfl⟩ := hfirst
  have hinv := Run.run_inv (fun _ _ _ hi hf hst => inv_step hi hf hst) (Run.meets_prefix h) (inv_start row) hrun
  exact hinv.bounded

/-! ### A code with one attempt -/

def oneAttempt : CodeRow := ⟨"123456", .pending, 0, 1, none, Int.le_refl 1⟩

/-- A wrong code is compared and recorded, and the correct one comes too late. -/
def guessedOnce : List Label :=
  Label.submit "000000" :: List.replicate 3 (.move 0 0) ++ Label.submit "123456" :: List.replicate 2 (.move 1 0)

/-- Two wrong codes are read before either is compared, and a correct one. -/
def guessedTogether : List Label :=
  [.submit "000000", .submit "111111", .submit "123456", .move 0 0, .move 1 0, .move 2 0, .move 0 0, .move 1 0,
    .move 2 0]

instance (wrong : Nat) : DecidablePred (Stage.Fresh wrong)
  | .checking snapshot => inferInstanceAs (Decidable ((wrong : Int) ≤ snapshot.attempts))
  | .reading | .recording | .verifying | .returned | .raised _ => inferInstanceAs (Decidable True)

instance (s : State) : DecidablePred (Fresh s)
  | .move i _ => inferInstanceAs (Decidable (∀ call ∈ s.calls[i]?, call.stage.Fresh s.wrong))
  | .submit _ => inferInstanceAs (Decidable True)

theorem guesses_bounded_once : ∃ t, Run.run (step id) (start oneAttempt) guessedOnce = some t ∧ Bounded t := by
  obtain ⟨t, hrun⟩ := Option.isSome_iff_exists.mp
    (by decide : (Run.run (step id) (start oneAttempt) guessedOnce).isSome = true)
  exact ⟨t, hrun, guesses_bounded id oneAttempt guessedOnce (by decide) guessedOnce t (List.prefix_refl _) hrun⟩

/-- One attempt is allowed; two wrong codes are counted, and the correct one is accepted after them. -/
theorem guesses_unbounded : ∃ t, Run.run (step id) (start oneAttempt) guessedTogether = some t ∧
    t.row.maxAttempts < t.wrong ∧ ∃ n ∈ t.accepted, ¬ ((n : Nat) : Int) < t.row.maxAttempts := by
  have hany : (Run.run (step id) (start oneAttempt) guessedTogether).any fun t =>
      t.row.maxAttempts < t.wrong ∧ ∃ n ∈ t.accepted, ¬ ((n : Nat) : Int) < t.row.maxAttempts := by decide
  obtain ⟨t, hrun, hnot⟩ := (Option.any_eq_true _ _).mp hany
  exact ⟨t, hrun, of_decide_eq_true hnot⟩

end Empyralis.Server.EmailCodes
