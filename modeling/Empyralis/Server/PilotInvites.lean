import Empyralis.Lib.Chain
import Empyralis.Lib.Run
import Empyralis.Server.PilotGates

/-! The invite of one code: `create_pilot_invite`, `claim_pilot_invite` and `revoke_pilot_invite`, one call after
    another in either store, and in any interleaving of their statements in Postgres. Each call asks the kernel before
    its first statement. What holds of the statements themselves is proved for any gate before them; then for the gate
    that there is, which lets no claim through. -/

namespace Empyralis.Server.PilotInvites
open Text (strip)

/-- A row of `pilot_invites`: the columns that its claims read. -/
structure Invite where
  id : Token
  maxUses : Int
  usesCount : Int
  active : Bool
  expiresAt : Option Int
  deriving DecidableEq

/-- The arguments of `create_pilot_invite`, with the id of a new row; the time is in seconds. -/
structure NewInvite where
  id : Token
  maxUses : Int
  expiresAt : Option Int
  createdByUserId : Option String

/-- At least one use. -/
def NewInvite.cleanMaxUses (n : NewInvite) : Int := max 1 (if n.maxUses = 0 then 1 else n.maxUses)

/-- The row that `create_pilot_invite` inserts. -/
def NewInvite.row (n : NewInvite) : Invite := ⟨n.id, n.cleanMaxUses, 0, true, n.expiresAt⟩

def second : Int := 1000000

/-! ### Statements -/

def int32Max : Int := 0x7FFFFFFF

def int64Min : Int := -0x8000000000000000

def int64Max : Int := 0x7FFFFFFFFFFFFFFF

/-- What the two stores do differently: the numbers that their drivers take, the insertion over a row of this code, and
    the time that a claim compares. -/
structure Store where
  accepts : NewInvite → Bool
  insert : NewInvite → Option Invite → Invite
  unexpired : Int → Int → Bool

/-- The driver takes no number for a `timestamptz`, and for an `INTEGER` one of 32 bits.
    `INSERT … ON CONFLICT (code) DO UPDATE` keeps the id, the uses and the expiry. -/
def postgres : Store where
  accepts n := n.expiresAt.isNone && n.cleanMaxUses ≤ int32Max
  insert n
    | none => n.row
    | some row => { row with maxUses := n.cleanMaxUses, active := true }
  unexpired now expiresAt := now < expiresAt * second

/-- The driver takes numbers of 64 bits. `INSERT OR REPLACE` makes a new row; the time is cut to seconds. -/
def sqlite : Store where
  accepts n := n.cleanMaxUses ≤ int64Max &&
    n.expiresAt.all fun expiresAt => int64Min ≤ expiresAt && expiresAt ≤ int64Max
  insert n _ := n.row
  unexpired now expiresAt := now / second < expiresAt

/-- The `WHERE` of the check in `claim_pilot_invite` -/
def Store.claimable (store : Store) (now : Int) (row : Invite) : Bool :=
  row.active && row.expiresAt.all (store.unexpired now) && row.usesCount < row.maxUses

/-- The row after `uses_count = uses_count + 1`. -/
def use (row : Invite) : Invite := { row with usesCount := row.usesCount + 1 }

/-- The row after the `UPDATE` of a revocation. -/
def revoke (id : Token) (row : Invite) : Invite := if row.id = id then { row with active := false } else row

/-! ### One call after another -/

/-- A call of the repository. -/
inductive Call where
  | create (n : NewInvite)
  | claim (now : Int)
  | revoke (id : Token)

/-- What a call asks the kernel before its first statement. -/
def gate (code : Token) : Call → Except String Unit
  | .create n => enforceControlPlaneServiceDecision .create
      (strip ((n.createdByUserId.filter (· ≠ "")).getD "pilot-invite-admin")) code.text
  | .claim _ => enforceControlPlaneServiceDecision .claim "pilot-invite-claimer" code.text
  | .revoke id => enforceControlPlaneServiceDecision .revoke "pilot-invite-admin" id.text

/-- The row after the statements of a call, and the record that it returns; a creation that the driver does not take
    raises. -/
def Store.statements (store : Store) (row : Option Invite) : Call → Option Invite × Option Invite
  | .create n =>
    if store.accepts n then
      let row := store.insert n row
      (some row, (some row).filter (·.id = n.id))
    else (row, none)
  | .claim now =>
    match row.filter (store.claimable now) with
    | none => (row, none)
    | some found => (some (use found), some (use found))
  | .revoke id =>
    let row := row.map (PilotInvites.revoke id)
    (row, row.filter (·.id = id))

section
variable (ask : Call → Except String Unit)

/-- A call that the kernel refuses raises. -/
def Store.call (store : Store) (row : Option Invite) (c : Call) : Option Invite × Option Invite :=
  match ask c with
  | .error _ => (row, none)
  | .ok () => store.statements row c

/-- For each call whether it succeeds, with the uses of its record. -/
def Store.answers (store : Store) : Option Invite → List Call → List (Option Int)
  | _, [] => []
  | row, c :: calls => (store.call ask row c).2.map Invite.usesCount :: store.answers (store.call ask row c).1 calls

end

/-- The invite that a call creates. -/
def Call.created : Call → Option NewInvite
  | .create n => some n
  | _ => none

/-- The creations that SQLite stores. -/
def stored (calls : List Call) : List NewInvite := (calls.filterMap Call.created).filter sqlite.accepts

/-- There is one of them at most, and Postgres stores it too. -/
def CreatedOnce (calls : List Call) : Prop :=
  (stored calls).length ≤ 1 ∧ ∀ n ∈ stored calls, postgres.accepts n = true

variable {ask : Call → Except String Unit}

theorem accepts_of_postgres {n : NewInvite} (h : postgres.accepts n = true) : sqlite.accepts n = true := by
  obtain ⟨hexpiry, hmax⟩ := (Bool.and_eq_true _ _).mp h
  have hbits : int32Max ≤ int64Max := by decide
  have hle : n.cleanMaxUses ≤ int64Max := Int.le_trans (of_decide_eq_true hmax) hbits
  simp only [sqlite, Option.isNone_iff_eq_none.mp hexpiry, hle, decide_true, Option.all_none, Bool.and_self]

theorem unexpired_eq (now expiresAt : Int) : postgres.unexpired now expiresAt = sqlite.unexpired now expiresAt := by
  have hcut : now < expiresAt * 1000000 ↔ now / 1000000 < expiresAt := by omega
  exact decide_eq_decide.mpr hcut

theorem claimable_eq (now : Int) (row : Invite) : postgres.claimable now row = sqlite.claimable now row := by
  simp only [Store.claimable]
  rcases row.expiresAt with _ | expiresAt
  · rfl
  · rw [Option.all_some, Option.all_some, unexpired_eq]

/-- A call that creates nothing does the same in both stores. -/
theorem call_eq (row : Option Invite) {c : Call} (h : c.created = none) :
    postgres.call ask row c = sqlite.call ask row c := by
  have hstatements : postgres.statements row c = sqlite.statements row c := by
    cases c with
    | create n => cases h
    | claim now =>
      have hsame : postgres.claimable now = sqlite.claimable now := funext (claimable_eq now)
      simp only [Store.statements, hsame]
    | revoke id => rfl
  rw [Store.call, Store.call, hstatements]

/-- Such a call keeps the id of the row. -/
theorem call_id {row : Invite} {c : Call} (h : c.created = none) :
    ∃ next, (sqlite.call ask (some row) c).1 = some next ∧ next.id = row.id := by
  unfold Store.call
  split
  · exact ⟨row, rfl, rfl⟩
  cases c with
  | create n => cases h
  | claim now =>
    simp only [Store.statements, Option.filter_some]
    split
    · rename_i hnone
      exact ⟨row, rfl, rfl⟩
    · rename_i found hfound
      split at hfound
      · cases hfound
        exact ⟨_, rfl, rfl⟩
      · cases hfound
  | revoke id =>
    refine ⟨PilotInvites.revoke id row, rfl, ?_⟩
    unfold PilotInvites.revoke
    split <;> rfl

/-- Without a row it leaves none. -/
theorem call_none {store : Store} {c : Call} (h : c.created = none) : store.call ask none c = (none, none) := by
  unfold Store.call
  split
  · rfl
  · cases c with
    | create n => cases h
    | claim now => rfl
    | revoke id => rfl

theorem call_unaccepted (hask : ∀ n, ask (.create n) = .ok ()) {store : Store} {n : NewInvite}
    (h : store.accepts n = false) (row : Option Invite) : store.call ask row (.create n) = (row, none) := by
  simp only [Store.call, hask, Store.statements, h, Bool.false_eq_true, if_false]

theorem call_created (hask : ∀ n, ask (.create n) = .ok ()) {store : Store} {n : NewInvite}
    (h : store.accepts n = true) (row : Option Invite) :
    store.call ask row (.create n) =
      (some (store.insert n row), (some (store.insert n row)).filter (·.id = n.id)) := by
  simp only [Store.call, hask, Store.statements, h, if_true]

theorem stored_other {c : Call} (h : c.created = none) (calls : List Call) : stored (c :: calls) = stored calls := by
  rw [stored, List.filterMap_cons_none h, stored]

theorem stored_unaccepted {n : NewInvite} (h : sqlite.accepts n = false) (calls : List Call) :
    stored (.create n :: calls) = stored calls := by
  have hcreated : (Call.create n).created = some n := rfl
  rw [stored, List.filterMap_cons_some hcreated, List.filter_cons_of_neg (by rw [h]; exact Bool.false_ne_true), stored]

theorem stored_created {n : NewInvite} (h : sqlite.accepts n = true) (calls : List Call) :
    stored (.create n :: calls) = n :: stored calls := by
  have hcreated : (Call.create n).created = some n := rfl
  rw [stored, List.filterMap_cons_some hcreated, List.filter_cons_of_pos h, stored]

theorem unaccepted {n : NewInvite} (h : sqlite.accepts n = false) : postgres.accepts n = false := by
  rw [← Bool.not_eq_true]
  intro haccepts
  rw [accepts_of_postgres haccepts] at h
  cases h

def Call.newId (c : Call) : Option Token := c.created.map NewInvite.id

/-- Over a row of the code the stores agree exactly as long as SQLite stores no other creation. -/
theorem answers_some (hask : ∀ n, ask (.create n) = .ok ()) {calls : List Call} {row : Invite}
    (hnew : ∀ c ∈ calls, c.newId ≠ some row.id) :
    postgres.answers ask (some row) calls = sqlite.answers ask (some row) calls ↔ stored calls = [] := by
  induction calls generalizing row with
  | nil => simp [Store.answers, stored]
  | cons c calls ih =>
    obtain ⟨hc, hrest⟩ := List.forall_mem_cons.mp hnew
    cases hcreated : c.created with
    | none =>
      obtain ⟨next, hnext, hsame⟩ := @call_id ask row c hcreated
      rw [Store.answers, Store.answers, call_eq (some row) hcreated, hnext, List.cons.injEq, stored_other hcreated,
        ih (by rw [hsame]; exact hrest)]
      exact and_iff_right rfl
    | some n =>
      cases c with
      | create n =>
        have hne : row.id ≠ n.id := fun heq => hc (congrArg some heq.symm)
        rcases haccepts : sqlite.accepts n with _ | _
        · rw [Store.answers, Store.answers, call_unaccepted hask haccepts, call_unaccepted hask (unaccepted haccepts),
            List.cons.injEq, stored_unaccepted haccepts, ih hrest]
          exact and_iff_right rfl
        · have hpostgres : (postgres.call ask (some row) (.create n)).2 = none := by
            rcases hpostgres : postgres.accepts n with _ | _
            · rw [call_unaccepted hask hpostgres]
            · rw [call_created hask hpostgres]
              simp [postgres, hne]
          have hsqlite : (sqlite.call ask (some row) (.create n)).2 = some n.row := by
            rw [call_created hask haccepts]
            simp [sqlite, NewInvite.row]
          rw [Store.answers, Store.answers, hpostgres, hsqlite, List.cons.injEq, stored_created haccepts]
          simp
      | claim now => cases hcreated
      | revoke id => cases hcreated

/-- From an empty store the two answer alike exactly if at most one invite is created. -/
theorem answers_none (hask : ∀ n, ask (.create n) = .ok ()) {calls : List Call}
    (hids : (calls.filterMap Call.newId).Nodup) :
    postgres.answers ask none calls = sqlite.answers ask none calls ↔ CreatedOnce calls := by
  induction calls with
  | nil => simp [Store.answers, CreatedOnce, stored]
  | cons c calls ih =>
    cases hcreated : c.created with
    | none =>
      have hnewId : c.newId = none := by rw [Call.newId, hcreated, Option.map_none]
      rw [List.filterMap_cons_none hnewId] at hids
      rw [Store.answers, Store.answers, call_none hcreated, call_none hcreated, List.cons.injEq, CreatedOnce,
        stored_other hcreated, ih hids]
      exact and_iff_right rfl
    | some n =>
      cases c with
      | create n =>
        have hids' : (n.id :: calls.filterMap Call.newId).Nodup := hids
        rw [List.nodup_cons] at hids'
        rcases haccepts : sqlite.accepts n with _ | _
        · rw [Store.answers, Store.answers, call_unaccepted hask haccepts, call_unaccepted hask (unaccepted haccepts),
            List.cons.injEq, CreatedOnce, stored_unaccepted haccepts, ih hids'.2]
          exact and_iff_right rfl
        rcases hpostgres : postgres.accepts n with _ | _
        · have hsqlite : (sqlite.call ask none (.create n)).2 = some n.row := by
            rw [call_created hask haccepts]
            simp [sqlite, NewInvite.row]
          rw [Store.answers, Store.answers, call_unaccepted hask hpostgres, hsqlite, List.cons.injEq, CreatedOnce,
            stored_created haccepts]
          simp [hpostgres]
        · have hnew : ∀ c ∈ calls, c.newId ≠ some n.row.id := fun c hc heq =>
            hids'.1 (List.mem_filterMap.mpr ⟨c, hc, heq⟩)
          have hrow : postgres.insert n none = n.row := rfl
          have hsqlite : sqlite.insert n none = n.row := rfl
          rw [Store.answers, Store.answers, call_created hask haccepts, call_created hask hpostgres, hrow, hsqlite,
            List.cons.injEq, answers_some hask hnew, CreatedOnce, stored_created haccepts, List.length_cons,
            List.forall_mem_cons]
          constructor
          · rintro ⟨-, hnone⟩
            rw [hnone]
            exact ⟨le_rfl, hpostgres, fun _ hmem => (by cases hmem)⟩
          · rintro ⟨hlength, -⟩
            exact ⟨rfl, List.length_eq_zero_iff.mp (by omega)⟩
      | claim now => cases hcreated
      | revoke id => cases hcreated

/-! ### Any interleaving, in Postgres -/

/-- Where a call is. `late` says of a claim that a revocation had returned before it, and `creation` which creation of
    the invite its use is of. -/
inductive Stage where
  | inserting (n : NewInvite)
  | inserted
  | checking (late : Bool)
  | incrementing (late : Bool)
  | incremented (late : Bool) (creation : Nat)
  | claimed (late : Bool) (creation : Nat)
  | revoking (id : Token)
  | revoked (matched : Bool)
  | ended

/-- `revoked` when a revocation has changed the row, `closed` when one that has done so has returned. -/
structure State where
  row : Option Invite
  stages : List Stage
  creations : Nat
  revoked : Bool
  closed : Bool

/-- A call, or the next statement of one. -/
inductive Label where
  | call (c : Call)
  | move (i : Nat) (now : Int)

/-- No invite, and no call on its way. -/
def start : State := ⟨none, [], 0, false, false⟩

/-- A call before its first statement. -/
def State.stage (s : State) : Call → Stage
  | .create n => .inserting n
  | .claim _ => .checking s.closed
  | .revoke id => .revoking id

/-- A call that the kernel refuses ends there: the server waits for the answer before anything else runs. -/
def State.asked (ask : Call → Except String Unit) (s : State) (c : Call) : Stage :=
  match ask c with
  | .error _ => .ended
  | .ok () => s.stage c

/-- One statement of a call, and what the call makes of its result. -/
def moved (s : State) (now : Int) : Stage → Option (State × Stage)
  | .inserting n =>
    if postgres.accepts n then
      some ({ s with row := some (postgres.insert n s.row), creations := s.creations + 1 }, .inserted)
    else some (s, .ended)
  | .inserted => some (s, .ended)
  | .checking late => some (s, if s.row.any (postgres.claimable now) then .incrementing late else .ended)
  | .incrementing late => some ({ s with row := s.row.map use }, .incremented late s.creations)
  | .incremented late creation => some (s, if s.row.isSome then .claimed late creation else .ended)
  | .revoking id =>
    let matched := s.row.any (·.id = id)
    some ({ s with row := s.row.map (revoke id), revoked := s.revoked || matched }, .revoked matched)
  | .revoked matched => some ({ s with closed := s.closed || matched }, .ended)
  | .claimed _ _ => none
  | .ended => none

/-- Between two statements of a call any statement of another may come. -/
def step (ask : Call → Except String Unit) (s : State) : Label → Option State
  | .call c => some { s with stages := s.stages ++ [s.asked ask c] }
  | .move i now => s.stages[i]?.bind fun stage => (moved s now stage).map fun (t, next) =>
      { t with stages := s.stages.set i next }

/-- A claim that has returned a record, of the creation `n`. -/
def Stage.won (n : Nat) : Stage → Bool
  | .claimed _ creation => creation = n
  | _ => false

/-- A claim that has used the creation `n`. -/
def Stage.spent (n : Nat) : Stage → Bool
  | .incremented _ creation | .claimed _ creation => creation = n
  | _ => false

/-- Since the creation of the invite no more claims have returned a record than it has uses. -/
def Bounded (s : State) : Prop := ∀ row ∈ s.row, (s.stages.countP (Stage.won s.creations) : Int) ≤ row.maxUses

/-- A claim that has returned a record after a revocation. -/
def Stage.wonLate : Stage → Bool
  | .claimed late _ => late
  | _ => false

/-- No claim after a revocation has returned a record. -/
def Refused (s : State) : Prop := ∀ stage ∈ s.stages, stage.wonLate = false

/-- A call that is about to take a use. -/
def Stage.counts : Stage → Bool
  | .incrementing _ => true
  | _ => false

/-- A call that is about to store an invite. -/
def Stage.inserts : Stage → Bool
  | .inserting _ => true
  | _ => false

/-- A claim counts its use while one is left. -/
def UseLeft (s : State) : Label → Prop
  | .move i _ => ∀ stage ∈ s.stages[i]?, stage.counts = true → ∀ row ∈ s.row, row.usesCount < row.maxUses
  | .call _ => True

/-- A revoked invite is not created again. -/
def NotRecreated (s : State) : Label → Prop
  | .move i _ => ∀ stage ∈ s.stages[i]?, stage.inserts = true → s.revoked = false
  | .call _ => True

/-- The uses of a creation are counted in the row. -/
structure Counted (s : State) : Prop where
  row : ∀ row ∈ s.row, (s.stages.countP (Stage.spent s.creations) : Int) ≤ row.usesCount ∧
    (0 < s.stages.countP (Stage.spent s.creations) → row.usesCount ≤ row.maxUses) ∧ 1 ≤ row.maxUses
  later : ∀ stage ∈ s.stages, ∀ n, s.creations < n → stage.spent n = false

variable {s t : State}

theorem won_le_spent (stages : List Stage) (n : Nat) :
    stages.countP (Stage.won n) ≤ stages.countP (Stage.spent n) := by
  refine List.countP_mono_left fun stage _ hwon => ?_
  cases stage with
  | claimed late creation => exact hwon
  | _ => cases hwon

theorem Counted.bounded (hc : Counted s) : Bounded s := by
  intro row hrow
  obtain ⟨hcount, hmax, hone⟩ := hc.row row hrow
  have hle := won_le_spent s.stages s.creations
  rcases Nat.eq_zero_or_pos (s.stages.countP (Stage.spent s.creations)) with hzero | hpos
  · omega
  · have hlimit := hmax hpos
    omega

theorem move_eq {i : Nat} {now : Int} (h : step ask s (.move i now) = some t) :
    ∃ stage u next, s.stages[i]? = some stage ∧ moved s now stage = some (u, next) ∧
      t = { u with stages := s.stages.set i next } := by
  obtain ⟨stage, hstage, hmap⟩ := Option.bind_eq_some_iff.mp h
  obtain ⟨⟨u, next⟩, hmoved, heq⟩ := Option.map_eq_some_iff.mp hmap
  exact ⟨stage, u, next, hstage, hmoved, heq.symm⟩

theorem later_set (hc : Counted s) {i : Nat} {next : Stage} {creations : Nat} (hle : s.creations ≤ creations)
    (hnext : ∀ n, creations < n → next.spent n = false) :
    ∀ stage ∈ s.stages.set i next, ∀ n, creations < n → stage.spent n = false := by
  intro stage hmem n hn
  rcases List.mem_or_eq_of_mem_set hmem with hold | rfl
  · exact hc.later stage hold n (by omega)
  · exact hnext n hn

/-- A statement that counts no use, and leaves the uses of the row. -/
theorem counted_set (hc : Counted s) {i : Nat} {old next : Stage} (hstage : s.stages[i]? = some old)
    (hless : ∀ n, next.spent n = true → old.spent n = true) {row : Option Invite}
    (hrow : ∀ new ∈ row, ∃ old ∈ s.row, new.usesCount = old.usesCount ∧ new.maxUses = old.maxUses)
    (revoked closed : Bool) :
    Counted ⟨row, s.stages.set i next, s.creations, revoked, closed⟩ := by
  have hcount := Chain.countP_set_add (Stage.spent s.creations) next hstage
  have hle : (s.stages.set i next).countP (Stage.spent s.creations) ≤ s.stages.countP (Stage.spent s.creations) := by
    rcases hnext : next.spent s.creations with _ | _
    · rw [hnext] at hcount
      simp only [Bool.false_eq_true, if_false] at hcount
      omega
    · rw [hnext, hless _ hnext] at hcount
      omega
  refine ⟨fun new hnew => ?_, later_set hc le_rfl fun n hn => ?_⟩
  · obtain ⟨existing, hexisting, huses, hmax⟩ := hrow new hnew
    obtain ⟨hcounted, hlimit, hone⟩ := hc.row existing hexisting
    dsimp only
    rw [huses, hmax]
    exact ⟨by omega, fun hpos => hlimit (by omega), hone⟩
  · rw [← Bool.not_eq_true]
    intro hspent
    have hnot := hc.later old (List.mem_of_getElem? hstage) n hn
    rw [hless n hspent] at hnot
    cases hnot

/-- A statement that counts no use, and does not write the row. -/
theorem counted_keep (hc : Counted s) {i : Nat} {old next : Stage} (hstage : s.stages[i]? = some old)
    (hless : ∀ n, next.spent n = true → old.spent n = true) (revoked closed : Bool) :
    Counted ⟨s.row, s.stages.set i next, s.creations, revoked, closed⟩ :=
  counted_set hc hstage hless (fun row hrow => ⟨row, hrow, rfl, rfl⟩) revoked closed

theorem insert_row (n : NewInvite) (row : Option Invite) (huses : ∀ old ∈ row, 0 ≤ old.usesCount) :
    0 ≤ (postgres.insert n row).usesCount ∧ 1 ≤ (postgres.insert n row).maxUses := by
  have hmax : 1 ≤ n.cleanMaxUses := Int.le_max_left _ _
  cases row with
  | none => exact ⟨Int.le_refl 0, hmax⟩
  | some old => exact ⟨huses old rfl, hmax⟩

/-- A creation has no uses yet. -/
theorem counted_insert (hc : Counted s) {i : Nat} (n : NewInvite) :
    Counted ⟨some (postgres.insert n s.row), s.stages.set i .inserted, s.creations + 1, s.revoked, s.closed⟩ := by
  have hlater : ∀ stage ∈ s.stages.set i .inserted, ∀ m, s.creations + 1 < m → stage.spent m = false :=
    later_set hc (Nat.le_succ s.creations) fun _ _ => rfl
  have hnone : (s.stages.set i .inserted).countP (Stage.spent (s.creations + 1)) = 0 := by
    refine List.countP_eq_zero.mpr fun stage hmem => ?_
    rw [Bool.not_eq_true]
    rcases List.mem_or_eq_of_mem_set hmem with hold | rfl
    · exact hc.later stage hold _ (Nat.lt_succ_self _)
    · rfl
  obtain ⟨huses, hmax⟩ := insert_row n s.row fun old hold => by
    have hcount := (hc.row old hold).1
    omega
  refine ⟨?_, hlater⟩
  rintro _ ⟨⟩
  dsimp only
  rw [hnone]
  exact ⟨huses, fun hpos => absurd hpos (lt_irrefl 0), hmax⟩

theorem counted_increment (hc : Counted s) {i : Nat} {late : Bool} (hstage : s.stages[i]? = some (.incrementing late))
    (hleft : ∀ row ∈ s.row, row.usesCount < row.maxUses) :
    Counted ⟨s.row.map use, s.stages.set i (.incremented late s.creations), s.creations, s.revoked, s.closed⟩ := by
  have hcount := Chain.countP_set_add (Stage.spent s.creations) (.incremented late s.creations) hstage
  have hold : Stage.spent s.creations (.incrementing late) = false := rfl
  have hnew : Stage.spent s.creations (.incremented late s.creations) = true := decide_eq_true rfl
  rw [hold, hnew] at hcount
  simp only [Bool.false_eq_true, if_false, if_true, Nat.add_zero] at hcount
  refine ⟨?_, later_set hc le_rfl fun n hn => decide_eq_false (Nat.ne_of_lt hn)⟩
  intro new hrow
  obtain ⟨row, hold, rfl⟩ := Option.map_eq_some_iff.mp hrow
  obtain ⟨huses, -, hmax⟩ := hc.row row hold
  have hless := hleft row hold
  dsimp only [use]
  rw [hcount]
  refine ⟨?_, fun _ => ?_, hmax⟩ <;> omega

/-- One step keeps the claims within the uses, if a use is left where one is taken. -/
theorem counted_step (hc : Counted s) {l : Label} (hu : UseLeft s l) (hst : step ask s l = some t) : Counted t := by
  cases l with
  | call c =>
    cases hst
    have hnew : ∀ n, (s.asked ask c).spent n = false := by
      intro n
      unfold State.asked
      split
      · rfl
      · cases c <;> rfl
    refine ⟨fun row hrow => ?_, fun stage hmem n hn => ?_⟩
    · dsimp only
      rw [List.countP_append, List.countP_singleton, hnew]
      exact hc.row row hrow
    · rcases List.mem_append.mp hmem with hold | hlast
      · exact hc.later stage hold n hn
      · rw [List.mem_singleton.mp hlast, hnew]
  | move i now =>
    obtain ⟨stage, u, next, hstage, hmoved, rfl⟩ := move_eq hst
    cases stage with
    | inserting n =>
      simp only [moved] at hmoved
      split at hmoved
      · cases hmoved
        exact counted_insert hc n
      · cases hmoved
        exact counted_keep hc hstage (fun _ hspent => by cases hspent) _ _
    | inserted =>
      cases hmoved
      exact counted_keep hc hstage (fun _ hspent => by cases hspent) _ _
    | checking late =>
      cases hmoved
      refine counted_keep hc hstage (fun n hspent => ?_) _ _
      split at hspent <;> cases hspent
    | incrementing late =>
      cases hmoved
      exact counted_increment hc hstage (hu _ hstage rfl)
    | incremented late creation =>
      cases hmoved
      refine counted_keep hc hstage (fun n hspent => ?_) _ _
      split at hspent
      · exact hspent
      · cases hspent
    | claimed late creation => cases hmoved
    | revoking id =>
      cases hmoved
      refine counted_set hc hstage (fun _ hspent => by cases hspent) (fun row hrow => ?_) _ _
      obtain ⟨old, hold, rfl⟩ := Option.map_eq_some_iff.mp hrow
      refine ⟨old, hold, ?_⟩
      unfold revoke
      split <;> exact ⟨rfl, rfl⟩
    | revoked matched =>
      cases hmoved
      exact counted_keep hc hstage (fun _ hspent => by cases hspent) _ _
    | ended => cases hmoved

/-! ### After a revocation -/

/-- What a call carries of a revocation: a claim that comes after one finds the invite inactive. -/
def Stage.Sound (revoked : Bool) : Stage → Prop
  | .checking late => late = true → revoked = true
  | .incrementing late | .incremented late _ | .claimed late _ => late = false
  | .revoked matched => matched = true → revoked = true
  | _ => True

/-- Once the invite is revoked, its row is inactive and no call takes a use any more. -/
structure Shut (s : State) : Prop where
  closed : s.closed = true → s.revoked = true
  inactive : s.revoked = true → ∀ row ∈ s.row, row.active = false
  stages : ∀ stage ∈ s.stages, stage.Sound s.revoked

theorem Stage.Sound.mono {stage : Stage} {revoked later : Bool} (h : stage.Sound revoked)
    (hle : revoked = true → later = true) : stage.Sound later := by
  cases stage with
  | checking late => exact fun hlate => hle (h hlate)
  | revoked matched => exact fun hmatched => hle (h hmatched)
  | _ => exact h

theorem Shut.refused (hs : Shut s) : Refused s := by
  intro stage hmem
  have hsound := hs.stages stage hmem
  cases stage with
  | claimed late creation => exact hsound
  | _ => rfl

/-- A call moves on. -/
theorem shut_set (hs : Shut s) {i : Nat} {next : Stage} (hnext : next.Sound s.revoked) :
    Shut { s with stages := s.stages.set i next } := by
  refine ⟨hs.closed, hs.inactive, fun stage hmem => ?_⟩
  rcases List.mem_or_eq_of_mem_set hmem with hold | rfl
  · exact hs.stages stage hold
  · exact hnext

theorem shut_row (hs : Shut s) {row : Option Invite} (creations : Nat) {revoked : Bool}
    (hle : s.revoked = true → revoked = true) (hrow : revoked = true → ∀ new ∈ row, new.active = false) :
    Shut ⟨row, s.stages, creations, revoked, s.closed⟩ :=
  ⟨fun hclosed => hle (hs.closed hclosed), hrow, fun stage hmem => (hs.stages stage hmem).mono hle⟩

theorem revoke_inactive {id : Token} {row : Invite} (h : row.active = false ∨ row.id = id) :
    (revoke id row).active = false := by
  unfold revoke
  split
  · rfl
  · rename_i hne
    exact h.resolve_right hne

/-- One step leaves a revoked invite shut, unless it is created again. -/
theorem shut_step (hs : Shut s) {l : Label} (hn : NotRecreated s l) (hst : step ask s l = some t) : Shut t := by
  cases l with
  | call c =>
    cases hst
    refine ⟨hs.closed, hs.inactive, fun stage hmem => ?_⟩
    rcases List.mem_append.mp hmem with hold | hlast
    · exact hs.stages stage hold
    · rw [List.mem_singleton.mp hlast, State.asked]
      split
      · trivial
      · cases c with
        | create n => trivial
        | claim now => exact hs.closed
        | revoke id => trivial
  | move i now =>
    obtain ⟨stage, u, next, hstage, hmoved, rfl⟩ := move_eq hst
    have hsound := hs.stages stage (List.mem_of_getElem? hstage)
    cases stage with
    | inserting n =>
      simp only [moved] at hmoved
      split at hmoved
      · cases hmoved
        have hnone := hn _ hstage rfl
        have hrow : Shut ⟨some (postgres.insert n s.row), s.stages, s.creations + 1, s.revoked, s.closed⟩ :=
          shut_row hs _ id fun hrevoked => by rw [hnone] at hrevoked; cases hrevoked
        exact shut_set hrow trivial
      · cases hmoved
        exact shut_set hs trivial
    | inserted =>
      cases hmoved
      exact shut_set hs trivial
    | checking late =>
      cases hmoved
      refine shut_set hs ?_
      split
      · rename_i hclaimable
        obtain ⟨row, hrow, hclaims⟩ := (Option.any_eq_true _ _).mp hclaimable
        change late = false
        by_contra hlate
        rw [Bool.not_eq_false] at hlate
        have hinactive := hs.inactive (hsound hlate) row hrow
        simp [Store.claimable, hinactive] at hclaims
      · trivial
    | incrementing late =>
      cases hmoved
      have hrow : Shut ⟨s.row.map use, s.stages, s.creations, s.revoked, s.closed⟩ := by
        refine shut_row hs _ id fun hrevoked new hnew => ?_
        obtain ⟨row, hold, rfl⟩ := Option.map_eq_some_iff.mp hnew
        exact hs.inactive hrevoked row hold
      exact shut_set hrow hsound
    | incremented late creation =>
      cases hmoved
      refine shut_set hs ?_
      split
      · exact hsound
      · trivial
    | claimed late creation => cases hmoved
    | revoking id =>
      cases hmoved
      have hrow : Shut ⟨s.row.map (revoke id), s.stages, s.creations, s.revoked || s.row.any (·.id = id),
        s.closed⟩ := by
        refine shut_row hs _ (fun hrevoked => by rw [hrevoked, Bool.true_or]) fun hrevoked new hnew => ?_
        obtain ⟨row, hold, rfl⟩ := Option.map_eq_some_iff.mp hnew
        refine revoke_inactive ?_
        rcases (Bool.or_eq_true _ _).mp hrevoked with hbefore | hmatched
        · exact .inl (hs.inactive hbefore row hold)
        · rw [Option.mem_def.mp hold, Option.any_some] at hmatched
          exact .inr (of_decide_eq_true hmatched)
      exact shut_set hrow fun hmatched => by rw [hmatched, Bool.or_true]
    | revoked matched =>
      cases hmoved
      have hclosed : Shut ⟨s.row, s.stages, s.creations, s.revoked, s.closed || matched⟩ := by
        refine ⟨fun hor => ?_, hs.inactive, hs.stages⟩
        rcases (Bool.or_eq_true _ _).mp hor with hbefore | hmatched
        · exact hs.closed hbefore
        · exact hsound hmatched
      exact shut_set hclosed trivial
    | ended => cases hmoved

/-! ### What is claimed of the invite -/

theorem counted_start : Counted start :=
  ⟨fun _ hrow => (by cases hrow), fun _ hmem => (by cases hmem)⟩

theorem shut_start : Shut start :=
  ⟨fun hclosed => (by cases hclosed), fun hrevoked => (by cases hrevoked), fun _ hmem => (by cases hmem)⟩

/-- An invite is claimed no more often than it may be when each claim counts its use while one is left. -/
theorem bounded_of_useLeft {labels : List Label} (hmeets : Run.Meets (step ask) UseLeft start labels) {t : State}
    (hrun : Run.run (step ask) start labels = some t) : Bounded t :=
  (Run.run_inv (fun _ _ _ hi hc hst => counted_step hi hc hst) hmeets counted_start hrun).bounded

/-- It is not claimed after its revocation when it is not created again. -/
theorem refused_of_notRecreated {labels : List Label} (hmeets : Run.Meets (step ask) NotRecreated start labels)
    {t : State} (hrun : Run.run (step ask) start labels = some t) : Refused t :=
  (Run.run_inv (fun _ _ _ hi hc hst => shut_step hi hc hst) hmeets shut_start hrun).refused

/-! ### Behind the gate -/

theorem gate_create (code : Token) (n : NewInvite) : gate code (.create n) = .ok () := by
  rw [gate, enforce_ok_iff]

theorem gate_ok {code : Token} {c : Call} (h : gate code c = .ok ()) : ∃ n, c = .create n := by
  cases c with
  | create n => exact ⟨n, rfl⟩
  | claim now =>
    rw [gate, enforce_ok_iff] at h
    cases h
  | revoke id =>
    rw [gate, enforce_ok_iff] at h
    cases h

/-- A call that creates, or has ended. -/
def Stage.creates : Stage → Bool
  | .inserting _ | .inserted | .ended => true
  | _ => false

/-- Nothing but creations has come past the gate. -/
structure Quiet (s : State) : Prop where
  stages : ∀ stage ∈ s.stages, stage.creates = true
  revoked : s.revoked = false

/-- Behind the gate of the kernel no claim and no revocation gets to its statements. -/
theorem quiet_step {code : Token} (hq : Quiet s) {l : Label} (hst : step (gate code) s l = some t) : Quiet t := by
  cases l with
  | call c =>
    cases hst
    refine ⟨fun stage hmem => ?_, hq.revoked⟩
    rcases List.mem_append.mp hmem with hold | hlast
    · exact hq.stages stage hold
    · rw [List.mem_singleton.mp hlast, State.asked]
      split
      · rfl
      · rename_i hok
        obtain ⟨n, rfl⟩ := gate_ok hok
        rfl
  | move i now =>
    obtain ⟨stage, u, next, hstage, hmoved, rfl⟩ := move_eq hst
    have hcreates := hq.stages stage (List.mem_of_getElem? hstage)
    have hnext : next.creates = true ∧ u.revoked = s.revoked := by
      cases stage with
      | inserting n =>
        simp only [moved] at hmoved
        split at hmoved <;> cases hmoved <;> exact ⟨rfl, rfl⟩
      | inserted =>
        cases hmoved
        exact ⟨rfl, rfl⟩
      | ended => cases hmoved
      | _ => cases hcreates
    refine ⟨fun stage hmem => ?_, hnext.2.trans hq.revoked⟩
    rcases List.mem_or_eq_of_mem_set hmem with hold | rfl
    · exact hq.stages stage hold
    · exact hnext.1

theorem quiet_start : Quiet start := ⟨fun _ hmem => (by cases hmem), rfl⟩

theorem Quiet.useLeft (hq : Quiet s) (l : Label) : UseLeft s l := by
  cases l with
  | call c => trivial
  | move i now =>
    intro stage hstage hcounts
    have hcreates := hq.stages stage (List.mem_of_getElem? hstage)
    cases stage with
    | incrementing late => cases hcreates
    | _ => cases hcounts

theorem Quiet.notRecreated (hq : Quiet s) (l : Label) : NotRecreated s l := by
  cases l with
  | call c => trivial
  | move i now => exact fun _ _ _ => hq.revoked

/-- Every run meets what its states behind the gate have. -/
theorem meets_of_quiet {code : Token} {C : State → Label → Prop} (hc : ∀ s l, Quiet s → C s l)
    (labels : List Label) : Run.Meets (step (gate code)) C start labels :=
  Run.meets_inv (fun _ _ _ hq _ hst => quiet_step hq hst) (fun s l hq _ => hc s l hq) quiet_start
    (Run.meets_of_forall labels (fun _ _ => trivial) start)

/-- An invite is claimed no more often than it may be and not after its revocation: the gate refuses every claim. The
    stores agree exactly when SQLite stores one creation at most, and Postgres that one too. -/
theorem invite_claims_bounded (code : Token) (labels : List Label) (calls : List Call)
    (hids : (calls.filterMap Call.newId).Nodup) :
    (∀ t, Run.run (step (gate code)) start labels = some t → Bounded t ∧ Refused t) ∧
    (postgres.answers (gate code) none calls = sqlite.answers (gate code) none calls ↔ CreatedOnce calls) := by
  refine ⟨fun t hrun => ⟨?_, ?_⟩, answers_none (gate_create code) hids⟩
  · exact bounded_of_useLeft (meets_of_quiet (fun _ l hq => hq.useLeft l) labels) hrun
  · exact refused_of_notRecreated (meets_of_quiet (fun _ l hq => hq.notRecreated l) labels) hrun

/-! ### An invite for one use -/

def inviteCode : Token := ⟨"ABCDEF123456", by decide, by decide⟩

/-- An invite of one use. -/
def once (id : Token) (expiresAt : Option Int) : NewInvite := ⟨id, 1, expiresAt, none⟩

def inviteId : Token := ⟨"pilot_invite_1", by decide, by decide⟩

def otherId : Token := ⟨"pilot_invite_2", by decide, by decide⟩

/-- Created, and refused to two claims and to a revocation. -/
def claimedOnce : List Label :=
  [.call (.create (once inviteId none)), .move 0 0, .move 0 0, .call (.claim 0), .call (.claim 0),
    .call (.revoke inviteId)]

instance (calls : List Call) : Decidable (CreatedOnce calls) :=
  inferInstanceAs (Decidable ((stored calls).length ≤ 1 ∧ ∀ n ∈ stored calls, postgres.accepts n = true))

theorem invite_claims_bounded_once :
    (∃ t, Run.run (step (gate inviteCode)) start claimedOnce = some t ∧ Bounded t ∧ Refused t) ∧
      postgres.answers (gate inviteCode) none [.create (once inviteId none), .claim 0, .claim 0, .revoke inviteId] =
        sqlite.answers (gate inviteCode) none
          [.create (once inviteId none), .claim 0, .claim 0, .revoke inviteId] := by
  obtain ⟨hbounded, hanswers⟩ := invite_claims_bounded inviteCode claimedOnce
    [.create (once inviteId none), .claim 0, .claim 0, .revoke inviteId] (by decide)
  obtain ⟨t, hrun⟩ := Option.isSome_iff_exists.mp
    (by decide : (Run.run (step (gate inviteCode)) start claimedOnce).isSome = true)
  exact ⟨⟨t, hrun, hbounded t hrun⟩, hanswers.mpr (by decide)⟩

/-- The code is created again; or it is created with a time to expire at. -/
theorem invite_stores_differ :
    postgres.answers (gate inviteCode) none [.create (once inviteId none), .create (once otherId none)] ≠
        sqlite.answers (gate inviteCode) none [.create (once inviteId none), .create (once otherId none)] ∧
      postgres.answers (gate inviteCode) none [.create (once inviteId (some 1900000000))] ≠
        sqlite.answers (gate inviteCode) none [.create (once inviteId (some 1900000000))] := by
  constructor <;> decide

end Empyralis.Server.PilotInvites
