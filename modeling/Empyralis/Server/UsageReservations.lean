import Empyralis.Lib.Run
import Empyralis.Lib.Text
import Mathlib.Algebra.Ring.Int.Defs
import Mathlib.Data.List.Nodup

/-! The preflight holds of hosted chat turns: `reserve_direct_chat_hosted_usage_best_effort` and
    `release_direct_chat_hosted_usage_reservation_best_effort`.

    Each is one transaction on the table, so one step; a call that fails on the database leaves the
    table as it was. Money is in millionths of a dollar. `str.lower` is taken for ASCII alone: no other
    character turns into a letter of the words it is compared with. -/

namespace Empyralis.Server.UsageReservations
open Text (strip)

/-- The first text that is not blank. -/
def firstText (texts : List String) : String := ((texts.map strip).find? (· ≠ "")).getD ""

/-- What a turn is identified by. `lookup` is the tenant that the workspace record names. -/
structure Turn where
  workspaceId : String
  threadId : String
  requestId : String
  clientRequestId : String
  hintRequestId : String
  tenantId : String
  turnTenantId : String
  lookup : Option String
  deriving DecidableEq

def Turn.workspaceToken (turn : Turn) : String := strip turn.workspaceId

/-- The first of the ids that a turn has. -/
def Turn.sessionRequestId (turn : Turn) : String :=
  firstText [turn.requestId, turn.clientRequestId, turn.hintRequestId, turn.threadId]

/-- The first of the tenants that are known of a turn. -/
def Turn.sessionTenantId (turn : Turn) : String :=
  firstText [turn.tenantId, turn.turnTenantId, turn.lookup.getD ""]

/-- Neither call does anything without a workspace, a request id and a tenant. -/
def Turn.scoped (turn : Turn) : Bool :=
  turn.workspaceToken ≠ "" && turn.sessionRequestId ≠ "" && turn.sessionTenantId ≠ ""

def sourceSurface : String := "sage_direct_chat"

/-- `build_reservation_key` -/
def reservationKey (tenantId workspaceId requestId surface : String) : String :=
  ":".intercalate [firstText [tenantId, "default"], firstText [workspaceId, "default"],
    firstText [requestId, "request"], firstText [surface, sourceSurface]]

/-- The key of the reservation of a turn. -/
def Turn.key (turn : Turn) : String :=
  reservationKey turn.sessionTenantId turn.workspaceToken turn.sessionRequestId sourceSurface

/-- How far a reservation is. -/
inductive Status where
  | active | settled | released | uncertain
  deriving DecidableEq

/-- The status that a release leaves. -/
def releaseStatus (status : String) : Status :=
  if (strip status).toLower = "settled" then .settled
  else if (strip status).toLower = "uncertain" then .uncertain
  else .released

/-- A row of the reservations. -/
structure Row where
  key : String
  tenantId : String
  workspaceId : String
  requestId : String
  surface : String
  amount : Int
  status : Status
  deriving DecidableEq

/-- The two limits of the environment. -/
structure Config where
  preflightReservation : Int
  maxActiveReservation : Int

def Config.amount (cfg : Config) : Int := max cfg.preflightReservation 0

/-- The limit is never under what one reservation takes. -/
def Config.maxActive (cfg : Config) : Int := max cfg.maxActiveReservation cfg.amount

/-- The arguments of a reserve. `credit` is negative when it is not given; then `entitlement` is what
    the billing state answers, if it does. -/
structure Ask where
  turn : Turn
  credentialPlane : String
  platformRuntimeAllowed : Bool
  requestedProvider : String
  requestedModel : String
  credit : Int
  entitlement : Option Int
  deriving DecidableEq

def Ask.hosted (ask : Ask) : Bool := (strip ask.credentialPlane).toLower = "platform_runtime"

/-- What is there to be reserved of. -/
def Ask.available (ask : Ask) : Int :=
  max 0 (if ask.credit < 0 then ask.entitlement.getD 0 else ask.credit)

/-- What the caller is handed. -/
structure Reservation where
  key : String
  amount : Int
  status : Status
  requestedProvider : Option String
  requestedModel : Option String
  deriving DecidableEq

def orNone (text : String) : Option String := if strip text = "" then none else some (strip text)

/-- `SELECT SUM(amount_usd)` over the active rows of a workspace. -/
def activeTotal (rows : List Row) (workspaceId : String) : Int :=
  ((rows.filter fun row => row.workspaceId = workspaceId && row.status = .active).map (·.amount)).sum

/-- The row of a new reservation. -/
def Ask.row (cfg : Config) (ask : Ask) : Row where
  key := ask.turn.key
  tenantId := ask.turn.sessionTenantId
  workspaceId := ask.turn.workspaceToken
  requestId := ask.turn.sessionRequestId
  surface := sourceSurface
  amount := cfg.amount
  status := .active

/-- What a reserve returns, or the message of what it raises, and the rows after it. -/
def reserve (cfg : Config) (rows : List Row) (ask : Ask) :
    Except String (Option Reservation) × List Row :=
  if ¬ ask.hosted then (.ok none, rows)
  else if ¬ ask.platformRuntimeAllowed then
    (.error "Hosted AI platform runtime is not allowed for this request.", rows)
  else if ¬ ask.turn.scoped then
    (.error "Hosted AI reservation is missing tenant/workspace/request scope.", rows)
  else
    match rows.find? (·.key = ask.turn.key) with
    | some row =>
      match row.status with
      | .active => (.ok (some ⟨row.key, row.amount, .active, none, none⟩), rows)
      | .settled | .released => (.ok none, rows)
      | .uncertain => (.error "Hosted AI reservation has an uncertain previous outcome.", rows)
    | none =>
      let total := activeTotal rows ask.turn.workspaceToken
      if ask.available ≤ 0 ∨ ask.available - total - cfg.amount < 0 then
        (.error ("AI usage limit reached. Check Billing & usage in Settings, " ++
          "or connect your own AI provider."), rows)
      else if total + cfg.amount > cfg.maxActive then
        (.error "Hosted AI preflight reservation cap exceeded.", rows)
      else
        (.ok (some ⟨ask.turn.key, cfg.amount, .active, orNone ask.requestedProvider,
          orNone ask.requestedModel⟩), rows ++ [ask.row cfg])

/-- The row after a release, which ends active rows only. -/
def Row.end (key : String) (status : Status) (row : Row) : Row :=
  if row.key = key ∧ row.status = .active then { row with status := status } else row

/-- The rows of the key are ended. -/
def release (rows : List Row) (turn : Turn) (status : String) : List Row :=
  if turn.scoped then rows.map (Row.end turn.key (releaseStatus status)) else rows

/-- A call of the service. -/
inductive Label where
  | reserve (ask : Ask)
  | release (turn : Turn) (status : String)
  deriving DecidableEq

def step (cfg : Config) (rows : List Row) : Label → Option (List Row)
  | .reserve ask => some (reserve cfg rows ask).2
  | .release turn status => some (release rows turn status)

/-- The call releases the hold with this key. -/
def Label.Releases (key : String) : Label → Prop
  | .reserve _ => False
  | .release turn _ => turn.scoped ∧ turn.key = key

instance (key : String) : (l : Label) → Decidable (l.Releases key)
  | .reserve _ => .isFalse id
  | .release turn _ => inferInstanceAs (Decidable (turn.scoped ∧ turn.key = key))

/-! ### What a reserve does -/

variable {cfg : Config} {s t : List Row} {ask : Ask} {l : Label} {key : String}

/-- The ways a reserve can end: it inserts a hold that fits, it finds an active one, it returns
    without one, or it raises. -/
inductive Ends (cfg : Config) (s : List Row) (ask : Ask) :
    Except String (Option Reservation) → List Row → Prop
  | inserts (provider model : Option String) (hnew : ∀ row ∈ s, row.key ≠ ask.turn.key)
      (hcredit : activeTotal s ask.turn.workspaceToken + cfg.amount ≤ ask.available)
      (hcap : activeTotal s ask.turn.workspaceToken + cfg.amount ≤ cfg.maxActive) :
      Ends cfg s ask (.ok (some ⟨ask.turn.key, cfg.amount, .active, provider, model⟩))
        (s ++ [ask.row cfg])
  | finds (row : Row) (hrow : row ∈ s) (hkey : row.key = ask.turn.key)
      (hactive : row.status = .active) :
      Ends cfg s ask (.ok (some ⟨ask.turn.key, row.amount, .active, none, none⟩)) s
  | passes (h : ¬ ask.hosted) : Ends cfg s ask (.ok none) s
  | ended (hosted : ask.hosted) (hallowed : ask.platformRuntimeAllowed) (hscoped : ask.turn.scoped)
      (row : Row) (hrow : s.find? (·.key = ask.turn.key) = some row)
      (hstatus : row.status = .settled ∨ row.status = .released) : Ends cfg s ask (.ok none) s
  | raises (message : String) : Ends cfg s ask (.error message) s

/-- What a reservation answers and stores. -/
theorem reserve_ends (cfg : Config) (s : List Row) (ask : Ask) :
    Ends cfg s ask (reserve cfg s ask).1 (reserve cfg s ask).2 := by
  unfold reserve
  split
  · rename_i hplane
    exact .passes hplane
  split
  · exact .raises _
  split
  · exact .raises _
  rename_i hplane hallowed hscoped
  rw [not_not] at hplane hallowed hscoped
  split
  · rename_i row hfind
    have hkey : row.key = ask.turn.key := by simpa using List.find?_some hfind
    split
    · rename_i hactive
      exact hkey ▸ .finds row (List.mem_of_find?_eq_some hfind) hkey hactive
    · rename_i hsettled
      exact .ended hplane hallowed hscoped row hfind (Or.inl hsettled)
    · rename_i hreleased
      exact .ended hplane hallowed hscoped row hfind (Or.inr hreleased)
    · exact .raises _
  · rename_i hnone
    dsimp only
    split
    · exact .raises _
    split
    · exact .raises _
    rename_i hcredit hcap
    refine .inserts _ _ ?_ (by omega) (by omega)
    intro row hrow
    simpa using List.find?_eq_none.mp hnone row hrow

theorem activeTotal_insert (rows : List Row) :
    activeTotal (rows ++ [ask.row cfg]) ask.turn.workspaceToken =
      activeTotal rows ask.turn.workspaceToken + cfg.amount := by
  simp [activeTotal, Ask.row]

/-! ### Runs -/

theorem end_key (status : Status) (row : Row) : (row.end key status).key = row.key := by
  unfold Row.end
  split <;> rfl

/-- The key of a row is the primary key of the table. -/
theorem keys_step (hs : (s.map (·.key)).Nodup) (hst : step cfg s l = some t) :
    (t.map (·.key)).Nodup := by
  cases l with
  | reserve ask =>
    rw [← Option.some.inj hst]
    have hends := reserve_ends cfg s ask
    generalize (reserve cfg s ask).1 = result, (reserve cfg s ask).2 = t at hends
    cases hends with
    | inserts provider model hnew =>
      rw [List.map_append]
      refine List.Nodup.append hs (List.nodup_singleton _) ?_
      intro key hkey hmem
      obtain ⟨row, hrow, rfl⟩ := List.mem_map.mp hkey
      exact hnew row hrow (by simpa [Ask.row] using hmem)
    | finds | passes | ended | raises => exact hs
  | release turn status =>
    rw [← Option.some.inj hst]
    unfold release
    split
    · rw [List.map_map]
      have hkeys : (fun row : Row => row.key) ∘ Row.end turn.key (releaseStatus status) = (·.key) :=
        funext fun row => end_key _ row
      rwa [hkeys]
    · exact hs

theorem keys_run {before : List Label} (hs : Run.run (step cfg) [] before = some s) :
    (s.map (·.key)).Nodup :=
  Run.run_inv_all (I := fun rows : List Row => (rows.map (·.key)).Nodup)
    (fun _ _ _ => keys_step) (by simp) hs

/-- A hold stays through every step that does not release its key. -/
theorem hold_step {row : Row} (hrow : row ∈ s) (hother : ¬ l.Releases row.key)
    (hst : step cfg s l = some t) : row ∈ t := by
  cases l with
  | reserve ask =>
    rw [← Option.some.inj hst]
    have hends := reserve_ends cfg s ask
    generalize (reserve cfg s ask).1 = result, (reserve cfg s ask).2 = t at hends
    cases hends with
    | inserts => exact List.mem_append_left _ hrow
    | finds | passes | ended | raises => exact hrow
  | release turn status =>
    rw [← Option.some.inj hst]
    unfold release
    split
    · rename_i hscoped
      refine List.mem_map.mpr ⟨row, hrow, ?_⟩
      have hkey : row.key ≠ turn.key := fun hkey => hother ⟨hscoped, hkey.symm⟩
      simp [Row.end, hkey]
    · exact hrow

theorem hold_run {row : Row} {after : List Label} (hrow : row ∈ s)
    (hother : ∀ l ∈ after, ¬ l.Releases row.key) (hrun : Run.run (step cfg) s after = some t) :
    row ∈ t :=
  Run.run_inv (I := fun rows : List Row => row ∈ rows)
    (fun _ _ _ hrow hother hst => hold_step hrow hother hst)
    (Run.meets_of_forall after hother s) hrow hrun

/-- The row that covers a turn whose reserve has returned a reservation. -/
theorem held_row {res : Reservation} (h : (reserve cfg s ask).1 = .ok (some res)) :
    res.key = ask.turn.key ∧ ∃ row ∈ (reserve cfg s ask).2, row.key = ask.turn.key ∧
      row.status = .active ∧ row.amount = res.amount := by
  have hends := reserve_ends cfg s ask
  generalize (reserve cfg s ask).1 = result, (reserve cfg s ask).2 = t at h hends ⊢
  cases hends with
  | inserts provider model =>
    obtain rfl := Option.some.inj (Except.ok.inj h)
    exact ⟨rfl, ask.row cfg, List.mem_append_right _ (List.mem_singleton.mpr rfl), rfl, rfl, rfl⟩
  | finds row hrow hkey hactive =>
    obtain rfl := Option.some.inj (Except.ok.inj h)
    exact ⟨rfl, row, hrow, hkey, hactive, rfl⟩
  | passes | ended => exact absurd (Except.ok.inj h) (Option.some_ne_none res).symm
  | raises message => exact nomatch h

theorem reserve_none_iff (hkeys : (s.map (·.key)).Nodup) :
    (reserve cfg s ask).1 = .ok none ↔
      ¬ ask.hosted ∨ (ask.platformRuntimeAllowed ∧ ask.turn.scoped ∧
        ∃ row ∈ s, row.key = ask.turn.key ∧ (row.status = .settled ∨ row.status = .released)) := by
  constructor
  · intro h
    have hends := reserve_ends cfg s ask
    rw [h] at hends
    generalize (reserve cfg s ask).2 = t at hends
    cases hends with
    | passes hplane => exact Or.inl hplane
    | ended hosted hallowed hscoped row hrow hstatus =>
      have hkey : row.key = ask.turn.key := by simpa using List.find?_some hrow
      exact Or.inr ⟨hallowed, hscoped, row, List.mem_of_find?_eq_some hrow, hkey, hstatus⟩
  · by_cases hplane : ask.hosted
    · rintro (hno | ⟨hallowed, hscoped, row, hrow, hkey, hstatus⟩)
      · exact absurd hplane hno
      · have hfind : s.find? (·.key = ask.turn.key) = some row := by
          obtain ⟨row', hfind⟩ : ∃ row', s.find? (·.key = ask.turn.key) = some row' :=
            Option.isSome_iff_exists.mp (List.find?_isSome.mpr ⟨row, hrow, by simpa using hkey⟩)
          have hkey' : row'.key = ask.turn.key := by simpa using List.find?_some hfind
          have hsame := List.inj_on_of_nodup_map hkeys (List.mem_of_find?_eq_some hfind) hrow
            (hkey'.trans hkey.symm)
          rw [hfind, hsame]
        rcases hstatus with hstatus | hstatus <;>
          simp [reserve, hplane, hallowed, hscoped, hfind, hstatus]
    · intro _
      simp [reserve, hplane]

/-- In every run a reserve that returns a reservation leaves one active hold under the key of its turn
    until a release of that key. It returns none just when the turn is not on the platform's plane or
    its hold has been settled or released. Each insertion keeps to the cap and to the credits. -/
theorem reservations_cover {before : List Label} (hs : Run.run (step cfg) [] before = some s)
    (ask : Ask) :
    (∀ res, (reserve cfg s ask).1 = .ok (some res) → res.key = ask.turn.key ∧
        ∀ (after : List Label) (t : List Row),
          Run.run (step cfg) (reserve cfg s ask).2 after = some t →
          (∀ l ∈ after, ¬ l.Releases ask.turn.key) →
          ∃ row ∈ t, row.key = ask.turn.key ∧ row.status = .active ∧ row.amount = res.amount ∧
            ∀ row' ∈ t, row'.key = ask.turn.key → row' = row) ∧
      ((reserve cfg s ask).1 = .ok none ↔
        ¬ ask.hosted ∨ (ask.platformRuntimeAllowed ∧ ask.turn.scoped ∧
          ∃ row ∈ s, row.key = ask.turn.key ∧ (row.status = .settled ∨ row.status = .released))) ∧
      ((reserve cfg s ask).2 ≠ s →
        activeTotal (reserve cfg s ask).2 ask.turn.workspaceToken ≤ min cfg.maxActive ask.available) := by
  have hkeys := keys_run hs
  refine ⟨?_, reserve_none_iff hkeys, ?_⟩
  · intro res hres
    obtain ⟨hkey, row, hrow, hrowkey, hactive, hamount⟩ := held_row hres
    refine ⟨hkey, fun after t hrun hother => ?_⟩
    have hmem : row ∈ t := hold_run hrow (hrowkey ▸ hother) hrun
    have hafter : ((reserve cfg s ask).2.map (·.key)).Nodup := keys_step (l := .reserve ask) hkeys rfl
    have hkeys' : (t.map (·.key)).Nodup :=
      Run.run_inv_all (I := fun rows : List Row => (rows.map (·.key)).Nodup)
        (fun _ _ _ => keys_step) hafter hrun
    exact ⟨row, hmem, hrowkey, hactive, hamount, fun row' hrow' hkey' =>
      List.inj_on_of_nodup_map hkeys' hrow' hmem (hkey'.trans hrowkey.symm)⟩
  · intro hchanged
    have hends := reserve_ends cfg s ask
    generalize (reserve cfg s ask).1 = result, (reserve cfg s ask).2 = t at hends hchanged
    cases hends with
    | inserts provider model hnew hcredit hcap =>
      rw [activeTotal_insert]
      exact Int.le_min.mpr ⟨hcap, hcredit⟩
    | finds | passes | ended | raises => exact absurd rfl hchanged

/-- A turn on a thread whose session has no request id of its own. -/
def chat : Ask where
  turn := ⟨"w1", "thread", "", "", "", "t1", "", none⟩
  credentialPlane := "platform_runtime"
  platformRuntimeAllowed := true
  requestedProvider := ""
  requestedModel := ""
  credit := 5000000
  entitlement := none

def limits : Config := ⟨10000, 2000000⟩

theorem reservations_cover_chat :
    (reserve limits [] chat).1 = .ok (some ⟨chat.turn.key, 10000, .active, none, none⟩) ∧
      ∃ row ∈ [chat.row limits], row.key = chat.turn.key ∧ row.status = .active ∧
        row.amount = 10000 ∧ ∀ row' ∈ [chat.row limits], row'.key = chat.turn.key → row' = row := by
  have hstart : Run.run (step limits) [] [] = some [] := rfl
  have hres : reserve limits [] chat =
      (.ok (some ⟨chat.turn.key, 10000, .active, none, none⟩), [chat.row limits]) := by
    with_unfolding_all decide
  have hafter : Run.run (step limits) (reserve limits [] chat).2 [.reserve chat] =
      some [chat.row limits] := by
    with_unfolding_all decide
  have hother : ∀ l ∈ [Label.reserve chat], ¬ l.Releases chat.turn.key := by decide
  have hres' := congrArg Prod.fst hres
  exact ⟨hres', ((reservations_cover hstart chat).1 _ hres').2 _ _ hafter hother⟩

/-- Two turns of the thread share one hold, which the first release ends; a third turn gets none. -/
theorem thread_turns_share_hold :
    reserve limits [chat.row limits] chat =
        (.ok (some ⟨chat.turn.key, 10000, .active, none, none⟩), [chat.row limits]) ∧
      (release [chat.row limits] chat.turn "settled").map (·.status) = [.settled] ∧
      (reserve limits (release [chat.row limits] chat.turn "settled") chat).1 = .ok none := by
  with_unfolding_all decide

end Empyralis.Server.UsageReservations
