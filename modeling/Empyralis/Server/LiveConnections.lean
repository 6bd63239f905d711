import Empyralis.Lib.Chain
import Empyralis.Lib.Run
import Empyralis.Lib.Text
import Mathlib.Logic.Function.Basic

/-! The live connections of the gateways, by gateway and by session.

    A connection is registered as an object and unregistered under its session id, so a handler that ends, or a dispatch
    that closes a stale connection, removes whatever is registered under that id by then. -/

namespace Empyralis.Server.LiveConnections
open Text (strip)

structure Connection where
  gatewayId : String
  sessionId : String
  deriving DecidableEq

/-- `_LiveGatewayConnection(gateway_id=.., session_id=..)` -/
def newConnection (gatewayId sessionId : String) : Connection := ⟨strip gatewayId, strip sessionId⟩

/-- A handler is at its handshake until it registers, serves when it has closed the connection that it has replaced,
    and unregisters when it ends; a dispatch closes its connection and unregisters it. -/
inductive Stage where
  | handshaking
  | evicting (stale : Option Nat)
  | serving
  | closing
  | unregistering
  | failing (popped : Option Nat)
  | done

/-- A handler of a websocket, or a `_close_and_wait_for_fresh_connection`, with its connection. -/
structure Task where
  gatewayId : String
  sessionId : String
  connection : Option Nat
  stage : Stage

/-- A connection is known by its index, in the order of registration. `effects` has a connection with each one that was
    removed or failed on its behalf. -/
structure State where
  connections : List Connection
  byGateway : String → Option Nat
  bySession : String → Option Nat
  tasks : List Task
  effects : List (Nat × Nat)

def start : State := ⟨[], fun _ => none, fun _ => none, [], []⟩

inductive Label where
  | accept (gatewayId sessionId : String)
  | closeAndWait (connection : Nat)
  | move (i : Nat)
  | leave (i : Nat)

/-- The connection object of a gateway. -/
def liveConnection (s : State) (gid : String) : Option Connection := (s.byGateway gid).bind fun c => s.connections[c]?

/-- The sessions without that of the gateway's connection. -/
def evicted (s : State) (gid : String) : String → Option Nat :=
  match liveConnection s gid with
  | none => s.bySession
  | some existing => Function.update s.bySession existing.sessionId none

/-- `_register_live_connection` of a new object up to its await, with the connection that it closes there. -/
def registerLiveConnection (s : State) (connection : Connection) : State × Option Nat :=
  ({ s with
    connections := s.connections ++ [connection]
    byGateway := Function.update s.byGateway connection.gatewayId (some s.connections.length)
    bySession := Function.update (evicted s connection.gatewayId) connection.sessionId (some s.connections.length) },
    s.byGateway connection.gatewayId)

/-- The entry of the gateway is removed with its connection, or without one when it has the session id. -/
def drops (s : State) (sid : String) (current : Nat) : Option Nat → Bool
  | some popped => popped = current
  | none => s.connections[current]?.any fun connection => connection.sessionId = sid

/-- `_unregister_live_connection` under the lock, with the connection that it fails after that. -/
def unregisterLiveConnection (s : State) (gatewayId sessionId : String) : State × Option Nat :=
  let gid := strip gatewayId
  let sid := strip sessionId
  let popped := s.bySession sid
  let byGateway := if (s.byGateway gid).any fun current => drops s sid current popped then
    Function.update s.byGateway gid none else s.byGateway
  ({ s with byGateway, bySession := Function.update s.bySession sid none }, popped)

/-- What a task does to a connection, on behalf of its own. -/
def affect (s : State) (own victim : Option Nat) : State :=
  { s with effects := s.effects ++ (own.bind fun c => victim.map fun v => (c, v)).toList }

def advance (s : State) (task : Task) : Stage → Option (State × Task)
  | .handshaking =>
    let registered := registerLiveConnection s (newConnection task.gatewayId task.sessionId)
    some (registered.1, { task with connection := some s.connections.length, stage := .evicting registered.2 })
  | .evicting stale => some (affect s task.connection stale, { task with stage := .serving })
  | .serving => none
  | .closing => some (affect s task.connection task.connection, { task with stage := .unregistering })
  | .unregistering =>
    let unregistered := unregisterLiveConnection s task.gatewayId task.sessionId
    some (affect unregistered.1 task.connection unregistered.2, { task with stage := .failing unregistered.2 })
  | .failing popped => some (affect s task.connection popped, { task with stage := .done })
  | .done => none

/-- A handler ends at its handshake, in its await, or when its socket has closed. -/
def leave (task : Task) : Stage → Option Task
  | .handshaking | .evicting _ | .serving => some { task with stage := .unregistering }
  | _ => none

def step (s : State) : Label → Option State
  | .accept gatewayId sessionId => some { s with tasks := s.tasks ++ [⟨gatewayId, sessionId, none, .handshaking⟩] }
  | .closeAndWait c => s.connections[c]?.map fun connection =>
      { s with tasks := s.tasks ++ [⟨connection.gatewayId, connection.sessionId, some c, .closing⟩] }
  | .move i => s.tasks[i]?.bind fun task => (advance s task task.stage).map fun (t, next) =>
      { t with tasks := s.tasks.set i next }
  | .leave i => s.tasks[i]?.bind fun task => (leave task task.stage).map fun next =>
      { s with tasks := s.tasks.set i next }

/-- The two maps hold the same connections and one of each gateway, and nothing was removed or failed on behalf of an
    older connection of its gateway. -/
structure Kept (s : State) : Prop where
  same : ∀ c, (∃ gid, s.byGateway gid = some c) ↔ ∃ sid, s.bySession sid = some c
  one : ∀ sid c sid' d, s.bySession sid = some c → s.bySession sid' = some d → ∀ one ∈ s.connections[c]?,
    ∀ other ∈ s.connections[d]?, one.gatewayId = other.gatewayId → c = d
  spared : ∀ e ∈ s.effects, ∀ own ∈ s.connections[e.1]?, ∀ victim ∈ s.connections[e.2]?,
    victim.gatewayId = own.gatewayId → e.2 ≤ e.1

/-- A session id that is registered is of the same gateway, when a handler registers, and of the task's own connection,
    when it unregisters: without one, of its gateway. -/
def Own (s : State) (task : Task) : Stage → Prop
  | .handshaking => ∀ d ∈ s.bySession (strip task.sessionId), ∀ connection ∈ s.connections[d]?,
      connection.gatewayId = strip task.gatewayId
  | .unregistering => ∀ d ∈ s.bySession (strip task.sessionId), match task.connection with
      | some c => d = c
      | none => ∀ connection ∈ s.connections[d]?, connection.gatewayId = strip task.gatewayId
  | _ => True

def Apart (s : State) : Label → Prop
  | .move i => ∀ task ∈ s.tasks[i]?, Own s task task.stage
  | _ => True

/-- What a task is about to close or fail. -/
def Stage.victim : Stage → Option Nat
  | .evicting stale => stale
  | .failing popped => popped
  | _ => none

/-- Each map has its connections under their own keys, and they are in the other map; the newest one of a gateway is
    its live one. -/
structure Maps (s : State) : Prop where
  byGateway : ∀ gid c, s.byGateway gid = some c → ∃ connection, s.connections[c]? = some connection ∧
    connection.gatewayId = gid ∧ s.bySession connection.sessionId = some c
  bySession : ∀ sid c, s.bySession sid = some c → ∃ connection, s.connections[c]? = some connection ∧
    connection.sessionId = sid ∧ s.byGateway connection.gatewayId = some c
  newest : ∀ gid c, s.byGateway gid = some c →
    ∀ k connection, s.connections[k]? = some connection → connection.gatewayId = gid → k ≤ c

structure Inv (s : State) : Prop where
  stripped : ∀ connection ∈ s.connections, newConnection connection.gatewayId connection.sessionId = connection
  maps : Maps s
  tasks : ∀ task ∈ s.tasks, ∀ c ∈ task.connection,
    s.connections[c]? = some (newConnection task.gatewayId task.sessionId) ∧ ∀ victim ∈ task.stage.victim, victim ≤ c
  effects : ∀ e ∈ s.effects, e.2 ≤ e.1

variable {s t : State}

theorem Inv.kept (hi : Inv s) : Kept s := by
  refine ⟨fun c => ⟨?_, ?_⟩, fun sid c sid' d hc hd one hone other hother hg => ?_, fun e he _ _ _ _ _ =>
    hi.effects e he⟩
  · rintro ⟨gid, hgid⟩
    obtain ⟨connection, -, -, hsid⟩ := hi.maps.byGateway gid c hgid
    exact ⟨_, hsid⟩
  · rintro ⟨sid, hsid⟩
    obtain ⟨connection, -, -, hgid⟩ := hi.maps.bySession sid c hsid
    exact ⟨_, hgid⟩
  · obtain ⟨conn, hconn, -, hcg⟩ := hi.maps.bySession sid c hc
    obtain ⟨conn', hconn', -, hdg⟩ := hi.maps.bySession sid' d hd
    obtain rfl := Option.some.inj (hconn.symm.trans hone)
    obtain rfl := Option.some.inj (hconn'.symm.trans hother)
    rw [hg] at hcg
    exact Option.some.inj (hcg.symm.trans hdg)

theorem inv_start : Inv start :=
  ⟨fun _ h => (by cases h), ⟨fun _ _ h => (by cases h), fun _ _ h => (by cases h), fun _ _ h => (by cases h)⟩,
    fun _ h => (by cases h), fun _ h => (by cases h)⟩

/-! ### Registration -/

theorem evicted_iff {gid sid : String} {c : Nat} : evicted s gid sid = some c ↔
    s.bySession sid = some c ∧ ∀ existing ∈ liveConnection s gid, sid ≠ existing.sessionId := by
  unfold evicted
  rcases liveConnection s gid with _ | existing
  · simp
  · by_cases hsid : sid = existing.sessionId
    · simp [hsid]
    · simp [hsid]

theorem live_of_byGateway (hm : Maps s) {gid : String} {c : Nat} (h : s.byGateway gid = some c) :
    ∃ connection, liveConnection s gid = some connection ∧ s.connections[c]? = some connection ∧
      connection.gatewayId = gid ∧ s.bySession connection.sessionId = some c := by
  obtain ⟨connection, hc, hg, hs⟩ := hm.byGateway gid c h
  exact ⟨connection, by rw [liveConnection, h, Option.bind_some, hc], hc, hg, hs⟩

theorem maps_register (hm : Maps s) {connection : Connection}
    (hown : ∀ d ∈ s.bySession connection.sessionId, ∀ other ∈ s.connections[d]?,
      other.gatewayId = connection.gatewayId) :
    Maps (registerLiveConnection s connection).1 := by
  have hnew : (s.connections ++ [connection])[s.connections.length]? = some connection := List.getElem?_concat_length
  have hold : ∀ {k : Nat} {other : Connection}, s.connections[k]? = some other →
      (s.connections ++ [connection])[k]? = some other := by
    intro k other hk
    rw [List.getElem?_append_left (List.getElem?_eq_some_iff.mp hk).1, hk]
  dsimp only [registerLiveConnection]
  refine ⟨fun gid c h => ?_, fun sid c h => ?_, fun gid c h k other hk hg => ?_⟩
  · dsimp only at h ⊢
    by_cases hgid : gid = connection.gatewayId
    · subst hgid
      rw [Function.update_self] at h
      cases h
      exact ⟨connection, hnew, rfl, Function.update_self ..⟩
    · rw [Function.update_of_ne hgid] at h
      obtain ⟨other, hother, hg, hs⟩ := hm.byGateway gid c h
      refine ⟨other, hold hother, hg, ?_⟩
      have hsid : other.sessionId ≠ connection.sessionId := by
        intro heq
        rw [heq] at hs
        exact hgid (hg.symm.trans (hown c hs other hother))
      rw [Function.update_of_ne hsid]
      refine evicted_iff.mpr ⟨hs, fun existing hexisting heq => ?_⟩
      obtain ⟨e, he, hget⟩ := Option.bind_eq_some_iff.mp hexisting
      obtain ⟨known, -, hknown, hkg, hks⟩ := live_of_byGateway hm he
      obtain rfl := Option.some.inj (hknown.symm.trans hget)
      rw [← heq, hs] at hks
      cases hks
      rw [hother] at hknown
      cases hknown
      exact hgid (hg.symm.trans hkg)
  · dsimp only at h ⊢
    by_cases hsid : sid = connection.sessionId
    · subst hsid
      rw [Function.update_self] at h
      cases h
      exact ⟨connection, hnew, rfl, Function.update_self ..⟩
    · rw [Function.update_of_ne hsid] at h
      obtain ⟨hs, hevicted⟩ := evicted_iff.mp h
      obtain ⟨other, hother, hos, hg⟩ := hm.bySession sid c hs
      refine ⟨other, hold hother, hos, ?_⟩
      have hgid : other.gatewayId ≠ connection.gatewayId := by
        intro heq
        rw [heq] at hg
        obtain ⟨known, hlive, hknown, -, -⟩ := live_of_byGateway hm hg
        obtain rfl := Option.some.inj (hother.symm.trans hknown)
        exact hevicted other hlive hos.symm
      rw [Function.update_of_ne hgid, hg]
  · dsimp only at h hk
    by_cases hgid : gid = connection.gatewayId
    · subst hgid
      rw [Function.update_self] at h
      cases h
      have hlt := (List.getElem?_eq_some_iff.mp hk).1
      rw [List.length_append, List.length_singleton] at hlt
      omega
    · rw [Function.update_of_ne hgid] at h
      rcases Chain.getElem?_snoc_cases hk with hk | ⟨-, rfl⟩
      · exact hm.newest gid c h k other hk hg
      · exact absurd hg.symm hgid

/-! ### Unregistration -/

theorem unregister_none (hm : Maps s) {gatewayId sessionId : String} (h : s.bySession (strip sessionId) = none) :
    unregisterLiveConnection s gatewayId sessionId = (s, none) := by
  have hdrops : ((s.byGateway (strip gatewayId)).any fun current => drops s (strip sessionId) current none) =
    false := by
    rcases hc : s.byGateway (strip gatewayId) with _ | c
    · rfl
    · obtain ⟨connection, -, hget, -, hs⟩ := live_of_byGateway hm hc
      have hne : connection.sessionId ≠ strip sessionId := by
        intro heq
        rw [heq, h] at hs
        cases hs
      simp [drops, hget, hne]
  rw [unregisterLiveConnection, h, hdrops, if_neg Bool.false_ne_true, ← h, Function.update_eq_self]

theorem unregister_own {gatewayId sessionId : String} {d : Nat} (h : s.bySession (strip sessionId) = some d)
    (hg : s.byGateway (strip gatewayId) = some d) : unregisterLiveConnection s gatewayId sessionId =
      ({ s with
        byGateway := Function.update s.byGateway (strip gatewayId) none
        bySession := Function.update s.bySession (strip sessionId) none }, some d) := by
  have hdrops : ((s.byGateway (strip gatewayId)).any fun current => drops s (strip sessionId) current (some d)) =
    true := by
    rw [hg]
    simp [drops]
  rw [unregisterLiveConnection, h, if_pos hdrops]

theorem unregister_other {gatewayId sessionId : String} {d : Nat} (h : s.bySession (strip sessionId) = some d)
    (hg : s.byGateway (strip gatewayId) ≠ some d) : unregisterLiveConnection s gatewayId sessionId =
      ({ s with bySession := Function.update s.bySession (strip sessionId) none }, some d) := by
  have hdrops : ((s.byGateway (strip gatewayId)).any fun current => drops s (strip sessionId) current (some d)) =
    false := by
    rcases hc : s.byGateway (strip gatewayId) with _ | c
    · rfl
    · rw [hc] at hg
      have hne : d ≠ c := fun heq => hg (congrArg some heq.symm)
      simp [drops, hne]
  rw [unregisterLiveConnection, h, hdrops, if_neg Bool.false_ne_true]

theorem maps_unregister (hm : Maps s) {gatewayId sessionId : String} {d : Nat}
    (hd : s.bySession (strip sessionId) = some d)
    (hg : s.byGateway (strip gatewayId) = some d) : Maps (unregisterLiveConnection s gatewayId sessionId).1 := by
  obtain ⟨known, hknown, hks, hkg⟩ := hm.bySession _ d hd
  rw [unregister_own hd hg]
  refine ⟨fun gid c h => ?_, fun sid c h => ?_, fun gid c h => ?_⟩
  · dsimp only at h ⊢
    by_cases hgid : gid = strip gatewayId
    · subst hgid
      rw [Function.update_self] at h
      cases h
    · rw [Function.update_of_ne hgid] at h
      obtain ⟨other, hother, hog, hos⟩ := hm.byGateway gid c h
      refine ⟨other, hother, hog, ?_⟩
      rw [Function.update_of_ne fun heq => ?_]
      · exact hos
      · rw [heq, hd] at hos
        cases hos
        obtain ⟨conn, hconn, hcg, -⟩ := hm.byGateway _ d hg
        obtain rfl := Option.some.inj (hconn.symm.trans hother)
        exact hgid (hog.symm.trans hcg)
  · dsimp only at h ⊢
    by_cases hsid : sid = strip sessionId
    · subst hsid
      rw [Function.update_self] at h
      cases h
    · rw [Function.update_of_ne hsid] at h
      obtain ⟨other, hother, hos, hog⟩ := hm.bySession sid c h
      refine ⟨other, hother, hos, ?_⟩
      rw [Function.update_of_ne fun heq => ?_]
      · exact hog
      · rw [heq, hg] at hog
        cases hog
        obtain rfl := Option.some.inj (hknown.symm.trans hother)
        exact hsid (hos.symm.trans hks)
  · dsimp only at h ⊢
    by_cases hgid : gid = strip gatewayId
    · subst hgid
      rw [Function.update_self] at h
      cases h
    · rw [Function.update_of_ne hgid] at h
      exact hm.newest gid c h

/-! ### Steps -/

theorem effects_affect {own victim : Option Nat} {e : Nat × Nat} (h : e ∈ (affect s own victim).effects) :
    e ∈ s.effects ∨ own = some e.1 ∧ victim = some e.2 := by
  rcases List.mem_append.mp h with hold | hnew
  · exact .inl hold
  · obtain ⟨c, hc, hmap⟩ := Option.bind_eq_some_iff.mp (Option.mem_toList.mp hnew)
    obtain ⟨v, hv, rfl⟩ := Option.map_eq_some_iff.mp hmap
    exact .inr ⟨hc, hv⟩

theorem maps_affect (hm : Maps s) (own victim : Option Nat) : Maps (affect s own victim) :=
  ⟨hm.byGateway, hm.bySession, hm.newest⟩

/-- A task moves on in a state in which the connections are still there. -/
theorem inv_set (hi : Inv s) {u : State} {i : Nat} {next : Task} (hmaps : Maps u)
    (hstripped : ∀ connection ∈ u.connections, newConnection connection.gatewayId connection.sessionId = connection)
    (hconnections : ∀ (c : Nat) (connection : Connection), s.connections[c]? = some connection →
      u.connections[c]? = some connection)
    (hnext : ∀ c ∈ next.connection, u.connections[c]? = some (newConnection next.gatewayId next.sessionId) ∧
      ∀ victim ∈ next.stage.victim, victim ≤ c)
    (heffects : ∀ e ∈ u.effects, e.2 ≤ e.1) : Inv { u with tasks := s.tasks.set i next } := by
  refine ⟨hstripped, ⟨hmaps.byGateway, hmaps.bySession, hmaps.newest⟩, fun task hmem c hc => ?_, heffects⟩
  rcases List.mem_or_eq_of_mem_set hmem with hold | rfl
  · obtain ⟨hget, hvictim⟩ := hi.tasks task hold c hc
    exact ⟨hconnections c _ hget, hvictim⟩
  · exact hnext c hc

theorem inv_affect (hi : Inv s) {own victim : Option Nat} (h : ∀ c ∈ own, ∀ v ∈ victim, v ≤ c) {e : Nat × Nat}
    (he : e ∈ (affect s own victim).effects) : e.2 ≤ e.1 := by
  rcases effects_affect he with hold | ⟨hown, hvictim⟩
  · exact hi.effects e hold
  · exact h e.1 hown e.2 hvictim

/-- A task that registers and unregisters nothing. -/
theorem inv_same (hi : Inv s) {i : Nat} {task next : Task} {victim : Option Nat} (htask : s.tasks[i]? = some task)
    (hvictim : ∀ c ∈ task.connection, ∀ v ∈ victim, v ≤ c) (hown : next.connection = task.connection)
    (hgateway : next.gatewayId = task.gatewayId) (hsession : next.sessionId = task.sessionId)
    (hstage : next.stage.victim = none) :
    Inv { affect s task.connection victim with tasks := s.tasks.set i next } := by
  refine inv_set hi ⟨hi.maps.byGateway, hi.maps.bySession, hi.maps.newest⟩ hi.stripped (fun _ _ h => h) (fun c hc => ?_)
    fun e he => inv_affect hi hvictim he
  rw [hown] at hc
  rw [hgateway, hsession, hstage]
  exact ⟨(hi.tasks task (List.mem_of_getElem? htask) c hc).1, fun v hv => (by cases hv)⟩

theorem inv_registered (hi : Inv s) {i : Nat} {task : Task} (hown : Own s task .handshaking) :
    let registered := registerLiveConnection s (newConnection task.gatewayId task.sessionId)
    let next := { task with connection := some s.connections.length, stage := .evicting registered.2 }
    Inv { registered.1 with tasks := s.tasks.set i next } := by
  refine inv_set hi (maps_register hi.maps hown) (fun connection hmem => ?_) (fun c connection hc => ?_)
    (fun c hc => ⟨?_, fun v hv => ?_⟩) hi.effects
  · rcases List.mem_append.mp hmem with hold | hlast
    · exact hi.stripped connection hold
    · obtain rfl := List.mem_singleton.mp hlast
      simp [newConnection, strip]
  · exact (List.getElem?_append_left (List.getElem?_eq_some_iff.mp hc).1).trans hc
  · cases hc
    exact List.getElem?_concat_length
  · cases hc
    obtain ⟨connection, hget, -⟩ := hi.maps.byGateway _ v hv
    exact Nat.le_of_lt (List.getElem?_eq_some_iff.mp hget).1

theorem inv_unregistered (hi : Inv s) {i : Nat} {task : Task} (htask : s.tasks[i]? = some task)
    (hown : Own s task .unregistering) :
    let unregistered := unregisterLiveConnection s task.gatewayId task.sessionId
    let next := { task with stage := .failing unregistered.2 }
    Inv { affect unregistered.1 task.connection unregistered.2 with tasks := s.tasks.set i next } := by
  have hmem := List.mem_of_getElem? htask
  rcases hd : s.bySession (strip task.sessionId) with _ | d
  · rw [unregister_none hi.maps hd]
    exact inv_same hi htask (fun _ _ _ hv => (by cases hv)) rfl rfl rfl rfl
  · have hgateway : s.byGateway (strip task.gatewayId) = some d := by
      obtain ⟨connection, hget, -, hg⟩ := hi.maps.bySession _ d hd
      have hsame := hown d hd
      rcases hc : task.connection with _ | c
      · rw [hc] at hsame
        rw [← hsame connection hget, hg]
      · rw [hc] at hsame
        subst hsame
        rw [(hi.tasks task hmem d hc).1] at hget
        cases hget
        exact hg
    have hle : ∀ c ∈ task.connection, ∀ v ∈ some d, v ≤ c := by
      intro c hc v hv
      cases hv
      have hsame := hown d hd
      rw [hc] at hsame
      exact Nat.le_of_eq hsame
    have hmaps := maps_unregister hi.maps hd hgateway
    have hpopped : (unregisterLiveConnection s task.gatewayId task.sessionId).2 = some d := hd
    have hconnections : (unregisterLiveConnection s task.gatewayId task.sessionId).1.connections = s.connections := rfl
    have heffects : (unregisterLiveConnection s task.gatewayId task.sessionId).1.effects = s.effects := rfl
    generalize unregisterLiveConnection s task.gatewayId task.sessionId =
      unregistered at hmaps hpopped hconnections heffects
    intro next
    refine inv_set hi (maps_affect hmaps _ _) ?_ (fun c connection h => ?_) (fun c hc => ⟨?_, ?_⟩) fun e he => ?_
    · change ∀ connection ∈ unregistered.1.connections, _
      rw [hconnections]
      exact hi.stripped
    · change unregistered.1.connections[c]? = _
      rw [hconnections]
      exact h
    · change unregistered.1.connections[c]? = _
      rw [hconnections]
      exact (hi.tasks task hmem c hc).1
    · change ∀ v ∈ unregistered.2, v ≤ c
      rw [hpopped]
      exact hle c hc
    · rcases effects_affect he with hold | ⟨hc, hv⟩
      · rw [heffects] at hold
        exact hi.effects e hold
      · rw [hpopped] at hv
        exact hle e.1 hc e.2 hv

theorem inv_move (hi : Inv s) {i : Nat} (hc : Apart s (.move i)) (hst : step s (.move i) = some t) : Inv t := by
  obtain ⟨task, htask, hmap⟩ := Option.bind_eq_some_iff.mp hst
  obtain ⟨⟨u, next⟩, hadvance, rfl⟩ := Option.map_eq_some_iff.mp hmap
  have hown := hc task htask
  have hvictim := fun c hc => (hi.tasks task (List.mem_of_getElem? htask) c hc).2
  rcases hstage : task.stage with _ | stale | _ | _ | _ | popped | _
  all_goals rw [hstage] at hadvance hown hvictim
  · cases hadvance
    exact inv_registered hi hown
  · cases hadvance
    exact inv_same hi htask hvictim rfl rfl rfl rfl
  · cases hadvance
  · cases hadvance
    refine inv_same hi htask (fun c hc v hv => ?_) rfl rfl rfl rfl
    rw [hc] at hv
    exact Nat.le_of_eq (Option.some.inj hv).symm
  · cases hadvance
    exact inv_unregistered hi htask hown
  · cases hadvance
    exact inv_same hi htask hvictim rfl rfl rfl rfl
  · cases hadvance

theorem inv_append (hi : Inv s) {task : Task} (htask : ∀ c ∈ task.connection,
    s.connections[c]? = some (newConnection task.gatewayId task.sessionId) ∧ ∀ victim ∈ task.stage.victim, victim ≤ c) :
    Inv { s with tasks := s.tasks ++ [task] } := by
  refine ⟨hi.stripped, ⟨hi.maps.byGateway, hi.maps.bySession, hi.maps.newest⟩, fun other hmem => ?_, hi.effects⟩
  rcases List.mem_append.mp hmem with hold | hlast
  · exact hi.tasks other hold
  · obtain rfl := List.mem_singleton.mp hlast
    exact htask

/-- One step keeps the maps, if each task removes its own connection only. -/
theorem inv_step (hi : Inv s) {l : Label} (hc : Apart s l) (hst : step s l = some t) : Inv t := by
  cases l with
  | accept gatewayId sessionId =>
    cases hst
    exact inv_append hi fun c hc => (by cases hc)
  | closeAndWait c =>
    obtain ⟨connection, hget, rfl⟩ := Option.map_eq_some_iff.mp hst
    refine inv_append hi fun k hk => ?_
    cases hk
    rw [hi.stripped connection (List.mem_of_getElem? hget)]
    exact ⟨hget, fun v hv => (by cases hv)⟩
  | move i => exact inv_move hi hc hst
  | leave i =>
    obtain ⟨task, htask, hmap⟩ := Option.bind_eq_some_iff.mp hst
    obtain ⟨next, hleave, rfl⟩ := Option.map_eq_some_iff.mp hmap
    have hnext : next = { task with stage := .unregistering } := by
      unfold leave at hleave
      split at hleave
      · exact (Option.some.inj hleave).symm
      · exact (Option.some.inj hleave).symm
      · exact (Option.some.inj hleave).symm
      · cases hleave
    subst hnext
    refine inv_set hi hi.maps hi.stripped (fun _ _ h => h) (fun c hc => ?_) hi.effects
    exact ⟨(hi.tasks task (List.mem_of_getElem? htask) c hc).1, fun v hv => (by cases hv)⟩

/-! ### What the other steps do -/

theorem same_of_kept {u : State} {tasks : List Task} (h : Kept { u with tasks }) (c : Nat) :
    (∃ gid, u.byGateway gid = some c) ↔ ∃ sid, u.bySession sid = some c := h.same c

theorem same_of_affected {u : State} {own victim : Option Nat} {tasks : List Task}
    (h : Kept { affect u own victim with tasks }) (c : Nat) :
    (∃ gid, u.byGateway gid = some c) ↔ ∃ sid, u.bySession sid = some c := h.same c

/-- A session id of another gateway is overwritten, and its connection stays with the gateway. -/
theorem gateway_of_registered (hi : Inv s) {connection : Connection} (hsame : ∀ c,
      (∃ gid, (registerLiveConnection s connection).1.byGateway gid = some c) ↔
        ∃ sid, (registerLiveConnection s connection).1.bySession sid = some c)
    {d : Nat} (hd : s.bySession connection.sessionId = some d) {known : Connection}
    (hknown : s.connections[d]? = some known) :
    known.gatewayId = connection.gatewayId := by
  by_contra hne
  obtain ⟨other, hother, hks, hkg⟩ := hi.maps.bySession _ d hd
  obtain rfl := Option.some.inj (hknown.symm.trans hother)
  obtain ⟨sid, hsid⟩ := (hsame d).mp ⟨known.gatewayId, (Function.update_of_ne hne _ _).trans hkg⟩
  rw [registerLiveConnection] at hsid
  dsimp only at hsid
  by_cases hkey : sid = connection.sessionId
  · rw [hkey, Function.update_self] at hsid
    cases hsid
    exact Nat.lt_irrefl _ (List.getElem?_eq_some_iff.mp hknown).1
  · rw [Function.update_of_ne hkey] at hsid
    obtain ⟨hold, -⟩ := evicted_iff.mp hsid
    obtain ⟨kept, hkept, hos, -⟩ := hi.maps.bySession sid d hold
    obtain rfl := Option.some.inj (hknown.symm.trans hkept)
    exact hkey (hos.symm.trans hks)

/-- The session that is removed is of the gateway, or its connection stays there. -/
theorem gateway_of_unregistered (hi : Inv s) {gatewayId sessionId : String} {d : Nat}
    (hd : s.bySession (strip sessionId) = some d) (hsame : ∀ c,
      (∃ gid, (unregisterLiveConnection s gatewayId sessionId).1.byGateway gid = some c) ↔
        ∃ sid, (unregisterLiveConnection s gatewayId sessionId).1.bySession sid = some c) :
    s.byGateway (strip gatewayId) = some d := by
  by_contra hne
  obtain ⟨known, hknown, hks, hkg⟩ := hi.maps.bySession _ d hd
  rw [unregister_other hd hne] at hsame
  dsimp only at hsame
  obtain ⟨sid, hsid⟩ := (hsame d).mp ⟨known.gatewayId, hkg⟩
  by_cases hkey : sid = strip sessionId
  · rw [hkey, Function.update_self] at hsid
    cases hsid
  · rw [Function.update_of_ne hkey] at hsid
    obtain ⟨other, hother, hos, -⟩ := hi.maps.bySession sid d hsid
    obtain rfl := Option.some.inj (hknown.symm.trans hother)
    exact hkey (hos.symm.trans hks)

theorem own_of_unregistered (hi : Inv s) {task : Task} (hmem : task ∈ s.tasks) {tasks : List Task}
    (hkept : Kept { affect (unregisterLiveConnection s task.gatewayId task.sessionId).1 task.connection
      (unregisterLiveConnection s task.gatewayId task.sessionId).2 with tasks }) : Own s task .unregistering := by
  intro d hd
  have hgateway := gateway_of_unregistered hi hd (same_of_affected hkept)
  obtain ⟨known, hknown, hkg, -⟩ := hi.maps.byGateway _ d hgateway
  have hspared := hkept.spared
  have hpopped : (unregisterLiveConnection s task.gatewayId task.sessionId).2 = some d := hd
  have hconnections : (unregisterLiveConnection s task.gatewayId task.sessionId).1.connections = s.connections := rfl
  clear hkept
  generalize unregisterLiveConnection s task.gatewayId task.sessionId = unregistered at hspared hpopped hconnections
  rcases hc : task.connection with _ | c
  · intro connection hconnection
    obtain rfl := Option.some.inj (hknown.symm.trans hconnection)
    exact hkg
  · obtain ⟨hget, -⟩ := hi.tasks task hmem c hc
    have hnewest := hi.maps.newest _ d hgateway c _ hget rfl
    rw [hc, hpopped] at hspared
    change ∀ e ∈ unregistered.1.effects ++ [(c, d)], ∀ own ∈ unregistered.1.connections[e.1]?,
      ∀ victim ∈ unregistered.1.connections[e.2]?, _ at hspared
    rw [hconnections] at hspared
    have hle := hspared (c, d) (List.mem_append_right _ (List.mem_singleton.mpr rfl)) _ hget known hknown hkg
    exact Nat.le_antisymm hle hnewest

/-- A step that keeps the registry is such a step. -/
theorem apart_of_kept (hi : Inv s) {l : Label} (h : ∀ t, step s l = some t → Kept t) : Apart s l := by
  cases l with
  | move i =>
    intro task htask
    have hstep : ∀ u next, advance s task task.stage = some (u, next) →
      Kept { u with tasks := s.tasks.set i next } := by
      intro u next hadvance
      refine h _ (Option.bind_eq_some_iff.mpr ⟨task, htask, ?_⟩)
      rw [hadvance, Option.map_some]
    rcases hstage : task.stage with _ | stale | _ | _ | _ | popped | _
    all_goals rw [hstage] at hstep
    · intro d hd known hknown
      have hkept := hstep _ _ rfl
      exact gateway_of_registered hi (same_of_kept hkept) hd hknown
    · exact trivial
    · exact trivial
    · exact trivial
    · exact own_of_unregistered hi (List.mem_of_getElem? htask) (hstep _ _ rfl)
    · exact trivial
    · exact trivial
  | _ => exact trivial

/-- The registry keeps the newest connections exactly in the runs in which no session id that is registered is of
    another gateway, when a handler registers, or of another connection, when a task unregisters. -/
theorem registry_kept (labels : List Label) :
    (∀ first t, first <+: labels → Run.run step start first = some t → Kept t) ↔ Run.Meets step Apart start labels :=
  Run.all_iff_meets (L := fun _ => True) (fun _ hi => hi.kept) (fun _ _ _ hi _ hc hst => inv_step hi hc hst)
    (fun _ _ hi _ h => apart_of_kept hi h) inv_start fun _ _ => trivial

/-! ### A gateway that reconnects under its session id -/

/-- The second handler registers and closes the connection of the first one, which ends after that. -/
def reconnected : List Label :=
  [.accept "gw-1" "sess-1", .move 0, .move 0, .accept "gw-1" "sess-1", .move 1, .move 1, .leave 0, .move 0]

/-- The leaving of the first handler takes the connection of the second one out of the registry. -/
theorem registry_not_kept : ∃ t, Run.run step start reconnected = some t ∧ ¬ Kept t := by
  have hany : (Run.run step start reconnected).any fun t => (0, 1) ∈ t.effects ∧
      t.connections[0]? = some ⟨"gw-1", "sess-1"⟩ ∧ t.connections[1]? = some ⟨"gw-1", "sess-1"⟩ := by decide
  obtain ⟨t, hrun, hall⟩ := (Option.any_eq_true _ _).mp hany
  obtain ⟨heffect, hold, hnew⟩ := of_decide_eq_true hall
  refine ⟨t, hrun, fun hkept => ?_⟩
  have hle := hkept.spared (0, 1) heffect _ hold _ hnew rfl
  exact absurd hle (by decide)

end Empyralis.Server.LiveConnections
