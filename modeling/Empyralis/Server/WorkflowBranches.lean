import Empyralis.Server.WorkflowGraph

/-! The branches of decision nodes.

    An edge counts when it names a target. `Comes` says which nodes a walk can come to, by the values
    that its decisions take on the way. -/

namespace Empyralis.Server.WorkflowGraph

section
variable (repr : Value → String) (graph : Graph)

/-- The edges that lead from a node. -/
def edgesOf (node : Fields) : List Fields := outgoingEdges repr graph.edges (nodeId repr node)

def HasEdge (node : Fields) (value : Bool) : Prop :=
  ∃ edge ∈ edgesOf repr graph node, sourceHandle repr edge = handle value ∧ target repr edge ≠ ""

/-- An edge of this handle leads from the node to the next. -/
def LeadsBy (node : Fields) (desired : String) (next : Fields) : Prop :=
  ∃ edge ∈ edgesOf repr graph node, sourceHandle repr edge = desired ∧ target repr edge ≠ "" ∧
    findNode repr graph (target repr edge) = some next

def OnlyBy (node : Fields) (value : Bool) (next : Fields) : Prop :=
  LeadsBy repr graph node (handle value) next ∧
    ∀ other, LeadsBy repr graph node other next → other = handle value

/-- What follows a decision is not reached only by the handle that was not chosen, and a decision with no
    edge for the chosen handle is the last node. -/
def Faithful (visits : List (Visit Level)) : Prop :=
  ∀ before v w after value, visits = before ++ v :: w :: after → v.decision = some value →
    ¬ OnlyBy repr graph v.node (!value) w.node ∧ HasEdge repr graph v.node value

/-- There is an edge for the handle, or the first edge leads to no node. -/
def Wired (node : Fields) (value : Bool) : Prop :=
  HasEdge repr graph node value ∨
    (firstTarget repr (edgesOf repr graph node)).bind (findNode repr graph) = none

/-- The walk goes on from a node, with this value if it decides. -/
def advance (current : Option Fields) (value : Bool) : Option Fields :=
  current.bind fun node => nextNode repr graph node (decisionOf repr node value)

/-- Behind this many nodes a walk can stand at this node. -/
def Comes (count : Nat) (node : Fields) : Prop :=
  ∃ start, entry repr graph = .ok start ∧
    ∃ values : List Bool, values.length = count ∧
      values.foldl (advance repr graph) start = some node

end

variable {repr : Value → String} {graph : Graph} {node next : Fields} {value : Bool}
  {edges : List Fields} {current : Option Fields} {cancelled : Cancelled} {exec : Exec}

/-! ### The edge that is taken -/

theorem firstTarget_some {t : String} (h : firstTarget repr edges = some t) :
    ∃ edge ∈ edges, target repr edge = t ∧ t ≠ "" := by
  have hne : t ≠ "" := by simpa using List.find?_some h
  obtain ⟨edge, hedge, htarget⟩ := List.mem_map.mp (List.mem_of_find?_eq_some h)
  exact ⟨edge, hedge, htarget, hne⟩

theorem firstTarget_none : firstTarget repr edges = none ↔ ∀ edge ∈ edges, target repr edge = "" := by
  simp [firstTarget, List.find?_eq_none]

/-- The first edge of the handle that has a target is taken, if there is one. -/
theorem nextNode_of_edge (hedge : HasEdge repr graph node value)
    (h : nextNode repr graph node (some value) = some next) :
    LeadsBy repr graph node (handle value) next := by
  obtain ⟨edge, hmem, hhandle, htarget⟩ := hedge
  have hkept : edge ∈ (edgesOf repr graph node).filter fun edge =>
      sourceHandle repr edge = handle value :=
    List.mem_filter.mpr ⟨hmem, decide_eq_true hhandle⟩
  cases hfirst : firstTarget repr ((edgesOf repr graph node).filter fun edge =>
      sourceHandle repr edge = handle value) with
  | none => exact absurd (firstTarget_none.mp hfirst edge hkept) htarget
  | some t =>
    obtain ⟨taken, htaken, rfl, hne⟩ := firstTarget_some hfirst
    obtain ⟨hfrom, hby⟩ := List.mem_filter.mp htaken
    refine ⟨taken, hfrom, of_decide_eq_true hby, hne, ?_⟩
    rw [nextNode, nextNodeId, Option.map_some, Option.bind_some] at h
    simp only [edgesOf] at hfirst
    rwa [hfirst, Option.some_or, Option.bind_some] at h

/-- Without an edge for the handle, the first edge is taken that has a target. -/
theorem nextNode_of_no_edge (hedge : ¬ HasEdge repr graph node value) :
    nextNode repr graph node (some value) =
      (firstTarget repr (edgesOf repr graph node)).bind (findNode repr graph) := by
  have hfirst : firstTarget repr ((edgesOf repr graph node).filter fun edge =>
      sourceHandle repr edge = handle value) = none := by
    refine firstTarget_none.mpr fun edge hmem => ?_
    obtain ⟨hfrom, hby⟩ := List.mem_filter.mp hmem
    by_contra htarget
    exact hedge ⟨edge, hfrom, of_decide_eq_true hby, htarget⟩
  simp only [edgesOf] at hfirst
  rw [nextNode, nextNodeId, Option.map_some, Option.bind_some, hfirst, Option.none_or, edgesOf]

theorem handle_inj {a b : Bool} (h : handle a = handle b) : a = b := by
  cases a <;> cases b <;> first | rfl | exact absurd h (by decide)

/-- A decision goes on as it should, wherever it goes, just when it is wired. -/
theorem wired_iff : Wired repr graph node value ↔
    ∀ next, nextNode repr graph node (some value) = some next →
      ¬ OnlyBy repr graph node (!value) next ∧ HasEdge repr graph node value := by
  by_cases hedge : HasEdge repr graph node value
  · refine ⟨fun _ next hnext => ⟨fun honly => ?_, hedge⟩, fun _ => Or.inl hedge⟩
    have := handle_inj (honly.2 _ (nextNode_of_edge hedge hnext))
    cases value <;> simp at this
  · rw [nextNode_of_no_edge hedge, Wired, or_iff_right hedge, Option.eq_none_iff_forall_ne_some]
    exact forall_congr' fun next =>
      ⟨fun h hnext => absurd hnext h, fun h hnext => hedge (h hnext).2⟩

/-! ### The nodes of a walk -/

/-- The first node of a walk, and the walk behind it. -/
theorem walk_cons {v : Visit Level} {rest : List (Visit Level)} {fuel place : Nat}
    (h : (walk repr graph cancelled exec fuel place current).1 = v :: rest) :
    ∃ fuel', fuel = fuel' + 1 ∧ current = some v.node ∧ (rest = [] ∨
      ∃ value, v.decision = decisionOf repr v.node value ∧
        rest = (walk repr graph cancelled exec fuel' (place + 1)
          (nextNode repr graph v.node v.decision)).1) := by
  cases fuel with
  | zero => exact absurd h (by simp [walk])
  | succ fuel =>
    refine ⟨fuel, rfl, ?_⟩
    cases current with
    | none => exact absurd h (by simp [walk])
    | some node =>
      rw [walk] at h
      split at h
      · exact absurd h (by simp)
      · split at h
        · obtain ⟨rfl, rfl⟩ := List.cons.inj h
          exact ⟨rfl, Or.inl rfl⟩
        · obtain ⟨rfl, rfl⟩ := List.cons.inj h
          exact ⟨rfl, Or.inr ⟨_, rfl, rfl⟩⟩

theorem executeGraph_visits {start : Option Fields} (hentry : entry repr graph = .ok start) :
    (executeGraph repr graph cancelled exec).visits =
      (walk repr graph cancelled exec maxNodes 0 start).1 := by
  rw [executeGraph, hentry]
  rfl

/-- A walk comes to each node that it executes, and goes on from it by its decision. -/
theorem walk_visits {before after : List (Visit Level)} {v : Visit Level} {fuel place : Nat}
    (h : (walk repr graph cancelled exec fuel place current).1 = before ++ v :: after) :
    before.length < fuel ∧
      (∃ values : List Bool, values.length = before.length ∧
        values.foldl (advance repr graph) current = some v.node) ∧
      ∀ w rest, after = w :: rest → before.length + 1 < fuel ∧
        (∃ value, v.decision = decisionOf repr v.node value) ∧
        nextNode repr graph v.node v.decision = some w.node := by
  induction before generalizing fuel place current with
  | nil =>
    obtain ⟨fuel, rfl, rfl, hafter⟩ := walk_cons h
    refine ⟨Nat.succ_pos _, ⟨[], rfl, rfl⟩, ?_⟩
    rintro w rest rfl
    obtain hnil | ⟨value, hvalue, hrest⟩ := hafter
    · cases hnil
    · obtain ⟨fuel, rfl, hnext, -⟩ := walk_cons hrest.symm
      exact ⟨by simp, ⟨value, hvalue⟩, hnext⟩
  | cons first before ih =>
    obtain ⟨fuel, rfl, rfl, hafter⟩ := walk_cons h
    obtain hnil | ⟨value, hvalue, hrest⟩ := hafter
    · exact absurd hnil (by simp)
    · obtain ⟨hlength, ⟨values, hvalues, hfold⟩, hnext⟩ := ih hrest.symm
      refine ⟨Nat.succ_lt_succ hlength, ⟨value :: values, by simp [hvalues], ?_⟩, ?_⟩
      · rw [List.foldl_cons, advance, Option.bind_some, ← hvalue]
        exact hfold
      · intro w rest hw
        obtain ⟨hlt, hrest⟩ := hnext w rest hw
        exact ⟨Nat.succ_lt_succ hlt, hrest⟩

/-- Nodes that never raise, with these values. -/
def scripted (script : Nat → Bool) : Exec := fun place _ => ([], .ok (script place))

theorem scripted_cons (script : Nat → Bool) (fuel place : Nat) (node : Fields) :
    (walk repr graph (fun _ => none) (scripted script) (fuel + 1) place (some node)).1 =
      ⟨node, decisionOf repr node (script place), []⟩ ::
        (walk repr graph (fun _ => none) (scripted script) fuel (place + 1)
          (nextNode repr graph node (decisionOf repr node (script place)))).1 := rfl

/-- A walk goes where its values lead. -/
theorem walk_scripted {script : Nat → Bool} {values : List Bool} {fuel place : Nat}
    (hscript : ∀ i value, values[i]? = some value → script (place + i) = value)
    (hfuel : values.length < fuel) (h : values.foldl (advance repr graph) current = some node) :
    ∃ before, (walk repr graph (fun _ => none) (scripted script) fuel place current).1 =
      before ++ (walk repr graph (fun _ => none) (scripted script) (fuel - values.length)
        (place + values.length) (some node)).1 := by
  induction values generalizing fuel place current with
  | nil => exact ⟨[], by rw [← h]; rfl⟩
  | cons value values ih =>
    cases fuel with
    | zero => exact absurd hfuel (by simp)
    | succ fuel =>
      rw [List.foldl_cons] at h
      cases current with
      | none =>
        have hnone : ∀ values : List Bool, values.foldl (advance repr graph) none = none := by
          intro values
          induction values with
          | nil => rfl
          | cons _ _ ih => exact ih
        exact absurd (h.symm.trans (hnone values)) (by simp)
      | some first =>
        have hvalue : script place = value := hscript 0 value rfl
        have hrest : ∀ i v, values[i]? = some v → script (place + 1 + i) = v := by
          intro i v hv
          have := hscript (i + 1) v hv
          rwa [Nat.add_assoc, Nat.add_comm 1 i]
        obtain ⟨before, hbefore⟩ := ih hrest (Nat.lt_of_succ_lt_succ hfuel) h
        refine ⟨⟨first, decisionOf repr first value, []⟩ :: before, ?_⟩
        have hplace : place + (value :: values).length = place + 1 + values.length := by
          rw [List.length_cons]
          omega
        rw [scripted_cons, hvalue, hplace, List.length_cons, Nat.succ_sub_succ, List.cons_append, ← hbefore]
        rfl

/-- A decision that a walk comes to is made with either value, and followed if there is a next node. -/
theorem comes_walk {count : Nat} (hcomes : Comes repr graph count node) (hcount : count + 1 < maxNodes)
    (hdecision : isDecision repr node) (hnext : nextNode repr graph node (some value) = some next) :
    ∃ exec before w after, (executeGraph repr graph (fun _ => none) exec).visits =
      before ++ ⟨node, some value, []⟩ :: w :: after ∧ w.node = next := by
  obtain ⟨start, hentry, values, rfl, hfold⟩ := hcomes
  let script : Nat → Bool := fun place => (values ++ [value]).getD place false
  have hscript : ∀ i v, values[i]? = some v → script (0 + i) = v := by
    intro i v hv
    obtain ⟨hi, -⟩ := List.getElem?_eq_some_iff.mp hv
    simp [script, List.getD_eq_getElem?_getD, List.getElem?_append_left hi, hv]
  have hlast : decisionOf repr node (script values.length) = some value := by
    simp [script, List.getD_eq_getElem?_getD, decisionOf, hdecision]
  obtain ⟨before, hbefore⟩ := walk_scripted hscript (Nat.lt_of_succ_lt hcount) hfold
  obtain ⟨fuel, hfuel⟩ : ∃ fuel, maxNodes - values.length = fuel + 1 + 1 :=
    ⟨maxNodes - values.length - 2, by omega⟩
  rw [hfuel, Nat.zero_add, scripted_cons, hlast, hnext, scripted_cons] at hbefore
  exact ⟨scripted script, before, _, _, (executeGraph_visits hentry).trans hbefore, rfl⟩

/-- Every walk follows its decisions just when each decision that a walk can come to before its last
    place is wired for both values. -/
theorem branch_fidelity_iff (repr : Value → String) (graph : Graph) :
    (∀ cancelled exec, Faithful repr graph (executeGraph repr graph cancelled exec).visits) ↔
      ∀ count node, count + 1 < maxNodes → Comes repr graph count node → isDecision repr node →
        ∀ value, Wired repr graph node value := by
  constructor
  · intro h count node hcount hcomes hdecision value
    refine wired_iff.mpr fun next hnext => ?_
    obtain ⟨exec, before, w, after, hvisits, rfl⟩ := comes_walk hcomes hcount hdecision hnext
    exact h _ exec before _ w after value hvisits rfl
  · intro h cancelled exec before v w after value hvisits hvalue
    unfold executeGraph at hvisits
    split at hvisits
    · exact absurd hvisits (by simp [Level.visits])
    · rename_i start hentry
      obtain ⟨-, ⟨values, hvalues, hfold⟩, hrest⟩ := walk_visits hvisits
      obtain ⟨hcount, ⟨taken, hdecision⟩, hnext⟩ := hrest w after rfl
      rw [hvalue] at hdecision hnext
      have hisDecision : isDecision repr v.node := by
        by_contra hnot
        simp [decisionOf, hnot] at hdecision
      exact wired_iff.mp (h _ v.node hcount ⟨start, hentry, values, hvalues, hfold⟩ hisDecision value)
        w.node hnext

def nodeOf (id type : String) : Fields := [("id", .string id), ("type", .string type)]

/-- A decision that sends a mail if it is true, and is not wired for the other case. -/
def mailGraph : Graph where
  nodes := [.object (nodeOf "start" "trigger"), .object (nodeOf "check" "decision"),
    .object (nodeOf "mail" "tool")]
  edges := [.object [("source", .string "start"), ("target", .string "check")],
    .object [("source", .string "check"), ("sourceHandle", .string "true"), ("target", .string "mail")]]

/-- The decision is false, and the mail is sent. -/
theorem false_decision_sends_mail : ¬ Faithful (fun _ => "") mailGraph
    (executeGraph (fun _ => "") mailGraph (fun _ => none) (scripted fun _ => false)).visits := by
  intro h
  have hvisits : (executeGraph (fun _ => "") mailGraph (fun _ => none)
      (scripted fun _ => false)).visits.map (fun v => (nodeId (fun _ => "") v.node, v.decision)) =
      [("start", none), ("check", some false), ("mail", none)] := by with_unfolding_all decide
  generalize (executeGraph (fun _ => "") mailGraph (fun _ => none)
    (scripted fun _ => false)).visits = visits at h hvisits
  obtain ⟨start, rest, rfl, -, hrest⟩ := List.map_eq_cons_iff.mp hvisits
  obtain ⟨check, rest, rfl, hcheck, hrest⟩ := List.map_eq_cons_iff.mp hrest
  obtain ⟨mail, rest, rfl, -, -⟩ := List.map_eq_cons_iff.mp hrest
  obtain ⟨hid, hdecision⟩ := Prod.mk.inj hcheck
  obtain ⟨-, hedge⟩ := h [start] check mail rest false rfl hdecision
  rw [HasEdge, edgesOf, hid] at hedge
  exact absurd hedge (by with_unfolding_all decide)

end Empyralis.Server.WorkflowGraph
