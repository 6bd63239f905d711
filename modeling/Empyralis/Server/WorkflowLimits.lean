import Empyralis.Server.WorkflowGraph
import Mathlib.Algebra.Group.Action.Defs
import Mathlib.Algebra.Order.BigOperators.Group.List
import Mathlib.Algebra.Order.Group.Nat

/-! The limits of a workflow: `_workflow_execute_loop_node` and the levels of `_execute_workflow_graph`.

    What happens is an answer of the `World` to a question about a place: a level has a path, the node at
    a place of it the path with the place in front, and the run of a loop's body the path of the loop with
    the number of the iteration in front. A function calls itself only for the body of a loop, with one
    loop less to go; `remaining` is the number of loops that may still be nested. -/

namespace Empyralis.Server.WorkflowGraph

/-- `int(value)`: a number, a `TypeError` or `ValueError`, or an `OverflowError`. -/
inductive IntResult where
  | value (n : Int)
  | invalid (message : String)
  | overflow (message : String)

/-- Where a node stands: the indices of the loops around it. -/
abbrev Place := List Nat

/-- What the nodes of a workflow read, and what is raised around them. -/
structure World where
  repr : Value → String
  int : Value → IntResult
  /-- `friendly_runtime_error_message` -/
  friendly : String → String
  /-- What `_workflow_raise_if_cancelled` raises in front of a node, in an iteration and behind it. -/
  cancelled : Place → Option String
  iterationCancelled : Place → Option String
  afterCancelled : Place → Option String
  /-- What a node that is no loop returns or raises; the value is that of a decision. -/
  execute : Place → Fields → Except String Bool
  /-- What `array_source` or `count_source` of a loop resolves to. -/
  resolve : Place → Except String Value
  /-- The condition of a WHILE loop in front of an iteration. -/
  condition : Place → Except String Bool
  /-- The order in which parallel iterations are completed, and those that had started when one failed. -/
  completion : Place → Nat → List Nat
  started : Place → Bool

variable (world : World)

/-- `_workflow_label` -/
def labelOf (node : Fields) : String :=
  let text (fields : Fields) (key : String) : String := (Fields.get fields key).token world.repr
  let config := (asObject (Fields.get node "config")).getD []
  let identity := (asObject (Fields.get config "identity")).getD []
  let data := (asObject (Fields.get node "data")).getD []
  let name := if (Fields.get identity "name").truthy then "name" else "role"
  ([text data "label", text node "label", text identity name, text node "id"].find? (· ≠ "")).getD "Node"

/-- The iterations of a loop that names no limit. -/
def defaultLimit (variant : String) : Int := if variant = "for_each" then 100 else 50

/-- The most iterations that a loop may ask for. -/
def hardCap (variant : String) : Int := if variant = "for_each" then 1000 else 500

/-- `_workflow_loop_cap`; the variant is stripped and in lower case. -/
def loopCap (variant : String) (requested : Value) : Except String Nat :=
  let capped (n : Int) : Nat := (min (max 0 n) (hardCap variant)).toNat
  match requested with
  | .null => .ok (capped (defaultLimit variant))
  | requested =>
    match world.int requested with
    | .value n => .ok (capped n)
    | .invalid _ => .ok (capped (defaultLimit variant))
    | .overflow message => .error message

/-- What a loop goes through: whether the next iteration is to be run, the iteration, the error that a
    failure of it raises, and the check behind it. -/
structure Loop where
  proceeds : Nat → Except String Bool
  iteration : Nat → List Level × Except String Unit
  failure : Nat → String → String
  continues : Bool
  after : Nat → Option String

/-- The loop over the iterations, one after another. -/
def Loop.sequential (loop : Loop) : Nat → Nat → List Level × Except String Unit
  | 0, _ => ([], .ok ())
  | remaining + 1, index =>
    match loop.proceeds index with
    | .error message => ([], .error message)
    | .ok false => ([], .ok ())
    | .ok true =>
      let (bodies, result) := loop.iteration index
      let raised :=
        match result with
        | .error message => if loop.continues then loop.after index else some (loop.failure index message)
        | .ok () => loop.after index
      match raised with
      | some message => (bodies, .error message)
      | none =>
        let (rest, result) := loop.sequential remaining (index + 1)
        (bodies ++ rest, result)

/-- The loop over iterations that run at the same time, in the order in which they are completed. A
    failure that is raised calls off those that have not started. -/
def Loop.parallel (loop : Loop) (order : List Nat) (started : Nat → Bool) (count : Nat) :
    List Level × Except String Unit :=
  let fails (index : Nat) : Option String :=
    match (loop.iteration index).2 with
    | .error message => if loop.continues then none else some (loop.failure index message)
    | .ok () => none
  let ran (index : Nat) : Bool :=
    started index || (fails index).isSome || (List.range count).all fun other => (fails other).isNone
  (((List.range count).filter ran).flatMap fun index => (loop.iteration index).1,
    match order.findSome? fun index => (fails index).or (loop.after index) with
    | some message => .error message
    | none => .ok ())

def configOf (node : Fields) : Fields := (asObject (Fields.get node "config")).getD []

/-- `_workflow_loop_body_definition`, of which the version is not read. -/
def bodyOf (config : Fields) : Fields :=
  let body := (asObject (Fields.get config "body")).getD []
  [("nodes", .array (asArray (Fields.get body "nodes"))),
    ("edges", .array (asArray (Fields.get body "edges")))]

/-- `variant or "for_each"` -/
def loopVariant (node : Fields) : String :=
  if variantOf world.repr node = "" then "for_each" else variantOf world.repr node

/-- The loop of a node; `run` executes its body. -/
def loopOf (run : Fields → Place → Level) (place : Place) (node : Fields) (kind : String)
    (proceeds : Nat → Except String Bool) : Loop where
  proceeds := proceeds
  iteration index :=
    match world.iterationCancelled (index :: place) with
    | some message => ([], .error message)
    | none =>
      let level := run (bodyOf (configOf node)) (index :: place)
      ([level],
        match level.ending with
        | .finished => .ok ()
        | .exceeded => .error exceededMessage
        | .raised message => .error message)
  failure index message :=
    kind ++ " iteration " ++ toString (index + 1) ++ " failed: " ++ world.friendly message
  continues := (Fields.get (configOf node) "continue_on_error").truthy
  after index := world.afterCancelled (index :: place)

/-- A loop over the items of a list. -/
def forEach (run : Fields → Place → Level) (place : Place) (node : Fields) :
    List Level × Except String Unit :=
  match world.resolve place with
  | .error message => ([], .error message)
  | .ok (.array items) =>
    match loopCap world "for_each" (Fields.get (configOf node) "max_iterations") with
    | .error message => ([], .error message)
    | .ok cap =>
      let count := (items.take cap).length
      let loop := loopOf world run place node "FOR_EACH" fun _ => .ok true
      if (Fields.get (configOf node) "parallel").truthy ∧ 1 < count then
        loop.parallel (world.completion place count) (fun index => world.started (index :: place)) count
      else loop.sequential count 0
  | .ok _ =>
    ([], .error ("FOR_EACH node '" ++ labelOf world node ++ "' resolved a non-array array_source."))

/-- The count of a REPEAT loop. -/
def repeatCount (place : Place) (node : Fields) : Except String Int := do
  let given := Fields.get (configOf node) "count"
  let value ←
    match given with
    | .null | .string "" => world.resolve place
    | .array _ => .error "unhashable type: 'list'"
    | .object _ => .error "unhashable type: 'dict'"
    | value => .ok value
  if ¬ value.truthy then .ok 0
  else
    match world.int value with
    | .value n => .ok n
    | .invalid _ => .error ("REPEAT node '" ++ labelOf world node ++ "' could not resolve count.")
    | .overflow message => .error message

/-- A loop that is repeated as often as it asks. -/
def repeatLoop (run : Fields → Place → Level) (place : Place) (node : Fields) :
    List Level × Except String Unit :=
  match repeatCount world place node with
  | .error message => ([], .error message)
  | .ok requested =>
    match loopCap world "repeat" (Fields.get (configOf node) "max_iterations") with
    | .error message => ([], .error message)
    | .ok cap =>
      (loopOf world run place node "REPEAT" fun _ => .ok true).sequential
        (min (max requested 0).toNat cap) 0

/-- A loop that runs while its condition holds. -/
def whileLoop (run : Fields → Place → Level) (place : Place) (node : Fields) :
    List Level × Except String Unit :=
  match loopCap world "while" (Fields.get (configOf node) "max_iterations") with
  | .error message => ([], .error message)
  | .ok cap =>
    (loopOf world run place node "WHILE" fun index => world.condition (index :: place)).sequential cap 0

/-- `_workflow_execute_loop_node`; `run` is missing at the greatest depth. -/
def executeLoop (run : Option (Fields → Place → Level)) (place : Place) (node : Fields) :
    List Level × Except String Unit :=
  match run with
  | none => ([], .error "Workflow loop depth exceeds the maximum nested depth of 3.")
  | some run =>
    if asArray (Fields.get (bodyOf (configOf node)) "nodes") = [] then
      ([], .error ("Loop node '" ++ labelOf world node ++ "' requires a non-empty body workflow."))
    else if loopVariant world node = "for_each" then forEach world run place node
    else if loopVariant world node = "repeat" then repeatLoop world run place node
    else whileLoop world run place node

def isLoop (node : Fields) : Bool := nodeType world.repr node = "loop"

/-- What the nodes of a level do. -/
def executeNode (run : Option (Fields → Place → Level)) (path : Place) : Exec := fun place node =>
  if isLoop world node then
    let (bodies, result) := executeLoop world run (place :: path) node
    (bodies, result.map fun _ => false)
  else ([], world.execute (place :: path) node)

/-- `_execute_workflow_graph` of a definition, in which so many loops may be nested. -/
def executeDefinition : Nat → Fields → Place → Level
  | 0, definition, path =>
    executeGraph world.repr (Graph.ofDefinition definition) (fun place => world.cancelled (place :: path))
      (executeNode world none path)
  | remaining + 1, definition, path =>
    executeGraph world.repr (Graph.ofDefinition definition) (fun place => world.cancelled (place :: path))
      (executeNode world (some (executeDefinition remaining)) path)

/-- How deep loops may be nested. -/
def maxLoopDepth : Nat := 3

/-- A workflow from its first node. -/
def executeWorkflow (definition : Fields) : Level := executeDefinition world maxLoopDepth definition []

/-- How many iterations a loop may run. -/
def iterationLimit (node : Fields) : Nat :=
  match loopCap world (loopVariant world node) (Fields.get (configOf node) "max_iterations") with
  | .ok cap => cap
  | .error _ => 0

/-- A level executes at most so many nodes; a loop runs its body at most as often as it may, each time as
    a level with one loop less to go, and at the greatest depth not at all. -/
def Bounded : Nat → Level → Prop
  | 0, level => level.visits.length ≤ maxNodes ∧ ∀ v ∈ level.visits, v.bodies = []
  | remaining + 1, level =>
    level.visits.length ≤ maxNodes ∧ ∀ v ∈ level.visits,
      v.bodies.length ≤ iterationLimit world v.node ∧ ∀ body ∈ v.bodies,
        (∃ path, body = executeDefinition world remaining (bodyOf (configOf v.node)) path) ∧
          Bounded remaining body

/-- The nodes that are executed at a level and below it. -/
def nodeCount : Nat → Level → Nat
  | 0, level => level.visits.length
  | remaining + 1, level =>
    level.visits.length + ((level.visits.flatMap (·.bodies)).map (nodeCount remaining)).sum

/-- The most nodes that are executed with so many levels of loops left. -/
def maxCount : Nat → Nat
  | 0 => maxNodes
  | remaining + 1 => maxNodes + maxNodes * 1000 * maxCount remaining

section
variable (repr : Value → String) (graph : Graph) (cancelled : Cancelled) (exec : Exec)

/-- Where the walk stands behind so many nodes, if it was not at its end before and nothing was raised. -/
def standsAfter : Nat → Nat → Option Fields → Option (Option Fields)
  | 0, _, current => some current
  | _ + 1, _, none => none
  | count + 1, place, some node =>
    match cancelled place, exec place node with
    | none, (_, .ok value) =>
      standsAfter count (place + 1) (nextNode repr graph node (decisionOf repr node value))
    | _, _ => none

end

/-- What executes the bodies of the loops of a level. -/
def runner : Nat → Option (Fields → Place → Level)
  | 0 => none
  | remaining + 1 => some (executeDefinition world remaining)

/-- Where a level stands behind as many nodes as it may execute. -/
def standsAtLimit (remaining : Nat) (definition : Fields) (path : Place) : Option (Option Fields) :=
  match entry world.repr (Graph.ofDefinition definition) with
  | .error _ => none
  | .ok start =>
    standsAfter world.repr (Graph.ofDefinition definition) (fun place => world.cancelled (place :: path))
      (executeNode world (runner world remaining) path) maxNodes 0 start

/-- One more node would have to be executed. -/
def NeedsAnother (remaining : Nat) (definition : Fields) (path : Place) : Prop :=
  ∃ node, standsAtLimit world remaining definition path = some (some node)

/-- The walk has come to its end with the last node that it may execute. -/
def EndsAtLimit (remaining : Nat) (definition : Fields) (path : Place) : Prop :=
  standsAtLimit world remaining definition path = some none

variable {world} {repr : Value → String} {graph : Graph} {cancelled : Cancelled} {exec : Exec}
  {fuel place remaining : Nat} {current : Option Fields} {node : Fields} {path : Place} {loop : Loop}
  {level : Level}

/-! ### One level -/

theorem walk_length : (walk repr graph cancelled exec fuel place current).1.length ≤ fuel := by
  induction fuel generalizing place current with
  | zero => exact Nat.le_refl 0
  | succ fuel ih =>
    cases current with
    | none => exact Nat.zero_le _
    | some node =>
      rw [walk]
      split
      · exact Nat.zero_le _
      · split
        · exact Nat.succ_le_succ (Nat.zero_le _)
        · exact Nat.succ_le_succ ih

theorem walk_bodies {v : Visit Level} (h : v ∈ (walk repr graph cancelled exec fuel place current).1) :
    ∃ place, v.bodies = (exec place v.node).1 := by
  induction fuel generalizing place current with
  | zero => exact absurd h (by simp [walk])
  | succ fuel ih =>
    cases current with
    | none => exact absurd h (by simp [walk])
    | some node =>
      rw [walk] at h
      split at h
      · exact absurd h (by simp)
      · split at h
        · rename_i hexec
          rw [List.mem_singleton] at h
          exact ⟨place, by rw [h, hexec]⟩
        · rename_i hexec
          rcases List.mem_cons.mp h with rfl | hrest
          · exact ⟨place, by rw [hexec]⟩
          · exact ih hrest

/-- The error of the limit is raised wherever so many nodes have been executed. -/
theorem walk_exceeded : (walk repr graph cancelled exec fuel place current).2 = .exceeded ↔
    ∃ next, standsAfter repr graph cancelled exec fuel place current = some next := by
  induction fuel generalizing place current with
  | zero => simp [walk, standsAfter]
  | succ fuel ih =>
    cases current with
    | none => simp [walk, standsAfter]
    | some node =>
      rw [walk, standsAfter]
      cases hcancelled : cancelled place with
      | some message => simp
      | none =>
        rcases hexec : exec place node with ⟨bodies, message | value⟩
        · simp
        · exact ih

theorem executeGraph_length : (executeGraph repr graph cancelled exec).visits.length ≤ maxNodes := by
  unfold executeGraph
  split
  · exact Nat.zero_le _
  · exact walk_length

theorem executeGraph_bodies {v : Visit Level} (h : v ∈ (executeGraph repr graph cancelled exec).visits) :
    ∃ place, v.bodies = (exec place v.node).1 := by
  unfold executeGraph at h
  split at h
  · exact absurd h (by simp [Level.visits])
  · exact walk_bodies h

/-! ### One loop -/

/-- What a loop runs, when an iteration runs its body at most once. -/
def Loop.Once (loop : Loop) (P : Level → Prop) : Prop :=
  ∀ index, (loop.iteration index).1.length ≤ 1 ∧ ∀ body ∈ (loop.iteration index).1, P body

theorem sequential_bodies {P : Level → Prop} (honce : loop.Once P) {index : Nat} :
    (loop.sequential remaining index).1.length ≤ remaining ∧
      ∀ body ∈ (loop.sequential remaining index).1, P body := by
  induction remaining generalizing index with
  | zero => exact ⟨Nat.le_refl 0, by simp [Loop.sequential]⟩
  | succ remaining ih =>
    rcases hiteration : loop.iteration index with ⟨bodies, result⟩
    have hlength : bodies.length ≤ 1 := by simpa [hiteration] using (honce index).1
    have hbodies : ∀ body ∈ bodies, P body := by simpa [hiteration] using (honce index).2
    rw [Loop.sequential, hiteration]
    split
    · exact ⟨Nat.zero_le _, by simp⟩
    · exact ⟨Nat.zero_le _, by simp⟩
    · dsimp only
      split
      · exact ⟨hlength.trans (Nat.succ_le_succ (Nat.zero_le _)), hbodies⟩
      · obtain ⟨hrest, hmem⟩ := @ih (index + 1)
        refine ⟨?_, ?_⟩
        · rw [List.length_append]
          omega
        · intro body hbody
          rcases List.mem_append.mp hbody with hbody | hbody
          · exact hbodies body hbody
          · exact hmem body hbody

theorem parallel_bodies {P : Level → Prop} (honce : loop.Once P) {order : List Nat}
    {started : Nat → Bool} {count : Nat} :
    (loop.parallel order started count).1.length ≤ count ∧
      ∀ body ∈ (loop.parallel order started count).1, P body := by
  refine ⟨?_, ?_⟩
  · rw [Loop.parallel, List.length_flatMap]
    refine (List.sum_le_card_nsmul _ 1 ?_).trans ?_
    · intro n hn
      obtain ⟨index, -, rfl⟩ := List.mem_map.mp hn
      exact (honce index).1
    · rw [List.length_map, smul_eq_mul, Nat.mul_one]
      exact (List.length_filter_le _ _).trans List.length_range.le
  · intro body hbody
    obtain ⟨index, -, hmem⟩ := List.mem_flatMap.mp hbody
    exact (honce index).2 body hmem

theorem loopOf_once (run : Fields → Place → Level) (kind : String)
    (proceeds : Nat → Except String Bool) :
    (loopOf world run path node kind proceeds).Once fun body =>
      ∃ place, body = run (bodyOf (configOf node)) place := by
  intro index
  rw [loopOf]
  dsimp only
  split
  · exact ⟨Nat.zero_le _, by simp⟩
  · exact ⟨Nat.le_refl _, fun body hbody => ⟨_, List.mem_singleton.mp hbody⟩⟩

theorem loopCap_other {variant : String} (h : variant ≠ "for_each") (requested : Value) :
    loopCap world variant requested = loopCap world "while" requested := by
  simp only [loopCap, defaultLimit, hardCap, if_neg h]
  rfl

/-- What the loop node runs. -/
theorem executeLoop_bodies (run : Fields → Place → Level) :
    (executeLoop world (some run) path node).1.length ≤ iterationLimit world node ∧
      ∀ body ∈ (executeLoop world (some run) path node).1,
        ∃ place, body = run (bodyOf (configOf node)) place := by
  have hnothing : ∀ message : String, (([], .error message) : List Level × Except String Unit).1.length ≤
      iterationLimit world node ∧ ∀ body ∈ (([], .error message) : List Level × Except String Unit).1,
        ∃ place, body = run (bodyOf (configOf node)) place :=
    fun message => ⟨Nat.zero_le _, by simp⟩
  rw [executeLoop]
  split_ifs with hbody hforEach hrepeat
  · exact hnothing _
  · rw [forEach]
    split
    · exact hnothing _
    · rename_i items _
      split
      · exact hnothing _
      · rename_i cap hcap
        have hlimit : iterationLimit world node = cap := by rw [iterationLimit, hforEach, hcap]
        have hcount : (items.take cap).length ≤ iterationLimit world node :=
          hlimit ▸ List.length_take_le _ _
        dsimp only
        split
        · obtain ⟨hlength, hmem⟩ := parallel_bodies (loopOf_once run "FOR_EACH" fun _ => .ok true)
          exact ⟨hlength.trans hcount, hmem⟩
        · obtain ⟨hlength, hmem⟩ := sequential_bodies (loopOf_once run "FOR_EACH" fun _ => .ok true)
          exact ⟨hlength.trans hcount, hmem⟩
    · exact hnothing _
  · rw [repeatLoop]
    split
    · exact hnothing _
    · split
      · exact hnothing _
      · rename_i cap hcap
        have hlimit : iterationLimit world node = cap := by
          rw [iterationLimit, hrepeat, hcap]
        obtain ⟨hlength, hmem⟩ := sequential_bodies (loopOf_once run "REPEAT" fun _ => .ok true)
        exact ⟨hlength.trans (hlimit ▸ Nat.min_le_right _ _), hmem⟩
  · rw [whileLoop]
    split
    · exact hnothing _
    · rename_i cap hcap
      have hlimit : iterationLimit world node = cap := by
        rw [iterationLimit, loopCap_other hforEach, hcap]
      obtain ⟨hlength, hmem⟩ := sequential_bodies
        (loopOf_once run "WHILE" fun index => world.condition (index :: path))
      exact ⟨hlength.trans hlimit.ge, hmem⟩

/-- No loop has more than a thousand iterations. -/
theorem iterationLimit_le : iterationLimit world node ≤ 1000 := by
  have hcap : ∀ variant n, (min (max 0 n) (hardCap variant)).toNat ≤ 1000 := by
    intro variant n
    have : hardCap variant ≤ 1000 := by
      unfold hardCap
      split_ifs <;> decide
    omega
  rw [iterationLimit]
  split
  · rename_i cap h
    unfold loopCap at h
    split at h
    · exact Except.ok.inj h ▸ hcap _ _
    · split at h
      · exact Except.ok.inj h ▸ hcap _ _
      · exact Except.ok.inj h ▸ hcap _ _
      · exact absurd h (by simp)
  · exact Nat.zero_le _

/-! ### All levels -/

theorem bounded_execute (world : World) : ∀ (remaining : Nat) (definition : Fields) (path : Place),
    Bounded world remaining (executeDefinition world remaining definition path)
  | 0, definition, path => by
    refine ⟨executeGraph_length, fun v hv => ?_⟩
    obtain ⟨place, hbodies⟩ := executeGraph_bodies hv
    rw [hbodies, executeNode]
    split_ifs <;> rfl
  | remaining + 1, definition, path => by
    refine ⟨executeGraph_length, fun v hv => ?_⟩
    obtain ⟨place, hbodies⟩ := executeGraph_bodies hv
    rw [hbodies, executeNode]
    split_ifs
    · obtain ⟨hlength, hmem⟩ := executeLoop_bodies (executeDefinition world remaining)
      refine ⟨hlength, fun body hbody => ?_⟩
      obtain ⟨path, rfl⟩ := hmem body hbody
      exact ⟨⟨path, rfl⟩, bounded_execute world remaining _ path⟩
    · exact ⟨Nat.zero_le _, by simp⟩

/-- The nodes of all levels together. -/
theorem nodeCount_le : ∀ {remaining : Nat} {level : Level}, Bounded world remaining level →
    nodeCount remaining level ≤ maxCount remaining
  | 0, level, h => h.1
  | remaining + 1, level, ⟨hlength, hvisits⟩ => by
    have hbodies : (level.visits.flatMap (·.bodies)).length ≤ maxNodes * 1000 := by
      rw [List.length_flatMap]
      refine (List.sum_le_card_nsmul _ 1000 ?_).trans ?_
      · intro n hn
        obtain ⟨v, hv, rfl⟩ := List.mem_map.mp hn
        exact (hvisits v hv).1.trans iterationLimit_le
      · rw [List.length_map, smul_eq_mul]
        exact Nat.mul_le_mul_right _ hlength
    have hsum : ((level.visits.flatMap (·.bodies)).map (nodeCount remaining)).sum ≤
        maxNodes * 1000 * maxCount remaining := by
      refine (List.sum_le_card_nsmul _ (maxCount remaining) ?_).trans ?_
      · intro n hn
        obtain ⟨body, hbody, rfl⟩ := List.mem_map.mp hn
        obtain ⟨v, hv, hmem⟩ := List.mem_flatMap.mp hbody
        exact nodeCount_le ((hvisits v hv).2 body hmem).2
      · rw [List.length_map, smul_eq_mul]
        exact Nat.mul_le_mul_right _ hbodies
    exact Nat.add_le_add hlength hsum

theorem executeDefinition_eq (definition : Fields) (path : Place) :
    executeDefinition world remaining definition path =
      executeGraph world.repr (Graph.ofDefinition definition)
        (fun place => world.cancelled (place :: path))
        (executeNode world (runner world remaining) path) := by
  cases remaining <;> rfl

theorem exceeded_stands (definition : Fields) (path : Place) :
    (executeDefinition world remaining definition path).ending = .exceeded ↔
      ∃ next, standsAtLimit world remaining definition path = some next := by
  rw [executeDefinition_eq, executeGraph, standsAtLimit]
  cases hentry : entry world.repr (Graph.ofDefinition definition) with
  | error message => simp [Level.ending]
  | ok start => exact walk_exceeded

theorem exceeded_iff (definition : Fields) (path : Place) :
    (executeDefinition world remaining definition path).ending = .exceeded ↔
      NeedsAnother world remaining definition path ∨ EndsAtLimit world remaining definition path := by
  rw [exceeded_stands]
  constructor
  · rintro ⟨_ | node, hstands⟩
    · exact Or.inr hstands
    · exact Or.inl ⟨node, hstands⟩
  · rintro (⟨node, hstands⟩ | hstands)
    · exact ⟨some node, hstands⟩
    · exact ⟨none, hstands⟩

/-- All levels of a workflow keep to the limits, and the error of the limit is raised exactly where one
    more node would be needed, unless the walk comes to its end with the last node that it may execute. -/
theorem workflow_limits_iff (world : World) (definition : Fields) :
    Bounded world maxLoopDepth (executeWorkflow world definition) ∧
      nodeCount maxLoopDepth (executeWorkflow world definition) ≤ maxCount maxLoopDepth ∧
      ∀ remaining body path,
        (((executeDefinition world remaining body path).ending = .exceeded ↔
            NeedsAnother world remaining body path) ↔ ¬ EndsAtLimit world remaining body path) := by
  have hbounded := bounded_execute world maxLoopDepth definition []
  refine ⟨hbounded, nodeCount_le hbounded, fun remaining body path => ?_⟩
  rw [exceeded_iff]
  constructor
  · intro h hends
    obtain ⟨node, hneeds⟩ := h.mp (Or.inr hends)
    exact absurd (hends.symm.trans hneeds) (by simp)
  · exact fun hends => or_iff_left hends

/-- Two nodes in a circle, which is left when the hundredth node decides so. -/
def circle : Fields :=
  [("nodes", .array [.object [("id", .string "start"), ("type", .string "trigger")],
      .object [("id", .string "check"), ("type", .string "decision")]]),
    ("edges", .array [.object [("source", .string "start"), ("target", .string "check")],
      .object [("source", .string "check"), ("sourceHandle", .string "true"), ("target", .string "start")],
      .object [("source", .string "check"), ("sourceHandle", .string "false"), ("target", .string "end")]])]

def circleWorld : World where
  repr _ := ""
  int _ := .value 0
  friendly message := message
  cancelled _ := none
  iterationCancelled _ := none
  afterCancelled _ := none
  execute place _ := .ok (place ≠ [99])
  resolve _ := .ok .null
  condition _ := .ok false
  completion _ count := List.range count
  started _ := true

/-- The walk is at its end, and the error of the limit is raised. -/
theorem ended_walk_exceeds : (executeWorkflow circleWorld circle).ending = .exceeded ∧
    EndsAtLimit circleWorld maxLoopDepth circle [] := by
  have hstands : (standsAtLimit circleWorld maxLoopDepth circle []).map Option.isSome = some false := by
    with_unfolding_all decide
  refine ⟨by with_unfolding_all decide, ?_⟩
  obtain ⟨current, hcurrent, hnone⟩ := Option.map_eq_some_iff.mp hstands
  rw [Option.isSome_eq_false_iff, Option.isNone_iff_eq_none] at hnone
  rw [EndsAtLimit, hcurrent, hnone]

end Empyralis.Server.WorkflowGraph
