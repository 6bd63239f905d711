import Empyralis.Server.Values
import Mathlib.Data.List.Basic

/-! The walk of `_execute_workflow_graph` over the nodes of a workflow.

    What a node does is left open: it raises, or it returns, and then a decision node has a value. `exec`
    is asked for the node at each place of the walk, and `cancelled` whether the run was cancelled before
    it. `str.lower` is taken for ASCII alone: no other character turns into a letter of the words it is
    compared with. -/

namespace Empyralis.Server.WorkflowGraph

/-- How a level of the graph ends; `exceeded` is the error of the limit. -/
inductive Ending where
  | finished
  | exceeded
  | raised (message : String)
  deriving DecidableEq

/-- What is said of a graph that goes on too long. -/
def exceededMessage : String := "Workflow graph exceeded the maximum node execution limit."

/-- A node that was executed, the value of a decision, and the runs of the body of a loop. -/
structure Visit (β : Type) where
  node : Fields
  decision : Option Bool
  bodies : List β

/-- What one call executes. -/
inductive Level where
  | mk (visits : List (Visit Level)) (ending : Ending)

/-- The nodes that were visited. -/
def Level.visits : Level → List (Visit Level)
  | .mk visits _ => visits

/-- How the walk ended. -/
def Level.ending : Level → Ending
  | .mk _ ending => ending

/-- The nodes and edges of a definition, as they are stored. -/
structure Graph where
  nodes : List Value
  edges : List Value

variable (repr : Value → String)

def asObject : Value → Option Fields
  | .object fields => some fields
  | _ => none

def asArray : Value → List Value
  | .array items => items
  | _ => []

/-- What is no list counts as an empty one. -/
def Graph.ofDefinition (definition : Fields) : Graph :=
  ⟨asArray (Fields.get definition "nodes"), asArray (Fields.get definition "edges")⟩

def nodeId (node : Fields) : String := (Fields.get node "id").token repr

/-- The type of a node, in lower case. -/
def nodeType (node : Fields) : String := ((Fields.get node "type").token repr).toLower

def variantOf (node : Fields) : String := ((Fields.get node "variant").token repr).toLower

/-! ### Edges -/

def target (edge : Fields) : String := (Fields.get edge "target").token repr

def sourceHandle (edge : Fields) : String := ((Fields.get edge "sourceHandle").token repr).toLower

/-- `_workflow_outgoing_edges` -/
def outgoingEdges (edges : List Value) (id : String) : List Fields :=
  (edges.filterMap asObject).filter fun edge => (Fields.get edge "source").token repr = id

/-- The target of the first edge that has one. -/
def firstTarget (edges : List Fields) : Option String := (edges.map (target repr)).find? (· ≠ "")

/-- `_workflow_next_node_id`: the edges of the handle first, and then all. -/
def nextNodeId (edges : List Value) (id : String) (preferredHandle : Option String) : Option String :=
  let outgoing := outgoingEdges repr edges id
  let preferred := preferredHandle.bind fun desired =>
    firstTarget repr (outgoing.filter fun edge => sourceHandle repr edge = desired)
  preferred.or (firstTarget repr outgoing)

/-! ### Nodes -/

variable (graph : Graph)

/-- `node_map.get`: the last node of an id. -/
def findNode (id : String) : Option Fields :=
  (graph.nodes.filterMap asObject).reverse.find? fun node => nodeId repr node = id

/-- The nodes that a walk may begin at. -/
def triggerNodes : List Fields :=
  (graph.nodes.filterMap asObject).filter fun node => nodeType repr node = "trigger"

/-- The first trigger that is not manual, the first trigger, or the first node. An empty dictionary
    starts nothing. -/
def startNode : Option Fields :=
  let triggers := triggerNodes repr graph
  let nonManual := triggers.filter fun node => variantOf repr node ≠ "manual"
  match nonManual ++ triggers with
  | node :: _ => some node
  | [] => (graph.nodes.head?.bind asObject).filter fun node => !node.isEmpty

/-- The error of a graph without nodes, or its first node. -/
def entry : Except String (Option Fields) :=
  if graph.nodes = [] then .error "Workflow definition has no nodes."
  else if ∀ node ∈ graph.nodes.filterMap asObject, nodeId repr node = "" then
    .error "Workflow definition has no usable node ids."
  else .ok (startNode repr graph)

/-- The handle of a branch. -/
def handle (value : Bool) : String := if value then "true" else "false"

def isDecision (node : Fields) : Bool := nodeType repr node = "decision"

/-- The value counts for a decision alone. -/
def decisionOf (node : Fields) (value : Bool) : Option Bool :=
  if isDecision repr node then some value else none

/-- The node after a visit. -/
def nextNode (node : Fields) (decision : Option Bool) : Option Fields :=
  (nextNodeId repr graph.edges (nodeId repr node) (decision.map handle)).bind (findNode repr graph)

/-! ### The walk -/

/-- What the nodes do: the runs of a loop's body, and the message of what is raised or the value. -/
abbrev Exec := Nat → Fields → List Level × Except String Bool

/-- The message of the error that a cancelled run raises. -/
abbrev Cancelled := Nat → Option String

variable (cancelled : Cancelled) (exec : Exec)

/-- The loop, with as many nodes as it may still execute; `place` counts those it has executed. -/
def walk : Nat → Nat → Option Fields → List (Visit Level) × Ending
  | 0, _, _ => ([], .exceeded)
  | _ + 1, _, none => ([], .finished)
  | fuel + 1, place, some node =>
    match cancelled place with
    | some message => ([], .raised message)
    | none =>
      match exec place node with
      | (bodies, .error message) => ([⟨node, none, bodies⟩], .raised message)
      | (bodies, .ok value) =>
        let decision := decisionOf repr node value
        let (visits, ending) := walk fuel (place + 1) (nextNode repr graph node decision)
        (⟨node, decision, bodies⟩ :: visits, ending)

/-- `MAX_GRAPH_NODES` -/
def maxNodes : Nat := 100

/-- `_execute_workflow_graph` -/
def executeGraph : Level :=
  match entry repr graph with
  | .error message => .mk [] (.raised message)
  | .ok start =>
    let (visits, ending) := walk repr graph cancelled exec maxNodes 0 start
    .mk visits ending

end Empyralis.Server.WorkflowGraph
