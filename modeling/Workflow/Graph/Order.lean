import Workflow.Graph

/-! Ordering nodes so that every connection leads forward.

Nodes that no connection waits for are taken first; taking a node settles the
connections that leave it, and a node joins the queue when the last connection
to it is settled.
-/

namespace Workflow.Graph

/-- How many connections to each node are not settled yet. -/
abbrev Waiting := List (String × Int)

def Waiting.count (waiting : Waiting) (id : String) : Int :=
  (Fields.get? waiting id).getD 0

def Waiting.add (waiting : Waiting) (id : String) (amount : Int) : Waiting :=
  Fields.insert id (waiting.count id + amount) waiting

def initialWaiting (graph : Graph) : Waiting :=
  graph.connections.foldl (fun waiting connection => waiting.add connection.target.nodeId 1) []

/-- Settles the connections to the given nodes in turn.  Returns the new counts
and the nodes that have become free. -/
def settle (waiting : Waiting) : List String → Waiting × List String
  | [] => (waiting, [])
  | target :: targets =>
      let waiting := waiting.add target (-1)
      let (settled, freed) := settle waiting targets
      (settled, if waiting.count target = 0 then target :: freed else freed)

/-- Nodes that the connections leaving a node lead to, in graph order. -/
def successors (graph : Graph) (id : String) : List String :=
  (graph.connections.filter fun connection => connection.source.nodeId = id).map
    (·.target.nodeId)

/-- Takes the queue's nodes one after another.  Every node that enters the queue
later is the target of a connection settled last, so there are at most as many
rounds as nodes and connections. -/
def drain (graph : Graph) : (rounds : Nat) → Waiting → List String → List String
  | 0, _, _ => []
  | _, _, [] => []
  | rounds + 1, waiting, id :: queue =>
      let (waiting, freed) := settle waiting (graph.successors id)
      id :: drain graph rounds waiting (queue ++ freed)

/-- The ids of all nodes in an order in which every connection leads forward, or
nothing if the queue runs dry before every node was taken. -/
def order? (graph : Graph) : Option (List String) :=
  let waiting := graph.initialWaiting
  let free := (graph.nodes.map (·.id)).filter fun id => waiting.count id = 0
  let taken := graph.drain (graph.nodes.length + graph.connections.length) waiting free
  if taken.length = graph.nodes.length then some taken else none

def hasCycle (graph : Graph) : Bool :=
  graph.order?.isNone

end Workflow.Graph
