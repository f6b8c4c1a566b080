import Workflow.Graph.Joining
import Workflow.Graph.Order

/-! Whether a graph can be run.

Node ids are unique, every connection joins ports that exist and may be joined,
and no input has two connections.  Cycles are allowed.
-/

namespace Workflow

/-- The end of a connection that a complaint is about. -/
inductive Side where
  | source
  | target
deriving DecidableEq, Repr

def Side.word : Side → String
  | .source => "source"
  | .target => "target"

inductive GraphError where
  | duplicateNode (nodeId : String)
  | unknownNode (connectionId nodeId : String) (side : Side)
  | unknownPort (connectionId nodeId portId : String)
  | badConnection (connectionId : String) (reason : JoinError)
deriving DecidableEq, Repr

def GraphError.message : GraphError → String
  | .duplicateNode nodeId => s!"duplicate node ID: '{nodeId}'"
  | .unknownNode connectionId nodeId side =>
      s!"connection '{connectionId}' references unknown node '{nodeId}' ({side.word} side)"
  | .unknownPort connectionId nodeId portId =>
      s!"connection '{connectionId}' references unknown port '{portId}' on node '{nodeId}'"
  | .badConnection connectionId reason =>
      s!"connection '{connectionId}' is invalid: {reason.message}"

namespace Graph

/-- What a check learns about a graph that can be run. -/
structure Report where
  triggers : List String
  hasCycle : Bool
deriving DecidableEq, Repr

/-- The first id that occurs again later, at its second place. -/
def firstRepeated? (seen : List String) : List String → Option String
  | [] => none
  | id :: rest => if id ∈ seen then some id else firstRepeated? (id :: seen) rest

/-- The port at one end of a connection; ids are looked for among the outputs
at the source and among the inputs at the target. -/
def endpointPort (graph : Graph) (connection : Connection) (side : Side) :
    Except GraphError Port :=
  let endpoint := match side with
    | .source => connection.source
    | .target => connection.target
  match graph.node? endpoint.nodeId with
  | none => .error (.unknownNode connection.id endpoint.nodeId side)
  | some node =>
      let ports := match side with
        | .source => node.outputs
        | .target => node.inputs
      match ports.find? fun port => port.id = endpoint.portId with
      | none => .error (.unknownPort connection.id endpoint.nodeId endpoint.portId)
      | some port => .ok port

/-- Checks one connection; `taken` holds the targets of those before it. -/
def checkConnection (graph : Graph) (taken : List Endpoint) (connection : Connection) :
    Except GraphError Unit := do
  let source ← graph.endpointPort connection .source
  let target ← graph.endpointPort connection .target
  if connection.target ∈ taken then
    .error (.badConnection connection.id
      (.inputTaken connection.target.nodeId connection.target.portId))
  else
    (source.checkJoin connection.target.nodeId { target with connected := false }).mapError
      (.badConnection connection.id)

/-- Checks connections in graph order, up to the first that fails. -/
def checkConnections (graph : Graph) :
    List Endpoint → List Connection → Except GraphError Unit
  | _, [] => .ok ()
  | taken, connection :: rest => do
      graph.checkConnection taken connection
      checkConnections graph (connection.target :: taken) rest

def check (graph : Graph) : Except GraphError Report :=
  match firstRepeated? [] (graph.nodes.map (·.id)) with
  | some id => .error (.duplicateNode id)
  | none => do
      graph.checkConnections [] graph.connections
      return ⟨graph.triggers, graph.hasCycle⟩

end Graph

end Workflow
