import Workflow.Template
import Workflow.Uuid

/-! Graphs: nodes with ports, and connections from output to input ports.

A node refers to the template it was made from by name only; its ports and its
configuration are its own.
-/

namespace Workflow

/-- A connection point of a node.  `connected` repeats what the connections of
the graph say. -/
structure Port where
  id : String
  key : String
  direction : Direction
  dataType : String
  connected : Bool
deriving DecidableEq, Repr, Inhabited

def Port.acceptsAny (port : Port) : Bool :=
  port.dataType = anyType

inductive Status where
  | idle
  | running
  | success
  | error
  | waiting
deriving DecidableEq, Repr, Inhabited

structure Position where
  x : Float
  y : Float
deriving DecidableEq, Repr, Inhabited

def Position.origin : Position :=
  ⟨0.0, 0.0⟩

def Position.offset (position : Position) (dx dy : Float) : Position :=
  ⟨position.x + dx, position.y + dy⟩

structure Node where
  id : String
  templateId : String
  kind : Kind
  title : String
  config : Fields Json
  inputs : List Port
  outputs : List Port
  status : Status
  position : Position
deriving Repr, Inhabited

namespace Node

def ports (node : Node) : List Port :=
  node.inputs ++ node.outputs

def output? (node : Node) (key : String) : Option Port :=
  node.outputs.find? fun port => port.key = key

def input? (node : Node) (key : String) : Option Port :=
  node.inputs.find? fun port => port.key = key

/-- A port by its id or, failing that, by its key. -/
def port? (node : Node) (reference : String) : Option Port :=
  match node.ports.find? fun port => port.id = reference with
  | some port => some port
  | none => node.ports.find? fun port => port.key = reference

def configText? (node : Node) (key : String) : Option String :=
  (Fields.get? node.config key).bind Json.string?

def outputKeys (node : Node) : List String :=
  node.outputs.map (·.key)

def mapPorts (f : Port → Port) (node : Node) : Node :=
  { node with inputs := node.inputs.map f, outputs := node.outputs.map f }

end Node

structure Endpoint where
  nodeId : String
  portId : String
deriving DecidableEq, Repr, Inhabited

structure Connection where
  id : String
  source : Endpoint
  target : Endpoint
  dataType : String
deriving DecidableEq, Repr, Inhabited

def Connection.touches (connection : Connection) (nodeId : String) : Bool :=
  connection.source.nodeId = nodeId || connection.target.nodeId = nodeId

structure Graph where
  id : Uuid
  name : String
  nodes : List Node
  connections : List Connection
deriving Repr, Inhabited

namespace Graph

def node? (graph : Graph) (id : String) : Option Node :=
  graph.nodes.find? fun node => node.id = id

def triggers (graph : Graph) : List String :=
  (graph.nodes.filter fun node => node.kind = .trigger).map (·.id)

/-- Ids of the nodes that no connection leads to. -/
def roots (graph : Graph) : List String :=
  (graph.nodes.filter fun node =>
    !graph.connections.any fun connection => connection.target.nodeId = node.id).map (·.id)

def outgoing (graph : Graph) (source : Endpoint) : List Connection :=
  graph.connections.filter fun connection => connection.source = source

/-- Whether some connection has the endpoint as one of its ends. -/
def uses (graph : Graph) (endpoint : Endpoint) : Bool :=
  graph.connections.any fun connection =>
    connection.source = endpoint || connection.target = endpoint

def modifyNode (graph : Graph) (id : String) (f : Node → Node) : Graph :=
  let rec go : List Node → List Node
    | [] => []
    | node :: rest => if node.id = id then f node :: rest else node :: go rest
  { graph with nodes := go graph.nodes }

/-- Makes every `connected` flag say what the connections say. -/
def refreshFlags (graph : Graph) : Graph :=
  { graph with
    nodes := graph.nodes.map fun node =>
      node.mapPorts fun port => { port with connected := graph.uses ⟨node.id, port.id⟩ } }

end Graph

end Workflow
