import Workflow.Graph.Joining
import Workflow.History
import Workflow.Subflow

/-! Editing a graph.

A command changes the graph of an editor or fails; an editor that failed to do
something is as it was before.  What a command changed can be undone.  Statuses
that come from runs are not edits: they are never undone alone.
-/

namespace Workflow

/-- What can be undone: everything but the identity and the name of a graph. -/
structure Snapshot where
  nodes : List Node
  connections : List Connection
deriving Repr

def Graph.snapshot (graph : Graph) : Snapshot :=
  ⟨graph.nodes, graph.connections⟩

def Graph.restore (graph : Graph) (snapshot : Snapshot) : Graph :=
  { graph with nodes := snapshot.nodes, connections := snapshot.connections }

structure Editor where
  graph : Graph
  history : History Snapshot
deriving Repr

inductive Change where
  | nodeAdded (nodeId : String)
  | nodeRemoved (node : Node)
  | nodeUpdated (nodeId : String)
  | connected (connection : Connection)
  | disconnected (connection : Connection)
  | restored
  | statusesApplied
deriving Repr

inductive EditError where
  | unknownTemplate (template : String)
  | nodeNotFound (nodeId : String)
  | connectionNotFound (connectionId : String)
  | cannotJoin (reason : JoinError)
  | nothingToUndo
  | nothingToRedo
deriving DecidableEq, Repr

def EditError.message : EditError → String
  | .unknownTemplate template => s!"unknown node template '{template}'"
  | .nodeNotFound nodeId => s!"node '{nodeId}' not found"
  | .connectionNotFound connectionId => s!"no connection '{connectionId}'"
  | .cannotJoin reason => reason.message
  | .nothingToUndo => "nothing to undo"
  | .nothingToRedo => "nothing to redo"

namespace Graph

/-- The port that a reference stands for on the node with the given id. -/
def portOf (graph : Graph) (nodeId reference : String) : Except JoinError Port :=
  match graph.node? nodeId with
  | none => .error (.unknownNode nodeId)
  | some node =>
      match node.port? reference with
      | none => .error (.unknownPort nodeId reference)
      | some port => .ok port

/-- Marks the port at an end of a new connection. -/
def markConnected (graph : Graph) (endpoint : Endpoint) : Graph :=
  graph.modifyNode endpoint.nodeId fun node =>
    node.mapPorts fun port =>
      if port.id = endpoint.portId then { port with connected := true } else port

def addNode (graph : Graph) (node : Node) : Graph :=
  { graph with nodes := graph.nodes ++ [node] }

/-- Adds a connection and marks the ports at its ends. -/
def addConnection (graph : Graph) (connection : Connection) : Graph :=
  ({ graph with connections := graph.connections ++ [connection] }.markConnected
    connection.source).markConnected connection.target

/-- Takes the first node with the given id out, and every connection to it. -/
def removeNode (graph : Graph) (id : String) : Graph :=
  refreshFlags
    { graph with
      nodes := graph.nodes.eraseP fun node => node.id = id
      connections := graph.connections.filter fun connection => !connection.touches id }

/-- Takes the first connection with the given id out. -/
def removeConnection (graph : Graph) (id : String) : Graph :=
  refreshFlags
    { graph with connections := graph.connections.eraseP fun connection => connection.id = id }

/-- Sets the statuses of the nodes that the graph has. -/
def setStatuses (graph : Graph) (statuses : Fields Status) : Graph :=
  statuses.foldl
    (fun graph entry => graph.modifyNode entry.1 fun node => { node with status := entry.2 })
    graph

end Graph

/-- What an editor can be asked to do.  Ports are named by id or by key. -/
inductive Command where
  | add (template : String) (position : Position)
  | addSubflow (definition : Subflow) (position : Position)
  | remove (node : String)
  | duplicate (node : String)
  | configure (node key : String) (value : Json)
  | retitle (node title : String)
  | connect (sourceNode sourcePort targetNode targetPort : String)
  | disconnect (connection : String)
  | undo
  | redo
  | applyStatuses (statuses : Fields Status)

namespace Editor

/-- The number of steps that can be undone unless another one is given. -/
def defaultLimit : Nat := 100

def new (graph : Graph) (limit : Nat) : Editor :=
  ⟨graph, .empty limit⟩

/-- How far a copy of a node lies from the node itself, in both directions. -/
def duplicateOffset : Float := 40.0

def commit (editor : Editor) (graph : Graph) : Editor :=
  ⟨graph, editor.history.record editor.graph.snapshot⟩

def insertNode (editor : Editor) (node : Node) : Editor × Change :=
  (editor.commit (editor.graph.addNode node), .nodeAdded node.id)

/-- Adds a node of a template of the catalog. -/
def add (editor : Editor) (template : String) (position : Position) :
    Fresh (Except EditError (Editor × Change)) := do
  match Catalog.find? template with
  | none => return .error (.unknownTemplate template)
  | some template => return .ok (editor.insertNode (← Node.ofTemplate template position))

def addSubflow (editor : Editor) (definition : Subflow) (position : Position) :
    Fresh (Except EditError (Editor × Change)) := do
  return .ok (editor.insertNode (← definition.instantiate position))

def remove (editor : Editor) (id : String) : Except EditError (Editor × Change) :=
  match editor.graph.node? id with
  | none => .error (.nodeNotFound id)
  | some node => .ok (editor.commit (editor.graph.removeNode id), .nodeRemoved node)

def duplicate (editor : Editor) (id : String) : Fresh (Except EditError (Editor × Change)) := do
  match editor.graph.node? id with
  | none => return .error (.nodeNotFound id)
  | some node => return .ok (editor.insertNode (← node.duplicate duplicateOffset duplicateOffset))

/-- Sets a key of a node's configuration, and adds the outputs it asks for. -/
def configure (editor : Editor) (id key : String) (value : Json) :
    Fresh (Except EditError (Editor × Change)) := do
  match editor.graph.node? id with
  | none => return .error (.nodeNotFound id)
  | some node =>
      let configured ←
        Node.syncConfigPorts { node with config := Fields.insert key value node.config }
      let graph := editor.graph.modifyNode id fun _ => configured
      return .ok (editor.commit graph, .nodeUpdated id)

def retitle (editor : Editor) (id title : String) : Except EditError (Editor × Change) :=
  match editor.graph.node? id with
  | none => .error (.nodeNotFound id)
  | some _ =>
      let graph := editor.graph.modifyNode id fun node => { node with title }
      .ok (editor.commit graph, .nodeUpdated id)

/-- The ends of a new connection and the type it carries. -/
def resolve (graph : Graph) (sourceNode sourcePort targetNode targetPort : String) :
    Except JoinError (Endpoint × Endpoint × String) := do
  let source ← graph.portOf sourceNode sourcePort
  let target ← graph.portOf targetNode targetPort
  source.checkJoin targetNode target
  return (⟨sourceNode, source.id⟩, ⟨targetNode, target.id⟩, source.joinedType target)

def connect (editor : Editor) (sourceNode sourcePort targetNode targetPort : String) :
    Fresh (Except EditError (Editor × Change)) := do
  match resolve editor.graph sourceNode sourcePort targetNode targetPort with
  | .error reason => return .error (.cannotJoin reason)
  | .ok (source, target, dataType) =>
      let connection : Connection := ⟨← Ids.name, source, target, dataType⟩
      return .ok (editor.commit (editor.graph.addConnection connection), .connected connection)

def disconnect (editor : Editor) (id : String) : Except EditError (Editor × Change) :=
  match editor.graph.connections.find? fun connection => connection.id = id with
  | none => .error (.connectionNotFound id)
  | some connection =>
      .ok (editor.commit (editor.graph.removeConnection id), .disconnected connection)

/-- Goes back to the state before the last edit. -/
def undo (editor : Editor) : Except EditError (Editor × Change) :=
  match editor.history.undo editor.graph.snapshot with
  | none => .error .nothingToUndo
  | some (before, history) => .ok (⟨editor.graph.restore before, history⟩, .restored)

/-- Goes forward to the state that was undone last. -/
def redo (editor : Editor) : Except EditError (Editor × Change) :=
  match editor.history.redo editor.graph.snapshot with
  | none => .error .nothingToRedo
  | some (after, history) => .ok (⟨editor.graph.restore after, history⟩, .restored)

def applyStatuses (editor : Editor) (statuses : Fields Status) : Editor × Change :=
  ({ editor with graph := editor.graph.setStatuses statuses }, .statusesApplied)

def perform (editor : Editor) : Command → Fresh (Except EditError (Editor × Change))
  | .add template position => editor.add template position
  | .addSubflow definition position => editor.addSubflow definition position
  | .remove node => pure (editor.remove node)
  | .duplicate node => editor.duplicate node
  | .configure node key value => editor.configure node key value
  | .retitle node title => pure (editor.retitle node title)
  | .connect sourceNode sourcePort targetNode targetPort =>
      editor.connect sourceNode sourcePort targetNode targetPort
  | .disconnect connection => pure (editor.disconnect connection)
  | .undo => pure editor.undo
  | .redo => pure editor.redo
  | .applyStatuses statuses => pure (.ok (editor.applyStatuses statuses))

/-- Does what a command says, or nothing if it fails. -/
def step (editor : Editor) (command : Command) : Fresh Editor := do
  match ← editor.perform command with
  | .ok (editor, _) => return editor
  | .error _ => return editor

/-- Does what a list of commands says, one after another. -/
def session (editor : Editor) (commands : List Command) : Fresh Editor :=
  commands.foldlM step editor

end Editor

end Workflow
