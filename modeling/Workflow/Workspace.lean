import Workflow.Editor

/-! Commands step by step.

A workspace is what commands work on: a graph and its history, a supply of
identifiers, and what the subscribers have been told.  Here a command looks up
what it needs, notes the state for undoing, changes the graph and tells the
subscribers, one step after another.  A step that fails ends the command but
takes nothing back: what the steps before it did stays done.
-/

namespace Workflow

structure Workspace where
  graph : Graph
  history : History Snapshot
  ids : Ids
  told : List Change

namespace Workspace

def editor (workspace : Workspace) : Editor :=
  ⟨workspace.graph, workspace.history⟩

/-- Steps on a workspace; one that fails leaves it as it is by then. -/
abbrev Task (α : Type) := ExceptT EditError (StateM Workspace) α

namespace Task

variable {α : Type}

def require (found : Option α) (error : EditError) : Task α :=
  match found with
  | some value => return value
  | none => throw error

/-- Takes identifiers from the supply. -/
def draw (fresh : Fresh α) : Task α :=
  modifyGet fun workspace =>
    let (value, ids) := fresh workspace.ids
    (value, { workspace with ids })

/-- Notes the state of the graph, so that what follows can be undone. -/
def checkpoint : Task Unit :=
  modify fun workspace =>
    { workspace with history := workspace.history.record workspace.graph.snapshot }

def alter (f : Graph → Graph) : Task Unit :=
  modify fun workspace => { workspace with graph := f workspace.graph }

def tell (change : Change) : Task Change := do
  modify fun workspace => { workspace with told := workspace.told ++ [change] }
  return change

/-- Goes to a state of the history, if there is one to go to. -/
def travel (way : History Snapshot → Snapshot → Option (Snapshot × History Snapshot))
    (error : EditError) : Task Change := do
  let workspace ← get
  let (state, history) ← require (way workspace.history workspace.graph.snapshot) error
  modify fun workspace => { workspace with history }
  alter (·.restore state)
  tell .restored

/-- The steps of a command. -/
def ofCommand : Command → Task Change
  | .add template position => do
      let template ← require (Catalog.find? template) (.unknownTemplate template)
      checkpoint
      let node ← draw (Node.ofTemplate template position)
      alter (·.addNode node)
      tell (.nodeAdded node.id)
  | .addSubflow definition position => do
      let node ← draw (definition.instantiate position)
      checkpoint
      alter (·.addNode node)
      tell (.nodeAdded node.id)
  | .remove id => do
      let node ← require ((← get).graph.node? id) (.nodeNotFound id)
      checkpoint
      alter fun graph => { graph with nodes := graph.nodes.eraseP fun node => node.id = id }
      alter fun graph =>
        { graph with connections := graph.connections.filter fun connection =>
            !connection.touches id }
      alter (·.refreshFlags)
      tell (.nodeRemoved node)
  | .duplicate id => do
      let node ← require ((← get).graph.node? id) (.nodeNotFound id)
      let copy ← draw (node.duplicate Editor.duplicateOffset Editor.duplicateOffset)
      checkpoint
      alter (·.addNode copy)
      tell (.nodeAdded copy.id)
  | .configure id key value => do
      let node ← require ((← get).graph.node? id) (.nodeNotFound id)
      checkpoint
      let configured ←
        draw (Node.syncConfigPorts { node with config := Fields.insert key value node.config })
      alter (·.modifyNode id fun _ => configured)
      tell (.nodeUpdated id)
  | .retitle id title => do
      let _ ← require ((← get).graph.node? id) (.nodeNotFound id)
      checkpoint
      alter (·.modifyNode id fun node => { node with title })
      tell (.nodeUpdated id)
  | .connect sourceNode sourcePort targetNode targetPort => do
      match Editor.resolve (← get).graph sourceNode sourcePort targetNode targetPort with
      | .error reason => throw (.cannotJoin reason)
      | .ok (source, target, dataType) =>
          let connection : Connection := ⟨← draw Ids.name, source, target, dataType⟩
          checkpoint
          alter fun graph => { graph with connections := graph.connections ++ [connection] }
          alter (·.markConnected source)
          alter (·.markConnected target)
          tell (.connected connection)
  | .disconnect id => do
      let connection ←
        require ((← get).graph.connections.find? fun connection => connection.id = id)
          (.connectionNotFound id)
      checkpoint
      alter fun graph =>
        { graph with connections := graph.connections.eraseP fun connection =>
            connection.id = id }
      alter (·.refreshFlags)
      tell (.disconnected connection)
  | .undo => travel History.undo .nothingToUndo
  | .redo => travel History.redo .nothingToRedo
  | .applyStatuses statuses => do
      alter (·.setStatuses statuses)
      tell .statusesApplied

end Task

/-- What comes of a command, and the workspace after its steps, however many of
them it took. -/
def carryOut (workspace : Workspace) (command : Command) : Except EditError Change × Workspace :=
  Task.ofCommand command workspace

end Workspace

end Workflow
