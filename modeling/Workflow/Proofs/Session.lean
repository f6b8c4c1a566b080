import Workflow.Editor

/-! Sessions with an editor.

A command that edits, if it succeeds, commits the graph that its `Edit` leads to; so what
the edits have in common is read off them, and whatever every step of a session preserves
is preserved by the whole session.
-/

namespace Workflow

/-- Whether a command edits the graph.  The others move through the history or show
statuses. -/
def Command.edits : Command → Bool
  | .undo | .redo | .applyStatuses _ => false
  | _ => true

/-- What commands that edit make of a graph, with identifiers from a supply. -/
inductive Edit (graph : Graph) (ids : Ids) : Command → Graph → Ids → Prop where
  | add {template : Template} (listed : template ∈ Catalog.templates) (position : Position) :
      Edit graph ids (.add template.id position)
        (graph.addNode (Node.ofTemplate template position ids).1)
        (Node.ofTemplate template position ids).2
  | addSubflow (definition : Subflow) (position : Position) :
      Edit graph ids (.addSubflow definition position)
        (graph.addNode (definition.instantiate position ids).1)
        (definition.instantiate position ids).2
  | remove (id : String) : Edit graph ids (.remove id) (graph.removeNode id) ids
  | duplicate {id : String} {node : Node} (found : graph.node? id = some node) :
      Edit graph ids (.duplicate id)
        (graph.addNode (node.duplicate Editor.duplicateOffset Editor.duplicateOffset ids).1)
        (node.duplicate Editor.duplicateOffset Editor.duplicateOffset ids).2
  | configure {id : String} {node : Node} (found : graph.node? id = some node) (key : String)
      (value : Json) :
      Edit graph ids (.configure id key value)
        (graph.modifyNode id fun _ =>
          (Node.syncConfigPorts { node with config := Fields.insert key value node.config } ids).1)
        (Node.syncConfigPorts { node with config := Fields.insert key value node.config } ids).2
  | retitle (id title : String) :
      Edit graph ids (.retitle id title) (graph.modifyNode id fun node => { node with title }) ids
  | connect {sourceNode sourcePort targetNode targetPort dataType : String}
      {source target : Endpoint}
      (resolved : Editor.resolve graph sourceNode sourcePort targetNode targetPort =
        .ok (source, target, dataType)) :
      Edit graph ids (.connect sourceNode sourcePort targetNode targetPort)
        (graph.addConnection ⟨(Ids.name ids).1, source, target, dataType⟩) (Ids.name ids).2
  | disconnect (id : String) :
      Edit graph ids (.disconnect id) (graph.removeConnection id) ids

namespace Editor

variable {editor after : Editor} {command : Command} {ids later : Ids} {change : Change}

theorem perform_edits (edits : command.edits)
    (succeeds : editor.perform command ids = (.ok (after, change), later)) :
    ∃ graph, after = editor.commit graph ∧ Edit editor.graph ids command graph later := by
  cases command with
  | undo | redo | applyStatuses => contradiction
  | add template position =>
      simp only [perform, add] at succeeds
      cases found : Catalog.find? template with
      | none =>
          rw [found] at succeeds
          cases succeeds
      | some known =>
          rw [found] at succeeds
          cases succeeds
          obtain rfl : known.id = template := by simpa using List.find?_some found
          exact ⟨_, rfl, .add (List.mem_of_find?_eq_some found) position⟩
  | addSubflow definition position =>
      cases succeeds
      exact ⟨_, rfl, .addSubflow definition position⟩
  | remove id =>
      simp only [perform, remove] at succeeds
      cases found : editor.graph.node? id with
      | none =>
          rw [found] at succeeds
          cases succeeds
      | some node =>
          rw [found] at succeeds
          cases succeeds
          exact ⟨_, rfl, .remove id⟩
  | duplicate id =>
      simp only [perform, duplicate] at succeeds
      cases found : editor.graph.node? id with
      | none =>
          rw [found] at succeeds
          cases succeeds
      | some node =>
          rw [found] at succeeds
          cases succeeds
          exact ⟨_, rfl, .duplicate found⟩
  | configure id key value =>
      simp only [perform, configure] at succeeds
      cases found : editor.graph.node? id with
      | none =>
          rw [found] at succeeds
          cases succeeds
      | some node =>
          rw [found] at succeeds
          cases succeeds
          exact ⟨_, rfl, .configure found key value⟩
  | retitle id title =>
      simp only [perform, retitle] at succeeds
      cases found : editor.graph.node? id with
      | none =>
          rw [found] at succeeds
          cases succeeds
      | some node =>
          rw [found] at succeeds
          cases succeeds
          exact ⟨_, rfl, .retitle id title⟩
  | connect sourceNode sourcePort targetNode targetPort =>
      simp only [perform, connect] at succeeds
      cases resolved : resolve editor.graph sourceNode sourcePort targetNode targetPort with
      | error reason =>
          rw [resolved] at succeeds
          cases succeeds
      | ok ends =>
          rw [resolved] at succeeds
          cases succeeds
          exact ⟨_, rfl, .connect resolved⟩
  | disconnect id =>
      simp only [perform, disconnect] at succeeds
      cases found : editor.graph.connections.find? fun connection => connection.id = id with
      | none =>
          rw [found] at succeeds
          cases succeeds
      | some connection =>
          rw [found] at succeeds
          cases succeeds
          exact ⟨_, rfl, .disconnect id⟩

theorem session_preserves {holds : Editor → Ids → Prop}
    (steps : ∀ editor command ids, holds editor ids →
      holds (editor.step command ids).1 (editor.step command ids).2)
    (commands : List Command) (start : holds editor ids) :
    holds (editor.session commands ids).1 (editor.session commands ids).2 := by
  induction commands generalizing editor ids with
  | nil => exact start
  | cons command rest ih => exact ih (steps editor command ids start)

end Editor

end Workflow
