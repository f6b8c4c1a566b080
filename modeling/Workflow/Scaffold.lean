import Workflow.Editor

/-! Graphs that join templates in a row.

Every node is joined to the next one, output to input, as far as the two have
such ports: nothing leads into a trigger.
-/

namespace Workflow

namespace Editor

/-- Joins the first output of a node to the first input of another one, if they
have them. -/
def wire (editor : Editor) (source target : Node) : Fresh (Except EditError Editor) := do
  match source.outputs.head?, target.inputs.head? with
  | some output, some input =>
      return (← editor.connect source.id output.key target.id input.key).map (·.1)
  | _, _ => return .ok editor

/-- How far two neighbours of a row lie apart. -/
def rowSpacing : Float := 240.0

def rowPlace (column : Nat) : Position :=
  ⟨Float.ofNat column * rowSpacing, 0.0⟩

/-- Adds a node for each template, the first of them in the given column and
joined to the node before. -/
def addRow (editor : Editor) (before : Option Node) (column : Nat) :
    List String → Fresh (Except EditError Editor)
  | [] => return .ok editor
  | name :: rest => do
      match Catalog.find? name with
      | none => return .error (.unknownTemplate name)
      | some template =>
          let node ← Node.ofTemplate template (rowPlace column)
          let editor := (editor.insertNode node).1
          let wired ← match before with
            | none => pure (.ok editor)
            | some before => editor.wire before node
          match wired with
          | .error error => return .error error
          | .ok editor => addRow editor (some node) (column + 1) rest

end Editor

/-- A graph with a node for each of the given templates, in a row. -/
def Graph.scaffold (name : String) (templates : List String) :
    Fresh (Except EditError Graph) := do
  let editor := Editor.new ⟨← Ids.uuid, name, [], []⟩ Editor.defaultLimit
  return (← editor.addRow none 0 templates).map (·.graph)

end Workflow
