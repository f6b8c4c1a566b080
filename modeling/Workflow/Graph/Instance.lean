import Workflow.Catalog
import Workflow.Graph

/-! Nodes made from templates and from other nodes.

Every node and every port gets an identifier of its own.  Branching nodes have
one output for each route that their configuration names; a route that gains a
name gains a port, and no port is ever taken away.
-/

namespace Workflow

/-- Templates whose nodes choose their outputs by configuration, and the others
that the engine knows by name. -/
def switchTemplate : String := "switch"
def routerTemplate : String := "memory-router"
def ifTemplate : String := "if-else"
def forTemplate : String := "for-loop"
def whileTemplate : String := "while-loop"
def subflowTemplate : String := "subflow"

namespace Node

/-- The outputs that a configuration routes to: one per case of a switch, the
output of every rule and the default one of a router.  What does not have the
right shape names no output. -/
def configuredOutputs (node : Node) : List String :=
  if node.templateId = switchTemplate then
    let cases := (Fields.get? node.config "cases").bind Json.array?
    (List.range (cases.getD []).length).map fun i => s!"case{i + 1}"
  else if node.templateId = routerTemplate then
    let rules := ((Fields.get? node.config "rules").bind Json.array?).getD []
    (rules.filterMap fun rule => (rule.field? "output").bind Json.string?) ++
      (node.configText? "defaultOutput").toList
  else []

/-- Adds an output for every key that the node does not have yet. -/
def addOutputs : List String → Node → Fresh Node
  | [], node => pure node
  | key :: keys, node =>
      if (node.output? key).isSome then addOutputs keys node
      else do
        let id ← Ids.name
        let port : Port := ⟨id, key, .output, anyType, false⟩
        addOutputs keys { node with outputs := node.outputs ++ [port] }

/-- Adds the outputs that the configuration names and the node lacks. -/
def syncConfigPorts (node : Node) : Fresh Node :=
  addOutputs node.configuredOutputs node

end Node

namespace Port

def ofTemplate (template : PortTemplate) : Fresh Port := do
  let id ← Ids.name
  return ⟨id, template.key, template.direction, template.dataType, false⟩

/-- A disconnected port with the same key, direction and type. -/
def freshCopy (port : Port) : Fresh Port := do
  let id ← Ids.name
  return { port with id, connected := false }

end Port

namespace Node

/-- A new node of a template, with the configuration that the template
proposes. -/
def ofTemplate (template : Template) (position : Position) : Fresh Node := do
  let id ← Ids.name
  let inputs ← template.inputs.mapM Port.ofTemplate
  let outputs ← template.outputs.mapM Port.ofTemplate
  Node.syncConfigPorts
    { id, templateId := template.id, kind := template.kind, title := template.title
      config := template.defaultConfig, inputs, outputs, status := .idle, position }

/-- A copy of a node that is connected to nothing. -/
def duplicate (node : Node) (dx dy : Float) : Fresh Node := do
  let id ← Ids.name
  let inputs ← node.inputs.mapM Port.freshCopy
  let outputs ← node.outputs.mapM Port.freshCopy
  return { node with
    id, inputs, outputs
    title := s!"{node.title} (copy)"
    status := .idle
    position := node.position.offset dx dy }

end Node

end Workflow
