import Workflow.Graph.Instance

/-! Subflows: graphs that other graphs use as a single node.

A definition declares the ports of the nodes that stand for it, how the fields
of the payload are renamed on the way in and out, and which nodes of its body
fire which of its outputs.
-/

namespace Workflow

/-- The output of a subflow node that takes the failures of its body. -/
def errorPort : String := "error"

/-- New names for fields, in the order of the old ones. -/
abbrev Mapping := Fields String

/-- `outputSources` names, for a declared output, the body node at which a run
has to end for the output to fire; an output without one always fires. -/
structure Subflow where
  id : String
  name : String
  nodes : List Node
  connections : List Connection
  inputs : List Port
  outputs : List Port
  inputMapping : Mapping
  outputMapping : Mapping
  outputSources : Fields String
  reusable : Bool
deriving Repr

namespace Mapping

/-- Renames one field, if it is there; a field of the new name is replaced. -/
def renameField (fields : Fields Json) (old new : String) : Fields Json :=
  match Fields.get? fields old with
  | some value => Fields.insert new value (Fields.erase fields old)
  | none => fields

/-- Renames the fields of an object, one entry of the mapping after another.
Other values stay as they are. -/
def apply (mapping : Mapping) : Json → Json
  | .object fields =>
      .object (mapping.foldl (fun fields entry => renameField fields entry.1 entry.2) fields)
  | value => value

end Mapping

namespace Subflow

def toGraph (subflow : Subflow) (id : Uuid) : Graph :=
  ⟨id, subflow.name, subflow.nodes, subflow.connections⟩

/-- Outputs that a definition declares beside the one for failures. -/
def declaredOutputs (subflow : Subflow) : List Port :=
  subflow.outputs.filter fun port => port.key != errorPort

/-- New ports with the keys and types of others. -/
def copiesFor (direction : Direction) (ports : List Port) : Fresh (List Port) :=
  ports.mapM fun port => do
    let copy ← port.freshCopy
    return { copy with direction }

/-- A node that stands for the definition: one of the subflow template, with the
declared ports in place of those of the template.  The output for failures
always stays. -/
def instantiate (subflow : Subflow) (position : Position) : Fresh Node := do
  let node ← Node.ofTemplate Catalog.subflow position
  let inputs ←
    if subflow.inputs.isEmpty then pure node.inputs else copiesFor .input subflow.inputs
  let outputs ←
    if subflow.outputs.isEmpty then pure node.outputs
    else do
      let declared ← copiesFor .output subflow.declaredOutputs
      pure (declared ++ (node.output? errorPort).toList)
  return { node with
    title := subflow.name
    config := Fields.insert "subflowId" (.string subflow.id) node.config
    inputs, outputs }

end Subflow

abbrev Library := Fields Subflow

/-- Adds a definition, in place of an earlier one with its id. -/
def Library.register (library : Library) (subflow : Subflow) : Library :=
  Fields.insert subflow.id subflow library

end Workflow
