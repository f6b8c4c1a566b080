import Workflow.Document.Execution
import Workflow.Storage

/-! Graphs, execution records and libraries of subflows in the tables of a
storage. -/

namespace Workflow

inductive LoadError where
  | graphNotFound (id : Uuid)
  | storage (error : StorageError)
  | misfit
deriving DecidableEq, Repr

def LoadError.message : LoadError → String
  | .graphNotFound id => s!"graph '{id.text}' has no stored definition"
  | .storage error => s!"database error: {error.message}"
  | .misfit => "serialization error: the stored value does not fit"

namespace Storage

def reading {α : Type} (read : Json → Option α) (value : Json) : Except LoadError α :=
  match read value with
  | some document => .ok document
  | none => .error .misfit

variable (storage : Storage)

def storeGraph (graph : Graph) (now : Instant) : Storage :=
  (storage.saveGraph graph.id graph.name graph.toJson now).2

def loadGraph (id : Uuid) : Except LoadError Graph :=
  match storage.graph id with
  | .error .rowNotFound => .error (.graphNotFound id)
  | .ok row => reading Graph.ofJson? row.definition

def storeExecution (execution : Execution) : Storage :=
  storage.insertExecution
    { id := execution.id
      graphId := execution.graphId
      status := execution.status.word
      startedAt := execution.startedAt
      finishedAt := execution.finishedAt
      record := execution.toJson }

def loadExecution (id : Uuid) : Except LoadError Execution :=
  match storage.execution id with
  | .error error => .error (.storage error)
  | .ok row => reading Execution.ofJson? row.record

/-- The records of one graph, as `listExecutions` orders them. -/
def executionsOf (graphId : Uuid) : Except LoadError (List Execution) :=
  (storage.listExecutions graphId).mapM fun row => reading Execution.ofJson? row.record

def storeSubflow (definition : Subflow) (now : Instant) : Storage :=
  storage.saveSubflow
    { id := definition.id
      name := definition.name
      reusable := definition.reusable
      definition := definition.toJson
      updatedAt := now }

def storeLibrary (library : Library) (now : Instant) : Storage :=
  library.foldl (fun storage entry => storage.storeSubflow entry.2 now) storage

/-- A library of all stored definitions, under the ids in the definitions. -/
def loadLibrary : Except LoadError Library := do
  let definitions ← storage.listSubflows.mapM fun row => reading Subflow.ofJson? row.definition
  return definitions.foldl Library.register []

end Storage

end Workflow
