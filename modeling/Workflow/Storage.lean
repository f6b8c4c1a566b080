import Workflow.Instant
import Workflow.Json
import Workflow.Uuid

/-! Tables of stored documents.

There are tables of graphs, of execution records and of subflow definitions.  A
row holds its document as a payload value, and a table has at most one row for
an identifier.
-/

namespace Workflow

structure GraphRow where
  id : Uuid
  name : String
  definition : Json
  createdAt : Instant
  updatedAt : Instant
deriving Repr

structure ExecutionRow where
  id : Uuid
  graphId : Uuid
  status : String
  startedAt : Instant
  finishedAt : Option Instant
  record : Json
deriving Repr

structure SubflowRow where
  id : String
  name : String
  reusable : Bool
  definition : Json
  updatedAt : Instant
deriving Repr

/-- The tables.  The graph written last stands in front of the others, the
execution record written last behind them; definitions lie by their ids. -/
structure Storage where
  graphs : List GraphRow
  executions : List ExecutionRow
  subflows : Fields SubflowRow

inductive StorageError where
  | rowNotFound
deriving DecidableEq, Repr

def StorageError.message : StorageError → String
  | .rowNotFound => "row not found"

namespace Storage

def empty : Storage :=
  ⟨[], [], []⟩

/-- What a look-up gives, or that there is no such row. -/
def found {α : Type} : Option α → Except StorageError α
  | some row => .ok row
  | none => .error .rowNotFound

variable (storage : Storage)

def graph? (id : Uuid) : Option GraphRow :=
  storage.graphs.find? fun row => row.id = id

def graph (id : Uuid) : Except StorageError GraphRow :=
  found (storage.graph? id)

/-- Writes a graph.  One that is written again keeps the time of its
creation. -/
def saveGraph (id : Uuid) (name : String) (definition : Json) (now : Instant) :
    GraphRow × Storage :=
  let createdAt := match storage.graph? id with
    | some earlier => earlier.createdAt
    | none => now
  let row : GraphRow := ⟨id, name, definition, createdAt, now⟩
  let others := storage.graphs.filter fun other => other.id ≠ id
  (row, { storage with graphs := row :: others })

def listGraphs : List GraphRow :=
  storage.graphs.mergeSort fun a b => b.createdAt.le a.createdAt

def deleteGraph (id : Uuid) : Except StorageError Storage :=
  match storage.graph? id with
  | none => .error .rowNotFound
  | some _ => .ok { storage with graphs := storage.graphs.filter fun row => row.id ≠ id }

def execution? (id : Uuid) : Option ExecutionRow :=
  storage.executions.find? fun row => row.id = id

def execution (id : Uuid) : Except StorageError ExecutionRow :=
  found (storage.execution? id)

/-- Writes a record behind all others, in place of an earlier one with its id. -/
def insertExecution (row : ExecutionRow) : Storage :=
  let others := storage.executions.filter fun other => other.id ≠ row.id
  { storage with executions := others ++ [row] }

/-- The records of one graph, those started last first, and of those that
started together the one written first. -/
def listExecutions (graphId : Uuid) : List ExecutionRow :=
  (storage.executions.filter fun row => row.graphId = graphId).mergeSort
    fun a b => b.startedAt.le a.startedAt

def subflow (id : String) : Except StorageError SubflowRow :=
  found (Fields.get? storage.subflows id)

def saveSubflow (row : SubflowRow) : Storage :=
  { storage with subflows := Fields.insert row.id row storage.subflows }

def listSubflows : List SubflowRow :=
  (storage.subflows.map (·.2)).mergeSort fun a b => !decide (b.name < a.name)

end Storage

end Workflow
