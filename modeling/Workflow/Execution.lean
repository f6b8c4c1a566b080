import Workflow.Graph
import Workflow.Instant

/-! The record of one run of a graph. -/

namespace Workflow

inductive RunStatus where
  | running
  | completed
  | failed
  | paused
deriving DecidableEq, Repr, Inhabited

def RunStatus.word : RunStatus → String
  | .running => "running"
  | .completed => "completed"
  | .failed => "failed"
  | .paused => "paused"

inductive LogLevel where
  | debug
  | info
  | warn
  | error
deriving DecidableEq, Repr, Inhabited

structure LogEntry where
  id : Uuid
  executionId : Uuid
  nodeId : Option String
  timestamp : Instant
  level : LogLevel
  message : String
  data : Option Json
deriving Repr

/-- One failure of a run; failures of the run as a whole belong to no node. -/
structure RunFailure where
  nodeId : Option String
  message : String
  timestamp : Instant
deriving DecidableEq, Repr

/-- What a run did.  `executedNodes` has an entry for each activation, in the
order in which they started; `nodeStates` has the last status of each node. -/
structure Execution where
  id : Uuid
  graphId : Uuid
  status : RunStatus
  startedAt : Instant
  finishedAt : Option Instant
  executedNodes : List String
  errors : List RunFailure
  nodeStates : Fields Status
  logs : List LogEntry
deriving Repr

namespace Execution

def start (id graphId : Uuid) (now : Instant) : Execution :=
  { id, graphId, status := .running, startedAt := now, finishedAt := none
    executedNodes := [], errors := [], nodeStates := [], logs := [] }

def setStatus (execution : Execution) (nodeId : String) (status : Status) : Execution :=
  { execution with nodeStates := Fields.insert nodeId status execution.nodeStates }

def enter (execution : Execution) (nodeId : String) : Execution :=
  { execution.setStatus nodeId .running with
    executedNodes := execution.executedNodes ++ [nodeId] }

def recordError (execution : Execution) (nodeId : Option String) (message : String)
    (now : Instant) : Execution :=
  { execution with errors := execution.errors ++ [⟨nodeId, message, now⟩] }

def log (execution : Execution) (entry : LogEntry) : Execution :=
  { execution with logs := execution.logs ++ [entry] }

/-- Closes the record: a run has failed exactly when an error was recorded. -/
def finish (execution : Execution) (now : Instant) : Execution :=
  { execution with
    status := if execution.errors.isEmpty then .completed else .failed
    finishedAt := some now }

end Execution

end Workflow
