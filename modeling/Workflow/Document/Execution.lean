import Workflow.Document.Graph
import Workflow.Execution
import Workflow.Json.Printer

/-! Run records and their logs as payload values, and the log as a text of its
own. -/

namespace Workflow

def Instant.toJson (time : Instant) : Json :=
  .string time.text

def Instant.ofJson? (value : Json) : Option Instant :=
  value.string?.bind Instant.ofText?

def Json.ofOption {α : Type} (write : α → Json) : Option α → Json
  | some value => write value
  | none => .null

def RunStatus.words : List (String × RunStatus) :=
  [RunStatus.running, .completed, .failed, .paused].map fun status => (status.word, status)

namespace LogLevel

def word : LogLevel → String
  | .debug => "debug"
  | .info => "info"
  | .warn => "warn"
  | .error => "error"

def words : List (String × LogLevel) :=
  [LogLevel.debug, .info, .warn, .error].map fun level => (level.word, level)

end LogLevel

namespace LogEntry

def toJson (entry : LogEntry) : Json :=
  .object
    ([ ("id", entry.id.toJson), ("executionId", entry.executionId.toJson),
       ("nodeId", Json.ofOption .string entry.nodeId), ("timestamp", entry.timestamp.toJson),
       ("level", .string entry.level.word), ("message", .string entry.message)] ++
      match entry.data with
      | some data => [("data", data)]
      | none => [])

def ofJson? (value : Json) : Option LogEntry := do
  let record ← Record.ofJson?
    ["id", "executionId", "nodeId", "timestamp", "level", "message", "data"] value
  return {
    id := ← record.required "id" Uuid.ofJson?
    executionId := ← record.required "executionId" Uuid.ofJson?
    nodeId := ← record.optional "nodeId" Json.string?
    timestamp := ← record.required "timestamp" Instant.ofJson?
    level := ← record.required "level" (Json.wordOf? LogLevel.words)
    message := ← record.required "message" Json.string?
    data := ← record.nullable "data" some }

end LogEntry

namespace RunFailure

def toJson (failure : RunFailure) : Json :=
  .object
    [ ("node_id", Json.ofOption .string failure.nodeId), ("message", .string failure.message),
      ("timestamp", failure.timestamp.toJson)]

def ofJson? (value : Json) : Option RunFailure := do
  let record ← Record.ofJson? ["node_id", "message", "timestamp"] value
  return {
    nodeId := ← record.optional "node_id" Json.string?
    message := ← record.required "message" Json.string?
    timestamp := ← record.required "timestamp" Instant.ofJson? }

end RunFailure

namespace Execution

def toJson (execution : Execution) : Json :=
  .object
    [ ("id", execution.id.toJson), ("graph_id", execution.graphId.toJson),
      ("status", .string execution.status.word), ("started_at", execution.startedAt.toJson),
      ("finished_at", Json.ofOption Instant.toJson execution.finishedAt),
      ("executed_nodes", Json.strings execution.executedNodes),
      ("errors", .array (execution.errors.map RunFailure.toJson)),
      ("node_states", .object (execution.nodeStates.mapValues fun status => .string status.word)),
      ("logs", .array (execution.logs.map LogEntry.toJson))]

def fieldNames : List String :=
  [ "id", "graph_id", "status", "started_at", "finished_at", "executed_nodes", "errors",
    "node_states", "logs"]

def ofJson? (value : Json) : Option Execution := do
  let record ← Record.ofJson? fieldNames value
  return {
    id := ← record.required "id" Uuid.ofJson?
    graphId := ← record.required "graph_id" Uuid.ofJson?
    status := ← record.required "status" (Json.wordOf? RunStatus.words)
    startedAt := ← record.required "started_at" Instant.ofJson?
    finishedAt := ← record.optional "finished_at" Instant.ofJson?
    executedNodes := ← record.required "executed_nodes" (Json.listOf? Json.string?)
    errors := ← record.required "errors" (Json.listOf? RunFailure.ofJson?)
    nodeStates := ← record.defaulted "node_states" (Json.mapOf? (Json.wordOf? Status.words)) []
    logs := ← record.defaulted "logs" (Json.listOf? LogEntry.ofJson?) [] }

/-- The log for the outside world: an indented array of its entries. -/
def logText (execution : Execution) : String :=
  (Json.array (execution.logs.map LogEntry.toJson)).pretty 0

end Execution

end Workflow
