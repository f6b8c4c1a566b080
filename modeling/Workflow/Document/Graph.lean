import Workflow.Json.Record
import Workflow.Subflow

/-! Graphs, subflow definitions and templates as payload values.

`toJson` writes every field, in declared order.  `ofJson?` reads what `toJson`
writes and also fills in the defaults of fields that are left out.
-/

namespace Workflow

namespace Kind

def word : Kind → String
  | .trigger => "trigger"
  | .action => "action"
  | .condition => "condition"
  | .data => "data"

def words : List (String × Kind) :=
  [Kind.trigger, .action, .condition, .data].map fun kind => (kind.word, kind)

end Kind

namespace Category

def word : Category → String
  | .triggers => "triggers"
  | .actions => "actions"
  | .conditions => "conditions"
  | .data => "data"
  | .integrations => "integrations"
  | .ai => "ai"

def words : List (String × Category) :=
  [Category.triggers, .actions, .conditions, .data, .integrations, .ai].map
    fun category => (category.word, category)

end Category

def Direction.words : List (String × Direction) :=
  [Direction.input, .output].map fun direction => (direction.word, direction)

namespace Status

def word : Status → String
  | .idle => "idle"
  | .running => "running"
  | .success => "success"
  | .error => "error"
  | .waiting => "waiting"

def words : List (String × Status) :=
  [Status.idle, .running, .success, .error, .waiting].map fun status => (status.word, status)

end Status

def Uuid.ofJson? (value : Json) : Option Uuid :=
  value.string?.bind Uuid.ofText?

def Uuid.toJson (id : Uuid) : Json :=
  .string id.text

namespace Port

def toJson (port : Port) : Json :=
  .object
    [ ("id", .string port.id), ("key", .string port.key),
      ("direction", .string port.direction.word), ("data_type", .string port.dataType),
      ("connected", .bool port.connected)]

def ofJson? (value : Json) : Option Port := do
  let record ← Record.ofJson? ["id", "key", "direction", "data_type", "connected"] value
  return {
    id := ← record.required "id" Json.string?
    key := ← record.required "key" Json.string?
    direction := ← record.required "direction" (Json.wordOf? Direction.words)
    dataType := ← record.required "data_type" Json.string?
    connected := ← record.defaulted "connected" Json.bool? false }

end Port

namespace Position

def toJson (position : Position) : Json :=
  .object [("x", .ofFloat position.x), ("y", .ofFloat position.y)]

def ofJson? (value : Json) : Option Position := do
  let record ← Record.ofJson? ["x", "y"] value
  return {
    x := ← record.required "x" Json.double?
    y := ← record.required "y" Json.double? }

end Position

namespace Node

def toJson (node : Node) : Json :=
  .object
    [ ("id", .string node.id), ("template_id", .string node.templateId),
      ("kind", .string node.kind.word), ("title", .string node.title),
      ("config", .object node.config), ("inputs", .array (node.inputs.map Port.toJson)),
      ("outputs", .array (node.outputs.map Port.toJson)),
      ("status", .string node.status.word), ("position", node.position.toJson)]

def fieldNames : List String :=
  ["id", "template_id", "kind", "title", "config", "inputs", "outputs", "status", "position"]

def ofJson? (value : Json) : Option Node := do
  let record ← Record.ofJson? fieldNames value
  return {
    id := ← record.required "id" Json.string?
    templateId := ← record.required "template_id" Json.string?
    kind := ← record.required "kind" (Json.wordOf? Kind.words)
    title := ← record.required "title" Json.string?
    config := ← record.defaulted "config" Json.object? []
    inputs := ← record.defaulted "inputs" (Json.listOf? Port.ofJson?) []
    outputs := ← record.defaulted "outputs" (Json.listOf? Port.ofJson?) []
    status := ← record.defaulted "status" (Json.wordOf? Status.words) .idle
    position := ← record.defaulted "position" Position.ofJson? .origin }

end Node

namespace Endpoint

def toJson (endpoint : Endpoint) : Json :=
  .object [("node_id", .string endpoint.nodeId), ("port_id", .string endpoint.portId)]

def ofJson? (value : Json) : Option Endpoint := do
  let record ← Record.ofJson? ["node_id", "port_id"] value
  return {
    nodeId := ← record.required "node_id" Json.string?
    portId := ← record.required "port_id" Json.string? }

end Endpoint

namespace Connection

def toJson (connection : Connection) : Json :=
  .object
    [ ("id", .string connection.id), ("source", connection.source.toJson),
      ("target", connection.target.toJson), ("data_type", .string connection.dataType)]

def ofJson? (value : Json) : Option Connection := do
  let record ← Record.ofJson? ["id", "source", "target", "data_type"] value
  return {
    id := ← record.required "id" Json.string?
    source := ← record.required "source" Endpoint.ofJson?
    target := ← record.required "target" Endpoint.ofJson?
    dataType := ← record.required "data_type" Json.string? }

end Connection

namespace Graph

def toJson (graph : Graph) : Json :=
  .object
    [ ("id", graph.id.toJson), ("name", .string graph.name),
      ("nodes", .array (graph.nodes.map Node.toJson)),
      ("connections", .array (graph.connections.map Connection.toJson))]

def ofJson? (value : Json) : Option Graph := do
  let record ← Record.ofJson? ["id", "name", "nodes", "connections"] value
  return {
    id := ← record.required "id" Uuid.ofJson?
    name := ← record.required "name" Json.string?
    nodes := ← record.defaulted "nodes" (Json.listOf? Node.ofJson?) []
    connections := ← record.defaulted "connections" (Json.listOf? Connection.ofJson?) [] }

end Graph

namespace Mapping

def toJson (mapping : Mapping) : Json :=
  .object (mapping.mapValues .string)

def ofJson? (value : Json) : Option Mapping :=
  Json.mapOf? Json.string? value

end Mapping

namespace Subflow

def toJson (subflow : Subflow) : Json :=
  .object
    [ ("id", .string subflow.id), ("name", .string subflow.name),
      ("nodes", .array (subflow.nodes.map Node.toJson)),
      ("connections", .array (subflow.connections.map Connection.toJson)),
      ("inputs", .array (subflow.inputs.map Port.toJson)),
      ("outputs", .array (subflow.outputs.map Port.toJson)),
      ("input_mapping", subflow.inputMapping.toJson),
      ("output_mapping", subflow.outputMapping.toJson),
      ("output_sources", Mapping.toJson subflow.outputSources),
      ("reusable", .bool subflow.reusable)]

def fieldNames : List String :=
  [ "id", "name", "nodes", "connections", "inputs", "outputs", "input_mapping",
    "output_mapping", "output_sources", "reusable"]

def ofJson? (value : Json) : Option Subflow := do
  let record ← Record.ofJson? fieldNames value
  return {
    id := ← record.required "id" Json.string?
    name := ← record.required "name" Json.string?
    nodes := ← record.required "nodes" (Json.listOf? Node.ofJson?)
    connections := ← record.required "connections" (Json.listOf? Connection.ofJson?)
    inputs := ← record.defaulted "inputs" (Json.listOf? Port.ofJson?) []
    outputs := ← record.defaulted "outputs" (Json.listOf? Port.ofJson?) []
    inputMapping := ← record.defaulted "input_mapping" Mapping.ofJson? []
    outputMapping := ← record.defaulted "output_mapping" Mapping.ofJson? []
    outputSources := ← record.defaulted "output_sources" Mapping.ofJson? []
    reusable := ← record.defaulted "reusable" Json.bool? true }

end Subflow

namespace PortTemplate

def toJson (port : PortTemplate) : Json :=
  .object
    [ ("key", .string port.key), ("direction", .string port.direction.word),
      ("data_type", .string port.dataType)]

def ofJson? (value : Json) : Option PortTemplate := do
  let record ← Record.ofJson? ["key", "direction", "data_type"] value
  return {
    key := ← record.required "key" Json.string?
    direction := ← record.required "direction" (Json.wordOf? Direction.words)
    dataType := ← record.required "data_type" Json.string? }

end PortTemplate

namespace Template

def toJson (template : Template) : Json :=
  .object
    [ ("id", .string template.id), ("kind", .string template.kind.word),
      ("category", .string template.category.word), ("title", .string template.title),
      ("description", .string template.description),
      ("ports", .array (template.ports.map PortTemplate.toJson)),
      ("default_config", .object template.defaultConfig)]

def fieldNames : List String :=
  ["id", "kind", "category", "title", "description", "ports", "default_config"]

def ofJson? (value : Json) : Option Template := do
  let record ← Record.ofJson? fieldNames value
  return {
    id := ← record.required "id" Json.string?
    kind := ← record.required "kind" (Json.wordOf? Kind.words)
    category := ← record.required "category" (Json.wordOf? Category.words)
    title := ← record.required "title" Json.string?
    description := ← record.required "description" Json.string?
    ports := ← record.required "ports" (Json.listOf? PortTemplate.ofJson?)
    defaultConfig := ← record.required "default_config" Json.object? }

end Template

end Workflow
