import Workflow.Document.Graph
import Workflow.Json.Form

/-! The forms of graphs and subflow definitions in texts. -/

namespace Workflow

open Json (Form)

namespace Document

def name : Form :=
  .text "a string" fun _ => none

def id : Form :=
  .text "a UUID string" fun text =>
    if (Uuid.ofText? text).isSome then none
    else some s!"UUID parsing failed: {Uuid.complaint text}"

def oneOf {α : Type} (words : List (String × α)) : Form :=
  .word (words.map (·.1))

def port : Form :=
  .record "Port"
    [ ("id", true, name), ("key", true, name), ("direction", true, oneOf Direction.words),
      ("data_type", true, name), ("connected", false, .flag)]

def position : Form :=
  .record "Position" [("x", true, .double), ("y", true, .double)]

def node : Form :=
  .record "Node"
    [ ("id", true, name), ("template_id", true, name), ("kind", true, oneOf Kind.words),
      ("title", true, name), ("config", false, .table .anything),
      ("inputs", false, .list port), ("outputs", false, .list port),
      ("status", false, oneOf Status.words), ("position", false, position)]

def endpoint : Form :=
  .record "Endpoint" [("node_id", true, name), ("port_id", true, name)]

def connection : Form :=
  .record "Connection"
    [ ("id", true, name), ("source", true, endpoint), ("target", true, endpoint),
      ("data_type", true, name)]

def graph : Form :=
  .record "Graph"
    [ ("id", true, id), ("name", true, name), ("nodes", false, .list node),
      ("connections", false, .list connection)]

def subflow : Form :=
  .record "Subflow"
    [ ("id", true, name), ("name", true, name), ("nodes", true, .list node),
      ("connections", true, .list connection), ("inputs", false, .list port),
      ("outputs", false, .list port), ("input_mapping", false, .table name),
      ("output_mapping", false, .table name), ("output_sources", false, .table name),
      ("reusable", false, .flag)]

end Document

end Workflow
