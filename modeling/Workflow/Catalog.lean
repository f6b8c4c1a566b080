import Workflow.Template

/-! The templates that every editor offers, in palette order. -/

namespace Workflow.Catalog

private def input (key : String) : PortTemplate :=
  ⟨key, .input, anyType⟩

private def output (key : String) (dataType : String) : PortTemplate :=
  ⟨key, .output, dataType⟩

private def outputs (keys : List String) : List PortTemplate :=
  keys.map fun key => output key anyType

def triggers : List Template :=
  [ { id := "manual-trigger", kind := .trigger, category := .triggers
      title := "Manual Trigger"
      description := "Start the workflow by hand"
      ports := outputs ["output"]
      defaultConfig := [] },
    { id := "schedule-trigger", kind := .trigger, category := .triggers
      title := "Schedule"
      description := "Start the workflow on a schedule"
      ports := outputs ["output"]
      defaultConfig := [("everyMinutes", .int 60)] },
    { id := "webhook-trigger", kind := .trigger, category := .triggers
      title := "Webhook"
      description := "Start the workflow from an incoming HTTP request"
      ports := [output "output" "object"]
      defaultConfig := [("path", .string "")] },
    { id := "memory-created", kind := .trigger, category := .triggers
      title := "Memory Created"
      description := "Fires when a new memory is stored"
      ports := [output "memory" "object"]
      defaultConfig := [] }]

/-- The template of nodes that run a definition of their own. -/
def subflow : Template :=
  { id := "subflow", kind := .action, category := .actions
    title := "Subflow"
    description := "Run a reusable subflow as a single step"
    ports := input "input" :: outputs ["output", "error"]
    defaultConfig := [("subflowId", .string "")] }

def actions : List Template :=
  [ { id := "create-note", kind := .action, category := .actions
      title := "Create Note"
      description := "Store a new note in the memory platform"
      ports := [input "input", output "note" "object"]
      defaultConfig := [("content", .string ""), ("title", .string "")] },
    { id := "send-notification", kind := .action, category := .actions
      title := "Send Notification"
      description := "Notify the user"
      ports := input "input" :: outputs ["output"]
      defaultConfig := [("message", .string "")] },
    subflow,
    { id := "http-request", kind := .action, category := .integrations
      title := "HTTP Request"
      description := "Call an external HTTP endpoint"
      ports := [input "input", output "response" "object"]
      defaultConfig := [("method", .string "GET"), ("url", .string "")] },
    { id := "ai-summarize", kind := .action, category := .ai
      title := "Summarize"
      description := "Summarize text with a language model"
      ports := [input "text", output "summary" "string"]
      defaultConfig := [("maxWords", .int 100), ("model", .string "default")] }]

def conditions : List Template :=
  [ { id := "if-else", kind := .condition, category := .conditions
      title := "If / Else"
      description := "Branch on a boolean expression"
      ports := input "input" :: outputs ["true", "false"]
      defaultConfig := [("condition", .string "true")] },
    { id := "switch", kind := .condition, category := .conditions
      title := "Switch"
      description := "Route to the first case whose value equals the input"
      ports := input "input" :: outputs ["case1", "case2", "case3", "default"]
      defaultConfig := [("cases", .array [])] },
    { id := "for-loop", kind := .condition, category := .conditions
      title := "For Each"
      description := "Run the item branch once per array element, in order"
      ports := input "input" :: outputs ["item", "complete"]
      defaultConfig := [] },
    { id := "while-loop", kind := .condition, category := .conditions
      title := "While"
      description := "Repeat the loop branch while an expression holds"
      ports := input "input" :: outputs ["loop", "exit"]
      defaultConfig := [("condition", .string "false"), ("maxIterations", .int 100)] },
    { id := "memory-router", kind := .condition, category := .conditions
      title := "Memory Router"
      description := "Route a memory by the first matching rule"
      ports := input "memory" :: outputs ["important", "archive", "default"]
      defaultConfig := [("defaultOutput", .string "default"), ("rules", .array [])] }]

def dataNodes : List Template :=
  [ { id := "set-fields", kind := .data, category := .data
      title := "Set Fields"
      description := "Merge fixed values into the payload"
      ports := input "input" :: outputs ["output"]
      defaultConfig := [("values", .object [])] },
    { id := "counter", kind := .data, category := .data
      title := "Counter"
      description := "Increment a numeric payload field"
      ports := input "input" :: outputs ["output"]
      defaultConfig := [("by", .int 1), ("field", .string "count")] },
    { id := "log", kind := .data, category := .data
      title := "Log"
      description := "Write the payload to the run log and pass it on"
      ports := input "input" :: outputs ["output"]
      defaultConfig := [] }]

def templates : List Template :=
  triggers ++ actions ++ conditions ++ dataNodes

def find? (id : String) : Option Template :=
  templates.find? fun template => template.id = id

def inCategory (category : Category) : List Template :=
  templates.filter fun template => template.category = category

end Workflow.Catalog
