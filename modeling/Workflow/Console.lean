import Workflow.CommandLine
import Workflow.Delegate.Builtin
import Workflow.Document.Form
import Workflow.Json.Reader
import Workflow.Scaffold
import Workflow.Scheduler
import Workflow.Settings

/-! Doing what the command line asks for.

The console is all that a task sees of the outside: files by name, and lines for
the two streams of output.  A task ends with an exit code, or with a schedule
that the caller has to watch.
-/

namespace Workflow

/-- Reading and writing files, which may fail for a reason, and writing lines. -/
structure Console (m : Type → Type) where
  read : (file : String) → m (Except String String)
  write : (file content : String) → m (Except String Unit)
  say : String → m Unit
  complain : String → m Unit

/-- Why a task is given up, and what lies behind that. -/
structure Trouble where
  message : String
  cause : Option String

/-- The lines that tell of a trouble; those of the cause are indented. -/
def Trouble.lines (trouble : Trouble) : List String :=
  s!"Error: {trouble.message}" ::
    match trouble.cause with
    | some cause => ["", "Caused by:"] ++ (cause.splitOn "\n").map fun line => s!"    {line}"
    | none => []

inductive TaskEnd where
  | code (exit : Nat)
  | watch (engine : Engine) (scheduler : Scheduler) (station : Station) (tickSeconds : Nat)

namespace Console

variable {m : Type → Type} [Monad m]

abbrev Part (m : Type → Type) (α : Type) := ExceptT Trouble m α

def giveUp {α : Type} (message : String) (cause : Option String) : Part m α :=
  throw ⟨message, cause⟩

def content (console : Console m) (file : String) : Part m String := do
  match ← console.read file with
  | .ok content => return content
  | .error reason => giveUp s!"cannot read file {file}" reason

/-- A document out of a file; `what` says what it should be. -/
def document {α : Type} (console : Console m) (what : String) (form : Json.Form)
    (read : Json → Option α) (file : String) : Part m α := do
  let content ← console.content file
  let trouble := s!"invalid {what} JSON in {file}"
  match form.complaint? content, Json.parse content with
  | some complaint, _ => giveUp trouble complaint
  | none, .error error => giveUp trouble error.message
  | none, .ok value =>
      match read value with
      | some document => return document
      | none => giveUp trouble none

def graph (console : Console m) (file : String) : Part m Graph :=
  console.document "graph" Document.graph Graph.ofJson? file

def settings (console : Console m) : Option String → Part m Settings
  | none => return Settings.standard
  | some file => do
      let settings := match ← console.read file with
        | .ok content => Settings.ofText content
        | .error reason => .error (.unreadable file reason)
      match settings with
      | .ok settings => return settings
      | .error error => giveUp error.message none

def engine (console : Console m) (settings : Settings) (subflows : Option String) :
    Part m Engine := do
  let definitions ← match subflows with
    | none => pure []
    | some file =>
        console.document "subflow" (.list Document.subflow) (Json.listOf? Subflow.ofJson?) file
  return {
    registry := Delegate.builtinRegistry
    library := definitions.foldl Library.register []
    limits := settings.limits }

/-- A text with blanks behind it up to a width. -/
def padded (width : Nat) (text : String) : String :=
  text ++ String.ofList (List.replicate (width - text.length) ' ')

def quotedList (texts : List String) : String :=
  "[" ++ ", ".intercalate (texts.map Text.quoted) ++ "]"

def statusTitle : Status → String
  | .idle => "Idle"
  | .running => "Running"
  | .success => "Success"
  | .error => "Error"
  | .waiting => "Waiting"

/-- Writes a file, or gives up with a complaint. -/
def save (console : Console m) (complaint file content : String) : Part m Unit := do
  match ← console.write file content with
  | .ok () => return ()
  | .error reason => giveUp complaint reason

/-- Tells how a run ended for every node, and for the run as a whole. -/
def report (console : Console m) (graph : Graph) (execution : Execution) : m Unit := do
  for node in (graph.setStatuses execution.nodeStates).nodes do
    console.say s!"{padded 10 (statusTitle node.status)} {node.title} ({node.id})"
  for failure in execution.errors do
    console.complain s!"error: {failure.message}"
  let count := execution.executedNodes.length
  console.say
    s!"execution {execution.id.text} {execution.status.word}: {count} node activation(s)"

def run (console : Console m) (settings : Settings) (world : World) (file : String)
    (input subflows logs : Option String) : Part m TaskEnd := do
  let graph ← console.graph file
  let payload ← match input with
    | none => pure Json.empty
    | some text =>
        match Json.parse text with
        | .ok value => pure value
        | .error error => giveUp "--input is not valid JSON" error.message
  let engine ← console.engine settings subflows
  let (_, execution) := engine.run graph payload .triggers world
  console.report graph execution
  match logs with
  | none => pure ()
  | some file => console.save s!"cannot write logs to {file}" file execution.logText
  return .code (if execution.status = .failed then 1 else 0)

/-- Checks a graph and tells in what order its nodes can run. -/
def validate (console : Console m) (file : String) : Part m TaskEnd := do
  let graph ← console.graph file
  match graph.check with
  | .error error =>
      console.complain s!"❌ Validation failed: {error.message}"
      return .code 1
  | .ok report =>
      console.say s!"✅ Graph is valid. Triggers: {quotedList report.triggers}"
      match graph.order? with
      | some order => console.say s!"Node order: {quotedList order}"
      | none => console.say "Graph contains a cycle; loops are bounded at run time."
      return .code 0

def catalog (console : Console m) (category : Option Category) : Part m TaskEnd := do
  let templates := match category with
    | some category => Catalog.inCategory category
    | none => Catalog.templates
  for template in templates do
    let outputs := ", ".intercalate (template.outputs.map (·.key))
    console.say s!"{padded 18 template.id} {padded 28 template.title} -> {outputs}"
  return .code 0

def new (console : Console m) (ids : Ids) (name : String) (templates : List String)
    (out : Option String) : Part m TaskEnd := do
  match (Graph.scaffold name templates ids).1 with
  | .error error => giveUp error.message none
  | .ok graph =>
      let text := graph.toJson.pretty 0
      match out with
      | some file => console.save s!"cannot write {file}" file text
      | none => console.say text
      return .code 0

def schedule (console : Console m) (settings : Settings) (world : World) (file : String)
    (spec : ScheduleSpec) (subflows : Option String) : Part m TaskEnd := do
  let graph ← console.graph file
  let engine ← console.engine settings subflows
  let (id, world) := world.freshId
  match ScheduleEntry.new id graph.id spec world.instant with
  | .error error => giveUp error.message none
  | .ok entry =>
      let station : Station := ⟨Storage.empty.storeGraph graph world.instant, world⟩
      return .watch engine (Scheduler.empty.add entry) station settings.tickSeconds

def task (console : Console m) (invocation : Invocation) (world : World) : Part m TaskEnd := do
  let settings ← console.settings invocation.settings
  match invocation.task with
  | .run file input subflows logs => console.run settings world file input subflows logs
  | .validate file => console.validate file
  | .catalog category => console.catalog category
  | .new name templates out => console.new world.ids name templates out
  | .schedule file spec subflows => console.schedule settings world file spec subflows

/-- Does what an invocation asks for, and tells of the trouble it runs into. -/
def perform (console : Console m) (invocation : Invocation) (world : World) : m TaskEnd := do
  match ← (console.task invocation world).run with
  | .ok ending => return ending
  | .error trouble =>
      for line in trouble.lines do
        console.complain line
      return .code 1

end Console

end Workflow
