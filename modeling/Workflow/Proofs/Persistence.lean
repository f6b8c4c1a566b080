import Workflow.Proofs.FiniteDoubles
import Workflow.Proofs.NodeSessions
import Workflow.Proofs.Stamps
import Workflow.Proofs.Tables
import Workflow.Storage.Document

/-! What is stored can be loaded.

A document that was read from a payload value is read again from what is printed
of it, whatever spelling it had at first (`Storage.persistence`).  Graphs and
records that were made in other ways can be printed as well: editing leaves the
positions of nodes finite, and runs take their dates from the clock.
-/

namespace Workflow

namespace Json

/-- Printing settles how a document is spelled.  What is printed of a document that was read
gives the same document, and the document gives the same print. -/
def Settles {α : Type} (read : Json → Option α) (write : α → Json) : Prop :=
  ∀ value : Json, value.Proper → ∀ document, read value = some document →
    read (write document) = some document ∧
      (read (write document)).map write = some (write document)

theorem Faithful.settles {α : Type} {read : Json → Option α} {write : α → Json}
    {sound : α → Prop} (faithful : Faithful read write sound) : Settles read write := by
  intro value proper document given
  have again := faithful.reread proper given
  exact ⟨again, by rw [again, Option.map_some]⟩

end Json

namespace Position

/-- A copy lies at a finite distance as well. -/
theorem Finite.offset {position : Position} (finite : position.Finite) :
    (position.offset Editor.duplicateOffset Editor.duplicateOffset).Finite :=
  ⟨Double.isFinite_add_duplicateOffset finite.1, Double.isFinite_add_duplicateOffset finite.2⟩

end Position

/-- The command puts no node at an infinite position. -/
def Command.Placed : Command → Prop
  | .add _ position | .addSubflow _ position => position.Finite
  | _ => True

namespace Node

theorem syncConfigPorts_position (node : Node) (ids : Ids) :
    (syncConfigPorts node ids).1.position = node.position := by
  obtain ⟨extra, same, _⟩ := addOutputs_new node.configuredOutputs node ids
  rw [syncConfigPorts, same]

theorem ofTemplate_position (template : Template) (position : Position) (ids : Ids) :
    (ofTemplate template position ids).1.position = position := by
  rw [ofTemplate_eq]
  exact syncConfigPorts_position _ _

/-- Whatever is done to nodes, they stay at finite positions. -/
theorem finite_lasting : Node.Lasting Command.Placed fun node => node.position.Finite where
  made {template} _ position ids placed := (ofTemplate_position template position ids).symm ▸ placed
  instantiated definition position ids placed := by
    rw [Subflow.instantiate_eq]
    exact (ofTemplate_position Catalog.subflow position ids).symm ▸ placed
  copied {node} ids finite := by
    rw [duplicate_eq]
    exact finite.offset
  configured {node} config ids finite := by
    rw [syncConfigPorts_position]
    exact finite
  shown _ _ finite := finite
  flagged _ finite := finite

end Node

/-- The graphs that there are: read from values, empty at first, the bodies of definitions that
were read, and what comes of a graph by further nodes and editing. -/
inductive Graph.Built : Graph → Prop where
  | read {value : Json} {graph : Graph} : value.Proper → ofJson? value = some graph → Built graph
  | empty (id : Uuid) (name : String) : Built ⟨id, name, [], []⟩
  | body {value : Json} {definition : Subflow} (id : Uuid) :
      value.Proper → Subflow.ofJson? value = some definition → Built (definition.toGraph id)
  | extended {graph : Graph} (template : Template) {position : Position} (ids : Ids) :
      Built graph → position.Finite →
        Built (graph.addNode (Node.ofTemplate template position ids).1)
  | edited {graph : Graph} (limit : Nat) {commands : List Command} (ids : Ids) :
      Built graph → (∀ command ∈ commands, command.Placed) →
        Built ((Editor.new graph limit).session commands ids).1.graph

theorem Graph.Built.storable {graph : Graph} (built : graph.Built) : graph.Storable := by
  induction built with
  | read proper given => exact Graph.faithful.sound_of_read proper given
  | empty id name => exact nofun
  | body id proper given => exact Subflow.faithful.sound_of_read proper given
  | extended template ids _ finite ih =>
      exact All.addNode ih ((Node.ofTemplate_position template _ ids).symm ▸ finite)
  | edited limit ids _ placed ih => exact Node.finite_lasting.session ih limit placed ids

/-- The records that there are: read from values, just begun, made by a run, or made by a run
nested in it.  Clocks keep to the calendar. -/
inductive Execution.Built : Execution → Prop where
  | read {value : Json} {execution : Execution} :
      value.Proper → ofJson? value = some execution → Built execution
  | begun (id graph : Uuid) {now : Instant} : now.InCalendar → Built (start id graph now)
  | run (engine : Engine) (graph : Graph) (input : Json) (entry : Entry) {world : World} :
      world.KeepsCalendar (engine.run graph input entry world).1 →
        Built (engine.run graph input entry world).2
  | nested (engine : Engine) (graph : Graph) (input : Json) (entry : Entry) {world : World}
      {finished : Finished} : world.KeepsCalendar (engine.run graph input entry world).1 →
        finished ∈ (engine.run graph input entry world).1.finished →
          finished ∉ world.finished → Built finished.execution

theorem Execution.Built.storable {execution : Execution} (built : execution.Built) :
    execution.Storable := by
  cases built with
  | read proper given => exact Execution.faithful.sound_of_read proper given
  | begun id graph dated => exact ⟨dated, nofun, nofun, nofun⟩
  | run engine graph input entry calendar =>
      exact (engine.run_storable graph input entry calendar).1
  | nested engine graph input entry calendar member new =>
      rcases (engine.run_storable graph input entry calendar).2 _ member with old | storable
      · exact absurd old new
      · exact storable

/-- The row in which a record is stored. -/
def Execution.row (execution : Execution) : ExecutionRow where
  id := execution.id
  graphId := execution.graphId
  status := execution.status.word
  startedAt := execution.startedAt
  finishedAt := execution.finishedAt
  record := execution.toJson

namespace Storage

/-- A graph is loaded as it was stored last, whatever the tables held before. -/
theorem loadGraph_storeGraph (storage : Storage) {graph : Graph} (storable : graph.Storable)
    (now : Instant) : (storage.storeGraph graph now).loadGraph graph.id = .ok graph := by
  have found : (storage.storeGraph graph now).graph? graph.id =
      some (storage.saveGraph graph.id graph.name graph.toJson now).1 :=
    List.find?_cons_of_pos (by simp)
  have read : Graph.ofJson? graph.toJson = some graph := Graph.faithful.read_write storable
  rw [loadGraph, Storage.graph, found]
  simp [Storage.found, reading, read, saveGraph]

/-- A record is loaded from its row. -/
theorem loadExecution_of_row {storage : Storage} {execution : Execution}
    (found : storage.execution? execution.id = some execution.row)
    (storable : execution.Storable) :
    storage.loadExecution execution.id = .ok execution := by
  have read : Execution.ofJson? execution.toJson = some execution :=
    Execution.faithful.read_write storable
  rw [loadExecution, Storage.execution, found]
  simp [Storage.found, Execution.row, reading, read]

/-- Documents that were read from values survive being printed and read again, and graphs and
records, whether read or made, survive being stored. -/
theorem persistence :
    Json.Settles Graph.ofJson? Graph.toJson ∧ Json.Settles Node.ofJson? Node.toJson ∧
    Json.Settles Subflow.ofJson? Subflow.toJson ∧
    Json.Settles Execution.ofJson? Execution.toJson ∧
    Json.Settles ScheduleEntry.ofJson? ScheduleEntry.toJson ∧
    Json.Settles ScheduleSpec.ofJson? ScheduleSpec.toJson ∧
    Json.Settles LogEntry.ofJson? LogEntry.toJson ∧
    Json.Settles Template.ofJson? Template.toJson ∧
    (∀ (storage : Storage) (graph : Graph) (now : Instant), graph.Built →
      (storage.storeGraph graph now).loadGraph graph.id = .ok graph) ∧
    ∀ (storage : Storage) (execution : Execution), execution.Built →
      (storage.storeExecution execution).loadExecution execution.id = .ok execution := by
  refine ⟨Graph.faithful.settles, Node.faithful.settles, Subflow.faithful.settles,
    Execution.faithful.settles, ScheduleEntry.faithful.settles, ScheduleSpec.faithful.settles,
    LogEntry.faithful.settles, Template.faithful.settles, ?_, ?_⟩
  · intro storage graph now built
    exact storage.loadGraph_storeGraph built.storable now
  · intro storage execution built
    exact loadExecution_of_row (storage.execution?_insertExecution execution.row) built.storable

/-- An entry spelled in its own way: as lists, with an id in capitals and another one in a
single group, and a blank in a date that stands in a leap second. -/
def spelledEntry : Json :=
  .array
    [ .string "urn:uuid:00000000-0000-4000-8000-00000000000A",
      .string "00000000000040008000000000000002",
      .array [.string "interval", .int 5, .null], .bool true, .null,
      .string "2016-12-31 23:59:60.25+00:00"]

def plainEntry : ScheduleEntry :=
  { id := ⟨0x4000800000000000000A⟩, graphId := ⟨0x40008000000000000002⟩
    spec := .interval 5 none, enabled := true, lastRun := none
    nextRun := some ⟨1483228799, 1250000000⟩ }

/-- A graph with a field that graphs do not have, without some that they may have, and with
integers where doubles are read. -/
def spelledGraph : Json :=
  .object
    [ ("id", .string "00000000-0000-4000-8000-000000000001"), ("note", .null),
      ("name", .string "bare"),
      ("nodes", .array [.object
        [ ("id", .string "end"), ("template_id", .string "log"), ("kind", .string "data"),
          ("title", .string "Log"), ("position", .array [.int 3, .int (-1)])]])]

def plainGraph : Graph :=
  { id := ⟨0x40008000000000000001⟩, name := "bare", connections := []
    nodes := [{ id := "end", templateId := "log", kind := .data, title := "Log", config := [],
                inputs := [], outputs := [], status := .idle, position := ⟨3.0, -1.0⟩ }] }

theorem persistence_of_spelled :
    (ScheduleEntry.ofJson? spelledEntry = some plainEntry ∧
      ScheduleEntry.ofJson? plainEntry.toJson = some plainEntry) ∧
    (Graph.ofJson? spelledGraph = some plainGraph ∧
      (empty.storeGraph plainGraph ⟨0, 0⟩).loadGraph plainGraph.id = .ok plainGraph) ∧
    (empty.storeExecution (.start ⟨1⟩ ⟨2⟩ ⟨0, 0⟩)).loadExecution ⟨1⟩ =
      .ok (.start ⟨1⟩ ⟨2⟩ ⟨0, 0⟩) := by
  obtain ⟨_, _, _, _, entries, _, _, _, graphs, executions⟩ := persistence
  have entry : ScheduleEntry.ofJson? spelledEntry = some plainEntry := by decide +kernel
  have graph : Graph.ofJson? spelledGraph = some plainGraph := by rfl
  have tidy : spelledEntry.Proper ∧ spelledGraph.Proper := by
    simp [spelledEntry, spelledGraph, Json.int, Number.Proper]
  have begun : (Execution.start ⟨1⟩ ⟨2⟩ ⟨0, 0⟩).Built := .begun _ _ ⟨by decide, by decide⟩
  exact ⟨⟨entry, (entries spelledEntry tidy.1 plainEntry entry).1⟩,
    ⟨graph, graphs empty plainGraph ⟨0, 0⟩ (.read tidy.2 graph)⟩, executions empty _ begun⟩

end Storage

end Workflow
