import Workflow.Proofs.Connecting
import Workflow.Proofs.NodeOrder

/-! What a check decides.

`Graph.Proper` says of a graph what its check asks for, without the lookups that the check
makes.  Flags and the types of connections are not asked about: a graph and its plain form
pass or fail alike.  A graph that fails does so for an id that repeats or, if there is none,
for the first connection that the ones before it leave no room for.
-/

namespace Workflow

def Connection.untyped (connection : Connection) : Connection :=
  { connection with dataType := "" }

/-- The connection that an error is about. -/
def GraphError.connection? : GraphError → Option String
  | .duplicateNode _ => none
  | .unknownNode connectionId _ _ => some connectionId
  | .unknownPort connectionId _ _ => some connectionId
  | .badConnection connectionId _ => some connectionId

namespace Port

theorem feeds_iff (source target : Port) :
    source.feeds target ↔ source.dataType = target.dataType ∨ source.dataType = anyType ∨
      target.dataType = anyType := by
  simp only [feeds, acceptsAny, Bool.or_eq_true, decide_eq_true_eq]
  tauto

@[simp] theorem checkJoin_free (source target : Port) (node : String) :
    source.free.checkJoin node { target.free with connected := false } =
      source.checkJoin node { target with connected := false } := by
  have feeds : source.free.feeds { target.free with connected := false } =
      source.feeds { target with connected := false } := rfl
  simp only [checkJoin, feeds]
  rfl

end Port

namespace Graph

variable {graph : Graph} {connection : Connection} {taken : List Endpoint}
  {connections : List Connection} {error : GraphError}

/-- Both ends of a connection exist, the first port of each id runs the right way, and what
leaves one port may enter the other. -/
def Fits (graph : Graph) (connection : Connection) : Prop :=
  ∃ before ∈ graph.nodes, ∃ after ∈ graph.nodes, ∃ source target,
    before.id = connection.source.nodeId ∧ after.id = connection.target.nodeId ∧
    (before.outputs.find? fun port => port.id = connection.source.portId) = some source ∧
    (after.inputs.find? fun port => port.id = connection.target.portId) = some target ∧
    source.direction = .output ∧ target.direction = .input ∧
    (source.dataType = target.dataType ∨ source.dataType = anyType ∨ target.dataType = anyType)

structure Proper (graph : Graph) : Prop where
  ids : graph.ids.Nodup
  fits : ∀ connection ∈ graph.connections, graph.Fits connection
  single : graph.connections.Pairwise fun first second => first.target ≠ second.target

/-- The graph with no input flagged and no connection typed. -/
def plain (graph : Graph) : Graph :=
  { graph with
    nodes := graph.nodes.map (Node.mapPorts Port.free)
    connections := graph.connections.map Connection.untyped }

/-- The graph with its first connections only. -/
def upTo (graph : Graph) (count : Nat) : Graph :=
  { graph with connections := graph.connections.take count }

section Proper

theorem sourcePort?_eq_some (distinct : graph.ids.Nodup) {node : Node} (member : node ∈ graph.nodes)
    (same : node.id = connection.source.nodeId) :
    graph.sourcePort? connection =
      node.outputs.find? fun port => port.id = connection.source.portId := by
  have found : graph.node? connection.source.nodeId = some node :=
    same ▸ find?_of_nodup distinct member
  simp [sourcePort?, found]

theorem targetPort?_eq_some (distinct : graph.ids.Nodup) {node : Node} (member : node ∈ graph.nodes)
    (same : node.id = connection.target.nodeId) :
    graph.targetPort? connection =
      node.inputs.find? fun port => port.id = connection.target.portId := by
  have found : graph.node? connection.target.nodeId = some node :=
    same ▸ find?_of_nodup distinct member
  simp [targetPort?, found]

theorem fits_iff_joined (distinct : graph.ids.Nodup) :
    graph.Fits connection ↔ graph.Joined connection := by
  constructor
  · rintro ⟨before, here, after, there, source, target, starts, ends, leaves, enters, runs⟩
    rw [← sourcePort?_eq_some distinct here starts] at leaves
    rw [← targetPort?_eq_some distinct there ends] at enters
    exact ⟨source, target, leaves, enters, runs.1, runs.2.1, (Port.feeds_iff _ _).mpr runs.2.2⟩
  · rintro ⟨source, target, leaves, enters, out, into, feeds⟩
    obtain ⟨before, first, output⟩ := Option.bind_eq_some_iff.mp leaves
    obtain ⟨after, last, input⟩ := Option.bind_eq_some_iff.mp enters
    obtain ⟨here, starts⟩ := mem_of_node? first
    obtain ⟨there, ends⟩ := mem_of_node? last
    exact ⟨before, here, after, there, source, target, starts, ends, output, input, out, into,
      (Port.feeds_iff _ _).mp feeds⟩

theorem proper_iff_wellFormed : graph.Proper ↔ graph.WellFormed := by
  constructor
  · intro proper
    exact ⟨proper.ids, fun connection member =>
      (fits_iff_joined proper.ids).mp (proper.fits connection member),
      List.pairwise_map.mpr proper.single⟩
  · intro wellFormed
    exact ⟨wellFormed.nodes, fun connection member =>
      (fits_iff_joined wellFormed.nodes).mpr (wellFormed.joined connection member),
      List.pairwise_map.mp wellFormed.single⟩

end Proper

section Plain

@[simp] theorem ids_plain (graph : Graph) : graph.plain.ids = graph.ids := by
  simp [ids, plain, Node.mapPorts]

@[simp] theorem node?_plain (graph : Graph) (id : String) :
    graph.plain.node? id = (graph.node? id).map (Node.mapPorts Port.free) := by
  simp only [node?, plain, List.find?_map]
  rfl

theorem port_free (ports : List Port) (id : String) (missing : GraphError) :
    (match (ports.map Port.free).find? fun port => port.id = id with
      | none => .error missing
      | some port => .ok port : Except GraphError Port) =
    Except.map Port.free (match ports.find? fun port => port.id = id with
      | none => .error missing
      | some port => .ok port) := by
  rw [find?_free]
  cases ports.find? fun port => port.id = id <;> rfl

theorem endpointPort_plain (graph : Graph) (connection : Connection) (side : Side) :
    graph.plain.endpointPort connection.untyped side =
      (graph.endpointPort connection side).map Port.free := by
  cases side with
  | source =>
      simp only [endpointPort, node?_plain, Connection.untyped]
      cases graph.node? connection.source.nodeId with
      | none => rfl
      | some node => exact port_free node.outputs _ _
  | target =>
      simp only [endpointPort, node?_plain, Connection.untyped]
      cases graph.node? connection.target.nodeId with
      | none => rfl
      | some node => exact port_free node.inputs _ _

theorem checkConnection_plain (graph : Graph) (taken : List Endpoint) (connection : Connection) :
    graph.plain.checkConnection taken connection.untyped =
      graph.checkConnection taken connection := by
  simp only [checkConnection, endpointPort_plain]
  cases graph.endpointPort connection .source with
  | error reason => rfl
  | ok source =>
      cases graph.endpointPort connection .target with
      | error reason => rfl
      | ok target => simp [Except.map, bind, Except.bind, Connection.untyped]

theorem checkConnections_plain (graph : Graph) (taken : List Endpoint)
    (connections : List Connection) :
    graph.plain.checkConnections taken (connections.map Connection.untyped) =
      graph.checkConnections taken connections := by
  induction connections generalizing taken with
  | nil => rfl
  | cons connection rest ih =>
      simp only [List.map_cons, checkConnections, checkConnection_plain]
      exact congrArg _ (funext fun _ => ih _)

theorem triggers_plain (graph : Graph) : graph.plain.triggers = graph.triggers := by
  simp only [triggers, plain, List.filter_map, List.map_map]
  rfl

theorem successors_plain (graph : Graph) (id : String) :
    graph.plain.successors id = graph.successors id := by
  simp only [successors, plain, List.filter_map, List.map_map]
  rfl

theorem drain_plain (graph : Graph) (rounds : Nat) (waiting : Waiting) (queue : List String) :
    graph.plain.drain rounds waiting queue = graph.drain rounds waiting queue := by
  induction rounds generalizing waiting queue with
  | zero => simp [drain]
  | succ rounds ih =>
      cases queue with
      | nil => simp [drain]
      | cons id queue => simp [drain, successors_plain, ih]

theorem hasCycle_plain (graph : Graph) : graph.plain.hasCycle = graph.hasCycle := by
  have waiting : graph.plain.initialWaiting = graph.initialWaiting := by
    simp [initialWaiting, plain, List.foldl_map, Connection.untyped]
  have ids : graph.plain.nodes.map (·.id) = graph.nodes.map (·.id) := ids_plain graph
  have counts : graph.plain.nodes.length = graph.nodes.length ∧
      graph.plain.connections.length = graph.connections.length := by simp [plain]
  simp only [hasCycle, order?, drain_plain, waiting, ids, counts]

/-- Neither flags nor the types of connections matter to a check. -/
theorem check_plain (graph : Graph) : graph.plain.check = graph.check := by
  have ids : graph.plain.nodes.map (·.id) = graph.nodes.map (·.id) := ids_plain graph
  have connections : graph.plain.checkConnections [] graph.plain.connections =
      graph.checkConnections [] graph.connections := checkConnections_plain _ _ _
  simp only [check, ids, connections, triggers_plain, hasCycle_plain]

end Plain

section Complaints

theorem endpointPort_error {side : Side}
    (fails : graph.endpointPort connection side = .error error) :
    error.connection? = some connection.id := by
  simp only [endpointPort] at fails
  split at fails
  · exact Except.error.inj fails ▸ rfl
  · split at fails
    · exact Except.error.inj fails ▸ rfl
    · contradiction

theorem checkConnection_error (fails : graph.checkConnection taken connection = .error error) :
    error.connection? = some connection.id := by
  simp only [checkConnection, bind, Except.bind] at fails
  cases leaves : graph.endpointPort connection .source with
  | error reason =>
      rw [leaves] at fails
      exact Except.error.inj fails ▸ endpointPort_error leaves
  | ok source =>
      cases enters : graph.endpointPort connection .target with
      | error reason =>
          rw [leaves, enters] at fails
          exact Except.error.inj fails ▸ endpointPort_error enters
      | ok target =>
          simp only [leaves, enters] at fails
          split at fails
          · exact Except.error.inj fails ▸ rfl
          · cases joins : source.checkJoin connection.target.nodeId
                { target with connected := false } with
            | ok checked =>
                rw [joins] at fails
                contradiction
            | error reason =>
                rw [joins] at fails
                exact Except.error.inj fails ▸ rfl

/-- The connection that an error is about is the first one at which checking stops. -/
theorem checkConnections_error (fails : graph.checkConnections taken connections = .error error) :
    ∃ index connection, connections[index]? = some connection ∧
      error.connection? = some connection.id ∧
      graph.checkConnections taken (connections.take index) = .ok () ∧
      graph.checkConnections taken (connections.take (index + 1)) ≠ .ok () := by
  induction connections generalizing taken with
  | nil => contradiction
  | cons connection rest ih =>
      simp only [checkConnections] at fails
      cases checked : graph.checkConnection taken connection with
      | error reason =>
          rw [checked] at fails
          obtain rfl := Except.error.inj fails
          refine ⟨0, connection, rfl, checkConnection_error checked, rfl, ?_⟩
          simp [checkConnections, checked, bind, Except.bind]
      | ok passed =>
          rw [checked] at fails
          obtain ⟨index, later, found, named, before, upto⟩ := ih fails
          refine ⟨index + 1, later, found, named, ?_, ?_⟩
          · simpa [checkConnections, checked, bind, Except.bind] using before
          · simpa [checkConnections, checked, bind, Except.bind] using upto

theorem firstRepeated?_eq_some {seen ids : List String} {id : String}
    (repeated : firstRepeated? seen ids = some id) :
    ∃ before after, ids = before ++ id :: after ∧ before.Nodup ∧
      (∀ earlier ∈ before, earlier ∉ seen) ∧ (id ∈ before ∨ id ∈ seen) := by
  induction ids generalizing seen with
  | nil => contradiction
  | cons first rest ih =>
      simp only [firstRepeated?] at repeated
      split at repeated
      · rename_i again
        obtain rfl := Option.some.inj repeated
        exact ⟨[], rest, rfl, .nil, by simp, .inr again⟩
      · rename_i fresh
        obtain ⟨before, after, rfl, distinct, new, known⟩ := ih repeated
        refine ⟨first :: before, after, rfl, ?_, ?_, ?_⟩
        · exact List.nodup_cons.mpr ⟨fun old => new first old (List.mem_cons_self ..), distinct⟩
        · exact List.forall_mem_cons.mpr ⟨fresh, fun id member old =>
            new id member (List.mem_cons_of_mem _ old)⟩
        · rcases known with before | there
          · exact .inl (List.mem_cons_of_mem _ before)
          · rcases List.mem_cons.mp there with rfl | there
            · exact .inl List.mem_cons_self
            · exact .inr there

theorem proper_upTo_iff (distinct : graph.ids.Nodup) (count : Nat) :
    (graph.upTo count).Proper ↔
      graph.checkConnections [] (graph.connections.take count) = .ok () := by
  rw [proper_iff_wellFormed, checkConnections_eq_ok_iff]
  constructor
  · intro wellFormed
    exact ⟨wellFormed.joined, wellFormed.single, by simp⟩
  · rintro ⟨joined, single, _⟩
    exact ⟨distinct, joined, single⟩

theorem check_eq_error (fails : graph.check = .error error) :
    (∃ id, firstRepeated? [] graph.ids = some id ∧ error = .duplicateNode id) ∨
    (graph.ids.Nodup ∧ graph.checkConnections [] graph.connections = .error error) := by
  rw [check] at fails
  cases repeated : firstRepeated? [] graph.ids with
  | some id =>
      rw [ids] at repeated
      rw [repeated] at fails
      exact .inl ⟨id, rfl, (Except.error.inj fails).symm⟩
  | none =>
      have distinct := (firstRepeated?_eq_none_iff.mp repeated).1
      rw [ids] at repeated
      rw [repeated] at fails
      cases checked : graph.checkConnections [] graph.connections with
      | ok passed =>
          rw [checked] at fails
          contradiction
      | error reason =>
          rw [checked] at fails
          exact .inr ⟨distinct, congrArg _ (Except.error.inj fails)⟩

end Complaints

/-- A check accepts exactly the proper graphs, whatever their flags and the types of their
connections say.  An error is about the first id that repeats or, where ids are distinct, about
the first connection up to which the graph is not proper. -/
theorem check_decides (graph : Graph) :
    (graph.check.isOk ↔ graph.Proper) ∧
    (∀ other : Graph, other.plain = graph.plain → other.check = graph.check) ∧
    ∀ error, graph.check = .error error →
      (∃ before id after, graph.ids = before ++ id :: after ∧ before.Nodup ∧ id ∈ before ∧
        error = .duplicateNode id) ∨
      (graph.ids.Nodup ∧ ∃ index connection, graph.connections[index]? = some connection ∧
        error.connection? = some connection.id ∧
        (graph.upTo index).Proper ∧ ¬ (graph.upTo (index + 1)).Proper) := by
  refine ⟨check_isOk_iff.trans proper_iff_wellFormed.symm, ?_, ?_⟩
  · intro other same
    rw [← check_plain other, same, check_plain]
  · intro error fails
    rcases check_eq_error fails with ⟨id, repeated, rfl⟩ | ⟨distinct, stops⟩
    · obtain ⟨before, after, split, distinct, _, known⟩ := firstRepeated?_eq_some repeated
      exact .inl ⟨before, id, after, split, distinct, by simpa using known, rfl⟩
    · obtain ⟨index, connection, found, named, passes, fails⟩ := checkConnections_error stops
      exact .inr ⟨distinct, index, connection, found, named,
        (proper_upTo_iff distinct index).mpr passes,
        fun proper => fails ((proper_upTo_iff distinct _).mp proper)⟩

/-- A second connection to an input: nothing is wrong up to the first one. -/
theorem check_of_wired_twice_decides :
    let crowded := (handWritten true true).withConnection
      ⟨"new", ⟨"b", "b-out"⟩, ⟨"c", "c-in"⟩, anyType⟩
    crowded.check = .error (.badConnection "new" (.inputTaken "c" "c-in")) ∧
      ¬ crowded.Proper ∧ (crowded.upTo 1).Proper ∧
      ((handWritten true false).withConnection
        ⟨"new", ⟨"b", "b-out"⟩, ⟨"c", "c-in"⟩, ""⟩).check = crowded.check := by
  intro crowded
  have fails : crowded.check = .error (.badConnection "new" (.inputTaken "c" "c-in")) := rfl
  obtain ⟨accepts, alike, complains⟩ := check_decides crowded
  refine ⟨fails, fun proper => ?_, ?_, alike _ rfl⟩
  · exact absurd (accepts.mpr proper) (by rw [fails]; decide)
  · rcases complains _ fails with
      ⟨_, _, _, _, _, _, differs⟩ | ⟨_, index, _, found, named, first, _⟩
    · contradiction
    · match index, found, named, first with
      | 0, found, named, _ =>
          obtain rfl := Option.some.inj found
          exact absurd named (by decide)
      | 1, _, _, first => exact first

end Graph

end Workflow
