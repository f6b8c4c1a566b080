import Workflow.Graph.Check

/-! Which graphs pass their check.

A graph is well formed if its nodes have ids of their own, every connection
leads from an output to an input that it may feed, and no input is fed twice.
`Graph.check_eq_ok_iff` says that these are the graphs that pass.
-/

namespace Workflow

theorem bind_eq_ok_iff {ε α β : Type} {first : Except ε α} {next : α → Except ε β} {result : β} :
    (first >>= next) = .ok result ↔ ∃ value, first = .ok value ∧ next value = .ok result := by
  cases first <;> simp [bind, Except.bind]

theorem bind_unit_eq_ok_iff {ε β : Type} {first : Except ε Unit} {next : Unit → Except ε β}
    {result : β} : (first >>= next) = .ok result ↔ first = .ok () ∧ next () = .ok result := by
  cases first <;> simp [bind, Except.bind]

theorem mapError_eq_ok_iff {ε δ α : Type} {f : ε → δ} {attempt : Except ε α} {result : α} :
    attempt.mapError f = .ok result ↔ attempt = .ok result := by
  cases attempt with
  | error error => exact ⟨nofun, nofun⟩
  | ok value =>
      show (.ok value : Except δ α) = .ok result ↔ (.ok value : Except ε α) = .ok result
      simp

theorem Port.checkJoin_eq_ok_iff {source target : Port} {node : String} :
    source.checkJoin node target = .ok () ↔
      source.direction = .output ∧ target.direction = .input ∧ target.connected = false ∧
        source.feeds target := by
  unfold checkJoin
  split <;> rename_i leaves enters <;> simp [leaves, enters]
  split <;> rename_i taken <;> simp [taken]

theorem Port.checkJoin_free_iff (source target : Port) (node : String) :
    source.checkJoin node { target with connected := false } = .ok () ↔
      source.direction = .output ∧ target.direction = .input ∧ source.feeds target := by
  simp [checkJoin_eq_ok_iff, feeds, acceptsAny]

namespace Graph

variable {graph : Graph} {connection : Connection} {port : Port}

def sourcePort? (graph : Graph) (connection : Connection) : Option Port :=
  (graph.node? connection.source.nodeId).bind fun node =>
    node.outputs.find? fun port => port.id = connection.source.portId

def targetPort? (graph : Graph) (connection : Connection) : Option Port :=
  (graph.node? connection.target.nodeId).bind fun node =>
    node.inputs.find? fun port => port.id = connection.target.portId

/-- A connection leads from an output of a node to an input of a node that it may
feed. -/
def Joined (graph : Graph) (connection : Connection) : Prop :=
  ∃ source target, graph.sourcePort? connection = some source ∧
    graph.targetPort? connection = some target ∧
    source.direction = .output ∧ target.direction = .input ∧ source.feeds target

structure WellFormed (graph : Graph) : Prop where
  nodes : (graph.nodes.map (·.id)).Nodup
  joined : ∀ connection ∈ graph.connections, graph.Joined connection
  single : (graph.connections.map (·.target)).Nodup

theorem WellFormed.reaches (wellFormed : graph.WellFormed) (connection : Connection)
    (member : connection ∈ graph.connections) :
    (graph.node? connection.target.nodeId).isSome := by
  obtain ⟨_, target, _, enters, _⟩ := wellFormed.joined connection member
  obtain ⟨node, found, _⟩ := Option.bind_eq_some_iff.mp enters
  simp [found]

theorem node?_isSome_of_mem {node : Node} (member : node ∈ graph.nodes) :
    (graph.node? node.id).isSome := by
  simpa [node?] using ⟨node, member, rfl⟩

theorem mem_of_node? {node : Node} {name : String} (found : graph.node? name = some node) :
    node ∈ graph.nodes ∧ node.id = name :=
  ⟨List.mem_of_find?_eq_some found, by simpa using List.find?_some found⟩

theorem mem_ids_of_node? {name : String} (known : (graph.node? name).isSome) :
    name ∈ graph.nodes.map (·.id) := by
  obtain ⟨node, found⟩ := Option.isSome_iff_exists.mp known
  exact List.mem_map.mpr ⟨node, mem_of_node? found⟩

theorem node?_isSome_of_mem_triggers {name : String} (trigger : name ∈ graph.triggers) :
    (graph.node? name).isSome := by
  obtain ⟨node, member, rfl⟩ := List.mem_map.mp trigger
  exact node?_isSome_of_mem (List.mem_filter.mp member).1

theorem node?_isSome_of_mem_roots {name : String} (root : name ∈ graph.roots) :
    (graph.node? name).isSome := by
  obtain ⟨node, member, rfl⟩ := List.mem_map.mp root
  exact node?_isSome_of_mem (List.mem_filter.mp member).1

theorem endpointPort_source_iff :
    graph.endpointPort connection .source = .ok port ↔
      graph.sourcePort? connection = some port := by
  simp only [endpointPort, sourcePort?]
  cases found : graph.node? connection.source.nodeId with
  | none => simp
  | some node =>
      cases named : node.outputs.find? fun port => port.id = connection.source.portId <;>
        simp [named]

theorem endpointPort_target_iff :
    graph.endpointPort connection .target = .ok port ↔
      graph.targetPort? connection = some port := by
  simp only [endpointPort, targetPort?]
  cases found : graph.node? connection.target.nodeId with
  | none => simp
  | some node =>
      cases named : node.inputs.find? fun port => port.id = connection.target.portId <;>
        simp [named]

theorem checkConnection_eq_ok_iff {taken : List Endpoint} :
    graph.checkConnection taken connection = .ok () ↔
      graph.Joined connection ∧ connection.target ∉ taken := by
  simp only [checkConnection, bind_eq_ok_iff, endpointPort_source_iff, endpointPort_target_iff]
  constructor
  · intro given
    obtain ⟨source, leaves, target, enters, checked⟩ := given
    split at checked
    · contradiction
    · rename_i free
      rw [mapError_eq_ok_iff, Port.checkJoin_free_iff] at checked
      exact ⟨⟨source, target, leaves, enters, checked⟩, free⟩
  · intro given
    obtain ⟨⟨source, target, leaves, enters, joined⟩, free⟩ := given
    refine ⟨source, leaves, target, enters, ?_⟩
    rw [if_neg free, mapError_eq_ok_iff, Port.checkJoin_free_iff]
    exact joined

theorem checkConnections_eq_ok_iff {taken : List Endpoint} {connections : List Connection} :
    graph.checkConnections taken connections = .ok () ↔
      (∀ connection ∈ connections, graph.Joined connection) ∧
      (connections.map (·.target)).Nodup ∧
      ∀ connection ∈ connections, connection.target ∉ taken := by
  induction connections generalizing taken with
  | nil => simp [checkConnections]
  | cons connection rest ih =>
      have untaken : (∀ later ∈ rest, later.target ∉ connection.target :: taken) ↔
          connection.target ∉ rest.map (·.target) ∧ ∀ later ∈ rest, later.target ∉ taken := by
        simp only [List.mem_cons, List.mem_map, not_or, not_exists, not_and]
        exact ⟨fun free =>
          ⟨fun later inside => (free later inside).1, fun later inside => (free later inside).2⟩,
          fun free later inside => ⟨free.1 later inside, free.2 later inside⟩⟩
      simp only [checkConnections, bind_unit_eq_ok_iff, checkConnection_eq_ok_iff, ih, untaken,
        List.map_cons, List.nodup_cons, List.forall_mem_cons]
      constructor
      · intro given
        obtain ⟨⟨joined, free⟩, joinedRest, distinct, new, freeRest⟩ := given
        exact ⟨⟨joined, joinedRest⟩, ⟨new, distinct⟩, free, freeRest⟩
      · intro given
        obtain ⟨⟨joined, joinedRest⟩, ⟨new, distinct⟩, free, freeRest⟩ := given
        exact ⟨⟨joined, free⟩, joinedRest, distinct, new, freeRest⟩

theorem firstRepeated?_eq_none_iff {seen ids : List String} :
    firstRepeated? seen ids = none ↔ ids.Nodup ∧ ∀ id ∈ ids, id ∉ seen := by
  induction ids generalizing seen with
  | nil => simp [firstRepeated?]
  | cons id rest ih =>
      simp only [firstRepeated?]
      split
      · rename_i again
        simp [again]
      · rename_i fresh
        simp [ih, fresh]
        grind

/-- Exactly the well-formed graphs pass their check. -/
theorem check_eq_ok_iff {report : Report} :
    graph.check = .ok report ↔
      graph.WellFormed ∧ report = ⟨graph.triggers, graph.hasCycle⟩ := by
  unfold check
  cases repeated : firstRepeated? [] (graph.nodes.map (·.id)) with
  | some id =>
      have known : ¬ (graph.nodes.map (·.id)).Nodup := fun distinct => by
        rw [firstRepeated?_eq_none_iff.mpr ⟨distinct, by simp⟩] at repeated
        contradiction
      simpa using fun wellFormed => absurd wellFormed.nodes known
  | none =>
      have distinct := (firstRepeated?_eq_none_iff.mp repeated).1
      simp only [bind_unit_eq_ok_iff, checkConnections_eq_ok_iff]
      constructor
      · intro given
        obtain ⟨⟨joined, single, _⟩, same⟩ := given
        exact ⟨⟨distinct, joined, single⟩, (Except.ok.inj same).symm⟩
      · intro given
        obtain ⟨wellFormed, rfl⟩ := given
        exact ⟨⟨wellFormed.joined, wellFormed.single, by simp⟩, rfl⟩

end Graph

end Workflow
