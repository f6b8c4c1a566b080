import Workflow.Proofs.Consistency

/-! Connecting in an editor against checking the connected graph.

An editor looks at the flag of an input where a check counts the connections
that end there.  Both allow the same connections exactly where the flag is
right: `Editor.connect_agrees_iff`.  Nothing sets the flags of a graph that an
editor opens.
-/

namespace Workflow

/-- Whether the ports could be joined if the target were free. -/
def Port.Suits (source target : Port) : Prop :=
  source.direction = .output ∧ target.direction = .input ∧ source.feeds target

namespace Graph

variable {graph other : Graph} {connection : Connection} {node : Node} {port source target : Port}

def Fed (graph : Graph) (place : Endpoint) : Prop :=
  ∃ connection ∈ graph.connections, connection.target = place

def withConnection (graph : Graph) (connection : Connection) : Graph :=
  { graph with connections := graph.connections ++ [connection] }

theorem check_isOk_iff : graph.check.isOk ↔ graph.WellFormed := by
  constructor
  · intro passes
    cases checked : graph.check with
    | error reason =>
        rw [checked] at passes
        contradiction
    | ok report => exact (check_eq_ok_iff.mp checked).1
  · intro wellFormed
    rw [check_eq_ok_iff.mpr ⟨wellFormed, rfl⟩]
    rfl

theorem find?_free (ports : List Port) (id : String) :
    (ports.map Port.free).find? (fun port => port.id = id) =
      (ports.find? fun port => port.id = id).map Port.free := by
  rw [List.find?_map]
  rfl

theorem find?_outlines (graph : Graph) (id : String) :
    graph.outlines.find? (fun outline => outline.id = id) = (graph.node? id).map Node.outline := by
  rw [outlines, List.find?_map]
  rfl

theorem sourcePort?_free (graph : Graph) (connection : Connection) :
    (graph.sourcePort? connection).map Port.free =
      (graph.outlines.find? fun outline => outline.id = connection.source.nodeId).bind
        fun outline => outline.outputs.find? fun port => port.id = connection.source.portId := by
  rw [find?_outlines, sourcePort?, Option.map_bind, Option.bind_map]
  exact congrArg _ (funext fun node => (find?_free node.outputs _).symm)

theorem targetPort?_free (graph : Graph) (connection : Connection) :
    (graph.targetPort? connection).map Port.free =
      (graph.outlines.find? fun outline => outline.id = connection.target.nodeId).bind
        fun outline => outline.inputs.find? fun port => port.id = connection.target.portId := by
  rw [find?_outlines, targetPort?, Option.map_bind, Option.bind_map]
  exact congrArg _ (funext fun node => (find?_free node.inputs _).symm)

/-- What joins two ports does not depend on their flags. -/
theorem Joined.of_outlines (joined : graph.Joined connection)
    (same : graph.outlines = other.outlines) : other.Joined connection := by
  obtain ⟨source, target, leaves, enters, suits⟩ := joined
  have start := sourcePort?_free graph connection
  have stop := targetPort?_free graph connection
  rw [same, ← sourcePort?_free other, leaves] at start
  rw [same, ← targetPort?_free other, enters] at stop
  obtain ⟨first, found, alike⟩ := Option.map_eq_some_iff.mp start.symm
  obtain ⟨last, located, equal⟩ := Option.map_eq_some_iff.mp stop.symm
  have output := Port.mk.inj alike
  have input := Port.mk.inj equal
  refine ⟨first, last, found, located, ?_⟩
  simpa [Port.feeds, Port.acceptsAny, output, input] using suits

theorem WellFormed.of_outlines (wellFormed : graph.WellFormed)
    (same : graph.outlines = other.outlines) (alike : graph.connections = other.connections) :
    other.WellFormed where
  nodes := by
    have ids := congrArg (List.map Outline.id) same
    rw [outlines, outlines, List.map_map, List.map_map] at ids
    exact ids ▸ wellFormed.nodes
  joined connection member := (wellFormed.joined connection (alike ▸ member)).of_outlines same
  single := alike ▸ wellFormed.single

theorem wellFormed_addConnection :
    (graph.addConnection connection).WellFormed ↔ (graph.withConnection connection).WellFormed := by
  have same : (graph.addConnection connection).outlines =
      (graph.withConnection connection).outlines := by
    rw [addConnection, outlines_markConnected, outlines_markConnected, withConnection]
  exact ⟨fun wellFormed => wellFormed.of_outlines same rfl,
    fun wellFormed => wellFormed.of_outlines same.symm rfl⟩

/-- A well-formed graph takes another connection if its ports suit each other and
nothing else ends where it ends. -/
theorem wellFormed_withConnection (wellFormed : graph.WellFormed) :
    (graph.withConnection connection).WellFormed ↔
      graph.Joined connection ∧ ¬ graph.Fed connection.target := by
  have fresh : connection.target ∉ graph.connections.map (·.target) ↔
      ¬ graph.Fed connection.target := by
    rw [Fed, List.mem_map]
  constructor
  · intro wider
    have single := wider.single
    rw [withConnection, List.map_append, List.nodup_append'] at single
    refine ⟨wider.joined connection (by simp [withConnection]), fresh.mp fun taken => ?_⟩
    exact single.2.2 taken (by simp)
  · rintro ⟨joined, free⟩
    refine ⟨wellFormed.nodes, fun other member => ?_, ?_⟩
    · rcases List.mem_append.mp member with old | new
      · exact wellFormed.joined other old
      · exact List.mem_singleton.mp new ▸ joined
    · rw [withConnection, List.map_append, List.nodup_append']
      refine ⟨wellFormed.single, by simp, fun place old new => ?_⟩
      obtain rfl := List.mem_singleton.mp new
      exact fresh.mpr free old

/-- The node and the ports that ids stand for where ids are distinct. -/
structure Places (graph : Graph) (node : Node) : Prop where
  found : graph.node? node.id = some node
  distinct : (node.ports.map (·.id)).Nodup

namespace Places

theorem output? (places : graph.Places node) (leaves : port ∈ node.outputs) :
    (node.outputs.find? fun other => other.id = port.id) = some port :=
  find?_of_nodup (places.distinct.sublist ((List.sublist_append_right _ _).map _)) leaves

theorem input? (places : graph.Places node) (enters : port ∈ node.inputs) :
    (node.inputs.find? fun other => other.id = port.id) = some port :=
  find?_of_nodup (places.distinct.sublist ((List.sublist_append_left _ _).map _)) enters

theorem portOf (places : graph.Places node) (member : port ∈ node.ports) :
    graph.portOf node.id port.id = .ok port := by
  have same := find?_of_nodup places.distinct member
  simp [Graph.portOf, places.found, Node.port?, same]

end Places

theorem joined_iff_suits {before after : Node} (here : graph.Places before)
    (there : graph.Places after) (leaves : source ∈ before.outputs) (enters : target ∈ after.inputs)
    (starts : connection.source = ⟨before.id, source.id⟩)
    (ends : connection.target = ⟨after.id, target.id⟩) :
    graph.Joined connection ↔ source.Suits target := by
  have first : graph.sourcePort? connection = some source := by
    simp [sourcePort?, starts, here.found, here.output? leaves]
  have last : graph.targetPort? connection = some target := by
    simp [targetPort?, ends, there.found, there.input? enters]
  simp [Joined, first, last, Port.Suits]

theorem check_withConnection_isOk_iff (wellFormed : graph.WellFormed) {before after : Node}
    (here : graph.Places before) (there : graph.Places after) (leaves : source ∈ before.outputs)
    (enters : target ∈ after.inputs) (starts : connection.source = ⟨before.id, source.id⟩)
    (ends : connection.target = ⟨after.id, target.id⟩) :
    (graph.withConnection connection).check.isOk ↔
      source.Suits target ∧ ¬ graph.Fed ⟨after.id, target.id⟩ := by
  rw [check_isOk_iff, wellFormed_withConnection wellFormed, ends,
    joined_iff_suits here there leaves enters starts ends]

/-- No connection leaves from an input, so the flag of an input counts those that end there. -/
theorem Sound.connected_iff_fed (sound : graph.Sound) (member : node ∈ graph.nodes)
    (enters : port ∈ node.inputs) : port.connected ↔ graph.Fed ⟨node.id, port.id⟩ := by
  rw [sound.flags node member port (List.mem_append_left _ enters)]
  simp only [uses, List.any_eq_true, Bool.or_eq_true, decide_eq_true_eq, Fed]
  constructor
  · rintro ⟨connection, inside, starts | ends⟩
    · obtain ⟨leaving, left, output, out, _, _, _, _, source, _⟩ :=
        sound.shaped.joined connection inside
      obtain ⟨before, there, rfl⟩ := List.mem_map.mp left
      obtain ⟨leaves, listed, rfl⟩ := List.mem_map.mp out
      obtain ⟨alike, same⟩ := Endpoint.mk.inj (source.symm.trans starts)
      obtain rfl := List.inj_on_of_nodup_map sound.ids there member alike
      have distinct := sound.ports_nodup member
      rw [Node.ports, List.map_append, List.nodup_append'] at distinct
      have clash : leaves.id = port.id := same
      exact absurd (List.mem_map_of_mem listed) (clash ▸ distinct.2.2 (List.mem_map_of_mem enters))
    · exact ⟨connection, inside, ends⟩
  · rintro ⟨connection, inside, ends⟩
    exact ⟨connection, inside, .inr ends⟩

end Graph

namespace Editor

variable {editor : Editor} {before after : Node} {source target : Port}

theorem resolve_of_places (here : editor.graph.Places before) (there : editor.graph.Places after)
    (leaves : source ∈ before.outputs) (enters : target ∈ after.inputs) :
    resolve editor.graph before.id source.id after.id target.id = (do
      source.checkJoin after.id target
      return (⟨before.id, source.id⟩, ⟨after.id, target.id⟩, source.joinedType target)) := by
  rw [resolve, here.portOf (List.mem_append_right _ leaves),
    there.portOf (List.mem_append_left _ enters)]
  rfl

theorem connect_isOk_iff (here : editor.graph.Places before) (there : editor.graph.Places after)
    (leaves : source ∈ before.outputs) (enters : target ∈ after.inputs) (ids : Ids) :
    (editor.connect before.id source.id after.id target.id ids).1.isOk ↔
      source.Suits target ∧ target.connected = false := by
  have joins : source.checkJoin after.id target = .ok () ↔
      source.Suits target ∧ target.connected = false := by
    rw [Port.checkJoin_eq_ok_iff, Port.Suits]
    tauto
  rw [← joins, connect, resolve_of_places here there leaves enters]
  cases source.checkJoin after.id target with
  | error reason => exact ⟨nofun, nofun⟩
  | ok checked => exact ⟨fun _ => rfl, fun _ => rfl⟩

/-- What a connected editor holds is the graph with one connection more. -/
theorem connect_eq_ok {reference destination : String} {name key : String} {ids : Ids}
    {edited : Editor} {change : Change}
    (connects : (editor.connect name key reference destination ids).1 = .ok (edited, change)) :
    ∃ connection, change = .connected connection ∧
      edited.graph = editor.graph.addConnection connection ∧
      ∃ dataType, resolve editor.graph name key reference destination =
        .ok (connection.source, connection.target, dataType) := by
  unfold connect at connects
  cases resolved : resolve editor.graph name key reference destination with
  | error reason =>
      rw [resolved] at connects
      contradiction
  | ok ends =>
      obtain ⟨start, stop, dataType⟩ := ends
      rw [resolved] at connects
      cases connects
      exact ⟨_, rfl, rfl, dataType, rfl⟩

theorem places_of_mem (distinct : (editor.graph.nodes.map (·.id)).Nodup)
    (ports : ∀ node ∈ editor.graph.nodes, (node.ports.map (·.id)).Nodup)
    (here : before ∈ editor.graph.nodes) : editor.graph.Places before :=
  ⟨Graph.find?_of_nodup distinct here, ports before here⟩

/-- In a consistent graph, which is what editors keep, flags and connections agree, and so do
an editor and the check. -/
theorem connect_isOk_iff_of_consistent (consistent : editor.graph.Consistent)
    (here : before ∈ editor.graph.nodes) (there : after ∈ editor.graph.nodes)
    (leaves : source ∈ before.outputs) (enters : target ∈ after.inputs) {connection : Connection}
    (starts : connection.source = ⟨before.id, source.id⟩)
    (ends : connection.target = ⟨after.id, target.id⟩) (ids : Ids) :
    (editor.connect before.id source.id after.id target.id ids).1.isOk ↔
      (editor.graph.withConnection connection).check.isOk := by
  have sound := Graph.consistent_iff_sound.mp consistent
  have wellFormed := (Graph.check_eq_ok_iff.mp consistent.accepted.choose_spec).1
  have first := places_of_mem sound.ids (fun _ => sound.ports_nodup) here
  have last := places_of_mem sound.ids (fun _ => sound.ports_nodup) there
  rw [connect_isOk_iff first last leaves enters,
    Graph.check_withConnection_isOk_iff wellFormed first last leaves enters starts ends,
    ← sound.connected_iff_fed there enters, Bool.not_eq_true]

/-- In a graph that passes its check, an editor connects an output to an input exactly where
the connected graph would pass too, unless the ports suit each other and the flag of
the input does not say whether a connection ends there.  What an editor makes of the graph
passes exactly if the connected graph does. -/
theorem connect_agrees_iff {report : Graph.Report} (accepted : editor.graph.check = .ok report)
    (here : before ∈ editor.graph.nodes) (there : after ∈ editor.graph.nodes)
    (distinct : ∀ node ∈ editor.graph.nodes, (node.ports.map (·.id)).Nodup)
    (leaves : source ∈ before.outputs) (enters : target ∈ after.inputs) {connection : Connection}
    (starts : connection.source = ⟨before.id, source.id⟩)
    (ends : connection.target = ⟨after.id, target.id⟩) (ids : Ids) :
    (((editor.connect before.id source.id after.id target.id ids).1.isOk ↔
          (editor.graph.withConnection connection).check.isOk) ↔
        (source.Suits target → (target.connected ↔ editor.graph.Fed connection.target))) ∧
      ∀ edited change,
        (editor.connect before.id source.id after.id target.id ids).1 = .ok (edited, change) →
          (edited.graph.check.isOk ↔ (editor.graph.withConnection connection).check.isOk) := by
  have wellFormed := (Graph.check_eq_ok_iff.mp accepted).1
  have first := places_of_mem wellFormed.nodes distinct here
  have last := places_of_mem wellFormed.nodes distinct there
  constructor
  · rw [connect_isOk_iff first last leaves enters,
      Graph.check_withConnection_isOk_iff wellFormed first last leaves enters starts ends, ends]
    cases target.connected <;> simp
  · intro edited change connects
    obtain ⟨made, _, same, dataType, resolved⟩ := connect_eq_ok connects
    rw [resolve_of_places first last leaves enters] at resolved
    obtain ⟨_, pair⟩ := bind_unit_eq_ok_iff.mp resolved
    obtain ⟨start, stop, _⟩ := Prod.mk.inj (Except.ok.inj pair) |>.imp_right Prod.mk.inj
    rw [same, Graph.check_isOk_iff, Graph.wellFormed_addConnection, ← Graph.check_isOk_iff,
      Graph.check_withConnection_isOk_iff wellFormed first last leaves enters start.symm stop.symm,
      Graph.check_withConnection_isOk_iff wellFormed first last leaves enters starts ends]

end Editor

/-- A logging node that one of two triggers feeds if it is `wired`, and whose input has
the given flag. -/
def handWritten (wired flag : Bool) : Graph :=
  let port (id : String) (direction : Direction) (connected : Bool) : Port :=
    ⟨id, "main", direction, anyType, connected⟩
  let node (id template : String) (kind : Kind) (inputs outputs : List Port) : Node :=
    ⟨id, template, kind, id, [], inputs, outputs, .idle, .origin⟩
  { id := .nil
    name := "hand"
    nodes :=
      [ node "a" "manual-trigger" .trigger [] [port "a-out" .output false],
        node "b" "manual-trigger" .trigger [] [port "b-out" .output false],
        node "c" "log" .action [port "c-in" .input flag] [] ]
    connections :=
      if wired then [⟨"wire", ⟨"a", "a-out"⟩, ⟨"c", "c-in"⟩, anyType⟩] else [] }

theorem connect_of_wired_agrees :
    ((Editor.new (handWritten true true) 1).connect "b" "b-out" "c" "c-in" ⟨0⟩).1.isOk ↔
      ((handWritten true true).withConnection
        ⟨"new", ⟨"b", "b-out"⟩, ⟨"c", "c-in"⟩, anyType⟩).check.isOk := by
  let editor := Editor.new (handWritten true true) 1
  let before := editor.graph.nodes.get ⟨1, by decide⟩
  let after := editor.graph.nodes.get ⟨2, by decide⟩
  let connection : Connection := ⟨"new", ⟨"b", "b-out"⟩, ⟨"c", "c-in"⟩, anyType⟩
  have accepted : editor.graph.check = .ok ⟨["a", "b"], false⟩ := rfl
  have here : before ∈ editor.graph.nodes := List.get_mem _ _
  have there : after ∈ editor.graph.nodes := List.get_mem _ _
  have distinct : ∀ node ∈ editor.graph.nodes, (node.ports.map (·.id)).Nodup := by decide
  have leaves : ⟨"b-out", "main", .output, anyType, false⟩ ∈ before.outputs := by decide
  have enters : ⟨"c-in", "main", .input, anyType, true⟩ ∈ after.inputs := by decide
  have starts : connection.source = ⟨before.id, "b-out"⟩ := rfl
  have ends : connection.target = ⟨after.id, "c-in"⟩ := rfl
  have agrees :=
    Editor.connect_agrees_iff accepted here there distinct leaves enters starts ends ⟨0⟩
  have fed : editor.graph.Fed connection.target := ⟨_, List.mem_singleton.mpr rfl, rfl⟩
  exact agrees.1.mpr fun _ => ⟨fun _ => fed, fun _ => rfl⟩

/-- Where the flag is wrong, a fed input is fed again and a free one is refused. -/
theorem connect_disagrees_unflagged :
    ((handWritten true false).check.isOk ∧
      ((Editor.new (handWritten true false) 1).connect "b" "b-out" "c" "c-in" ⟨0⟩).1.isOk ∧
      ¬ ((handWritten true false).withConnection
        ⟨"new", ⟨"b", "b-out"⟩, ⟨"c", "c-in"⟩, anyType⟩).check.isOk) ∧
    ((handWritten false true).check.isOk ∧
      ¬ ((Editor.new (handWritten false true) 1).connect "b" "b-out" "c" "c-in" ⟨0⟩).1.isOk ∧
      ((handWritten false true).withConnection
        ⟨"new", ⟨"b", "b-out"⟩, ⟨"c", "c-in"⟩, anyType⟩).check.isOk) := by
  decide

end Workflow
