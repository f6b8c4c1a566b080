import Workflow.Editor
import Workflow.Proofs.Outline
import Workflow.Proofs.WellFormed

/-! Consistent graphs.

A graph is consistent if it passes its check, no name stands for two things, its
ports are listed by direction, and the flags of its ports say what its
connections say.  `Graph.Sound` says the same of what is listed, and each change
that an edit makes keeps it.
-/

namespace Workflow

theorem Node.mem_ports_of_port? {node : Node} {port : Port} {reference : String}
    (found : node.port? reference = some port) : port ∈ node.ports := by
  unfold port? at found
  split at found
  next other listed =>
    obtain rfl := Option.some.inj found
    exact List.mem_of_find?_eq_some listed
  next => exact List.mem_of_find?_eq_some found

namespace Graph

/-- What is expected of a graph that is edited. -/
structure Consistent (graph : Graph) : Prop where
  accepted : ∃ report, graph.check = .ok report
  distinct : graph.names.Nodup
  inputs : ∀ node ∈ graph.nodes, ∀ port ∈ node.inputs, port.direction = .input
  outputs : ∀ node ∈ graph.nodes, ∀ port ∈ node.outputs, port.direction = .output
  flags : ∀ node ∈ graph.nodes, ∀ port ∈ node.ports,
    port.connected = graph.uses ⟨node.id, port.id⟩

/-- Consistency in terms of what a graph contains, without look-ups. -/
structure Sound (graph : Graph) : Prop where
  shaped : Shaped graph.outlines graph.connections
  flags : ∀ node ∈ graph.nodes, ∀ port ∈ node.ports,
    port.connected = graph.uses ⟨node.id, port.id⟩

variable {graph : Graph} {connection : Connection} {node : Node} {port : Port}

theorem names_eq (graph : Graph) :
    graph.outlines.flatMap Outline.names ++ graph.connections.map (·.id) = graph.names := by
  simp [outlines, names, List.flatMap_map]

theorem find?_of_nodup {α κ : Type} [DecidableEq κ] {key : α → κ} {elements : List α} {element : α}
    (distinct : (elements.map key).Nodup) (member : element ∈ elements) :
    (elements.find? fun other => key other = key element) = some element := by
  cases found : elements.find? fun other => key other = key element with
  | none =>
      have missing := List.find?_eq_none.mp found element member
      simp at missing
  | some other =>
      have same : key other = key element := by simpa using List.find?_some found
      rw [List.inj_on_of_nodup_map distinct (List.mem_of_find?_eq_some found) member same]

namespace Sound

theorem ids (sound : graph.Sound) : (graph.nodes.map (·.id)).Nodup := by
  have distinct := sound.shaped.ids
  rwa [outlines, List.map_map] at distinct

theorem inputs (sound : graph.Sound) (member : node ∈ graph.nodes) (inside : port ∈ node.inputs) :
    port.direction = .input :=
  sound.shaped.inputs node.outline (List.mem_map_of_mem member) port.free
    (List.mem_map_of_mem inside)

theorem outputs (sound : graph.Sound) (member : node ∈ graph.nodes)
    (inside : port ∈ node.outputs) : port.direction = .output :=
  sound.shaped.outputs node.outline (List.mem_map_of_mem member) port.free
    (List.mem_map_of_mem inside)

theorem ports_nodup (sound : graph.Sound) (member : node ∈ graph.nodes) :
    (node.ports.map (·.id)).Nodup := by
  have distinct := sound.shaped.names_nodup (List.mem_map_of_mem member)
  rw [Node.outline_names, Node.names, List.nodup_cons] at distinct
  exact distinct.2

theorem node?_of_mem (sound : graph.Sound) (member : node ∈ graph.nodes) :
    graph.node? node.id = some node :=
  find?_of_nodup sound.ids member

end Sound

/-- Connections join the same whether their ends are looked up or listed. -/
theorem Sound.joined (sound : graph.Sound) (member : connection ∈ graph.connections) :
    graph.Joined connection := by
  obtain ⟨leaving, left, source, out, entered, enters, target, into, starts, ends, feeds⟩ :=
    sound.shaped.joined connection member
  obtain ⟨before, here, rfl⟩ := List.mem_map.mp left
  obtain ⟨after, there, rfl⟩ := List.mem_map.mp enters
  obtain ⟨first, output, rfl⟩ := List.mem_map.mp out
  obtain ⟨last, input, rfl⟩ := List.mem_map.mp into
  have outputs := (sound.ports_nodup here).sublist ((List.sublist_append_right _ _).map _)
  have inputs := (sound.ports_nodup there).sublist ((List.sublist_append_left _ _).map _)
  refine ⟨first, last, ?_, ?_, sound.outputs here output, sound.inputs there input, feeds⟩
  · rw [sourcePort?, starts]
    show (graph.node? before.id).bind _ = _
    rw [sound.node?_of_mem here]
    exact find?_of_nodup outputs output
  · rw [targetPort?, ends]
    show (graph.node? after.id).bind _ = _
    rw [sound.node?_of_mem there]
    exact find?_of_nodup inputs input

theorem joins_of_joined (joined : graph.Joined connection) :
    Joins graph.outlines connection := by
  obtain ⟨source, target, leaves, enters, _, _, feeds⟩ := joined
  obtain ⟨before, here, output⟩ := Option.bind_eq_some_iff.mp leaves
  obtain ⟨after, there, input⟩ := Option.bind_eq_some_iff.mp enters
  refine ⟨before.outline, List.mem_map_of_mem (List.mem_of_find?_eq_some here), source.free,
    List.mem_map_of_mem (List.mem_of_find?_eq_some output), after.outline,
    List.mem_map_of_mem (List.mem_of_find?_eq_some there), target.free,
    List.mem_map_of_mem (List.mem_of_find?_eq_some input), ?_, ?_, feeds⟩
  · have port : source.id = connection.source.portId := by simpa using List.find?_some output
    rw [Node.outline, Port.free]
    dsimp only
    rw [(mem_of_node? here).2, port]
  · have port : target.id = connection.target.portId := by simpa using List.find?_some input
    rw [Node.outline, Port.free]
    dsimp only
    rw [(mem_of_node? there).2, port]

theorem consistent_iff_sound : graph.Consistent ↔ graph.Sound := by
  constructor
  · intro consistent
    obtain ⟨report, accepted⟩ := consistent.accepted
    have wellFormed := (check_eq_ok_iff.mp accepted).1
    refine ⟨⟨?_, ?_, ?_, ?_, wellFormed.single⟩, consistent.flags⟩
    · rw [names_eq]
      exact consistent.distinct
    · intro outline member port inside
      obtain ⟨node, known, rfl⟩ := List.mem_map.mp member
      obtain ⟨port, input, rfl⟩ := List.mem_map.mp inside
      exact consistent.inputs node known port input
    · intro outline member port inside
      obtain ⟨node, known, rfl⟩ := List.mem_map.mp member
      obtain ⟨port, output, rfl⟩ := List.mem_map.mp inside
      exact consistent.outputs node known port output
    · exact fun connection member => joins_of_joined (wellFormed.joined connection member)
  · intro sound
    have wellFormed : graph.WellFormed :=
      ⟨sound.ids, fun connection member => sound.joined member, sound.shaped.single⟩
    exact
      { accepted := ⟨_, check_eq_ok_iff.mpr ⟨wellFormed, rfl⟩⟩
        distinct := names_eq graph ▸ sound.shaped.distinct
        inputs := fun node member port => sound.inputs member
        outputs := fun node member port => sound.outputs member
        flags := sound.flags }

/-! What changes nodes one by one. -/

theorem outlines_modifyNode {id : String} {f : Node → Node}
    (same : ∀ node, (f node).outline = node.outline) :
    (graph.modifyNode id f).outlines = graph.outlines := by
  have go (nodes : List Node) :
      (modifyNode.go id f nodes).map Node.outline = nodes.map Node.outline := by
    induction nodes with
    | nil => rfl
    | cons node rest ih =>
        rw [modifyNode.go]
        split
        · rw [List.map_cons, List.map_cons, same]
        · rw [List.map_cons, List.map_cons, ih]
  exact go graph.nodes

theorem mem_modifyNode (distinct : (graph.nodes.map (·.id)).Nodup) {id : String} {f : Node → Node}
    (member : node ∈ (graph.modifyNode id f).nodes) :
    (node ∈ graph.nodes ∧ node.id ≠ id) ∨
      ∃ before ∈ graph.nodes, before.id = id ∧ node = f before := by
  have go (nodes : List Node) (distinct : (nodes.map (·.id)).Nodup)
      (member : node ∈ modifyNode.go id f nodes) :
      (node ∈ nodes ∧ node.id ≠ id) ∨ ∃ before ∈ nodes, before.id = id ∧ node = f before := by
    induction nodes with
    | nil => contradiction
    | cons first rest ih =>
        rw [List.map_cons, List.nodup_cons] at distinct
        rw [modifyNode.go] at member
        split at member
        · rename_i here
          rcases List.mem_cons.mp member with rfl | later
          · exact .inr ⟨first, by simp, here, rfl⟩
          · refine .inl ⟨by simp [later], fun again => distinct.1 ?_⟩
            exact List.mem_map.mpr ⟨node, later, again.trans here.symm⟩
        · rename_i elsewhere
          rcases List.mem_cons.mp member with rfl | later
          · exact .inl ⟨by simp, elsewhere⟩
          · rcases ih distinct.2 later with ⟨old, other⟩ | ⟨before, present, here, same⟩
            · exact .inl ⟨by simp [old], other⟩
            · exact .inr ⟨before, by simp [present], here, same⟩
  exact go graph.nodes distinct member

theorem modifyNode_split {id : String} (found : graph.node? id = some node) (f : Node → Node) :
    ∃ before after, graph.nodes = before ++ node :: after ∧
      (graph.modifyNode id f).nodes = before ++ f node :: after := by
  have go (nodes : List Node) (found : nodes.find? (fun node => node.id = id) = some node) :
      ∃ before after, nodes = before ++ node :: after ∧
        modifyNode.go id f nodes = before ++ f node :: after := by
    induction nodes with
    | nil => contradiction
    | cons first rest ih =>
        rw [modifyNode.go]
        by_cases here : first.id = id
        · rw [List.find?_cons_of_pos (by simpa using here)] at found
          obtain rfl := Option.some.inj found
          exact ⟨[], rest, rfl, by rw [if_pos here]; rfl⟩
        · rw [List.find?_cons_of_neg (by simpa using here)] at found
          obtain ⟨before, after, split, changed⟩ := ih found
          refine ⟨first :: before, after, by rw [split]; rfl, ?_⟩
          rw [if_neg here, changed]
          rfl
  exact go graph.nodes found

/-- Titles, configurations and statuses have no part in consistency. -/
theorem Sound.modifyNode (sound : graph.Sound) {id : String} {f : Node → Node}
    (same : ∀ node, (f node).id = node.id ∧ (f node).inputs = node.inputs ∧
      (f node).outputs = node.outputs) : (graph.modifyNode id f).Sound where
  shaped := by
    rw [outlines_modifyNode fun node => by simp [Node.outline, same node]]
    exact sound.shaped
  flags node member port inside := by
    rcases mem_modifyNode sound.ids member with ⟨old, _⟩ | ⟨before, old, _, rfl⟩
    · exact sound.flags node old port inside
    · obtain ⟨id, inputs, outputs⟩ := same before
      rw [Node.ports, inputs, outputs] at inside
      rw [id]
      exact sound.flags before old port inside

theorem outlines_refreshFlags (graph : Graph) : graph.refreshFlags.outlines = graph.outlines := by
  simp [outlines, refreshFlags, Node.outline, Node.mapPorts, Port.free, Function.comp_def]

/-- Flags that are set anew say what the connections say. -/
theorem sound_refreshFlags (shaped : Shaped graph.outlines graph.connections) :
    graph.refreshFlags.Sound where
  shaped := graph.outlines_refreshFlags.symm ▸ shaped
  flags node member port inside := by
    obtain ⟨before, _, rfl⟩ := List.mem_map.mp member
    rw [Node.ports, Node.mapPorts, ← List.map_append] at inside
    obtain ⟨old, _, rfl⟩ := List.mem_map.mp inside
    rfl

theorem Sound.removeNode (sound : graph.Sound) (id : String) : (graph.removeNode id).Sound := by
  refine sound_refreshFlags ?_
  have outlines : (graph.nodes.eraseP fun node => node.id = id).map Node.outline =
      graph.outlines.eraseP fun outline => outline.id = id := by
    rw [Graph.outlines, List.eraseP_map]
    rfl
  simp only [Graph.outlines, outlines]
  exact sound.shaped.remove id

theorem Sound.removeConnection (sound : graph.Sound) (id : String) :
    (graph.removeConnection id).Sound := by
  refine sound_refreshFlags (sound.shaped.restrict (List.Sublist.refl _)
    (List.eraseP_sublist ..) fun connection member => ?_)
  exact sound.shaped.joined connection ((List.eraseP_sublist ..).subset member)

theorem Sound.uses_eq_false (sound : graph.Sound) {endpoint : Endpoint}
    (new : endpoint.nodeId ∉ graph.names ∨ endpoint.portId ∉ graph.names) :
    graph.uses endpoint = false := by
  by_contra used
  simp only [uses, Bool.not_eq_false, List.any_eq_true, Bool.or_eq_true, decide_eq_true_eq] at used
  obtain ⟨connection, member, ends⟩ := used
  obtain ⟨outline, known, id, port⟩ := (sound.shaped.joined connection member).names_mem ends
  have inside : outline.names ⊆ graph.names := by
    rw [← names_eq]
    exact fun name here => List.mem_append_left _ (List.mem_flatMap.mpr ⟨outline, known, here⟩)
  rcases new with new | new
  · exact new (inside (by simp [id, Outline.names]))
  · exact new (inside port)

theorem Sound.addNode (sound : graph.Sound) {ids later : Ids} (unused : ids.Unused graph.names)
    (new : node.New ids later) : (graph.addNode node).Sound where
  shaped := by
    have outlines : (graph.addNode node).outlines = graph.outlines ++ [node.outline] := by
      simp [Graph.outlines, Graph.addNode]
    rw [outlines]
    refine sound.shaped.add ?_ ?_ ?_ ?_
    · rw [Node.outline_names]
      exact new.named.distinct
    · rw [Node.outline_names, names_eq]
      exact fun name member => new.named.notMem unused member
    · intro port member
      obtain ⟨port, inside, rfl⟩ := List.mem_map.mp member
      exact (new.inputs port inside).1
    · intro port member
      obtain ⟨port, inside, rfl⟩ := List.mem_map.mp member
      exact (new.outputs port inside).1
  flags other member port inside := by
    rcases List.mem_append.mp member with old | same
    · exact sound.flags other old port inside
    · obtain rfl := List.mem_singleton.mp same
      have free : port.connected = false := by
        rcases List.mem_append.mp inside with input | output
        · exact (new.inputs port input).2
        · exact (new.outputs port output).2
      have unknown : other.id ∉ graph.names :=
        new.named.notMem unused (List.mem_cons_self ..)
      rw [free]
      exact (sound.uses_eq_false (.inl unknown)).symm

theorem Sound.growNode (sound : graph.Sound) {ids later : Ids} (unused : ids.Unused graph.names)
    {id : String} (found : graph.node? id = some node) {grown : Node} {extra : List Port}
    (new : Port.AllNew .output ids later extra) (same : grown.id = node.id)
    (inputs : grown.inputs = node.inputs) (outputs : grown.outputs = node.outputs ++ extra) :
    (graph.modifyNode id fun _ => grown).Sound where
  shaped := by
    obtain ⟨before, after, split, changed⟩ := modifyNode_split found fun _ => grown
    have shaped := sound.shaped
    have used := names_eq graph
    rw [Graph.outlines, split, List.map_append, List.map_cons] at shaped used
    have outline : grown.outline =
        { node.outline with outputs := node.outline.outputs ++ extra.map Port.free } := by
      simp [Node.outline, same, inputs, outputs]
    rw [Graph.outlines, changed, List.map_append, List.map_cons, outline]
    have names : (extra.map Port.free).map (·.id) = extra.map (·.id) := by
      simp [Port.free]
    refine shaped.extend ?_ ?_ ?_
    · rw [names]
      exact new.named.distinct
    · rw [names, used]
      exact fun name member => new.named.notMem unused member
    · intro port member
      obtain ⟨port, inside, rfl⟩ := List.mem_map.mp member
      exact (new.free port inside).1
  flags other member port inside := by
    rcases mem_modifyNode sound.ids member with ⟨old, _⟩ | ⟨before, old, here, rfl⟩
    · exact sound.flags other old port inside
    · obtain ⟨present, here'⟩ := mem_of_node? found
      rw [Node.ports, inputs, outputs, ← List.append_assoc] at inside
      rcases List.mem_append.mp inside with inside | inside
      · rw [same]
        exact sound.flags node present port inside
      · have unknown : port.id ∉ graph.names :=
          new.named.notMem unused (List.mem_map_of_mem inside)
        rw [(new.free port inside).2]
        exact (sound.uses_eq_false (.inr unknown)).symm

/-- Whether the flags of nodes say what is given for the places of their ports. -/
def Flagged (nodes : List Node) (marks : Endpoint → Bool) : Prop :=
  ∀ node ∈ nodes, ∀ port ∈ node.ports, port.connected = marks ⟨node.id, port.id⟩

theorem outlines_markConnected (graph : Graph) (endpoint : Endpoint) :
    (graph.markConnected endpoint).outlines = graph.outlines := by
  refine outlines_modifyNode fun node => ?_
  have kept (port : Port) : Port.free (if port.id = endpoint.portId then
      { port with connected := true } else port) = port.free := by
    split <;> rfl
  simp [Node.outline, Node.mapPorts, Function.comp_def, kept]

theorem Flagged.markConnected {marks : Endpoint → Bool} (flagged : Flagged graph.nodes marks)
    (distinct : (graph.nodes.map (·.id)).Nodup) (endpoint : Endpoint) :
    Flagged (graph.markConnected endpoint).nodes fun place => marks place || place = endpoint := by
  intro node member port inside
  rcases mem_modifyNode distinct member with ⟨old, elsewhere⟩ | ⟨before, old, here, rfl⟩
  · have other : (⟨node.id, port.id⟩ : Endpoint) ≠ endpoint := fun same =>
      elsewhere (same ▸ rfl)
    simpa [other] using flagged node old port inside
  · rw [Node.ports, Node.mapPorts, ← List.map_append] at inside
    obtain ⟨earlier, present, rfl⟩ := List.mem_map.mp inside
    have marked := flagged before old earlier present
    by_cases same : earlier.id = endpoint.portId
    · have itself : (⟨before.id, endpoint.portId⟩ : Endpoint) = endpoint := by rw [here]
      simp [same, Node.mapPorts, itself]
    · have other : (⟨before.id, earlier.id⟩ : Endpoint) ≠ endpoint := fun equal =>
        same (equal ▸ rfl)
      simpa [same, other, Node.mapPorts] using marked

theorem portOf_eq_ok {id reference : String} (found : graph.portOf id reference = .ok port) :
    ∃ node ∈ graph.nodes, node.id = id ∧ port ∈ node.ports := by
  unfold portOf at found
  cases known : graph.node? id with
  | none =>
      rw [known] at found
      contradiction
  | some node =>
      rw [known] at found
      obtain ⟨member, same⟩ := mem_of_node? known
      dsimp only at found
      cases listed : node.port? reference with
      | none =>
          rw [listed] at found
          contradiction
      | some first =>
          rw [listed] at found
          obtain rfl := Except.ok.inj found
          exact ⟨node, member, same, node.mem_ports_of_port? listed⟩

theorem resolve_eq_ok {sourceNode sourcePort targetNode targetPort dataType : String}
    {source target : Endpoint}
    (resolved : Editor.resolve graph sourceNode sourcePort targetNode targetPort =
      .ok (source, target, dataType)) :
    ∃ before ∈ graph.nodes, ∃ leaving ∈ before.ports, ∃ after ∈ graph.nodes,
      ∃ entered ∈ after.ports, source = ⟨before.id, leaving.id⟩ ∧ target = ⟨after.id, entered.id⟩ ∧
        leaving.checkJoin targetNode entered = .ok () := by
  obtain ⟨leaving, left, resolved⟩ := bind_eq_ok_iff.mp resolved
  obtain ⟨entered, enters, resolved⟩ := bind_eq_ok_iff.mp resolved
  obtain ⟨checked, same⟩ := bind_unit_eq_ok_iff.mp resolved
  obtain ⟨before, here, rfl, out⟩ := portOf_eq_ok left
  obtain ⟨after, there, rfl, into⟩ := portOf_eq_ok enters
  cases same
  exact ⟨before, here, leaving, out, after, there, entered, into, rfl, rfl, checked⟩

theorem Sound.mem_inputs (sound : graph.Sound) (member : node ∈ graph.nodes)
    (inside : port ∈ node.ports) (enters : port.direction = .input) : port ∈ node.inputs := by
  rcases List.mem_append.mp inside with input | output
  · exact input
  · have leaves := sound.outputs member output
    rw [enters] at leaves
    contradiction

theorem Sound.mem_outputs (sound : graph.Sound) (member : node ∈ graph.nodes)
    (inside : port ∈ node.ports) (leaves : port.direction = .output) : port ∈ node.outputs := by
  rcases List.mem_append.mp inside with input | output
  · have enters := sound.inputs member input
    rw [leaves] at enters
    contradiction
  · exact output

/-- A connection is added where a port that is marked as free is marked as taken. -/
theorem Sound.addConnection (sound : graph.Sound) {ids : Ids} (unused : ids.Unused graph.names)
    {sourceNode sourcePort targetNode targetPort dataType : String} {source target : Endpoint}
    (resolved : Editor.resolve graph sourceNode sourcePort targetNode targetPort =
      .ok (source, target, dataType)) :
    (graph.addConnection ⟨Uuid.name ids.next, source, target, dataType⟩).Sound := by
  obtain ⟨before, here, leaving, out, after, there, entered, into, rfl, rfl, checked⟩ :=
    resolve_eq_ok resolved
  obtain ⟨leaves, enters, free, feeds⟩ := Port.checkJoin_eq_ok_iff.mp checked
  constructor
  · rw [Graph.addConnection, outlines_markConnected, outlines_markConnected]
    refine sound.shaped.connect ?_ ?_ ?_
    · exact ⟨before.outline, List.mem_map_of_mem here, leaving.free,
        List.mem_map_of_mem (sound.mem_outputs here out leaves), after.outline,
        List.mem_map_of_mem there, entered.free,
        List.mem_map_of_mem (sound.mem_inputs there into enters), rfl, rfl, feeds⟩
    · rw [names_eq]
      exact unused ids.next (Nat.le_refl _)
    · intro taken
      have unmarked := (sound.flags after there entered into).symm.trans free
      obtain ⟨other, member, same⟩ := List.mem_map.mp taken
      have used : graph.uses ⟨after.id, entered.id⟩ :=
        List.any_eq_true.mpr ⟨other, member, by simp [same]⟩
      rw [unmarked] at used
      contradiction
  · -- The first mark is made in a graph whose flags are one behind, the second one in a
    -- graph where the first one is made.
    let wider : Graph := { graph with connections := graph.connections ++
      [⟨Uuid.name ids.next, ⟨before.id, leaving.id⟩, ⟨after.id, entered.id⟩, dataType⟩] }
    have start : Flagged wider.nodes graph.uses := sound.flags
    have middle := start.markConnected sound.ids ⟨before.id, leaving.id⟩
    have distinct : ((wider.markConnected ⟨before.id, leaving.id⟩).nodes.map (·.id)).Nodup := by
      have outlines := outlines_markConnected wider ⟨before.id, leaving.id⟩
      have ids := congrArg (List.map Outline.id) outlines
      rw [Graph.outlines, Graph.outlines, List.map_map, List.map_map] at ids
      exact ids ▸ sound.ids
    intro node member port inside
    rw [middle.markConnected distinct ⟨after.id, entered.id⟩ node member port inside]
    simp [Graph.addConnection, Graph.markConnected, Graph.modifyNode, uses, eq_comm, Bool.or_assoc]

end Graph

end Workflow
