import Workflow.Proofs.Connecting
import Workflow.Proofs.ConsistentSessions

/-! Connecting ports by their keys.

Commands refer to ports by id or by key, and a reference is looked up among all ports of a
node: first as an id, then as a key, and then among the inputs before the outputs.  Keys
are chosen freely, so that a key may name another port than the one that has it.
`Editor.session_connects_keys_iff` says when it does not, and that the connection is then
made.
-/

namespace Workflow

namespace Node

variable {node : Node} {port : Port}

/-- Whether no other port stands in the way of the key of a port: none has it for its id,
and no input has it for its key, unless the port has it for its id too. -/
structure KeyNames (node : Node) (port : Port) : Prop where
  ids : ∀ other ∈ node.ports, other.id = port.key → other = port
  inputs : port.id = port.key ∨ ∀ other ∈ node.inputs, other.key = port.key → other = port

/-- Among the ports that have its key, the port that is found first is the only input, or
else an output that is the first of its key. -/
theorem find?_key_iff (distinct : (node.ports.map (·.id)).Nodup)
    (member : port ∈ node.inputs ∧ (node.inputs.map (·.key)).Nodup ∨
      port ∈ node.outputs ∧ node.outputKeys.Nodup) :
    (node.ports.find? fun other => other.key = port.key) = some port ↔
      ∀ other ∈ node.inputs, other.key = port.key → other = port := by
  rw [ports, List.find?_append]
  rcases member with ⟨enters, keys⟩ | ⟨leaves, keys⟩
  · rw [Graph.find?_of_nodup keys enters]
    exact iff_of_true rfl fun other also same => List.inj_on_of_nodup_map keys also enters same
  · rw [Graph.find?_of_nodup keys leaves]
    cases found : node.inputs.find? fun other => other.key = port.key with
    | none =>
        refine iff_of_true rfl fun other enters same => ?_
        simpa [same] using List.find?_eq_none.mp found other enters
    | some other =>
        have enters := List.mem_of_find?_eq_some found
        have same : other.key = port.key := by simpa using List.find?_some found
        rw [ports, List.map_append, List.nodup_append'] at distinct
        refine iff_of_false (fun here => ?_) fun only => ?_
        · obtain rfl := Option.some.inj here
          exact distinct.2.2 (List.mem_map_of_mem enters) (List.mem_map_of_mem leaves)
        · obtain rfl := only other enters same
          exact distinct.2.2 (List.mem_map_of_mem enters) (List.mem_map_of_mem leaves)

/-- A port whose key no other port has on its side is found by its key exactly if nothing
stands in the way. -/
theorem port?_key_iff (distinct : (node.ports.map (·.id)).Nodup)
    (member : port ∈ node.inputs ∧ (node.inputs.map (·.key)).Nodup ∨
      port ∈ node.outputs ∧ node.outputKeys.Nodup) :
    node.port? port.key = some port ↔ node.KeyNames port := by
  have inside : port ∈ node.ports := by
    rcases member with ⟨enters, _⟩ | ⟨leaves, _⟩
    · exact List.mem_append_left _ enters
    · exact List.mem_append_right _ leaves
  unfold port?
  split
  next other found =>
    have listed := List.mem_of_find?_eq_some found
    have named : other.id = port.key := by simpa using List.find?_some found
    constructor
    · intro same
      obtain rfl := Option.some.inj same
      exact ⟨fun another here alike =>
        List.inj_on_of_nodup_map distinct here listed (alike.trans named.symm), .inl named⟩
    · exact fun names => congrArg some (names.ids other listed named)
  next missing =>
    have unnamed (other : Port) (listed : other ∈ node.ports) : other.id ≠ port.key := by
      simpa using List.find?_eq_none.mp missing other listed
    rw [find?_key_iff distinct member]
    constructor
    · exact fun only => ⟨fun other listed same => absurd same (unnamed other listed), .inr only⟩
    · exact fun names => names.inputs.resolve_left (unnamed port inside)

end Node

theorem Graph.portOf_eq_ok_iff {graph : Graph} {node : Node} {id reference : String} {port : Port}
    (found : graph.node? id = some node) :
    graph.portOf id reference = .ok port ↔ node.port? reference = some port := by
  rw [portOf, found]
  cases listed : node.port? reference <;> simp [listed]

namespace Editor

variable {editor : Editor} {before after : Node} {output input : Port}

/-- What two references are resolved to are the ports that they find. -/
theorem resolve_eq_ok_iff (here : editor.graph.node? before.id = some before)
    (there : editor.graph.node? after.id = some after) (first second : String)
    (ends : Endpoint × Endpoint × String) :
    resolve editor.graph before.id first after.id second = .ok ends ↔
      ∃ source target, before.port? first = some source ∧ after.port? second = some target ∧
        source.checkJoin after.id target = .ok () ∧
        ends = (⟨before.id, source.id⟩, ⟨after.id, target.id⟩, source.joinedType target) := by
  unfold resolve
  simp only [bind_eq_ok_iff, Graph.portOf_eq_ok_iff here, Graph.portOf_eq_ok_iff there]
  constructor
  · rintro ⟨source, leaves, target, enters, _, checked, whole⟩
    exact ⟨source, target, leaves, enters, checked, (Except.ok.inj whole).symm⟩
  · rintro ⟨source, target, leaves, enters, checked, rfl⟩
    exact ⟨source, leaves, target, enters, (), checked, rfl⟩

/-- In a sound graph, what two ports are found by is resolved to them if they suit each other
and nothing ends at the second one. -/
theorem resolve_of_found (sound : editor.graph.Sound) (here : before ∈ editor.graph.nodes)
    (there : after ∈ editor.graph.nodes) (leaves : output ∈ before.outputs)
    (enters : input ∈ after.inputs) (suits : output.feeds input)
    (free : ¬ editor.graph.Fed ⟨after.id, input.id⟩) {first second : String}
    (found : before.port? first = some output) (located : after.port? second = some input) :
    resolve editor.graph before.id first after.id second =
      .ok (⟨before.id, output.id⟩, ⟨after.id, input.id⟩, output.joinedType input) := by
  have unmarked : input.connected = false :=
    Bool.not_eq_true _ ▸ fun marked => free ((sound.connected_iff_fed there enters).mp marked)
  have joins : output.checkJoin after.id input = .ok () := Port.checkJoin_eq_ok_iff.mpr
    ⟨sound.outputs here leaves, sound.inputs there enters, unmarked, suits⟩
  exact (resolve_eq_ok_iff (sound.node?_of_mem here) (sound.node?_of_mem there) first second
    _).mpr ⟨output, input, found, located, joins, rfl⟩

/-- In a graph whose names are distinct, two keys connect the ports that have them exactly
if nothing stands in the way of either. -/
theorem connect_keys_iff (sound : editor.graph.Sound) (here : before ∈ editor.graph.nodes)
    (there : after ∈ editor.graph.nodes) (leaves : output ∈ before.outputs)
    (enters : input ∈ after.inputs) (outputs : before.outputKeys.Nodup)
    (inputs : (after.inputs.map (·.key)).Nodup) (suits : output.feeds input)
    (free : ¬ editor.graph.Fed ⟨after.id, input.id⟩) (ids : Ids) :
    (∃ edited connection,
        (editor.connect before.id output.key after.id input.key ids).1 =
          .ok (edited, .connected connection) ∧
        connection.source = ⟨before.id, output.id⟩ ∧ connection.target = ⟨after.id, input.id⟩ ∧
        edited.graph.connections = editor.graph.connections ++ [connection]) ↔
      before.KeyNames output ∧ after.KeyNames input := by
  have first := sound.ports_nodup here
  have last := sound.ports_nodup there
  have source := Node.port?_key_iff first (.inr ⟨leaves, outputs⟩)
  have target := Node.port?_key_iff last (.inl ⟨enters, inputs⟩)
  have ends := resolve_eq_ok_iff (sound.node?_of_mem here) (sound.node?_of_mem there) output.key
    input.key
  rw [← source, ← target]
  constructor
  · rintro ⟨edited, connection, connects, starts, stops, _⟩
    obtain ⟨made, same, _, _, resolved⟩ := connect_eq_ok connects
    obtain rfl := Change.connected.inj same
    obtain ⟨start, stop, found, located, _, same⟩ := (ends _).mp resolved
    obtain ⟨one, other, _⟩ := (Prod.mk.inj same).imp_right Prod.mk.inj
    obtain rfl := List.inj_on_of_nodup_map first (Node.mem_ports_of_port? found)
      (List.mem_append_right _ leaves) (Endpoint.mk.inj (one.symm.trans starts)).2
    obtain rfl := List.inj_on_of_nodup_map last (Node.mem_ports_of_port? located)
      (List.mem_append_left _ enters) (Endpoint.mk.inj (other.symm.trans stops)).2
    exact ⟨found, located⟩
  · rintro ⟨found, located⟩
    have resolved := resolve_of_found sound here there leaves enters suits free found located
    let connection : Connection := ⟨(Ids.name ids).1, ⟨before.id, output.id⟩,
      ⟨after.id, input.id⟩, output.joinedType input⟩
    refine ⟨editor.commit (editor.graph.addConnection connection), connection, ?_, rfl, rfl, rfl⟩
    rw [connect, resolved]
    rfl

/-- What is edited out of a graph that can be edited is sound. -/
theorem session_sound {graph : Graph} {ids : Ids} (editable : graph.Editable ids) (limit : Nat)
    (commands : List Command) : ((new graph limit).session commands ids).1.graph.Sound := by
  have start : (new graph limit).Tended ids :=
    ⟨History.empty_bounded limit, by simp [new, zipper, History.empty], editable.snapshot,
      by simp [new, zipper, History.empty]⟩
  exact (session_preserves (fun editor command ids tended => tended.step command) commands
    start).graph.sound

/-- Wherever a session has led to, a free input is connected by its key to an output that
suits it, the keys being distinct on each side, exactly if nothing stands in the way of the
two keys: no other port has one of them for its id, and no input shares the key of the
output. -/
theorem session_connects_keys_iff {graph : Graph} {ids : Ids} (consistent : graph.Consistent)
    (unused : ids.Unused graph.names) (limit : Nat) (commands : List Command) {after : Editor}
    (led : after = ((new graph limit).session commands ids).1) {leaving entered : Node}
    (here : leaving ∈ after.graph.nodes) (there : entered ∈ after.graph.nodes)
    (leaves : output ∈ leaving.outputs) (enters : input ∈ entered.inputs)
    (outputs : leaving.outputKeys.Nodup) (inputs : (entered.inputs.map (·.key)).Nodup)
    (suits : output.feeds input) (free : ¬ after.graph.Fed ⟨entered.id, input.id⟩)
    (supply : Ids) :
    (∃ edited connection,
        (after.connect leaving.id output.key entered.id input.key supply).1 =
          .ok (edited, .connected connection) ∧
        connection.source = ⟨leaving.id, output.id⟩ ∧
        connection.target = ⟨entered.id, input.id⟩ ∧
        edited.graph.connections = after.graph.connections ++ [connection]) ↔
      leaving.KeyNames output ∧ entered.KeyNames input := by
  have editable : graph.Editable ids := ⟨Graph.consistent_iff_sound.mp consistent, unused⟩
  have sound : after.graph.Sound := led ▸ session_sound editable limit commands
  exact connect_keys_iff sound here there leaves enters outputs inputs suits free supply

end Editor

/-- A router with a rule for the given key, and a node that takes what is sent there. -/
def filing (key : String) : List Command :=
  let rule : Json := .object [("condition", .string "true"), ("output", .string key)]
  [ .add "memory-router" .origin, .add "log" .origin,
    .configure (Uuid.name 0) "rules" (.array [rule]) ]

def filed (key : String) : Editor :=
  ((Editor.new ⟨.nil, "filing", [], []⟩ 5).session (filing key) ⟨0⟩).1

theorem connect_of_filed_joins :
    ∃ edited connection,
      ((filed "kept").connect (Uuid.name 0) "kept" (Uuid.name 5) "input" ⟨9⟩).1 =
        .ok (edited, .connected connection) ∧
      connection.source = ⟨Uuid.name 0, Uuid.name 8⟩ ∧
      connection.target = ⟨Uuid.name 5, Uuid.name 6⟩ ∧
      edited.graph.connections = (filed "kept").graph.connections ++ [connection] := by
  have consistent : Graph.Consistent ⟨.nil, "filing", [], []⟩ :=
    Graph.consistent_iff_sound.mpr ⟨⟨List.nodup_nil, nofun, nofun, nofun, List.nodup_nil⟩, nofun⟩
  have unused : Ids.Unused ⟨0⟩ (Graph.names ⟨.nil, "filing", [], []⟩) := nofun
  let leaving := (filed "kept").graph.nodes.get ⟨0, by decide +kernel⟩
  let entered := (filed "kept").graph.nodes.get ⟨1, by decide +kernel⟩
  have here : leaving ∈ (filed "kept").graph.nodes := List.get_mem _ _
  have there : entered ∈ (filed "kept").graph.nodes := List.get_mem _ _
  let output : Port := ⟨Uuid.name 8, "kept", .output, anyType, false⟩
  let input : Port := ⟨Uuid.name 6, "input", .input, anyType, false⟩
  -- one evaluation of the session for all that is asked of its two nodes
  obtain ⟨⟨first, leaves, outputs⟩, ⟨second, enters, inputs⟩, none, ⟨names, keys⟩,
      ⟨namesToo, keysToo⟩⟩ :
      (leaving.id = Uuid.name 0 ∧ output ∈ leaving.outputs ∧ leaving.outputKeys.Nodup) ∧
      (entered.id = Uuid.name 5 ∧ input ∈ entered.inputs ∧
        (entered.inputs.map (·.key)).Nodup) ∧
      (filed "kept").graph.connections = [] ∧
      ((∀ other ∈ leaving.ports, other.id = output.key → other = output) ∧
        ∀ other ∈ leaving.inputs, other.key = output.key → other = output) ∧
      (∀ other ∈ entered.ports, other.id = input.key → other = input) ∧
        ∀ other ∈ entered.inputs, other.key = input.key → other = input := by
    decide +kernel
  have free : ¬ (filed "kept").graph.Fed ⟨entered.id, input.id⟩ := by
    simp [Graph.Fed, none]
  have connects := Editor.session_connects_keys_iff consistent unused 5 (filing "kept") rfl here
    there leaves enters outputs inputs rfl free ⟨9⟩
  rw [← first, ← second]
  exact connects.mpr ⟨⟨names, .inr keys⟩, ⟨namesToo, .inr keysToo⟩⟩

/-- Why the two nodes are not connected by keys, if they are not. -/
def filedRefusal (key : String) : Option EditError :=
  match ((filed key).connect (Uuid.name 0) key (Uuid.name 5) "input" ⟨9⟩).1 with
  | .ok _ => none
  | .error error => some error

/-- The router has an output with the key of its input.  No node has the same key twice on
one side, all types suit each other and nothing is connected, but the output is not found. -/
theorem connect_of_filed_misses :
    filedRefusal "memory" = some (.cannotJoin (.sameDirection .input)) ∧
    ((filed "memory").graph.node? (Uuid.name 0)).map Node.outputKeys =
      some ["important", "archive", "default", "memory"] ∧
    ((filed "memory").graph.node? (Uuid.name 5)).map (fun node => node.inputs.map (·.key)) =
      some ["input"] ∧
    (∀ node ∈ (filed "memory").graph.nodes, ∀ port ∈ node.ports, port.dataType = anyType) ∧
    (filed "memory").graph.connections = [] := by
  decide +kernel

end Workflow
