import Workflow.Proofs.NodeSessions

/-! Sessions without loops and nested runs.

A node is orderly if it has one input at most, none if it starts runs, outputs
with keys of their own, and a template that runs no body.  The templates of the
catalog but three make such nodes, and no command makes others of them.
-/

namespace Workflow

/-- The templates whose nodes run something of their own. -/
def bodyTemplates : List String :=
  [forTemplate, whileTemplate, subflowTemplate]

structure Node.Orderly (node : Node) : Prop where
  single : node.inputs.length ≤ 1
  closed : node.kind = .trigger → node.inputs = []
  keys : node.outputKeys.Nodup
  plain : node.templateId ∉ bodyTemplates

/-- Commands that bring in no loop and no nested run. -/
def Command.Plain : Command → Prop
  | .add template _ => template ∉ bodyTemplates
  | .addSubflow _ _ => False
  | _ => True

theorem Catalog.orderly_templates : ∀ template ∈ Catalog.templates,
    template.inputs.length ≤ 1 ∧ (template.kind = .trigger → template.inputs = []) ∧
      (template.outputs.map (·.key)).Nodup := by
  decide

namespace Node.Orderly

variable {node other : Node}

theorem congr (orderly : node.Orderly) (inputs : other.inputs.length = node.inputs.length)
    (kind : other.kind = node.kind) (keys : other.outputKeys = node.outputKeys)
    (template : other.templateId = node.templateId) : other.Orderly where
  single := inputs ▸ orderly.single
  closed trigger := by
    have none := orderly.closed (kind ▸ trigger)
    exact List.length_eq_zero_iff.mp (by rw [inputs, none, List.length_nil])
  keys := keys ▸ orderly.keys
  plain := template ▸ orderly.plain

theorem mapPorts (orderly : node.Orderly) {f : Port → Port}
    (same : ∀ port, (f port).key = port.key) :
    (node.mapPorts f).Orderly :=
  orderly.congr (List.length_map ..) rfl (node.mapPorts_outputKeys same) rfl

end Node.Orderly

namespace Node

theorem Orderly.addOutputs {node : Node} (orderly : node.Orderly) (keys : List String) (ids : Ids) :
    (addOutputs keys node ids).1.Orderly := by
  have distinct := addOutputs_nodup orderly.keys keys ids
  obtain ⟨extra, same, _⟩ := addOutputs_new keys node ids
  rw [same] at distinct ⊢
  exact ⟨orderly.single, orderly.closed, distinct, orderly.plain⟩

theorem ofTemplate_orderly {template : Template} (listed : template ∈ Catalog.templates)
    (plain : template.id ∉ bodyTemplates) (position : Position) (ids : Ids) :
    (ofTemplate template position ids).1.Orderly := by
  obtain ⟨single, closed, keys⟩ := Catalog.orderly_templates template listed
  have inputs (ids : Ids) := keys_mapM Port.ofTemplate_key template.inputs ids
  have outputs (ids : Ids) := keys_mapM Port.ofTemplate_key template.outputs ids
  have length (ids : Ids) : (template.inputs.mapM Port.ofTemplate ids).1.length =
      template.inputs.length := by
    simpa using congrArg List.length (inputs ids)
  rw [ofTemplate_eq]
  apply Orderly.addOutputs
  constructor
  case single => exact Nat.le_trans (Nat.le_of_eq (length _)) single
  case closed =>
    intro trigger
    exact List.length_eq_zero_iff.mp (by rw [length, closed trigger, List.length_nil])
  case keys =>
    rw [outputKeys, outputs]
    exact keys
  case plain => exact plain

theorem Orderly.duplicate {node : Node} (orderly : node.Orderly) (dx dy : Float) (ids : Ids) :
    (node.duplicate dx dy ids).1.Orderly := by
  have length (ids : Ids) : (node.inputs.mapM Port.freshCopy ids).1.length =
      node.inputs.length := by
    simpa using congrArg List.length (keys_mapM Port.freshCopy_key node.inputs ids)
  obtain ⟨id, title, position, first, second, later, shape⟩ := node.duplicate_shape dx dy ids
  rw [shape]
  exact orderly.congr (length first) rfl (keys_mapM Port.freshCopy_key node.outputs second) rfl

end Node

/-- All nodes of a state are orderly. -/
def Snapshot.Orderly (state : Snapshot) : Prop :=
  ∀ node ∈ state.nodes, node.Orderly

def Graph.Orderly (graph : Graph) : Prop :=
  ∀ node ∈ graph.nodes, node.Orderly

/-- Plain commands make orderly nodes and leave them so. -/
theorem Node.orderly_lasting : Node.Lasting Command.Plain Node.Orderly where
  made listed position ids plain := Node.ofTemplate_orderly listed plain position ids
  instantiated _ _ _ plain := plain.elim
  copied ids orderly := orderly.duplicate _ _ ids
  configured {node} config ids orderly := by
    have same : Node.Orderly { node with config } := orderly.congr rfl rfl rfl rfl
    exact same.addOutputs _ ids
  shown _ _ orderly := orderly.congr rfl rfl rfl rfl
  flagged flags orderly := orderly.mapPorts fun port => by
    obtain ⟨connected, same⟩ := flags port
    rw [same]

namespace Editor

variable {editor : Editor} {command : Command} {ids : Ids}

/-- What holds throughout a session of plain commands. -/
structure Neat (editor : Editor) (ids : Ids) : Prop where
  tended : editor.Tended ids
  orderly : editor.zipper.All Snapshot.Orderly

theorem Neat.step (neat : editor.Neat ids) (plain : command.Plain) :
    (editor.step command ids).1.Neat (editor.step command ids).2 where
  tended := neat.tended.step command
  orderly := Node.orderly_lasting.step plain neat.tended.bounded neat.orderly ids

theorem Neat.session (neat : editor.Neat ids) {commands : List Command}
    (plain : ∀ command ∈ commands, command.Plain) :
    (editor.session commands ids).1.Neat (editor.session commands ids).2 := by
  induction commands generalizing editor ids with
  | nil => exact neat
  | cons command rest ih =>
      obtain ⟨first, others⟩ := List.forall_mem_cons.mp plain
      exact ih (neat.step first) others

theorem new_neat (id : Uuid) (name : String) (limit : Nat) (ids : Ids) :
    (new ⟨id, name, [], []⟩ limit).Neat ids := by
  have shaped : Shaped [] [] :=
    ⟨List.nodup_nil, nofun, nofun, nofun, List.nodup_nil⟩
  have sound : Graph.Sound ⟨id, name, [], []⟩ := ⟨shaped, nofun⟩
  have editable : Graph.Editable ⟨id, name, [], []⟩ ids := ⟨sound, nofun⟩
  exact
    { tended := ⟨History.empty_bounded limit, nofun, editable.snapshot, nofun⟩
      orderly := ⟨nofun, nofun, nofun⟩ }

/-- Plain commands make orderly graphs, consistent at that, of an empty one. -/
theorem neat_of_plain (id : Uuid) (name : String) (limit : Nat) {commands : List Command}
    (plain : ∀ command ∈ commands, command.Plain) (ids : Ids) :
    ((new ⟨id, name, [], []⟩ limit).session commands ids).1.graph.Sound ∧
    ((new ⟨id, name, [], []⟩ limit).session commands ids).1.graph.Orderly := by
  obtain ⟨tended, orderly⟩ := (new_neat id name limit ids).session plain
  exact ⟨tended.graph.sound, orderly.2.1⟩

end Editor

end Workflow
