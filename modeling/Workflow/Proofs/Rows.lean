import Workflow.Proofs.KeyedPorts
import Workflow.Proofs.NodeOrder
import Workflow.Proofs.Rounding
import Workflow.Proofs.RoutePorts
import Workflow.Scaffold

/-! Rows of templates.

A row is built by an editor that adds a node at its end and connects it by keys to the node
before.  The editor may refuse to do so, and if it did, there would be no row at all.  But what
the catalog says of any two templates lets their nodes be connected (`Editor.wire_eq`), so a row
is refused for a template that is not in the catalog and for nothing else
(`Graph.scaffold_makes_row`).
-/

namespace Workflow

/-- What a template says of a port. -/
def Port.template (port : Port) : PortTemplate :=
  ⟨port.key, port.direction, port.dataType⟩

/-- A node as it was made from a template, whatever is connected to it. -/
structure Node.MadeOf (template : Template) (place : Position) (node : Node) : Prop where
  templateId : node.templateId = template.id
  kind : node.kind = template.kind
  title : node.title = template.title
  config : node.config = template.defaultConfig
  status : node.status = .idle
  position : node.position = place
  inputs : node.inputs.map Port.template = template.inputs
  outputs : node.outputs.map Port.template = template.outputs

/-- The outputs that the proposed configuration of a template names. -/
def Template.configuredOutputs (template : Template) : List String :=
  Node.configuredOutputs { (default : Node) with
    templateId := template.id
    config := template.defaultConfig }

/-- What lets the nodes of templates be joined by the keys of their ports. -/
structure Template.Joinable (template : Template) : Prop where
  leaves : template.outputs ≠ []
  keys : ((template.inputs ++ template.outputs).map (·.key)).Nodup
  short : ∀ port ∈ template.inputs ++ template.outputs, port.key.length < 36
  takes : ∀ port ∈ template.inputs, port.dataType = anyType
  complete : template.configuredOutputs ⊆ template.outputs.map (·.key)

theorem Catalog.joinable_templates : ∀ template ∈ templates, template.Joinable := by
  have all : ∀ template ∈ templates, template.outputs ≠ [] ∧
      ((template.inputs ++ template.outputs).map (·.key)).Nodup ∧
      (∀ port ∈ template.inputs ++ template.outputs, port.key.length < 36) ∧
      (∀ port ∈ template.inputs, port.dataType = anyType) ∧
      template.configuredOutputs ⊆ template.outputs.map (·.key) := by
    decide
  intro template listed
  obtain ⟨leaves, keys, short, takes, complete⟩ := all template listed
  exact ⟨leaves, keys, short, takes, complete⟩

namespace Node

variable {template : Template} {place : Position} {node : Node} {port : Port}

/-- A new node with its name and its ports left open. -/
theorem ofTemplate_shape (template : Template) (place : Position) (ids : Ids) :
    ∃ name inputs outputs later, ofTemplate template place ids =
        syncConfigPorts
          { id := name, templateId := template.id, kind := template.kind
            title := template.title, config := template.defaultConfig, inputs, outputs
            status := .idle, position := place } later ∧
      inputs.map Port.template = template.inputs ∧
      outputs.map Port.template = template.outputs := by
  have ports (templates : List PortTemplate) (ids : Ids) :
      (templates.mapM Port.ofTemplate ids).1.map Port.template = templates := by
    have each (template : PortTemplate) (ids : Ids) :
        (Port.ofTemplate template ids).1.template = template := by
      rw [Port.ofTemplate_eq]
      rfl
    exact (map_mapM each templates ids).trans (List.map_id' templates)
  exact ⟨_, _, _, _, ofTemplate_eq template place ids, ports _ _, ports _ _⟩

theorem ofTemplate_made (joinable : template.Joinable) (place : Position) (ids : Ids) :
    (ofTemplate template place ids).1.MadeOf template place := by
  obtain ⟨name, inputs, outputs, later, shape, entered, left⟩ :=
    ofTemplate_shape template place ids
  have keys : outputs.map (·.key) = template.outputs.map (·.key) := by
    rw [← left, List.map_map]
    rfl
  -- no output is added to those of the template
  rw [shape, syncConfigPorts, addOutputs_of_subset]
  · exact ⟨rfl, rfl, rfl, rfl, rfl, rfl, entered, left⟩
  · rw [outputKeys, keys]
    exact joinable.complete

namespace MadeOf

theorem mapPorts (made : node.MadeOf template place) {f : Port → Port}
    (same : ∀ port, (f port).template = port.template) : (node.mapPorts f).MadeOf template place :=
  { made with
    inputs := by
      rw [← made.inputs, Node.mapPorts, List.map_map]
      exact List.map_congr_left fun port _ => same port
    outputs := by
      rw [← made.outputs, Node.mapPorts, List.map_map]
      exact List.map_congr_left fun port _ => same port }

theorem ports (made : node.MadeOf template place) :
    node.ports.map Port.template = template.inputs ++ template.outputs := by
  rw [Node.ports, List.map_append, made.inputs, made.outputs]

theorem keys_nodup (made : node.MadeOf template place) (joinable : template.Joinable) :
    (node.ports.map (·.key)).Nodup := by
  have keys := joinable.keys
  rwa [← made.ports, List.map_map] at keys

/-- A port whose id is longer than the keys of templates is found by its key. -/
theorem port?_key (made : node.MadeOf template place) (joinable : template.Joinable)
    (long : ∀ port ∈ node.ports, 36 ≤ port.id.length) (member : port ∈ node.ports) :
    node.port? port.key = some port := by
  have short : port.key.length < 36 := by
    have inside : port.template ∈ template.inputs ++ template.outputs :=
      made.ports ▸ List.mem_map_of_mem member
    exact joinable.short port.template inside
  have unnamed : (node.ports.find? fun other => other.id = port.key) = none := by
    refine List.find?_eq_none.mpr fun other listed same => ?_
    have alike : other.id = port.key := of_decide_eq_true same
    have least := long other listed
    rw [alike] at least
    omega
  rw [port?, unnamed]
  exact Graph.find?_of_nodup (made.keys_nodup joinable) member

theorem outputs_ne_nil (made : node.MadeOf template place) (joinable : template.Joinable) :
    node.outputs ≠ [] := by
  intro none
  have outputs := made.outputs
  rw [none] at outputs
  exact joinable.leaves outputs.symm

/-- Whatever leaves another node may enter. -/
theorem feeds (made : node.MadeOf template place) (joinable : template.Joinable)
    (enters : port ∈ node.inputs) (source : Port) : source.feeds port := by
  have anything : port.dataType = anyType :=
    joinable.takes port.template (made.inputs ▸ List.mem_map_of_mem enters)
  simp [Port.feeds, Port.acceptsAny, anything]

end MadeOf

end Node

namespace Connection

def ends (connection : Connection) : Endpoint × Endpoint :=
  (connection.source, connection.target)

end Connection

/-- Where a node is joined to the next one: at its first output and the first input there. -/
def Outline.joint? (before after : Outline) : Option (Endpoint × Endpoint) :=
  match before.outputs.head?, after.inputs.head? with
  | some output, some input => some (⟨before.id, output.id⟩, ⟨after.id, input.id⟩)
  | _, _ => none

theorem Outline.nodes_of_joint? {before after : Outline} {ends : Endpoint × Endpoint}
    (joint : before.joint? after = some ends) :
    ends.1.nodeId = before.id ∧ ends.2.nodeId = after.id := by
  unfold joint? at joint
  split at joint
  next => exact Option.some.inj joint ▸ ⟨rfl, rfl⟩
  next => cases joint

/-- Where the nodes of a row are joined, each to the next one. -/
def joints (row : List Outline) : List (Endpoint × Endpoint) :=
  (row.zip row.tail).filterMap fun (before, after) => before.joint? after

theorem zip_tail_concat {α : Type} {row : List α} {last : α} (ends : row.getLast? = some last)
    (new : α) : (row ++ [new]).zip (row ++ [new]).tail = row.zip row.tail ++ [(last, new)] := by
  induction row with
  | nil => contradiction
  | cons first rest ih =>
      cases rest with
      | nil =>
          obtain rfl : first = last := Option.some.inj ends
          rfl
      | cons second rest =>
          rw [List.getLast?_cons_cons] at ends
          exact congrArg ((first, second) :: ·) (ih ends)

theorem joints_concat {row : List Outline} {last : Outline} (ends : row.getLast? = some last)
    (new : Outline) : joints (row ++ [new]) = joints row ++ (last.joint? new).toList := by
  rw [joints, zip_tail_concat ends, List.filterMap_append]
  cases joint : last.joint? new <;> simp [joints, joint]

/-- Where nothing repeats, what stands next to another element stands behind it. -/
theorem idxOf_lt_of_mem_zip_tail {α : Type} [DecidableEq α] {row : List α} (distinct : row.Nodup)
    {before after : α} (next : (before, after) ∈ row.zip row.tail) :
    row.idxOf before < row.idxOf after := by
  induction row with
  | nil => contradiction
  | cons first rest ih =>
      cases rest with
      | nil => contradiction
      | cons second rest =>
          obtain ⟨new, distinct⟩ := List.nodup_cons.mp distinct
          rcases List.mem_cons.mp next with same | later
          · obtain ⟨rfl, rfl⟩ := Prod.mk.inj same
            have apart : before ≠ after := fun same => new (same ▸ List.mem_cons_self ..)
            rw [List.idxOf_cons_self, List.idxOf_cons_ne _ apart]
            exact Nat.succ_pos _
          · obtain ⟨sooner, behind⟩ := List.of_mem_zip later
            have apart : first ≠ before := fun same => new (same ▸ sooner)
            have other : first ≠ after := fun same => new (same ▸ List.mem_of_mem_tail behind)
            rw [List.idxOf_cons_ne _ apart, List.idxOf_cons_ne _ other]
            exact Nat.succ_lt_succ (ih distinct later)

/-- A node in its place in a row. -/
def Node.InColumn (entry : String × Nat) (node : Node) : Prop :=
  ∃ template, Catalog.find? entry.1 = some template ∧
    node.MadeOf template (Editor.rowPlace entry.2)

namespace Graph

variable {graph : Graph} {ids later : Ids} {templates : List String}

/-- A graph with a node for each template of a row. -/
structure Columns (graph : Graph) (templates : List String) (ids : Ids) : Prop where
  editable : graph.Editable ids
  numbered : ∀ name ∈ graph.names, ∃ number, name = Uuid.name number
  nodes : List.Forall₂ Node.InColumn templates.zipIdx graph.nodes

/-- The nodes are joined to their neighbours, as far as these have inputs. -/
structure Row (graph : Graph) (templates : List String) (ids : Ids) : Prop
    extends graph.Columns templates ids where
  joined : graph.connections.map Connection.ends = joints graph.outlines

theorem forall₂_modifyNode {α : Type} {relation : α → Node → Prop} {f : Node → Node}
    (kept : ∀ entry node, relation entry node → relation entry (f node)) {entries : List α}
    (each : List.Forall₂ relation entries graph.nodes) (id : String) :
    List.Forall₂ relation entries (graph.modifyNode id f).nodes := by
  have go {entries : List α} {nodes : List Node} (each : List.Forall₂ relation entries nodes) :
      List.Forall₂ relation entries (modifyNode.go id f nodes) := by
    induction each with
    | nil => exact .nil
    | cons here others ih =>
        rw [modifyNode.go]
        split
        · exact .cons (kept _ _ here) others
        · exact .cons here ih
  exact go each

/-- Marking a port does not take its node out of its column. -/
theorem forall₂_markConnected {entries : List (String × Nat)}
    (each : List.Forall₂ Node.InColumn entries graph.nodes) (endpoint : Endpoint) :
    List.Forall₂ Node.InColumn entries (graph.markConnected endpoint).nodes := by
  refine forall₂_modifyNode (fun entry node here => ?_) each _
  obtain ⟨template, found, made⟩ := here
  refine ⟨template, found, made.mapPorts fun port => ?_⟩
  split <;> rfl

namespace Columns

/-- The template of a node, which is one of the catalog. -/
theorem made (columns : graph.Columns templates ids) {node : Node} (member : node ∈ graph.nodes) :
    ∃ template place, template.Joinable ∧ node.MadeOf template place := by
  have go {entries : List (String × Nat)} {nodes : List Node}
      (each : List.Forall₂ Node.InColumn entries nodes) (member : node ∈ nodes) :
      ∃ entry, node.InColumn entry := by
    induction each with
    | nil => contradiction
    | cons here _ ih =>
        rcases List.mem_cons.mp member with rfl | later
        · exact ⟨_, here⟩
        · exact ih later
  obtain ⟨entry, template, found, made⟩ := go columns.nodes member
  exact ⟨template, _, Catalog.joinable_templates template (List.mem_of_find?_eq_some found), made⟩

theorem long (columns : graph.Columns templates ids) {node : Node} (member : node ∈ graph.nodes)
    {port : Port} (inside : port ∈ node.ports) : 36 ≤ port.id.length := by
  have named : port.id ∈ graph.names :=
    List.mem_append_left _ (List.mem_flatMap.mpr
      ⟨node, member, List.mem_cons_of_mem _ (List.mem_map_of_mem inside)⟩)
  obtain ⟨number, same⟩ := columns.numbered _ named
  exact same ▸ Uuid.length_name number

theorem addNode (columns : graph.Columns templates ids) {name : String} {template : Template}
    (found : Catalog.find? name = some template) :
    (graph.addNode (Node.ofTemplate template (Editor.rowPlace templates.length) ids).1).Columns
      (templates ++ [name])
      (Node.ofTemplate template (Editor.rowPlace templates.length) ids).2 := by
  have joinable := Catalog.joinable_templates template (List.mem_of_find?_eq_some found)
  have made := Node.ofTemplate_made joinable (Editor.rowPlace templates.length) ids
  have new := Node.ofTemplate_new template (Editor.rowPlace templates.length) ids
  generalize Node.ofTemplate template (Editor.rowPlace templates.length) ids = result at made new
  refine ⟨columns.editable.addNode new, fun known member => ?_, ?_⟩
  · rcases List.mem_append.mp (names_addNode_subset graph _ member) with old | given
    · exact columns.numbered known old
    · obtain ⟨number, _, _, same⟩ := new.named.numbered known given
      exact ⟨number, same⟩
  · rw [List.zipIdx_append]
    exact List.rel_append columns.nodes (.cons ⟨template, found, by simpa using made⟩ .nil)

theorem addConnection (columns : graph.Columns templates ids)
    {sourceNode sourcePort targetNode targetPort dataType : String} {source target : Endpoint}
    (resolved : Editor.resolve graph sourceNode sourcePort targetNode targetPort =
      .ok (source, target, dataType)) :
    (graph.addConnection ⟨(Ids.name ids).1, source, target, dataType⟩).Columns templates
      (Ids.name ids).2 := by
  refine ⟨((Edit.connect resolved).editable columns.editable).1, fun known member => ?_, ?_⟩
  · rcases List.mem_append.mp (names_addConnection_subset graph _ member) with old | given
    · exact columns.numbered known old
    · exact ⟨ids.next, List.mem_singleton.mp given⟩
  · exact forall₂_markConnected (forall₂_markConnected columns.nodes source) target

end Columns

end Graph

theorem Node.joint?_eq (last node : Node) :
    last.outline.joint? node.outline =
      match last.outputs.head?, node.inputs.head? with
      | some output, some input => some (⟨last.id, output.id⟩, ⟨node.id, input.id⟩)
      | _, _ => none := by
  rw [Outline.joint?, Node.outline, Node.outline, List.head?_map, List.head?_map]
  cases last.outputs.head? <;> cases node.inputs.head? <;> rfl

namespace Editor

variable {editor : Editor} {ids : Ids} {templates : List String} {before last node : Node}

/-- Whatever two nodes of a row are, the second one is joined to the first if it has an input. -/
theorem wire_eq (columns : editor.graph.Columns templates ids) (here : last ∈ editor.graph.nodes)
    (there : node ∈ editor.graph.nodes) (alike : before.outline = last.outline)
    (free : ∀ port ∈ node.inputs, ¬ editor.graph.Fed ⟨node.id, port.id⟩) :
    ∃ after later, editor.wire before node ids = (.ok after, later) ∧
      after.graph.Columns templates later ∧ after.graph.outlines = editor.graph.outlines ∧
      after.graph.connections.map Connection.ends =
        editor.graph.connections.map Connection.ends ++
          (last.outline.joint? node.outline).toList := by
  obtain ⟨same, _, outputs⟩ := Outline.mk.inj alike
  have heads : before.outputs.head?.map Port.free = last.outputs.head?.map Port.free := by
    rw [← List.head?_map, outputs, List.head?_map]
  rw [Node.joint?_eq]
  cases leaving : last.outputs.head? with
  | none =>
      rw [leaving, Option.map_none, Option.map_eq_none_iff] at heads
      exact ⟨editor, ids, by rw [wire, heads]; rfl, columns, rfl, by simp⟩
  | some output =>
      rw [leaving, Option.map_some, Option.map_eq_some_iff] at heads
      obtain ⟨made, first, unmarked⟩ := heads
      have key : made.key = output.key := (Port.mk.inj unmarked).2.1
      cases entering : node.inputs.head? with
      | none => exact ⟨editor, ids, by rw [wire, first, entering]; rfl, columns, rfl, by simp⟩
      | some input =>
          have leaves := List.mem_of_head? leaving
          have enters := List.mem_of_head? entering
          obtain ⟨_, _, plain, source⟩ := columns.made here
          obtain ⟨_, _, accepting, target⟩ := columns.made there
          have found := source.port?_key plain (fun _ => columns.long here)
            (List.mem_append_right _ leaves)
          have located := target.port?_key accepting (fun _ => columns.long there)
            (List.mem_append_left _ enters)
          have resolved := resolve_of_found columns.editable.sound here there leaves enters
            (target.feeds accepting enters output) (free input enters) found located
          let connection : Connection := ⟨(Ids.name ids).1, ⟨last.id, output.id⟩,
            ⟨node.id, input.id⟩, output.joinedType input⟩
          refine ⟨editor.commit (editor.graph.addConnection connection), (Ids.name ids).2, ?_,
            columns.addConnection resolved, ?_, ?_⟩
          · have connects : editor.connect before.id made.key node.id input.key ids =
                (.ok (editor.commit (editor.graph.addConnection connection),
                  .connected connection), (Ids.name ids).2) := by
              rw [same, key, connect, resolved]
              rfl
            rw [wire, first, entering]
            show (bind (editor.connect before.id made.key node.id input.key) _) ids = _
            simp only [bind, StateT.bind, connects]
            rfl
          · exact (Graph.outlines_markConnected _ _).trans (Graph.outlines_markConnected _ _)
          · exact List.map_append

theorem addRow_cons {name : String} {template : Template}
    (found : Catalog.find? name = some template) (editor : Editor) (before : Option Node)
    (column : Nat) (rest : List String) (ids : Ids) :
    editor.addRow before column (name :: rest) ids =
      let made := Node.ofTemplate template (rowPlace column) ids
      let inserted := (editor.insertNode made.1).1
      let wired : Except EditError Editor × Ids := match before with
        | none => (.ok inserted, made.2)
        | some before => inserted.wire before made.1 made.2
      match wired with
      | (.ok after, later) => after.addRow (some made.1) (column + 1) rest later
      | (.error error, later) => (.error error, later) := by
  rw [addRow, found]
  simp only [bind, StateT.bind]
  obtain ⟨node, supply⟩ := Node.ofTemplate template (rowPlace column) ids
  cases before with
  | none => rfl
  | some before =>
      dsimp only
      rw [StateT.bind]
      obtain ⟨wired | wired, later⟩ := (editor.insertNode node).1.wire before node supply <;> rfl

/-- Each template of the catalog is put at the end of the row. -/
theorem addRow_step (row : editor.graph.Row templates ids) {before : Option Node}
    (ends : editor.graph.outlines.getLast? = before.map Node.outline) {name : String}
    {template : Template} (found : Catalog.find? name = some template) :
    ∃ (after : Editor) (node : Node) (later : Ids),
      after.graph.Row (templates ++ [name]) later ∧
      after.graph.outlines.getLast? = some node.outline ∧
      ∀ rest, editor.addRow before templates.length (name :: rest) ids =
        after.addRow (some node) (templates.length + 1) rest later := by
  have columns := row.toColumns.addNode found
  have new := Node.ofTemplate_new template (rowPlace templates.length) ids
  have unfolds (rest : List String) := addRow_cons found editor before templates.length rest ids
  generalize Node.ofTemplate template (rowPlace templates.length) ids = made at columns new unfolds
  obtain ⟨node, supply⟩ := made
  let inserted := (editor.insertNode node).1
  have columns : inserted.graph.Columns (templates ++ [name]) supply := columns
  have outlines : inserted.graph.outlines = editor.graph.outlines ++ [node.outline] := by
    simp [inserted, insertNode, commit, Graph.outlines, Graph.addNode]
  have last : (editor.graph.outlines ++ [node.outline]).getLast? = some node.outline :=
    List.getLast?_concat
  cases before with
  | none =>
      have none : editor.graph.outlines = [] := List.getLast?_eq_none_iff.mp ends
      refine ⟨inserted, node, supply, ⟨columns, ?_⟩, outlines ▸ last, unfolds⟩
      have joined := row.joined
      rw [none] at outlines joined
      rw [outlines]
      exact joined
  | some before =>
      rw [Graph.outlines, List.getLast?_map, Option.map_some, Option.map_eq_some_iff] at ends
      obtain ⟨neighbour, tail, alike⟩ := ends
      have here : neighbour ∈ inserted.graph.nodes :=
        List.mem_append_left _ (List.mem_of_getLast? tail)
      have there : node ∈ inserted.graph.nodes :=
        List.mem_append_right _ (List.mem_singleton.mpr rfl)
      have free (port : Port) (enters : port ∈ node.inputs) :
          ¬ inserted.graph.Fed ⟨node.id, port.id⟩ := by
        rw [← columns.editable.sound.connected_iff_fed there enters, (new.inputs port enters).2]
        exact Bool.false_ne_true
      obtain ⟨after, later, wires, columns, kept, joins⟩ :=
        wire_eq columns here there alike.symm free
      have ends : editor.graph.outlines.getLast? = some neighbour.outline := by
        rw [Graph.outlines, List.getLast?_map, tail, Option.map_some]
      refine ⟨after, node, later, ⟨columns, ?_⟩, kept ▸ outlines ▸ last, fun rest => ?_⟩
      · rw [joins, kept, outlines, joints_concat ends, ← row.joined]
        rfl
      · rw [unfolds rest]
        dsimp only
        rw [wires]

/-- A row gets a node for each template, up to the first one that the catalog does not have. -/
theorem addRow_run (rest : List String) (row : editor.graph.Row templates ids)
    {before : Option Node} (ends : editor.graph.outlines.getLast? = before.map Node.outline) :
    match rest.find? fun name => (Catalog.find? name).isNone with
    | some unknown =>
        (editor.addRow before templates.length rest ids).1 = .error (.unknownTemplate unknown)
    | none =>
        ∃ after later, (editor.addRow before templates.length rest ids).1 = .ok after ∧
          after.graph.Row (templates ++ rest) later := by
  induction rest generalizing editor templates before ids with
  | nil => exact ⟨editor, ids, rfl, (List.append_nil templates).symm ▸ row⟩
  | cons name rest ih =>
      cases found : Catalog.find? name with
      | none =>
          rw [List.find?_cons_of_pos (by rw [found]; rfl), addRow, found]
          rfl
      | some template =>
          obtain ⟨after, node, later, longer, last, unfolds⟩ := addRow_step row ends found
          have last : after.graph.outlines.getLast? = (some node).map Node.outline := last
          have others := ih longer last
          rw [List.find?_cons_of_neg (by rw [found]; exact Bool.false_ne_true), unfolds]
          simpa using others

theorem rowPlace_stands {column : Nat} (near : 240 * column ≤ 2 ^ 53) :
    Double.Stands (240 * column : Nat) (rowPlace column).x.toModel.unpack := by
  have spacing : Double.Stands 240 rowSpacing.toModel.unpack :=
    ⟨⟨by decide, by decide⟩, by decide, rfl⟩
  have number := @Double.ofNat_stands column (by omega)
  rw [Double.nearestNat_of_le (by omega)] at number
  have product := Double.mul_float_stands number spacing (by omega)
  rw [Double.nearest_of_natAbs_le (by omega), Int.mul_comm] at product
  exact product

end Editor

/-- A row of templates as it should be.  Each node is made from its template, lies 240 to the
right of the one before, and is joined to that one if it has an input; nothing else is joined.
The flags of ports say so, and the graph can be run: it has no cycle, and starts at its
triggers. -/
structure Graph.InRow (graph : Graph) (templates : List String) : Prop where
  nodes : List.Forall₂ Node.InColumn templates.zipIdx graph.nodes
  columns : ∀ column node, graph.nodes[column]? = some node → 240 * column ≤ 2 ^ 53 →
    Double.Stands (240 * column : Nat) node.position.x.toModel.unpack ∧ node.position.y = 0.0
  leaves : ∀ node ∈ graph.nodes, node.outputs ≠ []
  joined : graph.connections.map Connection.ends = joints graph.outlines
  flags : ∀ node ∈ graph.nodes, ∀ port ∈ node.ports,
    port.connected = graph.uses ⟨node.id, port.id⟩
  accepted : graph.check =
    .ok ⟨(graph.nodes.filter fun node => node.kind = .trigger).map (·.id), false⟩

namespace Graph

variable {graph : Graph} {ids : Ids} {templates : List String}

theorem Row.forward (row : graph.Row templates ids) {connection : Connection}
    (member : connection ∈ graph.connections) :
    graph.ids.idxOf connection.source.nodeId < graph.ids.idxOf connection.target.nodeId := by
  have listed : connection.ends ∈ joints graph.outlines :=
    row.joined ▸ List.mem_map_of_mem member
  obtain ⟨⟨before, after⟩, next, joint⟩ := List.mem_filterMap.mp listed
  obtain ⟨starts, stops⟩ := Outline.nodes_of_joint? joint
  have ids : graph.ids = graph.outlines.map (·.id) := by
    rw [Graph.ids, outlines, List.map_map]
    rfl
  have inside : (before.id, after.id) ∈ graph.ids.zip graph.ids.tail := by
    rw [ids, ← List.map_tail, List.zip_map]
    exact List.mem_map_of_mem next
  have distinct : graph.ids.Nodup := row.editable.sound.ids
  exact starts ▸ stops ▸ idxOf_lt_of_mem_zip_tail distinct inside

theorem Row.acyclic (row : graph.Row templates ids) (wellFormed : graph.WellFormed) :
    graph.hasCycle = false := by
  have order := (order?_isSome_iff wellFormed).mpr
    (acyclic_of_forward fun _ member => row.forward member)
  rw [hasCycle, Option.isNone_eq_false_iff]
  exact order

theorem Row.inRow (row : graph.Row templates ids) : graph.InRow templates where
  nodes := row.nodes
  columns column node found near := by
    obtain ⟨length, each⟩ := List.forall₂_iff_get.mp row.nodes
    obtain ⟨inside, rfl⟩ := List.getElem?_eq_some_iff.mp found
    obtain ⟨_, _, made⟩ := each column (length ▸ inside) inside
    have place : (graph.nodes[column]).position = Editor.rowPlace column := by
      simpa using made.position
    rw [place]
    exact ⟨Editor.rowPlace_stands near, rfl⟩
  leaves node member := by
    obtain ⟨_, _, joinable, made⟩ := row.made member
    exact made.outputs_ne_nil joinable
  joined := row.joined
  flags := row.editable.sound.flags
  accepted := by
    have sound := row.editable.sound
    have wellFormed : graph.WellFormed :=
      ⟨sound.ids, fun _ member => sound.joined member, sound.shaped.single⟩
    refine check_eq_ok_iff.mpr ⟨wellFormed, ?_⟩
    rw [row.acyclic wellFormed]
    rfl

/-- A row fails exactly if there is no template for one of its names, and says which is the
first.  Otherwise it is a row as it should be. -/
theorem scaffold_makes_row (name : String) (templates : List String) (ids : Ids) :
    (∀ error, (scaffold name templates ids).1 = .error error ↔
      ∃ unknown, (templates.find? fun name => (Catalog.find? name).isNone) = some unknown ∧
        error = .unknownTemplate unknown) ∧
    ∀ graph, (scaffold name templates ids).1 = .ok graph → graph.InRow templates := by
  let start := Editor.new ⟨(Ids.uuid ids).1, name, [], []⟩ Editor.defaultLimit
  have empty : start.graph.Row [] (Ids.uuid ids).2 :=
    { editable := ⟨⟨⟨List.nodup_nil, nofun, nofun, nofun, List.nodup_nil⟩, nofun⟩, nofun⟩
      numbered := nofun
      nodes := .nil
      joined := rfl }
  have last : start.graph.outlines.getLast? = Option.map Node.outline none := rfl
  have run := Editor.addRow_run templates empty last
  have made : (scaffold name templates ids).1 =
      (start.addRow none 0 templates (Ids.uuid ids).2).1.map (·.graph) := rfl
  rw [made]
  cases unlisted : templates.find? fun name => (Catalog.find? name).isNone with
  | some unknown =>
      rw [unlisted] at run
      have fails : (start.addRow none 0 templates (Ids.uuid ids).2).1 =
          .error (.unknownTemplate unknown) := run
      rw [fails]
      refine ⟨fun error => ?_, nofun⟩
      simp [Except.map, eq_comm]
  | none =>
      rw [unlisted] at run
      obtain ⟨after, later, succeeds, row⟩ : ∃ after later,
        (start.addRow none 0 templates (Ids.uuid ids).2).1 = .ok after ∧
          after.graph.Row templates later := run
      rw [succeeds]
      refine ⟨fun error => ⟨nofun, nofun⟩, fun graph same => ?_⟩
      obtain rfl := Except.ok.inj same
      exact row.inRow

/-- Nothing leads into a trigger, wherever it stands. -/
example :
    let row := (scaffold "row" ["manual-trigger", "log", "manual-trigger", "log"] ⟨0⟩).1
    row.toOption.map (fun graph => graph.connections.map fun connection =>
        (graph.ids.idxOf connection.source.nodeId, graph.ids.idxOf connection.target.nodeId)) =
      some [(0, 1), (2, 3)] := by
  decide +kernel

end Graph

end Workflow
