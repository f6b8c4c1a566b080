import Mathlib.Data.List.Flatten
import Mathlib.Data.List.Nodup
import Workflow.Graph.Joining
import Workflow.Proofs.NewNodes

/-! What is fixed about the nodes of a graph.

The outline of a node is its id and its ports without their flags.  Flags,
titles, configurations and statuses may change; what connections join depends on
outlines alone, and `Shaped` says that it is in order.
-/

namespace Workflow

/-- A port whatever it is connected to. -/
def Port.free (port : Port) : Port :=
  { port with connected := false }

/-- A node as connections see it. -/
structure Outline where
  id : String
  inputs : List Port
  outputs : List Port

def Outline.names (outline : Outline) : List String :=
  outline.id :: (outline.inputs ++ outline.outputs).map (·.id)

def Node.outline (node : Node) : Outline :=
  ⟨node.id, node.inputs.map Port.free, node.outputs.map Port.free⟩

@[simp] theorem Node.outline_names (node : Node) : node.outline.names = node.names := by
  simp [Outline.names, outline, names, ports, Port.free, Function.comp_def]

namespace Graph

def outlines (graph : Graph) : List Outline :=
  graph.nodes.map Node.outline

def names (graph : Graph) : List String :=
  graph.nodes.flatMap Node.names ++ graph.connections.map (·.id)

end Graph

/-- A connection leads from an output to an input that it may feed. -/
def Joins (outlines : List Outline) (connection : Connection) : Prop :=
  ∃ leaving ∈ outlines, ∃ source ∈ leaving.outputs,
    ∃ entered ∈ outlines, ∃ target ∈ entered.inputs,
      connection.source = ⟨leaving.id, source.id⟩ ∧ connection.target = ⟨entered.id, target.id⟩ ∧
        source.feeds target

/-- Outlines and connections in order: names do not repeat, ports are listed by
direction, and connections join what they may, no input twice. -/
structure Shaped (outlines : List Outline) (connections : List Connection) : Prop where
  distinct : (outlines.flatMap Outline.names ++ connections.map (·.id)).Nodup
  inputs : ∀ outline ∈ outlines, ∀ port ∈ outline.inputs, port.direction = .input
  outputs : ∀ outline ∈ outlines, ∀ port ∈ outline.outputs, port.direction = .output
  joined : ∀ connection ∈ connections, Joins outlines connection
  single : (connections.map (·.target)).Nodup

namespace Joins

variable {outlines others : List Outline} {connection : Connection}

/-- Where outlines gain ports, what is joined stays so. -/
theorem mono (joins : Joins outlines connection)
    (gains : ∀ outline ∈ outlines, ∃ other ∈ others,
      other.id = outline.id ∧ outline.inputs ⊆ other.inputs ∧ outline.outputs ⊆ other.outputs) :
    Joins others connection := by
  obtain ⟨leaving, left, source, out, entered, enters, target, into, starts, ends, feeds⟩ := joins
  obtain ⟨before, here, same, _, wider⟩ := gains leaving left
  obtain ⟨after, there, alike, more, _⟩ := gains entered enters
  exact ⟨before, here, source, wider out, after, there, target, more into, same ▸ starts,
    alike ▸ ends, feeds⟩

theorem subset (joins : Joins outlines connection) (included : outlines ⊆ others) :
    Joins others connection :=
  joins.mono fun outline member =>
    ⟨outline, included member, rfl, List.Subset.refl _, List.Subset.refl _⟩

theorem names_mem (joins : Joins outlines connection) {endpoint : Endpoint}
    (ends : connection.source = endpoint ∨ connection.target = endpoint) :
    ∃ outline ∈ outlines, endpoint.nodeId = outline.id ∧ endpoint.portId ∈ outline.names := by
  obtain ⟨leaving, left, source, out, entered, enters, target, into, starts, arrives, _⟩ := joins
  rcases ends with rfl | rfl
  · refine ⟨leaving, left, by rw [starts], ?_⟩
    rw [starts]
    exact List.mem_cons_of_mem _ (List.mem_map_of_mem (List.mem_append_right _ out))
  · refine ⟨entered, enters, by rw [arrives], ?_⟩
    rw [arrives]
    exact List.mem_cons_of_mem _ (List.mem_map_of_mem (List.mem_append_left _ into))

end Joins

namespace Shaped

variable {outlines fewer before after : List Outline} {outline : Outline}
  {connections some : List Connection} {connection : Connection}

theorem ids_sublist (outlines : List Outline) :
    (outlines.map (·.id)).Sublist (outlines.flatMap Outline.names) := by
  induction outlines with
  | nil => exact .slnil
  | cons outline rest ih =>
      rw [List.map_cons, List.flatMap_cons, Outline.names, List.cons_append]
      exact (ih.trans (List.sublist_append_right _ _)).cons_cons _

theorem ids (shaped : Shaped outlines connections) : (outlines.map (·.id)).Nodup :=
  (List.nodup_append.mp shaped.distinct).1.sublist (ids_sublist outlines)

theorem names_nodup (shaped : Shaped outlines connections) (member : outline ∈ outlines) :
    outline.names.Nodup :=
  (List.nodup_flatMap.mp (List.nodup_append.mp shaped.distinct).1).1 outline member

theorem add (shaped : Shaped outlines connections) (distinct : outline.names.Nodup)
    (new : ∀ name ∈ outline.names,
      name ∉ outlines.flatMap Outline.names ++ connections.map (·.id))
    (inputs : ∀ port ∈ outline.inputs, port.direction = .input)
    (outputs : ∀ port ∈ outline.outputs, port.direction = .output) :
    Shaped (outlines ++ [outline]) connections where
  distinct := by
    have apart : (outline.names ++
        (outlines.flatMap Outline.names ++ connections.map (·.id))).Nodup :=
      List.nodup_append.mpr ⟨distinct, shaped.distinct, fun name member other used same =>
        new name member (same ▸ used)⟩
    refine List.Perm.nodup ?_ apart
    rw [List.flatMap_append, List.flatMap_singleton, ← List.append_assoc]
    exact List.perm_append_comm.append_right _
  inputs other member := by
    rcases List.mem_append.mp member with old | same
    · exact shaped.inputs other old
    · exact List.mem_singleton.mp same ▸ inputs
  outputs other member := by
    rcases List.mem_append.mp member with old | same
    · exact shaped.outputs other old
    · exact List.mem_singleton.mp same ▸ outputs
  joined connection member := (shaped.joined connection member).subset (List.subset_append_left _ _)
  single := shaped.single

/-- Fewer nodes and connections, of which none has lost an end. -/
theorem restrict (shaped : Shaped outlines connections) (part : fewer.Sublist outlines)
    (rest : some.Sublist connections) (joined : ∀ connection ∈ some, Joins fewer connection) :
    Shaped fewer some where
  distinct := shaped.distinct.sublist ((part.flatMap _).append (rest.map _))
  inputs outline member := shaped.inputs outline (part.subset member)
  outputs outline member := shaped.outputs outline (part.subset member)
  joined := joined
  single := shaped.single.sublist (rest.map _)

theorem remove (shaped : Shaped outlines connections) (id : String) :
    Shaped (outlines.eraseP fun outline => outline.id = id)
      (connections.filter fun connection => !connection.touches id) := by
  refine shaped.restrict (List.eraseP_sublist ..) List.filter_sublist fun connection member => ?_
  obtain ⟨known, apart⟩ := List.mem_filter.mp member
  obtain ⟨leaving, left, source, out, entered, enters, target, into, starts, ends, feeds⟩ :=
    shaped.joined connection known
  simp only [Connection.touches, starts, ends, Bool.not_eq_true', Bool.or_eq_false_iff,
    decide_eq_false_iff_not] at apart
  refine ⟨leaving, ?_, source, out, entered, ?_, target, into, starts, ends, feeds⟩
  · exact (List.mem_eraseP_of_neg (by simpa using apart.1)).mpr left
  · exact (List.mem_eraseP_of_neg (by simpa using apart.2)).mpr enters

theorem extend (shaped : Shaped (before ++ outline :: after) connections) {extra : List Port}
    (distinct : (extra.map (·.id)).Nodup)
    (new : ∀ name ∈ extra.map (·.id),
      name ∉ (before ++ outline :: after).flatMap Outline.names ++ connections.map (·.id))
    (outputs : ∀ port ∈ extra, port.direction = .output) :
    Shaped (before ++ { outline with outputs := outline.outputs ++ extra } :: after)
      connections where
  distinct := by
    have apart : (extra.map (·.id) ++
        ((before ++ outline :: after).flatMap Outline.names ++ connections.map (·.id))).Nodup :=
      List.nodup_append.mpr ⟨distinct, shaped.distinct, fun name member other used same =>
        new name member (same ▸ used)⟩
    refine List.Perm.nodup ?_ apart
    have names : Outline.names { outline with outputs := outline.outputs ++ extra } =
        outline.names ++ extra.map (·.id) := by
      simp [Outline.names]
    simp only [List.flatMap_append, List.flatMap_cons, names, List.append_assoc]
    exact (List.perm_append_comm_assoc ..).trans ((List.perm_append_comm_assoc ..).append_left _)
  inputs other member := by
    rcases List.mem_append.mp member with old | later
    · exact shaped.inputs other (by simp [old])
    · rcases List.mem_cons.mp later with rfl | old
      · exact shaped.inputs outline (by simp)
      · exact shaped.inputs other (by simp [old])
  outputs other member := by
    rcases List.mem_append.mp member with old | later
    · exact shaped.outputs other (by simp [old])
    · rcases List.mem_cons.mp later with rfl | old
      · intro port inside
        rcases List.mem_append.mp inside with inside | inside
        · exact shaped.outputs outline (by simp) port inside
        · exact outputs port inside
      · exact shaped.outputs other (by simp [old])
  joined connection member := by
    refine (shaped.joined connection member).mono fun other present => ?_
    rcases List.mem_append.mp present with old | later
    · exact ⟨other, by simp [old], rfl, List.Subset.refl _, List.Subset.refl _⟩
    · rcases List.mem_cons.mp later with rfl | old
      · exact ⟨_, List.mem_append_right _ (List.mem_cons_self ..), rfl, List.Subset.refl _,
          List.subset_append_left _ _⟩
      · exact ⟨other, by simp [old], rfl, List.Subset.refl _, List.Subset.refl _⟩
  single := shaped.single

theorem connect (shaped : Shaped outlines connections) (joins : Joins outlines connection)
    (new : connection.id ∉ outlines.flatMap Outline.names ++ connections.map (·.id))
    (untaken : connection.target ∉ connections.map (·.target)) :
    Shaped outlines (connections ++ [connection]) where
  distinct := by
    rw [List.map_append, ← List.append_assoc]
    refine List.nodup_append.mpr ⟨shaped.distinct, by simp, fun name used other member same => ?_⟩
    rw [same, List.mem_singleton.mp member] at used
    exact new used
  inputs := shaped.inputs
  outputs := shaped.outputs
  joined other member := by
    rcases List.mem_append.mp member with old | same
    · exact shaped.joined other old
    · exact List.mem_singleton.mp same ▸ joins
  single := by
    rw [List.map_append]
    refine List.nodup_append.mpr ⟨shaped.single, by simp, fun target taken other member same => ?_⟩
    rw [same, List.mem_singleton.mp member] at taken
    exact untaken taken

end Shaped

end Workflow
