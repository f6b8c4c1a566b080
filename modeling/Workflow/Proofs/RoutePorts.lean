import Mathlib.Data.List.Forall2
import Workflow.Proofs.NodeSessions

/-! Outputs that follow the configuration.

A node gains one output for each key that its configuration names and that no output has yet,
and loses none (`Node.FollowsConfig`).  So nodes may be configured at will, and connections
lead where they led before: `Editor.configuring_keeps_connections`.
-/

namespace Workflow

/-- What comes of a node that is given the outputs that its configuration names.  Behind the
outputs that it had, it has a new one for each key that was missing, and it is else as it was.
Then there is nothing to add. -/
structure Node.FollowsConfig (node after : Node) (ids later : Ids) (missing : List String) :
    Prop where
  lacked : node.Lacks node.configuredOutputs missing
  gained : after = { node with outputs := node.outputs ++ newOutputs ids missing }
  taken : later = ⟨ids.next + missing.length⟩
  complete : node.configuredOutputs ⊆ after.outputKeys
  distinct : node.outputKeys.Nodup → after.outputKeys.Nodup
  settled : ∀ supply, after.syncConfigPorts supply = (after, supply)

/-- A node with all its ports in their places, and perhaps with outputs behind them. -/
structure Node.Extends (node after : Node) : Prop where
  id : after.id = node.id
  inputs : after.inputs = node.inputs
  outputs : node.outputs <+: after.outputs

namespace Node

variable {node middle after : Node}

/-- Where no output is missing, none is added. -/
theorem addOutputs_of_subset {keys : List String} (all : keys ⊆ node.outputKeys) (ids : Ids) :
    addOutputs keys node ids = (node, ids) := by
  obtain ⟨missing, lacks, same⟩ := addOutputs_eq keys node ids
  have none : missing = [] := List.eq_nil_iff_forall_not_mem.mpr fun key member =>
    ((lacks.members key).mp member).2 (all ((lacks.members key).mp member).1)
  simpa [none, newOutputs] using same

theorem syncConfigPorts_follows (node : Node) (ids : Ids) :
    ∃ missing, node.FollowsConfig (node.syncConfigPorts ids).1 ids (node.syncConfigPorts ids).2
      missing := by
  have complete := subset_addOutputs node.configuredOutputs node ids
  have distinct (apart : node.outputKeys.Nodup) :=
    addOutputs_nodup apart node.configuredOutputs ids
  obtain ⟨missing, lacked, same⟩ := addOutputs_eq node.configuredOutputs node ids
  rw [syncConfigPorts]
  rw [same] at complete distinct ⊢
  -- outputs have no part in what is configured, so the second time it is the same
  exact ⟨missing, lacked, rfl, rfl, complete, distinct, addOutputs_of_subset complete⟩

theorem Extends.refl (node : Node) : node.Extends node :=
  ⟨rfl, rfl, List.prefix_rfl⟩

theorem Extends.trans (first : node.Extends middle) (second : middle.Extends after) :
    node.Extends after :=
  ⟨second.id.trans first.id, second.inputs.trans first.inputs,
    first.outputs.trans second.outputs⟩

theorem extends_syncConfigPorts (node : Node) (config : Fields Json) (ids : Ids) :
    node.Extends (syncConfigPorts { node with config } ids).1 := by
  obtain ⟨missing, follows⟩ := syncConfigPorts_follows { node with config } ids
  rw [follows.gained]
  exact ⟨rfl, rfl, List.prefix_append ..⟩

end Node

/-- A graph with the same connections, whose nodes have kept all their ports. -/
structure Graph.Grows (graph after : Graph) : Prop where
  nodes : List.Forall₂ Node.Extends graph.nodes after.nodes
  connections : after.connections = graph.connections

namespace Graph.Grows

variable {graph middle after : Graph}

theorem refl (graph : Graph) : graph.Grows graph :=
  ⟨List.forall₂_same.mpr fun node _ => .refl node, rfl⟩

theorem trans (first : graph.Grows middle) (second : middle.Grows after) : graph.Grows after where
  nodes := by
    have go {before between behind : List Node} (former : List.Forall₂ Node.Extends before between)
        (latter : List.Forall₂ Node.Extends between behind) :
        List.Forall₂ Node.Extends before behind := by
      induction former generalizing behind with
      | nil => exact latter
      | cons here _ ih =>
          cases latter with
          | cons there others => exact .cons (here.trans there) (ih others)
    exact go first.nodes second.nodes
  connections := second.connections.trans first.connections

theorem node? (grows : graph.Grows after) {id : String} {node : Node}
    (found : graph.node? id = some node) :
    ∃ grown, after.node? id = some grown ∧ node.Extends grown := by
  have go {nodes others : List Node} (each : List.Forall₂ Node.Extends nodes others)
      (found : nodes.find? (fun node => node.id = id) = some node) :
      ∃ grown, others.find? (fun node => node.id = id) = some grown ∧ node.Extends grown := by
    induction each with
    | nil => contradiction
    | @cons first grown _ _ here _ ih =>
        rw [List.find?_cons] at found ⊢
        rw [here.id]
        split at found
        · obtain rfl := Option.some.inj found
          exact ⟨grown, rfl, here⟩
        · exact ih found
  exact go grows.nodes found

theorem sourcePort? (grows : graph.Grows after) {connection : Connection} {port : Port}
    (leaves : graph.sourcePort? connection = some port) :
    after.sourcePort? connection = some port := by
  obtain ⟨node, found, listed⟩ := Option.bind_eq_some_iff.mp leaves
  obtain ⟨grown, still, kept⟩ := grows.node? found
  exact Option.bind_eq_some_iff.mpr ⟨grown, still, kept.outputs.find?_eq_some listed⟩

theorem targetPort? (grows : graph.Grows after) {connection : Connection} {port : Port}
    (enters : graph.targetPort? connection = some port) :
    after.targetPort? connection = some port := by
  obtain ⟨node, found, listed⟩ := Option.bind_eq_some_iff.mp enters
  obtain ⟨grown, still, kept⟩ := grows.node? found
  exact Option.bind_eq_some_iff.mpr ⟨grown, still, kept.inputs.symm ▸ listed⟩

/-- Where one node is replaced by one that extends it, the graph grows. -/
theorem modifyNode {id : String} {node grown : Node} (found : graph.node? id = some node)
    (kept : node.Extends grown) : graph.Grows (graph.modifyNode id fun _ => grown) := by
  obtain ⟨before, behind, split, changed⟩ := modifyNode_split found fun _ => grown
  refine ⟨?_, rfl⟩
  rw [split, changed]
  exact List.rel_append (List.forall₂_same.mpr fun node _ => .refl node)
    (.cons kept (List.forall₂_same.mpr fun node _ => .refl node))

end Graph.Grows

namespace Editor

/-- The commands that set keys of the configurations of nodes. -/
def configuring (updates : List (String × String × Json)) : List Command :=
  updates.map fun (node, key, value) => .configure node key value

theorem configure_grows (editor : Editor) (id key : String) (value : Json) (ids : Ids) :
    editor.graph.Grows (editor.step (.configure id key value) ids).1.graph := by
  cases found : editor.graph.node? id with
  | none =>
      have fails : editor.perform (.configure id key value) ids =
          (.error (.nodeNotFound id), ids) := by
        rw [perform, configure, found]
        rfl
      rw [step_eq, fails]
      exact .refl _
  | some node =>
      let configured :=
        (Node.syncConfigPorts { node with config := Fields.insert key value node.config } ids)
      have succeeds : editor.perform (.configure id key value) ids =
          (.ok (editor.commit (editor.graph.modifyNode id fun _ => configured.1),
            .nodeUpdated id), configured.2) := by
        rw [perform, configure, found]
        rfl
      rw [step_eq, succeeds]
      exact .modifyNode found (node.extends_syncConfigPorts _ ids)

theorem configuring_grows (editor : Editor) (updates : List (String × String × Json)) (ids : Ids) :
    editor.graph.Grows (editor.session (configuring updates) ids).1.graph := by
  induction updates generalizing editor ids with
  | nil => exact .refl _
  | cons update rest ih =>
      obtain ⟨id, key, value⟩ := update
      exact (editor.configure_grows id key value ids).trans (ih _ _)

/-- Giving a node the outputs that its configuration names adds one for each key that is
missing, in the order in which they are named first, and changes nothing else; the second
time it does nothing.  So whatever is configured, and how often, the connections stay, and
lead from and to the same ports. -/
theorem configuring_keeps_connections (node : Node) (ids : Ids) (editor : Editor)
    (updates : List (String × String × Json)) (supply : Ids) :
    (∃ missing, node.FollowsConfig (node.syncConfigPorts ids).1 ids (node.syncConfigPorts ids).2
      missing) ∧
    let after := (editor.session (configuring updates) supply).1.graph
    after.connections = editor.graph.connections ∧
    List.Forall₂ Node.Extends editor.graph.nodes after.nodes ∧
    ∀ connection port,
      (editor.graph.sourcePort? connection = some port →
        after.sourcePort? connection = some port) ∧
      (editor.graph.targetPort? connection = some port →
        after.targetPort? connection = some port) := by
  have grows := editor.configuring_grows updates supply
  exact ⟨node.syncConfigPorts_follows ids, grows.connections, grows.nodes,
    fun _ _ => ⟨grows.sourcePort?, grows.targetPort?⟩⟩

/-- Of two rules for one new output the second adds nothing, nor does one for an old output. -/
example :
    let rule (output : String) : Json :=
      .object [("condition", .string "true"), ("output", .string output)]
    let port (key : String) : Port := ⟨key, key, .output, anyType, false⟩
    let router : Node :=
      { id := "router", templateId := "memory-router", kind := .condition, title := "router"
        config := [("defaultOutput", .string "rest"),
          ("rules", .array [rule "new", rule "old", rule "new", rule "newer"])]
        inputs := [], outputs := [port "old"], status := .idle, position := .origin }
    (router.syncConfigPorts ⟨0⟩).1.outputKeys = ["old", "new", "newer", "rest"] := by
  decide

end Editor

end Workflow
