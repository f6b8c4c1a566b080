import Workflow.Proofs.NodeOrder
import Workflow.Proofs.Refusals

/-! Runs of graphs without a cycle.

Where the nodes are in order, every way on leads to a later node.  So an activation is no
deeper than the place of its node, and a limit that leaves room for every node is never
met: `Engine.run_unrefused`.
-/

namespace Workflow

theorem Deed.of_failure? {deed : Deed} {name message : String}
    (failed : deed.failure? = some (some name, message)) :
    ∃ path run, deed = .event ⟨path, .nodeFailed run name message⟩ := by
  cases deed with
  | event traced =>
      obtain ⟨path, event⟩ := traced
      cases event <;> simp_all [failure?]
  | _ => simp_all [failure?]

namespace Engine

variable {engine : Engine} {outer graph : Graph} {entry : Entry} {depth : Nat} {path : Path}
  {name : String}

/-- Each step of the way to an activation goes on to a node that stands later in the order. -/
theorem Reaches.depth_le_idxOf (wellFormed : outer.WellFormed) {order : List String}
    (ordered : outer.order? = some order) (plain : ∀ node ∈ outer.nodes, ¬ node.Composite)
    (reaches : engine.Reaches outer entry depth path graph name) :
    graph = outer ∧ depth ≤ order.idxOf name := by
  obtain ⟨_, forward⟩ := Graph.order?_forward wellFormed ordered
  have onward {depth : Nat} {name : String} {node : Node} {port : Port} {connection : Connection}
      (found : outer.node? name = some node) (placed : depth ≤ order.idxOf name)
      (connected : connection ∈ outer.outgoing ⟨node.id, port.id⟩) :
      depth + 1 ≤ order.idxOf connection.target.nodeId := by
    obtain ⟨known, leaves⟩ := List.mem_filter.mp connected
    have named : node.id = name := (Graph.mem_of_node? found).2
    have starts : connection.source.nodeId = name := by rw [of_decide_eq_true leaves, named]
    have later := forward connection known
    rw [starts] at later
    omega
  induction reaches with
  | start => exact ⟨rfl, Nat.zero_le _⟩
  | follow _ found _ connected ih =>
      obtain ⟨rfl, placed⟩ := ih
      exact ⟨rfl, onward found placed connected⟩
  | body _ found _ _ _ connected ih =>
      obtain ⟨rfl, placed⟩ := ih
      exact ⟨rfl, onward found placed (List.mem_of_getElem? connected)⟩
  | nested _ found composite _ _ _ ih =>
      obtain ⟨rfl, _⟩ := ih
      exact absurd composite (plain _ (List.mem_of_find?_eq_some found))

theorem Reaches.depth_lt_length (wellFormed : outer.WellFormed) (acyclic : outer.hasCycle = false)
    (plain : ∀ node ∈ outer.nodes, ¬ node.Composite)
    (reaches : engine.Reaches outer entry depth path graph name) :
    depth < outer.nodes.length := by
  obtain ⟨order, ordered⟩ : ∃ order, outer.order? = some order := by
    simpa [Graph.hasCycle, Option.isNone_eq_false_iff, Option.isSome_iff_exists] using acyclic
  obtain ⟨rfl, placed⟩ := reaches.depth_le_idxOf wellFormed ordered plain
  obtain ⟨all, _⟩ := Graph.order?_forward wellFormed ordered
  have listed : name ∈ order := all.mem_iff.mpr (Graph.mem_ids_of_node? reaches.known.2)
  have place := List.idxOf_lt_length_of_mem listed
  have count := all.length_eq
  rw [Graph.ids, List.length_map] at count
  omega

/-- In a graph that passes its check, has no cycle and no composite node, and no more nodes
than the limit, no activation is too deep: none is reached beyond the limit, no event tells
of a refusal, and no error of the record is one. -/
theorem run_unrefused {report : Graph.Report} (accepted : outer.check = .ok report)
    (acyclic : report.hasCycle = false) (plain : ∀ node ∈ outer.nodes, ¬ node.Composite)
    (room : outer.nodes.length ≤ engine.limits.maxDepth) (input : Json) (entry : Entry)
    (world : World) :
    (∀ depth path graph name, engine.Reaches outer entry depth path graph name →
      depth < engine.limits.maxDepth) ∧
    (∃ trace, (engine.run outer input entry world).1.trace = world.trace ++ trace ∧
      ∀ traced ∈ trace, ∀ run name limit,
        traced.event ≠ .nodeFailed run name (NodeError.depthExceeded limit).message) ∧
    ∀ error ∈ (engine.run outer input entry world).2.errors, error.nodeId.isSome →
      ∀ limit, error.message ≠ (NodeError.depthExceeded limit).message := by
  obtain ⟨wellFormed, rfl⟩ := Graph.check_eq_ok_iff.mp accepted
  have shallow (depth : Nat) (path : Path) (graph : Graph) (name : String)
      (reaches : engine.Reaches outer entry depth path graph name) :
      depth < engine.limits.maxDepth :=
    (reaches.depth_lt_length wellFormed acyclic plain).trans_le room
  obtain ⟨deeds, tally, whole, grows, same⟩ := engine.run_takes outer input entry world
  have admitted {path : Path} {run : Uuid} {name : String} {limit : Nat} :
      .event ⟨path, .nodeFailed run name (NodeError.depthExceeded limit).message⟩ ∉ deeds := by
    intro told
    rcases (run_placed whole _ told).of_event with ⟨_, nodeless⟩ | ⟨_, _, _, reaches, _⟩
    · contradiction
    · have part := run_parts whole told reaches.path_ne_nil List.prefix_rfl
      have refused := Deed.mem_below_iff.mpr ⟨told, List.prefix_rfl⟩
      obtain ⟨_, _, deep⟩ := part.reaches_of_refusal refused
      exact absurd (shallow _ _ _ _ deep) (Nat.lt_irrefl _)
  refine ⟨shallow, ⟨_, grows.trace, ?_⟩, ?_⟩
  · intro traced member run name limit refusal
    obtain ⟨path, event⟩ := traced
    obtain rfl : event = _ := refusal
    exact admitted (Deed.mem_event_iff.mp member)
  · intro error member ofNode limit refusal
    obtain ⟨name, named⟩ := Option.isSome_iff_exists.mp ofNode
    obtain ⟨attempted, _, tells, rfl⟩ := whole
    have failed : (some name, error.message) ∈ tally.execution.failures :=
      List.mem_map.mpr ⟨error, same ▸ member, by rw [named]⟩
    rw [tells.failures] at failed
    obtain ⟨deed, own, failure⟩ := List.mem_filterMap.mp failed
    have done := (List.mem_filter.mp own).1
    obtain ⟨path, run, rfl⟩ := Deed.of_failure? failure
    rw [refusal] at done
    exact admitted (List.mem_append_left _ (List.mem_cons_of_mem _ done))

end Engine

/-- Three activations one after another are what the limit of three allows. -/
theorem run_of_twice_unrefused :
    let engine : Engine := ⟨[("both", fun _ input => ⟨0, .returned input⟩)], [], ⟨100, 3, 8⟩⟩
    (engine.run twice .null .triggers (.new ⟨0, 0⟩ ⟨0⟩)).2.executedNodes =
        ["start", "both", "both", "last", "last"] ∧
      ∀ error ∈ (engine.run twice .null .triggers (.new ⟨0, 0⟩ ⟨0⟩)).2.errors,
        error.nodeId.isSome → error.message ≠ (NodeError.depthExceeded 3).message := by
  intro engine
  have accepted : twice.check = .ok ⟨["start"], false⟩ := rfl
  have plain : ∀ node ∈ twice.nodes, ¬ node.Composite := by
    simp [twice, Node.Composite, subflowTemplate]
  obtain ⟨_, _, unrefused⟩ := engine.run_unrefused accepted rfl plain (by decide) .null .triggers
    (.new ⟨0, 0⟩ ⟨0⟩)
  exact ⟨by decide +kernel, fun error member ofNode => unrefused error member ofNode 3⟩

end Workflow
