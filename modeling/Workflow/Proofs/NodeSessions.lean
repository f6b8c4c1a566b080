import Workflow.Proofs.ConsistentSessions

/-! What sessions keep of every node.

Editing makes nodes, copies them, configures them, and changes what is shown of them and
whether their ports are connected.  A property that lasts through each of these, for the
commands of a kind, holds of all nodes throughout a session of such commands, however
often edits are undone and redone: `Node.Lasting.session`.
-/

namespace Workflow

/-- A property that the commands of a kind give to the nodes they make and leave to those
they change. -/
structure Node.Lasting (plain : Command → Prop) (holds : Node → Prop) : Prop where
  made {template : Template} (listed : template ∈ Catalog.templates) (position : Position)
    (ids : Ids) : plain (.add template.id position) → holds (ofTemplate template position ids).1
  instantiated (definition : Subflow) (position : Position) (ids : Ids) :
    plain (.addSubflow definition position) → holds (definition.instantiate position ids).1
  copied {node : Node} (ids : Ids) : holds node →
    holds (node.duplicate Editor.duplicateOffset Editor.duplicateOffset ids).1
  configured {node : Node} (config : Fields Json) (ids : Ids) :
    holds node → holds (syncConfigPorts { node with config } ids).1
  shown {node : Node} (title : String) (status : Status) :
    holds node → holds { node with title, status }
  flagged {node : Node} {f : Port → Port}
    (flags : ∀ port, ∃ connected, f port = { port with connected }) :
    holds node → holds (node.mapPorts f)

namespace Graph

def All (graph : Graph) (holds : Node → Prop) : Prop :=
  ∀ node ∈ graph.nodes, holds node

variable {graph : Graph} {holds : Node → Prop}

theorem All.addNode (all : graph.All holds) {node : Node} (new : holds node) :
    (graph.addNode node).All holds := by
  intro other member
  rcases List.mem_append.mp member with old | same
  · exact all other old
  · exact List.mem_singleton.mp same ▸ new

theorem All.modifyNode (all : graph.All holds) {id : String} {f : Node → Node}
    (kept : ∀ node ∈ graph.nodes, node.id = id → holds (f node)) :
    (graph.modifyNode id f).All holds := by
  have go (nodes : List Node) (inside : nodes ⊆ graph.nodes) :
      ∀ node ∈ modifyNode.go id f nodes, holds node := by
    induction nodes with
    | nil => exact nofun
    | cons first rest ih =>
        obtain ⟨here, later⟩ := List.cons_subset.mp inside
        rw [modifyNode.go]
        split
        · rename_i same
          exact List.forall_mem_cons.mpr
            ⟨kept first here same, fun node old => all node (later old)⟩
        · exact List.forall_mem_cons.mpr ⟨all first here, ih later⟩
  exact go graph.nodes (List.Subset.refl _)

end Graph

namespace Node.Lasting

variable {plain : Command → Prop} {holds : Node → Prop} (lasting : Node.Lasting plain holds)
  {graph : Graph}

include lasting

theorem markConnected (all : graph.All holds) (endpoint : Endpoint) :
    (graph.markConnected endpoint).All holds := by
  refine all.modifyNode fun node member _ => lasting.flagged (fun port => ?_) (all node member)
  split
  · exact ⟨true, rfl⟩
  · exact ⟨port.connected, rfl⟩

theorem refreshFlags (all : graph.All holds) : graph.refreshFlags.All holds := by
  intro node member
  obtain ⟨before, old, rfl⟩ := List.mem_map.mp member
  exact lasting.flagged (fun _ => ⟨_, rfl⟩) (all before old)

theorem setStatuses (all : graph.All holds) (statuses : Fields Status) :
    (graph.setStatuses statuses).All holds := by
  unfold Graph.setStatuses
  induction statuses generalizing graph with
  | nil => exact all
  | cons entry rest ih =>
      exact ih (all.modifyNode fun node member _ =>
        lasting.shown node.title entry.2 (all node member))

/-- An edit leaves the property to all nodes. -/
theorem edit {after : Graph} {ids later : Ids} {command : Command} (allowed : plain command)
    (all : graph.All holds) (edit : Edit graph ids command after later) : after.All holds := by
  cases edit with
  | add listed position => exact all.addNode (lasting.made listed position ids allowed)
  | addSubflow definition position =>
      exact all.addNode (lasting.instantiated definition position ids allowed)
  | remove id =>
      exact lasting.refreshFlags fun node member => all node (List.mem_of_mem_eraseP member)
  | duplicate found =>
      exact all.addNode (lasting.copied ids (all _ (List.mem_of_find?_eq_some found)))
  | configure found key value =>
      exact all.modifyNode fun _ _ _ =>
        lasting.configured _ ids (all _ (List.mem_of_find?_eq_some found))
  | retitle id title =>
      exact all.modifyNode fun node member _ => lasting.shown title node.status (all node member)
  | connect resolved => exact lasting.markConnected (lasting.markConnected all _) _
  | disconnect id => exact lasting.refreshFlags all

variable {editor : Editor} {command : Command}

/-- A step leaves the property to the nodes of all states that can be gone to. -/
theorem step (allowed : plain command) (bounded : editor.history.Bounded)
    (all : editor.zipper.All fun state => ∀ node ∈ state.nodes, holds node) (ids : Ids) :
    (editor.step command ids).1.zipper.All fun state => ∀ node ∈ state.nodes, holds node := by
  obtain ⟨_, _, moved⟩ := Editor.step_moves bounded command ids
  rw [moved]
  refine all.move _ fun state brought => ?_
  rcases performed : editor.perform command ids with ⟨outcome, later⟩
  cases outcome with
  | error error => simp [Editor.move, performed, Zipper.Move.brings] at brought
  | ok result =>
      obtain ⟨after, change⟩ := result
      by_cases edits : command.edits
      · rw [Editor.move_of_edits edits performed] at brought
        obtain rfl := Option.some.inj brought
        obtain ⟨graph, rfl, edit⟩ := Editor.perform_edits edits performed
        exact lasting.edit allowed all.2.1 edit
      · rw [Editor.move, performed] at brought
        cases command with
        | undo | redo => contradiction
        | applyStatuses statuses =>
            obtain ⟨rfl, _⟩ := Prod.mk.inj (Except.ok.inj (congrArg Prod.fst performed))
            exact Option.some.inj brought ▸ lasting.setStatuses all.2.1 statuses
        | _ => contradiction

/-- Throughout a session, the property holds of all nodes that there are. -/
theorem session (all : graph.All holds) (limit : Nat) {commands : List Command}
    (allowed : ∀ command ∈ commands, plain command) (ids : Ids) :
    ((Editor.new graph limit).session commands ids).1.graph.All holds := by
  have onward (editor : Editor) (ids : Ids) (bounded : editor.history.Bounded)
      (all : editor.zipper.All fun state => ∀ node ∈ state.nodes, holds node) :
      (editor.session commands ids).1.graph.All holds := by
    induction commands generalizing editor ids with
    | nil => exact all.2.1
    | cons command rest ih =>
        obtain ⟨first, others⟩ := List.forall_mem_cons.mp allowed
        exact ih others _ _ (Editor.step_moves bounded command ids).1
          (lasting.step first bounded all ids)
  exact onward _ ids (History.empty_bounded limit) ⟨nofun, all, nofun⟩

end Node.Lasting

end Workflow
