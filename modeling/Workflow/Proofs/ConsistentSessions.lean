import Workflow.Proofs.Consistency
import Workflow.Proofs.Zipper

/-! Sessions keep graphs consistent.

The states of the past and of the future are consistent like the present one,
and none of them has a name that is still to be given out.  This is what each
command keeps, so that `Editor.session_consistent` holds of every session.
-/

namespace Workflow

namespace Graph

/-- A sound graph, none of whose names is still to be given out. -/
structure Editable (graph : Graph) (ids : Ids) : Prop where
  sound : graph.Sound
  unused : ids.Unused graph.names

variable {graph after : Graph} {ids later : Ids} {node : Node}

theorem Editable.shrink (editable : graph.Editable ids) (sound : after.Sound)
    (part : after.names ⊆ graph.names) : after.Editable ids :=
  ⟨sound, editable.unused.mono (Nat.le_refl _) part⟩

theorem Editable.grow (editable : graph.Editable ids) (sound : after.Sound) {names : List String}
    (named : Named ids later names) (part : after.names ⊆ graph.names ++ names) :
    after.Editable later :=
  ⟨sound, (named.unused editable.unused).mono (Nat.le_refl _) part⟩

theorem names_addNode_subset (graph : Graph) (node : Node) :
    (graph.addNode node).names ⊆ graph.names ++ node.names := by
  intro name member
  simp only [names, addNode, List.flatMap_append, List.flatMap_singleton, List.mem_append]
    at member ⊢
  tauto

theorem names_removeNode_subset (graph : Graph) (id : String) :
    (graph.removeNode id).names ⊆ graph.names := by
  rw [← names_eq, ← names_eq, removeNode, outlines_refreshFlags]
  refine (List.Sublist.append ?_ ?_).subset
  · exact (List.Sublist.map _ (List.eraseP_sublist ..)).flatMap _
  · exact List.Sublist.map _ List.filter_sublist

theorem names_removeConnection_subset (graph : Graph) (id : String) :
    (graph.removeConnection id).names ⊆ graph.names := by
  rw [← names_eq, ← names_eq, removeConnection, outlines_refreshFlags]
  exact ((List.Sublist.refl _).append (List.Sublist.map _ (List.eraseP_sublist ..))).subset

theorem names_addConnection_subset (graph : Graph) (connection : Connection) :
    (graph.addConnection connection).names ⊆ graph.names ++ [connection.id] := by
  rw [← names_eq, ← names_eq, addConnection, outlines_markConnected, outlines_markConnected,
    List.append_assoc]
  refine List.append_subset.mpr ⟨List.subset_append_left _ _, ?_⟩
  show (graph.connections ++ [connection]).map (·.id) ⊆ _
  rw [List.map_append]
  exact List.subset_append_right _ _

theorem names_growNode_subset {id : String} (found : graph.node? id = some node) {grown : Node}
    {extra : List Port} (same : grown.id = node.id) (inputs : grown.inputs = node.inputs)
    (outputs : grown.outputs = node.outputs ++ extra) :
    (graph.modifyNode id fun _ => grown).names ⊆ graph.names ++ extra.map (·.id) := by
  obtain ⟨before, behind, split, changed⟩ := modifyNode_split found fun _ => grown
  have gained : grown.names = node.names ++ extra.map (·.id) := by
    simp [Node.names, Node.ports, same, inputs, outputs]
  intro name member
  rw [names, changed] at member
  rw [names, split]
  simp only [List.flatMap_append, List.flatMap_cons, List.mem_append, gained] at member ⊢
  rcases member with (old | (old | new) | old) | old
  · exact .inl (.inl (.inl old))
  · exact .inl (.inl (.inr (.inl old)))
  · exact .inr new
  · exact .inl (.inl (.inr (.inr old)))
  · exact .inl (.inr old)

theorem Editable.addNode (editable : graph.Editable ids) (new : node.New ids later) :
    (graph.addNode node).Editable later :=
  editable.grow (editable.sound.addNode editable.unused new) new.named
    (names_addNode_subset graph node)

theorem Editable.modifyNode (editable : graph.Editable ids) {id : String} {f : Node → Node}
    (same : ∀ node, (f node).id = node.id ∧ (f node).inputs = node.inputs ∧
      (f node).outputs = node.outputs) : (graph.modifyNode id f).Editable ids := by
  have outlines : (graph.modifyNode id f).outlines = graph.outlines :=
    outlines_modifyNode fun node => by simp [Node.outline, same node]
  refine editable.shrink (editable.sound.modifyNode same) ?_
  rw [← names_eq, ← names_eq, outlines]
  exact List.Subset.refl _

theorem Editable.configure (editable : graph.Editable ids) {id : String}
    (found : graph.node? id = some node) (config : Fields Json) :
    (graph.modifyNode id fun _ => (Node.syncConfigPorts { node with config } ids).1).Editable
        (Node.syncConfigPorts { node with config } ids).2 ∧
      ids.next ≤ (Node.syncConfigPorts { node with config } ids).2.next := by
  obtain ⟨extra, same, new⟩ := Node.addOutputs_new
    (Node.configuredOutputs { node with config }) { node with config } ids
  rw [Node.syncConfigPorts, same]
  exact ⟨editable.grow (editable.sound.growNode editable.unused found new rfl rfl rfl) new.named
    (names_growNode_subset found rfl rfl rfl), new.named.grows⟩

theorem Editable.setStatuses (editable : graph.Editable ids) (statuses : Fields Status) :
    (graph.setStatuses statuses).Editable ids := by
  unfold Graph.setStatuses
  induction statuses generalizing graph with
  | nil => exact editable
  | cons entry rest ih => exact ih (editable.modifyNode fun _ => ⟨rfl, rfl, rfl⟩)

end Graph

/-- Every edit keeps a graph editable, and takes no name back. -/
theorem Edit.editable {graph after : Graph} {ids later : Ids} {command : Command}
    (edit : Edit graph ids command after later) (editable : graph.Editable ids) :
    after.Editable later ∧ ids.next ≤ later.next := by
  cases edit with
  | @add template _ position =>
      have new := Node.ofTemplate_new template position ids
      exact ⟨editable.addNode new, new.named.grows⟩
  | addSubflow definition position =>
      have new := definition.instantiate_new position ids
      exact ⟨editable.addNode new, new.named.grows⟩
  | remove id =>
      exact ⟨editable.shrink (editable.sound.removeNode id) (graph.names_removeNode_subset id),
        Nat.le_refl _⟩
  | duplicate found =>
      have member := List.mem_of_find?_eq_some found
      have new := Node.duplicate_new (fun _ => editable.sound.inputs member)
        (fun _ => editable.sound.outputs member) Editor.duplicateOffset Editor.duplicateOffset ids
      exact ⟨editable.addNode new, new.named.grows⟩
  | configure found key value => exact editable.configure found _
  | retitle id title =>
      exact ⟨editable.modifyNode fun _ => ⟨rfl, rfl, rfl⟩, Nat.le_refl _⟩
  | connect resolved =>
      exact ⟨editable.grow (editable.sound.addConnection editable.unused resolved) (.one ids)
        (graph.names_addConnection_subset _), Nat.le_succ _⟩
  | disconnect id =>
      exact ⟨editable.shrink (editable.sound.removeConnection id)
        (graph.names_removeConnection_subset id), Nat.le_refl _⟩

/-- A state that, whatever graph it is restored in, can be edited. -/
def Snapshot.Editable (ids : Ids) (state : Snapshot) : Prop :=
  ∀ graph : Graph, (graph.restore state).Editable ids

theorem Snapshot.Editable.mono {ids later : Ids} {state : Snapshot} (editable : state.Editable ids)
    (grows : ids.next ≤ later.next) : state.Editable later :=
  fun graph => ⟨(editable graph).sound, (editable graph).unused.mono grows (List.Subset.refl _)⟩

theorem Graph.Editable.snapshot {graph : Graph} {ids : Ids} (editable : graph.Editable ids) :
    graph.snapshot.Editable ids :=
  fun _ => ⟨⟨editable.sound.shaped, editable.sound.flags⟩, editable.unused⟩

namespace Editor

variable {editor : Editor} {ids : Ids}

structure Tended (editor : Editor) (ids : Ids) : Prop where
  bounded : editor.history.Bounded
  all : editor.zipper.All (Snapshot.Editable ids)

theorem Tended.graph (tended : editor.Tended ids) : editor.graph.Editable ids :=
  tended.all.2.1 editor.graph

theorem perform_fails {command : Command} {error : EditError} {later : Ids}
    (fails : editor.perform command ids = (.error error, later)) : later = ids := by
  cases command with
  | addSubflow | applyStatuses => cases fails
  | remove | retitle | disconnect | undo | redo => exact (congrArg Prod.snd fails).symm
  | add template position =>
      simp only [perform, add] at fails
      cases found : Catalog.find? template <;> rw [found] at fails <;> cases fails
      rfl
  | duplicate id | configure id =>
      simp only [perform, duplicate, configure] at fails
      cases found : editor.graph.node? id <;> rw [found] at fails <;> cases fails
      rfl
  | connect sourceNode sourcePort targetNode targetPort =>
      simp only [perform, connect] at fails
      cases resolved : resolve editor.graph sourceNode sourcePort targetNode targetPort <;>
        rw [resolved] at fails <;> cases fails
      rfl

/-- What a command that succeeds brings in can be edited, as what was there before can. -/
theorem Tended.performed (tended : editor.Tended ids) {command : Command} {after : Editor}
    {change : Change} {later : Ids}
    (performed : editor.perform command ids = (.ok (after, change), later)) (limit : Nat) :
    (editor.zipper.move limit (editor.move command ids)).All (Snapshot.Editable later) := by
  by_cases edits : command.edits
  · obtain ⟨graph, rfl, edit⟩ := perform_edits edits performed
    obtain ⟨editable, grows⟩ := edit.editable tended.graph
    rw [move_of_edits edits performed]
    have before := tended.all.mono fun state kept => kept.mono grows
    exact before.move limit fun _ brought => Option.some.inj brought ▸ editable.snapshot
  · have same : ids = later := by
      cases command with
      | undo | redo | applyStatuses => exact congrArg Prod.snd performed
      | _ => contradiction
    obtain rfl := same
    refine tended.all.move limit fun state brought => ?_
    rw [move, performed] at brought
    cases command with
    | undo | redo => contradiction
    | applyStatuses statuses =>
        obtain ⟨rfl, _⟩ := Prod.mk.inj (Except.ok.inj (congrArg Prod.fst performed))
        exact Option.some.inj brought ▸ (tended.graph.setStatuses statuses).snapshot
    | _ => contradiction

theorem step_supply {command : Command} {later : Ids}
    {outcome : Except EditError (Editor × Change)}
    (performed : editor.perform command ids = (outcome, later)) :
    (editor.step command ids).2 = later := by
  rw [step_eq, performed]
  cases outcome <;> rfl

theorem Tended.step (tended : editor.Tended ids) (command : Command) :
    (editor.step command ids).1.Tended (editor.step command ids).2 := by
  obtain ⟨bounded, _, moved⟩ := step_moves tended.bounded command ids
  refine ⟨bounded, ?_⟩
  rw [moved]
  cases performed : editor.perform command ids with
  | mk outcome later =>
      rw [step_supply performed]
      cases outcome with
      | error error =>
          obtain rfl := perform_fails performed
          rw [move, performed, Zipper.move_stay]
          exact tended.all
      | ok result => exact tended.performed performed _

/-- Whatever is done to a consistent graph, it is consistent after every step: it passes
its check, its names are distinct, its flags say what its connections say, and in
particular no input has two connections and no connection lacks an end. -/
theorem session_consistent {graph : Graph} {ids : Ids} (consistent : graph.Consistent)
    (unused : ids.Unused graph.names) (limit : Nat) (commands : List Command) :
    ((new graph limit).session commands ids).1.graph.Consistent ∧
    (((new graph limit).session commands ids).1.graph.connections.map (·.target)).Nodup ∧
    ∀ connection ∈ ((new graph limit).session commands ids).1.graph.connections,
      ((new graph limit).session commands ids).1.graph.Joined connection := by
  have editable : graph.Editable ids := ⟨Graph.consistent_iff_sound.mp consistent, unused⟩
  have start : (new graph limit).Tended ids :=
    ⟨History.empty_bounded limit, by simp [new, zipper, History.empty], editable.snapshot,
      by simp [new, zipper, History.empty]⟩
  have kept := session_preserves (fun editor command ids tended => tended.step command) commands
    start
  have sound := kept.graph.sound
  exact ⟨Graph.consistent_iff_sound.mpr sound, sound.shaped.single,
    fun connection member => sound.joined member⟩

end Editor

def pair : Graph :=
  let port (id : String) (direction : Direction) : Port := ⟨id, "main", direction, anyType, true⟩
  let node (id template : String) (kind : Kind) (inputs outputs : List Port) : Node :=
    ⟨id, template, kind, id, [], inputs, outputs, .idle, .origin⟩
  { id := .nil
    name := "pair"
    nodes :=
      [ node "start" "manual" .trigger [] [port "out" .output],
        node "end" "http-request" .action [port "in" .input] [] ]
    connections := [⟨"wire", ⟨"start", "out"⟩, ⟨"end", "in"⟩, anyType⟩] }

theorem session_of_pair_consistent :
    pair.Consistent ∧ Ids.Unused ⟨0⟩ pair.names ∧
    ((Editor.new pair 2).session
      [.duplicate "end", .remove "start", .undo, .undo, .redo] ⟨0⟩).1.graph.Consistent := by
  have consistent : pair.Consistent :=
    { accepted := ⟨⟨["start"], false⟩, rfl⟩
      distinct := by decide
      inputs := by decide
      outputs := by decide
      flags := by decide }
  have unused : Ids.Unused ⟨0⟩ pair.names := Ids.unused_of_short ⟨0⟩ (by decide)
  exact ⟨consistent, unused, (Editor.session_consistent consistent unused 2 _).1⟩

end Workflow
