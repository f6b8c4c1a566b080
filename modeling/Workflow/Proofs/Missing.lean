import Workflow.Proofs.Bracketing

/-! Runs miss no node.

A graph that passes its check has a node for every start and for the end of every
connection.  So it makes no difference to a run what an activation would do if the graph
lacked its node: `Run.wholeGraph_visitElse`.
-/

namespace Workflow.Run

/-- Activates nodes as `visit` does, and does something else for those that the graph lacks. -/
def visitElse (missing : Visit) (engine : Engine) : (left : Nat) → Visit
  | 0, graph, path, name, input =>
      match graph.node? name with
      | none => missing graph path name input
      | some _ => do
          fail path name (.depthExceeded engine.limits.maxDepth)
          return none
  | left + 1, graph, path, name, input =>
      match graph.node? name with
      | none => missing graph path name input
      | some node => activate engine (visitElse missing engine left) graph path node input

/-- Two ways of activating nodes that are the same for nodes of sound graphs. -/
def Agree (visit other : Visit) : Prop :=
  ∀ graph path name input, graph.WellFormed → (graph.node? name).isSome →
    visit graph path name input = other graph path name input

theorem branches_done (graph : Graph) (node : Node) (keys : List String) (state : RunState) :
    ∃ after, branches graph node keys state = (after, .done (fired graph node keys)) := by
  induction keys generalizing state with
  | nil => exact ⟨state, rfl⟩
  | cons key rest ih =>
      unfold branches
      cases found : node.output? key with
      | none =>
          have rest_fired : fired graph node (key :: rest) = fired graph node rest := by
            simp [fired, found]
          rw [rest_fired]
          exact ih _
      | some port =>
          obtain ⟨after, done⟩ := ih state
          have key_fired : fired graph node (key :: rest) =
              graph.outgoing ⟨node.id, port.id⟩ ++ fired graph node rest := by
            simp [fired, found]
          refine ⟨after, ?_⟩
          change Resumption.bindTurn (branches graph node rest state) _ = _
          rw [done, key_fired]
          rfl

/-- Being the same agrees with doing one thing after another. -/
def sameness : Likeness (Activity RunState) (Activity RunState) where
  like := Eq
  pure _ := rfl
  bind same next := by rw [same, funext next]
  map f same := by rw [same]

section

variable {visit other : Visit} (agree : Agree visit other) {graph : Graph}

include agree

theorem target_agrees (wellFormed : graph.WellFormed) {connection : Connection}
    (known : connection ∈ graph.connections) (path : Path) (input : Json) :
    visit graph path connection.target.nodeId input =
      other graph path connection.target.nodeId input :=
  agree graph path _ input wellFormed (wellFormed.reaches connection known)

theorem follow_congr (wellFormed : graph.WellFormed) (path : Path) (node : Node)
    (outcome : Outcome) :
    follow visit graph path node outcome = follow other graph path node outcome := by
  have onward : (fired graph node outcome.ports).mapIdx (fun index connection =>
        visit graph (path ++ [.follow index connection]) connection.target.nodeId outcome.payload) =
      (fired graph node outcome.ports).mapIdx (fun index connection =>
        other graph (path ++ [.follow index connection]) connection.target.nodeId
          outcome.payload) := by
    refine List.mapIdx_eq_mapIdx_iff.mpr fun index bound => ?_
    have known := fired_subset graph node outcome.ports (List.getElem_mem bound)
    exact target_agrees agree wellFormed known _ _
  funext state
  obtain ⟨after, done⟩ := branches_done graph node outcome.ports state
  have goesOn (visit : Visit) : follow visit graph path node outcome state =
      (if (fired graph node outcome.ports).isEmpty then Running.endOn node.id outcome.payload
        else discard <| Activity.all <| (fired graph node outcome.ports).mapIdx
          fun index connection => visit graph (path ++ [.follow index connection])
            connection.target.nodeId outcome.payload : Running Unit) after := by
    change Resumption.bindTurn (branches graph node outcome.ports state) _ = _
    rw [done]
    rfl
  rw [goesOn, goesOn, onward]

theorem runBody_congr (wellFormed : graph.WellFormed) (path : Path) (node : Node) (round : Nat)
    (key : String) (payload : Json) :
    runBody visit graph path node round key payload =
      runBody other graph path node round key payload := by
  unfold runBody
  cases node.output? key with
  | none => rfl
  | some port =>
      refine sameness.mapM _ fun numbered listed => ?_
      have connected := List.mem_of_getElem? (List.mk_mem_zipIdx_iff_getElem?.mp listed)
      exact target_agrees agree wellFormed (List.mem_filter.mp connected).1 _ _

theorem attempt_congr (path : Path) (graph : Graph) (input : Json) (entry : Entry) :
    attempt visit path graph input entry = attempt other path graph input entry := by
  unfold attempt
  cases accepted : graph.check with
  | error error => rfl
  | ok report =>
      obtain ⟨wellFormed, rfl⟩ := Graph.check_eq_ok_iff.mp accepted
      dsimp only
      congr 2
      rw [List.mapIdx_eq_mapIdx_iff]
      intro index bound
      exact agree graph _ _ input wellFormed
        (Graph.node?_isSome_of_mem_starts (List.getElem_mem bound))

theorem wholeGraph_congr {ο : Type} (path : Path) (graph : Graph) (input : Json) (entry : Entry) :
    (wholeGraph visit path graph input entry : Activity (World × ο) Tally) =
      wholeGraph other path graph input entry := by
  unfold wholeGraph
  rw [attempt_congr agree]

theorem perform_congr (engine : Engine) (wellFormed : graph.WellFormed) (path : Path) (node : Node)
    (input : Json) :
    perform engine visit graph path node input = perform engine other graph path node input := by
  have around : surroundings visit graph path node = surroundings other graph path node := by
    have body : runBody visit graph path node = runBody other graph path node := by
      funext round key payload
      exact runBody_congr agree wellFormed path node round key payload
    rw [surroundings, body, surroundings]
  unfold perform callSubflow
  rw [around]
  simp only [wholeGraph_congr agree]

theorem activate_congr (engine : Engine) (wellFormed : graph.WellFormed) (path : Path)
    (node : Node) (input : Json) :
    activate engine visit graph path node input = activate engine other graph path node input := by
  unfold activate
  simp only [perform_congr agree engine wellFormed, follow_congr agree wellFormed]

end

theorem visitElse_agrees (missing : Visit) (engine : Engine) (left : Nat) :
    Agree (visitElse missing engine left) (visit engine left) := by
  induction left with
  | zero =>
      intro graph path name input _ known
      obtain ⟨node, found⟩ := Option.isSome_iff_exists.mp known
      simp only [visitElse, visit, found]
  | succ left ih =>
      intro graph path name input wellFormed known
      obtain ⟨node, found⟩ := Option.isSome_iff_exists.mp known
      simp only [visitElse, visit, found]
      exact activate_congr ih engine wellFormed path node input

/-- Whatever would be done for missing nodes, a run of a graph is the same. -/
theorem wholeGraph_visitElse {ο : Type} (missing : Visit) (engine : Engine) (left : Nat)
    (path : Path) (graph : Graph) (input : Json) (entry : Entry) :
    (wholeGraph (visitElse missing engine left) path graph input entry :
        Activity (World × ο) Tally) =
      wholeGraph (visit engine left) path graph input entry :=
  wholeGraph_congr (visitElse_agrees missing engine left) path graph input entry

end Workflow.Run
