import Workflow.Proofs.Bracketing

/-! Where the activations of a run are.

An activation is reached from a start of the outermost run, along connections and
into the definitions behind composite nodes; each of these leads one deeper.
`Engine.Reaches` lists the ways.  Whatever a run does, it does at an activation that
is not too deep, but for refusing those just beyond: `Engine.run_placed`.
-/

namespace Workflow

/-- The activations that a run may come to: how deep they are, their paths, and the
graph and the name of the node. -/
inductive Engine.Reaches (engine : Engine) (outer : Graph) (entry : Entry) :
    (depth : Nat) → Path → Graph → String → Prop where
  | start {report : Graph.Report} {index : Nat} {name : String}
      (accepted : outer.check = .ok report)
      (listed : (entry.starts outer report)[index]? = some name) :
      Reaches engine outer entry 0 [.start index] outer name
  /-- Along a connection that leaves an output. -/
  | follow {depth index : Nat} {path : Path} {graph : Graph} {name key : String} {node : Node}
      {port : Port} {connection : Connection}
      (before : Reaches engine outer entry depth path graph name)
      (found : graph.node? name = some node) (leaves : node.output? key = some port)
      (connected : connection ∈ graph.outgoing ⟨node.id, port.id⟩) :
      Reaches engine outer entry (depth + 1) (path ++ [.follow index connection]) graph
        connection.target.nodeId
  /-- Along the connection with the given number that leaves the body output of a loop. -/
  | body {depth round index : Nat} {path : Path} {graph : Graph} {name : String} {node : Node}
      {port : Port} {connection : Connection}
      (before : Reaches engine outer entry depth path graph name)
      (found : graph.node? name = some node) (branches : node.kind = .condition)
      (loop : Branching.isLoop node.templateId)
      (hangs : node.output? (Branching.bodyOutput node.templateId) = some port)
      (connected : (graph.outgoing ⟨node.id, port.id⟩)[index]? = some connection) :
      Reaches engine outer entry (depth + 1) (path ++ [.body round index connection]) graph
        connection.target.nodeId
  /-- From a composite node to a start of the run nested in it. -/
  | nested {depth index : Nat} {path : Path} {graph : Graph} {name inner : String} {node : Node}
      {definition : Subflow} {id : Uuid} {report : Graph.Report}
      (before : Reaches engine outer entry depth path graph name)
      (found : graph.node? name = some node) (composite : node.Composite)
      (known : Run.definitionOf engine graph node = .ok definition)
      (accepted : (definition.toGraph id).check = .ok report)
      (listed : (Entry.triggersOrRoots.starts (definition.toGraph id) report)[index]? =
        some inner) :
      Reaches engine outer entry (depth + 1) (path ++ [.start index]) (definition.toGraph id) inner

namespace Engine.Reaches

variable {engine : Engine} {outer graph : Graph} {entry : Entry} {depth : Nat} {path : Path}
  {name : String}

theorem length_path (reaches : engine.Reaches outer entry depth path graph name) :
    path.length = depth + 1 := by
  induction reaches with
  | start => rfl
  | follow _ _ _ _ ih => simp [ih]
  | body _ _ _ _ _ _ ih => simp [ih]
  | nested _ _ _ _ _ _ ih => simp [ih]

theorem path_ne_nil (reaches : engine.Reaches outer entry depth path graph name) : path ≠ [] :=
  List.ne_nil_of_length_eq_add_one reaches.length_path

/-- Whatever a node fires is followed. -/
theorem follow_fired (reaches : engine.Reaches outer entry depth path graph name) {node : Node}
    (found : graph.node? name = some node) {keys : List String} {index : Nat}
    {connection : Connection} (listed : (Run.fired graph node keys)[index]? = some connection) :
    engine.Reaches outer entry (depth + 1) (path ++ [.follow index connection]) graph
      connection.target.nodeId := by
  obtain ⟨known, key, _, port, leaves, source⟩ := Run.mem_fired.mp (List.mem_of_getElem? listed)
  exact .follow reaches found leaves (List.mem_filter.mpr ⟨known, decide_eq_true source⟩)

/-- What is reached is a node of a graph that passed its check. -/
theorem known (reaches : engine.Reaches outer entry depth path graph name) :
    graph.WellFormed ∧ (graph.node? name).isSome := by
  have started {graph : Graph} {entry : Entry} {report : Graph.Report} {index : Nat} {name : String}
      (accepted : graph.check = .ok report)
      (listed : (entry.starts graph report)[index]? = some name) :
      graph.WellFormed ∧ (graph.node? name).isSome := by
    obtain ⟨wellFormed, rfl⟩ := Graph.check_eq_ok_iff.mp accepted
    exact ⟨wellFormed, Graph.node?_isSome_of_mem_starts (List.mem_of_getElem? listed)⟩
  induction reaches with
  | start accepted listed => exact started accepted listed
  | follow _ _ _ connected ih =>
      exact ⟨ih.1, ih.1.reaches _ (List.mem_filter.mp connected).1⟩
  | body _ _ _ _ _ connected ih =>
      exact ⟨ih.1, ih.1.reaches _ (List.mem_filter.mp (List.mem_of_getElem? connected)).1⟩
  | nested _ _ _ _ accepted listed _ => exact started accepted listed

/-- On the way to an activation are those that its path begins with. -/
theorem of_isPrefix (reaches : engine.Reaches outer entry depth path graph name) {before : Path}
    (activation : before ≠ []) (below : before <+: path) :
    ∃ depth graph name, engine.Reaches outer entry depth before graph name := by
  induction reaches with
  | @start _ index name accepted listed =>
      have first : before = [.start index] ∨ before <+: [] :=
        List.prefix_concat_iff.mp (show before <+: [] ++ [Step.start index] from below)
      rcases first with rfl | inside
      · exact ⟨_, _, _, .start accepted listed⟩
      · exact absurd (List.prefix_nil.mp inside) activation
  | follow earlier found leaves connected ih =>
      rcases List.prefix_concat_iff.mp below with rfl | inside
      · exact ⟨_, _, _, .follow earlier found leaves connected⟩
      · exact ih inside
  | body earlier found branches loop hangs connected ih =>
      rcases List.prefix_concat_iff.mp below with rfl | inside
      · exact ⟨_, _, _, .body earlier found branches loop hangs connected⟩
      · exact ih inside
  | nested earlier found composite known accepted listed ih =>
      rcases List.prefix_concat_iff.mp below with rfl | inside
      · exact ⟨_, _, _, .nested earlier found composite known accepted listed⟩
      · exact ih inside

/-- What an activation along a connection says of the one before it. -/
theorem of_onward {step : Step} {connection : Connection}
    (onward : (∃ index, step = .follow index connection) ∨
      ∃ round index, step = .body round index connection)
    (reaches : engine.Reaches outer entry depth (path ++ [step]) graph name) :
    name = connection.target.nodeId ∧
      ∃ depth before, engine.Reaches outer entry depth path graph before := by
  generalize same : path ++ [step] = further at reaches
  cases reaches with
  | start =>
      obtain ⟨_, last⟩ := List.append_inj' (same.trans (List.nil_append _).symm) rfl
      obtain rfl := List.singleton_inj.mp last
      simp at onward
  | follow before =>
      obtain ⟨rfl, last⟩ := List.append_inj' same rfl
      obtain rfl := List.singleton_inj.mp last
      obtain ⟨_, same⟩ | ⟨_, _, same⟩ := onward
      · exact ⟨by rw [(Step.follow.inj same).2], _, _, before⟩
      · contradiction
  | body before =>
      obtain ⟨rfl, last⟩ := List.append_inj' same rfl
      obtain rfl := List.singleton_inj.mp last
      obtain ⟨_, same⟩ | ⟨_, _, same⟩ := onward
      · contradiction
      · exact ⟨by rw [(Step.body.inj same).2.2], _, _, before⟩
  | nested =>
      obtain ⟨_, last⟩ := List.append_inj' same rfl
      obtain rfl := List.singleton_inj.mp last
      simp at onward

/-- What a start says of the run that it is in. -/
theorem of_start {index : Nat}
    (reaches : engine.Reaches outer entry depth (path ++ [.start index]) graph name) :
    path = [] ∧ graph = outer ∧
        (entry.starts outer ⟨outer.triggers, outer.hasCycle⟩)[index]? = some name ∨
      ∃ depth around before node definition id,
        engine.Reaches outer entry depth path around before ∧
        around.node? before = some node ∧ Run.definitionOf engine around node = .ok definition ∧
        graph = definition.toGraph id ∧
        (Entry.triggersOrRoots.starts graph ⟨graph.triggers, graph.hasCycle⟩)[index]? =
          some name := by
  generalize same : path ++ [Step.start index] = further at reaches
  cases reaches with
  | start accepted listed =>
      obtain ⟨rfl, last⟩ := List.append_inj' (same.trans (List.nil_append _).symm) rfl
      obtain rfl := Step.start.inj (List.singleton_inj.mp last)
      obtain ⟨_, rfl⟩ := Graph.check_eq_ok_iff.mp accepted
      exact .inl ⟨rfl, rfl, listed⟩
  | follow | body => simp at same
  | nested before found _ known accepted listed =>
      obtain ⟨rfl, last⟩ := List.append_inj' same rfl
      obtain rfl := Step.start.inj (List.singleton_inj.mp last)
      obtain ⟨_, rfl⟩ := Graph.check_eq_ok_iff.mp accepted
      exact .inr ⟨_, _, _, _, _, _, before, found, known, rfl, listed⟩

/-- A path leads to one node, of graphs that differ in their identifiers at most. -/
theorem unique (first : engine.Reaches outer entry depth path graph name) {other : Nat}
    {twin : Graph} {again : String} (second : engine.Reaches outer entry other path twin again) :
    again = name ∧ twin = { graph with id := twin.id } := by
  induction first generalizing other twin again with
  | @start _ index _ accepted listed =>
      obtain ⟨_, rfl⟩ := Graph.check_eq_ok_iff.mp accepted
      have begins : engine.Reaches outer entry other ([] ++ [.start index]) twin again := second
      rcases begins.of_start with ⟨_, rfl, also⟩ | ⟨_, _, _, _, _, _, before, _⟩
      · exact ⟨Option.some.inj (also.symm.trans listed), rfl⟩
      · exact absurd rfl before.path_ne_nil
  | follow _ _ _ _ ih =>
      obtain ⟨rfl, _, _, before⟩ := second.of_onward (.inl ⟨_, rfl⟩)
      exact ⟨rfl, (ih before).2⟩
  | body _ _ _ _ _ _ ih =>
      obtain ⟨rfl, _, _, before⟩ := second.of_onward (.inr ⟨_, _, rfl⟩)
      exact ⟨rfl, (ih before).2⟩
  | nested earlier found _ known accepted listed ih =>
      rcases second.of_start with ⟨rfl, _⟩ | ⟨_, around, _, _, _, id, before, here, same, rfl, also⟩
      · exact absurd rfl earlier.path_ne_nil
      · obtain ⟨_, rfl⟩ := Graph.check_eq_ok_iff.mp accepted
        obtain ⟨rfl, alike⟩ := ih before
        rw [alike] at here same
        obtain rfl := Option.some.inj (here.symm.trans found)
        obtain rfl := Except.ok.inj (same.symm.trans known)
        exact ⟨Option.some.inj (also.symm.trans listed), rfl⟩

end Engine.Reaches

/-- A visit of the body of a loop: the loop is activated at the path, and the
connection is the one with the given number that leaves its body output. -/
def Engine.Visits (engine : Engine) (outer : Graph) (entry : Entry) (path : Path) (index : Nat)
    (connection : Connection) : Prop :=
  ∃ depth graph name node port, engine.Reaches outer entry depth path graph name ∧
    graph.node? name = some node ∧ node.kind = .condition ∧ Branching.isLoop node.templateId ∧
    node.output? (Branching.bodyOutput node.templateId) = some port ∧
    (graph.outgoing ⟨node.id, port.id⟩)[index]? = some connection

theorem Engine.Reaches.visits {engine : Engine} {outer graph : Graph} {entry : Entry}
    {depth round index : Nat} {path : Path} {name : String} {connection : Connection}
    (reaches : engine.Reaches outer entry depth (path ++ [.body round index connection]) graph
      name) :
    engine.Visits outer entry path index connection ∧ name = connection.target.nodeId := by
  generalize same : path ++ [Step.body round index connection] = further at reaches
  cases reaches with
  | start => cases path <;> simp at same
  | follow | nested => simp at same
  | body earlier found branches loop hangs connected =>
      obtain ⟨rfl, steps⟩ := List.append_inj' same rfl
      obtain ⟨rfl, rfl, rfl⟩ := Step.body.inj (List.singleton_inj.mp steps)
      exact ⟨⟨_, _, _, _, _, earlier, found, branches, loop, hangs, connected⟩, rfl⟩

/-- The node that an event tells of. -/
def Event.node? : Event → Option String
  | .nodeStarted _ node | .nodeSucceeded _ node | .nodeFailed _ node _ => some node
  | .runStarted .. | .runFinished .. => none

theorem Event.node?_of_started? {event : Event} {node : String}
    (started : event.started? = some node) : event.node? = some node := by
  cases event <;> simp_all [Event.started?, Event.node?]

/-- The node whose activation did the deed, where the deed names it. -/
def Deed.node? : Deed → Option String
  | .event traced => traced.event.node?
  | .ending _ node _ => some node
  | _ => none

/-- Where a deed may be done: by the outermost run itself, at an activation that is not
too deep, or as the refusal of one that is. -/
inductive Engine.Placed (engine : Engine) (outer : Graph) (entry : Entry) : Deed → Prop where
  | outside {deed : Deed} (here : deed.path = []) (nodeless : deed.node? = none) :
      Placed engine outer entry deed
  | inside {depth : Nat} {graph : Graph} {name : String} {deed : Deed}
      (reaches : engine.Reaches outer entry depth deed.path graph name)
      (shallow : depth < engine.limits.maxDepth)
      (own : ∀ node, deed.node? = some node → node = name) :
      Placed engine outer entry deed
  | refused {path : Path} {graph : Graph} {name : String} {run : Uuid}
      (reaches : engine.Reaches outer entry engine.limits.maxDepth path graph name) :
      Placed engine outer entry (.event ⟨path, .nodeFailed run name
        (NodeError.depthExceeded engine.limits.maxDepth).message⟩)

/-- Where an event is told that is told at a place. -/
theorem Engine.Placed.of_event {engine : Engine} {outer : Graph} {entry : Entry} {traced : Traced}
    (placed : engine.Placed outer entry (.event traced)) :
    traced.path = [] ∧ traced.event.node? = none ∨
    ∃ depth graph name, engine.Reaches outer entry depth traced.path graph name ∧
      (∀ node, traced.event.node? = some node → node = name) ∧
      (depth < engine.limits.maxDepth ∨ depth = engine.limits.maxDepth ∧
        ∃ run, traced.event = .nodeFailed run name
          (NodeError.depthExceeded engine.limits.maxDepth).message) := by
  generalize same : Deed.event traced = deed at placed
  cases placed with
  | outside here nodeless =>
      obtain rfl := same
      exact .inl ⟨here, nodeless⟩
  | inside reaches shallow own =>
      obtain rfl := same
      exact .inr ⟨_, _, _, reaches, own, .inl shallow⟩
  | refused reaches =>
      obtain rfl := Deed.event.inj same
      exact .inr ⟨_, _, _, reaches, fun node given => (Option.some.inj given).symm,
        .inr ⟨rfl, _, rfl⟩⟩

namespace Course

variable {engine : Engine} {outer : Graph} {entry : Entry} {left : Nat} {visit : Visit}

/-- Whatever is done in the visits of reached activations is done at places. -/
def VisitPlaced (engine : Engine) (outer : Graph) (entry : Entry) (left : Nat) (visit : Visit) :
    Prop :=
  ∀ depth path graph name input, engine.Reaches outer entry depth path graph name →
    left + depth = engine.limits.maxDepth →
    (visit graph path name input).Only (engine.Placed outer entry)

theorem attempt_placed {path : Path} {graph : Graph} {input : Json} {kind : Entry}
    (rejected : ∀ message, engine.Placed outer entry (.rejection path message))
    (started : ∀ report index name, graph.check = .ok report →
      (kind.starts graph report)[index]? = some name →
      (visit graph (path ++ [.start index]) name input).Only (engine.Placed outer entry)) :
    (attempt visit path graph input kind).Only (engine.Placed outer entry) := by
  unfold attempt
  cases checked : graph.check with
  | error error => exact .note (rejected _)
  | ok report =>
      exact .map _ (.allIdx fun index name listed => started report index name checked listed)

theorem wholeGraph_placed {path : Path} {graph : Graph} {input : Json} {kind : Entry}
    (own : ∀ deed : Deed, deed.path = path → deed.node? = none → engine.Placed outer entry deed)
    (attempted : (attempt visit path graph input kind).Only (engine.Placed outer entry)) :
    (wholeGraph visit path graph input kind).Only (engine.Placed outer entry) := by
  intro _ tally taken deed member
  obtain ⟨between, attempt, _, rfl⟩ := taken
  simp only [List.cons_append, List.mem_cons, List.mem_append, List.not_mem_nil, or_false] at member
  rcases member with rfl | inside | rfl | rfl
  · exact own _ rfl rfl
  · exact attempted between () attempt deed inside
  · exact own _ rfl rfl
  · exact own _ rfl rfl

section Activation

variable (visits : VisitPlaced engine outer entry left visit) {depth : Nat} {path : Path}
  {graph : Graph} {name : String} {node : Node}
  (reaches : engine.Reaches outer entry depth path graph name)
  (found : graph.node? name = some node) (reach : left + depth + 1 = engine.limits.maxDepth)

include reaches reach

/-- What an activation does itself. -/
theorem placed_of_own {deed : Deed} (here : deed.path = path)
    (own : ∀ node, deed.node? = some node → node = name) : engine.Placed outer entry deed := by
  have there : engine.Reaches outer entry depth deed.path graph name := by rwa [here]
  exact .inside there (by omega) own

include visits found

theorem follow_placed (outcome : Outcome) :
    (follow visit graph path node outcome).Only (engine.Placed outer entry) := by
  have named : node.id = name := (Graph.mem_of_node? found).2
  unfold follow
  dsimp only
  split
  · refine .note (placed_of_own reaches reach rfl fun other same => ?_)
    exact (Option.some.inj same).symm.trans named
  · refine .map _ (.allIdx fun index connection listed => ?_)
    exact visits _ _ _ _ _ (reaches.follow_fired found listed) (by omega)

theorem rounds_placed (branches : node.kind = .condition)
    (loop : Branching.isLoop node.templateId) {round : Nat} {deeds : List Deed}
    (rounds : Rounds (onOutput (Branching.bodyOutput node.templateId)
      (runBody visit graph path node)) round deeds) :
    ∀ deed ∈ deeds, engine.Placed outer entry deed := by
  induction rounds with
  | done => exact nofun
  | @again round key payload deeds rest outputs taken _ ih =>
      obtain ⟨rfl, taken⟩ := taken
      have body : (runBody visit graph path node round (Branching.bodyOutput node.templateId)
          payload).Only (engine.Placed outer entry) := by
        unfold runBody
        cases hangs : node.output? (Branching.bodyOutput node.templateId) with
        | none => exact .pure []
        | some port =>
            refine .mapM fun numbered listed => ?_
            obtain ⟨connection, index⟩ := numbered
            have connected := List.mk_mem_zipIdx_iff_getElem?.mp listed
            exact visits _ _ _ _ _ (.body reaches found branches loop hangs connected) (by omega)
      intro deed member
      rcases List.mem_append.mp member with inside | inside
      · exact body deeds outputs taken deed inside
      · exact ih deed inside

theorem callSubflow_placed (composite : node.Composite) (input : Json) :
    (callSubflow engine visit graph path node input).Only (engine.Placed outer entry) := by
  have own (deed : Deed) (here : deed.path = path) (nodeless : deed.node? = none) :
      engine.Placed outer entry deed := by
    refine placed_of_own reaches reach here fun _ same => ?_
    rw [nodeless] at same
    contradiction
  unfold callSubflow
  cases known : Run.definitionOf engine graph node with
  | error error => exact .pure _
  | ok definition =>
      refine .bind (.of_idle fun _ _ taken => taken) fun id => .bind ?_ fun _ => .pure _
      refine wholeGraph_placed own (attempt_placed (fun _ => own _ rfl rfl) ?_)
      intro report index inner accepted listed
      exact visits _ _ _ _ _ (.nested reaches found composite known accepted listed) (by omega)

theorem perform_placed (input : Json) :
    (perform engine visit graph path node input).Only (engine.Placed outer entry) := by
  intro deeds result taken deed member
  rcases perform_cases taken with
    ⟨calls, here, rfl⟩ | ⟨branches, _, evaluated⟩ | ⟨composite, called⟩
  · obtain ⟨call, made, rfl⟩ := List.mem_map.mp member
    exact placed_of_own reaches reach (here call made) nofun
  · rcases Branching.evaluate_loops (fun _ => .pure ()) evaluated with rfl | ⟨loop, rounds⟩
    · contradiction
    · exact rounds_placed visits reaches found reach branches loop rounds deed member
  · exact callSubflow_placed visits reaches found reach composite input deeds result called deed
      member

theorem activate_placed (input : Json) :
    (activate engine visit graph path node input).Only (engine.Placed outer entry) := by
  have named : node.id = name := (Graph.mem_of_node? found).2
  have told (event : Uuid → Event) (own : ∀ run, (event run).node? = some node.id) :
      (tell path event).Only (engine.Placed outer entry) := by
    intro _ _ given deed member
    obtain ⟨run, rfl⟩ := given
    obtain rfl := List.mem_singleton.mp member
    refine placed_of_own reaches reach rfl fun other same => ?_
    exact (Option.some.inj ((own run).symm.trans same)).symm.trans named
  refine .bind (told _ fun _ => rfl) fun _ => ?_
  refine .bind (perform_placed visits reaches found reach input) fun result => ?_
  cases result with
  | error error => exact .bind (told _ fun _ => rfl) fun _ => .pure _
  | ok outcome =>
      refine .bind (told _ fun _ => rfl) fun _ => ?_
      exact .bind (follow_placed visits reaches found reach outcome) fun _ => .pure _

end Activation

theorem visit_placed (engine : Engine) (outer : Graph) (entry : Entry) (left : Nat) :
    VisitPlaced engine outer entry left (Course.visit engine left) := by
  induction left with
  | zero =>
      intro depth path graph name input reaches reach
      obtain ⟨node, found⟩ := Option.isSome_iff_exists.mp reaches.known.2
      obtain rfl : depth = engine.limits.maxDepth := by omega
      unfold Course.visit
      rw [found]
      refine .bind ?_ fun _ => .pure _
      intro _ _ given deed member
      obtain ⟨run, rfl⟩ := given
      obtain rfl := List.mem_singleton.mp member
      exact .refused reaches
  | succ left ih =>
      intro depth path graph name input reaches reach
      obtain ⟨node, found⟩ := Option.isSome_iff_exists.mp reaches.known.2
      unfold Course.visit
      rw [found]
      exact activate_placed ih reaches found (by omega) input

end Course

/-- Everything that a run does, it does at a place. -/
theorem Engine.run_placed {engine : Engine} {graph : Graph} {input : Json} {entry : Entry}
    {deeds : List Deed} {tally : Tally}
    (taken : Course.wholeGraph (Course.visit engine engine.limits.maxDepth) [] graph input entry
      deeds tally) :
    ∀ deed ∈ deeds, engine.Placed graph entry deed := by
  have placed : (Course.wholeGraph (Course.visit engine engine.limits.maxDepth) [] graph input
      entry).Only (engine.Placed graph entry) := by
    refine Course.wholeGraph_placed (fun _ => .outside) (Course.attempt_placed ?_ ?_)
    · exact fun _ => .outside rfl rfl
    · intro report index name accepted listed
      exact Course.visit_placed engine graph entry engine.limits.maxDepth _ _ _ _ _
        (.start accepted listed) rfl
  exact placed deeds tally taken

/-- An event of a node is told where an activation of the node is reached. -/
theorem Engine.reaches_of_event {engine : Engine} {graph : Graph} {input : Json} {entry : Entry}
    {deeds : List Deed} {tally : Tally}
    (taken : Course.wholeGraph (Course.visit engine engine.limits.maxDepth) [] graph input entry
      deeds tally) {traced : Traced} (told : .event traced ∈ deeds) {node : String}
    (named : traced.event.node? = some node) :
    ∃ depth inner, engine.Reaches graph entry depth traced.path inner node := by
  rcases (run_placed taken _ told).of_event with ⟨_, nodeless⟩ | ⟨depth, inner, _, reaches, own, _⟩
  · rw [nodeless] at named
    contradiction
  · obtain rfl := own node named
    exact ⟨depth, inner, reaches⟩

end Workflow
