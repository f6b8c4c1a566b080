import Workflow.Proofs.Deeds
import Workflow.Proofs.Likeness
import Workflow.Proofs.Turns
import Workflow.Run

/-! The courses of runs.

`Course.visit` and the programs it is made of say what activations may do, with
nothing of how they take turns: the same deeds as in `Run`, with the order
between activations side by side left open, and with any identifiers and times.
`Engine.run_takes` says that every run takes one of these courses and that what
the run leaves behind is what the deeds say.
-/

namespace Workflow

def Execution.failures (execution : Execution) : List (Option String × String) :=
  execution.errors.map fun error => (error.nodeId, error.message)

/-- What a run's own deeds make of its record and of the payloads it ended on.  The status
of a node is the outcome told last, unless the node is at work again. -/
structure Tally.Grows (before : Tally) (own : List Deed) (after : Tally) : Prop where
  id : after.execution.id = before.execution.id
  graphId : after.execution.graphId = before.execution.graphId
  runs : ∀ traced, .event traced ∈ own → traced.event.run = before.execution.id
  executed : after.execution.executedNodes =
    before.execution.executedNodes ++ own.filterMap Deed.started?
  failures : after.execution.failures = before.execution.failures ++ own.filterMap Deed.failure?
  terminal : after.terminal = before.terminal ++ own.filterMap Deed.ending?
  states : ∀ node, after.execution.Unsettled node ∨
    Fields.get? after.execution.nodeStates node =
      (own.filterMap (Deed.outcome? node)).getLast?.or
        (Fields.get? before.execution.nodeStates node)

namespace Tally.Grows

theorem nothing (tally : Tally) : tally.Grows [] tally :=
  ⟨rfl, rfl, by simp, by simp, by simp, by simp, fun _ => .inr rfl⟩

theorem andThen {before middle after : Tally} {first second : List Deed}
    (earlier : before.Grows first middle) (later : middle.Grows second after) :
    before.Grows (first ++ second) after where
  id := later.id.trans earlier.id
  graphId := later.graphId.trans earlier.graphId
  runs traced inside := by
    rcases List.mem_append.mp inside with inside | inside
    · exact earlier.runs traced inside
    · exact (later.runs traced inside).trans earlier.id
  executed := by rw [later.executed, earlier.executed, List.filterMap_append, List.append_assoc]
  failures := by rw [later.failures, earlier.failures, List.filterMap_append, List.append_assoc]
  terminal := by rw [later.terminal, earlier.terminal, List.filterMap_append, List.append_assoc]
  states node := by
    rw [List.filterMap_append, List.getLast?_append, Option.or_assoc]
    rcases later.states node with unsettled | settled
    · exact .inl unsettled
    · rcases earlier.states node with ⟨status, found, working⟩ | before
      · cases told : (second.filterMap (Deed.outcome? node)).getLast? with
        | none =>
            rw [told, Option.none_or] at settled
            exact .inl ⟨status, settled.trans found, working⟩
        | some outcome =>
            rw [told] at settled
            exact .inr settled
      · exact .inr (settled.trans (congrArg _ before))

end Tally.Grows

/-- The tally of a finished run says what the run's own deeds were. -/
structure Tally.Tells (own : List Deed) (tally : Tally) : Prop where
  runs : ∀ traced, .event traced ∈ own → traced.event.run = tally.execution.id
  executed : tally.execution.executedNodes = own.filterMap Deed.started?
  failures : tally.execution.failures = own.filterMap Deed.failure?
  terminal : tally.terminal = own.filterMap Deed.ending?
  states : ∀ node, tally.execution.Unsettled node ∨
    Fields.get? tally.execution.nodeStates node =
      (own.filterMap (Deed.outcome? node)).getLast?
  status : tally.execution.status =
    if tally.execution.errors.isEmpty then .completed else .failed

/-- What a new record has grown into tells of all its deeds, once it is closed. -/
theorem Tally.Grows.tells {id graphId : Uuid} {now later : Instant} {own : List Deed}
    {tally : Tally} (grows : (⟨Execution.start id graphId now, []⟩ : Tally).Grows own tally) :
    Tally.Tells own { tally with execution := tally.execution.finish later } where
  runs traced inside := (grows.runs traced inside).trans grows.id.symm
  executed := grows.executed
  failures := grows.failures
  terminal := grows.terminal
  states node := (grows.states node).imp_right fun same => same.trans Option.or_none
  status := rfl

/-- What deeds of a run, and of the runs nested in it, leave in the world. -/
structure World.Grows (run : Path) (before : World) (deeds : List Deed) (after : World) :
    Prop where
  trace : after.trace = before.trace ++ deeds.filterMap Deed.event?
  calls : after.calls = before.calls ++ deeds.filterMap Deed.call?
  finished : after.finished = before.finished ++ deeds.filterMap Deed.finished?
  inside : ∀ deed ∈ deeds, run <+: deed.run

namespace World.Grows

variable {run : Path} {before middle after : World} {first second : List Deed}

theorem nothing (run : Path) (world : World) : World.Grows run world [] world :=
  ⟨by simp, by simp, by simp, by simp⟩

theorem andThen (earlier : World.Grows run before first middle)
    (later : World.Grows run middle second after) :
    World.Grows run before (first ++ second) after where
  trace := by rw [later.trace, earlier.trace, List.filterMap_append, List.append_assoc]
  calls := by rw [later.calls, earlier.calls, List.filterMap_append, List.append_assoc]
  finished := by rw [later.finished, earlier.finished, List.filterMap_append, List.append_assoc]
  inside deed member := by
    rcases List.mem_append.mp member with member | member
    · exact earlier.inside deed member
    · exact later.inside deed member

end World.Grows

namespace Run

def tallyConduct (run : Path) : Conduct Tally Deed where
  may before deeds after := before.Grows (Deed.of run deeds) after
  nothing := .nothing
  andThen earlier later := by simpa using earlier.andThen later

/-- How the activations of a run may change its state. -/
def conduct (run : Path) : Conduct RunState Deed where
  may before deeds after :=
    World.Grows run before.1 deeds after.1 ∧ (tallyConduct run).may before.2 deeds after.2
  nothing state := ⟨.nothing run state.1, (tallyConduct run).nothing state.2⟩
  andThen earlier later :=
    ⟨earlier.1.andThen later.1, (tallyConduct run).andThen earlier.2 later.2⟩

/-- How a run may change the state of what it is part of. -/
def outerConduct (ο : Type) (run : Path) : Conduct (World × ο) Deed where
  may before deeds after := World.Grows run before.1 deeds after.1 ∧ after.2 = before.2
  nothing state := ⟨.nothing run state.1, rfl⟩
  andThen earlier later := ⟨earlier.1.andThen later.1, later.2.trans earlier.2⟩

/-- To the run around it, a nested run does nothing of its own. -/
theorem conduct_of_outerConduct {path : Path} (activation : path ≠ []) {before after : RunState}
    {deeds : List Deed} (done : (outerConduct Tally path).may before deeds after) :
    (conduct (Path.run path)).may before deeds after := by
  obtain ⟨grows, same⟩ := done
  have foreign : Deed.of (Path.run path) deeds = [] :=
    Deed.of_eq_nil fun deed member =>
      Path.run_ne_of_isPrefix activation (grows.inside deed member)
  refine ⟨{ grows with inside := fun deed member => ?_ }, ?_⟩
  · exact (Path.run_isPrefix path).trans (grows.inside deed member)
  · simpa only [tallyConduct, foreign, same] using Tally.Grows.nothing before.2

/-- The connections that leave the given outputs, output by output. -/
def fired (graph : Graph) (node : Node) (keys : List String) : List Connection :=
  keys.flatMap fun key =>
    match node.output? key with
    | some port => graph.outgoing ⟨node.id, port.id⟩
    | none => []

theorem fired_single {graph : Graph} {node : Node} {key : String} :
    fired graph node [key] =
      match node.output? key with
      | some port => graph.outgoing ⟨node.id, port.id⟩
      | none => [] := by
  simp [fired]

theorem mem_fired {graph : Graph} {node : Node} {keys : List String} {connection : Connection} :
    connection ∈ fired graph node keys ↔
      connection ∈ graph.connections ∧
        ∃ key ∈ keys, ∃ port, node.output? key = some port ∧
          connection.source = ⟨node.id, port.id⟩ := by
  rw [fired, List.mem_flatMap]
  constructor
  · rintro ⟨key, listed, leaves⟩
    split at leaves
    next port found =>
      obtain ⟨known, source⟩ := List.mem_filter.mp leaves
      exact ⟨known, key, listed, port, found, of_decide_eq_true source⟩
    next => contradiction
  · rintro ⟨known, key, listed, port, found, source⟩
    refine ⟨key, listed, ?_⟩
    rw [found]
    exact List.mem_filter.mpr ⟨known, decide_eq_true source⟩

theorem fired_subset (graph : Graph) (node : Node) (keys : List String) :
    fired graph node keys ⊆ graph.connections :=
  fun _ member => (mem_fired.mp member).1

end Run

/-- Whether a node, if it is activated, stands for a definition. -/
def Node.Composite (node : Node) : Prop :=
  (node.kind = .action ∨ node.kind = .data) ∧ node.templateId = subflowTemplate

namespace Course

/-- The courses of an activation and of everything downstream of it. -/
abbrev Visit := Graph → Path → String → Json → Courses Deed (Option Json)

/-- An event that tells of an activation, or of a run, under some identifier. -/
def tell (path : Path) (event : (run : Uuid) → Event) : Courses Deed Unit := fun deeds _ =>
  ∃ run, deeds = [.event ⟨path, event run⟩]

def fail (path : Path) (node : String) (error : NodeError) : Courses Deed Unit :=
  tell path fun run => .nodeFailed run node error.message

def follow (visit : Visit) (graph : Graph) (path : Path) (node : Node) (outcome : Outcome) :
    Courses Deed Unit :=
  let connections := Run.fired graph node outcome.ports
  if connections.isEmpty then Courses.note (.ending path node.id outcome.payload)
  else
    discard <| Courses.all <| connections.mapIdx fun index connection =>
      visit graph (path ++ [.follow index connection]) connection.target.nodeId outcome.payload

def runBody (visit : Visit) (graph : Graph) (path : Path) (node : Node) (round : Nat)
    (key : String) (payload : Json) : Courses Deed (List (Option Json)) :=
  match node.output? key with
  | none => return []
  | some port =>
      (graph.outgoing ⟨node.id, port.id⟩).zipIdx.mapM fun (connection, index) =>
        visit graph (path ++ [.body round index connection]) connection.target.nodeId payload

def surroundings (visit : Visit) (graph : Graph) (path : Path) (node : Node) :
    Surroundings (Courses Deed) where
  body := runBody visit graph path node
  warn _ := return ()

def callDelegate (engine : Engine) (path : Path) (node : Node) (input : Json) :
    Courses Deed (Except NodeError Json) :=
  match Fields.get? engine.registry node.templateId with
  | none => return .error (.noImplementation node.id node.templateId)
  | some delegate => do
      Courses.note (.call ⟨path, node.templateId, input⟩)
      return Run.callResult engine.limits.nodeTimeout node (delegate node input)

def attempt (visit : Visit) (path : Path) (graph : Graph) (input : Json) (entry : Entry) :
    Courses Deed Unit :=
  match graph.check with
  | .error error => Courses.note (.rejection path error.message)
  | .ok report =>
      discard <| Courses.all <| (entry.starts graph report).mapIdx fun index node =>
        visit graph (path ++ [.start index]) node input

def wholeGraph (visit : Visit) (path : Path) (graph : Graph) (input : Json) (entry : Entry) :
    Courses Deed Tally := fun deeds tally =>
  ∃ attempted, attempt visit path graph input entry attempted () ∧
    tally.Tells (Deed.of path attempted) ∧
    deeds = .event ⟨path, .runStarted tally.execution.id graph.id⟩ :: attempted ++
      [ .event ⟨path, .runFinished tally.execution.id tally.execution.status⟩,
        .record ⟨path, tally.execution⟩]

/-- The body of a definition may have any identifier. -/
def callSubflow (engine : Engine) (visit : Visit) (graph : Graph) (path : Path) (node : Node)
    (input : Json) : Courses Deed (Except NodeError Outcome) :=
  match Run.definitionOf engine graph node with
  | .error error => return .error error
  | .ok definition => do
      let id ← (Courses.anything : Courses Deed Uuid)
      let tally ← wholeGraph visit path (definition.toGraph id)
        (definition.inputMapping.apply input) .triggersOrRoots
      return Run.nestedOutcome node definition input tally

def perform (engine : Engine) (visit : Visit) (graph : Graph) (path : Path) (node : Node)
    (input : Json) : Courses Deed (Except NodeError Outcome) :=
  match node.kind with
  | .trigger => return .ok (.all node input)
  | .condition => do
      let result ← Branching.evaluate (surroundings visit graph path node)
        engine.limits.maxWhileIterations node input
      return result.mapError (.branch node.id)
  | .action | .data =>
      if node.templateId = subflowTemplate then callSubflow engine visit graph path node input
      else do
        let result ← callDelegate engine path node input
        return result.map (.all node)

/-- There is no definition behind the node, or the node gives what is made of its run. -/
theorem callSubflow_cases {engine : Engine} {visit : Visit} {graph : Graph} {path : Path}
    {node : Node} {input : Json} {deeds : List Deed} {result : Except NodeError Outcome}
    (taken : callSubflow engine visit graph path node input deeds result) :
    (∃ error, Run.definitionOf engine graph node = .error error ∧ deeds = []) ∨
    ∃ definition id tally, Run.definitionOf engine graph node = .ok definition ∧
      wholeGraph visit path (definition.toGraph id) (definition.inputMapping.apply input)
        .triggersOrRoots deeds tally ∧
      result = Run.nestedOutcome node definition input tally := by
  unfold callSubflow at taken
  cases known : Run.definitionOf engine graph node with
  | error error =>
      rw [known] at taken
      exact .inl ⟨error, rfl, taken.1⟩
  | ok definition =>
      rw [known] at taken
      obtain ⟨_, _, id, rfl, rfl, nested, _, tally, rfl, whole, rfl, rfl⟩ := taken
      exact .inr ⟨definition, id, tally, rfl, by simpa using whole, rfl⟩

/-- What the work of a node can be. -/
theorem perform_cases {engine : Engine} {visit : Visit} {graph : Graph} {path : Path} {node : Node}
    {input : Json} {deeds : List Deed} {result : Except NodeError Outcome}
    (taken : perform engine visit graph path node input deeds result) :
    (∃ calls : List Call, (∀ call ∈ calls, call.path = path) ∧ deeds = calls.map .call) ∨
    (node.kind = .condition ∧ ∃ evaluated, Branching.evaluate (surroundings visit graph path node)
      engine.limits.maxWhileIterations node input deeds evaluated) ∨
    node.Composite ∧ callSubflow engine visit graph path node input deeds result := by
  have worked (kind : node.kind = .action ∨ node.kind = .data)
      (taken : (if node.templateId = subflowTemplate then
          callSubflow engine visit graph path node input
        else do
          let result ← callDelegate engine path node input
          return result.map (Outcome.all node)) deeds result) :
      (∃ calls : List Call, (∀ call ∈ calls, call.path = path) ∧ deeds = calls.map .call) ∨
        node.Composite ∧ callSubflow engine visit graph path node input deeds result := by
    split at taken
    · rename_i composite
      exact .inr ⟨⟨kind, composite⟩, taken⟩
    · obtain ⟨called, _, _, rfl, goes, rfl, _⟩ := taken
      unfold callDelegate at goes
      cases found : Fields.get? engine.registry node.templateId with
      | none =>
          rw [found] at goes
          exact .inl ⟨[], nofun, by simp [goes.1]⟩
      | some delegate =>
          rw [found] at goes
          obtain ⟨_, _, _, rfl, rfl, rfl, _⟩ := goes
          exact .inl ⟨[_], fun call member => List.mem_singleton.mp member ▸ rfl, rfl⟩
  unfold perform at taken
  cases kind : node.kind with
  | trigger =>
      rw [kind] at taken
      exact .inl ⟨[], nofun, taken.1⟩
  | condition =>
      rw [kind] at taken
      obtain ⟨_, _, evaluated, rfl, taken, rfl, _⟩ := taken
      exact .inr (.inl ⟨rfl, evaluated, by simpa using taken⟩)
  | action =>
      rw [kind] at taken
      exact (worked (.inl kind) taken).imp_right .inr
  | data =>
      rw [kind] at taken
      exact (worked (.inr kind) taken).imp_right .inr

def activate (engine : Engine) (visit : Visit) (graph : Graph) (path : Path) (node : Node)
    (input : Json) : Courses Deed (Option Json) := do
  tell path fun run => .nodeStarted run node.id
  match ← perform engine visit graph path node input with
  | .error error =>
      fail path node.id error
      return none
  | .ok outcome =>
      tell path fun run => .nodeSucceeded run node.id
      follow visit graph path node outcome
      return some outcome.payload

def visit (engine : Engine) : (left : Nat) → Visit
  | 0, graph, path, node, _ => do
      match graph.node? node with
      | none => fail path node (.nodeNotFound node)
      | some _ => fail path node (.depthExceeded engine.limits.maxDepth)
      return none
  | left + 1, graph, path, node, input => do
      match graph.node? node with
      | none =>
          fail path node (.nodeNotFound node)
          return none
      | some node => activate engine (visit engine left) graph path node input

/-- With no depth left, an activation is refused. -/
theorem visit_zero {engine : Engine} {graph : Graph} {path : Path} {name : String}
    {input : Json} {deeds : List Deed} {result : Option Json}
    (taken : visit engine 0 graph path name input deeds result) :
    ∃ run message, deeds = [.event ⟨path, .nodeFailed run name message⟩] := by
  unfold visit at taken
  cases found : graph.node? name with
  | none =>
      rw [found] at taken
      obtain ⟨_, _, _, rfl, ⟨run, rfl⟩, rfl, _⟩ := taken
      exact ⟨run, _, rfl⟩
  | some node =>
      rw [found] at taken
      obtain ⟨_, _, _, rfl, ⟨run, rfl⟩, rfl, _⟩ := taken
      exact ⟨run, _, rfl⟩

end Course

end Workflow
