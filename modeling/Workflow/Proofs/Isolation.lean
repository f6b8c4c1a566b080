import Workflow.Proofs.Agreement
import Workflow.Proofs.Bracketing
import Workflow.Proofs.Mixing

/-! Nested runs are isolated.

A node that stands for a definition runs it to itself: whatever goes on around it, it
gives what the definition gives in a run by itself, and the run around it gains
nothing but log entries of the node.  `Engine.invocations_isolated` says so of every
such node, and of every nested run that a run leaves a record of.
-/

namespace Workflow

/-- What a definition gives to the node that stands for it, at the depth of the nested
run.  Where no further run is nested in this one, it agrees with the same run by
itself; and an output for failures takes them. -/
structure Engine.Invocation (engine : Engine) (depth : Nat) (node : Node) (definition : Subflow)
    (input : Json) (tally : Tally) (result : Except NodeError Outcome) : Prop where
  gives : result = Run.nestedOutcome node definition input tally
  alone : (∀ inner ∈ definition.nodes, inner.templateId ≠ subflowTemplate) → ∀ id world,
    tally.Agrees (engine.runScoped depth (definition.toGraph id)
      (definition.inputMapping.apply input) .triggersOrRoots world).2
  routed : tally.execution.status = .failed → (node.output? errorPort).isSome →
    ∃ payload, result = .ok (.single errorPort payload)

namespace Run

/-- What an invocation may change: runs at the path, and those nested in them, leave
their deeds in the world, and the record of the run around gains log entries of one
node, but is otherwise as it was. -/
def aside (path : Path) (node : String) : Conduct RunState Deed where
  may before deeds after := World.Grows path before.1 deeds after.1 ∧
    ∃ entries : List LogEntry, (∀ entry ∈ entries, entry.nodeId = some node) ∧
      after.2 = { before.2 with execution :=
        { before.2.execution with logs := before.2.execution.logs ++ entries } }
  nothing state := ⟨.nothing path state.1, [], nofun, by simp⟩
  andThen := by
    intro before middle after first second earlier later
    obtain ⟨grows, entries, own, changed⟩ := earlier
    obtain ⟨further, others, ownToo, changedToo⟩ := later
    refine ⟨grows.andThen further, entries ++ others, ?_, ?_⟩
    · exact fun entry member => (List.mem_append.mp member).elim (own entry) (ownToo entry)
    · rw [changedToo, changed]
      simp

variable {path : Path}

theorem aside_of_outerConduct {node : String} {before after : RunState} {deeds : List Deed}
    (done : (outerConduct Tally path).may before deeds after) :
    (aside path node).may before deeds after :=
  ⟨done.1, [], nofun, by simp [done.2]⟩

theorem log_aside (node : String) (level : LogLevel) (message : String) (data : Option Json) :
    (Running.log (some node) level message data).Takes (aside path node) (pure ()) := by
  refine .atOnce (fun _ => rfl) fun state => ⟨[], ⟨.unseen rfl rfl rfl, ?_⟩, rfl, rfl⟩
  exact ⟨[_], fun entry member => List.mem_singleton.mp member ▸ rfl, rfl⟩

theorem callSubflow_aside {engine : Engine} {visit : Visit} {courses : Course.Visit}
    (visits : VisitTakes visit courses) (graph : Graph) (node : Node) (input : Json) :
    (callSubflow engine visit graph path node input).Takes (aside path node.id)
      (Course.callSubflow engine courses graph path node input) := by
  unfold callSubflow Course.callSubflow
  cases definitionOf engine graph node with
  | error error => exact .pure _
  | ok definition =>
      refine Activity.Takes.bind (.atOnce (fun _ => rfl) fun state =>
        ⟨[], aside_of_outerConduct ⟨.unseen rfl rfl rfl, rfl⟩, rfl⟩) fun graphId => ?_
      have nested : (wholeGraph visit path (definition.toGraph graphId)
          (definition.inputMapping.apply input) .triggersOrRoots).Takes (outerConduct Tally path)
            _ := wholeGraph_takes visits path _ _ _
      refine (nested.weaken aside_of_outerConduct id).bind fun tally => ?_
      cases nestedOutcome node definition input tally with
      | error error => exact .pure _
      | ok outcome => exact (log_aside _ _ _ _).bindPure (.pure _)

end Run

theorem Run.definitionOf_known {engine : Engine} {graph : Graph} {node : Node}
    {definition : Subflow} (known : definitionOf engine graph node = .ok definition) :
    ∃ name, Fields.get? engine.library name = some definition := by
  unfold definitionOf at known
  dsimp only at known
  split at known
  · contradiction
  · split at known
    · contradiction
    · rename_i found
      split at known
      · contradiction
      · exact ⟨_, Except.ok.inj known ▸ found⟩

/-- Whether the deeds and the tally are those of the run that a definition has for a node
with the given input.  Nothing is among the deeds but what the run does. -/
def Engine.Nests (engine : Engine) (depth : Nat) (definition : Subflow) (path : Path)
    (input : Json) (deeds : List Deed) (tally : Tally) : Prop :=
  ∃ id, Course.wholeGraph (Course.visit engine (engine.limits.maxDepth - depth)) path
    (definition.toGraph id) (definition.inputMapping.apply input) .triggersOrRoots deeds tally

namespace Engine.Nests

variable {engine : Engine} {depth : Nat} {definition : Subflow} {path : Path} {input : Json}
  {deeds : List Deed} {tally : Tally}
  (nests : engine.Nests depth definition path input deeds tally)

include nests

/-- Its record is kept when all else is done. -/
theorem kept : ∃ nested, deeds = nested ++ [.record ⟨path, tally.execution⟩] := by
  obtain ⟨id, attempted, _, _, rfl⟩ := nests
  refine ⟨.event ⟨path, .runStarted tally.execution.id id⟩ :: attempted ++
    [.event ⟨path, .runFinished tally.execution.id tally.execution.status⟩], ?_⟩
  simp [Subflow.toGraph]

theorem invocation (node : Node) :
    engine.Invocation depth node definition input tally
      (Run.nestedOutcome node definition input tally) where
  gives := rfl
  alone plain copy world := by
    obtain ⟨id, taken⟩ := nests
    obtain ⟨others, again, _⟩ := engine.runScoped_takes (definition.toGraph copy)
      (definition.inputMapping.apply input) .triggersOrRoots world depth
    exact Course.wholeGraph_agrees engine plain taken again
  routed failed port := by
    simp only [Run.nestedOutcome, failed, port, if_true]
    exact ⟨_, rfl⟩

end Engine.Nests

namespace Run

variable {engine : Engine} {depth : Nat} {graph : Graph} {node : Node} {definition : Subflow}

theorem callSubflow_nests (known : definitionOf engine graph node = .ok definition) (path : Path)
    (input : Json) :
    (callSubflow engine (visit engine (engine.limits.maxDepth - depth)) graph path node
      input).Takes (aside path node.id) fun deeds result =>
        ∃ tally, engine.Nests depth definition path input deeds tally ∧
          result = nestedOutcome node definition input tally := by
  have visits := visit_takes engine (engine.limits.maxDepth - depth)
  refine (callSubflow_aside visits graph node input).mono fun taken => ?_
  rcases Course.callSubflow_cases taken with ⟨_, unknown, _⟩ | ⟨_, id, tally, same, nested, gives⟩
  · rw [known] at unknown
    contradiction
  · obtain rfl := Except.ok.inj (known.symm.trans same)
    exact ⟨tally, ⟨id, nested⟩, gives⟩

theorem perform_of_composite (composite : node.Composite) (engine : Engine) (visit : Visit)
    (graph : Graph) (path : Path) (input : Json) :
    perform engine visit graph path node input =
      callSubflow engine visit graph path node input := by
  unfold perform
  obtain ⟨kind | kind, template⟩ := composite <;> simp [kind, template]

theorem perform_nests (composite : node.Composite)
    (known : definitionOf engine graph node = .ok definition) (path : Path) (input : Json) :
    (perform engine (visit engine (engine.limits.maxDepth - depth)) graph path node input).Takes
      (aside path node.id) fun deeds result =>
        ∃ tally, engine.Nests depth definition path input deeds tally ∧
          result = nestedOutcome node definition input tally := by
  rw [perform_of_composite composite]
  exact callSubflow_nests known path input

end Run

/-- How an activation ends that came to a result. -/
def Event.ending (run : Uuid) (node : String) : Except NodeError Outcome → Event
  | .ok _ => .nodeSucceeded run node
  | .error error => .nodeFailed run node error.message

/-- The graph that a run is of: the one outside, or the body of a definition. -/
def Engine.Runs (engine : Engine) (outer : Graph) (run : Path) (graph : Graph) : Prop :=
  run = [] ∧ graph = outer ∨
    run ≠ [] ∧ ∃ name definition id, Fields.get? engine.library name = some definition ∧
      graph = definition.toGraph id

/-- A record is that of a definition that a node stands for and that gave a result. -/
def Engine.Invokes (engine : Engine) (outer : Graph) (node : Node)
    (result : Except NodeError Outcome) (finished : Finished) : Prop :=
  ∃ graph definition input tally, engine.Runs outer (Path.run finished.path) graph ∧
    graph.node? node.id = some node ∧ node.Composite ∧
    Run.definitionOf engine graph node = .ok definition ∧
    tally.execution = finished.execution ∧
    engine.Invocation finished.path.length node definition input tally result

/-- The activation at the path of a record, from its start to its end, is told of. -/
def Deed.Invoked (engine : Engine) (outer : Graph) (deeds : List Deed) (finished : Finished) :
    Prop :=
  ∃ node result first last, engine.Invokes outer node result finished ∧
    .event ⟨finished.path, .nodeStarted first node.id⟩ ∈ deeds ∧
    .event ⟨finished.path, .ending last node.id result⟩ ∈ deeds

theorem Deed.Invoked.mono {engine : Engine} {outer : Graph} {deeds more : List Deed}
    {finished : Finished} (invoked : Deed.Invoked engine outer deeds finished)
    (subset : deeds ⊆ more) : Deed.Invoked engine outer more finished := by
  obtain ⟨node, result, first, last, invokes, starts, ends⟩ := invoked
  exact ⟨node, result, first, last, invokes, subset starts, subset ends⟩

/-- What is told of remains so, whatever it is mixed with. -/
theorem Deed.invoked_mixable (engine : Engine) (outer : Graph) : Mixable fun deeds =>
    ∀ finished, .record finished ∈ deeds → Deed.Invoked engine outer deeds finished where
  nil _ member := absurd member List.not_mem_nil
  mix first second mixed finished member := by
    rcases mixed.mem_iff.mp member with here | there
    · exact (first finished here).mono fun deed inside => mixed.mem_iff.mpr (.inl inside)
    · exact (second finished there).mono fun deed inside => mixed.mem_iff.mpr (.inr inside)

namespace Course

/-- Whether all records in the courses of something are those of invocations told of. -/
def Invoking {α : Type} (engine : Engine) (outer : Graph) (courses : Courses Deed α) : Prop :=
  ∀ deeds result, courses deeds result → ∀ finished, .record finished ∈ deeds →
    Deed.Invoked engine outer deeds finished

namespace Invoking

variable {engine : Engine} {outer : Graph} {α β : Type}

theorem of_idle {courses : Courses Deed α}
    (idle : ∀ deeds result, courses deeds result → ∀ finished, .record finished ∉ deeds) :
    Invoking engine outer courses :=
  fun deeds result taken finished member => absurd member (idle deeds result taken finished)

theorem bind {first : Courses Deed α} {next : α → Courses Deed β}
    (invoking : Invoking engine outer first)
    (goesOn : ∀ value, Invoking engine outer (next value)) :
    Invoking engine outer (first >>= next) :=
  Courses.Leaves.bind (Deed.invoked_mixable engine outer) invoking goesOn

theorem map {courses : Courses Deed α} (f : α → β) (invoking : Invoking engine outer courses) :
    Invoking engine outer (f <$> courses) :=
  Courses.Leaves.map (Deed.invoked_mixable engine outer) f invoking

theorem pure (value : α) : Invoking engine outer (Pure.pure value : Courses Deed α) :=
  Courses.Leaves.pure (Deed.invoked_mixable engine outer) value

theorem tell {path : Path} {event : Uuid → Event} : Invoking engine outer (tell path event) :=
  of_idle fun _ _ taken _ => by
    obtain ⟨id, rfl⟩ := taken
    simp

theorem allIdx {element : Type} {courses : Nat → element → Courses Deed α}
    (elements : List element)
    (each : ∀ index element, Invoking engine outer (courses index element)) :
    Invoking engine outer (Courses.all (elements.mapIdx courses)) :=
  Courses.Leaves.allIdx (Deed.invoked_mixable engine outer) elements each

end Invoking

/-- Agreement with doing one thing after another. -/
def invoking (engine : Engine) (outer : Graph) : Likeness (Courses Deed) (Courses Deed) where
  like courses _ := Invoking engine outer courses
  pure := .pure
  bind := .bind
  map := .map

theorem Invoking.mapM {engine : Engine} {outer : Graph} {α β : Type} {program : α → Courses Deed β}
    (elements : List α) (each : ∀ element ∈ elements, Invoking engine outer (program element)) :
    Invoking engine outer (elements.mapM program) :=
  Courses.Leaves.mapM (Deed.invoked_mixable engine outer) elements each

def VisitInvokes (engine : Engine) (outer : Graph) (left : Nat) (visit : Visit) : Prop :=
  ∀ graph path name input, path ≠ [] → engine.Runs outer (Path.run path) graph →
    left + path.length = engine.limits.maxDepth + 1 →
    Invoking engine outer (visit graph path name input)

section Visits

variable {engine : Engine} {outer : Graph} {left : Nat} {visit : Visit}
  (visits : VisitInvokes engine outer left visit) {graph : Graph} {path : Path} {node : Node}
  (reach : left + path.length = engine.limits.maxDepth)

include visits reach

theorem further_invoking {step : Step} (runs : engine.Runs outer (Path.run (path ++ [step])) graph)
    (name : String) (input : Json) :
    Invoking engine outer (visit graph (path ++ [step]) name input) :=
  visits graph _ name input (by simp) runs (by simp; omega)

theorem attempt_invoking (runs : engine.Runs outer path graph) (input : Json) (entry : Entry) :
    Invoking engine outer (attempt visit path graph input entry) := by
  unfold attempt
  cases graph.check with
  | error error =>
      exact .of_idle fun _ _ same _ => by
        obtain rfl := same
        simp
  | ok report =>
      refine .map _ (.allIdx _ fun index name => further_invoking visits reach ?_ _ _)
      rwa [Path.run_start]

variable (runs : engine.Runs outer (Path.run path) graph)

include runs

theorem follow_invoking (outcome : Outcome) :
    Invoking engine outer (follow visit graph path node outcome) := by
  unfold follow
  dsimp only
  split
  · exact .of_idle fun _ _ same _ => by
      obtain rfl := same
      simp
  · refine .map _ (.allIdx _ fun index connection => further_invoking visits reach ?_ _ _)
    rwa [Path.run_follow]

theorem runBody_invoking (round : Nat) (key : String) (payload : Json) :
    Invoking engine outer (runBody visit graph path node round key payload) := by
  unfold runBody
  cases node.output? key with
  | none => exact .pure []
  | some port =>
      refine .mapM _ fun numbered _ => further_invoking visits reach ?_ _ _
      rwa [Path.run_body]

variable (activation : path ≠ []) (found : graph.node? node.id = some node)

include activation found

/-- The record of a run nested in an activation waits for the activation to end. -/
theorem callSubflow_invokes (visited : visit = Course.visit engine left)
    (composite : node.Composite) {input : Json} {deeds : List Deed}
    {result : Except NodeError Outcome}
    (taken : callSubflow engine visit graph path node input deeds result) {finished : Finished}
    (member : .record finished ∈ deeds) :
    Deed.Invoked engine outer deeds finished ∨
      finished.path = path ∧ engine.Invokes outer node result finished := by
  rcases callSubflow_cases taken with ⟨_, _, rfl⟩ | ⟨definition, id, tally, known, nested, rfl⟩
  · contradiction
  · have nests : engine.Nests path.length definition path input deeds tally := by
      have depth : left = engine.limits.maxDepth - path.length := by omega
      rw [visited, depth] at nested
      exact ⟨id, nested⟩
    obtain ⟨attempted, attempt, _, rfl⟩ := nested
    have either : .record finished ∈ attempted ∨ finished = ⟨path, tally.execution⟩ := by
      simpa using member
    rcases either with inside | rfl
    · obtain ⟨name, listed⟩ := Run.definitionOf_known known
      have inner : engine.Runs outer path (definition.toGraph id) :=
        .inr ⟨activation, name, definition, id, listed, rfl⟩
      have invoked := attempt_invoking visits reach inner _ _ attempted () attempt finished inside
      refine .inl (invoked.mono fun deed here => ?_)
      simp [here]
    · exact .inr ⟨rfl, graph, definition, input, tally, runs, found, composite, known, rfl,
        nests.invocation node⟩

theorem perform_invokes (visited : visit = Course.visit engine left) {input : Json}
    {deeds : List Deed} {result : Except NodeError Outcome}
    (taken : perform engine visit graph path node input deeds result) {finished : Finished}
    (member : .record finished ∈ deeds) :
    Deed.Invoked engine outer deeds finished ∨
      finished.path = path ∧ engine.Invokes outer node result finished := by
  rcases perform_cases taken with ⟨calls, _, rfl⟩ | ⟨_, evaluated, goes⟩ | ⟨composite, called⟩
  · simp at member
  · have surrounded : (invoking engine outer).Surrounded (surroundings visit graph path node)
        (surroundings visit graph path node) :=
      ⟨runBody_invoking visits reach runs, fun _ => .pure ()⟩
    have branching : Invoking engine outer (Branching.evaluate (surroundings visit graph path node)
        engine.limits.maxWhileIterations node input) := surrounded.evaluate _ node input
    exact .inl (branching deeds evaluated goes finished member)
  · exact callSubflow_invokes visits reach runs activation found visited composite called member

theorem activate_invoking (visited : visit = Course.visit engine left) (input : Json) :
    Invoking engine outer (activate engine visit graph path node input) := by
  intro _ _ taken finished member
  obtain ⟨_, _, _, rfl, ⟨first, rfl⟩, work, rest, result, rfl, works, ends⟩ := taken
  -- whatever the result is, the activation goes on by telling its end
  have ended : ∃ last further, rest = .event ⟨path, .ending last node.id result⟩ :: further ∧
      (.record finished ∈ further → Deed.Invoked engine outer further finished) := by
    cases result with
    | error error =>
        obtain ⟨_, _, _, rfl, ⟨last, rfl⟩, rfl, _⟩ := ends
        exact ⟨last, [], rfl, nofun⟩
    | ok outcome =>
        obtain ⟨_, _, _, rfl, ⟨last, rfl⟩, followed, _, _, rfl, follows, rfl, _⟩ := ends
        refine ⟨last, followed ++ [], rfl, fun inside => ?_⟩
        rw [List.append_nil] at inside ⊢
        exact follow_invoking visits reach runs outcome followed () follows finished inside
  obtain ⟨last, further, rfl, later⟩ := ended
  have either : .record finished ∈ work ∨ .record finished ∈ further := by simpa using member
  rcases either with here | there
  · rcases perform_invokes visits reach runs activation found visited works here with
      invoked | ⟨rfl, invokes⟩
    · exact invoked.mono fun deed inside => by simp [inside]
    · exact ⟨node, result, first, last, invokes, by simp, by simp⟩
  · exact (later there).mono fun deed inside => by simp [inside]

end Visits

theorem visit_invokes (engine : Engine) (outer : Graph) (left : Nat) :
    VisitInvokes engine outer left (visit engine left) := by
  have failing (path : Path) (node : String) (error : NodeError) :
      Invoking engine outer (do
        fail path node error
        return (none : Option Json)) :=
    .bind .tell fun _ => .pure none
  induction left with
  | zero =>
      intro graph path name input activation runs reach
      unfold visit
      cases graph.node? name with
      | none => exact failing path name _
      | some node => exact failing path name _
  | succ left ih =>
      intro graph path name input activation runs reach
      unfold visit
      cases found : graph.node? name with
      | none => exact failing path name _
      | some node =>
          have named : node.id = name := (Graph.mem_of_node? found).2
          exact activate_invoking ih (by omega) runs activation (named ▸ found) rfl input

/-- All records of a run but its own are those of invocations. -/
theorem wholeGraph_invoked {engine : Engine} {graph : Graph} {input : Json} {entry : Entry}
    {deeds : List Deed} {tally : Tally}
    (taken : wholeGraph (visit engine engine.limits.maxDepth) [] graph input entry deeds tally)
    {finished : Finished} (member : .record finished ∈ deeds) (nested : finished.path ≠ []) :
    Deed.Invoked engine graph deeds finished := by
  obtain ⟨attempted, attempt, _, rfl⟩ := taken
  have either : .record finished ∈ attempted ∨ finished = ⟨[], tally.execution⟩ := by
    simpa using member
  rcases either with inside | rfl
  · have invoked := attempt_invoking (visit_invokes engine graph engine.limits.maxDepth) (by simp)
      (.inl ⟨rfl, rfl⟩) input entry attempted () attempt finished inside
    exact invoked.mono fun deed here => by simp [here]
  · contradiction

end Course

/-- Where both ends of an activation are known, the story of its path is. -/
theorem Bracketed.nested_between {limit : Nat} {trace : List Traced} {finished : List Finished}
    (bracketed : Bracketed limit trace finished) {record : Finished} (member : record ∈ finished)
    (activation : record.path ≠ []) {first last : Uuid} {node : String}
    {result : Except NodeError Outcome}
    (starts : ⟨record.path, .nodeStarted first node⟩ ∈ trace)
    (ends : ⟨record.path, .ending last node result⟩ ∈ trace) :
    trace.filter (·.concerns record.path) =
      Traced.bracket record.path (.nodeStarted first node)
        (trace.filter fun traced => traced.run = record.path) (.ending last node result) := by
  obtain ⟨id, other, name, ending, told, ended⟩ := bracketed.nested record member activation
  have outside : Path.run record.path ≠ record.path :=
    (Path.run_ne_of_isPrefix activation List.prefix_rfl).symm
  have finishes : Traced.run ⟨record.path, .ending last node result⟩ = Path.run record.path := by
    cases result <;> rfl
  -- of all that the path concerns, only the two ends belong to the run around
  have listed (event : Event) (inside : ⟨record.path, event⟩ ∈ trace)
      (own : Traced.run ⟨record.path, event⟩ = Path.run record.path) :
      event = .nodeStarted id name ∨ event = ending := by
    have concerned : ⟨record.path, event⟩ ∈ trace.filter (·.concerns record.path) :=
      List.mem_filter.mpr ⟨inside, by simp [Traced.concerns]⟩
    rw [told] at concerned
    rcases Traced.mem_bracket.mp concerned with same | within | same
    · exact .inl (Traced.mk.inj same).2
    · exact absurd (own.symm.trans (of_decide_eq_true (List.mem_filter.mp within).2)) outside
    · exact .inr (Traced.mk.inj same).2
  have begins : Event.nodeStarted first node = .nodeStarted id name := by
    refine (listed _ starts rfl).resolve_right fun same => ?_
    rcases ended with rfl | ⟨message, rfl⟩ <;> contradiction
  have closes : Event.ending last node result = ending := by
    refine (listed _ ends finishes).resolve_left fun same => ?_
    cases result <;> contradiction
  rw [told, begins, closes]

/-- A nested run and its invocation are all that happens at the record's path, and the
activation of the node ends as the result says. -/
def Engine.Isolated (engine : Engine) (outer : Graph) (trace : List Traced) (record : Finished) :
    Prop :=
  ∃ node result first last, engine.Invokes outer node result record ∧
    trace.filter (·.concerns record.path) =
      Traced.bracket record.path (.nodeStarted first node.id)
        (trace.filter fun traced => traced.run = record.path) (.ending last node.id result)

/-- A node that stands for a definition gives what the definition gives by itself, and
leaves the run around alone, whatever goes on between its turns.  In every run, the
records of others than the run itself are those of such nodes, every record lists what
its own run tells, and the activation of the node ends as the nested run decides. -/
theorem Engine.invocations_isolated (engine : Engine) :
    (∀ depth graph node definition, node.Composite →
      Run.definitionOf engine graph node = .ok definition → ∀ path input,
        (Run.perform engine (Run.visit engine (engine.limits.maxDepth - (depth + 1))) graph path
          node input).Takes (Run.aside path node.id) fun deeds result =>
            ∃ nested tally, deeds = nested ++ [.record ⟨path, tally.execution⟩] ∧
              engine.Invocation (depth + 1) node definition input tally result) ∧
    ∀ graph input entry world, ∃ trace finished,
      (engine.run graph input entry world).1.trace = world.trace ++ trace ∧
      (engine.run graph input entry world).1.finished = world.finished ++ finished ∧
      ⟨[], (engine.run graph input entry world).2⟩ ∈ finished ∧
      (∀ record ∈ finished, record.Told (trace.filter fun traced => traced.run = record.path)) ∧
      ∀ record ∈ finished, record.path ≠ [] → engine.Isolated graph trace record := by
  refine ⟨fun depth graph node definition composite known path input => ?_,
    fun graph input entry world => ?_⟩
  · refine (Run.perform_nests composite known path input).mono ?_
    rintro _ _ ⟨tally, nests, rfl⟩
    obtain ⟨nested, rfl⟩ := nests.kept
    exact ⟨nested, tally, rfl, nests.invocation node⟩
  obtain ⟨deeds, tally, whole, grows, same⟩ := engine.run_takes graph input entry world
  have visits := visit_accounted engine engine.limits.maxDepth
  have account : Accounted (fun _ => False) _ _ deeds := (wholeGraph_accounted visits whole).1
  have bracketed := account.isBracketed
  refine ⟨_, _, grows.trace, grows.finished, ?_, bracketed.told, fun record member activation => ?_⟩
  · obtain ⟨attempted, _, _, rfl⟩ := whole
    rw [same, Deed.mem_finished_iff]
    simp
  · have invoked := Course.wholeGraph_invoked whole (Deed.mem_finished_iff.mp member) activation
    obtain ⟨node, result, first, last, invokes, starts, ends⟩ := invoked
    exact ⟨node, result, first, last, invokes, bracketed.nested_between member activation
      (Deed.mem_event_iff.mpr starts) (Deed.mem_event_iff.mpr ends)⟩

/-- A definition whose only node panics. -/
def panicking : Subflow where
  id := "panicking"
  name := "panicking"
  nodes := [⟨"inner", "broken", .data, "inner", [], [], [], .idle, .origin⟩]
  connections := []
  inputs := []
  outputs := []
  inputMapping := []
  outputMapping := []
  outputSources := []
  reusable := true

/-- A node that stands for it, with the given outputs. -/
def panickingNode (id : String) (outputs : List Port) : Node :=
  ⟨id, subflowTemplate, .action, id, [("subflowId", .string "panicking")],
    [⟨"in", "in", .input, anyType, true⟩], outputs, .idle, .origin⟩

/-- A trigger with two such nodes behind it, the first with an output for failures. -/
def doubled : Graph where
  id := .nil
  name := "doubled"
  nodes :=
    [ ⟨"start", "manual", .trigger, "start", [], [], [⟨"out", "out", .output, anyType, true⟩],
        .idle, .origin⟩,
      panickingNode "left" [⟨"failures", errorPort, .output, anyType, false⟩],
      panickingNode "right" [] ]
  connections :=
    [ ⟨"first", ⟨"start", "out"⟩, ⟨"left", "in"⟩, anyType⟩,
      ⟨"second", ⟨"start", "out"⟩, ⟨"right", "in"⟩, anyType⟩ ]

def doubledEngine : Engine where
  registry := [("broken", fun _ _ => ⟨5, .panicked⟩)]
  library := [("panicking", panicking)]
  limits := ⟨100, 8, 8⟩

theorem run_of_doubled_isolated :
    (panickingNode "right" []).Composite ∧
    Run.definitionOf doubledEngine doubled (panickingNode "right" []) = .ok panicking ∧
    (doubledEngine.run doubled .null .triggers (.new ⟨0, 0⟩ ⟨0⟩)).2.failures.map (·.1) =
      [some "right"] ∧
    ∃ trace finished,
      (doubledEngine.run doubled .null .triggers (.new ⟨0, 0⟩ ⟨0⟩)).1.finished = finished ∧
      finished.map (·.path.length) = [2, 2, 0] ∧
      ∀ record ∈ finished, record.path ≠ [] → doubledEngine.Isolated doubled trace record := by
  refine ⟨⟨.inl rfl, rfl⟩, rfl, by decide +kernel, ?_⟩
  obtain ⟨trace, finished, _, same, _, _, isolated⟩ :=
    doubledEngine.invocations_isolated.2 doubled .null .triggers (.new ⟨0, 0⟩ ⟨0⟩)
  rw [show (World.new ⟨0, 0⟩ ⟨0⟩).finished = [] from rfl, List.nil_append] at same
  refine ⟨trace, finished, same, ?_, isolated⟩
  rw [← same]
  decide +kernel

end Workflow
