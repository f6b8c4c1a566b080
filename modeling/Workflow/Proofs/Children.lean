import Mathlib.Data.List.Count
import Workflow.Proofs.Consistency
import Workflow.Proofs.NodeOrder
import Workflow.Proofs.Refusals

/-! What successful activations lead to.

Every connection that an activation fires is followed once: of each, one more activation is
attempted.  But which connections those are is found by the keys of outputs, and a key
stands for the first output that has it.  `Engine.run_counts_children` says how often a
connection is followed; where keys or ids repeat, that may be several times or never.
-/

namespace Workflow

/-- Whether an event tells of an attempt to activate a node: it starts, or is refused. -/
def Event.attempts (limit : Nat) : Event → Bool
  | .nodeStarted .. => true
  | .nodeFailed _ _ message => message = (NodeError.depthExceeded limit).message
  | _ => false

theorem Event.attempts_run {limit : Nat} {event : Event} (attempts : event.attempts limit)
    (path : Path) : Traced.run ⟨path, event⟩ = Path.run path := by
  cases event with
  | runStarted | runFinished => contradiction
  | nodeStarted | nodeSucceeded | nodeFailed => rfl

/-- The last step to an activation that is attempted right behind the one at a path. -/
def Traced.attempt? (limit : Nat) (path : Path) (traced : Traced) : Option Step :=
  traced.path.getLast?.filter fun _ =>
    traced.path.dropLast = path ∧ traced.event.attempts limit

theorem Traced.attempt?_eq_some_iff {limit : Nat} {path : Path} {traced : Traced} {step : Step} :
    traced.attempt? limit path = some step ↔
      traced.event.attempts limit ∧ traced.path = path ++ [step] := by
  obtain ⟨further, event⟩ := traced
  rcases List.eq_nil_or_concat' further with rfl | ⟨before, last, rfl⟩
  · simp [attempt?]
  · simp only [attempt?, List.getLast?_concat, List.dropLast_concat, Option.filter_eq_some_iff,
      Option.some.injEq, decide_eq_true_eq]
    constructor
    · rintro ⟨rfl, rfl, attempts⟩
      exact ⟨attempts, rfl⟩
    · rintro ⟨attempts, same⟩
      obtain ⟨rfl, last⟩ := List.append_inj' same rfl
      exact ⟨List.singleton_inj.mp last, rfl, attempts⟩

def Step.followed? : Step → Option Connection
  | .follow _ connection => some connection
  | _ => none

/-- The connection along which an activation is attempted that follows the one at a path. -/
def Traced.child? (limit : Nat) (path : Path) (traced : Traced) : Option Connection :=
  match traced.path.getLast? with
  | some (.follow _ connection) =>
      if traced.path.dropLast = path ∧ traced.event.attempts limit then some connection else none
  | _ => none

/-- The connections along which activations are attempted that follow the one at a path. -/
def children (limit : Nat) (path : Path) (trace : List Traced) : List Connection :=
  trace.filterMap (Traced.child? limit path)

theorem Traced.child?_eq (limit : Nat) (path : Path) (traced : Traced) :
    traced.child? limit path = (traced.attempt? limit path).bind Step.followed? := by
  obtain ⟨further, event⟩ := traced
  rcases List.eq_nil_or_concat' further with rfl | ⟨before, last, rfl⟩
  · rfl
  · simp only [child?, attempt?, List.getLast?_concat, List.dropLast_concat, Option.filter_some]
    by_cases here : before = path ∧ event.attempts limit
    · cases last <;> simp [here, Step.followed?]
    · cases last <;> simp [here]

namespace Deed

variable {limit : Nat} {path : Path} {deeds : List Deed} {deed : Deed} {step : Step}

def attempt? (limit : Nat) (path : Path) (deed : Deed) : Option Step :=
  deed.event?.bind (Traced.attempt? limit path)

def child? (limit : Nat) (path : Path) (deed : Deed) : Option Connection :=
  deed.event?.bind (Traced.child? limit path)

theorem filterMap_child? : deeds.filterMap (child? limit path) =
    children limit path (deeds.filterMap event?) := by
  rw [children, List.filterMap_filterMap]
  rfl

theorem filterMap_child?_eq : deeds.filterMap (child? limit path) =
    (deeds.filterMap (attempt? limit path)).filterMap Step.followed? := by
  rw [List.filterMap_filterMap]
  refine List.filterMap_congr fun deed _ => ?_
  simp only [child?, attempt?, Option.bind_assoc, Traced.child?_eq]

theorem attempt?_eq_some (attempted : deed.attempt? limit path = some step) :
    ∃ event, deed = .event ⟨path ++ [step], event⟩ ∧ event.attempts limit := by
  obtain ⟨⟨place, event⟩, told, behind⟩ := Option.bind_eq_some_iff.mp attempted
  obtain ⟨attempts, here⟩ := Traced.attempt?_eq_some_iff.mp behind
  obtain rfl : place = _ := here
  exact ⟨event, event?_eq_some_iff.mp told, attempts⟩

theorem attempt?_here {event : Event} (attempts : event.attempts limit) :
    (Deed.event ⟨path ++ [step], event⟩).attempt? limit path = some step :=
  Traced.attempt?_eq_some_iff.mpr ⟨attempts, rfl⟩

theorem attempt?_eq_none (other : ∀ step event, event.attempts limit →
    deed ≠ .event ⟨path ++ [step], event⟩) : deed.attempt? limit path = none := by
  rw [Option.eq_none_iff_forall_not_mem]
  intro step attempted
  obtain ⟨event, same, attempts⟩ := attempt?_eq_some attempted
  exact other step event attempts same

theorem filterMap_attempt?_eq_nil (other : ∀ step event, event.attempts limit →
    .event ⟨path ++ [step], event⟩ ∉ deeds) : deeds.filterMap (attempt? limit path) = [] := by
  rw [List.filterMap_eq_nil_iff]
  exact fun deed member => attempt?_eq_none fun step event attempts same =>
    other step event attempts (same ▸ member)

/-- The activations that are attempted right behind one are below it. -/
theorem filterMap_attempt?_below : (below path deeds).filterMap (attempt? limit path) =
    deeds.filterMap (attempt? limit path) := by
  rw [below, List.filterMap_filter]
  refine List.filterMap_congr fun deed _ => ?_
  split
  · rfl
  · rename_i away
    refine (attempt?_eq_none fun step event _ same => away ?_).symm
    rw [same]
    exact decide_eq_true (List.prefix_append path _)

theorem filterMap_child?_below : (below path deeds).filterMap (child? limit path) =
    deeds.filterMap (child? limit path) := by
  rw [filterMap_child?_eq, filterMap_child?_eq, filterMap_attempt?_below]

end Deed

/-- Where each of several things side by side shows one element, all are shown. -/
theorem Courses.filterMap_all_perm {ε α β δ : Type} {show? : ε → Option δ} {image : Nat → β → δ}
    {program : Nat → β → Courses ε α} {elements : List β}
    (each : ∀ index element, elements[index]? = some element → ∀ deeds result,
      program index element deeds result → deeds.filterMap show? = [image index element])
    {deeds : List ε} {results : List α}
    (taken : Courses.all (elements.mapIdx program) deeds results) :
    (deeds.filterMap show?).Perm (elements.mapIdx image) := by
  induction elements generalizing program image deeds results with
  | nil =>
      obtain ⟨rfl, _⟩ := taken
      exact .nil
  | cons element rest ih =>
      rw [List.mapIdx_cons] at taken
      obtain ⟨own, others, _, _, mixed, goes, follows, _⟩ := taken
      have first := each 0 element rfl own _ goes
      have later := ih (fun index later listed => each (index + 1) later listed) follows
      have shown := (mixed.filterMap show?).perm
      rw [first] at shown
      rw [List.mapIdx_cons]
      exact shown.trans (later.cons _)

section Attempts

variable {engine : Engine} {outer : Graph} {entry : Entry} {path : Path} {deeds : List Deed}

/-- A part that lies right behind an activation is one attempt. -/
theorem Engine.Part.attempted {step : Step}
    (part : engine.Part outer entry (path ++ [step]) deeds) :
    deeds.filterMap (Deed.attempt? engine.limits.maxDepth path) = [step] := by
  have inside : path ++ [step] ≠ [] := by simp
  -- what lies right behind the activation within the part is at the part's own path
  have here {other : Step} {event : Event} (member : .event ⟨path ++ [other], event⟩ ∈ deeds) :
      path ++ [other] = path ++ [step] := by
    have below : path ++ [step] <+: path ++ [other] := part.isPrefix _ member
    exact (below.eq_of_length (by simp)).symm
  obtain ⟨_, graph, name, node, reaches, _, ⟨_, run, rfl⟩ | worked⟩ := part.cases
  · simp [Deed.attempt?_here, Event.attempts]
  · obtain ⟨_, _, work, performed, first, last, followed, _, activation⟩ := worked
    have wellFormed := reaches.known.1
    have starts : (Deed.event ⟨path ++ [step], .nodeStarted first node.id⟩).attempt?
        engine.limits.maxDepth path = some step :=
      Deed.attempt?_here rfl
    have working : work.filterMap (Deed.attempt? engine.limits.maxDepth path) = [] := by
      refine Deed.filterMap_attempt?_eq_nil fun other event attempts member => ?_
      have same := here (activation.work_subset member)
      rw [same] at member
      exact activation.work_foreign wellFormed inside member (Event.attempts_run attempts _)
    have ends : (Deed.event ⟨path ++ [step], .ending last node.id performed⟩).attempt?
        engine.limits.maxDepth path = none := by
      refine Deed.attempt?_eq_none fun other event attempts same => ?_
      obtain rfl := (Traced.mk.inj (Deed.event.inj same)).2
      cases performed with
      | ok outcome => contradiction
      | error error =>
          have refuses := NodeError.refuses_of_message (of_decide_eq_true attempts)
          exact Course.perform_unrefused activation.works refuses
    have onward : followed.filterMap (Deed.attempt? engine.limits.maxDepth path) = [] := by
      refine Deed.filterMap_attempt?_eq_nil fun other event attempts member => ?_
      have same := here (activation.followed_subset member)
      exact activation.follow_beyond wellFormed inside _ (Deed.mem_event_iff.mpr member) same
    rw [activation.deeds]
    simp [starts, working, ends, onward]

/-- Right behind an activation lies what its work attempts and what follows it. -/
theorem Course.Activation.attempts {visit : Visit} {graph : Graph} {node : Node} {input : Json}
    {work followed : List Deed} {performed : Except NodeError Outcome} {first last : Uuid}
    (activation : Activation engine visit graph path node input work performed first last followed
      deeds) (limit : Nat) :
    deeds.filterMap (Deed.attempt? limit path) =
      work.filterMap (Deed.attempt? limit path) ++
        followed.filterMap (Deed.attempt? limit path) := by
  have own (event : Event) : (Deed.event ⟨path, event⟩).attempt? limit path = none := by
    refine Deed.attempt?_eq_none fun step other _ same => ?_
    have here := (Traced.mk.inj (Deed.event.inj same)).1
    simp at here
  rw [activation.deeds]
  simp only [List.cons_append, List.filterMap_cons, List.filterMap_append, own]

section Onward

variable {left depth : Nat} {graph : Graph} {name : String} {node : Node} {outcome : Outcome}
  (reaches : engine.Reaches outer entry depth path graph name)
  (found : graph.node? name = some node) (reach : left + depth + 1 = engine.limits.maxDepth)

include reaches found reach

/-- What follows an activation is what it fires, each connection once. -/
theorem Course.follow_attempts
    (taken : follow (visit engine left) graph path node outcome deeds ()) :
    (deeds.filterMap (Deed.attempt? engine.limits.maxDepth path)).Perm
      ((Run.fired graph node outcome.ports).mapIdx .follow) := by
  unfold follow at taken
  by_cases ended : (Run.fired graph node outcome.ports).isEmpty
  · simp only [ended, if_true] at taken
    obtain rfl := taken
    rw [List.isEmpty_iff.mp ended]
    exact .nil
  · simp only [ended] at taken
    obtain ⟨results, taken, _⟩ := (Courses.map_iff ..).mp taken
    refine Courses.filterMap_all_perm (fun index connection listed deeds result taken => ?_) taken
    obtain ⟨part, _⟩ := visit_spreads engine outer entry left _ _ _ _ _ _ _
      (reaches.follow_fired found listed) (by omega) taken
    exact part.attempted

theorem Course.Activation.children {input : Json} {work followed : List Deed} {first last : Uuid}
    (activation : Activation engine (visit engine left) graph path node input work (.ok outcome)
      first last followed deeds) :
    (deeds.filterMap (Deed.child? engine.limits.maxDepth path)).Perm
      (Run.fired graph node outcome.ports) := by
  have spread := perform_spreads (visit_spreads engine outer entry left) reaches found reach
    activation.works
  have working : (work.filterMap (Deed.attempt? engine.limits.maxDepth path)).filterMap
      Step.followed? = [] := by
    rw [List.filterMap_eq_nil_iff]
    intro step attempted
    obtain ⟨deed, member, shown⟩ := List.mem_filterMap.mp attempted
    obtain ⟨event, rfl, _⟩ := Deed.attempt?_eq_some shown
    have other := spread.step_of_mem member List.prefix_rfl
    cases step with
    | follow index connection => exact absurd rfl (other index connection)
    | start | body => rfl
  have onward := (follow_attempts reaches found reach (activation.follows outcome rfl)).filterMap
    Step.followed?
  have connections (fired : List Connection) :
      (fired.mapIdx Step.follow).filterMap Step.followed? = fired := by
    rw [List.mapIdx_eq_zipIdx_map, List.filterMap_map]
    exact (congrFun List.filterMap_eq_map _).trans (List.zipIdx_map_fst 0 fired)
  rw [Deed.filterMap_child?_eq, activation.attempts, List.filterMap_append, working]
  simpa [connections] using onward

end Onward

end Attempts

/-- Whether a node that succeeds fires all its outputs. -/
def Node.FiresAll (node : Node) : Prop :=
  node.kind = .trigger ∨
    (node.kind = .action ∨ node.kind = .data) ∧ node.templateId ≠ subflowTemplate

/-- The number of outputs whose keys stand for a port with the given id. -/
def Node.standing (node : Node) (portId : String) : Nat :=
  node.outputs.countP fun port => (node.output? port.key).map (·.id) = some portId

/-- Where neither keys nor ids repeat, a key stands for its own port. -/
theorem Node.standing_eq_one {node : Node} {port : Port} (keys : node.outputKeys.Nodup)
    (ids : (node.outputs.map (·.id)).Nodup) (member : port ∈ node.outputs) :
    node.standing port.id = 1 := by
  have own : node.standing port.id = node.outputs.countP fun other => other.id == port.id := by
    refine List.countP_congr fun other inside => ?_
    have found : node.output? other.key = some other := Graph.find?_of_nodup keys inside
    simp [found]
  have once := List.count_eq_one_of_mem ids (List.mem_map_of_mem (f := (·.id)) member)
  rwa [own, ← Function.comp_def (· == port.id), ← List.countP_map, ← List.count_eq_countP]

theorem Graph.WellFormed.connections_nodup {graph : Graph} (wellFormed : graph.WellFormed) :
    graph.connections.Nodup :=
  wellFormed.single.of_map _

namespace Run

variable {graph : Graph} {node : Node} {connection : Connection}

theorem count_fired (distinct : graph.connections.Nodup) (known : connection ∈ graph.connections)
    (leaves : connection.source.nodeId = node.id) (keys : List String) :
    (fired graph node keys).count connection =
      keys.countP fun key => (node.output? key).map (·.id) = some connection.source.portId := by
  induction keys with
  | nil => rfl
  | cons key rest ih =>
      have split : fired graph node (key :: rest) =
          fired graph node [key] ++ fired graph node rest := by
        simp [fired]
      have first : (fired graph node [key]).count connection =
          if (node.output? key).map (·.id) = some connection.source.portId then 1 else 0 := by
        rw [fired_single]
        cases found : node.output? key with
        | none => rfl
        | some port =>
            have member : connection ∈ graph.outgoing ⟨node.id, port.id⟩ ↔
                port.id = connection.source.portId := by
              rw [← leaves, Graph.outgoing, List.mem_filter, decide_eq_true_iff]
              exact ⟨fun given => (congrArg Endpoint.portId given.2).symm,
                fun same => ⟨known, same ▸ rfl⟩⟩
            have once : (graph.outgoing ⟨node.id, port.id⟩).Nodup := distinct.filter _
            simp [once.count, member]
      rw [split, List.count_append, first, ih, List.countP_cons, Nat.add_comm]
      simp

theorem count_fired_outputs (distinct : graph.connections.Nodup)
    (known : connection ∈ graph.connections) (leaves : connection.source.nodeId = node.id) :
    (fired graph node node.outputKeys).count connection =
      node.standing connection.source.portId := by
  rw [count_fired distinct known leaves, Node.outputKeys, List.countP_map]
  rfl

end Run

theorem Course.perform_ports {engine : Engine} {visit : Visit} {graph : Graph} {path : Path}
    {node : Node} (all : node.FiresAll) {input : Json} {deeds : List Deed} {outcome : Outcome}
    (taken : perform engine visit graph path node input deeds (.ok outcome)) :
    outcome.ports = node.outputKeys := by
  have worked (notSubflow : node.templateId ≠ subflowTemplate)
      (taken : (if node.templateId = subflowTemplate then
          callSubflow engine visit graph path node input
        else do
          let result ← callDelegate engine path node input
          return result.map (Outcome.all node)) deeds (.ok outcome)) :
      outcome.ports = node.outputKeys := by
    rw [if_neg notSubflow] at taken
    obtain ⟨_, _, result, _, _, _, same⟩ := taken
    cases result with
    | error error => contradiction
    | ok payload =>
        obtain rfl := Except.ok.inj same
        rfl
  unfold perform at taken
  rcases all with trigger | ⟨action | data, notSubflow⟩
  · rw [trigger] at taken
    obtain rfl := Except.ok.inj taken.2
    rfl
  · rw [action] at taken
    exact worked notSubflow taken
  · rw [data] at taken
    exact worked notSubflow taken

/-- From every activation that succeeds and fires all outputs of its node, each connection
that leaves the node is followed as often as outputs stand for the port that it leaves;
nothing else is.  So each is followed once where neither keys nor ids of outputs repeat. -/
theorem Engine.run_counts_children (engine : Engine) (graph : Graph) (input : Json) (entry : Entry)
    (world : World) :
    ∃ trace, (engine.run graph input entry world).1.trace = world.trace ++ trace ∧
      ∀ path run name, ⟨path, .nodeSucceeded run name⟩ ∈ trace →
        ∃ depth inner node, engine.Reaches graph entry depth path inner name ∧
          inner.node? name = some node ∧
          (node.FiresAll → ∀ connection,
            (children engine.limits.maxDepth path trace).count connection =
              if connection ∈ inner.connections ∧ connection.source.nodeId = name then
                node.standing connection.source.portId
              else 0) ∧
          (node.FiresAll → node.outputKeys.Nodup → (node.outputs.map (·.id)).Nodup →
            ∀ connection ∈ inner.connections, connection.source.nodeId = name →
              (children engine.limits.maxDepth path trace).count connection = 1) := by
  obtain ⟨deeds, tally, whole, grows, _⟩ := engine.run_takes graph input entry world
  refine ⟨_, grows.trace, fun path run name succeeded => ?_⟩
  have told := Deed.mem_event_iff.mp succeeded
  have inside : path ≠ [] := by
    rintro rfl
    rcases (run_placed whole _ told).of_event with ⟨_, nodeless⟩ | ⟨_, _, _, reaches, _⟩
    · contradiction
    · exact absurd rfl reaches.path_ne_nil
  have member : .event ⟨path, .nodeSucceeded run name⟩ ∈ Deed.below path deeds :=
    Deed.mem_below_iff.mpr ⟨told, List.prefix_rfl⟩
  obtain ⟨depth, inner, reached, node, reaches, found, ⟨_, _, refused⟩ | worked⟩ :=
    (run_parts whole told inside List.prefix_rfl).cases
  · rw [refused] at member
    simp at member
  obtain ⟨left, input, work, performed, first, last, followed, reach, activation⟩ := worked
  have wellFormed := reaches.known.1
  have named : node.id = reached := (Graph.mem_of_node? found).2
  rcases activation.told wellFormed inside member rfl with started | ended
  · contradiction
  cases performed with
  | error error => contradiction
  | ok outcome =>
      obtain rfl : name = node.id := (Event.nodeSucceeded.inj ended).2
      subst named
      have counts (all : node.FiresAll) (connection : Connection) :
          (children engine.limits.maxDepth path (deeds.filterMap Deed.event?)).count connection =
            if connection ∈ inner.connections ∧ connection.source.nodeId = node.id then
              node.standing connection.source.portId
            else 0 := by
        rw [← Deed.filterMap_child?, ← Deed.filterMap_child?_below,
          (activation.children reaches found reach).count_eq,
          Course.perform_ports all activation.works]
        split
        · rename_i leaves
          exact Run.count_fired_outputs wellFormed.connections_nodup leaves.1 leaves.2
        · rename_i elsewhere
          refine List.count_eq_zero.mpr fun fired => elsewhere ?_
          obtain ⟨known, _, _, _, _, source⟩ := Run.mem_fired.mp fired
          exact ⟨known, by rw [source]⟩
      refine ⟨depth, inner, node, reaches, found, counts, ?_⟩
      intro all keys ids connection known leaves
      obtain ⟨source, _, starts, _⟩ := wellFormed.joined connection known
      obtain ⟨before, here, output⟩ := Option.bind_eq_some_iff.mp starts
      rw [leaves, found] at here
      obtain rfl := Option.some.inj here
      have same : source.id = connection.source.portId := by simpa using List.find?_some output
      rw [counts all, if_pos ⟨known, leaves⟩, ← same]
      exact Node.standing_eq_one keys ids (List.mem_of_find?_eq_some output)

/-- Both outputs of the start have keys of their own. -/
theorem run_of_twice_counts_children :
    let engine : Engine := ⟨[("both", fun _ input => ⟨0, .returned input⟩)], [], ⟨100, 3, 8⟩⟩
    ∃ trace, (engine.run twice .null .triggers (.new ⟨0, 0⟩ ⟨0⟩)).1.trace = trace ∧
      ∀ connection ∈ twice.connections, connection.source.nodeId = "start" →
        (children 3 [.start 0] trace).count connection = 1 := by
  intro engine
  obtain ⟨trace, told, counts⟩ :=
    engine.run_counts_children twice .null .triggers (.new ⟨0, 0⟩ ⟨0⟩)
  refine ⟨trace, told, ?_⟩
  obtain ⟨run, succeeded⟩ : ∃ run, ⟨[.start 0], .nodeSucceeded run "start"⟩ ∈ trace := by
    have shown : (⟨[.start 0], .nodeSucceeded (Uuid.random 0) "start"⟩ : Traced) ∈
        (engine.run twice .null .triggers (.new ⟨0, 0⟩ ⟨0⟩)).1.trace := by decide +kernel
    rw [told] at shown
    exact ⟨_, shown⟩
  obtain ⟨_, inner, node, reaches, found, _, once⟩ := counts _ _ _ succeeded
  obtain ⟨_, rfl⟩ : ([] : Path) = [] ∧ inner = twice :=
    reaches.scope.resolve_right fun ⟨_, _, _, _, _, _, before, _⟩ => before.path_ne_nil rfl
  obtain rfl := Option.some.inj found
  exact once (.inl rfl) (by decide) (by decide)

/-- A trigger with two outputs of the same key, each of which feeds a node of its own. -/
def shadowed : Graph :=
  let port (id : String) (direction : Direction) : Port := ⟨id, "main", direction, anyType, false⟩
  let node (id template : String) (kind : Kind) (inputs outputs : List Port) : Node :=
    ⟨id, template, kind, id, [], inputs, outputs, .idle, .origin⟩
  { id := .nil
    name := "shadowed"
    nodes :=
      [ node "start" "manual-trigger" .trigger [] [port "one" .output, port "two" .output],
        node "first" "log" .action [port "in" .input] [],
        node "second" "log" .action [port "in" .input] [] ]
    connections :=
      [ ⟨"a", ⟨"start", "one"⟩, ⟨"first", "in"⟩, anyType⟩,
        ⟨"b", ⟨"start", "two"⟩, ⟨"second", "in"⟩, anyType⟩ ] }

def logging : Engine := ⟨[("log", fun _ input => ⟨0, .returned input⟩)], [], ⟨100, 8, 8⟩⟩

/-- Both keys stand for the first output: its connection is followed twice, the other one never. -/
theorem run_of_shadowed_skips :
    shadowed.check = .ok ⟨["start"], false⟩ ∧
    (logging.run shadowed .null .triggers (.new ⟨0, 0⟩ ⟨0⟩)).2.executedNodes =
      ["start", "first", "first"] ∧
    (children 8 [.start 0] (logging.run shadowed .null .triggers (.new ⟨0, 0⟩ ⟨0⟩)).1.trace).map
      (·.id) = ["a", "a"] := by
  decide +kernel

end Workflow
