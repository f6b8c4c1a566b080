import Workflow.Proofs.Ancestry
import Workflow.Proofs.Bracketing
import Workflow.Proofs.Firings

/-! Graphs whose nodes run once at most.

Where nodes are orderly, no two connections lead to one node, and a run starts
where none leads.  So no activation meets another at a node, and nothing on a
cycle is activated.
-/

namespace Workflow

namespace Graph

variable {graph : Graph} {node : Node}

theorem Orderly.solitary (orderly : graph.Orderly) (wellFormed : graph.WellFormed) :
    graph.Solitary := by
  intro first here second there same
  obtain ⟨_, target, _, enters, _⟩ := wellFormed.joined first here
  obtain ⟨_, other, _, entersToo, _⟩ := wellFormed.joined second there
  obtain ⟨node, found, input⟩ := Option.bind_eq_some_iff.mp enters
  obtain ⟨again, foundToo, inputToo⟩ := Option.bind_eq_some_iff.mp entersToo
  rw [← same, found] at foundToo
  obtain rfl := Option.some.inj foundToo
  have single := (orderly node (List.mem_of_find?_eq_some found)).single
  have named : target.id = first.target.portId := by simpa using List.find?_some input
  have namedToo : other.id = second.target.portId := by simpa using List.find?_some inputToo
  obtain rfl : target = other := by
    have one := List.mem_of_find?_eq_some input
    have two := List.mem_of_find?_eq_some inputToo
    generalize node.inputs = ports at single one two
    match ports, single with
    | [port], _ => exact (List.mem_singleton.mp one).trans (List.mem_singleton.mp two).symm
  have ends : first.target = second.target := by
    obtain ⟨_, ⟨_, _⟩, ⟨_, _⟩, _⟩ := first
    obtain ⟨_, ⟨_, _⟩, ⟨_, _⟩, _⟩ := second
    simp_all
  exact List.inj_on_of_nodup_map wellFormed.single here there ends

theorem Orderly.trigger_initial (orderly : graph.Orderly) (wellFormed : graph.WellFormed)
    {name : String} (trigger : name ∈ graph.triggers) : graph.Initial name := by
  intro connection inside ends
  obtain ⟨node, listed, rfl⟩ := List.mem_map.mp trigger
  obtain ⟨member, kind⟩ := List.mem_filter.mp listed
  have closed := (orderly node member).closed (of_decide_eq_true kind)
  obtain ⟨_, target, _, enters, _⟩ := wellFormed.joined connection inside
  obtain ⟨entered, found, input⟩ := Option.bind_eq_some_iff.mp enters
  have itself : graph.node? node.id = some node := find?_of_nodup wellFormed.nodes member
  rw [ends, itself] at found
  obtain rfl := Option.some.inj found
  simp [closed] at input

theorem root_initial {name : String} (root : name ∈ graph.roots) : graph.Initial name := by
  intro connection inside ends
  obtain ⟨node, listed, rfl⟩ := List.mem_map.mp root
  have none := (List.mem_filter.mp listed).2
  simp only [Bool.not_eq_true', List.any_eq_false, decide_eq_true_eq] at none
  exact none connection inside ends

theorem Orderly.start_initial (orderly : graph.Orderly) (wellFormed : graph.WellFormed)
    {entry : Entry} {name : String}
    (start : name ∈ entry.starts graph ⟨graph.triggers, graph.hasCycle⟩) : graph.Initial name := by
  unfold Entry.starts at start
  split at start
  · exact orderly.trigger_initial wellFormed start
  · split at start
    · exact root_initial start
    · exact orderly.trigger_initial wellFormed start

theorem starts_nodup (distinct : (graph.nodes.map (·.id)).Nodup) (entry : Entry) :
    (entry.starts graph ⟨graph.triggers, graph.hasCycle⟩).Nodup := by
  have some (keep : Node → Bool) : ((graph.nodes.filter keep).map (·.id)).Nodup :=
    distinct.sublist (List.filter_sublist.map _)
  unfold Entry.starts
  split
  · exact some _
  · split
    · exact some _
    · exact some _

theorem leads_of_fired {keys : List String} {connection : Connection}
    (member : connection ∈ Run.fired graph node keys) :
    graph.Leads node.id connection.target.nodeId := by
  obtain ⟨known, _, _, _, _, source⟩ := Run.mem_fired.mp member
  exact ⟨connection, known, by rw [source], rfl⟩

/-- Different outputs fire different connections. -/
theorem Sound.fired_nodup (sound : graph.Sound) (member : node ∈ graph.nodes)
    {keys : List String} (distinct : keys.Nodup) : (Run.fired graph node keys).Nodup := by
  have outputs := (sound.ports_nodup member).sublist ((List.sublist_append_right _ _).map _)
  have connections : graph.connections.Nodup := sound.shaped.single.of_map _
  refine List.nodup_flatMap.mpr ⟨fun key _ => ?_, distinct.imp fun {first second} other => ?_⟩
  · split
    · exact connections.filter _
    · exact List.nodup_nil
  · intro connection one two
    have leaves : connection ∈ Run.fired graph node [first] := by rwa [Run.fired_single]
    have leavesToo : connection ∈ Run.fired graph node [second] := by rwa [Run.fired_single]
    obtain ⟨_, _, here, port, found, source⟩ := Run.mem_fired.mp leaves
    obtain ⟨_, _, there, port', found', source'⟩ := Run.mem_fired.mp leavesToo
    rw [List.mem_singleton.mp here] at found
    rw [List.mem_singleton.mp there] at found'
    have ids : port.id = port'.id := (Endpoint.mk.inj (source.symm.trans source')).2
    obtain rfl := List.inj_on_of_nodup_map outputs (List.mem_of_find?_eq_some found)
      (List.mem_of_find?_eq_some found') ids
    have named : port.key = first := by simpa using List.find?_some found
    have named' : port.key = second := by simpa using List.find?_some found'
    exact other (named.symm.trans named')

/-- Whether marks tell of an output fired that a connection leads from to the node. -/
def Reaches (graph : Graph) (marks : List Mark) (name : String) : Prop :=
  ∃ node ports, graph.node? node.id = some node ∧ .fired node.id ports ∈ marks ∧
    ∃ connection ∈ Run.fired graph node ports, connection.target.nodeId = name

theorem Reaches.mono {marks more : List Mark} {name : String} (reaches : graph.Reaches marks name)
    (subset : marks ⊆ more) : graph.Reaches more name := by
  obtain ⟨node, ports, found, finished, leads⟩ := reaches
  exact ⟨node, ports, found, subset finished, leads⟩

namespace Tale

variable {left : Nat} {name other : String} {marks : List Mark}

/-- A tale is empty, or tells of the node first. -/
theorem invert (tale : graph.Tale (left + 1) name marks) :
    marks = [] ∧ graph.node? name = none ∨
    ∃ node, graph.node? name = some node ∧ node.id = name ∧
      (marks = [.entered name] ∨ ∃ ports onward, ports.Nodup ∧
        Mixed (fun connection => graph.Tale left connection.target.nodeId)
          (Run.fired graph node ports) onward ∧
        marks = .entered name :: .fired name ports :: onward) := by
  cases found : graph.node? name with
  | none =>
      simp only [Tale, found] at tale
      exact .inl ⟨tale, rfl⟩
  | some node =>
      obtain ⟨_, rfl⟩ := mem_of_node? found
      simp only [Tale, found] at tale
      exact .inr ⟨node, rfl, rfl, tale⟩

theorem enters (known : (graph.node? name).isSome) (tale : graph.Tale (left + 1) name marks) :
    .entered name ∈ marks := by
  rcases tale.invert with ⟨_, unknown⟩ | ⟨_, _, _, rfl | ⟨_, _, _, _, rfl⟩⟩
  · simp [unknown] at known
  · simp
  · simp

/-- What is activated in consequence lies below, and no deeper than allowed. -/
theorem below (tale : graph.Tale left name marks) (member : .entered other ∈ marks) :
    ∃ count < left, graph.Below count name other := by
  induction left generalizing name marks with
  | zero =>
      obtain rfl : marks = [] := tale
      contradiction
  | succ left ih =>
      rcases tale.invert with ⟨rfl, _⟩ | ⟨node, _, rfl, rfl | ⟨_, onward, _, mixed, rfl⟩⟩
      · contradiction
      · obtain rfl : other = node.id := by simpa using member
        exact ⟨0, by omega, .here _⟩
      · have either : other = node.id ∨ .entered other ∈ onward := by simpa using member
        rcases either with rfl | later
        · exact ⟨0, by omega, .here _⟩
        · obtain ⟨connection, fired, _, _, told, inside⟩ := mixed.mem later
          obtain ⟨count, fewer, below⟩ := ih told inside
          have next := (Below.here node.id).step (leads_of_fired fired)
          exact ⟨0 + 1 + count, by omega, next.trans below⟩

theorem below_of_mem (tale : graph.Tale left name marks)
    (member : other ∈ marks.filterMap Mark.entered?) :
    ∃ count < left, graph.Below count name other :=
  tale.below (Mark.mem_entered_iff.mp member)

/-- Below where no connection leads, tales tell of a node once. -/
theorem nodup (sound : graph.Sound) (solitary : graph.Solitary) {start : String}
    (initial : graph.Initial start) {count : Nat} (below : graph.Below count start name)
    (tale : graph.Tale left name marks) : (marks.filterMap Mark.entered?).Nodup := by
  induction left generalizing count name marks with
  | zero =>
      obtain rfl : marks = [] := tale
      exact List.nodup_nil
  | succ left ih =>
      rcases tale.invert with ⟨rfl, _⟩ | ⟨node, found, rfl, rfl | fires⟩
      · exact List.nodup_nil
      · exact List.nodup_singleton node.id
      obtain ⟨ports, onward, distinct, mixed, rfl⟩ := fires
      have further {connection : Connection} (fired : connection ∈ Run.fired graph node ports) :=
        below.step (leads_of_fired fired)
      -- the node would lie below itself, and what lies below two connections would have
      -- two ways back
      refine List.nodup_cons.mpr ⟨fun again => ?_, ?_⟩
      · have later : .entered node.id ∈ onward := Mark.mem_entered_iff.mp again
        obtain ⟨connection, fired, part, _, told, here⟩ := mixed.mem later
        obtain ⟨steps, _, round⟩ := told.below here
        have same := below.count_unique solitary initial initial ((further fired).trans round)
        omega
      · have known := (mem_of_node? found).1
        refine mixed.nodup (sound.fired_nodup known distinct)
          (fun connection fired part told => ih (further fired) told) ?_
        intro first fired second firedToo different part rest told toldToo both here there
        obtain ⟨steps, _, one⟩ := told.below_of_mem here
        obtain ⟨others, _, two⟩ := toldToo.below_of_mem there
        have same := ((further fired).trans one).count_unique solitary initial initial
          ((further firedToo).trans two)
        obtain rfl : steps = others := by omega
        exact different (solitary first (Run.fired_subset _ _ _ fired) second
          (Run.fired_subset _ _ _ firedToo) (one.origin_unique solitary two))

/-- Whatever else is activated is where a fired output leads. -/
theorem reached (tale : graph.Tale left name marks) (member : .entered other ∈ marks) :
    other = name ∨ graph.Reaches marks other := by
  induction left generalizing name marks with
  | zero =>
      obtain rfl : marks = [] := tale
      contradiction
  | succ left ih =>
      rcases tale.invert with ⟨rfl, _⟩ | ⟨node, found, rfl, rfl | ⟨ports, onward, _, mixed, rfl⟩⟩
      · contradiction
      · exact .inl (by simpa using member)
      · have either : other = node.id ∨ .entered other ∈ onward := by simpa using member
        refine either.imp_right fun later => ?_
        obtain ⟨connection, fired, part, inside, told, here⟩ := mixed.mem later
        rcases ih told here with rfl | reached
        · exact ⟨node, ports, found, by simp, connection, fired, rfl⟩
        · exact reached.mono fun _ listed => by simp [inside listed]

/-- Where a fired output leads something is activated, if no node lies too deep. -/
theorem reaches (known : ∀ connection ∈ graph.connections,
      (graph.node? connection.target.nodeId).isSome)
    (deep : ∀ count other, graph.Below count name other → count < left)
    (tale : graph.Tale left name marks) {node : Node} {ports : List String}
    (found : graph.node? node.id = some node) (finished : .fired node.id ports ∈ marks)
    {connection : Connection} (fires : connection ∈ Run.fired graph node ports) :
    .entered connection.target.nodeId ∈ marks := by
  induction left generalizing name marks with
  | zero =>
      obtain rfl : marks = [] := tale
      contradiction
  | succ left ih =>
      rcases tale.invert with ⟨rfl, _⟩ | ⟨first, here, rfl, rfl | ⟨keys, onward, _, mixed, rfl⟩⟩
      · contradiction
      · simp at finished
      · have shallower {connection : Connection}
            (fired : connection ∈ Run.fired graph first keys) :
            ∀ count other, graph.Below count connection.target.nodeId other → count < left := by
          intro count other below
          have next := (Below.here first.id).step (leads_of_fired fired)
          have more := deep _ other (next.trans below)
          omega
        have either : (node.id = first.id ∧ ports = keys) ∨ .fired node.id ports ∈ onward := by
          simpa using finished
        rcases either with ⟨same, rfl⟩ | later
        · rw [same, here] at found
          obtain rfl := Option.some.inj found
          obtain ⟨part, inside, told⟩ := mixed.of_mem fires
          have more := shallower fires 0 _ (.here _)
          obtain ⟨less, rfl⟩ := Nat.exists_eq_add_one_of_ne_zero (by omega : left ≠ 0)
          have reached := known connection (Run.fired_subset _ _ _ fires)
          simp [inside (told.enters reached)]
        · obtain ⟨other, fired, part, inside, told, finishes⟩ := mixed.mem later
          simp [inside (ih (shallower fired) told finishes)]

end Tale

section

variable {left : Nat} {starts : List String} {marks : List Mark} {name : String}
  (mixed : Mixed (graph.Tale left) starts marks) (solitary : graph.Solitary)
  (initial : ∀ start ∈ starts, graph.Initial start)

include mixed

theorem tales_reached (member : .entered name ∈ marks) :
    name ∈ starts ∨ graph.Reaches marks name := by
  obtain ⟨first, start, part, inside, told, here⟩ := mixed.mem member
  rcases told.reached here with rfl | reached
  · exact .inl start
  · exact .inr (reached.mono inside)

include solitary initial

theorem tales_nodup (sound : graph.Sound) (distinct : starts.Nodup) :
    (marks.filterMap Mark.entered?).Nodup := by
  refine mixed.nodup distinct
    (fun name start part told => told.nodup sound solitary (initial name start) (.here name)) ?_
  intro first start second startToo different part rest told toldToo both here there
  obtain ⟨steps, _, one⟩ := told.below_of_mem here
  obtain ⟨others, _, two⟩ := toldToo.below_of_mem there
  obtain rfl := one.count_unique solitary (initial first start) (initial second startToo) two
  exact different (one.origin_unique solitary two)

theorem tales_acyclic (member : .entered name ∈ marks) :
    ¬ Relation.TransGen graph.Leads name name := by
  obtain ⟨first, start, part, _, told, here⟩ := mixed.mem member
  obtain ⟨count, _, below⟩ := told.below here
  exact below.not_cyclic solitary (initial first start)

variable (known : ∀ start ∈ starts, (graph.node? start).isSome)
  (reaches : ∀ connection ∈ graph.connections, (graph.node? connection.target.nodeId).isSome)
  (enough : graph.nodes.length ≤ left)

include known reaches enough

theorem tales_complete (reached : name ∈ starts ∨ graph.Reaches marks name) :
    .entered name ∈ marks := by
  have deep {first : String} (start : first ∈ starts) (count : Nat) (other : String)
      (below : graph.Below count first other) : count < left := by
    have fewer := below.count_lt_length solitary reaches (initial first start) (known first start)
    omega
  rcases reached with start | ⟨node, ports, found, told, connection, fires, rfl⟩
  · obtain ⟨part, inside, told⟩ := mixed.of_mem start
    have some := deep start 0 name (.here name)
    obtain ⟨less, rfl⟩ := Nat.exists_eq_add_one_of_ne_zero (by omega : left ≠ 0)
    exact inside (told.enters (known name start))
  · obtain ⟨first, start, part, inside, tells, here⟩ := mixed.mem told
    exact inside (tells.reaches reaches (deep start) found here fires)

end

end Graph

/-- Whether a finished activation fired an output that a connection leads from to the
node. -/
def Execution.Reaches (execution : Execution) (graph : Graph) (name : String) : Prop :=
  ∃ node ports, graph.node? node.id = some node ∧ (node.id, ports) ∈ execution.firings ∧
    ∃ connection ∈ Run.fired graph node ports, connection.target.nodeId = name

/-- What holds of the record of a run in which at most so many activations may follow
one another. -/
structure Execution.Once (execution : Execution) (graph : Graph) (starts : List String)
    (depth : Nat) : Prop where
  distinct : execution.executedNodes.Nodup
  acyclic : ∀ name ∈ execution.executedNodes, ¬ Relation.TransGen graph.Leads name name
  activated : graph.nodes.length ≤ depth → ∀ name, name ∈ execution.executedNodes ↔
    name ∈ starts ∨ execution.Reaches graph name

theorem Engine.run_once {graph : Graph} (sound : graph.Sound) (orderly : graph.Orderly)
    (engine : Engine) (input : Json) (entry : Entry) (world : World) :
    ∃ report, graph.check = .ok report ∧
      (engine.run graph input entry world).2.Once graph (entry.starts graph report)
        engine.limits.maxDepth := by
  obtain ⟨report, accepted⟩ := (Graph.consistent_iff_sound.mpr sound).accepted
  obtain ⟨wellFormed, rfl⟩ := Graph.check_eq_ok_iff.mp accepted
  have solitary := orderly.solitary wellFormed
  have initial := fun name (start : name ∈ entry.starts graph ⟨graph.triggers, graph.hasCycle⟩) =>
    orderly.start_initial wellFormed start
  obtain ⟨marks, mixed, executed, firings⟩ := engine.run_tells orderly accepted input entry world
  refine ⟨_, accepted, ?_, ?_, ?_⟩
  · rw [executed]
    exact Graph.tales_nodup mixed solitary initial sound (Graph.starts_nodup wellFormed.nodes entry)
  · intro name member
    rw [executed, Mark.mem_entered_iff] at member
    exact Graph.tales_acyclic mixed solitary initial member
  · intro enough name
    simp only [executed, Execution.Reaches, firings, Mark.mem_entered_iff, Mark.mem_fired_iff]
    exact ⟨Graph.tales_reached mixed, Graph.tales_complete mixed solitary initial
      (fun _ => Graph.node?_isSome_of_mem_starts) wellFormed.reaches enough⟩

/-- In a graph edited without loops and nested runs, every run activates a node once at
most, nothing on a cycle, and, if nodes enough may follow one another, just the nodes
at which it starts or to which fired outputs lead. -/
theorem Editor.session_runs_once (id : Uuid) (name : String) (limit : Nat)
    {commands : List Command} (plain : ∀ command ∈ commands, command.Plain) (ids : Ids)
    (engine : Engine) (input : Json) (entry : Entry) (world : World) :
    let graph := ((new ⟨id, name, [], []⟩ limit).session commands ids).1.graph
    let execution := (engine.run graph input entry world).2
    ∃ report, graph.check = .ok report ∧
      execution.executedNodes.Nodup ∧
      (∀ node ∈ execution.executedNodes, ¬ Relation.TransGen graph.Leads node node) ∧
      (graph.nodes.length ≤ engine.limits.maxDepth → ∀ node,
        node ∈ execution.executedNodes ↔
          node ∈ entry.starts graph report ∨ execution.Reaches graph node) := by
  obtain ⟨sound, orderly⟩ := neat_of_plain id name limit plain ids
  obtain ⟨report, accepted, once⟩ := Engine.run_once sound orderly engine input entry world
  exact ⟨report, accepted, once.distinct, once.acyclic, once.activated⟩

/-- A trigger that leads to a log and a counter behind it; and, apart from them, a counter
and a log that lead to each other. -/
def circling : List Command :=
  [ .add "manual-trigger" .origin, .add "counter" .origin, .add "log" .origin,
    .add "log" .origin, .add "counter" .origin,
    .connect (Uuid.name 2) (Uuid.name 4) (Uuid.name 5) (Uuid.name 6),
    .connect (Uuid.name 5) (Uuid.name 7) (Uuid.name 2) (Uuid.name 3),
    .connect (Uuid.name 0) (Uuid.name 1) (Uuid.name 8) (Uuid.name 9),
    .connect (Uuid.name 8) (Uuid.name 10) (Uuid.name 11) (Uuid.name 12),
    .undo, .redo, .add "no-such-template" .origin ]

def circlingGraph : Graph :=
  ((Editor.new ⟨.nil, "circling", [], []⟩ 5).session circling ⟨0⟩).1.graph

def circlingEngine : Engine :=
  ⟨[("log", fun _ input => ⟨3, .returned input⟩)], [], ⟨100, 8, 8⟩⟩

def circlingRun : Execution :=
  (circlingEngine.run circlingGraph .null .triggers (.new ⟨0, 0⟩ ⟨100⟩)).2

theorem session_of_circling_runs_once :
    (∀ command ∈ circling, command.Plain) ∧
    circlingGraph.connections.length = 4 ∧
    circlingRun.executedNodes = [Uuid.name 0, Uuid.name 8, Uuid.name 11] ∧
    circlingRun.executedNodes.Nodup ∧
    circlingRun.Reaches circlingGraph (Uuid.name 11) ∧
    ¬ circlingRun.Reaches circlingGraph (Uuid.name 2) := by
  have plain : ∀ command ∈ circling, command.Plain := by
    simp [circling, Command.Plain, bodyTemplates, forTemplate, whileTemplate, subflowTemplate]
  have once := Editor.session_runs_once .nil "circling" 5 plain ⟨0⟩ circlingEngine .null .triggers
    (.new ⟨0, 0⟩ ⟨100⟩)
  -- the names stand for what would be computed otherwise
  dsimp only at once
  rw [← circlingGraph, ← circlingRun] at once
  obtain ⟨report, accepted, distinct, _, activated⟩ := once
  obtain ⟨few, joined, triggers, executed⟩ :
      circlingGraph.nodes.length ≤ circlingEngine.limits.maxDepth ∧
      circlingGraph.connections.length = 4 ∧ circlingGraph.triggers = [Uuid.name 0] ∧
      circlingRun.executedNodes = [Uuid.name 0, Uuid.name 8, Uuid.name 11] := by
    decide +kernel
  obtain ⟨_, rfl⟩ := Graph.check_eq_ok_iff.mp accepted
  have reached := activated few
  rw [executed, Entry.starts, triggers] at reached
  refine ⟨plain, joined, executed, distinct, ?_, fun away => ?_⟩
  · exact ((reached _).mp (by decide)).resolve_left (by decide)
  · exact absurd ((reached _).mpr (.inr away)) (by decide)

end Workflow
