import Workflow.Proofs.Depth
import Workflow.Proofs.Missing
import Workflow.Proofs.Refusals
import Workflow.Proofs.Statuses

/-! What a finished record says of its nodes.

Its entries are of the nodes that were executed and of those that were refused for their
depth, all of them nodes of the graph that was run.  None says that a node is still at
work.  The status of a node is how its work ended last, as the events tell it:
`Engine.run_concludes`.
-/

namespace Workflow

theorem Event.node?_of_outcome? {event : Event} {node : String} {status : Status}
    (told : event.outcome? node = some status) : event.node? = some node := by
  cases event with
  | nodeSucceeded | nodeFailed => exact congrArg some (Option.ite_none_right_eq_some.mp told).1
  | _ => contradiction

/-- What is told of a node belongs to the run that the node is activated in. -/
theorem Traced.run_of_node? {path : Path} {event : Event} {node : String}
    (named : event.node? = some node) : Traced.run ⟨path, event⟩ = Path.run path := by
  cases event with
  | runStarted | runFinished => contradiction
  | _ => rfl

namespace Story

variable {limit : Nat} {path : Path} {told : List Traced} (story : Story limit path told)
  (activation : path ≠ [])

include story activation

/-- Where the work of a node is told to end, it was told to start, or was refused. -/
theorem of_outcome {event : Event} (member : ⟨path, event⟩ ∈ told) {node : String}
    {status : Status} (ends : event.outcome? node = some status) :
    (∃ first, ⟨path, .nodeStarted first node⟩ ∈ told) ∨
      ∃ run, told = [⟨path, .nodeFailed run node (NodeError.depthExceeded limit).message⟩] := by
  have named := Event.node?_of_outcome? ends
  cases story with
  | untold => contradiction
  | refused =>
      obtain ⟨_, rfl⟩ := Traced.mk.inj (List.mem_singleton.mp member)
      obtain rfl := Option.some.inj named
      exact .inr ⟨_, rfl⟩
  | @told first last other nested ending inside ended =>
      have ending_named : ending.node? = some other := by
        rcases ended with rfl | ⟨_, rfl⟩ <;> rfl
      refine .inl ⟨first, Traced.mem_bracket.mpr (.inl ?_)⟩
      rcases Traced.mem_bracket.mp member with same | within | same
      · obtain ⟨_, rfl⟩ := Traced.mk.inj same
        contradiction
      · -- the run nested here is another than the one that the node is of
        exact absurd ((inside _ within).symm.trans (Traced.run_of_node? named))
          (Path.run_ne_of_isPrefix activation List.prefix_rfl)
      · obtain ⟨_, rfl⟩ := Traced.mk.inj same
        rw [Option.some.inj (named.symm.trans ending_named)]

/-- What starts is told to end. -/
theorem outcome_of_started {first : Uuid} {node : String}
    (member : ⟨path, .nodeStarted first node⟩ ∈ told) :
    ∃ event status, ⟨path, event⟩ ∈ told ∧ event.outcome? node = some status := by
  cases story with
  | untold => contradiction
  | refused => simp at member
  | @told begun last other nested ending inside ended =>
      rcases Traced.mem_bracket.mp member with same | within | same
      · obtain ⟨_, rfl⟩ := Event.nodeStarted.inj (Traced.mk.inj same).2
        have closes :
            ⟨path, ending⟩ ∈ Traced.bracket path (.nodeStarted begun node) nested ending :=
          Traced.mem_bracket.mpr (.inr (.inr rfl))
        rcases ended with rfl | ⟨message, rfl⟩
        · exact ⟨_, .success, closes, if_pos rfl⟩
        · exact ⟨_, .error, closes, if_pos rfl⟩
      · exact absurd (inside _ within).symm (Path.run_ne_of_isPrefix activation List.prefix_rfl)
      · rcases ended with rfl | ⟨_, rfl⟩ <;> simp at same

end Story

/-- What the record of a run says of its nodes, borne out by what the run left behind. -/
structure Engine.Concludes (engine : Engine) (outer : Graph) (entry : Entry) (trace : List Traced)
    (calls : List Call) (finished : List Finished) (record : Finished) : Prop where
  ordered : Fields.Ordered record.execution.nodeStates
  /-- No node is left at work. -/
  settled : ∀ state ∈ record.execution.nodeStates, state.2 = .success ∨ state.2 = .error
  /-- There are entries for what was executed and for what was refused. -/
  keys : ∀ node, node ∈ Fields.keys record.execution.nodeStates ↔
    node ∈ record.execution.executedNodes ∨
      ∃ path, Path.run path = record.path ∧ engine.Refused trace calls finished path node
  /-- Every entry is for a node of the graph that was run. -/
  known : ∀ node ∈ Fields.keys record.execution.nodeStates,
    (∃ graph, engine.Scope outer entry record.path graph) ∧
      ∀ graph, engine.Scope outer entry record.path graph → (graph.node? node).isSome
  /-- The status of a node is its last outcome: an error exactly where, of its activations and
  refusals, the last to be over failed or was refused. -/
  last : ∀ node, Fields.get? record.execution.nodeStates node =
    ((trace.filter fun traced => traced.run = record.path).filterMap
      (·.event.outcome? node)).getLast?

namespace Engine

section Whole

variable {engine : Engine} {outer : Graph} {entry : Entry} {input : Json} {deeds : List Deed}
  {tally : Tally}
  (whole : Course.wholeGraph (Course.visit engine engine.limits.maxDepth) [] outer input entry
    deeds tally)

include whole

theorem whole_accounted : ∃ area : Path → Prop,
    Account (fun _ => False) area (Elsewhere [] (Story engine.limits.maxDepth))
      (deeds.filterMap Deed.event?) (deeds.filterMap Deed.finished?) :=
  ⟨_, (wholeGraph_accounted (visit_accounted engine engine.limits.maxDepth) whole).1⟩

/-- Where only the refusal of an activation is told, nothing else was done. -/
theorem refused_of_alone {path : Path} {run : Uuid} {node : String}
    (alone : (deeds.filterMap Deed.event?).filter (·.concerns path) =
      [⟨path, .nodeFailed run node (NodeError.depthExceeded engine.limits.maxDepth).message⟩]) :
    engine.Refused (deeds.filterMap Deed.event?) (deeds.filterMap Deed.call?)
      (deeds.filterMap Deed.finished?) path node := by
  obtain ⟨area, account⟩ := whole_accounted whole
  have concerned := List.mem_singleton_self
    (⟨path, .nodeFailed run node (NodeError.depthExceeded engine.limits.maxDepth).message⟩ : Traced)
  rw [← alone] at concerned
  have told := Deed.mem_event_iff.mp (List.mem_filter.mp concerned).1
  obtain ⟨depth, graph, reaches⟩ := reaches_of_event whole told rfl
  have part : engine.Part outer entry path (Deed.below path deeds) :=
    run_parts whole told reaches.path_ne_nil List.prefix_rfl
  obtain ⟨_, _, deep⟩ := part.reaches_of_refusal (Deed.mem_below_iff.mpr ⟨told, List.prefix_rfl⟩)
  have length := deep.length_path
  obtain ⟨_, name, _, refused⟩ :=
    Placed.refused_of_deep (run_placed whole) (by omega) told account.isBracketed
  obtain ⟨record, _, _, only⟩ := refused.alone
  have below : ∀ event, ⟨path, event⟩ ∈ deeds.filterMap Deed.event? → ⟨path, event⟩ ∈
      (deeds.filterMap Deed.event?).filter fun traced => path <+: traced.path :=
    fun event inside => List.mem_filter.mpr ⟨inside, by simp⟩
  have itself := below _ (List.mem_filter.mp concerned).1
  rw [only] at itself
  obtain ⟨_, same, _⟩ := Event.nodeFailed.inj (Traced.mk.inj (List.mem_singleton.mp itself)).2
  exact same ▸ refused

section Record

variable {record : Finished} (kept : .record record ∈ deeds)

include kept

theorem recounted : record.Recounted
    ((deeds.filterMap Deed.event?).filter fun traced => traced.run = record.path) := by
  obtain ⟨area, account⟩ := whole_accounted whole
  exact (account.records record (Deed.mem_finished_iff.mpr kept)).2

/-- In a run, the nodes that are told to end are those that were executed or refused. -/
theorem outcome_iff {node : String} :
    (∃ traced ∈ deeds.filterMap Deed.event?, traced.run = record.path ∧
      ∃ status, traced.event.outcome? node = some status) ↔
    node ∈ record.execution.executedNodes ∨
      ∃ path, Path.run path = record.path ∧
        engine.Refused (deeds.filterMap Deed.event?) (deeds.filterMap Deed.call?)
          (deeds.filterMap Deed.finished?) path node := by
  obtain ⟨area, account⟩ := whole_accounted whole
  have stories := account.isBracketed.stories
  have inside {path : Path} {event : Event} (told : ⟨path, event⟩ ∈ deeds.filterMap Deed.event?)
      {node : String} (named : event.node? = some node) : path ≠ [] := by
    obtain ⟨depth, graph, reaches⟩ := reaches_of_event whole (Deed.mem_event_iff.mp told) named
    exact reaches.path_ne_nil
  have concerned {path : Path} {event : Event}
      (told : ⟨path, event⟩ ∈ deeds.filterMap Deed.event?) :
      ⟨path, event⟩ ∈ (deeds.filterMap Deed.event?).filter (·.concerns path) :=
    List.mem_filter.mpr ⟨told, Traced.concerns_iff.mpr (.inl rfl)⟩
  rw [← (recounted whole kept).started]
  constructor
  · rintro ⟨⟨path, event⟩, told, own, status, ends⟩
    have named := Event.node?_of_outcome? ends
    have belongs := (Traced.run_of_node? named).symm.trans own
    have activation := inside told named
    rcases (stories path activation).of_outcome activation (concerned told) ends with
      ⟨first, starts⟩ | ⟨run, alone⟩
    · refine .inl (List.mem_filterMap.mpr ⟨_, List.mem_filter.mpr ⟨(List.mem_filter.mp starts).1,
        ?_⟩, rfl⟩)
      exact decide_eq_true belongs
    · exact .inr ⟨path, belongs, refused_of_alone whole alone⟩
  · rintro (executed | ⟨path, belongs, refused⟩)
    · obtain ⟨⟨path, event⟩, own, started⟩ := List.mem_filterMap.mp executed
      obtain ⟨told, own⟩ := List.mem_filter.mp own
      obtain ⟨run, rfl⟩ : ∃ run, event = .nodeStarted run node := by
        cases event <;> simp_all [Event.started?]
      have activation := inside told rfl
      obtain ⟨ending, status, ended, ends⟩ :=
        (stories path activation).outcome_of_started activation (concerned told)
      have belongs : Path.run path = record.path := of_decide_eq_true own
      have named := Event.node?_of_outcome? ends
      exact ⟨_, (List.mem_filter.mp ended).1, (Traced.run_of_node? named).trans belongs, status,
        ends⟩
    · obtain ⟨other, _, _, alone⟩ := refused.alone
      have told := List.mem_of_mem_filter (alone ▸ List.mem_singleton_self _)
      exact ⟨_, told, belongs, .error, if_pos rfl⟩

theorem concludes (settled : record.execution.Settled) :
    engine.Concludes outer entry (deeds.filterMap Deed.event?) (deeds.filterMap Deed.call?)
      (deeds.filterMap Deed.finished?) record := by
  have last (node : String) : Fields.get? record.execution.nodeStates node =
      (((deeds.filterMap Deed.event?).filter fun traced => traced.run = record.path).filterMap
        (·.event.outcome? node)).getLast? := by
    refine ((recounted whole kept).states node).resolve_left ?_
    rintro ⟨status, found, working⟩
    exact absurd (settled.settled node status found) (by simp [working])
  have entered {node : String} : node ∈ Fields.keys record.execution.nodeStates ↔
      ∃ traced ∈ deeds.filterMap Deed.event?, traced.run = record.path ∧
        ∃ status, traced.event.outcome? node = some status := by
    rw [Fields.mem_keys_iff, last, List.getLast?_isSome]
    constructor
    · intro given
      obtain ⟨status, listed⟩ := List.exists_mem_of_ne_nil _ given
      obtain ⟨traced, own, ends⟩ := List.mem_filterMap.mp listed
      obtain ⟨told, own⟩ := List.mem_filter.mp own
      exact ⟨traced, told, of_decide_eq_true own, status, ends⟩
    · rintro ⟨traced, told, own, status, ends⟩
      have inside : traced ∈ (deeds.filterMap Deed.event?).filter fun traced =>
          traced.run = record.path := List.mem_filter.mpr ⟨told, decide_eq_true own⟩
      exact List.ne_nil_of_mem (List.mem_filterMap.mpr ⟨traced, inside, ends⟩)
  refine ⟨settled.ordered, ?_, fun node => entered.trans (outcome_iff whole kept), ?_, last⟩
  · intro state member
    have outcome := settled.settled _ _ (settled.ordered.get?_of_mem member)
    obtain ⟨node, status⟩ := state
    cases status <;> simp_all [Status.settled]
  · intro node member
    obtain ⟨⟨path, event⟩, told, own, status, ends⟩ := entered.mp member
    have named := Event.node?_of_outcome? ends
    have belongs := (Traced.run_of_node? named).symm.trans own
    obtain ⟨depth, graph, reaches⟩ := reaches_of_event whole (Deed.mem_event_iff.mp told) named
    have scope := belongs ▸ reaches.scope
    refine ⟨⟨graph, scope⟩, fun twin also => ?_⟩
    rw [scope.unique also]
    exact reaches.known.2

end Record

end Whole

/-- No node is left at work in a finished record.  The record of every run, the nested ones
included, has an entry for each node that was executed or refused in it, which is the last
outcome of the node, and no others; and all are nodes of the graph, for what would be done
without the node of an activation makes no difference to any run. -/
theorem run_concludes (engine : Engine) (graph : Graph) (input : Json) (entry : Entry)
    (world : World) :
    (∀ missing, Run.wholeGraph (Run.visitElse missing engine engine.limits.maxDepth) [] graph input
      entry = engine.activity graph input entry) ∧
    ∃ trace calls finished,
      (engine.run graph input entry world).1.trace = world.trace ++ trace ∧
      (engine.run graph input entry world).1.calls = world.calls ++ calls ∧
      (engine.run graph input entry world).1.finished = world.finished ++ finished ∧
      ⟨[], (engine.run graph input entry world).2⟩ ∈ finished ∧
      ∀ record ∈ finished, engine.Concludes graph entry trace calls finished record := by
  refine ⟨fun missing => Run.wholeGraph_visitElse missing engine _ [] graph input entry, ?_⟩
  obtain ⟨deeds, tally, whole, grows, same⟩ := engine.run_takes graph input entry world
  obtain ⟨finished, appended, settled⟩ := engine.run_settles graph input entry world
  obtain rfl : deeds.filterMap Deed.finished? = finished :=
    List.append_cancel_left (grows.finished.symm.trans appended)
  refine ⟨_, _, _, grows.trace, grows.calls, grows.finished, ?_, fun record member => ?_⟩
  · obtain ⟨attempted, _, _, rfl⟩ := whole
    rw [same, Deed.mem_finished_iff]
    simp
  · exact concludes whole (Deed.mem_finished_iff.mp member) (settled record member)

end Engine

/-- The node in the circle succeeded three times before it was refused. -/
theorem run_of_winding_concludes :
    let record : Finished :=
      ⟨[], (windingEngine.run winding .null .triggers (.new ⟨0, 0⟩ ⟨0⟩)).2⟩
    record.execution.executedNodes = ["start", "circle", "nested", "circle", "circle"] ∧
    record.execution.nodeStates =
      [("circle", .error), ("nested", .error), ("start", .success)] ∧
    ∃ trace calls finished, record ∈ finished ∧
      windingEngine.Concludes winding .triggers trace calls finished record := by
  intro record
  obtain ⟨_, trace, calls, finished, _, _, _, kept, concludes⟩ :=
    windingEngine.run_concludes winding .null .triggers (.new ⟨0, 0⟩ ⟨0⟩)
  refine ⟨?_, ?_, trace, calls, finished, kept, concludes record kept⟩
  · decide +kernel
  · decide +kernel

end Workflow
