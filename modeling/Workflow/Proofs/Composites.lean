import Workflow.Proofs.NewNodes
import Workflow.Proofs.Onward

/-! Composite nodes contain failures.

A node that is made from a reusable definition has an output for everything that the
definition may give, and one for its failures.  So wherever it stands and whatever goes
wrong in the definition, the node itself does not fail: `Subflow.failures_contained`.
-/

namespace Workflow

theorem Except.mapM_eq_ok {ε α β : Type} {f : α → Except ε β} {g : α → β} {elements : List α}
    (each : ∀ element ∈ elements, f element = .ok (g element)) :
    elements.mapM f = .ok (elements.map g) := by
  induction elements with
  | nil => rfl
  | cons element rest ih =>
      have others := ih fun other member => each other (List.mem_cons_of_mem _ member)
      rw [List.mapM_cons, each element List.mem_cons_self, others]
      rfl

/-- A node that has all it needs to stand for a definition. -/
structure Subflow.BehindNode (definition : Subflow) (node : Node) : Prop where
  names : node.configText? "subflowId" = some definition.id
  failures : errorPort ∈ node.outputKeys
  declared : ∀ port ∈ definition.declaredOutputs, port.key ∈ node.outputKeys

namespace Subflow

variable {definition : Subflow}

theorem copiesFor_keys (direction : Direction) (ports : List Port) (ids : Ids) :
    (copiesFor direction ports ids).1.map (·.key) = ports.map (·.key) := by
  have key (port : Port) (ids : Ids) :
      ((do
        let copy ← port.freshCopy
        return { copy with direction } : Fresh Port) ids).1.key = port.key :=
    port.freshCopy_key ids
  exact Node.keys_mapM key ports ids

theorem mem_declaredOutputs {port : Port} :
    port ∈ definition.declaredOutputs ↔ port ∈ definition.outputs ∧ port.key ≠ errorPort := by
  simp [declaredOutputs]

/-- The outputs of the template, or the declared ones and that for failures. -/
theorem instantiate_outputKeys (definition : Subflow) (position : Position) (ids : Ids) :
    (definition.instantiate position ids).1.outputKeys =
      if definition.outputs.isEmpty then
        (Node.ofTemplate Catalog.subflow position ids).1.outputKeys
      else definition.declaredOutputs.map (·.key) ++ [errorPort] := by
  have failures : errorPort ∈ (Node.ofTemplate Catalog.subflow position ids).1.outputKeys :=
    Node.ofTemplate_outputKeys _ _ _ (by decide)
  obtain ⟨port, found⟩ :=
    Option.isSome_iff_exists.mp ((Node.output?_isSome_iff _ _).mpr failures)
  have named : port.key = errorPort := by simpa using List.find?_some found
  rw [instantiate_eq]
  by_cases outputless : definition.outputs.isEmpty
  · simp only [outputless, if_true]
    rfl
  · simp only [outputless, Bool.false_eq_true, if_false, Node.outputKeys, List.map_append,
      copiesFor_keys, found, Option.toList_some, List.map_cons, List.map_nil, named]

theorem instantiate_behindNode (definition : Subflow) (position : Position) (ids : Ids) :
    definition.BehindNode (definition.instantiate position ids).1 := by
  have failures : errorPort ∈ (Node.ofTemplate Catalog.subflow position ids).1.outputKeys :=
    Node.ofTemplate_outputKeys _ _ _ (by decide)
  refine ⟨?_, ?_, fun port member => ?_⟩
  · rw [instantiate_eq]
    simp [Node.configText?, Json.string?]
  · rw [instantiate_outputKeys]
    split
    · exact failures
    · simp
  · have declared : ¬ definition.outputs.isEmpty := by
      intro none
      simp [declaredOutputs, List.isEmpty_iff.mp none] at member
    rw [instantiate_outputKeys, if_neg declared]
    exact List.mem_append_left _ (List.mem_map_of_mem member)

namespace BehindNode

variable {node : Node} (behind : definition.BehindNode node)

include behind

/-- A reusable definition that is registered is found. -/
theorem definitionOf_eq {engine : Engine} (named : definition.id ≠ "")
    (reusable : definition.reusable)
    (registered : Fields.get? engine.library definition.id = some definition) (graph : Graph) :
    Run.definitionOf engine graph node = .ok definition := by
  unfold Run.definitionOf
  simp [behind.names, named, registered, reusable]

/-- A run that has not failed fires outputs that the node has, and never the one for
failures. -/
theorem firedOutputs_eq_ok (reached : List String) :
    ∃ keys, Run.firedOutputs node definition reached = .ok keys ∧
      errorPort ∉ keys ∧ ∀ key ∈ keys, key ∈ node.outputKeys := by
  unfold Run.firedOutputs
  split
  · exact ⟨_, rfl, by simp, fun key member => (List.mem_filter.mp member).1⟩
  · dsimp only
    generalize chosen : definition.declaredOutputs.filter _ = fired
    have declared : ∀ port ∈ fired, port ∈ definition.declaredOutputs := by
      intro port member
      rw [← chosen] at member
      exact (List.mem_filter.mp member).1
    refine ⟨fired.map (·.key), ?_, ?_, ?_⟩
    · refine Except.mapM_eq_ok fun port member => ?_
      rw [if_pos ((Node.output?_isSome_iff _ _).mpr (behind.declared port (declared port member)))]
    · intro member
      obtain ⟨port, inside, same⟩ := List.mem_map.mp member
      exact (mem_declaredOutputs.mp (declared port inside)).2 same
    · intro key member
      obtain ⟨port, inside, rfl⟩ := List.mem_map.mp member
      exact behind.declared port (declared port inside)

/-- The node gives what the definition gives, and its failures in place of failing. -/
theorem nestedOutcome_eq_ok (input : Json) (tally : Tally) :
    ∃ outcome, Run.nestedOutcome node definition input tally = .ok outcome ∧
      (outcome.ports = [errorPort] ↔ tally.execution.status = .failed) ∧
      ∀ key ∈ outcome.ports, (node.output? key).isSome := by
  have port := (Node.output?_isSome_iff node errorPort).mpr behind.failures
  unfold Run.nestedOutcome
  by_cases failed : tally.execution.status = .failed
  · simp only [failed, if_true, port]
    exact ⟨_, rfl, by simp, fun key member => List.mem_singleton.mp member ▸ port⟩
  · obtain ⟨keys, fired, apart, known⟩ :=
      behind.firedOutputs_eq_ok (tally.terminal.map (·.1))
    simp only [failed, if_false, fired]
    refine ⟨_, rfl, iff_of_false (fun same => ?_) not_false, fun key member =>
      (Node.output?_isSome_iff node key).mpr (known key member)⟩
    exact apart (by simp [show keys = [errorPort] from same])

end BehindNode

end Subflow

/-- A run has failed if and only if one of its own deeds is a failure. -/
theorem Tally.Tells.failed_iff {own : List Deed} {tally : Tally} (tells : tally.Tells own) :
    tally.execution.status = .failed ↔ ∃ deed ∈ own, deed.failure?.isSome := by
  have listed : tally.execution.errors = [] ↔ own.filterMap Deed.failure? = [] := by
    rw [← tells.failures, Execution.failures, List.map_eq_nil_iff]
  have either : tally.execution.status = .failed ↔ tally.execution.errors ≠ [] := by
    rw [tells.status]
    cases tally.execution.errors <;> simp
  rw [either, ne_eq, listed, List.filterMap_eq_nil_iff]
  simp [Option.isSome_iff_ne_none]

namespace Course

variable {engine : Engine} {path : Path} {graph : Graph} {input : Json} {entry : Entry}
  {deeds : List Deed}

/-- A graph that does not pass its check fails. -/
theorem attempt_rejects {visit : Visit} {error : GraphError} (rejected : graph.check = .error error)
    (taken : attempt visit path graph input entry deeds ()) :
    ∃ deed ∈ Deed.of path deeds, deed.failure?.isSome := by
  unfold attempt at taken
  rw [rejected] at taken
  obtain rfl := taken
  exact ⟨.rejection path error.message, by simp [Deed.of, Deed.run], rfl⟩

/-- A run for which no depth is left fails, if it starts anywhere. -/
theorem attempt_refuses {report : Graph.Report} (accepted : graph.check = .ok report)
    (begins : entry.starts graph report ≠ [])
    (taken : attempt (visit engine 0) path graph input entry deeds ()) :
    ∃ deed ∈ Deed.of path deeds, deed.failure?.isSome := by
  unfold attempt at taken
  rw [accepted] at taken
  obtain ⟨results, taken, _⟩ := (Courses.map_iff _ _ _ _).mp taken
  obtain ⟨name, rest, starts⟩ := List.exists_cons_of_ne_nil begins
  rw [starts, List.mapIdx_cons] at taken
  obtain ⟨own, others, _, _, mixed, goes, _⟩ := taken
  obtain ⟨run, message, rfl⟩ := visit_zero goes
  refine ⟨.event ⟨path ++ [.start 0], .nodeFailed run name message⟩, ?_, rfl⟩
  refine List.mem_filter.mpr ⟨mixed.mem_iff.mpr (.inl (by simp)), ?_⟩
  simp [Deed.run, Traced.run]

section Whole

variable {visit : Visit} {tally : Tally}

/-- Neither its beginning nor its end nor its record is a failure of a run. -/
theorem wholeGraph_failed_iff (taken : wholeGraph visit path graph input entry deeds tally) :
    tally.execution.status = .failed ↔ ∃ deed ∈ Deed.of path deeds, deed.failure?.isSome := by
  obtain ⟨attempted, _, tells, rfl⟩ := taken
  rw [tells.failed_iff]
  constructor
  · rintro ⟨deed, own, failure⟩
    obtain ⟨inside, here⟩ := List.mem_filter.mp own
    exact ⟨deed, List.mem_filter.mpr ⟨by simp [inside], here⟩, failure⟩
  · rintro ⟨deed, own, failure⟩
    obtain ⟨inside, here⟩ := List.mem_filter.mp own
    simp only [List.cons_append, List.mem_cons, List.mem_append, List.not_mem_nil, or_false]
      at inside
    rcases inside with rfl | inside | rfl | rfl
    · contradiction
    · exact ⟨deed, List.mem_filter.mpr ⟨inside, here⟩, failure⟩
    · contradiction
    · contradiction

theorem wholeGraph_rejects {error : GraphError} (rejected : graph.check = .error error)
    (taken : wholeGraph visit path graph input entry deeds tally) :
    tally.execution.status = .failed := by
  obtain ⟨attempted, attempt, tells, _⟩ := taken
  exact tells.failed_iff.mpr (attempt_rejects rejected attempt)

theorem wholeGraph_refuses {report : Graph.Report} (accepted : graph.check = .ok report)
    (begins : entry.starts graph report ≠ [])
    (taken : wholeGraph (Course.visit engine 0) path graph input entry deeds tally) :
    tally.execution.status = .failed := by
  obtain ⟨attempted, attempt, tells, _⟩ := taken
  exact tells.failed_iff.mpr (attempt_refuses accepted begins attempt)

/-- A run has failed if its graph does not pass the check, or if a failure of a node is told
in it. -/
theorem wholeGraph_failed_told {left : Nat}
    (taken : wholeGraph (Course.visit engine left) path graph input entry deeds tally) :
    tally.execution.status = .failed ↔ (∃ error, graph.check = .error error) ∨
      ∃ traced ∈ Deed.told path deeds, traced.event.failed?.isSome := by
  constructor
  · intro failed
    obtain ⟨deed, own, failure⟩ := (wholeGraph_failed_iff taken).mp failed
    obtain ⟨inside, here⟩ := List.mem_filter.mp own
    cases deed with
    | call | ending | record => contradiction
    | event traced =>
        refine .inr ⟨traced, List.mem_filter.mpr ⟨Deed.mem_event_iff.mpr inside, here⟩, ?_⟩
        obtain ⟨_, event⟩ := traced
        cases event with
        | nodeFailed => rfl
        | _ => contradiction
    | rejection place message =>
        obtain ⟨attempted, attempt, _, rfl⟩ := taken
        cases checked : graph.check with
        | error error => exact .inl ⟨error, rfl⟩
        | ok report =>
            have rejected : .rejection place message ∈ attempted := by simpa using inside
            exact absurd (of_decide_eq_true here)
              (attempt_beyond (visit_leads engine left) checked attempt _ rejected)
  · rintro (⟨error, rejected⟩ | ⟨⟨place, event⟩, told, failure⟩)
    · exact wholeGraph_rejects rejected taken
    · obtain ⟨inside, here⟩ := List.mem_filter.mp told
      refine (wholeGraph_failed_iff taken).mpr ⟨.event ⟨place, event⟩,
        List.mem_filter.mpr ⟨Deed.mem_event_iff.mp inside, here⟩, ?_⟩
      cases event with
      | nodeFailed => rfl
      | _ => contradiction

end Whole

end Course

/-- How a call comes out whose failures the node contains.  The nested run has failed
where anything in it fails, where its body does not pass the check, and where there is no
depth left for its starts; and it fails in no other way. -/
structure Engine.Contained (engine : Engine) (depth : Nat) (node : Node) (definition : Subflow)
    (path : Path) (input : Json) (deeds : List Deed) (outcome : Outcome) (tally : Tally) :
    Prop where
  nests : engine.Nests depth definition path input deeds tally
  kept : .record ⟨path, tally.execution⟩ ∈ deeds
  routed : outcome.ports = [errorPort] ↔ tally.execution.status = .failed
  known : ∀ key ∈ outcome.ports, (node.output? key).isSome
  failed : tally.execution.status = .failed ↔ ∃ deed ∈ Deed.of path deeds, deed.failure?.isSome
  told : tally.execution.status = .failed ↔
    (∃ id error, (definition.toGraph id).check = .error error) ∨
      ∃ traced ∈ Deed.told path deeds, traced.event.failed?.isSome
  rejected : ∀ id error, (definition.toGraph id).check = .error error →
    tally.execution.status = .failed
  refused : engine.limits.maxDepth ≤ depth → ∀ id report,
    (definition.toGraph id).check = .ok report →
      Entry.triggersOrRoots.starts (definition.toGraph id) report ≠ [] →
        tally.execution.status = .failed

/-- A composite node contains all failures of the definition that it was made from.
Wherever it stands and whatever goes on around it, its work ends in a result; the result
is for the output of failures if and only if the nested run has failed; and the node has
all outputs that it fires. -/
theorem Subflow.failures_contained {engine : Engine} {definition : Subflow}
    (named : definition.id ≠ "") (reusable : definition.reusable)
    (registered : Fields.get? engine.library definition.id = some definition)
    (position : Position) (ids : Ids) (depth : Nat) (graph : Graph) (path : Path) (input : Json) :
    (Run.callSubflow engine (Run.visit engine (engine.limits.maxDepth - (depth + 1))) graph path
      (definition.instantiate position ids).1 input).Takes
        (Run.aside path (definition.instantiate position ids).1.id) fun deeds result =>
          ∃ outcome tally, result = .ok outcome ∧
            engine.Contained (depth + 1) (definition.instantiate position ids).1 definition path
              input deeds outcome tally := by
  have behind := definition.instantiate_behindNode position ids
  generalize (definition.instantiate position ids).1 = node at behind
  have known := behind.definitionOf_eq named reusable registered graph
  refine (Run.callSubflow_nests known path input).mono fun {deeds result} taken => ?_
  obtain ⟨tally, nests, rfl⟩ := taken
  obtain ⟨outcome, same, routed, known⟩ := behind.nestedOutcome_eq_ok input tally
  refine ⟨outcome, tally, same, ?_⟩
  have ⟨id, nested⟩ := nests
  have alike (other : Uuid) : (definition.toGraph id).check = (definition.toGraph other).check :=
    Graph.check_withId (definition.toGraph other) id
  constructor
  case nests => exact nests
  case kept =>
    obtain ⟨_, rfl⟩ := nests.kept
    simp
  case routed => exact routed
  case known => exact known
  case failed => exact Course.wholeGraph_failed_iff nested
  case told =>
    rw [Course.wholeGraph_failed_told nested]
    refine or_congr_left ⟨fun ⟨error, rejected⟩ => ⟨id, error, rejected⟩, ?_⟩
    rintro ⟨other, error, rejected⟩
    exact ⟨error, (alike other).trans rejected⟩
  case rejected =>
    intro other error rejected
    exact Course.wholeGraph_rejects ((alike other).trans rejected) nested
  case refused =>
    intro deep other report accepted begins
    rw [Nat.sub_eq_zero_of_le deep] at nested
    exact Course.wholeGraph_refuses ((alike other).trans accepted) begins nested

/-- A definition that panics, with an output declared twice and one for failures. -/
def fragile : Subflow :=
  let port (id key : String) : Port := ⟨id, key, .output, anyType, false⟩
  { panicking with
    id := "fragile"
    outputs := [port "first" "result", port "second" "result", port "third" errorPort] }

def fragileEngine : Engine where
  registry := [("broken", fun _ _ => ⟨5, .panicked⟩)]
  library := [("fragile", fragile)]
  limits := ⟨100, 8, 8⟩

/-- A call of the definition from a node that was made from it. -/
def fragileCall : Activity RunState (Except NodeError Outcome) :=
  Run.callSubflow fragileEngine (Run.visit fragileEngine (8 - (2 + 1))) doubled [.start 0]
    (fragile.instantiate .origin ⟨0⟩).1 .null

def fragileResult : RunState × Except NodeError Outcome :=
  fragileCall.run (fun time state => (state.1.advance time, state.2))
    (.new ⟨0, 0⟩ ⟨9⟩, ⟨Execution.start .nil .nil ⟨0, 0⟩, []⟩)

theorem call_of_fragile_contained :
    fragile.id ≠ "" ∧ fragile.reusable ∧
    Fields.get? fragileEngine.library fragile.id = some fragile ∧
    (fragile.instantiate .origin ⟨0⟩).1.outputKeys = ["result", "result", errorPort] ∧
    ∃ outcome tally deeds,
      World.Grows [.start 0] (.new ⟨0, 0⟩ ⟨9⟩) deeds fragileResult.1.1 ∧
      fragileResult.2 = .ok outcome ∧ outcome.ports = [errorPort] ∧
      fragileEngine.Contained (2 + 1) (fragile.instantiate .origin ⟨0⟩).1 fragile [.start 0] .null
        deeds outcome tally := by
  have contained : fragileCall.Takes _ _ := Subflow.failures_contained (by decide) rfl rfl
    .origin ⟨0⟩ 2 doubled [.start 0] .null
  have timely (time : Nat) (state : RunState) :
      (Run.aside [.start 0] (fragile.instantiate .origin ⟨0⟩).1.id).may state []
        (state.1.advance time, state.2) :=
    ⟨.unseen rfl rfl rfl, [], by simp, by simp⟩
  obtain ⟨deeds, ⟨grows, _⟩, outcome, tally, same, contained⟩ :=
    contained.run timely (.new ⟨0, 0⟩ ⟨9⟩, ⟨Execution.start .nil .nil ⟨0, 0⟩, []⟩)
  rw [← fragileResult] at grows same
  have ports : fragileResult.2.toOption.map (·.ports) = some [errorPort] := by decide +kernel
  rw [same] at ports
  exact ⟨by decide, rfl, rfl, by decide +kernel, outcome, tally, deeds, grows, same,
    Option.some.inj ports, contained⟩

end Workflow
