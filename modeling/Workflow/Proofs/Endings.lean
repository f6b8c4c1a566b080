import Mathlib.Data.List.Perm.Subperm
import Workflow.Proofs.Onward

/-! What a nested run ends on, and what its node makes of it.

A run ends on a node whenever nothing follows an activation of it.  The payloads are
collected under the ids of the nodes, so that of two for one node the later stays:
`Engine.nested_payload_keeps_iff` says that nothing else is lost, and nothing at all in
a run that activates no node twice.
-/

namespace Workflow

namespace Fields

variable {α : Type} {entries : List (String × α)}

theorem mem_keys_ofList {key : String} :
    key ∈ (Fields.ofList entries).keys ↔ key ∈ Fields.keys entries := by
  rw [Fields.mem_keys_iff, Fields.get?_ofList, ← Fields.mem_keys_iff]
  simp [Fields.keys]

/-- A map is as long as the list of its entries exactly if no key repeats. -/
theorem length_ofList_iff :
    (Fields.ofList entries).length = entries.length ↔ (Fields.keys entries).Nodup := by
  have ordered : (Fields.ofList entries).Ordered := Fields.Ordered.nil.merge entries
  have part : (Fields.ofList entries).keys.Subperm (Fields.keys entries) :=
    List.subperm_of_subset ordered.nodup fun _ => mem_keys_ofList.mp
  have size (fields : Fields α) : fields.keys.length = fields.length := List.length_map _
  constructor
  · intro same
    have perm := part.perm_of_length_le (Nat.le_of_eq (by rw [size, size, same]))
    exact perm.nodup_iff.mp ordered.nodup
  · intro distinct
    have whole : (Fields.keys entries).Subperm (Fields.ofList entries).keys :=
      List.subperm_of_subset distinct fun _ => mem_keys_ofList.mpr
    rw [← size, ← size entries]
    exact Nat.le_antisymm part.length_le whole.length_le

end Fields

namespace Run

/-- Whether a payload has all that a run ended on: it is the only one, or an object that has
each under the id of its node, and nothing else. -/
structure Keeps (terminal : List (String × Json)) (payload : Json) : Prop where
  alone : ∀ node only, terminal = [(node, only)] → payload = only
  several : terminal.length ≠ 1 → ∃ fields, payload = .object fields ∧
    fields.length = terminal.length ∧
    ∀ entry ∈ terminal, Fields.get? fields entry.1 = some entry.2

variable {terminal : List (String × Json)}

theorem terminalPayload_of_several (several : terminal.length ≠ 1) :
    terminalPayload terminal = .object (Fields.ofList terminal) := by
  unfold terminalPayload
  split
  · exact absurd rfl several
  · rfl

theorem terminalPayload_keeps_iff :
    Keeps terminal (terminalPayload terminal) ↔ (terminal.map (·.1)).Nodup := by
  by_cases several : terminal.length ≠ 1
  · rw [terminalPayload_of_several several]
    constructor
    · intro keeps
      obtain ⟨_, same, size, _⟩ := keeps.several several
      obtain rfl := Json.object.inj same
      exact Fields.length_ofList_iff.mp size
    · intro distinct
      refine ⟨fun node only same => absurd (same ▸ rfl) several, fun _ =>
        ⟨_, rfl, Fields.length_ofList_iff.mpr distinct, fun entry member => ?_⟩⟩
      rw [Fields.get?_ofList]
      refine Fields.get?_of_nodup ?_ (List.mem_reverse.mpr member)
      rw [Fields.keys, List.map_reverse]
      exact List.nodup_reverse.mpr distinct
  · obtain ⟨⟨node, payload⟩, rfl⟩ := List.length_eq_one_iff.mp (not_not.mp several)
    refine iff_of_true ⟨fun _ _ same => ?_, fun more => absurd rfl more⟩ (List.nodup_singleton _)
    exact (Prod.mk.inj (List.head_eq_of_cons_eq same)).2

end Run

/-- How a call comes out whose nested run has ended on the payloads of a tally. -/
structure Engine.Collects (engine : Engine) (depth : Nat) (node : Node) (definition : Subflow)
    (path : Path) (input : Json) (deeds : List Deed) (tally : Tally)
    (result : Except NodeError Outcome) : Prop where
  /-- The tally is the one that the nested run gives, with the payloads of all activations
  that nothing follows. -/
  nests : engine.Nests depth definition path input deeds tally
  invocation : engine.Invocation depth node definition input tally result
  kept : .record ⟨path, tally.execution⟩ ∈ deeds
  /-- The trace tells which activations these are: those that succeed and that no other is
  attempted behind. -/
  ended : ∃ ends : List (Path × String), tally.terminal.map (·.1) = ends.map (·.2) ∧
    ((Deed.told path deeds).filterMap Traced.succeeded?).Perm
      (ends ++ (Deed.told path deeds).filterMap Traced.onward?)
  activated : (tally.terminal.map (·.1)).Subperm tally.execution.executedNodes
  gives : tally.execution.status ≠ .failed →
    result = (Run.firedOutputs node definition (tally.terminal.map (·.1))).map fun ports =>
      ⟨ports, definition.outputMapping.apply (Run.terminalPayload tally.terminal)⟩
  last : tally.terminal.length ≠ 1 → ∃ fields, Run.terminalPayload tally.terminal = .object fields ∧
    ∀ name, Fields.get? fields name = Fields.get? tally.terminal.reverse name

/-- A node that stands for a definition passes on the payload that the nested run ended on, or
an object of those that it ended on.  Of several for one node it has the last, so that it
keeps all of them exactly if they are for different nodes; and so it does whenever no node
of the nested run is activated twice. -/
theorem Engine.nested_payload_keeps_iff (engine : Engine) {node : Node} {graph : Graph}
    {definition : Subflow} (composite : node.Composite)
    (known : Run.definitionOf engine graph node = .ok definition) (depth : Nat) (path : Path)
    (input : Json) :
    (Run.perform engine (Run.visit engine (engine.limits.maxDepth - (depth + 1))) graph path node
      input).Takes (Run.aside path node.id) fun deeds result => ∃ tally,
        engine.Collects (depth + 1) node definition path input deeds tally result ∧
        (Run.Keeps tally.terminal (Run.terminalPayload tally.terminal) ↔
          (tally.terminal.map (·.1)).Nodup) ∧
        (tally.execution.executedNodes.Nodup →
          Run.Keeps tally.terminal (Run.terminalPayload tally.terminal)) := by
  refine (Run.perform_nests composite known path input).mono fun {deeds result} taken => ?_
  obtain ⟨tally, nests, rfl⟩ := taken
  have ⟨id, whole⟩ := nests
  have activated := Course.wholeGraph_activates whole
  refine ⟨tally, ?_, Run.terminalPayload_keeps_iff, fun once => ?_⟩
  case refine_1 =>
    constructor
    case nests => exact nests
    case invocation => exact nests.invocation node
    case kept =>
      obtain ⟨_, rfl⟩ := nests.kept
      simp
    case ended => exact Course.wholeGraph_ends whole
    case activated => exact activated
    case gives =>
      intro succeeded
      rw [Run.nestedOutcome, if_neg succeeded]
      cases Run.firedOutputs node definition (tally.terminal.map (·.1)) <;> rfl
    case last =>
      exact fun several => ⟨_, Run.terminalPayload_of_several several, Fields.get?_ofList _⟩
  case refine_2 =>
    obtain ⟨names, perm, part⟩ := activated
    exact Run.terminalPayload_keeps_iff.mpr (perm.nodup_iff.mp (once.sublist part))

/-- A definition that notes each of the items that it is given. -/
def noting : Subflow where
  id := "noting"
  name := "noting"
  nodes :=
    [ ⟨"loop", forTemplate, .condition, "loop", [], [],
        [⟨"l-item", "item", .output, anyType, true⟩,
          ⟨"l-complete", "complete", .output, anyType, false⟩], .idle, .origin⟩,
      ⟨"body", "note", .data, "body", [], [⟨"b-in", "in", .input, anyType, true⟩], [],
        .idle, .origin⟩ ]
  connections := [⟨"wire", ⟨"loop", "l-item"⟩, ⟨"body", "b-in"⟩, anyType⟩]
  inputs := []
  outputs := []
  inputMapping := []
  outputMapping := []
  outputSources := []
  reusable := true

def notingEngine : Engine where
  registry := [("note", fun _ input => ⟨0, .returned input⟩)]
  library := [("noting", noting)]
  limits := ⟨100, 8, 8⟩

def notingCaller : Node :=
  ⟨"call", subflowTemplate, .action, "call", [("subflowId", .string "noting")], [],
    [⟨"c-out", "output", .output, anyType, false⟩], .idle, .origin⟩

def notingOuter : Graph :=
  ⟨.nil, "outer", [notingCaller], []⟩

def notingInput (items : List String) : Json :=
  .object [("items", Json.strings items)]

/-- A call of the definition, and what it leads to. -/
def notingCall (items : List String) : Activity RunState (Except NodeError Outcome) :=
  Run.perform notingEngine (Run.visit notingEngine (8 - (0 + 1))) notingOuter [.start 0]
    notingCaller (notingInput items)

def notingResult (items : List String) : RunState × Except NodeError Outcome :=
  (notingCall items).run (fun time state => (state.1.advance time, state.2))
    (.new ⟨0, 0⟩ ⟨9⟩, ⟨Execution.start .nil .nil ⟨0, 0⟩, []⟩)

/-- The definition in a run by itself. -/
def notingRun (items : List String) : Tally :=
  (notingEngine.runScoped (0 + 1) (noting.toGraph .nil)
    (noting.inputMapping.apply (notingInput items)) .triggersOrRoots (.new ⟨0, 0⟩ ⟨9⟩)).2

/-- The item that a payload was made for. -/
def notedItem (payload : Json) : Option String :=
  (payload.field? "item").bind Json.string?

/-- The item that the caller gives for the body of the loop. -/
def notingGives (items : List String) : Option String :=
  (notingResult items).2.toOption.bind fun outcome =>
    (outcome.payload.field? "body").bind notedItem

theorem call_of_noting_keeps :
    notingCaller.Composite ∧ Run.definitionOf notingEngine notingOuter notingCaller = .ok noting ∧
    (notingRun ["first"]).terminal.map (fun entry => (entry.1, notedItem entry.2)) =
      [("body", some "first"), ("loop", none)] ∧
    notingGives ["first"] = some "first" ∧
    ∃ deeds tally,
      World.Grows [.start 0] (.new ⟨0, 0⟩ ⟨9⟩) deeds (notingResult ["first"]).1.1 ∧
      notingEngine.Collects (0 + 1) notingCaller noting [.start 0] (notingInput ["first"]) deeds
        tally (notingResult ["first"]).2 ∧
      tally.terminal.Perm (notingRun ["first"]).terminal ∧
      Run.Keeps tally.terminal (Run.terminalPayload tally.terminal) := by
  have composite : notingCaller.Composite := ⟨.inl rfl, rfl⟩
  have known : Run.definitionOf notingEngine notingOuter notingCaller = .ok noting := rfl
  have collects : (notingCall ["first"]).Takes _ _ :=
    notingEngine.nested_payload_keeps_iff composite known 0 [.start 0] (notingInput ["first"])
  have timely (time : Nat) (state : RunState) :
      (Run.aside [.start 0] notingCaller.id).may state [] (state.1.advance time, state.2) :=
    ⟨.unseen rfl rfl rfl, [], by simp, by simp⟩
  obtain ⟨deeds, ⟨grows, _⟩, tally, collected, _, keeps⟩ :=
    collects.run timely (.new ⟨0, 0⟩ ⟨9⟩, ⟨Execution.start .nil .nil ⟨0, 0⟩, []⟩)
  rw [← notingResult] at grows collected
  have alone := collected.invocation.alone (by decide) .nil (.new ⟨0, 0⟩ ⟨9⟩)
  rw [← notingRun] at alone
  have once : (notingRun ["first"]).execution.executedNodes.Nodup := by decide +kernel
  exact ⟨composite, known, by decide +kernel, by decide +kernel, deeds, tally, grows, collected,
    alone.terminal, keeps (alone.executed.nodup_iff.mpr once)⟩

/-- With two items it ends on the body of its loop twice, and the first item is lost. -/
theorem call_of_noting_overwrites :
    (notingRun ["first", "second"]).terminal.map (fun entry => (entry.1, notedItem entry.2)) =
      [("body", some "first"), ("body", some "second"), ("loop", none)] ∧
    notingGives ["first", "second"] = some "second" ∧
    ¬ Run.Keeps (notingRun ["first", "second"]).terminal
      (Run.terminalPayload (notingRun ["first", "second"]).terminal) := by
  refine ⟨by decide +kernel, by decide +kernel, ?_⟩
  rw [Run.terminalPayload_keeps_iff]
  decide +kernel

end Workflow
