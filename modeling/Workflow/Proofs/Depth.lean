import Mathlib.Logic.Function.Iterate
import Workflow.Proofs.Places

/-! The limit of depth bounds every run.

Graphs may have cycles and definitions may contain themselves, and still a run is over
after finitely many turns.  Activations are executed only where they are less deep than
the limit; an attempt just at the limit is refused, and a refusal is one failure and
nothing else: `Engine.run_within_depth`.
-/

namespace Workflow

namespace Resumption

variable {σ α : Type} (advance : Nat → σ → σ)

/-- Gives one turn, if anything is left to do.  `advance` tells the state that a sleeper
is due. -/
def turn : σ × Resumption σ α → σ × Resumption σ α
  | (state, .done value) => (state, .done value)
  | (state, .paused rest) => rest state
  | (state, .asleep wake rest) => rest (advance wake state)

theorem turns_finish (resumption : Resumption σ α) (state : σ) :
    ∃ turns, (turn advance)^[turns] (state, resumption) =
      ((resumption.finish advance state).1, .done (resumption.finish advance state).2) := by
  induction resumption using byTurns generalizing state with
  | done value => exact ⟨0, rfl⟩
  | paused rest ih =>
      obtain ⟨turns, done⟩ := ih state (rest state).1
      refine ⟨turns + 1, ?_⟩
      rwa [Function.iterate_succ_apply, turn, finish, finishTurn_eq]
  | asleep wake rest ih =>
      obtain ⟨turns, done⟩ := ih (advance wake state) (rest (advance wake state)).1
      refine ⟨turns + 1, ?_⟩
      rwa [Function.iterate_succ_apply, turn, finish, finishTurn_eq]

end Resumption

/-- An activation fails, in the record and among the events of its run, and nothing else
happens. -/
structure RunState.Fails (path : Path) (node message : String) (before after : RunState) :
    Prop where
  trace : after.1.trace =
    before.1.trace ++ [⟨path, .nodeFailed before.2.execution.id node message⟩]
  failures : after.2.execution.failures =
    before.2.execution.failures ++ [(some node, message)]
  executed : after.2.execution.executedNodes = before.2.execution.executedNodes
  terminal : after.2.terminal = before.2.terminal
  calls : after.1.calls = before.1.calls
  finished : after.1.finished = before.1.finished

/-- At the limit an attempt is over at once. -/
theorem Run.visit_refuses {engine : Engine} {depth : Nat} (deep : engine.limits.maxDepth ≤ depth)
    {graph : Graph} {name : String} (known : (graph.node? name).isSome) (path : Path) (input : Json)
    (state : RunState) :
    ∃ after, visit engine (engine.limits.maxDepth - depth) graph path name input state =
        (after, .done none) ∧
      state.Fails path name (NodeError.depthExceeded engine.limits.maxDepth).message after := by
  obtain ⟨node, found⟩ := Option.isSome_iff_exists.mp known
  rw [Nat.sub_eq_zero_of_le deep]
  unfold visit
  rw [found]
  refine ⟨_, rfl, rfl, ?_, rfl, rfl, rfl, rfl⟩
  exact List.map_append

/-- What a run leaves of an activation that is refused: its failure, told by the run that
it belongs to, and neither a start nor a call nor anything below. -/
structure Engine.Refused (engine : Engine) (trace : List Traced) (calls : List Call)
    (finished : List Finished) (path : Path) (name : String) : Prop where
  alone : ∃ record ∈ finished, record.path = Path.run path ∧
    (trace.filter fun traced => path <+: traced.path) =
      [⟨path, .nodeFailed record.execution.id name
        (NodeError.depthExceeded engine.limits.maxDepth).message⟩]
  uncalled : ∀ call ∈ calls, ¬ path <+: call.path
  unkept : ∀ record ∈ finished, ¬ path <+: record.path

namespace Engine

/-- The activity of a whole run. -/
def activity (engine : Engine) (graph : Graph) (input : Json) (entry : Entry) :
    Activity (World × Unit) Tally :=
  Run.wholeGraph (Run.visit engine engine.limits.maxDepth) [] graph input entry

theorem activity_finishes (engine : Engine) (graph : Graph) (input : Json) (entry : Entry)
    (world : World) :
    ∃ turns tally,
      (Resumption.turn fun time (world, rest) => (world.advance time, rest))^[turns]
          (engine.activity graph input entry (world, ())) =
        (((engine.run graph input entry world).1, ()), .done tally) ∧
      tally.execution = (engine.run graph input entry world).2 := by
  let advance (time : Nat) : World × Unit → World × Unit := fun (world, rest) =>
    (world.advance time, rest)
  obtain ⟨turns, done⟩ := Resumption.turns_finish advance
    (engine.activity graph input entry (world, ())).2
    (engine.activity graph input entry (world, ())).1
  rw [← Resumption.finishTurn_eq] at done
  exact ⟨turns, _, done, rfl⟩

section Places

variable {engine : Engine} {outer : Graph} {entry : Entry} {deeds : List Deed}
  (placed : ∀ deed ∈ deeds, engine.Placed outer entry deed) {path : Path}
  (deep : engine.limits.maxDepth < path.length)

include placed deep

/-- Nothing is done below the limit, and just at the limit nothing but refuse. -/
theorem Placed.at_limit {deed : Deed} (member : deed ∈ deeds) (below : path <+: deed.path) :
    ∃ run graph name, engine.Reaches outer entry engine.limits.maxDepth path graph name ∧
      deed = .event ⟨path, .nodeFailed run name
        (NodeError.depthExceeded engine.limits.maxDepth).message⟩ := by
  have longer := below.length_le
  cases placed deed member with
  | outside here =>
      rw [here, List.length_nil] at longer
      omega
  | inside reaches shallow =>
      have length := reaches.length_path
      omega
  | @refused place graph name run reaches =>
      have length := reaches.length_path
      obtain rfl : path = place :=
        below.eq_of_length (Nat.le_antisymm longer (show place.length ≤ path.length by omega))
      exact ⟨run, graph, name, reaches, rfl⟩

/-- At the limit, what is told at a path or below is what concerns the path. -/
theorem Placed.filter_at_limit :
    ((deeds.filterMap Deed.event?).filter fun traced => path <+: traced.path) =
      (deeds.filterMap Deed.event?).filter (·.concerns path) := by
  refine List.filter_congr fun traced member => ?_
  have own : traced.run <+: traced.path := (Deed.event traced).run_isPrefix
  rw [Bool.eq_iff_iff, decide_eq_true_iff, Traced.concerns_iff]
  constructor
  · intro below
    obtain ⟨_, _, _, _, same⟩ := at_limit placed deep (Deed.mem_event_iff.mp member) below
    exact .inl (congrArg Traced.path (Deed.event.inj same))
  · intro either
    rcases either with here | here
    · exact here ▸ List.prefix_rfl
    · exact here ▸ own

theorem Placed.refused_of_deep {event : Event} (told : .event ⟨path, event⟩ ∈ deeds)
    (bracketed : Bracketed engine.limits.maxDepth (deeds.filterMap Deed.event?)
      (deeds.filterMap Deed.finished?)) :
    ∃ graph name, engine.Reaches outer entry engine.limits.maxDepth path graph name ∧
      engine.Refused (deeds.filterMap Deed.event?) (deeds.filterMap Deed.call?)
        (deeds.filterMap Deed.finished?) path name := by
  obtain ⟨run, graph, name, reaches, same⟩ := at_limit placed deep told List.prefix_rfl
  obtain ⟨_, rfl⟩ := Traced.mk.inj (Deed.event.inj same)
  have activation : path ≠ [] := List.ne_nil_of_length_pos (by omega)
  have member := Deed.mem_event_iff.mpr told
  obtain ⟨record, kept, here, own⟩ := bracketed.kept _ member
  obtain rfl : record.execution.id = run := own
  have concerned : ⟨path, .nodeFailed record.execution.id name
      (NodeError.depthExceeded engine.limits.maxDepth).message⟩ ∈
      (deeds.filterMap Deed.event?).filter (·.concerns path) :=
    List.mem_filter.mpr ⟨member, Traced.concerns_iff.mpr (.inl rfl)⟩
  refine ⟨graph, name, reaches, ⟨⟨record, kept, here, ?_⟩, ?_, ?_⟩⟩
  · rw [filter_at_limit placed deep]
    -- if the activation had started, it would have been told at the limit
    have unstarted (first : Uuid) (node : String) :
        ⟨path, .nodeStarted first node⟩ ∉
          (deeds.filterMap Deed.event?).filter (·.concerns path) := by
      intro starts
      obtain ⟨_, _, _, _, clash⟩ := at_limit placed deep
        (Deed.mem_event_iff.mp (List.mem_filter.mp starts).1) List.prefix_rfl
      simp at clash
    have story := bracketed.stories path activation
    generalize (deeds.filterMap Deed.event?).filter (·.concerns path) = concerning
      at story concerned unstarted ⊢
    cases story with
    | untold => contradiction
    | refused => rw [List.mem_singleton.mp concerned]
    | told => exact absurd (Traced.mem_bracket.mpr (.inl rfl)) (unstarted _ _)
  · intro call made below
    obtain ⟨_, _, _, _, clash⟩ := at_limit placed deep (Deed.mem_call_iff.mp made) below
    contradiction
  · intro record kept below
    obtain ⟨_, _, _, _, clash⟩ := at_limit placed deep (Deed.mem_finished_iff.mp kept) below
    contradiction

end Places

/-- The limit of depth bounds every run, whatever cycles graphs have and whatever
definitions contain.  The run is over after some number of turns.  Every run in it, the
nested ones included, has executed only activations that are less deep than the limit.
What is told of an activation at the limit is that it is refused; and wherever one is
attempted there, all that happens is that it fails. -/
theorem run_within_depth (engine : Engine) (graph : Graph) (input : Json) (entry : Entry)
    (world : World) :
    (∃ turns tally,
      (Resumption.turn fun time (world, rest) => (world.advance time, rest))^[turns]
          (engine.activity graph input entry (world, ())) =
        (((engine.run graph input entry world).1, ()), .done tally) ∧
      tally.execution = (engine.run graph input entry world).2) ∧
    (∃ trace calls finished,
      (engine.run graph input entry world).1.trace = world.trace ++ trace ∧
      (engine.run graph input entry world).1.calls = world.calls ++ calls ∧
      (engine.run graph input entry world).1.finished = world.finished ++ finished ∧
      ⟨[], (engine.run graph input entry world).2⟩ ∈ finished ∧
      (∀ record ∈ finished,
        record.Told (trace.filter fun traced => traced.run = record.path)) ∧
      (∀ traced ∈ trace, ∀ name, traced.event.started? = some name →
        ∃ depth < engine.limits.maxDepth, ∃ inner,
          engine.Reaches graph entry depth traced.path inner name) ∧
      ∀ traced ∈ trace, traced.path ≠ [] →
        ∃ depth inner name, engine.Reaches graph entry depth traced.path inner name ∧
          (depth < engine.limits.maxDepth ∨
            depth = engine.limits.maxDepth ∧
              engine.Refused trace calls finished traced.path name)) ∧
    ∀ depth, engine.limits.maxDepth ≤ depth → ∀ graph name, (graph.node? name).isSome →
      ∀ path input state, ∃ after,
        Run.visit engine (engine.limits.maxDepth - depth) graph path name input state =
            (after, .done none) ∧
          state.Fails path name (NodeError.depthExceeded engine.limits.maxDepth).message after := by
  refine ⟨engine.activity_finishes graph input entry world, ?_,
    fun depth deep graph name known path input state =>
      Run.visit_refuses deep known path input state⟩
  obtain ⟨deeds, tally, whole, grows, same⟩ := engine.run_takes graph input entry world
  have placed := run_placed whole
  have account : Accounted (fun _ => False) _ _ deeds :=
    (wholeGraph_accounted (visit_accounted engine engine.limits.maxDepth) whole).1
  have bracketed := account.isBracketed
  refine ⟨_, _, _, grows.trace, grows.calls, grows.finished, ?_, bracketed.told, ?_, ?_⟩
  · obtain ⟨attempted, _, _, rfl⟩ := whole
    rw [same, Deed.mem_finished_iff]
    simp
  · intro traced member name starts
    have named := Event.node?_of_started? starts
    rcases (placed _ (Deed.mem_event_iff.mp member)).of_event with
      ⟨_, nodeless⟩ | ⟨depth, inner, other, reaches, own, shallow | ⟨_, run, failed⟩⟩
    · rw [nodeless] at named
      contradiction
    · obtain rfl := own name named
      exact ⟨depth, shallow, inner, reaches⟩
    · rw [failed] at starts
      contradiction
  · intro traced member activation
    rcases (placed _ (Deed.mem_event_iff.mp member)).of_event with
      ⟨root, _⟩ | ⟨depth, inner, name, reaches, _, shallow | ⟨rfl, _⟩⟩
    · exact absurd root activation
    · exact ⟨depth, inner, name, reaches, .inl shallow⟩
    · have length := reaches.length_path
      obtain ⟨graph, name, reaches, refused⟩ := Placed.refused_of_deep placed (by omega)
        (Deed.mem_event_iff.mp member) bracketed
      exact ⟨_, graph, name, reaches, .inr ⟨rfl, refused⟩⟩

end Engine

/-- A definition whose only node stands for the definition itself. -/
def endless : Subflow where
  id := "endless"
  name := "endless"
  nodes :=
    [ ⟨"again", subflowTemplate, .action, "again", [("subflowId", .string "endless")], [], [],
        .idle, .origin⟩ ]
  connections := []
  inputs := []
  outputs := []
  inputMapping := []
  outputMapping := []
  outputSources := []
  reusable := true

/-- A trigger with a node behind it that goes in a circle, and one that stands for the
definition. -/
def winding : Graph :=
  let port (id : String) (direction : Direction) : Port := ⟨id, id, direction, anyType, true⟩
  { id := .nil
    name := "winding"
    nodes :=
      [ ⟨"start", "manual", .trigger, "start", [], [], [port "out" .output], .idle, .origin⟩,
        ⟨"circle", "sound", .data, "circle", [], [port "in" .input, port "back" .input],
          [port "out" .output], .idle, .origin⟩,
        ⟨"nested", subflowTemplate, .action, "nested", [("subflowId", .string "endless")],
          [port "in" .input], [], .idle, .origin⟩ ]
    connections :=
      [ ⟨"first", ⟨"start", "out"⟩, ⟨"circle", "in"⟩, anyType⟩,
        ⟨"second", ⟨"circle", "out"⟩, ⟨"circle", "back"⟩, anyType⟩,
        ⟨"third", ⟨"start", "out"⟩, ⟨"nested", "in"⟩, anyType⟩ ] }

def windingEngine : Engine where
  registry := [("sound", fun _ input => ⟨9, .returned input⟩)]
  library := [("endless", endless)]
  limits := ⟨100, 4, 8⟩

/-- The circle is gone around, and the definition entered, until the limit is met. -/
theorem run_of_winding_within_depth :
    winding.check = .ok ⟨["start"], true⟩ ∧
    (∃ trace finished,
      (windingEngine.run winding .null .triggers (.new ⟨0, 0⟩ ⟨0⟩)).1.trace = trace ∧
      (windingEngine.run winding .null .triggers (.new ⟨0, 0⟩ ⟨0⟩)).1.finished = finished ∧
      finished.map (fun record => (record.path.length, record.execution.executedNodes)) =
        [ (4, []), (3, ["again"]), (2, ["again"]),
          (0, ["start", "circle", "nested", "circle", "circle"]) ] ∧
      ∀ traced ∈ trace, ∀ name, traced.event.started? = some name →
        ∃ depth < 4, ∃ inner,
          windingEngine.Reaches winding .triggers depth traced.path inner name) ∧
    ∀ path input state, ∃ after,
      Run.visit windingEngine 0 winding path "circle" input state = (after, .done none) ∧
        state.Fails path "circle" (NodeError.depthExceeded 4).message after := by
  obtain ⟨_, ⟨trace, calls, finished, told, _, kept, _, _, shallow, _⟩, refuses⟩ :=
    windingEngine.run_within_depth winding .null .triggers (.new ⟨0, 0⟩ ⟨0⟩)
  rw [show (World.new ⟨0, 0⟩ ⟨0⟩).trace = [] from rfl, List.nil_append] at told
  rw [show (World.new ⟨0, 0⟩ ⟨0⟩).finished = [] from rfl, List.nil_append] at kept
  refine ⟨rfl, ⟨trace, finished, told, kept, ?_, shallow⟩, ?_⟩
  · rw [← kept]
    decide +kernel
  · exact refuses 4 (by decide) winding "circle" rfl

end Workflow
