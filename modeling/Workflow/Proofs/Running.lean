import Workflow.Proofs.Course

/-! Runs take the courses that are described for them. -/

namespace Workflow

/-- Identifiers and the time may change unseen. -/
theorem World.Grows.unseen {run : Path} {before after : World}
    (trace : after.trace = before.trace) (calls : after.calls = before.calls)
    (finished : after.finished = before.finished) : World.Grows run before [] after :=
  ⟨by simpa using trace, by simpa using calls, by simpa using finished, by simp⟩

namespace Run

variable {run path : Path} {before after : RunState} {deed : Deed}

theorem may_unseen (trace : after.1.trace = before.1.trace) (calls : after.1.calls = before.1.calls)
    (finished : after.1.finished = before.1.finished) (tally : before.2.Grows [] after.2) :
    (conduct run).may before [] after :=
  ⟨.unseen trace calls finished, tally⟩

theorem may_single (own : deed.run = run)
    (trace : after.1.trace = before.1.trace ++ deed.event?.toList)
    (calls : after.1.calls = before.1.calls ++ deed.call?.toList)
    (finished : after.1.finished = before.1.finished ++ deed.finished?.toList)
    (tally : before.2.Grows [deed] after.2) : (conduct run).may before [deed] after := by
  refine ⟨⟨?_, ?_, ?_, ?_⟩, ?_⟩
  · cases told : deed.event? <;> simpa [told] using trace
  · cases made : deed.call? <;> simpa [made] using calls
  · cases kept : deed.finished? <;> simpa [kept] using finished
  · intro other same
    obtain rfl := List.mem_singleton.mp same
    exact own ▸ List.prefix_rfl
  · simpa only [tallyConduct, Deed.of_single own] using tally

/-- An outcome is the status of its node. -/
theorem settles_outcome {event : Event} (execution : Execution) (node : String) (status : Status)
    (told : ∀ other, event.outcome? other = if node = other then some status else none)
    (other : String) :
    (execution.setStatus node status).Unsettled other ∨
      Fields.get? (execution.setStatus node status).nodeStates other =
        ([Deed.event ⟨path, event⟩].filterMap (Deed.outcome? other)).getLast?.or
          (Fields.get? execution.nodeStates other) := by
  have outcome : (Deed.event ⟨path, event⟩).outcome? other =
      if node = other then some status else none := told other
  by_cases same : node = other <;>
    simp [Execution.setStatus, Fields.get?_insert, outcome, same]

/-- A node that is at work is not settled; others stay as they are. -/
theorem settles_unsettled {own : List Deed} {node : String} {status : Status}
    (execution : Execution) (working : status.settled = false)
    (silent : ∀ other, own.filterMap (Deed.outcome? other) = []) (other : String) :
    (execution.setStatus node status).Unsettled other ∨
      Fields.get? (execution.setStatus node status).nodeStates other =
        (own.filterMap (Deed.outcome? other)).getLast?.or
          (Fields.get? execution.nodeStates other) := by
  by_cases same : node = other
  · exact .inl ⟨status, by simp [Execution.setStatus, same], working⟩
  · exact .inr (by simp [Execution.setStatus, Fields.get?_insert, silent, same])

theorem log_takes (node : Option String) (level : LogLevel) (message : String)
    (data : Option Json) :
    (Running.log node level message data).Takes (conduct run) (pure ()) := by
  refine .atOnce (fun _ => rfl) fun state => ⟨[], may_unseen rfl rfl rfl ?_, rfl, rfl⟩
  exact { Tally.Grows.nothing state.2 with }

theorem fail_takes (path : Path) (node : String) (error : NodeError) :
    (fail path node error).Takes (conduct (Path.run path)) (Course.fail path node error) := by
  refine .atOnce (fun _ => rfl) fun state => ?_
  refine ⟨[.event ⟨path, .nodeFailed state.2.execution.id node error.message⟩],
    may_single rfl rfl (List.append_nil _).symm (List.append_nil _).symm ?_, _, rfl⟩
  exact
    { id := rfl
      graphId := rfl
      runs := by simp [Event.run]
      executed := (List.append_nil _).symm
      failures := List.map_append
      terminal := (List.append_nil _).symm
      states := settles_outcome state.2.execution node .error fun _ => rfl }

theorem start_takes (path : Path) (node : Node) :
    (start path node).Takes (conduct (Path.run path))
      (Course.tell path fun run => .nodeStarted run node.id) := by
  refine .atOnce (fun _ => rfl) fun state => ?_
  refine ⟨[.event ⟨path, .nodeStarted state.2.execution.id node.id⟩],
    may_single rfl rfl (List.append_nil _).symm (List.append_nil _).symm ?_, _, rfl⟩
  exact
    { id := rfl
      graphId := rfl
      runs := by simp [Event.run]
      executed := rfl
      failures := (List.append_nil _).symm
      terminal := (List.append_nil _).symm
      states := settles_unsettled state.2.execution rfl fun _ => rfl }

theorem succeed_takes (path : Path) (node : Node) (outcome : Outcome) :
    (succeed path node outcome).Takes (conduct (Path.run path))
      (Course.tell path fun run => .nodeSucceeded run node.id) := by
  refine .atOnce (fun _ => rfl) fun state => ?_
  refine ⟨[.event ⟨path, .nodeSucceeded state.2.execution.id node.id⟩],
    may_single rfl rfl (List.append_nil _).symm (List.append_nil _).symm ?_, _, rfl⟩
  exact
    { id := rfl
      graphId := rfl
      runs := by simp [Event.run]
      executed := (List.append_nil _).symm
      failures := (List.append_nil _).symm
      terminal := (List.append_nil _).symm
      states := settles_outcome state.2.execution node.id .success fun _ => rfl }

theorem endOn_takes (path : Path) (node : String) (payload : Json) :
    (Running.endOn node payload).Takes (conduct (Path.run path))
      (Courses.note (.ending path node payload)) := by
  refine .atOnce (fun _ => rfl) fun state => ⟨_, may_single rfl (List.append_nil _).symm
    (List.append_nil _).symm (List.append_nil _).symm ?_, rfl⟩
  exact
    { id := rfl
      graphId := rfl
      runs := by simp
      executed := (List.append_nil _).symm
      failures := (List.append_nil _).symm
      terminal := rfl
      states _ := .inr rfl }

theorem noteCall_takes (call : Call) :
    (Running.noteCall call).Takes (conduct (Path.run call.path)) (Courses.note (.call call)) := by
  refine .atOnce (fun _ => rfl) fun state => ⟨_, may_single rfl (List.append_nil _).symm rfl
    (List.append_nil _).symm ?_, rfl⟩
  exact
    { id := rfl
      graphId := rfl
      runs := by simp
      executed := (List.append_nil _).symm
      failures := (List.append_nil _).symm
      terminal := (List.append_nil _).symm
      states _ := .inr rfl }

theorem world_takes : Running.world.Takes (conduct run) Courses.anything :=
  .atOnce (fun _ => rfl) fun state => ⟨[], may_unseen rfl rfl rfl (.nothing state.2), rfl⟩

theorem pause_takes : (Activity.pause : Running Unit).Takes (conduct run) (pure ()) := by
  intro state
  refine ⟨[], (conduct run).nothing state, fun later => ?_⟩
  exact ⟨[], (conduct run).nothing later, rfl, rfl⟩

theorem sleepUntil_takes (wake : Nat) :
    (Activity.sleepUntil wake : Running Unit).Takes (conduct run) (pure ()) := by
  intro state
  refine ⟨[], (conduct run).nothing state, fun later => ?_⟩
  exact ⟨[], (conduct run).nothing later, rfl, rfl⟩

theorem sleep_takes (millis : Nat) : (Running.sleep millis).Takes (conduct run) (pure ()) := by
  unfold Running.sleep
  split
  · exact .pure ()
  · refine (world_takes.bind fun world => sleepUntil_takes (world.now + millis)).mono ?_
    intro _ _ given
    obtain ⟨_, _, _, rfl, rfl, rfl, rfl⟩ := given
    exact ⟨rfl, rfl⟩

theorem setStatus_takes (node : String) {status : Status} (working : status.settled = false) :
    (Running.record fun execution => execution.setStatus node status).Takes (conduct run)
      (pure ()) := by
  refine .atOnce (fun _ => rfl) fun state => ⟨[], may_unseen rfl rfl rfl ?_, rfl, rfl⟩
  exact
    { Tally.Grows.nothing state.2 with
      states := settles_unsettled state.2.execution working fun _ => rfl }

def VisitTakes (visit : Visit) (courses : Course.Visit) : Prop :=
  ∀ graph path node input, path ≠ [] →
    (visit graph path node input).Takes (conduct (Path.run path)) (courses graph path node input)

theorem branches_takes (graph : Graph) (node : Node) (keys : List String) :
    (branches graph node keys).Takes (conduct run) (pure (fired graph node keys)) := by
  induction keys with
  | nil => exact .pure _
  | cons key rest ih =>
      unfold branches
      cases found : node.output? key with
      | none =>
          refine (log_takes _ _ _ _).bindPure ?_
          simpa [fired, found] using ih
      | some port =>
          refine ih.bindPure ?_
          simpa [fired, found] using Activity.Takes.pure
            (graph.outgoing ⟨node.id, port.id⟩ ++ fired graph node rest)

/-- Taking courses agrees with doing one thing after another. -/
def takesLikeness (run : Path) : Likeness (Activity RunState) (Courses Deed) where
  like activity courses := activity.Takes (conduct run) courses
  pure value := .pure value
  bind takes goesOn := takes.bind goesOn
  map f takes := takes.map f

theorem callDelegate_takes (engine : Engine) (path : Path) (node : Node) (input : Json) :
    (callDelegate engine path node input).Takes (conduct (Path.run path))
      (Course.callDelegate engine path node input) := by
  unfold callDelegate Course.callDelegate
  cases Fields.get? engine.registry node.templateId with
  | none => exact .pure _
  | some delegate =>
      refine (noteCall_takes ⟨path, node.templateId, input⟩).bind fun _ => ?_
      exact (sleep_takes _).bindPure (.pure _)

section Visits

variable {engine : Engine} {visit : Visit} {courses : Course.Visit}
  (visits : VisitTakes visit courses)

include visits

theorem follow_takes (graph : Graph) (path : Path) (node : Node) (outcome : Outcome) :
    (follow visit graph path node outcome).Takes (conduct (Path.run path))
      (Course.follow courses graph path node outcome) := by
  refine (branches_takes graph node outcome.ports).bindPure ?_
  unfold Course.follow
  dsimp only
  split
  · exact endOn_takes path node.id outcome.payload
  · refine .map _ (.allIdx _ fun index connection => ?_)
    have taken := visits graph (path ++ [.follow index connection])
      connection.target.nodeId outcome.payload (by simp)
    rwa [Path.run_follow] at taken

theorem surroundings_take (graph : Graph) (path : Path) (node : Node) :
    (takesLikeness (Path.run path)).Surrounded (surroundings visit graph path node)
      (Course.surroundings courses graph path node) where
  body round key payload := by
    unfold surroundings Course.surroundings runBody Course.runBody
    dsimp only
    cases node.output? key with
    | none => exact .pure _
    | some port =>
        refine (takesLikeness (Path.run path)).mapM _ fun entry _ => ?_
        obtain ⟨connection, index⟩ := entry
        have taken := visits graph (path ++ [.body round index connection])
          connection.target.nodeId payload (by simp)
        rwa [Path.run_body] at taken
  warn message := log_takes _ _ _ _

theorem attempt_takes (path : Path) (graph : Graph) (input : Json) (entry : Entry) :
    (attempt visit path graph input entry).Takes (conduct path)
      (Course.attempt courses path graph input entry) := by
  unfold attempt Course.attempt
  cases graph.check with
  | error error =>
      refine (log_takes _ _ _ _).bindPure ?_
      refine .atOnce (fun _ => rfl) fun state => ⟨_, may_single rfl (List.append_nil _).symm
        (List.append_nil _).symm (List.append_nil _).symm ?_, rfl⟩
      exact
        { id := rfl
          graphId := rfl
          runs := by simp
          executed := (List.append_nil _).symm
          failures := List.map_append
          terminal := (List.append_nil _).symm
          states _ := .inr rfl }
  | ok report =>
      refine .map _ (.allIdx _ fun index node => ?_)
      have taken := visits graph (path ++ [.start index]) node input (by simp)
      rwa [Path.run_start] at taken

theorem wholeGraph_takes {ο : Type} (path : Path) (graph : Graph) (input : Json)
    (entry : Entry) :
    (wholeGraph visit path graph input entry).Takes (outerConduct ο path)
      (Course.wholeGraph courses path graph input entry) := by
  have opened : (openRecord path graph).Takes (outerConduct ο path) fun deeds execution =>
      (∃ id now, execution = Execution.start id graph.id now) ∧
        deeds = [.event ⟨path, .runStarted execution.id graph.id⟩] := by
    refine .atOnce (fun _ => rfl) fun state => ⟨_, ⟨⟨rfl, ?_, ?_, ?_⟩, rfl⟩, ⟨_, _, rfl⟩, rfl⟩
    · exact (List.append_nil _).symm
    · exact (List.append_nil _).symm
    · simp [Deed.run, Traced.run]
  have attempted (execution : Execution) :
      ((attempt visit path graph input entry).within (⟨execution, []⟩ : Tally)).Takes
        (outerConduct ο path) fun deeds result =>
          Course.attempt courses path graph input entry deeds () ∧
            (⟨execution, []⟩ : Tally).Grows (Deed.of path deeds) result.2 := by
    refine .within (tallyConduct path) ?_ (attempt_takes visits path graph input entry) _
    exact fun done => ⟨done.2, fun _ => ⟨done.1, rfl⟩⟩
  have closed (tally : Tally) : (closeRecord path tally).Takes (outerConduct ο path)
      fun deeds result =>
        (∃ now, result = { tally with execution := tally.execution.finish now }) ∧
          deeds = [ .event ⟨path, .runFinished result.execution.id result.execution.status⟩,
            .record ⟨path, result.execution⟩] := by
    refine .atOnce (fun _ => rfl) fun state => ⟨_, ⟨⟨rfl, ?_, rfl, ?_⟩, rfl⟩, ⟨_, rfl⟩, rfl⟩
    · exact (List.append_nil _).symm
    · simp [Deed.run, Traced.run]
  refine (opened.bindReached fun _ execution _ =>
    (attempted execution).bind fun result => closed result.2).mono ?_
  intro _ tally given
  obtain ⟨_, _, execution, rfl, ⟨⟨id, now, rfl⟩, rfl⟩, middle, _, result, rfl, ⟨taken, grows⟩,
    ⟨later, rfl⟩, rfl⟩ := given
  refine ⟨middle, taken, grows.tells, ?_⟩
  simp [Execution.finish, grows.id]

theorem callSubflow_takes (graph : Graph) {path : Path} (activation : path ≠ [])
    (node : Node) (input : Json) :
    (callSubflow engine visit graph path node input).Takes (conduct (Path.run path))
      (Course.callSubflow engine courses graph path node input) := by
  unfold callSubflow Course.callSubflow
  cases definitionOf engine graph node with
  | error error => exact .pure _
  | ok definition =>
      refine Activity.Takes.bind (.atOnce (fun _ => rfl) fun state =>
        ⟨[], may_unseen rfl rfl rfl (.nothing state.2), rfl⟩) fun graphId => ?_
      have nested : (wholeGraph visit path (definition.toGraph graphId)
          (definition.inputMapping.apply input) .triggersOrRoots).Takes (outerConduct Tally path)
            _ := wholeGraph_takes visits path _ _ _
      refine (nested.weaken (conduct_of_outerConduct activation) id).bind fun tally => ?_
      cases nestedOutcome node definition input tally with
      | error error => exact .pure _
      | ok outcome => exact (log_takes _ _ _ _).bindPure (.pure _)

theorem perform_takes (graph : Graph) {path : Path} (activation : path ≠ []) (node : Node)
    (input : Json) :
    (perform engine visit graph path node input).Takes (conduct (Path.run path))
      (Course.perform engine courses graph path node input) := by
  unfold perform Course.perform
  cases node.kind with
  | trigger => exact .pure _
  | condition =>
      have evaluated := (surroundings_take visits graph path node).evaluate
        engine.limits.maxWhileIterations node input
      dsimp only
      split
      · refine (setStatus_takes node.id rfl).bindPure ?_
        exact evaluated.bind fun _ => .pure _
      · exact evaluated.bind fun _ => .pure _
  | action | data =>
      dsimp only
      split
      · exact callSubflow_takes visits graph activation node input
      · exact (callDelegate_takes engine path node input).bind fun _ => .pure _

theorem activate_takes (graph : Graph) {path : Path} (activation : path ≠ []) (node : Node)
    (input : Json) :
    (activate engine visit graph path node input).Takes (conduct (Path.run path))
      (Course.activate engine courses graph path node input) := by
  refine (start_takes path node).bind fun _ => pause_takes.bindPure ?_
  refine (perform_takes visits graph activation node input).bind fun result => ?_
  cases result with
  | error error => exact (fail_takes path node.id error).bind fun _ => .pure _
  | ok outcome =>
      refine (succeed_takes path node outcome).bind fun _ => ?_
      exact (follow_takes visits graph path node outcome).bind fun _ => .pure _

end Visits

theorem visit_takes (engine : Engine) (left : Nat) :
    VisitTakes (visit engine left) (Course.visit engine left) := by
  induction left with
  | zero =>
      intro graph path node input activation
      unfold visit Course.visit
      cases graph.node? node with
      | none => exact (fail_takes path node _).bind fun _ => .pure _
      | some found => exact (fail_takes path node _).bind fun _ => .pure _
  | succ left ih =>
      intro graph path node input activation
      unfold visit Course.visit
      cases graph.node? node with
      | none => exact (fail_takes path node _).bind fun _ => .pure _
      | some found => exact activate_takes ih graph activation found input

end Run

namespace Engine

/-- Runs a graph by itself, but as deep as activations at a depth are. -/
def runScoped (engine : Engine) (depth : Nat) (graph : Graph) (input : Json) (entry : Entry)
    (world : World) : World × Tally :=
  let activity : Activity (World × Unit) Tally :=
    Run.wholeGraph (Run.visit engine (engine.limits.maxDepth - depth)) [] graph input entry
  let ((world, _), tally) :=
    activity.run (fun time (world, rest) => (world.advance time, rest)) (world, ())
  (world, tally)

variable (engine : Engine) (graph : Graph) (input : Json) (entry : Entry) (world : World)

theorem run_eq_runScoped :
    engine.run graph input entry world =
      ((engine.runScoped 0 graph input entry world).1,
        (engine.runScoped 0 graph input entry world).2.execution) :=
  rfl

theorem runScoped_takes (depth : Nat) :
    ∃ deeds, Course.wholeGraph (Course.visit engine (engine.limits.maxDepth - depth)) [] graph
        input entry deeds (engine.runScoped depth graph input entry world).2 ∧
      World.Grows [] world deeds (engine.runScoped depth graph input entry world).1 := by
  have takes : (Run.wholeGraph (Run.visit engine (engine.limits.maxDepth - depth)) [] graph input
      entry).Takes (Run.outerConduct Unit []) _ :=
    Run.wholeGraph_takes (Run.visit_takes engine _) [] graph input entry
  have timely (time : Nat) (state : World × Unit) :
      (Run.outerConduct Unit []).may state [] (state.1.advance time, state.2) :=
    ⟨.unseen rfl rfl rfl, rfl⟩
  obtain ⟨deeds, grows, taken⟩ := takes.run timely (world, ())
  exact ⟨deeds, taken, grows.1⟩

/-- Every run takes one of the courses of its graph.  What it leaves in the world
is what its deeds say. -/
theorem run_takes :
    ∃ deeds tally,
      Course.wholeGraph (Course.visit engine engine.limits.maxDepth) [] graph input entry
        deeds tally ∧
      World.Grows [] world deeds (engine.run graph input entry world).1 ∧
      (engine.run graph input entry world).2 = tally.execution := by
  obtain ⟨deeds, taken, grows⟩ := engine.runScoped_takes graph input entry world 0
  rw [run_eq_runScoped]
  exact ⟨deeds, _, taken, grows, rfl⟩

end Engine

end Workflow
