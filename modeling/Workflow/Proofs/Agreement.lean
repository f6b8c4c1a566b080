import Workflow.Proofs.Running

/-! Runs of one graph agree.

Where no run is nested in another, every course of a run has the same deeds up to
their order, whatever the run's path and identifier are.  So two runs of one graph
with one input agree, each in its own surroundings: `Course.wholeGraph_agrees`.
-/

namespace Workflow

namespace Graph

variable (graph : Graph) (id : Uuid)

theorem drain_withId (rounds : Nat) (waiting : Waiting) (queue : List String) :
    drain { graph with id } rounds waiting queue = drain graph rounds waiting queue := by
  induction rounds generalizing waiting queue with
  | zero => rfl
  | succ rounds ih =>
      cases queue with
      | nil => rfl
      | cons name queue =>
          simp only [drain, ih]
          rfl

theorem checkConnections_withId (taken : List Endpoint) (connections : List Connection) :
    checkConnections { graph with id } taken connections =
      checkConnections graph taken connections := by
  induction connections generalizing taken with
  | nil => rfl
  | cons connection rest ih =>
      simp only [checkConnections, ih]
      rfl

/-- Whether a graph can be run does not depend on its identifier. -/
theorem check_withId : ({ graph with id } : Graph).check = graph.check := by
  have cycles : ({ graph with id } : Graph).hasCycle = graph.hasCycle := by
    simp only [hasCycle, order?, drain_withId]
    rfl
  simp only [check, checkConnections_withId, cycles]
  rfl

end Graph

/-- Two runs have done the same, each in its own order. -/
structure Deed.Same (run other : Path) (left right : List Deed) : Prop where
  executed : (left.filterMap Deed.started?).Perm (right.filterMap Deed.started?)
  failures : (left.filterMap Deed.failure?).Perm (right.filterMap Deed.failure?)
  terminal : (left.filterMap Deed.ending?).Perm (right.filterMap Deed.ending?)
  own : ∀ deed ∈ left, deed.run = run
  others : ∀ deed ∈ right, deed.run = other

namespace Deed.Same

variable {run other : Path} {left right first second before after : List Deed}

theorem nothing (run other : Path) : Same run other [] [] :=
  ⟨.refl _, .refl _, .refl _, nofun, nofun⟩

theorem andThen (earlier : Same run other before after) (later : Same run other left right) :
    Same run other (before ++ left) (after ++ right) where
  executed := by
    simp only [List.filterMap_append]
    exact earlier.executed.append later.executed
  failures := by
    simp only [List.filterMap_append]
    exact earlier.failures.append later.failures
  terminal := by
    simp only [List.filterMap_append]
    exact earlier.terminal.append later.terminal
  own deed member := (List.mem_append.mp member).elim (earlier.own deed) (later.own deed)
  others deed member := (List.mem_append.mp member).elim (earlier.others deed) (later.others deed)

theorem reorder (same : Same run other first second) (mixed : left.Perm first)
    (mixedToo : right.Perm second) : Same run other left right where
  executed := (mixed.filterMap _).trans (same.executed.trans (mixedToo.filterMap _).symm)
  failures := (mixed.filterMap _).trans (same.failures.trans (mixedToo.filterMap _).symm)
  terminal := (mixed.filterMap _).trans (same.terminal.trans (mixedToo.filterMap _).symm)
  own deed member := same.own deed (mixed.mem_iff.mp member)
  others deed member := same.others deed (mixedToo.mem_iff.mp member)

theorem single {deed twin : Deed} (own : deed.run = run) (others : twin.run = other)
    (started : deed.started? = twin.started?) (failure : deed.failure? = twin.failure?)
    (ending : deed.ending? = twin.ending?) : Same run other [deed] [twin] where
  executed := .of_eq (by simp only [List.filterMap_cons, started])
  failures := .of_eq (by simp only [List.filterMap_cons, failure])
  terminal := .of_eq (by simp only [List.filterMap_cons, ending])
  own _ member := List.mem_singleton.mp member ▸ own
  others _ member := List.mem_singleton.mp member ▸ others

end Deed.Same

namespace Course

/-- Two things that have one result and the same deeds, whatever courses they take. -/
def sameness (run other : Path) : Likeness (Courses Deed) (Courses Deed) where
  like left right := ∀ deeds result others answer, left deeds result → right others answer →
    result = answer ∧ Deed.Same run other deeds others
  pure value := by
    intro deeds result others answer taken again
    obtain ⟨rfl, rfl⟩ := taken
    obtain ⟨rfl, rfl⟩ := again
    exact ⟨rfl, .nothing run other⟩
  bind first next := by
    intro deeds result others answer taken again
    obtain ⟨before, after, value, rfl, goes, follows⟩ := taken
    obtain ⟨sooner, later, twin, rfl, goesToo, followsToo⟩ := again
    obtain ⟨rfl, earlier⟩ := first before value sooner twin goes goesToo
    obtain ⟨same, rest⟩ := next value after result later answer follows followsToo
    exact ⟨same, earlier.andThen rest⟩
  map f first := by
    intro deeds result others answer taken again
    obtain ⟨value, done, rfl⟩ := (Courses.map_iff f _ deeds result).mp taken
    obtain ⟨twin, doneToo, rfl⟩ := (Courses.map_iff f _ others answer).mp again
    obtain ⟨rfl, same⟩ := first deeds value others twin done doneToo
    exact ⟨rfl, same⟩

variable {run other path twin : Path}

theorem sameness_all {α β : Type} {left right : Nat → α → Courses Deed β} (elements : List α)
    (each : ∀ index, ∀ element ∈ elements,
      (sameness run other).like (left index element) (right index element)) :
    (sameness run other).like (Courses.all (elements.mapIdx left))
      (Courses.all (elements.mapIdx right)) := by
  induction elements generalizing left right with
  | nil => exact (sameness run other).pure []
  | cons element rest ih =>
      simp only [List.mapIdx_cons]
      intro deeds result others answer taken again
      obtain ⟨own, further, value, values, mixed, goes, follows, rfl⟩ := taken
      obtain ⟨ownToo, furtherToo, valueToo, valuesToo, mixedToo, goesToo, followsToo, rfl⟩ := again
      obtain ⟨rfl, first⟩ := each 0 element (by simp) _ _ _ _ goes goesToo
      have remaining := ih fun index later member => each (index + 1) later (by simp [member])
      obtain ⟨rfl, rest⟩ := remaining _ _ _ _ follows followsToo
      exact ⟨rfl, (first.andThen rest).reorder mixed.perm mixedToo.perm⟩

theorem tell_same {event : Uuid → Event}
    (each : ∀ id again,
      Deed.Same run other [.event ⟨path, event id⟩] [.event ⟨twin, event again⟩]) :
    (sameness run other).like (tell path event) (tell twin event) := by
  intro _ _ _ _ taken again
  obtain ⟨id, rfl⟩ := taken
  obtain ⟨idToo, rfl⟩ := again
  exact ⟨rfl, each id idToo⟩

section Visits

variable {engine : Engine} {graph : Graph} {id : Uuid} {left right : Visit}
  (inside : Path.run path = run) (insideToo : Path.run twin = other)

include inside insideToo

theorem fail_same (node : String) (error : NodeError) :
    (sameness run other).like (fail path node error) (fail twin node error) :=
  tell_same fun _ _ => .single inside insideToo rfl rfl rfl

theorem callDelegate_same (node : Node) (input : Json) :
    (sameness run other).like (callDelegate engine path node input)
      (callDelegate engine twin node input) := by
  unfold callDelegate
  cases Fields.get? engine.registry node.templateId with
  | none => exact (sameness run other).pure _
  | some delegate =>
      refine (sameness run other).bind ?_ fun _ => (sameness run other).pure _
      intro _ _ _ _ taken again
      obtain rfl := taken
      obtain rfl := again
      exact ⟨rfl, .single inside insideToo rfl rfl rfl⟩

variable (visits : ∀ path twin name input, Path.run path = run → Path.run twin = other →
  (sameness run other).like (left graph path name input)
    (right { graph with id } twin name input))

include visits

theorem follow_same (node : Node) (outcome : Outcome) :
    (sameness run other).like (follow left graph path node outcome)
      (follow right { graph with id } twin node outcome) := by
  have same : Run.fired { graph with id } node outcome.ports =
      Run.fired graph node outcome.ports := rfl
  unfold follow
  dsimp only
  rw [same]
  split
  · intro _ _ _ _ taken again
    obtain rfl := taken
    obtain rfl := again
    exact ⟨rfl, .single inside insideToo rfl rfl rfl⟩
  · refine (sameness run other).map _ (sameness_all _ fun index connection _ => ?_)
    exact visits _ _ _ _ (by rwa [Path.run_follow]) (by rwa [Path.run_follow])

theorem runBody_same (node : Node) (round : Nat) (key : String) (payload : Json) :
    (sameness run other).like (runBody left graph path node round key payload)
      (runBody right { graph with id } twin node round key payload) := by
  unfold runBody
  cases node.output? key with
  | none => exact (sameness run other).pure []
  | some port =>
      refine (sameness run other).mapM _ fun numbered _ => ?_
      exact visits _ _ _ _ (by rwa [Path.run_body]) (by rwa [Path.run_body])

theorem perform_same {node : Node} (plain : node.templateId ≠ subflowTemplate) (input : Json) :
    (sameness run other).like (perform engine left graph path node input)
      (perform engine right { graph with id } twin node input) := by
  have called : (sameness run other).like (callDelegate engine path node input)
      (callDelegate engine twin node input) := callDelegate_same inside insideToo node input
  have surrounded : (sameness run other).Surrounded (surroundings left graph path node)
      (surroundings right { graph with id } twin node) :=
    ⟨runBody_same inside insideToo visits node, fun _ => (sameness run other).pure ()⟩
  unfold perform
  cases node.kind with
  | trigger => exact (sameness run other).pure _
  | condition =>
      exact (sameness run other).bind (surrounded.evaluate _ node input) fun _ =>
        (sameness run other).pure _
  | action | data =>
      simp only [if_neg plain]
      exact (sameness run other).bind called fun _ => (sameness run other).pure _

theorem activate_same {node : Node} (plain : node.templateId ≠ subflowTemplate) (input : Json) :
    (sameness run other).like (activate engine left graph path node input)
      (activate engine right { graph with id } twin node input) := by
  refine (sameness run other).bind (tell_same fun _ _ => .single inside insideToo rfl rfl rfl)
    fun _ => ?_
  refine (sameness run other).bind (perform_same inside insideToo visits plain input)
    fun result => ?_
  cases result with
  | error error =>
      exact (sameness run other).bind (fail_same inside insideToo node.id error) fun _ =>
        (sameness run other).pure _
  | ok outcome =>
      refine (sameness run other).bind
        (tell_same fun _ _ => .single inside insideToo rfl rfl rfl) fun _ => ?_
      exact (sameness run other).bind (follow_same inside insideToo visits node outcome) fun _ =>
        (sameness run other).pure _

end Visits

theorem visit_same (engine : Engine) {graph : Graph} (id : Uuid)
    (plain : ∀ node ∈ graph.nodes, node.templateId ≠ subflowTemplate) (left : Nat)
    (inside : Path.run path = run) (insideToo : Path.run twin = other) (name : String)
    (input : Json) :
    (sameness run other).like (visit engine left graph path name input)
      (visit engine left { graph with id } twin name input) := by
  have none : (sameness run other).like (pure (none : Option Json)) (pure none) :=
    (sameness run other).pure none
  have known : ({ graph with id } : Graph).node? name = graph.node? name := rfl
  induction left generalizing path twin name input with
  | zero =>
      unfold visit
      rw [known]
      cases graph.node? name with
      | none => exact (sameness run other).bind (fail_same inside insideToo _ _) fun _ => none
      | some node => exact (sameness run other).bind (fail_same inside insideToo _ _) fun _ => none
  | succ left ih =>
      unfold visit
      rw [known]
      cases found : graph.node? name with
      | none => exact (sameness run other).bind (fail_same inside insideToo _ _) fun _ => none
      | some node =>
          refine activate_same inside insideToo ?_ (plain node (List.mem_of_find?_eq_some found))
            input
          intro path twin name input inside insideToo
          exact ih inside insideToo name input rfl

/-- What the attempts to run a graph and its copy do is the same. -/
theorem attempt_same (engine : Engine) {graph : Graph} (id : Uuid)
    (plain : ∀ node ∈ graph.nodes, node.templateId ≠ subflowTemplate) (left : Nat)
    (run other : Path) (input : Json) (entry : Entry) :
    (sameness run other).like (attempt (visit engine left) run graph input entry)
      (attempt (visit engine left) other { graph with id } input entry) := by
  have starts (report : Graph.Report) :
      entry.starts { graph with id } report = entry.starts graph report := rfl
  unfold attempt
  rw [graph.check_withId id]
  cases graph.check with
  | error error =>
      intro _ _ _ _ taken again
      obtain rfl := taken
      obtain rfl := again
      exact ⟨rfl, .single rfl rfl rfl rfl rfl⟩
  | ok report =>
      dsimp only
      rw [starts]
      refine (sameness run other).map _ (sameness_all _ fun index name _ => ?_)
      exact visit_same engine id plain left (Path.run_start ..) (Path.run_start ..) name input

end Course

/-- Two runs have come to the same, up to the order of what they list. -/
structure Tally.Agrees (first second : Tally) : Prop where
  status : first.execution.status = second.execution.status
  executed : first.execution.executedNodes.Perm second.execution.executedNodes
  failures : first.execution.failures.Perm second.execution.failures
  terminal : first.terminal.Perm second.terminal

theorem Course.wholeGraph_agrees (engine : Engine) {graph : Graph} {id : Uuid}
    (plain : ∀ node ∈ graph.nodes, node.templateId ≠ subflowTemplate) {left : Nat}
    {path twin : Path} {input : Json} {entry : Entry} {deeds others : List Deed}
    {first second : Tally}
    (taken : wholeGraph (visit engine left) path graph input entry deeds first)
    (again : wholeGraph (visit engine left) twin { graph with id } input entry others second) :
    first.Agrees second := by
  obtain ⟨attempted, attempt, tells, _⟩ := taken
  obtain ⟨attemptedToo, attemptToo, tellsToo, _⟩ := again
  obtain ⟨_, same⟩ := attempt_same engine id plain left path twin input entry _ _ _ _ attempt
    attemptToo
  have whole : Deed.of path attempted = attempted :=
    List.filter_eq_self.mpr fun deed member => by simpa using same.own deed member
  have wholeToo : Deed.of twin attemptedToo = attemptedToo :=
    List.filter_eq_self.mpr fun deed member => by simpa using same.others deed member
  rw [whole] at tells
  rw [wholeToo] at tellsToo
  have failures : first.execution.failures.Perm second.execution.failures := by
    rw [tells.failures, tellsToo.failures]
    exact same.failures
  refine ⟨?_, ?_, failures, ?_⟩
  · have both : first.execution.errors.isEmpty = second.execution.errors.isEmpty := by
      simpa [Execution.failures] using failures.isEmpty_eq
    rw [tells.status, tellsToo.status, both]
  · rw [tells.executed, tellsToo.executed]
    exact same.executed
  · rw [tells.terminal, tellsToo.terminal]
    exact same.terminal

end Workflow
