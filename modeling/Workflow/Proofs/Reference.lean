import Workflow.Proofs.Running
import Workflow.Proofs.WellFormed

/-! Running a graph without turns.

`Reference.visit` is the plain recursion over activations: an activation does
its work, and then the activations downstream of it come one after another, each
with everything that follows it.  A run in turns comes to the same, up to the
order of what it records: `Engine.run_refines_reference`.
-/

namespace Workflow

/-- What the activations of a run record: the nodes they execute, their failures
and the calls they make, each with the template and the input. -/
@[ext] structure Ledger where
  executed : List String
  failures : List (Option String × String)
  calls : List (String × Json)

namespace Ledger

def empty : Ledger :=
  ⟨[], [], []⟩

instance : Append Ledger where
  append first second :=
    ⟨first.executed ++ second.executed, first.failures ++ second.failures,
      first.calls ++ second.calls⟩

def status (ledger : Ledger) : RunStatus :=
  if ledger.failures.isEmpty then .completed else .failed

variable (first second third : Ledger)

@[simp] theorem append_executed : (first ++ second).executed = first.executed ++ second.executed :=
  rfl

@[simp] theorem append_failures : (first ++ second).failures = first.failures ++ second.failures :=
  rfl

@[simp] theorem append_calls : (first ++ second).calls = first.calls ++ second.calls :=
  rfl

@[simp] theorem append_empty : first ++ empty = first := by
  ext1 <;> simp [empty]

@[simp] theorem empty_append : empty ++ first = first := by
  ext1 <;> simp [empty]

theorem append_assoc : first ++ second ++ third = first ++ (second ++ third) := by
  ext1 <;> simp

end Ledger

/-- Programs that write a ledger, one step after another. -/
abbrev Sequential := StateM Ledger

namespace Reference

def record (entry : Ledger) : Sequential Unit :=
  modify fun ledger => ledger ++ entry

def enter (node : String) : Sequential Unit :=
  record { Ledger.empty with executed := [node] }

def fail (node : String) (error : NodeError) : Sequential Unit :=
  record { Ledger.empty with failures := [(some node, error.message)] }

def call (template : String) (input : Json) : Sequential Unit :=
  record { Ledger.empty with calls := [(template, input)] }

def callDelegate (engine : Engine) (node : Node) (input : Json) :
    Sequential (Except NodeError Json) :=
  match Fields.get? engine.registry node.templateId with
  | none => return .error (.noImplementation node.id node.templateId)
  | some delegate => do
      call node.templateId input
      return Run.callResult engine.limits.nodeTimeout node (delegate node input)

def perform (engine : Engine) (body : String → Json → Sequential (List (Option Json)))
    (node : Node) (input : Json) : Sequential (Except NodeError Outcome) := do
  match node.kind with
  | .trigger => return .ok (.all node input)
  | .condition =>
      let result ← Branching.evaluate ⟨fun _ key payload => body key payload, fun _ => return ()⟩
        engine.limits.maxWhileIterations node input
      return result.mapError (.branch node.id)
  | .action | .data =>
      let result ← callDelegate engine node input
      return result.map (.all node)

/-- Activates a node at a depth, and then everything downstream of it. -/
def visit (engine : Engine) (graph : Graph) (depth : Nat) (name : String) (input : Json) :
    Sequential (Option Json) :=
  if depth < engine.limits.maxDepth then
    match graph.node? name with
    | none => return none
    | some node => do
        let onward (keys : List String) (payload : Json) : Sequential (List (Option Json)) :=
          (Run.fired graph node keys).mapM fun connection =>
            visit engine graph (depth + 1) connection.target.nodeId payload
        enter node.id
        match ← perform engine (fun key => onward [key]) node input with
        | .error error =>
            fail node.id error
            return none
        | .ok outcome =>
            discard <| onward outcome.ports outcome.payload
            return some outcome.payload
  else do
    fail name (.depthExceeded engine.limits.maxDepth)
    return none
termination_by engine.limits.maxDepth - depth

/-- What all triggers of a graph record, one after another. -/
def run (engine : Engine) (graph : Graph) (input : Json) : Ledger :=
  (graph.triggers.mapM fun trigger => visit engine graph 0 trigger input).run .empty |>.2

/-- What a node and everything downstream of it records if it is visited alone. -/
def alone (engine : Engine) (graph : Graph) (depth : Nat) (input : Json) (name : String) :
    Ledger :=
  (visit engine graph depth name input .empty).2

/-- A program that adds to the ledger without looking at it. -/
def Adds {α : Type} (program : Sequential α) : Prop :=
  ∀ ledger, program ledger = ((program .empty).1, ledger ++ (program .empty).2)

namespace Adds

variable {α β : Type} {first : Sequential α} {next : α → Sequential β}

theorem record (entry : Ledger) : Adds (record entry) := fun ledger => by
  simp [Reference.record, modify, modifyGet, MonadStateOf.modifyGet, StateT.modifyGet, Pure.pure]

theorem pure (value : α) : Adds (Pure.pure value) := fun ledger => by
  show (value, ledger) = (value, ledger ++ Ledger.empty)
  rw [Ledger.append_empty]

theorem bind (adds : Adds first) (goesOn : ∀ value, Adds (next value)) :
    Adds (first >>= next) := fun ledger => by
  have later := goesOn (first .empty).1
  calc
    (first >>= next) ledger = next (first ledger).1 (first ledger).2 := rfl
    _ = next (first .empty).1 (ledger ++ (first .empty).2) := by rw [adds ledger]
    _ = ((next (first .empty).1 .empty).1,
        ledger ++ (first .empty).2 ++ (next (first .empty).1 .empty).2) := later _
    _ = ((next (first .empty).1 (first .empty).2).1,
        ledger ++ (next (first .empty).1 (first .empty).2).2) := by
      rw [later (first .empty).2, Ledger.append_assoc]

theorem map (f : α → β) (adds : Adds first) : Adds (f <$> first) := fun ledger => by
  calc
    (f <$> first) ledger = (f (first ledger).1, (first ledger).2) := rfl
    _ = (f (first .empty).1, ledger ++ (first .empty).2) := by rw [adds ledger]

end Adds

/-- What branching nodes do adds to the ledger if their body does. -/
def addition : Likeness Sequential Sequential where
  like program _ := Adds program
  pure := .pure
  bind := .bind
  map := .map

theorem Adds.mapM {α β : Type} {program : α → Sequential β} (elements : List α)
    (each : ∀ element ∈ elements, Adds (program element)) : Adds (elements.mapM program) := by
  have added : addition.like (elements.mapM program) (elements.mapM program) :=
    addition.mapM elements each
  exact added

theorem callDelegate_adds (engine : Engine) (node : Node) (input : Json) :
    Adds (callDelegate engine node input) := by
  unfold callDelegate
  split
  · exact .pure _
  · exact .bind (.record _) fun _ => .pure _

theorem perform_adds (engine : Engine) {body : String → Json → Sequential (List (Option Json))}
    (bodies : ∀ key payload, Adds (body key payload)) (node : Node) (input : Json) :
    Adds (perform engine body node input) := by
  have worked : Adds (do
      let result ← callDelegate engine node input
      return result.map (Outcome.all node)) :=
    .bind (callDelegate_adds engine node input) fun _ => .pure _
  have surrounded : addition.Surrounded
      ⟨fun _ key payload => body key payload, fun _ => return ()⟩
      ⟨fun _ key payload => body key payload, fun _ => return ()⟩ :=
    ⟨fun _ => bodies, fun _ => .pure ()⟩
  unfold perform
  cases node.kind with
  | trigger => exact .pure _
  | condition => exact .bind (surrounded.evaluate _ node input) fun _ => .pure _
  | action => exact worked
  | data => exact worked

theorem visit_adds (engine : Engine) (graph : Graph) (depth : Nat) (name : String)
    (input : Json) : Adds (visit engine graph depth name input) := by
  generalize reach : engine.limits.maxDepth - depth = left
  induction left generalizing depth name input with
  | zero =>
      unfold visit
      rw [if_neg (by omega)]
      exact .bind (.record _) fun _ => .pure _
  | succ left ih =>
      have onward (node : Node) (keys : List String) (payload : Json) :
          Adds ((Run.fired graph node keys).mapM fun connection =>
            visit engine graph (depth + 1) connection.target.nodeId payload) :=
        .mapM _ fun connection _ => ih (depth + 1) connection.target.nodeId payload (by omega)
      unfold visit
      rw [if_pos (by omega)]
      cases graph.node? name with
      | none => exact .pure _
      | some node =>
          refine .bind (.record _) fun _ => ?_
          refine .bind (perform_adds engine (fun key => onward node [key]) node input)
            fun result => ?_
          cases result with
          | error error => exact .bind (.record _) fun _ => .pure _
          | ok outcome =>
              exact .bind (.map _ (onward node _ _)) fun _ => .pure _

/-- Whatever becomes of the nodes of a list, each records what it records
alone. -/
theorem visits_add_up (engine : Engine) (graph : Graph) (depth : Nat) (input : Json)
    (names : List String) (ledger : Ledger) :
    ((names.mapM fun name => visit engine graph depth name input) ledger).2 =
      (names.map (alone engine graph depth input)).foldl (· ++ ·) ledger := by
  induction names generalizing ledger with
  | nil => rfl
  | cons name rest ih =>
      have first := visit_adds engine graph depth name input ledger
      simp only [List.mapM_cons, Bind.bind, StateT.bind, List.map_cons, List.foldl_cons] at ih ⊢
      rw [first]
      exact ih _

end Reference

def Deed.asked? (deed : Deed) : Option (String × Json) :=
  deed.call?.map fun made => (made.template, made.input)

/-- A run's own deeds enter a ledger, in some order. -/
structure Ledger.Gains (run : Path) (before : Ledger) (deeds : List Deed) (after : Ledger) :
    Prop where
  executed : after.executed.Perm (before.executed ++ deeds.filterMap Deed.started?)
  failures : after.failures.Perm (before.failures ++ deeds.filterMap Deed.failure?)
  calls : after.calls.Perm (before.calls ++ deeds.filterMap Deed.asked?)
  own : ∀ deed ∈ deeds, deed.run = run

namespace Ledger.Gains

variable {run : Path} {before middle after : Ledger} {first second deeds : List Deed}

theorem nothing (run : Path) (ledger : Ledger) : ledger.Gains run [] ledger :=
  ⟨by simp, by simp, by simp, by simp⟩

theorem andThen (earlier : before.Gains run first middle) (later : middle.Gains run second after) :
    before.Gains run (first ++ second) after where
  executed := by
    rw [List.filterMap_append, ← List.append_assoc]
    exact later.executed.trans (earlier.executed.append_right _)
  failures := by
    rw [List.filterMap_append, ← List.append_assoc]
    exact later.failures.trans (earlier.failures.append_right _)
  calls := by
    rw [List.filterMap_append, ← List.append_assoc]
    exact later.calls.trans (earlier.calls.append_right _)
  own deed member := by
    rcases List.mem_append.mp member with member | member
    · exact earlier.own deed member
    · exact later.own deed member

theorem reorder (gains : before.Gains run first after) (mixed : deeds.Perm first) :
    before.Gains run deeds after where
  executed := gains.executed.trans ((mixed.filterMap _).symm.append_left _)
  failures := gains.failures.trans ((mixed.filterMap _).symm.append_left _)
  calls := gains.calls.trans ((mixed.filterMap _).symm.append_left _)
  own deed member := gains.own deed (mixed.mem_iff.mp member)

end Ledger.Gains

namespace Reference

/-- Whatever course activations of a run take, the sequential program has the
same result and enters the same in the ledger. -/
def likeness (run : Path) : Likeness (Courses Deed) Sequential where
  like courses program := ∀ deeds result, courses deeds result → ∀ ledger,
    (program ledger).1 = result ∧ ledger.Gains run deeds (program ledger).2
  pure value := by
    intro deeds result given ledger
    obtain ⟨rfl, rfl⟩ := given
    exact ⟨rfl, .nothing run ledger⟩
  bind first next := by
    intro deeds result given ledger
    obtain ⟨before, after, value, rfl, taken, goesOn⟩ := given
    obtain ⟨rfl, earlier⟩ := first before value taken ledger
    obtain ⟨same, later⟩ := next _ after result goesOn _
    exact ⟨same, earlier.andThen later⟩
  map f first := by
    intro deeds result taken ledger
    obtain ⟨value, done, rfl⟩ := (Courses.map_iff f _ deeds result).mp taken
    obtain ⟨rfl, gains⟩ := first deeds value done ledger
    exact ⟨rfl, gains⟩

variable {run path : Path}

/-- Side by side or one after another comes to the same. -/
theorem likeness_all {α β : Type} {courses : Nat → α → Courses Deed β} {program : α → Sequential β}
    (elements : List α)
    (each : ∀ index, ∀ element ∈ elements,
      (likeness run).like (courses index element) (program element)) :
    (likeness run).like (Courses.all (elements.mapIdx courses)) (elements.mapM program) := by
  induction elements generalizing courses with
  | nil => exact (likeness run).pure []
  | cons element rest ih =>
      rw [List.mapIdx_cons, List.mapM_cons]
      intro deeds result given ledger
      obtain ⟨left, right, value, values, mixed, goes, follows, rfl⟩ := given
      obtain ⟨rfl, earlier⟩ := each 0 element (by simp) left value goes ledger
      have others := ih fun index later member =>
        each (index + 1) later (by simp [member])
      obtain ⟨rfl, later⟩ := others right values follows (program element ledger).2
      exact ⟨rfl, (earlier.andThen later).reorder mixed.perm⟩

theorem tell_like {event : Uuid → Event} {program : Sequential Unit}
    (enters : ∀ id ledger, Ledger.Gains run ledger [.event ⟨path, event id⟩] (program ledger).2) :
    (likeness run).like (Course.tell path event) program := by
  intro deeds _ given ledger
  obtain ⟨id, rfl⟩ := given
  exact ⟨rfl, enters id ledger⟩

theorem enter_like (inside : Path.run path = run) (node : String) :
    (likeness run).like (Course.tell path fun id => .nodeStarted id node) (enter node) :=
  tell_like fun id ledger =>
    { executed := .refl _
      failures := .refl _
      calls := .refl _
      own := by simpa [Deed.run, Traced.run] using inside }

theorem fail_like (inside : Path.run path = run) (node : String) (error : NodeError) :
    (likeness run).like (Course.fail path node error) (fail node error) :=
  tell_like fun id ledger =>
    { executed := .refl _
      failures := .refl _
      calls := .refl _
      own := by simpa [Deed.run, Traced.run] using inside }

theorem succeed_like (inside : Path.run path = run) (node : String) :
    (likeness run).like (Course.tell path fun id => .nodeSucceeded id node)
      (pure () : Sequential Unit) :=
  tell_like fun id ledger =>
    { executed := .of_eq (List.append_nil _).symm
      failures := .of_eq (List.append_nil _).symm
      calls := .of_eq (List.append_nil _).symm
      own := by simpa [Deed.run, Traced.run] using inside }

theorem callDelegate_like (engine : Engine) (inside : Path.run path = run) (node : Node)
    (input : Json) :
    (likeness run).like (Course.callDelegate engine path node input)
      (callDelegate engine node input) := by
  unfold Course.callDelegate callDelegate
  cases Fields.get? engine.registry node.templateId with
  | none => exact (likeness run).pure _
  | some delegate =>
      refine (likeness run).bind ?_ fun _ => (likeness run).pure _
      intro _ _ same ledger
      obtain rfl := same
      exact ⟨rfl, .refl _, .refl _, .refl _, by simpa [Deed.run] using inside⟩

theorem perform_like (engine : Engine) {visit : Course.Visit} {graph : Graph}
    (inside : Path.run path = run) {node : Node} (plain : node.templateId ≠ subflowTemplate)
    {body : String → Json → Sequential (List (Option Json))}
    (bodies : ∀ round key payload, (likeness run).like
      (Course.runBody visit graph path node round key payload) (body key payload))
    (input : Json) :
    (likeness run).like (Course.perform engine visit graph path node input)
      (perform engine body node input) := by
  have worked : (likeness run).like (do
        let result ← Course.callDelegate engine path node input
        return result.map (Outcome.all node)) (do
        let result ← callDelegate engine node input
        return result.map (Outcome.all node)) :=
    (likeness run).bind (callDelegate_like engine inside node input) fun _ => (likeness run).pure _
  have surrounded : (likeness run).Surrounded (Course.surroundings visit graph path node)
      ⟨fun _ key payload => body key payload, fun _ => return ()⟩ :=
    ⟨bodies, fun _ => (likeness run).pure ()⟩
  unfold Course.perform perform
  cases node.kind with
  | trigger => exact (likeness run).pure _
  | condition =>
      exact (likeness run).bind (surrounded.evaluate _ node input) fun _ => (likeness run).pure _
  | action => simpa only [if_neg plain] using worked
  | data => simpa only [if_neg plain] using worked

section Visits

variable {engine : Engine} {graph : Graph} {visit : Course.Visit}
  {program : String → Json → Sequential (Option Json)} {node : Node}
  (visits : ∀ path name payload, Path.run path = run → (graph.node? name).isSome →
    (likeness run).like (visit graph path name payload) (program name payload))
  (reaches : ∀ connection ∈ graph.connections, (graph.node? connection.target.nodeId).isSome)

include visits reaches

theorem runBody_like (inside : Path.run path = run) (round : Nat) (key : String)
    (payload : Json) :
    (likeness run).like (Course.runBody visit graph path node round key payload)
      ((Run.fired graph node [key]).mapM fun connection =>
        program connection.target.nodeId payload) := by
  unfold Course.runBody
  rw [Run.fired_single]
  cases node.output? key with
  | none => exact (likeness run).pure []
  | some port =>
      have unnumbered : (graph.outgoing ⟨node.id, port.id⟩).mapM (fun connection =>
          program connection.target.nodeId payload) =
          (graph.outgoing ⟨node.id, port.id⟩).zipIdx.mapM fun numbered =>
            program numbered.1.target.nodeId payload := by
        conv_lhs => rw [← List.zipIdx_map_fst 0 (graph.outgoing ⟨node.id, port.id⟩)]
        exact List.mapM_map
      dsimp only
      rw [unnumbered]
      refine (likeness run).mapM _ fun numbered member => ?_
      have leaves := List.mem_filter.mp (List.fst_mem_of_mem_zipIdx member)
      exact visits _ _ _ (by rwa [Path.run_body]) (reaches numbered.1 leaves.1)

theorem follow_like (inside : Path.run path = run) (outcome : Outcome) :
    (likeness run).like (Course.follow visit graph path node outcome)
      (discard ((Run.fired graph node outcome.ports).mapM fun connection =>
        program connection.target.nodeId outcome.payload)) := by
  unfold Course.follow
  dsimp only
  split
  · rename_i ended
    rw [List.isEmpty_iff.mp ended]
    intro _ _ same ledger
    obtain rfl := same
    exact ⟨rfl, .of_eq (List.append_nil _).symm, .of_eq (List.append_nil _).symm,
      .of_eq (List.append_nil _).symm, by simpa [Deed.run] using inside⟩
  · refine (likeness run).map _ (likeness_all _ fun index connection member => ?_)
    have known := Run.fired_subset graph node outcome.ports member
    exact visits _ _ _ (by rwa [Path.run_follow]) (reaches connection known)

end Visits

theorem visit_like (engine : Engine) {graph : Graph} (wellFormed : graph.WellFormed)
    (plain : ∀ node ∈ graph.nodes, node.templateId ≠ subflowTemplate) (left depth : Nat)
    (reach : left + depth = engine.limits.maxDepth) {path : Path} (inside : Path.run path = run)
    {name : String} (known : (graph.node? name).isSome) (input : Json) :
    (likeness run).like (Course.visit engine left graph path name input)
      (visit engine graph depth name input) := by
  obtain ⟨node, found⟩ := Option.isSome_iff_exists.mp known
  induction left generalizing depth path name input node with
  | zero =>
      unfold Course.visit visit
      rw [if_neg (by omega), found]
      exact (likeness run).bind (fail_like inside _ _) fun _ => (likeness run).pure none
  | succ left ih =>
      have member : node ∈ graph.nodes := List.mem_of_find?_eq_some found
      have visits : ∀ path name payload, Path.run path = run → (graph.node? name).isSome →
          (likeness run).like (Course.visit engine left graph path name payload)
            (visit engine graph (depth + 1) name payload) := by
        intro path name payload inside known
        obtain ⟨other, found⟩ := Option.isSome_iff_exists.mp known
        exact ih (depth + 1) (by omega) inside known payload other found
      unfold Course.visit visit
      rw [if_pos (by omega), found]
      refine (likeness run).bind (enter_like inside node.id) fun _ => ?_
      have performed := perform_like engine inside (plain node member)
        (runBody_like visits wellFormed.reaches inside) input
      refine (likeness run).bind performed fun result => ?_
      cases result with
      | error error =>
          exact (likeness run).bind (fail_like inside node.id error) fun _ => (likeness run).pure _
      | ok outcome =>
          refine (likeness run).bindPure (succeed_like inside node.id) ?_
          exact (likeness run).bind (follow_like visits wellFormed.reaches inside outcome)
            fun _ => (likeness run).pure _

end Reference

/-- A run has come to what a ledger says, in whatever order. -/
structure Ledger.Sums (ledger : Ledger) (before after : World) (execution : Execution) : Prop where
  executed : execution.executedNodes.Perm ledger.executed
  failures : execution.failures.Perm ledger.failures
  calls : ∃ calls, after.calls = before.calls ++ calls ∧
    (calls.map fun call => (call.template, call.input)).Perm ledger.calls
  status : execution.status = ledger.status

/-- A run in turns comes to what the plain recursion comes to.  In it each of
several nodes that are visited after another records what it records alone, so
no failure keeps a sibling from its work. -/
theorem Engine.run_refines_reference (engine : Engine) {graph : Graph} {report : Graph.Report}
    (accepted : graph.check = .ok report)
    (plain : ∀ node ∈ graph.nodes, node.templateId ≠ subflowTemplate) (input : Json)
    (world : World) :
    (Reference.run engine graph input).Sums world (engine.run graph input .triggers world).1
      (engine.run graph input .triggers world).2 ∧
    ∀ (depth : Nat) (names : List String) (payload : Json) (ledger : Ledger),
      ((names.mapM fun name => Reference.visit engine graph depth name payload) ledger).2 =
        (names.map (Reference.alone engine graph depth payload)).foldl (· ++ ·) ledger := by
  refine ⟨?_, fun depth names payload => Reference.visits_add_up engine graph depth payload names⟩
  obtain ⟨wellFormed, rfl⟩ := Graph.check_eq_ok_iff.mp accepted
  obtain ⟨deeds, tally, ⟨attempted, attempt, tells, rfl⟩, grows, same⟩ :=
    engine.run_takes graph input .triggers world
  have likely : (Reference.likeness []).like
      (Course.attempt (Course.visit engine engine.limits.maxDepth) [] graph input .triggers)
      (discard (graph.triggers.mapM fun trigger =>
        Reference.visit engine graph 0 trigger input)) := by
    unfold Course.attempt
    rw [accepted]
    refine (Reference.likeness []).map _ (Reference.likeness_all _ fun index name member => ?_)
    exact Reference.visit_like engine wellFormed plain _ 0 rfl (by rfl)
      (Graph.node?_isSome_of_mem_triggers member) input
  obtain ⟨_, gains⟩ := likely attempted () attempt .empty
  have own : Deed.of [] attempted = attempted :=
    List.filter_eq_self.mpr fun deed member => by simpa using gains.own deed member
  rw [own] at tells
  have failures : tally.execution.failures.Perm (Reference.run engine graph input).failures :=
    tells.failures ▸ gains.failures.symm
  rw [same]
  refine ⟨tells.executed ▸ gains.executed.symm, failures, ?_, ?_⟩
  · refine ⟨attempted.filterMap Deed.call?, ?_, ?_⟩
    · rw [grows.calls]
      simp [List.filterMap_cons, Deed.call?]
    · rw [List.map_filterMap]
      exact gains.calls.symm
  · have both : tally.execution.errors.isEmpty =
        (Reference.run engine graph input).failures.isEmpty := by
      rw [← failures.isEmpty_eq]
      simp [Execution.failures]
    rw [tells.status, Ledger.status, both]

/-- A trigger with two nodes behind it, of which the first panics. -/
def forked : Graph :=
  let port (id : String) (direction : Direction) : Port := ⟨id, id, direction, anyType, true⟩
  let node (id template : String) (kind : Kind) (inputs outputs : List Port) : Node :=
    ⟨id, template, kind, id, [], inputs, outputs, .idle, .origin⟩
  { id := .nil
    name := "forked"
    nodes :=
      [ node "start" "manual" .trigger [] [port "out" .output],
        node "left" "broken" .action [port "in" .input] [],
        node "right" "sound" .data [port "in" .input] [] ]
    connections :=
      [ ⟨"first", ⟨"start", "out"⟩, ⟨"left", "in"⟩, anyType⟩,
        ⟨"second", ⟨"start", "out"⟩, ⟨"right", "in"⟩, anyType⟩ ] }

/-- Delegates for `forked`, both of which take their time. -/
def forkedEngine : Engine where
  registry :=
    [("broken", fun _ _ => ⟨5, .panicked⟩), ("sound", fun _ input => ⟨9, .returned input⟩)]
  library := []
  limits := ⟨100, 8, 8⟩

theorem run_of_forked_refines_reference :
    forked.check = .ok ⟨["start"], false⟩ ∧
    (∀ node ∈ forked.nodes, node.templateId ≠ subflowTemplate) ∧
    (Reference.run forkedEngine forked .null).Sums (.new ⟨0, 0⟩ ⟨0⟩)
      (forkedEngine.run forked .null .triggers (.new ⟨0, 0⟩ ⟨0⟩)).1
      (forkedEngine.run forked .null .triggers (.new ⟨0, 0⟩ ⟨0⟩)).2 := by
  have accepted : forked.check = .ok ⟨["start"], false⟩ := by rfl
  have plain : ∀ node ∈ forked.nodes, node.templateId ≠ subflowTemplate := by decide
  exact ⟨accepted, plain,
    (forkedEngine.run_refines_reference accepted plain .null (.new ⟨0, 0⟩ ⟨0⟩)).1⟩

/-- The second node does its work although the first one fails. -/
example :
    let execution := (forkedEngine.run forked .null .triggers (.new ⟨0, 0⟩ ⟨0⟩)).2
    execution.executedNodes = ["start", "left", "right"] ∧
      execution.failures = [(some "left", "node 'left' failed: implementation panicked")] := by
  decide +kernel

end Workflow
