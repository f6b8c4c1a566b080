import Workflow.Proofs.Course
import Workflow.Proofs.Mixing

/-! No activation leaves its node at work.

The activations of a run write the statuses of their nodes into one map, and several of
them may be activations of one node.  Whatever the order, an activation that has put its
node to work writes its outcome later, so that the status written last for a node is an
outcome as soon as all are over: `Engine.run_settles`.
-/

namespace Workflow

/-- What a run writes: the status of a node, into its open record, or a record that it
closes. -/
inductive Write where
  | status (node : String) (status : Status)
  | record (finished : Finished)

namespace Write

def status? (node : String) : Write → Option Status
  | .status other written => if other = node then some written else none
  | .record _ => none

def record? : Write → Option Finished
  | .status .. => none
  | .record finished => some finished

/-- A write that others than the run itself see. -/
def shared? : Write → Option Write
  | .status .. => none
  | .record finished => some (.record finished)

/-- The status that is written last for a node. -/
def last? (node : String) (writes : List Write) : Option Status :=
  (writes.filterMap (status? node)).getLast?

variable {node : String} {status : Status} {first second writes : List Write}

@[simp] theorem last?_append :
    last? node (first ++ second) = (last? node second).or (last? node first) := by
  simp [last?]

@[simp] theorem last?_single {other : String} :
    last? node [.status other status] = if other = node then some status else none := by
  by_cases same : other = node <;> simp [last?, status?, same]

theorem last?_shared : last? node (writes.filterMap shared?) = none := by
  have silent : (writes.filterMap shared?).filterMap (status? node) = [] := by
    rw [List.filterMap_filterMap, List.filterMap_eq_nil_iff]
    intro write _
    cases write <;> rfl
  rw [last?, silent, List.getLast?_nil]

theorem records_shared :
    (writes.filterMap shared?).filterMap record? = writes.filterMap record? := by
  rw [List.filterMap_filterMap]
  congr 1
  funext write
  cases write <;> rfl

end Write

/-- A record whose entries all say how the work of their nodes ended. -/
structure Execution.Settled (execution : Execution) : Prop where
  ordered : Fields.Ordered execution.nodeStates
  settled : ∀ node status, Fields.get? execution.nodeStates node = some status → status.settled

/-- What writes make of the statuses in an open record. -/
structure Execution.Written (before : Execution) (writes : List Write) (after : Execution) :
    Prop where
  ordered : Fields.Ordered before.nodeStates → Fields.Ordered after.nodeStates
  states : ∀ node, Fields.get? after.nodeStates node =
    (Write.last? node writes).or (Fields.get? before.nodeStates node)

namespace Execution.Written

variable {before middle after : Execution} {first second : List Write}

theorem unchanged (same : after.nodeStates = before.nodeStates) : before.Written [] after :=
  ⟨fun ordered => same ▸ ordered, fun _ => same ▸ rfl⟩

theorem andThen (earlier : before.Written first middle) (later : middle.Written second after) :
    before.Written (first ++ second) after where
  ordered ordered := later.ordered (earlier.ordered ordered)
  states node := by
    rw [later.states, earlier.states, Write.last?_append, Option.or_assoc]

theorem setStatus (node : String) (status : Status)
    (same : after.nodeStates = Fields.insert node status before.nodeStates) :
    before.Written [.status node status] after where
  ordered ordered := same ▸ ordered.insert node status
  states other := by
    rw [same, Fields.get?_insert, Write.last?_single]
    by_cases here : node = other <;> simp [here]

/-- A nested run writes into no record but its own. -/
theorem shared (writes : List Write) (same : after = before) :
    before.Written (writes.filterMap Write.shared?) after where
  ordered ordered := same ▸ ordered
  states node := by rw [Write.last?_shared, same, Option.none_or]

end Execution.Written

/-- After the writes no node is left at work, in the open record and in those that were
closed. -/
structure Write.Closed (writes : List Write) : Prop where
  last : ∀ node status, Write.last? node writes = some status → status.settled
  records : ∀ finished, .record finished ∈ writes → finished.execution.Settled

namespace Write.Closed

variable {first second mixed writes inner opening : List Write} {node : String} {outcome : Status}

theorem nil : Closed [] :=
  ⟨nofun, nofun⟩

theorem mix (left : Closed first) (right : Closed second)
    (interleaved : Interleaved first second mixed) : Closed mixed where
  last node status written := by
    have statuses := interleaved.filterMap (Write.status? node)
    rcases statuses.getLast? written with here | there
    · exact left.last node status here
    · exact right.last node status there
  records finished member := by
    rcases interleaved.mem_iff.mp member with here | there
    · exact left.records finished here
    · exact right.records finished there

theorem mixable : Mixable Closed :=
  ⟨.nil, .mix⟩

/-- Whatever a node was at before, its outcome settles it. -/
theorem around (begun : ∀ write ∈ opening, ∃ status, write = .status node status)
    (closed : Closed inner) (settled : outcome.settled) :
    Closed (opening ++ inner ++ [.status node outcome]) where
  last other status written := by
    rw [Write.last?_append, Write.last?_append, Write.last?_single] at written
    by_cases same : node = other
    · rw [if_pos same] at written
      exact Option.some.inj written ▸ settled
    · have silent : opening.filterMap (Write.status? other) = [] := by
        rw [List.filterMap_eq_nil_iff]
        intro write member
        obtain ⟨status, rfl⟩ := begun write member
        exact if_neg same
      have unwritten : Write.last? other opening = none := by rw [Write.last?, silent]; rfl
      rw [if_neg same, Option.none_or, unwritten, Option.or_none] at written
      exact closed.last other status written
  records finished member := by
    rcases List.mem_append.mp member with before | after
    · rcases List.mem_append.mp before with opens | inside
      · obtain ⟨status, same⟩ := begun _ opens
        contradiction
      · exact closed.records finished inside
    · simp at after

theorem shared (closed : Closed writes) : Closed (writes.filterMap Write.shared?) where
  last node status written := by
    rw [Write.last?_shared] at written
    contradiction
  records finished member := by
    obtain ⟨write, inside, same⟩ := List.mem_filterMap.mp member
    cases write with
    | status => contradiction
    | record other => exact closed.records finished (Option.some.inj same ▸ inside)

/-- A record that was empty when it was opened is settled when the writes are closed. -/
theorem settles (closed : Closed writes) {before after : Execution}
    (written : before.Written writes after) (empty : before.nodeStates = []) :
    after.Settled where
  ordered := written.ordered (empty ▸ .nil)
  settled node status found := by
    rw [written.states, empty, Fields.get?_nil, Option.or_none] at found
    exact closed.last node status found

end Write.Closed

namespace Run

def writing : Conduct RunState Write where
  may before writes after :=
    after.1.finished = before.1.finished ++ writes.filterMap Write.record? ∧
      before.2.execution.Written writes after.2.execution
  nothing state := ⟨(List.append_nil _).symm, .unchanged rfl⟩
  andThen earlier later := by
    refine ⟨?_, earlier.2.andThen later.2⟩
    rw [later.1, earlier.1, List.filterMap_append, List.append_assoc]

def tallyWriting : Conduct Tally Write where
  may before writes after := before.execution.Written writes after.execution
  nothing _ := .unchanged rfl
  andThen earlier later := earlier.andThen later

def outerWriting (ο : Type) : Conduct (World × ο) Write where
  may before writes after :=
    after.1.finished = before.1.finished ++ writes.filterMap Write.record? ∧ after.2 = before.2
  nothing state := ⟨(List.append_nil _).symm, rfl⟩
  andThen earlier later := by
    refine ⟨?_, later.2.trans earlier.2⟩
    rw [later.1, earlier.1, List.filterMap_append, List.append_assoc]

/-- An activity that leaves no node at work. -/
def Closes {α : Type} (activity : Running α) : Prop :=
  activity.Leaves writing Write.Closed

namespace Closes

variable {α β : Type} {activity : Running α}

theorem pure (value : α) : Closes (Pure.pure value : Running α) :=
  Activity.Leaves.pure Write.Closed.mixable value

theorem bind {next : α → Running β} (closes : Closes activity)
    (goesOn : ∀ value, Closes (next value)) : Closes (activity >>= next) :=
  Activity.Leaves.bind Write.Closed.mixable closes goesOn

/-- What is done at once and writes nothing. -/
theorem atOnce {result : RunState → α} (done : ∀ state, (activity state).2 = .done (result state))
    (finished : ∀ state : RunState, (activity state).1.1.finished = state.1.finished)
    (states : ∀ state : RunState,
      (activity state).1.2.execution.nodeStates = state.2.execution.nodeStates) :
    Closes activity := by
  refine Activity.Takes.atOnce done fun state => ⟨[], ⟨?_, .unchanged (states state)⟩, .nil⟩
  exact (finished state).trans (List.append_nil _).symm

end Closes

theorem log_closes (node : Option String) (level : LogLevel) (message : String)
    (data : Option Json) : Closes (Running.log node level message data) :=
  .atOnce (fun _ => rfl) (fun _ => rfl) fun _ => rfl

theorem pause_writes : Activity.pause.Takes writing (pure ()) := by
  intro state
  exact ⟨[], writing.nothing state, fun later => ⟨[], writing.nothing later, rfl, rfl⟩⟩

theorem closes_chores : Chores writing Write.Closed where
  mixable := Write.Closed.mixable
  warn node message := log_closes node .warn message none
  endOn _ _ := Closes.atOnce (fun _ => rfl) (fun _ => rfl) fun _ => rfl
  noteCall _ := Closes.atOnce (fun _ => rfl) (fun _ => rfl) fun _ => rfl
  refuse _ := Closes.atOnce (fun _ => rfl) (fun _ => rfl) fun _ => rfl

/-- What is done at once and writes the status of one node. -/
theorem writes_status {activity : Running Unit} {node : String} {status : Status}
    (done : ∀ state, (activity state).2 = .done ())
    (finished : ∀ state : RunState, (activity state).1.1.finished = state.1.finished)
    (states : ∀ state : RunState, (activity state).1.2.execution.nodeStates =
      Fields.insert node status state.2.execution.nodeStates) :
    activity.Takes writing fun writes _ => writes = [.status node status] := by
  refine .atOnce done fun state => ⟨_, ⟨?_, .setStatus node status (states state)⟩, rfl⟩
  exact (finished state).trans (List.append_nil _).symm

theorem start_writes (path : Path) (node : Node) :
    (start path node).Takes writing fun writes _ => writes = [.status node.id .running] :=
  writes_status (fun _ => rfl) (fun _ => rfl) fun _ => rfl

theorem succeed_writes (path : Path) (node : Node) (outcome : Outcome) :
    (succeed path node outcome).Takes writing fun writes _ =>
      writes = [.status node.id .success] :=
  writes_status (fun _ => rfl) (fun _ => rfl) fun _ => rfl

theorem fail_writes (path : Path) (node : String) (error : NodeError) :
    (fail path node error).Takes writing fun writes _ => writes = [.status node .error] :=
  writes_status (fun _ => rfl) (fun _ => rfl) fun _ => rfl

theorem fail_closes (path : Path) (node : String) (error : NodeError) :
    Closes (fail path node error) := by
  refine (fail_writes path node error).mono ?_
  rintro _ _ rfl
  have closed : Write.Closed ([] ++ [] ++ [.status node .error]) := .around nofun .nil rfl
  exact closed

/-- An activity that may put a node to work before it does what leaves none at work. -/
def Works {α : Type} (node : String) (activity : Running α) : Prop :=
  activity.Takes writing fun writes _ => ∃ opening inner, writes = opening ++ inner ∧
    (∀ write ∈ opening, ∃ status, write = .status node status) ∧ Write.Closed inner

theorem Closes.works {α : Type} {activity : Running α} (closes : Closes activity) (node : String) :
    Works node activity :=
  Activity.Takes.mono closes fun {writes _} closed => ⟨[], writes, rfl, nofun, closed⟩

/-- An activity that begins by settling a node and leaves none at work. -/
def Ends {α : Type} (node : String) (activity : Running α) : Prop :=
  activity.Takes writing fun writes _ => ∃ outcome followed, outcome.settled ∧
    writes = .status node outcome :: followed ∧ Write.Closed followed

section Visits

variable {engine : Engine} {visit : Visit}
  (visits : ∀ graph path node input, Closes (visit graph path node input))

include visits

/-- A whole run leaves no node at work in any record that it closes, its own among them. -/
theorem wholeGraph_closes {ο : Type} (path : Path) (graph : Graph) (input : Json) (entry : Entry) :
    (wholeGraph visit path graph input entry).Takes (outerWriting ο) fun writes _ =>
      Write.Closed writes := by
  have opened : (openRecord path graph : Activity (World × ο) Execution).Takes (outerWriting ο)
      fun writes execution => writes = [] ∧ execution.nodeStates = [] :=
    .atOnce (fun _ => rfl) fun state => ⟨[], ⟨(List.append_nil _).symm, rfl⟩, rfl, rfl⟩
  have attempted (execution : Execution) :
      ((attempt visit path graph input entry).within (⟨execution, []⟩ : Tally)).Takes
        (outerWriting ο) fun writes result =>
          Write.Closed writes ∧ execution.Written writes result.2.execution := by
    refine .within tallyWriting ?_ (closes_chores.attempt visits path graph input entry) _
    exact fun done => ⟨done.2, fun _ => ⟨done.1, rfl⟩⟩
  have closed (tally : Tally) : (closeRecord path tally : Activity (World × ο) Tally).Takes
      (outerWriting ο) fun writes _ =>
        ∃ now, writes = [.record ⟨path, tally.execution.finish now⟩] :=
    .atOnce (fun _ => rfl) fun state => ⟨_, ⟨rfl, rfl⟩, state.1.instant, rfl⟩
  refine (opened.bindReached fun _ execution _ =>
    (attempted execution).bind fun result => closed result.2).mono ?_
  intro _ tally given
  obtain ⟨_, _, execution, rfl, ⟨rfl, empty⟩, middle, _, result, rfl, ⟨inner, written⟩, now,
    rfl⟩ := given
  obtain ⟨ordered, settled⟩ := inner.settles written empty
  rw [List.nil_append]
  refine Write.Closed.mixable.append inner ⟨nofun, fun finished member => ?_⟩
  obtain rfl : finished = ⟨path, result.2.execution.finish now⟩ := by simpa using member
  exact ⟨ordered, settled⟩

theorem callSubflow_closes (graph : Graph) (path : Path) (node : Node) (input : Json) :
    Closes (callSubflow engine visit graph path node input) := by
  unfold callSubflow
  cases definitionOf engine graph node with
  | error error => exact .pure _
  | ok definition =>
      refine Closes.bind (.atOnce (fun _ => rfl) (fun _ => rfl) fun _ => rfl) fun id => ?_
      have nested : Closes (wholeGraph visit path (definition.toGraph id)
          (definition.inputMapping.apply input) .triggersOrRoots) := by
        have whole : (wholeGraph visit path (definition.toGraph id)
            (definition.inputMapping.apply input) .triggersOrRoots).Takes (outerWriting Tally) _ :=
          wholeGraph_closes visits path _ _ _
        refine (whole.filterMap Write.shared? fun {_ writes _} done => ?_).mono ?_
        · exact ⟨by rw [Write.records_shared]; exact done.1, .shared writes (by rw [done.2])⟩
        · rintro _ _ ⟨writes, rfl, closed⟩
          exact closed.shared
      refine nested.bind fun tally => ?_
      cases nestedOutcome node definition input tally with
      | error error => exact .pure _
      | ok outcome => exact (log_closes _ _ _ _).bind fun _ => .pure _

theorem perform_works (graph : Graph) (path : Path) (node : Node) (input : Json) :
    Works node.id (perform engine visit graph path node input) := by
  unfold perform
  cases node.kind with
  | trigger => exact (Closes.pure _).works _
  | condition =>
      have evaluated : Closes (Branching.evaluate (surroundings visit graph path node)
          engine.limits.maxWhileIterations node input) :=
        closes_chores.evaluate visits _ graph path node input
      have ended := evaluated.bind fun result => .pure (result.mapError (NodeError.branch node.id))
      dsimp only
      split
      · have waits : (Running.record fun execution => execution.setStatus node.id .waiting).Takes
            writing fun writes _ => writes = [.status node.id .waiting] :=
          writes_status (fun _ => rfl) (fun _ => rfl) fun _ => rfl
        refine (waits.bind fun _ => ended).mono ?_
        rintro _ _ ⟨_, inner, _, rfl, rfl, closed⟩
        exact ⟨_, inner, rfl, by simp, closed⟩
      · exact ended.works _
  | action | data =>
      dsimp only
      split
      · exact (callSubflow_closes visits graph path node input).works _
      · have called : Closes (callDelegate engine path node input) :=
          closes_chores.callDelegate engine path node input
        exact (called.bind fun _ => .pure _).works _

/-- An activation ends with the outcome of its node, whatever was written for the node
meanwhile. -/
theorem activate_closes (graph : Graph) (path : Path) (node : Node) (input : Json) :
    Closes (activate engine visit graph path node input) := by
  refine Activity.Takes.mono ((start_writes path node).bind fun _ =>
    pause_writes.bindPure <|
      Activity.Takes.bind (perform_works visits graph path node input) fun result =>
        (?_ : Ends node.id _)) ?_
  · cases result with
    | error error =>
        refine ((fail_writes path node.id error).bind fun _ => Closes.pure none).mono ?_
        rintro _ _ ⟨_, followed, _, rfl, rfl, closed⟩
        exact ⟨_, followed, rfl, rfl, closed⟩
    | ok outcome =>
        have follows : Closes (follow visit graph path node outcome) :=
          closes_chores.follow visits graph path node outcome
        have onward := follows.bind fun _ => .pure (some outcome.payload)
        refine ((succeed_writes path node outcome).bind fun _ => onward).mono ?_
        rintro _ _ ⟨_, followed, _, rfl, rfl, closed⟩
        exact ⟨_, followed, rfl, rfl, closed⟩
  · rintro _ _ ⟨_, _, _, rfl, rfl, _, _, _, rfl, ⟨opening, inner, rfl, begun, closed⟩, outcome,
      followed, settled, rfl, onward⟩
    have begun : ∀ write ∈ .status node.id .running :: opening, ∃ status,
        write = .status node.id status := List.forall_mem_cons.mpr ⟨⟨_, rfl⟩, begun⟩
    simpa using Write.Closed.mixable.append (Write.Closed.around begun closed settled) onward

end Visits

theorem visit_closes (engine : Engine) (left : Nat) (graph : Graph) (path : Path) (node : String)
    (input : Json) : Closes (visit engine left graph path node input) := by
  induction left generalizing graph path node input with
  | zero =>
      unfold visit
      cases graph.node? node with
      | none => exact (fail_closes path node _).bind fun _ => .pure _
      | some found => exact (fail_closes path node _).bind fun _ => .pure _
  | succ left ih =>
      unfold visit
      cases graph.node? node with
      | none => exact (fail_closes path node _).bind fun _ => .pure _
      | some found => exact activate_closes ih graph path found input

end Run

/-- In every record that a run closes, each node is settled. -/
theorem Engine.run_settles (engine : Engine) (graph : Graph) (input : Json) (entry : Entry)
    (world : World) :
    ∃ finished, (engine.run graph input entry world).1.finished = world.finished ++ finished ∧
      ∀ record ∈ finished, record.execution.Settled := by
  have takes : (Run.wholeGraph (Run.visit engine engine.limits.maxDepth) [] graph input
      entry).Takes (Run.outerWriting Unit) _ :=
    Run.wholeGraph_closes (Run.visit_closes engine _) [] graph input entry
  have timely (time : Nat) (state : World × Unit) :
      (Run.outerWriting Unit).may state [] (state.1.advance time, state.2) :=
    ⟨(List.append_nil _).symm, rfl⟩
  obtain ⟨writes, ⟨kept, _⟩, closed⟩ := takes.run timely (world, ())
  refine ⟨_, kept, fun record member => ?_⟩
  obtain ⟨write, inside, same⟩ := List.mem_filterMap.mp member
  cases write with
  | status => contradiction
  | record other => exact closed.records record (Option.some.inj same ▸ inside)

end Workflow
