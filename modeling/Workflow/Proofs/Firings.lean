import Workflow.Proofs.OrderlySessions
import Workflow.Proofs.Running

/-! What the record of a run says of its activations.

A record lists the nodes that were activated, and for an activation that finished
a log entry lists the outputs that it fired.  Where all nodes are orderly, an
activation is listed once, and what it leads to are the activations at the ends of
the connections that leave those outputs: `Engine.run_tells`.
-/

namespace Workflow

/-- The node and the fired outputs, if the entry tells of a finished activation. -/
def LogEntry.firing? (entry : LogEntry) : Option (String × List String) := do
  let node ← entry.nodeId
  let ports ← (← entry.data).field? "ports"
  return (node, (← ports.array?).filterMap Json.string?)

def Execution.firings (execution : Execution) : List (String × List String) :=
  execution.logs.filterMap LogEntry.firing?

theorem Execution.firings_log (execution : Execution) (entry : LogEntry) :
    (execution.log entry).firings = execution.firings ++ entry.firing?.toList := by
  cases told : entry.firing? <;> simp [firings, log, told]

/-- What there is to tell of each element, in some order. -/
def Mixed {ε β : Type} (tells : β → List ε → Prop) : List β → List ε → Prop
  | [], deeds => deeds = []
  | element :: rest, deeds =>
      ∃ own others, tells element own ∧ Mixed tells rest others ∧ deeds.Perm (own ++ others)

section

variable {ε α β : Type} {tells : β → List ε → Prop} {elements : List β} {deeds : List ε}

theorem Courses.mixed_of_allIdx {program : Nat → β → Courses ε α} {results : List α}
    (taken : Courses.all (elements.mapIdx program) deeds results)
    (each : ∀ index element deeds result,
      program index element deeds result → tells element deeds) :
    Mixed tells elements deeds := by
  induction elements generalizing program deeds results with
  | nil => exact taken.1
  | cons element rest ih =>
      rw [List.mapIdx_cons] at taken
      obtain ⟨own, others, value, values, mixed, goes, follows, _⟩ := taken
      exact ⟨own, others, each 0 element own value goes,
        ih follows fun index => each (index + 1), mixed.perm⟩

namespace Mixed

theorem of_mem (mixed : Mixed tells elements deeds) {element : β} (member : element ∈ elements) :
    ∃ part ⊆ deeds, tells element part := by
  induction elements generalizing deeds with
  | nil => contradiction
  | cons first rest ih =>
      obtain ⟨own, others, told, follows, order⟩ := mixed
      rcases List.mem_cons.mp member with rfl | later
      · exact ⟨own, fun _ inside => order.mem_iff.mpr (List.mem_append_left _ inside), told⟩
      · obtain ⟨part, inside, tell⟩ := ih follows later
        exact ⟨part, fun _ here => order.mem_iff.mpr (List.mem_append_right _ (inside here)), tell⟩

theorem mem (mixed : Mixed tells elements deeds) {deed : ε} (member : deed ∈ deeds) :
    ∃ element ∈ elements, ∃ part ⊆ deeds, tells element part ∧ deed ∈ part := by
  induction elements generalizing deeds with
  | nil =>
      obtain rfl : deeds = [] := mixed
      contradiction
  | cons first rest ih =>
      obtain ⟨own, others, told, follows, order⟩ := mixed
      rcases List.mem_append.mp (order.mem_iff.mp member) with here | later
      · exact ⟨first, by simp, own,
          fun _ inside => order.mem_iff.mpr (List.mem_append_left _ inside), told, here⟩
      · obtain ⟨element, known, part, inside, tell, own⟩ := ih follows later
        exact ⟨element, by simp [known], part,
          fun _ here => order.mem_iff.mpr (List.mem_append_right _ (inside here)), tell, own⟩

/-- Nothing is repeated if it is not within what one element tells, and different
elements tell of different things. -/
theorem nodup {δ : Type} {f : ε → Option δ} (mixed : Mixed tells elements deeds)
    (distinct : elements.Nodup)
    (each : ∀ element ∈ elements, ∀ part, tells element part → (part.filterMap f).Nodup)
    (apart : ∀ first ∈ elements, ∀ second ∈ elements, first ≠ second → ∀ part other,
      tells first part → tells second other →
        (part.filterMap f).Disjoint (other.filterMap f)) :
    (deeds.filterMap f).Nodup := by
  induction elements generalizing deeds with
  | nil =>
      obtain rfl : deeds = [] := mixed
      exact List.nodup_nil
  | cons first rest ih =>
      obtain ⟨own, others, told, follows, order⟩ := mixed
      obtain ⟨new, different⟩ := List.nodup_cons.mp distinct
      rw [(order.filterMap f).nodup_iff, List.filterMap_append, List.nodup_append']
      refine ⟨each first (by simp) own told, ih follows different
        (fun element member => each element (by simp [member]))
        (fun one here two there => apart one (by simp [here]) two (by simp [there])), ?_⟩
      intro value inside again
      obtain ⟨deed, member, image⟩ := List.mem_filterMap.mp again
      obtain ⟨element, known, part, _, tell, here⟩ := follows.mem member
      have other : first ≠ element := fun same => new (same ▸ known)
      exact apart first (by simp) element (by simp [known]) other own part told tell inside
        (List.mem_filterMap.mpr ⟨deed, here, image⟩)

end Mixed

end

/-- What an activation leaves in the record. -/
inductive Mark where
  | entered (node : String)
  | fired (node : String) (ports : List String)

namespace Mark

def entered? : Mark → Option String
  | .entered node => some node
  | .fired .. => none

def fired? : Mark → Option (String × List String)
  | .entered _ => none
  | .fired node ports => some (node, ports)

variable {name : String} {ports : List String} {marks : List Mark}

@[simp] theorem entered?_eq_some_iff {mark : Mark} :
    mark.entered? = some name ↔ mark = .entered name := by
  cases mark <;> simp [entered?]

@[simp] theorem fired?_eq_some_iff {mark : Mark} :
    mark.fired? = some (name, ports) ↔ mark = .fired name ports := by
  cases mark <;> simp [fired?]

theorem mem_entered_iff : name ∈ marks.filterMap entered? ↔ .entered name ∈ marks := by
  simp

theorem mem_fired_iff : (name, ports) ∈ marks.filterMap fired? ↔ .fired name ports ∈ marks := by
  simp

end Mark

structure Tally.Marked (before : Tally) (marks : List Mark) (after : Tally) : Prop where
  executed : after.execution.executedNodes =
    before.execution.executedNodes ++ marks.filterMap Mark.entered?
  firings : after.execution.firings =
    before.execution.firings ++ marks.filterMap Mark.fired?

namespace Tally.Marked

theorem nothing (tally : Tally) : tally.Marked [] tally :=
  ⟨by simp, by simp⟩

theorem andThen {before middle after : Tally} {first second : List Mark}
    (earlier : before.Marked first middle) (later : middle.Marked second after) :
    before.Marked (first ++ second) after where
  executed := by rw [later.executed, earlier.executed, List.filterMap_append, List.append_assoc]
  firings := by rw [later.firings, earlier.firings, List.filterMap_append, List.append_assoc]

end Tally.Marked

/-- What a node, and all that it leads to, may leave in the record, if it is activated
with so many more activations allowed to follow one another. -/
def Graph.Tale (graph : Graph) : (left : Nat) → String → List Mark → Prop
  | 0, _, marks => marks = []
  | left + 1, name, marks =>
      match graph.node? name with
      | none => marks = []
      | some node =>
          marks = [.entered node.id] ∨
          ∃ ports onward, ports.Nodup ∧
            Mixed (fun connection => graph.Tale left connection.target.nodeId)
              (Run.fired graph node ports) onward ∧
            marks = .entered node.id :: .fired node.id ports :: onward

namespace Branching

variable {m : Type → Type} [Monad m] {node : Node} {input : Json} {outcome : Outcome}

theorem route_single {port : String} (routed : route node port input = .ok outcome) :
    outcome.ports = [port] := by
  unfold route at routed
  split at routed
  · cases routed
    rfl
  · contradiction

section

variable (plain : isLoop node.templateId = false)

include plain

private theorem not_loop : node.templateId ≠ forTemplate ∧ node.templateId ≠ whileTemplate := by
  simpa [isLoop] using plain

/-- Only loops run their body. -/
theorem evaluate_withBody {surroundings : Surroundings m}
    (body : Nat → String → Json → m (List (Option Json))) (maxIterations : Nat) :
    evaluate surroundings maxIterations node input =
      evaluate { surroundings with body } maxIterations node input := by
  have condition (text : String) (payload : Json) :
      holds surroundings text payload = holds { surroundings with body } text payload := rfl
  have routed (default : String) (rules : List (String × String)) :
      firstRoute surroundings default input rules =
        firstRoute { surroundings with body } default input rules := by
    induction rules with
    | nil => rfl
    | cons rule rest ih => simp only [firstRoute, condition, ih]
  obtain ⟨noFor, noWhile⟩ := not_loop plain
  simp only [evaluate, noFor, noWhile, if_false, router, routed]
  rfl

/-- A node that branches once fires one output. -/
theorem evaluate_single {surroundings : Surroundings Id} {maxIterations : Nat}
    (evaluated : evaluate surroundings maxIterations node input = .ok outcome) :
    ∃ port, outcome.ports = [port] := by
  obtain ⟨noFor, noWhile⟩ := not_loop plain
  simp only [evaluate, noFor, noWhile, if_false] at evaluated
  split at evaluated
  · cases evaluated
    exact ⟨_, rfl⟩
  split at evaluated
  · unfold switch at evaluated
    split at evaluated
    · contradiction
    · dsimp only at evaluated
      split at evaluated
      · exact ⟨_, route_single evaluated⟩
      · split at evaluated
        · exact ⟨_, route_single evaluated⟩
        · cases evaluated
          exact ⟨_, rfl⟩
  split at evaluated
  · unfold router at evaluated
    split at evaluated
    · contradiction
    · exact ⟨_, route_single evaluated⟩
  · contradiction

end

end Branching

namespace Run

def tallyMarking : Conduct Tally Mark where
  may before marks after := before.Marked marks after
  nothing := .nothing
  andThen earlier later := earlier.andThen later

/-- How activations change the record of their run, whatever they do to the world. -/
def marking : Conduct RunState Mark where
  may before marks after := before.2.Marked marks after.2
  nothing state := .nothing state.2
  andThen earlier later := earlier.andThen later

def outerMarking (ο : Type) : Conduct (World × ο) Mark where
  may _ _ _ := True
  nothing _ := trivial
  andThen _ _ := trivial

/-- What is done at once and leaves both lists as they are. -/
theorem unmarked {α : Type} {activity : Running α} {result : RunState → α}
    {courses : Courses Mark α}
    (done : ∀ state, (activity state).2 = .done (result state))
    (executed : ∀ state,
      (activity state).1.2.execution.executedNodes = state.2.execution.executedNodes)
    (firings : ∀ state, (activity state).1.2.execution.firings = state.2.execution.firings)
    (taken : ∀ state, courses [] (result state)) : activity.Takes marking courses := by
  refine .atOnce done fun state => ⟨[], ⟨?_, ?_⟩, taken state⟩
  · exact (executed state).trans (List.append_nil _).symm
  · exact (firings state).trans (List.append_nil _).symm

theorem firings_unchanged (execution : Execution) {entry : LogEntry}
    (silent : entry.firing? = none) :
    (execution.log entry).firings = execution.firings := by
  rw [Execution.firings_log, silent, Option.toList_none, List.append_nil]

theorem log_unmarked (node : Option String) (level : LogLevel) (message : String) :
    (Running.log node level message none).Takes marking (pure ()) := by
  refine unmarked (fun _ => rfl) (fun _ => rfl) (fun state => ?_) fun _ => ⟨rfl, rfl⟩
  exact firings_unchanged state.2.execution (by cases node <;> rfl)

theorem fail_unmarked (path : Path) (node : String) (error : NodeError) :
    (fail path node error).Takes marking (pure ()) := by
  refine unmarked (fun _ => rfl) (fun _ => rfl) (fun state => ?_) fun _ => ⟨rfl, rfl⟩
  exact firings_unchanged
    ((state.2.execution.setStatus node .error).recordError (some node) error.message _) rfl

theorem start_marks (path : Path) (node : Node) :
    (start path node).Takes marking (Courses.note (.entered node.id)) := by
  refine .atOnce (fun _ => rfl) fun state => ⟨_, ⟨rfl, ?_⟩, rfl⟩
  exact Execution.firings_log (state.2.execution.enter node.id) _

theorem succeed_marks (path : Path) (node : Node) (outcome : Outcome) :
    (succeed path node outcome).Takes marking (Courses.note (.fired node.id outcome.ports)) := by
  have read : (outcome.ports.map Json.string).filterMap Json.string? = outcome.ports := by
    rw [List.filterMap_map]
    exact List.filterMap_some
  refine .atOnce (fun _ => rfl) fun state => ⟨_, ⟨(List.append_nil _).symm, ?_⟩, rfl⟩
  refine (Execution.firings_log (state.2.execution.setStatus node.id .success) _).trans
    (congrArg _ ?_)
  show [(node.id, (outcome.ports.map Json.string).filterMap Json.string?)] = _
  rw [read]
  rfl

theorem endOn_unmarked (node : String) (payload : Json) :
    (Running.endOn node payload).Takes marking (pure ()) :=
  unmarked (fun _ => rfl) (fun _ => rfl) (fun _ => rfl) fun _ => ⟨rfl, rfl⟩

theorem pause_unmarked : (Activity.pause : Running Unit).Takes marking (pure ()) := by
  intro state
  exact ⟨[], marking.nothing state, fun later => ⟨[], marking.nothing later, rfl, rfl⟩⟩

theorem sleep_unmarked (millis : Nat) : (Running.sleep millis).Takes marking (pure ()) := by
  unfold Running.sleep
  split
  · exact .pure ()
  · intro state
    exact ⟨[], marking.nothing state, fun later => ⟨[], marking.nothing later, rfl, rfl⟩⟩

theorem branches_unmarked (graph : Graph) (node : Node) (keys : List String) :
    (branches graph node keys).Takes marking (pure (fired graph node keys)) := by
  induction keys with
  | nil => exact .pure _
  | cons key rest ih =>
      unfold branches
      cases found : node.output? key with
      | none =>
          refine (log_unmarked _ _ _).bindPure ?_
          simpa [fired, found] using ih
      | some port =>
          refine ih.bindPure ?_
          simpa [fired, found] using Activity.Takes.pure
            (graph.outgoing ⟨node.id, port.id⟩ ++ fired graph node rest)

/-- Leaving no mark, with a result that does not depend on the surroundings. -/
def unmarking : Likeness (Activity RunState) Id where
  like activity result := activity.Takes marking (Pure.pure result)
  pure value := .pure value
  bind takes goesOn := takes.bindPure (goesOn _)
  map _ takes := takes.bindPure (.pure _)

theorem callDelegate_unmarked (engine : Engine) (path : Path) (node : Node) (input : Json) :
    ∃ result, (callDelegate engine path node input).Takes marking (pure result) := by
  unfold callDelegate
  cases Fields.get? engine.registry node.templateId with
  | none => exact ⟨_, .pure _⟩
  | some delegate =>
      have noted : (Running.noteCall ⟨path, node.templateId, input⟩).Takes marking (pure ()) :=
        unmarked (fun _ => rfl) (fun _ => rfl) (fun _ => rfl) fun _ => ⟨rfl, rfl⟩
      exact ⟨_, noted.bindPure ((sleep_unmarked _).bindPure (.pure _))⟩

/-- The work of an orderly node leaves no mark.  It fires no output twice, and the same
outputs whatever happens around it. -/
theorem perform_unmarked (engine : Engine) (visit : Visit) (graph : Graph) (path : Path)
    {node : Node} (orderly : node.Orderly) (input : Json) :
    ∃ result, (perform engine visit graph path node input).Takes marking (pure result) ∧
      ∀ outcome, result = .ok outcome → outcome.ports.Nodup := by
  obtain ⟨plain, notSubflow⟩ :
      Branching.isLoop node.templateId = false ∧ node.templateId ≠ subflowTemplate := by
    simpa [Branching.isLoop, bodyTemplates, and_assoc] using orderly.plain
  unfold perform
  cases node.kind with
  | trigger =>
      refine ⟨_, .pure _, fun outcome same => ?_⟩
      cases same
      exact orderly.keys
  | condition =>
      let bodiless : Surroundings (Activity RunState) :=
        { surroundings visit graph path node with body := fun _ _ _ => pure [] }
      have alone : Branching.evaluate (surroundings visit graph path node)
          engine.limits.maxWhileIterations node input =
            Branching.evaluate bodiless engine.limits.maxWhileIterations node input :=
        Branching.evaluate_withBody plain _ _
      have surrounded : unmarking.Surrounded bodiless ⟨fun _ _ _ => [], fun _ => ()⟩ :=
        ⟨fun _ _ _ => .pure [], fun message => log_unmarked _ _ _⟩
      have evaluated := surrounded.evaluate engine.limits.maxWhileIterations node input
      simp only [plain, alone]
      refine ⟨_, Activity.Takes.bindPure evaluated (.pure _), fun outcome same => ?_⟩
      rw [mapError_eq_ok_iff] at same
      obtain ⟨port, single⟩ := Branching.evaluate_single plain same
      rw [single]
      exact List.nodup_singleton port
  | action | data =>
      dsimp only
      rw [if_neg notSubflow]
      obtain ⟨result, called⟩ := callDelegate_unmarked engine path node input
      refine ⟨_, called.bindPure (.pure _), fun outcome same => ?_⟩
      cases result with
      | error error => contradiction
      | ok payload =>
          cases same
          exact orderly.keys

def VisitTells (left : Nat) (visit : Visit) : Prop :=
  ∀ graph : Graph, graph.Orderly → ∀ path name input,
    (visit graph path name input).Takes marking fun marks _ => graph.Tale left name marks

section Visits

variable {left : Nat} {visit : Visit} (visits : VisitTells left visit) {graph : Graph}
  (orderly : graph.Orderly)

include visits orderly

theorem follow_tells (path : Path) (node : Node) (outcome : Outcome) :
    (follow visit graph path node outcome).Takes marking fun marks _ =>
      Mixed (fun connection => graph.Tale left connection.target.nodeId)
        (fired graph node outcome.ports) marks := by
  refine (branches_unmarked graph node outcome.ports).bindPure ?_
  split
  · rename_i ended
    rw [List.isEmpty_iff.mp ended]
    refine (endOn_unmarked node.id outcome.payload).mono fun given => ?_
    obtain ⟨rfl, _⟩ := given
    rfl
  · have told := Activity.Takes.allIdx (fired graph node outcome.ports) fun index connection =>
      visits graph orderly (path ++ [.follow index connection]) connection.target.nodeId
        outcome.payload
    refine (told.map _).mono fun given => ?_
    obtain ⟨results, taken, _⟩ := (Courses.map_iff ..).mp given
    exact Courses.mixed_of_allIdx taken fun _ _ _ _ told => told

theorem activate_tells (engine : Engine) (path : Path) {node : Node} (neat : node.Orderly)
    (input : Json) :
    (activate engine visit graph path node input).Takes marking fun marks _ =>
      marks = [.entered node.id] ∨
      ∃ ports onward, ports.Nodup ∧
        Mixed (fun connection => graph.Tale left connection.target.nodeId)
          (fired graph node ports) onward ∧
        marks = .entered node.id :: .fired node.id ports :: onward := by
  obtain ⟨result, worked, distinct⟩ := perform_unmarked engine visit graph path neat input
  have started := start_marks path node
  cases result with
  | error error =>
      have failed : (activate engine visit graph path node input).Takes marking do
          Courses.note (.entered node.id)
          return none := by
        refine started.bind fun _ => pause_unmarked.bindPure (worked.bindPure ?_)
        exact (fail_unmarked path node.id error).bindPure (.pure none)
      refine failed.mono fun given => .inl ?_
      obtain ⟨_, _, _, rfl, rfl, rfl, _⟩ := given
      rfl
  | ok outcome =>
      let onward : Courses Mark Unit := fun marks _ =>
        Mixed (fun connection => graph.Tale left connection.target.nodeId)
          (fired graph node outcome.ports) marks
      have finished : (activate engine visit graph path node input).Takes marking do
          Courses.note (.entered node.id)
          Courses.note (.fired node.id outcome.ports)
          onward
          return some outcome.payload := by
        refine started.bind fun _ => pause_unmarked.bindPure (worked.bindPure ?_)
        refine (succeed_marks path node outcome).bind fun _ => ?_
        exact (follow_tells visits orderly path node outcome).bind fun _ => .pure _
      refine finished.mono fun given => .inr ?_
      obtain ⟨_, _, _, rfl, rfl, _, _, _, rfl, rfl, told, _, _, rfl, follows, rfl, _⟩ := given
      exact ⟨outcome.ports, told, distinct outcome rfl, follows, by simp⟩

end Visits

theorem visit_tells (engine : Engine) (left : Nat) : VisitTells left (visit engine left) := by
  induction left with
  | zero =>
      intro graph orderly path name input
      unfold visit
      cases graph.node? name with
      | none =>
          refine ((fail_unmarked path name _).bindPure (.pure (none : Option Json))).mono ?_
          exact fun given => given.1
      | some found =>
          refine ((fail_unmarked path name _).bindPure (.pure (none : Option Json))).mono ?_
          exact fun given => given.1
  | succ left ih =>
      intro graph orderly path name input
      unfold visit
      simp only [Graph.Tale]
      cases found : graph.node? name with
      | none =>
          refine ((fail_unmarked path name _).bindPure (.pure (none : Option Json))).mono ?_
          exact fun given => given.1
      | some node =>
          exact activate_tells ih orderly engine path
            (orderly node (List.mem_of_find?_eq_some found)) input

/-- The record of a run whose graph passes its check tells of its starting nodes. -/
theorem wholeGraph_tells {ο : Type} {left : Nat} {visit : Visit} (visits : VisitTells left visit)
    {graph : Graph} (orderly : graph.Orderly) {report : Graph.Report}
    (accepted : graph.check = .ok report) (path : Path) (input : Json) (entry : Entry) :
    (wholeGraph visit path graph input entry : Activity (World × ο) Tally).Takes (outerMarking ο)
      fun _ tally => ∃ marks, Mixed (graph.Tale left) (entry.starts graph report) marks ∧
        tally.execution.executedNodes = marks.filterMap Mark.entered? ∧
        tally.execution.firings = marks.filterMap Mark.fired? := by
  have attempted : (attempt visit path graph input entry).Takes marking fun marks _ =>
      Mixed (graph.Tale left) (entry.starts graph report) marks := by
    unfold attempt
    rw [accepted]
    have told := Activity.Takes.allIdx (entry.starts graph report) fun index node =>
      visits graph orderly (path ++ [.start index]) node input
    refine (told.map _).mono fun given => ?_
    obtain ⟨results, taken, _⟩ := (Courses.map_iff ..).mp given
    exact Courses.mixed_of_allIdx taken fun _ _ _ _ told => told
  have opened : (openRecord path graph : Activity (World × ο) Execution).Takes (outerMarking ο)
      fun _ execution => execution.executedNodes = [] ∧ execution.firings = [] :=
    .atOnce (fun _ => rfl) fun _ => ⟨[], trivial, rfl, rfl⟩
  have recorded (execution : Execution) :
      ((attempt visit path graph input entry).within (⟨execution, []⟩ : Tally)).Takes
        (outerMarking ο) _ :=
    attempted.within tallyMarking (fun marked => ⟨marked, fun _ => trivial⟩) _
  have closed (tally : Tally) : (closeRecord path tally).Takes (outerMarking ο) fun _ result =>
      result.execution.executedNodes = tally.execution.executedNodes ∧
        result.execution.firings = tally.execution.firings :=
    .atOnce (fun _ => rfl) fun _ => ⟨[], trivial, rfl, rfl⟩
  refine (opened.bindReached fun _ execution empty =>
    (recorded execution).bind fun result => closed result.2).mono ?_
  intro _ tally given
  obtain ⟨_, _, execution, rfl, ⟨unentered, unfired⟩, marks, _, result, rfl, ⟨told, marked⟩,
    executed, firings⟩ := given
  refine ⟨marks, told, ?_, ?_⟩
  · rw [executed, marked.executed, unentered, List.nil_append]
  · rw [firings, marked.firings, unfired, List.nil_append]

end Run

theorem Engine.run_tells (engine : Engine) {graph : Graph} (orderly : graph.Orderly)
    {report : Graph.Report} (accepted : graph.check = .ok report) (input : Json) (entry : Entry)
    (world : World) :
    ∃ marks, Mixed (graph.Tale engine.limits.maxDepth) (entry.starts graph report) marks ∧
      (engine.run graph input entry world).2.executedNodes = marks.filterMap Mark.entered? ∧
      (engine.run graph input entry world).2.firings = marks.filterMap Mark.fired? := by
  have takes : (Run.wholeGraph (Run.visit engine engine.limits.maxDepth) [] graph input entry :
      Activity (World × Unit) Tally).Takes (Run.outerMarking Unit) _ :=
    Run.wholeGraph_tells (Run.visit_tells engine engine.limits.maxDepth) orderly accepted [] input
      entry
  obtain ⟨_, _, told⟩ := takes.run (fun _ _ => trivial) (world, ())
  exact told

end Workflow
