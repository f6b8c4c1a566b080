import Workflow.Proofs.Children
import Workflow.Proofs.Onward

/-! What for-loops make of their items.

A for-loop visits all that hangs on its item output once for each item, whatever comes of the
visits before.  Then it goes on with a result for each round.  `Engine.LinesUp` says which
visits these are, with which payloads, and how the results follow from what they give;
`Engine.items_line_up` that it is so in every run.
-/

namespace Workflow

namespace Branching

/-- Nothing to run, and nobody to warn. -/
def alone : Surroundings Id where
  body _ _ _ := []
  warn _ := ()

/-- What a for-loop goes over. -/
def loopItems (node : Node) (input : Json) : Except BranchError (List Json) :=
  items (itemSource alone node input)

/-- The payload that a for-loop ends with. -/
def completion (input : Json) (results : List Json) : Json :=
  spread input [("count", .nat results.length), ("results", .array results)]

/-- Two fields on top of a payload hide what it has under their names, and nothing else. -/
theorem field?_spread (payload : Json) (first second : String × Json) (name : String) :
    (spread payload [first, second]).field? name =
      if second.1 = name then some second.2
      else if first.1 = name then some first.2 else payload.field? name := by
  have read : (spread payload [first, second]).field? name =
      (Fields.get? [second, first] name).or (payload.field? name) := by
    rw [spread, Json.field?, Json.object?, Option.bind_some, Fields.get?_merge]
    cases payload <;> rfl
  rw [read, Fields.get?_cons, Fields.get?_cons, Fields.get?_nil]
  split <;> [rfl; split <;> rfl]

theorem field?_itemPayload (input item : Json) (round : Nat) (name : String) :
    (itemPayload input item round).field? name =
      if "item" = name then some item
      else if "index" = name then some (.nat round) else input.field? name :=
  field?_spread input ("index", .nat round) ("item", item) name

theorem field?_completion (input : Json) (results : List Json) (name : String) :
    (completion input results).field? name =
      if "results" = name then some (.array results)
      else if "count" = name then some (.nat results.length) else input.field? name :=
  field?_spread input ("count", .nat results.length) ("results", .array results) name

section Programs

variable {m : Type → Type} [Monad m] [LawfulMonad m] (surroundings : Surroundings m)

theorem forEach_eq_mapM (input : Json) (items : List Json) (start : Nat) :
    forEach surroundings input start items =
      (items.zipIdx start).mapM fun (item, round) =>
        roundResult (itemPayload input item round) <$>
          surroundings.body round "item" (itemPayload input item round) := by
  induction items generalizing start with
  | nil => rfl
  | cons item rest ih => simp [forEach, ih, List.zipIdx_cons, List.mapM_cons]

omit [LawfulMonad m] in
theorem evaluate_for {node : Node} (loops : node.templateId = forTemplate) (default : Nat)
    (input : Json) :
    evaluate surroundings default node input = forLoop surroundings node input := by
  rw [evaluate, loops, if_neg (by decide), if_neg (by decide), if_pos rfl]

end Programs

/-- Only the length of the outputs decides what the result of a round is made of. -/
theorem roundResult_range (payload : Json) (output : Nat → Option Json) (count : Nat) :
    (count = 0 → roundResult payload ((List.range count).map output) = payload) ∧
    (count = 1 → roundResult payload ((List.range count).map output) = (output 0).getD .null) ∧
    (1 < count → roundResult payload ((List.range count).map output) =
      .array ((List.range count).map fun index => (output index).getD .null)) := by
  refine ⟨?_, ?_, fun several => ?_⟩
  · rintro rfl
    rfl
  · rintro rfl
    rfl
  · obtain ⟨more, rfl⟩ := Nat.exists_eq_add_of_le' several
    simp [roundResult, List.range_succ_eq_map, Function.comp_def]

section Silent

variable {ε : Type} {surroundings : Surroundings (Courses ε)}
  (silent : ∀ message, (surroundings.warn message).Idle) {node : Node} {input : Json}
  {deeds : List ε}

include silent

/-- What a for-loop goes over does not depend on what is around it. -/
theorem itemSource_alone {source : Json}
    (taken : itemSource surroundings node input deeds source) :
    deeds = [] ∧ source = itemSource alone node input := by
  refine ⟨itemSource_idle silent node input deeds source taken, ?_⟩
  unfold itemSource at taken ⊢
  dsimp only at taken ⊢
  by_cases configured : ((node.configText? "items").getD "").isEmpty
  · rw [if_pos configured] at taken ⊢
    cases input <;> exact taken.2
  · rw [if_neg configured] at taken ⊢
    cases found : Expr.value ((node.configText? "items").getD "") input with
    | ok value =>
        rw [found] at taken
        exact taken.2
    | error failure =>
        rw [found] at taken
        obtain ⟨_, _, _, _, _, _, rfl⟩ := taken
        rfl

theorem forLoop_completes {items : List Json} (listed : loopItems node input = .ok items)
    {result : Except BranchError Outcome} (taken : forLoop surroundings node input deeds result) :
    ∃ results, forEach surroundings input 0 items deeds results ∧
      result = .ok (.single "complete" (completion input results)) := by
  obtain ⟨before, after, source, rfl, found, goesOn⟩ := taken
  obtain ⟨rfl, rfl⟩ := itemSource_alone silent found
  unfold loopItems at listed
  rw [listed] at goesOn
  obtain ⟨first, _, results, rfl, rounds, rfl, rfl⟩ := goesOn
  exact ⟨results, by simpa using rounds, rfl⟩

end Silent

end Branching

/-- One after another, each showing some elements, all are shown in order. -/
theorem Courses.filterMap_mapM {ε α β δ : Type} {show? : ε → Option δ} {image : β → List δ}
    {program : β → Courses ε α} {elements : List β}
    (each : ∀ element ∈ elements, ∀ deeds result, program element deeds result →
      deeds.filterMap show? = image element)
    {deeds : List ε} {results : List α} (taken : elements.mapM program deeds results) :
    deeds.filterMap show? = elements.flatMap image := by
  induction elements generalizing deeds results with
  | nil =>
      obtain ⟨rfl, _⟩ := taken
      rfl
  | cons element rest ih =>
      rw [List.mapM_cons] at taken
      obtain ⟨own, _, value, rfl, goes, others, _, values, rfl, follows, rfl, _⟩ := taken
      obtain ⟨first, later⟩ := List.forall_mem_cons.mp each
      rw [List.append_nil, List.filterMap_append, first own value goes, ih later follows,
        List.flatMap_cons]

/-- What is done at a path and below it is a visit of the named node with the input. -/
def Engine.Visited (engine : Engine) (left : Nat) (deeds : List Deed) (path : Path) (graph : Graph)
    (name : String) (input : Json) (result : Option Json) : Prop :=
  Course.visit engine left graph path name input (Deed.below path deeds) result

/-- A round of a for-loop that is activated at a path. -/
structure Engine.Round (engine : Engine) (left : Nat) (deeds : List Deed) (path : Path)
    (graph : Graph) (node : Node) (round : Nat) (payload : Json) (output : Nat → Option Json)
    (result : Json) : Prop where
  /-- Each target is visited with the payload of the round. -/
  visited : ∀ index connection, (Run.fired graph node ["item"])[index]? = some connection →
    engine.Visited left deeds (path ++ [.body round index connection]) graph
      connection.target.nodeId payload (output index)
  /-- A target has no output where it is told to fail. -/
  fails : ∀ index connection, (Run.fired graph node ["item"])[index]? = some connection →
    (output index = none ↔ ∃ run message,
      .event ⟨path ++ [.body round index connection],
        .nodeFailed run connection.target.nodeId message⟩ ∈ deeds)
  untargeted : (Run.fired graph node ["item"]).length = 0 → result = payload
  single : (Run.fired graph node ["item"]).length = 1 → result = (output 0).getD .null
  several : 1 < (Run.fired graph node ["item"]).length →
    result = .array ((List.range (Run.fired graph node ["item"]).length).map fun index =>
      (output index).getD .null)

/-- What becomes of the items of a for-loop that is activated at a path. -/
structure Engine.LinesUp (engine : Engine) (left : Nat) (deeds : List Deed) (path : Path)
    (graph : Graph) (node : Node) (input : Json) (items results : List Json) : Prop where
  length : results.length = items.length
  rounds : ∀ round item, items[round]? = some item → ∃ output result,
    results[round]? = some result ∧
      engine.Round left deeds path graph node round (Branching.itemPayload input item round) output
        result
  /-- The targets are visited one after another, round by round, and then what follows the loop.
  No other activation is attempted right behind it. -/
  attempts : ∃ onward, deeds.filterMap (Deed.attempt? engine.limits.maxDepth path) =
      ((List.range items.length).flatMap fun round =>
        (Run.fired graph node ["item"]).mapIdx (.body round)) ++ onward ∧
    onward.Perm ((Run.fired graph node ["complete"]).mapIdx .follow)
  succeeds : ∃ run, .event ⟨path, .nodeSucceeded run node.id⟩ ∈ deeds
  unfailing : ∀ run name message, .event ⟨path, .nodeFailed run name message⟩ ∉ deeds
  completes : ∀ index connection, (Run.fired graph node ["complete"])[index]? = some connection →
    ∃ result, engine.Visited left deeds (path ++ [.follow index connection]) graph
      connection.target.nodeId (Branching.completion input results) result
  ends : Run.fired graph node ["complete"] = [] →
    .ending path node.id (Branching.completion input results) ∈ deeds

section Visits

variable {engine : Engine} {outer : Graph} {entry : Entry} {left depth : Nat} {path : Path}
  {graph : Graph} {deeds : List Deed}

/-- A round is known by what lies below its visits. -/
theorem Engine.Round.congr {others : List Deed} {node : Node} {round : Nat} {payload : Json}
    {output : Nat → Option Json} {result : Json}
    (known : engine.Round left deeds path graph node round payload output result)
    (same : ∀ index connection, Deed.below (path ++ [.body round index connection]) others =
      Deed.below (path ++ [.body round index connection]) deeds) :
    engine.Round left others path graph node round payload output result where
  visited index connection listed := by
    rw [Visited, same]
    exact known.visited index connection listed
  fails index connection listed := by
    rw [known.fails index connection listed]
    refine exists₂_congr fun run message => Deed.event_mem_below_iff.symm.trans ?_
    rw [← same]
    exact Deed.event_mem_below_iff
  untargeted := known.untargeted
  single := known.single
  several := known.several

/-- Visits side by side are told apart by their paths. -/
theorem Course.all_visited {α : Type} (step : Nat → α → Step)
    (distinct : ∀ index other first second, step index first = step other second → index = other)
    (name : α → String) {elements : List α} {input : Json}
    (reached : ∀ index element, elements[index]? = some element →
      engine.Reaches outer entry depth (path ++ [step index element]) graph (name element))
    (reach : left + depth = engine.limits.maxDepth) {results : List (Option Json)}
    (taken : Courses.all (elements.mapIdx fun index element =>
      visit engine left graph (path ++ [step index element]) (name element) input) deeds results) :
    results.length = elements.length ∧
      ∀ index element, elements[index]? = some element → ∃ result,
        results[index]? = some result ∧
          engine.Visited left deeds (path ++ [step index element]) graph (name element) input
            result := by
  have spreads := visit_spreads engine outer entry left
  have each (index : Nat) (element : α) (listed : elements[index]? = some element)
      (deeds : List Deed) (result : Option Json)
      (goes : visit engine left graph (path ++ [step index element]) (name element) input deeds
        result) := spreads.child (reached index element listed) reach goes
  have apart (index other : Nat) (chosen : Step)
      (one : ∃ element, chosen = step index element)
      (same : ∃ element, chosen = step other element) : index = other := by
    obtain ⟨first, rfl⟩ := one
    obtain ⟨second, same⟩ := same
    exact distinct index other first second same
  obtain ⟨sized, below⟩ := Spread.below_all apart
    (fun index element listed deeds result goes =>
      (each index element listed deeds result goes).mono fun _ same => ⟨element, same⟩) taken
  refine ⟨sized, fun index element listed => ?_⟩
  obtain ⟨own, result, found, goes, same⟩ := below index element listed
  refine ⟨result, found, ?_⟩
  obtain ⟨_, whole⟩ := spreads _ _ _ _ _ _ _ (reached index element listed) reach goes
  rw [Engine.Visited, same _ ⟨element, rfl⟩, Deed.below_eq_self whole.isPrefix]
  exact goes

/-- A visit without a result is one that is told to fail. -/
theorem Engine.Visited.fails_iff {name : String} {input : Json} {result : Option Json}
    (visited : engine.Visited left deeds path graph name input result)
    (reaches : engine.Reaches outer entry depth path graph name) :
    result = none ↔ ∃ run message, .event ⟨path, .nodeFailed run name message⟩ ∈ deeds := by
  rw [exists₂_congr fun run message => Deed.event_mem_below_iff.symm]
  obtain ⟨wellFormed, known⟩ := reaches.known
  obtain ⟨node, found⟩ := Option.isSome_iff_exists.mp known
  obtain rfl : node.id = name := (Graph.mem_of_node? found).2
  unfold Visited Course.visit at visited
  cases left with
  | zero =>
      dsimp only at visited
      rw [found] at visited
      obtain ⟨_, _, _, split, ⟨run, rfl⟩, rfl, rfl⟩ := visited
      refine iff_of_true rfl ⟨run, (NodeError.depthExceeded engine.limits.maxDepth).message, ?_⟩
      rw [split]
      exact List.mem_singleton.mpr rfl
  | succ left =>
      dsimp only at visited
      rw [found] at visited
      obtain ⟨work, performed, first, last, followed, activation, rfl⟩ :=
        Course.activation_gives visited
      have ends : .event ⟨path, .ending last node.id performed⟩ ∈ Deed.below path deeds := by
        rw [activation.deeds]
        simp
      cases performed with
      | error error => exact iff_of_true rfl ⟨last, _, ends⟩
      | ok outcome =>
          refine iff_of_false (by simp [Except.toOption]) ?_
          rintro ⟨run, message, told⟩
          rcases activation.told wellFormed reaches.path_ne_nil told rfl with started | ended
          · contradiction
          · contradiction

/-- Where an activation goes, either its work went or what follows it. -/
theorem Course.Activation.below {visit : Visit} {node : Node} {input : Json}
    {work followed : List Deed} {performed : Except NodeError Outcome} {first last : Uuid}
    (activation : Activation engine visit graph path node input work performed first last followed
      deeds) (step : Step) :
    Deed.below (path ++ [step]) deeds =
      Deed.below (path ++ [step]) work ++ Deed.below (path ++ [step]) followed := by
  have own (event : Event) : ¬ path ++ [step] <+: (Deed.event ⟨path, event⟩).path :=
    Path.not_step_isPrefix path step
  rw [activation.deeds]
  simp [Deed.below, own]

theorem Course.follow_ends {visit : Visit} {node : Node} {outcome : Outcome}
    (none : Run.fired graph node outcome.ports = [])
    (taken : follow visit graph path node outcome deeds ()) :
    deeds = [.ending path node.id outcome.payload] := by
  unfold follow at taken
  rw [none] at taken
  exact taken

theorem Course.runBody_eq_mapM (visit : Visit) (graph : Graph) (path : Path) (node : Node)
    (round : Nat) (key : String) (payload : Json) :
    runBody visit graph path node round key payload =
      (Run.fired graph node [key]).zipIdx.mapM fun (connection, index) =>
        visit graph (path ++ [.body round index connection]) connection.target.nodeId payload := by
  rw [runBody, Run.fired_single]
  cases node.output? key <;> rfl

/-- The work of a for-loop are its rounds, and it never fails. -/
theorem Course.perform_for {visit : Visit} {node : Node} (branches : node.kind = .condition)
    (loops : node.templateId = forTemplate) {input : Json} {items : List Json}
    (listed : Branching.loopItems node input = .ok items) {performed : Except NodeError Outcome}
    (taken : perform engine visit graph path node input deeds performed) :
    ∃ results, Branching.forEach (surroundings visit graph path node) input 0 items deeds results ∧
      performed = .ok (.single "complete" (Branching.completion input results)) := by
  unfold perform at taken
  rw [branches] at taken
  obtain ⟨_, _, evaluated, rfl, goes, rfl, rfl⟩ := taken
  rw [Branching.evaluate_for _ loops] at goes
  obtain ⟨results, rounds, rfl⟩ := Branching.forLoop_completes (fun _ => .pure ()) listed goes
  exact ⟨results, by simpa using rounds, rfl⟩

section Work

variable {name : String} {node : Node} (reaches : engine.Reaches outer entry depth path graph name)
  (found : graph.node? name = some node) (reach : left + depth + 1 = engine.limits.maxDepth)

include reaches found reach

theorem Course.Activation.below_work {input : Json} {work followed : List Deed}
    {outcome : Outcome} {first last : Uuid}
    (activation : Activation engine (visit engine left) graph path node input work (.ok outcome)
      first last followed deeds) {step : Step} (other : step.followed? = none) :
    Deed.below (path ++ [step]) deeds = Deed.below (path ++ [step]) work := by
  have after := follow_spreads (visit_spreads engine outer entry left) reaches found reach
    (activation.follows outcome rfl)
  have none : Deed.below (path ++ [step]) followed = [] := by
    refine after.below_eq_nil ?_ List.prefix_rfl
    rintro ⟨index, connection, rfl⟩
    contradiction
  rw [activation.below, none, List.append_nil]

theorem Course.Activation.below_followed {input : Json} {work followed : List Deed}
    {performed : Except NodeError Outcome} {first last : Uuid}
    (activation : Activation engine (visit engine left) graph path node input work performed first
      last followed deeds) (index : Nat) (connection : Connection) :
    Deed.below (path ++ [.follow index connection]) deeds =
      Deed.below (path ++ [.follow index connection]) followed := by
  have before := perform_spreads (visit_spreads engine outer entry left) reaches found reach
    activation.works
  rw [activation.below, before.below_eq_nil (fun apart => apart _ _ rfl) List.prefix_rfl,
    List.nil_append]

/-- What follows an activation that succeeds are visits with its payload. -/
theorem Course.follow_visited {outcome : Outcome}
    (taken : follow (visit engine left) graph path node outcome deeds ()) :
    ∀ index connection, (Run.fired graph node outcome.ports)[index]? = some connection →
      ∃ result, engine.Visited left deeds (path ++ [.follow index connection]) graph
        connection.target.nodeId outcome.payload result := by
  unfold follow at taken
  by_cases ended : (Run.fired graph node outcome.ports).isEmpty
  · rw [List.isEmpty_iff.mp ended]
    nofun
  · simp only [ended] at taken
    obtain ⟨results, taken, _⟩ := (Courses.map_iff ..).mp taken
    obtain ⟨_, visited⟩ := all_visited Step.follow
      (fun _ _ _ _ same => (Step.follow.inj same).1) (fun connection => connection.target.nodeId)
      (fun index connection listed => reaches.follow_fired found listed) (by omega) taken
    intro index connection listed
    obtain ⟨result, _, there⟩ := visited index connection listed
    exact ⟨result, there⟩

section ForLoop

variable (branches : node.kind = .condition) (loops : node.templateId = forTemplate)

include branches loops

omit reach in
theorem Engine.Reaches.item_fired {round index : Nat} {connection : Connection}
    (listed : (Run.fired graph node ["item"])[index]? = some connection) :
    engine.Reaches outer entry (depth + 1) (path ++ [.body round index connection]) graph
      connection.target.nodeId := by
  have output : Branching.bodyOutput node.templateId = "item" := if_pos loops
  rw [Run.fired_single, ← output] at listed
  cases hangs : node.output? (Branching.bodyOutput node.templateId) with
  | none => simp [hangs] at listed
  | some port =>
      rw [hangs] at listed
      exact .body reaches found branches (by simp [Branching.isLoop, loops]) hangs listed

theorem Course.runBody_round {round : Nat} {payload : Json} {outputs : List (Option Json)}
    (taken : runBody (visit engine left) graph path node round "item" payload deeds outputs) :
    ∃ output, engine.Round left deeds path graph node round payload output
      (Branching.roundResult payload outputs) := by
  rw [runBody_eq_mapM] at taken
  have beside : Courses.all ((Run.fired graph node ["item"]).mapIdx fun index connection =>
      visit engine left graph (path ++ [.body round index connection]) connection.target.nodeId
        payload) deeds outputs := by
    rw [List.mapIdx_eq_zipIdx_map]
    exact Courses.all_of_mapM taken
  obtain ⟨sized, visited⟩ := all_visited (.body round)
    (fun _ _ _ _ same => (Step.body.inj same).2.1) (fun connection => connection.target.nodeId)
    (fun _ _ listed => reaches.item_fired found branches loops listed) (by omega) beside
  have listed : outputs = (List.range (Run.fired graph node ["item"]).length).map
      (outputs[·]?.join) := by
    refine List.ext_getElem (by simp [sized]) fun index inside _ => ?_
    simp [inside]
  have there (index : Nat) (connection : Connection)
      (listed : (Run.fired graph node ["item"])[index]? = some connection) :
      engine.Visited left deeds (path ++ [.body round index connection]) graph
        connection.target.nodeId payload outputs[index]?.join := by
    obtain ⟨output, given, there⟩ := visited index connection listed
    rwa [given]
  obtain ⟨untargeted, single, several⟩ := Branching.roundResult_range payload (outputs[·]?.join)
    (Run.fired graph node ["item"]).length
  rw [← listed] at untargeted single several
  exact ⟨(outputs[·]?.join), there, fun index connection listed =>
    (there index connection listed).fails_iff (reaches.item_fired found branches loops listed),
    untargeted, single, several⟩

theorem Course.round_attempts {round : Nat} {payload : Json} {outputs : List (Option Json)}
    (taken : runBody (visit engine left) graph path node round "item" payload deeds outputs) :
    deeds.filterMap (Deed.attempt? engine.limits.maxDepth path) =
      (Run.fired graph node ["item"]).mapIdx (.body round) := by
  rw [runBody_eq_mapM] at taken
  rw [List.mapIdx_eq_zipIdx_map, List.map_eq_flatMap]
  refine Courses.filterMap_mapM (fun ⟨connection, index⟩ listed deeds result taken => ?_) taken
  have there : (Run.fired graph node ["item"])[index]? = some connection :=
    List.mem_zipIdx_iff_getElem?.mp listed
  obtain ⟨part, _⟩ := visit_spreads engine outer entry left _ _ _ _ _ _ _
    (reaches.item_fired found branches loops there) (by omega) taken
  exact part.attempted

theorem Course.round_spreads {round : Nat} {payload : Json} {outputs : List (Option Json)}
    (taken : runBody (visit engine left) graph path node round "item" payload deeds outputs) :
    Spread (engine.Part outer entry) path
      (fun step => ∃ index connection, step = .body round index connection) deeds := by
  have output : Branching.bodyOutput node.templateId = "item" := if_pos loops
  rw [← output] at taken
  exact runBody_spreads (visit_spreads engine outer entry left) reaches found reach branches
    (by simp [Branching.isLoop, loops]) taken

theorem Course.forEach_rounds {input : Json} {items results : List Json}
    (taken : Branching.forEach (surroundings (visit engine left) graph path node) input 0 items
      deeds results) :
    results.length = items.length ∧ ∀ round item, items[round]? = some item → ∃ output result,
      results[round]? = some result ∧ engine.Round left deeds path graph node round
        (Branching.itemPayload input item round) output result := by
  rw [Branching.forEach_eq_mapM] at taken
  have beside : Courses.all (items.mapIdx fun round item =>
      Branching.roundResult (Branching.itemPayload input item round) <$>
        runBody (visit engine left) graph path node round "item"
          (Branching.itemPayload input item round)) deeds results := by
    rw [List.mapIdx_eq_zipIdx_map]
    exact Courses.all_of_mapM taken
  have apart (round other : Nat) (step : Step)
      (one : ∃ index connection, step = .body round index connection)
      (same : ∃ index connection, step = .body other index connection) : round = other := by
    obtain ⟨_, _, rfl⟩ := one
    obtain ⟨_, _, same⟩ := same
    exact (Step.body.inj same).1
  obtain ⟨sized, rounds⟩ := Spread.below_all apart
    (fun _ _ _ deeds result goes => by
      obtain ⟨_, body, _⟩ := (Courses.map_iff ..).mp goes
      exact round_spreads reaches found reach branches loops body) beside
  refine ⟨sized, fun round item listed => ?_⟩
  obtain ⟨own, _, given, goes, below⟩ := rounds round item listed
  obtain ⟨outputs, body, rfl⟩ := (Courses.map_iff ..).mp goes
  obtain ⟨output, known⟩ := runBody_round reaches found reach branches loops body
  exact ⟨output, _, given, known.congr fun index connection => below _ ⟨index, connection, rfl⟩⟩

theorem Course.forEach_attempts {input : Json} {items results : List Json}
    (taken : Branching.forEach (surroundings (visit engine left) graph path node) input 0 items
      deeds results) :
    deeds.filterMap (Deed.attempt? engine.limits.maxDepth path) =
      (List.range items.length).flatMap fun round =>
        (Run.fired graph node ["item"]).mapIdx (.body round) := by
  rw [Branching.forEach_eq_mapM] at taken
  have rounds : items.zipIdx.map Prod.snd = List.range items.length := by
    rw [List.zipIdx_map_snd, List.range_eq_range']
  rw [← rounds, List.flatMap_map]
  refine Courses.filterMap_mapM (fun ⟨item, round⟩ _ deeds result goes => ?_) taken
  obtain ⟨_, body, _⟩ := (Courses.map_iff ..).mp goes
  exact round_attempts reaches found reach branches loops body

theorem Engine.Visited.lines_up {input : Json} {result : Option Json}
    (visited : engine.Visited (left + 1) deeds path graph name input result) {items : List Json}
    (listed : Branching.loopItems node input = .ok items) :
    ∃ results, result = some (Branching.completion input results) ∧
      engine.LinesUp left deeds path graph node input items results := by
  unfold Visited Course.visit at visited
  rw [found] at visited
  obtain ⟨work, performed, first, last, followed, activation, rfl⟩ :=
    Course.activation_gives visited
  obtain ⟨results, taken, rfl⟩ := Course.perform_for branches loops listed activation.works
  have follows := activation.follows _ rfl
  obtain ⟨length, rounds⟩ := Course.forEach_rounds reaches found reach branches loops taken
  have further (step : Step) :
      Deed.below (path ++ [step]) deeds = Deed.below (path ++ [step]) (Deed.below path deeds) :=
    (Deed.below_below (List.prefix_append path _) deeds).symm
  refine ⟨results, rfl, ?_⟩
  constructor
  case length => exact length
  case rounds =>
    intro round item here
    obtain ⟨output, result, given, known⟩ := rounds round item here
    refine ⟨output, result, given, known.congr fun index connection => ?_⟩
    rw [further, activation.below_work reaches found reach rfl]
  case attempts =>
    refine ⟨_, ?_, Course.follow_attempts reaches found reach follows⟩
    rw [← Deed.filterMap_attempt?_below, activation.attempts,
      Course.forEach_attempts reaches found reach branches loops taken]
  case succeeds =>
    refine ⟨last, Deed.event_mem_below_iff.mp ?_⟩
    rw [activation.deeds]
    simp [Event.ending]
  case unfailing =>
    intro run name message told
    have here := Deed.event_mem_below_iff.mpr told
    rcases activation.told reaches.known.1 reaches.path_ne_nil here rfl with started | ended
    · contradiction
    · contradiction
  case completes =>
    intro index connection there
    obtain ⟨result, onward⟩ :=
      Course.follow_visited reaches found reach follows index connection there
    refine ⟨result, ?_⟩
    rw [Visited, further, activation.below_followed reaches found reach]
    exact onward
  case ends =>
    intro none
    obtain rfl := Course.follow_ends none follows
    have here : .ending path node.id (Branching.completion input results) ∈
        Deed.below path deeds := by
      rw [activation.deeds]
      simp [Outcome.single]
    exact (Deed.mem_below_iff.mp here).1

end ForLoop

end Work

end Visits

namespace Engine

variable {engine : Engine} {outer : Graph} {entry : Entry} {input : Json} {deeds : List Deed}
  {tally : Tally}
  (whole : Course.wholeGraph (Course.visit engine engine.limits.maxDepth) [] outer input entry
    deeds tally)

include whole

/-- The starts of a run are visited with its input. -/
theorem run_starts {report : Graph.Report} (accepted : outer.check = .ok report) {index : Nat}
    {name : String} (listed : (entry.starts outer report)[index]? = some name) :
    ∃ result,
      engine.Visited engine.limits.maxDepth deeds [.start index] outer name input result := by
  obtain ⟨attempted, attempt, _, rfl⟩ := whole
  unfold Course.attempt at attempt
  rw [accepted] at attempt
  obtain ⟨results, taken, _⟩ := (Courses.map_iff ..).mp attempt
  have reached (index : Nat) (name : String)
      (listed : (entry.starts outer report)[index]? = some name) :
      engine.Reaches outer entry 0 ([] ++ [.start index]) outer name := .start accepted listed
  obtain ⟨_, visited⟩ := Course.all_visited (fun index _ => .start index)
    (fun _ _ _ _ same => Step.start.inj same) id reached rfl taken
  obtain ⟨result, _, there⟩ := visited index name listed
  refine ⟨result, ?_⟩
  simpa [Visited, Deed.below, Deed.path] using there

/-- What is told to start is visited. -/
theorem run_visited {path : Path} {run : Uuid} {name : String}
    (told : .event ⟨path, .nodeStarted run name⟩ ∈ deeds) :
    ∃ depth left graph node, engine.Reaches outer entry depth path graph name ∧
      graph.node? name = some node ∧ left + depth + 1 = engine.limits.maxDepth ∧
      ∃ input result, engine.Visited (left + 1) deeds path graph name input result := by
  obtain ⟨_, _, first⟩ := reaches_of_event whole told rfl
  have part : engine.Part outer entry path (Deed.below path deeds) :=
    run_parts whole told first.path_ne_nil List.prefix_rfl
  have here := Deed.event_mem_below_iff.mpr told
  obtain ⟨left, depth, graph, again, input, result, reaches, reach, visited⟩ := part
  obtain ⟨rfl, _⟩ := first.unique reaches
  obtain ⟨node, found⟩ := Option.isSome_iff_exists.mp reaches.known.2
  cases left with
  | zero =>
      obtain ⟨_, _, refused⟩ := Course.visit_zero visited
      rw [refused] at here
      simp at here
  | succ left =>
      exact ⟨depth, left, graph, node, reaches, found, by omega, input, result, visited⟩

omit whole in
/-- A for-loop lines up its results with its items.

The deeds are those of a course of the run, and what it ends on is what they say.  Every run
visits its starts with its own input, and whatever it tells to start is visited with some
input.  If that is a for-loop whose input has the given items, then each target of its item
output is visited in each round, with the item of the round, whatever comes of the other
visits; the loop never fails, and it goes on with one result for each item. -/
theorem items_line_up (engine : Engine) (graph : Graph) (input : Json) (entry : Entry)
    (world : World) :
    ∃ deeds, World.Grows [] world deeds (engine.run graph input entry world).1 ∧
      Course.wholeGraph (Course.visit engine engine.limits.maxDepth) [] graph input entry deeds
        (engine.runScoped 0 graph input entry world).2 ∧
      (engine.runScoped 0 graph input entry world).2.terminal =
        (Deed.of [] deeds).filterMap Deed.ending? ∧
      (∀ report index name, graph.check = .ok report →
        (entry.starts graph report)[index]? = some name → ∃ result,
          engine.Visited engine.limits.maxDepth deeds [.start index] graph name input result) ∧
      ∀ path run name, .event ⟨path, .nodeStarted run name⟩ ∈ deeds →
        ∃ depth left inner node, engine.Reaches graph entry depth path inner name ∧
          inner.node? name = some node ∧ left + depth + 1 = engine.limits.maxDepth ∧
          (∃ given result, engine.Visited (left + 1) deeds path inner name given result) ∧
          (node.kind = .condition → node.templateId = forTemplate → ∀ given result,
            engine.Visited (left + 1) deeds path inner name given result →
              ∀ items, Branching.loopItems node given = .ok items → ∃ results,
                result = some (Branching.completion given results) ∧
                  engine.LinesUp left deeds path inner node given items results) := by
  obtain ⟨deeds, whole, grows⟩ := engine.runScoped_takes graph input entry world 0
  refine ⟨deeds, grows, whole, (Course.wholeGraph_tells whole).1,
    fun _ _ _ accepted listed => run_starts whole accepted listed, fun path run name told => ?_⟩
  obtain ⟨depth, left, inner, node, reaches, found, reach, visited⟩ := run_visited whole told
  exact ⟨depth, left, inner, node, reaches, found, reach, visited,
    fun branches loops given result visited items listed =>
      visited.lines_up reaches found reach branches loops listed⟩

end Engine

/-- A loop with two targets, the second of which always fails, and a node behind it. -/
def sending : Graph :=
  let port (id : String) (direction : Direction) : Port := ⟨id, id, direction, anyType, true⟩
  let node (id template : String) (kind : Kind) (outputs : List Port) : Node :=
    ⟨id, template, kind, id, [], [port "in" .input], outputs, .idle, .origin⟩
  { id := .nil
    name := "sending"
    nodes :=
      [ node "each" forTemplate .condition [port "item" .output, port "complete" .output],
        node "print" "item" .action [], node "send" "broken" .action [],
        node "after" "item" .action [] ]
    connections :=
      [ ⟨"first", ⟨"each", "item"⟩, ⟨"print", "in"⟩, anyType⟩,
        ⟨"second", ⟨"each", "item"⟩, ⟨"send", "in"⟩, anyType⟩,
        ⟨"third", ⟨"each", "complete"⟩, ⟨"after", "in"⟩, anyType⟩ ] }

def sendingEngine : Engine where
  registry :=
    [ ("broken", fun _ _ => ⟨0, .panicked⟩),
      ("item", fun _ input => ⟨0, .returned ((input.field? "item").getD .null)⟩) ]
  library := []
  limits := ⟨100, 8, 8⟩

theorem run_of_sending_lines_up :
    ∃ deeds node results,
      World.Grows [] (.new ⟨0, 0⟩ ⟨0⟩) deeds
        (sendingEngine.run sending (.array [.nat 1, .nat 2]) .triggersOrRoots
          (.new ⟨0, 0⟩ ⟨0⟩)).1 ∧
      sending.node? "each" = some node ∧
      sendingEngine.LinesUp 7 deeds [.start 0] sending node (.array [.nat 1, .nat 2])
        [.nat 1, .nat 2] results := by
  obtain ⟨deeds, grows, _, _, starts, loops⟩ := sendingEngine.items_line_up sending
    (.array [.nat 1, .nat 2]) .triggersOrRoots (.new ⟨0, 0⟩ ⟨0⟩)
  obtain ⟨result, visited⟩ := starts ⟨[], false⟩ 0 "each" rfl rfl
  have told : .event ⟨[.start 0], .nodeStarted (Uuid.random 0) "each"⟩ ∈ deeds := by
    have shown : (⟨[.start 0], .nodeStarted (Uuid.random 0) "each"⟩ : Traced) ∈
        (sendingEngine.run sending (.array [.nat 1, .nat 2]) .triggersOrRoots
          (.new ⟨0, 0⟩ ⟨0⟩)).1.trace := by decide +kernel
    rw [grows.trace] at shown
    exact Deed.mem_event_iff.mp shown
  obtain ⟨depth, left, inner, node, reaches, found, reach, _, lines⟩ := loops _ _ _ told
  obtain ⟨_, rfl⟩ : ([] : Path) = [] ∧ inner = sending :=
    reaches.scope.resolve_right fun ⟨_, _, _, _, _, _, before, _⟩ => before.path_ne_nil rfl
  obtain rfl : 0 = depth := Nat.succ.inj reaches.length_path
  obtain rfl : left = 7 := Nat.succ.inj reach
  obtain ⟨results, _, linesUp⟩ := lines (by cases found; rfl) (by cases found; rfl) _ _
    visited [.nat 1, .nat 2] (by cases found; rfl)
  exact ⟨deeds, node, results, grows, found, linesUp⟩

/-- What the node behind the loop is handed. -/
example :
    ((sendingEngine.run sending (.array [.nat 1, .nat 2]) .triggersOrRoots
        (.new ⟨0, 0⟩ ⟨0⟩)).1.calls.getLast?.bind fun call =>
      (call.input.field? "results").map Json.render) = some "[[1,null],[2,null]]" := by
  decide +kernel

end Workflow
