import Workflow.Proofs.Isolation
import Workflow.Proofs.Sequence

/-! The parts of a run.

What a run does at the path of an activation and below it is the course of one visit,
however the deeds of other activations are mixed in: `Engine.run_parts`.  So whatever is
known of single visits can be said of the activations in a run.
-/

namespace Workflow

/-- The deeds at a path and below it. -/
def Deed.below (path : Path) (deeds : List Deed) : List Deed :=
  deeds.filter fun deed => path <+: deed.path

theorem Deed.mem_below_iff {path : Path} {deeds : List Deed} {deed : Deed} :
    deed ∈ Deed.below path deeds ↔ deed ∈ deeds ∧ path <+: deed.path := by
  simp [below]

theorem Deed.event_mem_below_iff {path : Path} {deeds : List Deed} {event : Event} :
    .event ⟨path, event⟩ ∈ Deed.below path deeds ↔ .event ⟨path, event⟩ ∈ deeds :=
  mem_below_iff.trans (and_iff_left List.prefix_rfl)

theorem Deed.below_below {path further : Path} (along : path <+: further) (deeds : List Deed) :
    Deed.below further (Deed.below path deeds) = Deed.below further deeds := by
  rw [below, below, List.filter_filter]
  refine List.filter_congr fun deed _ => ?_
  simpa using fun inside : further <+: deed.path => along.trans inside

theorem Deed.below_eq_self {path : Path} {deeds : List Deed}
    (inside : ∀ deed ∈ deeds, path <+: deed.path) : Deed.below path deeds = deeds :=
  List.filter_eq_self.mpr fun deed member => decide_eq_true (inside deed member)

/-- Deeds at a path and beyond it by certain steps, where those that belong to a path
beyond make up a part. -/
structure Spread (part : Path → List Deed → Prop) (path : Path) (steps : Step → Prop)
    (deeds : List Deed) : Prop where
  places : ∀ deed ∈ deeds, deed.path = path ∨ path.Beyond steps deed.path
  parts : ∀ further, path.Beyond (fun _ => True) further →
    (∃ deed ∈ deeds, further <+: deed.path) → part further (Deed.below further deeds)

namespace Spread

variable {part : Path → List Deed → Prop} {path : Path} {steps others : Step → Prop} {step : Step}
  {deeds before after : List Deed}

theorem own (here : ∀ deed ∈ deeds, deed.path = path) : Spread part path steps deeds where
  places deed member := .inl (here deed member)
  parts further beyond given := by
    obtain ⟨step, _, along⟩ := beyond
    obtain ⟨deed, member, below⟩ := given
    exact absurd (here deed member ▸ along.trans below) (Path.not_step_isPrefix path step)

theorem nothing : Spread part path steps [] :=
  own nofun

theorem mono (spread : Spread part path steps deeds)
    (included : ∀ step, steps step → others step) : Spread part path others deeds where
  places deed member := (spread.places deed member).imp_right fun beyond => beyond.mono included
  parts := spread.parts

theorem isPrefix (spread : Spread part path steps deeds) : ∀ deed ∈ deeds, path <+: deed.path :=
  fun deed member =>
    (spread.places deed member).elim (fun here => here ▸ List.prefix_rfl) Path.Beyond.isPrefix

theorem step_of_mem (spread : Spread part path steps deeds) {deed : Deed} (member : deed ∈ deeds)
    (below : path ++ [step] <+: deed.path) : steps step := by
  rcases spread.places deed member with here | ⟨other, chosen, along⟩
  · exact absurd (here ▸ below) (Path.not_step_isPrefix path step)
  · exact Path.step_unique along below ▸ chosen

theorem below_eq_nil (spread : Spread part path steps deeds) (other : ¬ steps step)
    {further : Path} (along : path ++ [step] <+: further) : Deed.below further deeds = [] := by
  rw [List.eq_nil_iff_forall_not_mem]
  intro deed member
  obtain ⟨inside, below⟩ := Deed.mem_below_iff.mp member
  exact other (spread.step_of_mem inside (along.trans below))

/-- Deeds that go different ways from a path may be mixed. -/
theorem mix {mixed : List Deed} (first : Spread part path steps before)
    (second : Spread part path others after) (apart : ∀ step, steps step → ¬ others step)
    (interleaved : Interleaved before after mixed) :
    Spread part path (fun step => steps step ∨ others step) mixed where
  places deed member := by
    rcases interleaved.mem_iff.mp member with here | there
    · exact (first.places deed here).imp_right fun beyond => beyond.mono fun _ => .inl
    · exact (second.places deed there).imp_right fun beyond => beyond.mono fun _ => .inr
  parts further beyond given := by
    obtain ⟨step, _, along⟩ := beyond
    obtain ⟨deed, member, below⟩ := given
    have told : Interleaved (Deed.below further before) (Deed.below further after)
        (Deed.below further mixed) := interleaved.filter _
    rcases interleaved.mem_iff.mp member with here | there
    · have chosen := first.step_of_mem here (along.trans below)
      rw [second.below_eq_nil (apart step chosen) along, Interleaved.nil_right] at told
      exact told ▸ first.parts further ⟨step, trivial, along⟩ ⟨deed, here, below⟩
    · have chosen := second.step_of_mem there (along.trans below)
      rw [first.below_eq_nil (fun both => apart step both chosen) along,
        Interleaved.nil_left] at told
      exact told ▸ second.parts further ⟨step, trivial, along⟩ ⟨deed, there, below⟩

theorem append (first : Spread part path steps before) (second : Spread part path others after)
    (apart : ∀ step, steps step → ¬ others step) :
    Spread part path (fun step => steps step ∨ others step) (before ++ after) :=
  first.mix second apart (.append before after)

theorem surround (spread : Spread part path steps deeds)
    (first : ∀ deed ∈ before, deed.path = path) (last : ∀ deed ∈ after, deed.path = path) :
    Spread part path steps (before ++ deeds ++ after) := by
  have begins : Spread part path (fun _ => False) before := own first
  have ends : Spread part path (fun _ => False) after := own last
  exact ((begins.append spread fun _ => False.elim).append ends fun _ _ => id).mono
    fun step either => by simpa using either

/-- What is a part itself, and spreads beyond its own path, does so from the path before. -/
theorem child (spread : Spread part (path ++ [step]) others deeds)
    (whole : part (path ++ [step]) deeds) : Spread part path (· = step) deeds := by
  have along := spread.isPrefix
  refine ⟨fun deed member => .inr ⟨step, rfl, along deed member⟩, ?_⟩
  rintro further ⟨other, _, onward⟩ ⟨deed, member, below⟩
  obtain rfl := Path.step_unique (onward.trans below) (along deed member)
  rcases Path.isPrefix_iff.mp onward with rfl | beyond
  · rwa [Deed.below_eq_self along]
  · exact spread.parts further beyond ⟨deed, member, below⟩

/-- Things side by side that go different ways from a path. -/
theorem all_apart {α β : Type} {steps : Nat → Step → Prop}
    (apart : ∀ index other step, steps index step → steps other step → index = other)
    {courses : Nat → α → Courses Deed β} {elements : List α}
    (each : ∀ index element, elements[index]? = some element → ∀ deeds result,
      courses index element deeds result → Spread part path (steps index) deeds)
    {results : List β} (taken : Courses.all (elements.mapIdx courses) deeds results) :
    Spread part path (fun chosen => ∃ index, steps index chosen) deeds := by
  induction elements generalizing steps courses deeds results with
  | nil =>
      obtain ⟨rfl, _⟩ := taken
      exact nothing
  | cons element rest ih =>
      rw [List.mapIdx_cons] at taken
      obtain ⟨left, right, _, _, mixed, goes, follows, _⟩ := taken
      have first := each 0 element rfl left _ goes
      have later := ih
        (fun index other step one same => Nat.succ.inj (apart _ _ step one same))
        (fun index later listed => each (index + 1) later listed) follows
      refine (first.mix later ?_ mixed).mono ?_
      · rintro step here ⟨index, there⟩
        exact absurd (apart _ _ step here there) (Nat.succ_ne_zero index).symm
      · rintro chosen (here | ⟨index, there⟩)
        · exact ⟨0, here⟩
        · exact ⟨index + 1, there⟩

theorem all {α β : Type} {step : Nat → α → Step}
    (distinct : ∀ index other first second, step index first = step other second → index = other)
    {courses : Nat → α → Courses Deed β} (elements : List α)
    (each : ∀ index element, elements[index]? = some element → ∀ deeds result,
      courses index element deeds result → Spread part path (· = step index element) deeds)
    {results : List β} (taken : Courses.all (elements.mapIdx courses) deeds results) :
    Spread part path (fun chosen => ∃ index element, chosen = step index element) deeds := by
  refine all_apart ?_ (fun index element listed deeds result goes => ?_) taken
  · rintro index other _ ⟨first, rfl⟩ ⟨second, same⟩
    exact distinct index other first second same
  · exact (each index element listed deeds result goes).mono fun _ same => ⟨element, same⟩

/-- Of things side by side that go different ways, what lies one way is of one thing. -/
theorem below_all {α β : Type} {steps : Nat → Step → Prop}
    (apart : ∀ index other step, steps index step → steps other step → index = other)
    {courses : Nat → α → Courses Deed β} {elements : List α}
    (each : ∀ index element, elements[index]? = some element → ∀ deeds result,
      courses index element deeds result → Spread part path (steps index) deeds)
    {results : List β} (taken : Courses.all (elements.mapIdx courses) deeds results) :
    results.length = elements.length ∧
      ∀ index element, elements[index]? = some element → ∃ own result,
        results[index]? = some result ∧ courses index element own result ∧
          ∀ step, steps index step →
            Deed.below (path ++ [step]) deeds = Deed.below (path ++ [step]) own := by
  induction elements generalizing steps courses deeds results with
  | nil =>
      obtain ⟨_, rfl⟩ := taken
      exact ⟨rfl, nofun⟩
  | cons element rest ih =>
      rw [List.mapIdx_cons] at taken
      obtain ⟨left, right, value, values, mixed, goes, follows, rfl⟩ := taken
      have first := each 0 element rfl left _ goes
      have away (index other : Nat) (step : Step) (one : steps (index + 1) step)
          (same : steps (other + 1) step) : index = other := Nat.succ.inj (apart _ _ step one same)
      have others (index : Nat) (later : α) (listed : rest[index]? = some later) :=
        each (index + 1) later listed
      have second := all_apart away others follows
      obtain ⟨sized, rests⟩ := ih away others follows
      have split (step : Step) : Interleaved (Deed.below (path ++ [step]) left)
          (Deed.below (path ++ [step]) right) (Deed.below (path ++ [step]) deeds) := mixed.filter _
      refine ⟨by simp [sized], fun index one listed => ?_⟩
      cases index with
      | zero =>
          obtain rfl := Option.some.inj listed
          refine ⟨left, value, rfl, goes, fun step chosen => ?_⟩
          have none : Deed.below (path ++ [step]) right = [] :=
            second.below_eq_nil (fun ⟨_, later⟩ => by cases apart _ _ step chosen later)
              List.prefix_rfl
          simpa [none] using split step
      | succ index =>
          obtain ⟨own, result, found, taken, below⟩ := rests index one listed
          refine ⟨own, result, found, taken, fun step chosen => ?_⟩
          have none : Deed.below (path ++ [step]) left = [] :=
            first.below_eq_nil (fun sooner => by cases apart _ _ step sooner chosen)
              List.prefix_rfl
          rw [← below step chosen]
          simpa [none] using split step

end Spread

/-- An activation starts, works and ends; if it succeeds, it is followed by others. -/
structure Course.Activation (engine : Engine) (visit : Visit) (graph : Graph) (path : Path)
    (node : Node) (input : Json) (work : List Deed) (performed : Except NodeError Outcome)
    (first last : Uuid) (followed deeds : List Deed) : Prop where
  works : perform engine visit graph path node input work performed
  follows : ∀ outcome, performed = .ok outcome → follow visit graph path node outcome followed ()
  fails : ∀ error, performed = .error error → followed = []
  deeds : deeds = .event ⟨path, .nodeStarted first node.id⟩ :: work ++
    .event ⟨path, .ending last node.id performed⟩ :: followed

/-- The payload of an activation is what its node gave; one that fails has none. -/
theorem Course.activation_gives {engine : Engine} {visit : Visit} {graph : Graph} {path : Path}
    {node : Node} {input : Json} {deeds : List Deed} {result : Option Json}
    (taken : activate engine visit graph path node input deeds result) :
    ∃ work performed first last followed,
      Activation engine visit graph path node input work performed first last followed deeds ∧
        result = performed.toOption.map Outcome.payload := by
  obtain ⟨_, _, _, rfl, ⟨first, rfl⟩, work, rest, performed, rfl, works, ends⟩ := taken
  cases performed with
  | error error =>
      obtain ⟨_, _, _, rfl, ⟨last, rfl⟩, rfl, rfl⟩ := ends
      exact ⟨work, _, first, last, [], ⟨works, nofun, fun _ _ => rfl, rfl⟩, rfl⟩
  | ok outcome =>
      obtain ⟨_, _, _, rfl, ⟨last, rfl⟩, followed, _, _, rfl, follows, rfl, rfl⟩ := ends
      refine ⟨work, _, first, last, followed, ⟨works, ?_, nofun, by simp [Event.ending]⟩, rfl⟩
      intro _ same
      obtain rfl := Except.ok.inj same
      exact follows

theorem Course.activation {engine : Engine} {visit : Visit} {graph : Graph} {path : Path}
    {node : Node} {input : Json} {deeds : List Deed} {result : Option Json}
    (taken : activate engine visit graph path node input deeds result) :
    ∃ work performed first last followed,
      Activation engine visit graph path node input work performed first last followed deeds := by
  obtain ⟨work, performed, first, last, followed, activation, _⟩ := activation_gives taken
  exact ⟨work, performed, first, last, followed, activation⟩

/-- The graph that the run at a path is of: the one outside, or the body of the definition
behind the composite node that is activated there. -/
def Engine.Scope (engine : Engine) (outer : Graph) (entry : Entry) (run : Path) (graph : Graph) :
    Prop :=
  run = [] ∧ graph = outer ∨
    ∃ depth around name node definition id, engine.Reaches outer entry depth run around name ∧
      around.node? name = some node ∧ node.Composite ∧
      Run.definitionOf engine around node = .ok definition ∧ graph = definition.toGraph id

/-- An activation belongs to the run that its path says. -/
theorem Engine.Reaches.scope {engine : Engine} {outer graph : Graph} {entry : Entry} {depth : Nat}
    {path : Path} {name : String} (reaches : engine.Reaches outer entry depth path graph name) :
    engine.Scope outer entry (Path.run path) graph := by
  induction reaches with
  | @start _ index =>
      have first : Path.run [.start index] = [] := Path.run_start [] index
      exact .inl ⟨first, rfl⟩
  | follow _ _ _ _ ih => rwa [Path.run_follow]
  | body _ _ _ _ _ _ ih => rwa [Path.run_body]
  | nested before found composite known _ _ _ =>
      rw [Path.run_start]
      exact .inr ⟨_, _, _, _, _, _, before, found, composite, known, rfl⟩

/-- A run is of one graph, but for its identifier. -/
theorem Engine.Scope.unique {engine : Engine} {outer graph twin : Graph} {entry : Entry}
    {run : Path} (first : engine.Scope outer entry run graph)
    (second : engine.Scope outer entry run twin) : twin = { graph with id := twin.id } := by
  rcases first with ⟨rfl, rfl⟩ | ⟨_, _, _, node, _, _, reaches, found, _, known, rfl⟩
  · rcases second with ⟨_, rfl⟩ | ⟨_, _, _, _, _, _, before, _⟩
    · rfl
    · exact absurd rfl before.path_ne_nil
  · rcases second with ⟨rfl, _⟩ | ⟨_, _, _, _, _, _, before, here, _, same, rfl⟩
    · exact absurd rfl reaches.path_ne_nil
    · obtain ⟨rfl, alike⟩ := reaches.unique before
      rw [alike] at here same
      obtain rfl := Option.some.inj (here.symm.trans found)
      obtain rfl := Except.ok.inj (same.symm.trans known)
      rfl

/-- The deeds are the course of a visit that a run comes to. -/
def Engine.Part (engine : Engine) (outer : Graph) (entry : Entry) (path : Path)
    (deeds : List Deed) : Prop :=
  ∃ left depth graph name input result, engine.Reaches outer entry depth path graph name ∧
    left + depth = engine.limits.maxDepth ∧
    Course.visit engine left graph path name input deeds result

namespace Course

variable {engine : Engine} {outer : Graph} {entry : Entry} {left : Nat} {visit : Visit}

def VisitSpreads (engine : Engine) (outer : Graph) (entry : Entry) (left : Nat) (visit : Visit) :
    Prop :=
  ∀ depth path graph name input deeds result, engine.Reaches outer entry depth path graph name →
    left + depth = engine.limits.maxDepth → visit graph path name input deeds result →
    engine.Part outer entry path deeds ∧
      Spread (engine.Part outer entry) path (fun _ => True) deeds

theorem VisitSpreads.child (visits : VisitSpreads engine outer entry left visit) {depth : Nat}
    {path : Path} {graph : Graph} {name : String} {step : Step}
    (reaches : engine.Reaches outer entry depth (path ++ [step]) graph name)
    (reach : left + depth = engine.limits.maxDepth) {input : Json} {deeds : List Deed}
    {result : Option Json} (taken : visit graph (path ++ [step]) name input deeds result) :
    Spread (engine.Part outer entry) path (· = step) deeds := by
  obtain ⟨whole, spread⟩ := visits depth _ _ _ _ _ _ reaches reach taken
  exact spread.child whole

section

variable {part : Path → List Deed → Prop} {path : Path} {graph : Graph} {input : Json}
  {kind : Entry} {deeds : List Deed}

theorem attempt_spreads
    (started : ∀ report index name, graph.check = .ok report →
      (kind.starts graph report)[index]? = some name → ∀ deeds result,
        visit graph (path ++ [.start index]) name input deeds result →
          Spread part path (· = .start index) deeds)
    (taken : attempt visit path graph input kind deeds ()) :
    Spread part path (fun step => ∃ index, step = .start index) deeds := by
  unfold attempt at taken
  cases checked : graph.check with
  | error error =>
      rw [checked] at taken
      obtain rfl := taken
      exact .own fun deed member => List.mem_singleton.mp member ▸ rfl
  | ok report =>
      rw [checked] at taken
      obtain ⟨results, taken, _⟩ := (Courses.map_iff ..).mp taken
      have spread : Spread part path (fun step => ∃ index, ∃ _ : String, step = .start index)
          deeds :=
        .all (fun _ _ _ _ same => Step.start.inj same) _
          (fun index name listed => started report index name checked listed) taken
      exact spread.mono fun _ ⟨index, _, same⟩ => ⟨index, same⟩

theorem wholeGraph_spreads {steps : Step → Prop} {tally : Tally}
    (attempted : ∀ deeds, attempt visit path graph input kind deeds () →
      Spread part path steps deeds)
    (taken : wholeGraph visit path graph input kind deeds tally) :
    Spread part path steps deeds := by
  obtain ⟨between, attempt, _, rfl⟩ := taken
  have begins : ∀ deed ∈ [Deed.event ⟨path, .runStarted tally.execution.id graph.id⟩],
      deed.path = path := by simp [Deed.path]
  exact (attempted between attempt).surround begins (by simp [Deed.path])

end

section Activation

variable (visits : VisitSpreads engine outer entry left visit) {depth : Nat} {path : Path}
  {graph : Graph} {name : String} {node : Node} {deeds : List Deed}
  (reaches : engine.Reaches outer entry depth path graph name)
  (found : graph.node? name = some node) (reach : left + depth + 1 = engine.limits.maxDepth)

include visits reaches found reach

theorem follow_spreads {outcome : Outcome}
    (taken : follow visit graph path node outcome deeds ()) :
    Spread (engine.Part outer entry) path
      (fun step => ∃ index connection, step = .follow index connection) deeds := by
  unfold follow at taken
  by_cases ended : (Run.fired graph node outcome.ports).isEmpty
  · simp only [ended, if_true] at taken
    obtain rfl := taken
    exact .own fun deed member => List.mem_singleton.mp member ▸ rfl
  · simp only [ended] at taken
    obtain ⟨results, taken, _⟩ := (Courses.map_iff ..).mp taken
    refine .all (fun _ _ _ _ same => (Step.follow.inj same).1) _ ?_ taken
    intro index connection listed deeds result taken
    exact visits.child (reaches.follow_fired found listed) (by omega) taken

theorem runBody_spreads (branches : node.kind = .condition)
    (loop : Branching.isLoop node.templateId) {round : Nat} {payload : Json}
    {outputs : List (Option Json)}
    (taken : runBody visit graph path node round (Branching.bodyOutput node.templateId) payload
      deeds outputs) :
    Spread (engine.Part outer entry) path
      (fun step => ∃ index connection, step = .body round index connection) deeds := by
  unfold runBody at taken
  cases hangs : node.output? (Branching.bodyOutput node.templateId) with
  | none =>
      rw [hangs] at taken
      obtain ⟨rfl, _⟩ := taken
      exact .nothing
  | some port =>
      rw [hangs] at taken
      have beside : Courses.all ((graph.outgoing ⟨node.id, port.id⟩).mapIdx fun index connection =>
          visit graph (path ++ [.body round index connection]) connection.target.nodeId payload)
          deeds outputs := by
        rw [List.mapIdx_eq_zipIdx_map]
        exact Courses.all_of_mapM taken
      refine .all (fun _ _ _ _ same => (Step.body.inj same).2.1) _ ?_ beside
      intro index connection listed deeds result taken
      exact visits.child (.body reaches found branches loop hangs listed) (by omega) taken

theorem rounds_spread (branches : node.kind = .condition)
    (loop : Branching.isLoop node.templateId) {round : Nat}
    (rounds : Rounds (onOutput (Branching.bodyOutput node.templateId)
      (runBody visit graph path node)) round deeds) :
    Spread (engine.Part outer entry) path
      (fun step => ∃ later index connection, round ≤ later ∧ step = .body later index connection)
      deeds := by
  induction rounds with
  | done => exact .nothing
  | @again round key payload deeds rest outputs taken _ ih =>
      obtain ⟨rfl, taken⟩ := taken
      have first := runBody_spreads visits reaches found reach branches loop taken
      refine (first.append ih ?_).mono ?_
      · rintro _ ⟨index, connection, rfl⟩ ⟨later, _, _, after, same⟩
        have clash := (Step.body.inj same).1
        omega
      · rintro step (⟨index, connection, same⟩ | ⟨later, index, connection, after, same⟩)
        · exact ⟨round, index, connection, Nat.le_refl _, same⟩
        · exact ⟨later, index, connection, by omega, same⟩

theorem callSubflow_spreads (composite : node.Composite) {input : Json}
    {result : Except NodeError Outcome}
    (taken : callSubflow engine visit graph path node input deeds result) :
    Spread (engine.Part outer entry) path (fun step => ∃ index, step = .start index) deeds := by
  rcases callSubflow_cases taken with ⟨_, _, rfl⟩ | ⟨_, _, _, known, whole, _⟩
  · exact .nothing
  · refine wholeGraph_spreads (fun attempted given => attempt_spreads ?_ given) whole
    intro report index inner accepted listed deeds result taken
    exact visits.child (.nested reaches found composite known accepted listed) (by omega) taken

/-- While an activation works, nothing follows it. -/
theorem perform_spreads {input : Json} {result : Except NodeError Outcome}
    (taken : perform engine visit graph path node input deeds result) :
    Spread (engine.Part outer entry) path
      (fun step => ∀ index connection, step ≠ .follow index connection) deeds := by
  rcases perform_cases taken with
    ⟨calls, here, rfl⟩ | ⟨branches, _, evaluated⟩ | ⟨composite, called⟩
  · refine .own fun deed member => ?_
    obtain ⟨call, made, rfl⟩ := List.mem_map.mp member
    exact here call made
  · rcases Branching.evaluate_loops (fun _ => .pure ()) evaluated with rfl | ⟨loop, rounds⟩
    · exact .nothing
    · refine (rounds_spread visits reaches found reach branches loop rounds).mono ?_
      rintro _ ⟨_, _, _, _, rfl⟩ _ _ same
      contradiction
  · refine (callSubflow_spreads visits reaches found reach composite called).mono ?_
    rintro _ ⟨_, rfl⟩ _ _ same
    contradiction

theorem activate_spreads {input : Json} {result : Option Json}
    (taken : activate engine visit graph path node input deeds result) :
    Spread (engine.Part outer entry) path (fun _ => True) deeds := by
  obtain ⟨work, performed, first, last, followed, activation⟩ := activation taken
  have own (event : Event) : ∀ deed ∈ [Deed.event ⟨path, event⟩], deed.path = path :=
    fun deed member => List.mem_singleton.mp member ▸ rfl
  have around := (perform_spreads visits reaches found reach activation.works).surround
    (own (.nodeStarted first node.id)) (own (.ending last node.id performed))
  have onward : Spread (engine.Part outer entry) path
      (fun step => ∃ index connection, step = .follow index connection) followed := by
    cases same : performed with
    | error error =>
        rw [activation.fails error same]
        exact .nothing
    | ok outcome =>
        exact follow_spreads visits reaches found reach (activation.follows outcome same)
  have whole := around.append onward fun step apart ⟨index, connection, same⟩ =>
    apart index connection same
  rw [activation.deeds]
  simpa using whole.mono fun _ _ => trivial

end Activation

theorem visit_spreads (engine : Engine) (outer : Graph) (entry : Entry) (left : Nat) :
    VisitSpreads engine outer entry left (Course.visit engine left) := by
  induction left with
  | zero =>
      intro depth path graph name input deeds result reaches reach taken
      refine ⟨⟨0, depth, graph, name, input, result, reaches, reach, taken⟩, .own ?_⟩
      obtain ⟨run, message, rfl⟩ := visit_zero taken
      exact fun deed member => List.mem_singleton.mp member ▸ rfl
  | succ left ih =>
      intro depth path graph name input deeds result reaches reach taken
      refine ⟨⟨_, depth, graph, name, input, result, reaches, reach, taken⟩, ?_⟩
      obtain ⟨node, found⟩ := Option.isSome_iff_exists.mp reaches.known.2
      unfold Course.visit at taken
      rw [found] at taken
      exact activate_spreads ih reaches found (by omega) taken

end Course

namespace Course.Activation

variable {engine : Engine} {left : Nat} {graph : Graph} {path : Path} {node : Node} {input : Json}
  {work followed deeds : List Deed} {performed : Except NodeError Outcome} {first last : Uuid}
  (activation : Activation engine (visit engine left) graph path node input work performed first
    last followed deeds) (wellFormed : graph.WellFormed) (inside : path ≠ [])

include activation

theorem work_subset : work ⊆ deeds := by
  rw [activation.deeds]
  exact fun deed member => by simp [member]

theorem followed_subset : followed ⊆ deeds := by
  rw [activation.deeds]
  exact fun deed member => by simp [member]

include wellFormed inside

theorem follow_beyond : ∀ traced ∈ followed.filterMap Deed.event?, traced.path ≠ path := by
  cases same : performed with
  | error error =>
      rw [activation.fails error same]
      simp
  | ok outcome =>
      have account := follow_accounted (visit_accounted engine left) wellFormed inside
        (activation.follows outcome same)
      exact fun traced member => (account.paths traced member).ne

/-- While it works, nothing is told of the node. -/
theorem work_foreign {event : Event} (member : .event ⟨path, event⟩ ∈ work) :
    Traced.run ⟨path, event⟩ ≠ Path.run path := by
  intro ofNode
  have atWork := perform_atWork (visit_accounted engine left) wellFormed inside activation.works
  have own := atWork.own _ (Deed.mem_event_iff.mpr member) rfl
  exact Path.run_ne_of_isPrefix inside List.prefix_rfl (own.symm.trans ofNode)

/-- Of a node, an activation tells its start and its end at its path, and nothing more. -/
theorem told {event : Event} (member : .event ⟨path, event⟩ ∈ deeds)
    (ofNode : Traced.run ⟨path, event⟩ = Path.run path) :
    event = .nodeStarted first node.id ∨ event = .ending last node.id performed := by
  rw [activation.deeds] at member
  rcases List.mem_append.mp member with here | there
  · rcases List.mem_cons.mp here with same | working
    · exact .inl (Traced.mk.inj (Deed.event.inj same)).2
    · exact absurd ofNode (activation.work_foreign wellFormed inside working)
  · rcases List.mem_cons.mp there with same | after
    · exact .inr (Traced.mk.inj (Deed.event.inj same)).2
    · exact absurd rfl (activation.follow_beyond wellFormed inside _
        (Deed.mem_event_iff.mpr after))

end Course.Activation

namespace Engine

variable {engine : Engine} {outer : Graph} {entry : Entry} {path : Path} {deeds : List Deed}

/-- A part is the refusal of an activation that is too deep, or an activation. -/
theorem Part.cases (part : engine.Part outer entry path deeds) :
    ∃ depth graph name node, engine.Reaches outer entry depth path graph name ∧
      graph.node? name = some node ∧
      ((depth = engine.limits.maxDepth ∧ ∃ run, deeds = [.event ⟨path, .nodeFailed run name
          (NodeError.depthExceeded engine.limits.maxDepth).message⟩]) ∨
        ∃ left input work performed first last followed, left + depth + 1 = engine.limits.maxDepth ∧
          Course.Activation engine (Course.visit engine left) graph path node input work performed
            first last followed deeds) := by
  obtain ⟨left, depth, graph, name, input, result, reaches, reach, taken⟩ := part
  obtain ⟨node, found⟩ := Option.isSome_iff_exists.mp reaches.known.2
  refine ⟨depth, graph, name, node, reaches, found, ?_⟩
  cases left with
  | zero =>
      unfold Course.visit at taken
      rw [found] at taken
      obtain ⟨_, _, _, rfl, ⟨run, rfl⟩, rfl, _⟩ := taken
      exact .inl ⟨by omega, run, rfl⟩
  | succ left =>
      unfold Course.visit at taken
      rw [found] at taken
      obtain ⟨work, performed, first, last, followed, activation⟩ := Course.activation taken
      exact .inr ⟨left, input, work, performed, first, last, followed, by omega, activation⟩

theorem Part.isPrefix (part : engine.Part outer entry path deeds) :
    ∀ deed ∈ deeds, path <+: deed.path := by
  obtain ⟨left, depth, graph, name, input, result, reaches, reach, taken⟩ := part
  obtain ⟨_, spread⟩ := Course.visit_spreads engine outer entry left _ _ _ _ _ _ _ reaches reach
    taken
  exact spread.isPrefix

/-- In a run, the deeds at the path of an activation and below it are a part. -/
theorem run_parts {input : Json} {tally : Tally}
    (taken : Course.wholeGraph (Course.visit engine engine.limits.maxDepth) [] outer input entry
      deeds tally) {deed : Deed} (member : deed ∈ deeds) (activation : path ≠ [])
    (below : path <+: deed.path) : engine.Part outer entry path (Deed.below path deeds) := by
  have visits := Course.visit_spreads engine outer entry engine.limits.maxDepth
  have spread : Spread (engine.Part outer entry) [] (fun step => ∃ index, step = .start index)
      deeds := by
    refine Course.wholeGraph_spreads (fun attempted given => Course.attempt_spreads ?_ given) taken
    intro report index name accepted listed deeds result taken
    have first : Spread (engine.Part outer entry) [] (· = .start index) deeds :=
      visits.child (.start accepted listed) rfl taken
    exact first
  have beyond : Path.Beyond [] (fun _ => True) path :=
    (Path.isPrefix_iff.mp path.nil_prefix).resolve_left activation
  exact spread.parts path beyond ⟨deed, member, below⟩

end Engine

end Workflow
