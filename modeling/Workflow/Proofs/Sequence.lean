import Workflow.Proofs.Places

/-! In which order things happen.

The rounds of a loop come one after another, and so do the targets of a round: all
that one visit of the body leads to is over before the next begins.  The loop ends
after the last of them, and what follows it comes after its end.
`Traced.Before` says what has to come first, `Engine.loops_in_turn` that it does, in
every run and for all loops at once.
-/

namespace Workflow

/-- Whether all that comes by one step is over before anything comes by the other. -/
def Step.Before : Step → Step → Prop
  | .body round index _, .body later other _ => round < later ∨ round = later ∧ index < other
  | .body .., .follow .. => True
  | _, _ => False

theorem Step.Before.irrefl (step : Step) : ¬ step.Before step := by
  cases step <;> simp [Step.Before]

/-- Whether an event ends the activation that it tells of. -/
def Event.endsNode : Event → Bool
  | .nodeSucceeded .. | .nodeFailed .. => true
  | _ => false

/-- Which of two events has to come first, for the sake of the activation at a path. -/
inductive Traced.Before (path : Path) (first second : Traced) : Prop where
  | steps {step next : Step} (order : step.Before next)
      (below : path ++ [step] <+: first.path) (after : path ++ [next] <+: second.path)
  /-- The activation ends after all visits of its body. -/
  | ending {round index : Nat} {connection : Connection}
      (below : path ++ [.body round index connection] <+: first.path)
      (own : second.path = path) (ends : second.event.endsNode)
  /-- What follows comes after the end. -/
  | onward {index : Nat} {connection : Connection} (own : first.path = path)
      (ends : first.event.endsNode) (after : path ++ [.follow index connection] <+: second.path)

/-- A trace in which nothing comes too late. -/
def InOrder (trace : List Traced) : Prop :=
  trace.Pairwise fun earlier later => ∀ path, ¬ later.Before path earlier

theorem Path.step_unique {path further : Path} {step other : Step}
    (below : path ++ [step] <+: further) (again : path ++ [other] <+: further) : step = other := by
  obtain ⟨rest, rfl⟩ := below
  obtain ⟨more, same⟩ := again
  have cons : other = step ∧ more = rest := by simpa using same
  exact cons.1.symm

theorem Path.not_step_isPrefix (path : Path) (step : Step) : ¬ path ++ [step] <+: path := by
  intro below
  have shorter := below.length_le
  simp only [List.length_append, List.length_singleton] at shorter
  omega

namespace Traced.Before

variable {first second : Traced} {path place : Path}

theorem isPrefix (before : first.Before path second) :
    path <+: first.path ∧ path <+: second.path := by
  cases before with
  | steps _ below after =>
      exact ⟨(List.prefix_append _ _).trans below, (List.prefix_append _ _).trans after⟩
  | ending below own _ =>
      exact ⟨(List.prefix_append _ _).trans below, own ▸ List.prefix_rfl⟩
  | onward own _ after =>
      exact ⟨own ▸ List.prefix_rfl, (List.prefix_append _ _).trans after⟩

/-- The activation lies where the paths of both events part, or below. -/
theorem isPrefix_place (before : first.Before path second) (one : place <+: first.path)
    (other : place <+: second.path) : place <+: path := by
  rcases List.prefix_or_prefix_of_prefix one before.isPrefix.1 with short | long
  · exact short
  obtain ⟨rest, rfl⟩ := long
  cases rest with
  | nil => simp
  | cons step rest =>
      have along : path ++ [step] <+: path ++ step :: rest := ⟨rest, by simp⟩
      cases before with
      | steps order below after =>
          obtain rfl := Path.step_unique below (along.trans one)
          obtain rfl := Path.step_unique after (along.trans other)
          exact absurd order (Step.Before.irrefl _)
      | ending _ own _ => exact absurd (own ▸ along.trans other) (Path.not_step_isPrefix _ _)
      | onward own _ _ => exact absurd (own ▸ along.trans one) (Path.not_step_isPrefix _ _)

/-- Where paths part by different steps, only the steps can ask for an order. -/
theorem of_steps {step next : Step} (before : first.Before path second) (differ : step ≠ next)
    (one : place ++ [step] <+: first.path) (other : place ++ [next] <+: second.path) :
    step.Before next := by
  have above : place <+: path :=
    before.isPrefix_place ((List.prefix_append _ _).trans one)
      ((List.prefix_append _ _).trans other)
  obtain rfl : place = path := by
    rcases List.prefix_or_prefix_of_prefix before.isPrefix.1 one with short | long
    · rcases List.prefix_concat_iff.mp short with rfl | inside
      · exact absurd (Path.step_unique before.isPrefix.2 other) differ
      · exact above.eq_of_length (Nat.le_antisymm above.length_le inside.length_le)
    · exact absurd (Path.step_unique (long.trans before.isPrefix.2) other) differ
  cases before with
  | steps order below after =>
      obtain rfl := Path.step_unique below one
      obtain rfl := Path.step_unique after other
      exact order
  | ending _ own _ => exact absurd (own ▸ other) (Path.not_step_isPrefix _ _)
  | onward own _ _ => exact absurd (own ▸ one) (Path.not_step_isPrefix _ _)

/-- Of the events of an activation itself only its end has to come before anything
below it, and only before what follows. -/
theorem of_own_first (before : first.Before path second) (below : first.path <+: second.path) :
    first.event.endsNode ∧
      ∃ index connection, first.path ++ [.follow index connection] <+: second.path := by
  obtain same : first.path = path :=
    (before.isPrefix_place List.prefix_rfl below).eq_of_length
      (Nat.le_antisymm (before.isPrefix_place List.prefix_rfl below).length_le
        before.isPrefix.1.length_le)
  cases before with
  | steps _ inside _ => exact absurd (same ▸ inside) (Path.not_step_isPrefix _ _)
  | ending inside _ _ => exact absurd (same ▸ inside) (Path.not_step_isPrefix _ _)
  | onward own ends after => exact ⟨ends, _, _, own ▸ after⟩

/-- Of the events of an activation itself only its end has to wait for anything below
it, and only for its body. -/
theorem of_own_second (before : first.Before path second) (below : second.path <+: first.path) :
    second.event.endsNode ∧
      ∃ round index connection, second.path ++ [.body round index connection] <+: first.path := by
  obtain same : second.path = path :=
    (before.isPrefix_place below List.prefix_rfl).eq_of_length
      (Nat.le_antisymm (before.isPrefix_place below List.prefix_rfl).length_le
        before.isPrefix.2.length_le)
  cases before with
  | steps _ _ after => exact absurd (same ▸ after) (Path.not_step_isPrefix _ _)
  | ending inside own ends => exact ⟨ends, _, _, _, own ▸ inside⟩
  | onward _ _ after => exact absurd (same ▸ after) (Path.not_step_isPrefix _ _)

theorem irrefl (traced : Traced) (path : Path) : ¬ traced.Before path traced := by
  intro before
  obtain ⟨_, index, connection, below⟩ := before.of_own_first List.prefix_rfl
  exact Path.not_step_isPrefix _ _ below

end Traced.Before

/-- In a trace in order, what has to come first does. -/
theorem InOrder.precedes {told : List Traced} (inOrder : InOrder told) {i j : Nat}
    {first second : Traced} (one : told[i]? = some first) (other : told[j]? = some second)
    {path : Path} (before : first.Before path second) : i < j := by
  obtain ⟨here, rfl⟩ := List.getElem?_eq_some_iff.mp one
  obtain ⟨there, rfl⟩ := List.getElem?_eq_some_iff.mp other
  rcases Nat.lt_trichotomy i j with less | rfl | more
  · exact less
  · exact absurd before (Traced.Before.irrefl _ path)
  · exact absurd before (List.pairwise_iff_getElem.mp inOrder j i there here more path)

/-- A trace in order, all of which comes by the given steps from a path. -/
structure Ordered (path : Path) (steps : Step → Prop) (trace : List Traced) : Prop where
  beyond : ∀ traced ∈ trace, path.Beyond steps traced.path
  inOrder : InOrder trace

namespace Ordered

variable {path : Path} {steps others : Step → Prop} {before after trace : List Traced}

theorem nothing (path : Path) (steps : Step → Prop) : Ordered path steps [] :=
  ⟨nofun, .nil⟩

theorem mono (ordered : Ordered path steps trace) (included : ∀ step, steps step → others step) :
    Ordered path others trace :=
  ⟨fun traced member => (ordered.beyond traced member).mono included, ordered.inOrder⟩

theorem not_before (first : Ordered path steps before) (second : Ordered path others after)
    (apart : ∀ step, steps step → ∀ next, others next → step ≠ next ∧ ¬ step.Before next)
    {one other : Traced} (here : one ∈ before) (there : other ∈ after) (place : Path) :
    ¬ one.Before place other := by
  intro order
  obtain ⟨step, chosen, below⟩ := first.beyond one here
  obtain ⟨next, taken, beneath⟩ := second.beyond other there
  obtain ⟨differ, free⟩ := apart step chosen next taken
  exact free (order.of_steps differ below beneath)

/-- What comes by steps that nothing has to come before goes on at the end. -/
theorem append (first : Ordered path steps before) (second : Ordered path others after)
    (apart : ∀ step, steps step → ∀ next, others next → next ≠ step ∧ ¬ next.Before step) :
    Ordered path (fun step => steps step ∨ others step) (before ++ after) where
  beyond traced member := by
    rcases List.mem_append.mp member with inside | inside
    · exact (first.beyond traced inside).mono fun _ => .inl
    · exact (second.beyond traced inside).mono fun _ => .inr
  inOrder := by
    refine List.pairwise_append.mpr ⟨first.inOrder, second.inOrder, ?_⟩
    intro earlier here later there place
    exact second.not_before first (fun next taken step chosen => apart step chosen next taken) there
      here place

theorem mix (first : Ordered path steps before) (second : Ordered path others after)
    (mixed : Interleaved before after trace)
    (apart : ∀ step, steps step → ∀ next, others next →
      step ≠ next ∧ ¬ step.Before next ∧ ¬ next.Before step) :
    Ordered path (fun step => steps step ∨ others step) trace where
  beyond traced member := by
    rcases mixed.mem_iff.mp member with inside | inside
    · exact (first.beyond traced inside).mono fun _ => .inl
    · exact (second.beyond traced inside).mono fun _ => .inr
  inOrder := by
    refine mixed.pairwise first.inOrder second.inOrder fun one here other there => ⟨?_, ?_⟩
    · intro place
      refine second.not_before first (fun next taken step chosen => ?_) there here place
      obtain ⟨differ, _, free⟩ := apart step chosen next taken
      exact ⟨differ.symm, free⟩
    · intro place
      refine first.not_before second (fun step chosen next taken => ?_) here there place
      obtain ⟨differ, free, _⟩ := apart step chosen next taken
      exact ⟨differ, free⟩

/-- Side by side, by steps that have no order among them. -/
theorem all {α β : Type} {step : Nat → α → Step}
    (apart : ∀ index other first second, index ≠ other →
      step index first ≠ step other second ∧ ¬ (step index first).Before (step other second))
    {courses : Nat → α → Courses Deed β} {elements : List α}
    (each : ∀ index element deeds result, courses index element deeds result →
      Ordered path (· = step index element) (deeds.filterMap Deed.event?))
    {deeds : List Deed} {results : List β}
    (taken : Courses.all (elements.mapIdx courses) deeds results) :
    Ordered path (fun chosen => ∃ index element, chosen = step index element)
      (deeds.filterMap Deed.event?) := by
  induction elements generalizing step courses deeds results with
  | nil =>
      obtain ⟨rfl, _⟩ := taken
      exact .nothing path _
  | cons element rest ih =>
      rw [List.mapIdx_cons] at taken
      obtain ⟨own, others, _, _, mixed, goes, follows, _⟩ := taken
      have first := each 0 element own _ goes
      have later := ih (fun index other first second differ => apart _ _ _ _ (by omega))
        (fun index => each (index + 1)) follows
      refine (first.mix later (mixed.filterMap _) ?_).mono ?_
      · rintro _ rfl _ ⟨index, other, rfl⟩
        obtain ⟨differ, free⟩ := apart 0 (index + 1) element other (by omega)
        exact ⟨differ, free, (apart (index + 1) 0 other element (by omega)).2⟩
      · rintro _ (rfl | ⟨index, other, rfl⟩)
        · exact ⟨0, element, rfl⟩
        · exact ⟨index + 1, other, rfl⟩

end Ordered

namespace InOrder

variable {path : Path} {event : Event} {trace : List Traced}
  (below : ∀ traced ∈ trace, path <+: traced.path) (quiet : ¬ event.endsNode)

include below quiet

/-- An event that does not end the activation may come before all that is below. -/
theorem cons (inOrder : InOrder trace) : InOrder (⟨path, event⟩ :: trace) :=
  List.pairwise_cons.mpr ⟨fun traced member _ before =>
    quiet (before.of_own_second (below traced member)).1, inOrder⟩

theorem concat (inOrder : InOrder trace) : InOrder (trace ++ [⟨path, event⟩]) := by
  refine List.pairwise_append.mpr ⟨inOrder, List.pairwise_singleton _ _, ?_⟩
  intro traced member last same place before
  obtain rfl := List.mem_singleton.mp same
  exact quiet (before.of_own_first (below traced member)).1

end InOrder

/-- What happens while an activation works: nothing that follows it, and of its own path
nothing that ends it. -/
structure Working (path : Path) (trace : List Traced) : Prop where
  places : ∀ traced ∈ trace, traced.path = path ∧ ¬ traced.event.endsNode ∨
    path.Beyond (fun step => ∀ index connection, step ≠ .follow index connection) traced.path
  inOrder : InOrder trace

namespace Working

variable {path : Path} {trace followed : List Traced}

theorem nothing (path : Path) : Working path [] :=
  ⟨nofun, .nil⟩

theorem isPrefix (working : Working path trace) {traced : Traced} (member : traced ∈ trace) :
    path <+: traced.path := by
  rcases working.places traced member with ⟨own, _⟩ | beyond
  · exact own ▸ List.prefix_rfl
  · exact beyond.isPrefix

/-- An activation starts, works, ends and is followed by others. -/
theorem ends (working : Working path trace)
    (onward : Ordered path (fun step => ∃ index connection, step = .follow index connection)
      followed) {first : Event} (starts : ¬ first.endsNode) (last : Event) :
    (∀ traced ∈ ⟨path, first⟩ :: trace ++ ⟨path, last⟩ :: followed, path <+: traced.path) ∧
      InOrder (⟨path, first⟩ :: trace ++ ⟨path, last⟩ :: followed) := by
  have behind : InOrder (⟨path, last⟩ :: followed) := by
    refine List.pairwise_cons.mpr ⟨fun traced member _ before => ?_, onward.inOrder⟩
    obtain ⟨_, ⟨index, connection, rfl⟩, below⟩ := onward.beyond traced member
    obtain ⟨_, _, _, _, inside⟩ := before.of_own_second ((List.prefix_append _ _).trans below)
    have clash := Path.step_unique below inside
    contradiction
  have whole : InOrder (trace ++ ⟨path, last⟩ :: followed) := by
    refine List.pairwise_append.mpr ⟨working.inOrder, behind, ?_⟩
    intro earlier here later there place before
    rcases List.mem_cons.mp there with rfl | there
    · obtain ⟨_, index, connection, after⟩ := before.of_own_first (working.isPrefix here)
      rcases working.places earlier here with ⟨own, _⟩ | ⟨step, other, inside⟩
      · exact Path.not_step_isPrefix _ _ (own ▸ after)
      · exact other index connection (Path.step_unique inside after)
    · obtain ⟨_, ⟨index, connection, rfl⟩, below⟩ := onward.beyond later there
      rcases working.places earlier here with ⟨rfl, quiet⟩ | ⟨step, other, inside⟩
      · exact quiet (before.of_own_second ((List.prefix_append _ _).trans below)).1
      · exact before.of_steps (other index connection).symm below inside
  have below : ∀ traced ∈ trace ++ ⟨path, last⟩ :: followed, path <+: traced.path := by
    intro traced member
    rcases List.mem_append.mp member with inside | inside
    · exact working.isPrefix inside
    · rcases List.mem_cons.mp inside with rfl | after
      · exact List.prefix_rfl
      · exact (onward.beyond traced after).isPrefix
  refine ⟨fun traced member => ?_, whole.cons below starts⟩
  rcases List.mem_cons.mp member with rfl | inside
  · exact List.prefix_rfl
  · exact below traced inside

end Working

namespace Course

/-- Whether visits keep to their paths and to the order of things. -/
def VisitOrdered (visit : Visit) : Prop :=
  ∀ graph path name input deeds result, visit graph path name input deeds result →
    (∀ traced ∈ deeds.filterMap Deed.event?, path <+: traced.path) ∧
      InOrder (deeds.filterMap Deed.event?)

section Visits

variable {engine : Engine} {visit : Visit} (visits : VisitOrdered visit) {graph : Graph}
  {path : Path} {node : Node} {deeds : List Deed}

include visits

theorem visit_ordered_step {step : Step} {name : String} {input : Json} {result : Option Json}
    (taken : visit graph (path ++ [step]) name input deeds result) :
    Ordered path (· = step) (deeds.filterMap Deed.event?) := by
  obtain ⟨below, inOrder⟩ := visits _ _ _ _ _ _ taken
  exact ⟨fun traced member => ⟨step, rfl, below traced member⟩, inOrder⟩

theorem attempt_ordered {input : Json} {entry : Entry}
    (taken : attempt visit path graph input entry deeds ()) :
    Ordered path (fun step => step.entersRun) (deeds.filterMap Deed.event?) := by
  unfold attempt at taken
  cases checked : graph.check with
  | error error =>
      rw [checked] at taken
      obtain rfl := taken
      exact .nothing path _
  | ok report =>
      rw [checked] at taken
      obtain ⟨results, taken, _⟩ := (Courses.map_iff _ _ _ _).mp taken
      have started : Ordered path (fun chosen => ∃ index, ∃ _ : String, chosen = .start index)
          (deeds.filterMap Deed.event?) := by
        refine .all ?_ ?_ taken
        · exact fun index other _ _ differ => ⟨by simpa using differ, by simp [Step.Before]⟩
        · exact fun index name deeds result taken => visit_ordered_step visits taken
      refine started.mono ?_
      rintro _ ⟨index, _, rfl⟩
      rfl

theorem follow_ordered {outcome : Outcome}
    (taken : follow visit graph path node outcome deeds ()) :
    Ordered path (fun step => ∃ index connection, step = .follow index connection)
      (deeds.filterMap Deed.event?) := by
  unfold follow at taken
  by_cases ended : (Run.fired graph node outcome.ports).isEmpty
  · simp only [ended, if_true] at taken
    obtain rfl := taken
    exact .nothing path _
  · simp only [ended] at taken
    obtain ⟨results, taken, _⟩ := (Courses.map_iff _ _ _ _).mp taken
    refine .all ?_ ?_ taken
    · exact fun index other _ _ differ => ⟨by simp [differ], by simp [Step.Before]⟩
    · exact fun index connection deeds result taken => visit_ordered_step visits taken

/-- The targets of a round, from the one with the given number on. -/
theorem targets_ordered {round first : Nat} {connections : List Connection} {payload : Json}
    {outputs : List (Option Json)}
    (taken : ((connections.zipIdx first).mapM fun (connection, index) =>
      visit graph (path ++ [.body round index connection]) connection.target.nodeId payload :
        Courses Deed (List (Option Json))) deeds outputs) :
    Ordered path (fun step => ∃ index connection, first ≤ index ∧
      step = .body round index connection) (deeds.filterMap Deed.event?) := by
  induction connections generalizing first deeds outputs with
  | nil =>
      obtain ⟨rfl, _⟩ := taken
      exact .nothing path _
  | cons connection rest ih =>
      rw [List.zipIdx_cons, List.mapM_cons] at taken
      obtain ⟨own, _, _, rfl, goes, others, _, _, rfl, follows, rfl, _⟩ := taken
      rw [List.append_nil, List.filterMap_append]
      refine ((visit_ordered_step visits goes).append (ih follows) ?_).mono ?_
      · rintro _ rfl _ ⟨index, other, after, rfl⟩
        refine ⟨fun same => ?_, fun before => ?_⟩
        · have clash := (Step.body.inj same).2.1
          omega
        · simp only [Step.Before] at before
          omega
      · rintro _ (rfl | ⟨index, other, after, rfl⟩)
        · exact ⟨first, connection, Nat.le_refl _, rfl⟩
        · exact ⟨index, other, by omega, rfl⟩

theorem rounds_ordered {round : Nat}
    (rounds : Rounds (runBody visit graph path node) round deeds) :
    Ordered path (fun step => ∃ later index connection, round ≤ later ∧
      step = .body later index connection) (deeds.filterMap Deed.event?) := by
  induction rounds with
  | done => exact .nothing path _
  | @again round key payload deeds rest outputs taken _ ih =>
      have first : Ordered path (fun step => ∃ index connection,
          step = .body round index connection) (deeds.filterMap Deed.event?) := by
        unfold runBody at taken
        cases found : node.output? key with
        | none =>
            rw [found] at taken
            obtain ⟨rfl, _⟩ := taken
            exact .nothing path _
        | some port =>
            rw [found] at taken
            refine (targets_ordered visits taken).mono ?_
            rintro _ ⟨index, connection, _, rfl⟩
            exact ⟨index, connection, rfl⟩
      rw [List.filterMap_append]
      refine (first.append ih ?_).mono ?_
      · rintro _ ⟨index, connection, rfl⟩ _ ⟨later, other, further, after, rfl⟩
        refine ⟨fun same => ?_, fun before => ?_⟩
        · have clash := (Step.body.inj same).1
          omega
        · simp only [Step.Before] at before
          omega
      · rintro _ (⟨index, connection, rfl⟩ | ⟨later, index, connection, after, rfl⟩)
        · exact ⟨round, index, connection, Nat.le_refl _, rfl⟩
        · exact ⟨later, index, connection, by omega, rfl⟩

theorem wholeGraph_ordered {input : Json} {entry : Entry} {tally : Tally}
    (taken : wholeGraph visit path graph input entry deeds tally) :
    Working path (deeds.filterMap Deed.event?) := by
  obtain ⟨attempted, attempt, _, rfl⟩ := taken
  have ordered := attempt_ordered visits attempt
  have below (traced : Traced) (member : traced ∈ attempted.filterMap Deed.event?) :
      path <+: traced.path := (ordered.beyond traced member).isPrefix
  have trace : List.filterMap Deed.event?
      (.event ⟨path, .runStarted tally.execution.id graph.id⟩ :: attempted ++
        [ .event ⟨path, .runFinished tally.execution.id tally.execution.status⟩,
          .record ⟨path, tally.execution⟩]) =
      ⟨path, .runStarted tally.execution.id graph.id⟩ :: (attempted.filterMap Deed.event? ++
        [⟨path, .runFinished tally.execution.id tally.execution.status⟩]) := by
    rw [List.filterMap_append]
    rfl
  rw [trace]
  constructor
  case places =>
    intro traced member
    simp only [List.mem_cons, List.mem_append, List.not_mem_nil, or_false] at member
    rcases member with rfl | inside | rfl
    · exact .inl ⟨rfl, by simp [Event.endsNode]⟩
    · refine .inr ((ordered.beyond traced inside).mono ?_)
      intro _ enters _ _ same
      obtain rfl := same
      contradiction
    · exact .inl ⟨rfl, by simp [Event.endsNode]⟩
  case inOrder =>
    refine (ordered.inOrder.concat below (by simp [Event.endsNode])).cons ?_
      (by simp [Event.endsNode])
    intro traced member
    rcases List.mem_append.mp member with inside | same
    · exact below traced inside
    · exact List.mem_singleton.mp same ▸ List.prefix_rfl

theorem perform_ordered {input : Json} {result : Except NodeError Outcome}
    (taken : perform engine visit graph path node input deeds result) :
    Working path (deeds.filterMap Deed.event?) := by
  rcases perform_cases taken with ⟨calls, _, rfl⟩ | ⟨_, _, evaluated⟩ | ⟨_, called⟩
  · have silent : (calls.map Deed.call).filterMap Deed.event? = [] := by simp [Deed.event?]
    rw [silent]
    exact .nothing path
  · have rounds := Branching.evaluate_rounds (fun _ => Courses.Idle.pure ()) evaluated
    have ordered := rounds_ordered visits rounds
    refine ⟨fun traced member => .inr ((ordered.beyond traced member).mono ?_), ordered.inOrder⟩
    rintro _ ⟨_, _, _, _, rfl⟩ _ _ same
    contradiction
  · unfold callSubflow at called
    cases defined : Run.definitionOf engine graph node with
    | error error =>
        rw [defined] at called
        obtain ⟨rfl, _⟩ := called
        exact .nothing path
    | ok definition =>
        rw [defined] at called
        obtain ⟨_, _, id, rfl, rfl, nested, _, tally, rfl, whole, rfl, _⟩ := called
        rw [List.nil_append, List.append_nil]
        exact wholeGraph_ordered visits whole

theorem activate_ordered {input : Json} {result : Option Json}
    (taken : activate engine visit graph path node input deeds result) :
    (∀ traced ∈ deeds.filterMap Deed.event?, path <+: traced.path) ∧
      InOrder (deeds.filterMap Deed.event?) := by
  obtain ⟨_, _, _, rfl, ⟨first, rfl⟩, work, rest, performed, rfl, works, ends⟩ := taken
  have working := perform_ordered visits works
  have starts : ¬ (Event.nodeStarted first node.id).endsNode := by simp [Event.endsNode]
  cases performed with
  | error error =>
      obtain ⟨_, _, _, rfl, ⟨last, rfl⟩, rfl, _⟩ := ends
      have whole := working.ends (.nothing path _) starts (.nodeFailed last node.id error.message)
      simpa [Deed.event?] using whole
  | ok outcome =>
      obtain ⟨_, _, _, rfl, ⟨last, rfl⟩, followed, _, _, rfl, follows, rfl, _⟩ := ends
      have onward := follow_ordered visits follows
      have whole := working.ends onward starts (.nodeSucceeded last node.id)
      simpa [Deed.event?] using whole

end Visits

theorem visit_ordered (engine : Engine) (left : Nat) : VisitOrdered (Course.visit engine left) := by
  have refused {path : Path} {event : Event} :
      (∀ traced ∈ List.filterMap Deed.event? [.event ⟨path, event⟩], path <+: traced.path) ∧
        InOrder (List.filterMap Deed.event? [.event ⟨path, event⟩]) := by
    refine ⟨fun traced member => ?_, List.pairwise_singleton _ _⟩
    obtain rfl := List.mem_singleton.mp member
    exact List.prefix_rfl
  induction left with
  | zero =>
      intro graph path name input deeds result taken
      obtain ⟨run, message, rfl⟩ := visit_zero taken
      exact refused
  | succ left ih =>
      intro graph path name input deeds result taken
      unfold Course.visit at taken
      cases found : graph.node? name with
      | none =>
          rw [found] at taken
          obtain ⟨_, _, _, rfl, ⟨run, rfl⟩, rfl, _⟩ := taken
          exact refused
      | some node =>
          rw [found] at taken
          exact activate_ordered ih taken

end Course

/-- What is told below a visit of a body is told below a visit that the loop makes, and
of the visit itself only its own node. -/
theorem Engine.Placed.visits {engine : Engine} {outer : Graph} {entry : Entry} {traced : Traced}
    (placed : engine.Placed outer entry (.event traced)) {path : Path} {round index : Nat}
    {connection : Connection} (below : path ++ [.body round index connection] <+: traced.path) :
    engine.Visits outer entry path index connection ∧
      (traced.path = path ++ [.body round index connection] →
        ∀ node, traced.event.node? = some node → node = connection.target.nodeId) := by
  rcases placed.of_event with ⟨root, _⟩ | ⟨_, _, _, reaches, own, _⟩
  · simp [root] at below
  obtain ⟨_, _, _, inside⟩ := reaches.of_isPrefix (by simp) below
  refine ⟨inside.visits.1, fun here node same => ?_⟩
  rw [here] at reaches
  exact (own node same).trans reaches.visits.2

/-- Loops run their bodies in turn, whatever else takes turns with them.  In every run,
the visits of a body come round by round, and within a round target by target: all
that is told below one of them is told before anything below the next, and all of it
before the loop ends; anything that follows the loop is told after its end. -/
theorem Engine.loops_in_turn (engine : Engine) (graph : Graph) (input : Json) (entry : Entry)
    (world : World) :
    ∃ told, (engine.run graph input entry world).1.trace = world.trace ++ told ∧
      (∀ (path : Path) (i j : Nat) (first second : Traced), told[i]? = some first →
        told[j]? = some second → first.Before path second → i < j) ∧
      ∀ traced ∈ told, ∀ (path : Path) (round index : Nat) (connection : Connection),
        path ++ [.body round index connection] <+: traced.path →
          engine.Visits graph entry path index connection ∧
            (traced.path = path ++ [.body round index connection] →
              ∀ node, traced.event.node? = some node → node = connection.target.nodeId) := by
  obtain ⟨deeds, tally, whole, grows, _⟩ := engine.run_takes graph input entry world
  have placed := Engine.run_placed whole
  have working := Course.wholeGraph_ordered (Course.visit_ordered engine _) whole
  refine ⟨_, grows.trace, fun path i j first second one other before => ?_, ?_⟩
  · exact working.inOrder.precedes one other before
  · intro traced member path round index connection below
    exact (placed _ (Deed.mem_event_iff.mp member)).visits below

/-- A trigger with a loop and a node behind it that takes its own time. -/
def looping : Graph :=
  let port (id : String) (direction : Direction) : Port := ⟨id, id, direction, anyType, true⟩
  let node (id template : String) (kind : Kind) (inputs outputs : List Port) : Node :=
    ⟨id, template, kind, id, [], inputs, outputs, .idle, .origin⟩
  { id := .nil
    name := "looping"
    nodes :=
      [ node "start" "manual" .trigger [] [port "out" .output],
        node "each" forTemplate .condition [port "in" .input]
          [port "item" .output, port "complete" .output],
        node "body" "short" .action [port "in" .input] [],
        node "after" "short" .action [port "in" .input] [],
        node "beside" "long" .data [port "in" .input] [] ]
    connections :=
      [ ⟨"first", ⟨"start", "out"⟩, ⟨"each", "in"⟩, anyType⟩,
        ⟨"second", ⟨"start", "out"⟩, ⟨"beside", "in"⟩, anyType⟩,
        ⟨"third", ⟨"each", "item"⟩, ⟨"body", "in"⟩, anyType⟩,
        ⟨"fourth", ⟨"each", "complete"⟩, ⟨"after", "in"⟩, anyType⟩ ] }

def loopingEngine : Engine where
  registry :=
    [ ("short", fun _ input => ⟨10, .returned input⟩),
      ("long", fun _ input => ⟨15, .returned input⟩) ]
  library := []
  limits := ⟨100, 8, 8⟩

/-- The node beside the loop starts before the first round and ends within the second;
the rounds themselves do not mix. -/
theorem run_of_looping_in_turn :
    ∃ told,
      (loopingEngine.run looping (.array [.null, .null]) .triggers (.new ⟨0, 0⟩ ⟨0⟩)).1.trace =
        told ∧
      told.filterMap (fun traced => traced.event.node?.map (·, traced.event.endsNode)) =
        [ ("start", false), ("start", true), ("each", false), ("beside", false),
          ("body", false), ("body", true), ("body", false), ("beside", true), ("body", true),
          ("each", true), ("after", false), ("after", true) ] ∧
      ∀ (path : Path) (i j : Nat) (first second : Traced), told[i]? = some first →
        told[j]? = some second → first.Before path second → i < j := by
  obtain ⟨told, same, inTurn, _⟩ :=
    loopingEngine.loops_in_turn looping (.array [.null, .null]) .triggers (.new ⟨0, 0⟩ ⟨0⟩)
  rw [show (World.new ⟨0, 0⟩ ⟨0⟩).trace = [] from rfl, List.nil_append] at same
  refine ⟨told, same, ?_, inTurn⟩
  rw [← same]
  decide +kernel

end Workflow
