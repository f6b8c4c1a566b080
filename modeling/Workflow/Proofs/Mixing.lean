import Workflow.Proofs.Likeness
import Workflow.Proofs.Turns
import Workflow.Run

/-! Kinds of deeds that may be mixed.

If what is mixed from two lists of a kind is of the kind again, then activities that leave
such lists may be put together in any way, one after another or side by side.  So what a
run does around its activations is of a kind if its smallest parts are: `Run.Chores`.
-/

namespace Workflow

/-- A kind of lists that has the empty one, and with two lists all that are mixed from them. -/
structure Mixable {ε : Type} (kind : List ε → Prop) : Prop where
  nil : kind []
  mix : ∀ {left right mixed}, kind left → kind right → Interleaved left right mixed → kind mixed

theorem Mixable.append {ε : Type} {kind : List ε → Prop} (mixable : Mixable kind)
    {first second : List ε} (earlier : kind first) (later : kind second) :
    kind (first ++ second) :=
  mixable.mix earlier later (.append first second)

namespace Courses

variable {ε α β : Type} {kind : List ε → Prop}

/-- The deeds of all courses are of a kind. -/
def Leaves (kind : List ε → Prop) (courses : Courses ε α) : Prop :=
  ∀ deeds result, courses deeds result → kind deeds

namespace Leaves

variable (mixable : Mixable kind)

include mixable

theorem pure (value : α) : Leaves kind (Pure.pure value : Courses ε α) :=
  fun _ _ taken => taken.1 ▸ mixable.nil

theorem bind {first : Courses ε α} {next : α → Courses ε β} (leaves : first.Leaves kind)
    (goesOn : ∀ value, (next value).Leaves kind) : (first >>= next).Leaves kind := by
  intro _ result taken
  obtain ⟨before, after, value, rfl, goes, follows⟩ := taken
  exact mixable.append (leaves before value goes) (goesOn value after result follows)

theorem map (f : α → β) {courses : Courses ε α} (leaves : courses.Leaves kind) :
    (f <$> courses).Leaves kind :=
  bind mixable leaves fun value => pure mixable (f value)

theorem all {courses : List (Courses ε α)} (each : ∀ course ∈ courses, course.Leaves kind) :
    (Courses.all courses).Leaves kind := by
  induction courses with
  | nil => exact pure mixable []
  | cons course rest ih =>
      obtain ⟨first, others⟩ := List.forall_mem_cons.mp each
      intro deeds _ taken
      obtain ⟨own, later, value, values, mixed, here, there, _⟩ := taken
      exact mixable.mix (first own value here) (ih others later values there) mixed

theorem allIdx {element : Type} {course : Nat → element → Courses ε α} (elements : List element)
    (leaves : ∀ index element, (course index element).Leaves kind) :
    (Courses.all (elements.mapIdx course)).Leaves kind := by
  refine all mixable fun one member => ?_
  obtain ⟨index, _, rfl⟩ := List.mem_mapIdx.mp member
  exact leaves _ _

end Leaves

/-- To have deeds of a kind agrees with doing one thing after another. -/
def leaving (mixable : Mixable kind) : Likeness (Courses ε) (Courses ε) where
  like courses _ := courses.Leaves kind
  pure value := Leaves.pure mixable value
  bind leaves goesOn := Leaves.bind mixable leaves goesOn
  map f leaves := Leaves.map mixable f leaves

theorem Leaves.mapM (mixable : Mixable kind) {course : α → Courses ε β} (elements : List α)
    (each : ∀ element ∈ elements, (course element).Leaves kind) :
    Leaves kind (elements.mapM course) := by
  have listed : (leaving mixable).like (elements.mapM course) (elements.mapM course) :=
    (leaving mixable).mapM elements each
  exact listed

end Courses

namespace Activity

variable {σ ε α β : Type} {conduct : Conduct σ ε} {kind : List ε → Prop}

/-- The deeds of an activity are of a kind, whatever happens between its turns. -/
def Leaves (conduct : Conduct σ ε) (kind : List ε → Prop) (activity : Activity σ α) : Prop :=
  activity.Takes conduct fun deeds _ => kind deeds

namespace Leaves

variable (mixable : Mixable kind) {activity : Activity σ α}

include mixable

theorem pure (value : α) : (Pure.pure value : Activity σ α).Leaves conduct kind :=
  (Takes.pure value).mono fun taken => taken.1 ▸ mixable.nil

theorem bind {next : α → Activity σ β} (leaves : activity.Leaves conduct kind)
    (goesOn : ∀ value, (next value).Leaves conduct kind) :
    (activity >>= next).Leaves conduct kind := by
  refine (Takes.bind leaves goesOn).mono fun given => ?_
  obtain ⟨_, _, _, rfl, first, second⟩ := given
  exact mixable.append first second

theorem map (f : α → β) (leaves : activity.Leaves conduct kind) :
    (f <$> activity).Leaves conduct kind :=
  bind mixable leaves fun value => pure mixable (f value)

theorem allIdx {element : Type} {activity : Nat → element → Activity σ α}
    (elements : List element)
    (leaves : ∀ index element, (activity index element).Leaves conduct kind) :
    (Activity.all (elements.mapIdx activity)).Leaves conduct kind := by
  refine (Takes.allIdx elements leaves).mono fun taken => ?_
  exact Courses.Leaves.allIdx mixable elements (fun _ _ _ _ given => given) _ _ taken

end Leaves

/-- To leave deeds of a kind agrees with doing one thing after another. -/
def leaving (conduct : Conduct σ ε) (mixable : Mixable kind) :
    Likeness (Activity σ) (Activity σ) where
  like activity _ := activity.Leaves conduct kind
  pure value := Leaves.pure mixable value
  bind leaves goesOn := Leaves.bind mixable leaves goesOn
  map f leaves := Leaves.map mixable f leaves

theorem Leaves.mapM (mixable : Mixable kind) {activity : α → Activity σ β} (elements : List α)
    (each : ∀ element ∈ elements, (activity element).Leaves conduct kind) :
    Leaves conduct kind (elements.mapM activity) := by
  have listed : (leaving conduct mixable).like (elements.mapM activity)
      (elements.mapM activity) := (leaving conduct mixable).mapM elements each
  exact listed

end Activity

namespace Run

/-- What runs do besides starting and ending activations leaves deeds of a kind. -/
structure Chores {ε : Type} (conduct : Conduct RunState ε) (kind : List ε → Prop) : Prop where
  mixable : Mixable kind
  warn : ∀ node message, (Running.log node .warn message none).Leaves conduct kind
  endOn : ∀ node payload, (Running.endOn node payload).Leaves conduct kind
  noteCall : ∀ call, (Running.noteCall call).Leaves conduct kind
  /-- A graph that does not pass its check is refused. -/
  refuse : ∀ error : GraphError, (do
    Running.log none .error s!"graph validation failed: {error.message}" none
    let now := (← Running.world).instant
    Running.record fun execution =>
      execution.recordError none error.message now : Running Unit).Leaves conduct kind

namespace Chores

variable {ε : Type} {conduct : Conduct RunState ε} {kind : List ε → Prop}
  (chores : Chores conduct kind)

include chores

theorem sleep (millis : Nat) : (Running.sleep millis).Leaves conduct kind := by
  unfold Running.sleep
  split
  · exact Activity.Leaves.pure chores.mixable ()
  · intro state
    exact ⟨[], conduct.nothing state,
      fun later => ⟨[], conduct.nothing later, chores.mixable.nil⟩⟩

theorem branches (graph : Graph) (node : Node) (keys : List String) :
    (branches graph node keys).Leaves conduct kind := by
  induction keys with
  | nil => exact Activity.Leaves.pure chores.mixable []
  | cons key rest ih =>
      unfold Run.branches
      cases node.output? key with
      | none => exact Activity.Leaves.bind chores.mixable (chores.warn _ _) fun _ => ih
      | some port =>
          exact Activity.Leaves.bind chores.mixable ih fun connections =>
            Activity.Leaves.pure chores.mixable _

theorem callDelegate (engine : Engine) (path : Path) (node : Node) (input : Json) :
    (callDelegate engine path node input).Leaves conduct kind := by
  unfold Run.callDelegate
  cases Fields.get? engine.registry node.templateId with
  | none => exact Activity.Leaves.pure chores.mixable _
  | some delegate =>
      refine Activity.Leaves.bind chores.mixable (chores.noteCall _) fun _ => ?_
      exact Activity.Leaves.bind chores.mixable (chores.sleep _) fun _ =>
        Activity.Leaves.pure chores.mixable _

section Visits

variable {visit : Visit}
  (visits : ∀ graph path node input, (visit graph path node input).Leaves conduct kind)

include visits

theorem follow (graph : Graph) (path : Path) (node : Node) (outcome : Outcome) :
    (follow visit graph path node outcome).Leaves conduct kind := by
  refine Activity.Leaves.bind chores.mixable (chores.branches graph node outcome.ports)
    fun connections => ?_
  split
  · exact chores.endOn node.id outcome.payload
  · exact Activity.Leaves.map chores.mixable _ <|
      Activity.Leaves.allIdx chores.mixable connections fun _ _ => visits _ _ _ _

theorem evaluate (maxIterations : Nat) (graph : Graph) (path : Path) (node : Node)
    (input : Json) :
    (Branching.evaluate (surroundings visit graph path node) maxIterations node input).Leaves
      conduct kind := by
  have around : (Activity.leaving conduct chores.mixable).Surrounded
      (surroundings visit graph path node) (surroundings visit graph path node) := by
    refine ⟨fun round key payload => ?_, fun message => chores.warn _ _⟩
    unfold surroundings runBody
    dsimp only
    cases node.output? key with
    | none => exact Activity.Leaves.pure chores.mixable []
    | some port => exact Activity.Leaves.mapM chores.mixable _ fun _ _ => visits _ _ _ _
  exact around.evaluate maxIterations node input

theorem attempt (path : Path) (graph : Graph) (input : Json) (entry : Entry) :
    (attempt visit path graph input entry).Leaves conduct kind := by
  unfold Run.attempt
  cases graph.check with
  | error error => exact chores.refuse error
  | ok report =>
      exact Activity.Leaves.map chores.mixable _ <|
        Activity.Leaves.allIdx chores.mixable _ fun _ _ => visits _ _ _ _

end Visits

end Chores

end Run

end Workflow
