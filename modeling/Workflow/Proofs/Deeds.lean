import Workflow.Run.State

/-! What runs do, as far as others can see it.

A deed is something that a run leaves behind: an event, a call of a delegate, a
payload that the run ended on, an error of the run as a whole, or the record of
a run that is over.  Deeds know the path of what did them, and through it the
run that they belong to.
-/

namespace Workflow

/-- Whether a step leads from a run to one of its activations. -/
def Step.entersRun : Step → Bool
  | .start _ => true
  | _ => false

namespace Path

/-- The path of the run that an activation belongs to. -/
def run (path : Path) : Path :=
  (path.reverse.dropWhile fun step => !step.entersRun).tail.reverse

@[simp] theorem run_start (path : Path) (index : Nat) : run (path ++ [.start index]) = path := by
  simp [run, Step.entersRun]

@[simp] theorem run_follow (path : Path) (index : Nat) (connection : Connection) :
    run (path ++ [.follow index connection]) = run path := by
  simp [run, Step.entersRun]

@[simp] theorem run_body (path : Path) (round index : Nat) (connection : Connection) :
    run (path ++ [.body round index connection]) = run path := by
  simp [run, Step.entersRun]

theorem run_isPrefix (path : Path) : run path <+: path := by
  have suffix : (path.reverse.dropWhile fun step => !step.entersRun).tail <:+ path.reverse :=
    (List.tail_suffix _).trans (List.dropWhile_suffix _)
  simpa [run] using List.reverse_prefix.mpr suffix

theorem run_length_lt {path : Path} (activation : path ≠ []) :
    (run path).length < path.length := by
  have shorter :=
    (List.dropWhile_suffix (l := path.reverse) fun step => !Step.entersRun step).length_le
  have positive := List.length_pos_iff.mpr activation
  simp only [run, List.length_reverse, List.length_tail] at shorter ⊢
  omega

/-- A run that begins at an activation is another than the one that the
activation belongs to. -/
theorem run_ne_of_isPrefix {path inner : Path} (activation : path ≠ [])
    (below : path <+: inner) : inner ≠ run path := by
  intro same
  obtain rfl := same
  have shorter := run_length_lt activation
  have longer := below.length_le
  omega

end Path

def Traced.run (traced : Traced) : Path :=
  match traced.event with
  | .runStarted .. | .runFinished .. => traced.path
  | _ => Path.run traced.path

/-- Whether the status is one that a finished activation leaves. -/
def Status.settled : Status → Bool
  | .success | .error => true
  | .idle | .running | .waiting => false

/-- Whether the record says of a node that its work goes on. -/
def Execution.Unsettled (execution : Execution) (node : String) : Prop :=
  ∃ status, Fields.get? execution.nodeStates node = some status ∧ status.settled = false

/-- The status in which an event leaves the node, if it tells of the end of an activation
of the node or that one was refused. -/
def Event.outcome? (node : String) : Event → Option Status
  | .nodeSucceeded _ other => if other = node then some .success else none
  | .nodeFailed _ other _ => if other = node then some .error else none
  | _ => none

/-- What a run leaves behind. -/
inductive Deed where
  | event (traced : Traced)
  | call (call : Call)
  | ending (path : Path) (node : String) (payload : Json)
  | rejection (path : Path) (message : String)
  | record (finished : Finished)

namespace Deed

def path : Deed → Path
  | .event traced => traced.path
  | .call made => made.path
  | .ending path _ _ => path
  | .rejection path _ => path
  | .record finished => finished.path

def run : Deed → Path
  | .event traced => traced.run
  | .call made => Path.run made.path
  | .ending path _ _ => Path.run path
  | .rejection path _ => path
  | .record finished => finished.path

theorem run_isPrefix (deed : Deed) : deed.run <+: deed.path := by
  cases deed with
  | event traced =>
      obtain ⟨path, event⟩ := traced
      cases event <;>
        first | exact List.prefix_rfl | exact Path.run_isPrefix path
  | call made => exact Path.run_isPrefix made.path
  | ending path => exact Path.run_isPrefix path
  | rejection => exact List.prefix_rfl
  | record => exact List.prefix_rfl

def event? : Deed → Option Traced
  | .event traced => some traced
  | _ => none

def call? : Deed → Option Call
  | .call made => some made
  | _ => none

def finished? : Deed → Option Finished
  | .record finished => some finished
  | _ => none

def started? : Deed → Option String
  | .event ⟨_, .nodeStarted _ node⟩ => some node
  | _ => none

/-- The failure of a node or of the run as a whole. -/
def failure? : Deed → Option (Option String × String)
  | .event ⟨_, .nodeFailed _ node message⟩ => some (some node, message)
  | .rejection _ message => some (none, message)
  | _ => none

def outcome? (node : String) (deed : Deed) : Option Status :=
  deed.event?.bind (·.event.outcome? node)

/-- The node that the run ends on, and its payload. -/
def ending? : Deed → Option (String × Json)
  | .ending _ node payload => some (node, payload)
  | _ => none

def of (run : Path) (deeds : List Deed) : List Deed :=
  deeds.filter fun deed => deed.run = run

@[simp] theorem of_nil (run : Path) : of run [] = [] :=
  rfl

@[simp] theorem of_append (run : Path) (first second : List Deed) :
    of run (first ++ second) = of run first ++ of run second :=
  List.filter_append ..

theorem of_single {run : Path} {deed : Deed} (own : deed.run = run) : of run [deed] = [deed] := by
  simp [of, own]

theorem of_eq_nil {run : Path} {deeds : List Deed} (foreign : ∀ deed ∈ deeds, deed.run ≠ run) :
    of run deeds = [] := by
  simpa [of] using foreign

section Kinds

variable {deeds : List Deed} {deed : Deed} {traced : Traced} {made : Call} {finished : Finished}

@[simp] theorem event?_eq_some_iff : deed.event? = some traced ↔ deed = .event traced := by
  cases deed <;> simp [event?]

@[simp] theorem call?_eq_some_iff : deed.call? = some made ↔ deed = .call made := by
  cases deed <;> simp [call?]

@[simp] theorem finished?_eq_some_iff :
    deed.finished? = some finished ↔ deed = .record finished := by
  cases deed <;> simp [finished?]

theorem mem_event_iff : traced ∈ deeds.filterMap event? ↔ .event traced ∈ deeds := by
  simp

theorem mem_call_iff : made ∈ deeds.filterMap call? ↔ .call made ∈ deeds := by
  simp

theorem mem_finished_iff : finished ∈ deeds.filterMap finished? ↔ .record finished ∈ deeds := by
  simp

end Kinds

end Deed

end Workflow
