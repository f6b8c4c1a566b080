import Workflow.Proofs.Courses
import Workflow.Proofs.Deeds
import Workflow.Run

/-! What the events of runs say.

The events of a run tell the same as its record (`Finished.Told`), and what is
told of one activation is a `Story`: if the activation starts, it also ends, and
all that happens in the run nested in it comes between.  An `Account` says this
of a list of events for all runs and activations of an area of paths; accounts
of different areas mix into one.
-/

namespace Workflow

namespace Event

def started? : Event → Option String
  | .nodeStarted _ node => some node
  | _ => none

def failed? : Event → Option (String × String)
  | .nodeFailed _ node message => some (node, message)
  | _ => none

/-- Whether an event tells of a node, and not of a run as a whole. -/
def ofNode : Event → Bool
  | .runStarted .. | .runFinished .. => false
  | _ => true

end Event

namespace Traced

/-- Events between two that tell of the same path. -/
def bracket (path : Path) (first : Event) (between : List Traced) (last : Event) : List Traced :=
  ⟨path, first⟩ :: between ++ [⟨path, last⟩]

variable {path : Path} {first last : Event} {between : List Traced} {keep : Traced → Bool}

theorem mem_bracket {traced : Traced} :
    traced ∈ bracket path first between last ↔
      traced = ⟨path, first⟩ ∨ traced ∈ between ∨ traced = ⟨path, last⟩ := by
  simp [bracket]

theorem filter_bracket (before : keep ⟨path, first⟩) (after : keep ⟨path, last⟩) :
    (bracket path first between last).filter keep =
      bracket path first (between.filter keep) last := by
  simp [bracket, before, after]

theorem filter_bracket_of_not (before : ¬ keep ⟨path, first⟩) (after : ¬ keep ⟨path, last⟩) :
    (bracket path first between last).filter keep = between.filter keep := by
  simp [bracket, before, after]

/-- Whether an event tells of the activation at a path or of the run that begins
there. -/
def concerns (traced : Traced) (path : Path) : Bool :=
  traced.path = path || traced.run = path

theorem concerns_iff {traced : Traced} :
    traced.concerns path ↔ traced.path = path ∨ traced.run = path := by
  simp [concerns]

end Traced

structure Finished.Told (finished : Finished) (events : List Traced) : Prop where
  bracketed : ∃ graph inner,
    events = Traced.bracket finished.path (.runStarted finished.execution.id graph) inner
      (.runFinished finished.execution.id finished.execution.status) ∧
    ∀ traced ∈ inner, traced.event.ofNode ∧ traced.path ≠ finished.path
  named : ∀ traced ∈ events, traced.event.run = finished.execution.id
  started : events.filterMap (·.event.started?) = finished.execution.executedNodes
  failed : events.filterMap (·.event.failed?) =
    finished.execution.errors.filterMap fun error => error.nodeId.map (·, error.message)
  status : finished.execution.status = .failed ↔ finished.execution.errors ≠ []

/-- The events of a run tell, besides, what came last of each node that its record does not
say to be at work. -/
structure Finished.Recounted (finished : Finished) (events : List Traced) : Prop
    extends finished.Told events where
  states : ∀ node, finished.execution.Unsettled node ∨
    Fields.get? finished.execution.nodeStates node =
      (events.filterMap (·.event.outcome? node)).getLast?

theorem Deed.filterMap_of (run : Path) (deeds : List Deed) :
    (Deed.of run deeds).filterMap Deed.event? =
      (deeds.filterMap Deed.event?).filter fun traced => traced.run = run := by
  rw [Deed.of, List.filterMap_filter, List.filter_filterMap]
  congr 1
  funext deed
  cases deed with
  | event traced => rfl
  | _ => exact ite_self none

theorem Deed.filterMap_started (deeds : List Deed) :
    (deeds.filterMap Deed.event?).filterMap (·.event.started?) = deeds.filterMap Deed.started? := by
  rw [List.filterMap_filterMap]
  congr 1
  funext deed
  rcases deed with ⟨_, event⟩ | _ | _ | _ | _
  · cases event <;> rfl
  all_goals rfl

theorem Deed.filterMap_failed (deeds : List Deed) :
    (deeds.filterMap Deed.event?).filterMap (·.event.failed?) =
      (deeds.filterMap Deed.failure?).filterMap fun (node, message) => node.map (·, message) := by
  rw [List.filterMap_filterMap, List.filterMap_filterMap]
  congr 1
  funext deed
  rcases deed with ⟨_, event⟩ | _ | _ | _ | _
  · cases event <;> rfl
  all_goals rfl

theorem Deed.filterMap_outcome (node : String) (deeds : List Deed) :
    (deeds.filterMap Deed.event?).filterMap (·.event.outcome? node) =
      deeds.filterMap (Deed.outcome? node) := by
  rw [List.filterMap_filterMap]
  rfl

/-- What may be told of the activation at a path and of the run nested in it:
nothing; that it is refused for its depth; or that it starts, what the nested run
does, and that it ends. -/
inductive Story (limit : Nat) (path : Path) : List Traced → Prop where
  | untold : Story limit path []
  | refused {run : Uuid} {node : String} :
      Story limit path [⟨path, .nodeFailed run node (NodeError.depthExceeded limit).message⟩]
  | told {first last : Uuid} {node : String} {nested : List Traced} {ending : Event}
      (inside : ∀ traced ∈ nested, traced.run = path)
      (ends : ending = .nodeSucceeded last node ∨
        ∃ message, ending = .nodeFailed last node message) :
      Story limit path (Traced.bracket path (.nodeStarted first node) nested ending)

/-- Events and records of the runs and activations in an area.  Each record is told
of, each event belongs to the run of a record or to one outside, and `tells` holds
of what is told of each path. -/
structure Account (outside area : Path → Prop) (tells : Path → List Traced → Prop)
    (trace : List Traced) (finished : List Finished) : Prop where
  paths : ∀ traced ∈ trace, area traced.path
  runs : ∀ traced ∈ trace, outside traced.run ∨
    ∃ record ∈ finished, record.path = traced.run ∧ record.execution.id = traced.event.run
  stories : ∀ path, area path → tells path (trace.filter (·.concerns path))
  records : ∀ record ∈ finished, area record.path ∧
    record.Recounted (trace.filter fun traced => traced.run = record.path)

/-- Says nothing of one path. -/
def Elsewhere (path : Path) (tells : Path → List Traced → Prop) (further : Path)
    (told : List Traced) : Prop :=
  further ≠ path → tells further told

namespace Account

variable {outside area other whole : Path → Prop} {tells retells : Path → List Traced → Prop}
  {trace before after : List Traced} {finished earlier later : List Finished}

theorem nothing (blank : ∀ path, area path → tells path []) : Account outside area tells [] [] :=
  ⟨by simp, by simp, by simpa using blank, by simp⟩

theorem area_of_run (account : Account outside area tells trace finished) {traced : Traced}
    (member : traced ∈ trace) : outside traced.run ∨ area traced.run := by
  rcases account.runs traced member with foreign | ⟨record, kept, same, _⟩
  · exact .inl foreign
  · exact .inr (same ▸ (account.records record kept).1)

theorem silent (account : Account outside area tells trace finished) {path : Path}
    (beyond : ¬ area path) (foreign : ¬ outside path) :
    trace.filter (·.concerns path) = [] := by
  rw [List.filter_eq_nil_iff]
  intro traced member concerned
  rcases Traced.concerns_iff.mp concerned with rfl | rfl
  · exact beyond (account.paths traced member)
  · rcases account.area_of_run member with away | within
    · exact foreign away
    · exact beyond within

theorem run_silent (account : Account outside area tells trace finished) {path : Path}
    (beyond : ¬ area path) (foreign : ¬ outside path) :
    (trace.filter fun traced => traced.run = path) = [] := by
  have none := account.silent beyond foreign
  simp only [List.filter_eq_nil_iff, Traced.concerns_iff, decide_eq_true_eq, not_or] at none ⊢
  exact fun traced member => (none traced member).2

/-- An area may be taken wider, and what is told of its paths may be told in
another way. -/
theorem widen (account : Account outside area tells trace finished)
    (inside : ∀ path, area path → whole path) (foreign : ∀ path, outside path → ¬ whole path)
    (retell : ∀ path told, area path → tells path told → retells path told)
    (blank : ∀ path, retells path []) : Account outside whole retells trace finished where
  paths traced member := inside _ (account.paths traced member)
  runs := account.runs
  stories path within := by
    by_cases known : area path
    · exact retell path _ known (account.stories path known)
    · rw [account.silent known fun away => foreign path away within]
      exact blank path
  records record member := ⟨inside _ (account.records record member).1,
    (account.records record member).2⟩

/-- Accounts of areas that have nothing in common mix into one. -/
theorem mix (left : Account outside area tells before earlier)
    (right : Account outside other tells after later)
    (apart : ∀ path, area path → ¬ other path)
    (foreign : ∀ path, outside path → ¬ area path ∧ ¬ other path)
    (traces : Interleaved before after trace) (records : Interleaved earlier later finished) :
    Account outside (fun path => area path ∨ other path) tells trace finished where
  paths traced member := by
    rcases traces.mem_iff.mp member with member | member
    · exact .inl (left.paths traced member)
    · exact .inr (right.paths traced member)
  runs traced member := by
    rcases traces.mem_iff.mp member with member | member
    · rcases left.runs traced member with away | ⟨record, kept, same⟩
      · exact .inl away
      · exact .inr ⟨record, records.mem_iff.mpr (.inl kept), same⟩
    · rcases right.runs traced member with away | ⟨record, kept, same⟩
      · exact .inl away
      · exact .inr ⟨record, records.mem_iff.mpr (.inr kept), same⟩
  stories path within := by
    have told := traces.filter (·.concerns path)
    rcases within with within | within
    · rw [right.silent (apart path within) fun away => (foreign path away).1 within,
        Interleaved.nil_right] at told
      exact told ▸ left.stories path within
    · rw [left.silent (fun inside => apart path inside within)
        fun away => (foreign path away).2 within, Interleaved.nil_left] at told
      exact told ▸ right.stories path within
  records record member := by
    have told := traces.filter fun traced => traced.run = record.path
    rcases records.mem_iff.mp member with kept | kept
    · obtain ⟨within, same⟩ := left.records record kept
      rw [right.run_silent (apart _ within) fun away => (foreign _ away).1 within,
        Interleaved.nil_right] at told
      exact ⟨.inl within, told ▸ same⟩
    · obtain ⟨within, same⟩ := right.records record kept
      rw [left.run_silent (fun inside => apart _ inside within)
        fun away => (foreign _ away).2 within, Interleaved.nil_left] at told
      exact ⟨.inr within, told ▸ same⟩

theorem elsewhere (account : Account outside area tells trace finished) (path : Path) :
    Account outside area (Elsewhere path tells) trace finished :=
  { account with stories := fun further inside _ => account.stories further inside }

/-- An event of a run outside, at a path of the area, bears on the story of that path
alone. -/
theorem tell {path : Path} (account : Account outside area (Elsewhere path tells) (before ++ after)
      finished) {event : Event}
    (own : outside (Traced.run ⟨path, event⟩)) (within : area path)
    (foreign : ∀ path, outside path → ¬ area path) :
    Account outside area (Elsewhere path tells) (before ++ ⟨path, event⟩ :: after) finished := by
  have skipped (keep : Traced → Bool) (dropped : ¬ keep ⟨path, event⟩) :
      (before ++ ⟨path, event⟩ :: after).filter keep = (before ++ after).filter keep := by
    simp [dropped]
  have runs {further : Path} (inside : area further) : Traced.run ⟨path, event⟩ ≠ further :=
    fun same => foreign _ own (same ▸ inside)
  refine ⟨?_, ?_, ?_, ?_⟩
  · intro traced member
    rcases List.mem_cons.mp (List.perm_middle.mem_iff.mp member) with rfl | member
    · exact within
    · exact account.paths traced member
  · intro traced member
    rcases List.mem_cons.mp (List.perm_middle.mem_iff.mp member) with rfl | member
    · exact .inl own
    · exact account.runs traced member
  · intro further inside distinct
    have unconcerned : ¬ Traced.concerns ⟨path, event⟩ further := fun concerned =>
      (Traced.concerns_iff.mp concerned).elim distinct.symm (runs inside)
    rw [skipped (·.concerns further) unconcerned]
    exact account.stories further inside distinct
  · intro record member
    obtain ⟨inside, told⟩ := account.records record member
    rw [skipped _ (by simpa using runs inside)]
    exact ⟨inside, told⟩

theorem settle {path : Path} (account : Account outside area (Elsewhere path tells) trace finished)
    (told : tells path (trace.filter (·.concerns path))) :
    Account outside area tells trace finished where
  paths := account.paths
  runs := account.runs
  stories further inside := by
    by_cases same : further = path
    · exact same ▸ told
    · exact account.stories further inside same
  records := account.records

/-- The account of a whole run, from that of its activations.  What is told of the
path at which it begins is not complete: if the run is nested, an activation has
to end there. -/
theorem close {path : Path} {record : Finished} {first last : Event}
    (account : Account (· = path) area tells trace finished)
    (strict : ∀ further, area further → further ≠ path)
    (begins : Traced.run ⟨path, first⟩ = path) (ends : Traced.run ⟨path, last⟩ = path)
    (same : record.path = path)
    (told : record.Recounted
      (Traced.bracket path first (trace.filter fun traced => traced.run = path) last)) :
    Account outside (fun further => further = path ∨ area further) (Elsewhere path tells)
      (Traced.bracket path first trace last) (finished ++ [record]) := by
  have own : (Traced.bracket path first trace last).filter (fun traced => traced.run = path) =
      Traced.bracket path first (trace.filter fun traced => traced.run = path) last :=
    Traced.filter_bracket (by simpa using begins) (by simpa using ends)
  have cases {traced : Traced} (member : traced ∈ Traced.bracket path first trace last) :
      (traced.path = path ∧ traced.run = path) ∨ traced ∈ trace := by
    rcases Traced.mem_bracket.mp member with rfl | inside | rfl
    · exact .inl ⟨rfl, begins⟩
    · exact .inr inside
    · exact .inl ⟨rfl, ends⟩
  refine ⟨?_, ?_, ?_, ?_⟩
  · intro traced member
    exact (cases member).imp And.left (account.paths traced)
  · intro traced member
    by_cases here : traced.run = path
    · refine .inr ⟨record, by simp, by rw [same, here], ?_⟩
      refine (told.named traced ?_).symm
      rw [← own]
      exact List.mem_filter.mpr ⟨member, by simpa using here⟩
    · have inside := (cases member).resolve_left fun outer => here outer.2
      rcases account.runs traced inside with back | ⟨other, kept, itself⟩
      · exact absurd back here
      · exact .inr ⟨other, by simp [kept], itself⟩
  · intro further either distinct
    rcases either with rfl | inside
    · contradiction
    · have unconcerned (event : Event) (own : Traced.run ⟨path, event⟩ = path) :
          ¬ Traced.concerns ⟨path, event⟩ further := fun concerned =>
        (Traced.concerns_iff.mp concerned).elim distinct.symm
          (fun itself => distinct (itself.symm.trans own))
      rw [Traced.filter_bracket_of_not (unconcerned first begins) (unconcerned last ends)]
      exact account.stories further inside
  · intro other member
    rcases List.mem_append.mp member with kept | kept
    · obtain ⟨inside, tells⟩ := account.records other kept
      have distinct := (strict _ inside).symm
      rw [Traced.filter_bracket_of_not (by simpa [begins] using distinct)
        (by simpa [ends] using distinct)]
      exact ⟨.inr inside, tells⟩
    · obtain rfl := List.mem_singleton.mp kept
      rw [same, own]
      exact ⟨.inl rfl, told⟩

end Account

end Workflow
