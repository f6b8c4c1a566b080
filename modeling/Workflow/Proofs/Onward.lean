import Mathlib.Data.List.Perm.Subperm
import Workflow.Proofs.Mixing
import Workflow.Proofs.Parts

/-! Where activations lead.

Behind an activation that succeeds another one is attempted along every connection that it
fires; where it fires none, the run ends on it.  So what is told of a run says where the
run ends: on the activations that are told to succeed and that no other is attempted
behind.  `Deed.Leads` says so of all that is done at a path and below it,
`Course.wholeGraph_ends` of a run and the payloads that it gives.
-/

namespace Workflow

/-- The activation that an event tells to start, and its node. -/
def Traced.begun? : Traced → Option (Path × String)
  | ⟨path, .nodeStarted _ node⟩ => some (path, node)
  | _ => none

/-- The activation that an event tells to succeed, and its node. -/
def Traced.succeeded? : Traced → Option (Path × String)
  | ⟨path, .nodeSucceeded _ node⟩ => some (path, node)
  | _ => none

/-- The activation that a path goes on from along the first connection fired there, and
its node. -/
def Path.origin? (path : Path) : Option (Path × String) :=
  match path.getLast? with
  | some (.follow 0 connection) => some (path.dropLast, connection.source.nodeId)
  | _ => none

/-- The activation that an event tells to be followed, and its node: it tells how the
first attempt behind that activation has come out. -/
def Traced.onward? (traced : Traced) : Option (Path × String) :=
  if traced.event.endsNode then Path.origin? traced.path else none

namespace Path

variable (path : Path)

@[simp] theorem origin?_first (connection : Connection) :
    origin? (path ++ [.follow 0 connection]) = some (path, connection.source.nodeId) := by
  simp [origin?]

@[simp] theorem origin?_later (index : Nat) (connection : Connection) :
    origin? (path ++ [.follow (index + 1) connection]) = none := by
  simp [origin?]

@[simp] theorem origin?_body (round index : Nat) (connection : Connection) :
    origin? (path ++ [.body round index connection]) = none := by
  simp [origin?]

@[simp] theorem origin?_start (index : Nat) : origin? (path ++ [.start index]) = none := by
  simp [origin?]

/-- What goes on from an activation belongs to the run that the activation belongs to. -/
theorem run_origin {place : Path × String} (leads : origin? path = some place) :
    Path.run path = Path.run place.1 := by
  rcases List.eq_nil_or_concat' path with rfl | ⟨before, step, rfl⟩
  · contradiction
  · cases step with
    | start | body => simp at leads
    | follow index connection =>
        cases index with
        | zero =>
            rw [origin?_first] at leads
            obtain rfl := Option.some.inj leads
            exact Path.run_follow ..
        | succ index => simp at leads

end Path

namespace Deed

def begun? (deed : Deed) : Option (Path × String) :=
  deed.event?.bind Traced.begun?

def succeeded? (deed : Deed) : Option (Path × String) :=
  deed.event?.bind Traced.succeeded?

def onward? (deed : Deed) : Option (Path × String) :=
  deed.event?.bind Traced.onward?

/-- The activation that a run ends on, and its node. -/
def ended? : Deed → Option (Path × String)
  | .ending path node _ => some (path, node)
  | _ => none

section Event

variable (traced : Traced)

@[simp] theorem begun?_event : (event traced).begun? = traced.begun? :=
  rfl

@[simp] theorem succeeded?_event : (event traced).succeeded? = traced.succeeded? :=
  rfl

@[simp] theorem onward?_event : (event traced).onward? = traced.onward? :=
  rfl

@[simp] theorem ended?_event : (event traced).ended? = none :=
  rfl

end Event

/-- How often deeds show an activation. -/
def shows (show? : Deed → Option (Path × String)) (deeds : List Deed) (place : Path × String) :
    Nat :=
  (deeds.filterMap show?).count place

section Shows

variable {show? : Deed → Option (Path × String)} {place : Path × String}
  {left right mixed deeds : List Deed}

@[simp] theorem shows_nil : shows show? [] place = 0 :=
  rfl

@[simp] theorem shows_cons {deed : Deed} :
    shows show? (deed :: deeds) place =
      (show? deed).toList.count place + shows show? deeds place := by
  cases shown : show? deed with
  | none => simp [shows, shown]
  | some other => simp [shows, shown, List.count_cons, Nat.add_comm]

@[simp] theorem shows_append :
    shows show? (left ++ right) place = shows show? left place + shows show? right place := by
  simp [shows]

theorem shows_mixed (interleaved : Interleaved left right mixed) :
    shows show? mixed place = shows show? left place + shows show? right place := by
  rw [shows, ((interleaved.filterMap show?).perm.count_eq place), List.count_append]
  rfl

theorem shows_eq_zero (silent : ∀ deed ∈ deeds, show? deed = none) :
    shows show? deeds place = 0 := by
  rw [shows, List.filterMap_eq_nil_iff.mpr silent, List.count_nil]

/-- Where deeds show activations of their own runs, a run shows its own activations. -/
theorem filterMap_of_own
    (own : ∀ deed place, show? deed = some place → deed.run = Path.run place.1) (run : Path) :
    (of run deeds).filterMap show? =
      (deeds.filterMap show?).filter fun place => Path.run place.1 = run := by
  rw [of, List.filterMap_filter, List.filter_filterMap]
  refine List.filterMap_congr fun deed _ => ?_
  cases shown : show? deed with
  | none => simp
  | some place => simp [own deed place shown, Option.filter]

end Shows

/-- What is done at a path and below it, where the activations that are listed succeed
elsewhere.  Whatever succeeds has begun, and the run ends on it or goes on from it. -/
structure Leads (path : Path) (elsewhere : List (Path × String)) (deeds : List Deed) : Prop where
  inside : ∀ deed ∈ deeds, path <+: deed.path
  begun : ∀ place, shows succeeded? deeds place ≤ shows begun? deeds place
  onward : ∀ place, shows succeeded? deeds place + elsewhere.count place =
    shows ended? deeds place + shows onward? deeds place

namespace Leads

variable {path further : Path} {elsewhere others : List (Path × String)}
  {left right mixed deeds : List Deed}

theorem mono (leads : Leads further elsewhere deeds) (along : path <+: further) :
    Leads path elsewhere deeds :=
  { leads with inside := fun deed member => along.trans (leads.inside deed member) }

theorem mix (first : Leads path elsewhere left) (second : Leads path others right)
    (interleaved : Interleaved left right mixed) : Leads path (elsewhere ++ others) mixed where
  inside deed member :=
    (interleaved.mem_iff.mp member).elim (first.inside deed) (second.inside deed)
  begun place := by
    rw [shows_mixed interleaved, shows_mixed interleaved]
    exact Nat.add_le_add (first.begun place) (second.begun place)
  onward place := by
    have one := first.onward place
    have other := second.onward place
    simp only [shows_mixed interleaved, List.count_append]
    omega

theorem mixable (path : Path) : Mixable (Leads path []) where
  nil := ⟨nofun, fun _ => Nat.le_refl _, fun _ => rfl⟩
  mix first second interleaved := first.mix second interleaved

/-- What is done at a path that neither ends an activation nor the run on one. -/
theorem quiet (here : ∀ deed ∈ deeds, deed.path = path)
    (silent : ∀ deed ∈ deeds, deed.succeeded? = none ∧ deed.ended? = none ∧ deed.onward? = none) :
    Leads path [] deeds where
  inside deed member := here deed member ▸ List.prefix_rfl
  begun place := by
    rw [shows_eq_zero fun deed member => (silent deed member).1]
    exact Nat.zero_le _
  onward place := by
    rw [shows_eq_zero fun deed member => (silent deed member).1,
      shows_eq_zero fun deed member => (silent deed member).2.1,
      shows_eq_zero fun deed member => (silent deed member).2.2]
    rfl

/-- An activation that is refused leads nowhere. -/
theorem refused (path : Path) {run : Uuid} {node message : String} :
    Leads path (Path.origin? path).toList [.event ⟨path, .nodeFailed run node message⟩] where
  inside deed member := List.mem_singleton.mp member ▸ List.prefix_rfl
  begun place := by simp [Traced.succeeded?]
  onward place := by simp [Traced.succeeded?, Traced.onward?, Event.endsNode]

section Activation

variable {first last : Uuid} {node : String} {work : List Deed} (working : Leads path [] work)

include working

/-- An activation that fails leads nowhere. -/
theorem failed (message : String) :
    Leads path (Path.origin? path).toList
      (.event ⟨path, .nodeStarted first node⟩ :: work ++
        [.event ⟨path, .nodeFailed last node message⟩]) where
  inside := by
    have here (event : Event) : path <+: (Deed.event ⟨path, event⟩).path := List.prefix_rfl
    simpa [here, or_imp, forall_and] using working.inside
  begun place := by
    have before := working.begun place
    simp only [List.cons_append, shows_cons, shows_append, succeeded?_event, begun?_event,
      Traced.succeeded?, Traced.begun?, Option.toList_none, List.count_nil, shows_nil]
    omega
  onward place := by
    have before := working.onward place
    simp only [List.cons_append, shows_cons, shows_append, succeeded?_event, onward?_event,
      ended?_event, Traced.succeeded?, Traced.onward?, Event.endsNode, Option.toList_none,
      List.count_nil, shows_nil, if_true, Bool.false_eq_true, if_false] at before ⊢
    omega

/-- One that succeeds goes on from itself, or the run ends on it. -/
theorem succeeded {followed : List Deed} (follows : Leads path [(path, node)] followed) :
    Leads path (Path.origin? path).toList
      (.event ⟨path, .nodeStarted first node⟩ :: work ++
        .event ⟨path, .nodeSucceeded last node⟩ :: followed) where
  inside := by
    have here (event : Event) : path <+: (Deed.event ⟨path, event⟩).path := List.prefix_rfl
    simpa [here, or_imp, forall_and] using ⟨working.inside, follows.inside⟩
  begun place := by
    have before := working.begun place
    have after := follows.begun place
    simp only [List.cons_append, shows_cons, shows_append, succeeded?_event, begun?_event,
      Traced.succeeded?, Traced.begun?, Option.toList_none, Option.toList_some, List.count_nil]
    omega
  onward place := by
    have before := working.onward place
    have after := follows.onward place
    simp only [List.cons_append, shows_cons, shows_append, succeeded?_event, onward?_event,
      ended?_event, Traced.succeeded?, Traced.onward?, Event.endsNode, Option.toList_none,
      Option.toList_some, List.count_nil, if_true, Bool.false_eq_true, if_false] at before ⊢
    omega

end Activation

end Leads

end Deed

namespace Course

open Deed (Leads)

/-- What visits do leads on from where they are, or the run ends there. -/
def VisitLeads (visit : Visit) : Prop :=
  ∀ graph path name input,
    (visit graph path name input).Leaves (Leads path (Path.origin? path).toList)

section Visits

variable {engine : Engine} {visit : Visit} (visits : VisitLeads visit) {graph : Graph}
  {path : Path} {node : Node} {input : Json} {deeds : List Deed}

include visits

/-- A visit that goes on from no activation that succeeds. -/
theorem VisitLeads.apart {step : Step} (apart : Path.origin? (path ++ [step]) = none)
    (name : String) (input : Json) :
    (visit graph (path ++ [step]) name input).Leaves (Leads path []) := by
  intro deeds result taken
  have leads := visits graph (path ++ [step]) name input deeds result taken
  rw [apart] at leads
  exact leads.mono (List.prefix_append path [step])

/-- What follows an activation goes on from it, or else the run ends on it. -/
theorem follow_leads {outcome : Outcome}
    (taken : follow visit graph path node outcome deeds ()) :
    Leads path [(path, node.id)] deeds := by
  unfold follow at taken
  cases fires : Run.fired graph node outcome.ports with
  | nil =>
      rw [fires] at taken
      obtain rfl := taken
      exact ⟨by simp [Deed.path], by simp [Deed.succeeded?, Deed.event?],
        by simp [Deed.succeeded?, Deed.onward?, Deed.event?, Deed.ended?]⟩
  | cons first rest =>
      rw [fires, List.isEmpty_cons, if_neg Bool.false_ne_true, List.mapIdx_cons] at taken
      obtain ⟨results, taken, _⟩ := (Courses.map_iff ..).mp taken
      obtain ⟨own, others, _, _, mixed, goes, follows, _⟩ := taken
      have leaves : first.source.nodeId = node.id := by
        have listed : first ∈ Run.fired graph node outcome.ports := by simp [fires]
        obtain ⟨_, _, _, _, _, source⟩ := Run.mem_fired.mp listed
        rw [source]
      have here := visits graph _ _ _ own _ goes
      rw [Path.origin?_first, Option.toList_some, leaves] at here
      have later : Leads path [] others :=
        Courses.Leaves.allIdx (Leads.mixable path) rest
          (fun index connection => visits.apart (Path.origin?_later path index connection) _ _)
          others _ follows
      exact (here.mono (List.prefix_append path _)).mix later mixed

theorem runBody_leads (round : Nat) (key : String) (payload : Json) :
    (runBody visit graph path node round key payload).Leaves (Leads path []) := by
  unfold runBody
  cases node.output? key with
  | none => exact .pure (Leads.mixable path) []
  | some port =>
      exact .mapM (Leads.mixable path) _ fun _ _ => visits.apart (Path.origin?_body ..) _ _

theorem attempt_leads (input : Json) (entry : Entry) :
    (attempt visit path graph input entry).Leaves (Leads path []) := by
  unfold attempt
  cases graph.check with
  | error error =>
      intro _ _ taken
      obtain rfl := taken
      exact .quiet (by simp [Deed.path])
        (by simp [Deed.succeeded?, Deed.onward?, Deed.ended?, Deed.event?])
  | ok report =>
      exact .map (Leads.mixable path) _ <|
        .allIdx (Leads.mixable path) _ fun _ _ => visits.apart (Path.origin?_start ..) _ _

/-- Where the graph passes its check, all that is done is done in activations. -/
theorem attempt_beyond {report : Graph.Report} (accepted : graph.check = .ok report)
    {entry : Entry} (taken : attempt visit path graph input entry deeds ()) :
    ∀ deed ∈ deeds, deed.path ≠ path := by
  have beyond : (attempt visit path graph input entry).Only (·.path ≠ path) := by
    unfold attempt
    rw [accepted]
    refine .map _ (.allIdx fun index name _ deeds result goes deed member same => ?_)
    have inside := (visits graph (path ++ [.start index]) name input deeds result goes).inside
    exact Path.not_step_isPrefix path _ (same ▸ inside deed member)
  exact beyond deeds () taken

theorem wholeGraph_leads (input : Json) (entry : Entry) :
    (wholeGraph visit path graph input entry).Leaves (Leads path []) := by
  intro _ tally taken
  obtain ⟨attempted, attempt, _, rfl⟩ := taken
  have between := attempt_leads visits input entry attempted () attempt
  have opens : Leads path [] [.event ⟨path, .runStarted tally.execution.id graph.id⟩] :=
    .quiet (by simp [Deed.path])
      (by simp [Traced.succeeded?, Traced.onward?, Event.endsNode])
  have closes : Leads path []
      [ .event ⟨path, .runFinished tally.execution.id tally.execution.status⟩,
        .record ⟨path, tally.execution⟩] :=
    .quiet (by simp [Deed.path]) (by
      simp [Deed.succeeded?, Deed.onward?, Deed.ended?, Deed.event?, Traced.succeeded?,
        Traced.onward?, Event.endsNode])
  have mixable := Leads.mixable path
  exact mixable.append (mixable.append opens between) closes

theorem perform_leads {result : Except NodeError Outcome}
    (taken : perform engine visit graph path node input deeds result) : Leads path [] deeds := by
  rcases perform_cases taken with ⟨calls, here, rfl⟩ | ⟨_, evaluated, goes⟩ | ⟨_, called⟩
  · refine .quiet (fun deed member => ?_) fun deed member => ?_
    all_goals obtain ⟨call, made, rfl⟩ := List.mem_map.mp member
    · exact here call made
    · exact ⟨rfl, rfl, rfl⟩
  · have surrounded : (Courses.leaving (Leads.mixable path)).Surrounded
        (surroundings visit graph path node) (surroundings visit graph path node) :=
      ⟨runBody_leads visits, fun _ => .pure (Leads.mixable path) ()⟩
    have branching : (Branching.evaluate (surroundings visit graph path node)
        engine.limits.maxWhileIterations node input).Leaves (Leads path []) :=
      surrounded.evaluate _ node input
    exact branching deeds evaluated goes
  · rcases callSubflow_cases called with ⟨_, _, rfl⟩ | ⟨_, _, _, _, whole, _⟩
    · exact (Leads.mixable path).nil
    · exact wholeGraph_leads visits _ _ deeds _ whole

theorem activate_leads {result : Option Json}
    (taken : activate engine visit graph path node input deeds result) :
    Leads path (Path.origin? path).toList deeds := by
  obtain ⟨work, performed, first, last, followed, activation, _⟩ := activation_gives taken
  have working := perform_leads visits activation.works
  rw [activation.deeds]
  cases performed with
  | error error =>
      rw [activation.fails error rfl]
      exact working.failed error.message
  | ok outcome => exact working.succeeded (follow_leads visits (activation.follows outcome rfl))

end Visits

theorem visit_leads (engine : Engine) (left : Nat) : VisitLeads (visit engine left) := by
  have failing (path : Path) (name : String) (error : NodeError) : Courses.Leaves
      (Leads path (Path.origin? path).toList) (do
        fail path name error
        return (none : Option Json)) := by
    intro _ _ taken
    obtain ⟨_, _, _, rfl, ⟨run, rfl⟩, rfl, _⟩ := taken
    exact .refused path
  induction left with
  | zero =>
      intro graph path name input
      unfold visit
      cases graph.node? name with
      | none => exact failing path name _
      | some node => exact failing path name _
  | succ left ih =>
      intro graph path name input
      unfold visit
      cases graph.node? name with
      | none => exact failing path name _
      | some node => exact fun _ _ taken => activate_leads ih taken

end Course

/-- What a trace tells of a run, where its deeds are those of the run. -/
def Deed.told (run : Path) (deeds : List Deed) : List Traced :=
  (deeds.filterMap event?).filter fun traced => traced.run = run

namespace Deed

variable {path : Path} {deeds : List Deed}

theorem filterMap_told (of? : Traced → Option (Path × String)) (run : Path) :
    (told run deeds).filterMap of? =
      (of run deeds).filterMap fun deed => deed.event?.bind of? := by
  rw [told, ← filterMap_of, List.filterMap_filterMap]

/-- What an event shows of its own run, the deed of the event does. -/
theorem run_eq_of_event {of? : Traced → Option (Path × String)}
    (own : ∀ path event place, of? ⟨path, event⟩ = some place →
      Traced.run ⟨path, event⟩ = Path.run place.1)
    (deed : Deed) (place : Path × String) (shown : deed.event?.bind of? = some place) :
    deed.run = Path.run place.1 := by
  obtain ⟨⟨path, event⟩, told, here⟩ := Option.bind_eq_some_iff.mp shown
  obtain rfl := event?_eq_some_iff.mp told
  exact own path event place here

theorem run_of_begun? : ∀ deed place, begun? deed = some place → deed.run = Path.run place.1 :=
  run_eq_of_event fun path event place here => by
    cases event with
    | nodeStarted => exact (Option.some.inj here) ▸ rfl
    | _ => contradiction

theorem run_of_succeeded? :
    ∀ deed place, succeeded? deed = some place → deed.run = Path.run place.1 :=
  run_eq_of_event fun path event place here => by
    cases event with
    | nodeSucceeded => exact (Option.some.inj here) ▸ rfl
    | _ => contradiction

theorem run_of_onward? : ∀ deed place, onward? deed = some place → deed.run = Path.run place.1 :=
  run_eq_of_event fun path event place here => by
    cases event with
    | nodeSucceeded | nodeFailed => exact Path.run_origin path here
    | _ => contradiction

theorem run_of_ended? (deed : Deed) (place : Path × String) (shown : deed.ended? = some place) :
    deed.run = Path.run place.1 := by
  cases deed with
  | ending => exact (Option.some.inj shown) ▸ rfl
  | _ => contradiction

/-- In each run, whatever succeeds has begun, and the run ends on it or goes on from it. -/
theorem Leads.of_run (leads : Leads path [] deeds) (run : Path) :
    ((of run deeds).filterMap succeeded?).Perm
      ((of run deeds).filterMap ended? ++ (of run deeds).filterMap onward?) ∧
    ((of run deeds).filterMap succeeded?).Subperm ((of run deeds).filterMap begun?) := by
  have onward : (deeds.filterMap succeeded?).Perm
      (deeds.filterMap ended? ++ deeds.filterMap onward?) := by
    refine List.perm_iff_count.mpr fun place => ?_
    rw [List.count_append]
    exact leads.onward place
  have begun : (deeds.filterMap succeeded?).Subperm (deeds.filterMap begun?) :=
    List.subperm_ext_iff.mpr fun place _ => leads.begun place
  rw [filterMap_of_own run_of_succeeded?, filterMap_of_own run_of_ended?,
    filterMap_of_own run_of_onward?, filterMap_of_own run_of_begun?, ← List.filter_append]
  exact ⟨onward.filter _, begun.filter _⟩

end Deed

namespace Course

variable {engine : Engine} {left : Nat} {path : Path} {graph : Graph} {input : Json}
  {entry : Entry} {deeds : List Deed} {tally : Tally}
  (taken : wholeGraph (visit engine left) path graph input entry deeds tally)

include taken

/-- What a run gives is what it does, its beginning and its end apart. -/
theorem wholeGraph_tells : tally.terminal = (Deed.of path deeds).filterMap Deed.ending? ∧
    tally.execution.executedNodes = (Deed.of path deeds).filterMap Deed.started? := by
  obtain ⟨attempted, _, tells, rfl⟩ := taken
  rw [tells.terminal, tells.executed]
  simp [Deed.of, Deed.run, Traced.run, List.filterMap_cons, Deed.ending?, Deed.started?]

theorem endings_eq : tally.terminal.map (·.1) =
    ((Deed.of path deeds).filterMap Deed.ended?).map (·.2) := by
  rw [(wholeGraph_tells taken).1, List.map_filterMap, List.map_filterMap]
  refine List.filterMap_congr fun deed _ => ?_
  cases deed <;> rfl

/-- A run ends on the activations that succeed and that it does not go on from. -/
theorem wholeGraph_ends :
    ∃ ends : List (Path × String), tally.terminal.map (·.1) = ends.map (·.2) ∧
      ((Deed.told path deeds).filterMap Traced.succeeded?).Perm
        (ends ++ (Deed.told path deeds).filterMap Traced.onward?) := by
  have leads := wholeGraph_leads (visit_leads engine left) input entry deeds tally taken
  refine ⟨_, endings_eq taken, ?_⟩
  rw [Deed.filterMap_told, Deed.filterMap_told]
  exact (leads.of_run path).1

/-- A run ends on each node at most as often as it activates the node. -/
theorem wholeGraph_activates :
    (tally.terminal.map (·.1)).Subperm tally.execution.executedNodes := by
  have leads := wholeGraph_leads (visit_leads engine left) input entry deeds tally taken
  obtain ⟨onward, begun⟩ := leads.of_run path
  have ended : ((Deed.of path deeds).filterMap Deed.ended?).Subperm
      ((Deed.of path deeds).filterMap Deed.begun?) :=
    ((List.sublist_append_left _ _).subperm.trans onward.symm.subperm).trans begun
  obtain ⟨places, perm, part⟩ := ended
  have named : tally.execution.executedNodes =
      ((Deed.of path deeds).filterMap Deed.begun?).map (·.2) := by
    rw [(wholeGraph_tells taken).2, List.map_filterMap]
    refine List.filterMap_congr fun deed _ => ?_
    rcases deed with ⟨_, event⟩ | _ | _ | _ | _
    · cases event <;> rfl
    all_goals rfl
  rw [endings_eq taken, named]
  exact ⟨places.map (·.2), perm.map _, part.map _⟩

end Course

end Workflow
