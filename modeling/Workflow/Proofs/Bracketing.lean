import Mathlib.Data.List.Nodup
import Workflow.Proofs.Account
import Workflow.Proofs.Rounds
import Workflow.Proofs.Running
import Workflow.Proofs.WellFormed

/-! Runs tell what they do.

Whatever course an activation takes, there is an account of all that happens at
its path and below.  So each run is told of between its start and its finish,
each activation between its start and its end, and a nested run inside the
activation that it is part of: `Engine.run_is_told`.
-/

namespace Workflow

namespace Path

def Beyond (path : Path) (steps : Step → Prop) (further : Path) : Prop :=
  ∃ step, steps step ∧ path ++ [step] <+: further

variable {path further : Path} {steps others : Step → Prop}

theorem isPrefix_iff : path <+: further ↔ further = path ∨ path.Beyond (fun _ => True) further := by
  constructor
  · intro given
    obtain ⟨rest, rfl⟩ := given
    cases rest with
    | nil => simp
    | cons step rest => exact .inr ⟨step, trivial, rest, by simp⟩
  · intro either
    rcases either with rfl | ⟨step, _, rest, rfl⟩
    · exact List.prefix_rfl
    · exact ⟨step :: rest, by simp⟩

namespace Beyond

theorem mono (beyond : path.Beyond steps further) (included : ∀ step, steps step → others step) :
    path.Beyond others further := by
  obtain ⟨step, chosen, below⟩ := beyond
  exact ⟨step, included step chosen, below⟩

theorem isPrefix (beyond : path.Beyond steps further) : path <+: further :=
  isPrefix_iff.mpr (.inr (beyond.mono fun _ _ => trivial))

theorem ne (beyond : path.Beyond steps further) : further ≠ path := by
  intro same
  obtain rfl := same
  obtain ⟨step, _, below⟩ := beyond
  have shorter := below.length_le
  simp only [List.length_append, List.length_singleton] at shorter
  omega

theorem disjoint (apart : ∀ step, steps step → ¬ others step) (beyond : path.Beyond steps further) :
    ¬ path.Beyond others further := by
  intro given
  obtain ⟨second, chosen, rest, same⟩ := given
  obtain ⟨first, taken, other, rfl⟩ := beyond
  obtain ⟨rfl, _⟩ : second = first ∧ rest = other := by simpa using same
  exact apart second taken chosen

end Beyond

end Path

abbrev Accounted (outside area : Path → Prop) (tells : Path → List Traced → Prop)
    (deeds : List Deed) : Prop :=
  Account outside area tells (deeds.filterMap Deed.event?) (deeds.filterMap Deed.finished?)

/-- An activation that starts and ends completes the account of what happens
between and after. -/
theorem Account.activation {limit : Nat} {path : Path} (activation : path ≠ [])
    {nested next : List Traced} {finished : List Finished} {first last : Uuid} {node : String}
    {ending : Event}
    (account : Account (· = Path.run path) (path <+: ·) (Elsewhere path (Story limit))
      (nested ++ next) finished)
    (inside : ∀ traced ∈ nested, traced.path = path → traced.run = path)
    (quiet : next.filter (·.concerns path) = [])
    (ends : ending = .nodeSucceeded last node ∨ ∃ message, ending = .nodeFailed last node message) :
    Account (· = Path.run path) (path <+: ·) (Story limit)
      (Traced.bracket path (.nodeStarted first node) nested ending ++ next) finished := by
  have foreign (further : Path) (outside : further = Path.run path) : ¬ path <+: further :=
    fun below => Path.run_ne_of_isPrefix activation below outside
  have started : Traced.run ⟨path, .nodeStarted first node⟩ = Path.run path := rfl
  have ended : Traced.run ⟨path, ending⟩ = Path.run path := by
    rcases ends with rfl | ⟨message, rfl⟩ <;> rfl
  have closed : Account (· = Path.run path) (path <+: ·) (Elsewhere path (Story limit))
      ([] ++ (nested ++ ⟨path, ending⟩ :: next)) finished :=
    account.tell ended List.prefix_rfl foreign
  have whole : Account (· = Path.run path) (path <+: ·) (Elsewhere path (Story limit))
      (Traced.bracket path (.nodeStarted first node) nested ending ++ next) finished := by
    simpa [Traced.bracket] using closed.tell started List.prefix_rfl foreign
  have own (event : Event) : Traced.concerns ⟨path, event⟩ path := by simp [Traced.concerns]
  refine whole.settle ?_
  rw [List.filter_append, quiet, List.append_nil, Traced.filter_bracket (own _) (own _)]
  refine .told (fun traced member => ?_) ends
  obtain ⟨member, concerned⟩ := List.mem_filter.mp member
  exact (Traced.concerns_iff.mp concerned).elim (inside traced member) id

theorem Tally.Tells.told {path : Path} {deeds : List Deed} {tally : Tally} (graph : Uuid)
    (tells : Tally.Tells (Deed.of path deeds) tally)
    (inside : ∀ traced ∈ deeds.filterMap Deed.event?, traced.path ≠ path) :
    Finished.Recounted ⟨path, tally.execution⟩
      (Traced.bracket path (.runStarted tally.execution.id graph)
        ((deeds.filterMap Deed.event?).filter fun traced => traced.run = path)
        (.runFinished tally.execution.id tally.execution.status)) where
  bracketed := by
    refine ⟨graph, _, rfl, fun traced member => ?_⟩
    obtain ⟨member, own⟩ := List.mem_filter.mp member
    have elsewhere := inside traced member
    refine ⟨?_, elsewhere⟩
    obtain ⟨place, event⟩ := traced
    cases event with
    | runStarted | runFinished => exact absurd (of_decide_eq_true own) elsewhere
    | nodeStarted | nodeSucceeded | nodeFailed => rfl
  named traced member := by
    rcases Traced.mem_bracket.mp member with rfl | own | rfl
    · rfl
    · rw [← Deed.filterMap_of] at own
      obtain ⟨deed, done, told⟩ := List.mem_filterMap.mp own
      cases deed with
      | event => exact tells.runs traced (Option.some.inj told ▸ done)
      | _ => contradiction
    · rfl
  started := by
    rw [Traced.bracket, List.filterMap_append, ← Deed.filterMap_of]
    exact (List.append_nil _).trans ((Deed.filterMap_started _).trans tells.executed.symm)
  failed := by
    have failures : tally.execution.errors.filterMap (fun error =>
        error.nodeId.map (·, error.message)) =
        tally.execution.failures.filterMap fun failure =>
          failure.1.map (·, failure.2) := by
      rw [Execution.failures, List.filterMap_map]
      rfl
    rw [failures, tells.failures, Traced.bracket, List.filterMap_append, ← Deed.filterMap_of]
    exact (List.append_nil _).trans (Deed.filterMap_failed _)
  status := by
    rw [tells.status]
    cases tally.execution.errors <;> simp
  states node := by
    rw [Traced.bracket, List.filterMap_append, ← Deed.filterMap_of]
    refine (tells.states node).imp_right fun same => same.trans (congrArg _ ?_)
    exact ((List.append_nil _).trans (Deed.filterMap_outcome node _)).symm

/-- Activities side by side that begin with steps of their own. -/
theorem all_accounted {α β : Type} {limit : Nat} {outside : Path → Prop} {path : Path}
    {step : Nat → α → Step}
    (distinct : ∀ index other first second, step index first = step other second → index = other)
    (foreign : ∀ further, outside further → ∀ step, ¬ path ++ [step] <+: further)
    {courses : Nat → α → Courses Deed β} (elements : List α)
    (each : ∀ index, ∀ element ∈ elements, ∀ deeds result, courses index element deeds result →
      Accounted outside (path ++ [step index element] <+: ·) (Story limit) deeds)
    {deeds : List Deed} {results : List β}
    (taken : Courses.all (elements.mapIdx courses) deeds results) :
    Accounted outside (path.Beyond fun chosen => ∃ index element, chosen = step index element)
      (Story limit) deeds := by
  have away {steps : Step → Prop} (further : Path) (out : outside further) :
      ¬ path.Beyond steps further := fun ⟨step, _, below⟩ => foreign further out step below
  induction elements generalizing step courses deeds results with
  | nil =>
      obtain ⟨rfl, _⟩ := taken
      exact .nothing fun _ _ => .untold
  | cons element rest ih =>
      rw [List.mapIdx_cons] at taken
      obtain ⟨left, right, _, _, mixed, goes, follows, _⟩ := taken
      have first := each 0 element (by simp) left _ goes
      have others : Accounted outside
          (path.Beyond fun chosen => ∃ index element, chosen = step (index + 1) element)
          (Story limit) right :=
        ih (fun index other first second same => Nat.succ.inj (distinct _ _ _ _ same))
          (fun index later member => each (index + 1) later (by simp [member])) follows
      have apart : ∀ further, path ++ [step 0 element] <+: further →
          ¬ path.Beyond (fun chosen => ∃ index element, chosen = step (index + 1) element)
            further := by
        intro further below
        have starts : path.Beyond (· = step 0 element) further := ⟨_, rfl, below⟩
        refine starts.disjoint ?_
        intro _ equal given
        obtain rfl := equal
        obtain ⟨index, other, same⟩ := given
        have clash := distinct _ _ _ _ same
        omega
      refine (first.mix others apart (fun further out => ⟨foreign further out _, away further out⟩)
        (mixed.filterMap _) (mixed.filterMap _)).widen ?_ away (fun _ _ _ told => told)
        fun _ => .untold
      intro further either
      rcases either with below | beyond
      · exact ⟨_, ⟨0, element, rfl⟩, below⟩
      · exact beyond.mono fun _ ⟨index, other, same⟩ => ⟨index + 1, other, same⟩

/-- What can be said while an activation works: nothing happens downstream of it, and
what is told of its own path belongs to the run nested in it. -/
structure AtWork (limit : Nat) (path : Path) (deeds : List Deed) : Prop where
  account : Accounted (· = Path.run path)
    (fun further => further = path ∨
      path.Beyond (fun step => ∀ index connection, step ≠ .follow index connection) further)
    (Elsewhere path (Story limit)) deeds
  own : ∀ traced ∈ deeds.filterMap Deed.event?, traced.path = path → traced.run = path

theorem AtWork.quiet {limit : Nat} {path : Path} {deeds : List Deed}
    (events : deeds.filterMap Deed.event? = []) (records : deeds.filterMap Deed.finished? = []) :
    AtWork limit path deeds := by
  refine ⟨?_, by simp [events]⟩
  unfold Accounted
  rw [events, records]
  exact .nothing fun _ _ _ => .untold

theorem atWork_foreign {path : Path} (activation : path ≠ []) {steps : Step → Prop}
    (further : Path) (outside : further = Path.run path) :
    ¬ (further = path ∨ path.Beyond steps further) := by
  intro either
  rcases either with here | beyond
  · exact Path.run_ne_of_isPrefix activation (here ▸ List.prefix_rfl) outside
  · exact Path.run_ne_of_isPrefix activation beyond.isPrefix outside

/-- An activation that starts, works, ends and is followed by others. -/
theorem AtWork.ends {limit : Nat} {path : Path} {work followed : List Deed}
    (atWork : AtWork limit path work) (activation : path ≠ []) {first last : Uuid}
    {node : String} {ending : Event}
    (follow : Accounted (· = Path.run path)
      (path.Beyond fun step => ∃ index connection, step = .follow index connection) (Story limit)
      followed)
    (ends : ending = .nodeSucceeded last node ∨ ∃ message, ending = .nodeFailed last node message) :
    Accounted (· = Path.run path) (path <+: ·) (Story limit)
      (.event ⟨path, .nodeStarted first node⟩ :: work ++ .event ⟨path, ending⟩ :: followed) := by
  have foreign (further : Path) (outside : further = Path.run path) : ¬ path <+: further :=
    fun below => Path.run_ne_of_isPrefix activation below outside
  have away {steps : Step → Prop} (further : Path) (outside : further = Path.run path) :
      ¬ path.Beyond steps further := fun beyond => foreign further outside beyond.isPrefix
  have trace : List.filterMap Deed.event?
      (.event ⟨path, .nodeStarted first node⟩ :: work ++ .event ⟨path, ending⟩ :: followed) =
      Traced.bracket path (.nodeStarted first node) (work.filterMap Deed.event?) ending ++
        followed.filterMap Deed.event? := by
    rw [List.filterMap_append]
    simp [Traced.bracket, Deed.event?]
  have finished : List.filterMap Deed.finished?
      (.event ⟨path, .nodeStarted first node⟩ :: work ++ .event ⟨path, ending⟩ :: followed) =
      work.filterMap Deed.finished? ++ followed.filterMap Deed.finished? := by
    rw [List.filterMap_append]
    rfl
  unfold Accounted
  rw [trace, finished]
  refine Account.activation activation ?_ atWork.own
    (follow.silent (fun beyond => beyond.ne rfl) fun here => foreign path here List.prefix_rfl) ends
  refine (atWork.account.mix (follow.elsewhere path) ?_ (fun further outside =>
    ⟨atWork_foreign activation further outside, away further outside⟩) (.append _ _)
    (.append _ _)).widen ?_ foreign (fun _ _ _ told => told) fun _ _ => .untold
  · intro further either again
    rcases either with rfl | beyond
    · exact again.ne rfl
    · refine beyond.disjoint ?_ again
      intro step apart given
      obtain ⟨index, connection, same⟩ := given
      exact apart index connection same
  · intro further either
    rcases either with (rfl | beyond) | beyond
    · exact List.prefix_rfl
    · exact beyond.isPrefix
    · exact beyond.isPrefix

theorem Graph.node?_isSome_of_mem_starts {graph : Graph} {entry : Entry} {name : String}
    (member : name ∈ entry.starts graph ⟨graph.triggers, graph.hasCycle⟩) :
    (graph.node? name).isSome := by
  unfold Entry.starts at member
  split at member
  · exact node?_isSome_of_mem_triggers member
  · split at member
    · exact node?_isSome_of_mem_roots member
    · exact node?_isSome_of_mem_triggers member

theorem Account.refused {limit : Nat} {path : Path} (activation : path ≠ []) {run : Uuid}
    {node : String} :
    Account (· = Path.run path) (path <+: ·) (Story limit)
      [⟨path, .nodeFailed run node (NodeError.depthExceeded limit).message⟩] [] := by
  have foreign (further : Path) (outside : further = Path.run path) : ¬ path <+: further :=
    fun below => Path.run_ne_of_isPrefix activation below outside
  have nothing : Account (· = Path.run path) (path <+: ·) (Elsewhere path (Story limit))
      ([] ++ []) [] := .nothing fun _ _ _ => .untold
  refine (nothing.tell rfl List.prefix_rfl foreign).settle ?_
  have own (event : Event) : Traced.concerns ⟨path, event⟩ path := by simp [Traced.concerns]
  simpa [own] using Story.refused

def VisitAccounted (limit : Nat) (visit : Course.Visit) : Prop :=
  ∀ graph, graph.WellFormed → ∀ path name input deeds result, path ≠ [] →
    (graph.node? name).isSome → visit graph path name input deeds result →
      Accounted (· = Path.run path) (path <+: ·) (Story limit) deeds

section Visits

variable {limit : Nat} {visit : Course.Visit} (visits : VisitAccounted limit visit)
  {graph : Graph} {path : Path} {node : Node} {deeds : List Deed}

include visits

theorem attempt_accounted {input : Json} {entry : Entry}
    (taken : Course.attempt visit path graph input entry deeds ()) :
    Accounted (· = path) (path.Beyond fun step => step.entersRun) (Story limit) deeds := by
  unfold Course.attempt at taken
  cases checked : graph.check with
  | error error =>
      rw [checked] at taken
      obtain rfl := taken
      exact .nothing fun _ _ => .untold
  | ok report =>
      rw [checked] at taken
      obtain ⟨wellFormed, rfl⟩ := Graph.check_eq_ok_iff.mp checked
      obtain ⟨results, taken, _⟩ := (Courses.map_iff _ _ _ _).mp taken
      have away {steps : Step → Prop} (further : Path) (here : further = path) :
          ¬ path.Beyond steps further := fun beyond => beyond.ne here
      have account : Accounted (· = path)
          (path.Beyond fun step => ∃ index, ∃ _ : String, step = .start index) (Story limit)
          deeds := by
        refine all_accounted (fun _ _ _ _ same => Step.start.inj same) ?_ _ ?_ taken
        · intro further here step below
          have beyond : path.Beyond (fun _ => True) further := ⟨step, trivial, below⟩
          exact away further here beyond
        · intro index name member deeds result taken
          have known := Graph.node?_isSome_of_mem_starts member
          have started := visits graph wellFormed _ _ _ _ _ (by simp) known taken
          rwa [Path.run_start] at started
      refine account.widen (fun further beyond => beyond.mono ?_) away (fun _ _ _ told => told)
        fun _ => .untold
      intro _ given
      obtain ⟨index, _, rfl⟩ := given
      rfl

theorem wholeGraph_accounted {outside : Path → Prop} {input : Json} {entry : Entry} {tally : Tally}
    (taken : Course.wholeGraph visit path graph input entry deeds tally) :
    Accounted outside
      (fun further => further = path ∨ path.Beyond (fun step => step.entersRun) further)
      (Elsewhere path (Story limit)) deeds ∧
    ∀ traced ∈ deeds.filterMap Deed.event?, traced.path = path → traced.run = path := by
  obtain ⟨attempted, attempt, tells, rfl⟩ := taken
  have account := attempt_accounted visits attempt
  have inside : ∀ traced ∈ attempted.filterMap Deed.event?, traced.path ≠ path :=
    fun traced member => (account.paths traced member).ne
  have trace : List.filterMap Deed.event?
      (.event ⟨path, .runStarted tally.execution.id graph.id⟩ :: attempted ++
        [ .event ⟨path, .runFinished tally.execution.id tally.execution.status⟩,
          .record ⟨path, tally.execution⟩]) =
      Traced.bracket path (.runStarted tally.execution.id graph.id)
        (attempted.filterMap Deed.event?)
        (.runFinished tally.execution.id tally.execution.status) := by
    rw [List.filterMap_append]
    rfl
  have finished : List.filterMap Deed.finished?
      (.event ⟨path, .runStarted tally.execution.id graph.id⟩ :: attempted ++
        [ .event ⟨path, .runFinished tally.execution.id tally.execution.status⟩,
          .record ⟨path, tally.execution⟩]) =
      attempted.filterMap Deed.finished? ++ [⟨path, tally.execution⟩] := by
    rw [List.filterMap_append]
    rfl
  unfold Accounted
  rw [trace, finished]
  refine ⟨account.close (fun _ beyond => beyond.ne) rfl rfl rfl (tells.told graph.id inside), ?_⟩
  intro traced member here
  rcases Traced.mem_bracket.mp member with rfl | member | rfl
  · rfl
  · exact absurd here (inside traced member)
  · rfl

theorem callSubflow_atWork {engine : Engine} (activation : path ≠ []) {input : Json}
    {result : Except NodeError Outcome}
    (taken : Course.callSubflow engine visit graph path node input deeds result) :
    AtWork limit path deeds := by
  rcases Course.callSubflow_cases taken with ⟨_, _, rfl⟩ | ⟨_, _, _, _, whole, _⟩
  · exact .quiet rfl rfl
  · obtain ⟨account, own⟩ := wholeGraph_accounted visits whole
    refine ⟨account.widen ?_ (atWork_foreign activation) (fun _ _ _ told => told)
      fun _ _ => .untold, own⟩
    intro further either
    rcases either with rfl | beyond
    · exact .inl rfl
    · refine .inr (beyond.mono ?_)
      intro _ enters _ _ same
      obtain rfl := same
      contradiction

variable (wellFormed : graph.WellFormed)

include wellFormed

theorem onward_accounted (activation : path ≠ []) {step : Nat → Connection → Step}
    (distinct : ∀ index other first second, step index first = step other second → index = other)
    (same : ∀ index connection, Path.run (path ++ [step index connection]) = Path.run path)
    {connections : List Connection} (known : connections ⊆ graph.connections) {payload : Json}
    {results : List (Option Json)}
    (taken : Courses.all (connections.mapIdx fun index connection =>
      visit graph (path ++ [step index connection]) connection.target.nodeId payload)
      deeds results) :
    Accounted (· = Path.run path)
      (path.Beyond fun chosen => ∃ index connection, chosen = step index connection)
      (Story limit) deeds := by
  refine all_accounted distinct ?_ connections ?_ taken
  · intro _ same chosen below
    obtain rfl := same
    exact Path.run_ne_of_isPrefix activation ((List.prefix_append _ _).trans below) rfl
  · intro index connection member deeds result taken
    have reached := wellFormed.reaches connection (known member)
    have account := visits graph wellFormed _ _ _ _ _ (by simp) reached taken
    rwa [same] at account

theorem follow_accounted (activation : path ≠ []) {outcome : Outcome}
    (taken : Course.follow visit graph path node outcome deeds ()) :
    Accounted (· = Path.run path)
      (path.Beyond fun step => ∃ index connection, step = .follow index connection)
      (Story limit) deeds := by
  unfold Course.follow at taken
  by_cases ended : (Run.fired graph node outcome.ports).isEmpty
  · simp only [ended, if_true] at taken
    obtain rfl := taken
    exact .nothing fun _ _ => .untold
  · simp only [ended] at taken
    obtain ⟨results, taken, _⟩ := (Courses.map_iff _ _ _ _).mp taken
    exact onward_accounted visits wellFormed activation
      (fun _ _ _ _ same => (Step.follow.inj same).1)
      (fun _ _ => Path.run_follow ..) (Run.fired_subset ..) taken

theorem runBody_accounted (activation : path ≠ []) {round : Nat} {key : String} {payload : Json}
    {outputs : List (Option Json)}
    (taken : Course.runBody visit graph path node round key payload deeds outputs) :
    Accounted (· = Path.run path)
      (path.Beyond fun step => ∃ index connection, step = .body round index connection)
      (Story limit) deeds := by
  unfold Course.runBody at taken
  cases found : node.output? key with
  | none =>
      rw [found] at taken
      obtain ⟨rfl, _⟩ := taken
      exact .nothing fun _ _ => .untold
  | some port =>
      rw [found] at taken
      have beside : Courses.all ((graph.outgoing ⟨node.id, port.id⟩).mapIdx fun index connection =>
          visit graph (path ++ [.body round index connection]) connection.target.nodeId payload)
          deeds outputs := by
        rw [List.mapIdx_eq_zipIdx_map]
        exact Courses.all_of_mapM taken
      exact onward_accounted visits wellFormed activation
        (fun _ _ _ _ same => (Step.body.inj same).2.1)
        (fun _ _ => Path.run_body ..) List.filter_sublist.subset beside

theorem rounds_accounted (activation : path ≠ []) {round : Nat}
    (rounds : Rounds (Course.runBody visit graph path node) round deeds) :
    Accounted (· = Path.run path)
      (path.Beyond fun step => ∃ later index connection,
        round ≤ later ∧ step = .body later index connection) (Story limit) deeds := by
  have away {steps : Step → Prop} (further : Path) (out : further = Path.run path) :
      ¬ path.Beyond steps further :=
    fun beyond => Path.run_ne_of_isPrefix activation beyond.isPrefix out
  induction rounds with
  | done => exact .nothing fun _ _ => .untold
  | @again round key payload deeds rest outputs taken _ ih =>
      have first := runBody_accounted visits wellFormed activation taken
      have apart (further : Path) : path.Beyond (fun step =>
          ∃ index connection, step = .body round index connection) further →
          ¬ path.Beyond (fun step => ∃ later index connection,
            round + 1 ≤ later ∧ step = .body later index connection) further := by
        refine Path.Beyond.disjoint ?_
        intro _ given other
        obtain ⟨index, connection, rfl⟩ := given
        obtain ⟨later, _, _, after, same⟩ := other
        have clash := (Step.body.inj same).1
        omega
      unfold Accounted
      rw [List.filterMap_append, List.filterMap_append]
      refine (first.mix ih apart (fun further out => ⟨away further out, away further out⟩)
        (.append _ _) (.append _ _)).widen ?_ away (fun _ _ _ told => told) fun _ => .untold
      intro further either
      rcases either with beyond | beyond
      · exact beyond.mono fun _ ⟨index, connection, same⟩ =>
          ⟨round, index, connection, Nat.le_refl _, same⟩
      · exact beyond.mono fun _ ⟨later, index, connection, after, same⟩ =>
          ⟨later, index, connection, by omega, same⟩

theorem perform_atWork {engine : Engine} (activation : path ≠ []) {input : Json}
    {result : Except NodeError Outcome}
    (taken : Course.perform engine visit graph path node input deeds result) :
    AtWork limit path deeds := by
  rcases Course.perform_cases taken with ⟨calls, _, rfl⟩ | ⟨_, _, evaluated⟩ | ⟨_, called⟩
  · exact .quiet (by simp [Deed.event?]) (by simp [Deed.finished?])
  · have rounds := Branching.evaluate_rounds (fun _ => Courses.Idle.pure ()) evaluated
    have account := rounds_accounted visits wellFormed activation rounds
    refine ⟨(account.elsewhere path).widen ?_ (atWork_foreign activation) (fun _ _ _ told => told)
      fun _ _ => .untold, fun traced member here => absurd here (account.paths traced member).ne⟩
    intro further beyond
    refine .inr (beyond.mono ?_)
    intro _ given _ _ same
    obtain ⟨_, _, _, _, rfl⟩ := given
    contradiction
  · exact callSubflow_atWork visits activation called

theorem activate_accounted {engine : Engine} (activation : path ≠ []) {input : Json}
    {result : Option Json}
    (taken : Course.activate engine visit graph path node input deeds result) :
    Accounted (· = Path.run path) (path <+: ·) (Story limit) deeds := by
  obtain ⟨_, _, _, rfl, ⟨first, rfl⟩, work, rest, performed, rfl, works, ends⟩ := taken
  have atWork := perform_atWork visits wellFormed activation works
  cases performed with
  | error error =>
      obtain ⟨_, _, _, rfl, ⟨last, rfl⟩, rfl, _⟩ := ends
      have nothing : Accounted (· = Path.run path)
          (path.Beyond fun step => ∃ index connection, step = .follow index connection)
          (Story limit) [] := .nothing fun _ _ => .untold
      exact atWork.ends activation nothing (.inr ⟨error.message, rfl⟩)
  | ok outcome =>
      obtain ⟨_, _, _, rfl, ⟨last, rfl⟩, followed, _, _, rfl, follows, rfl, _⟩ := ends
      rw [List.append_nil]
      exact atWork.ends activation (follow_accounted visits wellFormed activation follows)
        (.inl rfl)

end Visits

theorem visit_accounted (engine : Engine) (left : Nat) :
    VisitAccounted engine.limits.maxDepth (Course.visit engine left) := by
  induction left with
  | zero =>
      intro graph wellFormed path name input deeds result activation known taken
      obtain ⟨node, found⟩ := Option.isSome_iff_exists.mp known
      unfold Course.visit at taken
      rw [found] at taken
      obtain ⟨_, _, _, rfl, ⟨id, rfl⟩, rfl, _⟩ := taken
      exact .refused activation
  | succ left ih =>
      intro graph wellFormed path name input deeds result activation known taken
      obtain ⟨node, found⟩ := Option.isSome_iff_exists.mp known
      unfold Course.visit at taken
      rw [found] at taken
      exact activate_accounted ih wellFormed activation taken

/-- The story of a path at which a run begins has that run in its midst. -/
theorem Story.around {limit : Nat} {path : Path} (activation : path ≠ []) {trace : List Traced}
    (story : Story limit path (trace.filter (·.concerns path))) {traced : Traced}
    (member : traced ∈ trace) (own : traced.run = path) :
    ∃ first last node ending,
      trace.filter (·.concerns path) = Traced.bracket path (.nodeStarted first node)
        (trace.filter fun traced => traced.run = path) ending ∧
      (ending = .nodeSucceeded last node ∨ ∃ message, ending = .nodeFailed last node message) := by
  have other : Path.run path ≠ path :=
    (Path.run_ne_of_isPrefix activation List.prefix_rfl).symm
  have same : (trace.filter (·.concerns path)).filter (fun traced => traced.run = path) =
      trace.filter fun traced => traced.run = path := by
    rw [List.filter_filter]
    refine List.filter_congr fun traced _ => ?_
    by_cases here : traced.run = path <;> simp [Traced.concerns, here]
  have inside : traced ∈ (trace.filter (·.concerns path)).filter
      fun traced => traced.run = path := by
    rw [same]
    exact List.mem_filter.mpr ⟨member, by simpa using own⟩
  rw [← same]
  generalize trace.filter (·.concerns path) = told at story inside
  cases story with
  | untold => simp at inside
  | refused =>
      obtain ⟨alone, here⟩ := List.mem_filter.mp inside
      obtain rfl := List.mem_singleton.mp alone
      exact absurd (of_decide_eq_true here) other
  | @told first last node nested ending within ends =>
      refine ⟨first, last, node, ending, ?_, ends⟩
      have ended : Traced.run ⟨path, ending⟩ = Path.run path := by
        rcases ends with rfl | ⟨message, rfl⟩ <;> rfl
      have started : Traced.run ⟨path, .nodeStarted first node⟩ = Path.run path := rfl
      rw [Traced.filter_bracket_of_not (by simpa [started] using other)
        (by simpa [ended] using other)]
      rw [List.filter_eq_self.mpr fun traced member => by simpa using within traced member]

/-- Events and records of a run and of the runs nested in it agree and are well
bracketed. -/
structure Bracketed (limit : Nat) (trace : List Traced) (finished : List Finished) : Prop where
  told : ∀ record ∈ finished, record.Told (trace.filter fun traced => traced.run = record.path)
  /-- There is a record of every run that is told of. -/
  kept : ∀ traced ∈ trace, ∃ record ∈ finished,
    record.path = traced.run ∧ record.execution.id = traced.event.run
  stories : ∀ path, path ≠ [] → Story limit path (trace.filter (·.concerns path))
  /-- A nested run lies within the activation that it is part of. -/
  nested : ∀ record ∈ finished, record.path ≠ [] → ∃ first last node ending,
    trace.filter (·.concerns record.path) =
      Traced.bracket record.path (.nodeStarted first node)
        (trace.filter fun traced => traced.run = record.path) ending ∧
    (ending = .nodeSucceeded last node ∨ ∃ message, ending = .nodeFailed last node message)
  /-- Where identifiers do not repeat, they tell which run an event belongs to. -/
  named : (finished.map (·.execution.id)).Nodup → ∀ record ∈ finished, ∀ traced ∈ trace,
    traced.event.run = record.execution.id ↔ traced.run = record.path

theorem Account.isBracketed {limit : Nat} {area : Path → Prop} {trace : List Traced}
    {finished : List Finished}
    (account : Account (fun _ => False) area (Elsewhere [] (Story limit)) trace finished) :
    Bracketed limit trace finished := by
  have told : ∀ record ∈ finished,
      record.Told (trace.filter fun traced => traced.run = record.path) :=
    fun record member => (account.records record member).2.toTold
  have kept : ∀ traced ∈ trace, ∃ record ∈ finished,
      record.path = traced.run ∧ record.execution.id = traced.event.run :=
    fun traced member => (account.runs traced member).resolve_left id
  have stories : ∀ path, path ≠ [] → Story limit path (trace.filter (·.concerns path)) := by
    intro path activation
    by_cases inside : area path
    · exact account.stories path inside activation
    · rw [account.silent inside id]
      exact .untold
  refine ⟨told, kept, stories, ?_, ?_⟩
  · intro record member activation
    obtain ⟨graph, inner, events, _⟩ := (told record member).bracketed
    have begins : (⟨record.path, .runStarted record.execution.id graph⟩ : Traced) ∈
        trace.filter fun traced => traced.run = record.path := by
      rw [events]
      exact Traced.mem_bracket.mpr (.inl rfl)
    exact (stories record.path activation).around activation (List.mem_filter.mp begins).1 rfl
  · intro distinct record member traced inside
    constructor
    · intro same
      obtain ⟨other, present, here, itself⟩ := kept traced inside
      obtain rfl : other = record :=
        List.inj_on_of_nodup_map distinct present member (itself.trans same)
      exact here.symm
    · intro here
      exact (told record member).named traced (List.mem_filter.mpr ⟨inside, by simpa using here⟩)

/-- The events of every run, and of the runs nested in it, agree with the records and
are well bracketed. -/
theorem Engine.run_is_told (engine : Engine) (graph : Graph) (input : Json) (entry : Entry)
    (world : World) :
    ∃ trace finished,
      (engine.run graph input entry world).1.trace = world.trace ++ trace ∧
      (engine.run graph input entry world).1.finished = world.finished ++ finished ∧
      ⟨[], (engine.run graph input entry world).2⟩ ∈ finished ∧
      Bracketed engine.limits.maxDepth trace finished := by
  obtain ⟨deeds, tally, whole, grows, same⟩ := engine.run_takes graph input entry world
  have visits := visit_accounted engine engine.limits.maxDepth
  have account : Accounted (fun _ => False) _ _ deeds := (wholeGraph_accounted visits whole).1
  refine ⟨_, _, grows.trace, grows.finished, ?_, account.isBracketed⟩
  obtain ⟨attempted, _, _, rfl⟩ := whole
  rw [same]
  exact List.mem_filterMap.mpr ⟨.record ⟨[], tally.execution⟩, by simp, rfl⟩

end Workflow
