import Workflow.Proofs.Documents
import Workflow.Proofs.Mixing
import Workflow.Run

/-! Runs date what they record.

Every time in the records of a run is one that the clock showed while the run
went on, and the ids of its records come from the supply
(`Engine.run_stamped`).  A turn notes what it dates in stamps.  The clock and the
supply answer for the stamps, and the records are made of nothing else.
-/

namespace Workflow

/-- What a run notes: a time at which it records something, an identifier that it takes for
a record, and a record that it closes. -/
inductive Stamp where
  | time (instant : Instant)
  | id (id : Uuid)
  | record (execution : Execution)

namespace World

/-- The world goes on: its clock does not go back, nor does its supply. -/
structure Leads (before after : World) : Prop where
  epoch : after.epoch = before.epoch
  clock : before.now ≤ after.now
  supply : before.ids.next ≤ after.ids.next

namespace Leads

variable {before middle after : World}

theorem refl (world : World) : world.Leads world :=
  ⟨rfl, Nat.le_refl _, Nat.le_refl _⟩

theorem trans (earlier : before.Leads middle) (later : middle.Leads after) :
    before.Leads after where
  epoch := later.epoch.trans earlier.epoch
  clock := Nat.le_trans earlier.clock later.clock
  supply := Nat.le_trans earlier.supply later.supply

end Leads

/-- The clock showed an instant on the way from one state of the world to another. -/
def Shows (before after : World) (instant : Instant) : Prop :=
  ∃ millis, before.now ≤ millis ∧ millis ≤ after.now ∧ instant = before.epoch.addMillis millis

/-- The supply gave out an identifier on the way from one state of the world to another. -/
def Gives (before after : World) (id : Uuid) : Prop :=
  ∃ number, before.ids.next ≤ number ∧ number < after.ids.next ∧ id = Uuid.random number

variable {before after first last : World}

theorem Shows.mono {instant : Instant} (shown : first.Shows last instant)
    (start : before.Leads first) (ending : last.Leads after) : before.Shows after instant := by
  obtain ⟨millis, least, most, same⟩ := shown
  exact ⟨millis, Nat.le_trans start.clock least, Nat.le_trans most ending.clock,
    start.epoch ▸ same⟩

theorem Gives.mono {id : Uuid} (given : first.Gives last id) (start : before.Leads first)
    (ending : last.Leads after) : before.Gives after id := by
  obtain ⟨number, least, most, same⟩ := given
  exact ⟨number, Nat.le_trans start.supply least, Nat.lt_of_lt_of_le most ending.supply, same⟩

/-- How the world changes while stamps are noted. -/
structure Passes (before : World) (stamps : List Stamp) (after : World) : Prop
    extends before.Leads after where
  times : ∀ instant, .time instant ∈ stamps → before.Shows after instant
  ids : ∀ id, .id id ∈ stamps → before.Gives after id
  records : ∀ finished ∈ after.finished,
    finished ∈ before.finished ∨ .record finished.execution ∈ stamps

namespace Passes

variable {before middle after : World} {first second : List Stamp}

theorem nothing (world : World) : world.Passes [] world where
  toLeads := .refl world
  times := nofun
  ids := nofun
  records _ member := .inl member

theorem andThen (earlier : before.Passes first middle) (later : middle.Passes second after) :
    before.Passes (first ++ second) after where
  toLeads := earlier.toLeads.trans later.toLeads
  times instant member := by
    rcases List.mem_append.mp member with inside | inside
    · exact (earlier.times instant inside).mono (.refl _) later.toLeads
    · exact (later.times instant inside).mono earlier.toLeads (.refl _)
  ids id member := by
    rcases List.mem_append.mp member with inside | inside
    · exact (earlier.ids id inside).mono (.refl _) later.toLeads
    · exact (later.ids id inside).mono earlier.toLeads (.refl _)
  records finished member := by
    rcases later.records finished member with old | new
    · exact (earlier.records finished old).imp_right (List.mem_append_left _)
    · exact .inr (List.mem_append_right _ new)

end Passes

/-- The clock stands still and no record is closed, while identifiers may be taken. -/
structure Stays (before after : World) : Prop where
  epoch : after.epoch = before.epoch
  clock : after.now = before.now
  supply : before.ids.next ≤ after.ids.next
  records : after.finished = before.finished

theorem Stays.passes {before after : World} (stays : before.Stays after) :
    before.Passes [.time before.instant] after where
  epoch := stays.epoch
  clock := stays.clock.ge
  supply := stays.supply
  times instant member := by
    obtain rfl := Stamp.time.inj (List.mem_singleton.mp member)
    exact ⟨before.now, Nat.le_refl _, stays.clock.ge, rfl⟩
  ids id member := by simp at member
  records _ member := .inl (stays.records ▸ member)

end World

/-- A record all of whose times and whose id are among the stamps. -/
structure Execution.Stamped (execution : Execution) (stamps : List Stamp) : Prop where
  id : .id execution.id ∈ stamps
  started : .time execution.startedAt ∈ stamps
  finished : ∀ time ∈ execution.finishedAt, .time time ∈ stamps
  errors : ∀ failure ∈ execution.errors, .time failure.timestamp ∈ stamps
  logs : ∀ entry ∈ execution.logs, .time entry.timestamp ∈ stamps ∧ entry.data ≠ some .null

theorem Execution.Stamped.mono {execution : Execution} {stamps more : List Stamp}
    (stamped : execution.Stamped stamps) (subset : stamps ⊆ more) : execution.Stamped more where
  id := subset stamped.id
  started := subset stamped.started
  finished time member := subset (stamped.finished time member)
  errors failure member := subset (stamped.errors failure member)
  logs entry member := (stamped.logs entry member).imp_left fun inside => subset inside

/-- What an open record gains while stamps are noted. -/
structure Execution.Gains (before : Execution) (stamps : List Stamp) (after : Execution) :
    Prop where
  id : after.id = before.id
  started : after.startedAt = before.startedAt
  errors : ∀ failure ∈ after.errors, failure ∈ before.errors ∨ .time failure.timestamp ∈ stamps
  logs : ∀ entry ∈ after.logs,
    entry ∈ before.logs ∨ .time entry.timestamp ∈ stamps ∧ entry.data ≠ some .null

namespace Execution.Gains

variable {before middle after : Execution} {first second stamps : List Stamp}

/-- Neither errors nor logs are added. -/
theorem unchanged (id : after.id = before.id) (started : after.startedAt = before.startedAt)
    (errors : after.errors = before.errors) (logs : after.logs = before.logs) :
    before.Gains stamps after where
  id := id
  started := started
  errors _ member := .inl (errors ▸ member)
  logs _ member := .inl (logs ▸ member)

theorem andThen (earlier : before.Gains first middle) (later : middle.Gains second after) :
    before.Gains (first ++ second) after where
  id := later.id.trans earlier.id
  started := later.started.trans earlier.started
  errors failure member := by
    rcases later.errors failure member with old | new
    · exact (earlier.errors failure old).imp_right (List.mem_append_left _)
    · exact .inr (List.mem_append_right _ new)
  logs entry member := by
    rcases later.logs entry member with old | ⟨new, given⟩
    · exact (earlier.logs entry old).imp_right (And.imp_left (List.mem_append_left _))
    · exact .inr ⟨List.mem_append_right _ new, given⟩

theorem log (gains : before.Gains stamps after) {entry : LogEntry}
    (noted : .time entry.timestamp ∈ stamps) (given : entry.data ≠ some .null) :
    before.Gains stamps (after.log entry) :=
  { gains with
    logs := by
      intro other member
      rcases List.mem_append.mp member with old | new
      · exact gains.logs other old
      · obtain rfl := List.mem_singleton.mp new
        exact .inr ⟨noted, given⟩ }

theorem recordError (gains : before.Gains stamps after) (node : Option String) (message : String)
    {now : Instant} (noted : .time now ∈ stamps) :
    before.Gains stamps (after.recordError node message now) :=
  { gains with
    errors := by
      intro other member
      rcases List.mem_append.mp member with old | new
      · exact gains.errors other old
      · obtain rfl := List.mem_singleton.mp new
        exact .inr noted }

end Execution.Gains

namespace Stamp

/-- The records among stamps are made of the others. -/
def Sound (stamps : List Stamp) : Prop :=
  ∀ execution, .record execution ∈ stamps → execution.Stamped stamps

theorem Sound.nil : Sound [] :=
  nofun

theorem Sound.time (instant : Instant) : Sound [.time instant] := by
  intro _ member
  simp at member

theorem Sound.mix {left right stamps : List Stamp} (first : Sound left) (second : Sound right)
    (mixed : Interleaved left right stamps) : Sound stamps := by
  intro execution member
  rcases mixed.mem_iff.mp member with inside | inside
  · exact (first execution inside).mono fun _ stamp => mixed.mem_iff.mpr (.inl stamp)
  · exact (second execution inside).mono fun _ stamp => mixed.mem_iff.mpr (.inr stamp)

theorem sound_mixable : Mixable Sound :=
  ⟨.nil, .mix⟩

end Stamp

namespace Run

def stamping : Conduct RunState Stamp where
  may before stamps after := before.1.Passes stamps after.1 ∧
    before.2.execution.Gains stamps after.2.execution
  nothing state := ⟨.nothing state.1, .unchanged rfl rfl rfl rfl⟩
  andThen earlier later := ⟨earlier.1.andThen later.1, earlier.2.andThen later.2⟩

def tallyStamping : Conduct Tally Stamp where
  may before stamps after := before.execution.Gains stamps after.execution
  nothing _ := .unchanged rfl rfl rfl rfl
  andThen earlier later := earlier.andThen later

def outerStamping (ο : Type) : Conduct (World × ο) Stamp where
  may before stamps after := before.1.Passes stamps after.1 ∧ after.2 = before.2
  nothing state := ⟨.nothing state.1, rfl⟩
  andThen earlier later := ⟨earlier.1.andThen later.1, later.2.trans earlier.2⟩

/-- What an activity records in its turns is dated soundly. -/
def Dated {α : Type} (activity : Running α) : Prop :=
  activity.Leaves stamping Stamp.Sound

namespace Dated

variable {α β : Type} {activity : Running α}

theorem pure (value : α) : Dated (Pure.pure value : Running α) :=
  Activity.Leaves.pure Stamp.sound_mixable value

theorem bind {next : α → Running β} (dated : Dated activity)
    (goesOn : ∀ value, Dated (next value)) : Dated (activity >>= next) :=
  Activity.Leaves.bind Stamp.sound_mixable dated goesOn

/-- What is done at once, at the time that the clock shows. -/
theorem atOnce {result : RunState → α} (done : ∀ state, (activity state).2 = .done (result state))
    (stays : ∀ state : RunState, state.1.Stays (activity state).1.1)
    (gains : ∀ state : RunState, state.2.execution.Gains [.time state.1.instant]
      (activity state).1.2.execution) :
    Dated activity :=
  Activity.Takes.atOnce done fun state => ⟨_, ⟨(stays state).passes, gains state⟩, .time _⟩

end Dated

theorem log_dated (node : Option String) (level : LogLevel) (message : String)
    {data : Option Json} (given : data ≠ some .null) :
    Dated (Running.log node level message data) := by
  apply Dated.atOnce (fun _ => rfl) fun _ => ⟨rfl, rfl, Nat.le_succ _, rfl⟩
  intro state
  have same : state.2.execution.Gains [.time state.1.instant] state.2.execution :=
    .unchanged rfl rfl rfl rfl
  exact same.log (List.mem_singleton_self _) given

theorem fail_dated (path : Path) (node : String) (error : NodeError) :
    Dated (fail path node error) := by
  apply Dated.atOnce (fun _ => rfl) fun _ => ⟨rfl, rfl, Nat.le_succ _, rfl⟩
  intro state
  have same : state.2.execution.Gains [.time state.1.instant]
      (state.2.execution.setStatus node .error) := .unchanged rfl rfl rfl rfl
  exact (same.recordError (some node) error.message (List.mem_singleton_self _)).log
    (List.mem_singleton_self _) nofun

theorem start_dated (path : Path) (node : Node) : Dated (start path node) := by
  apply Dated.atOnce (fun _ => rfl) fun _ => ⟨rfl, rfl, Nat.le_succ _, rfl⟩
  intro state
  have same : state.2.execution.Gains [.time state.1.instant] (state.2.execution.enter node.id) :=
    .unchanged rfl rfl rfl rfl
  exact same.log (List.mem_singleton_self _) nofun

theorem succeed_dated (path : Path) (node : Node) (outcome : Outcome) :
    Dated (succeed path node outcome) := by
  apply Dated.atOnce (fun _ => rfl) fun _ => ⟨rfl, rfl, Nat.le_succ _, rfl⟩
  intro state
  have same : state.2.execution.Gains [.time state.1.instant]
      (state.2.execution.setStatus node.id .success) := .unchanged rfl rfl rfl rfl
  exact same.log (List.mem_singleton_self _) nofun

theorem refuse_dated (error : GraphError) :
    Dated (do
      Running.log none .error s!"graph validation failed: {error.message}" none
      let now := (← Running.world).instant
      Running.record fun execution => execution.recordError none error.message now) := by
  apply Dated.atOnce (fun _ => rfl) fun _ => ⟨rfl, rfl, Nat.le_succ _, rfl⟩
  intro state
  have same : state.2.execution.Gains [.time state.1.instant] state.2.execution :=
    .unchanged rfl rfl rfl rfl
  let entry : LogEntry := ⟨.random state.1.ids.next, state.2.execution.id, none,
    state.1.instant, .error, s!"graph validation failed: {error.message}", none⟩
  have logged : state.2.execution.Gains [.time state.1.instant] (state.2.execution.log entry) :=
    same.log (List.mem_singleton_self _) nofun
  exact logged.recordError none error.message (List.mem_singleton_self _)

theorem endOn_dated (node : String) (payload : Json) : Dated (Running.endOn node payload) :=
  .atOnce (fun _ => rfl) (fun _ => ⟨rfl, rfl, Nat.le_refl _, rfl⟩)
    fun _ => .unchanged rfl rfl rfl rfl

theorem noteCall_dated (call : Call) : Dated (Running.noteCall call) :=
  .atOnce (fun _ => rfl) (fun _ => ⟨rfl, rfl, Nat.le_refl _, rfl⟩)
    fun _ => .unchanged rfl rfl rfl rfl

theorem setStatus_dated (node : String) (status : Status) :
    Dated (Running.record fun execution => execution.setStatus node status) :=
  .atOnce (fun _ => rfl) (fun _ => ⟨rfl, rfl, Nat.le_refl _, rfl⟩)
    fun _ => .unchanged rfl rfl rfl rfl

theorem pause_dated : Dated Activity.pause := by
  intro state
  exact ⟨[], stamping.nothing state, fun later => ⟨[], stamping.nothing later, .nil⟩⟩

theorem dated_chores : Chores stamping Stamp.Sound where
  mixable := Stamp.sound_mixable
  warn node message := log_dated node .warn message (by simp)
  endOn := endOn_dated
  noteCall := noteCall_dated
  refuse := refuse_dated

section Visits

variable {engine : Engine} {visit : Visit}
  (visits : ∀ graph path node input, Dated (visit graph path node input))

include visits

/-- The record of a whole run is dated by what the run notes. -/
theorem wholeGraph_dated {ο : Type} (path : Path) (graph : Graph) (input : Json) (entry : Entry) :
    (wholeGraph visit path graph input entry).Takes (outerStamping ο) fun stamps tally =>
      Stamp.Sound stamps ∧ tally.execution.Stamped stamps := by
  have opened : (openRecord path graph : Activity (World × ο) Execution).Takes (outerStamping ο)
      fun stamps execution => stamps = [.id execution.id, .time execution.startedAt] ∧
        execution.errors = [] ∧ execution.logs = [] := by
    refine .atOnce (fun _ => rfl) fun state => ⟨_, ⟨?_, rfl⟩, rfl, rfl, rfl⟩
    exact
      { epoch := rfl
        clock := Nat.le_refl _
        supply := Nat.le_succ _
        times := by
          intro instant member
          obtain _ | ⟨_, _ | ⟨_, ⟨⟩⟩⟩ := member
          exact ⟨state.1.now, Nat.le_refl _, Nat.le_refl _, rfl⟩
        ids := by
          intro id member
          obtain _ | ⟨_, _ | ⟨_, ⟨⟩⟩⟩ := member
          exact ⟨state.1.ids.next, Nat.le_refl _, Nat.lt_succ_self _, rfl⟩
        records := fun _ member => .inl member }
  have attempted (execution : Execution) :
      ((attempt visit path graph input entry).within (⟨execution, []⟩ : Tally)).Takes
        (outerStamping ο) fun stamps result =>
          Stamp.Sound stamps ∧ execution.Gains stamps result.2.execution := by
    refine .within tallyStamping ?_ (dated_chores.attempt visits path graph input entry) _
    exact fun done => ⟨done.2, fun _ => ⟨done.1, rfl⟩⟩
  have closed (tally : Tally) : (closeRecord path tally : Activity (World × ο) Tally).Takes
      (outerStamping ο) fun stamps result => ∃ now, stamps = [.time now, .record result.execution] ∧
        result = { tally with execution := tally.execution.finish now } := by
    refine .atOnce (fun _ => rfl) fun state => ⟨_, ⟨?_, rfl⟩, state.1.instant, rfl, rfl⟩
    exact
      { epoch := rfl
        clock := Nat.le_refl _
        supply := Nat.le_refl _
        times := by
          intro instant member
          obtain _ | ⟨_, _ | ⟨_, ⟨⟩⟩⟩ := member
          exact ⟨state.1.now, Nat.le_refl _, Nat.le_refl _, rfl⟩
        ids := by simp
        records := by
          intro finished member
          rcases List.mem_append.mp member with old | new
          · exact .inl old
          · obtain rfl := List.mem_singleton.mp new
            exact .inr (by simp) }
  refine (opened.bindReached fun _ execution _ =>
    (attempted execution).bind fun result => closed result.2).mono ?_
  intro _ tally given
  obtain ⟨_, _, execution, rfl, ⟨rfl, unfailed, unlogged⟩, middle, _, result, rfl,
    ⟨sound, gains⟩, now, rfl, rfl⟩ := given
  -- The id and the start come from opening the record, errors and logs from the turns between.
  have stamped : (result.2.execution.finish now).Stamped
      ([.id execution.id, .time execution.startedAt] ++
        (middle ++ [.time now, .record (result.2.execution.finish now)])) := by
    refine
      { id := ?_, started := ?_, finished := ?_, errors := ?_, logs := ?_ }
    · exact List.mem_append_left _ (gains.id ▸ List.mem_cons_self)
    · exact List.mem_append_left _ (gains.started ▸ .tail _ List.mem_cons_self)
    · intro time member
      obtain rfl : now = time := Option.some.inj member
      exact List.mem_append_right _ (List.mem_append_right _ List.mem_cons_self)
    · intro failure member
      rcases gains.errors failure member with old | new
      · simp [unfailed] at old
      · exact List.mem_append_right _ (List.mem_append_left _ new)
    · intro noted member
      rcases gains.logs noted member with old | ⟨new, given⟩
      · simp [unlogged] at old
      · exact ⟨List.mem_append_right _ (List.mem_append_left _ new), given⟩
  refine ⟨?_, stamped⟩
  intro record member
  rcases List.mem_append.mp member with opening | later
  · simp at opening
  · rcases List.mem_append.mp later with inside | closing
    · apply (sound record inside).mono
      exact fun _ stamp => List.mem_append_right _ (List.mem_append_left _ stamp)
    · obtain _ | ⟨_, _ | ⟨_, ⟨⟩⟩⟩ := closing
      exact stamped

theorem callSubflow_dated (graph : Graph) (path : Path) (node : Node) (input : Json) :
    Dated (callSubflow engine visit graph path node input) := by
  unfold callSubflow
  cases definitionOf engine graph node with
  | error error => exact .pure _
  | ok definition =>
      refine Dated.bind (.atOnce (fun _ => rfl) (fun _ => ⟨rfl, rfl, Nat.le_succ _, rfl⟩)
        fun _ => .unchanged rfl rfl rfl rfl) fun id => ?_
      have nested : Dated (wholeGraph visit path (definition.toGraph id)
          (definition.inputMapping.apply input) .triggersOrRoots) := by
        refine (wholeGraph_dated visits path _ _ _).weaken ?_ And.left
        intro before stamps after done
        exact ⟨done.1, done.2 ▸ .unchanged rfl rfl rfl rfl⟩
      refine nested.bind fun tally => ?_
      cases nestedOutcome node definition input tally with
      | error error => exact .pure _
      | ok outcome => exact (log_dated _ _ _ (by simp)).bind fun _ => .pure _

theorem perform_dated (graph : Graph) (path : Path) (node : Node) (input : Json) :
    Dated (perform engine visit graph path node input) := by
  unfold perform
  cases node.kind with
  | trigger => exact .pure _
  | condition =>
      have evaluated : Dated (Branching.evaluate (surroundings visit graph path node)
          engine.limits.maxWhileIterations node input) :=
        dated_chores.evaluate visits _ graph path node input
      dsimp only
      split
      · exact (setStatus_dated node.id .waiting).bind fun _ => evaluated.bind fun _ => .pure _
      · exact evaluated.bind fun _ => .pure _
  | action | data =>
      dsimp only
      split
      · exact callSubflow_dated visits graph path node input
      · exact Dated.bind (dated_chores.callDelegate engine path node input) fun _ => .pure _

theorem activate_dated (graph : Graph) (path : Path) (node : Node) (input : Json) :
    Dated (activate engine visit graph path node input) := by
  refine (start_dated path node).bind fun _ => pause_dated.bind fun _ => ?_
  refine (perform_dated visits graph path node input).bind fun result => ?_
  cases result with
  | error error => exact (fail_dated path node.id error).bind fun _ => .pure _
  | ok outcome =>
      refine (succeed_dated path node outcome).bind fun _ => ?_
      exact Dated.bind (dated_chores.follow visits graph path node outcome) fun _ => .pure _

end Visits

theorem visit_dated (engine : Engine) (left : Nat) (graph : Graph) (path : Path) (node : String)
    (input : Json) : Dated (visit engine left graph path node input) := by
  induction left generalizing graph path node input with
  | zero =>
      unfold visit
      cases graph.node? node with
      | none => exact (fail_dated path node _).bind fun _ => .pure _
      | some found => exact (fail_dated path node _).bind fun _ => .pure _
  | succ left ih =>
      unfold visit
      cases graph.node? node with
      | none => exact (fail_dated path node _).bind fun _ => .pure _
      | some found => exact activate_dated ih graph path found input

end Run

/-- The records that a run closes are dated by the clock and named by the supply. -/
theorem Engine.run_stamped (engine : Engine) (graph : Graph) (input : Json) (entry : Entry)
    (world : World) :
    ∃ stamps, world.Passes stamps (engine.run graph input entry world).1 ∧ Stamp.Sound stamps ∧
      (engine.run graph input entry world).2.Stamped stamps := by
  have takes : (Run.wholeGraph (Run.visit engine engine.limits.maxDepth) [] graph input
      entry).Takes (Run.outerStamping Unit) _ :=
    Run.wholeGraph_dated (Run.visit_dated engine _) [] graph input entry
  -- The clock goes on between turns as well, but nothing is recorded then.
  have timely (time : Nat) (state : World × Unit) :
      (Run.outerStamping Unit).may state [] (state.1.advance time, state.2) :=
    ⟨{ epoch := rfl, clock := Nat.le_max_left _ _, supply := Nat.le_refl _, times := nofun
       ids := nofun, records := fun _ member => .inl member }, rfl⟩
  obtain ⟨stamps, passes, sound, stamped⟩ := takes.run timely (world, ())
  exact ⟨stamps, passes.1, sound, stamped⟩

/-- Every time that the clock shows on the way stands in the calendar. -/
def World.KeepsCalendar (before after : World) : Prop :=
  ∀ time, before.Shows after time → time.InCalendar

theorem World.KeepsCalendar.part {before after first last : World}
    (calendar : before.KeepsCalendar after) (start : before.Leads first)
    (ending : last.Leads after) : first.KeepsCalendar last :=
  fun time shown => calendar time (shown.mono start ending)

theorem Execution.Stamped.storable {execution : Execution} {stamps : List Stamp}
    {before after : World} (stamped : execution.Stamped stamps)
    (passes : before.Passes stamps after) (calendar : before.KeepsCalendar after) :
    execution.Storable where
  started := calendar _ (passes.times _ stamped.started)
  finished time member := calendar _ (passes.times _ (stamped.finished time member))
  errors failure member := calendar _ (passes.times _ (stamped.errors failure member))
  logs entry member := by
    obtain ⟨dated, given⟩ := stamped.logs entry member
    exact ⟨calendar _ (passes.times _ dated), given⟩

/-- While the clock keeps to the calendar, all records that a run closes can be stored. -/
theorem Engine.run_storable (engine : Engine) (graph : Graph) (input : Json) (entry : Entry)
    {world : World} (calendar : world.KeepsCalendar (engine.run graph input entry world).1) :
    (engine.run graph input entry world).2.Storable ∧
      ∀ finished ∈ (engine.run graph input entry world).1.finished,
        finished ∈ world.finished ∨ finished.execution.Storable := by
  obtain ⟨stamps, passes, sound, stamped⟩ := engine.run_stamped graph input entry world
  refine ⟨stamped.storable passes calendar, fun finished member => ?_⟩
  rcases passes.records finished member with old | new
  · exact .inl old
  · exact .inr ((sound finished.execution new).storable passes calendar)

end Workflow
