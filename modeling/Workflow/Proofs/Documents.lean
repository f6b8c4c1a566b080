import Workflow.Document.Schedule
import Workflow.Proofs.FiniteDoubles
import Workflow.Proofs.Payloads
import Workflow.Proofs.Spelling

/-! Documents are read back as they were written.

Each type of document has a reader, a writer and a condition under which the two
fit: positions are finite numbers, dates stand in the calendar, and a log entry
has no null for its data.  Whatever a reader accepts meets the condition.
-/

namespace Workflow

open Json (Faithful)

theorem Uuid.faithful : Faithful Uuid.ofJson? Uuid.toJson fun _ => True :=
  .of_always fun id => by
    rw [Uuid.ofJson?, Uuid.toJson, Json.string?, Option.bind_some, Uuid.ofText?_text]

theorem Instant.faithful : Faithful Instant.ofJson? Instant.toJson Instant.InCalendar where
  sound_of_read _ given := by
    obtain ⟨text, _, read⟩ := Option.bind_eq_some_iff.mp given
    exact Instant.inCalendar_of_ofText? read
  read_write dated := by
    rw [Instant.ofJson?, Instant.toJson, Json.string?, Option.bind_some,
      Instant.ofText?_text dated]

section Words

theorem Direction.faithful : Faithful (Json.wordOf? Direction.words)
    (fun direction => .string direction.word) fun _ => True :=
  .of_always fun direction => by cases direction <;> rfl

theorem Kind.faithful : Faithful (Json.wordOf? Kind.words)
    (fun kind => .string kind.word) fun _ => True :=
  .of_always fun kind => by cases kind <;> rfl

theorem Category.faithful : Faithful (Json.wordOf? Category.words)
    (fun category => .string category.word) fun _ => True :=
  .of_always fun category => by cases category <;> rfl

theorem Status.faithful : Faithful (Json.wordOf? Status.words)
    (fun status => .string status.word) fun _ => True :=
  .of_always fun status => by cases status <;> rfl

theorem RunStatus.faithful : Faithful (Json.wordOf? RunStatus.words)
    (fun status => .string status.word) fun _ => True :=
  .of_always fun status => by cases status <;> rfl

theorem LogLevel.faithful : Faithful (Json.wordOf? LogLevel.words)
    (fun level => .string level.word) fun _ => True :=
  .of_always fun level => by cases level <;> rfl

end Words

section Graphs

theorem Json.double_faithful :
    Faithful Json.double? Json.ofFloat fun double => double.isFinite = true where
  sound_of_read proper given := by
    cases proper with
    | @number number proper =>
        cases given
        cases number with
        | int value => exact Double.isFinite_ofInt (by have := proper.1; omega) proper.2
        | float value => exact proper
    | _ => contradiction
  read_write finite := by
    rw [Json.ofFloat, if_pos finite]
    rfl

/-- Both coordinates are numbers. -/
def Position.Finite (position : Position) : Prop :=
  position.x.isFinite = true ∧ position.y.isFinite = true

def Graph.Storable (graph : Graph) : Prop :=
  ∀ node ∈ graph.nodes, node.position.Finite

def Subflow.Storable (subflow : Subflow) : Prop :=
  ∀ node ∈ subflow.nodes, node.position.Finite

theorem Port.faithful : Faithful Port.ofJson? Port.toJson fun _ => True :=
  .of_always fun port => by
    unfold ofJson? toJson
    apply Record.bind_ofJson?
    apply Record.bind_required rfl (Faithful.string.read_write trivial)
    apply Record.bind_required rfl (Faithful.string.read_write trivial)
    apply Record.bind_required rfl (Direction.faithful.read_write trivial)
    apply Record.bind_required rfl (Faithful.string.read_write trivial)
    apply Record.bind_defaulted rfl (Faithful.bool.read_write trivial)
    rfl

theorem Position.faithful : Faithful Position.ofJson? Position.toJson Position.Finite where
  sound_of_read proper given := by
    simp only [ofJson?, Option.bind_eq_bind, Option.bind_eq_some_iff] at given
    obtain ⟨record, named, x, first, y, second, same⟩ := given
    obtain rfl := Option.some.inj same
    have proper := Record.proper_of_ofJson? proper named
    exact ⟨Record.sound_required Json.double_faithful proper first,
      Record.sound_required Json.double_faithful proper second⟩
  read_write finite := by
    unfold ofJson? toJson
    apply Record.bind_ofJson?
    apply Record.bind_required rfl (Json.double_faithful.read_write finite.1)
    apply Record.bind_required rfl (Json.double_faithful.read_write finite.2)
    rfl

theorem Position.origin_finite : Position.origin.Finite :=
  ⟨by decide +kernel, by decide +kernel⟩

theorem Node.faithful : Faithful Node.ofJson? Node.toJson fun node => node.position.Finite where
  sound_of_read proper given := by
    simp only [ofJson?, Option.bind_eq_bind, Option.bind_eq_some_iff] at given
    obtain ⟨record, named, _, _, _, _, _, _, _, _, _, _, _, _, _, _, _, _, position, placed,
      same⟩ := given
    obtain rfl := Option.some.inj same
    exact Record.sound_defaulted Position.faithful (Record.proper_of_ofJson? proper named)
      Position.origin_finite placed
  read_write finite := by
    unfold ofJson? toJson
    apply Record.bind_ofJson?
    apply Record.bind_required rfl (Faithful.string.read_write trivial)
    apply Record.bind_required rfl (Faithful.string.read_write trivial)
    apply Record.bind_required rfl (Kind.faithful.read_write trivial)
    apply Record.bind_required rfl (Faithful.string.read_write trivial)
    apply Record.bind_defaulted rfl (Faithful.object.read_write trivial)
    apply Record.bind_defaulted rfl (Port.faithful.list.read_write (by simp))
    apply Record.bind_defaulted rfl (Port.faithful.list.read_write (by simp))
    apply Record.bind_defaulted rfl (Status.faithful.read_write trivial)
    apply Record.bind_defaulted rfl (Position.faithful.read_write finite)
    rfl

theorem Endpoint.faithful : Faithful Endpoint.ofJson? Endpoint.toJson fun _ => True :=
  .of_always fun endpoint => by
    unfold ofJson? toJson
    apply Record.bind_ofJson?
    apply Record.bind_required rfl (Faithful.string.read_write trivial)
    apply Record.bind_required rfl (Faithful.string.read_write trivial)
    rfl

theorem Connection.faithful : Faithful Connection.ofJson? Connection.toJson fun _ => True :=
  .of_always fun connection => by
    unfold ofJson? toJson
    apply Record.bind_ofJson?
    apply Record.bind_required rfl (Faithful.string.read_write trivial)
    apply Record.bind_required rfl (Endpoint.faithful.read_write trivial)
    apply Record.bind_required rfl (Endpoint.faithful.read_write trivial)
    apply Record.bind_required rfl (Faithful.string.read_write trivial)
    rfl

theorem Graph.faithful : Faithful Graph.ofJson? Graph.toJson Graph.Storable where
  sound_of_read proper given := by
    simp only [ofJson?, Option.bind_eq_bind, Option.bind_eq_some_iff] at given
    obtain ⟨record, named, _, _, _, _, nodes, placed, _, _, same⟩ := given
    obtain rfl := Option.some.inj same
    exact Record.sound_defaulted Node.faithful.list (Record.proper_of_ofJson? proper named)
      (by simp) placed
  read_write storable := by
    unfold ofJson? toJson
    apply Record.bind_ofJson?
    apply Record.bind_required rfl (Uuid.faithful.read_write trivial)
    apply Record.bind_required rfl (Faithful.string.read_write trivial)
    apply Record.bind_defaulted rfl (Node.faithful.list.read_write storable)
    apply Record.bind_defaulted rfl (Connection.faithful.list.read_write (by simp))
    rfl

theorem Mapping.faithful : Faithful Mapping.ofJson? Mapping.toJson fun _ => True :=
  .of_always fun _ => Faithful.string.map.read_write (by simp)

theorem Subflow.faithful : Faithful Subflow.ofJson? Subflow.toJson Subflow.Storable where
  sound_of_read proper given := by
    simp only [ofJson?, Option.bind_eq_bind, Option.bind_eq_some_iff] at given
    obtain ⟨record, named, _, _, _, _, nodes, placed, _, _, _, _, _, _, _, _, _, _, _, _, _, _,
      same⟩ := given
    obtain rfl := Option.some.inj same
    exact Record.sound_required Node.faithful.list (Record.proper_of_ofJson? proper named) placed
  read_write storable := by
    unfold ofJson? toJson
    apply Record.bind_ofJson?
    apply Record.bind_required rfl (Faithful.string.read_write trivial)
    apply Record.bind_required rfl (Faithful.string.read_write trivial)
    apply Record.bind_required rfl (Node.faithful.list.read_write storable)
    apply Record.bind_required rfl (Connection.faithful.list.read_write (by simp))
    apply Record.bind_defaulted rfl (Port.faithful.list.read_write (by simp))
    apply Record.bind_defaulted rfl (Port.faithful.list.read_write (by simp))
    apply Record.bind_defaulted rfl (Mapping.faithful.read_write trivial)
    apply Record.bind_defaulted rfl (Mapping.faithful.read_write trivial)
    apply Record.bind_defaulted rfl (Mapping.faithful.read_write trivial)
    apply Record.bind_defaulted rfl (Faithful.bool.read_write trivial)
    rfl

theorem PortTemplate.faithful :
    Faithful PortTemplate.ofJson? PortTemplate.toJson fun _ => True :=
  .of_always fun port => by
    unfold ofJson? toJson
    apply Record.bind_ofJson?
    apply Record.bind_required rfl (Faithful.string.read_write trivial)
    apply Record.bind_required rfl (Direction.faithful.read_write trivial)
    apply Record.bind_required rfl (Faithful.string.read_write trivial)
    rfl

theorem Template.faithful : Faithful Template.ofJson? Template.toJson fun _ => True :=
  .of_always fun template => by
    unfold ofJson? toJson
    apply Record.bind_ofJson?
    apply Record.bind_required rfl (Faithful.string.read_write trivial)
    apply Record.bind_required rfl (Kind.faithful.read_write trivial)
    apply Record.bind_required rfl (Category.faithful.read_write trivial)
    apply Record.bind_required rfl (Faithful.string.read_write trivial)
    apply Record.bind_required rfl (Faithful.string.read_write trivial)
    apply Record.bind_required rfl (PortTemplate.faithful.list.read_write (by simp))
    apply Record.bind_required rfl (Faithful.object.read_write trivial)
    rfl

end Graphs

section Executions

def LogEntry.Storable (entry : LogEntry) : Prop :=
  entry.timestamp.InCalendar ∧ entry.data ≠ some .null

/-- The dates of a record stand in the calendar, and so do those of its errors and logs. -/
structure Execution.Storable (execution : Execution) : Prop where
  started : execution.startedAt.InCalendar
  finished : ∀ time ∈ execution.finishedAt, time.InCalendar
  errors : ∀ failure ∈ execution.errors, failure.timestamp.InCalendar
  logs : ∀ entry ∈ execution.logs, entry.Storable

theorem Instant.toJson_ne_null (time : Instant) : time.toJson ≠ .null :=
  nofun

theorem LogEntry.faithful : Faithful LogEntry.ofJson? LogEntry.toJson LogEntry.Storable where
  sound_of_read proper given := by
    simp only [ofJson?, Option.bind_eq_bind, Option.bind_eq_some_iff] at given
    obtain ⟨record, named, _, _, _, _, _, _, _, stamped, _, _, _, _, data, found, same⟩ := given
    obtain rfl := Option.some.inj same
    exact ⟨Record.sound_required Instant.faithful (Record.proper_of_ofJson? proper named) stamped,
      Record.nullable_ne_null found⟩
  read_write {entry} storable := by
    have data : ∀ record : Record, record.get? "data" = entry.data →
        record.nullable "data" some = some entry.data := by
      intro record found
      unfold Record.nullable
      rw [found]
      split
      · rename_i none
        rw [none]
      · rename_i null
        exact absurd null storable.2
      · rename_i some
        rw [some]
        rfl
    unfold ofJson? toJson
    apply Record.bind_ofJson?
    apply Record.bind_required rfl (Uuid.faithful.read_write trivial)
    apply Record.bind_required rfl (Uuid.faithful.read_write trivial)
    apply Record.bind_optional rfl nofun fun _ _ => Faithful.string.read_write trivial
    apply Record.bind_required rfl (Instant.faithful.read_write storable.1)
    apply Record.bind_required rfl (LogLevel.faithful.read_write trivial)
    apply Record.bind_required rfl (Faithful.string.read_write trivial)
    rw [data]
    · rfl
    · cases entry.data <;> rfl

theorem RunFailure.faithful : Faithful RunFailure.ofJson? RunFailure.toJson
    fun failure => failure.timestamp.InCalendar where
  sound_of_read proper given := by
    simp only [ofJson?, Option.bind_eq_bind, Option.bind_eq_some_iff] at given
    obtain ⟨record, named, _, _, _, _, _, stamped, same⟩ := given
    obtain rfl := Option.some.inj same
    exact Record.sound_required Instant.faithful (Record.proper_of_ofJson? proper named) stamped
  read_write dated := by
    unfold ofJson? toJson
    apply Record.bind_ofJson?
    apply Record.bind_optional rfl nofun fun _ _ => Faithful.string.read_write trivial
    apply Record.bind_required rfl (Faithful.string.read_write trivial)
    apply Record.bind_required rfl (Instant.faithful.read_write dated)
    rfl

theorem Execution.faithful : Faithful Execution.ofJson? Execution.toJson Execution.Storable where
  sound_of_read proper given := by
    simp only [ofJson?, Option.bind_eq_bind, Option.bind_eq_some_iff] at given
    obtain ⟨record, named, _, _, _, _, _, _, _, started, _, finished, _, _, _, errors, _, _, _,
      logs, same⟩ := given
    obtain rfl := Option.some.inj same
    have proper := Record.proper_of_ofJson? proper named
    exact
      { started := Record.sound_required Instant.faithful proper started
        finished := Record.sound_optional Instant.faithful proper finished
        errors := Record.sound_required RunFailure.faithful.list proper errors
        logs := Record.sound_defaulted LogEntry.faithful.list proper (by simp) logs }
  read_write storable := by
    unfold ofJson? toJson
    apply Record.bind_ofJson?
    apply Record.bind_required rfl (Uuid.faithful.read_write trivial)
    apply Record.bind_required rfl (Uuid.faithful.read_write trivial)
    apply Record.bind_required rfl (RunStatus.faithful.read_write trivial)
    apply Record.bind_required rfl (Instant.faithful.read_write storable.started)
    apply Record.bind_optional rfl Instant.toJson_ne_null fun time finished =>
      Instant.faithful.read_write (storable.finished time finished)
    apply Record.bind_required rfl (Faithful.string.list.read_write (by simp))
    apply Record.bind_required rfl (RunFailure.faithful.list.read_write storable.errors)
    apply Record.bind_defaulted rfl (Status.faithful.map.read_write (by simp))
    apply Record.bind_defaulted rfl (LogEntry.faithful.list.read_write storable.logs)
    rfl

end Executions

section Schedules

def ScheduleSpec.Storable : ScheduleSpec → Prop
  | .once time => time.InCalendar
  | .interval minutes startAt =>
      minutes < ScheduleSpec.minutesBound ∧ ∀ time ∈ startAt, time.InCalendar

structure ScheduleEntry.Storable (entry : ScheduleEntry) : Prop where
  spec : entry.spec.Storable
  lastRun : ∀ time ∈ entry.lastRun, time.InCalendar
  nextRun : ∀ time ∈ entry.nextRun, time.InCalendar

theorem Json.below_faithful (bound : Nat) :
    Faithful (Json.below? bound) Json.nat fun n => n < bound where
  sound_of_read _ given := by
    obtain ⟨n, _, given⟩ := Option.bind_eq_some_iff.mp given
    obtain ⟨small, same⟩ := Option.ite_none_right_eq_some.mp given
    exact Option.some.inj same ▸ small
  read_write {n} small := by
    simp [Json.below?, Json.nat, Json.int, Json.natural?, Number.natural?, small]

theorem ScheduleSpec.storable_of_ofTagged? {type : String} {fields : Json} {spec : ScheduleSpec}
    (proper : fields.Proper) (given : ofTagged? type fields = some spec) : spec.Storable := by
  unfold ofTagged? at given
  split at given
  · simp only [Option.bind_eq_bind, Option.bind_eq_some_iff] at given
    obtain ⟨record, named, time, found, same⟩ := given
    obtain rfl := Option.some.inj same
    exact Record.sound_required Instant.faithful (Record.proper_of_ofJson? proper named) found
  · split at given
    · simp only [Option.bind_eq_bind, Option.bind_eq_some_iff] at given
      obtain ⟨record, named, minutes, found, startAt, starts, same⟩ := given
      obtain rfl := Option.some.inj same
      have proper := Record.proper_of_ofJson? proper named
      exact ⟨Record.sound_required (Json.below_faithful minutesBound) proper found,
        Record.sound_nullable Instant.faithful proper starts⟩
    · contradiction

theorem ScheduleSpec.faithful :
    Faithful ScheduleSpec.ofJson? ScheduleSpec.toJson ScheduleSpec.Storable where
  sound_of_read proper given := by
    unfold ofJson? at given
    split at given
    · obtain ⟨type, _, given⟩ := Option.bind_eq_some_iff.mp given
      obtain ⟨type, _, given⟩ := Option.bind_eq_some_iff.mp given
      exact storable_of_ofTagged? proper given
    · obtain ⟨type, _, given⟩ := Option.bind_eq_some_iff.mp given
      refine storable_of_ofTagged? ?_ given
      cases proper with
      | array inside => exact .array fun item member => inside item (List.mem_cons_of_mem _ member)
    · contradiction
  read_write {spec} storable := by
    cases spec with
    | once time =>
        simp only [ofJson?, toJson, Fields.get?_cons, if_true, Option.bind_some, Json.string?,
          ofTagged?]
        apply Record.bind_ofJson?
        apply Record.bind_required rfl (Instant.faithful.read_write storable)
        rfl
    | interval minutes startAt =>
        simp only [ofJson?, toJson, Fields.get?_cons, if_true, Option.bind_some, Json.string?,
          ofTagged?, String.reduceEq, if_false]
        apply Record.bind_ofJson?
        apply Record.bind_required rfl ((Json.below_faithful _).read_write storable.1)
        apply Record.bind_nullable rfl Instant.toJson_ne_null fun time starts =>
          Instant.faithful.read_write (storable.2 time starts)
        rfl

theorem ScheduleEntry.faithful :
    Faithful ScheduleEntry.ofJson? ScheduleEntry.toJson ScheduleEntry.Storable where
  sound_of_read proper given := by
    simp only [ofJson?, Option.bind_eq_bind, Option.bind_eq_some_iff] at given
    obtain ⟨record, named, _, _, _, _, _, spec, _, _, _, last, _, next, same⟩ := given
    obtain rfl := Option.some.inj same
    have proper := Record.proper_of_ofJson? proper named
    exact
      { spec := Record.sound_required ScheduleSpec.faithful proper spec
        lastRun := Record.sound_optional Instant.faithful proper last
        nextRun := Record.sound_optional Instant.faithful proper next }
  read_write storable := by
    unfold ofJson? toJson
    apply Record.bind_ofJson?
    apply Record.bind_required rfl (Uuid.faithful.read_write trivial)
    apply Record.bind_required rfl (Uuid.faithful.read_write trivial)
    apply Record.bind_required rfl (ScheduleSpec.faithful.read_write storable.spec)
    apply Record.bind_required rfl (Faithful.bool.read_write trivial)
    apply Record.bind_optional rfl Instant.toJson_ne_null fun time last =>
      Instant.faithful.read_write (storable.lastRun time last)
    apply Record.bind_optional rfl Instant.toJson_ne_null fun time next =>
      Instant.faithful.read_write (storable.nextRun time next)
    rfl

end Schedules

end Workflow
