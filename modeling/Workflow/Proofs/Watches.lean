import Workflow.Proofs.Booking

/-! Schedulers at work.

Entries come and go and are switched on and off, and now and then a tick looks at
all of them.  A tick fires just the entries that are due and stores the records of
their runs behind the others, and an entry for one firing fires once at most:
`Watch.ticks_fire_due`.
-/

namespace Workflow

/-- The entry is for one firing. -/
def ScheduleEntry.Once (entry : ScheduleEntry) : Prop :=
  ∃ time, entry.spec = .once time

namespace Scheduler

/-- Entries with an id that have a time at which they will fire. -/
def pending (entries : List ScheduleEntry) (id : Uuid) : Nat :=
  entries.countP fun entry => entry.id = id ∧ entry.nextRun.isSome

theorem pending_cons (entry : ScheduleEntry) (rest : List ScheduleEntry) (id : Uuid) :
    pending (entry :: rest) id =
      pending rest id + if entry.id = id ∧ entry.nextRun.isSome then 1 else 0 := by
  simp [pending, List.countP_cons]

theorem pending_append (first second : List ScheduleEntry) (id : Uuid) :
    pending (first ++ second) id = pending first id + pending second id :=
  List.countP_append

theorem pending_le (entries : List ScheduleEntry) (id : Uuid) :
    pending entries id ≤ entries.countP fun entry => entry.id = id :=
  List.countP_mono_left fun _ _ pending => decide_eq_true (of_decide_eq_true pending).1

/-- Firing an entry for one firing leaves nothing pending. -/
theorem pending_afterLook {entries : List ScheduleEntry} {id : Uuid}
    (once : ∀ entry ∈ entries, entry.id = id → entry.Once) (now : Instant) :
    (entries.filter (·.isDue now)).countP (fun entry => entry.id = id) +
      pending (entries.map (·.afterLook now)) id = pending entries id := by
  induction entries with
  | nil => rfl
  | cons entry rest ih =>
      obtain ⟨first, others⟩ := List.forall_mem_cons.mp once
      have later := ih others
      rw [List.map_cons, pending_cons, pending_cons, ← later, ScheduleEntry.afterLook_id]
      by_cases due : entry.isDue now
      · obtain ⟨enabled, time, next, _⟩ := ScheduleEntry.isDue_iff.mp due
        rw [List.filter_cons, if_pos due, List.countP_cons]
        by_cases same : entry.id = id
        · obtain ⟨time, spec⟩ := first same
          have done : (entry.afterLook now).nextRun = none := by
            simp [ScheduleEntry.afterLook, due, ScheduleEntry.advance, spec]
          simp [same, next, done]
          omega
        · simp [same]
      · have kept : entry.afterLook now = entry := if_neg due
        rw [List.filter_cons, if_neg due, kept, Nat.add_assoc]

theorem switch_of_none {entries : List ScheduleEntry} {id : Uuid}
    (none : entries.find? (fun entry => entry.id = id) = none) (enabled : Bool) :
    switch id enabled entries = entries := by
  induction entries with
  | nil => rfl
  | cons entry rest ih =>
      rw [List.find?_cons] at none
      split at none
      · contradiction
      · rename_i other
        rw [switch, if_neg (by simpa using other), ih none]

theorem setEnabled_entries (scheduler : Scheduler) (id : Uuid) (enabled : Bool) :
    ((scheduler.setEnabled id enabled).toOption.getD scheduler).entries =
      switch id enabled scheduler.entries := by
  unfold setEnabled
  cases found : scheduler.entry? id with
  | none => exact (switch_of_none found enabled).symm
  | some entry => rfl

theorem mem_switch {entries : List ScheduleEntry} {id : Uuid} {enabled : Bool}
    {entry : ScheduleEntry} (member : entry ∈ switch id enabled entries) :
    ∃ old ∈ entries, entry = { old with enabled := entry.enabled } := by
  induction entries with
  | nil => contradiction
  | cons first rest ih =>
      rw [switch] at member
      split at member
      · rcases List.mem_cons.mp member with rfl | old
        · exact ⟨first, List.mem_cons_self, rfl⟩
        · exact ⟨entry, List.mem_cons_of_mem _ old, rfl⟩
      · rcases List.mem_cons.mp member with rfl | later
        · exact ⟨entry, List.mem_cons_self, rfl⟩
        · obtain ⟨old, inside, same⟩ := ih later
          exact ⟨old, List.mem_cons_of_mem _ inside, same⟩

theorem pending_switch (entries : List ScheduleEntry) (other : Uuid) (enabled : Bool)
    (id : Uuid) : pending (switch other enabled entries) id = pending entries id := by
  induction entries with
  | nil => rfl
  | cons entry rest ih =>
      rw [switch]
      split
      · rw [pending_cons, pending_cons]
      · rw [pending_cons, pending_cons, ih]

theorem remove?_sublist (scheduler : Scheduler) (id : Uuid) :
    ((scheduler.remove? id).elim scheduler (·.2)).entries.Sublist scheduler.entries := by
  unfold remove?
  cases scheduler.entry? id with
  | none => exact List.Sublist.refl _
  | some entry => exact List.eraseP_sublist

end Scheduler

/-- A scheduler at work, and the station that its ticks work on. -/
structure Watch where
  scheduler : Scheduler
  station : Station

namespace Watch

/-- What can be done to a scheduler at work. -/
inductive Act where
  | add (entry : ScheduleEntry)
  | remove (id : Uuid)
  | setEnabled (id : Uuid) (enabled : Bool)
  | tick (now : Instant)

def Act.added? : Act → Option ScheduleEntry
  | .add entry => some entry
  | _ => none

/-- One act: how things stood before it, what it fired and how they stand after it. -/
structure Turn where
  before : Watch
  act : Act
  fired : List Firing
  after : Watch

/-- Does what an act says.  Entries that there are not are not removed, switched on or
switched off. -/
def perform (engine : Engine) (watch : Watch) : Act → Watch × List Firing
  | .add entry => (⟨watch.scheduler.add entry, watch.station⟩, [])
  | .remove id => (⟨(watch.scheduler.remove? id).elim watch.scheduler (·.2), watch.station⟩, [])
  | .setEnabled id enabled =>
      (⟨(watch.scheduler.setEnabled id enabled).toOption.getD watch.scheduler, watch.station⟩, [])
  | .tick now =>
      let (scheduler, station, fired) := watch.scheduler.look engine now watch.station
      (⟨scheduler, station⟩, fired)

def turn (engine : Engine) (watch : Watch) (act : Act) : Turn :=
  ⟨watch, act, (watch.perform engine act).2, (watch.perform engine act).1⟩

/-- The turns of a sequence of acts, one for each of them. -/
def turns (engine : Engine) (watch : Watch) : List Act → List Turn
  | [] => []
  | act :: rest => watch.turn engine act :: turns engine (watch.perform engine act).1 rest

/-- How things stand after a sequence of acts. -/
def ending (engine : Engine) (watch : Watch) : List Act → Watch
  | [] => watch
  | act :: rest => ending engine (watch.perform engine act).1 rest

namespace Turn

def executions (turn : Turn) : List Execution :=
  turn.fired.filterMap (·.execution)

/-- A tick fires the entries that are due, each of them once and in their order, and moves
them on; the others it leaves as they are.  An entry whose graph cannot be loaded has no run.
The records of the runs are stored behind the others and found by their ids, and can be loaded
if their dates stand in the calendar. -/
structure Ticks (engine : Engine) (turn : Turn) (now : Instant) : Prop where
  fired : turn.fired.map (·.entry) = turn.before.scheduler.entries.filter fun entry =>
    entry.enabled && entry.nextRun.any fun time => time.le now
  entries : turn.after.scheduler.entries = turn.before.scheduler.entries.map fun entry =>
    if entry.isDue now then entry.advance now else entry
  runs : ∀ firing ∈ turn.fired, firing.Answers engine turn.before.station.storage
  returned : (turn.before.scheduler.tick engine now turn.before.station).2.2 = turn.executions
  stored : turn.after.station.storage.executions =
    turn.before.station.storage.executions ++ turn.executions.map (·.row)
  graphs : turn.after.station.storage.graphs = turn.before.station.storage.graphs
  subflows : turn.after.station.storage.subflows = turn.before.station.storage.subflows
  found : ∀ execution ∈ turn.executions,
    turn.after.station.storage.execution? execution.id = some execution.row
  loads : turn.before.station.world.KeepsCalendar turn.after.station.world →
    ∀ execution ∈ turn.executions,
      turn.after.station.storage.loadExecution execution.id = .ok execution

end Turn

variable {engine : Engine} {watch : Watch}

@[simp] theorem turns_nil (engine : Engine) (watch : Watch) : watch.turns engine [] = [] :=
  rfl

@[simp] theorem turns_cons (engine : Engine) (watch : Watch) (act : Act) (rest : List Act) :
    watch.turns engine (act :: rest) =
      watch.turn engine act :: (watch.perform engine act).1.turns engine rest :=
  rfl

/-- What an act does to the station. -/
theorem perform_books (engine : Engine) (watch : Watch) (act : Act) :
    watch.station.Books ((watch.perform engine act).2.filterMap (·.execution))
      (watch.perform engine act).1.station := by
  cases act with
  | add | remove | setEnabled => exact .nothing watch.station
  | tick now => exact (Scheduler.fireDue_looks engine now watch.station _).books

/-- A sequence of acts is booked before each of its turns, in it and after it. -/
theorem turns_books (engine : Engine) (watch : Watch) (acts : List Act) :
    (∃ executions, watch.station.Books executions (watch.ending engine acts).station) ∧
      ∀ turn ∈ watch.turns engine acts,
        turn = turn.before.turn engine turn.act ∧
        (∃ executions, watch.station.Books executions turn.before.station) ∧
        ∃ executions, turn.after.station.Books executions (watch.ending engine acts).station := by
  induction acts generalizing watch with
  | nil => exact ⟨⟨[], .nothing watch.station⟩, by simp⟩
  | cons act rest ih =>
      obtain ⟨⟨later, goesOn⟩, turns⟩ := ih (watch.perform engine act).1
      have here := perform_books engine watch act
      refine ⟨⟨_, here.andThen goesOn⟩, List.forall_mem_cons.mpr ⟨?_, fun turn member => ?_⟩⟩
      · exact ⟨rfl, ⟨[], .nothing watch.station⟩, later, goesOn⟩
      · obtain ⟨performed, ⟨earlier, before⟩, after⟩ := turns turn member
        exact ⟨performed, ⟨_, here.andThen before⟩, after⟩

/-- A tick does what it should while identifiers are new. -/
theorem turn_ticks (engine : Engine) (watch : Watch) (now : Instant)
    (clear : watch.station.Clear (watch.perform engine (.tick now)).1.station.world) :
    (watch.turn engine (.tick now)).Ticks engine now := by
  have looks := Scheduler.fireDue_looks engine now watch.station watch.scheduler.entries
  exact
    { fired := looks.due
      entries := looks.left
      runs := looks.answers
      returned := rfl
      stored := looks.books.stored clear
      graphs := looks.books.graphs
      subflows := looks.books.subflows
      found := looks.books.found clear
      loads := by
        intro calendar execution member
        exact Storage.loadExecution_of_row (looks.books.found clear execution member)
          (looks.books.storable calendar execution member) }

/-- Where the entries after an act come from. -/
theorem perform_mem {act : Act} {entry : ScheduleEntry}
    (member : entry ∈ (watch.perform engine act).1.scheduler.entries) :
    act.added? = some entry ∨ ∃ old ∈ watch.scheduler.entries,
      entry.id = old.id ∧ entry.spec = old.spec := by
  cases act with
  | add new =>
      rcases List.mem_append.mp member with old | same
      · exact .inr ⟨entry, old, rfl, rfl⟩
      · exact .inl (congrArg some (List.mem_singleton.mp same).symm)
  | remove id =>
      exact .inr ⟨entry, (watch.scheduler.remove?_sublist id).subset member, rfl, rfl⟩
  | setEnabled id enabled =>
      have switched : entry ∈ Scheduler.switch id enabled watch.scheduler.entries :=
        watch.scheduler.setEnabled_entries id enabled ▸ member
      obtain ⟨old, inside, same⟩ := Scheduler.mem_switch switched
      exact .inr ⟨old, inside, by rw [same], by rw [same]⟩
  | tick now =>
      have looks := Scheduler.fireDue_looks engine now watch.station watch.scheduler.entries
      have left : entry ∈ watch.scheduler.entries.map (·.afterLook now) := looks.left ▸ member
      obtain ⟨old, inside, rfl⟩ := List.mem_map.mp left
      exact .inr ⟨old, inside, old.afterLook_id now, old.afterLook_spec now⟩

/-- An act uses up what it fires of the entries for one firing. -/
theorem perform_pending (engine : Engine) {id : Uuid} (act : Act)
    (once : ∀ entry ∈ watch.scheduler.entries, entry.id = id → entry.Once) :
    ((watch.perform engine act).2.filter fun firing => firing.entry.id = id).length +
        Scheduler.pending (watch.perform engine act).1.scheduler.entries id ≤
      Scheduler.pending watch.scheduler.entries id +
        act.added?.toList.countP fun entry => entry.id = id := by
  cases act with
  | add entry =>
      show 0 + Scheduler.pending (watch.scheduler.entries ++ [entry]) id ≤ _
      rw [Nat.zero_add, Scheduler.pending_append]
      exact Nat.add_le_add_left (Scheduler.pending_le [entry] id) _
  | remove other =>
      show 0 + _ ≤ _
      rw [Nat.zero_add]
      exact (watch.scheduler.remove?_sublist other).countP_le
  | setEnabled other enabled =>
      have same := Scheduler.pending_switch watch.scheduler.entries other enabled id
      rw [← watch.scheduler.setEnabled_entries] at same
      show 0 + _ ≤ _
      rw [Nat.zero_add]
      exact same.le
  | tick now =>
      have looks := Scheduler.fireDue_looks engine now watch.station watch.scheduler.entries
      have count := Scheduler.pending_afterLook once now
      rw [← looks.due, ← looks.left, List.countP_map, List.countP_eq_length_filter] at count
      exact count.le

/-- The firings of the entries with an id. -/
def firings (engine : Engine) (watch : Watch) (acts : List Act) (id : Uuid) : List Firing :=
  ((watch.turns engine acts).flatMap (·.fired)).filter fun firing => firing.entry.id = id

theorem firings_cons (engine : Engine) (watch : Watch) (act : Act) (rest : List Act) (id : Uuid) :
    watch.firings engine (act :: rest) id =
      ((watch.perform engine act).2.filter fun firing => firing.entry.id = id) ++
        (watch.perform engine act).1.firings engine rest id := by
  rw [firings, turns_cons, List.flatMap_cons, List.filter_append]
  rfl

/-- An entry for one firing fires no more than are pending under its id or are yet added. -/
theorem length_firings_le (engine : Engine) {id : Uuid} {acts : List Act}
    (once : ∀ entry ∈ watch.scheduler.entries, entry.id = id → entry.Once)
    (added : ∀ entry ∈ acts.filterMap Act.added?, entry.id = id → entry.Once) :
    (watch.firings engine acts id).length ≤ Scheduler.pending watch.scheduler.entries id +
      (acts.filterMap Act.added?).countP fun entry => entry.id = id := by
  induction acts generalizing watch with
  | nil => exact Nat.zero_le _
  | cons act rest ih =>
      have fired := perform_pending engine act once
      have kept : ∀ entry ∈ (watch.perform engine act).1.scheduler.entries,
          entry.id = id → entry.Once := by
        intro entry member same
        rcases perform_mem member with new | ⟨old, inside, sameId, sameSpec⟩
        · exact added entry (List.mem_filterMap.mpr ⟨act, List.mem_cons_self, new⟩) same
        · obtain ⟨time, given⟩ := once old inside (sameId.symm.trans same)
          exact ⟨time, sameSpec.trans given⟩
      have later := ih kept fun entry member => added entry (by
        simp only [List.mem_filterMap] at member ⊢
        obtain ⟨other, inside, given⟩ := member
        exact ⟨other, List.mem_cons_of_mem _ inside, given⟩)
      have adds : (act :: rest).filterMap Act.added? =
          act.added?.toList ++ rest.filterMap Act.added? := by
        cases act <;> rfl
      rw [firings_cons, List.length_append, adds, List.countP_append]
      omega

/-- Throughout a sequence of acts, each tick fires just the entries that are due, and an entry
for one firing fires in one tick at most, however often it is switched on again. -/
theorem ticks_fire_due (engine : Engine) {watch : Watch} {acts : List Act}
    (distinct : ((watch.scheduler.entries ++ acts.filterMap Act.added?).map (·.id)).Nodup)
    (clear : watch.station.Clear (watch.ending engine acts).station.world) :
    (∀ turn ∈ watch.turns engine acts, ∀ now, turn.act = .tick now → turn.Ticks engine now) ∧
      ∀ entry ∈ watch.scheduler.entries ++ acts.filterMap Act.added?, entry.Once →
        (watch.firings engine acts entry.id).length ≤ 1 := by
  constructor
  · rintro turn member now ticked
    obtain ⟨same, ⟨_, earlier⟩, _, later⟩ := (turns_books engine watch acts).2 turn member
    have here := perform_books engine turn.before turn.act
    rw [ticked] at same here
    rw [same] at later ⊢
    apply turn_ticks
    exact (earlier.clear (here.leads.trans later.leads) clear).first later.leads
  · intro entry member once
    -- Its id stands for no other entry, so one firing is pending or yet to come, but not both.
    have alone : ∀ other ∈ watch.scheduler.entries ++ acts.filterMap Act.added?,
        other.id = entry.id → other.Once := by
      intro other inside same
      exact List.inj_on_of_nodup_map distinct inside member same ▸ once
    have fires := length_firings_le engine
      (fun other inside => alone other (List.mem_append_left _ inside))
      fun other inside => alone other (List.mem_append_right _ inside)
    have pending := Scheduler.pending_le watch.scheduler.entries entry.id
    have single := List.nodup_iff_count_le_one.mp distinct entry.id
    rw [List.count, List.countP_map, List.countP_append] at single
    have named (entries : List ScheduleEntry) :
        entries.countP ((· == entry.id) ∘ (·.id)) =
          entries.countP fun other => other.id = entry.id := rfl
    rw [named, named] at single
    omega

/-- A graph with a trigger and nothing else is stored. -/
def alarmed : Watch where
  scheduler := .empty
  station :=
    { storage := Storage.empty.storeGraph
        ⟨.random 0, "alarm", [⟨"on", "manual-trigger", .trigger, "On", [], [], [], .idle, .origin⟩],
          []⟩ ⟨0, 0⟩
      world := .new ⟨0, 0⟩ ⟨10⟩ }

def idleEngine : Engine :=
  ⟨[], [], ⟨100, 3, 8⟩⟩

def alarm : ScheduleEntry :=
  ⟨.random 1, .random 0, .once ⟨60, 0⟩, true, none, some ⟨60, 0⟩⟩

/-- The entry for one firing of that graph is switched on again after it fired; another one is
for a graph that is not stored. -/
def alarms : List Act :=
  [ .add alarm, .add ⟨.random 2, .random 9, .interval 1 none, true, none, some ⟨90, 5⟩⟩,
    .tick ⟨120, 0⟩, .setEnabled alarm.id true, .tick ⟨150, 5⟩]

theorem ticks_of_alarms_fire_due :
    ((alarmed.scheduler.entries ++ alarms.filterMap Act.added?).map (·.id)).Nodup ∧
    alarmed.station.Clear (alarmed.ending idleEngine alarms).station.world ∧
    alarmed.station.world.KeepsCalendar (alarmed.ending idleEngine alarms).station.world ∧
    (alarmed.turns idleEngine alarms).map (fun turn => turn.fired.map (·.entry.id)) =
      [[], [], [.random 1, .random 2], [], [.random 2]] ∧
    (∀ turn ∈ alarmed.turns idleEngine alarms, ∀ now, turn.act = .tick now →
      turn.Ticks idleEngine now) ∧
    (alarmed.firings idleEngine alarms alarm.id).length ≤ 1 := by
  have distinct :
      ((alarmed.scheduler.entries ++ alarms.filterMap Act.added?).map (·.id)).Nodup := by
    decide +kernel
  have clear : alarmed.station.Clear (alarmed.ending idleEngine alarms).station.world := by
    refine ⟨by decide +kernel, fun row member => ?_⟩
    have none : alarmed.station.storage.executions = [] := rfl
    rw [none] at member
    cases member
  have calendar : alarmed.station.world.KeepsCalendar
      (alarmed.ending idleEngine alarms).station.world := by
    have still : (alarmed.ending idleEngine alarms).station.world.now = 0 := by
      decide +kernel
    rintro time ⟨millis, _, most, rfl⟩
    rw [still] at most
    obtain rfl := Nat.le_zero.mp most
    exact ⟨by decide +kernel, .inl (by decide +kernel)⟩
  have listed : alarm ∈ alarmed.scheduler.entries ++ alarms.filterMap Act.added? :=
    List.mem_append_right _ (List.mem_filterMap.mpr ⟨.add alarm, List.mem_cons_self, rfl⟩)
  obtain ⟨ticks, once⟩ := ticks_fire_due idleEngine distinct clear
  exact ⟨distinct, clear, calendar, by decide +kernel, ticks, once alarm listed ⟨_, rfl⟩⟩

end Watch

end Workflow
