import Workflow.Proofs.Naming
import Workflow.Proofs.Persistence
import Workflow.Scheduler

/-! Looking at scheduled entries.

A look fires the entries that are due, one after another (`Scheduler.fireDue_looks`).
What that does to a station is said by `Station.Books`: as long as identifiers are
new, each record has a row of its own behind those that were there, and books of one
stretch of time can be put behind those of another.
-/

namespace Workflow

namespace ScheduleEntry

/-- An entry after a look at it. -/
def afterLook (entry : ScheduleEntry) (now : Instant) : ScheduleEntry :=
  if entry.isDue now then entry.advance now else entry

theorem isDue_iff {entry : ScheduleEntry} {now : Instant} :
    entry.isDue now = true ↔
      entry.enabled = true ∧ ∃ time, entry.nextRun = some time ∧ time.le now = true := by
  cases next : entry.nextRun <;> simp [isDue, next]

@[simp] theorem advance_id (entry : ScheduleEntry) (now : Instant) :
    (entry.advance now).id = entry.id := by
  unfold advance
  split <;> rfl

@[simp] theorem advance_spec (entry : ScheduleEntry) (now : Instant) :
    (entry.advance now).spec = entry.spec := by
  unfold advance
  split <;> rfl

@[simp] theorem afterLook_id (entry : ScheduleEntry) (now : Instant) :
    (entry.afterLook now).id = entry.id := by
  unfold afterLook
  split <;> simp

@[simp] theorem afterLook_spec (entry : ScheduleEntry) (now : Instant) :
    (entry.afterLook now).spec = entry.spec := by
  unfold afterLook
  split <;> simp

end ScheduleEntry

namespace World

variable {before middle after : World}

/-- What was given first is not given again while 122 bits suffice. -/
theorem Gives.not_again {id : Uuid} (short : after.ids.next ≤ before.ids.next + 2 ^ 122)
    (given : before.Gives middle id) : ¬ middle.Gives after id := by
  obtain ⟨number, least, most, rfl⟩ := given
  rintro ⟨other, later, last, same⟩
  exact Uuid.random_ne (by omega) (by omega) same

end World

namespace Station

/-- The identifiers that the supply gives out until a later world are new: it does not
repeat itself, and no record has one of them. -/
structure Clear (station : Station) (later : World) : Prop where
  short : later.ids.next ≤ station.world.ids.next + 2 ^ 122
  unused : ∀ row ∈ station.storage.executions, ¬ station.world.Gives later row.id

/-- How records of runs are entered at a station. -/
structure Books (before : Station) (executions : List Execution) (after : Station) : Prop where
  leads : before.world.Leads after.world
  graphs : after.storage.graphs = before.storage.graphs
  subflows : after.storage.subflows = before.storage.subflows
  given : ∀ execution ∈ executions, before.world.Gives after.world execution.id
  others : ∀ id, ¬ before.world.Gives after.world id →
    after.storage.execution? id = before.storage.execution? id
  stored : before.Clear after.world →
    after.storage.executions = before.storage.executions ++ executions.map (·.row)
  found : before.Clear after.world →
    ∀ execution ∈ executions, after.storage.execution? execution.id = some execution.row
  storable : before.world.KeepsCalendar after.world →
    ∀ execution ∈ executions, execution.Storable

theorem Clear.first {station : Station} {middle later : World} (clear : station.Clear later)
    (goesOn : middle.Leads later) : station.Clear middle where
  short := Nat.le_trans goesOn.supply clear.short
  unused row member given := clear.unused row member (given.mono (.refl _) goesOn)

namespace Books

variable {before middle after : Station} {first second : List Execution}

theorem nothing (station : Station) : station.Books [] station where
  leads := .refl _
  graphs := rfl
  subflows := rfl
  given := nofun
  others _ _ := rfl
  stored _ := by simp
  found _ := nofun
  storable _ := nofun

theorem clear (books : before.Books first middle) {later : World}
    (goesOn : middle.world.Leads later) (clear : before.Clear later) : middle.Clear later where
  short := Nat.le_trans clear.short (Nat.add_le_add_right books.leads.supply _)
  unused row member given := by
    rw [books.stored (clear.first goesOn)] at member
    rcases List.mem_append.mp member with old | new
    · exact clear.unused row old (given.mono books.leads (.refl _))
    · obtain ⟨execution, inside, rfl⟩ := List.mem_map.mp new
      exact (books.given execution inside).not_again clear.short given

theorem andThen (earlier : before.Books first middle) (later : middle.Books second after) :
    before.Books (first ++ second) after where
  leads := earlier.leads.trans later.leads
  graphs := later.graphs.trans earlier.graphs
  subflows := later.subflows.trans earlier.subflows
  given execution member := by
    rcases List.mem_append.mp member with inside | inside
    · exact (earlier.given execution inside).mono (.refl _) later.leads
    · exact (later.given execution inside).mono earlier.leads (.refl _)
  others id new := by
    rw [later.others id fun given => new (given.mono earlier.leads (.refl _)),
      earlier.others id fun given => new (given.mono (.refl _) later.leads)]
  stored clear := by
    rw [later.stored (earlier.clear later.leads clear), earlier.stored (clear.first later.leads),
      List.map_append, List.append_assoc]
  found clear execution member := by
    rcases List.mem_append.mp member with inside | inside
    · have kept := (earlier.given execution inside).not_again clear.short
      rw [later.others execution.id kept]
      exact earlier.found (clear.first later.leads) execution inside
    · exact later.found (earlier.clear later.leads clear) execution inside
  storable calendar execution member := by
    rcases List.mem_append.mp member with inside | inside
    · exact earlier.storable (calendar.part (.refl _) later.leads) execution inside
    · exact later.storable (calendar.part earlier.leads (.refl _)) execution inside

/-- A run enters its record. -/
theorem run (station : Station) (engine : Engine) (graph : Graph) (input : Json) (entry : Entry) :
    station.Books [(engine.run graph input entry station.world).2]
      ⟨station.storage.storeExecution (engine.run graph input entry station.world).2,
        (engine.run graph input entry station.world).1⟩ := by
  obtain ⟨stamps, passes, sound, stamped⟩ := engine.run_stamped graph input entry station.world
  have given := passes.ids _ stamped.id
  generalize engine.run graph input entry station.world = result at passes stamped given
  obtain ⟨world, execution⟩ := result
  exact
    { leads := passes.toLeads
      graphs := rfl
      subflows := rfl
      given := by simpa using given
      others := by
        intro id new
        exact Storage.execution?_insertExecution_ne _ fun same => new (same ▸ given)
      stored := by
        intro clear
        have others : station.storage.executions.filter (fun row => row.id ≠ execution.id) =
            station.storage.executions := by
          refine List.filter_eq_self.mpr fun row member => ?_
          exact decide_eq_true fun same => clear.unused row member (same ▸ given)
        exact congrArg (· ++ [execution.row]) others
      found := by
        intro _ other member
        obtain rfl := List.mem_singleton.mp member
        exact station.storage.execution?_insertExecution other.row
      storable := by
        intro calendar other member
        obtain rfl := List.mem_singleton.mp member
        exact stamped.storable passes calendar }

end Books

end Station

namespace Firing

/-- The run of a firing is one of the graph that the tables have for its entry, if they have
one that can be loaded, and otherwise there is none. -/
def Answers (engine : Engine) (storage : Storage) (firing : Firing) : Prop :=
  match storage.loadGraph firing.entry.graphId with
  | .error _ => firing.execution = none
  | .ok graph => ∃ world, firing.execution = some (engine.run graph .empty .triggers world).2

theorem Answers.congr {engine : Engine} {before after : Storage} {firing : Firing}
    (answers : firing.Answers engine after) (graphs : after.graphs = before.graphs) :
    firing.Answers engine before := by
  have same : after.loadGraph firing.entry.graphId = before.loadGraph firing.entry.graphId := by
    simp only [Storage.loadGraph, Storage.graph, Storage.graph?, graphs]
  rwa [Answers, same] at answers

end Firing

namespace Scheduler

variable {engine : Engine} {station : Station} {entry : ScheduleEntry}

theorem fire_missing {error : LoadError}
    (missing : station.storage.loadGraph entry.graphId = .error error) :
    fire engine station entry = (station, ⟨entry, none⟩) := by
  rw [fire, missing]

theorem fire_loaded {graph : Graph}
    (loaded : station.storage.loadGraph entry.graphId = .ok graph) :
    fire engine station entry =
      (⟨station.storage.storeExecution (engine.run graph .empty .triggers station.world).2,
        (engine.run graph .empty .triggers station.world).1⟩,
        ⟨entry, some (engine.run graph .empty .triggers station.world).2⟩) := by
  rw [fire, loaded]

theorem fire_books (engine : Engine) (station : Station) (entry : ScheduleEntry) :
    (fire engine station entry).2.entry = entry ∧
      (fire engine station entry).2.Answers engine station.storage ∧
      station.Books (fire engine station entry).2.execution.toList
        (fire engine station entry).1 := by
  cases found : station.storage.loadGraph entry.graphId with
  | error error =>
      rw [fire_missing found]
      refine ⟨rfl, ?_, .nothing station⟩
      rw [Firing.Answers, found]
  | ok graph =>
      rw [fire_loaded found]
      refine ⟨rfl, ?_, .run station engine graph .empty .triggers⟩
      rw [Firing.Answers, found]
      exact ⟨station.world, rfl⟩

/-- What a look at a list of entries comes to. -/
structure Looks (engine : Engine) (now : Instant) (station : Station)
    (entries : List ScheduleEntry) (after : Station) (left : List ScheduleEntry)
    (fired : List Firing) : Prop where
  due : fired.map (·.entry) = entries.filter (·.isDue now)
  left : left = entries.map (·.afterLook now)
  answers : ∀ firing ∈ fired, firing.Answers engine station.storage
  books : station.Books (fired.filterMap (·.execution)) after

theorem fireDue_looks (engine : Engine) (now : Instant) (station : Station)
    (entries : List ScheduleEntry) :
    Looks engine now station entries (fireDue engine now station entries).1
      (fireDue engine now station entries).2.1 (fireDue engine now station entries).2.2 := by
  induction entries generalizing station with
  | nil =>
      unfold fireDue
      exact ⟨rfl, rfl, by simp, .nothing station⟩
  | cons entry rest ih =>
      by_cases due : entry.isDue now
      · obtain ⟨same, answered, booked⟩ := fire_books engine station entry
        have later := ih (fire engine station entry).1
        rw [fireDue, if_pos due]
        dsimp only
        refine ⟨?_, ?_, ?_, ?_⟩
        · rw [List.map_cons, same, later.due, List.filter_cons, if_pos due]
        · rw [List.map_cons, ← later.left, ScheduleEntry.afterLook, if_pos due]
        · -- Firing the first entry stored a record but left the graphs as they were.
          refine List.forall_mem_cons.mpr ⟨answered, fun firing member => ?_⟩
          exact (later.answers firing member).congr booked.graphs
        · have both := booked.andThen later.books
          cases given : (fire engine station entry).2.execution <;>
            simpa [List.filterMap_cons, given] using both
      · have later := ih station
        rw [fireDue, if_neg due]
        dsimp only
        refine ⟨?_, ?_, later.answers, later.books⟩
        · rw [later.due, List.filter_cons, if_neg due]
        · rw [List.map_cons, ← later.left, ScheduleEntry.afterLook, if_neg due]

end Scheduler

end Workflow
