import Workflow.Run
import Workflow.Schedule
import Workflow.Storage.Document

/-! Running stored graphs on a schedule.

A tick looks at every entry once, in the order in which entries were added, and
fires those that are due: the entry moves on to its next time, its graph is run
and the record of the run is stored.  An entry whose graph cannot be loaded moves
on as well, but nothing is run.
-/

namespace Workflow

structure Scheduler where
  entries : List ScheduleEntry
deriving Repr

/-- What ticks work on: where graphs and records lie, and the world that runs
happen in. -/
structure Station where
  storage : Storage
  world : World

/-- What came of an entry that was due: the entry as it was, and the record of the run
if there was one. -/
structure Firing where
  entry : ScheduleEntry
  execution : Option Execution
deriving Repr

namespace Scheduler

def empty : Scheduler :=
  ⟨[]⟩

def add (scheduler : Scheduler) (entry : ScheduleEntry) : Scheduler :=
  ⟨scheduler.entries ++ [entry]⟩

def entry? (scheduler : Scheduler) (id : Uuid) : Option ScheduleEntry :=
  scheduler.entries.find? fun entry => entry.id = id

/-- The entry with the given id, and the scheduler without it. -/
def remove? (scheduler : Scheduler) (id : Uuid) : Option (ScheduleEntry × Scheduler) :=
  (scheduler.entry? id).map fun entry =>
    (entry, ⟨scheduler.entries.eraseP fun entry => entry.id = id⟩)

/-- Switches the first entry with an id on or off. -/
def switch (id : Uuid) (enabled : Bool) : List ScheduleEntry → List ScheduleEntry
  | [] => []
  | entry :: rest =>
      if entry.id = id then { entry with enabled } :: rest else entry :: switch id enabled rest

def setEnabled (scheduler : Scheduler) (id : Uuid) (enabled : Bool) :
    Except ScheduleError Scheduler :=
  match scheduler.entry? id with
  | none => .error (.unknownEntry id)
  | some _ => .ok ⟨switch id enabled scheduler.entries⟩

/-- Runs the graph that an entry refers to and stores the record. -/
def fire (engine : Engine) (station : Station) (entry : ScheduleEntry) : Station × Firing :=
  match station.storage.loadGraph entry.graphId with
  | .error _ => (station, ⟨entry, none⟩)
  | .ok graph =>
      let (world, execution) := engine.run graph .empty .triggers station.world
      (⟨station.storage.storeExecution execution, world⟩, ⟨entry, some execution⟩)

/-- Fires the entries that are due, one after another. -/
def fireDue (engine : Engine) (now : Instant) :
    Station → List ScheduleEntry → Station × List ScheduleEntry × List Firing
  | station, [] => (station, [], [])
  | station, entry :: rest =>
      if entry.isDue now then
        let (station, fired) := fire engine station entry
        let (station, rest, others) := fireDue engine now station rest
        (station, entry.advance now :: rest, fired :: others)
      else
        let (station, rest, others) := fireDue engine now station rest
        (station, entry :: rest, others)

/-- One look at every entry.  Gives what came of those that fired. -/
def look (scheduler : Scheduler) (engine : Engine) (now : Instant) (station : Station) :
    Scheduler × Station × List Firing :=
  let (station, entries, fired) := fireDue engine now station scheduler.entries
  (⟨entries⟩, station, fired)

/-- One look at every entry.  Gives the records of the runs it started. -/
def tick (scheduler : Scheduler) (engine : Engine) (now : Instant) (station : Station) :
    Scheduler × Station × List Execution :=
  let (scheduler, station, fired) := scheduler.look engine now station
  (scheduler, station, fired.filterMap (·.execution))

/-- Ticks at the given times, and gives the records of all runs. -/
def tickAll (engine : Engine) :
    List Instant → Scheduler → Station → Scheduler × Station × List Execution
  | [], scheduler, station => (scheduler, station, [])
  | now :: times, scheduler, station =>
      let (scheduler, station, fired) := scheduler.tick engine now station
      let (scheduler, station, others) := tickAll engine times scheduler station
      (scheduler, station, fired ++ others)

end Scheduler

end Workflow
