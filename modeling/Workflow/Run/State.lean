import Workflow.Delegate
import Workflow.Resumption
import Workflow.Run.Event

/-! The state of a run.

The surroundings of a run are shared with the runs nested in it: the clock, the
supply of identifiers, the trace of events, the calls of delegates and the
records of the runs that are over.  Its record and the payloads it ended on are
its own.
-/

namespace Workflow

/-- The record of a run that is over, and the path at which the run began. -/
structure Finished where
  path : Path
  execution : Execution

/-- `now` counts milliseconds since `epoch`. -/
structure World where
  epoch : Instant
  now : Nat
  ids : Ids
  trace : List Traced
  calls : List Call
  finished : List Finished

namespace World

def new (epoch : Instant) (ids : Ids) : World :=
  ⟨epoch, 0, ids, [], [], []⟩

def instant (world : World) : Instant :=
  world.epoch.addMillis world.now

def publish (world : World) (path : Path) (event : Event) : World :=
  { world with trace := world.trace ++ [⟨path, event⟩] }

/-- Keeps the record of a run that is over. -/
def keep (world : World) (path : Path) (execution : Execution) : World :=
  { world with finished := world.finished ++ [⟨path, execution⟩] }

def freshId (world : World) : Uuid × World :=
  let (id, ids) := Ids.uuid world.ids
  (id, { world with ids })

/-- Lets the clock go on to a time; it never goes back. -/
def advance (world : World) (time : Nat) : World :=
  { world with now := max world.now time }

def events (world : World) : List Event :=
  world.trace.map (·.event)

end World

/-- A run's own part of the state: its record, and the node and payload of every
activation after which nothing was left to do. -/
structure Tally where
  execution : Execution
  terminal : List (String × Json)

/-- The state that the activities of one run share. -/
abbrev RunState := World × Tally

abbrev Running (α : Type) := Activity RunState α

namespace Running

def world : Running World :=
  (·.1) <$> Activity.get

def tally : Running Tally :=
  (·.2) <$> Activity.get

def record (f : Execution → Execution) : Running Unit :=
  Activity.modify fun (world, tally) =>
    (world, { tally with execution := f tally.execution })

/-- Sends an event that the record's run is the subject of. -/
def publish (path : Path) (event : (run : Uuid) → Event) : Running Unit :=
  Activity.modify fun (world, tally) =>
    (world.publish path (event tally.execution.id), tally)

def log (node : Option String) (level : LogLevel) (message : String) (data : Option Json) :
    Running Unit :=
  Activity.modify fun (world, tally) =>
    let (id, world) := world.freshId
    let entry : LogEntry :=
      ⟨id, tally.execution.id, node, world.instant, level, message, data⟩
    (world, { tally with execution := tally.execution.log entry })

/-- Notes that an activation ended with nothing left to do. -/
def endOn (node : String) (payload : Json) : Running Unit :=
  Activity.modify fun (world, tally) =>
    (world, { tally with terminal := tally.terminal ++ [(node, payload)] })

def noteCall (call : Call) : Running Unit :=
  Activity.modify fun (world, tally) =>
    ({ world with calls := world.calls ++ [call] }, tally)

/-- Sleeps for a time; for no time, not at all. -/
def sleep (millis : Nat) : Running Unit := do
  if millis = 0 then return ()
  else Activity.sleepUntil ((← world).now + millis)

end Running

end Workflow
