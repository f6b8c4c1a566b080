import Workflow.Instant
import Workflow.Uuid

/-! When stored graphs run.

An entry fires once at a given time, or again and again in whole minutes.  The
firing times of an interval lie on a grid: an entry that was late skips the grid
points it missed and waits for the next one.
-/

namespace Workflow

inductive ScheduleSpec where
  | once (time : Instant)
  | interval (everyMinutes : Nat) (startAt : Option Instant)
deriving DecidableEq, Repr

structure ScheduleEntry where
  id : Uuid
  graphId : Uuid
  spec : ScheduleSpec
  enabled : Bool
  lastRun : Option Instant
  nextRun : Option Instant
deriving DecidableEq, Repr

inductive ScheduleError where
  | intervalTooShort
  | unknownEntry (id : Uuid)
deriving DecidableEq, Repr

def ScheduleError.message : ScheduleError → String
  | .intervalTooShort => "invalid schedule: interval must be at least one minute"
  | .unknownEntry id => s!"invalid schedule: no schedule entry {id.text}"

namespace ScheduleSpec

/-- The first firing of an entry that is made at `now`. -/
def firstRun (spec : ScheduleSpec) (now : Instant) : Except ScheduleError Instant :=
  match spec with
  | .once time => .ok time
  | .interval 0 _ => .error .intervalTooShort
  | .interval minutes startAt => .ok (startAt.getD (now.addSeconds (minutes * 60)))

end ScheduleSpec

namespace ScheduleEntry

def new (id graphId : Uuid) (spec : ScheduleSpec) (now : Instant) :
    Except ScheduleError ScheduleEntry :=
  (spec.firstRun now).map fun first => ⟨id, graphId, spec, true, none, some first⟩

def isDue (entry : ScheduleEntry) (now : Instant) : Bool :=
  entry.enabled && entry.nextRun.any fun time => time.le now

/-- The first point behind `now` of the grid through `next` with steps of the
given number of seconds; `next` itself if it lies behind `now`. -/
def nextOnGrid (next now : Instant) (step : Nat) : Instant :=
  if next.le now then
    let missed := (Instant.secondsBetween next now).toNat / step + 1
    next.addSeconds (missed * step)
  else next

/-- Notes a firing and sets the next one; an entry for one firing is done. -/
def advance (entry : ScheduleEntry) (now : Instant) : ScheduleEntry :=
  match entry.spec with
  | .once _ => { entry with lastRun := some now, enabled := false, nextRun := none }
  | .interval minutes _ =>
      { entry with
        lastRun := some now
        nextRun := some (nextOnGrid (entry.nextRun.getD now) now (max minutes 1 * 60)) }

end ScheduleEntry

end Workflow
