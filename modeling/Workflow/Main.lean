import Std.Time.DateTime.Timestamp
import Workflow.Console

/-! The program: the command line on real files, with the real clock. -/

namespace Workflow

/-- What the system says when it refuses a file. -/
def reasonOf : IO.Error → String
  | .noFileOrDirectory .. => "No such file or directory (os error 2)"
  | .permissionDenied .. => "Permission denied (os error 13)"
  | .inappropriateType .. => "Is a directory (os error 21)"
  | .userError _ => "stream did not contain valid UTF-8"
  | error => toString error

def systemConsole : Console IO where
  read file := do
    match ← (IO.FS.readFile file).toBaseIO with
    | .ok content => return .ok content
    | .error error => return .error (reasonOf error)
  write file content := do
    match ← (IO.FS.writeFile file content).toBaseIO with
    | .ok () => return .ok ()
    | .error error => return .error (reasonOf error)
  say := IO.println
  complain := IO.eprintln

def present : IO Instant := do
  let nanos := (← Std.Time.Timestamp.now).toNanosecondsSinceUnixEpoch.val
  return ⟨nanos / Instant.nanosPerSecond, (nanos % Instant.nanosPerSecond).toNat⟩

/-- A supply of identifiers that starts at a random one and leaves room behind
it. -/
def randomIds : IO Ids := do
  let bytes ← IO.getRandomBytes 15
  return ⟨bytes.toList.foldl (fun n byte => n * 256 + byte.toNat) 0⟩

partial def watch (engine : Engine) (scheduler : Scheduler) (station : Station)
    (tickSeconds : Nat) : IO Unit := do
  let now ← present
  let station := { station with world := { station.world with epoch := now, now := 0 } }
  let (scheduler, station, _) := scheduler.tick engine now station
  IO.sleep (tickSeconds * 1000).toUInt32
  watch engine scheduler station tickSeconds

end Workflow

def main (words : List String) : IO UInt32 := do
  match Workflow.CommandLine.parse words with
  | none =>
      for line in Workflow.CommandLine.usage do
        IO.eprintln line
      return 2
  | some invocation =>
      let world := Workflow.World.new (← Workflow.present) (← Workflow.randomIds)
      match ← Workflow.systemConsole.perform invocation world with
      | .code exit => return exit.toUInt32
      | .watch engine scheduler station tickSeconds =>
          Workflow.watch engine scheduler station tickSeconds
          return 0
