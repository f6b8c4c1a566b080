import Workflow.Limits
import Workflow.Toml.Reader

/-! The settings of an engine, read from a TOML text.

Sections and keys that are left out have defaults, and those that are not known
do not matter.
-/

namespace Workflow

structure Settings where
  nodeTimeoutSeconds : Nat
  maxDepth : Nat
  maxWhileIterations : Nat
  eventCapacity : Nat
  tickSeconds : Nat
  logFilter : String
deriving DecidableEq, Repr

inductive SettingsError where
  | unreadable (path reason : String)
  | malformed
  | noTick
deriving DecidableEq, Repr

def SettingsError.message : SettingsError → String
  | .unreadable path reason => s!"config error: cannot read {path}: {reason}"
  | .malformed => "config error: the settings are malformed"
  | .noTick => "config error: scheduler.tick_secs must be positive"

namespace Settings

def standard : Settings :=
  { nodeTimeoutSeconds := 30
    maxDepth := 64
    maxWhileIterations := 100
    eventCapacity := 256
    tickSeconds := 60
    logFilter := "info" }

def limits (settings : Settings) : Limits :=
  ⟨settings.nodeTimeoutSeconds * 1000, settings.maxDepth, settings.maxWhileIterations⟩

/-- The keys of a section that are known, with their values.  A section may also
be an array of its values in declared order; a date has no keys. -/
def entries? (names : List String) : Toml → Option (Fields Toml)
  | .table fields => some fields
  | .array items => some (names.zip items)
  | .date _ => some []
  | _ => none

def count? : Toml → Option Nat
  | .integer value => if 0 ≤ value then some value.toNat else none
  | _ => none

def text? : Toml → Option String
  | .string value => some value
  | _ => none

def keyOr {α : Type} (read : Toml → Option α) (entries : Fields Toml) (name : String)
    (default : α) : Option α :=
  match Fields.get? entries name with
  | some value => read value
  | none => some default

def ofTable? (sections : Fields Toml) : Option Settings := do
  let part (name : String) (names : List String) : Option (Fields Toml) :=
    keyOr (entries? names) sections name []
  let executor ← part "executor"
    ["node_timeout_secs", "max_depth", "max_while_iterations", "event_capacity"]
  let scheduler ← part "scheduler" ["tick_secs"]
  let log ← part "log" ["filter"]
  return {
    nodeTimeoutSeconds := ←
      keyOr count? executor "node_timeout_secs" standard.nodeTimeoutSeconds
    maxDepth := ← keyOr count? executor "max_depth" standard.maxDepth
    maxWhileIterations := ←
      keyOr count? executor "max_while_iterations" standard.maxWhileIterations
    eventCapacity := ← keyOr count? executor "event_capacity" standard.eventCapacity
    tickSeconds := ← keyOr count? scheduler "tick_secs" standard.tickSeconds
    logFilter := ← keyOr text? log "filter" standard.logFilter }

/-- Reads settings.  Ticks have to be some time apart. -/
def ofText (text : String) : Except SettingsError Settings :=
  match (Toml.parse text).bind ofTable? with
  | none => .error .malformed
  | some settings => if settings.tickSeconds = 0 then .error .noTick else .ok settings

end Settings

end Workflow
