import Workflow.Document.Execution
import Workflow.Schedule

/-! Schedules as payload values.  The field `type` tells the two kinds of
schedule apart. -/

namespace Workflow

namespace ScheduleSpec

def toJson : ScheduleSpec → Json
  | .once time => .object [("type", .string "once"), ("at", time.toJson)]
  | .interval minutes startAt =>
      .object
        [ ("type", .string "interval"), ("every_minutes", .nat minutes),
          ("start_at", Json.ofOption Instant.toJson startAt)]

def minutesBound : Nat := 1 <<< 32

/-- Reads the fields of the schedule that `type` names. -/
def ofTagged? (type : String) (fields : Json) : Option ScheduleSpec :=
  if type = "once" then do
    let record ← Record.ofJson? ["at"] fields
    return .once (← record.required "at" Instant.ofJson?)
  else if type = "interval" then do
    let record ← Record.ofJson? ["every_minutes", "start_at"] fields
    return .interval (← record.required "every_minutes" (Json.below? minutesBound))
      (← record.nullable "start_at" Instant.ofJson?)
  else none

/-- In an array the type comes first and the other fields follow. -/
def ofJson? : Json → Option ScheduleSpec
  | .object fields =>
      (Fields.get? fields "type").bind fun type =>
        type.string?.bind fun type => ofTagged? type (.object fields)
  | .array (type :: rest) => type.string?.bind fun type => ofTagged? type (.array rest)
  | _ => none

end ScheduleSpec

namespace ScheduleEntry

def toJson (entry : ScheduleEntry) : Json :=
  .object
    [ ("id", entry.id.toJson), ("graph_id", entry.graphId.toJson),
      ("spec", entry.spec.toJson), ("enabled", .bool entry.enabled),
      ("last_run", Json.ofOption Instant.toJson entry.lastRun),
      ("next_run", Json.ofOption Instant.toJson entry.nextRun)]

def ofJson? (value : Json) : Option ScheduleEntry := do
  let record ← Record.ofJson? ["id", "graph_id", "spec", "enabled", "last_run", "next_run"] value
  return {
    id := ← record.required "id" Uuid.ofJson?
    graphId := ← record.required "graph_id" Uuid.ofJson?
    spec := ← record.required "spec" ScheduleSpec.ofJson?
    enabled := ← record.required "enabled" Json.bool?
    lastRun := ← record.optional "last_run" Instant.ofJson?
    nextRun := ← record.optional "next_run" Instant.ofJson? }

end ScheduleEntry

end Workflow
