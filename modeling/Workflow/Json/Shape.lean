import Workflow.Json.Printer
import Workflow.Json.Record
import Workflow.Text.Quoted

/-! Reading configured lists with an account of what is wrong with them. -/

namespace Workflow

inductive ShapeError where
  | wrongType (found : Json) (expected : String)
  | missingField (name : String)
  | tooShort (length : Nat) (expected : String)
  | tooLong (length : Nat)

namespace ShapeError

def describe : Json → String
  | .null => "null"
  | .bool value => s!"boolean `{value}`"
  | .number (.int value) => s!"integer `{value}`"
  | .number value => s!"floating point `{value.text}`"
  | .string value => s!"string {Text.quoted value}"
  | .array _ => "sequence"
  | .object _ => "map"

def message : ShapeError → String
  | .wrongType found expected => s!"invalid type: {describe found}, expected {expected}"
  | .missingField name => s!"missing field `{name}`"
  | .tooShort length expected => s!"invalid length {length}, expected {expected}"
  | .tooLong length => s!"invalid length {length}, expected fewer elements in array"

end ShapeError

namespace Json

/-- A record by the name of its type and the number of its fields. -/
def recordOf (type : String) (size : Nat) : String :=
  let plural := if size = 1 then "element" else "elements"
  s!"struct {type} with {size} {plural}"

def expectText (value : Json) : Except ShapeError String :=
  match value.string? with
  | some text => .ok text
  | none => .error (.wrongType value "a string")

/-- Reads every item of an array; the first that fails decides. -/
def expectList {α : Type} (read : Json → Except ShapeError α) (value : Json) :
    Except ShapeError (List α) :=
  match value with
  | .array items => items.mapM read
  | value => .error (.wrongType value "a sequence")

/-- A record by the name of its type and the readers of its fields.  The fields
of an object are looked at in the order of their keys, and then for those that
are missing; the fields of an array in their declared order. -/
def expectRecord {α : Type} (type : String) (readers : List (String × (Json → Except ShapeError α)))
    (value : Json) : Except ShapeError (List α) :=
  let size := readers.length
  match value with
  | .object fields => do
      for (name, value) in fields do
        match readers.lookup name with
        | some read => discard (read value)
        | none => pure ()
      readers.mapM fun (name, read) =>
        match Fields.get? fields name with
        | some value => read value
        | none => .error (.missingField name)
  | .array items => do
      let found ← (readers.zip items).mapM fun ((_, read), value) => read value
      if items.length < size then
        .error (.tooShort items.length (recordOf type size))
      else if size < items.length then .error (.tooLong items.length)
      else return found
  | value => .error (.wrongType value s!"struct {type}")

end Json

end Workflow
