import Workflow.Delegate
import Workflow.Expr.Eval

/-! The delegates that need nothing from outside. -/

namespace Workflow.Delegate

/-- The fields of a payload to which others are added.  A value that is no
object becomes the field `value`; null becomes no field. -/
def wrap : Json → Fields Json
  | .object fields => fields
  | .null => []
  | value => [("value", value)]

/-- Adds the configured `values` to the payload. -/
def setFields (node : Node) (input : Json) : Except DelegateError Json :=
  match Fields.get? node.config "values" with
  | none => .ok (.object (wrap input))
  | some (.object values) => .ok (.object (Fields.merge (wrap input) values))
  | some other => .error (.invalidConfig s!"`values` must be an object, got {other.render}")

def countLimit : Int := 0x8000000000000000

/-- A sum as a payload value: an integer when it is whole and small. -/
def countOf (sum : Float) : Json :=
  match Double.whole? sum with
  | some value => if value.natAbs < countLimit then .int value else .ofFloat sum
  | none => .ofFloat sum

/-- Adds `by`, or one, to a field of the payload; a missing field counts as
zero. -/
def counter (node : Node) (input : Json) : Except DelegateError Json := do
  let field := (node.configText? "field").getD "count"
  let step ← match Fields.get? node.config "by" with
    | none => .ok 1.0
    | some value =>
        match value.toFloat? with
        | some step => .ok step
        | none => .error (.invalidConfig s!"`by` must be a number, got {value.render}")
  let fields := wrap input
  let current ← match Fields.get? fields field with
    | none | some .null => .ok 0.0
    | some value =>
        match value.toFloat? with
        | some current => .ok current
        | none => .error (.fatal s!"field '{field}' is not a number: {value.render}")
  return .object (Fields.insert field (countOf (current + step)) fields)

def passOn (_ : Node) (input : Json) : Except DelegateError Json :=
  .ok input

def builtins : List (String × (Node → Json → Except DelegateError Json)) :=
  [("set-fields", setFields), ("counter", counter), ("log", passOn)]

def builtin? (template : String) : Option (Node → Json → Except DelegateError Json) :=
  builtins.lookup template

def builtinRegistry : Registry :=
  Fields.ofList (builtins.map fun (template, respond) => (template, prompt respond))

end Workflow.Delegate
