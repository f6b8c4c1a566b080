import Workflow.Double
import Workflow.Fields

/-! The values that flow along connections.

Integers and doubles are different numbers: `1` and `1.0` are not the same
value, although arithmetic treats both as the double one.  The fields of an
object are a `Fields` map, so a payload has one representation whatever order
its fields were given in.
-/

namespace Workflow

/-- A number of a payload.  Texts give integers between `-2 ^ 63` and
`2 ^ 64 - 1`; every other number is a finite double. -/
inductive Number where
  | int (value : Int)
  | float (value : Float)
deriving DecidableEq, Repr

namespace Number

def toFloat : Number → Float
  | .int value => Float.ofInt value
  | .float value => value

/-- Integers are the same when equal, doubles when they compare equal. -/
def same : Number → Number → Bool
  | .int a, .int b => a == b
  | .float a, .float b => a == b
  | _, _ => false

/-- The number when it is a whole one that is not negative. -/
def natural? : Number → Option Nat
  | .int value => if 0 ≤ value then some value.toNat else none
  | .float _ => none

end Number

inductive Json where
  | null
  | bool (value : Bool)
  | number (value : Number)
  | string (value : String)
  | array (items : List Json)
  | object (fields : List (String × Json))
deriving Repr, Inhabited

namespace Json

def empty : Json :=
  .object []

def int (value : Int) : Json :=
  .number (.int value)

def nat (value : Nat) : Json :=
  int value

/-- A double as a payload value; what is not finite has no payload form. -/
def ofFloat (value : Float) : Json :=
  if value.isFinite then .number (.float value) else .null

def strings (values : List String) : Json :=
  .array (values.map .string)

/-- The object of a list of entries, whatever their order. -/
def record (entries : List (String × Json)) : Json :=
  .object (Fields.ofList entries)

def toFloat? : Json → Option Float
  | .number value => some value.toFloat
  | _ => none

def natural? : Json → Option Nat
  | .number value => value.natural?
  | _ => none

def string? : Json → Option String
  | .string value => some value
  | _ => none

def bool? : Json → Option Bool
  | .bool value => some value
  | _ => none

def array? : Json → Option (List Json)
  | .array items => some items
  | _ => none

def object? : Json → Option (Fields Json)
  | .object fields => some fields
  | _ => none

/-- The field of an object; anything else has no fields. -/
def field? (value : Json) (name : String) : Option Json :=
  value.object?.bind fun fields => Fields.get? fields name

/-- The fields of an object; any other value contributes none. -/
def fields (value : Json) : Fields Json :=
  value.object?.getD []

mutual

/-- Sameness of payload values: numbers by `Number.same`, everything else part
by part. -/
def same : Json → Json → Bool
  | .null, .null => true
  | .bool a, .bool b => a == b
  | .number a, .number b => a.same b
  | .string a, .string b => a == b
  | .array as, .array bs => sameItems as bs
  | .object as, .object bs => sameFields as bs
  | _, _ => false

def sameItems : List Json → List Json → Bool
  | [], [] => true
  | a :: as, b :: bs => a.same b && sameItems as bs
  | _, _ => false

def sameFields : List (String × Json) → List (String × Json) → Bool
  | [], [] => true
  | (name, a) :: as, (other, b) :: bs => name == other && a.same b && sameFields as bs
  | _, _ => false

end

end Json

end Workflow
