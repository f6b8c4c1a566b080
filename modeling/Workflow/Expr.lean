import Workflow.Json

/-! Expressions over a payload.

An expression reads fields of the payload, compares and calculates.  It holds
nothing that could run on its own, so a condition text from outside is safe to
evaluate.
-/

namespace Workflow

inductive Operator where
  | add
  | subtract
  | multiply
  | divide
  | remainder
  | equal
  | notEqual
  | less
  | lessOrEqual
  | greater
  | greaterOrEqual
deriving DecidableEq, Repr

inductive Segment where
  | field (name : String)
  | index (position : Nat)
deriving DecidableEq, Repr

inductive Expr where
  | literal (value : Json)
  | path (segments : List Segment)
  | not (operand : Expr)
  | negate (operand : Expr)
  | and (left right : Expr)
  | or (left right : Expr)
  | binary (operator : Operator) (left right : Expr)
deriving Repr, Inhabited

def Expr.wholeLimit : Int := 9000000000000000

/-- A double as expressions give it: an integer when it is whole and small, and
null when it is not finite. -/
def Expr.numeral (x : Float) : Json :=
  match Double.whole? x with
  | some value => if value.natAbs < wholeLimit then .int value else .ofFloat x
  | none => .ofFloat x

namespace Expr

def size : Expr → Nat
  | .literal _ | .path _ => 1
  | .not operand | .negate operand => operand.size + 1
  | .and left right | .or left right | .binary _ left right => left.size + right.size + 1

def segmentCount : Expr → Nat
  | .literal _ => 0
  | .path segments => segments.length
  | .not operand | .negate operand => operand.segmentCount
  | .and left right | .or left right | .binary _ left right =>
      left.segmentCount + right.segmentCount

/-- Nodes on the longest way from the root to a leaf. -/
def height : Expr → Nat
  | .literal _ | .path _ => 1
  | .not operand | .negate operand => operand.height + 1
  | .and left right | .or left right | .binary _ left right =>
      max left.height right.height + 1

end Expr

end Workflow
