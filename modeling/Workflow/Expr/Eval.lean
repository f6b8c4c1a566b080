import Workflow.Expr.Parser

/-! The value of an expression on a payload.

`&&` and `||` give booleans and leave their right side alone where the left
side decides.  Numbers are compared and combined as doubles.
-/

namespace Workflow.Expr

inductive Failure where
  | malformed (cause : Malformed)
  | mismatch (operation : String) (left right : Json)
  | divisionByZero

def Failure.message : Failure → String
  | .malformed cause => cause.message
  | .mismatch operation left right =>
      s!"type mismatch in '{operation}': cannot apply to {left.render} and {right.render}"
  | .divisionByZero => "division by zero"

/-- Null, `false`, zero and the empty text are false; everything else is
true. -/
def truthy : Json → Bool
  | .null => false
  | .bool value => value
  | .number value => !(value.toFloat == 0.0) && !value.toFloat.isNaN
  | .string value => !value.isEmpty
  | .array _ | .object _ => true

/-- The number of items of an array or of characters of a text. -/
def length? : Json → Option Nat
  | .array items => some items.length
  | .string text => some text.length
  | _ => none

/-- Follows a path; what is not there is null.  The length of an array or text
ends a path. -/
def lookup : List Segment → Json → Json
  | [], value => value
  | .field name :: rest, .object fields =>
      match Fields.get? fields name with
      | some value => lookup rest value
      | none => .null
  | .index position :: rest, .array items =>
      match items[position]? with
      | some value => lookup rest value
      | none => .null
  | .field name :: rest, value =>
      match length? value with
      | some length => if name = "length" ∧ rest = [] then .nat length else .null
      | none => .null
  | .index _ :: _, _ => .null

/-- Numbers are equal as doubles, so `1 == 1.0`; other values must be the
same. -/
def equal (left right : Json) : Bool :=
  match left.toFloat?, right.toFloat? with
  | some a, some b => a == b
  | _, _ => left.same right

/-- The order of two numbers or of two texts; other pairs have none. -/
def order? (left right : Json) : Option Ordering :=
  match left, right with
  | .number a, .number b =>
      let a := a.toFloat
      let b := b.toFloat
      if a < b then some .lt else if a == b then some .eq else if b < a then some .gt else none
  | .string a, .string b => some (if a < b then .lt else if a = b then .eq else .gt)
  | _, _ => none

def display : Json → String
  | .string text => text
  | value => value.render

/-- Calculates with two numbers; `symbol` names the operation in a mismatch. -/
def arithmetic (symbol : String) (left right : Json) (f : Float → Float → Except Failure Float) :
    Except Failure Json :=
  match left.toFloat?, right.toFloat? with
  | some a, some b => (f a b).map numeral
  | _, _ => .error (.mismatch symbol left right)

def add (left right : Json) : Except Failure Json :=
  match left, right with
  | .string a, b => .ok (.string (a ++ display b))
  | a, .string b => .ok (.string (display a ++ b))
  | _, _ => arithmetic "+" left right fun a b => .ok (a + b)

/-- Division and remainder have no value at a zero. -/
def nonZero (f : Float → Float → Float) (a b : Float) : Except Failure Float :=
  if b == 0.0 then .error .divisionByZero else .ok (f a b)

def apply (operator : Operator) (left right : Json) : Except Failure Json :=
  let ordered (holds : Ordering → Bool) : Except Failure Json :=
    .ok (.bool ((order? left right).any holds))
  match operator with
  | .equal => .ok (.bool (equal left right))
  | .notEqual => .ok (.bool (!equal left right))
  | .less => ordered Ordering.isLT
  | .lessOrEqual => ordered Ordering.isLE
  | .greater => ordered Ordering.isGT
  | .greaterOrEqual => ordered Ordering.isGE
  | .add => add left right
  | .subtract => arithmetic "-" left right fun a b => .ok (a - b)
  | .multiply => arithmetic "*" left right fun a b => .ok (a * b)
  | .divide => arithmetic "/" left right (nonZero (· / ·))
  | .remainder => arithmetic "%" left right (nonZero Double.remainder)

def evaluate (payload : Json) : Expr → Except Failure Json
  | .literal value => .ok value
  | .path segments => .ok (lookup segments payload)
  | .not operand =>
      match evaluate payload operand with
      | .ok value => .ok (.bool !truthy value)
      | .error failure => .error failure
  | .negate operand =>
      match evaluate payload operand with
      | .ok value =>
          match value.toFloat? with
          | some x => .ok (numeral (-x))
          | none => .error (.mismatch "-" value .null)
      | .error failure => .error failure
  | .and left right =>
      match evaluate payload left with
      | .ok value =>
          if truthy value then
            match evaluate payload right with
            | .ok value => .ok (.bool (truthy value))
            | .error failure => .error failure
          else .ok (.bool false)
      | .error failure => .error failure
  | .or left right =>
      match evaluate payload left with
      | .ok value =>
          if truthy value then .ok (.bool true)
          else
            match evaluate payload right with
            | .ok value => .ok (.bool (truthy value))
            | .error failure => .error failure
      | .error failure => .error failure
  | .binary operator left right =>
      match evaluate payload left with
      | .ok a =>
          match evaluate payload right with
          | .ok b => apply operator a b
          | .error failure => .error failure
      | .error failure => .error failure

def value (source : String) (payload : Json) : Except Failure Json :=
  match parse source with
  | .ok expr => evaluate payload expr
  | .error cause => .error (.malformed cause)

def holds (source : String) (payload : Json) : Except Failure Bool :=
  (value source payload).map truthy

end Workflow.Expr
