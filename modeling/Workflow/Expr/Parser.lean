import Workflow.Expr
import Workflow.Expr.Token

/-! From tokens to expressions.

The grammar, from the loosest joint to the tightest:

    or      := and (("||" | "or") and)*
    and     := not (("&&" | "and") not)*
    not     := ("!" | "not") not | compare
    compare := sum (("==" | "!=" | "===" | "!==" | "<" | "<=" | ">" | ">=") sum)?
    sum     := product (("+" | "-") product)*
    product := unary (("*" | "/" | "%") unary)*
    unary   := ("-" | "!") unary | primary
    primary := number | text | "true" | "false" | "null" | "undefined" | path | "(" or ")"
    path    := name ("." name | "[" (number | text) "]")*

The roots `data` and `input` are the payload itself; any other root is a field
of the payload.  Parentheses and operators in front of their operand nest at
most `Expr.nestingLimit` deep, and the recursion follows that nesting.
-/

namespace Workflow.Expr

/-- A parser takes tokens from the front; the rest is what follows. -/
abbrev Parser (α : Type) := List Placed → Except Malformed (α × List Placed)

/-- Where the next token stands; `stop` is the end of the text. -/
def offsetOf (stop : Nat) : List Placed → Nat
  | [] => stop
  | next :: _ => next.offset

/-- Takes a token that should have been another one.  The position given is
the one behind it. -/
def refuse {α : Type} (stop : Nat) (fault : Option Token → Fault) : Parser α
  | [] => .error ⟨stop, fault none⟩
  | next :: rest => .error ⟨offsetOf stop rest, fault (some next.token)⟩

/-- Largest index that a path can hold; greater ones are taken for it. -/
def largestIndex : Nat := 18446744073709551615

/-- The index that a number in brackets stands for. -/
def index? (x : Float) : Option Nat :=
  match Double.whole? x with
  | some value => if 0 ≤ value then some (min value.toNat largestIndex) else none
  | none => none

/-- The step that the token in brackets stands for. -/
def bracketed? : Token → Option Segment
  | .number value => (index? value).map .index
  | .text name => some (.field name)
  | _ => none

def steps (stop : Nat) : Parser (List Segment)
  | ⟨_, .dot⟩ :: ⟨_, .name field⟩ :: rest =>
      match steps stop rest with
      | .ok (segments, rest) => .ok (.field field :: segments, rest)
      | .error malformed => .error malformed
  | ⟨_, .dot⟩ :: rest => refuse stop .expectedFieldName rest
  | ⟨_, .openBracket⟩ :: key :: rest =>
      match bracketed? key.token with
      | none => refuse stop .expectedIndex (key :: rest)
      | some segment =>
          match rest with
          | ⟨_, .closeBracket⟩ :: rest =>
              match steps stop rest with
              | .ok (segments, rest) => .ok (segment :: segments, rest)
              | .error malformed => .error malformed
          | rest => refuse stop .expectedCloseBracket rest
  | ⟨_, .openBracket⟩ :: [] => refuse stop .expectedIndex []
  | rest => .ok ([], rest)

/-- Parsers that may be entered one level of nesting further down. -/
structure Deeper where
  or : Parser Expr
  not : Parser Expr
  unary : Parser Expr

/-- What a name stands for where an operand is expected. -/
inductive Root where
  | literal (value : Json)
  | path (segments : List Segment)

def Root.ofName (name : String) : Root :=
  if name = "true" then .literal (.bool true)
  else if name = "false" then .literal (.bool false)
  else if name = "null" ∨ name = "undefined" then .literal .null
  else if name = "data" ∨ name = "input" then .path []
  else .path [.field name]

def primary (stop : Nat) (deeper : Deeper) : Parser Expr
  | [] => .error ⟨stop, .unexpected none⟩
  | next :: rest =>
      match next.token with
      | .number value => .ok (.literal (numeral value), rest)
      | .text value => .ok (.literal (.string value), rest)
      | .name name =>
          match Root.ofName name with
          | .literal value => .ok (.literal value, rest)
          | .path start =>
              match steps stop rest with
              | .ok (segments, rest) => .ok (.path (start ++ segments), rest)
              | .error malformed => .error malformed
      | .openParen =>
          match deeper.or rest with
          | .ok (inner, ⟨_, .closeParen⟩ :: rest) => .ok (inner, rest)
          | .ok (_, rest) => refuse stop .expectedCloseParen rest
          | .error malformed => .error malformed
      | token => .error ⟨offsetOf stop rest, .unexpected (some token)⟩

/-- An operator in front of the operand that `operand` reads. -/
def prefixed (operator : Expr → Expr) (operand : Parser Expr) : Parser Expr := fun tokens =>
  match operand tokens with
  | .ok (inner, rest) => .ok (operator inner, rest)
  | .error malformed => .error malformed

def unary (stop : Nat) (deeper : Deeper) : Parser Expr := fun tokens =>
  match tokens with
  | ⟨_, .sign "-"⟩ :: rest => prefixed .negate deeper.unary rest
  | ⟨_, .sign "!"⟩ :: rest => prefixed .not deeper.unary rest
  | tokens => primary stop deeper tokens

abbrev Joint := Token → Option (Expr → Expr → Expr)

/-- Joins further operands to `left` as long as a joint follows.  A round takes
at least the joint, so the number of tokens is fuel enough. -/
def joinMore (operand : Parser Expr) (joint : Joint) :
    Nat → Expr → Parser Expr
  | 0, left, rest => .ok (left, rest)
  | _ + 1, left, [] => .ok (left, [])
  | fuel + 1, left, next :: rest =>
      match joint next.token with
      | none => .ok (left, next :: rest)
      | some join =>
          match operand rest with
          | .ok (right, rest) => joinMore operand joint fuel (join left right) rest
          | .error malformed => .error malformed

def joined (operand : Parser Expr) (joint : Joint) : Parser Expr := fun tokens =>
  match operand tokens with
  | .ok (left, rest) => joinMore operand joint rest.length left rest
  | .error malformed => .error malformed

def productJoint : Joint
  | .sign "*" => some (.binary .multiply)
  | .sign "/" => some (.binary .divide)
  | .sign "%" => some (.binary .remainder)
  | _ => none

def sumJoint : Joint
  | .sign "+" => some (.binary .add)
  | .sign "-" => some (.binary .subtract)
  | _ => none

def compareJoint : Joint
  | .sign "==" | .sign "===" => some (.binary .equal)
  | .sign "!=" | .sign "!==" => some (.binary .notEqual)
  | .sign "<" => some (.binary .less)
  | .sign "<=" => some (.binary .lessOrEqual)
  | .sign ">" => some (.binary .greater)
  | .sign ">=" => some (.binary .greaterOrEqual)
  | _ => none

def andJoint : Joint
  | .sign "&&" | .name "and" => some .and
  | _ => none

def orJoint : Joint
  | .sign "||" | .name "or" => some .or
  | _ => none

def product (stop : Nat) (deeper : Deeper) : Parser Expr :=
  joined (unary stop deeper) productJoint

def sum (stop : Nat) (deeper : Deeper) : Parser Expr :=
  joined (product stop deeper) sumJoint

def compare (stop : Nat) (deeper : Deeper) : Parser Expr := fun tokens =>
  match sum stop deeper tokens with
  | .error malformed => .error malformed
  | .ok (left, []) => .ok (left, [])
  | .ok (left, next :: rest) =>
      match compareJoint next.token with
      | none => .ok (left, next :: rest)
      | some join => prefixed (join left) (sum stop deeper) rest

def opensNot : Token → Bool
  | .sign "!" | .name "not" => true
  | _ => false

def notPhrase (stop : Nat) (deeper : Deeper) : Parser Expr := fun tokens =>
  match tokens with
  | [] => compare stop deeper []
  | next :: rest =>
      if opensNot next.token then prefixed .not deeper.not rest
      else compare stop deeper (next :: rest)

def andPhrase (stop : Nat) (deeper : Deeper) : Parser Expr :=
  joined (notPhrase stop deeper) andJoint

def orPhrase (stop : Nat) (deeper : Deeper) : Parser Expr :=
  joined (andPhrase stop deeper) orJoint

/-- The parsers that may still nest `levels` deep; the last level refuses. -/
def deeper (stop : Nat) : (levels : Nat) → Deeper
  | 0 =>
      let tooDeep : Parser Expr := fun tokens =>
        .error ⟨offsetOf stop tokens, .nestedTooDeep⟩
      ⟨tooDeep, tooDeep, tooDeep⟩
  | levels + 1 =>
      let next := deeper stop levels
      ⟨orPhrase stop next, notPhrase stop next, unary stop next⟩

def ofTokens (stop : Nat) (tokens : List Placed) : Except Malformed Expr :=
  match orPhrase stop (deeper stop nestingLimit) tokens with
  | .ok (expr, []) => .ok expr
  | .ok (_, next :: _) => .error ⟨next.offset, .unexpected (some next.token)⟩
  | .error malformed => .error malformed

def parse (source : String) : Except Malformed Expr :=
  let text := source.toList
  match Token.scan text with
  | .ok tokens => ofTokens text.length tokens
  | .error malformed => .error malformed

end Workflow.Expr
