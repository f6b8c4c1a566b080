import Workflow.Expr.Parser

/-! The grammar of expressions.

`Derivation` is a derivation of a list of tokens, as data: what it nests, the
expression that it stands for and whether there is another one can all be
asked.  A phrase that joins operands is one operand and `More` of them, each
behind a joint, and its expression joins them from left to right.
-/

namespace Workflow.Expr

/-- Phrases that join operands from left to right. -/
inductive Level where
  | or
  | and
  | sum
  | product

inductive Phrase where
  | joined (level : Level)
  | not
  | compare
  | unary
  | primary

def Level.operand : Level → Phrase
  | .or => .joined .and
  | .and => .not
  | .sum => .joined .product
  | .product => .unary

def Level.joints : Level → List (Token × (Expr → Expr → Expr))
  | .or => [(.sign "||", .or), (.name "or", .or)]
  | .and => [(.sign "&&", .and), (.name "and", .and)]
  | .sum => [(.sign "+", .binary .add), (.sign "-", .binary .subtract)]
  | .product =>
      [(.sign "*", .binary .multiply), (.sign "/", .binary .divide),
        (.sign "%", .binary .remainder)]

def comparisons : List (Token × Operator) :=
  [(.sign "==", .equal), (.sign "===", .equal), (.sign "!=", .notEqual), (.sign "!==", .notEqual),
    (.sign "<", .less), (.sign "<=", .lessOrEqual), (.sign ">", .greater),
    (.sign ">=", .greaterOrEqual)]

/-- What may stand in front of a phrase and make it one of the same kind. -/
def Phrase.prefixes : Phrase → List (Token × (Expr → Expr))
  | .not => [(.sign "!", .not), (.name "not", .not)]
  | .unary => [(.sign "-", .negate), (.sign "!", .not)]
  | .joined _ | .compare | .primary => []

def constants : List (String × Json) :=
  [("true", .bool true), ("false", .bool false), ("null", .null), ("undefined", .null)]

/-- Names of the payload itself. -/
def payloadNames : List String :=
  ["data", "input"]

/-- Any other name is one of a field of the payload. -/
inductive Rooted : String → List Segment → Prop
  | payload {name : String} (listed : name ∈ payloadNames) : Rooted name []
  | field {name : String} (constant : name ∉ constants.map (·.1)) (other : name ∉ payloadNames) :
      Rooted name [.field name]

/-- The index that a number stands for: it has to be whole and not negative, and
is cut at the largest one. -/
inductive Indexes : Float → Nat → Prop
  | whole {number : Float} {value : Int} (whole : Double.whole? number = some value)
      (positive : 0 ≤ value) : Indexes number (min value.toNat largestIndex)

inductive Steps : List Token → Type
  | done : Steps []
  | field (name : String) {tokens : List Token} (rest : Steps tokens) :
      Steps (.dot :: .name name :: tokens)
  | text (name : String) {tokens : List Token} (rest : Steps tokens) :
      Steps (.openBracket :: .text name :: .closeBracket :: tokens)
  | index (number : Float) (position : Nat) (indexes : Indexes number position)
      {tokens : List Token} (rest : Steps tokens) :
      Steps (.openBracket :: .number number :: .closeBracket :: tokens)

def Steps.segments {tokens : List Token} : Steps tokens → List Segment
  | .done => []
  | .field name rest | .text name rest => .field name :: rest.segments
  | .index _ position _ rest => .index position :: rest.segments

mutual

inductive Derivation : Phrase → List Token → Type
  | joined (level : Level) {tokens first rest : List Token} (split : tokens = first ++ rest)
      (operand : Derivation level.operand first) (more : More level rest) :
      Derivation (.joined level) tokens
  | prefixed (phrase : Phrase) (token : Token) (operator : Expr → Expr)
      (listed : (token, operator) ∈ phrase.prefixes) {tokens : List Token}
      (operand : Derivation phrase tokens) : Derivation phrase (token :: tokens)
  /-- What begins like a prefix is one. -/
  | bare {tokens : List Token}
      (bare : ∀ token ∈ tokens.head?, token ∉ Phrase.not.prefixes.map (·.1))
      (compare : Derivation .compare tokens) : Derivation .not tokens
  | single {tokens : List Token} (sum : Derivation (.joined .sum) tokens) :
      Derivation .compare tokens
  | compare (token : Token) (operator : Operator) (listed : (token, operator) ∈ comparisons)
      {tokens first last : List Token} (split : tokens = first ++ token :: last)
      (left : Derivation (.joined .sum) first) (right : Derivation (.joined .sum) last) :
      Derivation .compare tokens
  | primary {tokens : List Token} (primary : Derivation .primary tokens) :
      Derivation .unary tokens
  | number (value : Float) : Derivation .primary [.number value]
  | text (value : String) : Derivation .primary [.text value]
  | constant (name : String) (value : Json) (listed : (name, value) ∈ constants) :
      Derivation .primary [.name name]
  | path (name : String) (start : List Segment) (rooted : Rooted name start)
      {tokens : List Token} (steps : Steps tokens) : Derivation .primary (.name name :: tokens)
  | parens {tokens inside : List Token} (split : tokens = .openParen :: inside ++ [.closeParen])
      (inner : Derivation (.joined .or) inside) : Derivation .primary tokens

inductive More : Level → List Token → Type
  | done (level : Level) : More level []
  | joint (level : Level) (token : Token) (join : Expr → Expr → Expr)
      (listed : (token, join) ∈ level.joints) {tokens first rest : List Token}
      (split : tokens = token :: first ++ rest) (operand : Derivation level.operand first)
      (more : More level rest) : More level tokens

end

mutual

/-- How deep parentheses and prefixes stand in each other. -/
def Derivation.nesting {phrase : Phrase} {tokens : List Token} : Derivation phrase tokens → Nat
  | .joined _ _ operand more => max operand.nesting more.nesting
  | .prefixed _ _ _ _ operand => operand.nesting + 1
  | .bare _ compare => compare.nesting
  | .single sum => sum.nesting
  | .compare _ _ _ _ left right => max left.nesting right.nesting
  | .primary primary => primary.nesting
  | .number _ | .text _ | .constant _ _ _ | .path _ _ _ _ => 0
  | .parens _ inner => inner.nesting + 1

def More.nesting {level : Level} {tokens : List Token} : More level tokens → Nat
  | .done _ => 0
  | .joint _ _ _ _ _ operand more => max operand.nesting more.nesting

end

mutual

def Derivation.expr {phrase : Phrase} {tokens : List Token} : Derivation phrase tokens → Expr
  | .joined _ _ operand more => more.onto operand.expr
  | .prefixed _ _ operator _ operand => operator operand.expr
  | .bare _ compare => compare.expr
  | .single sum => sum.expr
  | .compare _ operator _ _ left right => .binary operator left.expr right.expr
  | .primary primary => primary.expr
  | .number value => .literal (numeral value)
  | .text value => .literal (.string value)
  | .constant _ value _ => .literal value
  | .path _ start _ steps => .path (start ++ steps.segments)
  | .parens _ inner => inner.expr

/-- Joins what follows to what stands on the left. -/
def More.onto {level : Level} {tokens : List Token} : More level tokens → Expr → Expr
  | .done _, left => left
  | .joint _ _ join _ _ operand more, left => more.onto (join left operand.expr)

end

end Workflow.Expr
