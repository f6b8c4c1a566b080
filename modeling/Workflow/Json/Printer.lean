import Workflow.Decimal.Shortest
import Workflow.Json
import Workflow.Text.Hex

/-! The text of a payload value, on one line and indented. -/

namespace Workflow

/-- Doubles are written plainly from `0.00001` up to `10 ^ 16`; beyond, a
positive exponent carries its sign. -/
def Number.layout : Decimal.Layout :=
  ⟨-5, 15, true⟩

namespace Decimal

/-- A finite double with its sign; zero has one too. -/
def renderFloat (layout : Layout) (x : Float) : String :=
  let text := (ofFloat x).render layout
  if Double.isNegative x then "-" ++ text else text

end Decimal

def Number.text : Number → String
  | .int value => toString value
  | .float value => Decimal.renderFloat Number.layout value

namespace Json

/-- A character inside a quoted text: the quote, the backslash and everything
below the blank are escaped. -/
def escape (c : Char) : List Char :=
  match c with
  | '"' => ['\\', '"']
  | '\\' => ['\\', '\\']
  | '\x08' => ['\\', 'b']
  | '\x0c' => ['\\', 'f']
  | '\n' => ['\\', 'n']
  | '\r' => ['\\', 'r']
  | '\t' => ['\\', 't']
  | c => if c.toNat < 32 then '\\' :: 'u' :: Text.hexDigits c.toNat 4 else [c]

def quote (text : String) : String :=
  String.ofList ('"' :: text.toList.flatMap escape ++ ['"'])

mutual

def render : Json → String
  | .null => "null"
  | .bool true => "true"
  | .bool false => "false"
  | .number value => value.text
  | .string value => quote value
  | .array items => "[" ++ String.intercalate "," (renderItems items) ++ "]"
  | .object fields => "\x7b" ++ String.intercalate "," (renderFields fields) ++ "\x7d"

def renderItems : List Json → List String
  | [] => []
  | item :: rest => item.render :: renderItems rest

def renderFields : List (String × Json) → List String
  | [] => []
  | (name, value) :: rest => (quote name ++ ":" ++ value.render) :: renderFields rest

end

private def indentation (depth : Nat) : String :=
  String.ofList (List.replicate (2 * depth) ' ')

/-- Entries on lines of their own between two brackets; none, no lines. -/
private def block (opening closing : String) (depth : Nat) (entries : List String) : String :=
  if entries.isEmpty then opening ++ closing
  else
    let lines := entries.map fun entry => indentation (depth + 1) ++ entry
    opening ++ "\n" ++ String.intercalate ",\n" lines ++ "\n" ++ indentation depth ++ closing

mutual

/-- The text with every entry on its own line, two blanks deeper than what
holds it. -/
def pretty (depth : Nat) : Json → String
  | .array items => block "[" "]" depth (prettyItems (depth + 1) items)
  | .object fields => block "\x7b" "\x7d" depth (prettyFields (depth + 1) fields)
  | .null => "null"
  | .bool true => "true"
  | .bool false => "false"
  | .number value => value.text
  | .string value => quote value

def prettyItems (depth : Nat) : List Json → List String
  | [] => []
  | item :: rest => item.pretty depth :: prettyItems depth rest

def prettyFields (depth : Nat) : List (String × Json) → List String
  | [] => []
  | (name, value) :: rest =>
      (quote name ++ ": " ++ value.pretty depth) :: prettyFields depth rest

end

end Json

end Workflow
