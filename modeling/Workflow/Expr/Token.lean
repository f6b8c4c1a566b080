import Workflow.Json.Printer
import Workflow.Text.Blank
import Workflow.Text.Letter
import Workflow.Text.Numeral
import Workflow.Text.Quoted

/-! The tokens of an expression text.

`Token.scan` cuts a text into tokens, each with the position of its first
character.  Blanks separate tokens and are otherwise without meaning.
-/

namespace Workflow

inductive Token where
  | number (value : Float)
  | text (value : String)
  | name (value : String)
  | sign (value : String)
  | openParen
  | closeParen
  | openBracket
  | closeBracket
  | dot
deriving DecidableEq, Repr

/-- A token and the position of its first character. -/
structure Placed where
  offset : Nat
  token : Token
deriving DecidableEq, Repr

/-- Deepest accepted nesting of parentheses and of operators in front of their
operand. -/
def Expr.nestingLimit : Nat := 64

inductive Expr.Fault where
  | tooManyTokens
  | badNumber (text : String)
  | unterminatedText
  | unexpectedCharacter (c : Char)
  | nestedTooDeep
  | unexpected (found : Option Token)
  | expectedCloseParen (found : Option Token)
  | expectedFieldName (found : Option Token)
  | expectedIndex (found : Option Token)
  | expectedCloseBracket (found : Option Token)
deriving DecidableEq, Repr

/-- A text that is no expression, and the position at which that shows. -/
structure Expr.Malformed where
  offset : Nat
  fault : Expr.Fault
deriving DecidableEq, Repr

namespace Token

def limit : Nat := 1024

/-- Doubles in messages are written plainly from `0.0001` up to `10 ^ 16`. -/
def numberLayout : Decimal.Layout :=
  ⟨-4, 15, false⟩

def numberText (x : Float) : String :=
  if x.isFinite then Decimal.renderFloat numberLayout x else "inf"

/-- A token as messages show it; `none` is the end of the text. -/
def shown : Option Token → String
  | none => "End"
  | some (.number value) => s!"Number({numberText value})"
  | some (.text value) => s!"Str({Text.quoted value})"
  | some (.name value) => s!"Ident({Text.quoted value})"
  | some (.sign value) => s!"Op({Text.quoted value})"
  | some .openParen => "LParen"
  | some .closeParen => "RParen"
  | some .openBracket => "LBracket"
  | some .closeBracket => "RBracket"
  | some .dot => "Dot"

/-- Operator signs; a longer sign comes before its beginnings. -/
def signs : List String :=
  ["===", "!==", "==", "!=", "<=", ">=", "&&", "||", "<", ">", "+", "-", "*", "/", "%", "!"]

def startsName (c : Char) : Bool :=
  Text.isLetter c || c = '_' || c = '$'

def continuesName (c : Char) : Bool :=
  Text.isLetter c || Text.isNumeral c || c = '_' || c = '$'

def continuesNumber (c : Char) : Bool :=
  c.isDigit || c = '.'

/-- The double nearest to a run of digits with at most one decimal point. -/
def numberOf? (run : List Char) : Option Float :=
  let whole := run.takeWhile Char.isDigit
  match run.dropWhile Char.isDigit with
  | [] => some (Float.ofScientific (Nat.ofDigitChars 10 whole 0) false 0)
  | _ :: places =>
      if places.all Char.isDigit then
        some (Float.ofScientific (Nat.ofDigitChars 10 (whole ++ places) 0) true places.length)
      else none

def unescape (c : Char) : Char :=
  match c with
  | 'n' => '\n'
  | 't' => '\t'
  | other => other

/-- The text up to the closing quote, and the number of characters it takes
with that quote. -/
def readText (quote : Char) : List Char → Option (List Char × Nat)
  | [] => none
  | [c] => if c ≠ '\\' ∧ c = quote then some ([], 1) else none
  | c :: next :: rest =>
      if c = '\\' then
        (readText quote rest).map fun (taken, count) => (unescape next :: taken, count + 2)
      else if c = quote then some ([], 1)
      else (readText quote (next :: rest)).map fun (taken, count) => (c :: taken, count + 1)

/-- The token that starts with `c`, and how many characters of `rest` belong
to it. -/
def read (c : Char) (rest : List Char) : Except Expr.Fault (Token × Nat) :=
  if c.isDigit then
    let run := rest.takeWhile continuesNumber
    match numberOf? (c :: run) with
    | some value => .ok (.number value, run.length)
    | none => .error (.badNumber (String.ofList (c :: run)))
  else if c = '"' ∨ c = '\x27' then
    match readText c rest with
    | some (taken, count) => .ok (.text (String.ofList taken), count)
    | none => .error .unterminatedText
  else if startsName c then
    let run := rest.takeWhile continuesName
    .ok (.name (String.ofList (c :: run)), run.length)
  else
    match c with
    | '(' => .ok (.openParen, 0)
    | ')' => .ok (.closeParen, 0)
    | '[' => .ok (.openBracket, 0)
    | ']' => .ok (.closeBracket, 0)
    | '.' => .ok (.dot, 0)
    | c =>
        match signs.find? fun symbol => symbol.toList.isPrefixOf (c :: rest) with
        | some symbol => .ok (.sign symbol, symbol.length - 1)
        | none => .error (.unexpectedCharacter c)

/-- Cuts a text whose first character stands at `offset`.  The first `skip`
characters belong to the token before, and at most `room` tokens may follow. -/
def scanFrom : (room offset skip : Nat) → List Char → Except Expr.Malformed (List Placed)
  | _, _, _, [] => .ok []
  | room, offset, skip + 1, _ :: rest => scanFrom room (offset + 1) skip rest
  | room, offset, 0, c :: rest =>
      if Text.isBlank c then scanFrom room (offset + 1) 0 rest
      else
        match room with
        | 0 => .error ⟨offset, .tooManyTokens⟩
        | room + 1 =>
            match read c rest with
            | .error fault => .error ⟨offset, fault⟩
            | .ok (token, count) =>
                match scanFrom room (offset + 1) count rest with
                | .error malformed => .error malformed
                | .ok tokens => .ok (⟨offset, token⟩ :: tokens)

def scan (text : List Char) : Except Expr.Malformed (List Placed) :=
  scanFrom limit 0 0 text

end Token

namespace Expr

def Fault.message : Fault → String
  | .tooManyTokens => s!"expression longer than {Token.limit} tokens"
  | .badNumber text => s!"bad number '{text}'"
  | .unterminatedText => "unterminated string"
  | .unexpectedCharacter c => s!"unexpected character '{c}'"
  | .nestedTooDeep => s!"expression nested deeper than {nestingLimit} levels"
  | .unexpected found => s!"unexpected {Token.shown found}"
  | .expectedCloseParen found => s!"expected ')', found {Token.shown found}"
  | .expectedFieldName found => s!"expected field name, found {Token.shown found}"
  | .expectedIndex found => s!"expected index, found {Token.shown found}"
  | .expectedCloseBracket found => s!"expected ']', found {Token.shown found}"

def Malformed.message (malformed : Malformed) : String :=
  s!"syntax error at offset {malformed.offset}: {malformed.fault.message}"

end Expr

end Workflow
