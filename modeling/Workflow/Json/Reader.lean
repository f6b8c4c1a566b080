import Workflow.Json
import Workflow.Text.Hex

/-! Reading a payload value from text.

A reading that fails says where: the line and the byte in the line at which it
stopped.  Arrays and objects nest at most `Json.nestingLimit` deep.
-/

namespace Workflow.Json

inductive Fault where
  | endInValue
  | endInArray
  | endInObject
  | endInString
  | expectedValue
  | expectedWord
  | expectedColon
  | expectedArrayCommaOrEnd
  | expectedObjectCommaOrEnd
  | expectedStringKey
  | trailingComma
  | trailingCharacters
  | invalidNumber
  | numberOutOfRange
  | invalidEscape
  | loneSurrogate
  | unfinishedSurrogate
  | controlCharacter
  | nestedTooDeep
deriving DecidableEq, Repr

def Fault.message : Fault → String
  | .endInValue => "EOF while parsing a value"
  | .endInArray => "EOF while parsing a list"
  | .endInObject => "EOF while parsing an object"
  | .endInString => "EOF while parsing a string"
  | .expectedValue => "expected value"
  | .expectedWord => "expected ident"
  | .expectedColon => "expected `:`"
  | .expectedArrayCommaOrEnd => "expected `,` or `]`"
  | .expectedObjectCommaOrEnd => "expected `,` or `\x7d`"
  | .expectedStringKey => "key must be a string"
  | .trailingComma => "trailing comma"
  | .trailingCharacters => "trailing characters"
  | .invalidNumber => "invalid number"
  | .numberOutOfRange => "number out of range"
  | .invalidEscape => "invalid escape"
  | .loneSurrogate => "lone leading surrogate in hex escape"
  | .unfinishedSurrogate => "unexpected end of hex escape"
  | .controlCharacter => "control character (\\u0000-\\u001F) found while parsing a string"
  | .nestedTooDeep => "recursion limit exceeded"

/-- A failed reading: what was wrong, and the bytes read up to there. -/
structure ReadError where
  fault : Fault
  line : Nat
  column : Nat
deriving DecidableEq, Repr

def ReadError.message (e : ReadError) : String :=
  s!"{e.fault.message} at line {e.line} column {e.column}"

/-- Arrays and objects may lie in one another this deep. -/
def nestingLimit : Nat := 127

/-- A failure with the text still unread.  `looking` says that the character at
fault was looked at but not taken.  A reading that succeeds gives its value and
the text behind it. -/
structure Stop where
  fault : Fault
  rest : List Char
  looking : Bool

def stopAfter (fault : Fault) (rest : List Char) : Except Stop (α × List Char) :=
  .error ⟨fault, rest, false⟩

def stopAt (fault : Fault) (rest : List Char) : Except Stop (α × List Char) :=
  .error ⟨fault, rest, true⟩

def isBlank (c : Char) : Bool :=
  c = ' ' || c = '\n' || c = '\t' || c = '\r'

def skipBlanks (cs : List Char) : List Char :=
  cs.dropWhile isBlank

/-- Takes the letters of a word one by one. -/
def readWord : List Char → List Char → Except Stop (Unit × List Char)
  | [], rest => .ok ((), rest)
  | _ :: _, [] => stopAfter .endInValue []
  | letter :: letters, c :: rest =>
      if c = letter then readWord letters rest else stopAfter .expectedWord rest

def readHex : List Char → Except Stop (Nat × List Char)
  | a :: b :: c :: d :: rest =>
      match Text.hexNumber? 0 [a, b, c, d] with
      | some unit => .ok (unit, rest)
      | none => stopAfter .invalidEscape rest
  | _ => stopAfter .endInString []

/-- The character of a numeric escape; two escapes may stand for one
character. -/
def readCodePoint (cs : List Char) : Except Stop (Char × List Char) := do
  let (unit, rest) ← readHex cs
  if 0xDC00 ≤ unit ∧ unit ≤ 0xDFFF then stopAfter .loneSurrogate rest
  else if 0xD800 ≤ unit ∧ unit ≤ 0xDBFF then
    match rest with
    | '\\' :: 'u' :: rest =>
        let (low, rest) ← readHex rest
        if 0xDC00 ≤ low ∧ low ≤ 0xDFFF then
          .ok (Char.ofNat (0x10000 + (unit - 0xD800) * 0x400 + (low - 0xDC00)), rest)
        else stopAfter .loneSurrogate rest
    | '\\' :: rest => stopAfter .unfinishedSurrogate (rest.drop 1)
    | _ => stopAfter .unfinishedSurrogate (rest.drop 1)
  else .ok (Char.ofNat unit, rest)

/-- The rest of a quoted text; `taken` holds its characters in reverse.  A step
takes at least one character, so the length of the text is fuel enough. -/
def readQuoted : Nat → List Char → List Char → Except Stop (String × List Char)
  | 0, _, rest => stopAfter .endInString rest
  | _ + 1, _, [] => stopAfter .endInString []
  | fuel + 1, taken, c :: rest =>
      if c = '"' then .ok (String.ofList taken.reverse, rest)
      else if c = '\\' then
        match rest with
        | [] => stopAfter .endInString []
        | '"' :: rest => readQuoted fuel ('"' :: taken) rest
        | '\\' :: rest => readQuoted fuel ('\\' :: taken) rest
        | '/' :: rest => readQuoted fuel ('/' :: taken) rest
        | 'b' :: rest => readQuoted fuel ('\x08' :: taken) rest
        | 'f' :: rest => readQuoted fuel ('\x0c' :: taken) rest
        | 'n' :: rest => readQuoted fuel ('\n' :: taken) rest
        | 'r' :: rest => readQuoted fuel ('\r' :: taken) rest
        | 't' :: rest => readQuoted fuel ('\t' :: taken) rest
        | 'u' :: rest =>
            match readCodePoint rest with
            | .ok (c, rest) => readQuoted fuel (c :: taken) rest
            | .error stop => .error stop
        | _ :: rest => stopAfter .invalidEscape rest
      else if c.toNat < 32 then stopAfter .controlCharacter rest
      else readQuoted fuel (c :: taken) rest

/-- The leading digits of a number that fit in 64 bits, and how many more
digits follow them. -/
structure Significand where
  value : Nat
  dropped : Nat

/-- Adds a digit, or only counts it once the significand is full. -/
def Significand.push (s : Significand) (digit : Char) : Significand :=
  let next := s.value * 10 + (digit.toNat - 48)
  if s.dropped = 0 ∧ next < 1 <<< 64 then { s with value := next }
  else { s with dropped := s.dropped + 1 }

def Significand.ofDigits (start : Significand) (digits : List Char) : Significand :=
  digits.foldl Significand.push start

def powerOfTen (n : Nat) : Float :=
  Float.ofScientific 1 false n

/-- Scales a significand by a power of ten, rounding once for the significand
and once for the scaling.  `none` means beyond the largest double. -/
def scale? (significand : Nat) (exponent : Int) : Option Float :=
  let whole := Float.ofNat significand
  if significand = 0 then some whole
  else if 0 ≤ exponent then
    if 308 < exponent then none
    else
      let scaled := whole * powerOfTen exponent.toNat
      if scaled.isFinite then some scaled else none
  else
    let rec shrink : Nat → Float → Nat → Float
      | 0, x, _ => x
      | fuel + 1, x, places =>
          if places ≤ 308 then x / powerOfTen places
          else if x == 0 then x
          else shrink fuel (x / powerOfTen 308) (places - 308)
    some (shrink 4 whole (-exponent).toNat)

def readScaled (negative : Bool) (significand : Nat) (exponent : Int) (rest : List Char) :
    Except Stop (Number × List Char) :=
  match scale? significand exponent with
  | some x => .ok (.float (if negative then -x else x), rest)
  | none => stopAfter .numberOutOfRange rest

def readExponent (negative : Bool) (significand : Nat) (exponent : Int) (cs : List Char) :
    Except Stop (Number × List Char) :=
  match cs with
  | 'e' :: rest | 'E' :: rest =>
      let (down, rest) := match rest with
        | '+' :: rest => (false, rest)
        | '-' :: rest => (true, rest)
        | rest => (false, rest)
      let digits := rest.takeWhile Char.isDigit
      let after := rest.dropWhile Char.isDigit
      if digits.isEmpty then
        match rest with
        | [] => stopAfter .endInValue []
        | _ :: rest => stopAfter .invalidNumber rest
      else
        let shift : Int := (Nat.ofDigitChars 10 digits 0 : Nat)
        readScaled negative significand (if down then exponent - shift else exponent + shift) after
  | _ => readScaled negative significand exponent cs

/-- The number behind an optional sign.  Without point and exponent it is an
integer if it is in range, except for a negative zero. -/
def readNumber (negative : Bool) (cs : List Char) : Except Stop (Number × List Char) :=
  let digits := cs.takeWhile Char.isDigit
  let rest := cs.dropWhile Char.isDigit
  match digits, rest with
  | [], [] => stopAfter .endInValue []
  | [], _ :: rest => stopAfter .invalidNumber rest
  | '0' :: _ :: _, _ => stopAt .invalidNumber (cs.drop 1)
  | _, '.' :: tail =>
      let whole := Significand.ofDigits ⟨0, 0⟩ digits
      let places := tail.takeWhile Char.isDigit
      let after := tail.dropWhile Char.isDigit
      if places.isEmpty then
        match tail with
        | [] => stopAt .endInValue []
        | _ => stopAt .invalidNumber tail
      else if whole.dropped = 0 then
        let full := Significand.ofDigits whole places
        readExponent negative full.value (-(places.length - full.dropped : Int)) after
      else readExponent negative whole.value whole.dropped after
  | _, _ =>
      let whole := Significand.ofDigits ⟨0, 0⟩ digits
      match rest with
      | 'e' :: _ | 'E' :: _ => readExponent negative whole.value whole.dropped rest
      | _ =>
          if whole.dropped ≠ 0 then readScaled negative whole.value whole.dropped rest
          else if !negative then .ok (.int whole.value, rest)
          else if whole.value = 0 ∨ 1 <<< 63 < whole.value then
            .ok (.float (-(Float.ofNat whole.value)), rest)
          else .ok (.int (-(whole.value : Int)), rest)

/-- Where the next item of an array starts, or, after `false`, the text behind
the array's end. -/
def nextItem (first : Bool) (cs : List Char) : Except Stop (Bool × List Char) :=
  match skipBlanks cs with
  | [] => stopAt .endInArray []
  | ']' :: rest => .ok (false, rest)
  | c :: rest =>
      if first then .ok (true, c :: rest)
      else if c = ',' then
        match skipBlanks rest with
        | [] => stopAt .endInValue []
        | ']' :: rest => stopAt .trailingComma (']' :: rest)
        | start => .ok (true, start)
      else stopAt .expectedArrayCommaOrEnd (c :: rest)

/-- The name of the next entry of an object and the text behind it, or the text
behind the object's end. -/
def nextName (first : Bool) (cs : List Char) : Except Stop (Option String × List Char) :=
  let name (cs : List Char) : Except Stop (Option String × List Char) :=
    match cs with
    | [] => stopAt .endInValue []
    | '"' :: rest => do
        let (name, rest) ← readQuoted (rest.length + 1) [] rest
        return (some name, rest)
    | rest => stopAt .expectedStringKey rest
  match skipBlanks cs with
  | [] => stopAt .endInObject []
  | '}' :: rest => .ok (none, rest)
  | c :: rest =>
      if first then name (c :: rest)
      else if c = ',' then
        match skipBlanks rest with
        | '}' :: rest => stopAt .trailingComma ('}' :: rest)
        | start => name start
      else stopAt .expectedObjectCommaOrEnd (c :: rest)

/-- Takes the colon between a name and its value. -/
def takeColon (cs : List Char) : Except Stop (Unit × List Char) :=
  match skipBlanks cs with
  | ':' :: rest => .ok ((), rest)
  | [] => stopAt .endInObject []
  | rest => stopAt .expectedColon rest

mutual

/-- Reads one value.  `fuel` bounds the steps, `levels` the nesting. -/
def readValue : Nat → Nat → List Char → Except Stop (Json × List Char)
  | 0, _, cs => stopAfter .endInValue cs
  | fuel + 1, levels, cs =>
      match skipBlanks cs with
      | [] => stopAt .endInValue []
      | 'n' :: rest => do
          let (_, rest) ← readWord ['u', 'l', 'l'] rest
          return (.null, rest)
      | 't' :: rest => do
          let (_, rest) ← readWord ['r', 'u', 'e'] rest
          return (.bool true, rest)
      | 'f' :: rest => do
          let (_, rest) ← readWord ['a', 'l', 's', 'e'] rest
          return (.bool false, rest)
      | '"' :: rest => do
          let (text, rest) ← readQuoted (rest.length + 1) [] rest
          return (.string text, rest)
      | '[' :: rest =>
          match levels with
          | 0 => stopAt .nestedTooDeep ('[' :: rest)
          | levels + 1 => do
              let (items, rest) ← readItems fuel levels true rest
              return (.array items, rest)
      | '{' :: rest =>
          match levels with
          | 0 => stopAt .nestedTooDeep ('{' :: rest)
          | levels + 1 => do
              let (fields, rest) ← readFields fuel levels true rest
              return (record fields, rest)
      | '-' :: rest => do
          let (value, rest) ← readNumber true rest
          return (.number value, rest)
      | c :: rest =>
          if c.isDigit then do
            let (value, rest) ← readNumber false (c :: rest)
            return (.number value, rest)
          else stopAt .expectedValue (c :: rest)

/-- Reads the items of an array up to its end. -/
def readItems : Nat → Nat → Bool → List Char → Except Stop (List Json × List Char)
  | 0, _, _, cs => stopAfter .endInArray cs
  | fuel + 1, levels, first, cs => do
      match ← nextItem first cs with
      | (false, rest) => return ([], rest)
      | (true, start) =>
          let (item, rest) ← readValue fuel levels start
          let (items, rest) ← readItems fuel levels false rest
          return (item :: items, rest)

/-- Reads the entries of an object up to its end. -/
def readFields : Nat → Nat → Bool → List Char → Except Stop (List (String × Json) × List Char)
  | 0, _, _, cs => stopAfter .endInObject cs
  | fuel + 1, levels, first, cs => do
      match ← nextName first cs with
      | (none, rest) => return ([], rest)
      | (some name, rest) =>
          let (_, rest) ← takeColon rest
          let (value, rest) ← readValue fuel levels rest
          let (fields, rest) ← readFields fuel levels false rest
          return ((name, value) :: fields, rest)

end

/-- Steps enough for any reading of a text: no more than two begin at one
character. -/
def stepsFor (cs : List Char) : Nat :=
  2 * cs.length + 2

/-- The line and column reached after the given characters; columns count
bytes. -/
def position (taken : List Char) : Nat × Nat :=
  taken.foldl
    (fun (line, column) c => if c = '\n' then (line + 1, 0) else (line, column + c.utf8Size))
    (1, 0)

/-- The line and column at which a reading of `text` stopped that left `rest`
unread; a character that was looked at counts. -/
def stopPosition (text rest : List Char) (looking : Bool) : Nat × Nat :=
  let (line, column) := position (text.take (text.length - rest.length))
  match looking, rest with
  | true, '\n' :: _ => (line + 1, 0)
  | true, _ :: _ => (line, column + 1)
  | _, _ => (line, column)

/-- Where a reading of `text` stopped. -/
def Stop.located (stop : Stop) (text : List Char) : ReadError :=
  let (line, column) := stopPosition text stop.rest stop.looking
  ⟨stop.fault, line, column⟩

/-- The value that a text holds, with nothing but blanks around it. -/
def parse (text : String) : Except ReadError Json :=
  let cs := text.toList
  match readValue (stepsFor cs) nestingLimit cs with
  | .error stop => .error (stop.located cs)
  | .ok (value, rest) =>
      match skipBlanks rest with
      | [] => .ok value
      | rest => .error (Stop.located ⟨.trailingCharacters, rest, true⟩ cs)

end Workflow.Json
