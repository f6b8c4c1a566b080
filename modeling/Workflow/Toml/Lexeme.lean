import Workflow.Instant
import Workflow.Text.Hex
import Workflow.Toml

/-! The smallest parts of a TOML text: blanks, keys, quoted texts, numbers and
dates.

Every reader gives what it found and the text behind it, or nothing.
-/

namespace Workflow.Toml

def isBlank (c : Char) : Bool :=
  c = ' ' || c = '\t'

def skipBlanks (cs : List Char) : List Char :=
  cs.dropWhile isBlank

/-- Characters that may stand in comments and quoted texts as they are. -/
def isPlain (c : Char) : Bool :=
  c = '\t' || (32 ≤ c.toNat && c.toNat ≠ 127)

def newline? : List Char → Option (List Char)
  | '\n' :: rest => some rest
  | '\r' :: '\n' :: rest => some rest
  | _ => none

def skipComment : List Char → List Char
  | '#' :: rest => rest.dropWhile isPlain
  | rest => rest

/-- Blanks, maybe a comment, and the end of the line or of the text. -/
def lineEnd? (cs : List Char) : Option (List Char) :=
  match skipComment (skipBlanks cs) with
  | [] => some []
  | rest => newline? rest

/-- Skips blanks, lines and comments; `fuel` bounds their number. -/
def skipLines : (fuel : Nat) → List Char → List Char
  | 0, cs => cs
  | fuel + 1, cs =>
      let rest := skipComment (skipBlanks cs)
      match newline? rest with
      | some rest => skipLines fuel rest
      | none => rest

/-! Quoted texts. -/

/-- The character that an escape stands for, behind its backslash. -/
def escape? : List Char → Option (Char × List Char)
  | 'b' :: rest => some ('\x08', rest)
  | 't' :: rest => some ('\t', rest)
  | 'n' :: rest => some ('\n', rest)
  | 'f' :: rest => some ('\x0c', rest)
  | 'r' :: rest => some ('\r', rest)
  | '"' :: rest => some ('"', rest)
  | '\\' :: rest => some ('\\', rest)
  | 'u' :: rest => codePoint? 4 rest
  | 'U' :: rest => codePoint? 8 rest
  | _ => none
where
  codePoint? (count : Nat) (cs : List Char) : Option (Char × List Char) :=
    if cs.length < count then none
    else
      (Text.hexNumber? 0 (cs.take count)).bind fun n =>
        if n.isValidChar then some (Char.ofNat n, cs.drop count) else none

/-- The rest of a text in double quotes; `taken` is in reverse. -/
def readQuoted : (fuel : Nat) → List Char → List Char → Option (String × List Char)
  | 0, _, _ | _, _, [] => none
  | fuel + 1, taken, c :: rest =>
      if c = '"' then some (String.ofList taken.reverse, rest)
      else if c = '\\' then
        (escape? rest).bind fun (c, rest) => readQuoted fuel (c :: taken) rest
      else if isPlain c then readQuoted fuel (c :: taken) rest
      else none

def readLiteral (cs : List Char) : Option (String × List Char) :=
  let isInner (c : Char) : Bool := isPlain c && c ≠ '\x27'
  match cs.dropWhile isInner with
  | '\x27' :: rest => some (String.ofList (cs.takeWhile isInner), rest)
  | _ => none

/-- The end of a text in three quotes: up to two more quotes still belong to the
text. -/
def tripleEnd? (quote : Char) (cs : List Char) : Option (List Char × List Char) :=
  let run := (cs.take 5).takeWhile fun c => c = quote
  if run.length < 3 then none else some (run.drop 3, cs.drop run.length)

/-- A line end behind a backslash goes, with the blanks and lines around it. -/
def foldedLine? (cs : List Char) : Option (List Char) :=
  (newline? (skipBlanks cs)).map fun rest =>
    rest.dropWhile fun c => isBlank c || c = '\n' || c = '\r'

/-- The rest of a text of several lines.  Escapes count in double quotes only;
a line ends in a line feed, however it is written. -/
def readLines (quote : Char) : (fuel : Nat) → List Char → List Char →
    Option (String × List Char)
  | 0, _, _ => none
  | fuel + 1, taken, cs =>
      match tripleEnd? quote cs with
      | some (quotes, rest) => some (String.ofList (taken.reverse ++ quotes), rest)
      | none =>
          match newline? cs, cs with
          | some rest, _ => readLines quote fuel ('\n' :: taken) rest
          | none, [] => none
          | none, c :: rest =>
              if c = '\\' ∧ quote = '"' then
                match foldedLine? rest with
                | some rest => readLines quote fuel taken rest
                | none =>
                    (escape? rest).bind fun (c, rest) => readLines quote fuel (c :: taken) rest
              else if isPlain c then readLines quote fuel (c :: taken) rest
              else none

/-- A line end right behind the opening quotes is no part of the text. -/
def readBlock (quote : Char) (cs : List Char) : Option (String × List Char) :=
  readLines quote (cs.length + 1) [] ((newline? cs).getD cs)

def text? : List Char → Option (String × List Char)
  | '"' :: '"' :: '"' :: rest => readBlock '"' rest
  | '\x27' :: '\x27' :: '\x27' :: rest => readBlock '\x27' rest
  | '"' :: rest => readQuoted (rest.length + 1) [] rest
  | '\x27' :: rest => readLiteral rest
  | _ => none

/-! Keys. -/

def isBare (c : Char) : Bool :=
  c.isAlphanum || c = '_' || c = '-'

/-- One part of a key: bare, or a text of one line. -/
def keyPart? : List Char → Option (String × List Char)
  | '"' :: rest => readQuoted (rest.length + 1) [] rest
  | '\x27' :: rest => readLiteral rest
  | cs =>
      let part := cs.takeWhile isBare
      if part.isEmpty then none else some (String.ofList part, cs.drop part.length)

def keyLimit : Nat := 79

/-- The parts of a key, blanks around each: all but the last, and the last. -/
def keyParts? : (fuel : Nat) → List Char → Option (List String × String × List Char)
  | 0, _ => none
  | fuel + 1, cs => do
      let (part, rest) ← keyPart? (skipBlanks cs)
      match skipBlanks rest with
      | '.' :: rest =>
          let (path, key, rest) ← keyParts? fuel rest
          return (part :: path, key, rest)
      | rest => return ([], part, rest)

def key? (cs : List Char) : Option (List String × String × List Char) :=
  keyParts? keyLimit cs

/-! Numbers. -/

/-- Digits, single underscores between them: the digits alone, and the text
behind them. -/
def digits? (isDigit : Char → Bool) (cs : List Char) : Option (List Char × List Char) :=
  match cs with
  | [] => none
  | c :: rest => if isDigit c then some (more isDigit c rest) else none
where
  more (isDigit : Char → Bool) : Char → List Char → List Char × List Char
    | c, [] => ([c], [])
    | c, [next] => if isDigit next then ([c, next], []) else ([c], [next])
    | c, next :: after :: rest =>
        if isDigit next then
          let (digits, rest) := more isDigit next (after :: rest)
          (c :: digits, rest)
        else if next = '_' ∧ isDigit after then
          let (digits, rest) := more isDigit after rest
          (c :: digits, rest)
        else ([c], next :: after :: rest)

/-- A sign, if there is one: whether it is a minus, and the text behind it. -/
def sign : List Char → Bool × List Char
  | '+' :: rest => (false, rest)
  | '-' :: rest => (true, rest)
  | rest => (false, rest)

def signed (negative : Bool) (n : Nat) : Int :=
  if negative then -n else n

def integer? (value : Int) : Option Toml :=
  if -0x8000000000000000 ≤ value ∧ value < 0x8000000000000000 then some (.integer value)
  else none

/-- A whole number in base two, eight or sixteen. -/
def basedInteger? (base : Nat) (cs : List Char) : Option (Toml × List Char) := do
  let isDigit (c : Char) : Bool := (Text.hexValue? c).any fun digit => digit < base
  let (digits, rest) ← digits? isDigit cs
  let value := digits.foldl (fun n c => n * base + (Text.hexValue? c).getD 0) 0
  let value ← integer? value
  return (value, rest)

/-- The double with the given decimal digits times a power of ten.  What is too
large is infinite. -/
def decimal (digits : List Char) (exponent : Int) : Float :=
  let significand := Nat.ofDigitChars 10 digits 0
  let size := digits.length + exponent
  if significand = 0 ∨ size < -400 then 0.0
  else if 400 < size - (digits.takeWhile fun c => c = '0').length then 1.0 / 0.0
  else Float.ofScientific significand (decide (exponent < 0)) exponent.natAbs

def exponent? (cs : List Char) : Option (Int × List Char) :=
  let (negative, rest) := sign cs
  (digits? Char.isDigit rest).map fun (digits, rest) =>
    (signed negative (Nat.ofDigitChars 10 digits 0), rest)

/-- Fraction and exponent behind the whole digits of a number. -/
def fraction? (cs : List Char) : Option (List Char × Int × List Char) := do
  let withExponent (places rest : List Char) : Option (List Char × Int × List Char) :=
    match rest with
    | 'e' :: rest | 'E' :: rest =>
        (exponent? rest).map fun (exponent, rest) => (places, exponent, rest)
    | rest => some (places, 0, rest)
  match cs with
  | '.' :: rest =>
      let (places, rest) ← digits? Char.isDigit rest
      withExponent places rest
  | 'e' :: _ | 'E' :: _ => withExponent [] cs
  | _ => none

/-- A decimal number.  It has no leading zeros, and it is no double beyond the
largest one. -/
def decimal? (cs : List Char) : Option (Toml × List Char) := do
  let (negative, rest) := sign cs
  let (whole, rest) ← digits? Char.isDigit rest
  if whole.head? = some '0' ∧ 1 < whole.length then none
  else
    match rest with
    | '.' :: _ | 'e' :: _ | 'E' :: _ =>
        let (places, exponent, rest) ← fraction? rest
        let value := decimal (whole ++ places) (exponent - places.length)
        if value.isFinite ∨ negative then
          return (.float (if negative then -value else value), rest)
        else none
    | _ =>
        let value ← integer? (signed negative (Nat.ofDigitChars 10 whole 0))
        return (value, rest)

def special? (cs : List Char) : Option (Toml × List Char) :=
  let (negative, rest) := sign cs
  let turn (value : Float) : Toml := .float (if negative then -value else value)
  match rest with
  | 'i' :: 'n' :: 'f' :: rest => some (turn (1.0 / 0.0), rest)
  | 'n' :: 'a' :: 'n' :: rest => some (turn (0.0 / 0.0), rest)
  | _ => none

/-! Dates. -/

/-- A number of exactly `count` digits between two bounds. -/
def fixed? (count low high : Nat) (cs : List Char) : Option (Nat × List Char) :=
  let digits := cs.take count
  let value := Nat.ofDigitChars 10 digits 0
  if digits.length = count ∧ digits.all Char.isDigit ∧ low ≤ value ∧ value ≤ high then
    some (value, cs.drop count)
  else none

def mark? (mark : Char) : List Char → Option (List Char)
  | c :: rest => if c = mark then some rest else none
  | [] => none

def day? (cs : List Char) : Option (List Char) := do
  let (year, rest) ← fixed? 4 0 9999 cs
  let rest ← mark? '-' rest
  let (month, rest) ← fixed? 2 1 12 rest
  let rest ← mark? '-' rest
  let (_, rest) ← fixed? 2 1 (Day.daysInMonth year month) rest
  return rest

def timeOfDay? (cs : List Char) : Option (List Char) := do
  let (_, rest) ← fixed? 2 0 23 cs
  let rest ← mark? ':' rest
  let (_, rest) ← fixed? 2 0 59 rest
  let rest ← mark? ':' rest
  let (_, rest) ← fixed? 2 0 60 rest
  match rest with
  | '.' :: c :: after => return if c.isDigit then after.dropWhile Char.isDigit else rest
  | _ => return rest

/-- Skips an offset from universal time, if there is one. -/
def skipOffset (cs : List Char) : List Char :=
  let offset? (cs : List Char) : Option (List Char) := do
    let (_, rest) ← fixed? 2 0 23 cs
    let rest ← mark? ':' rest
    let (_, rest) ← fixed? 2 0 59 rest
    return rest
  match cs with
  | 'Z' :: rest | 'z' :: rest => rest
  | '+' :: rest | '-' :: rest => (offset? rest).getD cs
  | _ => cs

/-- What is left behind a day, a time of day, or both with or without an
offset. -/
def skipDate? (cs : List Char) : Option (List Char) :=
  match day? cs with
  | none => timeOfDay? cs
  | some (c :: rest) =>
      if c = 'T' ∨ c = 't' ∨ c = ' ' then
        match timeOfDay? rest with
        | some rest => some (skipOffset rest)
        | none => some (c :: rest)
      else some (c :: rest)
  | some [] => some []

def date? (cs : List Char) : Option (Toml × List Char) :=
  (skipDate? cs).map fun rest =>
    (.date (String.ofList (cs.take (cs.length - rest.length))), rest)

def number? : List Char → Option (Toml × List Char)
  | '0' :: 'x' :: rest => basedInteger? 16 rest
  | '0' :: 'o' :: rest => basedInteger? 8 rest
  | '0' :: 'b' :: rest => basedInteger? 2 rest
  | cs =>
      match date? cs with
      | some found => some found
      | none =>
          match decimal? cs with
          | some found => some found
          | none => special? cs

end Workflow.Toml
