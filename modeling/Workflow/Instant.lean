import Workflow.Text.Blank

/-! Points in time.

An instant counts seconds since the start of 1970, universal time, and
nanoseconds within the second.  A leap second is the second before it with more
than a second's worth of nanoseconds.
-/

namespace Workflow

structure Instant where
  seconds : Int
  nanos : Nat
deriving DecidableEq, Repr, Inhabited

namespace Instant

def nanosPerSecond : Nat := 1000000000

def le (a b : Instant) : Bool :=
  decide (a.seconds < b.seconds) || (a.seconds == b.seconds && decide (a.nanos ≤ b.nanos))

def lt (a b : Instant) : Bool :=
  !b.le a

def isLeap (t : Instant) : Bool :=
  decide (nanosPerSecond ≤ t.nanos)

/-- Moves an instant forward by whole seconds; a move out of a leap second
starts from the second before it. -/
def addSeconds (t : Instant) (seconds : Nat) : Instant :=
  if t.isLeap ∧ seconds ≠ 0 then ⟨t.seconds + seconds, t.nanos - nanosPerSecond⟩
  else ⟨t.seconds + seconds, t.nanos⟩

def addMillis (t : Instant) (millis : Nat) : Instant :=
  let nanos := t.nanos + millis % 1000 * 1000000
  ⟨t.seconds + (millis / 1000 : Nat) + (nanos / nanosPerSecond : Nat), nanos % nanosPerSecond⟩

/-- The time from `a` to `b` in nanoseconds.  A leap second counts when the time
of day of its end lies before that of the other end. -/
def nanosBetween (a b : Instant) : Int :=
  let leap : Int :=
    if a.seconds % 86400 < b.seconds % 86400 ∧ a.isLeap then 1
    else if b.seconds % 86400 < a.seconds % 86400 ∧ b.isLeap then -1
    else 0
  (b.seconds - a.seconds + leap) * nanosPerSecond + ((b.nanos : Int) - a.nanos)

/-- The whole seconds from `a` to `b`, toward zero. -/
def secondsBetween (a b : Instant) : Int :=
  (nanosBetween a b).tdiv nanosPerSecond

end Instant

structure Day where
  year : Int
  month : Nat
  day : Nat
deriving DecidableEq, Repr

namespace Day

def isLeapYear (year : Int) : Bool :=
  year % 4 == 0 && (year % 100 != 0 || year % 400 == 0)

def daysInMonth (year : Int) (month : Nat) : Nat :=
  match month with
  | 2 => if isLeapYear year then 29 else 28
  | 4 | 6 | 9 | 11 => 30
  | _ => 31

/-- The first and the last year of the calendar. -/
def firstYear : Int := -262143
def lastYear : Int := 262142

def isValid (d : Day) : Bool :=
  decide (firstYear ≤ d.year ∧ d.year ≤ lastYear) &&
    decide (1 ≤ d.month ∧ d.month ≤ 12) &&
    decide (1 ≤ d.day ∧ d.day ≤ daysInMonth d.year d.month)

/-- Days since the start of 1970.  Years are counted from March, so that a leap
day ends its year. -/
def toDays (d : Day) : Int :=
  let year := if d.month ≤ 2 then d.year - 1 else d.year
  let month : Int := if d.month ≤ 2 then d.month + 9 else d.month - 3
  year * 365 + year / 4 - year / 100 + year / 400 + (153 * month + 2) / 5 + d.day - 719469

/-- The day that stands a number of days behind the start of 1970. -/
def ofDays (days : Int) : Day :=
  let shifted := days + 719468
  let era := shifted / 146097
  let inEra := shifted % 146097
  let yearInEra := (inEra - inEra / 1460 + inEra / 36524 - inEra / 146096) / 365
  let inYear := inEra - (365 * yearInEra + yearInEra / 4 - yearInEra / 100)
  let marchMonth := (5 * inYear + 2) / 153
  let day := inYear - (153 * marchMonth + 2) / 5 + 1
  let month := if marchMonth < 10 then marchMonth + 3 else marchMonth - 9
  let year := yearInEra + era * 400
  ⟨if month ≤ 2 then year + 1 else year, month.toNat, day.toNat⟩

end Day

namespace Instant

/-- A number with zeros in front of it up to `width` digits. -/
def padded (width n : Nat) : String :=
  let digits := Nat.toDigits 10 n
  String.ofList (List.replicate (width - digits.length) '0' ++ digits)

/-- Four digits, and a sign in front of years that need more or lie before the
year zero. -/
def yearText (year : Int) : String :=
  if 0 ≤ year ∧ year ≤ 9999 then padded 4 year.toNat
  else (if year < 0 then "-" else "+") ++ padded 4 year.natAbs

/-- The fraction of a second in groups of three digits, as many as it needs. -/
def fractionText (nanos : Nat) : String :=
  if nanos = 0 then ""
  else if nanos % 1000000 = 0 then "." ++ padded 3 (nanos / 1000000)
  else if nanos % 1000 = 0 then "." ++ padded 6 (nanos / 1000)
  else "." ++ padded 9 nanos

def text (t : Instant) : String :=
  let day := Day.ofDays (t.seconds / 86400)
  let inDay := (t.seconds % 86400).toNat
  let leap := t.nanos / nanosPerSecond
  yearText day.year ++ "-" ++ padded 2 day.month ++ "-" ++ padded 2 day.day ++ "T" ++
    padded 2 (inDay / 3600) ++ ":" ++ padded 2 (inDay / 60 % 60) ++ ":" ++
    padded 2 (inDay % 60 + leap) ++ fractionText (t.nanos % nanosPerSecond) ++ "Z"

def skipBlanks (cs : List Char) : List Char :=
  cs.dropWhile Text.isBlank

/-- Up to `most` digits, at least one of them, behind blanks. -/
def readNumber? (most : Nat) (cs : List Char) : Option (Nat × List Char) :=
  let digits := ((skipBlanks cs).take most).takeWhile Char.isDigit
  if digits.isEmpty then none
  else some (Nat.ofDigitChars 10 digits 0, (skipBlanks cs).drop digits.length)

/-- A year has up to four digits, or a sign and any number of them. -/
def readYear? (cs : List Char) : Option (Int × List Char) :=
  let signed (rest : List Char) : Option (Nat × List Char) :=
    match rest with
    | c :: _ => if c.isDigit then readNumber? rest.length rest else none
    | [] => none
  match skipBlanks cs with
  | '-' :: rest => (signed rest).map fun (year, rest) => (-(year : Int), rest)
  | '+' :: rest => (signed rest).map fun (year, rest) => ((year : Int), rest)
  | cs => (readNumber? 4 cs).map fun (year, rest) => ((year : Int), rest)

/-- A mark between two numbers, with blanks in front of it. -/
def readMark? (mark : Char) (cs : List Char) : Option (List Char) :=
  match skipBlanks cs with
  | c :: rest => if c = mark then some rest else none
  | [] => none

/-- The fraction of a second in nanoseconds; digits beyond the ninth are
dropped. -/
def readFraction? : List Char → Option (Nat × List Char)
  | '.' :: rest =>
      let digits := rest.takeWhile Char.isDigit
      let kept := digits.take 9
      if digits.isEmpty then none
      else some (Nat.ofDigitChars 10 kept 0 * Nat.pow 10 (9 - kept.length), rest.drop digits.length)
  | rest => some (0, rest)

def digit? (c : Char) : Option Nat :=
  if c.isDigit then some (c.toNat - 48) else none

def readPair? : List Char → Option (Nat × List Char)
  | a :: b :: rest =>
      match digit? a, digit? b with
      | some a, some b => some (a * 10 + b, rest)
      | _, _ => none
  | _ => none

/-- Hours and minutes in seconds, with or without a colon between them. -/
def readHoursAndMinutes? (cs : List Char) : Option (Int × List Char) := do
  let (hours, rest) ← readPair? cs
  let (minutes, rest) ← readPair? (rest.dropWhile fun c => c = ':' || Text.isBlank c)
  if minutes < 60 then some (hours * 3600 + minutes * 60, rest) else none

/-- The offset from universal time in seconds: `Z`, `UTC`, or a sign with hours
and minutes. -/
def readOffset? (cs : List Char) : Option (Int × List Char) :=
  match skipBlanks cs with
  | 'Z' :: rest | 'z' :: rest => some (0, rest)
  | '+' :: rest => readHoursAndMinutes? rest
  | '-' :: rest | '\u2212' :: rest =>
      (readHoursAndMinutes? rest).map fun (seconds, rest) => (-seconds, rest)
  | u :: t :: c :: rest =>
      if u.toUpper = 'U' ∧ t.toUpper = 'T' ∧ c.toUpper = 'C' then some (0, rest) else none
  | _ => none

/-- What stands between a date and a time of day. -/
def readGap? : List Char → Option (List Char)
  | 'T' :: rest | 't' :: rest | ' ' :: rest => some rest
  | _ => none

/-- Reads a date, `T` or a blank, a time of day and an offset.  Numbers may have
fewer digits than usual and blanks around them. -/
def ofText? (text : String) : Option Instant := do
  let (year, rest) ← readYear? text.toList
  let rest ← readMark? '-' rest
  let (month, rest) ← readNumber? 2 rest
  let rest ← readMark? '-' rest
  let (day, rest) ← readNumber? 2 rest
  let rest ← readGap? rest
  let (hour, rest) ← readNumber? 2 rest
  let rest ← readMark? ':' rest
  let (minute, rest) ← readNumber? 2 rest
  let rest ← readMark? ':' rest
  let (second, rest) ← readNumber? 2 rest
  let (nanos, rest) ← readFraction? rest
  let (offset, rest) ← readOffset? rest
  let date : Day := ⟨year, month, day⟩
  let leap := second = 60
  let inDay : Int := hour * 3600 + minute * 60 + if leap then 59 else second
  let seconds := date.toDays * 86400 + inDay - offset
  let nanos := if leap then nanos + nanosPerSecond else nanos
  if skipBlanks rest = [] ∧ date.isValid ∧ hour < 24 ∧ minute < 60 ∧ second ≤ 60 ∧
      offset.natAbs < 86400 ∧ (Day.ofDays (seconds / 86400)).isValid then
    some ⟨seconds, nanos⟩
  else none

end Instant

end Workflow
