/-! Bounds on a run. -/

namespace Workflow

/-- The longest time one call of a delegate may take, in milliseconds; how deep
activations and subflows may follow one another; and how often a while-loop
that names no bound of its own repeats. -/
structure Limits where
  nodeTimeout : Nat
  maxDepth : Nat
  maxWhileIterations : Nat
deriving DecidableEq, Repr

/-- A number without the zeros at the end of its digits, behind a decimal
point; nothing for zero. -/
def fractionOf (digits : List Char) : List Char :=
  match (digits.reverse.dropWhile (· = '0')).reverse with
  | [] => []
  | kept => '.' :: kept

/-- A time in milliseconds, as messages give it: in seconds from one second
on. -/
def durationText (millis : Nat) : String :=
  if millis = 0 then "0ns"
  else if millis < 1000 then s!"{millis}ms"
  else
    let digits := Nat.toDigits 10 (millis % 1000)
    let places := List.replicate (3 - digits.length) '0' ++ digits
    s!"{millis / 1000}" ++ String.ofList (fractionOf places) ++ "s"

example : [0, 50, 1000, 1500, 30000, 60001].map durationText =
    ["0ns", "50ms", "1s", "1.5s", "30s", "60.001s"] := by
  decide +kernel

end Workflow
