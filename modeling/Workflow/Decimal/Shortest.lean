import Workflow.Double

/-! The shortest decimal that reads back as a given double.

A finite double is `m * 2 ^ q` with whole numbers `m` and `q`.  The reals that
round to it form an interval, whose ends belong to it exactly when `m` is even.
For one digit, two digits, and so on, the two neighbours of the double on the
grid of that many digits are tried; the first grid with a neighbour in the
interval gives the answer, and of two such neighbours the nearer one.
-/

namespace Workflow

/-- The value `digits * 10 ^ exponent`. -/
structure Decimal where
  digits : Nat
  exponent : Int
deriving DecidableEq, Repr

namespace Decimal

/-- The number of decimal digits of `n`; zero has one. -/
def digitCount (n : Nat) : Nat :=
  (Nat.toDigits 10 n).length

/-- A positive fraction with the interval of fractions that round to it; all
four numbers are over the common denominator `unit`. -/
structure Rounding where
  value : Nat
  low : Nat
  high : Nat
  unit : Nat
  closed : Bool

/-- The interval of a positive double reaches half way to either neighbour. -/
def rounding (x : Double.Magnitude) : Rounding :=
  let scale := 1 <<< x.exponent.toNat
  { value := 4 * x.mantissa * scale
    low := (4 * x.mantissa - if x.narrowBelow then 1 else 2) * scale
    high := (4 * x.mantissa + 2) * scale
    unit := 4 <<< (-x.exponent).toNat
    closed := x.mantissa % 2 = 0 }

namespace Rounding

/-- Whether `numerator / denominator` rounds to the value. -/
def admits (r : Rounding) (numerator denominator : Nat) : Bool :=
  let scaled := numerator * r.unit
  if r.closed then
    decide (r.low * denominator ≤ scaled) && decide (scaled ≤ r.high * denominator)
  else
    decide (r.low * denominator < scaled) && decide (scaled < r.high * denominator)

/-- The exponent of the leading digit: `10 ^ e` is at most the value and
`10 ^ (e + 1)` exceeds it.  No double is below `10 ^ -400`. -/
def magnitude (r : Rounding) : Int :=
  (digitCount (r.value * Nat.pow 10 400 / r.unit) : Int) - 401

/-- The nearest admitted decimal whose last digit stands at `10 ^ exponent`. -/
def onGrid? (r : Rounding) (exponent : Int) : Option Decimal :=
  let up := Nat.pow 10 exponent.toNat
  let down := Nat.pow 10 (-exponent).toNat
  let below := r.value * down / (r.unit * up)
  let above := below + 1
  let belowFits := r.admits (below * up) down
  let aboveFits := r.admits (above * up) down
  let twice := 2 * r.value * down
  let middle := (below + above) * r.unit * up
  let nearerBelow := twice < middle || (twice = middle && below % 2 = 0)
  if belowFits && (nearerBelow || !aboveFits) then some ⟨below, exponent⟩
  else if aboveFits then some ⟨above, exponent⟩
  else none

/-- Tries `count` grids from the coarsest on. -/
def search (r : Rounding) (exponent : Int) : Nat → Option Decimal
  | 0 => none
  | count + 1 =>
      match r.onGrid? exponent with
      | some found => some found
      | none => r.search (exponent - 1) count

end Rounding

/-- Moves the zeros at the end of the digits into the exponent. -/
def trim (d : Decimal) : Decimal :=
  let rec go : Nat → Nat → Int → Decimal
    | 0, digits, exponent => ⟨digits, exponent⟩
    | fuel + 1, digits, exponent =>
        if digits ≠ 0 ∧ digits % 10 = 0 then go fuel (digits / 10) (exponent + 1)
        else ⟨digits, exponent⟩
  go d.digits d.digits d.exponent

/-- The shortest decimal that reads back as the magnitude of a finite double;
seventeen digits always suffice. -/
def ofFloat (x : Float) : Decimal :=
  let magnitude := Double.magnitude x
  if magnitude.mantissa = 0 then ⟨0, 0⟩
  else
    let r := rounding magnitude
    ((r.search r.magnitude 17).getD ⟨0, 0⟩).trim

/-- How a decimal is laid out as text: `leastPlain` and `mostPlain` bound the
exponents of the leading digit that are written without an exponent, and
`signed` says whether a positive exponent carries its sign. -/
structure Layout where
  leastPlain : Int
  mostPlain : Int
  signed : Bool

/-- The text of a decimal.  Plain notation always shows a decimal point;
exponent notation shows one only between digits. -/
def render (layout : Layout) (d : Decimal) : String :=
  let digits := Nat.toDigits 10 d.digits
  let leading := d.exponent + digits.length - 1
  if d.digits = 0 then "0.0"
  else if layout.leastPlain ≤ leading ∧ leading ≤ layout.mostPlain then
    if 0 ≤ d.exponent then
      String.ofList (digits ++ List.replicate d.exponent.toNat '0') ++ ".0"
    else if 0 ≤ leading then
      let whole := leading.toNat + 1
      String.ofList (digits.take whole ++ '.' :: digits.drop whole)
    else
      "0." ++ String.ofList (List.replicate (-leading - 1).toNat '0' ++ digits)
  else
    let tail := digits.drop 1
    let mantissa := digits.take 1 ++ if tail.isEmpty then [] else '.' :: tail
    let sign := if 0 ≤ leading ∧ layout.signed then "+" else ""
    String.ofList mantissa ++ "e" ++ sign ++ toString leading

end Decimal

end Workflow
