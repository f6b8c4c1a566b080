/-! Finite doubles as exact binary numbers.

The magnitude of a finite double is `mantissa * 2 ^ exponent`.  Reading it off
the bits makes the whole value of a double, and the remainder of two doubles,
plain integer arithmetic.
-/

namespace Workflow.Double

/-- The number `mantissa * 2 ^ exponent`.  `narrowBelow` says that the next
smaller double is half as far away as the next larger one. -/
structure Magnitude where
  mantissa : Nat
  exponent : Int
  narrowBelow : Bool
deriving DecidableEq, Repr

def isNegative (x : Float) : Bool :=
  decide (1 <<< 63 ≤ x.toBits.toNat)

def magnitude (x : Float) : Magnitude :=
  let bits := x.toBits.toNat
  let fraction : Nat := bits % (1 <<< 52)
  let biased : Nat := (bits >>> 52) % (1 <<< 11)
  if biased = 0 then ⟨fraction, -1074, false⟩
  else ⟨(1 <<< 52) + fraction, (biased : Int) - 1075, fraction = 0 && 1 < biased⟩

/-- The integer that a double equals, if it equals one. -/
def whole? (x : Float) : Option Int :=
  let m := magnitude x
  let unit := 1 <<< (-m.exponent).toNat
  if x.isFinite ∧ m.mantissa % unit = 0 then
    let size : Nat := (m.mantissa <<< m.exponent.toNat) / unit
    some (if isNegative x then -(size : Int) else size)
  else none

/-- The double `mantissa * 2 ^ exponent`, for numbers that are doubles. -/
def ofScaled (mantissa : Nat) (exponent : Int) : Float :=
  let length := if mantissa = 0 then 0 else mantissa.log2 + 1
  let place : Int := max (exponent + length - 53) (-1074)
  let aligned : Nat :=
    (mantissa <<< (exponent - place).toNat) >>> (place - exponent).toNat
  let bits : Nat :=
    if aligned < 1 <<< 52 then aligned
    else ((place + 1075).toNat <<< 52) + (aligned - (1 <<< 52))
  Float.ofBits bits.toUInt64

/-- The remainder of `x` by a non-zero `y`, with the sign of `x`: what is left
of `x` after a whole number of `y`, rounding the quotient toward zero.  It is
always a double, so nothing is rounded. -/
def remainder (x y : Float) : Float :=
  let m := magnitude x
  let n := magnitude y
  let place := min m.exponent n.exponent
  let left := (m.mantissa <<< (m.exponent - place).toNat) %
    (n.mantissa <<< (n.exponent - place).toNat)
  let size := ofScaled left place
  if isNegative x then -size else size

end Workflow.Double
