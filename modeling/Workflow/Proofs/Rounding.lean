import Workflow.Proofs.FiniteDoubles

/-! Integers as doubles.

A double has 53 digits, so of an integer with more of them the last ones are rounded off:
`nearest` is the integer that is left.  A double `Stands` for an integer if it is exactly that
number.  Every integer that a text can give becomes the double that stands for the nearest
one, and doubles compare as the integers do that they stand for.
-/

open Float.Model (UnpackedFloat Format totalExponent)
open Float.Model.UnpackedFloat

namespace Workflow.Double

/-- How often a unit goes into a number, rounded to the nearest count and between two that
are as near to the even one. -/
def nearestCount (number unit : Nat) : Nat :=
  let count := number / unit
  let rest := number % unit
  if 2 * rest < unit ∨ 2 * rest = unit ∧ count % 2 = 0 then count else count + 1

theorem nearestCount_mul_right (number unit : Nat) {factor : Nat} (positive : 0 < factor) :
    nearestCount (number * factor) (unit * factor) = nearestCount number unit := by
  have double (rest : Nat) : 2 * (rest * factor) = 2 * rest * factor := by rw [Nat.mul_assoc]
  simp only [nearestCount, Nat.mul_div_mul_right _ _ positive, Nat.mul_mod_mul_right, double,
    Nat.mul_lt_mul_right positive, Nat.mul_left_inj (Nat.ne_of_gt positive)]

@[simp] theorem nearestCount_mul (count : Nat) {unit : Nat} (positive : 0 < unit) :
    nearestCount (count * unit) unit = count := by
  simp [nearestCount, positive]

theorem nearestCount_one (number : Nat) : nearestCount number 1 = number := by
  simpa using nearestCount_mul number Nat.one_pos

theorem nearestCount_mono {first second : Nat} (unit : Nat) (less : first ≤ second) :
    nearestCount first unit ≤ nearestCount second unit := by
  unfold nearestCount
  dsimp only
  have counts : first / unit ≤ second / unit := Nat.div_le_div_right less
  have whole := Nat.div_add_mod first unit
  have other := Nat.div_add_mod second unit
  by_cases same : first / unit = second / unit
  · rw [same] at whole ⊢
    split <;> split <;> omega
  · split <;> split <;> omega

theorem shift_bits (mantissa places : Nat) :
    ExtendedMantissa.mk mantissa false false >>> (places + 1) =
      ⟨mantissa / 2 ^ (places + 1), mantissa / 2 ^ places % 2 != 0,
        mantissa % 2 ^ places != 0⟩ := by
  induction places with
  | zero =>
      simp [HShiftRight.hShiftRight, Nat.repeat, ExtendedMantissa.shiftRightOne, Nat.mod_one]
  | succ places ih =>
      show (ExtendedMantissa.mk mantissa false false >>> (places + 1)).shiftRightOne = _
      have dropped := Nat.mod_pow_succ (x := mantissa) (b := 2) (k := places)
      rw [ih, ExtendedMantissa.shiftRightOne, Nat.div_div_eq_div_mul, ← Nat.pow_succ, dropped]
      congr 1
      rcases Nat.mod_two_eq_zero_or_one (mantissa / 2 ^ places) with even | odd
      · simp [even]
      · simp [odd]

theorem roundedMantissa_eq (count : Nat) (half more : Bool) :
    (ExtendedMantissa.mk count half more).roundedMantissa =
      if half = false ∨ more = false ∧ count % 2 = 0 then count else count + 1 := by
  cases half <;> cases more <;>
    simp [ExtendedMantissa.roundedMantissa, ExtendedMantissa.accuracy,
      Accuracy.roundToNearestEven]
  split <;> omega

/-- The digits that a shift drops are rounded to the nearest count of what the last digit
stands for. -/
theorem roundedMantissa_shift (mantissa places : Nat) :
    (ExtendedMantissa.mk mantissa false false >>> places).roundedMantissa =
      nearestCount mantissa (2 ^ places) := by
  cases places with
  | zero => exact (nearestCount_one mantissa).symm
  | succ places =>
      rw [shift_bits, roundedMantissa_eq, nearestCount, Nat.mod_pow_succ]
      have below := Nat.mod_lt mantissa (Nat.two_pow_pos places)
      have digit := Nat.mod_two_eq_zero_or_one (mantissa / 2 ^ places)
      refine if_congr ?_ rfl rfl
      simp only [bne_eq_false_iff_eq]
      rcases digit with digit | digit <;> rw [digit] <;> omega

/-- What the last of 53 digits of a number stands for. -/
def unit (number : Nat) : Nat :=
  2 ^ (number.log2 - 52)

/-- A number rounded to 53 digits. -/
def nearestNat (number : Nat) : Nat :=
  nearestCount number (unit number) * unit number

/-- An integer rounded to 53 digits, in the same way on both sides of zero. -/
def nearest : Int → Int
  | .ofNat size => nearestNat size
  | .negSucc size => -nearestNat (size + 1)

/-- Of the digits of a number, 53 stay, and then one is added to the last or not. -/
theorem nearestCount_digits {number : Nat} (digits : 52 ≤ number.log2) :
    2 ^ 52 ≤ nearestCount number (2 ^ (number.log2 - 52)) ∧
      nearestCount number (2 ^ (number.log2 - 52)) ≤ 2 ^ 53 := by
  have nonzero : number ≠ 0 := by
    rintro rfl
    simp at digits
  have first : 2 ^ 52 * 2 ^ (number.log2 - 52) = 2 ^ number.log2 := by
    rw [← Nat.pow_add]
    congr 1
    omega
  have unit := Nat.two_pow_pos (number.log2 - 52)
  constructor
  · calc
      2 ^ 52 = nearestCount (2 ^ 52 * 2 ^ (number.log2 - 52)) (2 ^ (number.log2 - 52)) :=
        (nearestCount_mul _ unit).symm
      _ ≤ _ := nearestCount_mono _ (first.trans_le (Nat.log2_self_le nonzero))
  · calc
      _ ≤ nearestCount (2 ^ 53 * 2 ^ (number.log2 - 52)) (2 ^ (number.log2 - 52)) := by
        refine nearestCount_mono _ (Nat.le_of_lt ?_)
        have last := Nat.lt_log2_self (n := number)
        omega
      _ = 2 ^ 53 := nearestCount_mul _ unit

theorem nearestNat_of_le {number : Nat} (short : number ≤ 2 ^ 53) : nearestNat number = number := by
  rcases Nat.lt_or_eq_of_le short with less | rfl
  · have one : unit number = 1 := by
      have := log2_le less
      rw [unit, Nat.sub_eq_zero_of_le this, Nat.pow_zero]
    rw [nearestNat, one, nearestCount_one, Nat.mul_one]
  · decide

theorem nearestNat_bounds {number : Nat} (positive : 0 < number) :
    2 ^ number.log2 ≤ nearestNat number ∧ nearestNat number ≤ 2 ^ (number.log2 + 1) := by
  have nonzero : number ≠ 0 := Nat.ne_of_gt positive
  by_cases digits : 52 ≤ number.log2
  · have length (last : Nat) : 2 ^ (52 + last) * unit number = 2 ^ (number.log2 + last) := by
      rw [unit, ← Nat.pow_add]
      congr 1
      omega
    obtain ⟨low, high⟩ := nearestCount_digits digits
    constructor
    · exact (length 0).symm.trans_le (Nat.mul_le_mul_right _ low)
    · exact (Nat.mul_le_mul_right _ high).trans_eq (length 1)
  · have short : number < 2 ^ 53 := by
      rw [← Nat.log2_lt nonzero]
      omega
    rw [nearestNat_of_le (Nat.le_of_lt short)]
    exact ⟨Nat.log2_self_le nonzero, Nat.le_of_lt Nat.lt_log2_self⟩

theorem nearestNat_mono {first second : Nat} (less : first ≤ second) :
    nearestNat first ≤ nearestNat second := by
  rcases Nat.eq_zero_or_pos first with rfl | positive
  · exact Nat.zero_le _
  have order : first.log2 ≤ second.log2 :=
    (Nat.le_log2 (by omega)).mpr ((Nat.log2_self_le (by omega)).trans less)
  rcases Nat.lt_or_eq_of_le order with shorter | same
  · calc
      nearestNat first ≤ 2 ^ (first.log2 + 1) := (nearestNat_bounds positive).2
      _ ≤ 2 ^ second.log2 := Nat.pow_le_pow_right (by decide) shorter
      _ ≤ nearestNat second := (nearestNat_bounds (positive.trans_le less)).1
  · have sameUnit : unit first = unit second := by rw [unit, same, unit]
    rw [nearestNat, nearestNat, sameUnit]
    exact Nat.mul_le_mul_right _ (nearestCount_mono _ less)

theorem nearest_of_natAbs_le {number : Int} (short : number.natAbs ≤ 2 ^ 53) :
    nearest number = number := by
  cases number with
  | ofNat size => exact congrArg Int.ofNat (nearestNat_of_le short)
  | negSucc size =>
      have short : size + 1 ≤ 2 ^ 53 := short
      rw [nearest, nearestNat_of_le short]
      rfl

theorem nearest_apply (sign : Sign) (size : Nat) :
    nearest (sign.apply size) = sign.apply (nearestNat size) := by
  cases sign with
  | positive => rfl
  | negative => cases size <;> rfl

theorem nearest_mono {first second : Int} (less : first ≤ second) :
    nearest first ≤ nearest second := by
  cases first with
  | ofNat first =>
      cases second with
      | ofNat second => exact Int.ofNat_le.mpr (nearestNat_mono (Int.ofNat_le.mp less))
      | negSucc second =>
          have negative := less.trans_lt (Int.negSucc_lt_zero second)
          exact absurd negative (Int.not_lt.mpr (Int.natCast_nonneg first))
  | negSucc first =>
      cases second with
      | ofNat second => simp only [nearest]; omega
      | negSucc second =>
          have sizes : second + 1 ≤ first + 1 := by omega
          exact Int.neg_le_neg (Int.ofNat_le.mpr (nearestNat_mono sizes))

/-- Rounding may make integers equal but does not swap them. -/
theorem compare_nearest {first second : Int} (apart : nearest first ≠ nearest second) :
    compare (nearest first) (nearest second) = compare first second := by
  rcases Int.lt_trichotomy first second with less | rfl | more
  · have below := nearest_mono (Int.le_of_lt less)
    rw [Int.compare_eq_lt.mpr less, Int.compare_eq_lt.mpr (by omega)]
  · exact absurd rfl apart
  · have above := nearest_mono (Int.le_of_lt more)
    rw [Int.compare_eq_gt.mpr more, Int.compare_eq_gt.mpr (by omega)]

/-- Whether a double is exactly the given integer.  It is zero, or it has 53 digits, the first
of them not zero, and the power of two that the last one stands for. -/
def Stands (value : Int) : UnpackedFloat → Prop
  | .zero _ => value = 0
  | .finite sign mantissa exponent _ =>
      (2 ^ 52 ≤ mantissa ∧ mantissa < 2 ^ 53) ∧ -52 ≤ exponent ∧
        value * 2 ^ 52 = sign.apply (mantissa * 2 ^ (exponent + 52).toNat : Nat)
  | _ => False

theorem log2_mul_two_pow {number : Nat} (positive : 0 < number) (places : Nat) :
    (number * 2 ^ places).log2 = number.log2 + places := by
  induction places with
  | zero => simp
  | succ places ih =>
      have nonzero : number * 2 ^ places ≠ 0 :=
        Nat.ne_of_gt (Nat.mul_pos positive (Nat.two_pow_pos places))
      rw [Nat.pow_succ, ← Nat.mul_assoc, Nat.mul_comm, Nat.log2_two_mul nonzero, ih]
      rfl

theorem log2_of_normal {number : Nat} (low : 2 ^ 52 ≤ number) (high : number < 2 ^ 53) :
    number.log2 = 52 :=
  (Nat.log2_eq_iff (by omega)).mpr ⟨low, high⟩

theorem places_of_digits {mantissa : Nat} {exponent : Int} (digits : 52 ≤ mantissa.log2)
    (least : -1022 ≤ exponent + mantissa.log2) : places mantissa exponent = mantissa.log2 - 52 := by
  simp only [places]
  omega

theorem stands_finite {mantissa value : Nat} {exponent : Int} (low : 2 ^ 52 ≤ mantissa)
    (high : mantissa < 2 ^ 53) (least : -52 ≤ exponent)
    (same : mantissa * 2 ^ (exponent + 52).toNat = value * 2 ^ 52) (sign : Sign)
    (positive : 0 < mantissa) :
    Stands (sign.apply value) (.finite sign mantissa exponent positive) := by
  refine ⟨⟨low, high⟩, least, ?_⟩
  rw [same]
  cases sign <;> simp [Sign.apply]

/-- What a number of at least 53 digits is rounded to. -/
theorem round_stands {mantissa value : Nat} {exponent : Int} (digits : 52 ≤ mantissa.log2)
    (least : 0 ≤ exponent + mantissa.log2)
    (rounded : nearestCount mantissa (2 ^ (mantissa.log2 - 52)) *
      2 ^ (exponent + mantissa.log2).toNat = value * 2 ^ 52) (sign : Sign) :
    Stands (sign.apply value) (roundWithAccuracy .binary64 sign mantissa exponent .exact) := by
  obtain ⟨low, high⟩ := nearestCount_digits digits
  unfold roundWithAccuracy
  rw [shiftToTarget_eq]
  dsimp only
  rw [shiftToTarget_eq, roundedMantissa_shift, places_of_digits digits (by omega)]
  dsimp only
  generalize nearestCount mantissa (2 ^ (mantissa.log2 - 52)) = count at *
  generalize shifted : exponent + (mantissa.log2 - 52 : Nat) = place
  have length : (exponent + mantissa.log2).toNat = (place + 52).toNat := by omega
  rw [length] at rounded
  rcases Nat.lt_or_eq_of_le high with below | rfl
  · have fits := log2_of_normal low below
    have none : places count place = 0 := by rw [places_of_digits fits.ge (by omega), fits]
    have last : (ExtendedMantissa.mk count false false >>> 0).mantissa = count := by
      rw [shift_mantissa, Nat.pow_zero, Nat.div_one]
    rw [none, dif_neg (by rw [last]; omega)]
    refine stands_finite (last.symm ▸ low) (last.symm ▸ below) (by omega) ?_ sign _
    rw [last, Int.natCast_zero, Int.add_zero, rounded]
  · have one : places (2 ^ 53) place = 1 := by
      rw [places_of_digits (by decide) (by rw [Nat.log2_two_pow]; omega), Nat.log2_two_pow]
    have last : (ExtendedMantissa.mk (2 ^ 53) false false >>> 1).mantissa = 2 ^ 52 := by
      rw [shift_mantissa]
      rfl
    rw [one, dif_neg (by rw [last]; decide)]
    refine stands_finite last.ge (last.trans_lt (by decide)) (by omega) ?_ sign _
    rw [last, ← rounded, Nat.pow_succ 2 52, Nat.mul_assoc, ← Nat.pow_succ']
    congr 2
    omega

/-- A number is rounded as the natural number that it is in its place.  The place is given as
a difference, so that it may lie in front of the last digit of that number or behind it. -/
theorem scaled_stands {mantissa value up down : Nat} (positive : 0 < mantissa)
    (digits : 52 ≤ mantissa.log2) (same : mantissa * 2 ^ up = value * 2 ^ down) (sign : Sign) :
    Stands (sign.apply (nearestNat value))
      (roundWithAccuracy .binary64 sign mantissa (up - down) .exact) := by
  have nonzero : 0 < value := by
    have := Nat.mul_pos positive (Nat.two_pow_pos up)
    exact Nat.pos_of_ne_zero fun none => by simp [same, none] at this
  have length : mantissa.log2 + up = value.log2 + down := by
    rw [← log2_mul_two_pow positive, same, log2_mul_two_pow nonzero]
  refine round_stands digits (by omega) ?_ sign
  have exponent : ((up : Int) - down + mantissa.log2).toNat = value.log2 := by omega
  rw [exponent]
  by_cases long : 52 ≤ value.log2
  · have whole : 2 ^ value.log2 = unit value * 2 ^ 52 := by
      rw [unit, ← Nat.pow_add]
      congr 1
      omega
    have counts : nearestCount mantissa (2 ^ (mantissa.log2 - 52)) =
        nearestCount value (unit value) := by
      have units : 2 ^ (mantissa.log2 - 52) * 2 ^ up = unit value * 2 ^ down := by
        rw [unit, ← Nat.pow_add, ← Nat.pow_add]
        congr 1
        omega
      rw [← nearestCount_mul_right _ _ (Nat.two_pow_pos up), same, units,
        nearestCount_mul_right _ _ (Nat.two_pow_pos down)]
    rw [counts, whole, nearestNat, Nat.mul_assoc]
  · have short : value ≤ 2 ^ 53 := by
      have := Nat.lt_log2_self (n := value)
      have := Nat.pow_le_pow_right (n := 2) (by decide) (show value.log2 + 1 ≤ 53 by omega)
      omega
    have split : mantissa = value * 2 ^ (52 - value.log2) * 2 ^ (mantissa.log2 - 52) := by
      refine Nat.eq_of_mul_eq_mul_right (Nat.two_pow_pos up) ?_
      rw [same, Nat.mul_assoc, Nat.mul_assoc, ← Nat.pow_add, ← Nat.pow_add]
      congr 2
      omega
    have counts : nearestCount mantissa (2 ^ (mantissa.log2 - 52)) =
        value * 2 ^ (52 - value.log2) := by
      conv_lhs => arg 1; rw [split]
      exact nearestCount_mul _ (Nat.two_pow_pos _)
    rw [counts, nearestNat_of_le short, Nat.mul_assoc, ← Nat.pow_add]
    congr 2
    omega

/-- The integer that a double with digits stands for has its sign. -/
theorem Stands.finite {value exponent : Int} {sign : Sign} {mantissa : Nat}
    {positive : 0 < mantissa} (stands : Stands value (.finite sign mantissa exponent positive)) :
    ∃ size : Nat, value = sign.apply size ∧
      mantissa * 2 ^ (exponent + 52).toNat = size * 2 ^ 52 := by
  obtain ⟨_, _, same⟩ := stands
  generalize mantissa * 2 ^ (exponent + 52).toNat = scaled at *
  refine ⟨value.natAbs, ?_⟩
  cases sign <;> simp only [Sign.apply] at same ⊢ <;> omega

theorem mul_finite (sign other : Sign) {mantissa factor : Nat} (exponent place : Int)
    (positive : 0 < mantissa) (nonzero : 0 < factor) :
    mul .binary64 (.finite sign mantissa exponent positive) (.finite other factor place nonzero) =
      roundWithAccuracy .binary64 (sign * other) (mantissa * factor) (exponent + place) .exact :=
  rfl

/-- What a double stands for has been rounded. -/
theorem nearest_of_stands {value : Int} {number : UnpackedFloat} (stands : Stands value number) :
    nearest value = value := by
  cases number with
  | zero =>
      obtain rfl : value = 0 := stands
      rfl
  | finite sign mantissa exponent positive =>
      obtain ⟨size, rfl, same⟩ := stands.finite
      obtain ⟨⟨low, high⟩, least, _⟩ := stands
      rw [nearest_apply]
      congr 2
      by_cases short : size ≤ 2 ^ 53
      · exact nearestNat_of_le short
      · have nonzero : 0 < size := by omega
        have length : 52 + (exponent + 52).toNat = size.log2 + 52 := by
          rw [← log2_of_normal low high, ← log2_mul_two_pow positive, same,
            log2_mul_two_pow nonzero, log2_of_normal low high]
        have long : 53 ≤ size.log2 := (Nat.le_log2 (by omega)).mpr (by omega)
        have units : (exponent + 52).toNat = size.log2 - 52 + 52 := by omega
        have split : mantissa * unit size = size := by
          rw [units, Nat.pow_add, ← Nat.mul_assoc] at same
          exact Nat.eq_of_mul_eq_mul_right (Nat.two_pow_pos 52) same
        have count : nearestCount size (unit size) = mantissa := by
          conv_lhs => arg 1; rw [← split]
          exact nearestCount_mul _ (Nat.two_pow_pos _)
        rw [nearestNat, count, split]
  | infinity | notANumber => contradiction

theorem apply_mul_apply (sign other : Sign) (size count : Nat) :
    sign.apply size * other.apply count = (sign * other).apply (size * count : Nat) := by
  cases sign <;> cases other
  · exact Int.neg_mul_neg _ _
  · exact Int.neg_mul _ _
  · exact Int.mul_neg _ _
  · rfl

/-- Products of integers are rounded. -/
theorem mul_stands {first second : Int} {left right : UnpackedFloat}
    (leftStands : Stands first left) (rightStands : Stands second right) :
    Stands (nearest (first * second)) (mul .binary64 left right) := by
  cases left with
  | infinity | notANumber => contradiction
  | zero =>
      obtain rfl : first = 0 := leftStands
      cases right with
      | infinity | notANumber => contradiction
      | zero | finite => exact congrArg nearest (Int.zero_mul second)
  | finite sign mantissa exponent positive =>
      cases right with
      | infinity | notANumber => contradiction
      | zero =>
          obtain rfl : second = 0 := rightStands
          exact congrArg nearest (Int.mul_zero first)
      | finite other factor place nonzero =>
          obtain ⟨size, rfl, same⟩ := leftStands.finite
          obtain ⟨count, rfl, counted⟩ := rightStands.finite
          obtain ⟨⟨low, _⟩, least, _⟩ := leftStands
          obtain ⟨_, bottom, _⟩ := rightStands
          have scaled : mantissa * factor * 2 ^ ((exponent + 52).toNat + (place + 52).toNat) =
              size * count * 2 ^ (52 + 52) := by
            rw [Nat.pow_add, Nat.pow_add, Nat.mul_mul_mul_comm, same, counted,
              Nat.mul_mul_mul_comm]
          have more := Nat.mul_pos positive nonzero
          have long : 52 ≤ (mantissa * factor).log2 :=
            (Nat.le_log2 (by omega)).mpr (low.trans (Nat.le_mul_of_pos_right _ nonzero))
          have placed : exponent + place =
              ((exponent + 52).toNat + (place + 52).toNat : Nat) - (52 + 52 : Nat) := by
            omega
          rw [mul_finite, apply_mul_apply, nearest_apply, placed]
          exact scaled_stands more long scaled _

theorem ofBitVec_unpackSign {spec : Format} {sign : Sign} {exponent mantissa} :
    Sign.ofBitVec (unpackSign (packComponents spec sign exponent mantissa)) = sign := by
  have bit : unpackSign (packComponents spec sign exponent mantissa) = sign.toBitVec := by
    ext place first
    obtain rfl : place = 0 := by omega
    delta unpackSign packComponents
    simp [BitVec.getLsbD_append, BitVec.getElem_append]
  rw [bit]
  cases sign <;> rfl

section Unpacking

variable {bits : BitVec Format.binary64.numBits}

theorem unpackExponent_ne_of_zero (low : unpackExponent bits = 0#11) :
    unpackExponent bits ≠ -1#11 := by
  rw [low]
  decide

theorem unpack_zero (low : unpackExponent bits = 0#11) (empty : unpackMantissa bits = 0#52) :
    unpack .binary64 bits = .zero (Sign.ofBitVec (unpackSign bits)) := by
  delta unpack
  rw [if_neg (unpackExponent_ne_of_zero low), if_pos low, dif_pos empty]

/-- A number below the normal ones has all its digits stored. -/
theorem unpack_subnormal (low : unpackExponent bits = 0#11)
    (filled : unpackMantissa bits ≠ 0#52) :
    unpack .binary64 bits =
      .finite (Sign.ofBitVec (unpackSign bits)) (unpackMantissa bits).toNat (-1074)
        (Nat.pos_of_ne_zero fun empty => filled (BitVec.eq_of_toNat_eq empty)) := by
  delta unpack
  rw [if_neg (unpackExponent_ne_of_zero low), if_pos low, dif_neg filled,
    UnpackedFloat.finite.injEq, low]
  exact ⟨rfl, rfl, rfl⟩

/-- The first digit of a normal number is not stored. -/
theorem unpack_normal (finite : unpackExponent bits ≠ -1#11)
    (normal : unpackExponent bits ≠ 0#11) :
    unpack .binary64 bits =
      .finite (Sign.ofBitVec (unpackSign bits)) (2 ^ 52 + (unpackMantissa bits).toNat)
        ((unpackExponent bits).toNat - 1075) (by omega) := by
  have first : (1#1 ++ unpackMantissa bits).toNat = 2 ^ 52 + (unpackMantissa bits).toNat := by
    have stored : (unpackMantissa bits).toNat < 2 ^ 52 := BitVec.isLt _
    rw [BitVec.toNat_append, ← Nat.shiftLeft_add_eq_or_of_lt stored]
    rfl
  delta unpack
  rw [if_neg finite, if_neg normal, UnpackedFloat.finite.injEq]
  exact ⟨rfl, first, rfl⟩

end Unpacking

theorem pack_normal (sign : Sign) {mantissa : Nat} {exponent : Int} (fits : mantissa.log2 = 52)
    (most : exponent ≤ 12) (nonzero : 0 < mantissa) :
    UnpackedFloat.pack .binary64 (.finite sign mantissa exponent nonzero) =
      packComponents .binary64 sign (BitVec.ofNat 11 (exponent + 1075).toNat)
        (BitVec.ofNat 52 mantissa) := by
  have biased : (exponent + Format.binary64.exponentBias +
      Format.binary64.mantissaBitsWithoutImplicit).toNat = (exponent + 1075).toNat := by
    have bias : ((Format.binary64.exponentBias : Nat) : Int) = 1023 := rfl
    have width : ((Format.binary64.mantissaBitsWithoutImplicit : Nat) : Int) = 52 := rfl
    omega
  have digits : mantissa.log2 + 1 = Format.binary64.mantissaBits := by rw [fits]; rfl
  delta UnpackedFloat.pack
  dsimp only
  rw [biased, if_neg, if_pos digits]
  show ¬ 2 ^ 11 ≤ _
  omega

theorem unpack_pack_normal (sign : Sign) {mantissa : Nat} {exponent : Int}
    (low : 2 ^ 52 ≤ mantissa) (high : mantissa < 2 ^ 53) (least : -52 ≤ exponent)
    (most : exponent ≤ 12) (nonzero : 0 < mantissa) :
    unpack .binary64 (UnpackedFloat.pack .binary64 (.finite sign mantissa exponent nonzero)) =
      .finite sign mantissa exponent nonzero := by
  have biased : (BitVec.ofNat 11 (exponent + 1075).toNat).toNat = (exponent + 1075).toNat := by
    rw [BitVec.toNat_ofNat, Nat.mod_eq_of_lt (by omega)]
  have apart (value : BitVec 11) (other : value.toNat ≠ (exponent + 1075).toNat) :
      BitVec.ofNat 11 (exponent + 1075).toNat ≠ value := by
    rintro rfl
    exact other biased
  rw [pack_normal sign (log2_of_normal low high) most, unpack_normal, UnpackedFloat.finite.injEq]
  · refine ⟨ofBitVec_unpackSign, ?_, ?_⟩
    · rw [unpackMantissa_packComponents]
      show 2 ^ 52 + (BitVec.ofNat 52 mantissa).toNat = mantissa
      rw [BitVec.toNat_ofNat]
      omega
    · rw [unpackExponent_packComponents, biased]
      omega
  · rw [unpackExponent_packComponents]
    exact apart _ (by simp; omega)
  · rw [unpackExponent_packComponents]
    exact apart _ (by simp; omega)

/-- An integer that is not too large is unpacked as it was packed. -/
theorem unpack_pack {value : Int} {number : UnpackedFloat} (stands : Stands value number)
    (small : value.natAbs ≤ 2 ^ 64) : (Float.Model.pack number).unpack = number := by
  show unpack .binary64 (UnpackedFloat.pack .binary64 number) = number
  cases number with
  | zero sign =>
      show unpack .binary64 (packComponents .binary64 sign 0#11 0#52) = _
      rw [unpack_zero unpackExponent_packComponents unpackMantissa_packComponents,
        ofBitVec_unpackSign]
  | finite sign mantissa exponent nonzero =>
      obtain ⟨size, rfl, same⟩ := stands.finite
      obtain ⟨⟨low, high⟩, least, _⟩ := stands
      have bounded : size ≤ 2 ^ 64 := by
        cases sign <;> simpa [Sign.apply] using small
      have power : 2 ^ 52 * 2 ^ (exponent + 52).toNat ≤ 2 ^ 52 * 2 ^ 64 := by
        calc
          _ ≤ mantissa * 2 ^ (exponent + 52).toNat := Nat.mul_le_mul_right _ low
          _ = size * 2 ^ 52 := same
          _ ≤ _ := by omega
      have place : (exponent + 52).toNat ≤ 64 :=
        (Nat.pow_le_pow_iff_right (by decide)).mp (Nat.le_of_mul_le_mul_left power (by decide))
      exact unpack_pack_normal sign low high least (by omega) nonzero
  | infinity | notANumber => contradiction

theorem neg_stands {value : Int} {number : UnpackedFloat} (stands : Stands value number) :
    Stands (-value) number.neg := by
  cases number with
  | zero =>
      obtain rfl : value = 0 := stands
      rfl
  | finite sign mantissa exponent nonzero =>
      obtain ⟨digits, range, same⟩ := stands
      refine ⟨digits, range, ?_⟩
      rw [Int.neg_mul, same]
      cases sign
      · exact Int.neg_neg _
      · rfl
  | infinity | notANumber => contradiction

/-- Of two numbers with 53 digits, the one whose last digit stands for more is greater. -/
theorem scaled_lt {mantissa other : Nat} {exponent place : Int} (high : mantissa < 2 ^ 53)
    (low : 2 ^ 52 ≤ other) (least : -52 ≤ exponent) (less : exponent < place) :
    mantissa * 2 ^ (exponent + 52).toNat < other * 2 ^ (place + 52).toNat := by
  calc
    mantissa * 2 ^ (exponent + 52).toNat < 2 ^ 53 * 2 ^ (exponent + 52).toNat :=
      Nat.mul_lt_mul_of_pos_right high (Nat.two_pow_pos _)
    _ = 2 ^ 52 * 2 ^ ((exponent + 52).toNat + 1) := by
      rw [← Nat.pow_add, ← Nat.pow_add]
      congr 1
      omega
    _ ≤ 2 ^ 52 * 2 ^ (place + 52).toNat :=
      Nat.mul_le_mul_left _ (Nat.pow_le_pow_right (by decide) (by omega))
    _ ≤ other * 2 ^ (place + 52).toNat := Nat.mul_le_mul_right _ low

/-- So numbers with 53 digits compare by what the last digit stands for and then by their
digits. -/
theorem compare_normal {mantissa other first second : Nat} {exponent place : Int}
    (digits : 2 ^ 52 ≤ mantissa ∧ mantissa < 2 ^ 53) (least : -52 ≤ exponent)
    (same : mantissa * 2 ^ (exponent + 52).toNat = first * 2 ^ 52)
    (otherDigits : 2 ^ 52 ≤ other ∧ other < 2 ^ 53) (otherLeast : -52 ≤ place)
    (otherSame : other * 2 ^ (place + 52).toNat = second * 2 ^ 52) :
    (compare exponent place).then (compare mantissa other) = compare (first : Int) second := by
  rcases Int.lt_trichotomy exponent place with less | rfl | more
  · have below := scaled_lt digits.2 otherDigits.1 least less
    rw [Int.compare_eq_lt.mpr less, Int.compare_eq_lt.mpr (by omega)]
    rfl
  · have unit := Nat.two_pow_pos (exponent + 52).toNat
    rw [Int.compare_eq_eq.mpr rfl, Ordering.eq_then]
    rcases Nat.lt_trichotomy mantissa other with less | rfl | more
    · have below := Nat.mul_lt_mul_of_pos_right less unit
      rw [Nat.compare_eq_lt.mpr less, Int.compare_eq_lt.mpr (by omega)]
    · rw [Nat.compare_eq_eq.mpr rfl, Int.compare_eq_eq.mpr (by omega)]
    · have above := Nat.mul_lt_mul_of_pos_right more unit
      rw [Nat.compare_eq_gt.mpr more, Int.compare_eq_gt.mpr (by omega)]
  · have above := scaled_lt otherDigits.2 digits.1 otherLeast more
    rw [Int.compare_eq_gt.mpr more, Int.compare_eq_gt.mpr (by omega)]
    rfl

theorem compare_neg_neg (first second : Int) :
    compare (-first) (-second) = (compare first second).swap := by
  rw [Int.compare_swap, Int.compare_eq_ite_lt, Int.compare_eq_ite_lt]
  simp only [Int.neg_lt_neg_iff]

/-- Doubles compare as the integers that they stand for. -/
theorem compare_stands {first second : Int} {left right : UnpackedFloat}
    (leftStands : Stands first left) (rightStands : Stands second right) :
    left.compare right = some (compare first second) := by
  have counted {mantissa place size : Nat} (low : 2 ^ 52 ≤ mantissa)
      (same : mantissa * 2 ^ place = size * 2 ^ 52) : 0 < size := by
    have := Nat.mul_pos (Nat.lt_of_lt_of_le (by decide) low) (Nat.two_pow_pos place)
    omega
  have less {low high : Int} (order : low < high) : some Ordering.lt = some (compare low high) :=
    congrArg some (Int.compare_eq_lt.mpr order).symm
  have more {low high : Int} (order : low < high) : some Ordering.gt = some (compare high low) :=
    congrArg some (Int.compare_eq_gt.mpr order).symm
  cases left with
  | infinity | notANumber => contradiction
  | zero =>
      obtain rfl : first = 0 := leftStands
      cases right with
      | infinity | notANumber => contradiction
      | zero =>
          obtain rfl : second = 0 := rightStands
          rfl
      | finite sign other place positive =>
          obtain ⟨size, rfl, same⟩ := rightStands.finite
          have size := counted rightStands.1.1 same
          cases sign with
          | negative => exact more (by simp only [Sign.apply]; omega)
          | positive => exact less (by simp only [Sign.apply]; omega)
  | finite sign mantissa exponent positive =>
      obtain ⟨size, rfl, same⟩ := leftStands.finite
      have some := counted leftStands.1.1 same
      cases right with
      | infinity | notANumber => contradiction
      | zero =>
          obtain rfl : second = 0 := rightStands
          cases sign with
          | negative => exact less (by simp only [Sign.apply]; omega)
          | positive => exact more (by simp only [Sign.apply]; omega)
      | finite otherSign other place _ =>
          obtain ⟨otherSize, rfl, otherSame⟩ := rightStands.finite
          have others := counted rightStands.1.1 otherSame
          have sizes := compare_normal leftStands.1 leftStands.2.1 same rightStands.1
            rightStands.2.1 otherSame
          cases sign with
          | positive =>
              cases otherSign with
              | positive => exact congrArg Option.some sizes
              | negative => exact more (by simp only [Sign.apply]; omega)
          | negative =>
              cases otherSign with
              | positive => exact less (by simp only [Sign.apply]; omega)
              | negative =>
                  refine congrArg Option.some ?_
                  rw [sizes]
                  exact (compare_neg_neg _ _).symm

theorem nearestNat_le {number : Nat} (small : number ≤ 2 ^ 64) : nearestNat number ≤ 2 ^ 64 := by
  calc
    nearestNat number ≤ nearestNat (2 ^ 64) := nearestNat_mono small
    _ = 2 ^ 64 := by decide

theorem natAbs_nearest_le {number : Int} (small : number.natAbs ≤ 2 ^ 64) :
    (nearest number).natAbs ≤ 2 ^ 64 := by
  cases number with
  | ofNat size => exact nearestNat_le small
  | negSucc size =>
      rw [nearest, Int.natAbs_neg]
      exact nearestNat_le small

theorem mul_float_stands {first second : Int} {left right : Float}
    (leftStands : Stands first left.toModel.unpack)
    (rightStands : Stands second right.toModel.unpack)
    (small : (first * second).natAbs ≤ 2 ^ 64) :
    Stands (nearest (first * second)) (left * right).toModel.unpack := by
  have product := mul_stands leftStands rightStands
  show Stands _ (Float.Model.pack
    (UnpackedFloat.mul .binary64 left.toModel.unpack right.toModel.unpack)).unpack
  rwa [unpack_pack product (natAbs_nearest_le small)]

/-- An integer is rounded in whatever place it is given. -/
theorem normalize_stands {mantissa value exponent : Int} (least : -52 ≤ exponent)
    (same : mantissa * 2 ^ (exponent + 52).toNat = value * 2 ^ 52) :
    Stands (nearest value) (UnpackedFloat.normalize .binary64 mantissa exponent .positive) := by
  have unit := Nat.two_pow_pos (exponent + 52).toNat
  have rounds {size count : Nat} (positive : 0 < size)
      (scaled : size * 2 ^ (exponent + 52).toNat = count * 2 ^ 52) (sign : Sign) :
      Stands (nearest (sign.apply count))
        (UnpackedFloat.round .binary64 sign size exponent) := by
    have target : (exponent - Format.binary64.targetExponent (totalExponent size exponent)).toNat =
        52 - size.log2 := by
      have digits : Format.binary64.mantissaBits = 53 := rfl
      have smallest : Format.binary64.minExponent = -1074 := rfl
      simp only [Format.targetExponent, totalExponent, digits, smallest]
      omega
    have length := log2_mul_two_pow positive (52 - size.log2)
    have placed : exponent - (52 - size.log2 : Nat) =
        (exponent + 52).toNat - (52 + (52 - size.log2) : Nat) := by
      omega
    rw [UnpackedFloat.round]
    dsimp only [decreaseExponent]
    rw [target, Nat.shiftLeft_eq, nearest_apply, placed]
    refine scaled_stands (Nat.mul_pos positive (Nat.two_pow_pos _)) (by omega) ?_ sign
    rw [Nat.mul_right_comm, scaled, Nat.mul_assoc, ← Nat.pow_add]
  have sizes : mantissa.natAbs * 2 ^ (exponent + 52).toNat = value.natAbs * 2 ^ 52 := by
    simpa [Int.natAbs_mul, Int.natAbs_pow] using congrArg Int.natAbs same
  unfold UnpackedFloat.normalize
  rcases Int.lt_trichotomy mantissa 0 with less | rfl | more
  · have negative := Int.mul_neg_of_neg_of_pos less (Int.natCast_pos.mpr unit)
    have size : (-mantissa).toNat = mantissa.natAbs := by omega
    have sign : value = Sign.negative.apply value.natAbs := by
      simp only [Sign.apply]
      push_cast at negative
      omega
    rw [Int.compare_eq_lt.mpr less, sign]
    dsimp only
    rw [size]
    exact rounds (by omega) sizes .negative
  · obtain rfl : value = 0 := by omega
    rfl
  · have positive := Int.mul_pos more (Int.natCast_pos.mpr unit)
    have size : mantissa.toNat = mantissa.natAbs := by omega
    have sign : value = Sign.positive.apply value.natAbs := by
      simp only [Sign.apply]
      push_cast at positive
      omega
    rw [Int.compare_eq_gt.mpr more, sign]
    dsimp only
    rw [size]
    exact rounds (by omega) sizes .positive

theorem ofScientific_stands (number : Nat) :
    Stands (nearestNat number) (ofScientific .binary64 number 0) := by
  have exponents : (2 : Int) ^ Format.binary64.exponentBits = 2048 := rfl
  have digits : Format.binary64.mantissaBits = 53 := rfl
  generalize zero : (0 : Int) = exponent
  unfold ofScientific
  by_cases none : number = 0
  · rw [dif_pos none, none]
    rfl
  · rw [dif_neg none, exponents, if_neg (by omega), if_neg (by omega), if_pos (by omega)]
    have power : 10 ^ exponent.toNat = 1 := by rw [← zero]; rfl
    rw [mul_finite, digits, power, Nat.mul_one, Int.add_zero, Nat.shiftLeft_eq]
    have positive := Nat.pos_of_ne_zero none
    have length := log2_mul_two_pow positive 53
    exact @scaled_stands _ number 0 53 (Nat.mul_pos positive (Nat.two_pow_pos 53)) (by omega)
      (Nat.mul_one _) .positive

theorem stands_one : Stands 1 (1.0 : Float).toModel.unpack :=
  ⟨⟨by decide, by decide⟩, by decide, rfl⟩

/-- A natural number that a text can give becomes the nearest double. -/
theorem ofNat_stands {number : Nat} (small : number < 2 ^ 64) :
    Stands (nearestNat number) (Float.ofNat number).toModel.unpack := by
  have packs {double : UnpackedFloat} (stands : Stands (nearestNat number) double) :
      Stands (nearestNat number) (Float.Model.pack double).unpack := by
    rwa [unpack_pack stands (nearestNat_le (Nat.le_of_lt small))]
  show Stands _ (Float.ofScientific number false 0).toModel.unpack
  unfold Float.ofScientific
  split
  · have one : Stands 1 (Float.ofBits 0x3FF0000000000000).toModel.unpack := stands_one
    have factor : Stands (nearestNat number) number.toUInt64.toFloat.toModel.unpack := by
      refine packs ?_
      show Stands _ (UnpackedFloat.normalize .binary64 number.toUInt64.toNat 0 .positive)
      have same : number.toUInt64.toNat = number := by
        simp
        omega
      rw [same]
      exact @normalize_stands number number 0 (by decide) rfl
    have product := mul_stands factor one
    rw [Int.mul_one, nearest_of_stands factor] at product
    exact packs product
  · refine packs ?_
    exact ofScientific_stands number

theorem ofInt_stands {number : Int} (least : -2 ^ 64 < number) (most : number < 2 ^ 64) :
    Stands (nearest number) (Float.ofInt number).toModel.unpack := by
  cases number with
  | ofNat size =>
      have small : (size : Int) < 2 ^ 64 := most
      exact ofNat_stands (by omega)
  | negSucc size =>
      have stands := neg_stands (@ofNat_stands (size + 1) (by omega))
      have bounded := @nearestNat_le (size + 1) (by omega)
      show Stands _ (Float.Model.pack (Float.ofNat (size + 1)).toModel.unpack.neg).unpack
      rwa [unpack_pack stands (by simpa using bounded)]

/-- Integers that a text can give. -/
def InRange (number : Int) : Prop :=
  -2 ^ 63 ≤ number ∧ number ≤ 2 ^ 64 - 1

variable {first second : Int}

/-- Integers as doubles compare as the nearest integers do. -/
theorem compare_ofInt (left : InRange first) (right : InRange second) :
    (Float.ofInt first).toModel.compare (Float.ofInt second).toModel =
      some (compare (nearest first) (nearest second)) := by
  obtain ⟨least, most⟩ := left
  obtain ⟨low, high⟩ := right
  exact compare_stands (ofInt_stands (by omega) (by omega)) (ofInt_stands (by omega) (by omega))

theorem beq_ofInt (left : InRange first) (right : InRange second) :
    (Float.ofInt first == Float.ofInt second) = decide (nearest first = nearest second) := by
  show ((Float.ofInt first).toModel.compare (Float.ofInt second).toModel == some .eq) = _
  rw [compare_ofInt left right, Bool.eq_iff_iff]
  simp

theorem lt_ofInt (left : InRange first) (right : InRange second) :
    Float.ofInt first < Float.ofInt second ↔ nearest first < nearest second := by
  show decide (((Float.ofInt first).toModel.compare (Float.ofInt second).toModel ==
    some .lt) = true) = true ↔ _
  rw [compare_ofInt left right]
  simp [Int.compare_eq_lt]

end Workflow.Double
