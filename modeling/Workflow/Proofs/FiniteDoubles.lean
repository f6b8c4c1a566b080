import Mathlib.Algebra.Order.Ring.Nat
import Mathlib.Tactic.Ring
import Workflow.Editor

/-! Arithmetic that stays within the finite doubles.

A double is a sign, a number of at most 53 digits and a power of two.  `Within`
bounds the power, and a number that `Fits` a bound is still within it after
rounding.  So every integer that a text can give is a finite double, and so is
what a finite double moves to when the offset of a copy is added.
-/

open Float.Model (UnpackedFloat Format totalExponent)
open Float.Model.UnpackedFloat

namespace Workflow.Double

/-- A number of at most 53 digits, the last of which stands for at most `2 ^ bound`. -/
def Within (bound : Int) : UnpackedFloat → Prop
  | .zero _ => True
  | .finite _ mantissa exponent _ => mantissa < 2 ^ 53 ∧ exponent ≤ bound
  | _ => False

/-- What is so much below `2 ^ (53 + bound)` that it is still below after rounding. -/
def Fits (bound : Int) (mantissa : Nat) (exponent : Int) : Prop :=
  ∃ room : Nat, exponent + room + 1 = bound ∧ mantissa < (2 ^ 54 - 1) * 2 ^ room

theorem shift_mantissa (number : ExtendedMantissa) (places : Nat) :
    (number >>> places).mantissa = number.mantissa / 2 ^ places := by
  induction places with
  | zero => simp [HShiftRight.hShiftRight, Nat.repeat]
  | succ places ih =>
      show (number >>> places).mantissa / 2 = _
      rw [ih, Nat.div_div_eq_div_mul, Nat.pow_succ]

theorem rounded_le (number : ExtendedMantissa) :
    number.roundedMantissa ≤ number.mantissa + number.roundBit.toNat := by
  obtain ⟨mantissa, round, sticky⟩ := number
  cases round <;> cases sticky <;>
    simp [ExtendedMantissa.roundedMantissa, ExtendedMantissa.accuracy,
      Accuracy.roundToNearestEven]
  omega

/-- Rounding goes up by at most half of what the last digit stands for. -/
theorem rounded_shift_le (mantissa places : Nat) :
    2 * (ExtendedMantissa.mk mantissa false false >>> places).roundedMantissa * 2 ^ places ≤
      2 * mantissa + 2 ^ places := by
  have bound := rounded_le (ExtendedMantissa.mk mantissa false false >>> places)
  rw [shift_mantissa] at bound
  dsimp only at bound
  cases places with
  | zero =>
      simp only [HShiftRight.hShiftRight, Nat.repeat, Bool.toNat_false, Nat.pow_zero,
        Nat.div_one] at bound ⊢
      omega
  | succ places =>
      have bit : (ExtendedMantissa.mk mantissa false false >>> (places + 1)).roundBit =
          (mantissa / 2 ^ places % 2 != 0) := by
        show ((ExtendedMantissa.mk mantissa false false >>> places).mantissa % 2 != 0) = _
        rw [shift_mantissa]
      have most : (mantissa / 2 ^ places % 2 != 0).toNat ≤ mantissa / 2 ^ places % 2 := by
        rcases Nat.mod_two_eq_zero_or_one (mantissa / 2 ^ places) with even | odd
        · simp [even]
        · simp [odd]
      rw [bit, Nat.pow_succ, ← Nat.div_div_eq_div_mul] at bound
      calc
        _ ≤ (mantissa / 2 ^ places + 1) * (2 ^ places * 2) := by
          rw [Nat.pow_succ]
          exact Nat.mul_le_mul_right _ (by omega)
        _ = 2 * (mantissa / 2 ^ places * 2 ^ places) + 2 ^ (places + 1) := by ring
        _ ≤ _ := by
          have floor := Nat.div_mul_le_self mantissa (2 ^ places)
          omega

/-- The number of places by which a number is shifted to have at most 53 digits. -/
def places (mantissa : Nat) (exponent : Int) : Nat :=
  (max (mantissa.log2 + exponent - 52) (-1074) - exponent).toNat

theorem shiftToTarget_eq (mantissa : Nat) (exponent : Int) :
    shiftToTargetExponent .binary64 mantissa exponent .exact =
      (ExtendedMantissa.mk mantissa false false >>> places mantissa exponent,
        exponent + places mantissa exponent) := by
  have target : Format.binary64.targetExponent (totalExponent mantissa exponent) =
      max (mantissa.log2 + exponent - 52) (-1074) := by
    have digits : Format.binary64.mantissaBits = 53 := rfl
    simp only [Format.targetExponent, totalExponent, digits, Format.minExponent]
    norm_num
    omega
  simp only [shiftToTargetExponent, shiftToExponent, target, places]
  rfl

theorem shifted_lt (mantissa : Nat) (exponent : Int) :
    mantissa / 2 ^ places mantissa exponent < 2 ^ 53 := by
  rw [Nat.div_lt_iff_lt_mul (Nat.two_pow_pos _), ← Nat.pow_add]
  refine Nat.lt_log2_self.trans_le (Nat.pow_le_pow_right (by decide) ?_)
  simp only [places]
  omega

theorem log2_le {number digits : Nat} (below : number < 2 ^ (digits + 1)) :
    number.log2 ≤ digits := by
  by_cases zero : number = 0
  · simp [zero]
  · have bound := (Nat.log2_lt zero).mpr below
    omega

theorem round_within {bound exponent : Int} {mantissa : Nat} (low : -1074 ≤ bound)
    (fits : Fits bound mantissa exponent) (sign : Sign) :
    Within bound (roundWithAccuracy .binary64 sign mantissa exponent .exact) := by
  obtain ⟨room, ends, below⟩ := fits
  have digits : mantissa.log2 ≤ 53 + room := log2_le <| by
    calc
      mantissa < (2 ^ 54 - 1) * 2 ^ room := below
      _ ≤ 2 ^ 54 * 2 ^ room := Nat.mul_le_mul_right _ (by decide)
      _ = 2 ^ (53 + room + 1) := by rw [← Nat.pow_add]; congr 1; omega
  let first := ExtendedMantissa.mk mantissa false false >>> places mantissa exponent
  have fewer : first.mantissa < 2 ^ 53 := by
    rw [shift_mantissa]
    exact shifted_lt mantissa exponent
  have place : exponent + places mantissa exponent ≤ bound := by
    simp only [places]
    omega
  -- only a number with its last digit at the bound could be rounded beyond it
  have rounded :
      first.roundedMantissa.log2 + (exponent + places mantissa exponent) ≤ 52 + bound := by
    by_cases last : exponent + places mantissa exponent = bound
    · have half : 2 * first.roundedMantissa * 2 ^ places mantissa exponent ≤
          2 * mantissa + 2 ^ places mantissa exponent := rounded_shift_le _ _
      have same : places mantissa exponent = room + 1 := by omega
      have size : first.roundedMantissa < 2 ^ 53 := by
        rw [same, Nat.pow_succ] at half
        refine Nat.lt_of_mul_lt_mul_left (a := 2 ^ room) ?_
        have regrouped : 2 * first.roundedMantissa * (2 ^ room * 2) =
            4 * (2 ^ room * first.roundedMantissa) := by ring
        omega
      have := log2_le size
      omega
    · have size : first.roundedMantissa < 2 ^ (53 + 1) := by
        have most := rounded_le first
        have bit := Bool.toNat_le first.roundBit
        omega
      have := log2_le size
      omega
  have exponents : exponent + places mantissa exponent +
      places first.roundedMantissa (exponent + places mantissa exponent) ≤ bound := by
    generalize exponent + places mantissa exponent = shifted at *
    simp only [places]
    omega
  unfold roundWithAccuracy
  rw [shiftToTarget_eq]
  dsimp only
  rw [shiftToTarget_eq]
  dsimp only
  by_cases zero : (ExtendedMantissa.mk first.roundedMantissa false false >>>
      places first.roundedMantissa (exponent + places mantissa exponent)).mantissa = 0
  · rw [dif_pos zero]
    trivial
  · rw [dif_neg zero]
    refine ⟨?_, exponents⟩
    rw [shift_mantissa]
    exact shifted_lt _ _

/-- What is packed with a small exponent is unpacked with one. -/
theorem unpack_within {bits : BitVec Format.binary64.numBits} {bound : Int} (low : -1074 ≤ bound)
    (small : (unpackExponent bits).toNat ≤ bound + 1075) (finite : unpackExponent bits ≠ -1#11) :
    Within bound (unpack .binary64 bits) := by
  have bias : ((Format.binary64.exponentBias : Nat) : Int) = 1023 := rfl
  have width : ((Format.binary64.mantissaBitsWithoutImplicit : Nat) : Int) = 52 := rfl
  delta unpack
  rw [if_neg finite]
  by_cases zero : unpackExponent bits = 0#11
  · rw [if_pos zero]
    by_cases empty : unpackMantissa bits = 0#52
    · rw [dif_pos empty]
      trivial
    · rw [dif_neg empty]
      refine ⟨(unpackMantissa bits).isLt.trans (by decide), ?_⟩
      rw [zero, bias]
      simpa using low
  · rw [if_neg zero]
    refine ⟨(1#1 ++ unpackMantissa bits).isLt, ?_⟩
    rw [bias]
    omega

/-- The largest exponent is kept for what is not finite. -/
theorem unpackExponent_ne_of_isFinite {bits : BitVec Format.binary64.numBits}
    (finite : (unpack .binary64 bits).isFinite = true) : unpackExponent bits ≠ -1#11 := by
  intro special
  delta unpack at finite
  rw [if_pos special] at finite
  split at finite <;> cases finite

theorem within_of_isFinite {double : Float.Model} (finite : double.isFinite = true) :
    Within 971 double.unpack := by
  have proper : @unpackExponent .binary64 double.toBits.toBitVec ≠ -1#11 :=
    unpackExponent_ne_of_isFinite finite
  have largest : (@unpackExponent .binary64 double.toBits.toBitVec).toNat ≠ 2047 :=
    fun same => proper (BitVec.eq_of_toNat_eq same)
  refine unpack_within (by decide) ?_ proper
  have range : (@unpackExponent .binary64 double.toBits.toBitVec).toNat < 2048 := BitVec.isLt _
  omega

theorem unpack_pack_within {number : UnpackedFloat} {bound : Int} (low : -1074 ≤ bound)
    (high : bound ≤ 971) (within : Within bound number) :
    Within bound (Float.Model.pack number).unpack := by
  show Within bound (unpack .binary64 (UnpackedFloat.pack .binary64 number))
  cases number with
  | zero sign =>
      show Within bound (unpack .binary64 (packComponents .binary64 sign 0 0))
      refine unpack_within low ?_ ?_ <;> simp
      omega
  | finite sign mantissa exponent positive =>
      obtain ⟨_, most⟩ := within
      have bias : ((Format.binary64.exponentBias : Nat) : Int) = 1023 := rfl
      delta UnpackedFloat.pack
      dsimp only
      rw [bias]
      split
      · omega
      · split
        · refine unpack_within low ?_ ?_
          · simp
            omega
          · rw [unpackExponent_packComponents]
            intro special
            have same := congrArg BitVec.toNat special
            simp at same
            omega
        · refine unpack_within low ?_ ?_ <;> simp
          omega
  | infinity | notANumber => contradiction

theorem isFinite_of_within {double : Float.Model} {bound : Int}
    (within : Within bound double.unpack) : double.isFinite = true := by
  unfold Float.Model.isFinite
  cases unpacked : double.unpack <;> rw [unpacked] at within <;> trivial

theorem Fits.shift {bound exponent : Int} {mantissa : Nat} (fits : Fits bound mantissa exponent)
    (places : Nat) : Fits bound (mantissa <<< places) (exponent - places) := by
  obtain ⟨room, ends, below⟩ := fits
  refine ⟨room + places, by omega, ?_⟩
  rw [Nat.shiftLeft_eq, Nat.pow_add, ← Nat.mul_assoc]
  exact Nat.mul_lt_mul_of_pos_right below (Nat.two_pow_pos places)

theorem normalize_within {bound mantissa exponent : Int} (low : -1074 ≤ bound)
    (fits : Fits bound mantissa.natAbs exponent) (zero : Sign) :
    Within bound (UnpackedFloat.normalize .binary64 mantissa exponent zero) := by
  have rounded {size : Nat} (same : size = mantissa.natAbs) (sign : Sign) :
      Within bound (UnpackedFloat.round .binary64 sign size exponent) :=
    round_within low (same ▸ fits.shift _) sign
  unfold UnpackedFloat.normalize
  split
  · exact rounded (by rename_i less; have := Int.compare_eq_lt.mp less; omega) _
  · trivial
  · exact rounded (by rename_i more; have := Int.compare_eq_gt.mp more; omega) _

theorem mul_within {first second : Nat} {low high : Int} (below : first * second < 2 ^ 117)
    (most : low + high ≤ -40) (sign other : Sign) (positive : 0 < first) (rest : 0 < second) :
    Within 60 (mul .binary64 (.finite sign first low positive)
      (.finite other second high rest)) := by
  refine round_within (by decide) ⟨(59 - (low + high)).toNat, by omega, ?_⟩ (sign * other)
  calc
    first * second < (2 ^ 54 - 1) * 2 ^ 99 := by omega
    _ ≤ (2 ^ 54 - 1) * 2 ^ (59 - (low + high)).toNat :=
      Nat.mul_le_mul_left _ (Nat.pow_le_pow_right (by decide) (by omega))

theorem ofNat_within {number : Nat} (small : number < 2 ^ 64) :
    Within 60 (Float.ofNat number).toModel.unpack := by
  show Within 60 (Float.ofScientific number false 0).toModel.unpack
  unfold Float.ofScientific
  split
  · have one : (Float.ofBits 0x3FF0000000000000).toModel.unpack =
        .finite .positive (2 ^ 52) (-52) (by decide) := rfl
    have factor : Within 12 number.toUInt64.toFloat.toModel.unpack := by
      refine unpack_pack_within (by decide) (by decide) (normalize_within (by decide) ?_ _)
      have same : number.toUInt64.toNat = number := by
        simp
        omega
      refine ⟨11, rfl, ?_⟩
      simp only [same]
      omega
    refine unpack_pack_within (by decide) (by decide) ?_
    show Within 60 (mul .binary64 number.toUInt64.toFloat.toModel.unpack
      (Float.ofBits 0x3FF0000000000000).toModel.unpack)
    rw [one]
    cases known : number.toUInt64.toFloat.toModel.unpack with
    | zero sign => trivial
    | finite sign mantissa exponent positive =>
        rw [known] at factor
        obtain ⟨below, most⟩ := factor
        exact mul_within (by omega) (by omega) _ _ _ _
    | infinity | notANumber =>
        rw [known] at factor
        contradiction
  · refine unpack_pack_within (by decide) (by decide) ?_
    show Within 60 (ofScientific .binary64 number 0)
    have shifted : number <<< 53 * 10 ^ 0 < 2 ^ 117 := by
      rw [Nat.shiftLeft_eq]
      omega
    generalize zero : (0 : Int) = exponent at *
    unfold ofScientific
    by_cases none : number = 0
    · rw [dif_pos none]
      trivial
    · have exponents : (2 : Int) ^ Format.binary64.exponentBits = 2048 := rfl
      rw [dif_neg none, exponents, if_neg (by omega), if_neg (by omega), if_pos (by omega)]
      have digits : Format.binary64.mantissaBits = 53 := rfl
      refine mul_within ?_ ?_ _ _ _ _
      · simpa [digits, ← zero] using shifted
      · simp [digits]

theorem isFinite_ofInt {number : Int} (least : -2 ^ 64 < number) (most : number < 2 ^ 64) :
    (Float.ofInt number).isFinite = true := by
  cases number with
  | ofNat size =>
      have most : (size : Int) < 2 ^ 64 := most
      exact isFinite_of_within (ofNat_within (by omega))
  | negSucc size =>
      have within : Within 60 (Float.ofNat size.succ).toModel.unpack := ofNat_within (by omega)
      have negated : Within 60 (Float.ofNat size.succ).toModel.unpack.neg := by
        cases unpacked : (Float.ofNat size.succ).toModel.unpack <;> rw [unpacked] at within <;>
          exact within
      exact isFinite_of_within (unpack_pack_within (by decide) (by decide) negated)

/-- What is added to a number is small enough if it disappears in the rounding of a large one. -/
theorem add_within {mantissa added : Nat} {exponent place : Int} (below : mantissa < 2 ^ 53)
    (most : exponent ≤ 971) (few : added < 2 ^ 53) (small : place ≤ 900) (sign other : Sign)
    (positive : 0 < mantissa) (rest : 0 < added) :
    Within 971 (add .binary64 (.finite sign mantissa exponent positive)
      (.finite other added place rest)) := by
  have size (first second : Nat) :
      (sign.apply first + other.apply second).natAbs ≤ first + second := by
    cases sign <;> cases other <;> simp only [Sign.apply] <;> omega
  refine normalize_within (by decide) ?_ _
  generalize lower : min exponent place = smaller
  refine ⟨(970 - smaller).toNat, ?_, (size _ _).trans_lt ?_⟩
  · show smaller + _ + 1 = 971
    omega
  · have first : (exponent - smaller).toNat ≤ (970 - smaller).toNat + 1 := by omega
    have second : 53 + (place - smaller).toNat ≤ (970 - smaller).toNat := by omega
    calc
      mantissa <<< (exponent - smaller).toNat + added <<< (place - smaller).toNat
      _ = mantissa * 2 ^ (exponent - smaller).toNat + added * 2 ^ (place - smaller).toNat := by
        simp only [Nat.shiftLeft_eq]
      _ ≤ (2 ^ 53 - 1) * 2 ^ ((970 - smaller).toNat + 1) +
          added * 2 ^ (place - smaller).toNat :=
        Nat.add_le_add_right (Nat.mul_le_mul (Nat.le_pred_of_lt below)
          (Nat.pow_le_pow_right (by decide) first)) _
      _ < (2 ^ 53 - 1) * 2 ^ ((970 - smaller).toNat + 1) +
          2 ^ 53 * 2 ^ (place - smaller).toNat :=
        Nat.add_lt_add_left (Nat.mul_lt_mul_of_pos_right few (Nat.two_pow_pos _)) _
      _ ≤ (2 ^ 53 - 1) * 2 ^ ((970 - smaller).toNat + 1) + 2 ^ (970 - smaller).toNat := by
        rw [← Nat.pow_add]
        exact Nat.add_le_add_left (Nat.pow_le_pow_right (by decide) second) _
      _ = (2 ^ 54 - 1) * 2 ^ (970 - smaller).toNat := by
        rw [Nat.pow_succ]
        omega

theorem isFinite_add_duplicateOffset {double : Float} (finite : double.isFinite = true) :
    (double + Editor.duplicateOffset).isFinite = true := by
  have offset : Editor.duplicateOffset.toModel.unpack =
      .finite .positive (5 * 2 ^ 50) (-47) (by decide) := rfl
  have within : Within 971 double.toModel.unpack := within_of_isFinite finite
  refine isFinite_of_within (unpack_pack_within (by decide) le_rfl ?_)
  show Within 971 (add .binary64 double.toModel.unpack Editor.duplicateOffset.toModel.unpack)
  rw [offset]
  cases unpacked : double.toModel.unpack with
  | zero sign => exact ⟨by decide, by decide⟩
  | finite sign mantissa exponent positive =>
      rw [unpacked] at within
      exact add_within within.1 within.2 (by decide) (by decide) _ _ _ _
  | infinity | notANumber =>
      rw [unpacked] at within
      contradiction

end Workflow.Double
